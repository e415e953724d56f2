/-
Text forms of internet addresses.  An IPv4 address is four decimal octets
joined by dots.  An IPv6 address is eight hexadecimal groups joined by colons,
without the `::` shorthand, and may carry a scope after a percent sign.
Reading a printed address gives the address back.
-/
import AshiChat.Kit.BigEndian

namespace IpText

open List Nat

/-- The value of a lower-case digit in any base up to sixteen. -/
def digitValue (char : Char) : Option Nat :=
  (List.range 16).find? fun digit => digit.digitChar == char

theorem digitValue_digitChar :
    ∀ digit < 16, digitValue (Nat.digitChar digit) = some digit := by
  decide

/-- Read a numeral, most significant digit first. -/
def numeral? (base : Nat) (text : List Char) : Option Nat :=
  text.foldlM (fun acc char =>
    (digitValue char).map fun digit => base * acc + digit) 0

theorem numeral?_append_singleton (base : Nat) (text : List Char)
    (char : Char) :
    numeral? base (text ++ [char]) = (numeral? base text).bind fun acc =>
      (digitValue char).map fun digit => base * acc + digit := by
  simp [numeral?, foldlM_append]

variable {base : Nat} {separator char : Char} {values : List Nat}

theorem numeral?_toDigits (hbase : 1 < base) (hsixteen : base ≤ 16)
    (value : Nat) :
    numeral? base (base.toDigits value) = some value := by
  induction value using Nat.strong_induction_on with
  | _ value ih =>
    rw [toDigits_eq_if hbase]
    by_cases hsmall : value < base
    · simp [hsmall, numeral?, digitValue_digitChar value
        (hsmall.trans_le hsixteen)]
    · have hlow : value % base < 16 :=
        (mod_lt value (by omega)).trans_le hsixteen
      have hquot : value / base < value := div_lt_self (by omega) hbase
      rw [if_neg hsmall, numeral?_append_singleton, ih _ hquot,
        digitValue_digitChar _ hlow]
      simp [div_add_mod]

/-- A character that is no digit stands in no numeral. -/
theorem notMem_toDigits (hbase : 1 < base) (hsixteen : base ≤ 16)
    (hchar : digitValue char = none) (value : Nat) :
    char ∉ base.toDigits value := by
  have hdigit : ∀ digit < 16, char ≠ digit.digitChar := by
    rintro digit hlt rfl
    rw [digitValue_digitChar digit hlt] at hchar
    cases hchar
  induction value using Nat.strong_induction_on with
  | _ value ih =>
    rw [toDigits_eq_if hbase]
    by_cases hsmall : value < base
    · simpa [hsmall] using hdigit value (hsmall.trans_le hsixteen)
    · have hlow : value % base < 16 :=
        (mod_lt value (by omega)).trans_le hsixteen
      have hquot : value / base < value := div_lt_self (by omega) hbase
      rw [if_neg hsmall, mem_append, not_or, mem_singleton]
      exact ⟨ih _ hquot, hdigit _ hlow⟩

/-- Numerals joined by a separator. -/
def joined (separator : Char) (base : Nat) (values : List Nat) : List Char :=
  [separator].intercalate (values.map base.toDigits)

def joined? (separator : Char) (base : Nat) (text : List Char) :
    Option (List Nat) :=
  (text.splitOn separator).mapM (numeral? base)

theorem joined?_joined (hbase : 1 < base) (hsixteen : base ≤ 16)
    (hseparator : digitValue separator = none) (hne : values ≠ []) :
    joined? separator base (joined separator base values) = some values := by
  have hfree : ∀ field ∈ values.map base.toDigits, separator ∉ field := by
    intro field hfield
    obtain ⟨value, -, rfl⟩ := mem_map.mp hfield
    exact notMem_toDigits hbase hsixteen hseparator value
  rw [joined?, joined, splitOn_intercalate separator hfree (by simpa)]
  clear hfree hne
  induction values with
  | nil => rfl
  | cons _ _ ih =>
    simp only [map_cons, mapM_cons, numeral?_toDigits hbase hsixteen, ih]
    rfl

/-- What may stand after the percent sign of an IPv6 address. -/
def Scope : Type := { text : List Char // text ≠ [] ∧ '%' ∉ text ∧ '/' ∉ text }

inductive Address where
  | v4 (octets : { bytes : List UInt8 // bytes.length = 4 })
  | v6 (octets : { bytes : List UInt8 // bytes.length = 16 })
      (scope : Option Scope)

/-- Sixteen-bit groups of a byte string of even length. -/
def groups : List UInt8 → List Nat
  | high :: low :: rest => BigEndian.decode [high, low] :: groups rest
  | _ => []

def ofGroups (values : List Nat) : List UInt8 :=
  values.flatMap (BigEndian.encode 2)

theorem ofGroups_groups : ∀ {bytes : List UInt8} (count : Nat),
    bytes.length = 2 * count → ofGroups (groups bytes) = bytes
  | [], _, _ => rfl
  | [_], width, hlen => by simp only [length_singleton] at hlen; omega
  | high :: low :: rest, width, hlen => by
      have hrest : rest.length = 2 * (width - 1) := by
        simp only [length_cons] at hlen
        omega
      have hpair := BigEndian.encode_decode [high, low]
      simp only [groups, ofGroups, flatMap_cons] at hpair ⊢
      rw [show BigEndian.encode 2 (BigEndian.decode [high, low]) = [high, low]
        from hpair]
      exact congrArg (high :: low :: ·) (ofGroups_groups (width - 1) hrest)

/-- The part of an IPv6 address before its scope. -/
def print6 (octets : List UInt8) : List Char := joined ':' 16 (groups octets)

def print : Address → List Char
  | .v4 octets => joined '.' 10 (octets.1.map UInt8.toNat)
  | .v6 octets none => print6 octets.1
  | .v6 octets (some scope) => print6 octets.1 ++ '%' :: scope.1

/-- Bytes of the length the address family asks for. -/
def sized? (width : Nat) (bytes : List UInt8) :
    Option { bytes : List UInt8 // bytes.length = width } :=
  if hlen : bytes.length = width then some ⟨bytes, hlen⟩ else none

def parse4 (text : List Char) : Option Address := do
  let values ← joined? '.' 10 text
  guard (∀ value ∈ values, value < 256)
  let octets ← sized? 4 (values.map UInt8.ofNat)
  return .v4 octets

def parse6 (text : List Char) (scope : Option Scope) : Option Address := do
  let values ← joined? ':' 16 text
  guard (∀ value ∈ values, value < 65536)
  let octets ← sized? 16 (ofGroups values)
  return .v6 octets scope

/-- Colons mark an IPv6 address; the scope follows the percent sign. -/
def parse (text : List Char) : Option Address :=
  if ':' ∈ text then
    match text.splitOn '%' with
    | [front] => parse6 front none
    | [front, back] =>
      if hscope : back ≠ [] ∧ '%' ∉ back ∧ '/' ∉ back then
        parse6 front (some ⟨back, hscope⟩)
      else none
    | _ => none
  else parse4 text

/-- A joined text holds digits and separators only. -/
theorem notMem_joined (hbase : 1 < base) (hsixteen : base ≤ 16)
    (hchar : digitValue char = none) (hne : char ≠ separator)
    (values : List Nat) :
    char ∉ joined separator base values := by
  have hfield := notMem_toDigits hbase hsixteen hchar
  induction values with
  | nil => simp [joined]
  | cons value rest ih =>
    cases rest with
    | nil => simpa [joined] using hfield value
    | cons =>
      simp only [joined, map_cons, intercalate_cons_cons,
        mem_append, mem_singleton, not_or] at ih ⊢
      exact ⟨⟨hfield value, hne⟩, ih⟩

/-- Two fields or more have a separator between them. -/
theorem separator_mem_joined (htwo : 2 ≤ values.length) :
    separator ∈ joined separator base values := by
  match values, htwo with
  | first :: second :: rest, _ => simp [joined, intercalate_cons_cons]

theorem length_groups : ∀ {bytes : List UInt8} (count : Nat),
    bytes.length = 2 * count → (groups bytes).length = count
  | [], width, hlen => by simp at hlen; simp [groups, hlen]
  | [_], width, hlen => by simp only [length_singleton] at hlen; omega
  | high :: low :: rest, width, hlen => by
      simp only [length_cons] at hlen
      have hrest : (groups rest).length = width - 1 :=
        length_groups (width - 1) (by omega)
      simp only [groups, length_cons, hrest]
      omega

theorem groups_lt : ∀ (bytes : List UInt8), ∀ value ∈ groups bytes,
    value < 65536
  | [], _, hvalue | [_], _, hvalue => by simp [groups] at hvalue
  | high :: low :: rest, value, hvalue => by
      rcases mem_cons.mp hvalue with rfl | hvalue
      · have hlt := BigEndian.decode_lt [high, low]
        simpa using hlt
      · exact groups_lt rest value hvalue

theorem parse4_print (octets : { bytes : List UInt8 // bytes.length = 4 }) :
    parse4 (print (.v4 octets)) = some (.v4 octets) := by
  obtain ⟨bytes, hlen⟩ := octets
  have hne : bytes.map UInt8.toNat ≠ [] := by
    intro hnil
    rw [map_eq_nil_iff] at hnil
    simp [hnil] at hlen
  have hread : joined? '.' 10 (joined '.' 10 (bytes.map UInt8.toNat)) =
      some (bytes.map UInt8.toNat) :=
    joined?_joined (by decide) (by decide) (by decide) hne
  have hbound : ∀ value ∈ bytes.map UInt8.toNat, value < 256 := by
    intro value hvalue
    obtain ⟨byte, -, rfl⟩ := mem_map.mp hvalue
    exact byte.toNat_lt
  have hback : (bytes.map UInt8.toNat).map UInt8.ofNat = bytes := by
    simp [Function.comp_def]
  simp only [parse4, print, hread, Option.bind_eq_bind, Option.bind_some,
    guard, if_pos hbound, hback]
  simp [sized?, hlen]

theorem parse6_print6 (octets : { bytes : List UInt8 // bytes.length = 16 })
    (scope : Option Scope) :
    parse6 (print6 octets.1) scope = some (.v6 octets scope) := by
  obtain ⟨bytes, hlen⟩ := octets
  have hne : groups bytes ≠ [] := by
    intro hnil
    have hcount := length_groups 8 hlen
    simp [hnil] at hcount
  have hread : joined? ':' 16 (joined ':' 16 (groups bytes)) =
      some (groups bytes) :=
    joined?_joined (by decide) (by decide) (by decide) hne
  simp only [parse6, print6, hread, Option.bind_eq_bind, Option.bind_some,
    guard, if_pos (groups_lt bytes), ofGroups_groups 8 hlen]
  simp [sized?, hlen]

theorem colon_mem_print6
    (octets : { bytes : List UInt8 // bytes.length = 16 }) :
    ':' ∈ print6 octets.1 := by
  apply separator_mem_joined
  rw [length_groups 8 octets.2]
  decide

theorem parse_print (address : Address) :
    parse (print address) = some address := by
  cases address with
  | v4 octets =>
    have hcolon : ':' ∉ print (.v4 octets) :=
      notMem_joined (by decide) (by decide) (by decide) (by decide) _
    rw [parse, if_neg hcolon, parse4_print]
  | v6 octets scope =>
    have hcolon := colon_mem_print6 octets
    have hpercent : '%' ∉ print6 octets.1 :=
      notMem_joined (by decide) (by decide) (by decide) (by decide) _
    cases scope with
    | none =>
      simp only [parse, print, if_pos hcolon,
        splitOn_eq_singleton hpercent, parse6_print6]
    | some scope =>
      obtain ⟨back, hback⟩ := scope
      have hcolon : ':' ∈ print6 octets.1 ++ '%' :: back :=
        mem_append_left _ hcolon
      simp only [parse, print, if_pos hcolon,
        splitOn_append_cons_self_of_not_mem hpercent,
        splitOn_eq_singleton hback.2.1, dif_pos hback, parse6_print6]

end IpText
