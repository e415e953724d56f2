/-
Dictionaries that remember the order in which their keys were first assigned.
Assigning to a present key keeps its place; a new key goes to the end.  The
keys are pairwise distinct by construction, so iteration visits every binding
exactly once and a search for the first match is a function of the contents.
-/
import Mathlib.Data.Fintype.EquivFin
import Mathlib.Data.List.Nodup

universe u v

/-- An association list with pairwise distinct keys, in assignment order. -/
structure OrderedDict (κ : Type u) (ν : Type v) where
  entries : List (κ × ν)
  nodup : (entries.map Prod.fst).Nodup

namespace OrderedDict

open List Option

variable {κ : Type u} {ν : Type v}

@[ext] theorem ext {left right : OrderedDict κ ν}
    (hentries : left.entries = right.entries) : left = right := by
  cases left
  cases right
  simp only at hentries
  subst hentries
  rfl

instance [DecidableEq κ] [DecidableEq ν] : DecidableEq (OrderedDict κ ν) :=
  fun left right =>
    decidable_of_iff (left.entries = right.entries) ⟨ext, fun heq => heq ▸ rfl⟩

def empty : OrderedDict κ ν := ⟨[], nodup_nil⟩

instance : Inhabited (OrderedDict κ ν) := ⟨empty⟩

def keys (dict : OrderedDict κ ν) : List κ := dict.entries.map Prod.fst

def values (dict : OrderedDict κ ν) : List ν := dict.entries.map Prod.snd

def size (dict : OrderedDict κ ν) : Nat := dict.entries.length

variable [DecidableEq κ]

/-- Value bound to `key` in an association list. -/
def lookup (key : κ) : List (κ × ν) → Option ν
  | [] => none
  | (k, value) :: rest => if k = key then some value else lookup key rest

/-- Replace the binding of `key` where it stands, or append a new one. -/
def assign (key : κ) (value : ν) : List (κ × ν) → List (κ × ν)
  | [] => [(key, value)]
  | (k, old) :: rest =>
    if k = key then (k, value) :: rest else (k, old) :: assign key value rest

theorem mem_keys_assign (key : κ) (value : ν) (entries : List (κ × ν)) (k : κ) :
    k ∈ (assign key value entries).map Prod.fst ↔
      k = key ∨ k ∈ entries.map Prod.fst := by
  induction entries with
  | nil => simp [assign]
  | cons head _ ih =>
    obtain ⟨k₀, _⟩ := head
    by_cases hkey : k₀ = key
    · subst hkey
      simp [assign]
    · simp only [assign, hkey, ↓reduceIte, map_cons, mem_cons, ih]
      tauto

variable {entries : List (κ × ν)}

theorem nodup_assign (key : κ) (value : ν)
    (hnodup : (entries.map Prod.fst).Nodup) :
    ((assign key value entries).map Prod.fst).Nodup := by
  induction entries with
  | nil => simp [assign]
  | cons head _ ih =>
    obtain ⟨k, _⟩ := head
    simp only [map_cons, nodup_cons] at hnodup
    by_cases hkey : k = key
    · simp only [assign, hkey, ↓reduceIte, map_cons, nodup_cons]
      exact hkey ▸ hnodup
    · simp only [assign, hkey, ↓reduceIte, map_cons, nodup_cons]
      refine ⟨?_, ih hnodup.2⟩
      rw [mem_keys_assign]
      rintro (hk | hk)
      · exact hkey hk
      · exact hnodup.1 hk

variable {key : κ} {value : ν}

theorem lookup_eq_some_of_mem (hnodup : (entries.map Prod.fst).Nodup)
    (hmem : (key, value) ∈ entries) : lookup key entries = some value := by
  induction entries with
  | nil => simp at hmem
  | cons head _ ih =>
    obtain ⟨k, _⟩ := head
    simp only [map_cons, nodup_cons] at hnodup
    simp only [mem_cons, Prod.mk.injEq] at hmem
    rcases hmem with ⟨rfl, rfl⟩ | hmem
    · simp [lookup]
    · have hne : k ≠ key := by
        rintro rfl
        exact hnodup.1 (mem_map.mpr ⟨_, hmem, rfl⟩)
      simpa [lookup, hne] using ih hnodup.2 hmem

theorem mem_of_lookup_eq_some
    (hlookup : lookup key entries = some value) : (key, value) ∈ entries := by
  induction entries with
  | nil => simp [lookup] at hlookup
  | cons head _ ih =>
    obtain ⟨k, _⟩ := head
    by_cases hkey : k = key
    · simp only [lookup, hkey, ↓reduceIte, some.injEq] at hlookup
      simp [hkey, hlookup]
    · simp only [lookup, hkey, ↓reduceIte] at hlookup
      exact mem_cons_of_mem _ (ih hlookup)

/-- `d.get(key)` -/
def get? (dict : OrderedDict κ ν) (key : κ) : Option ν :=
  lookup key dict.entries

/-- `key in d` -/
def contains (dict : OrderedDict κ ν) (key : κ) : Bool := (dict.get? key).isSome

/-- `d[key] = value` -/
def set (dict : OrderedDict κ ν) (key : κ) (value : ν) : OrderedDict κ ν :=
  ⟨assign key value dict.entries, nodup_assign key value dict.nodup⟩

/-- `d.pop(key, None)` without its result. -/
def erase (dict : OrderedDict κ ν) (key : κ) : OrderedDict κ ν :=
  ⟨dict.entries.filter (fun binding => binding.1 ≠ key),
    dict.nodup.sublist (List.Sublist.map Prod.fst filter_sublist)⟩

/-- Update the value bound to `key` in place; absent keys change nothing. -/
def modify (dict : OrderedDict κ ν) (key : κ) (f : ν → ν) : OrderedDict κ ν :=
  ⟨dict.entries.map (fun binding =>
        (binding.1, if binding.1 = key then f binding.2 else binding.2)),
    by simpa [List.map_map, Function.comp_def] using dict.nodup⟩

/-- First binding, in assignment order, that satisfies the test. -/
def first? (dict : OrderedDict κ ν) (test : κ → ν → Bool) : Option (κ × ν) :=
  dict.entries.find? (fun binding => test binding.1 binding.2)

variable (dict : OrderedDict κ ν)

theorem mem_entries_iff :
    (key, value) ∈ dict.entries ↔ dict.get? key = some value :=
  ⟨lookup_eq_some_of_mem dict.nodup, mem_of_lookup_eq_some⟩

theorem get?_eq_of_mem_entries {binding : κ × ν}
    (hmem : binding ∈ dict.entries) : dict.get? binding.1 = some binding.2 :=
  dict.mem_entries_iff.mp hmem

/-- A fold over the bindings, seen through `view`: if only the binding of
`key` changes what is seen, it changes it once. -/
theorem view_foldl_entries {β γ : Type*}
    (f : β → κ × ν → β) (view : β → γ) (key : κ) (change : γ → ν → γ)
    (hother : ∀ state binding, binding.1 ≠ key →
      view (f state binding) = view state)
    (hself : ∀ state value,
      view (f state (key, value)) = change (view state) value)
    (state : β) :
    view (dict.entries.foldl f state) =
      (dict.get? key).elim (view state) (change (view state)) := by
  obtain ⟨entries, hnodup⟩ := dict
  simp only [get?]
  induction entries generalizing state with
  | nil => rfl
  | cons head rest ih =>
    obtain ⟨k, value⟩ := head
    simp only [map_cons, nodup_cons] at hnodup
    rw [foldl_cons, ih (f state (k, value)) hnodup.2]
    by_cases hkey : k = key
    · subst hkey
      have hgone : lookup k rest = none := by
        cases hlookup : lookup k rest with
        | none => rfl
        | some =>
          exact absurd (mem_map.mpr
            ⟨_, mem_of_lookup_eq_some hlookup, rfl⟩) hnodup.1
      simp [lookup, hgone, hself, Option.elim]
    · simp [lookup, hkey, hother state (k, value) hkey]

theorem get?_of_first? {test : κ → ν → Bool}
    (hfirst : dict.first? test = some (key, value)) :
    dict.get? key = some value ∧ test key value = true :=
  ⟨dict.mem_entries_iff.mp (mem_of_find?_eq_some hfirst),
    by simpa using find?_some hfirst⟩

theorem first?_eq_none_iff (test : κ → ν → Bool) : dict.first? test = none ↔
      ∀ key value, dict.get? key = some value → test key value = false := by
  simp [first?, mem_entries_iff]

@[simp] theorem get?_empty (key : κ) :
    (empty : OrderedDict κ ν).get? key = none := rfl

theorem lookup_assign (key : κ) (value : ν) (entries : List (κ × ν)) (k : κ) :
    lookup k (assign key value entries) =
      if key = k then some value else lookup k entries := by
  induction entries with
  | nil => simp [assign, lookup]
  | cons head _ ih =>
    obtain ⟨k₀, _⟩ := head
    by_cases hkey : k₀ = key
    · subst hkey
      by_cases hk : k₀ = k <;> simp [assign, lookup, hk]
    · simp only [assign, hkey, ↓reduceIte, lookup, ih]
      by_cases hk : k₀ = k
      · have hne : key ≠ k := fun heq => hkey (hk.trans heq.symm)
        simp [hk, hne]
      · simp [hk]

theorem get?_set (key : κ) (value : ν) (k : κ) : (dict.set key value).get? k =
      if key = k then some value else dict.get? k :=
  lookup_assign key value dict.entries k

@[simp] theorem get?_set_self (key : κ) (value : ν) :
    (dict.set key value).get? key = some value := by
  simp [get?_set]

/-- What is found after an assignment was assigned or was there. -/
theorem get?_set_cases {dict : OrderedDict κ ν} {key k : κ}
    {value found : ν} (hget : (dict.set key value).get? k = some found) :
    (k = key ∧ found = value) ∨ (k ≠ key ∧ dict.get? k = some found) := by
  rw [get?_set] at hget
  split at hget
  · next hk => exact .inl ⟨hk.symm, (some.inj hget).symm⟩
  · next hk => exact .inr ⟨Ne.symm hk, hget⟩

/-- A search in which all other bindings fail. -/
theorem first?_set {dict : OrderedDict κ ν} (value : ν) {test : κ → ν → Bool}
    (hothers : ∀ k v, dict.get? k = some v → k ≠ key → test k v = false) :
    (dict.set key value).first? test =
      if test key value then some (key, value) else none := by
  cases hfirst : (dict.set key value).first? test with
  | none =>
    have hfails := (first?_eq_none_iff _ test).mp hfirst key value
      (dict.get?_set_self key value)
    simp [hfails]
  | some binding =>
    obtain ⟨k, v⟩ := binding
    obtain ⟨hfound, hpass⟩ := get?_of_first? _ hfirst
    rcases get?_set_cases hfound with ⟨rfl, rfl⟩ | ⟨hne, hold⟩
    · simp [hpass]
    · rw [hothers k v hold hne] at hpass
      cases hpass

theorem get?_erase (key k : κ) :
    (dict.erase key).get? k = if key = k then none else dict.get? k := by
  simp only [get?, erase]
  induction dict.entries with
  | nil => simp [lookup]
  | cons head _ ih =>
    obtain ⟨k₀, _⟩ := head
    by_cases hkey : k₀ = key
    · subst hkey
      simp only [ne_eq, not_true_eq_false, decide_false, Bool.false_eq_true,
        not_false_eq_true, filter_cons_of_neg]
      rw [ih]
      by_cases hk : k₀ = k <;> simp [lookup, hk]
    · simp only [ne_eq, hkey, not_false_eq_true, decide_true,
        filter_cons_of_pos, lookup]
      rw [ih]
      by_cases hk : k₀ = k
      · have hne : key ≠ k := fun heq => hkey (hk.trans heq.symm)
        simp [hk, hne]
      · simp [hk]

theorem get?_of_get?_erase {dict : OrderedDict κ ν} {key k : κ}
    (hget : (dict.erase key).get? k = some value) :
    dict.get? k = some value := by
  rw [get?_erase] at hget
  split at hget
  · cases hget
  · exact hget

theorem get?_of_get?_foldl_erase {α : Type*} {dict : OrderedDict κ ν}
    {k : κ} (keyOf : α → κ) (items : List α)
    (hget : (items.foldl (fun dict item => dict.erase (keyOf item))
      dict).get? k = some value) : dict.get? k = some value := by
  induction items generalizing dict with
  | nil => exact hget
  | cons _ _ ih => exact get?_of_get?_erase (ih hget)

theorem entries_foldl_erase (keys : List κ) : (keys.foldl erase dict).entries =
      dict.entries.filter fun binding => binding.1 ∉ keys := by
  induction keys generalizing dict with
  | nil => simp
  | cons _ _ ih =>
    rw [List.foldl_cons, ih, erase, List.filter_filter]
    refine filter_congr fun binding _ => ?_
    simp [Bool.and_comm]

/-- Erasing the first keys leaves the other bindings in place. -/
theorem entries_foldl_erase_take (n : Nat) :
    (((dict.entries.take n).map Prod.fst).foldl erase dict).entries =
      dict.entries.drop n := by
  have hsplit : ∀ front back : List (κ × ν),
      ((front ++ back).map Prod.fst).Nodup →
        (front ++ back).filter (fun binding =>
          binding.1 ∉ front.map Prod.fst) = back := by
    intro front back hnodup
    rw [map_append, nodup_append'] at hnodup
    have hfront : front.filter (fun binding =>
        binding.1 ∉ front.map Prod.fst) = [] := by
      simpa using fun key value hmem => ⟨value, hmem⟩
    rw [filter_append, hfront, nil_append, filter_eq_self]
    intro binding hmem
    exact decide_eq_true fun hkey =>
      hnodup.2.2 hkey (mem_map_of_mem hmem)
  have hdrop := hsplit (dict.entries.take n) (dict.entries.drop n)
  rw [take_append_drop] at hdrop
  rw [entries_foldl_erase, hdrop dict.nodup]

@[simp] theorem get?_erase_self (key : κ) :
    (dict.erase key).get? key = none := by
  simp [get?_erase]

theorem get?_modify (key : κ) (f : ν → ν) (k : κ) : (dict.modify key f).get? k =
      if key = k then (dict.get? k).map f else dict.get? k := by
  simp only [get?, modify]
  induction dict.entries with
  | nil => simp [lookup]
  | cons head _ ih =>
    obtain ⟨k₀, _⟩ := head
    simp only [map_cons, lookup, ih]
    by_cases hk : k₀ = k
    · subst hk
      by_cases hkey : k₀ = key
      · simp [hkey]
      · simp [hkey, Ne.symm hkey]
    · simp [hk]

theorem get?_modify_of_get? {dict : OrderedDict κ ν}
    (hget : dict.get? key = some value) (f : ν → ν) (k : κ) :
    (dict.modify key f).get? k =
      if key = k then some (f value) else dict.get? k := by
  rw [get?_modify]
  split
  · next hk => rw [← hk, hget, map_some]
  · rfl

@[simp] theorem get?_modify_self (key : κ)
    (f : ν → ν) : (dict.modify key f).get? key = (dict.get? key).map f := by
  simp [get?_modify]

/-- What is found after an update was there, and may have been changed. -/
theorem get?_modify_cases {dict : OrderedDict κ ν} {key k : κ} {f : ν → ν}
    (hget : (dict.modify key f).get? k = some value) :
    (k = key ∧ ∃ old, dict.get? k = some old ∧ value = f old) ∨
      (k ≠ key ∧ dict.get? k = some value) := by
  rw [get?_modify] at hget
  split at hget
  · next hk =>
    obtain ⟨old, hold, rfl⟩ := map_eq_some_iff.mp hget
    exact .inl ⟨hk.symm, old, hold, rfl⟩
  · next hk => exact .inr ⟨Ne.symm hk, hget⟩

theorem contains_eq_false_iff (key : κ) :
    dict.contains key = false ↔ dict.get? key = none := by
  simp [contains]

theorem contains_iff (key : κ) :
    dict.contains key = true ↔ ∃ value, dict.get? key = some value :=
  isSome_iff_exists

theorem contains_set (key k : κ) (value : ν) : (dict.set key value).contains k =
      if key = k then true else dict.contains k := by
  unfold contains
  rw [get?_set]
  split <;> rfl

theorem contains_erase (key k : κ) : (dict.erase key).contains k =
      if key = k then false else dict.contains k := by
  unfold contains
  rw [get?_erase]
  split <;> rfl

/-- Updating a value that was just assigned. -/
theorem modify_set (key : κ) (value : ν) (f : ν → ν) :
    (dict.set key value).modify key f = dict.set key (f value) := by
  refine ext ?_
  obtain ⟨entries, hnodup⟩ := dict
  simp only [set, modify]
  induction entries with
  | nil => simp [assign]
  | cons head rest ih =>
    obtain ⟨k, _⟩ := head
    rw [map_cons, nodup_cons] at hnodup
    by_cases hkey : k = key
    · subst hkey
      -- The key occurs once, so the bindings after it stay.
      have hrest : rest.map (fun binding =>
          (binding.1, if binding.1 = k then f binding.2 else binding.2)) =
            rest := by
        refine (map_congr_left ?_).trans (map_id _)
        intro binding hmem
        have hne : binding.1 ≠ k := by
          rintro rfl
          exact hnodup.1 (mem_map.mpr ⟨binding, hmem, rfl⟩)
        simp [hne]
      simp [assign, hrest]
    · simp [assign, hkey, ih hnodup.2]

/-- Lookups do not depend on the order of the bindings. -/
theorem get?_of_perm {left right : OrderedDict κ ν}
    (hperm : left.entries.Perm right.entries) (key : κ) :
    left.get? key = right.get? key := by
  ext value
  simp only [← mem_entries_iff, hperm.mem_iff]

theorem assign_of_lookup (hlookup : lookup key entries = some value) :
    assign key value entries = entries := by
  induction entries with
  | nil => cases hlookup
  | cons head _ ih =>
    obtain ⟨k, _⟩ := head
    by_cases hkey : k = key
    · simp only [lookup, hkey, ↓reduceIte, some.injEq] at hlookup
      simp [assign, hkey, hlookup]
    · simp only [lookup, hkey, ↓reduceIte] at hlookup
      simp [assign, hkey, ih hlookup]

theorem set_eq_self_iff (key : κ) (value : ν) :
    dict.set key value = dict ↔ dict.get? key = some value := by
  constructor
  · intro hset
    rw [← hset, get?_set_self]
  · intro hget
    exact ext (assign_of_lookup hget)

theorem erase_eq_self_iff (key : κ) :
    dict.erase key = dict ↔ dict.get? key = none := by
  constructor
  · intro herase
    rw [← herase, get?_erase_self]
  · intro hget
    refine ext (filter_eq_self.mpr ?_)
    intro binding hmem
    have hsome := dict.get?_eq_of_mem_entries hmem
    have hne : binding.1 ≠ key := by
      rintro rfl
      rw [hget] at hsome
      cases hsome
    simpa using hne

theorem modify_eq_self_iff (key : κ) (f : ν → ν) : dict.modify key f = dict ↔
      ∀ value, dict.get? key = some value → f value = value := by
  constructor
  · intro hmodify value hget
    have hboth := dict.get?_modify_self key f
    rw [hmodify, hget] at hboth
    exact (some.inj hboth).symm
  · intro hfix
    refine ext ((map_congr_left ?_).trans (map_id _))
    intro binding hmem
    have hget := dict.get?_eq_of_mem_entries hmem
    split
    · next hkey => rw [hfix binding.2 (hkey ▸ hget)]; rfl
    · rfl

theorem assign_of_lookup_eq_none (value : ν)
    (hlookup : lookup key entries = none) :
    assign key value entries = entries ++ [(key, value)] := by
  induction entries with
  | nil => rfl
  | cons head _ ih =>
    obtain ⟨k, _⟩ := head
    by_cases hkey : k = key
    · simp [lookup, hkey] at hlookup
    · simp only [lookup, hkey, ↓reduceIte] at hlookup
      simp [assign, hkey, ih hlookup]

theorem get?_eq_none_of_notMem {dict : OrderedDict κ ν}
    (hkey : key ∉ dict.keys) : dict.get? key = none := by
  cases hget : dict.get? key with
  | none => rfl
  | some =>
    exact absurd (mem_map.mpr ⟨_, dict.mem_entries_iff.mpr hget, rfl⟩) hkey

/-- A new key comes last. -/
theorem entries_set_of_get?_eq_none {dict : OrderedDict κ ν}
    (hget : dict.get? key = none) (value : ν) :
    (dict.set key value).entries = dict.entries ++ [(key, value)] :=
  assign_of_lookup_eq_none value hget

/-- Over infinitely many keys there is always an unused one. -/
theorem exists_get?_eq_none [Infinite κ] : ∃ key, dict.get? key = none := by
  obtain ⟨key, hkey⟩ := Infinite.exists_notMem_finset dict.keys.toFinset
  exact ⟨key, get?_eq_none_of_notMem fun hmem =>
    hkey (mem_toFinset.mpr hmem)⟩

theorem length_assign (key : κ) (value : ν) (entries : List (κ × ν)) :
    (assign key value entries).length =
      if lookup key entries = none then entries.length + 1
      else entries.length := by
  induction entries with
  | nil => simp [assign, lookup]
  | cons head _ ih =>
    obtain ⟨k, _⟩ := head
    by_cases hkey : k = key
    · simp [assign, lookup, hkey]
    · simp only [assign, lookup, hkey, ↓reduceIte, length_cons, ih]
      split <;> rfl

theorem size_set (key : κ) (value : ν) : (dict.set key value).size =
      if dict.get? key = none then dict.size + 1 else dict.size :=
  length_assign key value dict.entries

theorem size_set_le (key : κ) (value : ν) :
    (dict.set key value).size ≤ dict.size + 1 := by
  rw [size_set]
  split <;> omega

theorem size_set_of_get?_eq_none {dict : OrderedDict κ ν}
    (hget : dict.get? key = none) (value : ν) :
    (dict.set key value).size = dict.size + 1 := by
  rw [size_set, if_pos hget]

theorem size_modify (key : κ) (f : ν → ν) :
    (dict.modify key f).size = dict.size :=
  length_map _

theorem size_erase_of_get? {dict : OrderedDict κ ν}
    (hget : dict.get? key = some value) :
    (dict.erase key).size + 1 = dict.size := by
  have hmem : key ∈ dict.entries.map Prod.fst :=
    mem_map_of_mem (dict.mem_entries_iff.mpr hget)
  have hcount := count_eq_one_of_mem dict.nodup hmem
  rw [count, countP_map] at hcount
  have hsplit : dict.size = 1 + _ :=
    hcount ▸ length_eq_countP_add_countP ((· == key) ∘ Prod.fst)
  simp only [size, erase, Function.comp_apply, beq_iff_eq, ne_eq, decide_not,
    countP_eq_length_filter] at hsplit ⊢
  omega

theorem size_erase_le (key : κ) : (dict.erase key).size ≤ dict.size :=
  length_filter_le _ _

theorem mem_values_iff (value : ν) :
    value ∈ dict.values ↔ ∃ key, dict.get? key = some value := by
  simp [values, mem_entries_iff]

/-- Every value is bound to one key. -/
theorem nodup_values {dict : OrderedDict κ ν}
    (hinj : ∀ left right value, dict.get? left = some value →
      dict.get? right = some value → left = right) : dict.values.Nodup := by
  refine List.Nodup.map_on ?_ (List.Nodup.of_map Prod.fst dict.nodup)
  intro left hleft right hright hvalue
  have hkey := hinj left.1 right.1 left.2 (dict.get?_eq_of_mem_entries hleft)
    (hvalue ▸ dict.get?_eq_of_mem_entries hright)
  exact Prod.ext hkey hvalue

/-- A dictionary is no larger than one that binds all its values. -/
theorem size_le_of_values {μ : Type*} [DecidableEq μ]
    {left : OrderedDict κ ν} {right : OrderedDict μ ν}
    (hinj : ∀ first second value, left.get? first = some value →
      left.get? second = some value → first = second)
    (hvalues : ∀ key value, left.get? key = some value →
      ∃ other, right.get? other = some value) : left.size ≤ right.size := by
  have hsubset : left.values ⊆ right.values := by
    intro value hmem
    obtain ⟨key, hget⟩ := (left.mem_values_iff value).mp hmem
    exact (right.mem_values_iff value).mpr (hvalues key value hget)
  have hlength := ((nodup_values hinj).subperm hsubset).length_le
  simpa only [values, size, length_map] using hlength

end OrderedDict
