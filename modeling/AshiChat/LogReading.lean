/-
Reading a message log back (`MessageLog.read_messages`).  The loop walks from
length field to length field and stops at the first entry that is cut short;
an append that makes the file too large moves it away before anyone can read
it, and one that is larger than what a single `os.write` takes is cut off.
-/
import AshiChat.LogRotation

namespace AshiChat

open List Nat LogFiles

/-- `struct.unpack(">I", data)[0]`, which takes four bytes and no others. -/
def unpackLength (data : Bytes) : Except PyError Nat :=
  if data.length = 4 then .ok (unpackU32 data) else .error .structError

/-- The `while` of `read_messages` with its two variables.  No result means
that the loop has not come to its end yet. -/
def readLoop (data : Bytes) :
    Nat → Nat → List Bytes → Option (Except PyError (List Bytes))
  | 0, _, _ => none
  | fuel + 1, pos, blobs =>
    if pos + 4 ≤ data.length then
      match unpackLength (slice data pos (pos + 4)) with
      | .error error => some (.error error)
      | .ok length =>
        if data.length < pos + 4 + length then some (.ok blobs)
        else
          readLoop data fuel (pos + 4 + length + 1)
            (blobs ++ [slice data (pos + 4) (pos + 4 + length)])
    else some (.ok blobs)

variable {data cut : Bytes} {fuel : Nat}

/-- Every round leaves less to read, so that any fuel that covers the bytes
gives the same result. -/
theorem readFrom_fuel (hfuel : data.length ≤ fuel) :
    readFrom fuel data = readMessages data := by
  have hsame : ∀ (fuel more : Nat) (data : Bytes), data.length ≤ fuel →
      fuel ≤ more → readFrom fuel data = readFrom more data := by
    intro fuel
    induction fuel with
    | zero =>
      intro more data hlength _
      have hnil : data = [] := length_eq_zero_iff.mp (by omega)
      cases more <;> simp [readFrom, hnil]
    | succ _ ih =>
      intro more data hlength hmore
      obtain ⟨more, rfl⟩ : ∃ m, more = m + 1 := ⟨more - 1, by omega⟩
      simp only [readFrom]
      split
      · split
        · rfl
        · congr 1
          apply ih
          · simp only [length_drop]
            omega
          · omega
      · rfl
  exact (hsame data.length fuel data le_rfl hfuel).symm

/-- The loop ends without an exception, whatever the file holds. -/
theorem readLoop_eq (data : Bytes) {pos : Nat} (blobs : List Bytes)
    (hfuel : data.length + 2 ≤ fuel + pos) (hpos : pos ≤ data.length + 1) :
    readLoop data fuel pos blobs =
      some (.ok (blobs ++ readFrom fuel (data.drop pos))) := by
  induction fuel generalizing pos blobs with
  | zero => omega
  | succ _ ih =>
    have hleft : (data.drop pos).length = data.length - pos := length_drop
    by_cases hfield : pos + 4 ≤ data.length
    · have hslice : (slice data pos (pos + 4)).length = 4 := by
        rw [length_slice (le_add_right pos 4) hfield]
        omega
      have htake : slice data pos (pos + 4) = (data.drop pos).take 4 := by
        rw [slice, Nat.add_sub_cancel_left]
      rw [readLoop, if_pos hfield, unpackLength, if_pos hslice, readFrom,
        if_pos (by omega), htake]
      simp only [length_drop]
      by_cases hshort :
          data.length < pos + 4 + unpackU32 ((data.drop pos).take 4)
      · rw [if_pos hshort, if_pos (by omega), append_nil]
      · have hentry : slice data (pos + 4)
            (pos + 4 + unpackU32 ((data.drop pos).take 4)) =
              ((data.drop pos).drop 4).take
                (unpackU32 ((data.drop pos).take 4)) := by
          rw [slice, Nat.add_sub_cancel_left, drop_drop]
        rw [if_neg hshort, if_neg (by omega), ih _ (by omega) (by omega),
          hentry, append_assoc, singleton_append, drop_drop, drop_drop]
        congr 5
    · rw [readLoop, if_neg hfield, readFrom, if_neg (by omega), append_nil]

/-- A file that is cut off reads as the first entries of the whole file. -/
theorem readFrom_cut (fuel : Nat) (hcut : cut <+: data) :
    readFrom fuel cut <+: readFrom fuel data := by
  induction fuel generalizing cut data with
  | zero => exact prefix_rfl
  | succ _ ih =>
    obtain ⟨lost, rfl⟩ := hcut
    unfold readFrom
    by_cases hfield : 4 ≤ cut.length
    · have htake : (cut ++ lost).take 4 = cut.take 4 :=
        take_append_of_le_length hfield
      have hdrop : (cut ++ lost).drop 4 = cut.drop 4 ++ lost :=
        drop_append_of_le_length hfield
      have hlong : 4 ≤ (cut ++ lost).length := by
        rw [length_append]
        omega
      rw [if_pos hfield, if_pos hlong, htake, hdrop]
      simp only [length_append]
      by_cases hshort : (cut.drop 4).length < unpackU32 (cut.take 4)
      · rw [if_pos hshort]
        exact nil_prefix
      · have hwhole : ¬ (cut.drop 4).length + lost.length <
            unpackU32 (cut.take 4) := by omega
        rw [if_neg hshort, if_neg hwhole,
          take_append_of_le_length (by omega), prefix_cons_inj]
        exact ih ((prefix_append _ _).drop _)
    · rw [if_neg hfield]
      exact nil_prefix

theorem readMessages_cut (hcut : cut <+: data) :
    readMessages cut <+: readMessages data := by
  rw [← readFrom_fuel hcut.length_le]
  exact readFrom_cut data.length hcut

namespace LogFiles

variable {config : LogConfig} {files : LogFiles} {peerId : PeerId}
  {blob line : Bytes}

/-- File operations of one append, one after the other. -/
def operate (config : LogConfig) (maxCount : Option Nat) (peerId : PeerId)
    (line : Bytes) : Nat → LogFiles → AppendStage → LogFiles × AppendStage
  | 0, files, stage => (files, stage)
  | steps + 1, files, stage =>
    let (files', stage') := appendStep config maxCount files peerId line stage
    operate config maxCount peerId line steps files' stage'

/-- `append_message`, rotation included. -/
def appendMessage (config : LogConfig) (maxCount : Option Nat)
    (peerId : PeerId) (files : LogFiles) (blob : Bytes) :
    Except PyError LogFiles := do
  let line ← buildEntry blob
  return (operate config maxCount peerId line (config.maxRotations + 5) files
    .write).1

variable {maxCount : Option Nat}

theorem operate_done (count : Nat) (files : LogFiles) :
    operate config maxCount peerId line count files .done = (files, .done) := by
  induction count with
  | zero => rfl
  | succ _ ih => exact ih

/-- The rotation ends with the current file moved away. -/
theorem operate_shift {index : Nat} (hindex : 0 < index) (files : LogFiles) :
    ∃ moved, operate config maxCount peerId line (index + 1) files
          (.shift index) = (moved, .done) ∧
      moved.get? (.log peerId 0) = none := by
  induction index generalizing files with
  | zero => exact absurd hindex (Nat.lt_irrefl 0)
  | succ index ih =>
    cases index with
    | zero =>
      refine ⟨files.rename (.log peerId 0) (.log peerId 1), rfl, ?_⟩
      cases hcurrent : files.get? (.log peerId 0) with
      | none => rw [rename_of_none _ hcurrent, hcurrent]
      | some => simp [get?_rename hcurrent]
    | succ index => exact ih (succ_pos index) _

/-- What was written reaches the current file; only then is the size looked
at. -/
theorem operate_write (config : LogConfig) (maxCount : Option Nat)
    (files : LogFiles) (peerId : PeerId) (line : Bytes) (count : Nat) :
    let stored := osWrite maxCount (files.existing peerId ++ line)
    ∃ landed, operate config maxCount peerId line (count + 3) files .write =
        operate config maxCount peerId line count landed
          (if config.limitBytes < stored.length then .unlink else .done) ∧
      landed.get? (.log peerId 0) = some ⟨stored, true⟩ := by
  intro stored
  -- the temporary file after the write and the `fsync`
  let synced : LogFiles := OrderedDict.modify
    (files.set (.temp peerId) ⟨stored, false⟩) (.temp peerId)
    (fun file => { file with synced := true })
  have htemp : synced.get? (.temp peerId) = some ⟨stored, true⟩ := by
    simp [synced]
  have hlanded : OrderedDict.get?
      (synced.rename (.temp peerId) (.log peerId 0)) (.log peerId 0) =
        some ⟨stored, true⟩ :=
    (get?_rename htemp _).trans (if_pos rfl)
  have hsize : existing (synced.rename (.temp peerId) (.log peerId 0)) peerId =
      stored := by
    rw [existing, hlanded, Option.map_some, Option.getD_some]
  refine ⟨synced.rename (.temp peerId) (.log peerId 0), ?_, hlanded⟩
  rw [← hsize]
  rfl

variable {after : LogFiles} {blobs : List Bytes}

theorem fits_of_appendMessage
    (happend : appendMessage config maxCount peerId files blob = .ok after) :
    blob.length < 2 ^ 32 := by
  cases hbuild : buildEntry blob with
  | error =>
    rw [appendMessage, hbuild] at happend
    cases happend
  | ok => exact LogState.buildEntry_fits hbuild

theorem exists_appendMessage (config : LogConfig) (maxCount : Option Nat)
    (peerId : PeerId) (files : LogFiles) (hfits : blob.length < 2 ^ 32) :
    ∃ after, appendMessage config maxCount peerId files blob = .ok after := by
  rw [appendMessage, buildEntry_ok hfits]
  exact ⟨_, rfl⟩

/-- What an append leaves as the current file: nothing when the file has grown
past the limit. -/
theorem existing_appendMessage
    (happend : appendMessage config maxCount peerId files blob = .ok after) :
    let stored := osWrite maxCount (files.existing peerId ++ entryLine blob)
    after.existing peerId =
      if config.limitBytes < stored.length then [] else stored := by
  intro stored
  rw [appendMessage, buildEntry_ok (fits_of_appendMessage happend)] at happend
  cases happend
  obtain ⟨landed, hoperate, hlanded⟩ := operate_write config maxCount files
    peerId (entryLine blob) (config.maxRotations + 2)
  rw [hoperate]
  by_cases hfull : config.limitBytes < stored.length
  · obtain ⟨_, hmoved, hnone⟩ := operate_shift config.maxRotations_pos
      (landed.erase (.log peerId config.maxRotations))
    rw [if_pos hfull, if_pos hfull, operate]
    refine (congrArg (fun result => existing result.1 peerId) hmoved).trans ?_
    rw [existing, hnone]
    rfl
  · rw [if_neg hfull, if_neg hfull, operate_done, existing, hlanded]
    rfl

/-- `read_messages` sees the current file only. -/
theorem decoded_eq_readMessages (files : LogFiles) (peerId : PeerId) :
    files.decoded (.log peerId 0) = readMessages (files.existing peerId) := by
  unfold decoded existing
  cases files.get? (.log peerId 0) <;> rfl

/-- The current file of the peer is made of whole entries, as appends leave
it. -/
def Whole (files : LogFiles) (peerId : PeerId) (blobs : List Bytes) : Prop :=
  (∀ blob ∈ blobs, blob.length < 2 ^ 32) ∧ files.existing peerId = logData blobs

theorem Whole.decoded (hwhole : Whole files peerId blobs) :
    files.decoded (.log peerId 0) = blobs := by
  rw [decoded_eq_readMessages, hwhole.2, readMessages_logData hwhole.1]

/-- One write takes the file with the new entry in it, or so much of it that
it is moved away. -/
def Uncut (config : LogConfig) (maxCount : Option Nat) (size : Nat) : Prop :=
  ∀ count, maxCount = some count → size ≤ count ∨ config.limitBytes < count

theorem length_logData_append (blobs : List Bytes) (blob : Bytes) :
    (logData (blobs ++ [blob])).length =
      (logData blobs).length + blob.length + 5 := by
  rw [← logData_append, length_append, length_entryLine, Nat.add_assoc]

theorem Whole.appendMessage (hwhole : Whole files peerId blobs)
    (huncut : Uncut config maxCount (logData (blobs ++ [blob])).length)
    (happend : appendMessage config maxCount peerId files blob = .ok after) :
    Whole after peerId
      (if config.limitBytes < (logData (blobs ++ [blob])).length then []
        else blobs ++ [blob]) := by
  have hexisting := existing_appendMessage happend
  simp only [hwhole.2, logData_append] at hexisting
  split
  · next hfull =>
    refine ⟨by simp, hexisting.trans (if_pos ?_)⟩
    cases maxCount with
    | none => exact hfull
    | some count =>
      rw [osWrite, length_take]
      rcases huncut count rfl with hwhole | hmost <;> omega
  · next hroom =>
    have hstored : osWrite maxCount (logData (blobs ++ [blob])) =
        logData (blobs ++ [blob]) := by
      cases maxCount with
      | none => rfl
      | some count =>
        apply take_of_length_le
        rcases huncut count rfl with hwhole | hmost <;> omega
    rw [hstored, if_neg hroom] at hexisting
    refine ⟨?_, hexisting⟩
    intro entry hmem
    rcases mem_append.mp hmem with hmem | hmem
    · exact hwhole.1 entry hmem
    · rw [mem_singleton.mp hmem]
      exact fits_of_appendMessage happend

theorem take_append_take {left right : Bytes} (count : Nat) :
    (left.take count ++ right).take count = (left ++ right).take count := by
  rcases le_total count left.length with hle | hle
  · rw [take_append_of_le_length (by simpa using hle), take_take,
      Nat.min_self, take_append_of_le_length hle]
  · rw [take_of_length_le hle]

/-- Appends within the limit put their entries one after the other, as far as
one write goes. -/
theorem foldlM_appendMessage {done : List Bytes} {count : Nat}
    (hdone : files.existing peerId = (logData done).take count)
    (hfits : ∀ blob ∈ blobs, blob.length < 2 ^ 32)
    (hsize : (logData (done ++ blobs)).length ≤ config.limitBytes) :
    ∃ after, blobs.foldlM (appendMessage config (some count) peerId)
        files = .ok after ∧
      after.existing peerId = (logData (done ++ blobs)).take count := by
  induction blobs generalizing files done with
  | nil => exact ⟨files, rfl, by rwa [append_nil]⟩
  | cons blob rest ih =>
    rw [forall_mem_cons] at hfits
    obtain ⟨_, happend⟩ := exists_appendMessage config (some count) peerId
      files hfits.1
    have hnext := existing_appendMessage happend
    simp only [osWrite, hdone, take_append_take, logData_append] at hnext
    have hassoc : done ++ blob :: rest = (done ++ [blob]) ++ rest := by simp
    have hroom : ¬ config.limitBytes <
        ((logData (done ++ [blob])).take count).length := by
      rw [hassoc, logData, flatMap_append, length_append] at hsize
      rw [length_take, logData]
      omega
    rw [if_neg hroom] at hnext
    rw [hassoc] at hsize ⊢
    obtain ⟨after, hafter, hend⟩ := ih hnext hfits.2 hsize
    refine ⟨after, ?_, hend⟩
    rw [foldlM_cons, happend]
    exact hafter

theorem readFrom_nil (fuel : Nat) : readFrom fuel [] = [] := by
  cases fuel <;> simp [readFrom]

/-- Each blob that is read takes its entry, the last one perhaps without its
newline. -/
theorem length_logData_readFrom (fuel : Nat) (data : Bytes) :
    (logData (readFrom fuel data)).length ≤ data.length + 1 := by
  induction fuel generalizing data with
  | zero => simp [readFrom, logData]
  | succ _ ih =>
    simp only [readFrom]
    split
    · next _ =>
      split
      · simp [logData]
      · next hwhole =>
        rw [length_drop, not_lt] at hwhole
        have hrest := ih ((data.drop 4).drop (unpackU32 (data.take 4) + 1))
        generalize htail : (data.drop 4).drop
          (unpackU32 (data.take 4) + 1) = tail at hrest ⊢
        have hlength := congrArg List.length htail
        simp only [length_drop] at hlength
        rw [logData, flatMap_cons, length_append,
          length_entryLine, length_take, length_drop, ← logData]
        cases tail with
        | nil =>
          rw [readFrom_nil, logData, flatMap_nil, length_nil]
          omega
        | cons =>
          rw [length_cons] at hlength hrest
          omega
    · simp [logData]

/-- The newline of the last entry is not needed. -/
theorem readFrom_dropLast (hfits : ∀ blob ∈ blobs, blob.length < 2 ^ 32)
    {fuel : Nat} (hfuel : blobs.length ≤ fuel) :
    readFrom fuel (logData blobs).dropLast = blobs := by
  induction blobs generalizing fuel with
  | nil => exact readFrom_nil fuel
  | cons blob rest ih =>
    rw [forall_mem_cons] at hfits
    obtain ⟨fuel, rfl⟩ : ∃ less, fuel = less + 1 :=
      exists_eq_succ_of_ne_zero (by rintro rfl; cases hfuel)
    cases rest with
    | nil =>
      have hentry : (logData [blob]).dropLast =
          BigEndian.encode 4 blob.length ++ blob := by
        simp [logData, entryLine, ascii]
      rw [hentry, readFrom, if_pos (by simp), take_left'
        (BigEndian.length_encode ..), drop_left' (BigEndian.length_encode ..),
        unpackU32_encode hfits.1]
      simp [drop_eq_nil_of_le, readFrom_nil]
    | cons second rest =>
      have hsplit : (logData (blob :: second :: rest)).dropLast =
          entryLine blob ++ (logData (second :: rest)).dropLast := by
        rw [logData, flatMap_cons, dropLast_append_of_ne_nil, logData]
        simp [entryLine, ascii]
      rw [hsplit, readFrom_entryLine fuel hfits.1,
        ih hfits.2 (le_of_succ_le_succ hfuel)]

theorem readMessages_take_iff (hfits : ∀ blob ∈ blobs, blob.length < 2 ^ 32)
    (count : Nat) :
    readMessages ((logData blobs).take count) = blobs ↔
      (logData blobs).length ≤ count + 1 := by
  constructor
  · intro hread
    have hlength : (logData (readMessages ((logData blobs).take count))).length
        ≤ ((logData blobs).take count).length + 1 :=
      length_logData_readFrom ..
    rw [hread, length_take] at hlength
    omega
  · intro hshort
    rcases hshort.lt_or_eq with _ | _
    · rw [take_of_length_le (by omega), readMessages_logData hfits]
    · rw [show count = (logData blobs).length - 1 by omega,
        ← dropLast_eq_take, ← readFrom_fuel (length_dropLast ▸
          sub_le ..), readFrom_dropLast hfits (length_le_logData blobs)]

/-- Within the limit, what is appended is read back exactly if one write takes
all of it but the last newline.  Of a file that is cut off a first part is
read, and no contents of a file make the reading fail. -/
theorem log_decodes_iff (config : LogConfig) (count : Nat) (peerId : PeerId)
    (hnew : files.get? (.log peerId 0) = none)
    {blobs : List Bytes} (hfits : ∀ blob ∈ blobs, blob.length < 2 ^ 32)
    (hsize : (logData blobs).length ≤ config.limitBytes) :
    (∃ after, blobs.foldlM (appendMessage config (some count) peerId) files =
        .ok after ∧
      (after.decoded (.log peerId 0) = blobs ↔
        (logData blobs).length ≤ count + 1) ∧
      ∀ cut, cut <+: after.existing peerId → readMessages cut <+: blobs) ∧
    ∀ data, readLoop data (data.length + 2) 0 [] =
      some (.ok (readMessages data)) := by
  constructor
  · have hempty : files.existing peerId = (logData []).take count := by
      rw [existing, hnew]
      simp [logData]
    obtain ⟨after, hafter, hstored⟩ := foldlM_appendMessage hempty hfits hsize
    rw [nil_append] at hstored
    refine ⟨after, hafter, ?_, fun cut hcut => ?_⟩
    · rw [decoded_eq_readMessages, hstored, readMessages_take_iff hfits]
    · rw [hstored] at hcut
      have hread := readMessages_cut (hcut.trans ( take_prefix _ _))
      rwa [readMessages_logData hfits] at hread
  · intro data
    rw [readLoop_eq data [] (by omega) (zero_le _), nil_append,
      drop_zero, readFrom_fuel (by omega)]

/-- The files after an append; `struct.pack` raises before the first of them
is touched. -/
def afterAppend (config : LogConfig) (peerId : PeerId) (files : LogFiles)
    (event : Option Nat × Bytes) : LogFiles :=
  match appendMessage config event.1 peerId files event.2 with
  | .ok after => after
  | .error _ => files

/-- What `append_message` reads and the entry, together. -/
def sizeWith (files : LogFiles) (peerId : PeerId) (blob : Bytes) : Nat :=
  (files.existing peerId).length + blob.length + 5

theorem Whole.sizeWith (hwhole : Whole files peerId blobs) (blob : Bytes) :
    sizeWith files peerId blob = (logData (blobs ++ [blob])).length := by
  rw [LogFiles.sizeWith, hwhole.2, length_logData_append]

theorem Whole.afterAppend (event : Option Nat × Bytes)
    (hwhole : ∃ earlier, Whole files peerId earlier)
    (huncut : Uncut config event.1 (files.sizeWith peerId event.2)) :
    ∃ earlier, Whole (afterAppend config peerId files event) peerId earlier := by
  obtain ⟨earlier, hwhole⟩ := hwhole
  rw [hwhole.sizeWith] at huncut
  unfold LogFiles.afterAppend
  split
  · next _ happend => exact ⟨_, hwhole.appendMessage huncut happend⟩
  · exact ⟨earlier, hwhole⟩

/-- A blob can be read right after its append exactly when the file, with the
new entry in it, is within the limit. -/
theorem ends_with_appended_iff {earlier : List Bytes}
    (hwhole : Whole files peerId earlier)
    (huncut : Uncut config maxCount (files.sizeWith peerId blob))
    (happend : appendMessage config maxCount peerId files blob = .ok after) :
    [blob] <:+ after.decoded (.log peerId 0) ↔
      files.sizeWith peerId blob ≤ config.limitBytes := by
  rw [hwhole.sizeWith] at huncut ⊢
  rw [(hwhole.appendMessage huncut happend).decoded]
  split
  · next hfull => simpa using hfull
  · next hroom => simpa using hroom

/-- Whatever blobs are appended one after the other, from any whole log on, as
long as no write is cut short. -/
theorem appended_read_iff (config : LogConfig) (peerId : PeerId)
    {earlier : List Bytes} (hwhole : Whole files peerId earlier)
    {events : List (Option Nat × Bytes)}
    (huncut : EventRun.EveryStep (afterAppend config peerId)
      (fun files event => Uncut config event.1 (files.sizeWith peerId event.2))
      files events) :
    EventRun.EveryStep (afterAppend config peerId)
      (fun files (maxCount, blob) => ∀ after,
        appendMessage config maxCount peerId files blob = .ok after →
          ([blob] <:+ after.decoded (.log peerId 0) ↔
            files.sizeWith peerId blob ≤ config.limitBytes))
      files events := by
  have hstep : ∀ (files : LogFiles) (event : Option Nat × Bytes),
      (∃ earlier, Whole files peerId earlier) →
        Uncut config event.1 (files.sizeWith peerId event.2) → ∃ earlier,
            Whole (afterAppend config peerId files event) peerId earlier :=
    fun _ event hwhole huncut => Whole.afterAppend event hwhole huncut
  refine EventRun.everyStep_of_good hstep ?_ ⟨earlier, hwhole⟩ huncut
  rintro files ⟨maxCount, blob⟩ ⟨earlier, hwhole⟩ huncut after happend
  exact ends_with_appended_iff hwhole huncut happend

end LogFiles

namespace LogReadingWitness

open LogFiles

def peer : PeerId := [1]

/-- A limit of twenty bytes. -/
def small : LogConfig := ⟨20, 3, by decide⟩

def empty : LogFiles := .empty

/-- Three blobs, one of them empty and one that looks like an entry. -/
def blobs : List Bytes := [[], ascii "\n", [0, 0, 0, 1]]

theorem log_decodes_iff_blobs : empty.get? (.log peer 0) = none ∧
    (∃ after, blobs.foldlM (appendMessage small (some 30) peer) empty =
        .ok after ∧ after.decoded (.log peer 0) = blobs) := by
  have hnew : empty.get? (.log peer 0) = none := by decide
  have hfits : ∀ blob ∈ blobs, blob.length < 2 ^ 32 := by decide
  have hsize : (logData blobs).length ≤ small.limitBytes := by decide +kernel
  obtain ⟨⟨after, hafter, hiff, -⟩, -⟩ :=
    log_decodes_iff small 30 peer hnew hfits hsize
  exact ⟨hnew, after, hafter, hiff.mpr (by decide +kernel)⟩

/-- A limit of 2048 MB. -/
def large : LogConfig := ⟨2048 * 1024 * 1024, 3, by decide⟩

/-- The number of bytes that one `write` takes on Linux at most. -/
def maxRwCount : Nat := 0x7ffff000

theorem cut_off {blob : Bytes} (hlength : blob.length = maxRwCount - 3) :
    (logData [blob]).length ≤ large.limitBytes ∧
      ∃ after, appendMessage large (some maxRwCount) peer empty blob =
          .ok after ∧
        after.decoded (.log peer 0) = [] := by
  have hfits : ∀ entry ∈ [blob], entry.length < 2 ^ 32 := by
    simp only [mem_singleton, forall_eq, hlength]
    decide
  have htotal : (logData [blob]).length = maxRwCount + 2 := by
    rw [logData, flatMap_singleton, length_entryLine, hlength]
    decide
  have hsize : (logData [blob]).length ≤ large.limitBytes := by
    rw [htotal]
    decide
  have hempty : existing empty peer = (logData []).take maxRwCount := by
    simp [existing, empty, logData]
  obtain ⟨after, hafter, hstored⟩ := foldlM_appendMessage hempty hfits hsize
  refine ⟨hsize, after, by simpa using hafter, ?_⟩
  rw [nil_append] at hstored
  rw [decoded_eq_readMessages, hstored]
  have hread := readMessages_cut ( take_prefix maxRwCount (logData [blob]))
  rw [readMessages_logData hfits] at hread
  rcases prefix_concat_iff.mp (show _ <+: [] ++ [blob] from hread)
    with hwhole | hnone
  · rw [nil_append, readMessages_take_iff hfits, htotal] at hwhole
    exact absurd hwhole (by decide)
  · exact prefix_nil.mp hnone

/-- An entry that is two bytes longer than one `write` takes is within the
limit of 2048 MB, and nothing is read back. -/
theorem long_entry_cut_off :
    let blob : Bytes := List.replicate (maxRwCount - 3) 0
    (logData [blob]).length ≤ large.limitBytes ∧
      ∃ after, appendMessage large (some maxRwCount) peer empty blob =
          .ok after ∧
        after.decoded (.log peer 0) = [] :=
  cut_off length_replicate

/-- A log with one entry, and a blob that does not fit in any more. -/
def filled : LogFiles := afterAppend small peer empty (none, [1, 2, 3, 4])

def crossing : Bytes := [5, 6, 7, 8, 9, 10, 11]

/-- The append succeeds, and then there is nothing to read. -/
theorem rotated_away :
    ∃ after, appendMessage small none peer filled crossing = .ok after ∧
      after.decoded (.log peer 0) = [] ∧
      ¬ [crossing] <:+ after.decoded (.log peer 0) :=
  ⟨afterAppend small peer filled (none, crossing), rfl, by decide +kernel,
    by decide +kernel⟩

/-- The last write is cut short, and the file is moved away all the same. -/
def appends : List (Option Nat × Bytes) :=
  [(none, [1, 2, 3, 4]), (some maxRwCount, [5]), (some 24, crossing)]

theorem appended_read_iff_appends : Whole empty peer [] ∧
      EventRun.EveryStep (afterAppend small peer)
        (fun files (maxCount, blob) => ∀ after,
          appendMessage small maxCount peer files blob = .ok after →
            ([blob] <:+ after.decoded (.log peer 0) ↔
              files.sizeWith peer blob ≤ small.limitBytes))
        empty appends := by
  have hwhole : Whole empty peer [] := ⟨by simp, rfl⟩
  refine ⟨hwhole, appended_read_iff small peer hwhole ?_⟩
  refine ⟨?_, ?_, ?_, trivial⟩ <;> rintro count ⟨⟩
  · exact .inl (by decide +kernel)
  · exact .inr (by decide +kernel)

end LogReadingWitness

end AshiChat
