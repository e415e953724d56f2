/-
What the rotation of a message log can lose.  Appends of one peer run one
after the other, cut into their file operations, and the process may crash
between any two of them; a write stores its whole buffer.  The files, read
oldest first, always hold a suffix of the blobs that were ever put into the
log.
-/
import AshiChat.MessageLog
import AshiChat.Kit.EventRun

namespace AshiChat

open OrderedDict Nat List LogFiles

namespace LogFiles

/-- What `read_messages` makes of one file. -/
def decoded (files : LogFiles) (name : LogName) : List Bytes :=
  ((files.get? name).map fun file =>
    readMessages file.data).getD []

/-- The entries of `.log.n`, …, `.log.1`, `.log`, oldest first. -/
def inAgeOrder (files : LogFiles) (peerId : PeerId) : Nat → List Bytes
  | 0 => files.decoded (.log peerId 0)
  | index + 1 =>
    files.decoded (.log peerId (index + 1)) ++ files.inAgeOrder peerId index

/-- The numbers of the rotated files that exist. -/
def rotated (files : LogFiles) (peerId : PeerId) : List Nat :=
  (files.keys).filterMap fun
    | .log owner (index + 1) => if owner = peerId then some (index + 1) else none
    | _ => none

variable {config : LogConfig} {files : LogFiles} {peerId : PeerId}
  {blob : Bytes}

variable {later : LogFiles} {count index : Nat}

theorem decoded_congr (name : LogName) {name' : LogName}
    (hget : later.get? name' = files.get? name) :
    later.decoded name' = files.decoded name := by
  simp only [decoded, hget]

theorem decoded_of_none {name : LogName}
    (hget : files.get? name = none) : files.decoded name = [] := by
  simp [decoded, hget]

theorem Intact.decoded_eq (hintact : Intact files) (index : Nat) :
    files.decoded (.log peerId index) =
      files.entriesOf (.log peerId index) := by
  unfold decoded entriesOf
  cases hget : files.get? (.log peerId index) with
  | none => rfl
  | some file => simp [(hintact peerId index file hget).1]

theorem inAgeOrder_congr
    (hget : ∀ index ≤ count, later.get? (.log peerId index) =
      files.get? (.log peerId index)) :
    later.inAgeOrder peerId count = files.inAgeOrder peerId count := by
  induction count with
  | zero => exact decoded_congr _ (hget 0 (Nat.le_refl 0))
  | succ _ ih =>
    rw [inAgeOrder, inAgeOrder, decoded_congr _ (hget _ (Nat.le_refl _)),
      ih fun index hindex => hget index (le_succ_of_le hindex)]

/-- The rename of an append puts the new entry behind all others. -/
theorem inAgeOrder_rename_temp (hintact : Intact files)
    (hfits : blob.length < 2 ^ 32)
    (htemp : files.get? (.temp peerId) =
      some ⟨files.existing peerId ++ entryLine blob, true⟩) (count : Nat) :
    (files.rename (.temp peerId) (.log peerId 0)).inAgeOrder peerId count =
      files.inAgeOrder peerId count ++ [blob] := by
  induction count with
  | zero =>
    rw [inAgeOrder, inAgeOrder, (hintact.rename_temp hfits htemp).decoded_eq,
      hintact.decoded_eq, entriesOf_rename_temp hintact hfits htemp]
  | succ count ih =>
    have hsame : (files.rename (.temp peerId) (.log peerId 0)).decoded
        (.log peerId (count + 1)) =
          files.decoded (.log peerId (count + 1)) := by
      apply decoded_congr
      rw [get?_rename htemp, if_neg (by rintro ⟨⟩), if_neg (by rintro ⟨⟩)]
    rw [inAgeOrder, inAgeOrder, hsame, ih, append_assoc]

/-- Unlinking the oldest file drops entries at the old end only. -/
theorem inAgeOrder_unlink (count : Nat) :
    inAgeOrder (files.erase (.log peerId (count + 1))) peerId (count + 1) <:+
      files.inAgeOrder peerId (count + 1) := by
  have hgone := decoded_of_none
    (get?_erase_self files (.log peerId (count + 1)))
  have hrest : inAgeOrder (files.erase (.log peerId (count + 1))) peerId count =
        files.inAgeOrder peerId count := by
    apply inAgeOrder_congr
    intro index hindex
    rw [get?_erase, if_neg]
    rintro ⟨⟩
    exact not_succ_le_self count hindex
  rw [inAgeOrder, hgone, hrest, nil_append, inAgeOrder]
  exact suffix_append _ _

/-- Everything below a file that was moved away stands as before. -/
theorem decoded_append_inAgeOrder
    (hgone : later.get? (.log peerId index) = none)
    (hbelow : ∀ place < index, later.get? (.log peerId place) =
      files.get? (.log peerId place)) :
    files.decoded (.log peerId index) ++ later.inAgeOrder peerId index =
      files.inAgeOrder peerId index := by
  cases index with
  | zero => rw [inAgeOrder, inAgeOrder, decoded_of_none hgone, append_nil]
  | succ =>
    rw [inAgeOrder, inAgeOrder, decoded_of_none hgone, nil_append,
      inAgeOrder_congr fun place hplace =>
        hbelow place (lt_succ_of_le hplace)]

/-- A round of the rotation moves a file to the free place behind it, which
leaves the order of the entries alone. -/
theorem inAgeOrder_shift (hfree : files.get? (.log peerId (index + 1)) = none)
    (hcount : index + 1 ≤ count) :
    (files.rename (.log peerId index) (.log peerId (index + 1))).inAgeOrder
        peerId count = files.inAgeOrder peerId count := by
  cases hsource : files.get? (.log peerId index) with
  | none => rw [rename_of_none _ hsource]
  | some =>
    generalize hlater : files.rename (.log peerId index)
      (.log peerId (index + 1)) = later
    have htarget : later.get? (.log peerId (index + 1)) =
        files.get? (.log peerId index) := by
      rw [← hlater, get?_rename hsource, if_pos rfl, hsource]
    have hgone : later.get? (.log peerId index) = none := by
      rw [← hlater, get?_rename hsource, if_neg (by rintro ⟨⟩), if_pos rfl]
    have hother : ∀ place, place ≠ index → place ≠ index + 1 →
        later.get? (.log peerId place) = files.get? (.log peerId place) := by
      intro place hne hne'
      rw [← hlater, get?_rename hsource, if_neg, if_neg] <;> rintro ⟨⟩
      · exact hne rfl
      · exact hne' rfl
    induction count, hcount using le_induction with
    | base =>
      rw [inAgeOrder, inAgeOrder, decoded_congr _ htarget,
        decoded_of_none hfree, nil_append]
      exact decoded_append_inAgeOrder hgone fun place hplace =>
        hother place (by omega) (by omega)
    | succ count _ ih =>
      rw [inAgeOrder, inAgeOrder, ih,
        decoded_congr _ (hother (count + 1) (by omega) (by omega))]

/-- As many rotated files as there are numbers for them. -/
theorem length_rotated_le
    (hbounded : ∀ index file, files.get? (.log peerId index) = some file →
        index ≤ count) :
    (files.rotated peerId).length ≤ count := by
  have hnodup : (files.rotated peerId).Nodup := by
    refine List.Nodup.filterMap ?_ files.nodup
    rintro (_ | ⟨owner, _ | index⟩) (_ | ⟨owner', _ | index'⟩) place hleft
      hright <;> simp_all
  have hsubset : files.rotated peerId ⊆ List.range' 1 count := by
    intro place hplace
    obtain ⟨_, hname, hplace⟩ := mem_filterMap.mp hplace
    obtain ⟨⟨key, file⟩, hbinding, rfl⟩ := mem_map.mp hname
    have hget := (mem_entries_iff files).mp hbinding
    cases key with
    | temp => cases hplace
    | log _ index =>
      cases index with
      | zero => cases hplace
      | succ =>
        simp only [Option.ite_none_right_eq_some, Option.some.injEq] at hplace
        obtain ⟨rfl, rfl⟩ := hplace
        have hle := hbounded _ _ hget
        rw [mem_range'_1]
        omega
  have hlength := (subperm_of_subset hnodup hsubset).length_le
  rwa [length_range'] at hlength

end LogFiles

/-- The files of the log, the append that is under way, and the blobs whose
rename into the log was completed. -/
structure LogState where
  files : LogFiles
  progress : Option (Bytes × AppendStage)
  appended : List Bytes

inductive LogEvent where
  /-- `append_message` is called. -/
  | append (blob : Bytes)
  /-- The append under way performs its next file operation. -/
  | operate
  /-- The process dies; of a temporary file anything may be left. -/
  | crash (leftover : Option LogFile)

namespace LogState

def start : LogState := ⟨.empty, none, []⟩

/-- The files after a crash. -/
def afterCrash (files : LogFiles) (peerId : PeerId) : Option LogFile → LogFiles
  | none => files.erase (.temp peerId)
  | some file => files.set (.temp peerId) file

def step (config : LogConfig) (peerId : PeerId) (state : LogState) :
    LogEvent → LogState
  | .append blob =>
    match state.progress, buildEntry blob with
    | none, .ok _ => { state with progress := some (blob, .write) }
    | _, _ => state
  | .operate =>
    match state.progress with
    | none => state
    | some (blob, stage) =>
      let after := appendStep config none state.files peerId (entryLine blob)
        stage
      { files := after.1
        progress := if after.2 = .done then none else some (blob, after.2)
        appended := if stage = .rename then state.appended ++ [blob]
          else state.appended }
  | .crash leftover =>
    { state with
      files := afterCrash state.files peerId leftover
      progress := none }

/-- Whole entries in every file, no file beyond the last number, and nothing
lost but at the old end. -/
structure Kept (config : LogConfig) (peerId : PeerId) (state : LogState) :
    Prop where
  intact : state.files.Intact
  bounded : ∀ index file, state.files.get? (.log peerId index) = some file →
      index ≤ config.maxRotations
  suffix : state.files.inAgeOrder peerId config.maxRotations <:+ state.appended
  progress : ∀ blob stage, state.progress = some (blob, stage) →
    blob.length < 2 ^ 32 ∧
      LogFiles.InProgress config state.files peerId blob stage

variable {config : LogConfig} {peerId : PeerId} {state : LogState}

theorem kept_start : Kept config peerId start where
  intact := intact_empty
  bounded := by rintro index file ⟨⟩
  suffix := by
    have hempty : ∀ count, inAgeOrder .empty peerId count = [] := by
      intro count
      induction count with
      | zero => rfl
      | succ _ ih => rw [inAgeOrder, ih]; rfl
    rw [start, hempty]
  progress := by rintro blob stage ⟨⟩

variable {blob line : Bytes} {files : LogFiles} {stage : AppendStage}

theorem buildEntry_fits (hline : buildEntry blob = .ok line) :
    blob.length < 2 ^ 32 := by
  by_contra hlong
  rw [buildEntry, packU32, if_neg hlong] at hline
  cases hline

/-- The log files after a crash are those before it. -/
theorem get?_afterCrash (files : LogFiles) (leftover : Option LogFile)
    (index : Nat) (owner : PeerId) :
    (afterCrash files peerId leftover).get? (.log owner index) =
      files.get? (.log owner index) := by
  cases leftover with
  | none => exact (get?_erase ..).trans (if_neg (by rintro ⟨⟩))
  | some => exact (get?_set ..).trans (if_neg (by rintro ⟨⟩))

theorem Kept.crash (hkept : Kept config peerId state)
    (leftover : Option LogFile) :
    Kept config peerId (state.step config peerId (.crash leftover)) where
  intact := by
    intro owner index file hget
    rw [step, get?_afterCrash] at hget
    exact hkept.intact owner index file hget
  bounded := by
    intro index file hget
    rw [step, get?_afterCrash] at hget
    exact hkept.bounded index file hget
  suffix := by
    rw [step, inAgeOrder_congr fun index _ =>
      get?_afterCrash state.files leftover index peerId]
    exact hkept.suffix
  progress := by rintro blob stage ⟨⟩

/-- A file operation leaves no file beyond the last number. -/
theorem bounded_appendStep
    (hprogress : LogFiles.InProgress config files peerId blob stage)
    (hbounded : ∀ index file, files.get? (.log peerId index) = some file →
        index ≤ config.maxRotations) (index : Nat) (file : LogFile)
    (hget : get? (appendStep config none files peerId line stage).1
      (.log peerId index) = some file) : index ≤ config.maxRotations := by
  have hrename : ∀ source target, (∀ place, target = .log peerId place →
      place ≤ config.maxRotations) →
      (files.rename source target).get? (.log peerId index) =
        some file → index ≤ config.maxRotations := by
    intro source target htarget hget
    cases hsource : files.get? source with
    | none =>
      rw [rename_of_none _ hsource] at hget
      exact hbounded index file hget
    | some =>
      rw [get?_rename hsource] at hget
      split at hget
      · next heq => exact htarget index heq
      · split at hget
        · cases hget
        · exact hbounded index file hget
  cases stage with
  | write =>
    rw [appendStep, get?_set, if_neg (by rintro ⟨⟩)] at hget
    exact hbounded index file hget
  | sync =>
    rw [appendStep, get?_modify, if_neg (by rintro ⟨⟩)] at hget
    exact hbounded index file hget
  | rename =>
    refine hrename _ _ ?_ hget
    rintro place ⟨⟩
    exact zero_le _
  | unlink =>
    rw [appendStep, get?_erase] at hget
    split at hget
    · cases hget
    · exact hbounded index file hget
  | shift round =>
    cases round with
    | zero => exact hbounded index file hget
    | succ =>
      refine hrename _ _ ?_ hget
      rintro place ⟨⟩
      exact hprogress.1
  | done => exact hbounded index file hget

/-- What a file operation does to the entries in age order: the rename of an
append adds its blob at the new end, the unlink of a rotation drops entries at
the old end, and all others keep them. -/
theorem suffix_appendStep {appended : List Bytes} (hintact : files.Intact)
    (hfits : blob.length < 2 ^ 32)
    (hprogress : LogFiles.InProgress config files peerId blob stage)
    (hsuffix : files.inAgeOrder peerId config.maxRotations <:+ appended) :
    (appendStep config none files peerId (entryLine blob) stage).1.inAgeOrder
        peerId config.maxRotations <:+
      if stage = .rename then appended ++ [blob] else appended := by
  cases stage with
  | write =>
    rw [if_neg (by rintro ⟨⟩), appendStep, inAgeOrder_congr fun index _ =>
        (get?_set ..).trans (if_neg (by rintro ⟨⟩))]
    exact hsuffix
  | sync =>
    rw [if_neg (by rintro ⟨⟩), appendStep, inAgeOrder_congr fun index _ =>
        (get?_modify ..).trans (if_neg (by rintro ⟨⟩))]
    exact hsuffix
  | rename =>
    obtain ⟨front, hfront⟩ := hsuffix
    rw [if_pos rfl, appendStep, inAgeOrder_rename_temp hintact hfits hprogress]
    exact ⟨front, by rw [← append_assoc, hfront]⟩
  | unlink =>
    obtain ⟨count, hcount⟩ :=
      exists_eq_succ_of_ne_zero config.maxRotations_pos.ne'
    have hdrop : inAgeOrder (files.erase (.log peerId (count + 1))) peerId
          (count + 1) <:+ files.inAgeOrder peerId (count + 1) :=
      inAgeOrder_unlink count
    rw [if_neg (by rintro ⟨⟩), appendStep]
    rw [hcount] at hsuffix ⊢
    exact hdrop.trans hsuffix
  | shift round =>
    rw [if_neg (by rintro ⟨⟩)]
    cases round with
    | zero => exact hsuffix
    | succ =>
      rw [appendStep, inAgeOrder_shift hprogress.2.1 hprogress.1]
      exact hsuffix
  | done =>
    rw [if_neg (by rintro ⟨⟩)]
    exact hsuffix

section

variable (hkept : Kept config peerId state)

include hkept

theorem Kept.operate :
    Kept config peerId (state.step config peerId .operate) := by
  cases hprogress : state.progress with
  | none => rwa [step, hprogress]
  | some current =>
    obtain ⟨blob, stage⟩ := current
    obtain ⟨hfits, hstage⟩ := hkept.progress blob stage hprogress
    simp only [step, hprogress]
    refine ⟨appendStep_intact hkept.intact hfits hstage,
      bounded_appendStep hstage hkept.bounded,
      suffix_appendStep hkept.intact hfits hstage hkept.suffix, ?_⟩
    intro blob' stage' hnext
    split at hnext
    · cases hnext
    · cases hnext
      exact ⟨hfits, appendStep_inProgress hkept.intact hfits hstage⟩

theorem Kept.append (blob : Bytes) :
    Kept config peerId (state.step config peerId (.append blob)) := by
  simp only [step]
  split
  · next _ _ hline =>
    refine ⟨hkept.intact, hkept.bounded, hkept.suffix, ?_⟩
    intro blob' stage hnext
    cases hnext
    exact ⟨buildEntry_fits hline, trivial⟩
  · exact hkept

theorem Kept.step (event : LogEvent) :
    Kept config peerId (state.step config peerId event) := by
  cases event with
  | append blob => exact hkept.append blob
  | operate => exact hkept.operate
  | crash leftover => exact hkept.crash leftover

end

/-- In every state that appends, file operations and crashes can reach, the
files in age order hold a suffix of the blobs that were put into the log, and
there are at most `max_rotations` rotated files. -/
theorem log_loses_oldest (config : LogConfig) (peerId : PeerId)
    (events : List LogEvent) :
    EventRun.Along (LogState.step config peerId) (fun state =>
        state.files.inAgeOrder peerId config.maxRotations <:+ state.appended ∧
          (state.files.rotated peerId).length ≤ config.maxRotations)
      start events := by
  intro pre _
  have hstep : ∀ state event, Kept config peerId state →
      Kept config peerId (state.step config peerId event) :=
    fun _ event hkept => hkept.step event
  have hkept := EventRun.inv_run hstep kept_start pre
  exact ⟨hkept.suffix, length_rotated_le hkept.bounded⟩

end LogState

end AshiChat
