/-
The message log of a peer (`storage.MessageLog`): length-prefixed entries in
one file, replaced as a whole by a rename, and rotated through numbered files.
An append is cut into its file operations, so that a crash can fall between
any two of them.
-/
import AshiChat.Packet
import AshiChat.Kit.OrderedDict

namespace AshiChat

open OrderedDict List BigEndian Nat

/-- `struct.pack(">I", len(blob)) + blob + b"\n"`, when the length fits. -/
def entryLine (blob : Bytes) : Bytes :=
  encode 4 blob.length ++ blob ++ ascii "\n"

theorem length_entryLine (blob : Bytes) :
    (entryLine blob).length = blob.length + 5 := by
  have hnewline : (ascii "\n").length = 1 := rfl
  simp only [entryLine, length_append, length_encode, hnewline]
  omega

/-- What `append_message` writes, or the exception of `struct.pack`. -/
def buildEntry (blob : Bytes) : Except PyError Bytes := do
  let length ← packU32 blob.length
  return length ++ blob ++ ascii "\n"

variable {blob : Bytes}

theorem buildEntry_ok (hfits : blob.length < 2 ^ 32) :
    buildEntry blob = .ok (entryLine blob) := by
  simp [buildEntry, packU32_ok hfits, entryLine, bind, Except.bind, pure,
    Except.pure]

/-- The loop of `read_messages`, which stops at an entry that is cut short. -/
def readFrom : Nat → Bytes → List Bytes
  | 0, _ => []
  | fuel + 1, data =>
    if 4 ≤ data.length then
      let length := unpackU32 (data.take 4)
      let rest := data.drop 4
      if rest.length < length then []
      else rest.take length :: readFrom fuel (rest.drop (length + 1))
    else []

/-- `read_messages` of a file; every round takes at least five bytes. -/
def readMessages (data : Bytes) : List Bytes := readFrom data.length data

theorem readFrom_entryLine (fuel : Nat) (hfits : blob.length < 2 ^ 32)
    (rest : Bytes) :
    readFrom (fuel + 1) (entryLine blob ++ rest) =
      blob :: readFrom fuel rest := by
  have htake : (entryLine blob ++ rest).take 4 = encode 4 blob.length := by
    rw [entryLine, append_assoc, append_assoc]
    exact take_left' (length_encode ..)
  have hdrop : (entryLine blob ++ rest).drop 4 =
      blob ++ (ascii "\n" ++ rest) := by
    rw [entryLine, append_assoc, append_assoc]
    exact drop_left' (length_encode ..)
  have hnext : (blob ++ (ascii "\n" ++ rest)).drop (blob.length + 1) =
      rest := by
    rw [drop_append]
    simp [ascii]
  have hlong : 4 ≤ (entryLine blob ++ rest).length := by simp [entryLine]
  rw [readFrom, if_pos hlong, htake, hdrop, unpackU32_encode hfits]
  simp [hnext]

/-- The contents of a log file: whole entries, one after the other. -/
def logData (blobs : List Bytes) : Bytes := blobs.flatMap entryLine

theorem length_le_logData (blobs : List Bytes) :
    blobs.length ≤ (logData blobs).length := by
  induction blobs with
  | nil => exact zero_le _
  | cons _ _ ih =>
    simp only [logData, flatMap_cons, length_append,
      length_cons, entryLine, length_encode] at ih ⊢
    omega

/-- Whole entries are read back as they were written. -/
theorem readMessages_logData {blobs : List Bytes}
    (hfits : ∀ blob ∈ blobs, blob.length < 2 ^ 32) :
    readMessages (logData blobs) = blobs := by
  have henough : ∀ fuel, blobs.length ≤ fuel →
      readFrom fuel (logData blobs) = blobs := by
    induction blobs with
    | nil =>
      intro fuel _
      cases fuel <;> simp [readFrom, logData]
    | cons blob _ ih =>
      intro fuel hfuel
      cases fuel with
      | zero => cases hfuel
      | succ fuel =>
        obtain ⟨hblob, hrest⟩ := forall_mem_cons.mp hfits
        rw [logData, flatMap_cons, readFrom_entryLine fuel hblob]
        congr 1
        exact ih hrest fuel (le_of_succ_le_succ hfuel)
  exact henough _ (length_le_logData blobs)

theorem logData_append (blobs : List Bytes) (blob : Bytes) :
    logData blobs ++ entryLine blob = logData (blobs ++ [blob]) := by
  simp [logData]

/-- `<peer>.log`, then `<peer>.log.1` and so on, and the temporary file. -/
inductive LogName where
  | temp (peerId : PeerId)
  | log (peerId : PeerId) (index : Nat)
deriving DecidableEq

/-- Contents, and whether they are known to be on disk. -/
structure LogFile where
  data : Bytes
  synced : Bool
deriving DecidableEq

abbrev LogFiles := OrderedDict LogName LogFile

/-- The two settings, which the configuration checks to be positive. -/
structure LogConfig where
  limitBytes : Nat
  maxRotations : Nat
  maxRotations_pos : 0 < maxRotations

namespace LogFiles

/-- `os.rename`; the rotation renames only files that exist. -/
def rename (files : LogFiles) (source target : LogName) : LogFiles :=
  match files.get? source with
  | none => files
  | some file => (erase files source).set target file

/-- The bytes that `append_message` reads before it writes. -/
def existing (files : LogFiles) (peerId : PeerId) : Bytes :=
  ((files.get? (.log peerId 0)).map LogFile.data).getD []

/-- The entries of one file that a crash cannot take away. -/
def entriesOf (files : LogFiles) (name : LogName) : List Bytes :=
  match files.get? name with
  | some file => if file.synced then readMessages file.data else []
  | none => []

/-- The blob is in the log of the peer, in the current file or a rotated
one. -/
def Logged (config : LogConfig) (files : LogFiles) (peerId : PeerId)
    (blob : Bytes) : Prop :=
  ∃ index ≤ config.maxRotations, blob ∈ files.entriesOf (.log peerId index)

instance (config : LogConfig) (files : LogFiles) (peerId : PeerId)
    (blob : Bytes) : Decidable (Logged config files peerId blob) :=
  decidable_of_iff (∃ index < config.maxRotations + 1,
      blob ∈ files.entriesOf (.log peerId index))
    (by simp only [Logged, Nat.lt_succ_iff])

end LogFiles

/-- Where `append_message` is.  `shift` is the loop of `rotate_if_needed`,
which counts down; its last round moves the current file. -/
inductive AppendStage where
  | write | sync | rename | unlink
  | shift (index : Nat)
  | done
deriving DecidableEq

/-- What `os.write` stores of its buffer: the first bytes, up to a limit if
the system has one.  It returns how many, which nobody looks at. -/
def osWrite (maxCount : Option Nat) (data : Bytes) : Bytes :=
  match maxCount with
  | none => data
  | some taken => data.take taken

/-- One file operation of `append_message`. -/
def appendStep (config : LogConfig) (maxCount : Option Nat) (files : LogFiles)
    (peerId : PeerId) (line : Bytes) : AppendStage → LogFiles × AppendStage
  | .write =>
    (files.set (.temp peerId)
      ⟨osWrite maxCount (files.existing peerId ++ line), false⟩, .sync)
  | .sync =>
    (files.modify (.temp peerId)
      (fun file => { file with synced := true }), .rename)
  | .rename =>
    let files' := files.rename (.temp peerId) (.log peerId 0)
    (files', if config.limitBytes < (files'.existing peerId).length then
      .unlink else .done)
  | .unlink =>
    (files.erase (.log peerId config.maxRotations), .shift config.maxRotations)
  | .shift 0 => (files, .done)
  | .shift (index + 1) =>
    (files.rename (.log peerId index) (.log peerId (index + 1)), .shift index)
  | .done => (files, .done)

namespace LogFiles

variable {config : LogConfig} {files : LogFiles} {peerId other : PeerId}
  {blob : Bytes}

variable {stage : AppendStage} {source : LogName} {later : LogFiles}

theorem get?_rename {target : LogName} {file : LogFile}
    (hget : files.get? source = some file) (name : LogName) :
    (files.rename source target).get? name =
      if target = name then some file
      else if source = name then none else files.get? name := by
  simp only [rename, hget, get?_set, get?_erase]

theorem rename_of_none (target : LogName) (hget : files.get? source = none) :
    files.rename source target = files := by
  simp only [rename, hget]

theorem entriesOf_congr (name : LogName) {name' : LogName}
    (hget : later.get? name' = files.get? name) :
    later.entriesOf name' = files.entriesOf name := by
  simp only [entriesOf, hget]

theorem existing_congr
    (hget : later.get? (.log peerId 0) = files.get? (.log peerId 0)) :
    later.existing peerId = files.existing peerId := by
  simp only [existing, hget]

theorem get?_of_mem_entriesOf {name : LogName}
    (hmem : blob ∈ files.entriesOf name) :
    ∃ file, files.get? name = some file := by
  unfold entriesOf at hmem
  split at hmem
  · next file hget => exact ⟨file, hget⟩
  · cases hmem

/-- Every log file is on disk and holds whole entries. -/
def Intact (files : LogFiles) : Prop := ∀ peerId index file,
    files.get? (.log peerId index) = some file → file.synced = true ∧ ∃ blobs,
        (∀ blob ∈ blobs, blob.length < 2 ^ 32) ∧ file.data = logData blobs

theorem intact_empty : Intact .empty := by
  rintro peerId index file ⟨⟩

theorem Intact.existing (hintact : Intact files) (peerId : PeerId) :
    ∃ blobs, (∀ blob ∈ blobs, blob.length < 2 ^ 32) ∧
      files.existing peerId = logData blobs ∧
      files.entriesOf (.log peerId 0) = blobs := by
  unfold LogFiles.existing entriesOf
  cases hget : files.get? (.log peerId 0) with
  | none => exact ⟨[], by simp, rfl, rfl⟩
  | some file =>
    obtain ⟨hsynced, blobs, hfits, hdata⟩ := hintact peerId 0 file hget
    refine ⟨blobs, hfits, hdata, ?_⟩
    simp [hsynced, hdata, readMessages_logData hfits]

/-- How far the append of `blob` has come. -/
def InProgress (config : LogConfig) (files : LogFiles) (peerId : PeerId)
    (blob : Bytes) : AppendStage → Prop
  | .write => True
  | .sync => files.get? (.temp peerId) =
      some ⟨files.existing peerId ++ entryLine blob, false⟩
  | .rename => files.get? (.temp peerId) =
      some ⟨files.existing peerId ++ entryLine blob, true⟩
  | .unlink => blob ∈ files.entriesOf (.log peerId 0)
  | .shift index => index ≤ config.maxRotations ∧
      files.get? (.log peerId index) = none ∧
      Logged config files peerId blob
  | .done => Logged config files peerId blob

section

variable (hintact : Intact files)

include hintact

/-- The rename puts the new entry behind those of the current file. -/
theorem entriesOf_rename_temp (hfits : blob.length < 2 ^ 32)
    (htemp : files.get? (.temp peerId) =
      some ⟨files.existing peerId ++ entryLine blob, true⟩) :
    (files.rename (.temp peerId) (.log peerId 0)).entriesOf (.log peerId 0) =
      files.entriesOf (.log peerId 0) ++ [blob] := by
  obtain ⟨blobs, hall, hexisting, hentries⟩ := hintact.existing peerId
  have hall' : ∀ entry ∈ blobs ++ [blob], entry.length < 2 ^ 32 := by
    intro entry hmem
    rcases mem_append.mp hmem with hmem | hmem
    · exact hall entry hmem
    · rwa [mem_singleton.mp hmem]
  rw [hentries, entriesOf, get?_rename htemp, if_pos rfl]
  simp [hexisting, logData_append, readMessages_logData hall']

theorem Intact.rename_temp (hfits : blob.length < 2 ^ 32)
    (htemp : files.get? (.temp peerId) =
      some ⟨files.existing peerId ++ entryLine blob, true⟩) :
    Intact (files.rename (.temp peerId) (.log peerId 0)) := by
  obtain ⟨blobs, hall, hexisting, -⟩ := hintact.existing peerId
  intro owner index file hget
  rw [get?_rename htemp] at hget
  split at hget
  · cases hget
    refine ⟨rfl, blobs ++ [blob], ?_, by rw [hexisting, logData_append]⟩
    intro entry hmem
    rcases mem_append.mp hmem with hmem | hmem
    · exact hall entry hmem
    · rwa [mem_singleton.mp hmem]
  · rw [if_neg (by rintro ⟨⟩)] at hget
    exact hintact owner index file hget

theorem Intact.rename_log (source target : Nat) :
    Intact (files.rename (.log peerId source) (.log peerId target)) := by
  cases hsource : files.get? (.log peerId source) with
  | none => rwa [rename_of_none _ hsource]
  | some =>
    intro owner index file hget
    rw [get?_rename hsource] at hget
    split at hget
    · cases hget
      exact hintact peerId source _ hsource
    · split at hget
      · cases hget
      · exact hintact owner index file hget

theorem appendStep_intact (hfits : blob.length < 2 ^ 32)
    (hprogress : InProgress config files peerId blob stage) :
    Intact (appendStep config none files peerId (entryLine blob) stage).1 := by
  cases stage with
  | write =>
    intro owner index file hget
    simp only [appendStep, get?_set] at hget
    rw [if_neg (by rintro ⟨⟩)] at hget
    exact hintact owner index file hget
  | sync =>
    intro owner index file hget
    simp only [appendStep, get?_modify] at hget
    rw [if_neg (by rintro ⟨⟩)] at hget
    exact hintact owner index file hget
  | rename => exact hintact.rename_temp hfits hprogress
  | unlink =>
    intro owner index file hget
    simp only [appendStep, get?_erase] at hget
    split at hget
    · cases hget
    · exact hintact owner index file hget
  | shift index =>
    cases index with
    | zero => exact hintact
    | succ index => exact hintact.rename_log index (index + 1)
  | done => exact hintact

end

/-- A round of the rotation moves a file into a free place. -/
theorem Logged.shift (hlogged : Logged config files other blob) {index : Nat}
    (hindex : index + 1 ≤ config.maxRotations)
    (hfree : files.get? (.log peerId (index + 1)) = none) :
    Logged config
      (files.rename (.log peerId index) (.log peerId (index + 1))) other
      blob := by
  cases hsource : files.get? (.log peerId index) with
  | none => rwa [rename_of_none _ hsource]
  | some =>
    obtain ⟨place, hplace, hmem⟩ := hlogged
    by_cases hmoved : LogName.log peerId index = .log other place
    · cases hmoved
      refine ⟨index + 1, hindex, ?_⟩
      rwa [entriesOf_congr (.log peerId index)]
      rw [get?_rename hsource, if_pos rfl, hsource]
    · have htaken : LogName.log peerId (index + 1) ≠ .log other place := by
        intro heq
        obtain ⟨_, hfound⟩ := get?_of_mem_entriesOf hmem
        rw [← heq, hfree] at hfound
        cases hfound
      refine ⟨place, hplace, ?_⟩
      rwa [entriesOf_congr (.log other place)]
      rw [get?_rename hsource, if_neg htaken, if_neg hmoved]

/-- An entry in the log stays there, unless it is in the file that the rotation
unlinks. -/
theorem appendStep_logged (hintact : Intact files)
    (hfits : blob.length < 2 ^ 32)
    (hprogress : InProgress config files peerId blob stage) {entry : Bytes}
    (hlogged : Logged config files other entry)
    (hkept : stage = .unlink → other = peerId → ∃ index < config.maxRotations,
      entry ∈ files.entriesOf (.log peerId index)) :
    Logged config
      (appendStep config none files peerId (entryLine blob) stage).1 other
      entry := by
  cases stage with
  | write =>
    obtain ⟨place, hplace, hmem⟩ := hlogged
    refine ⟨place, hplace, ?_⟩
    rwa [entriesOf_congr (.log other place)]
    exact (get?_set ..).trans (if_neg (by rintro ⟨⟩))
  | sync =>
    obtain ⟨place, hplace, hmem⟩ := hlogged
    refine ⟨place, hplace, ?_⟩
    rwa [entriesOf_congr (.log other place)]
    exact (get?_modify ..).trans (if_neg (by rintro ⟨⟩))
  | rename =>
    obtain ⟨place, hplace, hmem⟩ := hlogged
    refine ⟨place, hplace, ?_⟩
    by_cases htarget : LogName.log peerId 0 = .log other place
    · cases htarget
      rw [appendStep, entriesOf_rename_temp hintact hfits hprogress]
      exact mem_append_left _ hmem
    · rwa [entriesOf_congr (.log other place)]
      rw [appendStep, get?_rename hprogress, if_neg htarget,
        if_neg (by rintro ⟨⟩)]
  | unlink =>
    have hother : ∃ place ≤ config.maxRotations,
        entry ∈ files.entriesOf (.log other place) ∧
          LogName.log peerId config.maxRotations ≠ .log other place := by
      by_cases hpeer : other = peerId
      · obtain ⟨place, hplace, hmem⟩ := hkept rfl hpeer
        refine ⟨place, hplace.le, hpeer ▸ hmem, ?_⟩
        rintro ⟨⟩
        exact lt_irrefl _ hplace
      · obtain ⟨place, hplace, hmem⟩ := hlogged
        refine ⟨place, hplace, hmem, ?_⟩
        rintro ⟨⟩
        exact hpeer rfl
    obtain ⟨place, hplace, hmem, hne⟩ := hother
    refine ⟨place, hplace, ?_⟩
    rwa [entriesOf_congr (.log other place)]
    exact (get?_erase ..).trans (if_neg hne)
  | shift index =>
    cases index with
    | zero => exact hlogged
    | succ => exact hlogged.shift hprogress.1 hprogress.2.1
  | done => exact hlogged

theorem appendStep_inProgress (hintact : Intact files)
    (hfits : blob.length < 2 ^ 32)
    (hprogress : InProgress config files peerId blob stage) :
    let after := appendStep config none files peerId (entryLine blob) stage
    InProgress config after.1 peerId blob after.2 := by
  cases stage with
  | write =>
    have hexisting : LogFiles.existing (files.set (.temp peerId)
        ⟨files.existing peerId ++ entryLine blob, false⟩) peerId =
          files.existing peerId :=
      existing_congr ((get?_set ..).trans (if_neg (by rintro ⟨⟩)))
    simp only [appendStep, osWrite, InProgress, get?_set_self, hexisting]
  | sync =>
    have hexisting : LogFiles.existing (files.modify
        (.temp peerId) (fun file => { file with synced := true })) peerId =
          files.existing peerId :=
      existing_congr ((get?_modify ..).trans (if_neg (by rintro ⟨⟩)))
    simp only [InProgress] at hprogress
    simp [appendStep, InProgress, get?_modify_self, hprogress, hexisting]
  | rename =>
    have hnew := entriesOf_rename_temp hintact hfits hprogress
    have hmem : blob ∈ (files.rename (.temp peerId) (.log peerId 0)).entriesOf
        (.log peerId 0) := by
      rw [hnew]
      exact mem_append_right _ (mem_singleton_self _)
    simp only [appendStep]
    split
    · exact hmem
    · exact ⟨0, zero_le _, hmem⟩
  | unlink =>
    refine ⟨le_rfl, get?_erase_self .., ?_⟩
    refine appendStep_logged hintact hfits hprogress
      ⟨0, zero_le _, hprogress⟩ ?_
    exact fun _ _ => ⟨0, config.maxRotations_pos, hprogress⟩
  | shift index =>
    cases index with
    | zero => exact hprogress.2.2
    | succ index =>
      refine ⟨le_of_succ_le hprogress.1, ?_,
        hprogress.2.2.shift hprogress.1 hprogress.2.1⟩
      simp only [appendStep]
      cases hsource : files.get? (.log peerId index) with
      | none => rw [rename_of_none _ hsource, hsource]
      | some =>
        rw [get?_rename hsource, if_neg, if_pos rfl]
        rintro ⟨⟩
  | done => exact hprogress

end LogFiles

end AshiChat
