import Mathlib.Data.List.Basic
import Bussard.Lib.MapFold
import Bussard.Model.TimeFormat

/-! The history of a model directory: snapshots of its model files, each in a directory named by
its time, and what is read from them and put back from them. -/
namespace Bussard.History

open Text FixedDigits Model

/-- A file below a directory, by the names on the way to it. -/
abbrev Path := List String
abbrev Files := Std.ExtTreeMap Path String

def configFile := "bussard.toml"
def groupsFile := "groups.toml"
def lockFile := "bussard.lock"
def devicesDir := "devices"
def deviceExtension := "toml"
def modelCacheDir := "models"

/-- The files at the top of a model directory that a snapshot keeps. -/
def modelFiles : List String := [configFile, groupsFile, lockFile, "tests.toml", "ha.toml"]

def devicePath (name : String) : Path := [devicesDir, name]

/-- What follows the last dot of a file name, unless the dot starts it. -/
def extension (name : String) : Option String :=
  let after := (name.toList.reverse.takeWhile (· ≠ '.')).reverse
  if after.length + 1 < name.toList.length then some (String.ofList after) else none

def deviceStem (name : String) : Option String :=
  let suffix := ("." ++ deviceExtension).toList
  let stem := name.toList.take (name.toList.length - suffix.length)
  if name.toList = stem ++ suffix ∧ stem ≠ [] ∧ '/' ∉ stem ∧ stem.head? ≠ some '.' then
    some (String.ofList stem)
  else
    none

def deviceNames (keep : String → Bool) (dir : Files) : List String :=
  dir.keys.filterMap fun path =>
    match path with
    | [parent, name] => if parent = devicesDir ∧ keep name then some name else none
    | _ => none

/-- The device files a snapshot keeps. -/
def deviceFiles : Files → List String :=
  deviceNames fun name => extension name = some deviceExtension

/-- The device files the model is loaded from. -/
def listDeviceFiles : Files → List String := deviceNames fun name => (deviceStem name).isSome

/-- Copies a file, if it is there. -/
def copy (source target : Files) (path : Path) : Files :=
  match source[path]? with
  | some text => target.insert path text
  | none => target

/-- Makes a file as it is in the source: there with its text, or not there. -/
def mirror (source target : Files) (path : Path) : Files :=
  match source[path]? with
  | some text => target.insert path text
  | none => target.erase path

/-- What a snapshot of a directory holds. -/
def copiedFiles (dir : Files) : Files :=
  let target := modelFiles.foldl (fun target name => copy dir target [name]) ∅
  (deviceFiles dir).foldl (fun target name => copy dir target (devicePath name)) target

/-- A directory after the files of a snapshot are put back. -/
def restoredFiles (source dir : Files) : Files :=
  let dir := modelFiles.foldl (fun dir name => mirror source dir [name]) dir
  let wanted := deviceFiles source
  let dir := wanted.foldl (fun dir name => copy source dir (devicePath name)) dir
  (deviceFiles dir).foldl
    (fun dir name => if name ∈ wanted then dir else dir.erase (devicePath name)) dir

structure Reason where
  command : String
  args : List String
  deriving DecidableEq

structure Manifest where
  reason : Reason
  gateway : Option String
  result : String
  bussardVersion : String
  createdAt : String
  summary : Option String
  deriving DecidableEq

structure SnapshotReason where
  command : String
  args : List String := []
  gateway : Option String := none
  result : String := ""

def SnapshotReason.intoManifest (reason : SnapshotReason) (createdAt : String)
    (summary : Option String) : Manifest where
  reason := ⟨reason.command, reason.args⟩
  gateway := reason.gateway
  result := reason.result
  bussardVersion := "0.10.0"
  createdAt
  summary

def firstSnapshotSummary := "the first snapshot of the model"

/-- The directory of a snapshot. One whose manifest cannot be read was not finished. -/
structure SnapshotDir where
  files : Files
  manifest : Option Manifest

structure Snapshot where
  id : String
  manifest : Manifest

/-- A model directory and the history kept beside its files. -/
structure Home where
  files : Files
  history : Std.ExtTreeMap String SnapshotDir

inductive HistoryError (LoadError : Type) where
  | tooMany
  | load (id : String) (source : LoadError)
  | noSuchSnapshot (spec : String)
  | empty
  deriving DecidableEq

def snapshotName (stamp : String) (seq : Nat) : String := stamp ++ "-" ++ padded 3 seq

/-- The first of the 999 names of a second that no snapshot has. -/
def nextId (home : Home) (now : SystemTime) : Option String :=
  ((List.range' 1 999).find? fun seq =>
    !home.history.contains (snapshotName (compactUtc now) seq)).map (snapshotName (compactUtc now))

/-- The snapshots with a manifest, oldest first. -/
def list (home : Home) : List Snapshot :=
  home.history.toList.filterMap fun entry => entry.2.manifest.map (⟨entry.1, ·⟩)

def latest (home : Home) : Option Snapshot := (list home).getLast?

def hasModelFiles (dir : Files) : Bool :=
  modelFiles.any (fun name => dir.contains [name]) || !(deviceFiles dir).isEmpty

/-- How a model is made of its files and of the product models, how two are compared, and how one is
saved. -/
structure Loader (Model LoadError : Type) where
  assemble : Files → Files → Except LoadError Model
  legacyYaml : LoadError
  describe : Model → Model → String
  unchanged : Model → Model → Bool
  save : Model → Files → Files

inductive EditError (LoadError : Type) where
  | refused (message : String)
  | model (source : LoadError)
  | snapshot (source : HistoryError LoadError)
  deriving DecidableEq

section Loading

variable {Model LoadError : Type} (loader : Loader Model LoadError)

/-- The texts a model is made of. -/
def sources (dir : Files) : Files :=
  let files := [configFile, groupsFile, lockFile].foldl (fun files name => copy dir files [name]) ∅
  (listDeviceFiles dir).foldl (fun files name => copy dir files (devicePath name)) files

def productModels (root : Files) : Files := root.filter fun path _ => path.head? = some modelCacheDir

def loadWithModels (dir root : Files) : Except LoadError Model :=
  if (sources dir).isEmpty &&
      ["groups.yaml", "links.yaml", "bussard.yaml"].any (fun name => dir.contains [name]) then
    .error loader.legacyYaml
  else
    loader.assemble (sources dir) (productModels root)

def workingModel (home : Home) : Except LoadError Model := loadWithModels loader home.files home.files

/-- The model as it was at a snapshot, its labels read through the product models of today. -/
def load (home : Home) (id : String) : Except (HistoryError LoadError) Model :=
  match home.history[id]? with
  | none => .error (.noSuchSnapshot id)
  | some snapshot => (loadWithModels loader snapshot.files home.files).mapError (.load id)

/-- What changed since the latest snapshot, when both models load. -/
def workingSummary (home : Home) : Option String :=
  match workingModel loader home with
  | .error _ => none
  | .ok working =>
      match latest home with
      | none => some firstSnapshotSummary
      | some latest =>
          match load loader home latest.id with
          | .error _ => none
          | .ok previous => some (loader.describe previous working)

/-- Keeps the model files under a new id. -/
def writeSnapshot (home : Home) (reason : SnapshotReason) (summary : Option String)
    (now : SystemTime) : Except (HistoryError LoadError) (String × Home) :=
  match nextId home now with
  | none => .error .tooMany
  | some id =>
      let manifest := reason.intoManifest (rfc3339Utc now) summary
      let history := home.history.insert id ⟨copiedFiles home.files, some manifest⟩
      .ok (id, { home with history })

def snapshot (home : Home) (reason : SnapshotReason) (now : SystemTime) :
    Except (HistoryError LoadError) (String × Home) :=
  writeSnapshot home reason (workingSummary loader home) now

/-- The snapshot a user names, by its id or by its place in the list. -/
def resolve (home : Home) (spec : String) : Except (HistoryError LoadError) Snapshot :=
  match list home with
  | [] => .error .empty
  | first :: rest =>
      match (first :: rest).find? (·.id = spec) with
      | some found => .ok found
      | none =>
          match (parseUnsigned (2 ^ 64) spec).bind fun index =>
              if index = 0 then none else (first :: rest)[index - 1]? with
          | some found => .ok found
          | none => .error (.noSuchSnapshot spec)

/-- Restores the model files, after a snapshot of what they are. -/
def restore (home : Home) (id : String) (now : SystemTime) :
    Except (HistoryError LoadError) (String × Home) :=
  match home.history[id]? with
  | none => .error (.noSuchSnapshot id)
  | some source => do
      let (undo, home) ← snapshot loader home
        { command := "undo", args := [id], result := "state before restoring " ++ id } now
      return (undo, { home with files := restoredFiles source.files home.files })

/-- The snapshot a command takes before it writes. One that cannot be taken is only warned of. -/
def recordBefore (home : Home) (reason : SnapshotReason) (now : SystemTime) : Home :=
  if hasModelFiles home.files then
    match snapshot loader home reason now with
    | .ok (_, home) => home
    | .error _ => home
  else
    home

/-- An edit of the model by a tool, which is refused when its snapshot cannot be taken. -/
def editModel (home : Home) (reason : SnapshotReason) (apply : Model → Except String Model)
    (now : SystemTime) : Except (EditError LoadError) (Option String × Home) := do
  let before ← (workingModel loader home).mapError .model
  let edited ← (apply before).mapError .refused
  if loader.unchanged before edited then
    return (none, home)
  let (id, home) ← (snapshot loader home reason now).mapError .snapshot
  return (some id, { home with files := loader.save edited home.files })

def writeManifest (home : Home) (id : String) (manifest : Manifest) : Home :=
  match home.history[id]? with
  | some dir => { home with history := home.history.insert id { dir with manifest := some manifest } }
  | none => home

/-- The model of a snapshot: the one loaded last, where it is that. -/
def loadCached (home : Home) (snapshots : List Snapshot) (loaded : Option (Nat × Model))
    (index : Nat) : Option Model :=
  match loaded.filter (·.1 = index) with
  | some (_, model) => some model
  | none => snapshots[index]?.bind fun snapshot => (load loader home snapshot.id).toOption

/-- The summary of a snapshot against the one before it, and the model to use for the next one. -/
def computedSummary (home : Home) (snapshots : List Snapshot) (loaded : Option (Nat × Model))
    (index : Nat) (id : String) : Option String × Option (Nat × Model) :=
  match index with
  | 0 => (some firstSnapshotSummary, loaded)
  | previous + 1 =>
      match loadCached loader home snapshots loaded previous, (load loader home id).toOption with
      | some old, some new => (some (loader.describe old new), some (previous + 1, new))
      | _, _ => (none, none)

/-- The summaries of the snapshots from a place on. One a manifest lacks is computed and written to
it. -/
def summariesFrom (home : Home) (snapshots : List Snapshot) (index : Nat)
    (loaded : Option (Nat × Model)) : Nat → List String × Home
  | 0 => ([], home)
  | count + 1 =>
      match snapshots[index]? with
      | none => ([], home)
      | some snapshot =>
          match snapshot.manifest.summary with
          | some summary =>
              let (rest, home) := summariesFrom home snapshots (index + 1) loaded count
              (summary :: rest, home)
          | none =>
              let (computed, loaded) := computedSummary loader home snapshots loaded index
                snapshot.id
              let summary := computed.getD ""
              let home := writeManifest home snapshot.id
                { snapshot.manifest with summary := some summary }
              let (rest, home) := summariesFrom home snapshots (index + 1) loaded count
              (summary :: rest, home)

def summaries (home : Home) (snapshots : List Snapshot) (start stop : Nat) : List String × Home :=
  summariesFrom loader home snapshots start none (min stop snapshots.length - start)

variable [DecidableEq Model]

/-- The newest of some snapshots whose model is another than the working one. -/
def newestOther (home : Home) (working : Model) :
    List Snapshot → Except (HistoryError LoadError) (Option Snapshot)
  | [] => .ok none
  | snapshot :: older =>
      match load loader home snapshot.id with
      | .error e => .error e
      | .ok model => if model ≠ working then .ok (some snapshot) else newestOther home working older

/-- The snapshot an undo that names none goes back to. -/
def undoTarget (home : Home) : Except (HistoryError LoadError) (Option Snapshot) :=
  match workingModel loader home with
  | .error e => .error (.load "working model" e)
  | .ok working => newestOther loader home working (list home).reverse

/-- Records an edit made outside the program. -/
def snapshotIfChangedExternally (home : Home) (now : SystemTime) :
    Except (HistoryError LoadError) (Option String × Home) :=
  if hasModelFiles home.files then
    match workingModel loader home with
    | .error _ => .ok (none, home)
    | .ok working =>
        match latest home with
        | some latest => do
            let old ← load loader home latest.id
            if old = working then
              return (none, home)
            let (id, home) ← writeSnapshot home
              { command := "external edit", result := "model files changed outside bussard" }
              (some (loader.describe old working)) now
            return (some id, home)
        | none => do
            let (id, home) ← writeSnapshot home
              { command := "external edit", result := "baseline recorded (no earlier snapshot)" }
              (some firstSnapshotSummary) now
            return (some id, home)
  else
    .ok (none, home)

/-- What a command does first. -/
def captureExternalEdit (home : Home) (now : SystemTime) : Home :=
  match snapshotIfChangedExternally loader home now with
  | .ok (_, home) => home
  | .error _ => home

/-- The snapshot an undo goes back to: the one it names, or the newest that is another model. -/
def undoSnapshot (home : Home) : Option String → Except (HistoryError LoadError) (Option Snapshot)
  | some spec => (resolve home spec).map some
  | none => undoTarget loader home

/-- The undo command: the snapshot it restored and the one it took before, or nothing when there is
nothing to undo. -/
def runUndo (home : Home) (target : Option String) (now : SystemTime) :
    Except (HistoryError LoadError) (Option (String × String) × Home) :=
  if (list home).isEmpty then
    .ok (none, home)
  else do
    let found ← undoSnapshot loader home target
    match found with
    | none => return (none, home)
    | some target =>
        let _ ← load loader home target.id
        let (undo, home) ← restore loader home target.id now
        return (some (target.id, undo), home)

end Loading

/-- Whether a path is one of some files at the top or one of some device files. -/
def chosen (tops : List String) (keep : String → Bool) : Path → Bool
  | [name] => name ∈ tops
  | [parent, name] => parent = devicesDir ∧ keep name
  | _ => false

/-- The files a snapshot keeps and an undo puts back. -/
def isModelFile : Path → Bool :=
  chosen modelFiles fun name => extension name = some deviceExtension

section Copying

variable {tops : List String} {keep : String → Bool}

/-- A device name is kept exactly when its file is there. -/
theorem mem_deviceNames {dir : Files} {name : String} :
    name ∈ deviceNames keep dir ↔ devicePath name ∈ dir ∧ keep name = true := by
  rw [deviceNames, List.mem_filterMap]
  constructor
  · rintro ⟨path, hPath, hName⟩
    split at hName
    · next parent found =>
        split at hName
        · next hKeep =>
            rw [Option.some.injEq] at hName
            subst hName
            rw [hKeep.1] at hPath
            exact ⟨Std.ExtTreeMap.mem_keys.mp hPath, hKeep.2⟩
        · cases hName
    · cases hName
  · rintro ⟨hPath, hKeep⟩
    refine ⟨devicePath name, Std.ExtTreeMap.mem_keys.mpr hPath, ?_⟩
    simp [devicePath, hKeep]

theorem getElem?_copy (source target : Files) (path other : Path) :
    (copy source target path)[other]? =
      if path = other then source[other]?.or target[other]? else target[other]? := by
  unfold copy
  by_cases hPath : path = other
  · subst hPath
    cases source[path]? with
    | none => simp
    | some text => simp
  · cases source[path]? with
    | none => simp [hPath]
    | some text => simp [Std.ExtTreeMap.getElem?_insert, hPath]

/-- What copying some files leaves of a file: the copy, if it was one of them. -/
theorem getElem?_foldl_copy {α : Type} (path : α → Path) (names : List α) (source target : Files)
    (other : Path) : (names.foldl (fun target name => copy source target (path name)) target)[other]? =
      if other ∈ names.map path then source[other]?.or target[other]? else target[other]? := by
  induction names generalizing target with
  | nil => simp
  | cons name rest ih =>
      rw [List.foldl_cons, ih, getElem?_copy]
      by_cases hFirst : path name = other
      · simp only [hFirst, List.map_cons, List.mem_cons, true_or, if_true, ← Option.or_assoc,
          Option.or_self, ite_self]
      · simp only [hFirst, Ne.symm hFirst, List.map_cons, List.mem_cons, false_or, if_false]

theorem chosen_iff {path : Path} : chosen tops keep path = true ↔
    path ∈ tops.map (fun top => [top]) ∨ ∃ name, path = devicePath name ∧ keep name = true := by
  unfold chosen
  split
  · next name => simp [devicePath]
  · next parent name => simp [devicePath, and_comm]
  · next hTop hDevice =>
      have hNone : path ∉ tops.map fun top => [top] := by
        intro hMem
        obtain ⟨top, -, rfl⟩ := List.mem_map.mp hMem
        exact hTop top rfl
      simp only [Bool.false_eq_true, hNone, false_or, false_iff, not_exists]
      rintro name ⟨rfl, -⟩
      exact hDevice devicesDir name rfl

/-- Of some files at the top and some device files nothing but these is copied. -/
theorem getElem?_copied (dir : Files) (path : Path) :
    ((deviceNames keep dir).foldl (fun target name => copy dir target (devicePath name))
      (tops.foldl (fun target name => copy dir target [name]) ∅))[path]? =
      if chosen tops keep path then dir[path]? else none := by
  rw [getElem?_foldl_copy devicePath, getElem?_foldl_copy fun name => [name]]
  have hNone : (∅ : Files)[path]? = none := Std.ExtTreeMap.getElem?_empty
  rw [hNone, Option.or_none]
  by_cases hTop : path ∈ tops.map fun top => [top]
  · rw [if_pos hTop, if_pos (chosen_iff.mpr (.inl hTop)), Option.or_self, ite_self]
  · rw [if_neg hTop, Option.or_none]
    by_cases hDevice : path ∈ (deviceNames keep dir).map devicePath
    · obtain ⟨name, hName, rfl⟩ := List.mem_map.mp hDevice
      rw [if_pos hDevice, if_pos (chosen_iff.mpr (.inr ⟨name, rfl, (mem_deviceNames.mp hName).2⟩))]
    · rw [if_neg hDevice]
      split
      · next hChosen =>
          obtain hMem | ⟨name, rfl, hKeep⟩ := chosen_iff.mp hChosen
          · exact absurd hMem hTop
          · refine (Std.ExtTreeMap.getElem?_eq_none fun hMem => hDevice ?_).symm
            exact List.mem_map.mpr ⟨name, mem_deviceNames.mpr ⟨hMem, hKeep⟩, rfl⟩
      · rfl

end Copying

theorem getElem?_copiedFiles (dir : Files) (path : Path) :
    (copiedFiles dir)[path]? = if isModelFile path then dir[path]? else none :=
  getElem?_copied dir path

theorem getElem?_mirror (source target : Files) (path other : Path) :
    (mirror source target path)[other]? = if path = other then source[other]? else target[other]? := by
  unfold mirror
  by_cases hPath : path = other
  · subst hPath
    cases source[path]? with
    | none => simp
    | some text => simp
  · cases source[path]? with
    | none => simp [Std.ExtTreeMap.getElem?_erase, hPath]
    | some text => simp [Std.ExtTreeMap.getElem?_insert, hPath]

theorem getElem?_foldl_mirror (tops : List String) (source target : Files) (other : Path) :
    (tops.foldl (fun target name => mirror source target [name]) target)[other]? =
      if other ∈ tops.map (fun top => [top]) then source[other]? else target[other]? := by
  induction tops generalizing target with
  | nil => simp
  | cons name rest ih =>
      rw [List.foldl_cons, ih, getElem?_mirror]
      by_cases hFirst : [name] = other
      · simp only [hFirst, List.map_cons, List.mem_cons, true_or, if_true, ite_self]
      · simp only [hFirst, Ne.symm hFirst, List.map_cons, List.mem_cons, false_or, if_false]

theorem getElem?_foldl_prune (wanted names : List String) (target : Files) (other : Path) :
    (names.foldl (fun dir name => if name ∈ wanted then dir else dir.erase (devicePath name))
      target)[other]? =
      if ∃ name ∈ names, other = devicePath name ∧ name ∉ wanted then none else target[other]? := by
  induction names generalizing target with
  | nil => simp
  | cons name rest ih =>
      rw [List.foldl_cons, ih]
      by_cases hWanted : name ∈ wanted
      · rw [if_pos hWanted]
        simp [hWanted]
      · rw [if_neg hWanted, Std.ExtTreeMap.getElem?_erase]
        by_cases hName : other = devicePath name
        · subst hName
          simp [hWanted]
        · simp [hName, Ne.symm hName]

/-- An undo puts back every model file of the snapshot, takes away those it does not have, and leaves
every other file as it is. -/
theorem getElem?_restoredFiles (source dir : Files) (path : Path) :
    (restoredFiles source dir)[path]? = if isModelFile path then source[path]? else dir[path]? := by
  have hInj {a b : String} (h : devicePath a = devicePath b) : a = b := by simpa [devicePath] using h
  rw [restoredFiles, getElem?_foldl_prune, getElem?_foldl_copy devicePath, getElem?_foldl_mirror]
  generalize hPlaced : (deviceFiles source).foldl _ _ = placed
  have hPlacedAt : placed[path]? = if path ∈ (deviceFiles source).map devicePath then
      source[path]?.or (if path ∈ modelFiles.map (fun top => [top]) then source[path]? else
        dir[path]?) else if path ∈ modelFiles.map (fun top => [top]) then source[path]? else
        dir[path]? := by
    rw [← hPlaced, getElem?_foldl_copy devicePath, getElem?_foldl_mirror]
  rw [← hPlacedAt]
  by_cases hModel : isModelFile path = true
  · rw [if_pos hModel]
    obtain hTop | ⟨name, rfl, hKeep⟩ := chosen_iff.mp hModel
    · obtain ⟨top, -, rfl⟩ := List.mem_map.mp hTop
      have hNoDevice (names : List String) : [top] ∉ names.map devicePath := by simp [devicePath]
      rw [if_neg (by simp [devicePath]), hPlacedAt, if_neg (hNoDevice _), if_pos hTop]
    · have hNoTop : devicePath name ∉ modelFiles.map fun top => [top] := by simp [devicePath]
      by_cases hWanted : name ∈ deviceFiles source
      · obtain ⟨text, hText⟩ := Std.ExtTreeMap.mem_iff_isSome_getElem?.trans
          Option.isSome_iff_exists |>.mp (mem_deviceNames.mp hWanted).1
        rw [if_neg, hPlacedAt, if_pos (List.mem_map_of_mem hWanted), hText, Option.some_or]
        rintro ⟨other, -, hSame, hNot⟩
        rw [← hInj hSame] at hNot
        exact hNot hWanted
      · have hAbsent : source[devicePath name]? = none :=
          Std.ExtTreeMap.getElem?_eq_none fun hMem => hWanted (mem_deviceNames.mpr ⟨hMem, hKeep⟩)
        rw [hAbsent]
        split
        · rfl
        · next hKept =>
            apply Std.ExtTreeMap.getElem?_eq_none
            intro hMem
            exact hKept ⟨name, mem_deviceNames.mpr ⟨hMem, hKeep⟩, rfl, hWanted⟩
  · have hNoTop : path ∉ modelFiles.map fun top => [top] := fun h => hModel (chosen_iff.mpr (.inl h))
    have hNoDevice {files : Files} {name : String} (hName : name ∈ deviceFiles files) :
        path ≠ devicePath name := by
      intro hPath
      exact hModel (chosen_iff.mpr (.inr ⟨name, hPath, (mem_deviceNames.mp hName).2⟩))
    rw [if_neg hModel, if_neg, hPlacedAt, if_neg, if_neg hNoTop]
    · intro hMem
      obtain ⟨name, hName, hPath⟩ := List.mem_map.mp hMem
      exact hNoDevice hName hPath.symm
    · rintro ⟨name, hName, hPath, -⟩
      exact hNoDevice hName hPath

section Summaries

variable {Model LoadError : Type} {loader : Loader Model LoadError} {home : Home} {id : String}
  {snapshots : List Snapshot}

/-- What a manifest that is written again does not change. -/
def SnapshotDir.kept (dir : SnapshotDir) : Files × Bool := (dir.files, dir.manifest.isSome)

theorem mem_list {snapshot : Snapshot} (hMem : snapshot ∈ list home) :
    ∃ dir, home.history[snapshot.id]? = some dir ∧ dir.manifest = some snapshot.manifest := by
  obtain ⟨entry, hEntry, hManifest⟩ := List.mem_filterMap.mp hMem
  cases hDir : entry.2.manifest with
  | none =>
      rw [hDir] at hManifest
      cases hManifest
  | some manifest =>
      rw [hDir] at hManifest
      cases hManifest
      exact ⟨entry.2, Std.ExtTreeMap.mem_toList_iff_getElem?_eq_some.mp hEntry, hDir⟩

/-- Whether the snapshots are all there, each with a manifest. -/
def Listed (home : Home) (snapshots : List Snapshot) : Prop :=
  ∀ snapshot ∈ snapshots, ∃ files,
    (home.history[snapshot.id]?).map SnapshotDir.kept = some (files, true)

theorem listed_list (home : Home) : Listed home (list home) := by
  intro snapshot hMem
  obtain ⟨dir, hDir, hManifest⟩ := mem_list hMem
  exact ⟨dir.files, by rw [hDir, Option.map_some, SnapshotDir.kept, hManifest]; rfl⟩

theorem writeManifest_kept {files : Files} {manifest : Manifest}
    (hListed : (home.history[id]?).map SnapshotDir.kept = some (files, true)) (other : String) :
    ((writeManifest home id manifest).history[other]?).map SnapshotDir.kept =
      (home.history[other]?).map SnapshotDir.kept := by
  unfold writeManifest
  obtain ⟨dir, hDir, hKept⟩ := Option.map_eq_some_iff.mp hListed
  rw [hDir]
  simp only [Std.ExtTreeMap.getElem?_insert, Std.LawfulEqOrd.compare_eq_iff_eq]
  by_cases hSame : id = other
  · subst hSame
    rw [if_pos rfl, hDir, Option.map_some, Option.map_some, hKept]
    rw [SnapshotDir.kept, Prod.mk.injEq] at hKept
    rw [SnapshotDir.kept, hKept.1, Option.isSome_some]
  · rw [if_neg hSame]

theorem writeManifest_files (home : Home) (id : String) (manifest : Manifest) :
    (writeManifest home id manifest).files = home.files := by
  unfold writeManifest
  split
  · rfl
  · rfl

/-- Filling in summaries leaves files and snapshots. -/
theorem summariesFrom_kept {snapshots : List Snapshot} (hListed : Listed home snapshots)
    (count index : Nat) (loaded : Option (Nat × Model)) :
    (∀ id : String, ((summariesFrom loader home snapshots index loaded count).2.history[id]?).map
      SnapshotDir.kept = (home.history[id]?).map SnapshotDir.kept) ∧
      (summariesFrom loader home snapshots index loaded count).2.files = home.files := by
  induction count generalizing home index loaded with
  | zero => exact ⟨fun id => rfl, rfl⟩
  | succ count ih =>
      unfold summariesFrom
      cases hSnapshot : snapshots[index]? with
      | none => exact ⟨fun id => rfl, rfl⟩
      | some snapshot =>
          cases hSummary : snapshot.manifest.summary with
          | some summary =>
              simp only [hSummary]
              exact ih hListed (index + 1) loaded
          | none =>
              simp only [hSummary]
              obtain ⟨files, hThere⟩ := hListed snapshot (List.mem_of_getElem? hSnapshot)
              generalize computedSummary loader home snapshots loaded index snapshot.id = computed
              have hWritten := @writeManifest_kept home snapshot.id files
                { snapshot.manifest with summary := some (computed.1.getD "") } hThere
              have hStill : Listed (writeManifest home snapshot.id
                  { snapshot.manifest with summary := some (computed.1.getD "") }) snapshots := by
                intro other hMem
                obtain ⟨held, hHeld⟩ := hListed other hMem
                exact ⟨held, (hWritten other.id).trans hHeld⟩
              obtain ⟨hKept, hFiles⟩ := ih hStill (index + 1) computed.2
              exact ⟨fun id => (hKept id).trans (hWritten id),
                hFiles.trans (writeManifest_files _ _ _)⟩

end Summaries

end Bussard.History
