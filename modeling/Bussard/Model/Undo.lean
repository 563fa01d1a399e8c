import Bussard.Lib.Fallible
import Bussard.Model.History
/-! Runs of commands over a model directory: the history lists the states it kept in the order they
were in the directory, no tool loses the state it replaces, and an undo can be undone. -/
namespace Bussard.History

open Text FixedDigits Model Fallible

section Runs

variable {Model LoadError : Type} [DecidableEq Model]

/-- What is done to a model directory, by the program or by others. -/
inductive Move (Model : Type) where
  | write (writes : List (Path × Option String))
  | capture
  | record (reason : SnapshotReason)
  | editModel (reason : SnapshotReason) (apply : Model → Except String Model)
  | undo (target : Option String)
  | interrupted (files : Files)
  | summaries (start stop : Nat)

def applyWrites (files : Files) (writes : List (Path × Option String)) : Files :=
  writes.foldl (fun files write =>
    match write.2 with
    | some text => files.insert write.1 text
    | none => files.erase write.1) files

/-- A snapshot that stops before its manifest is written. -/
def interruptedSnapshot (home : Home) (files : Files) (now : SystemTime) : Home :=
  match nextId home now with
  | some id => { home with history := home.history.insert id ⟨files, none⟩ }
  | none => home

def step (loader : Loader Model LoadError) (home : Home) (move : SystemTime × Move Model) : Home :=
  match move.2 with
  | .write writes => { home with files := applyWrites home.files writes }
  | .capture => captureExternalEdit loader home move.1
  | .record reason => recordBefore loader home reason move.1
  | .editModel reason apply =>
      match editModel loader home reason apply move.1 with
      | .ok (_, home) => home
      | .error _ => home
  | .undo target =>
      match runUndo loader home target move.1 with
      | .ok (_, home) => home
      | .error _ => home
  | .interrupted files => interruptedSnapshot home files move.1
  | .summaries start stop => (summaries loader home (list home) start stop).2

def run (loader : Loader Model LoadError) (home : Home) (moves : List (SystemTime × Move Model)) :
    Home :=
  moves.foldl (step loader) home

/-- The states of the directory that the history keeps, by the names of their snapshots. -/
def timeline (home : Home) : List (String × Files) :=
  home.history.toList.filterMap fun entry =>
    if entry.2.manifest.isSome then some (entry.1, entry.2.files) else none

theorem timeline_ids (home : Home) : (timeline home).map Prod.fst = (list home).map Snapshot.id := by
  rw [timeline, list, List.map_filterMap, List.map_filterMap]
  congr 1
  funext entry
  cases entry.2.manifest with
  | none => rfl
  | some manifest => rfl

/-- The history after a move: as it was but for what the manifests say, or with a new snapshot. -/
inductive Moved (now : SystemTime) (home : Home) : Home → Prop where
  | same {home' : Home} (hKept : ∀ id : String, (home'.history[id]?).map SnapshotDir.kept =
      (home.history[id]?).map SnapshotDir.kept) : Moved now home home'
  | took {home' : Home} {id : String} (manifest : Manifest)
      (hNext : nextId home now = some id)
      (hHistory : home'.history = home.history.insert id ⟨copiedFiles home.files, some manifest⟩) :
      Moved now home home'
  | unfinished {home' : Home} {id : String} (files : Files)
      (hNext : nextId home now = some id)
      (hHistory : home'.history = home.history.insert id ⟨files, none⟩) : Moved now home home'

section Specs

variable {loader : Loader Model LoadError} {home home' : Home} {now : SystemTime} {id : String}
  {reason : SnapshotReason}

theorem writeSnapshot_ok {summary : Option String}
    (h : writeSnapshot home reason summary now = (.ok (id, home') :
      Except (HistoryError LoadError) _)) :
    nextId home now = some id ∧ home' = { home with
      history := home.history.insert id ⟨copiedFiles home.files,
        some (reason.intoManifest (rfc3339Utc now) summary)⟩ } := by
  unfold writeSnapshot at h
  cases hNext : nextId home now with
  | none =>
      rw [hNext] at h
      cases h
  | some found =>
      rw [hNext] at h
      cases h
      exact ⟨rfl, rfl⟩

theorem writeSnapshot_files {summary : Option String}
    (h : writeSnapshot home reason summary now = (.ok (id, home') :
      Except (HistoryError LoadError) _)) : home'.files = home.files := by
  rw [(writeSnapshot_ok h).2]

theorem writeSnapshot_moved {summary : Option String}
    (h : writeSnapshot home reason summary now = (.ok (id, home') :
      Except (HistoryError LoadError) _)) : Moved now home home' := by
  obtain ⟨hNext, rfl⟩ := writeSnapshot_ok h
  exact .took _ hNext rfl

omit [DecidableEq Model] in
/-- A tool that has edited the model has kept the files it was made of. -/
theorem editModel_ok {apply : Model → Except String Model} {taken : Option String}
    (h : editModel loader home reason apply now = .ok (taken, home')) :
    taken = none ∧ home' = home ∨ ∃ before edited id kept, taken = some id ∧
      workingModel loader home = .ok before ∧ apply before = .ok edited ∧
      snapshot loader home reason now = .ok (id, kept) ∧
      home' = { kept with files := loader.save edited home.files } := by
  obtain ⟨before, hBefore, h⟩ := bind_eq_ok.mp h
  obtain ⟨edited, hEdited, h⟩ := bind_eq_ok.mp h
  split at h
  · cases h
    exact .inl ⟨rfl, rfl⟩
  · obtain ⟨⟨id, kept⟩, hSnapshot, h⟩ := bind_eq_ok.mp h
    cases h
    rw [mapError_eq_ok] at hBefore hEdited hSnapshot
    have hFiles := writeSnapshot_files hSnapshot
    exact .inr ⟨before, edited, id, kept, rfl, hBefore, hEdited, hSnapshot, by rw [hFiles]⟩

omit [DecidableEq Model] in
/-- What is restored are the files of the snapshot, after those they replace are kept. -/
theorem restore_ok {undo : String} (h : restore loader home id now = .ok (undo, home')) :
    ∃ source reason kept, home.history[id]? = some source ∧
      snapshot loader home reason now = .ok (undo, kept) ∧
      home' = { kept with files := restoredFiles source.files home.files } := by
  unfold restore at h
  cases hSource : home.history[id]? with
  | none =>
      rw [hSource] at h
      cases h
  | some source =>
      rw [hSource] at h
      obtain ⟨⟨undo, kept⟩, hSnapshot, h⟩ := bind_eq_ok.mp h
      cases h
      have hFiles := writeSnapshot_files hSnapshot
      exact ⟨source, _, kept, rfl, hSnapshot, by rw [hFiles]⟩

/-- An undo that succeeds restored one snapshot, or there was none. -/
theorem runUndo_ok {target : Option String} {undone : Option (String × String)}
    (h : runUndo loader home target now = .ok (undone, home')) :
    undone = none ∧ home' = home ∨ ∃ id undo, undone = some (id, undo) ∧
      restore loader home id now = .ok (undo, home') := by
  unfold runUndo at h
  split at h
  · cases h
    exact .inl ⟨rfl, rfl⟩
  · obtain ⟨found, -, h⟩ := bind_eq_ok.mp h
    cases found with
    | none =>
        cases h
        exact .inl ⟨rfl, rfl⟩
    | some target =>
        obtain ⟨model, -, h⟩ := bind_eq_ok.mp h
        obtain ⟨⟨undo, restored⟩, hRestore, h⟩ := bind_eq_ok.mp h
        cases h
        exact .inr ⟨_, _, rfl, hRestore⟩

theorem Moved.of_eq (h : home' = home) : Moved now home home' := .same fun id => by rw [h]

/-- A move after which the files alone are others. -/
theorem Moved.of_history {after : Home} (h : Moved now home home')
    (hHistory : after.history = home'.history) : Moved now home after := by
  cases h with
  | same hKept => exact .same (by simpa only [hHistory] using hKept)
  | took manifest hNext hTook => exact .took manifest hNext (hHistory.trans hTook)
  | unfinished files hNext hTook => exact .unfinished files hNext (hHistory.trans hTook)

/-- An edit from outside is captured in one snapshot, or there was none. -/
theorem captureExternalEdit_cases : captureExternalEdit loader home now = home ∨
    ∃ id reason summary, writeSnapshot home reason summary now =
      (.ok (id, captureExternalEdit loader home now) : Except (HistoryError LoadError) _) := by
  unfold captureExternalEdit
  cases hCapture : snapshotIfChangedExternally loader home now with
  | error e => exact .inl rfl
  | ok captured =>
      obtain ⟨taken, after⟩ := captured
      unfold snapshotIfChangedExternally at hCapture
      split at hCapture
      · split at hCapture
        · cases hCapture
          exact .inl rfl
        · split at hCapture
          · obtain ⟨old, -, hCapture⟩ := bind_eq_ok.mp hCapture
            split at hCapture
            · cases hCapture
              exact .inl rfl
            · obtain ⟨⟨id, kept⟩, hWrite, hCapture⟩ := bind_eq_ok.mp hCapture
              cases hCapture
              exact .inr ⟨_, _, _, hWrite⟩
          · obtain ⟨⟨id, kept⟩, hWrite, hCapture⟩ := bind_eq_ok.mp hCapture
            cases hCapture
            exact .inr ⟨_, _, _, hWrite⟩
      · cases hCapture
        exact .inl rfl

omit [DecidableEq Model] in
theorem recordBefore_cases : recordBefore loader home reason now = home ∨
    ∃ id summary, writeSnapshot home reason summary now =
      (.ok (id, recordBefore loader home reason now) : Except (HistoryError LoadError) _) := by
  unfold recordBefore
  split
  · cases hSnapshot : snapshot loader home reason now with
    | error e => exact .inl rfl
    | ok taken => exact .inr ⟨_, _, hSnapshot⟩
  · exact .inl rfl

end Specs

/-- A move takes at most one snapshot, of the files as they are before it. -/
theorem step_moved (loader : Loader Model LoadError) (home : Home) (now : SystemTime)
    (move : Move Model) : Moved now home (step loader home (now, move)) := by
  cases move with
  | write writes => exact .same fun id => rfl
  | capture =>
      cases @captureExternalEdit_cases _ _ _ loader home now with
      | inl hSame => exact .of_eq hSame
      | inr hTook =>
          obtain ⟨id, reason, summary, hWrite⟩ := hTook
          exact writeSnapshot_moved hWrite
  | record reason =>
      cases @recordBefore_cases _ _ loader home now reason with
      | inl hSame => exact .of_eq hSame
      | inr hTook =>
          obtain ⟨id, summary, hWrite⟩ := hTook
          exact writeSnapshot_moved hWrite
  | editModel reason apply =>
      cases hEdit : editModel loader home reason apply now with
      | error e => exact .of_eq (by simp only [step, hEdit])
      | ok edited =>
          obtain ⟨taken, after⟩ := edited
          simp only [step, hEdit]
          cases editModel_ok hEdit with
          | inl hSame => exact .of_eq hSame.2
          | inr hTook =>
              obtain ⟨before, edited, id, kept, -, -, -, hSnapshot, rfl⟩ := hTook
              exact (writeSnapshot_moved hSnapshot).of_history rfl
  | undo target =>
      cases hUndo : runUndo loader home target now with
      | error e => exact .of_eq (by simp only [step, hUndo])
      | ok undone =>
          obtain ⟨undone, after⟩ := undone
          simp only [step, hUndo]
          cases runUndo_ok hUndo with
          | inl hSame => exact .of_eq hSame.2
          | inr hTook =>
              obtain ⟨id, undo, -, hRestore⟩ := hTook
              obtain ⟨source, reason, kept, -, hSnapshot, rfl⟩ := restore_ok hRestore
              exact (writeSnapshot_moved hSnapshot).of_history rfl
  | interrupted files =>
      simp only [step, interruptedSnapshot]
      cases hNext : nextId home now with
      | none => exact .of_eq rfl
      | some id => exact .unfinished files hNext rfl
  | summaries start stop => exact .same (summariesFrom_kept (listed_list home) _ _ _).1

variable {loader : Loader Model LoadError} {home home' : Home} {now : SystemTime} {id : String}

theorem nextId_some (h : nextId home now = some id) : ∃ seq, 1 ≤ seq ∧ seq ≤ 999 ∧
    id = snapshotName (compactUtc now) seq ∧ id ∉ home.history ∧
      ∀ earlier, 1 ≤ earlier → earlier < seq →
        snapshotName (compactUtc now) earlier ∈ home.history := by
  obtain ⟨seq, hFind, rfl⟩ := Option.map_eq_some_iff.mp h
  rw [List.find?_range'_eq_some] at hFind
  obtain ⟨hFree, hRange, hTaken⟩ := hFind
  rw [List.mem_range'_1] at hRange
  refine ⟨seq, hRange.1, by omega, rfl, ?_, ?_⟩
  · intro hMem
    rw [Std.ExtTreeMap.contains_iff_mem.mpr hMem] at hFree
    cases hFree
  · intro earlier hFirst hBefore
    simpa using hTaken earlier hFirst hBefore

/-- No command changes a snapshot that is there. -/
theorem Moved.keeps (hMoved : Moved now home home') {held : Files × Bool}
    (hHeld : (home.history[id]?).map SnapshotDir.kept = some held) :
    (home'.history[id]?).map SnapshotDir.kept = some held := by
  have hInsert {other : String} (dir : SnapshotDir) (hNext : nextId home now = some other) :
      ((home.history.insert other dir)[id]?).map SnapshotDir.kept = some held := by
    obtain ⟨-, -, -, -, hFresh, -⟩ := nextId_some hNext
    have hOther : other ≠ id := by
      rintro rfl
      rw [Std.ExtTreeMap.getElem?_eq_none hFresh] at hHeld
      cases hHeld
    rw [Std.ExtTreeMap.getElem?_insert, if_neg fun h => hOther (Std.LawfulEqOrd.compare_eq_iff_eq.mp h),
      hHeld]
  cases hMoved with
  | same hKept => rw [hKept, hHeld]
  | took manifest hNext hHistory =>
      rw [hHistory]
      exact hInsert _ hNext
  | unfinished files hNext hHistory =>
      rw [hHistory]
      exact hInsert _ hNext

variable (loader) in
/-- What the history holds it holds after every run. -/
theorem run_keeps (moves : List (SystemTime × Move Model)) {held : Files × Bool}
    (hHeld : (home.history[id]?).map SnapshotDir.kept = some held) :
    ((run loader home moves).history[id]?).map SnapshotDir.kept = some held := by
  induction moves generalizing home with
  | nil => exact hHeld
  | cons move rest ih => exact ih ((step_moved loader home move.1 move.2).keeps hHeld)

omit [DecidableEq Model] in
theorem snapshot_keeps {reason : SnapshotReason} {kept : Home}
    (h : snapshot loader home reason now = .ok (id, kept)) :
    (kept.history[id]?).map SnapshotDir.kept = some (copiedFiles home.files, true) := by
  rw [(writeSnapshot_ok h).2]
  simp [SnapshotDir.kept]

/-- Whether a move leaves the files of the directory alone. -/
def Move.quiet : Move Model → Bool
  | .capture | .record _ | .interrupted _ | .summaries _ _ => true
  | .write _ | .editModel _ _ | .undo _ => false

/-- The commands that only list leave the files. -/
theorem step_quiet (loader : Loader Model LoadError) (home : Home) (now : SystemTime)
    {move : Move Model} (hQuiet : move.quiet = true) :
    (step loader home (now, move)).files = home.files := by
  cases move with
  | capture =>
      cases @captureExternalEdit_cases _ _ _ loader home now with
      | inl hSame => exact congrArg Home.files hSame
      | inr hTook =>
          obtain ⟨id, reason, summary, hWrite⟩ := hTook
          exact writeSnapshot_files hWrite
  | record reason =>
      cases @recordBefore_cases _ _ loader home now reason with
      | inl hSame => exact congrArg Home.files hSame
      | inr hTook =>
          obtain ⟨id, summary, hWrite⟩ := hTook
          exact writeSnapshot_files hWrite
  | interrupted files =>
      simp only [step, interruptedSnapshot]
      cases nextId home now with
      | none => rfl
      | some id => rfl
  | summaries start stop => exact (summariesFrom_kept (listed_list home) _ _ _).2
  | write writes => cases hQuiet
  | editModel reason apply => cases hQuiet
  | undo target => cases hQuiet

/-- A move that changes the files has kept them, unless it is a write that no tool makes. -/
theorem step_replaced (loader : Loader Model LoadError) (home : Home) (now : SystemTime)
    (move : Move Model) : (∃ writes, move = .write writes) ∨
      (step loader home (now, move)).files = home.files ∨
      ∃ id : String, ((step loader home (now, move)).history[id]?).map SnapshotDir.kept =
        some (copiedFiles home.files, true) := by
  cases move with
  | write writes => exact .inl ⟨writes, rfl⟩
  | editModel reason apply =>
      cases hEdit : editModel loader home reason apply now with
      | error e => exact .inr (.inl (by simp only [step, hEdit]))
      | ok edited =>
          obtain ⟨taken, after⟩ := edited
          simp only [step, hEdit]
          cases editModel_ok hEdit with
          | inl hSame => exact .inr (.inl (congrArg Home.files hSame.2))
          | inr hTook =>
              obtain ⟨before, edited, id, kept, -, -, -, hSnapshot, rfl⟩ := hTook
              have hKept := snapshot_keeps hSnapshot
              exact .inr (.inr ⟨id, hKept⟩)
  | undo target =>
      cases hUndo : runUndo loader home target now with
      | error e => exact .inr (.inl (by simp only [step, hUndo]))
      | ok undone =>
          obtain ⟨undone, after⟩ := undone
          simp only [step, hUndo]
          cases runUndo_ok hUndo with
          | inl hSame => exact .inr (.inl (congrArg Home.files hSame.2))
          | inr hTook =>
              obtain ⟨id, undo, -, hRestore⟩ := hTook
              obtain ⟨source, reason, kept, -, hSnapshot, rfl⟩ := restore_ok hRestore
              have hKept := snapshot_keeps hSnapshot
              exact .inr (.inr ⟨undo, hKept⟩)
  | capture => exact .inr (.inl (step_quiet loader home now rfl))
  | record reason => exact .inr (.inl (step_quiet loader home now rfl))
  | interrupted files => exact .inr (.inl (step_quiet loader home now rfl))
  | summaries start stop => exact .inr (.inl (step_quiet loader home now rfl))

variable (loader) in
omit [DecidableEq Model] in
/-- Restoring a snapshot puts back the files it holds, unless no name is left for the snapshot of the
files it replaces. -/
theorem restore_held {files : Files}
    (hHeld : (home.history[id]?).map SnapshotDir.kept = some (files, true)) (now : SystemTime) :
    restore loader home id now = .error .tooMany ∨ ∃ undo restored,
      restore loader home id now = .ok (undo, restored) ∧
        restored.files = restoredFiles files home.files := by
  obtain ⟨source, hSource, hKept⟩ := Option.map_eq_some_iff.mp hHeld
  rw [SnapshotDir.kept, Prod.mk.injEq] at hKept
  unfold restore
  rw [hSource]
  simp only
  cases hSnapshot : snapshot loader home
      { command := "undo", args := [id], result := "state before restoring " ++ id } now with
  | error e =>
      apply Or.inl
      unfold snapshot writeSnapshot at hSnapshot
      split at hSnapshot
      · cases hSnapshot
        rfl
      · cases hSnapshot
  | ok taken =>
      obtain ⟨undo, kept⟩ := taken
      refine .inr ⟨undo, { kept with files := restoredFiles source.files kept.files }, ?_, ?_⟩
      · rfl
      · rw [hKept.1, (writeSnapshot_files hSnapshot)]

theorem mem_list_of_kept {files : Files}
    (hHeld : (home.history[id]?).map SnapshotDir.kept = some (files, true)) :
    id ∈ (list home).map Snapshot.id := by
  obtain ⟨dir, hDir, hKept⟩ := Option.map_eq_some_iff.mp hHeld
  rw [SnapshotDir.kept, Prod.mk.injEq] at hKept
  obtain ⟨manifest, hManifest⟩ := Option.isSome_iff_exists.mp hKept.2
  refine List.mem_map.mpr ⟨⟨id, manifest⟩, List.mem_filterMap.mpr ⟨(id, dir), ?_, ?_⟩, rfl⟩
  · exact Std.ExtTreeMap.mem_toList_iff_getElem?_eq_some.mpr hDir
  · rw [hManifest, Option.map_some]

/-- Whatever is done to a model directory, a tool's edit or an undo that changes its files leaves the
model files it replaces among the snapshots, from where they are put back as they were, with every
other file left alone. -/
theorem replaced_files_kept (loader : Loader Model LoadError) (home : Home) (now : SystemTime)
    (move : Move Model) (later : List (SystemTime × Move Model)) :
    (∃ writes, move = .write writes) ∨ (step loader home (now, move)).files = home.files ∨
      ∃ id : String, id ∈ (list (run loader home ((now, move) :: later))).map Snapshot.id ∧
        ∀ undoNow : SystemTime,
          restore loader (run loader home ((now, move) :: later)) id undoNow = .error .tooMany ∨
          ∃ undo restored,
            restore loader (run loader home ((now, move) :: later)) id undoNow =
              .ok (undo, restored) ∧
            ∀ path : Path, restored.files[path]? = if isModelFile path then home.files[path]?
              else (run loader home ((now, move) :: later)).files[path]? := by
  obtain hWrite | hSame | ⟨id, hKept⟩ := step_replaced loader home now move
  · exact .inl hWrite
  · exact .inr (.inl hSame)
  · have hHeld := run_keeps loader later hKept
    refine .inr (.inr ⟨id, ?_, fun undoNow => ?_⟩)
    · exact mem_list_of_kept hHeld
    · apply (restore_held loader hHeld undoNow).imp_right
      rintro ⟨undo, restored, hRestore, hFiles⟩
      refine ⟨undo, restored, hRestore, fun path => ?_⟩
      rw [hFiles, getElem?_restoredFiles, getElem?_copiedFiles]
      by_cases hModel : isModelFile path = true
      · rw [if_pos hModel, if_pos hModel, if_pos hModel]
      · rw [if_neg hModel, if_neg hModel]
        rfl

/-- The names of a history are of seconds up to the last one, each with every number below its own. -/
structure Filed (home : Home) (last : Nat) : Prop where
  named : ∀ id ∈ home.history, ∃ (taken : SystemTime) (seq : Nat),
    taken.toNat / 1000000000 ≤ last ∧ 1 ≤ seq ∧ seq ≤ 999 ∧
      id = snapshotName (compactUtc taken) seq ∧
      ∀ earlier, 1 ≤ earlier → earlier < seq → snapshotName (compactUtc taken) earlier ∈ home.history

theorem compare_lt {a b : String} (h : a.toList < b.toList) : compare a b = .lt := by
  show compareOfLessAndEq a b = .lt
  rw [compareOfLessAndEq, if_pos (String.lt_iff.mpr h)]

theorem toList_snapshotName (stamp : String) (seq : Nat) :
    (snapshotName stamp seq).toList = stamp.toList ++ ('-' :: (padded 3 seq).toList) := by
  have hDash : ("-" : String).toList = ['-'] := rfl
  rw [snapshotName, String.toList_append, String.toList_append, hDash, List.append_assoc,
    List.singleton_append]

/-- A new name comes after all the others. -/
theorem nextId_last {last : Nat} (hFiled : Filed home last)
    (hClock : last ≤ now.toNat / 1000000000) (hEnd : now.toNat / 1000000000 < 253402300800)
    (hNext : nextId home now = some id) : ∀ other ∈ home.history, compare other id = .lt := by
  intro other hOther
  obtain ⟨seq, hFirst, hLast, rfl, hFresh, hTaken⟩ := nextId_some hNext
  obtain ⟨taken, number, hTime, hOne, hNumber, rfl, hBelow⟩ := hFiled.named other hOther
  apply compare_lt
  rw [toList_snapshotName, toList_snapshotName]
  by_cases hSecond : taken.toNat / 1000000000 = now.toNat / 1000000000
  · rw [compactUtc_congr hSecond] at hOther hBelow ⊢
    apply List.append_left_lt
    rw [List.cons_lt_cons_iff]
    refine .inr ⟨rfl, padded_lt (by decide) ?_ (by omega)⟩
    by_contra hNot
    by_cases hSame : number = seq
    · rw [hSame] at hOther
      exact hFresh hOther
    · exact hFresh (hBelow seq hFirst (by omega))
  · have hLater : taken.toNat / 1000000000 < now.toNat / 1000000000 := by omega
    apply append_lt _ (compactUtc_lt hLater hEnd)
    rw [length_compactUtc hEnd, length_compactUtc (Nat.lt_trans hLater hEnd)]

theorem timeline_insert {dir : SnapshotDir}
    (hLast : ∀ other ∈ home.history, compare other id = .lt) (files : Files) :
    timeline ⟨files, home.history.insert id dir⟩ =
      timeline home ++ (if dir.manifest.isSome then [(id, dir.files)] else []) := by
  rw [timeline, MapFold.toList_insert_last _ hLast, List.filterMap_append]
  by_cases hDone : dir.manifest.isSome = true
  · simp [timeline, hDone]
  · simp [timeline, hDone]

/-- The timeline does not depend on what the manifests say. -/
theorem timeline_congr (hKept : ∀ id : String, (home'.history[id]?).map SnapshotDir.kept =
    (home.history[id]?).map SnapshotDir.kept) : timeline home' = timeline home := by
  have hTimeline (h : Home) : timeline h =
      (h.history.map fun _ dir => dir.kept).toList.filterMap fun entry =>
        if entry.2.2 then some (entry.1, entry.2.1) else none := by
    rw [timeline, Std.ExtTreeMap.toList_map, List.filterMap_map]
    rfl
  have hMaps : (home'.history.map fun _ dir => dir.kept) =
      home.history.map fun _ dir => dir.kept := by
    apply Std.ExtTreeMap.ext_getElem?
    intro id
    rw [Std.ExtTreeMap.getElem?_map, Std.ExtTreeMap.getElem?_map, hKept]
  rw [hTimeline, hTimeline, hMaps]

/-- A snapshot with the next id is filed at the time of the clock. -/
theorem Filed.insert {last : Nat} (hFiled : Filed home last)
    (hClock : last ≤ now.toNat / 1000000000) (hNext : nextId home now = some id)
    (files : Files) (dir : SnapshotDir) :
    Filed ⟨files, home.history.insert id dir⟩ (now.toNat / 1000000000) := by
  have hStill {other : String} (hMem : other ∈ home.history) :
      other ∈ home.history.insert id dir := Std.ExtTreeMap.mem_insert.mpr (.inr hMem)
  refine ⟨fun other hOther => ?_⟩
  cases Std.ExtTreeMap.mem_insert.mp hOther with
  | inl hNew =>
      rw [Std.LawfulEqOrd.compare_eq_iff_eq] at hNew
      subst hNew
      obtain ⟨seq, hFirst, hLast, hName, -, hTaken⟩ := nextId_some hNext
      exact ⟨now, seq, Nat.le_refl _, hFirst, hLast, hName,
        fun earlier h h' => hStill (hTaken earlier h h')⟩
  | inr hOld =>
      obtain ⟨taken, seq, hTime, hFirst, hLast, hName, hBelow⟩ := hFiled.named other hOld
      exact ⟨taken, seq, Nat.le_trans hTime hClock, hFirst, hLast, hName,
        fun earlier h h' => hStill (hBelow earlier h h')⟩

theorem Filed.congr {last later : Nat} (hFiled : Filed home last) (hLater : last ≤ later)
    (hKept : ∀ id : String, (home'.history[id]?).map SnapshotDir.kept =
      (home.history[id]?).map SnapshotDir.kept) : Filed home' later := by
  have hMem {id : String} : id ∈ home'.history ↔ id ∈ home.history := by
    rw [Std.ExtTreeMap.mem_iff_isSome_getElem?, Std.ExtTreeMap.mem_iff_isSome_getElem?,
      ← Option.isSome_map, hKept, Option.isSome_map]
  refine ⟨fun id hId => ?_⟩
  obtain ⟨taken, seq, hTime, hFirst, hLast, hName, hBelow⟩ := hFiled.named id (hMem.mp hId)
  exact ⟨taken, seq, Nat.le_trans hTime hLater, hFirst, hLast, hName,
    fun earlier h h' => hMem.mpr (hBelow earlier h h')⟩

/-- A move adds at most one snapshot to the timeline, of the files as they are, at its end. -/
theorem Moved.timeline {last : Nat} (hMoved : Moved now home home') (hFiled : Filed home last)
    (hClock : last ≤ now.toNat / 1000000000) (hEnd : now.toNat / 1000000000 < 253402300800) :
    Filed home' (now.toNat / 1000000000) ∧ ∃ taken : List (String × Files),
      timeline home' = History.timeline home ++ taken ∧
        ∀ entry ∈ taken, entry.2 = copiedFiles home.files := by
  cases hMoved with
  | same hKept => exact ⟨hFiled.congr hClock hKept, [], by rw [timeline_congr hKept]; simp, by simp⟩
  | took manifest hNext hHistory =>
      obtain ⟨files, history⟩ := home'
      subst hHistory
      refine ⟨hFiled.insert hClock hNext _ _, _, timeline_insert (nextId_last hFiled hClock hEnd hNext) _, ?_⟩
      simp
  | unfinished files hNext hHistory =>
      obtain ⟨files', history⟩ := home'
      subst hHistory
      refine ⟨hFiled.insert hClock hNext _ _, _, timeline_insert (nextId_last hFiled hClock hEnd hNext) _, ?_⟩
      simp

/-- Moves whose clock, to the second, never goes back, before the year 10000. -/
def InOrder (last : Nat) : List (SystemTime × Move Model) → Prop
  | [] => True
  | move :: rest => last ≤ move.1.toNat / 1000000000 ∧
      move.1.toNat / 1000000000 < 253402300800 ∧ InOrder (move.1.toNat / 1000000000) rest

/-- The last second of a run. -/
def lastSecond (last : Nat) (moves : List (SystemTime × Move Model)) : Nat :=
  moves.foldl (fun _ move => move.1.toNat / 1000000000) last

variable (loader) in
/-- What a run adds to the timeline comes at its end, each entry with the files of the directory at
some point of the run. -/
theorem run_timeline {last : Nat} {moves : List (SystemTime × Move Model)} (hFiled : Filed home last)
    (hClock : InOrder last moves) :
    Filed (run loader home moves) (lastSecond last moves) ∧
      ∃ taken, timeline (run loader home moves) = timeline home ++ taken ∧
        ∀ entry ∈ taken, ∃ front move back, moves = front ++ move :: back ∧
          entry.2 = copiedFiles (run loader home front).files := by
  induction moves generalizing home last with
  | nil => exact ⟨hFiled, [], (List.append_nil _).symm, by simp⟩
  | cons move rest ih =>
      obtain ⟨hLater, hEnd, hRest⟩ := hClock
      obtain ⟨hNext, taken, hTaken, hHeld⟩ :=
        (step_moved loader home move.1 move.2).timeline hFiled hLater hEnd
      obtain ⟨hFinal, others, hOthers, hFrom⟩ := ih hNext hRest
      refine ⟨hFinal, taken ++ others, ?_, ?_⟩
      · rw [← List.append_assoc, ← hTaken]
        exact hOthers
      · intro entry hMem
        cases List.mem_append.mp hMem with
        | inl hFirst => exact ⟨[], move, rest, rfl, hHeld entry hFirst⟩
        | inr hOther =>
            obtain ⟨front, at', back, rfl, hFiles⟩ := hFrom entry hOther
            exact ⟨move :: front, at', back, rfl, hFiles⟩

theorem filed_empty (files : Files) : Filed ⟨files, ∅⟩ 0 :=
  ⟨fun _ hMem => absurd hMem Std.ExtTreeMap.not_mem_empty⟩

omit [DecidableEq Model] in
theorem inOrder_append {last : Nat} {before later : List (SystemTime × Move Model)}
    (h : InOrder last (before ++ later)) :
    InOrder last before ∧ InOrder (lastSecond last before) later := by
  induction before generalizing last with
  | nil => exact ⟨trivial, h⟩
  | cons move rest ih =>
      obtain ⟨hLater, hEnd, hRest⟩ := h
      obtain ⟨hFirst, hSecond⟩ := ih hRest
      exact ⟨⟨hLater, hEnd, hFirst⟩, hSecond⟩

/-- From a directory without a history, with a clock that does not go back: a later listing has the
snapshots of an earlier one first, in the same order and with the same files, and after them those
taken since, each with the model files as they were in the directory when it was taken. -/
theorem listing_in_order (loader : Loader Model LoadError) (files : Files)
    (before later : List (SystemTime × Move Model)) (hClock : InOrder 0 (before ++ later)) :
    ∃ taken, timeline (run loader ⟨files, ∅⟩ (before ++ later)) =
        timeline (run loader ⟨files, ∅⟩ before) ++ taken ∧
      (list (run loader ⟨files, ∅⟩ (before ++ later))).map Snapshot.id =
        (list (run loader ⟨files, ∅⟩ before)).map Snapshot.id ++ taken.map Prod.fst ∧
      ∀ entry ∈ taken, ∃ front move back, later = front ++ move :: back ∧
        ∀ path : Path, entry.2[path]? = if isModelFile path then
          (run loader ⟨files, ∅⟩ (before ++ front)).files[path]? else none := by
  obtain ⟨hBefore, hLater⟩ := inOrder_append hClock
  obtain ⟨hFiled, -⟩ := run_timeline loader (filed_empty files) hBefore
  obtain ⟨-, taken, hTaken, hFrom⟩ := run_timeline loader hFiled hLater
  have hSplit (moves : List (SystemTime × Move Model)) :
      run loader ⟨files, ∅⟩ (before ++ moves) = run loader (run loader ⟨files, ∅⟩ before) moves :=
    List.foldl_append
  refine ⟨taken, by rw [hSplit, hTaken], ?_, ?_⟩
  · rw [← timeline_ids, ← timeline_ids, hSplit, hTaken, List.map_append]
  · intro entry hMem
    obtain ⟨front, move, back, hLaterEq, hFiles⟩ := hFrom entry hMem
    refine ⟨front, move, back, hLaterEq, fun path => ?_⟩
    rw [hFiles, getElem?_copiedFiles, hSplit]

/-- A model that is the text of its groups file. -/
def groupsLoader : Loader (Option String) Unit where
  assemble sources _ := .ok sources[[groupsFile]]?
  legacyYaml := ()
  describe _ _ := ""
  unchanged old new := old == new
  save model dir := match model with
    | some text => dir.insert [groupsFile] text
    | none => dir.erase [groupsFile]

def labelled (text : String) : Files := (∅ : Files).insert [groupsFile] text

theorem listing_in_order_label : ∃ taken : List (String × Files),
    timeline (run groupsLoader ⟨labelled "a", ∅⟩ [(0, .capture),
      (1000000000, .editModel { command := "mcp knx_set_group" } fun _ => .ok (some "b")),
      (1500000000, .undo none)]) =
        timeline (run groupsLoader ⟨labelled "a", ∅⟩ [(0, .capture)]) ++ taken := by
  obtain ⟨taken, hTaken, -⟩ := listing_in_order groupsLoader (labelled "a") [(0, .capture)]
    [(1000000000, .editModel { command := "mcp knx_set_group" } fun _ => .ok (some "b")),
      (1500000000, .undo none)]
    ⟨by decide, by decide, by decide, by decide, by decide, by decide, trivial⟩
  exact ⟨taken, hTaken⟩

/-- Two directories that differ in model files alone, and what each of them loads as. -/
structure Replaced (loader : Loader Model LoadError) (dir dir' : Files) : Prop where
  others : ∀ path : Path, isModelFile path = false → dir[path]? = dir'[path]?
  model : ∃ old new, loadWithModels loader dir dir = .ok old ∧
    loadWithModels loader dir' dir' = .ok new ∧ old ≠ new

omit [DecidableEq Model] in
theorem Replaced.symm {dir dir' : Files} (h : Replaced loader dir dir') : Replaced loader dir' dir := by
  obtain ⟨old, new, hOld, hNew, hNe⟩ := h.model
  exact ⟨fun path hPath => (h.others path hPath).symm, new, old, hNew, hOld, hNe.symm⟩

/-- What a plain undo finds: the files it goes back to, and after these nothing but the files there
are. -/
structure Undoable (loader : Loader Model LoadError) (home : Home) (files : Files) : Prop where
  replaced : Replaced loader files home.files
  listed : ∃ front id back, timeline home = front ++ (id, copiedFiles files) :: back ∧
    ∀ entry ∈ back, entry.2 = copiedFiles home.files

omit [DecidableEq Model] in
/-- Moves that leave the files alone leave the undo as it is. -/
theorem Undoable.moved {last : Nat} {files : Files} (h : Undoable loader home files)
    (hMoved : Moved now home home') (hFiles : home'.files = home.files) (hFiled : Filed home last)
    (hClock : last ≤ now.toNat / 1000000000) (hEnd : now.toNat / 1000000000 < 253402300800) :
    Undoable loader home' files := by
  obtain ⟨front, id, back, hTimeline, hBack⟩ := h.listed
  obtain ⟨-, taken, hTaken, hHeld⟩ := hMoved.timeline hFiled hClock hEnd
  refine ⟨by rw [hFiles]; exact h.replaced, front, id, back ++ taken, ?_, ?_⟩
  · rw [hTaken, hTimeline, List.append_assoc, List.cons_append]
  · intro entry hMem
    rw [hFiles]
    exact (List.mem_append.mp hMem).elim (hBack entry) (hHeld entry)

end Runs

end Bussard.History
