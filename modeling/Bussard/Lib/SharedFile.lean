import Mathlib.Logic.Function.Basic
import Bussard.Lib.Run

/-! Programs that share one file: each loads it, saves it, or saves it only where it still has the
revision it was loaded in. What every program keeps of the content it saw stays true in the file,
in every interleaving in which no unconditional save overwrites a content its program never saw. -/
namespace SharedFile

variable {Content Revision Result Writer : Type}

inductive Saved where
  | refused
  | unchanged
  | written
  deriving DecidableEq

/-- A program from one access of the file to the next. -/
inductive Program (Content Revision Result : Type) where
  | done (result : Result)
  | load (next : Content → Program Content Revision Result)
  | save (expected : Option Revision) (content : Content)
      (next : Saved → Program Content Revision Result)

def Program.results : Program Content Revision Result → List Result
  | .done result => [result]
  | _ => []

/-- A program with the content it last saw in the file. -/
structure Actor (Content Revision Result : Type) where
  seen : Content
  program : Program Content Revision Result

structure Shared (Content Revision Result Writer : Type) where
  file : Content
  actors : Writer → Actor Content Revision Result

/-- Programs that have not started. -/
def Shared.start (file : Content) (programs : Writer → Program Content Revision Result) :
    Shared Content Revision Result Writer :=
  ⟨file, fun writer => ⟨file, programs writer⟩⟩

variable (revision : Content → Revision) (admits holds : Content → Prop) (report : Result → Prop)

/-- A program loads only what it admits, and its unconditional save finds what it saw last. -/
def Actor.Timely (actor : Actor Content Revision Result) (file : Content) : Prop :=
  match actor.program with
  | .load _ => admits file
  | .save none _ _ => actor.seen = file
  | _ => True

instance [DecidableEq Content] [DecidablePred admits] (file : Content) :
    ∀ actor : Actor Content Revision Result, Decidable (actor.Timely admits file)
  | ⟨_, .done _⟩ => isTrue trivial
  | ⟨_, .load _⟩ => inferInstanceAs (Decidable (admits file))
  | ⟨seen, .save none _ _⟩ => inferInstanceAs (Decidable (seen = file))
  | ⟨_, .save (some _) _ _⟩ => isTrue trivial

/-- A content a save may replace. -/
def Expects (seen : Content) (expected : Option Revision) (found : Content) : Prop :=
  match expected with
  | none => seen = found
  | some expected => revision found = expected

/-- What a program saves has the property if what it replaces has it, and it ends with a report only
where the content it saw last has the property. -/
def Program.Sound (seen : Content) : Program Content Revision Result → Prop
  | .done result => report result → holds seen
  | .load next => ∀ content, admits content → Program.Sound content (next content)
  | .save expected content next =>
      (∀ found, Expects revision seen expected found → holds found → holds content) ∧
      Program.Sound seen (next .refused) ∧
      ∀ saved, saved ≠ .refused → Program.Sound content (next saved)

def Actor.Sound (actor : Actor Content Revision Result) : Prop :=
  actor.program.Sound revision admits holds report actor.seen

variable [DecidableEq Content] [DecidableEq Revision]

/-- What a save does to the file. -/
def save (file : Content) (expected : Option Revision) (content : Content) : Saved × Content :=
  if expected.any (· ≠ revision file) then (.refused, file)
  else if file = content then (.unchanged, file)
  else (.written, content)

/-- The next access of one program: the program after it, the file, and what the program ended
with. -/
def Actor.access (actor : Actor Content Revision Result) (file : Content) :
    Actor Content Revision Result × Content × List Result :=
  match actor.program with
  | .done _ => (actor, file, [])
  | .load next => (⟨file, next file⟩, file, (next file).results)
  | .save expected content next =>
      let (saved, found) := save revision file expected content
      (⟨if saved = .refused then actor.seen else found, next saved⟩, found, (next saved).results)

variable [DecidableEq Writer]

/-- One of the programs goes on. -/
def Shared.step (shared : Shared Content Revision Result Writer) (writer : Writer) :
    Shared Content Revision Result Writer × List (Writer × Result) :=
  let (actor, file, results) := (shared.actors writer).access revision shared.file
  (⟨file, Function.update shared.actors writer actor⟩, results.map (writer, ·))

variable {revision admits holds report}
variable {actor : Actor Content Revision Result} {file : Content}

/-- A save is refused, or it leaves its content where the expected revision stood. -/
inductive Effect (revision : Content → Revision) (file : Content) (expected : Option Revision)
    (content : Content) : Saved × Content → Prop where
  | refused : Effect revision file expected content (.refused, file)
  | stored {saved : Saved} (hSaved : saved ≠ .refused)
      (hExpected : ∀ found, expected = some found → revision file = found) :
      Effect revision file expected content (saved, content)

omit [DecidableEq Writer] in
theorem save_effect (file : Content) (expected : Option Revision) (content : Content) :
    Effect revision file expected content (save revision file expected content) := by
  unfold save
  split
  · exact .refused
  · rename_i hFound
    have hExpected : ∀ found, expected = some found → revision file = found := by
      rintro found rfl
      by_contra hOther
      exact hFound (by simpa using Ne.symm hOther)
    split
    · rename_i hSame
      subst hSame
      exact .stored (by decide) hExpected
    · exact .stored (by decide) hExpected

namespace Actor

theorem access_save (seen : Content) (expected : Option Revision) (content : Content)
    (next : Saved → Program Content Revision Result) (file : Content) :
    (⟨seen, .save expected content next⟩ : Actor Content Revision Result).access revision file =
      let (saved, found) := save revision file expected content
      (⟨if saved = .refused then seen else found, next saved⟩, found, (next saved).results) :=
  rfl

/-- A sound program stays sound. -/
theorem Sound.access (h : actor.Sound revision admits holds report)
    (hTimely : actor.Timely admits file) :
    (actor.access revision file).1.Sound revision admits holds report := by
  obtain ⟨seen, program⟩ := actor
  cases program with
  | done result => exact h
  | load next => exact h file hTimely
  | save expected content next =>
      have hEffect := @save_effect _ _ revision _ _ file expected content
      rw [access_save]
      generalize save revision file expected content = effect at hEffect ⊢
      cases hEffect with
      | refused => exact h.2.1
      | stored hSaved =>
          simp only [if_neg hSaved]
          exact h.2.2 _ hSaved

/-- The file keeps the property. -/
theorem Sound.access_file (h : actor.Sound revision admits holds report)
    (hTimely : actor.Timely admits file) (hFile : holds file) :
    holds (actor.access revision file).2.1 := by
  obtain ⟨seen, program⟩ := actor
  cases program with
  | done result => exact hFile
  | load next => exact hFile
  | save expected content next =>
      change holds (save revision file expected content).2
      have hEffect := @save_effect _ _ revision _ _ file expected content
      generalize save revision file expected content = effect at hEffect ⊢
      cases hEffect with
      | refused => exact hFile
      | stored hSaved hExpected =>
          apply h.1 file _ hFile
          cases expected with
          | none => exact hTimely
          | some expected => exact hExpected expected rfl

/-- A program has seen what it saw before or what is in the file now. -/
theorem access_seen (actor : Actor Content Revision Result) (file : Content) :
    (actor.access revision file).1.seen = actor.seen ∨
      (actor.access revision file).1.seen = (actor.access revision file).2.1 := by
  obtain ⟨seen, program⟩ := actor
  cases program with
  | done result => exact .inl rfl
  | load next => exact .inr rfl
  | save expected content next =>
      by_cases hSaved : (save revision file expected content).1 = .refused
      · exact .inl (if_pos hSaved)
      · exact .inr (if_neg hSaved)

/-- A program that reports has seen a content with the property. -/
theorem Sound.access_results (h : actor.Sound revision admits holds report)
    (hTimely : actor.Timely admits file) {result : Result} (hResult : result ∈ (actor.access revision file).2.2) (hReport : report result) :
    holds (actor.access revision file).1.seen := by
  have hProgram : (actor.access revision file).1.program = .done result := by
    have hOf : ∀ program : Program Content Revision Result, result ∈ program.results →
        program = .done result := by
      intro program hMem
      cases program with
      | done found => rw [List.mem_singleton.mp hMem]
      | load next => cases hMem
      | save expected content next => cases hMem
    obtain ⟨seen, program⟩ := actor
    cases program with
    | done found => cases hResult
    | load next => exact hOf _ hResult
    | save expected content next => exact hOf _ hResult
  have hSound := h.access hTimely
  rw [Actor.Sound, hProgram] at hSound
  exact hSound hReport

end Actor

variable {admits : Writer → Content → Prop} {shared : Shared Content Revision Result Writer}
variable {log : List (Writer × Result)} {schedule : List Writer}
variable {programs : Writer → Program Content Revision Result}

/-- The next access of a program is timely. -/
def Shared.Timely (admits : Writer → Content → Prop)
    (shared : Shared Content Revision Result Writer) (writer : Writer) : Prop :=
  (shared.actors writer).Timely (admits writer) shared.file

instance [∀ writer, DecidablePred (admits writer)]
    (shared : Shared Content Revision Result Writer) (writer : Writer) :
    Decidable (shared.Timely admits writer) :=
  inferInstanceAs (Decidable ((shared.actors writer).Timely (admits writer) shared.file))

instance [∀ writer, DecidablePred (admits writer)]
    (shared : Shared Content Revision Result Writer) (schedule : List Writer) :
    Decidable (Run.Along (Shared.step revision) (Shared.Timely admits) shared schedule) :=
  @Run.decidableAlong _ _ _ _ _ (fun _ _ => inferInstance) _ _

/-- What is so between two accesses: every program is sound, and what one of them saw or reported
is in the file still. -/
structure Stable (revision : Content → Revision) (admits : Writer → Content → Prop)
    (holds : Content → Prop) (report : Result → Prop) (log : List (Writer × Result))
    (shared : Shared Content Revision Result Writer) : Prop where
  sound : ∀ writer, (shared.actors writer).Sound revision (admits writer) holds report
  seen : ∀ writer, holds (shared.actors writer).seen → holds shared.file
  reported : ∀ entry ∈ log, report entry.2 → holds shared.file

theorem Shared.step_file (hSound : ∀ writer,
      (shared.actors writer).Sound revision (admits writer) holds report)
    {writer : Writer} (hTimely : shared.Timely admits writer) (hFile : holds shared.file) :
    holds (shared.step revision writer).1.file :=
  (hSound writer).access_file hTimely hFile

theorem Shared.step_sound (hSound : ∀ writer,
      (shared.actors writer).Sound revision (admits writer) holds report)
    {writer : Writer} (hTimely : shared.Timely admits writer) (other : Writer) :
    ((shared.step revision writer).1.actors other).Sound revision (admits other) holds report := by
  by_cases hWriter : other = writer
  · subst hWriter
    simpa only [Shared.step, Function.update_self] using (hSound other).access hTimely
  · simpa only [Shared.step, Function.update_of_ne hWriter] using hSound other

/-- A write that comes in time keeps what was admitted. -/
theorem Stable.step (h : Stable revision admits holds report log shared) {writer : Writer}
    (hTimely : shared.Timely admits writer) :
    Stable revision admits holds report (log ++ (shared.step revision writer).2)
      (shared.step revision writer).1 := by
  have hFile := Shared.step_file h.sound hTimely
  have hSeen : holds ((shared.actors writer).access revision shared.file).1.seen →
      holds (shared.step revision writer).1.file := by
    intro hHolds
    cases Actor.access_seen (shared.actors writer) shared.file with
    | inl hBefore => exact hFile (h.seen writer (hBefore ▸ hHolds))
    | inr hNow =>
        rw [hNow] at hHolds
        exact hHolds
  constructor
  · exact Shared.step_sound h.sound hTimely
  · intro other hOther
    by_cases hWriter : other = writer
    · subst hWriter
      simp only [Shared.step, Function.update_self] at hOther
      exact hSeen hOther
    · simp only [Shared.step, Function.update_of_ne hWriter] at hOther
      exact hFile (h.seen other hOther)
  · intro entry hEntry hReport
    cases List.mem_append.mp hEntry with
    | inl hBefore => exact hFile (h.reported entry hBefore hReport)
    | inr hNow =>
        obtain ⟨result, hResult, rfl⟩ := List.mem_map.mp hNow
        exact hSeen ((h.sound writer).access_results hTimely hResult hReport)

end SharedFile
