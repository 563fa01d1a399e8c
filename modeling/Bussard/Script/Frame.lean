import Mathlib.Tactic.Tauto
import Bussard.Script.Effects

/-! An expression evaluated in two stores that agree on what it mentions does the same in both: it
has the same value, and what it changes it changes alike. -/
namespace Bussard.Script

open Stateful

section
variable {F : Type}

/-- How much of their arrays two stores share. -/
inductive Sight where
  | all | grown | nothing

def Sight.Rel : Sight → Heap F → Heap F → Prop
  | .all, heap, heap' => heap' = heap
  | .grown, heap, heap' => heap <+: heap'
  | .nothing, _, _ => True

/-- What can be done alike in two stores that share so much. -/
def Sight.Allows : Sight → Effects → Prop
  | .all, _ => True
  | .grown, fx => fx.stores = false ∧ fx.allocs = false
  | .nothing, fx => fx.stores = false ∧ fx.allocs = false ∧ fx.reads = false

theorem Sight.allows_union {sight : Sight} {f g : Effects} :
    sight.Allows (f.union g) ↔ sight.Allows f ∧ sight.Allows g := by
  cases sight with
  | all => simp [Sight.Allows]
  | grown =>
      simp only [Sight.Allows, Effects.union, Bool.or_eq_false_iff]
      tauto
  | nothing =>
      simp only [Sight.Allows, Effects.union, Bool.or_eq_false_iff]
      tauto

theorem Sight.Rel.isPrefix {sight : Sight} {heap heap' : Heap F} (h : sight.Rel heap heap')
    (hAllows : sight.Allows .reading) : heap <+: heap' := by
  cases sight with
  | all =>
      have hSame : heap' = heap := h
      subst hSame
      exact List.prefix_refl heap'
  | grown => exact h
  | nothing => cases hAllows.2.2

/-- Two stores without dangling arrays that agree on some names and share some arrays; `n` arrays
at least are in both. -/
structure Alike (sight : Sight) (names : List String) (n : Nat) (s t : Store F) : Prop where
  left : s.Valid
  right : t.Valid
  env : ∀ x ∈ names, t.env x = s.env x
  heap : sight.Rel s.heap t.heap
  leftSize : n ≤ s.heap.length
  rightSize : n ≤ t.heap.length

/-- The same result in both stores, with what it changed. -/
structure Paired {α : Type} (sight : Sight) (names : List String) (n : Nat) (fx : Effects)
    (V : Nat → α → Prop) (m : Eval F α) (s t : Store F) (a : α) (s' t' : Store F) (k : Nat) :
    Prop where
  left : m s = .ok (a, s')
  right : m t = .ok (a, t')
  grows : n ≤ k
  value : V k a
  alike : Alike sight names k s' t'
  leftChange : Change fx s s'
  rightChange : Change fx t t'

/-- A computation has the same result in any two stores that are alike, or fails in both. The
property `V` of its result is relative to the number of arrays. -/
def Tracks {α : Type} (sight : Sight) (names : List String) (n : Nat) (fx : Effects)
    (V : Nat → α → Prop) (m : Eval F α) : Prop :=
  ∀ s t, Alike sight names n s t →
    (∃ a s' t' k, Paired sight names n fx V m s t a s' t' k) ∨
      ∃ e e', m s = .error e ∧ m t = .error e'

namespace Tracks
variable {α β : Type} {sight : Sight} {names : List String} {n : Nat} {fx gx : Effects}
variable {V : Nat → α → Prop} {W : Nat → β → Prop} {m : Eval F α}

theorem pure {a : α} (hValue : V n a) : Tracks sight names n fx V (Pure.pure a : Eval F α) := by
  intro s t hAlike
  exact .inl ⟨a, s, t, n,
    { left := rfl
      right := rfl
      grows := Nat.le_refl n
      value := hValue
      alike := hAlike
      leftChange := Change.refl hAlike.left fx
      rightChange := Change.refl hAlike.right fx }⟩

theorem refuse {reason : Refusal} : Tracks sight names n fx V (Eval.refuse reason : Eval F α) := by
  intro s t _
  exact .inr ⟨reason, reason, rfl, rfl⟩

/-- Two steps do what the first and the second do. -/
theorem bind {f : α → Eval F β} (hFirst : Tracks sight names n fx V m)
    (hRest : ∀ k a, n ≤ k → V k a → Tracks sight names k gx W (f a)) :
    Tracks sight names n (fx.union gx) W (m >>= f) := by
  intro s t hAlike
  rcases hFirst s t hAlike with ⟨a, s', t', k, h⟩ | ⟨e, e', hLeft, hRight⟩
  · rcases hRest k a h.grows h.value s' t' h.alike with
      ⟨b, s'', t'', l, h'⟩ | ⟨e, e', hLeft, hRight⟩
    · exact .inl ⟨b, s'', t'', l,
        { left := (bind_of_ok h.left).trans h'.left
          right := (bind_of_ok h.right).trans h'.right
          grows := Nat.le_trans h.grows h'.grows
          value := h'.value
          alike := h'.alike
          leftChange := h.leftChange.trans h'.leftChange
          rightChange := h.rightChange.trans h'.rightChange }⟩
    · exact .inr ⟨e, e', (bind_of_ok h.left).trans hLeft, (bind_of_ok h.right).trans hRight⟩
  · exact .inr ⟨e, e', bind_of_error hLeft, bind_of_error hRight⟩

theorem mono (h : Tracks sight names n fx V m) (hNames : fx.names ⊆ gx.names)
    (hStores : gx.stores = false → fx.stores = false)
    (hAllocs : gx.allocs = false → fx.allocs = false) : Tracks sight names n gx V m := by
  intro s t hAlike
  rcases h s t hAlike with ⟨a, s', t', k, h⟩ | hError
  · exact .inl ⟨a, s', t', k,
      { h with
        leftChange := h.leftChange.mono hNames hStores hAllocs
        rightChange := h.rightChange.mono hNames hStores hAllocs }⟩
  · exact .inr hError

theorem left (h : Tracks sight names n fx V m) : Tracks sight names n (fx.union gx) V m :=
  h.mono (List.subset_append_left _ _) (fun hFalse => (Bool.or_eq_false_iff.mp hFalse).1)
    fun hFalse => (Bool.or_eq_false_iff.mp hFalse).1

theorem right (h : Tracks sight names n gx V m) : Tracks sight names n (fx.union gx) V m :=
  h.mono (List.subset_append_right _ _) (fun hFalse => (Bool.or_eq_false_iff.mp hFalse).2)
    fun hFalse => (Bool.or_eq_false_iff.mp hFalse).2

/-- A first step that changes nothing. -/
theorem bindNone {f : α → Eval F β} (hFirst : Tracks sight names n .none V m)
    (hRest : ∀ k a, n ≤ k → V k a → Tracks sight names k gx W (f a)) :
    Tracks sight names n gx W (m >>= f) :=
  bind hFirst hRest

/-- A step that only looks does what stores that look alike agree on. -/
theorem read {f : Store F → Except Refusal α}
    (hSame : ∀ s t, Alike sight names n s t → f t = f s)
    (hValue : ∀ s a, s.Valid → n ≤ s.heap.length → f s = .ok a → V s.heap.length a) :
    Tracks sight names n fx V (Eval.read f) := by
  intro s t hAlike
  have hEq := hSame s t hAlike
  cases hOk : f s with
  | error e =>
      right
      exact ⟨e, e, by simp [Eval.read, hOk, Except.map], by simp [Eval.read, hEq, hOk, Except.map]⟩
  | ok a =>
      have hLeft := hValue s a hAlike.left hAlike.leftSize hOk
      have hRight := hValue t a hAlike.right hAlike.rightSize (hEq.trans hOk)
      have hMin : V (min s.heap.length t.heap.length) a := by
        rcases Nat.le_total s.heap.length t.heap.length with hLe | hLe
        · rwa [Nat.min_eq_left hLe]
        · rwa [Nat.min_eq_right hLe]
      left
      exact ⟨a, s, t, min s.heap.length t.heap.length,
        { left := by simp [Eval.read, hOk, Except.map]
          right := by simp [Eval.read, hEq, hOk, Except.map]
          grows := Nat.le_min.mpr ⟨hAlike.leftSize, hAlike.rightSize⟩
          value := hMin
          alike :=
            { hAlike with
              leftSize := Nat.min_le_left _ _
              rightSize := Nat.min_le_right _ _ }
          leftChange := Change.refl hAlike.left fx
          rightChange := Change.refl hAlike.right fx }⟩

/-- A value operation that does not notice that the heap has grown. -/
theorem look {f : Heap F → Except Refusal α} (hAllows : sight.Allows .reading)
    (hGrown : ∀ heap heap', n ≤ heap.length → heap.Grown heap' → f heap' = f heap)
    (hValue : ∀ heap a, heap.Closed → n ≤ heap.length → f heap = .ok a → V heap.length a) :
    Tracks sight names n fx V (Eval.read fun s => f s.heap) := by
  apply Tracks.read
  · intro s t hAlike
    exact hGrown s.heap t.heap hAlike.leftSize
      ⟨hAlike.left.heap, hAlike.heap.isPrefix hAllows⟩
  · intro s a hValid hSize hOk
    exact hValue s.heap a hValid.heap hSize hOk

section Steps
variable {v : Value F}

/-- An assignment tracks the name it assigns. -/
theorem put (x : String) (hv : v.Valid n) :
    Tracks sight names n (.assigns x) (fun _ _ => True)
      (Eval.change fun s => ((), s.put x v)) := by
  intro s t hAlike
  have hLeft := put_change hAlike.left x (hv.mono hAlike.leftSize)
  have hRight := put_change hAlike.right x (hv.mono hAlike.rightSize)
  left
  exact ⟨(), s.put x v, t.put x v, n,
    { left := rfl
      right := rfl
      grows := Nat.le_refl n
      value := trivial
      alike :=
        { left := hLeft.valid
          right := hRight.valid
          env := by
            intro y hMem
            by_cases hSame : y = x
            · simp [Store.put, hSame]
            · simp [Store.put, hSame, hAlike.env y hMem]
          heap := hAlike.heap
          leftSize := hAlike.leftSize
          rightSize := hAlike.rightSize }
      leftChange := hLeft
      rightChange := hRight }⟩

/-- A new array has the same place in heaps of the same size. -/
theorem alloc {items : List (Value F)} (hAllows : sight.Allows .allocating)
    (hItems : ∀ v ∈ items, v.Valid n) :
    Tracks sight names n .allocating (fun k v => v.Valid k)
      (Eval.change fun s => s.alloc items) := by
  intro s t hAlike
  cases sight with
  | grown => cases hAllows.2
  | nothing => cases hAllows.2.1
  | all =>
      have hHeap : t.heap = s.heap := hAlike.heap
      have hLeft := alloc_change hAlike.left fun v hMem => (hItems v hMem).mono hAlike.leftSize
      have hRight := alloc_change hAlike.right fun v hMem => (hItems v hMem).mono hAlike.rightSize
      left
      exact ⟨.array s.heap.length, (s.alloc items).2, (t.alloc items).2, s.heap.length + 1,
        { left := rfl
          right := by simp [Eval.change, Store.alloc, hHeap]
          grows := Nat.le_succ_of_le hAlike.leftSize
          value := Nat.lt_succ_self _
          alike :=
            { left := hLeft.valid
              right := hRight.valid
              env := hAlike.env
              heap := by simp [Sight.Rel, Store.alloc, hHeap]
              leftSize := by simp [Store.alloc]
              rightSize := by simp [Store.alloc, hHeap] }
          leftChange := hLeft
          rightChange := hRight }⟩

/-- A store in an array that both heaps have. -/
theorem writeAt (address i : Nat) (hAllows : sight.Allows .storing) (hv : v.Valid n) :
    Tracks sight names n .storing (fun _ _ => True)
      (Eval.change fun s => ((), s.writeAt address i v)) := by
  intro s t hAlike
  cases sight with
  | grown => cases hAllows.1
  | nothing => cases hAllows.1
  | all =>
      have hHeap : t.heap = s.heap := hAlike.heap
      have hLeft := writeAt_change hAlike.left address i (hv.mono hAlike.leftSize)
      have hRight := writeAt_change hAlike.right address i (hv.mono hAlike.rightSize)
      left
      exact ⟨(), s.writeAt address i v, t.writeAt address i v, n,
        { left := rfl
          right := rfl
          grows := Nat.le_refl n
          value := trivial
          alike :=
            { left := hLeft.valid
              right := hRight.valid
              env := hAlike.env
              heap := by simp [Sight.Rel, Store.writeAt, hHeap]
              leftSize := Nat.le_trans hAlike.leftSize hLeft.grows
              rightSize := Nat.le_trans hAlike.rightSize hRight.grows }
          leftChange := hLeft
          rightChange := hRight }⟩

end Steps

end Tracks

namespace Place

def Valid (n : Nat) : Place F → Prop
  | .named _ => True
  | .element array index => array.Valid n ∧ index.Valid n

/-- What the assignment to a place does. -/
def written : Place F → Effects
  | .named x => .assigns x
  | .element _ _ => .storing

/-- The names read through a place. -/
def mentioned : Place F → List String
  | .named x => [x]
  | .element _ _ => []

theorem Valid.mono {n k : Nat} {place : Place F} (h : place.Valid n) (hLe : n ≤ k) :
    place.Valid k := by
  cases place with
  | named x => trivial
  | element array index => exact ⟨h.1.mono hLe, h.2.mono hLe⟩

end Place

section
variable (ops : NumOps F) {sight : Sight} {names : List String} {n : Nat} {fx : Effects}

theorem lookup_tracks {x : String} (hMem : x ∈ names) :
    Tracks sight names n fx (fun k v => v.Valid k) (Eval.read fun s => s.lookup ops x) := by
  apply Tracks.read
  · intro s t hAlike
    unfold Store.lookup
    rw [hAlike.env x hMem]
  · intro s v hValid _ hOk
    exact lookup_valid ops hValid hOk

theorem getValue_tracks {place : Place F} (hAllows : sight.Allows .reading)
    (hMentioned : place.mentioned ⊆ names) (hPlace : place.Valid n) :
    Tracks sight names n fx (fun k v => v.Valid k) (getValue ops place) := by
  cases place with
  | named x => exact lookup_tracks ops (hMentioned List.mem_cons_self)
  | element array index =>
      apply @Tracks.look F _ sight names n fx _
        (fun heap => element ops heap array (index.toNum ops heap)) hAllows
      · intro heap heap' hSize hGrown
        have hIndex := toNum_grown ops hGrown (hPlace.2.mono hSize)
        rw [hIndex, element_grown ops hGrown _ (hPlace.1.mono hSize)]
      · intro heap v hClosed _ hOk
        exact element_valid ops hClosed hOk

theorem keyed_tracks {place : Place F} (hAllows : sight.Allows .reading) (hPlace : place.Valid n) :
    Tracks sight names n fx
      (fun k keyed => keyed.Valid k ∧ keyed.written = place.written ∧
        keyed.mentioned = place.mentioned)
      (Eval.read fun s => .ok (place.keyed ops s.heap)) := by
  apply @Tracks.look F _ sight names n fx _ (fun heap => .ok (place.keyed ops heap)) hAllows
  · intro heap heap' hSize hGrown
    cases place with
    | named x => rfl
    | element array index =>
        simp only [Place.keyed, toNum_grown ops hGrown (hPlace.2.mono hSize)]
  · intro heap keyed _ hSize hOk
    cases hOk
    cases place with
    | named x => exact ⟨trivial, rfl, rfl⟩
    | element array index => exact ⟨⟨hPlace.1.mono hSize, trivial⟩, rfl, rfl⟩

/-- Putting a value to a name or to an element. -/
theorem putValue_tracks {place : Place F} {v : Value F} (hAllows : sight.Allows place.written)
    (hPlace : place.Valid n) (hv : v.Valid n) :
    Tracks sight names n place.written (fun _ _ => True) (putValue ops place v) := by
  cases place with
  | named x => exact Tracks.put x hv
  | element array index =>
      cases array with
      | array address =>
          have hAll : sight.Allows .reading := by
            cases sight with
            | all => trivial
            | grown => cases hAllows.1
            | nothing => cases hAllows.1
          apply Tracks.bindNone
          · apply @Tracks.look F _ sight names n .none (fun _ _ => True)
              (fun heap => elementPosition ops (index.toNum ops heap)) hAll
            · intro heap heap' hSize hGrown
              rw [toNum_grown ops hGrown (hPlace.2.mono hSize)]
            · intro heap i _ _ _
              trivial
          · intro k i hLe _
            exact Tracks.writeAt address i hAllows (hv.mono hLe)
      | _ => exact Tracks.refuse

/-- The end of an assignment: the value `v` is written, and `w` is the result. -/
theorem putResult_tracks {place : Place F} {v w : Value F} (hAllows : sight.Allows place.written)
    (hPlace : place.Valid n) (hv : v.Valid n) (hw : w.Valid n) :
    Tracks sight names n place.written (fun k v => v.Valid k)
      (do
        putValue ops place v
        pure w) := by
  rw [← Effects.union_none place.written]
  apply (putValue_tracks ops hAllows hPlace hv).bind
  intro k _ hLe _
  exact Tracks.pure (hw.mono hLe)

end

end

end Bussard.Script
