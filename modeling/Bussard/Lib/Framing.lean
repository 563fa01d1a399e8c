import Bussard.Lib.Octets

/-! Length-prefixed fields: a sequence of fields is told apart by its octets, and a sequence of
items of one width by what the items are written as. -/
namespace Framing

open Octets

/-- A field with its length in front. -/
def frame (bytes : List UInt8) : List UInt8 := beBytes 8 bytes.length ++ bytes

/-- The first field of a text and what follows it. -/
theorem frame_append_inj {a b rest rest' : List UInt8} (ha : a.length < 256 ^ 8)
    (hb : b.length < 256 ^ 8) (h : frame a ++ rest = frame b ++ rest') : a = b ∧ rest = rest' := by
  rw [frame, frame, List.append_assoc, List.append_assoc] at h
  obtain ⟨hPrefix, hBody⟩ := List.append_inj h (by rw [beBytes_length, beBytes_length])
  have hLength : a.length = b.length := by
    rw [← beValue_beBytes ha, hPrefix, beValue_beBytes hb]
  exact List.append_inj hBody hLength

theorem frame_ne_nil (bytes : List UInt8) : frame bytes ≠ [] := by
  rw [frame]
  exact List.append_ne_nil_of_left_ne_nil (List.cons_ne_nil _ _) _

/-- The fields of a text: each says where it ends. -/
theorem frames_injective {fields fields' : List (List UInt8)}
    (hFits : ∀ field ∈ fields, field.length < 256 ^ 8)
    (hFits' : ∀ field ∈ fields', field.length < 256 ^ 8)
    (h : fields.flatMap frame = fields'.flatMap frame) : fields = fields' := by
  induction fields generalizing fields' with
  | nil =>
      cases fields' with
      | nil => rfl
      | cons b rest' => simp [frame_ne_nil] at h
  | cons a rest ih =>
      cases fields' with
      | nil => simp [frame_ne_nil] at h
      | cons b rest' =>
          rw [List.flatMap_cons, List.flatMap_cons] at h
          obtain ⟨rfl, hRest⟩ := frame_append_inj (hFits a (List.mem_cons_self ..))
            (hFits' b (List.mem_cons_self ..)) h
          rw [ih (fun field hMem => hFits field (List.mem_cons_of_mem _ hMem))
            (fun field hMem => hFits' field (List.mem_cons_of_mem _ hMem)) hRest]

/-- Items of one width are told apart by what they are written as. -/
theorem flatMap_injective {α β : Type} {encode : α → List β} {width : Nat} (hWidth : 0 < width)
    (hLength : ∀ a, (encode a).length = width) (hEncode : ∀ {a b}, encode a = encode b → a = b)
    {items items' : List α} (h : items.flatMap encode = items'.flatMap encode) :
    items = items' := by
  have hNe : ∀ a, encode a ≠ [] := fun a hNil => by
    have := hLength a
    rw [hNil] at this
    exact absurd this (Nat.ne_of_lt hWidth)
  induction items generalizing items' with
  | nil =>
      cases items' with
      | nil => rfl
      | cons b rest' => simp [hNe] at h
  | cons a rest ih =>
      cases items' with
      | nil => simp [hNe] at h
      | cons b rest' =>
          rw [List.flatMap_cons, List.flatMap_cons] at h
          obtain ⟨hHead, hRest⟩ := List.append_inj h (by rw [hLength, hLength])
          rw [hEncode hHead, ih hRest]

theorem length_flatMap {α β : Type} {encode : α → List β} {width : Nat}
    (hLength : ∀ a, (encode a).length = width) (items : List α) :
    (items.flatMap encode).length = items.length * width := by
  induction items with
  | nil => simp
  | cons a rest ih => rw [List.flatMap_cons, List.length_append, hLength, ih, List.length_cons,
      Nat.succ_mul, Nat.add_comm]

end Framing
