import Bussard.Lib.Overlay
import Bussard.Prod.EncodeShape
import Bussard.Prod.Image
import Bussard.Prod.PlacementBits

/-! What the images hold: each bit is the bit of the last placement over it, or what the segment
holds where none is, and the placed octets are those a placement wrote. -/
namespace Bussard.Prod

open BitField Overlay

/-- Bit `i` of the value a placement holds, most significant first. -/
def Placement.bit : Placement → Nat → Bool
  | .empty, _ => false
  | .bytes octets, i => bitAt octets i
  | .float octets, i => bitAt octets i
  | .field bits value, i => value.toNat.testBit (bits - 1 - i)

/-- A placement in the octet order it is written in, and where it stands. -/
structure Laid where
  segment : String
  offset : Nat
  bitOffset : UInt8
  placement : Placement
  deriving DecidableEq, Repr

namespace Laid

def start (laid : Laid) : Nat := laid.placement.start laid.offset laid.bitOffset

/-- Whether a placement covers a bit of a segment. -/
def covers (laid : Laid) (place : String × Nat) : Bool :=
  laid.segment = place.1 && laid.start ≤ place.2 && place.2 < laid.start + laid.placement.width

/-- The bit of the value that belongs at a place. -/
def bit (laid : Laid) (place : String × Nat) : Bool := laid.placement.bit (place.2 - laid.start)

/-- The bit that is written at a place. -/
def written (laid : Laid) (place : String × Nat) : Bool :=
  laid.placement.laid (place.2 - laid.start)

/-- Whether the shift that picks a bit of the value wraps round to a set one: the field is wider
than 64 bits and the place lies above its lowest 64. -/
def wraps (laid : Laid) (place : String × Nat) : Bool :=
  match laid.placement with
  | .field bits value =>
      let i := place.2 - laid.start
      i + 64 < bits && value.toNat.testBit ((bits - 1 - i) % 64)
  | _ => false

end Laid

/-- The placement a slot's value encodes to. -/
def laidOf (host : Host) (app : ApplicationProgram) (slot : SlotValue) : Option Laid :=
  let at' := slot.slot
  match encodeValue host app at'.parameter.pname (parameterTypeOf app at'.parameter) slot.value
      slot.source with
  | .ok placement =>
      some ⟨at'.segment, at'.offset, at'.bitOffset,
        ordered app.parametersLittleEndian at'.bitOffset placement⟩
  | .error _ => none

/-- The placements of a list of slots, in write order. -/
def placements (host : Host) (app : ApplicationProgram)
    (slots : List (Except ParameterError SlotValue)) : List Laid :=
  slots.filterMap fun slot => slot.toOption.bind (laidOf host app)

/-- Whether some placement laid a bit into an octet. -/
def Touched (laids : List Laid) (segment : String) (octet : Nat) : Prop :=
  ∃ laid ∈ laids, ∃ pos, pos / 8 = octet ∧ laid.covers (segment, pos) = true

/-- Whether the unplaced octets of a segment take the fill, and which. -/
def fillOf (app : ApplicationProgram) (segment : String) : Option UInt8 :=
  ((app.codeSegment segment).filter isErased).map (unplacedFill app)

open Classical in
/-- The bit a place holds where no placement covers it. -/
noncomputable def restBit (app : ApplicationProgram) (laids : List Laid) (segment : String)
    (pos : Nat) : Bool :=
  match fillOf app segment with
  | some fill =>
      if Touched laids segment (pos / 8) then bitAt (baseImage app segment) pos
      else bitAt [fill] (pos % 8)
  | none => bitAt (baseImage app segment) pos

/-- What the images and the placed octets have to be. -/
structure ImageContent (app : ApplicationProgram) (laids : List Laid) (images : Images)
    (placed : PlacedOctets) : Prop where
  bits : ∀ segment image, images segment = some image → ∀ pos < 8 * image.length,
    bitAt image pos = ((topmost Laid.covers laids (segment, pos)).map
      (·.bit (segment, pos))).getD (restBit app laids segment pos)
  inside : ∀ laid ∈ laids, ∀ pos, laid.covers (laid.segment, pos) = true →
    ∃ image, images laid.segment = some image ∧ pos < 8 * image.length
  octets : ∀ segment octet, octet ∈ (placed segment).getD [] ↔ Touched laids segment octet

theorem Laid.covers_iff {laid : Laid} {segment : String} {pos : Nat} :
    laid.covers (segment, pos) = true ↔
      laid.segment = segment ∧ laid.start ≤ pos ∧ pos < laid.start + laid.placement.width := by
  simp [covers, and_assoc]

/-- A field's bit is the value's, except where the shift wraps round. -/
theorem fieldBit_value {bits i : Nat} (value : UInt64) (h : i < bits) :
    fieldBit bits value i = (value.toNat.testBit (bits - 1 - i) ||
      (decide (i + 64 < bits) && value.toNat.testBit ((bits - 1 - i) % 64))) := by
  have hWritten : fieldBit bits value i = value.toNat.testBit ((bits - 1 - i) % 64) :=
    fieldBit_eq bits value i
  rcases Nat.lt_or_ge (i + 64) bits with hHigh | hLow
  · have hClear : value.toNat.testBit (bits - 1 - i) = false :=
      Nat.testBit_lt_two_pow
        (lt_of_lt_of_le value.toNat_lt (Nat.pow_le_pow_right (by decide) (by omega)))
    rw [hWritten, hClear, decide_eq_true hHigh, Bool.false_or, Bool.true_and]
  · rw [hWritten, decide_eq_false (Nat.not_lt.mpr hLow), Bool.false_and, Bool.or_false,
      Nat.mod_eq_of_lt (by omega)]

theorem Laid.written_eq {laid : Laid} {place : String × Nat} (h : laid.covers place = true) :
    laid.written place = (laid.bit place || laid.wraps place) := by
  obtain ⟨-, hFrom, hTo⟩ := covers_iff.mp h
  obtain ⟨segment, offset, bitOffset, placement⟩ := laid
  cases placement with
  | empty => rfl
  | bytes octets => exact (Bool.or_false _).symm
  | float octets => exact (Bool.or_false _).symm
  | field bits value => exact fieldBit_value value (Nat.sub_lt_left_of_lt_add hFrom hTo)

/-- A run of whole octets and the bits in them. -/
theorem octet_in_octets {offset len octet : Nat} :
    offset ≤ octet ∧ octet < offset + len ↔
      ∃ pos, pos / 8 = octet ∧ 8 * offset ≤ pos ∧ pos < 8 * offset + 8 * len := by
  constructor
  · intro hRange
    exact ⟨8 * octet, by omega, by omega, by omega⟩
  · rintro ⟨pos, rfl, hFrom, hTo⟩
    omega

/-- The octets a field of at least one bit stands in. -/
theorem octet_in_field {offset shift bits octet : Nat} (hPos : 0 < bits) :
    offset + shift / 8 ≤ octet ∧ octet < (offset * 8 + shift + bits + 7) / 8 ↔
      ∃ pos, pos / 8 = octet ∧ offset * 8 + shift ≤ pos ∧ pos < offset * 8 + shift + bits := by
  constructor
  · intro hRange
    exact ⟨max (8 * octet) (offset * 8 + shift), by omega, by omega, by omega⟩
  · rintro ⟨pos, rfl, hFrom, hTo⟩
    omega

/-- The octets a placement reports are those it laid a bit into. -/
theorem octet_mem_range {segment : String} {offset : Nat} {bitOffset : UInt8}
    {placement : Placement} (hPos : ∀ bits value, placement = .field bits value → 0 < bits)
    (octet : Nat) :
    placementFirst offset bitOffset placement ≤ octet ∧
        octet < placementEnd offset bitOffset placement ↔
      ∃ pos, pos / 8 = octet ∧
        (Laid.mk segment offset bitOffset placement).covers (segment, pos) = true := by
  simp only [Laid.covers_iff, true_and]
  cases placement with
  | empty => exact @octet_in_octets offset 0 octet
  | bytes octets => exact octet_in_octets
  | float octets => exact octet_in_octets
  | field bits value => exact octet_in_field (hPos bits value rfl)

section
variable {host : Host} {app : ApplicationProgram}

theorem placeChecked_ok {littleEndian : Bool} {pname : String} {image image' : List UInt8}
    {offset : Nat} {bitOffset : UInt8} {placement : Placement} {segSize : Option Nat}
    {first stop : Nat}
    (h : placeChecked littleEndian pname image offset bitOffset placement segSize
      = .ok (image', first, stop)) :
    placementEnd offset bitOffset (ordered littleEndian bitOffset placement) ≤ imageLimit segSize ∧
      image' = place image offset bitOffset (ordered littleEndian bitOffset placement) ∧
      first = placementFirst offset bitOffset (ordered littleEndian bitOffset placement) ∧
      stop = max (placementEnd offset bitOffset (ordered littleEndian bitOffset placement)) first := by
  unfold placeChecked at h
  dsimp only at h
  split_ifs at h with hPast
  · cases h
  · cases h
    exact ⟨Nat.le_of_not_lt hPast, rfl, rfl, rfl⟩

/-- The order of octets does not turn octets into a bit field. -/
theorem ordered_field {littleEndian : Bool} {bitOffset : UInt8} {placement : Placement}
    {bits : Nat} {value : UInt64} (h : ordered littleEndian bitOffset placement = .field bits value) :
    placement = .field bits value := by
  unfold ordered littleEndianField at h
  cases placement with
  | empty => cases h
  | bytes octets => cases h
  | float octets =>
      dsimp only at h
      split_ifs at h <;> cases h
  | field bits' value' =>
      dsimp only at h
      split_ifs at h
      · cases h
      · exact h

/-- What the images hold at a place: the octets of the image, or those it would start from. -/
def contentOf (app : ApplicationProgram) (images : Images) (place : String × Nat) : Bool :=
  bitAt ((images place.1).getD (baseImage app place.1)) place.2

theorem Placement.start_add_width_le (offset : Nat) (bitOffset : UInt8) (placement : Placement) :
    placement.start offset bitOffset + placement.width
      ≤ 8 * placementEnd offset bitOffset placement := by
  cases placement with
  | field bits value =>
      simp only [start, width, placementEnd]
      omega
  | _ =>
      simp only [start, width, placementEnd]
      omega

/-- Placing reaches as far as the placement's bits, and shortens nothing. -/
theorem le_length_place (image : List UInt8) (offset : Nat) (bitOffset : UInt8)
    (placement : Placement) :
    image.length ≤ (place image offset bitOffset placement).length ∧
      (placement ≠ .empty → placementEnd offset bitOffset placement
        ≤ (place image offset bitOffset placement).length) := by
  by_cases hEmpty : placement = .empty
  · subst hEmpty
    exact ⟨le_refl _, fun hOther => absurd rfl hOther⟩
  · rw [length_place _ _ _ _ hEmpty]
    exact ⟨Nat.le_max_left _ _, fun _ => Nat.le_max_right _ _⟩

/-- What one slot changes. -/
structure SlotWritten (app : ApplicationProgram) (images images' : Images) (laid : Laid)
    (first stop : Nat) : Prop where
  content : contentOf app images' = lay Laid.covers Laid.written (contentOf app images) laid
  inside : ∀ pos, laid.covers (laid.segment, pos) = true →
    ∃ image, images' laid.segment = some image ∧ pos < 8 * image.length
  grows : ∀ segment image, images segment = some image →
    ∃ image', images' segment = some image' ∧ image.length ≤ image'.length
  octets : ∀ octet, first ≤ octet ∧ octet < stop ↔
    ∃ pos, pos / 8 = octet ∧ laid.covers (laid.segment, pos) = true

/-- A placement changes the octets from its first to its end. -/
theorem slotWritten_place {images : Images} {laid : Laid}
    (hPos : ∀ bits value, laid.placement = .field bits value → 0 < bits) :
    SlotWritten app images
      (images.insert laid.segment (place ((images laid.segment).getD (baseImage app laid.segment))
        laid.offset laid.bitOffset laid.placement)) laid
      (placementFirst laid.offset laid.bitOffset laid.placement)
      (max (placementEnd laid.offset laid.bitOffset laid.placement)
        (placementFirst laid.offset laid.bitOffset laid.placement)) where
  content := by
    funext ⟨segment, pos⟩
    have hCovers := @Laid.covers_iff laid segment pos
    rw [contentOf, Images.insert, lay]
    by_cases hSegment : segment = laid.segment
    · subst hSegment
      rw [if_pos rfl, Option.getD_some, bitAt_place]
      exact if_congr (by rw [hCovers]; exact ⟨fun h => ⟨rfl, h⟩, fun h => h.2⟩) rfl rfl
    · rw [if_neg hSegment, if_neg fun h => hSegment (hCovers.mp h).1.symm]
      rfl
  inside := by
    intro pos hCovered
    obtain ⟨-, hFrom, hTo⟩ := Laid.covers_iff.mp hCovered
    have hWidth : laid.placement ≠ .empty := by
      intro hEmpty
      rw [hEmpty] at hTo
      simp only [Placement.width] at hTo
      omega
    have hEnd := Placement.start_add_width_le laid.offset laid.bitOffset laid.placement
    have hLength := (le_length_place ((images laid.segment).getD (baseImage app laid.segment))
      laid.offset laid.bitOffset laid.placement).2 hWidth
    refine ⟨_, if_pos rfl, ?_⟩
    rw [Laid.start] at hTo
    omega
  grows := by
    intro segment image hImage
    rw [Images.insert]
    split_ifs with hSegment
    · subst hSegment
      refine ⟨_, rfl, ?_⟩
      rw [hImage]
      exact (le_length_place image laid.offset laid.bitOffset laid.placement).1
    · exact ⟨image, hImage, le_refl _⟩
  octets := by
    intro octet
    rw [← octet_mem_range hPos octet]
    omega

/-- A slot that is written has a place, and only its octets change. -/
theorem writeSlot_ok {images images' : Images} {slot : SlotValue} {first stop : Nat}
    (h : writeSlot host app images slot.slot slot.value slot.source = .ok (images', first, stop)) :
    ∃ laid, laidOf host app slot = some laid ∧ laid.segment = slot.slot.segment ∧
      SlotWritten app images images' laid first stop := by
  obtain ⟨placement, hEncoded, hRest⟩ := Fallible.bind_eq_ok.mp h
  obtain ⟨⟨image', first', stop'⟩, hPlaced, hRest⟩ := Fallible.bind_eq_ok.mp hRest
  cases hRest
  obtain ⟨-, rfl, rfl, rfl⟩ := placeChecked_ok hPlaced
  have hLaid : laidOf host app slot = some ⟨slot.slot.segment, slot.slot.offset,
      slot.slot.bitOffset, ordered app.parametersLittleEndian slot.slot.bitOffset placement⟩ := by
    simp only [laidOf, hEncoded]
  have hPos : ∀ bits value, ordered app.parametersLittleEndian slot.slot.bitOffset placement
      = .field bits value → 0 < bits := by
    intro bits value hField
    exact (encodeValue_ok hEncoded).field_pos (ordered_field hField)
  exact ⟨_, hLaid, rfl, @slotWritten_place app images ⟨slot.slot.segment, slot.slot.offset,
    slot.slot.bitOffset, ordered app.parametersLittleEndian slot.slot.bitOffset placement⟩ hPos⟩

/-- Marking adds the octets of the range to those of the segment. -/
theorem mem_mark {placed : PlacedOctets} {segment name : String} {first stop octet : Nat} :
    octet ∈ (mark placed segment first stop name).getD [] ↔
      octet ∈ (placed name).getD [] ∨ (segment = name ∧ first ≤ octet ∧ octet < stop) := by
  unfold mark
  split_ifs with hEmpty
  · constructor
    · exact .inl
    · rintro (hHeld | ⟨-, hFrom, hTo⟩)
      · exact hHeld
      · omega
  · dsimp only
    by_cases hName : name = segment
    · subst hName
      have hRange : first + (stop - first) = stop := by omega
      rw [if_pos rfl, Option.getD_some, List.mem_append, List.mem_range'_1, hRange]
      simp
    · rw [if_neg hName]
      simp [Ne.symm hName]

/-- What a run over the slots changes. -/
structure SlotsWritten (app : ApplicationProgram) (images : Images) (placed : PlacedOctets)
    (images' : Images) (placed' : PlacedOctets) (laids : List Laid) : Prop where
  content : contentOf app images' = stack Laid.covers Laid.written laids (contentOf app images)
  inside : ∀ laid ∈ laids, ∀ pos, laid.covers (laid.segment, pos) = true →
    ∃ image, images' laid.segment = some image ∧ pos < 8 * image.length
  grows : ∀ segment image, images segment = some image →
    ∃ image', images' segment = some image' ∧ image.length ≤ image'.length
  octets : ∀ segment octet, octet ∈ (placed' segment).getD [] ↔
    octet ∈ (placed segment).getD [] ∨ Touched laids segment octet

theorem touched_cons {laid : Laid} {laids : List Laid} {segment : String} {octet : Nat} :
    Touched (laid :: laids) segment octet ↔
      (∃ pos, pos / 8 = octet ∧ laid.covers (segment, pos) = true) ∨ Touched laids segment octet := by
  simp [Touched]

/-- A slot and then the rest. -/
theorem SlotWritten.andThen {images middle images' : Images} {placed placed' : PlacedOctets}
    {laid : Laid} {laids : List Laid} {first stop : Nat}
    (hSlot : SlotWritten app images middle laid first stop)
    (hRest : SlotsWritten app middle (mark placed laid.segment first stop) images' placed' laids) :
    SlotsWritten app images placed images' placed' (laid :: laids) where
  content := by rw [stack_cons, ← hSlot.content, hRest.content]
  inside := by
    intro other hMem pos hCovered
    rcases List.mem_cons.mp hMem with rfl | hMem
    · obtain ⟨image, hImage, hInside⟩ := hSlot.inside pos hCovered
      obtain ⟨image', hImage', hLength⟩ := hRest.grows _ _ hImage
      exact ⟨image', hImage', by omega⟩
    · exact hRest.inside other hMem pos hCovered
  grows := by
    intro segment image hImage
    obtain ⟨held, hHeld, hLength⟩ := hSlot.grows _ _ hImage
    obtain ⟨image', hImage', hLength'⟩ := hRest.grows _ _ hHeld
    exact ⟨image', hImage', hLength.trans hLength'⟩
  octets := by
    intro segment octet
    rw [hRest.octets, mem_mark, touched_cons, hSlot.octets, or_assoc]
    refine or_congr_right (or_congr_left ⟨?_, ?_⟩)
    · rintro ⟨rfl, hTouched⟩
      exact hTouched
    · rintro ⟨pos, hPos, hCovered⟩
      obtain rfl := (Laid.covers_iff.mp hCovered).1
      exact ⟨rfl, pos, hPos, hCovered⟩

/-- The slots are written one after the other, by induction on them. -/
theorem writeSlots_ok {slots : List (Except ParameterError SlotValue)} {images images' : Images}
    {placed placed' : PlacedOctets}
    (h : writeSlots host app slots (images, placed) = .ok (images', placed')) :
    SlotsWritten app images placed images' placed' (placements host app slots) := by
  induction slots generalizing images placed with
  | nil =>
      cases h
      exact ⟨rfl, by simp [placements], fun _ image hImage => ⟨image, hImage, le_refl _⟩,
        by simp [placements, Touched]⟩
  | cons slot rest ih =>
      obtain ⟨slot, rfl, hRest⟩ := Fallible.bind_eq_ok.mp h
      obtain ⟨⟨middle, first, stop⟩, hWritten, hRest⟩ := Fallible.bind_eq_ok.mp hRest
      obtain ⟨laid, hLaid, hSegment, hSlot⟩ := writeSlot_ok (Fallible.mapError_eq_ok.mp hWritten)
      have hPlacements : placements host app (.ok slot :: rest)
          = laid :: placements host app rest := by
        simp [placements, Except.toOption, hLaid]
      rw [hPlacements]
      rw [← hSegment] at hRest
      exact hSlot.andThen (ih hRest)

/-- Every slot of a run that succeeds ends inside its segment. -/
theorem writeSlots_fits {slots : List (Except ParameterError SlotValue)} {state state' : Images × PlacedOctets}
    (h : writeSlots host app slots state = .ok state') {slot : SlotValue} (hMem : .ok slot ∈ slots)
    {laid : Laid} (hLaid : laidOf host app slot = some laid) :
    placementEnd laid.offset laid.bitOffset laid.placement
      ≤ imageLimit ((app.codeSegment laid.segment).bind (·.size)) := by
  induction slots generalizing state with
  | nil => cases hMem
  | cons head rest ih =>
      obtain ⟨images, placed⟩ := state
      obtain ⟨head, rfl, hRest⟩ := Fallible.bind_eq_ok.mp h
      obtain ⟨⟨middle, first, stop⟩, hWritten, hRest⟩ := Fallible.bind_eq_ok.mp hRest
      rcases List.mem_cons.mp hMem with hHead | hMem
      · cases hHead
        obtain ⟨placement, hEncoded, hSlot⟩ :=
          Fallible.bind_eq_ok.mp (Fallible.mapError_eq_ok.mp hWritten)
        obtain ⟨⟨image', range⟩, hPlaced, -⟩ := Fallible.bind_eq_ok.mp hSlot
        simp only [laidOf, hEncoded] at hLaid
        cases hLaid
        exact (placeChecked_ok hPlaced).1
      · exact ih hRest hMem

theorem bitAt_fill {image : List UInt8} {fill : UInt8} {octets : List Nat} {pos : Nat}
    (h : pos < 8 * image.length) :
    bitAt (image.mapIdx fun i octet => if octets.contains i then octet else fill) pos
      = if octets.contains (pos / 8) then bitAt image pos else bitAt [fill] (pos % 8) := by
  have hOctet : image[pos / 8]? = some image[pos / 8] := List.getElem?_eq_getElem (by omega)
  have hFilled : (image.mapIdx fun i octet => if octets.contains i then octet else fill)[pos / 8]?
      = some (if octets.contains (pos / 8) then image[pos / 8] else fill) := by
    rw [List.getElem?_mapIdx, hOctet, Option.map_some]
  have hZero : pos % 8 / 8 = 0 := by omega
  have hFill : [fill][pos % 8 / 8]? = some fill := by rw [hZero]; rfl
  rw [bitAt_of_getElem? hFilled, bitAt_of_getElem? hOctet, bitAt_of_getElem? hFill]
  split_ifs
  · rfl
  · rw [Nat.mod_mod]

/-- The images after the run, extended or not, and the fill. -/
structure Finished (app : ApplicationProgram) (images final : Images) (placed : PlacedOctets) :
    Prop where
  filled : ∀ segment image, final segment = some image → ∃ held,
    images segment = some held ∧ held.length ≤ image.length ∧ ∀ pos < 8 * image.length,
      bitAt image pos = ((fillOf app segment).map fun fill =>
        if ((placed segment).getD []).contains (pos / 8) then bitAt held pos
        else bitAt [fill] (pos % 8)).getD (bitAt held pos)
  kept : ∀ segment held, images segment = some held →
    ∃ image, final segment = some image ∧ held.length ≤ image.length

/-- The erased fill leaves what the slots wrote. -/
theorem finished_fill (images : Images) (placed : PlacedOctets) :
    Finished app images (applyErasedFill app images placed) placed where
  filled := by
    intro segment image hFinal
    obtain ⟨held, hHeld, hImage⟩ := Option.map_eq_some_iff.mp hFinal
    refine ⟨held, hHeld, ?_⟩
    rw [fillOf]
    cases hErased : (app.codeSegment segment).filter isErased with
    | none =>
        simp only [hErased] at hImage
        subst hImage
        exact ⟨le_refl _, fun pos hPos => rfl⟩
    | some seg =>
        simp only [hErased] at hImage
        subst hImage
        refine ⟨by rw [List.length_mapIdx], fun pos hPos => ?_⟩
        rw [List.length_mapIdx] at hPos
        exact bitAt_fill hPos
  kept := by
    intro segment held hHeld
    refine ⟨_, by rw [applyErasedFill, hHeld, Option.map_some], ?_⟩
    cases (app.codeSegment segment).filter isErased with
    | none => exact le_refl _
    | some seg => exact (List.length_mapIdx).symm.le

theorem resizeImages_some {images : Images} {segment : String} {held : List UInt8}
    (h : images segment = some held) :
    ∃ image, resizeImages app images segment = some image ∧ held.length ≤ image.length ∧
      ∀ pos, bitAt image pos = bitAt held pos := by
  refine ⟨_, by rw [resizeImages, h, Option.map_some], ?_⟩
  cases (app.codeSegment segment).bind (·.size) with
  | none => exact ⟨le_refl _, fun pos => rfl⟩
  | some size => exact ⟨by rw [length_grow]; exact Nat.le_max_left _ _, bitAt_grow held size⟩

theorem finished_resize (images : Images) (placed : PlacedOctets) :
    Finished app images (applyErasedFill app (resizeImages app images) placed) placed := by
  have hFill := @finished_fill app (resizeImages app images) placed
  constructor
  · intro segment image hFinal
    obtain ⟨resized, hResized, hLength, hBits⟩ := hFill.filled segment image hFinal
    obtain ⟨held, hHeld, -⟩ := Option.map_eq_some_iff.mp hResized
    obtain ⟨image', hImage', hLength', hSame⟩ := @resizeImages_some app _ _ _ hHeld
    cases hResized.symm.trans hImage'
    refine ⟨held, hHeld, hLength'.trans hLength, fun pos hPos => ?_⟩
    rw [hBits pos hPos, hSame]
  · intro segment held hHeld
    obtain ⟨resized, hResized, hLength, -⟩ := @resizeImages_some app _ _ _ hHeld
    obtain ⟨image, hImage, hLength'⟩ := hFill.kept segment resized hResized
    exact ⟨image, hImage, hLength.trans hLength'⟩

theorem Laid.bit_of_wraps {laid : Laid} {place : String × Nat} (h : laid.wraps place = true) :
    laid.bit place = false := by
  obtain ⟨segment, offset, bitOffset, placement⟩ := laid
  cases placement with
  | field bits value =>
      simp only [wraps, Bool.and_eq_true, decide_eq_true_eq] at h
      refine Nat.testBit_lt_two_pow (lt_of_lt_of_le value.toNat_lt ?_)
      exact Nat.pow_le_pow_right (by decide) (by omega)
  | _ => cases h

/-- No bit that the images show is one the shift took from the wrong end of its value. -/
def Unwrapped (laids : List Laid) : Prop :=
  ∀ place laid, topmost Laid.covers laids place = some laid → laid.wraps place = false

/-- The images as they are, with the bits that were written in place of the values' bits. -/
theorem bits_written {start images final : Images} {placed : PlacedOctets} {laids : List Laid}
    (hStart : contentOf app start = fun place => bitAt (baseImage app place.1) place.2)
    (hRun : SlotsWritten app start (fun _ => none) images placed laids)
    (hFinished : Finished app images final placed) {segment : String} {image : List UInt8}
    (hImage : final segment = some image) {pos : Nat} (hPos : pos < 8 * image.length) :
    bitAt image pos = ((topmost Laid.covers laids (segment, pos)).map
      (·.written (segment, pos))).getD (restBit app laids segment pos) := by
  obtain ⟨held, hHeld, hLength, hBits⟩ := hFinished.filled segment image hImage
  have hContent : bitAt held pos = ((topmost Laid.covers laids (segment, pos)).map
      (·.written (segment, pos))).getD (bitAt (baseImage app segment) pos) := by
    have hAt := congrFun hRun.content (segment, pos)
    rw [stack_apply, hStart, contentOf, hHeld, Option.getD_some] at hAt
    exact hAt
  have hTouched : ((placed segment).getD []).contains (pos / 8) = true ↔
      Touched laids segment (pos / 8) := by
    rw [List.contains_iff_mem, hRun.octets]
    simp
  rw [hBits pos hPos, restBit]
  cases hFill : fillOf app segment with
  | none => exact hContent
  | some fill =>
      simp only [Option.map_some, Option.getD_some]
      by_cases hPlaced : Touched laids segment (pos / 8)
      · rw [if_pos (hTouched.mpr hPlaced), if_pos hPlaced, hContent]
      · have hBare : topmost Laid.covers laids (segment, pos) = none := by
          rw [topmost_eq_none]
          intro laid hMem
          by_contra hCovered
          exact hPlaced ⟨laid, hMem, pos, rfl, by simpa using hCovered⟩
        rw [if_neg (mt hTouched.mp hPlaced), if_neg hPlaced, hBare]
        rfl

/-- The images are as they have to be exactly when no bit that shows wrapped round. -/
theorem content_iff {start images final : Images} {placed : PlacedOctets} {laids : List Laid}
    (hStart : contentOf app start = fun place => bitAt (baseImage app place.1) place.2)
    (hRun : SlotsWritten app start (fun _ => none) images placed laids)
    (hFinished : Finished app images final placed) :
    ImageContent app laids final placed ↔ Unwrapped laids := by
  have hInside : ∀ laid ∈ laids, ∀ pos, laid.covers (laid.segment, pos) = true →
      ∃ image, final laid.segment = some image ∧ pos < 8 * image.length := by
    intro laid hMem pos hCovered
    obtain ⟨held, hHeld, hPos⟩ := hRun.inside laid hMem pos hCovered
    obtain ⟨image, hImage, hLength⟩ := hFinished.kept _ _ hHeld
    exact ⟨image, hImage, by omega⟩
  constructor
  · rintro hContent ⟨segment, pos⟩ laid hTop
    obtain ⟨hMem, hCovered⟩ := covers_of_topmost hTop
    obtain rfl := (Laid.covers_iff.mp hCovered).1
    obtain ⟨image, hImage, hPos⟩ := hInside laid hMem pos hCovered
    have hValue := hContent.bits _ image hImage pos hPos
    rw [bits_written hStart hRun hFinished hImage hPos, hTop, Option.map_some, Option.getD_some,
      Option.map_some, Option.getD_some, Laid.written_eq hCovered] at hValue
    by_contra hWraps
    have hWraps : laid.wraps (laid.segment, pos) = true := by simpa using hWraps
    rw [Laid.bit_of_wraps hWraps, hWraps] at hValue
    cases hValue
  · intro hUnwrapped
    refine ⟨?_, hInside, ?_⟩
    · intro segment image hImage pos hPos
      rw [bits_written hStart hRun hFinished hImage hPos]
      cases hTop : topmost Laid.covers laids (segment, pos) with
      | none => rfl
      | some laid =>
          rw [Option.map_some, Option.map_some, Option.getD_some, Option.getD_some,
            Laid.written_eq (covers_of_topmost hTop).2, hUnwrapped _ _ hTop, Bool.or_false]
    · intro segment octet
      rw [hRun.octets]
      simp

end

end Bussard.Prod
