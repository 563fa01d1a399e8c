import Bussard.Prod.ImageContent

/-! The images the builder returns, over a whole list of slots. -/
namespace Bussard.Prod

open BitField Overlay

variable {host : Host} {app : ApplicationProgram} {refused : Option ParameterError}
  {slots : List (Except ParameterError SlotValue)}

/-- A build that succeeds ran over all its slots and then filled what was left. -/
theorem buildImages_ok {build : ImageBuild} {final : Images} {placed : PlacedOctets}
    (h : buildImages host app refused slots build = .ok (final, placed)) :
    ∃ start images, (contentOf app start = fun place => bitAt (baseImage app place.1) place.2) ∧
      writeSlots host app slots (start, fun _ => none) = .ok (images, placed) ∧
      Finished app images final placed := by
  cases refused with
  | some error =>
      cases build with
      | static => cases h
      | dynamic segments =>
          obtain ⟨-, -, h⟩ := Fallible.bind_eq_ok.mp h
          cases h
  | none =>
      cases build with
      | static =>
          obtain ⟨-, -, h⟩ := Fallible.bind_eq_ok.mp h
          obtain ⟨⟨images, placed⟩, hWritten, h⟩ := Fallible.bind_eq_ok.mp h
          cases h
          exact ⟨fun _ => none, images, rfl, hWritten, finished_fill images placed⟩
      | dynamic segments =>
          obtain ⟨-, -, h⟩ := Fallible.bind_eq_ok.mp h
          obtain ⟨⟨images, placed⟩, hWritten, h⟩ := Fallible.bind_eq_ok.mp h
          cases h
          refine ⟨seededImages app segments, images, ?_, hWritten, finished_resize images placed⟩
          funext ⟨segment, pos⟩
          rw [contentOf, seededImages]
          split_ifs <;> rfl

/-- For every application and every list of slots: a placement that ends past its segment or the cap
makes the build fail, and the images of a build that succeeds are made of the placements' bits, of
what the segments held and of the fill exactly when no bit that shows was taken by a shift past the
64 bits of its value. -/
theorem image_content_iff (host : Host) (app : ApplicationProgram)
    (refused : Option ParameterError) (slots : List (Except ParameterError SlotValue))
    (build : ImageBuild) :
    (∀ slot laid, .ok slot ∈ slots → laidOf host app slot = some laid →
        imageLimit ((app.codeSegment laid.segment).bind (·.size))
          < placementEnd laid.offset laid.bitOffset laid.placement →
        ∃ error, buildImages host app refused slots build = .error error) ∧
      ∀ images placed, buildImages host app refused slots build = .ok (images, placed) →
        (ImageContent app (placements host app slots) images placed ↔
          Unwrapped (placements host app slots)) := by
  constructor
  · intro slot laid hMem hLaid hPast
    cases hBuild : buildImages host app refused slots build with
    | error error => exact ⟨error, rfl⟩
    | ok built =>
        obtain ⟨start, images, -, hWritten, -⟩ := buildImages_ok hBuild
        have hFits := writeSlots_fits hWritten hMem hLaid
        omega
  · intro images placed hBuild
    obtain ⟨start, held, hStart, hWritten, hFinished⟩ := buildImages_ok hBuild
    exact content_iff hStart (writeSlots_ok hWritten) hFinished

/-- An enumeration of 65 bits whose only member carries the octet 01h. -/
def wideProgram : ApplicationProgram where
  codeSegments := [("RS-04-00000", ⟨.relative, some 16, some 4, none, none⟩)]
  parameterTypes := fun _ => some (.enum (some 65) [⟨⟨0, "On", "On", []⟩, some [0x01]⟩])
  loadProcedures := []
  parametersLittleEndian := false
  textParameterEncoding := none

def wideSlot : SlotValue :=
  ⟨⟨⟨"P-1", none, some "PT-1"⟩, "RS-04-00000", 0, 0⟩, none, .vendorDefault, none⟩

theorem wideProgram_valid : validateSegments wideProgram = .ok () := by
  rw [validateSegments, wideProgram, List.mergeSort_singleton]
  rfl

theorem staticImage_of_written {images : Images} {placed : PlacedOctets}
    (hValid : validateSegments app = .ok ())
    (hWritten : writeSlots host app slots (fun _ => none, fun _ => none) = .ok (images, placed)) :
    staticImage host app none slots = .ok (applyErasedFill app images placed, placed) := by
  have hRun : staticImage host app none slots = (validateSegments app >>= fun _ =>
      writeSlots host app slots (fun _ => none, fun _ => none) >>= fun state =>
        .ok (applyErasedFill app state.1 state.2, state.2)) := rfl
  rw [hRun, hValid, Fallible.ok_bind, hWritten, Fallible.ok_bind]

theorem wideProgram_built : ∃ images placed,
    buildImages plainHost wideProgram none [.ok wideSlot] .static = .ok (images, placed) := by
  have hWritten : ∃ state, writeSlots plainHost wideProgram [.ok wideSlot]
      (fun _ => none, fun _ => none) = .ok state := ⟨_, rfl⟩
  obtain ⟨⟨images, placed⟩, hWritten⟩ := hWritten
  exact ⟨_, placed, staticImage_of_written wideProgram_valid hWritten⟩

/-- The number 1 in a field of 65 bits: its last bit is written a second time, as the first bit of
the field. -/
theorem wide_field_wraps : ∃ images placed,
    buildImages plainHost wideProgram none [.ok wideSlot] .static = .ok (images, placed) ∧
      placements plainHost wideProgram [.ok wideSlot]
        = [⟨"RS-04-00000", 0, 0, .field 65 1⟩] ∧
      ¬ ImageContent wideProgram (placements plainHost wideProgram [.ok wideSlot]) images placed := by
  obtain ⟨images, placed, hBuild⟩ := wideProgram_built
  refine ⟨images, placed, hBuild, rfl, ?_⟩
  obtain ⟨start, held, hStart, hWritten, hFinished⟩ := buildImages_ok hBuild
  rw [content_iff hStart (writeSlots_ok hWritten) hFinished]
  intro hUnwrapped
  have hFirst := hUnwrapped ("RS-04-00000", 0) ⟨"RS-04-00000", 0, 0, .field 65 1⟩ rfl
  exact absurd hFirst (by decide)

/-- The position of a union member is the sum of the union's and the member's, bits carried into
octets; past the largest 32-bit offset it lies past every image. -/
theorem unionMemberPosition_sum {unionOffset : UInt32} {unionBitOffset : Option UInt8}
    {memberOffset : Option UInt32} {memberBitOffset : Option UInt8} {offset : Nat} {bitOffset : UInt8}
    (h : unionMemberPosition unionOffset unionBitOffset memberOffset memberBitOffset
      = (offset, bitOffset)) :
    bitOffset.toNat < 8 ∧
      (startBit offset bitOffset
          = 8 * (unionOffset.toNat + (memberOffset.getD 0).toNat)
            + (unionBitOffset.getD 0).toNat + (memberBitOffset.getD 0).toNat ∨
        maxSegmentImage < offset) := by
  cases h
  have hBit : (UInt8.ofNat (((unionBitOffset.getD 0).toNat + (memberBitOffset.getD 0).toNat) % 8)).toNat
      = ((unionBitOffset.getD 0).toNat + (memberBitOffset.getD 0).toNat) % 8 := by
    rw [UInt8.toNat_ofNat']
    omega
  refine ⟨by rw [hBit]; omega, ?_⟩
  rw [startBit, hBit, maxSegmentImage]
  dsimp only
  omega

end Bussard.Prod
