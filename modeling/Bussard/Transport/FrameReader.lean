import Bussard.Lib.Incremental
import Bussard.Transport.Knxnet

/-! The reader of whole KNXnet/IP frames from a TCP stream, which arrives in pieces of any size. A
call that is dropped while it waits loses nothing: what it read stays in the buffer. -/
namespace Bussard.Transport

open Octets Knxnet

/-- The largest frame the 16-bit length field can announce. -/
def maxFrame : Nat := 65535

/-- What one read of the socket returns, into an array of 2048 octets. No octet is the end of the
stream, not a chunk. -/
structure Chunk where
  octets : List UInt8
  nonempty : octets ≠ []
  bounded : octets.length ≤ 2048

namespace FrameReader

/-- One complete frame from the front of the buffer, if there is one, and what follows it. -/
def pop (buf : List UInt8) : Except TransportError (Option (List UInt8 × List UInt8)) :=
  if buf.length < headerLen then .ok none
  else if buf.getD 0 0 ≠ headerSize10 ∨ buf.getD 1 0 ≠ knxnetipVersion10 then
    .error (.badHeader (buf.getD 0 0) (buf.getD 1 0))
  else
    let total := (readU16 buf 4).toNat
    if total < headerLen then
      .error (.truncated headerLen total "KNXnet/IP total length over TCP")
    else if buf.length < total then .ok none
    else .ok (some (buf.take total, buf.drop total))

/-- What one read adds to the buffer. -/
def add (buf : List UInt8) (chunk : Chunk) : Except TransportError (List UInt8) :=
  if maxFrame * 2 < buf.length + chunk.octets.length then
    .error (.truncated maxFrame (buf.length + chunk.octets.length)
      "KNXnet/IP TCP receive buffer overflow")
  else .ok chunk.octets

def reader : Incremental.Reader UInt8 (List UInt8) Chunk TransportError := ⟨pop, add⟩

/-- The next whole frame. `closed` is how the stream ends after the chunks, if it does. -/
def readFrame (closed : Option IoKind) (buf : List UInt8) (chunks : List Chunk) :
    Incremental.Next UInt8 (List UInt8) Chunk TransportError :=
  Incremental.next reader (closed.map .io) buf chunks

/-- The frames that successive calls return, and why no further one does. -/
def readFrames (closed : Option IoKind) (buf : List UInt8) (chunks : List Chunk) :
    List (List UInt8) × Incremental.Ended Unit UInt8 TransportError Empty :=
  Incremental.calls reader Chunk.octets (fun _ frame => ((), .yield frame)) (closed.map .io) () buf
    chunks

end FrameReader

/-- A frame whose length field tells the truth. -/
structure WellFramed (frame : List UInt8) : Prop where
  size : frame.getD 0 0 = headerSize10
  version : frame.getD 1 0 = knxnetipVersion10
  header : headerLen ≤ frame.length
  total : (readU16 frame 4).toNat = frame.length

section
variable {buf rest frame : List UInt8}

theorem readU16_append {start : Nat} (more : List UInt8) (h : start + 2 ≤ buf.length) :
    readU16 (buf ++ more) start = readU16 buf start := by
  have hSlice : (copySlice (buf ++ more) start 2).toList = (copySlice buf start 2).toList := by
    rw [copySlice_toList (by rw [List.length_append]; omega), copySlice_toList h,
      List.drop_append_of_le_length (by omega),
      List.take_append_of_le_length (by rw [List.length_drop]; omega)]
  rw [readU16, readU16, hSlice]

theorem getD_append_of_lt {index : Nat} (more : List UInt8) (h : index < buf.length) :
    (buf ++ more).getD index 0 = buf.getD index 0 := by
  rw [List.getD_eq_getElem?_getD, List.getD_eq_getElem?_getD, List.getElem?_append_left h]

/-- A whole frame is taken off the front, whatever follows it. -/
theorem WellFramed.pop_append (h : WellFramed frame) (more : List UInt8) :
    FrameReader.pop (frame ++ more) = .ok (some (frame, more)) := by
  have hHeader := h.header
  simp only [headerLen] at hHeader
  have hTotal : (readU16 (frame ++ more) 4).toNat = frame.length := by
    rw [readU16_append more (by omega), h.total]
  have hLength : ¬ (frame ++ more).length < headerLen := by
    rw [List.length_append, headerLen]
    omega
  have hOctets : ¬ ((frame ++ more).getD 0 0 ≠ headerSize10 ∨
      (frame ++ more).getD 1 0 ≠ knxnetipVersion10) := by
    rw [getD_append_of_lt more (by omega), getD_append_of_lt more (by omega), h.size, h.version]
    simp
  rw [FrameReader.pop, if_neg hLength, if_neg hOctets, hTotal]
  simp only
  rw [if_neg (Nat.not_lt.mpr h.header), if_neg (by rw [List.length_append]; omega),
    List.take_left, List.drop_left]

/-- A frame that is taken is well framed and stood in front. -/
theorem wellFramed_of_pop (h : FrameReader.pop buf = .ok (some (frame, rest))) :
    WellFramed frame ∧ buf = frame ++ rest := by
  obtain ⟨hLength, hOctets, hShort, hMissing, hFound⟩ : ¬ buf.length < headerLen ∧
      ¬ (buf.getD 0 0 ≠ headerSize10 ∨ buf.getD 1 0 ≠ knxnetipVersion10) ∧
      ¬ (readU16 buf 4).toNat < headerLen ∧ ¬ buf.length < (readU16 buf 4).toNat ∧
      (buf.take (readU16 buf 4).toNat, buf.drop (readU16 buf 4).toNat) = (frame, rest) := by
    unfold FrameReader.pop at h
    by_cases hLength : buf.length < headerLen
    · rw [if_pos hLength] at h
      cases h
    · by_cases hOctets : buf.getD 0 0 ≠ headerSize10 ∨ buf.getD 1 0 ≠ knxnetipVersion10
      · rw [if_neg hLength, if_pos hOctets] at h
        cases h
      · rw [if_neg hLength, if_neg hOctets] at h
        simp only at h
        split_ifs at h with hShort hMissing
        · cases h
        · exact ⟨hLength, hOctets, hShort, hMissing, Option.some.inj (Except.ok.inj h)⟩
  obtain ⟨rfl, rfl⟩ := Prod.mk.inj hFound
  have hTake : (buf.take (readU16 buf 4).toNat).length = (readU16 buf 4).toNat := by
    rw [List.length_take]
    omega
  have hSplit := List.take_append_drop (readU16 buf 4).toNat buf
  simp only [headerLen] at hShort
  rw [not_or, not_not, not_not] at hOctets
  refine ⟨⟨?_, ?_, ?_, ?_⟩, hSplit.symm⟩
  · rw [← hOctets.1]
    conv => rhs; rw [← hSplit]
    rw [getD_append_of_lt _ (by omega)]
  · rw [← hOctets.2]
    conv => rhs; rw [← hSplit]
    rw [getD_append_of_lt _ (by omega)]
  · rw [hTake, headerLen]
    omega
  · rw [hTake]
    conv => rhs; rw [← hSplit]
    rw [readU16_append _ (by omega)]

/-- The length field bounds what is kept while a frame is incomplete. -/
theorem length_of_pop_none (h : FrameReader.pop buf = .ok none) : buf.length ≤ maxFrame := by
  unfold FrameReader.pop at h
  by_cases hLength : buf.length < headerLen
  · rw [headerLen] at hLength
    rw [maxFrame]
    omega
  · rw [if_neg hLength] at h
    by_cases hOctets : buf.getD 0 0 ≠ headerSize10 ∨ buf.getD 1 0 ≠ knxnetipVersion10
    · rw [if_pos hOctets] at h
      cases h
    · rw [if_neg hOctets] at h
      simp only at h
      have hField := (readU16 buf 4).toNat_lt
      split_ifs at h with hShort hMissing
      · rw [maxFrame]
        omega
      · cases h

/-- The six header octets decide whether a stream is refused. -/
theorem pop_append_of_error {error : TransportError} (h : FrameReader.pop buf = .error error)
    (more : List UInt8) : FrameReader.pop (buf ++ more) = .error error := by
  unfold FrameReader.pop at h ⊢
  by_cases hLength : buf.length < headerLen
  · rw [if_pos hLength] at h
    cases h
  · have hHeader : 6 ≤ buf.length := Nat.not_lt.mp hLength
    rw [if_neg hLength] at h
    rw [if_neg (by rw [List.length_append, headerLen]; omega), getD_append_of_lt more (by omega),
      getD_append_of_lt more (by omega), readU16_append more (by omega)]
    by_cases hOctets : buf.getD 0 0 ≠ headerSize10 ∨ buf.getD 1 0 ≠ knxnetipVersion10
    · rw [if_pos hOctets] at h ⊢
      exact h
    · rw [if_neg hOctets] at h ⊢
      simp only at h ⊢
      by_cases hShort : (readU16 buf 4).toNat < headerLen
      · rw [if_pos hShort] at h ⊢
        exact h
      · rw [if_neg hShort] at h
        split_ifs at h

/-- Taking a frame shortens the buffer, and octets that arrive later change no frame that was there.
-/
theorem FrameReader.lawful : FrameReader.reader.Lawful Chunk.octets where
  shorter := by
    intro buf rest frame h
    obtain ⟨hFramed, rfl⟩ := wellFramed_of_pop h
    have hHeader : 6 ≤ frame.length := hFramed.header
    rw [List.length_append]
    omega
  taken := by
    intro buf rest frame more h
    obtain ⟨hFramed, rfl⟩ := wellFramed_of_pop h
    rw [List.append_assoc]
    exact hFramed.pop_append (rest ++ more)
  refused := fun more h => pop_append_of_error h more
  added := by
    intro buf chunk h
    have hBuffer := length_of_pop_none h
    have hChunk := chunk.bounded
    rw [maxFrame] at hBuffer
    change FrameReader.add buf chunk = .ok chunk.octets
    rw [FrameReader.add, if_neg (by rw [maxFrame]; omega)]

/-- Every stream is a row of well-framed frames and a rest that does not begin with one. -/
theorem drain_split (stream : List UInt8) : ∃ frames rest,
    stream = frames.flatten ++ rest ∧ (∀ frame ∈ frames, WellFramed frame) ∧
      (∀ frame more, rest = frame ++ more → ¬ WellFramed frame) ∧
      Incremental.drain FrameReader.reader stream =
        (frames, (FrameReader.pop rest).map fun _ => rest) := by
  induction hLength : stream.length using Nat.strongRecOn generalizing stream with
  | ind length ih =>
      have hNone : ∀ found, FrameReader.pop stream = found →
          (∀ frame more, found ≠ .ok (some (frame, more))) →
            ∀ frame more, stream = frame ++ more → ¬ WellFramed frame := by
        intro found hPop hOther frame more hStream hFramed
        rw [hStream, hFramed.pop_append] at hPop
        exact hOther frame more hPop.symm
      cases hPop : FrameReader.pop stream with
      | error error =>
          refine ⟨[], stream, rfl, by simp, hNone _ hPop (by simp), ?_⟩
          rw [Incremental.drain_error hPop, hPop]
          rfl
      | ok found =>
          cases found with
          | none =>
              refine ⟨[], stream, rfl, by simp, hNone _ hPop (by simp), ?_⟩
              rw [Incremental.drain_none hPop, hPop]
              rfl
          | some found =>
              obtain ⟨frame, after⟩ := found
              obtain ⟨hFramed, rfl⟩ := wellFramed_of_pop hPop
              have hShorter := FrameReader.lawful.shorter hPop
              obtain ⟨frames, rest, hAfter, hFrames, hRest, hDrain⟩ :=
                ih after.length (hLength ▸ hShorter) after rfl
              refine ⟨frame :: frames, rest, ?_, ?_, hRest, ?_⟩
              · rw [List.flatten_cons, List.append_assoc, ← hAfter]
              · exact List.forall_mem_cons.mpr ⟨hFramed, hFrames⟩
              · rw [Incremental.drain_some FrameReader.lawful hPop, hDrain]

end

theorem scan_frames (frames : List (List UInt8)) :
    Incremental.scan (fun (_ : Unit) frame => ((), .yield frame)) () frames =
      (frames, (.inl () : Unit ⊕ Empty)) := by
  induction frames with
  | nil => rfl
  | cons frame frames ih => simp only [Incremental.scan, ih]

/-- The calls return the well-framed frames of the stream, each once and in order, however it is
cut. What is left is kept until more arrives, and a stream is given up only for its own header: the
buffer never overflows. -/
theorem read_frames_split (closed : Option IoKind) (buf : List UInt8) (chunks : List Chunk) :
    ∃ frames rest, buf ++ chunks.flatMap Chunk.octets = frames.flatten ++ rest ∧
      (∀ frame ∈ frames, WellFramed frame) ∧
      (∀ frame more, rest = frame ++ more → ¬ WellFramed frame) ∧
      (FrameReader.readFrames closed buf chunks).1 = frames ∧
      (∀ error, FrameReader.pop rest = .error error →
        (FrameReader.readFrames closed buf chunks).2 = .broken error) ∧
      (FrameReader.pop rest = .ok none →
        (FrameReader.readFrames closed buf chunks).2 =
          (closed.map TransportError.io).elim (.waiting () rest) .broken) := by
  obtain ⟨frames, rest, hStream, hFrames, hRest, hDrain⟩ :=
    drain_split (buf ++ chunks.flatMap Chunk.octets)
  refine ⟨frames, rest, hStream, hFrames, hRest, ?_⟩
  rw [FrameReader.readFrames, Incremental.calls_eq FrameReader.lawful, hDrain]
  simp only [scan_frames, Incremental.finish]
  refine ⟨trivial, ?_, ?_⟩
  · intro error hPop
    rw [hPop]
    rfl
  · intro hPop
    rw [hPop]
    cases closed <;> rfl

end Bussard.Transport
