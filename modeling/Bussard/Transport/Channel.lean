import Bussard.Transport.Knxnet

/-! The KNXnet/IP connection channel: an id, an outgoing and an incoming
sequence counter, and the inbound sequence check. -/
namespace Bussard.Transport

open Knxnet

/-- What distinguishes one kind of channel. Timing is an input of the run. -/
structure ChannelKind where
  ackService : ServiceType
  ack : UInt8 → UInt8 → UInt8 → List UInt8
  ackContext : String
  retransmits : Nat

/-- `acks` says whether the link uses acknowledgements: over UDP, not over a
secure stream. -/
structure Channel where
  acks : Bool
  id : UInt8
  hpai : Hpai
  outgoingSeq : UInt8
  incomingSeq : UInt8
  firstIncoming : Bool
  deriving DecidableEq

namespace Channel

/-- Both counters at zero. -/
def new (acks : Bool) (id : UInt8) (hpai : Hpai) : Channel := ⟨acks, id, hpai, 0, 0, false⟩

/-- The first inbound number sets the expected one, where that is allowed. -/
def expecting (chan : Channel) (seq : UInt8) : Channel :=
  if chan.firstIncoming then { chan with incomingSeq := seq, firstIncoming := false } else chan

/-- The inbound check: the channel after it, the acknowledgement sent, and
whether the request is to be delivered. -/
def acceptIncoming (kind : ChannelKind) (chan : Channel) (seq : UInt8) :
    Channel × List (List UInt8) × Bool :=
  let chan := chan.expecting seq
  let behind := chan.incomingSeq - seq
  if behind > 1 then (chan, [], false)
  else
    let acks := if chan.acks then [kind.ack chan.id seq 0] else []
    if behind = 1 then (chan, acks, false)
    else ({ chan with incomingSeq := chan.incomingSeq + 1 }, acks, true)

variable {chan : Channel} {seq : UInt8} (kind : ChannelKind)

/-- The expected number, or any number where none is expected yet. -/
theorem acceptIncoming_next (h : chan.firstIncoming = true ∨ chan.incomingSeq = seq) :
    chan.acceptIncoming kind seq =
      ({ chan with incomingSeq := seq + 1, firstIncoming := false },
        if chan.acks then [kind.ack chan.id seq 0] else [], true) := by
  have hExpected : chan.expecting seq = { chan with incomingSeq := seq, firstIncoming := false } := by
    unfold expecting
    split
    · rfl
    · rename_i hFirst
      have hSeq := h.resolve_left hFirst
      rw [Bool.not_eq_true] at hFirst
      rw [← hSeq, ← hFirst]
  simp [acceptIncoming, hExpected]

theorem expecting_of_counting (hFirst : chan.firstIncoming = false) : chan.expecting seq = chan := by
  unfold expecting
  rw [hFirst]
  rfl

/-- The number before the expected one. -/
theorem acceptIncoming_repeat (hFirst : chan.firstIncoming = false)
    (h : chan.incomingSeq = seq + 1) :
    chan.acceptIncoming kind seq =
      (chan, if chan.acks then [kind.ack chan.id seq 0] else [], false) := by
  have hBehind : chan.incomingSeq - seq = 1 := by
    rw [h, UInt8.add_comm, UInt8.add_sub_cancel]
  simp [acceptIncoming, expecting_of_counting hFirst, hBehind]

/-- Any number but the expected one leaves the channel as it is. -/
theorem acceptIncoming_other (hFirst : chan.firstIncoming = false) (h : seq ≠ chan.incomingSeq) :
    ∃ acks, chan.acceptIncoming kind seq = (chan, acks, false) := by
  have hBehind : chan.incomingSeq - seq ≠ 0 := by grind
  simp only [acceptIncoming, expecting_of_counting hFirst]
  split
  · exact ⟨_, rfl⟩
  · split
    · exact ⟨_, rfl⟩
    · exfalso
      grind

end Channel

end Bussard.Transport
