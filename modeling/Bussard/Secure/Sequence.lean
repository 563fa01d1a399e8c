import Bussard.Lib.Octets

/-! The 48-bit Data Secure sequence number, the process-wide clock that seeds
it and the per-device high-water mark. -/
namespace Bussard.Secure

open Octets

/-- The largest 48-bit sequence value. -/
def maxSequence : Nat := 0xFFFFFFFFFFFF

/-- The largest 64-bit value, where `saturating_add` stops. -/
def u64Max : Nat := 2 ^ 64 - 1

/-- `u64::saturating_add`. -/
def saturatingAdd (a b : Nat) : Nat := min (a + b) u64Max

/-- A sequence number: a `u64` masked to 48 bits. -/
@[ext]
structure Sequence where
  value : Nat
  le_max : value ≤ maxSequence
  deriving DecidableEq

namespace Sequence

/-- Wrap a raw value, masked to 48 bits. -/
def new (value : Nat) : Sequence := ⟨value &&& maxSequence, Nat.and_le_right⟩

theorem value_new (value : Nat) : (new value).value = value % 2 ^ 48 :=
  Nat.and_two_pow_sub_one_eq_mod value 48

@[simp] theorem value_new_of_le {value : Nat} (h : value ≤ maxSequence) :
    (new value).value = value := by
  rw [value_new, Nat.mod_eq_of_lt]
  exact Nat.lt_succ_of_le h

@[simp] theorem new_value (seq : Sequence) : new seq.value = seq :=
  Sequence.ext (value_new_of_le seq.le_max)

/-- The six big-endian wire octets. -/
def toBytes (seq : Sequence) : List.Vector UInt8 6 := beVector 6 seq.value

/-- Parse six big-endian wire octets. -/
def fromBytes (bytes : List.Vector UInt8 6) : Sequence := new (beValue bytes.toList)

@[simp] theorem fromBytes_toBytes (seq : Sequence) : fromBytes seq.toBytes = seq := by
  have hBound : seq.value < 256 ^ 6 := Nat.lt_succ_of_le seq.le_max
  rw [fromBytes, toBytes, beVector_toList, beValue_beBytes hBound, new_value]

/-- The next sequence to send: one greater, saturating at `maxSequence`. -/
def next (seq : Sequence) : Sequence := new (min (saturatingAdd seq.value 1) maxSequence)

theorem value_next (seq : Sequence) : seq.next.value = min (seq.value + 1) maxSequence := by
  have hBound : seq.value + 1 ≤ u64Max := (Nat.succ_le_succ seq.le_max).trans (by decide)
  rw [next, saturatingAdd, Nat.min_eq_left hBound]
  exact value_new_of_le (Nat.min_le_right _ _)

/-- Below the ceiling the next number is one greater. -/
theorem value_next_of_lt {seq : Sequence} (h : seq.value < maxSequence) :
    seq.next.value = seq.value + 1 := by
  rw [value_next, Nat.min_eq_left (Nat.succ_le_of_lt h)]

end Sequence

/-- The clock-seeded issuer of send sequences: the highest value issued or
observed so far. The clock reading is an argument of `issue`. -/
structure SequenceClock where
  last : Nat

namespace SequenceClock

/-- `max(clock, last + 1)`, saturating at `maxSequence`, recorded as the new
floor. The compare-exchange loop of the source is one atomic update: a failed
exchange retries on the value another thread stored. -/
def issue (clock : SequenceClock) (reading : Nat) : Sequence × SequenceClock :=
  let next := min (max (reading &&& maxSequence) (saturatingAdd clock.last 1)) maxSequence
  (Sequence.new next, ⟨next⟩)

/-- Record a sequence that went on the wire; never moves backwards. -/
def observe (clock : SequenceClock) (seq : Sequence) : SequenceClock := ⟨max clock.last seq.value⟩

/-- One atomic access that another session makes to the process clock. -/
inductive Access where
  | issue (reading : Nat)
  | observe (seq : Sequence)

def access (clock : SequenceClock) : Access → SequenceClock
  | .issue reading => (clock.issue reading).2
  | .observe seq => clock.observe seq

/-- The accesses other sessions make between two of our own. -/
def interfere (clock : SequenceClock) (others : List Access) : SequenceClock :=
  others.foldl access clock

end SequenceClock

/-- The monotonic mark of the last sequence sent to one device, shared by
every session for it. -/
structure SequenceHighWater where
  lastSent : Nat

namespace SequenceHighWater

def new : SequenceHighWater := ⟨0⟩

/-- Record a sequence on the mark. The process clock records it too, as an
atomic access of its own. -/
def observe (mark : SequenceHighWater) (seq : Sequence) : SequenceHighWater :=
  ⟨max mark.lastSent seq.value⟩

/-- The seed a new session starts from: `max(clock seed, last_sent + 1)`. The
mark is read first; `before` and `after` are what other sessions do to the
process clock around its issue. -/
def nextSeed (mark : SequenceHighWater) (clock : SequenceClock) (reading : Nat)
    (before after : List SequenceClock.Access) : Sequence × SequenceClock :=
  let last := mark.lastSent
  let issued := (clock.interfere before).issue reading
  let next := Sequence.new (max issued.1.value (saturatingAdd last 1))
  (next, (issued.2.interfere after).observe next)

/-- Below the ceiling a new seed lies strictly above everything the mark has
recorded, whatever the clock reads and whatever other sessions do to it. -/
theorem lt_nextSeed {mark : SequenceHighWater} (h : mark.lastSent < maxSequence)
    (clock : SequenceClock) (reading : Nat) (before after : List SequenceClock.Access) :
    mark.lastSent < (mark.nextSeed clock reading before after).1.value := by
  have hSaturate : saturatingAdd mark.lastSent 1 = mark.lastSent + 1 :=
    Nat.min_eq_left ((Nat.succ_le_of_lt h).trans (by decide))
  let seed := ((clock.interfere before).issue reading).1
  have hBound : max seed.value (mark.lastSent + 1) ≤ maxSequence :=
    max_le seed.le_max (Nat.succ_le_of_lt h)
  change mark.lastSent < (Sequence.new (max seed.value (saturatingAdd mark.lastSent 1))).value
  rw [hSaturate, Sequence.value_new_of_le hBound]
  exact Nat.lt_of_succ_le (Nat.le_max_right _ _)

end SequenceHighWater

end Bussard.Secure
