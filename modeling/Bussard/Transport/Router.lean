import Bussard.Lib.Run
import Bussard.Lib.SlidingWindow
import Bussard.Transport.Knxnet

/-! The routing transport: what it takes from the multicast group, and how it paces what it sends.
Times and durations are nanoseconds of the monotonic clock. -/
namespace Bussard.Transport

open Knxnet

namespace Knxnet

def routingIndication (cemi : CemiFrame) : List UInt8 := frame .routingIndication cemi.encode

def parseRoutingIndication (body : List UInt8) : Except TransportError CemiFrame :=
  CemiFrame.decode body

structure RoutingBusy where
  deviceState : UInt8
  waitTimeMs : UInt16
  control : UInt16
  deriving DecidableEq, Repr

def parseRoutingBusy (body : List UInt8) : Except TransportError RoutingBusy := do
  let (_, cur) ← Cursor.u8 body "routing-busy length"
  let (deviceState, cur) ← cur.u8 "routing-busy device state"
  let (waitTimeMs, cur) ← cur.u16 "routing-busy wait time"
  let (control, _) ← cur.u16 "routing-busy control"
  return ⟨deviceState, waitTimeMs, control⟩

end Knxnet

def micros (count : Nat) : Nat := count * 1000

def millis (count : Nat) : Nat := count * 1000000

def seconds (count : Nat) : Nat := count * 1000000000

def maxPerSecond : Nat := 50
def minSpacing : Nat := millis 5
def busyCountGap : Nat := millis 10
def slowPerBusy : Nat := millis 100
def busyDecrement : Nat := millis 5
def window : Nat := seconds 1

structure Pacer where
  sent : List Nat
  busyUntil : Option Nat
  busyRandom : Nat
  busyCount : Nat
  lastBusy : Option Nat
  deriving DecidableEq, Repr

namespace Pacer

def empty : Pacer := ⟨[], none, 0, 0, none⟩

def countMax : Nat := 2 ^ 32 - 1

/-- The count as of the last BUSY, less one for every decrement past the quiet time. -/
def busyCountAt (pacer : Pacer) (now : Nat) : Nat :=
  match pacer.lastBusy with
  | none => 0
  | some last =>
      let slow := slowPerBusy * pacer.busyCount
      let quiet := now - last
      if quiet < slow then pacer.busyCount
      else
        let steps := (quiet - slow) / micros 1 / (busyDecrement / micros 1)
        pacer.busyCount - min steps countMax

/-- The random wait of a count is a draw in floating point, a parameter here. -/
def onBusy (pacer : Pacer) (now wait : Nat) (draw : Nat → Nat) : Pacer :=
  let counts := match pacer.lastBusy with
    | none => true
    | some last => busyCountGap < now - last
  let n := pacer.busyCountAt now
  let n := if counts then min (n + 1) countMax else n
  let ends := now + wait
  { pacer with
    busyCount := n
    lastBusy := some now
    busyUntil := some (match pacer.busyUntil with
      | some current => if ends < current then current else ends
      | none => ends)
    busyRandom := draw n }

/-- Forget what left a whole window ago. -/
def prune (pacer : Pacer) (now : Nat) : Pacer :=
  { pacer with sent := pacer.sent.dropWhile fun time => window ≤ now - time }

def afterLast (pacer : Pacer) (time : Nat) : Nat :=
  match pacer.sent.getLast? with
  | some last => max time (last + minSpacing)
  | none => time

def afterOldest (pacer : Pacer) (time : Nat) : Nat :=
  match pacer.sent.head? with
  | some oldest => if maxPerSecond ≤ pacer.sent.length then max time (oldest + window) else time
  | none => time

def afterBusy (pacer : Pacer) (time : Nat) : Nat :=
  match pacer.busyUntil with
  | some ends => max time (ends + pacer.busyRandom)
  | none => time

/-- The earliest time from `now` on for the next datagram. -/
def earliest (pacer : Pacer) (now : Nat) : Nat :=
  pacer.afterBusy (pacer.afterOldest (pacer.afterLast now))

def nextSend (pacer : Pacer) (now : Nat) : Nat × Pacer :=
  let pacer := pacer.prune now
  (pacer.earliest now, pacer)

def record (pacer : Pacer) (now : Nat) : Pacer :=
  let sent := pacer.sent ++ [now]
  { pacer with sent := sent.drop (sent.length - maxPerSecond) }

end Pacer

/-- A router with the time it last looked at the clock. -/
structure Router where
  pacer : Pacer
  clock : Nat
  deriving DecidableEq, Repr

/-- A datagram of the group, a send that is told to leave at some time and leaves then or later, or
a send that the socket refuses. -/
inductive RouterMove where
  | received (now : Nat) (datagram : List UInt8) (draw : Nat → Nat)
  | send (asked left recorded : Nat) (cemi : CemiFrame)
  | sendFailed (asked : Nat)

inductive RouterEntry where
  | delivered (cemi : CemiFrame)
  | busy (now wait : Nat)
  | sent (left recorded : Nat) (datagram : List UInt8)

namespace Router

def opened (now : Nat) : Router := ⟨.empty, now⟩

def receiveLen : Nat := 1024

/-- One datagram in the loop of `recv`; what does not parse is ignored. -/
def onDatagram (router : Router) (now : Nat) (datagram : List UInt8) (draw : Nat → Nat) :
    Router × List RouterEntry :=
  let router := { router with clock := now }
  match parse (datagram.take receiveLen) with
  | .error _ => (router, [])
  | .ok parsed =>
      match parsed.service with
      | .routingIndication =>
          match parseRoutingIndication parsed.body with
          | .ok cemi => (router, [.delivered cemi])
          | .error _ => (router, [])
      | .routingBusy =>
          match parseRoutingBusy parsed.body with
          | .ok busy =>
              let wait := millis busy.waitTimeMs.toNat
              ({ router with pacer := router.pacer.onBusy now wait draw }, [.busy now wait])
          | .error _ => (router, [])
      | _ => (router, [])

def step (router : Router) : RouterMove → Router × List RouterEntry
  | .received now datagram draw => router.onDatagram now datagram draw
  | .send asked left recorded cemi =>
      (⟨(router.pacer.nextSend asked).2.record recorded, recorded⟩,
        [.sent left recorded (routingIndication cemi)])
  | .sendFailed asked => (⟨(router.pacer.nextSend asked).2, asked⟩, [])

/-- The clock never goes back, and a datagram leaves when it may or later. -/
def Timely (router : Router) : RouterMove → Prop
  | .received now _ _ => router.clock ≤ now
  | .send asked left recorded _ =>
      router.clock ≤ asked ∧ (router.pacer.nextSend asked).1 ≤ left ∧ left ≤ recorded
  | .sendFailed asked => router.clock ≤ asked

instance : ∀ (router : Router) (move : RouterMove), Decidable (Timely router move)
  | router, .received now _ _ => inferInstanceAs (Decidable (router.clock ≤ now))
  | router, .send asked left recorded _ => inferInstanceAs (Decidable (router.clock ≤ asked ∧
      (router.pacer.nextSend asked).1 ≤ left ∧ left ≤ recorded))
  | router, .sendFailed asked => inferInstanceAs (Decidable (router.clock ≤ asked))

end Router

open SlidingWindow

namespace RouterEntry

def left? : RouterEntry → Option Nat
  | .sent left _ _ => some left
  | _ => none

def recorded? : RouterEntry → Option Nat
  | .sent _ recorded _ => some recorded
  | _ => none

/-- When the congestion of a BUSY ends. -/
def busyEnd? : RouterEntry → Option Nat
  | .busy now wait => some (now + wait)
  | _ => none

end RouterEntry

/-- When the datagrams left, oldest first. -/
def leftTimes (log : List RouterEntry) : List Nat := log.filterMap RouterEntry.left?

def recordedTimes (log : List RouterEntry) : List Nat := log.filterMap RouterEntry.recorded?

theorem leftTimes_quiet {entry : RouterEntry} (log : List RouterEntry) (h : entry.left? = none) :
    leftTimes (log ++ [entry]) = leftTimes log := by
  rw [leftTimes, List.filterMap_append, List.filterMap_cons_none h, List.filterMap_nil,
    List.append_nil]
  rfl

theorem recordedTimes_quiet {entry : RouterEntry} (log : List RouterEntry)
    (h : entry.recorded? = none) : recordedTimes (log ++ [entry]) = recordedTimes log := by
  rw [recordedTimes, List.filterMap_append, List.filterMap_cons_none h, List.filterMap_nil,
    List.append_nil]
  rfl

/-- The rules of the group. -/
structure Paced (log : List RouterEntry) : Prop where
  spaced : (leftTimes log).Pairwise fun early late => early + minSpacing ≤ late
  limited : ∀ start,
    ((leftTimes log).filter fun time => start ≤ time ∧ time < start + window).length ≤ maxPerSecond
  busy : log.Pairwise fun early late => ∀ ends left,
    early.busyEnd? = some ends → late.left? = some left → ends ≤ left

namespace Pacer

variable {pacer : Pacer} {now : Nat}

theorem le_afterLast (pacer : Pacer) (time : Nat) : time ≤ pacer.afterLast time := by
  rw [afterLast]
  split <;> omega

theorem le_afterOldest (pacer : Pacer) (time : Nat) : time ≤ pacer.afterOldest time := by
  rw [afterOldest]
  split
  · split <;> omega
  · omega

theorem le_afterBusy (pacer : Pacer) (time : Nat) : time ≤ pacer.afterBusy time := by
  rw [afterBusy]
  split <;> omega

theorem le_earliest (pacer : Pacer) (now : Nat) : now ≤ pacer.earliest now :=
  calc
    now ≤ pacer.afterLast now := pacer.le_afterLast now
    _ ≤ pacer.afterOldest (pacer.afterLast now) := pacer.le_afterOldest _
    _ ≤ pacer.earliest now := pacer.le_afterBusy _

theorem spacing_le_earliest {last : Nat} (h : pacer.sent.getLast? = some last) :
    last + minSpacing ≤ pacer.earliest now :=
  calc
    last + minSpacing ≤ pacer.afterLast now := by
      rw [afterLast, h]
      exact Nat.le_max_right _ _
    _ ≤ pacer.afterOldest (pacer.afterLast now) := pacer.le_afterOldest _
    _ ≤ pacer.earliest now := pacer.le_afterBusy _

theorem window_le_earliest {oldest : Nat} (hHead : pacer.sent.head? = some oldest)
    (hFull : pacer.sent.length = maxPerSecond) : oldest + window ≤ pacer.earliest now :=
  calc
    oldest + window ≤ pacer.afterOldest (pacer.afterLast now) := by
      rw [afterOldest, hHead]
      simp only [hFull, Nat.le_refl, if_true]
      exact Nat.le_max_right _ _
    _ ≤ pacer.earliest now := pacer.le_afterBusy _

theorem busy_le_earliest {ends : Nat} (h : pacer.busyUntil = some ends) :
    ends + pacer.busyRandom ≤ pacer.earliest now := by
  rw [earliest, afterBusy, h]
  exact Nat.le_max_right _ _

/-- A BUSY is waited out at least, and never shortens another wait. -/
theorem busyUntil_onBusy (pacer : Pacer) (now wait : Nat) (draw : Nat → Nat) :
    ∃ ends, (pacer.onBusy now wait draw).busyUntil = some ends ∧ now + wait ≤ ends ∧
      ∀ current, pacer.busyUntil = some current → current ≤ ends := by
  cases hCurrent : pacer.busyUntil with
  | none =>
      refine ⟨now + wait, ?_, Nat.le_refl _, nofun⟩
      simp [onBusy, hCurrent]
  | some current =>
      refine ⟨if now + wait < current then current else now + wait, ?_, ?_, ?_⟩
      · simp [onBusy, hCurrent]
      · split <;> omega
      · intro other hOther
        cases hOther
        split <;> omega

theorem prune_sent (pacer : Pacer) (now : Nat) :
    (pacer.prune now).sent = pacer.sent.dropWhile fun time => time + window ≤ now := by
  have hSame : (fun time => decide (window ≤ now - time)) =
      fun time => decide (time + window ≤ now) := by
    funext time
    have hWindow : 0 < window := by decide
    rw [decide_eq_decide]
    omega
  rw [prune, hSame]

end Pacer

/-- What has left so far and what the pacer remembers of it. -/
structure Tracks (log : List RouterEntry) (router : Router) : Prop where
  remembers : Remembers maxPerSecond window router.clock (recordedTimes log) router.pacer.sent
  recorded : List.Forall₂ (· ≤ ·) (leftTimes log) (recordedTimes log)
  spaced : (leftTimes log).Pairwise fun early late => early + minSpacing ≤ late
  limited : Limited maxPerSecond window (leftTimes log)
  waits : ∀ entry ∈ log, ∀ ends, entry.busyEnd? = some ends →
    ∃ current, router.pacer.busyUntil = some current ∧ ends ≤ current
  busy : log.Pairwise fun early late => ∀ ends left,
    early.busyEnd? = some ends → late.left? = some left → ends ≤ left

section
variable {log : List RouterEntry} {router : Router} {now : Nat}

theorem tracks_opened (now : Nat) : Tracks [] (.opened now) where
  remembers := .start _ _ _
  recorded := .nil
  spaced := .nil
  limited := fun i early late hEarly _ => by simp [leftTimes] at hEarly
  waits := by simp
  busy := .nil

theorem Tracks.paced (h : Tracks log router) : Paced log where
  spaced := h.spaced
  limited := by
    apply count_window_le _ h.limited
    exact h.spaced.imp fun hLess => by omega
  busy := h.busy

theorem Tracks.wait (h : Tracks log router) (hLater : router.clock ≤ now) :
    Tracks log { router with clock := now } where
  remembers := h.remembers.wait hLater
  recorded := h.recorded
  spaced := h.spaced
  limited := h.limited
  waits := h.waits
  busy := h.busy

theorem Tracks.nextSend (h : Tracks log router) (hLater : router.clock ≤ now) :
    Tracks log ⟨(router.pacer.nextSend now).2, now⟩ where
  remembers := by
    rw [Pacer.nextSend, Pacer.prune_sent]
    exact (h.remembers.wait hLater).forget
  recorded := h.recorded
  spaced := h.spaced
  limited := h.limited
  waits := h.waits
  busy := h.busy

/-- Nothing is sent. -/
theorem Tracks.quiet {entry : RouterEntry} {pacer : Pacer} (h : Tracks log router)
    (hLeft : entry.left? = none) (hRecorded : entry.recorded? = none)
    (hSent : pacer.sent = router.pacer.sent)
    (hWaits : ∀ other ∈ log ++ [entry], ∀ ends, other.busyEnd? = some ends →
      ∃ current, pacer.busyUntil = some current ∧ ends ≤ current) :
    Tracks (log ++ [entry]) { router with pacer } where
  remembers := by
    rw [recordedTimes_quiet log hRecorded, hSent]
    exact h.remembers
  recorded := by
    rw [leftTimes_quiet log hLeft, recordedTimes_quiet log hRecorded]
    exact h.recorded
  spaced := by
    rw [leftTimes_quiet log hLeft]
    exact h.spaced
  limited := by
    rw [leftTimes_quiet log hLeft]
    exact h.limited
  waits := hWaits
  busy := by
    rw [List.pairwise_append]
    refine ⟨h.busy, List.pairwise_singleton _ _, fun early _ late hLate ends left _ hTime => ?_⟩
    rw [List.mem_singleton.mp hLate, hLeft] at hTime
    cases hTime

theorem Tracks.delivered (h : Tracks log router) (cemi : CemiFrame) :
    Tracks (log ++ [.delivered cemi]) router := by
  refine h.quiet rfl rfl rfl fun other hMem ends hEnds => ?_
  rcases List.mem_append.mp hMem with hBefore | hNew
  · exact h.waits other hBefore ends hEnds
  · rw [List.mem_singleton.mp hNew] at hEnds
    cases hEnds

theorem Tracks.onBusy (h : Tracks log router) (wait : Nat) (draw : Nat → Nat) :
    Tracks (log ++ [.busy now wait])
      { router with pacer := router.pacer.onBusy now wait draw } := by
  obtain ⟨current, hCurrent, hNew, hOld⟩ := router.pacer.busyUntil_onBusy now wait draw
  refine h.quiet rfl rfl rfl fun other hMem ends hEnds => ⟨current, hCurrent, ?_⟩
  rcases List.mem_append.mp hMem with hBefore | hLast
  · obtain ⟨before, hBusy, hLess⟩ := h.waits other hBefore ends hEnds
    exact Nat.le_trans hLess (hOld before hBusy)
  · rw [List.mem_singleton.mp hLast] at hEnds
    cases hEnds
    exact hNew

/-- A datagram that leaves when the pacer lets it keeps the rules. -/
theorem Tracks.sent {left recorded : Nat} (h : Tracks log router) (datagram : List UInt8)
    (hDue : router.pacer.earliest router.clock ≤ left) (hRecorded : left ≤ recorded) :
    Tracks (log ++ [.sent left recorded datagram]) ⟨router.pacer.record recorded, recorded⟩ := by
  have hNow : router.clock ≤ left := Nat.le_trans (router.pacer.le_earliest _) hDue
  have hLeft : leftTimes (log ++ [.sent left recorded datagram]) = leftTimes log ++ [left] := by
    simp [leftTimes, RouterEntry.left?]
  have hTimes : recordedTimes (log ++ [.sent left recorded datagram]) =
      recordedTimes log ++ [recorded] := by
    simp [recordedTimes, RouterEntry.recorded?]
  have hBelow {i early : Nat} (hEarly : (leftTimes log)[i]? = some early) :
      ∃ time, (recordedTimes log)[i]? = some time ∧ early ≤ time := by
    obtain ⟨hIndex, rfl⟩ := List.getElem?_eq_some_iff.mp hEarly
    have hOther : i < (recordedTimes log).length := h.recorded.length_eq ▸ hIndex
    exact ⟨_, List.getElem?_eq_getElem hOther, h.recorded.get hIndex hOther⟩
  constructor
  · rw [hTimes]
    have hKept := (h.remembers.wait (Nat.le_trans hNow hRecorded)).record
    simpa [Pacer.record] using hKept
  · rw [hTimes, hLeft]
    exact List.rel_append h.recorded (.cons hRecorded .nil)
  · rw [hLeft, List.pairwise_append]
    refine ⟨h.spaced, List.pairwise_singleton _ _, fun early hMem late hLate => ?_⟩
    rw [List.mem_singleton.mp hLate]
    obtain ⟨i, hEarly⟩ := List.mem_iff_getElem?.mp hMem
    obtain ⟨time, hTime, hLess⟩ := hBelow hEarly
    have hGap : minSpacing ≤ window := by decide
    have hAfter := h.remembers.gap_le (by decide) hNow hGap
      (fun latest hLatest => Nat.le_trans (Pacer.spacing_le_earliest hLatest) hDue)
      time (List.mem_of_getElem? hTime)
    omega
  · rw [hLeft]
    refine h.limited.concat (by decide) fun i early hEarly hIndex => ?_
    obtain ⟨time, hTime, hLess⟩ := hBelow hEarly
    have hAfter := h.remembers.window_le hNow
      (fun oldest hFull hHead => Nat.le_trans (Pacer.window_le_earliest hHead hFull) hDue)
      hTime (by rw [← h.recorded.length_eq]; exact hIndex)
    omega
  · intro entry hMem ends hEnds
    rcases List.mem_append.mp hMem with hBefore | hNew
    · exact h.waits entry hBefore ends hEnds
    · rw [List.mem_singleton.mp hNew] at hEnds
      cases hEnds
  · rw [List.pairwise_append]
    refine ⟨h.busy, List.pairwise_singleton _ _, fun early hMem late hLate ends time hEnds hTime => ?_⟩
    rw [List.mem_singleton.mp hLate] at hTime
    cases hTime
    obtain ⟨current, hCurrent, hLess⟩ := h.waits early hMem ends hEnds
    have hBusy := @Pacer.busy_le_earliest router.pacer router.clock current hCurrent
    omega

/-- Every move keeps what the log says of the clock and the queue. -/
theorem Tracks.step {move : RouterMove} (h : Tracks log router) (hTimely : router.Timely move) :
    Tracks (log ++ (router.step move).2) (router.step move).1 := by
  cases move with
  | received now datagram draw =>
      have hWait := h.wait hTimely
      simp only [Router.step, Router.onDatagram]
      split
      · rwa [List.append_nil]
      · split
        · split
          · exact hWait.delivered _
          · rwa [List.append_nil]
        · split
          · exact hWait.onBusy _ draw
          · rwa [List.append_nil]
        · rwa [List.append_nil]
  | send asked left recorded cemi =>
      obtain ⟨hClock, hDue, hRecorded⟩ := hTimely
      exact (h.nextSend hClock).sent _ hDue hRecorded
  | sendFailed asked =>
      rw [Router.step, List.append_nil]
      exact h.nextSend hTimely

/-- Whatever arrives from the group and whatever is sent when, two datagrams leave 5 ms apart, no
second holds more than 50 of them, and none leaves before the wait of an earlier ROUTING_BUSY is
over. -/
theorem router_paced (start : Nat) (moves : List RouterMove)
    (hTimely : Run.Along Router.step Router.Timely (.opened start) moves) :
    Paced (Run.outputs Router.step (.opened start) moves) := by
  have hTracks := Run.history_invariant Router.step Tracks
    (fun log router move h hStep => h.step hStep) (tracks_opened start) hTimely
  exact hTracks.paced

/-- A datagram, a ROUTING_BUSY of 100 ms, and the next datagram. -/
def congested : List RouterMove :=
  [.send 0 0 10 (.tControl ⟨0x1101⟩ ⟨0x1102⟩ 0x80),
    .received (millis 1) (Knxnet.frame .routingBusy [6, 0, 0, 100, 0, 0]) fun n => millis n,
    .send (millis 2) (millis 102) (millis 103) (.tControl ⟨0x1101⟩ ⟨0x1102⟩ 0x81)]

theorem congested_paced : Paced (Run.outputs Router.step (.opened 0) congested) :=
  router_paced 0 congested (by decide)

end

end Bussard.Transport
