import Bussard.Secure.IpSecureSession
import Bussard.Transport.FrameReader

/-! The receiving end of a KNXnet/IP Secure session over TCP: frames are read from the stream, the
secure wrappers among them are opened, and what they carry is handed to the tunnel. -/
namespace Bussard.Transport

open Octets Knxnet Incremental Fallible
open Bussard.Secure
open Bussard.Secure.IpSecure (IpSecureError SessionStatus WrapperHeader peekWrapper splitFrame
  parseSessionStatus)

/-- A frame for a caller that has room for `size` octets. -/
def deliver (size : Nat) (inner : List UInt8) : Decision (List UInt8) SessionStatus :=
  if size < inner.length then .skip else .yield inner

/-- What `recv` does with the frame in a wrapper that verified. A status other than these two ends
the session. -/
def recvInner (size : Nat) (inner : List UInt8) : Decision (List UInt8) SessionStatus :=
  match parse inner with
  | .error _ => deliver size inner
  | .ok parsed => match parsed.service with
      | .sessionStatus => match parseSessionStatus inner with
          | .ok .keepAlive => .skip
          | .ok .success => .skip
          | .ok status => .stop status
          | .error _ => .skip
      | .timerNotify => .skip
      | _ => deliver size inner

/-- One turn of the loop in `recv`. Plain frames are dropped, SESSION_STATUS and TIMER_NOTIFY among
them, and so is a wrapper that does not open. -/
def recvFrame (aes : BlockCipher) (size : Nat) (session : IpSecureSession) (frame : List UInt8) :
    IpSecureSession × Decision (List UInt8) SessionStatus :=
  match parse frame with
  | .error _ => (session, .skip)
  | .ok parsed => match parsed.service with
      | .secureWrapper => match session.open aes frame with
          | (.ok inner, session) => (session, recvInner size inner)
          | (.error _, session) => (session, .skip)
      | _ => (session, .skip)

/-- One call of `recv`. -/
def recv (aes : BlockCipher) (size : Nat) (closed : Option IoKind) (session : IpSecureSession)
    (buf : List UInt8) (chunks : List Chunk) :
    Call IpSecureSession UInt8 Chunk (List UInt8) TransportError SessionStatus :=
  call FrameReader.reader Chunk.octets (recvFrame aes size) (closed.map .io) session buf chunks

section
variable {aes : BlockCipher} {session after : IpSecureSession} {frame inner : List UInt8}

theorem recvFrame_wrapper {size : Nat} {body : List UInt8}
    (hParse : parse frame = .ok ⟨.secureWrapper, body⟩) :
    recvFrame aes size session frame = match session.open aes frame with
      | (.ok inner, session) => (session, recvInner size inner)
      | (.error _, session) => (session, .skip) := by
  rw [recvFrame, hParse]

theorem recvFrame_plain {size : Nat} (hParse : ∀ body, parse frame ≠ .ok ⟨.secureWrapper, body⟩) :
    recvFrame aes size session frame = (session, .skip) := by
  unfold recvFrame
  cases hFrame : parse frame with
  | error error => rfl
  | ok parsed =>
      obtain ⟨service, body⟩ := parsed
      cases service with
      | secureWrapper => exact absurd hFrame (hParse body)
      | _ => rfl

end

/-- What is put on the stream: a frame the gateway seals, a wrapper it sealed before, or a frame of
anyone's. -/
inductive Traffic where
  | sealed (payload : List UInt8)
  | repeated (index : Nat)
  | foreign (frame : List UInt8)

/-- The gateway's end: what it sealed so far, with the wrappers, and the frames on the stream. -/
structure Gateway where
  session : IpSecureSession
  payloads : List (List UInt8)
  wrappers : List (List UInt8)
  frames : List (List UInt8)

namespace Gateway

def start (key : Key16) (sessionId : UInt16) (serial : List.Vector UInt8 6) : Gateway :=
  ⟨.new key sessionId serial, [], [], []⟩

def write (aes : BlockCipher) (gateway : Gateway) : Traffic → Gateway
  | .sealed payload =>
      match gateway.session.seal aes payload with
      | (.ok frame, session) =>
          ⟨session, gateway.payloads ++ [payload], gateway.wrappers ++ [frame],
            gateway.frames ++ [frame]⟩
      | (.error _, session) => { gateway with session }
  | .repeated index =>
      { gateway with frames := gateway.frames ++ gateway.wrappers[index]?.toList }
  | .foreign frame => { gateway with frames := gateway.frames ++ [frame] }

end Gateway

/-- A sealed payload is a KNXnet/IP frame. A foreign frame is one too, and does not verify. -/
def Traffic.Admissible (aes : BlockCipher) (key : Key16) : Traffic → Prop
  | .sealed payload => headerLen ≤ payload.length
  | .repeated _ => True
  | .foreign frame => WellFramed frame ∧ ∃ error, IpSecure.unwrap aes key frame = .error error

/-- What the tunnel makes of the frames the gateway sealed. -/
def recvInners (size : Nat) (payloads : List (List UInt8)) :
    List (List UInt8) × (Unit ⊕ SessionStatus) :=
  scan (fun _ inner => ((), recvInner size inner)) () payloads

/-- A wrapper the gateway sealed: it carries its place and opens to its payload. -/
structure Genuine (aes : BlockCipher) (key : Key16) (sessionId : UInt16) (index : Nat)
    (payload frame : List UInt8) : Prop where
  framed : WellFramed frame
  parsed : ∃ body, parse frame = .ok ⟨.secureWrapper, body⟩
  opens : ∃ header, peekWrapper frame = .ok header ∧ header.sequence = index ∧
    header.sessionId = sessionId ∧ IpSecure.unwrap aes key frame = .ok (header, payload)

/-- A frame states its own length. -/
theorem wellFramed_frame {service : ServiceType} {body : List UInt8}
    (hFits : headerLen + body.length < 65536) : WellFramed (frame service body) where
  size := rfl
  version := rfl
  header := by
    simp [frame, headerLen]
    omega
  total := by
    have hField := readU16_field 4 ([headerSize10, knxnetipVersion10] ++
      (u16Bytes service.toU16).toList) body (UInt16.ofNat (headerLen + body.length)) (by simp)
    have hFrame : frame service body = ([headerSize10, knxnetipVersion10] ++
        (u16Bytes service.toU16).toList) ++
          ((u16Bytes (UInt16.ofNat (headerLen + body.length))).toList ++ body) := by
      simp [frame]
    rw [hFrame, hField, UInt16.toNat_ofNat_of_lt' hFits]
    simp [headerLen]
    omega

/-- What `wrap` returns is a wrapper of that sequence number and payload. -/
theorem genuine_of_wrap {aes : BlockCipher} {key : Key16} {sessionId : UInt16} {sequence : Nat}
    {serial : List.Vector UInt8 6} {payload wrapper : List UInt8}
    (hSequence : sequence ≤ maxSequence) (hMin : headerLen ≤ payload.length)
    (hWrap : IpSecure.wrap aes key sessionId sequence serial 0 payload = .ok wrapper) :
    Genuine aes key sessionId sequence payload wrapper := by
  obtain ⟨hMax, body, hBody, hLayout⟩ := IpSecure.wrap_layout hWrap
  have hFits : headerLen + body.length < 65536 := by
    have hHeader : headerLen = IpSecure.headerLen := rfl
    omega
  have hFrame : wrapper = frame .secureWrapper body := by
    have hField : beBytes 2 (headerLen + body.length) =
        (u16Bytes (UInt16.ofNat (headerLen + body.length))).toList := by
      rw [u16Bytes, beVector_toList, UInt16.toNat_ofNat_of_lt' hFits]
    rw [hLayout, frame, ← hField]
    rfl
  obtain ⟨other, hOther, hPeek, hUnwrap⟩ :=
    IpSecure.unwrap_wrap aes key sessionId serial 0 hSequence hMin hMax
  cases hWrap.symm.trans hOther
  exact ⟨hFrame ▸ wellFramed_frame hFits, ⟨body, hFrame ▸ parse_frame hFits⟩,
    _, hPeek, rfl, rfl, hUnwrap⟩

section
variable {aes : BlockCipher} {size : Nat} {key : Key16} {sessionId : UInt16}
variable {serial : List.Vector UInt8 6} {gateway : Gateway} {next : Nat}

/-- The receiving session after `next` sealed frames. -/
def heard (key : Key16) (sessionId : UInt16) (serial : List.Vector UInt8 6) (next : Nat) :
    IpSecureSession :=
  { IpSecureSession.new key sessionId serial with rxNext := next }

theorem Genuine.recvFrame_next {payload frame : List UInt8}
    (h : Genuine aes key sessionId next payload frame) (hRoom : next ≤ maxSequence) :
    recvFrame aes size (heard key sessionId serial next) frame =
      (heard key sessionId serial (next + 1), recvInner size payload) := by
  obtain ⟨body, hParse⟩ := h.parsed
  obtain ⟨header, hPeek, hSequence, hSession, hUnwrap⟩ := h.opens
  have hOpen := SecureLink.open_of_verified (heard key sessionId serial next) hPeek hSession hUnwrap
  have hSucc : saturatingAdd next 1 = next + 1 := by
    rw [maxSequence] at hRoom
    rw [saturatingAdd, Nat.min_eq_left]
    rw [u64Max]
    omega
  have hNew : ¬ next < (heard key sessionId serial next).rxNext := Nat.lt_irrefl next
  rw [recvFrame_wrapper hParse, hOpen, hSequence, if_neg hNew, hSucc]
  rfl

theorem Genuine.recvFrame_old {payload frame : List UInt8} {index : Nat}
    (h : Genuine aes key sessionId index payload frame) (hOld : index < next) :
    recvFrame aes size (heard key sessionId serial next) frame =
      (heard key sessionId serial next, .skip) := by
  obtain ⟨body, hParse⟩ := h.parsed
  obtain ⟨header, hPeek, hSequence, hSession, hUnwrap⟩ := h.opens
  have hOpen := SecureLink.open_of_verified (heard key sessionId serial next) hPeek hSession hUnwrap
  have hBelow : index < (heard key sessionId serial next).rxNext := hOld
  rw [recvFrame_wrapper hParse, hOpen, hSequence, if_pos hBelow]

theorem recvFrame_foreign {frame : List UInt8} {error : IpSecureError}
    (h : IpSecure.unwrap aes key frame = .error error) :
    recvFrame aes size (heard key sessionId serial next) frame =
      (heard key sessionId serial next, .skip) := by
  by_cases hParse : ∃ body, parse frame = .ok ⟨.secureWrapper, body⟩
  · obtain ⟨body, hParse⟩ := hParse
    obtain ⟨reason, hOpen⟩ := @SecureLink.open_of_unverified aes
      (heard key sessionId serial next) frame error h
    rw [recvFrame_wrapper hParse, hOpen]
  · exact recvFrame_plain (not_exists.mp hParse)

/-- Where the receiver is after the frames on the stream: what the tunnel makes of the sealed
payloads has been returned, and the next wrapper is awaited unless one of them ended the session. -/
def Follows (aes : BlockCipher) (size : Nat) (key : Key16) (sessionId : UInt16)
    (serial : List.Vector UInt8 6) (frames payloads : List (List UInt8)) : Prop :=
  scan (recvFrame aes size) (heard key sessionId serial 0) frames =
    ((recvInners size payloads).1,
      (recvInners size payloads).2.map (fun _ => heard key sessionId serial payloads.length) id)

variable {frames payloads : List (List UInt8)}

theorem Follows.dropped (h : Follows aes size key sessionId serial frames payloads)
    {frame : List UInt8}
    (hFrame : recvFrame aes size (heard key sessionId serial payloads.length) frame =
      (heard key sessionId serial payloads.length, .skip)) :
    Follows aes size key sessionId serial (frames ++ [frame]) payloads := by
  unfold Follows at h ⊢
  rw [scan_append, h]
  rcases recvInners size payloads with ⟨values, reached⟩
  cases reached with
  | inr status => rfl
  | inl reached => simp [scan, hFrame]

theorem Follows.opened (h : Follows aes size key sessionId serial frames payloads)
    {payload frame : List UInt8}
    (hFrame : recvFrame aes size (heard key sessionId serial payloads.length) frame =
      (heard key sessionId serial (payloads.length + 1), recvInner size payload)) :
    Follows aes size key sessionId serial (frames ++ [frame]) (payloads ++ [payload]) := by
  unfold Follows at h ⊢
  unfold recvInners at h ⊢
  rw [scan_append, scan_append, h, List.length_append, List.length_singleton]
  rcases scan (fun _ inner => ((), recvInner size inner)) () payloads with ⟨values, reached⟩
  cases reached with
  | inr status => rfl
  | inl reached => cases hInner : recvInner size payload <;> simp [scan, hFrame, hInner]

/-- What holds between the two ends, whatever was written. -/
structure Heard (aes : BlockCipher) (size : Nat) (key : Key16) (sessionId : UInt16)
    (serial : List.Vector UInt8 6) (gateway : Gateway) : Prop where
  shared : gateway.session.key = key
  session : gateway.session.sessionId = sessionId
  sent : gateway.session.txSeq = gateway.payloads.length
  count : gateway.wrappers.length = gateway.payloads.length
  genuine : ∀ index frame, gateway.wrappers[index]? = some frame →
    ∃ payload, Genuine aes key sessionId index payload frame
  framed : ∀ frame ∈ gateway.frames, WellFramed frame
  follows : Follows aes size key sessionId serial gateway.frames gateway.payloads

/-- The gateway's next wrapper carries a higher sequence number than those before. -/
theorem Heard.sealed (h : Heard aes size key sessionId serial gateway) {payload : List UInt8}
    (hMin : headerLen ≤ payload.length) :
    Heard aes size key sessionId serial (gateway.write aes (.sealed payload)) := by
  rw [Gateway.write, IpSecureSession.seal]
  by_cases hFull : maxSequence < gateway.session.txSeq
  · rw [if_pos hFull]
    exact ⟨h.shared, h.session, h.sent, h.count, h.genuine, h.framed, h.follows⟩
  rw [if_neg hFull]
  cases hWrap : IpSecure.wrap aes gateway.session.key gateway.session.sessionId
      gateway.session.txSeq gateway.session.serial 0 payload with
  | error error => exact ⟨h.shared, h.session, h.sent, h.count, h.genuine, h.framed, h.follows⟩
  | ok frame =>
      have hRoom : gateway.payloads.length ≤ maxSequence := h.sent ▸ Nat.not_lt.mp hFull
      have hGenuine : Genuine aes key sessionId gateway.payloads.length payload frame := by
        rw [h.shared, h.session, h.sent] at hWrap
        exact genuine_of_wrap hRoom hMin hWrap
      refine ⟨h.shared, h.session, ?_, ?_, ?_, ?_, h.follows.opened (hGenuine.recvFrame_next hRoom)⟩
      · simp [h.sent]
      · simp [h.count]
      · intro index other hOther
        rcases Nat.lt_or_ge index gateway.wrappers.length with hOld | hLast
        · rw [List.getElem?_append_left hOld] at hOther
          exact h.genuine index other hOther
        · have hIndex : index = gateway.wrappers.length := by
            have hShort := (List.getElem?_eq_some_iff.mp hOther).1
            rw [List.length_append, List.length_singleton] at hShort
            omega
          rw [hIndex, List.getElem?_concat_length] at hOther
          cases hOther
          rw [hIndex, h.count]
          exact ⟨payload, hGenuine⟩
      · intro other hOther
        rcases List.mem_append.mp hOther with hEarlier | hLast
        · exact h.framed other hEarlier
        · rw [List.mem_singleton.mp hLast]
          exact hGenuine.framed

theorem Heard.dropped (h : Heard aes size key sessionId serial gateway) {frame : List UInt8}
    (hFramed : WellFramed frame)
    (hFrame : recvFrame aes size (heard key sessionId serial gateway.payloads.length) frame =
      (heard key sessionId serial gateway.payloads.length, .skip)) :
    Heard aes size key sessionId serial
      { gateway with frames := gateway.frames ++ [frame] } := by
  refine ⟨h.shared, h.session, h.sent, h.count, h.genuine, ?_, h.follows.dropped hFrame⟩
  intro other hOther
  rcases List.mem_append.mp hOther with hEarlier | hLast
  · exact h.framed other hEarlier
  · rw [List.mem_singleton.mp hLast]
    exact hFramed

/-- What the gateway writes keeps its sequence numbers rising. -/
theorem Heard.write (h : Heard aes size key sessionId serial gateway) {traffic : Traffic}
    (hTraffic : traffic.Admissible aes key) :
    Heard aes size key sessionId serial (gateway.write aes traffic) := by
  cases traffic with
  | sealed payload => exact h.sealed hTraffic
  | foreign frame =>
      obtain ⟨hFramed, error, hUnwrap⟩ := hTraffic
      exact h.dropped hFramed (recvFrame_foreign hUnwrap)
  | repeated index =>
      rw [Gateway.write]
      cases hWrapper : gateway.wrappers[index]? with
      | none =>
          rw [Option.toList_none, List.append_nil]
          exact h
      | some frame =>
          obtain ⟨payload, hGenuine⟩ := h.genuine index frame hWrapper
          have hOld := (List.getElem?_eq_some_iff.mp hWrapper).1
          exact h.dropped hGenuine.framed (hGenuine.recvFrame_old (h.count ▸ hOld))

theorem Heard.start (aes : BlockCipher) (size : Nat) (key : Key16) (sessionId : UInt16)
    (gatewaySerial serial : List.Vector UInt8 6) :
    Heard aes size key sessionId serial (.start key sessionId gatewaySerial) where
  shared := rfl
  session := rfl
  sent := rfl
  count := rfl
  genuine := by simp [Gateway.start]
  framed := by simp [Gateway.start]
  follows := rfl

end

end Bussard.Transport
