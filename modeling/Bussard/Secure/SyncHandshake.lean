import Bussard.Secure.AsduRoundTrip
import Bussard.Secure.SessionReplay

/-! The S-A_Sync handshake between a tool session and a device session with
the same key, followed by one data frame in each direction. -/
namespace Bussard.Secure.DataSecureSession

open Octets

/-- The control field alone decides which path a secured frame takes. -/
theorem unwrap_by_service (aes : BlockCipher) (session : DataSecureSession)
    (addr : TpAddressing) {asdu : List UInt8} {scf : Scf}
    (hShort : ¬ asdu.length < 1 + seqLen + tpMacLen)
    (hScf : Scf.fromByte (asdu.headD 0) = .ok scf) :
    session.unwrap aes addr aSecureData asdu =
      match scf.service with
      | .syncRes => session.applySyncResponse aes addr asdu
      | .syncReq => (.error (.unexpectedService scf.toByte), session)
      | .data => session.unwrapData aes addr asdu := by
  cases asdu with
  | nil => simp [seqLen] at hShort
  | cons octet rest =>
      have hHead : Scf.fromByte octet = .ok scf := by simpa using hScf
      cases hService : scf.service <;> simp [unwrap, hHead, hService]

theorem fresh_iff {session : DataSecureSession} {source : UInt16} {last seq : Sequence}
    (h : session.lastSeen source = some last) :
    session.Fresh source seq ↔ last.value < seq.value := by
  simp [Fresh, h]

/-- A wrapped frame reaches a receiver with the same key intact. It is accepted
exactly when its number is fresh there. -/
theorem unwrap_wrap (aes : BlockCipher) (sender receiver : DataSecureSession)
    (addr : TpAddressing) {apci : UInt16} {data : List UInt8}
    (hKey : receiver.toolKey = sender.toolKey) (hApci : apci < 0x400)
    (hData : data.length ≤ 253) :
    ∃ asdu, sender.wrap aes addr apci data =
        (.ok ⟨aSecureData, asdu, sender.sendSeq⟩,
          { sender with sendSeq := sender.sendSeq.next }) ∧
      (receiver.Fresh addr.source sender.sendSeq →
        receiver.unwrap aes addr aSecureData asdu = (.ok (.secured apci data),
          { receiver with
            lastSeen := Function.update receiver.lastSeen addr.source (some sender.sendSeq) })) ∧
      (¬ receiver.Fresh addr.source sender.sendSeq →
        ∃ error, receiver.unwrap aes addr aSecureData asdu = (.error error, receiver)) := by
  obtain ⟨asdu, hEncode, hDecode⟩ := Asdu.decode_encode aes sender.toolKey
    (.toolData sender.algorithm) sender.sendSeq addr rfl hApci hData
  obtain ⟨hShort, hScf, -⟩ := Asdu.decode_header hDecode
  have hPath : receiver.unwrap aes addr aSecureData asdu = receiver.unwrapData aes addr asdu :=
    receiver.unwrap_by_service aes addr hShort hScf
  refine ⟨asdu, by simp [wrap, hEncode], ?_, ?_⟩
  · intro hFresh
    rw [hPath, unwrapData, hKey, hDecode]
    cases hLast : receiver.lastSeen addr.source with
    | none => rfl
    | some last => simp [Nat.not_le.mpr (hFresh last hLast)]
  · intro hStale
    rw [hPath, unwrapData, hKey, hDecode]
    cases hLast : receiver.lastSeen addr.source with
    | none => exact absurd (by simp [Fresh, hLast]) hStale
    | some last =>
        have hLe : sender.sendSeq.value ≤ last.value := by simpa [Fresh, hLast] using hStale
        simp [hLe]

/-- The device's answer to a genuine request verifies against the challenge. -/
theorem answerSyncRequest_ok (aes : BlockCipher) {device : DataSecureSession}
    {reqAddr : TpAddressing} (resAddr : TpAddressing) (nonce : List.Vector UInt8 6)
    {request : List UInt8} {scf : Scf} {req : Asdu.SyncRequest}
    (hRequest : Asdu.decodeSyncReq aes device.toolKey request reqAddr = .ok (scf, req)) :
    let stored := (device.lastSeen reqAddr.source).elim (req.sequence.value - 1)
      fun last => max last.value (req.sequence.value - 1)
    ∃ answer, device.answerSyncRequest aes reqAddr request resAddr nonce =
        (.ok (aSecureData, answer),
          { device with
            lastSeen := Function.update device.lastSeen reqAddr.source (some (.new stored)) }) ∧
      Asdu.decodeSyncRes aes device.toolKey answer resAddr req.challenge =
        .ok ⟨device.sendSeq, (Sequence.new stored).next⟩ := by
  intro stored
  obtain ⟨answer, hEncode, hDecode⟩ := Asdu.decodeSyncRes_encodeSyncRes aes device.toolKey
    (.toolSync .syncRes) ⟨device.sendSeq, (Sequence.new stored).next⟩ req.challenge
    (.fromBytes nonce) resAddr rfl
  refine ⟨answer, ?_, hDecode⟩
  simp only [answerSyncRequest, hRequest]
  rw [hEncode]

/-- A verified answer to the outstanding request sets both counters. -/
theorem unwrap_syncRes (aes : BlockCipher) (tool : DataSecureSession) {addr : TpAddressing}
    {challenge : Asdu.Challenge} {answer : List UInt8} {res : Asdu.SyncResponse}
    (hPending : tool.sync = .pending challenge)
    (hAnswer : Asdu.decodeSyncRes aes tool.toolKey answer addr challenge = .ok res)
    (hRaise : tool.sendSeq.value ≤ res.requesterSequence.value) :
    tool.unwrap aes addr aSecureData answer =
      (.ok (.synced res.responderSequence res.requesterSequence),
        { tool with
          sendSeq := res.requesterSequence
          lastSeen := Function.update tool.lastSeen addr.source
            (some (.new (res.responderSequence.value - 1)))
          sync := .done }) := by
  obtain ⟨hShort, scf, hScf, hService⟩ := Asdu.decodeSyncRes_header hAnswer
  have hSend : (if tool.sendSeq.value < res.requesterSequence.value then res.requesterSequence
      else tool.sendSeq) = res.requesterSequence := by
    split_ifs with hLess
    · rfl
    · exact Sequence.ext (Nat.le_antisymm hRaise (Nat.not_lt.mp hLess))
  rw [tool.unwrap_by_service aes addr hShort hScf, hService]
  simp only [applySyncResponse, hPending, hAnswer, hSend]

end Bussard.Secure.DataSecureSession

namespace Bussard.Secure

/-- One handshake and the two data frames after it. Both frames of one party
come from one source address and have encodable contents. -/
structure Handshake where
  reqAddr : TpAddressing
  resAddr : TpAddressing
  toolAddr : TpAddressing
  deviceAddr : TpAddressing
  challenge : Asdu.Challenge
  nonce : List.Vector UInt8 6
  toolApci : UInt16
  toolData : List UInt8
  deviceApci : UInt16
  deviceData : List UInt8
  tool_source : toolAddr.source = reqAddr.source
  device_source : deviceAddr.source = resAddr.source
  toolApci_lt : toolApci < 0x400
  toolData_le : toolData.length ≤ 253
  deviceApci_lt : deviceApci < 0x400
  deviceData_le : deviceData.length ≤ 253

namespace Handshake

open DataSecureSession

/-- How far the handshake got. -/
structure Outcome where
  toolSynced : Bool
  deviceAccepts : Bool
  toolAccepts : Bool
  deriving DecidableEq

def Outcome.complete (outcome : Outcome) : Bool :=
  outcome.toolSynced && outcome.deviceAccepts && outcome.toolAccepts

/-- Deliver the request, the answer, the tool's next data frame and the
device's next data frame, in this order. -/
def deliver (aes : BlockCipher) (x : Handshake) (tool device : DataSecureSession) : Outcome :=
  let (request, tool) := tool.syncRequestWithChallenge aes x.reqAddr x.challenge
  let (answer, device) :=
    device.answerSyncRequest aes x.reqAddr (sentAsdu (·.asdu) request) x.resAddr x.nonce
  let (_, tool) := tool.unwrap aes x.resAddr aSecureData (sentAsdu (·.2) answer)
  let toolSynced := tool.isSynced
  let (toolFrame, tool) := tool.wrap aes x.toolAddr x.toolApci x.toolData
  let (toolOutcome, device) :=
    device.unwrap aes x.toolAddr aSecureData (sentAsdu (·.asdu) toolFrame)
  let (deviceFrame, _) := device.wrap aes x.deviceAddr x.deviceApci x.deviceData
  let (deviceOutcome, _) :=
    tool.unwrap aes x.deviceAddr aSecureData (sentAsdu (·.asdu) deviceFrame)
  ⟨toolSynced, toolOutcome.toOption = some (.secured x.toolApci x.toolData),
    deviceOutcome.toOption = some (.secured x.deviceApci x.deviceData)⟩

/-- What the two sync frames do: the device stores a floor that the tool's new
send sequence is one above, the tool stores the floor below the device's. -/
theorem sync_frames (aes : BlockCipher) (x : Handshake) {tool device : DataSecureSession}
    (hKey : device.toolKey = tool.toolKey) (hTool : tool.sendSeq.value < maxSequence)
    (hTable : ∀ last, device.lastSeen x.reqAddr.source = some last → last.value < maxSequence) :
    ∃ request answer stored, stored < maxSequence ∧
      tool.syncRequestWithChallenge aes x.reqAddr x.challenge =
        (.ok ⟨aSecureData, request, tool.sendSeq⟩,
          { tool with sync := .pending x.challenge }) ∧
      device.answerSyncRequest aes x.reqAddr request x.resAddr x.nonce =
        (.ok (aSecureData, answer),
          { device with
            lastSeen := Function.update device.lastSeen x.reqAddr.source (some (.new stored)) }) ∧
      { tool with sync := .pending x.challenge }.unwrap aes x.resAddr aSecureData answer =
        (.ok (.synced device.sendSeq (Sequence.new stored).next),
          { tool with
            sendSeq := (Sequence.new stored).next
            lastSeen := Function.update tool.lastSeen x.resAddr.source
              (some (.new (device.sendSeq.value - 1)))
            sync := .done }) := by
  obtain ⟨request, hEncode, hRequest⟩ := Asdu.decodeSyncReq_encodeSyncReq aes tool.toolKey
    (.toolSync .syncReq) ⟨tool.sendSeq, .replicate 6 0, x.challenge⟩ x.reqAddr rfl
  rw [← hKey] at hRequest
  obtain ⟨answer, hAnswer, hDecode⟩ := answerSyncRequest_ok aes x.resAddr x.nonce hRequest
  let stored := (device.lastSeen x.reqAddr.source).elim (tool.sendSeq.value - 1)
    fun last => max last.value (tool.sendSeq.value - 1)
  have hStored : stored < maxSequence ∧ tool.sendSeq.value ≤ stored + 1 := by
    cases hLast : device.lastSeen x.reqAddr.source with
    | none =>
        simp only [stored, hLast, Option.elim_none]
        omega
    | some last =>
        have hBound := hTable last hLast
        simp only [stored, hLast, Option.elim_some]
        omega
  have hValue : (Sequence.new stored).value = stored := Sequence.value_new_of_le hStored.1.le
  have hNext : (Sequence.new stored).next.value = stored + 1 := by
    rw [Sequence.value_next_of_lt (hValue.symm ▸ hStored.1), hValue]
  refine ⟨request, answer, stored, hStored.1, ?_, hAnswer, ?_⟩
  · simp only [syncRequestWithChallenge, hEncode]
  · rw [hKey] at hDecode
    exact unwrap_syncRes aes { tool with sync := .pending x.challenge } rfl hDecode
      (hNext.symm ▸ hStored.2)

/-- What the two data frames do once each party has a floor for the other. -/
theorem data_frames (aes : BlockCipher) (x : Handshake) (tool device : DataSecureSession)
    {toolFloor deviceFloor : Sequence} (hKey : device.toolKey = tool.toolKey)
    (hDeviceFloor : device.lastSeen x.toolAddr.source = some deviceFloor)
    (hToolFloor : tool.lastSeen x.deviceAddr.source = some toolFloor)
    (hBelow : deviceFloor.value < tool.sendSeq.value) :
    ∃ toolFrame deviceFrame accepting sent,
      tool.wrap aes x.toolAddr x.toolApci x.toolData =
        (.ok ⟨aSecureData, toolFrame, tool.sendSeq⟩,
          { tool with sendSeq := tool.sendSeq.next }) ∧
      device.unwrap aes x.toolAddr aSecureData toolFrame =
        (.ok (.secured x.toolApci x.toolData), accepting) ∧
      accepting.wrap aes x.deviceAddr x.deviceApci x.deviceData =
        (.ok ⟨aSecureData, deviceFrame, device.sendSeq⟩, sent) ∧
      (({ tool with sendSeq := tool.sendSeq.next }.unwrap aes x.deviceAddr aSecureData
          deviceFrame).1.toOption = some (.secured x.deviceApci x.deviceData) ↔
        toolFloor.value < device.sendSeq.value) := by
  obtain ⟨toolFrame, hToolFrame, hAccepted, -⟩ := unwrap_wrap aes tool device x.toolAddr
    hKey x.toolApci_lt x.toolData_le
  let accepting := { device with
    lastSeen := Function.update device.lastSeen x.toolAddr.source (some tool.sendSeq) }
  let waiting := { tool with sendSeq := tool.sendSeq.next }
  obtain ⟨deviceFrame, hDeviceFrame, hFresh, hStale⟩ := unwrap_wrap aes accepting waiting
    x.deviceAddr hKey.symm x.deviceApci_lt x.deviceData_le
  have hIff : waiting.Fresh x.deviceAddr.source accepting.sendSeq ↔
      toolFloor.value < device.sendSeq.value := fresh_iff hToolFloor
  refine ⟨toolFrame, deviceFrame, accepting, _, hToolFrame,
    hAccepted ((fresh_iff hDeviceFloor).mpr hBelow), hDeviceFrame, ?_⟩
  rw [← hIff]
  by_cases h : waiting.Fresh x.deviceAddr.source accepting.sendSeq
  · have hUnwrap := hFresh h
    simp only [waiting] at hUnwrap
    simp [hUnwrap, h, Except.toOption]
  · obtain ⟨error, hUnwrap⟩ := hStale h
    simp only [waiting] at hUnwrap
    simp [hUnwrap, h, Except.toOption]

/-- The handshake completes exactly when the device's send sequence is not
zero: for zero the floor one below saturates and refuses the frame it was meant
to let through. -/
theorem deliver_complete_iff (aes : BlockCipher) (x : Handshake)
    (tool device : DataSecureSession) (hKey : device.toolKey = tool.toolKey)
    (hTool : tool.sendSeq.value < maxSequence)
    (hTable : ∀ last, device.lastSeen x.reqAddr.source = some last → last.value < maxSequence) :
    (x.deliver aes tool device).complete = true ↔ device.sendSeq.value ≠ 0 := by
  obtain ⟨request, answer, stored, hStored, hRequest, hAnswer, hSynced⟩ :=
    x.sync_frames aes hKey hTool hTable
  let synced := { tool with
    sendSeq := (Sequence.new stored).next
    lastSeen := Function.update tool.lastSeen x.resAddr.source
      (some (.new (device.sendSeq.value - 1)))
    sync := .done }
  let raised := { device with
    lastSeen := Function.update device.lastSeen x.reqAddr.source (some (.new stored)) }
  have hStoredValue : (Sequence.new stored).value = stored :=
    Sequence.value_new_of_le hStored.le
  have hFloorValue : (Sequence.new (device.sendSeq.value - 1)).value = device.sendSeq.value - 1 :=
    Sequence.value_new_of_le ((Nat.sub_le _ _).trans device.sendSeq.le_max)
  have hDeviceFloor : raised.lastSeen x.toolAddr.source = some (.new stored) := by
    rw [x.tool_source]
    exact Function.update_self ..
  have hToolFloor : synced.lastSeen x.deviceAddr.source =
      some (.new (device.sendSeq.value - 1)) := by
    rw [x.device_source]
    exact Function.update_self ..
  have hBelow : (Sequence.new stored).value < synced.sendSeq.value := by
    rw [Sequence.value_next_of_lt (hStoredValue.symm ▸ hStored)]
    exact Nat.lt_succ_self _
  obtain ⟨toolFrame, deviceFrame, accepting, sent, hToolFrame, hAccepted, hDeviceFrame, hIff⟩ :=
    x.data_frames aes synced raised hKey hDeviceFloor hToolFloor hBelow
  simp only [synced, raised, hFloorValue] at hToolFrame hAccepted hIff
  simp only [deliver, hRequest, sentAsdu, Except.toOption, Option.elim_some, hAnswer, hSynced,
    hToolFrame, hAccepted, hDeviceFrame, Outcome.complete, isSynced, decide_true, Bool.true_and,
    decide_eq_true_eq] at hIff ⊢
  rw [hIff]
  omega

/-- A tool at 1.1.1 and a device at 1.1.5, one property read and its answer. -/
def propertyRead : Handshake where
  reqAddr := ⟨0x1101, 0x1105, false, 0, 0x40⟩
  resAddr := ⟨0x1105, 0x1101, false, 0, 0x40⟩
  toolAddr := ⟨0x1101, 0x1105, false, 0, 0x44⟩
  deviceAddr := ⟨0x1105, 0x1101, false, 0, 0x44⟩
  challenge := .replicate 6 0x5A
  nonce := .replicate 6 0x11
  toolApci := 0x3D5
  toolData := [0x00, 0x0B, 0x10, 0x01]
  deviceApci := 0x3D6
  deviceData := [0x00, 0x0B, 0x10, 0x01, 0x42]
  tool_source := rfl
  device_source := rfl
  toolApci_lt := by decide
  toolData_le := by decide
  deviceApci_lt := by decide
  deviceData_le := by decide

theorem deliver_complete_iff_fifty :
    (propertyRead.deliver (fun _ block => block) (.new (.replicate 16 0x24) (.new 500))
      (.new (.replicate 16 0x24) (.new 50))).complete = true := by
  have hTable : ∀ last, (DataSecureSession.new (.replicate 16 0x24) (.new 50)).lastSeen
      propertyRead.reqAddr.source = some last → last.value < maxSequence := by
    simp [DataSecureSession.new]
  rw [deliver_complete_iff _ propertyRead (.new (.replicate 16 0x24) (.new 500))
    (.new (.replicate 16 0x24) (.new 50)) rfl (by decide) hTable]
  decide

/-- A device whose counter starts at zero: the tool is synced and its own frame
is accepted, but the device's next frame is refused. -/
theorem deliver_incomplete_at_zero :
    propertyRead.deliver (fun _ block => block) (.new (.replicate 16 0x24) (.new 500))
      (.new (.replicate 16 0x24) (.new 0)) = ⟨true, true, false⟩ := by
  decide

end Handshake

end Bussard.Secure
