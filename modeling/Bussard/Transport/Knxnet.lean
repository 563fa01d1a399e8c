import Bussard.Transport.Cemi

/-! KNXnet/IP framing: the six-octet header, and the service bodies of a
tunnelling channel. -/
namespace Bussard.Transport

open Octets Fallible

inductive ServiceType where
  | searchRequest
  | searchResponse
  | descriptionRequest
  | descriptionResponse
  | connectRequest
  | connectResponse
  | connectionstateRequest
  | connectionstateResponse
  | disconnectRequest
  | disconnectResponse
  | tunnelingRequest
  | tunnelingAck
  | routingIndication
  | routingLostMessage
  | routingBusy
  | searchRequestExtended
  | searchResponseExtended
  | tunnelingFeatureGet
  | tunnelingFeatureResponse
  | tunnelingFeatureSet
  | tunnelingFeatureInfo
  | secureWrapper
  | sessionRequest
  | sessionResponse
  | sessionAuthenticate
  | sessionStatus
  | timerNotify
  | deviceConfigurationRequest
  | deviceConfigurationAck
  deriving DecidableEq, Repr

namespace ServiceType

def toU16 : ServiceType → UInt16
  | .searchRequest => 0x0201
  | .searchResponse => 0x0202
  | .descriptionRequest => 0x0203
  | .descriptionResponse => 0x0204
  | .connectRequest => 0x0205
  | .connectResponse => 0x0206
  | .connectionstateRequest => 0x0207
  | .connectionstateResponse => 0x0208
  | .disconnectRequest => 0x0209
  | .disconnectResponse => 0x020A
  | .tunnelingRequest => 0x0420
  | .tunnelingAck => 0x0421
  | .routingIndication => 0x0530
  | .routingLostMessage => 0x0531
  | .routingBusy => 0x0532
  | .searchRequestExtended => 0x020B
  | .searchResponseExtended => 0x020C
  | .tunnelingFeatureGet => 0x0422
  | .tunnelingFeatureResponse => 0x0423
  | .tunnelingFeatureSet => 0x0424
  | .tunnelingFeatureInfo => 0x0425
  | .secureWrapper => 0x0950
  | .sessionRequest => 0x0951
  | .sessionResponse => 0x0952
  | .sessionAuthenticate => 0x0953
  | .sessionStatus => 0x0954
  | .timerNotify => 0x0955
  | .deviceConfigurationRequest => 0x0310
  | .deviceConfigurationAck => 0x0311

/-- Every service type, for reading one back from its number. -/
def all : List ServiceType :=
  [.searchRequest, .searchResponse, .descriptionRequest, .descriptionResponse, .connectRequest,
    .connectResponse, .connectionstateRequest, .connectionstateResponse, .disconnectRequest,
    .disconnectResponse, .tunnelingRequest, .tunnelingAck, .routingIndication, .routingLostMessage,
    .routingBusy, .searchRequestExtended, .searchResponseExtended, .tunnelingFeatureGet,
    .tunnelingFeatureResponse, .tunnelingFeatureSet, .tunnelingFeatureInfo, .secureWrapper,
    .sessionRequest, .sessionResponse, .sessionAuthenticate, .sessionStatus, .timerNotify,
    .deviceConfigurationRequest, .deviceConfigurationAck]

def fromU16 (v : UInt16) : Except TransportError ServiceType :=
  match all.find? (·.toU16 = v) with
  | some service => .ok service
  | none => .error (.invalidField "KNXnet/IP service type" v)

theorem fromU16_toU16 (service : ServiceType) : fromU16 service.toU16 = .ok service := by
  cases service <;> rfl

end ServiceType

namespace Knxnet

def headerLen : Nat := 6
def headerSize10 : UInt8 := 0x06
def knxnetipVersion10 : UInt8 := 0x10

/-- Wrap a body in a header. The total length is cast to 16 bits. -/
def frame (service : ServiceType) (body : List UInt8) : List UInt8 :=
  headerSize10 :: knxnetipVersion10 :: ((u16Bytes service.toU16).toList ++
    ((u16Bytes (UInt16.ofNat (headerLen + body.length))).toList ++ body))

structure ParsedFrame where
  service : ServiceType
  body : List UInt8
  deriving DecidableEq, Repr

def parse (buf : List UInt8) : Except TransportError ParsedFrame :=
  if buf.length < headerLen then .error (.truncated headerLen buf.length "KNXnet/IP header")
  else if buf.getD 0 0 ≠ headerSize10 ∨ buf.getD 1 0 ≠ knxnetipVersion10 then
    .error (.badHeader (buf.getD 0 0) (buf.getD 1 0))
  else do
    let service ← ServiceType.fromU16 (readU16 buf 2)
    let total := (readU16 buf 4).toNat
    if total > buf.length ∨ total < headerLen then
      throw (.truncated total buf.length "KNXnet/IP total length")
    else return ⟨service, (buf.take total).drop headerLen⟩

/-- An IPv4 endpoint. -/
structure SocketAddr where
  ip : List.Vector UInt8 4
  port : UInt16
  deriving DecidableEq

structure Hpai where
  addr : SocketAddr
  protocol : UInt8
  deriving DecidableEq

def hpaiLen : UInt8 := 0x08

namespace Hpai

def encode (hpai : Hpai) : List UInt8 :=
  hpaiLen :: hpai.protocol :: (hpai.addr.ip.toList ++ (u16Bytes hpai.addr.port).toList)

def decode (cur : Cursor) : Except TransportError (Hpai × Cursor) := do
  let (len, cur) ← cur.u8 "HPAI length"
  if len ≠ hpaiLen then throw (.invalidField "HPAI length" len.toUInt16) else
  let (protocol, cur) ← cur.u8 "HPAI host protocol"
  let (ip, cur) ← cur.take 4 "HPAI IPv4"
  let (port, cur) ← cur.u16 "HPAI port"
  return (⟨⟨copySlice ip 0 4, port⟩, protocol⟩, cur)

end Hpai

def connectionTypeTunnel : UInt8 := 0x04
def tunnelLinkLayer : UInt8 := 0x02

def connectRequest (control data : Hpai) : List UInt8 :=
  frame .connectRequest
    (control.encode ++ data.encode ++ [0x04, connectionTypeTunnel, tunnelLinkLayer, 0x00])

structure ConnectResponse where
  channelId : UInt8
  status : UInt8
  dataEndpoint : Option SocketAddr
  assignedIa : Option UInt16
  deriving DecidableEq

/-- The assigned address of the connection response data, if there is one. -/
def parseCrd (cur : Cursor) : Except TransportError (Option UInt16) :=
  if cur.length < 2 then return none
  else do
    let (crdLen, cur) ← cur.u8 "CRD length"
    let (connType, cur) ← cur.u8 "CRD connection type"
    if connType = connectionTypeTunnel ∧ 4 ≤ crdLen.toNat ∧ 2 ≤ cur.length then
      let (ia, _) ← cur.u16 "CRD assigned IA"
      return some ia
    else return none

def parseConnectResponse (body : List UInt8) : Except TransportError ConnectResponse := do
  let (channelId, cur) ← Cursor.u8 body "connect-response channel id"
  let (status, cur) ← cur.u8 "connect-response status"
  if status ≠ 0 then return ⟨channelId, status, none, none⟩
  else
    let (dataHpai, cur) ← Hpai.decode cur
    let assignedIa ← parseCrd cur
    return ⟨channelId, status, some dataHpai.addr, assignedIa⟩

def connectionstateRequest (channelId : UInt8) (control : Hpai) : List UInt8 :=
  frame .connectionstateRequest (channelId :: 0x00 :: control.encode)

structure ChannelStatus where
  channelId : UInt8
  status : UInt8
  deriving DecidableEq, Repr

def parseChannelStatus (body : List UInt8) : Except TransportError ChannelStatus :=
  if body.length < 2 then .error (.truncated 2 body.length "channel id + status")
  else .ok ⟨body.getD 0 0, body.getD 1 0⟩

def disconnectRequest (channelId : UInt8) (control : Hpai) : List UInt8 :=
  frame .disconnectRequest (channelId :: 0x00 :: control.encode)

def disconnectResponse (channelId status : UInt8) : List UInt8 :=
  frame .disconnectResponse [channelId, status]

def parseDisconnectRequest (body : List UInt8) : Except TransportError UInt8 :=
  match body with
  | [] => .error (.truncated 1 0 "disconnect-request channel id")
  | channel :: _ => .ok channel

structure ConnectionHeader where
  channelId : UInt8
  seq : UInt8
  deriving DecidableEq, Repr

def connectionHeaderLen : UInt8 := 0x04

namespace ConnectionHeader

def encode (header : ConnectionHeader) : List UInt8 :=
  [connectionHeaderLen, header.channelId, header.seq, 0x00]

def decode (cur : Cursor) : Except TransportError (ConnectionHeader × Cursor) := do
  let (len, cur) ← cur.u8 "connection-header length"
  if len ≠ connectionHeaderLen then
    throw (.invalidField "connection-header length" len.toUInt16)
  else
  let (channelId, cur) ← cur.u8 "connection-header channel"
  let (seq, cur) ← cur.u8 "connection-header seq"
  let (_, cur) ← cur.u8 "connection-header reserved"
  return (⟨channelId, seq⟩, cur)

end ConnectionHeader

def tunnelingRequest (header : ConnectionHeader) (cemi : CemiFrame) : List UInt8 :=
  frame .tunnelingRequest (header.encode ++ cemi.encode)

def tunnelingFeatureGet (header : ConnectionHeader) (feature : UInt8) : List UInt8 :=
  frame .tunnelingFeatureGet (header.encode ++ [feature, 0x00])

def tunnelingAck (channelId seq status : UInt8) : List UInt8 :=
  frame .tunnelingAck [connectionHeaderLen, channelId, seq, status]

/-- The connection header and the octets behind it, not decoded. -/
def parseTunnelingHeader (body : List UInt8) :
    Except TransportError (ConnectionHeader × List UInt8) := do
  let (header, cur) ← ConnectionHeader.decode body
  let (cemiBytes, _) ← cur.take cur.length "tunneling cEMI"
  return (header, cemiBytes)

/-- The length octet of the header is not looked at here. -/
def parseTunnelingAck (body : List UInt8) : Except TransportError (ConnectionHeader × UInt8) :=
  if body.length < 4 then .error (.truncated 4 body.length "tunneling ack")
  else .ok (⟨body.getD 1 0, body.getD 2 0⟩, body.getD 3 0)

/-- What `parse` makes of a well-formed header: the length field decides. -/
theorem parse_layout (service : ServiceType) (total : UInt16) (rest : List UInt8) :
    parse (headerSize10 :: knxnetipVersion10 :: ((u16Bytes service.toU16).toList ++
      ((u16Bytes total).toList ++ rest))) =
      if total.toNat > headerLen + rest.length ∨ total.toNat < headerLen then
        .error (.truncated total.toNat (headerLen + rest.length) "KNXnet/IP total length")
      else .ok ⟨service, rest.take (total.toNat - headerLen)⟩ := by
  have hService := readU16_field 2 [headerSize10, knxnetipVersion10]
    ((u16Bytes total).toList ++ rest) service.toU16 rfl
  have hTotal := readU16_field 4 ([headerSize10, knxnetipVersion10] ++
    (u16Bytes service.toU16).toList) rest total (by simp)
  simp only [List.cons_append, List.nil_append] at hService hTotal
  have hLength : (headerSize10 :: knxnetipVersion10 :: ((u16Bytes service.toU16).toList ++
      ((u16Bytes total).toList ++ rest))).length = headerLen + rest.length := by
    simp [headerLen]
    omega
  have hBody : ∀ n, ((headerSize10 :: knxnetipVersion10 :: ((u16Bytes service.toU16).toList ++
      ((u16Bytes total).toList ++ rest))).take n).drop headerLen = rest.take (n - headerLen) := by
    intro n
    rw [List.drop_take]
    rfl
  have hNotShort : ¬ headerLen + rest.length < headerLen := by omega
  rw [parse, hService, hTotal, hLength, if_neg hNotShort, if_neg (by simp)]
  simp only [ServiceType.fromU16_toU16, ok_bind, hBody, throw_eq_error, pure_eq_ok]

/-- A frame that fits its length field is read back. -/
theorem parse_frame {service : ServiceType} {body : List UInt8}
    (hFits : headerLen + body.length < 65536) : parse (frame service body) = .ok ⟨service, body⟩ := by
  have hTotal : (UInt16.ofNat (headerLen + body.length)).toNat = headerLen + body.length :=
    UInt16.toNat_ofNat_of_lt' hFits
  rw [frame, parse_layout, hTotal, if_neg (by omega), Nat.add_sub_cancel_left, List.take_length]

/-- No datagram is taken for a service it was not built for. -/
theorem service_of_parse_frame {service : ServiceType} {body : List UInt8} {parsed : ParsedFrame}
    (h : parse (frame service body) = .ok parsed) : parsed.service = service := by
  rw [frame, parse_layout] at h
  split at h
  · cases h
  · cases h
    rfl

/-- A frame cut off by the receive buffer announces more octets than there
are. -/
theorem parse_cut_frame {service : ServiceType} {body : List UInt8} {size : Nat}
    (hFits : headerLen + body.length < 65536) (hSize : headerLen ≤ size)
    (hCut : size < headerLen + body.length) :
    parse ((frame service body).take size) =
      .error (.truncated (headerLen + body.length) size "KNXnet/IP total length") := by
  have hTotal : (UInt16.ofNat (headerLen + body.length)).toNat = headerLen + body.length :=
    UInt16.toNat_ofNat_of_lt' hFits
  have hTake : (frame service body).take size = headerSize10 :: knxnetipVersion10 ::
      ((u16Bytes service.toU16).toList ++
        ((u16Bytes (UInt16.ofNat (headerLen + body.length))).toList ++
          body.take (size - headerLen))) := by
    obtain ⟨more, rfl⟩ := Nat.exists_eq_add_of_le hSize
    rw [Nat.add_sub_cancel_left]
    have hField : ∀ (v : UInt16) (n : Nat), (u16Bytes v).toList.take (more + (n + 2)) =
        (u16Bytes v).toList := fun v n => List.take_of_length_le (by simp; omega)
    simp [frame, headerLen, List.take_append, Nat.add_comm 6 more, hField _ 2, hField _ 0]
  have hLength : headerLen + (body.take (size - headerLen)).length = size := by
    rw [List.length_take]
    omega
  rw [hTake, parse_layout, hTotal, hLength, if_pos (.inl hCut)]

theorem parseTunnelingHeader_encode (header : ConnectionHeader) (payload : List UInt8) :
    parseTunnelingHeader (header.encode ++ payload) = .ok (header, payload) := by
  simp [parseTunnelingHeader, ConnectionHeader.encode, ConnectionHeader.decode, Cursor.u8,
    Cursor.take]

end Knxnet

end Bussard.Transport
