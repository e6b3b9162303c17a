import Mathlib.Data.List.Basic

/-!
# The constants and records of `mqttconst.h`

Enumerations keep the source's enumerators, and `toByte` is the value an enumerator has when the code stores it in a byte. A C
string is its bytes before the terminator, none of which is 0 (`CString`), so that `strlen` is the length of the list. The option
`log_trace` and the trace logs are left out: no modelled function reads them.
-/

namespace Umqtt

/-- The result of a function that returns an `int`: zero, or `MU_FAILURE`, which is not zero. -/
inductive MuResult where
  | zero | muFailure
  deriving DecidableEq, Repr

/-- `CONTROL_PACKET_TYPE`. -/
inductive ControlPacketType where
  | controlPacketTypeInvalid
  | connectType | connackType | publishType | pubackType | pubrecType | pubrelType | pubcompType
  | subscribeType | subackType | unsubscribeType | unsubackType | pingreqType | pingrespType | disconnectType
  | packetTypeError | unknownType | packetInvalid1Type | packetInvalid2Type
  deriving DecidableEq, Repr

/-- The enumerator as the code stores it in a byte, `(uint8_t)packetType`. -/
def ControlPacketType.toByte : ControlPacketType → UInt8
  | .controlPacketTypeInvalid => 0xFF
  | .connectType => 0x10
  | .connackType => 0x20
  | .publishType => 0x30
  | .pubackType => 0x40
  | .pubrecType => 0x50
  | .pubrelType => 0x60
  | .pubcompType => 0x70
  | .subscribeType => 0x80
  | .subackType => 0x90
  | .unsubscribeType => 0xA0
  | .unsubackType => 0xB0
  | .pingreqType => 0xC0
  | .pingrespType => 0xD0
  | .disconnectType => 0xE0
  | .packetTypeError => 0xE1
  | .unknownType => 0xE2
  | .packetInvalid1Type => 0x00
  | .packetInvalid2Type => 0xF0

/-- `QOS_VALUE`. -/
inductive QosValue where
  | qosValueInvalid | deliverAtMostOnce | deliverAtLeastOnce | deliverExactlyOnce | deliverFailure
  deriving DecidableEq, Repr

/-- The enumerator as the code stores it in a byte. -/
def QosValue.toByte : QosValue → UInt8
  | .qosValueInvalid => 0xFF
  | .deliverAtMostOnce => 0x00
  | .deliverAtLeastOnce => 0x01
  | .deliverExactlyOnce => 0x02
  | .deliverFailure => 0x80

/-- `CONNECT_RETURN_CODE`. -/
inductive ConnectReturnCode where
  | connectionAccepted | connRefusedUnacceptableVersion | connRefusedIdRejected | connRefusedServerUnavail
  | connRefusedBadUsernamePassword | connRefusedNotAuthorized | connRefusedUnknown
  deriving DecidableEq, Repr

/-- A C string: its bytes before the terminator. -/
abbrev CString : Type := { bytes : List UInt8 // 0 ∉ bytes }

/-- `strlen`. -/
def strlen (s : CString) : Nat := s.val.length

/-- `strlen` of a pointer that may be NULL, as `constructConnPayload` takes it: 0 for NULL. -/
def strlenOpt : Option CString → Nat
  | none => 0
  | some s => strlen s

/-- The bytes a pointer that may be NULL leads to: none for NULL. -/
def bytesOpt : Option CString → List UInt8
  | none => []
  | some s => s.val

/-- `MQTT_CLIENT_OPTIONS`. -/
structure MqttClientOptions where
  clientId : Option CString
  willTopic : Option CString
  willMessage : Option CString
  username : Option CString
  password : Option CString
  keepAliveInterval : UInt16
  messageRetain : Bool
  useCleanSession : Bool
  qualityOfServiceValue : QosValue
  deriving DecidableEq

/-- `CONNECT_ACK`. -/
structure ConnectAck where
  isSessionPresent : Bool
  returnCode : ConnectReturnCode
  deriving DecidableEq, Repr

/-- `SUBSCRIBE_PAYLOAD`. -/
structure SubscribePayload where
  subscribeTopic : CString
  qosReturn : QosValue
  deriving DecidableEq

/-- `SUBSCRIBE_ACK`: `qosCount` is the length of the list. -/
structure SubscribeAck where
  packetId : UInt16
  qosReturn : List QosValue
  deriving DecidableEq, Repr

/-- `USHRT_MAX`. -/
def ushrtMax : Nat := 65535

/-- `SIZE_MAX`, for a `size_t` of 64 bits. -/
def sizeMax : Nat := 0xFFFFFFFFFFFFFFFF

end Umqtt
