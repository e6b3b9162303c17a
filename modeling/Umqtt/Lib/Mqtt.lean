import Umqtt.Lib.Reader

/-!
# A reference decoder for MQTT 3.1.1

What the packets that a client sends with fields of their own mean, read as the protocol lays them out: the type and the flags in one
byte, the remaining length in at most four, and then a variable header and a payload that fill exactly the bytes announced. Strings
and numbers of 16 bits have the high byte first, and the fields of a CONNECT are those that its flags announce.
-/

namespace Mqtt

open Reader

/-! ## The parts -/

/-- A number of two bytes, the high byte first. -/
def uint16 : Reader UInt8 UInt16 := do
  let high ← next
  let low ← next
  return high.toUInt16 * 256 + low.toUInt16

/-- A string, its length before it. -/
def string : Reader UInt8 (List UInt8) := do
  let len ← uint16
  take len.toNat

/-- A remaining length: seven bits a byte, the least significant first, and a mark on every byte but the last. -/
def remainingLength : Nat → Reader UInt8 Nat
  | 0 => failure
  | rounds + 1 => do
    let digit ← next
    if digit &&& 0x80 = 0 then return digit.toNat
    else return (digit &&& 0x7F).toNat + 128 * (← remainingLength rounds)

/-- The first byte of a packet and the bytes that its remaining length announces. -/
def packet : Reader UInt8 (UInt8 × List UInt8) := do
  let first ← next
  let len ← remainingLength 4
  let body ← take len
  return (first, body)

/-- The body of a packet, read as the first byte says, with nothing left over. -/
def decode {β : Type} (first : UInt8) (body : Reader UInt8 β) (bytes : List UInt8) : Option β := do
  let p ← whole packet bytes
  if p.1 = first then whole body p.2 else none

/-! ## The packets -/

/-- A CONNECT: the fields of its variable header, its flags one by one, and the strings. -/
structure Connect where
  protocolName : List UInt8
  protocolLevel : UInt8
  usernameFlag : Bool
  passwordFlag : Bool
  willRetain : Bool
  willQos : UInt8
  willFlag : Bool
  cleanSession : Bool
  reserved : Bool
  keepAlive : UInt16
  clientId : List UInt8
  willTopic : Option (List UInt8)
  willMessage : Option (List UInt8)
  username : Option (List UInt8)
  password : Option (List UInt8)
  deriving DecidableEq

/-- The body of a CONNECT. -/
def connect : Reader UInt8 Connect := do
  let protocolName ← string
  let protocolLevel ← next
  let flags ← next
  let usernameFlag := decide (flags &&& 0x80 ≠ 0)
  let passwordFlag := decide (flags &&& 0x40 ≠ 0)
  let willFlag := decide (flags &&& 0x04 ≠ 0)
  let keepAlive ← uint16
  let clientId ← string
  let willTopic ← optional willFlag string
  let willMessage ← optional willFlag string
  let username ← optional usernameFlag string
  let password ← optional passwordFlag string
  return {
    protocolName, protocolLevel, usernameFlag, passwordFlag, willFlag, keepAlive, clientId, willTopic, willMessage, username, password
    willRetain := decide (flags &&& 0x20 ≠ 0)
    willQos := (flags >>> 3) &&& 3
    cleanSession := decide (flags &&& 0x02 ≠ 0)
    reserved := decide (flags &&& 0x01 ≠ 0) }

/-- A topic with the quality of service asked for, which is 0, 1 or 2. -/
def topicRequest : Reader UInt8 (List UInt8 × UInt8) := do
  let topic ← string
  let qos ← next
  check (qos ≤ 2)
  return (topic, qos)

/-- The body of a SUBSCRIBE: the packet id and the topics. -/
def subscribe : Reader UInt8 (UInt16 × List (List UInt8 × UInt8)) := do
  let packetId ← uint16
  let topics ← untilEnd topicRequest
  return (packetId, topics)

/-- The body of an UNSUBSCRIBE: the packet id and the topics. -/
def unsubscribe : Reader UInt8 (UInt16 × List (List UInt8)) := do
  let packetId ← uint16
  let topics ← untilEnd string
  return (packetId, topics)

def decodeConnect (bytes : List UInt8) : Option Connect := decode 0x10 connect bytes

def decodeSubscribe (bytes : List UInt8) : Option (UInt16 × List (List UInt8 × UInt8)) := decode 0x82 subscribe bytes

def decodeUnsubscribe (bytes : List UInt8) : Option (UInt16 × List (List UInt8)) := decode 0xA2 unsubscribe bytes

end Mqtt
