import Umqtt.Buffer
import Mathlib.Data.List.TakeWhile

/-!
# The messages of `mqtt_message.c`

A message either owns copies of its topic and payload (`mqttmessage_create`) or points to the caller's (`mqttmessage_create_in_place`).
A payload is its bytes: the code keeps `message` NULL exactly when `length` is 0. A topic is the bytes behind the pointer up to
the terminator that the one who stored them wrote; read as a C string they end at the first 0 (`cStringAt`).
-/

namespace Umqtt

/-- The C string behind a pointer to the given bytes. -/
def cStringAt (bytes : List UInt8) : CString :=
  ⟨bytes.takeWhile (· ≠ 0), fun h => by simpa using List.mem_takeWhile_imp h⟩

/-- `MQTT_MESSAGE`. -/
structure MqttMessage where
  packetId : UInt16
  qosInfo : QosValue
  topicName : Option CString
  appPayload : List UInt8
  constTopicName : Option (List UInt8)
  constPayload : List UInt8
  isDuplicateMsg : Bool
  isMessageRetained : Bool
  deriving DecidableEq

/-- `create_msg_object`: the fields that are not set are 0. -/
def createMsgObject (packetId : UInt16) (qosValue : QosValue) : Alloc MqttMessage := do
  takeMemory
  return { packetId := packetId, qosInfo := qosValue, topicName := none, appPayload := [], constTopicName := none,
           constPayload := [], isDuplicateMsg := false, isMessageRetained := false }

/-- `mqttmessage_create_in_place`. -/
def mqttmessageCreateInPlace (packetId : UInt16) (topicName : Option (List UInt8)) (qosValue : QosValue) (appMsg : List UInt8) :
    Alloc MqttMessage :=
  match topicName with
  | none => giveUp
  | some topicName => do
    let result ← createMsgObject packetId qosValue
    return { result with constTopicName := some topicName, constPayload := appMsg }

/-- `mqttmessage_create`. -/
def mqttmessageCreate (packetId : UInt16) (topicName : Option CString) (qosValue : QosValue) (appMsg : List UInt8) :
    Alloc MqttMessage :=
  match topicName with
  | none => giveUp
  | some topicName => do
    let result ← createMsgObject packetId qosValue
    takeMemory
    let result := { result with topicName := some topicName }
    if appMsg.length > 0 then do
      takeMemory
      return { result with appPayload := appMsg }
    else return result

/-- `mqttmessage_clone`. -/
def mqttmessageClone (handle : MqttMessage) : Alloc MqttMessage := do
  let result ← mqttmessageCreate handle.packetId handle.topicName handle.qosInfo handle.appPayload
  return { result with isDuplicateMsg := handle.isDuplicateMsg, isMessageRetained := handle.isMessageRetained }

/-- `mqttmessage_getPacketId`. -/
def mqttmessageGetPacketId (handle : MqttMessage) : UInt16 := handle.packetId

/-- `mqttmessage_getTopicName`: the bytes behind the pointer it returns, none for NULL. -/
def mqttmessageGetTopicName (handle : MqttMessage) : Option (List UInt8) :=
  match handle.topicName with
  | none => handle.constTopicName
  | some topicName => some topicName.val

/-- `mqttmessage_getQosType`. -/
def mqttmessageGetQosType (handle : MqttMessage) : QosValue := handle.qosInfo

/-- `mqttmessage_getIsDuplicateMsg`. -/
def mqttmessageGetIsDuplicateMsg (handle : MqttMessage) : Bool := handle.isDuplicateMsg

/-- `mqttmessage_getIsRetained`. -/
def mqttmessageGetIsRetained (handle : MqttMessage) : Bool := handle.isMessageRetained

/-- `mqttmessage_setIsDuplicateMsg`. -/
def mqttmessageSetIsDuplicateMsg (handle : MqttMessage) (duplicateMsg : Bool) : MqttMessage :=
  { handle with isDuplicateMsg := duplicateMsg }

/-- `mqttmessage_setIsRetained`. -/
def mqttmessageSetIsRetained (handle : MqttMessage) (retainMsg : Bool) : MqttMessage :=
  { handle with isMessageRetained := retainMsg }

/-- `mqttmessage_getApplicationMsg`. -/
def mqttmessageGetApplicationMsg (handle : MqttMessage) : List UInt8 :=
  if handle.constPayload.length > 0 then handle.constPayload else handle.appPayload

end Umqtt
