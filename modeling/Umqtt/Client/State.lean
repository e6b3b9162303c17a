import Umqtt.Decode
import Umqtt.Message

/-!
# The client of `mqtt_client.c`: its state and its surroundings

`MqttClient` is `MQTT_CLIENT`. The codec lives beside it (`Codec`), the callbacks `fnOperationCallback` and `fnMessageRecv`, which
`mqtt_client_init` requires, are the entries they leave in the history, and the trace logs with `mqtt_flags` are left out.

The surroundings of the client are the xio, the tick counter, the allocator and the application. What they answer is read from an
`Env`, one answer a call. They also call back: an `IoEvent` is a call of `onOpenComplete`, `onIoError`, `sendComplete` or
`on_connection_closed`, and every call into the xio may make such calls before it returns (`Env.sync`).

Two things that can happen are left out. Bytes arrive between calls and inside the `xio_dowork` of `mqtt_client_dowork`, not inside that
of `close_connection`. The application's callbacks make no calls of the client's functions, as those of the repository's sample do.

Everything that passes between the client and its surroundings is kept in order in a history of `Action`s.
-/

namespace Umqtt

/-! ## What passes between the client and its surroundings -/

/-- `XIO_HANDLE`, when it is not NULL. -/
abbrev XioHandle : Type := Nat

/-- `ON_MQTT_DISCONNECTED_CALLBACK` with its context, when it is not NULL. -/
abbrev DisconnectedCallback : Type := Nat

/-- `IO_OPEN_RESULT`. -/
inductive IoOpenResult where
  | ioOpenOk | ioOpenError | ioOpenCancelled
  deriving DecidableEq, Repr

/-- `IO_SEND_RESULT`. -/
inductive IoSendResult where
  | ioSendOk | ioSendError | ioSendCancelled
  deriving DecidableEq, Repr

/-- A call of one of the callbacks that the client gives to an xio, bytes apart. -/
inductive IoEvent where
  | openComplete (openResult : IoOpenResult)
  | ioError
  | sendComplete (sendResult : IoSendResult)
  | closeComplete
  deriving DecidableEq, Repr

/-- `MQTT_CLIENT_EVENT_ERROR`. -/
inductive MqttClientEventError where
  | connectionError | parseError | memoryError | communicationError | noPingResponse | unknownError
  deriving DecidableEq, Repr

/-- `MQTT_CLIENT_EVENT_RESULT` with the `msgInfo` it comes with. -/
inductive MqttClientEventResult where
  | onConnack (connack : ConnectAck)
  | onPublishAck (packetId : UInt16)
  | onPublishRecv (packetId : UInt16)
  | onPublishRel (packetId : UInt16)
  | onPublishComp (packetId : UInt16)
  | onSubscribeAck (suback : SubscribeAck)
  | onUnsubscribeAck (packetId : UInt16)
  | onPingResponse
  | onDisconnect
  deriving DecidableEq, Repr

/-- `MQTT_CLIENT_ACK_OPTION`. -/
inductive MqttClientAckOption where
  | ackSync | ackAsync | ackNone
  deriving DecidableEq, Repr

/-- An entry of the history. -/
inductive Action where
  /-- `mqtt_client_connect` is called, with arguments that are not NULL. -/
  | connect (xioHandle : XioHandle) (mqttOptions : MqttClientOptions)
  /-- `mqtt_client_connect` returns. -/
  | connectReturns (result : MuResult)
  /-- `mqtt_client_disconnect` is called. -/
  | disconnect (callback : Option DisconnectedCallback)
  /-- `mqtt_client_clear_xio` is called. -/
  | clearXio
  /-- The xio calls back. -/
  | event (e : IoEvent)
  /-- `onBytesReceived` is called. -/
  | bytesReceived (buffer : Option (List UInt8))
  /-- `recvCompleteCallback` is called. -/
  | packet (packet : ControlPacketType) (flags : UInt8) (headerData : Option Buffer)
  /-- `xio_open` is called, and its result. -/
  | xioOpen (xioHandle : XioHandle) (result : MuResult)
  /-- `xio_send` is called with a packet, and its result: zero when it accepts the packet. -/
  | xioSend (xioHandle : Option XioHandle) (packet : Buffer) (result : MuResult)
  /-- `sendPacketItem` returns. -/
  | sendReturns (result : MuResult)
  /-- `xio_close` is called. -/
  | xioClose (xioHandle : Option XioHandle)
  /-- `xio_dowork` is called. -/
  | xioDowork (xioHandle : Option XioHandle)
  /-- `tickcounter_get_current_ms` is called, and the time it gives, none when it fails. -/
  | clock (currentMs : Option UInt64)
  /-- `mqtt_codec_connect` returns in `onOpenComplete`. -/
  | connPacket (packet : Option Buffer)
  /-- `fnOperationCallback` is called. -/
  | operation (actionResult : MqttClientEventResult)
  /-- `fnMessageRecv` is called, and what it returns. -/
  | messageRecv (message : MqttMessage) (ack : MqttClientAckOption)
  /-- `set_error_callback` is called. -/
  | setErrorCallback (errorType : MqttClientEventError)
  /-- `fnOnErrorCallBack` is called. -/
  | onError (errorType : MqttClientEventError)
  /-- `disconnect_cb` is called. -/
  | disconnected (callback : DisconnectedCallback)
  deriving DecidableEq

/-! ## The client -/

/-- The bits of `mqtt_status`. -/
structure MqttStatus where
  clientConnected : Bool
  socketConnected : Bool
  pendingClose : Bool
  deriving DecidableEq, Repr

/-- `MQTT_CLIENT`; `fnOnErrorCallBack` is whether the pointer is set. -/
structure MqttClient where
  xioHandle : Option XioHandle
  packetState : ControlPacketType
  packetSendTimeMs : UInt64
  fnOnErrorCallBack : Bool
  disconnectCb : Option DisconnectedCallback
  qosValue : QosValue
  keepAliveInterval : UInt16
  mqttOptions : MqttClientOptions
  mqttStatus : MqttStatus
  timeSincePing : UInt64
  maxPingRespTime : UInt16
  deriving DecidableEq

/-- The answers the surroundings will give, one a call: the allocator, `xio_send`, `xio_open`, the tick counter, `fnMessageRecv`,
and the callbacks made before a call into the xio returns. -/
structure Env where
  heap : Heap
  send : Stream' MuResult
  openResult : Stream' MuResult
  clock : Stream' (Option UInt64)
  ack : Stream' MqttClientAckOption
  sync : Stream' (List IoEvent)

/-- Surroundings in which every call succeeds and nothing calls back before a call returns. -/
def calmEnv : Env :=
  { heap := okHeap, send := Stream'.const .zero, openResult := Stream'.const .zero, clock := Stream'.const (some 0),
    ack := Stream'.const .ackSync, sync := Stream'.const [] }

/-- The client, the answers its surroundings will give, and what has passed between them. -/
structure Session where
  client : MqttClient
  env : Env
  history : List Action

/-- The client with its codec, whose callback is `recvCompleteCallback`. -/
abbrev World : Type := Codec Session

namespace Session

/-- Add an entry to the history. -/
def log (s : Session) (a : Action) : Session := { s with history := s.history ++ [a] }

/-- Change the bits of `mqtt_status`. -/
def setStatus (s : Session) (f : MqttStatus → MqttStatus) : Session :=
  { s with client := { s.client with mqttStatus := f s.client.mqttStatus } }

/-- Run a computation that takes memory. -/
def alloc {α : Type} (s : Session) (m : Alloc α) : Option α × Session :=
  let (result, heap) := m.answer s.env.heap
  (result, { s with env := { s.env with heap := heap } })

/-- The next answer of `fnMessageRecv`. -/
def askAck (s : Session) : MqttClientAckOption × Session :=
  (s.env.ack.head, { s with env := { s.env with ack := s.env.ack.tail } })

/-- `tickcounter_get_current_ms`. -/
def askClock (s : Session) : Option UInt64 × Session :=
  (s.env.clock.head, { s with env := { s.env with clock := s.env.clock.tail } }.log (.clock s.env.clock.head))

end Session

/-! ## The xio

`dispatch` is what calls of the callbacks do to the session. -/

section

variable (dispatch : List IoEvent → Session → Session)

/-- The callbacks made before a call into the xio returns. -/
def callBack (s : Session) : Session :=
  dispatch s.env.sync.head { s with env := { s.env with sync := s.env.sync.tail } }

/-- `xio_send` on the client's xio. -/
def xioSend (s : Session) (packet : Buffer) : Session × MuResult :=
  let result := s.env.send.head
  let s := { s with env := { s.env with send := s.env.send.tail } }.log (.xioSend s.client.xioHandle packet result)
  (callBack dispatch s, result)

/-- `xio_open`. -/
def xioOpen (s : Session) (xioHandle : XioHandle) : Session × MuResult :=
  let result := s.env.openResult.head
  let s := { s with env := { s.env with openResult := s.env.openResult.tail } }.log (.xioOpen xioHandle result)
  (callBack dispatch s, result)

/-- `xio_close` on the client's xio. -/
def xioClose (s : Session) : Session := callBack dispatch (s.log (.xioClose s.client.xioHandle))

/-- `xio_dowork` on the client's xio, as `close_connection` calls it. -/
def xioDowork (s : Session) : Session := callBack dispatch (s.log (.xioDowork s.client.xioHandle))

end

end Umqtt
