import Umqtt.Client.Receive

/-!
# The functions of the client

The functions that the application calls, on a handle that is not NULL, and the runs they make up: any sequence of calls by the
application and of callbacks by the xio (`Call`, `run`). `mqtt_client_deinit`, which ends a client, is left out.
-/

namespace Umqtt

/-- `DEFAULT_MAX_PING_RESPONSE_TIME`. -/
def defaultMaxPingResponseTime : UInt16 := 80

/-- `mqtt_client_init`, as to the client it makes, before it has been called; `fnOnErrorCallBack` is whether the application gives
an error callback, and `heap` answers the codec. -/
def mqttClientInit (fnOnErrorCallBack : Bool) (env : Env) (heap : Heap) : World :=
  { inst := mqttCodecCreate
    heap := heap
    callContext :=
      { client :=
          { xioHandle := none, packetState := .unknownType, packetSendTimeMs := 0, fnOnErrorCallBack := fnOnErrorCallBack,
            disconnectCb := none, qosValue := .deliverAtMostOnce, keepAliveInterval := 0,
            mqttOptions :=
              { clientId := none, willTopic := none, willMessage := none, username := none, password := none,
                keepAliveInterval := 0, messageRetain := false, useCleanSession := false,
                qualityOfServiceValue := .deliverAtMostOnce },
            mqttStatus := { clientConnected := false, socketConnected := false, pendingClose := false },
            timeSincePing := 0, maxPingRespTime := defaultMaxPingResponseTime }
        env := env
        history := [] } }

/-! ## Options -/

/-- `clear_mqtt_options`. -/
def clearMqttOptions (s : Session) : Session :=
  { s with client := { s.client with mqttOptions := { s.client.mqttOptions with
      clientId := none, willTopic := none, willMessage := none, username := none, password := none } } }

/-- The part of `cloneMqttOptions` about one string: the string that is stored after it. -/
def cloneOption (option stored : Option CString) : Alloc (Option CString) :=
  match option with
  | none => return stored
  | some option => do
    takeMemory
    return some option

/-- The options that `cloneMqttOptions` stores. -/
def clonedOptions (mqttOptions stored : MqttClientOptions) : Alloc MqttClientOptions := do
  let clientId ← cloneOption mqttOptions.clientId stored.clientId
  let willTopic ← cloneOption mqttOptions.willTopic stored.willTopic
  let willMessage ← cloneOption mqttOptions.willMessage stored.willMessage
  let username ← cloneOption mqttOptions.username stored.username
  let password ← cloneOption mqttOptions.password stored.password
  return { clientId := clientId, willTopic := willTopic, willMessage := willMessage, username := username, password := password,
           keepAliveInterval := mqttOptions.keepAliveInterval, messageRetain := mqttOptions.messageRetain,
           useCleanSession := mqttOptions.useCleanSession, qualityOfServiceValue := mqttOptions.qualityOfServiceValue }

/-- `cloneMqttOptions`. The copies stored before a failure are cleared with the others. -/
def cloneMqttOptions (s : Session) (mqttOptions : MqttClientOptions) : Session × MuResult :=
  match s.alloc (clonedOptions mqttOptions s.client.mqttOptions) with
  | (none, s) => (clearMqttOptions s, .muFailure)
  | (some stored, s) => ({ s with client := { s.client with mqttOptions := stored } }, .zero)

/-! ## The functions -/

/-- What `mqtt_client_connect` sets before it copies the options. -/
def beginConnect (s : Session) (xioHandle : XioHandle) (mqttOptions : MqttClientOptions) : Session :=
  { s with client := { s.client with
      xioHandle := some xioHandle
      packetState := .unknownType
      qosValue := mqttOptions.qualityOfServiceValue
      keepAliveInterval := mqttOptions.keepAliveInterval
      maxPingRespTime :=
        if defaultMaxPingResponseTime < mqttOptions.keepAliveInterval / 2 then defaultMaxPingResponseTime
        else mqttOptions.keepAliveInterval / 2
      timeSincePing := 0 } }

/-- `mqtt_client_clear_xio`. -/
def mqttClientClearXio (s : Session) : Session :=
  let s := s.log .clearXio
  { s with client := { s.client with xioHandle := none } }

section

variable (dispatch : List IoEvent → Session → Session)

/-- `mqtt_client_connect`. -/
def mqttClientConnect (s : Session) (xioHandle : Option XioHandle) (mqttOptions : Option MqttClientOptions) : Session × MuResult :=
  match xioHandle, mqttOptions with
  | some xioHandle, some mqttOptions =>
    let s := beginConnect (s.log (.connect xioHandle mqttOptions)) xioHandle mqttOptions
    let (s, result) := cloneMqttOptions s mqttOptions
    if result ≠ .zero then (s.log (.connectReturns .muFailure), .muFailure)
    else
      let (s, result) := xioOpen dispatch s xioHandle
      if result ≠ .zero then
        ((clearMqttOptions { s with client := { s.client with xioHandle := none } }).log (.connectReturns .muFailure), .muFailure)
      else (s.log (.connectReturns .zero), .zero)
  | _, _ => (s, .muFailure)

/-- Send a packet that the application asked for: `packetState` is its type while it is sent. -/
def sendRequest (s : Session) (packetState : ControlPacketType) (packet : Alloc Buffer) : Session × MuResult :=
  match s.alloc packet with
  | (none, s) => (s, .muFailure)
  | (some packet, s) => sendPacketItem dispatch { s with client := { s.client with packetState := packetState } } packet

/-- `mqtt_client_publish`. -/
def mqttClientPublish (s : Session) (msgHandle : Option MqttMessage) : Session × MuResult :=
  match msgHandle with
  | none => (s, .muFailure)
  | some msgHandle =>
    sendRequest dispatch s .publishType
      (mqttCodecPublish (mqttmessageGetQosType msgHandle) (mqttmessageGetIsDuplicateMsg msgHandle)
        (mqttmessageGetIsRetained msgHandle) (mqttmessageGetPacketId msgHandle)
        ((mqttmessageGetTopicName msgHandle).map cStringAt) (mqttmessageGetApplicationMsg msgHandle))

/-- `mqtt_client_subscribe`: an empty list stands for `subscribeList == NULL` and for `count == 0`. -/
def mqttClientSubscribe (s : Session) (packetId : UInt16) (subscribeList : List SubscribePayload) : Session × MuResult :=
  if subscribeList = [] ∨ packetId = 0 then (s, .muFailure)
  else sendRequest dispatch s .subscribeType (mqttCodecSubscribe packetId subscribeList)

/-- `mqtt_client_unsubscribe`: an empty list stands for `unsubscribeList == NULL` and for `count == 0`. -/
def mqttClientUnsubscribe (s : Session) (packetId : UInt16) (unsubscribeList : List CString) : Session × MuResult :=
  if unsubscribeList = [] ∨ packetId = 0 then (s, .muFailure)
  else sendRequest dispatch s .unsubscribeType (mqttCodecUnsubscribe packetId unsubscribeList)

/-- `mqtt_client_send_message_response`. -/
def mqttClientSendMessageResponse (s : Session) (packetId : UInt16) (qosValue : QosValue) : Session × MuResult :=
  if packetId = 0 then (s, .muFailure) else (sendMessageAck dispatch s packetId qosValue, .zero)

/-- `mqtt_client_disconnect`. -/
def mqttClientDisconnect (s : Session) (callback : Option DisconnectedCallback) : Session × MuResult :=
  let s := s.log (.disconnect callback)
  if s.client.mqttStatus.clientConnected then
    match s.alloc mqttCodecDisconnect with
    | (none, s) => (clearMqttOptions { s with client := { s.client with packetState := .packetTypeError } }, .muFailure)
    | (some disconnectPacket, s) =>
      let s := { s with client := { s.client with disconnectCb := callback, packetState := .disconnectType } }
      let (s, result) := sendPacketItem dispatch s disconnectPacket
      (clearMqttOptions s, result)
  else
    let s := { s with client := { s.client with disconnectCb := callback } }
    (clearMqttOptions (closeConnection dispatch s), .zero)

/-- What `mqtt_client_dowork` resets when a ping is not answered or not sent. -/
def resetPing (s : Session) : Session :=
  { s with client := { s.client with timeSincePing := 0, packetSendTimeMs := 0, packetState := .unknownType } }

/-- The part of `mqtt_client_dowork` that sends a PINGREQ, once it is due. -/
def sendPing (s : Session) : Session :=
  match s.alloc mqttCodecPing with
  | (none, s) => s
  | (some pingPacket, s) =>
    let (s, sendResult) := sendPacketItem dispatch s pingPacket
    if sendResult ≠ .zero then setErrorCallback dispatch (resetPing s) .communicationError
    else
      match s.askClock with
      | (none, s) => s
      | (some currentMs, s) => { s with client := { s.client with timeSincePing := currentMs } }

/-- The keep-alive part of `mqtt_client_dowork`. -/
def keepAlive (s : Session) : Session :=
  if s.client.mqttStatus.socketConnected ∧ s.client.mqttStatus.clientConnected ∧ s.client.keepAliveInterval > 0 then
    match s.askClock with
    | (none, s) => s
    | (some currentMs, s) =>
      if s.client.timeSincePing > 0 ∧ (currentMs - s.client.timeSincePing) / 1000 > s.client.maxPingRespTime.toUInt64 then
        resetPing (setErrorCallback dispatch s .noPingResponse)
      else if (currentMs - s.client.packetSendTimeMs) / 1000 ≥ s.client.keepAliveInterval.toUInt64 then sendPing dispatch s
      else s
  else s

/-- What the xio does when it is at work: it calls back, or hands over bytes. -/
inductive WorkEvent where
  | io (e : IoEvent)
  | bytes (buffer : Option (List UInt8))

/-- The client's part in it. -/
def handleWork (w : World) : WorkEvent → World
  | .io e => { w with callContext := handleEvent dispatch w.callContext e }
  | .bytes buffer => onBytesReceived dispatch w buffer

/-- `mqtt_client_dowork`; `events` is what the xio does in its `xio_dowork`. -/
def mqttClientDowork (w : World) (events : List WorkEvent) : World :=
  if w.callContext.client.xioHandle.isNone then w
  else if w.callContext.client.mqttStatus.pendingClose then
    { w with callContext := (closeConnection dispatch w.callContext).setStatus fun status => { status with pendingClose := false } }
  else
    let w := { w with callContext := w.callContext.log (.xioDowork w.callContext.client.xioHandle) }
    let w := events.foldl (handleWork dispatch) w
    { w with callContext := keepAlive dispatch w.callContext }

end

/-! ## Runs -/

/-- A call of one of the functions by the application, or of one of the client's callbacks by an xio between two of them. -/
inductive Call where
  | connect (xioHandle : Option XioHandle) (mqttOptions : Option MqttClientOptions)
  | publish (msgHandle : Option MqttMessage)
  | subscribe (packetId : UInt16) (subscribeList : List SubscribePayload)
  | unsubscribe (packetId : UInt16) (unsubscribeList : List CString)
  | sendMessageResponse (packetId : UInt16) (qosValue : QosValue)
  | disconnect (callback : Option DisconnectedCallback)
  | dowork (events : List WorkEvent)
  | clearXio
  | xio (event : WorkEvent)

/-- `mqtt_client_connect` is called with arguments that are not NULL. -/
def Call.connects : Call → Bool
  | .connect (some _) (some _) => true
  | _ => false

/-- The call is neither `mqtt_client_connect` with arguments that are not NULL nor `mqtt_client_disconnect`. -/
def Call.keepsOptions : Call → Bool
  | .connect (some _) (some _) | .disconnect _ => false
  | _ => true

/-- A call that the codec has no part in. -/
def sessionCall (depth : Nat) (s : Session) : Call → Session
  | .connect xioHandle mqttOptions => (mqttClientConnect (deliver depth) s xioHandle mqttOptions).1
  | .publish msgHandle => (mqttClientPublish (deliver depth) s msgHandle).1
  | .subscribe packetId subscribeList => (mqttClientSubscribe (deliver depth) s packetId subscribeList).1
  | .unsubscribe packetId unsubscribeList => (mqttClientUnsubscribe (deliver depth) s packetId unsubscribeList).1
  | .sendMessageResponse packetId qosValue => (mqttClientSendMessageResponse (deliver depth) s packetId qosValue).1
  | .disconnect callback => (mqttClientDisconnect (deliver depth) s callback).1
  | .clearXio => mqttClientClearXio s
  | .dowork _ | .xio _ => s

/-- What a call does, with callbacks nested to the given depth. -/
def runCall (depth : Nat) (w : World) : Call → World
  | .dowork events => mqttClientDowork (deliver depth) w events
  | .xio event => handleWork (deliver depth) w event
  | call => { w with callContext := sessionCall depth w.callContext call }

/-- What the function of a call returns, zero for one that returns nothing. -/
def callResult (depth : Nat) (w : World) : Call → MuResult
  | .connect xioHandle mqttOptions => (mqttClientConnect (deliver depth) w.callContext xioHandle mqttOptions).2
  | .publish msgHandle => (mqttClientPublish (deliver depth) w.callContext msgHandle).2
  | .subscribe packetId subscribeList => (mqttClientSubscribe (deliver depth) w.callContext packetId subscribeList).2
  | .unsubscribe packetId unsubscribeList => (mqttClientUnsubscribe (deliver depth) w.callContext packetId unsubscribeList).2
  | .sendMessageResponse packetId qosValue => (mqttClientSendMessageResponse (deliver depth) w.callContext packetId qosValue).2
  | .disconnect callback => (mqttClientDisconnect (deliver depth) w.callContext callback).2
  | .dowork _ | .clearXio | .xio _ => .zero

/-- A run: one call after another. -/
def run (depth : Nat) (w : World) (calls : List Call) : World := calls.foldl (runCall depth) w

/-- The calls of a run, each with what it returns. -/
def results (depth : Nat) : World → List Call → List (Call × MuResult)
  | _, [] => []
  | w, call :: calls => (call, callResult depth w call) :: results depth (runCall depth w call) calls

/-- Every call of a run is made in a world that meets a condition. -/
def RunMeets (P : World → Call → Prop) (depth : Nat) : World → List Call → Prop
  | _, [] => True
  | w, call :: calls => P w call ∧ RunMeets P depth (runCall depth w call) calls

theorem runMeets_of_forall {P : Call → Prop} {depth : Nat} {w : World} {calls : List Call} (h : ∀ call ∈ calls, P call) :
    RunMeets (fun _ call => P call) depth w calls := by
  induction calls generalizing w with
  | nil => trivial
  | cons call calls ih => exact ⟨h call List.mem_cons_self, ih fun c hc => h c (List.mem_cons_of_mem _ hc)⟩

theorem runMeets_append {P : World → Call → Prop} {depth : Nat} {w : World} {calls more : List Call} :
    RunMeets P depth w (calls ++ more) ↔ RunMeets P depth w calls ∧ RunMeets P depth (run depth w calls) more := by
  induction calls generalizing w with
  | nil => exact (true_and _).symm.to_iff
  | cons call calls ih =>
    rw [List.cons_append, RunMeets, RunMeets, ih, and_assoc]
    rfl

instance decidableRunMeets (P : World → Call → Prop) [∀ w call, Decidable (P w call)] (depth : Nat) :
    (w : World) → (calls : List Call) → Decidable (RunMeets P depth w calls)
  | _, [] => inferInstanceAs (Decidable True)
  | w, call :: calls =>
    have := decidableRunMeets P depth (runCall depth w call) calls
    inferInstanceAs (Decidable (P w call ∧ RunMeets P depth (runCall depth w call) calls))

end Umqtt
