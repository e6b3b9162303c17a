import Umqtt.Client.State

/-!
# The callbacks of the xio

What `mqtt_client.c` does when an xio calls back, except with bytes. Any of these functions may call into the xio, which may call
back before it returns; `dispatch` is what such calls do, and `deliver` ties the knot: `deliver depth` handles calls that are
nested at most `depth` deep. A real run nests to some depth, so what holds for every `depth` holds for every run.
-/

namespace Umqtt

/-- `MAX_CLOSE_RETRIES`. -/
def maxCloseRetries : Nat := 20

/-- Call `disconnect_cb`, if it is set. -/
def callDisconnectCb (s : Session) : Session :=
  match s.client.disconnectCb with
  | none => s
  | some callback => s.log (.disconnected callback)

/-- Call `fnOnErrorCallBack`, if it is set. -/
def callOnError (s : Session) (errorType : MqttClientEventError) : Session :=
  if s.client.fnOnErrorCallBack then s.log (.onError errorType) else s

/-- `mqtt_status |= MQTT_STATUS_PENDING_CLOSE`. -/
def Session.setPendingClose (s : Session) : Session := s.setStatus fun status => { status with pendingClose := true }

/-- What `onOpenComplete` sets before it builds the CONNECT packet. -/
def beginOpen (s : Session) : Session :=
  { s with client := { s.client with
      packetState := .connectType, mqttStatus := { s.client.mqttStatus with socketConnected := true } } }

/-- `on_connection_closed`. -/
def onConnectionClosed (s : Session) : Session :=
  callDisconnectCb ((s.log (.event .closeComplete)).setStatus fun status => { status with socketConnected := false })

section

variable (dispatch : List IoEvent → Session → Session)

/-- The `do`/`while` loop of `close_connection`, with the number of rounds that are left. -/
def closeLoop : Nat → Session → Session
  | 0, s => s
  | rounds + 1, s =>
    let s := xioDowork dispatch s
    if s.client.mqttStatus.socketConnected then closeLoop rounds s else s

/-- `close_connection`. -/
def closeConnection (s : Session) : Session :=
  if s.client.mqttStatus.socketConnected then
    let s := xioClose dispatch s
    let s := if s.client.disconnectCb.isNone then closeLoop dispatch maxCloseRetries s else s
    { s with client := { s.client with xioHandle := none } }
  else callDisconnectCb s

/-- `set_error_callback`. -/
def setErrorCallback (s : Session) (errorType : MqttClientEventError) : Session :=
  closeConnection dispatch (callOnError (s.log (.setErrorCallback errorType)) errorType)

/-- `sendPacketItem`. -/
def sendPacketItem (s : Session) (packet : Buffer) : Session × MuResult :=
  let (s, result) := xioSend dispatch s packet
  if result ≠ .zero then (s.log (.sendReturns .muFailure), .muFailure)
  else
    match s.askClock with
    | (none, s) => (s.log (.sendReturns .muFailure), .muFailure)
    | (some currentMs, s) =>
      ({ s with client := { s.client with packetSendTimeMs := currentMs } }.log (.sendReturns .zero), .zero)

/-- `sendComplete`. -/
def sendComplete (s : Session) (sendResult : IoSendResult) : Session :=
  let s := s.log (.event (.sendComplete sendResult))
  match sendResult with
  | .ioSendOk =>
    if s.client.packetState = .disconnectType then
      (s.log (.operation .onDisconnect)).setPendingClose
    else s
  | .ioSendError => setErrorCallback dispatch s .communicationError
  | .ioSendCancelled => s

/-- The part of `onOpenComplete` that builds the CONNECT packet and sends it. -/
def sendConnPacket (s : Session) : Session :=
  let (connPacket, s) := s.alloc (mqttCodecConnect s.client.mqttOptions)
  let s := s.log (.connPacket connPacket)
  match connPacket with
  | none => s
  | some connPacket =>
    let (s, result) := sendPacketItem dispatch s connPacket
    if result ≠ .zero then (callOnError s .connectionError).setPendingClose else s

/-- `onOpenComplete`. -/
def onOpenComplete (s : Session) (openResult : IoOpenResult) : Session :=
  let s := s.log (.event (.openComplete openResult))
  if openResult = .ioOpenOk ∧ s.client.mqttStatus.socketConnected = false then sendConnPacket dispatch (beginOpen s)
  else (if s.client.mqttStatus.socketConnected = false then callOnError s .connectionError else s).setPendingClose

/-- `onIoError`. -/
def onIoError (s : Session) : Session := setErrorCallback dispatch (s.log (.event .ioError)) .connectionError

/-- A call of one of the callbacks. -/
def handleEvent (s : Session) : IoEvent → Session
  | .openComplete openResult => onOpenComplete dispatch s openResult
  | .ioError => onIoError dispatch s
  | .sendComplete sendResult => sendComplete dispatch s sendResult
  | .closeComplete => onConnectionClosed s

end

/-- Calls of the callbacks, one after another, with calls nested in them to the given depth. -/
def deliver : Nat → List IoEvent → Session → Session
  | 0, _, s => s
  | depth + 1, events, s => events.foldl (handleEvent (deliver depth)) s

end Umqtt
