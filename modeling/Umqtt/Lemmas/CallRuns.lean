import Umqtt.Lemmas.IoRuns
import Umqtt.Lemmas.Reports
import Umqtt.Lemmas.CodecInv

/-!
# What the functions of the client do

`Serves` is what the handling of a packet does: it says to the application what the packet says (`heard`), or nothing, with runs of
callbacks before and after. `CallRun` is what a function does that the application calls, and what received bytes do. Every call is such
a run (`callRun_runCall`), one branch of `mqtt_client_dowork` apart, which is an equation.
-/

namespace Umqtt

open Past Alloc

/-! ## Packets -/

/-- The entry that something a packet says leaves. -/
inductive Heard.Says : Heard → Action → Prop
  | message (m : MqttMessage) (ack : MqttClientAckOption) : Says (.message m) (.messageRecv m ack)
  | event (actionResult : MqttClientEventResult) : Says (.event actionResult) (.operation actionResult)

/-- The client once a packet has been delivered: a CONNACK may make it count as connected, a PINGRESP answers its ping. -/
def MqttClient.told (c : MqttClient) : Action → MqttClient
  | .operation (.onConnack connack) =>
    if connack.returnCode = .connectionAccepted then { c with mqttStatus := { c.mqttStatus with clientConnected := true } } else c
  | .operation .onPingResponse => { c with timeSincePing := 0 }
  | _ => c

/-- Only a PINGRESP says that a ping is answered, and it always does; no packet says that a DISCONNECT has been sent. -/
theorem said_cases {packet : ControlPacketType} {flags : UInt8} {body : List UInt8} {x : Heard} {a : Action}
    (hx : heard packet flags body = some x) (ha : x.Says a) :
    (packet = .pingrespType ∧ a = .operation .onPingResponse) ∨
      (packet ≠ .pingrespType ∧ a ≠ .operation .onPingResponse ∧ a ≠ .operation .onDisconnect) := by
  cases packet with
  | pingrespType =>
    obtain rfl : Heard.event .onPingResponse = x := Option.some.inj hx
    cases ha
    exact Or.inl ⟨rfl, rfl⟩
  | publishType =>
    obtain ⟨m, -, rfl⟩ := Option.map_eq_some_iff.mp hx
    cases ha
    exact Or.inr ⟨by decide, Action.noConfusion, Action.noConfusion⟩
  | connackType | pubackType | pubrecType | pubrelType | pubcompType | subackType | unsubackType =>
    unfold heard at hx
    dsimp only at hx
    split at hx
    · obtain rfl := Option.some.inj hx
      cases ha
      exact Or.inr ⟨by decide, by simp [publishAckAction], by simp [publishAckAction]⟩
    · exact absurd hx (by simp)
  | controlPacketTypeInvalid | connectType | subscribeType | unsubscribeType | pingreqType | disconnectType | packetTypeError
  | unknownType | packetInvalid1Type | packetInvalid2Type =>
    obtain rfl : Heard.nothing = x := Option.some.inj hx
    cases ha

/-- The types of the packets that are sent in reply. -/
def ReplyType (t : ControlPacketType) : Prop := t ∈ [ControlPacketType.pubackType, .pubrecType, .pubrelType, .pubcompType]

instance (t : ControlPacketType) : Decidable (ReplyType t) := inferInstanceAs (Decidable (_ ∈ _))

/-- The types of the replies to a packet. -/
def replyTypes : ControlPacketType → List ControlPacketType
  | .publishType => [.pubackType, .pubrecType]
  | .pubrecType => [.pubrelType]
  | .pubrelType => [.pubcompType]
  | _ => []

/-- A run of callbacks, with replies of the given types that are sent. -/
inductive ReplyRun (types : List ControlPacketType) : Session → Session → Prop
  | io {s t : Session} : IoRun s t → ReplyRun types s t
  | trans {s t u : Session} : ReplyRun types s t → ReplyRun types t u → ReplyRun types s u
  | send {s t : Session} {packet : Buffer} {type : ControlPacketType} : packet.packetType = some type → ReplyType type →
      type ∈ types → IoRun (s.handOver packet) t → ReplyRun types s (finishSend t s.env.send.head).1

/-- What the handling of a packet does, after the entry of the packet. A PINGRESP is always delivered, a SUBACK after an error, too. -/
inductive Serves (packet : ControlPacketType) (flags : UInt8) (body : List UInt8) (s : Session) : Session → Prop
  | silent {t : Session} : packet ≠ .pingrespType → IoRun s t → Serves packet flags body s t
  | delivers {u t : Session} {x : Heard} {a : Action} : heard packet flags body = some x → x.Says a → u.client = s.client.told a →
      u.history = s.history ++ [a] → SameAnswers s u →
      ReplyRun (replyTypes packet) u t → Serves packet flags body s t
  | suback {t : Session} (suback : SubscribeAck) : packet = .subackType → 2 ≤ body.length → IoRun s t →
      (heard packet flags body ≠ none → t.client = s.client ∧ t.history = s.history) →
      Serves packet flags body s (t.log (.operation (.onSubscribeAck suback)))

/-- A topic is read when it is there and there is memory for it. -/
theorem byteutilReadUTF_cases (body : List UInt8) (s : Session) :
    let stringLen := byteutilReadUint16 body 0 body.length
    ∃ s' : Session, s'.client = s.client ∧ s'.history = s.history ∧ SameAnswers s s' ∧
      (byteutilReadUTF body 0 body.length s = ((none, stringLen.2), s') ∨
        (stringLen.1.toNat > 0 ∧ stringLen.1.toNat + stringLen.2 ≤ body.length) ∧
          byteutilReadUTF body 0 body.length s =
            ((some ((body.drop stringLen.2).take stringLen.1.toNat), stringLen.2 + stringLen.1.toNat), s')) := by
  unfold byteutilReadUTF
  generalize byteutilReadUint16 body 0 body.length = r
  obtain ⟨stringLen, next⟩ := r
  dsimp only
  rw [Nat.sub_zero]
  split
  · rename_i hlen
    split
    · have henv : (s.alloc takeMemory).2.client = s.client ∧ (s.alloc takeMemory).2.history = s.history ∧
          SameAnswers s (s.alloc takeMemory).2 := ⟨rfl, rfl, rfl, rfl⟩
      generalize s.alloc takeMemory = r at henv ⊢
      rcases r with ⟨_ | u, s'⟩
      · exact ⟨s', henv.1, henv.2.1, henv.2.2, Or.inl rfl⟩
      · exact ⟨s', henv.1, henv.2.1, henv.2.2, Or.inr ⟨hlen, rfl⟩⟩
    · exact ⟨s, rfl, rfl, ⟨rfl, rfl⟩, Or.inl rfl⟩
  · exact ⟨s, rfl, rfl, ⟨rfl, rfl⟩, Or.inl rfl⟩

section

variable {dispatch : List IoEvent → Session → Session} (hd : MakesRuns dispatch)

include hd

theorem replyRun_sendReply (s : Session) {reply : Alloc Buffer} {t : ControlPacketType}
    {types : List ControlPacketType} (hp : reply.Ensures (·.packetType = some t)) (ht : ReplyType t) (hmem : t ∈ types) :
    ReplyRun types s (sendReply dispatch s reply) := by
  unfold sendReply
  have halloc := ioRun_alloc s reply
  have herror : ∀ (u : Session) (e : MqttClientEventError), e ≠ .noPingResponse → ReplyRun types u (setErrorCallback dispatch u e) :=
    fun u e he => .io (ioRun_setErrorCallback hd u he)
  rcases h : s.alloc reply with ⟨_ | pubRel, s'⟩
  · rw [h] at halloc
    exact (ReplyRun.io halloc).trans (herror _ _ MqttClientEventError.noConfusion)
  · rw [h] at halloc
    have hsend : ReplyRun types s (sendPacketItem dispatch s' pubRel).1 := by
      rw [sendPacketItem_eq]
      exact (ReplyRun.io halloc).trans (.send (hp.of_produces (alloc_produces h)) ht hmem (ioRun_callBack hd _))
    dsimp only
    split
    · exact hsend.trans (herror _ _ MqttClientEventError.noConfusion)
    · exact hsend

theorem replyRun_sendMessageAck (s : Session) (packetId : UInt16) (qosValue : QosValue) :
    ReplyRun [.pubackType, .pubrecType] s (sendMessageAck dispatch s packetId qosValue) := by
  cases qosValue with
  | deliverExactlyOnce =>
    exact replyRun_sendReply hd s (packetType_mqttCodecPublishReceived packetId) (by decide) (by decide)
  | deliverAtLeastOnce =>
    exact replyRun_sendReply hd s (packetType_mqttCodecPublishAck packetId) (by decide) (by decide)
  | qosValueInvalid | deliverAtMostOnce | deliverFailure => exact .io (.refl s)

/-- A message is handed to the application, and then acknowledged if it says so. -/
theorem serves_message {flags : UInt8} {body : List UInt8} {s u : Session} {m : MqttMessage}
    (hheard : heard .publishType flags body = some (.message m)) (hc : u.client = s.client) (hh : u.history = s.history)
    (he : SameAnswers s u) (packetId : UInt16) (qosValue : QosValue) :
    Serves .publishType flags body s
      (if (fnMessageRecv u m).1 = .ackSync then sendMessageAck dispatch (fnMessageRecv u m).2 packetId qosValue
        else (fnMessageRecv u m).2) := by
  refine .delivers hheard (.message m u.env.ack.head) (u := (fnMessageRecv u m).2) hc (congrArg (· ++ _) hh) he ?_
  split
  · exact replyRun_sendMessageAck hd _ _ _
  · exact .io (.refl _)

theorem serves_processPublishMessage (s : Session) (body : List UInt8) (flags : UInt8) :
    Serves .publishType flags body s (processPublishMessage dispatch s body flags) := by
  obtain ⟨s', hclient, hhist, hansw, hread⟩ := byteutilReadUTF_cases body s
  have henv : IoRun s s' := ioRun_env s s' hclient hhist hansw
  have hheard : heard .publishType flags body = (publishMessage flags body).map .message := rfl
  unfold processPublishMessage
  unfold publishMessage at hheard
  dsimp only at hread hheard ⊢
  generalize byteutilReadUint16 body 0 body.length = r at hread hheard
  rcases hread with hread | ⟨htopic, hread⟩
  · rw [hread]
    exact .silent ControlPacketType.noConfusion (henv.trans (ioRun_setErrorCallback hd _ MqttClientEventError.noConfusion))
  · rw [hread]
    rw [if_pos htopic] at hheard
    have hid : (if publishQosValue flags ≠ .deliverAtMostOnce then
        byteutilReadUint16 body (r.2 + r.1.toNat) (body.length - (r.2 + r.1.toNat)) else (0, r.2 + r.1.toNat)) =
        publishPacketId (publishQosValue flags) body (r.2 + r.1.toNat) := rfl
    simp only [hid]
    generalize publishPacketId (publishQosValue flags) body (r.2 + r.1.toNat) = packetId at hheard ⊢
    split
    · exact .silent ControlPacketType.noConfusion (henv.trans (ioRun_setErrorCallback hd _ MqttClientEventError.noConfusion))
    · rename_i hzero
      rw [if_neg hzero] at hheard
      have hpayload : (body.drop packetId.2).take (body.length - packetId.2) = body.drop packetId.2 :=
        List.take_of_length_le (by simp)
      rw [hpayload]
      rcases halloc : s'.alloc (mqttmessageCreateInPlace packetId.1 (some ((body.drop r.2).take r.1.toNat)) (publishQosValue flags)
        (body.drop packetId.2)) with ⟨_ | msgHandle, s''⟩
      · have hmem := ioRun_alloc s' (mqttmessageCreateInPlace packetId.1 (some ((body.drop r.2).take r.1.toNat))
          (publishQosValue flags) (body.drop packetId.2))
        rw [halloc] at hmem
        exact .silent ControlPacketType.noConfusion ((henv.trans hmem).trans (ioRun_setErrorCallback hd _ MqttClientEventError.noConfusion))
      · have hmsg := (ensures_mqttmessageCreateInPlace packetId.1 _ (publishQosValue flags) _).of_produces (alloc_produces halloc)
        have hclient' : s''.client = s.client := (client_of_alloc halloc).trans hclient
        have hhist' : s''.history = s.history := (history_of_alloc halloc).trans hhist
        have hansw' : SameAnswers s s'' := by
          rw [show s'' = (s'.alloc (mqttmessageCreateInPlace packetId.1 (some ((body.drop r.2).take r.1.toNat))
            (publishQosValue flags) (body.drop packetId.2))).2 by rw [halloc]]
          exact hansw
        subst hmsg
        exact serves_message hd hheard hclient' hhist' hansw' _ _

omit hd in
/-- A CONNACK is handed to the application, and makes the client count as connected if it says so. -/
theorem serves_connack {packet : ControlPacketType} {flags : UInt8} {body : List UInt8} (s : Session) {connack : ConnectAck}
    (hheard : heard packet flags body = some (.event (.onConnack connack))) :
    Serves packet flags body s
      (if connack.returnCode = .connectionAccepted then
        (s.log (.operation (.onConnack connack))).setStatus fun status => { status with clientConnected := true }
      else s.log (.operation (.onConnack connack))) := by
  split
  · rename_i hacc
    have htold : s.client.told (.operation (.onConnack connack)) =
        { s.client with mqttStatus := { s.client.mqttStatus with clientConnected := true } } := if_pos hacc
    refine .delivers hheard (.event _) ?_ ?_ ?_ (.io (.refl _))
    · exact htold.symm
    · rfl
    · exact ⟨rfl, rfl⟩
  · rename_i hacc
    have htold : s.client.told (.operation (.onConnack connack)) = s.client := if_neg hacc
    refine .delivers hheard (.event _) ?_ ?_ ?_ (.io (.refl _))
    · exact htold.symm
    · rfl
    · exact ⟨rfl, rfl⟩

theorem serves_processConnack (s : Session) (flags : UInt8) (body : List UInt8) :
    Serves .connackType flags body s (processConnack dispatch s body) := by
  unfold processConnack
  split
  · exact .silent ControlPacketType.noConfusion (ioRun_setErrorCallback hd _ MqttClientEventError.noConfusion)
  · rename_i hlen
    dsimp only
    split
    · exact .silent ControlPacketType.noConfusion (ioRun_setErrorCallback hd _ MqttClientEventError.noConfusion)
    · rename_i hflags
      have hheard : heard .connackType flags body = some (.event (.onConnack
          { isSessionPresent := (byteutilReadByte body 0).1 = 0x1, returnCode := connackReturnCode (byteutilReadByte body 1).1 })) :=
        if_pos ⟨not_not.mp hlen, not_not.mp hflags⟩
      exact serves_connack s hheard

theorem serves_processPublishAck (s : Session) {packet : ControlPacketType} (flags : UInt8) (body : List UInt8)
    (hping : packet ≠ .pingrespType) (hheard : body.length = 2 → heard packet flags body = some (.event (publishAckAction packet (idOf body)))) :
    Serves packet flags body s (processPublishAck dispatch s packet body) := by
  unfold processPublishAck
  split
  · exact .silent hping (ioRun_setErrorCallback hd _ MqttClientEventError.noConfusion)
  · rename_i hlen
    have htold : s.client.told (.operation (publishAckAction packet (idOf body))) = s.client := by
      unfold publishAckAction
      repeat' split
      all_goals rfl
    refine .delivers (hheard (not_not.mp hlen)) (.event _) (u := s.log (.operation (publishAckAction packet (idOf body)))) htold.symm
      rfl ⟨rfl, rfl⟩ ?_
    change ReplyRun _ _ (if packet = .pubrecType then sendReply dispatch _ (mqttCodecPublishRelease (idOf body)) else
      if packet = .pubrelType then sendReply dispatch _ (mqttCodecPublishComplete (idOf body)) else _)
    split
    · exact replyRun_sendReply hd _ (packetType_mqttCodecPublishRelease _) (by decide) (by simp [replyTypes, *])
    · split
      · exact replyRun_sendReply hd _ (packetType_mqttCodecPublishComplete _) (by decide) (by simp [replyTypes, *])
      · exact .io (.refl _)

theorem ioRun_subackLoop (body : List UInt8) (remainLen iterator : Nat) (qosReturn : List QosValue) (s : Session) :
    IoRun s (subackLoop dispatch body remainLen iterator qosReturn s).2 := by
  induction remainLen generalizing iterator qosReturn with
  | zero => exact .refl s
  | succ remainLen ih =>
    unfold subackLoop
    dsimp only
    split
    · exact ioRun_setErrorCallback hd _ MqttClientEventError.noConfusion
    · exact ih _ _

omit hd in
/-- Return codes that pass the check are no error. -/
theorem subackLoop_session {body : List UInt8} (remainLen iterator : Nat) (qosReturn : List QosValue) (s : Session)
    (hcodes : ∀ code ∈ body.drop iterator, code &&& 0x7C = 0) :
    (subackLoop dispatch body remainLen iterator qosReturn s).2 = s := by
  induction remainLen generalizing iterator qosReturn with
  | zero => rfl
  | succ remainLen ih =>
    have hcode : (body[iterator]?.getD 0) &&& 0x7C = 0 := by
      rcases hget : body[iterator]? with _ | code
      · rfl
      · refine hcodes code (List.mem_of_getElem? (i := 0) ?_)
        rw [List.getElem?_drop]
        exact hget
    have hrest : ∀ code ∈ body.drop (iterator + 1), code &&& 0x7C = 0 := by
      intro code hmem
      refine hcodes code ?_
      rw [← List.drop_drop] at hmem
      exact List.mem_of_mem_drop hmem
    unfold subackLoop byteutilReadByte
    dsimp only
    rw [if_neg (not_not_intro hcode)]
    exact ih _ _ hrest

theorem serves_processSubackCodes (s : Session) (flags : UInt8) (body : List UInt8) (packetId : UInt16) (iterator remainLen : Nat)
    (hlen : safeMultiplySizeT sizeofQosValue remainLen ≠ sizeMax → 2 ≤ body.length)
    (hok : heard .subackType flags body ≠ none → ∀ code ∈ body.drop iterator, code &&& 0x7C = 0) :
    Serves .subackType flags body s (processSubackCodes dispatch s body packetId iterator remainLen) := by
  unfold processSubackCodes
  split
  · rename_i hsize
    have halloc := ioRun_alloc s takeMemory
    have henv : (s.alloc takeMemory).2.client = s.client ∧ (s.alloc takeMemory).2.history = s.history := ⟨rfl, rfl⟩
    generalize s.alloc takeMemory = m at halloc henv ⊢
    rcases m with ⟨_ | u, s'⟩
    · exact .silent ControlPacketType.noConfusion (halloc.trans (ioRun_setErrorCallback hd _ MqttClientEventError.noConfusion))
    · refine .suback _ rfl (hlen hsize) (halloc.trans (ioRun_subackLoop hd body remainLen iterator [] s')) ?_
      intro hheard
      rw [subackLoop_session remainLen iterator [] s' (hok hheard)]
      exact henv
  · exact .silent ControlPacketType.noConfusion (ioRun_setErrorCallback hd _ MqttClientEventError.noConfusion)

theorem serves_processSuback (s : Session) (flags : UInt8) (body : List UInt8) :
    Serves .subackType flags body s (processSuback dispatch s body) := by
  have hok : heard .subackType flags body ≠ none →
      ∀ code ∈ body.drop (byteutilReadUint16 body 0 body.length).2, code &&& 0x7C = 0 := by
    intro hheard
    have hcond : 2 ≤ body.length ∧ ∀ code ∈ body.drop 2, code &&& 0x7C = 0 := by
      by_contra hno
      exact hheard (if_neg hno)
    rw [byteutilReadUint16, if_pos hcond.1]
    exact hcond.2
  have hlen : safeMultiplySizeT sizeofQosValue (subackRemainLen body.length) ≠ sizeMax → 2 ≤ body.length := le_of_safeMultiplySizeT
  unfold processSuback
  generalize subackRemainLen body.length = remainLen at hlen ⊢
  generalize byteutilReadUint16 body 0 body.length = r at hok ⊢
  obtain ⟨packetId, iterator⟩ := r
  dsimp only at hok ⊢
  exact serves_processSubackCodes hd s flags body packetId iterator remainLen hlen hok

/-- The handling of a packet. -/
theorem serves_processPacket (s : Session) (packet : ControlPacketType) (flags : UInt8) (body : List UInt8) :
    Serves packet flags body s (processPacket dispatch s packet flags body) := by
  cases packet with
  | connackType => exact serves_processConnack hd s flags body
  | publishType => exact serves_processPublishMessage hd s body flags
  | pubackType | pubrecType | pubrelType | pubcompType => exact serves_processPublishAck hd s flags body ControlPacketType.noConfusion fun hlen => if_pos hlen
  | subackType => exact serves_processSuback hd s flags body
  | unsubackType =>
    unfold processPacket processUnsuback
    dsimp only
    split
    · exact .silent ControlPacketType.noConfusion (ioRun_setErrorCallback hd _ MqttClientEventError.noConfusion)
    · rename_i hlen
      refine .delivers (if_pos (not_not.mp hlen)) (.event _) ?_ ?_ ?_ (.io (.refl _))
      · rfl
      · rfl
      · exact ⟨rfl, rfl⟩
  | pingrespType =>
    refine .delivers rfl (.event .onPingResponse) ?_ ?_ ?_ (.io (.refl _))
    · rfl
    · rfl
    · exact ⟨rfl, rfl⟩
  | controlPacketTypeInvalid | connectType | subscribeType | unsubscribeType | pingreqType | disconnectType | packetTypeError
  | unknownType | packetInvalid1Type | packetInvalid2Type => exact .silent ControlPacketType.noConfusion (.refl s)

theorem serves_recvCompleteCallback (packet : ControlPacketType) (flags : UInt8) (headerData : Option Buffer) (s : Session) :
    Serves packet flags (bodyOf headerData) (s.log (.packet packet flags headerData))
      (recvCompleteCallback dispatch packet flags headerData s) := by
  unfold recvCompleteCallback
  dsimp only
  split
  · exact serves_processPacket hd _ packet flags _
  · rename_i hempty
    exact .silent (fun hping => hempty (Or.inr hping)) (.refl _)

end

/-! ## Calls -/

/-- What is done at once by a function that the application calls, or when bytes arrive. -/
inductive CallLocal (c : MqttClient) : MqttClient → List Action → Prop
  | bytes (buffer : Option (List UInt8)) : CallLocal c c [.bytesReceived buffer]
  | working : CallLocal c c [.xioDowork c.xioHandle]
  | opens (xioHandle : XioHandle) : CallLocal c c [.xioOpen xioHandle .zero]
  | connectReturns (result : MuResult) : CallLocal c c [.connectReturns result]
  | options (mqttOptions : MqttClientOptions) : CallLocal c { c with mqttOptions := mqttOptions } []
  | clear : CallLocal c { c with xioHandle := none } [.clearXio]
  | disconnectNoPacket (callback : Option DisconnectedCallback) : c.mqttStatus.clientConnected = true →
      CallLocal c { c with packetState := .packetTypeError } [.disconnect callback]
  | disconnectClosed (callback : Option DisconnectedCallback) : c.mqttStatus.clientConnected = false →
      c.mqttStatus.socketConnected = false →
      CallLocal c { c with disconnectCb := callback } (.disconnect callback :: callback.toList.map .disconnected)

/-- A packet of one of the given types is built and about to be sent by a function that the application calls: the client, the entries
added so far, and the packet. -/
inductive CallSends (own : List ControlPacketType) (c : MqttClient) : MqttClient → List Action → Buffer → Prop
  | request (packet : Buffer) (t : ControlPacketType) : t ∈ [ControlPacketType.publishType, .subscribeType, .unsubscribeType] →
      packet.packetType = some t → t ∈ own → CallSends own c { c with packetState := t } [] packet
  | disconnect (callback : Option DisconnectedCallback) (packet : Buffer) : c.mqttStatus.clientConnected = true →
      packet.packetType = some .disconnectType → .disconnectType ∈ own →
      CallSends own c { c with disconnectCb := callback, packetState := .disconnectType } [.disconnect callback] packet

/-- The session once `mqtt_client_disconnect` has stored its callback. -/
def Session.disconnecting (s : Session) (callback : Option DisconnectedCallback) : Session :=
  { s.log (.disconnect callback) with client := { s.client with disconnectCb := callback } }

/-- What the functions do that the application calls, and received bytes, the keep-alive part of `mqtt_client_dowork` apart. The packets
that the function itself sends are of the given types. -/
inductive CallRun (own : List ControlPacketType) : Session → Session → Prop
  | io {s t : Session} : IoRun s t → CallRun own s t
  | trans {s t u : Session} : CallRun own s t → CallRun own t u → CallRun own s u
  | direct {s t : Session} {l : List Action} : CallLocal s.client t.client l → t.history = s.history ++ l →
      SameAnswers s t → CallRun own s t
  | reply {s t : Session} : ReplyRun own s t → CallRun own s t
  | packet {s t : Session} (packet : ControlPacketType) (flags : UInt8) (headerData : Option Buffer) :
      Serves packet flags (bodyOf headerData) (s.log (.packet packet flags headerData)) t → CallRun own s t
  | send {s u t : Session} {l : List Action} {packet : Buffer} : CallSends own s.client u.client l packet →
      u.history = s.history ++ l → SameAnswers s u → IoRun (u.handOver packet) t →
      CallRun own s (finishSend t u.env.send.head).1
  | openFails {s u t : Session} (xioHandle : XioHandle) (result : MuResult) : result ≠ .zero → u.client = s.client →
      u.history = s.history ++ [.xioOpen xioHandle result] → SameAnswers s u → IoRun u t → CallRun own s t.detached
  | disconnect {s t : Session} (callback : Option DisconnectedCallback) : s.client.mqttStatus.clientConnected = false →
      s.client.mqttStatus.socketConnected = true →
      IoRun ((s.disconnecting callback).log (.xioClose s.client.xioHandle)) t → CallRun own s t.detached
  | closePending {s t : Session} : s.client.mqttStatus.pendingClose = true → s.client.mqttStatus.socketConnected = true →
      IoRun (s.log (.xioClose s.client.xioHandle)) t →
      CallRun own s (t.detached.setStatus fun status => { status with pendingClose := false })

/-- What a call does, the keep-alive part of `mqtt_client_dowork` included. -/
inductive PingRun (own : List ControlPacketType) : Session → Session → Prop
  | call {s t : Session} : CallRun own s t → PingRun own s t
  | trans {s t u : Session} : PingRun own s t → PingRun own t u → PingRun own s u
  | clock (s : Session) : PingRun own s s.askClock.2
  | noPing {s t : Session} : s.client.mqttStatus.socketConnected = true → IoRun (s.failing .noPingResponse) t →
      PingRun own s (resetPing t.detached)
  | ping {s t : Session} {packet : Buffer} : s.client.mqttStatus.clientConnected = true → packet.packetType = some .pingreqType →
      IoRun (s.handOver packet) t → PingRun own s (finishSend t s.env.send.head).1
  | pingFails {s t : Session} {packet : Buffer} : s.client.mqttStatus.clientConnected = true →
      packet.packetType = some .pingreqType → IoRun (s.handOver packet) t → (finishSend t s.env.send.head).2 ≠ .zero →
      PingRun own s (resetPing (finishSend t s.env.send.head).1)
  | pingSent (s : Session) (currentMs : UInt64) : PingRun own s { s with client := { s.client with timeSincePing := currentMs } }

/-- The types of the packets that the function of a call sends itself. -/
def Call.own : Call → List ControlPacketType
  | .publish _ => [.publishType]
  | .subscribe _ _ => [.subscribeType]
  | .unsubscribe _ _ => [.unsubscribeType]
  | .sendMessageResponse _ _ => [.pubackType, .pubrecType]
  | .disconnect _ => [.disconnectType]
  | _ => []

section

variable {dispatch : List IoEvent → Session → Session} (hd : MakesRuns dispatch) {own : List ControlPacketType}

theorem callRun_options (s : Session) (mqttOptions : MqttClientOptions) :
    CallRun own s { s with client := { s.client with mqttOptions := mqttOptions } } :=
  .direct (.options mqttOptions) (List.append_nil _).symm ⟨rfl, rfl⟩

theorem callRun_cloneMqttOptions (s : Session) (mqttOptions : MqttClientOptions) :
    CallRun own s (cloneMqttOptions s mqttOptions).1 := by
  unfold cloneMqttOptions
  have halloc := ioRun_alloc s (clonedOptions mqttOptions s.client.mqttOptions)
  generalize s.alloc (clonedOptions mqttOptions s.client.mqttOptions) = r at halloc ⊢
  rcases r with ⟨_ | stored, s'⟩
  · exact (CallRun.io halloc).trans (callRun_options s' _)
  · exact (CallRun.io halloc).trans (callRun_options s' _)

include hd

/-- `mqtt_client_connect` after it has set the handle and the times. -/
theorem callRun_mqttClientConnect (s : Session) (xioHandle : XioHandle) (mqttOptions : MqttClientOptions) :
    CallRun own (beginConnect (s.log (.connect xioHandle mqttOptions)) xioHandle mqttOptions)
      (mqttClientConnect dispatch s (some xioHandle) (some mqttOptions)).1 := by
  unfold mqttClientConnect
  have hclone : CallRun own _ _ :=
    callRun_cloneMqttOptions (beginConnect (s.log (.connect xioHandle mqttOptions)) xioHandle mqttOptions) mqttOptions
  dsimp only
  generalize cloneMqttOptions (beginConnect (s.log (.connect xioHandle mqttOptions)) xioHandle mqttOptions) mqttOptions = r
    at hclone ⊢
  obtain ⟨s1, cloned⟩ := r
  have hreturns : ∀ (t : Session) (result : MuResult), CallRun own t (t.log (.connectReturns result)) :=
    fun t result => .direct (.connectReturns result) rfl ⟨rfl, rfl⟩
  dsimp only at hclone ⊢
  split
  · exact hclone.trans (hreturns _ _)
  · generalize hopened : ({ s1 with env := { s1.env with openResult := s1.env.openResult.tail } }.log
      (.xioOpen xioHandle s1.env.openResult.head) : Session) = opened
    have hbacks : IoRun opened (xioOpen dispatch s1 xioHandle).1 := by
      rw [← hopened]
      exact ioRun_callBack hd _
    have hclient : opened.client = s1.client := by rw [← hopened]; rfl
    have hhist : opened.history = s1.history ++ [.xioOpen xioHandle s1.env.openResult.head] := by rw [← hopened]; rfl
    have hansw : SameAnswers s1 opened := by
      rw [← hopened]
      exact ⟨rfl, rfl⟩
    split
    · rename_i hfail
      have hdetach : CallRun own s1 (xioOpen dispatch s1 xioHandle).1.detached := .openFails xioHandle _ hfail hclient hhist hansw hbacks
      exact ((hclone.trans hdetach).trans (callRun_options _ _)).trans (hreturns _ _)
    · rename_i hok
      have hzero : s1.env.openResult.head = .zero := not_not.mp hok
      have hopen : CallRun own s1 opened := by
        rw [hzero] at hhist
        exact .direct (hclient ▸ .opens xioHandle) hhist hansw
      exact (hclone.trans (hopen.trans (.io hbacks))).trans (hreturns _ _)

theorem callRun_sendRequest (s : Session) {t : ControlPacketType}
    (ht : t ∈ [ControlPacketType.publishType, .subscribeType, .unsubscribeType]) (hown : t ∈ own) {packet : Alloc Buffer}
    (hp : packet.Ensures (·.packetType = some t)) : CallRun own s (sendRequest dispatch s t packet).1 := by
  unfold sendRequest
  have halloc := ioRun_alloc s packet
  rcases h : s.alloc packet with ⟨_ | built, s'⟩
  · rw [h] at halloc
    exact .io halloc
  · rw [h] at halloc
    refine (CallRun.io halloc).trans ?_
    dsimp only
    rw [sendPacketItem_eq]
    exact .send (.request built t ht (hp.of_produces (alloc_produces h)) hown) (List.append_nil _).symm ⟨rfl, rfl⟩ (ioRun_callBack hd _)

theorem callRun_mqttClientDisconnect (hown : .disconnectType ∈ own) (s : Session) (callback : Option DisconnectedCallback) :
    CallRun own s (mqttClientDisconnect dispatch s callback).1 := by
  unfold mqttClientDisconnect
  dsimp only
  split
  · rename_i hconn
    rcases h : (s.log (.disconnect callback)).alloc mqttCodecDisconnect with ⟨_ | packet, s'⟩
    all_goals
      have hclient : s'.client = s.client := (client_of_alloc h :)
      have hhist : s'.history = s.history ++ [.disconnect callback] := (history_of_alloc h :)
      have hansw : SameAnswers s s' := by
        rw [show s' = ((s.log (.disconnect callback)).alloc mqttCodecDisconnect).2 by rw [h]]
        exact ⟨rfl, rfl⟩
    · refine CallRun.trans (t := { s' with client := { s'.client with packetState := .packetTypeError } }) ?_ (callRun_options _ _)
      refine .direct ?_ hhist hansw
      rw [hclient]
      exact .disconnectNoPacket callback hconn
    · have htype := packetType_mqttCodecDisconnect.of_produces (alloc_produces h)
      refine CallRun.trans ?_ (callRun_options _ _)
      rw [sendPacketItem_eq]
      refine .send (l := [.disconnect callback]) ?_ hhist hansw (ioRun_callBack hd _)
      rw [hclient]
      exact .disconnect callback packet hconn htype hown
  · rename_i hconn
    have hconn' : s.client.mqttStatus.clientConnected = false := Bool.eq_false_iff.mpr hconn
    refine CallRun.trans ?_ (callRun_options _ _)
    change CallRun own s (closeConnection dispatch (s.disconnecting callback))
    rcases hs : s.client.mqttStatus.socketConnected
    · rw [closeConnection_closed (s := s.disconnecting callback) hs]
      refine .direct (l := .disconnect callback :: callback.toList.map .disconnected) ?_ ?_ ?_
      · rw [client_callDisconnectCb]
        exact .disconnectClosed callback hconn' hs
      · rw [history_callDisconnectCb]
        simp [Session.disconnecting, Session.log, disconnectedOf]
      · rw [SameAnswers, env_callDisconnectCb]
        exact ⟨rfl, rfl⟩
    · obtain ⟨t, hrun, heq⟩ := closeConnection_open hd (s := s.disconnecting callback) hs
      rw [heq]
      exact .disconnect callback hconn' hs hrun

/-- What `set_error_callback` does on a socket that is connected. -/
theorem setErrorCallback_open {s : Session} (e : MqttClientEventError) (hs : s.client.mqttStatus.socketConnected = true) :
    ∃ t, IoRun (s.failing e) t ∧ setErrorCallback dispatch s e = t.detached := by
  have hclient : (callOnError (s.log (.setErrorCallback e)) e).client = s.client := client_callOnError _ e
  obtain ⟨t, hrun, heq⟩ := closeConnection_open hd (s := callOnError (s.log (.setErrorCallback e)) e) (by rw [hclient]; exact hs)
  rw [hclient] at hrun
  exact ⟨t, hrun, heq⟩

theorem pingRun_sendPing (s : Session) (hc : s.client.mqttStatus.clientConnected = true) : PingRun own s (sendPing dispatch s) := by
  unfold sendPing
  have halloc : PingRun own s (s.alloc mqttCodecPing).2 := .call (.io (ioRun_alloc s mqttCodecPing))
  rcases h : s.alloc mqttCodecPing with ⟨_ | packet, s'⟩
  · rw [h] at halloc
    exact halloc
  · have htype := packetType_mqttCodecPing.of_produces (alloc_produces h)
    have hclient : s'.client = s.client := client_of_alloc h
    have hconn : s'.client.mqttStatus.clientConnected = true := by rw [hclient]; exact hc
    have hrun := ioRun_callBack hd (s'.handOver packet)
    rw [h] at halloc
    dsimp only
    rw [sendPacketItem_eq]
    split
    · rename_i hfail
      have hreset := halloc.trans (.pingFails hconn htype hrun hfail)
      exact hreset.trans (.call (.io (ioRun_setErrorCallback hd _ MqttClientEventError.noConfusion)))
    · have hclock := (halloc.trans (.ping hconn htype hrun)).trans (.clock _)
      generalize (finishSend (callBack dispatch (s'.handOver packet)) s'.env.send.head).1.askClock = r at hclock ⊢
      rcases r with ⟨_ | currentMs, s2⟩
      · exact hclock
      · exact hclock.trans (.pingSent s2 currentMs)

theorem pingRun_keepAlive (s : Session) : PingRun own s (keepAlive dispatch s) := by
  unfold keepAlive
  split
  · rename_i hon
    have hclock : PingRun own s s.askClock.2 := .clock s
    rcases h : s.askClock with ⟨_ | currentMs, s'⟩
    · rw [h] at hclock
      exact hclock
    · have hclient : s'.client = s.client := client_of_askClock h
      rw [h] at hclock
      dsimp only
      split
      · obtain ⟨t, hrun, heq⟩ := setErrorCallback_open hd (s := s') .noPingResponse (by rw [hclient]; exact hon.1)
        rw [heq]
        exact hclock.trans (.noPing (by rw [hclient]; exact hon.1) hrun)
      · split
        · exact hclock.trans (pingRun_sendPing hd s' (by rw [hclient]; exact hon.2.1))
        · exact hclock
  · exact .call (.io (.refl s))

theorem callRun_onBytesReceived (w : World) (buffer : Option (List UInt8)) :
    CallRun own w.callContext (onBytesReceived dispatch w buffer).callContext := by
  have hlog : CallRun own w.callContext (w.callContext.log (.bytesReceived buffer)) := .direct (.bytes buffer) rfl ⟨rfl, rfl⟩
  have hpacket : ∀ packet flags headerData s, CallRun own w.callContext s →
      CallRun own w.callContext (recvCompleteCallback dispatch packet flags headerData s) :=
    fun packet flags headerData s hs => hs.trans (.packet packet flags headerData (serves_recvCompleteCallback hd packet flags headerData s))
  have hcodec := bytesReceived_preserves (P := CallRun own w.callContext) hpacket
    (c := { w with callContext := w.callContext.log (.bytesReceived buffer) }) hlog buffer
  unfold onBytesReceived
  dsimp only
  split
  · exact hcodec.trans (.io (ioRun_setErrorCallback hd _ MqttClientEventError.noConfusion))
  · exact hcodec

theorem callRun_handleWork (w : World) (event : WorkEvent) : CallRun own w.callContext (handleWork dispatch w event).callContext := by
  cases event with
  | io e => exact .io (ioRun_handleEvent hd _ e)
  | bytes buffer => exact callRun_onBytesReceived hd w buffer

theorem callRun_handleWorks (w : World) (events : List WorkEvent) :
    CallRun own w.callContext (events.foldl (handleWork dispatch) w).callContext := by
  induction events generalizing w with
  | nil => exact .io (.refl _)
  | cons event events ih => exact (callRun_handleWork hd w event).trans (ih _)

/-- The call is a `mqtt_client_dowork` that finds a close pending, and no socket connected. -/
def EndsPending (w : World) (call : Call) : Prop :=
  (∃ events, call = .dowork events) ∧ w.callContext.client.xioHandle.isSome ∧ w.callContext.client.mqttStatus.pendingClose = true ∧
    w.callContext.client.mqttStatus.socketConnected = false

/-- What such a call does: the callback of `mqtt_client_disconnect` is called. -/
def Session.endPending (s : Session) : Session := (callDisconnectCb s).setStatus fun status => { status with pendingClose := false }

/-- `mqtt_client_dowork` finds a close pending, and a socket connected. -/
theorem mqttClientDowork_pending (w : World) (events : List WorkEvent) (hsome : w.callContext.client.xioHandle.isSome = true)
    (hpend : w.callContext.client.mqttStatus.pendingClose = true) (hs : w.callContext.client.mqttStatus.socketConnected = true) :
    ∃ t, IoRun (w.callContext.log (.xioClose w.callContext.client.xioHandle)) t ∧
      (mqttClientDowork dispatch w events).callContext =
        t.detached.setStatus fun status => { status with pendingClose := false } := by
  obtain ⟨t, hrun, heq⟩ := closeConnection_open hd (s := w.callContext) hs
  refine ⟨t, hrun, ?_⟩
  rw [mqttClientDowork, if_neg (by simpa [Option.isSome_iff_ne_none] using hsome), if_pos hpend, heq]

theorem pingRun_mqttClientDowork (w : World) (events : List WorkEvent) :
    (¬EndsPending w (.dowork events) → PingRun own w.callContext (mqttClientDowork dispatch w events).callContext) ∧
      (EndsPending w (.dowork events) → (mqttClientDowork dispatch w events).callContext = w.callContext.endPending) := by
  unfold mqttClientDowork
  split
  · rename_i hnone
    refine ⟨fun _ => .call (.io (.refl _)), ?_⟩
    intro h
    have := h.2.1
    simp_all
  · rename_i hsome
    split
    · rename_i hpend
      rcases hs : w.callContext.client.mqttStatus.socketConnected
      · have hends : EndsPending w (.dowork events) := ⟨⟨events, rfl⟩, by simpa [Option.isSome_iff_ne_none] using hsome, hpend, hs⟩
        refine ⟨fun h => absurd hends h, ?_⟩
        intro _
        rw [closeConnection_closed hs]
        rfl
      · refine ⟨fun _ => ?_, fun h => absurd (hs.symm.trans h.2.2.2) (by decide)⟩
        obtain ⟨t, hrun, heq⟩ := closeConnection_open hd (s := w.callContext) hs
        rw [heq]
        exact .call (.closePending hpend hs hrun)
    · rename_i hpend
      refine ⟨fun _ => ?_, fun h => absurd h.2.2.1 hpend⟩
      have hlog : CallRun own w.callContext (w.callContext.log (.xioDowork w.callContext.client.xioHandle)) :=
        .direct .working rfl ⟨rfl, rfl⟩
      have hwork := hlog.trans
        (callRun_handleWorks hd { w with callContext := w.callContext.log (.xioDowork w.callContext.client.xioHandle) } events)
      exact (PingRun.call hwork).trans (pingRun_keepAlive hd _)

end

/-- The first thing a call does: `mqtt_client_connect` adds its entry and sets the handle and the times. -/
def beginCall (s : Session) : Call → Session
  | .connect (some xioHandle) (some mqttOptions) => beginConnect (s.log (.connect xioHandle mqttOptions)) xioHandle mqttOptions
  | _ => s

/-- Only `mqtt_client_connect` with arguments that are not NULL begins a connection. -/
theorem beginCall_cases (s : Session) (call : Call) :
    (∃ xioHandle mqttOptions, call = .connect (some xioHandle) (some mqttOptions)) ∨ beginCall s call = s := by
  cases call with
  | connect xioHandle mqttOptions =>
    rcases xioHandle with _ | xioHandle
    · exact Or.inr rfl
    · rcases mqttOptions with _ | mqttOptions
      · exact Or.inr rfl
      · exact Or.inl ⟨xioHandle, mqttOptions, rfl⟩
  | _ => exact Or.inr rfl

theorem beginCall_of_not_connects (s : Session) {call : Call} (h : call.connects = false) : beginCall s call = s := by
  rcases beginCall_cases s call with ⟨xioHandle, mqttOptions, rfl⟩ | hsame
  · exact absurd h (by simp [Call.connects])
  · exact hsame

/-- A call that is not `mqtt_client_dowork` or bytes. -/
theorem callRun_sessionCall (depth : Nat) (s : Session) (call : Call) : CallRun call.own (beginCall s call) (sessionCall depth s call) := by
  have hd := ioRun_deliver depth
  cases call with
  | connect xioHandle mqttOptions =>
    rcases xioHandle with _ | xioHandle
    · exact .io (.refl s)
    · rcases mqttOptions with _ | mqttOptions
      · exact .io (.refl s)
      · exact callRun_mqttClientConnect hd s xioHandle mqttOptions
  | publish msgHandle =>
    rcases msgHandle with _ | msgHandle
    · exact .io (.refl s)
    · exact callRun_sendRequest hd s (by decide) List.mem_cons_self (packetType_mqttCodecPublish _ _ _ _ _ _)
  | subscribe packetId subscribeList =>
    unfold sessionCall mqttClientSubscribe
    dsimp only
    split
    · exact .io (.refl s)
    · exact callRun_sendRequest hd s (by decide) List.mem_cons_self (packetType_mqttCodecSubscribe _ _)
  | unsubscribe packetId unsubscribeList =>
    unfold sessionCall mqttClientUnsubscribe
    dsimp only
    split
    · exact .io (.refl s)
    · exact callRun_sendRequest hd s (by decide) List.mem_cons_self (packetType_mqttCodecUnsubscribe _ _)
  | sendMessageResponse packetId qosValue =>
    unfold sessionCall mqttClientSendMessageResponse
    dsimp only
    split
    · exact .io (.refl s)
    · exact .reply (replyRun_sendMessageAck hd s packetId qosValue)
  | disconnect callback => exact callRun_mqttClientDisconnect hd List.mem_cons_self s callback
  | clearXio => exact .direct .clear rfl ⟨rfl, rfl⟩
  | dowork events => exact .io (.refl s)
  | xio event => exact .io (.refl s)

/-- Every call but `mqtt_client_dowork`, after the first thing it does, is a run of the client. -/
theorem callRun_runCall (depth : Nat) (w : World) (call : Call) (h : ∀ events, call ≠ .dowork events) :
    CallRun call.own (beginCall w.callContext call) (runCall depth w call).callContext := by
  cases call with
  | dowork events => exact absurd rfl (h events)
  | xio event => exact callRun_handleWork (ioRun_deliver depth) w event
  | _ => exact callRun_sessionCall depth w.callContext _

/-- Every call, after the first thing it does, is a run of the client, or it ends a connection that was to be closed. -/
theorem pingRun_runCall (depth : Nat) (w : World) (call : Call) :
    (¬EndsPending w call → PingRun call.own (beginCall w.callContext call) (runCall depth w call).callContext) ∧
      (EndsPending w call → (runCall depth w call).callContext = w.callContext.endPending) := by
  cases call with
  | dowork events => exact pingRun_mqttClientDowork (ioRun_deliver depth) w events
  | _ => exact ⟨fun _ => .call (callRun_runCall depth w _ (by simp)), fun h => absurd h.1 (by simp)⟩

end Umqtt
