import Umqtt.Lemmas.CallRuns

/-!
# Packets and calls are steps

The handling of a received packet is steps of callbacks (`steps_recvCompleteCallback`), so are received bytes, and every call of a
function is steps of the client (`steps_runCall`).
-/

namespace Umqtt

open Past Alloc

/-! ## Received packets -/

section

variable {dispatch : List IoEvent → Session → Session} (hd : MakesSteps dispatch)

include hd

theorem steps_sendReply (s : Session) {reply : Alloc Buffer} {t : ControlPacketType}
    (hp : reply.Ensures (·.packetType = some t)) (ht : PlainType t) : Steps InnerStep s (sendReply dispatch s reply) := by
  have halloc := steps_alloc s reply
  rw [sendReply]
  rcases h : s.alloc reply with ⟨_ | pubRel, s'⟩
  · rw [h] at halloc
    exact halloc.trans (steps_setErrorCallback hd _ _)
  · rw [h] at halloc
    have hsend := steps_sendPacketItem hd s' (hp.of_produces (alloc_produces h)) ht
    simp only
    split
    · exact (halloc.trans hsend).trans (steps_setErrorCallback hd _ _)
    · exact halloc.trans hsend

theorem steps_sendMessageAck (s : Session) (packetId : UInt16) (qosValue : QosValue) :
    Steps InnerStep s (sendMessageAck dispatch s packetId qosValue) := by
  cases qosValue with
  | deliverExactlyOnce =>
    exact steps_sendReply hd s (packetType_mqttCodecPublishReceived packetId) (by decide)
  | deliverAtLeastOnce =>
    exact steps_sendReply hd s (packetType_mqttCodecPublishAck packetId) (by decide)
  | qosValueInvalid | deliverAtMostOnce | deliverFailure => exact .refl

omit hd in
theorem steps_byteutilReadUTF (body : List UInt8) (iterator byteLen : Nat) (s : Session) :
    Steps InnerStep s (byteutilReadUTF body iterator byteLen s).2 := by
  have halloc := steps_alloc s takeMemory
  simp only [byteutilReadUTF]
  split
  · split
    · rcases h : s.alloc takeMemory with ⟨_ | _, s'⟩
      all_goals
        rw [h] at halloc
        exact halloc
    · exact .refl
  · exact .refl

omit hd in
theorem steps_fnMessageRecv (s : Session) (message : MqttMessage) : Steps InnerStep s (fnMessageRecv s message).2 :=
  Inner.steps _ _ (.note (.messageRecv message s.env.ack.head) trivial) rfl

theorem steps_processPublishMessage (s : Session) (body : List UInt8) (flags : UInt8) :
    Steps InnerStep s (processPublishMessage dispatch s body flags) := by
  have hread := steps_byteutilReadUTF body 0 body.length s
  simp only [processPublishMessage]
  rcases h : byteutilReadUTF body 0 body.length s with ⟨⟨_ | topicName, iterator⟩, s1⟩
  · rw [h] at hread
    exact hread.trans (steps_setErrorCallback hd _ _)
  · rw [h] at hread
    simp only
    generalize (if publishQosValue flags ≠ .deliverAtMostOnce then
      byteutilReadUint16 body iterator (body.length - iterator) else (0, iterator)) = r
    split
    · exact hread.trans (steps_setErrorCallback hd _ _)
    · have halloc := steps_alloc s1 (mqttmessageCreateInPlace r.1 (some topicName) (publishQosValue flags)
        ((body.drop r.2).take (body.length - r.2)))
      rcases hm : s1.alloc (mqttmessageCreateInPlace r.1 (some topicName) (publishQosValue flags)
        ((body.drop r.2).take (body.length - r.2))) with ⟨_ | msgHandle, s2⟩
      · rw [hm] at halloc
        exact (hread.trans halloc).trans (steps_setErrorCallback hd _ _)
      · rw [hm] at halloc
        simp only
        split
        · exact ((hread.trans halloc).trans (steps_fnMessageRecv _ _)).trans (steps_sendMessageAck hd _ _ _)
        · exact (hread.trans halloc).trans (steps_fnMessageRecv _ _)

theorem steps_processConnack (s : Session) (body : List UInt8) : Steps InnerStep s (processConnack dispatch s body) := by
  simp only [processConnack]
  split
  · exact steps_setErrorCallback hd _ _
  · split
    · exact steps_setErrorCallback hd _ _
    · split
      · rename_i hacc
        rw [hacc]
        exact Inner.steps _ _ (.accepted _) rfl
      · rename_i hacc
        exact steps_log _ _ hacc

theorem steps_processPublishAck (s : Session) (packet : ControlPacketType) (body : List UInt8) :
    Steps InnerStep s (processPublishAck dispatch s packet body) := by
  have hlog : ∀ packetId, Steps InnerStep s (s.log (.operation (publishAckAction packet packetId))) := by
    intro packetId
    refine steps_log _ _ ?_
    rw [publishAckAction]
    repeat' split
    all_goals trivial
  simp only [processPublishAck]
  split
  · exact steps_setErrorCallback hd _ _
  · split
    · exact (hlog _).trans (steps_sendReply hd _ (packetType_mqttCodecPublishRelease _) (by decide))
    · split
      · exact (hlog _).trans (steps_sendReply hd _ (packetType_mqttCodecPublishComplete _) (by decide))
      · exact hlog _

theorem steps_subackLoop (body : List UInt8) (remainLen iterator : Nat) (qosReturn : List QosValue) (s : Session) :
    Steps InnerStep s (subackLoop dispatch body remainLen iterator qosReturn s).2 := by
  induction remainLen generalizing iterator qosReturn with
  | zero => exact .refl
  | succ remainLen ih =>
    simp only [subackLoop]
    split
    · exact steps_setErrorCallback hd _ _
    · exact ih _ _

theorem steps_processSubackCodes (s : Session) (body : List UInt8) (packetId : UInt16) (iterator remainLen : Nat) :
    Steps InnerStep s (processSubackCodes dispatch s body packetId iterator remainLen) := by
  have halloc := steps_alloc s takeMemory
  rw [processSubackCodes]
  split
  · rcases h : s.alloc takeMemory with ⟨_ | _, s'⟩
    · rw [h] at halloc
      exact halloc.trans (steps_setErrorCallback hd _ _)
    · rw [h] at halloc
      exact (halloc.trans (steps_subackLoop hd _ _ _ _ _)).trans (steps_log _ _ trivial)
  · exact steps_setErrorCallback hd _ _

theorem steps_processPacket (s : Session) (packet : ControlPacketType) (flags : UInt8) (body : List UInt8) :
    Steps InnerStep s (processPacket dispatch s packet flags body) := by
  cases packet with
  | connackType => exact steps_processConnack hd s body
  | publishType => exact steps_processPublishMessage hd s body flags
  | pubackType => exact steps_processPublishAck hd s _ body
  | pubrecType => exact steps_processPublishAck hd s _ body
  | pubrelType => exact steps_processPublishAck hd s _ body
  | pubcompType => exact steps_processPublishAck hd s _ body
  | subackType =>
    simp only [processPacket, processSuback]
    exact steps_processSubackCodes hd s body _ _ _
  | unsubackType =>
    simp only [processPacket, processUnsuback]
    split
    · exact steps_setErrorCallback hd _ _
    · exact steps_log _ _ trivial
  | pingrespType => exact (steps_client s _ .pingAnswered).trans (steps_log _ _ trivial)
  | controlPacketTypeInvalid | connectType | subscribeType | unsubscribeType | pingreqType | disconnectType | packetTypeError
  | unknownType | packetInvalid1Type | packetInvalid2Type => exact .refl

/-- After the entry of the packet, its handling is steps of callbacks. -/
theorem steps_recvCompleteCallback (packet : ControlPacketType) (flags : UInt8) (headerData : Option Buffer) (s : Session) :
    Steps InnerStep (s.log (.packet packet flags headerData)) (recvCompleteCallback dispatch packet flags headerData s) := by
  simp only [recvCompleteCallback]
  split
  · exact steps_processPacket hd _ _ _ _
  · exact .refl

theorem steps_onBytesReceived (w : World) (buffer : Option (List UInt8)) :
    Steps WorkStep w.callContext (onBytesReceived dispatch w buffer).callContext := by
  have hlog : Steps WorkStep w.callContext (w.callContext.log (.bytesReceived buffer)) := steps_arrival _ _ trivial
  have hpacket : ∀ packet flags headerData s, Steps WorkStep w.callContext s →
      Steps WorkStep w.callContext (recvCompleteCallback dispatch packet flags headerData s) :=
    fun packet flags headerData s hs => (hs.trans (steps_arrival s (.packet packet flags headerData) trivial)).trans
      (work_steps (steps_recvCompleteCallback hd packet flags headerData s))
  have hcodec := bytesReceived_preserves (P := Steps WorkStep w.callContext) hpacket
    (c := { w with callContext := w.callContext.log (.bytesReceived buffer) }) hlog buffer
  simp only [onBytesReceived]
  split
  · exact hcodec.trans (work_steps (steps_setErrorCallback hd _ _))
  · exact hcodec

/-! ## Calls -/

omit hd in
/-- A change of the client by a function that adds no entry. -/
theorem steps_outer (s : Session) (c : MqttClient) (h : Outer s.client s.history c []) :
    Steps ClientStep s { s with client := c } := Outer.steps { s with client := c } _ h (List.append_nil _).symm

/-- A packet whose send is a step, sent by `sendPacketItem`. -/
theorem steps_sendPacketItem_of {s t : Session} {packet : Buffer}
    (h : ∀ u result, u.client = t.client → u.history = t.history ++ [.xioSend t.client.xioHandle packet result] →
      Steps ClientStep s u) : Steps ClientStep s (sendPacketItem dispatch t packet).1 := by
  have hsend := h ({ t with env := { t.env with send := t.env.send.tail } }.log
    (.xioSend t.client.xioHandle packet t.env.send.head)) t.env.send.head rfl rfl
  exact (hsend.trans (inner_steps (steps_callBack hd _))).trans (inner_steps (steps_sendPacketItem_rest t packet).1)

omit hd in
/-- A change of the options. -/
theorem steps_options (s : Session) (mqttOptions : MqttClientOptions) :
    Steps SessionStep s { s with client := { s.client with mqttOptions := mqttOptions } } :=
  .single (Or.inr ⟨mqttOptions, rfl, rfl⟩)

omit hd in
theorem steps_clearMqttOptions (s : Session) : Steps SessionStep s (clearMqttOptions s) := steps_options s _

omit hd in
theorem steps_cloneMqttOptions (s : Session) (mqttOptions : MqttClientOptions) :
    Steps SessionStep s (cloneMqttOptions s mqttOptions).1 := by
  have halloc := session_steps_of_inner (steps_alloc s (clonedOptions mqttOptions s.client.mqttOptions))
  rw [cloneMqttOptions]
  rcases h : s.alloc (clonedOptions mqttOptions s.client.mqttOptions) with ⟨_ | stored, s'⟩
  all_goals
    rw [h] at halloc
    exact halloc.trans (steps_options s' _)

theorem steps_xioOpen (s : Session) (xioHandle : XioHandle) : Steps InnerStep s (xioOpen dispatch s xioHandle).1 := by
  have hlog : Steps InnerStep s ({ s with env := { s.env with openResult := s.env.openResult.tail } }.log
      (.xioOpen xioHandle s.env.openResult.head)) :=
    Inner.steps _ _ (.note (.xioOpen xioHandle s.env.openResult.head) trivial) rfl
  exact hlog.trans (steps_callBack hd _)

/-- `mqtt_client_connect` after it has set the handle and the times. -/
theorem steps_mqttClientConnect (s : Session) (xioHandle : XioHandle) (mqttOptions : MqttClientOptions) :
    Steps SessionStep (beginConnect (s.log (.connect xioHandle mqttOptions)) xioHandle mqttOptions)
      (mqttClientConnect dispatch s (some xioHandle) (some mqttOptions)).1 := by
  have hclone := steps_cloneMqttOptions (beginConnect (s.log (.connect xioHandle mqttOptions)) xioHandle mqttOptions) mqttOptions
  generalize hs1 : cloneMqttOptions (beginConnect (s.log (.connect xioHandle mqttOptions)) xioHandle mqttOptions) mqttOptions = r
  rw [hs1] at hclone
  simp only [mqttClientConnect, hs1]
  split
  · exact hclone.trans (session_steps_of_inner (steps_log _ _ trivial))
  · have hopen := hclone.trans (session_steps_of_inner (steps_xioOpen hd r.1 xioHandle))
    split
    · rename_i hfail
      have hdetach : Steps ClientStep (xioOpen dispatch r.1 xioHandle).1
          { (xioOpen dispatch r.1 xioHandle).1 with
            client := { (xioOpen dispatch r.1 xioHandle).1.client with xioHandle := none } } :=
        steps_outer _ _ (.openFailed (since_inner (steps_callBack hd _) (since_snoc_event (decide_eq_true hfail))))
      refine ((hopen.trans (session_steps hdetach)).trans (steps_clearMqttOptions _)).trans ?_
      exact session_steps_of_inner (steps_log _ _ trivial)
    · exact hopen.trans (session_steps_of_inner (steps_log _ _ trivial))

omit hd in
theorem plainType_of_request : ∀ t ∈ [ControlPacketType.publishType, .subscribeType, .unsubscribeType], PlainType t := by decide

theorem steps_sendRequest (s : Session) {t : ControlPacketType}
    (ht : t ∈ [ControlPacketType.publishType, .subscribeType, .unsubscribeType]) {packet : Alloc Buffer}
    (hp : packet.Ensures (·.packetType = some t)) : Steps ClientStep s (sendRequest dispatch s t packet).1 := by
  have halloc := steps_alloc s packet
  have hplain : PlainType t := plainType_of_request t ht
  rw [sendRequest]
  rcases h : s.alloc packet with ⟨_ | built, s'⟩
  · rw [h] at halloc
    exact inner_steps halloc
  · rw [h] at halloc
    refine ((inner_steps halloc).trans (steps_outer s' _ (.request t ht))).trans (inner_steps ?_)
    exact steps_sendPacketItem hd _ (hp.of_produces (alloc_produces h)) hplain

/-- `mqtt_client_disconnect` makes steps that keep the options, and clears them. -/
theorem mqttClientDisconnect_cleared (s : Session) (callback : Option DisconnectedCallback) :
    ∃ t, Steps ClientStep s t ∧ (mqttClientDisconnect dispatch s callback).1 = clearMqttOptions t := by
  have hlog : Steps ClientStep s (s.log (.disconnect callback)) := Outer.steps _ _ (.disconnect callback) rfl
  simp only [mqttClientDisconnect]
  split
  · rename_i hconn
    have halloc := hlog.trans (inner_steps (steps_alloc (s.log (.disconnect callback)) mqttCodecDisconnect))
    rcases h : (s.log (.disconnect callback)).alloc mqttCodecDisconnect with ⟨_ | packet, s'⟩
    · rw [h] at halloc
      exact ⟨_, halloc.trans (steps_outer s' _ .disconnectNoPacket), rfl⟩
    · have htype := packetType_mqttCodecDisconnect.of_produces (alloc_produces h)
      have hclient : s'.client = s.client := (client_of_alloc h :)
      have hhist : s'.history = s.history ++ [.disconnect callback] := (history_of_alloc h :)
      rw [h] at halloc
      refine ⟨_, steps_sendPacketItem_of hd fun u result hu hh => halloc.trans ?_, rfl⟩
      refine Outer.steps u [.xioSend s'.client.xioHandle packet result] ?_ hh
      rw [hu]
      refine .disconnectPacket callback packet result ?_ ?_ htype
      · rw [hhist, List.getLast?_concat]
      · rw [hclient]
        exact hconn
  · have hplain := hlog.trans (steps_outer (s.log (.disconnect callback)) _ (.disconnectPlain callback (getLast?_log _ _)))
    refine ⟨_, hplain.trans ?_, rfl⟩
    exact inner_steps (steps_closeConnection hd _ (Or.inr (Or.inr ⟨s.history, callback, rfl⟩)))

theorem steps_mqttClientDisconnect (s : Session) (callback : Option DisconnectedCallback) :
    Steps SessionStep s (mqttClientDisconnect dispatch s callback).1 := by
  obtain ⟨t, hsteps, heq⟩ := mqttClientDisconnect_cleared hd s callback
  rw [heq]
  exact (session_steps hsteps).trans (steps_clearMqttOptions t)

theorem steps_sendPing (s : Session) (hc : s.client.mqttStatus.clientConnected = true) :
    Steps ClientStep s (sendPing dispatch s) := by
  have halloc := inner_steps (steps_alloc s mqttCodecPing)
  rw [sendPing]
  rcases h : s.alloc mqttCodecPing with ⟨_ | packet, s'⟩
  · rw [h] at halloc
    exact halloc
  · have htype := packetType_mqttCodecPing.of_produces (alloc_produces h)
    have hclient : s'.client = s.client := client_of_alloc h
    rw [h] at halloc
    have hsend : Steps ClientStep s (sendPacketItem dispatch s' packet).1 := by
      refine steps_sendPacketItem_of hd fun u result hu hh => halloc.trans ?_
      refine Outer.steps u [.xioSend s'.client.xioHandle packet result] ?_ hh
      rw [hu]
      exact .ping packet result (hclient ▸ hc) htype
    simp only
    split
    · exact (hsend.trans (steps_outer _ _ .pingReset)).trans (inner_steps (steps_setErrorCallback hd _ _))
    · have hclock := hsend.trans (inner_steps (steps_askClock (sendPacketItem dispatch s' packet).1))
      rcases hck : (sendPacketItem dispatch s' packet).1.askClock with ⟨_ | currentMs, s2⟩
      · rw [hck] at hclock
        exact hclock
      · rw [hck] at hclock
        exact hclock.trans (steps_outer _ _ (.pingSent currentMs))

theorem steps_keepAlive (s : Session) : Steps ClientStep s (keepAlive dispatch s) := by
  rw [keepAlive]
  split
  · rename_i hon
    have hclock := inner_steps (steps_askClock s)
    rcases h : s.askClock with ⟨_ | currentMs, s'⟩
    · rw [h] at hclock
      exact hclock
    · have hclient : s'.client = s.client := client_of_askClock h
      rw [h] at hclock
      simp only
      split
      · exact (hclock.trans (inner_steps (steps_setErrorCallback hd _ _))).trans (steps_outer _ _ .pingReset)
      · split
        · exact hclock.trans (steps_sendPing hd s' (hclient ▸ hon.2.1))
        · exact hclock
  · exact .refl

theorem steps_handleWork (w : World) (event : WorkEvent) :
    Steps WorkStep w.callContext (handleWork dispatch w event).callContext := by
  cases event with
  | io e => exact work_steps (steps_handleEvent hd _ e)
  | bytes buffer => exact steps_onBytesReceived hd w buffer

theorem steps_handleWorks (w : World) (events : List WorkEvent) :
    Steps WorkStep w.callContext (events.foldl (handleWork dispatch) w).callContext := by
  induction events generalizing w with
  | nil => exact .refl
  | cons event events ih => exact (steps_handleWork hd w event).trans (ih _)

theorem steps_mqttClientDowork (w : World) (events : List WorkEvent) :
    Steps KeepStep w.callContext (mqttClientDowork dispatch w events).callContext := by
  rw [mqttClientDowork]
  split
  · exact .refl
  · split
    · rename_i hpend
      exact keep_steps ((inner_steps (steps_closeConnection hd _ (Or.inl hpend))).trans (steps_outer _ _ .pendingDone))
    · have hlog : Steps WorkStep w.callContext (w.callContext.log (.xioDowork w.callContext.client.xioHandle)) :=
        work_steps (steps_log _ _ trivial)
      have hwork := hlog.trans
        (steps_handleWorks hd { w with callContext := w.callContext.log (.xioDowork w.callContext.client.xioHandle) } events)
      exact (keep_steps_of_work hwork).trans (keep_steps (steps_keepAlive hd _))

end

/-- Every call without bytes except `mqtt_client_connect` and `mqtt_client_disconnect` keeps the options. -/
theorem steps_keepingSessionCall (depth : Nat) (s : Session) {call : Call} (hcall : call.keepsOptions = true) :
    Steps ClientStep s (sessionCall depth s call) := by
  have hd := steps_deliver depth
  cases call with
  | connect xioHandle mqttOptions =>
    rcases xioHandle with _ | xioHandle
    · exact .refl
    · rcases mqttOptions with _ | mqttOptions
      · exact .refl
      · exact absurd hcall Bool.false_ne_true
  | publish msgHandle =>
    rcases msgHandle with _ | msgHandle
    · exact .refl
    · exact steps_sendRequest hd _ (by decide) (packetType_mqttCodecPublish _ _ _ _ _ _)
  | subscribe packetId subscribeList =>
    simp only [sessionCall, mqttClientSubscribe]
    split
    · exact .refl
    · exact steps_sendRequest hd _ (by decide) (packetType_mqttCodecSubscribe _ _)
  | unsubscribe packetId unsubscribeList =>
    simp only [sessionCall, mqttClientUnsubscribe]
    split
    · exact .refl
    · exact steps_sendRequest hd _ (by decide) (packetType_mqttCodecUnsubscribe _ _)
  | sendMessageResponse packetId qosValue =>
    simp only [sessionCall, mqttClientSendMessageResponse]
    split
    · exact .refl
    · exact inner_steps (steps_sendMessageAck hd _ _ _)
  | disconnect callback => exact absurd hcall Bool.false_ne_true
  | clearXio => exact Outer.steps _ _ .clear rfl
  | dowork events => exact .refl
  | xio event => exact .refl

/-- Every call except `mqtt_client_connect` and `mqtt_client_disconnect` keeps the options. -/
theorem steps_keepingCall (depth : Nat) (w : World) {call : Call} (hcall : call.keepsOptions = true) :
    Steps KeepStep w.callContext (runCall depth w call).callContext := by
  cases call with
  | dowork events => exact steps_mqttClientDowork (steps_deliver depth) w events
  | xio event => exact keep_steps_of_work (steps_handleWork (steps_deliver depth) w event)
  | _ => exact keep_steps (steps_keepingSessionCall depth w.callContext hcall)

/-- A call without bytes. -/
theorem steps_sessionCall (depth : Nat) (s : Session) (call : Call) :
    Steps SessionStep (beginCall s call) (sessionCall depth s call) := by
  cases call with
  | connect xioHandle mqttOptions =>
    rcases xioHandle with _ | xioHandle
    · exact .refl
    · rcases mqttOptions with _ | mqttOptions
      · exact .refl
      · exact steps_mqttClientConnect (steps_deliver depth) s xioHandle mqttOptions
  | disconnect callback => exact steps_mqttClientDisconnect (steps_deliver depth) s callback
  | _ => exact session_steps (steps_keepingSessionCall depth s rfl)

/-- Every call is steps of a run. -/
theorem steps_runCall (depth : Nat) (w : World) (call : Call) :
    Steps RunStep (beginCall w.callContext call) (runCall depth w call).callContext := by
  cases call with
  | dowork events => exact run_steps_of_keep (steps_keepingCall depth w rfl)
  | xio event => exact run_steps_of_keep (steps_keepingCall depth w rfl)
  | _ => exact run_steps (steps_sessionCall depth w.callContext _)

/-! ## Runs -/

/-- A run of calls that keep the options. -/
theorem steps_keepingRun (depth : Nat) (w : World) {calls : List Call} (h : ∀ call ∈ calls, call.keepsOptions = true) :
    Steps KeepStep w.callContext (run depth w calls).callContext := by
  induction calls generalizing w with
  | nil => exact .refl
  | cons call calls ih =>
    have hcall := steps_keepingCall depth w (h call List.mem_cons_self)
    exact hcall.trans (ih _ fun c hc => h c (List.mem_cons_of_mem _ hc))

/-- What the steps preserve, and what the first thing that a call does preserves in a world that meets the condition, a run whose
calls meet the condition preserves. -/
theorem run_preserves {I : Session → Prop} {P : World → Call → Prop} (hstep : ∀ s t, RunStep s t → I s → I t)
    (hbegin : ∀ w call, P w call → I w.callContext → I (beginCall w.callContext call)) {depth : Nat} {w : World}
    {calls : List Call} (h : RunMeets P depth w calls) (hw : I w.callContext) : I (run depth w calls).callContext := by
  induction calls generalizing w with
  | nil => exact hw
  | cons call calls ih =>
    obtain ⟨hP, hrest⟩ := h
    exact ih hrest ((steps_runCall depth w call).preserves hstep (hbegin w call hP hw))

end Umqtt
