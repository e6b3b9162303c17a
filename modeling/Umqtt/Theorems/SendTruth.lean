import Umqtt.Lemmas.Nested
import Umqtt.Theorems.Connected

/-!
# What a send returns

A request returns 0 exactly when `xio_send` has accepted its packet and the tick counter has answered afterwards. A clock that fails makes
the request fail after the packet has gone out, so a caller that tries again sends a duplicate. `mqtt_client_send_message_response` fails
for a packet id of 0, before anything is sent, and reports a reply that is not built or not accepted through the error callback.
-/

namespace Umqtt

open Alloc

/-! ## What has been accepted -/

/-- The packet that `xio_send` accepts. -/
def Action.accepted : Action → Option Buffer
  | .xioSend _ p .zero => some p
  | _ => none

/-- The packets that are accepted during a call. -/
def acceptedPackets (added : List Action) : List Buffer := added.filterMap Action.accepted

/-- Those of the call itself: a CONNECT is that of an open that completes during it. -/
def ownPackets (added : List Action) : List Buffer := (acceptedPackets added).filter (·.packetType ≠ some .connectType)

/-- A request tells the truth: 0 for exactly one accepted packet whose time of sending is known, and otherwise for none, unless it is the
time that is not known. -/
structure TellsRequest (result : MuResult) (added : List Action) : Prop where
  atMostOne : (ownPackets added).length ≤ 1
  zero_iff : result = .zero ↔
    (ownPackets added).length = 1 ∧ ∃ currentMs, [.clock (some currentMs), .sendReturns .zero] <:+ added
  failure : result ≠ .zero → ownPackets added = [] ∨ [.clock none, .sendReturns .muFailure] <:+ added

/-- An answer to a message: refused, nothing is sent; otherwise one packet at most, and a reply that is due and not accepted is an error
that is reported. -/
structure TellsResponse (packetId : UInt16) (qosValue : QosValue) (result : MuResult) (added : List Action) : Prop where
  atMostOne : (ownPackets added).length ≤ 1
  failure : result ≠ .zero → added = []
  reports : ownPackets added = [] → packetId ≠ 0 → qosValue = .deliverAtLeastOnce ∨ qosValue = .deliverExactlyOnce →
    .setErrorCallback .memoryError ∈ added ∨ .setErrorCallback .communicationError ∈ added

/-- An entry that stands for no packet of the call itself. -/
def Action.NotOwn (a : Action) : Prop := ∀ p, a.accepted = some p → p.packetType = some .connectType

theorem Action.Nested.notOwn {a : Action} (h : a.Nested) : a.NotOwn := by
  intro p hp
  cases a with
  | xioSend x q result =>
    cases result with
    | zero => exact Option.some.inj hp ▸ h
    | muFailure => nomatch hp
  | _ => nomatch hp

theorem ownPackets_append (added more : List Action) : ownPackets (added ++ more) = ownPackets added ++ ownPackets more := by
  simp only [ownPackets, acceptedPackets, List.filterMap_append, List.filter_append]

theorem ownPackets_eq_nil {added : List Action} (h : ∀ a ∈ added, a.NotOwn) : ownPackets added = [] := by
  refine List.filter_eq_nil_iff.mpr ?_
  intro p hp
  obtain ⟨a, ha, hap⟩ := List.mem_filterMap.mp hp
  simp [h a ha p hap]

theorem ownPackets_send {added : List Action} (h : ∀ a ∈ added, a.NotOwn) (x : Option XioHandle) {p : Buffer}
    (hp : p.packetType ≠ some .connectType) (result : MuResult) :
    ownPackets (.xioSend x p result :: added) = if result = .zero then [p] else [] := by
  have hhead : ownPackets [.xioSend x p result] = if result = .zero then [p] else [] := by
    cases result with
    | zero => exact List.filter_cons_of_pos (decide_eq_true hp)
    | muFailure => rfl
  rw [← List.singleton_append, ownPackets_append, hhead, ownPackets_eq_nil h, List.append_nil]

/-- A call that does nothing. -/
theorem TellsRequest.refused : TellsRequest .muFailure [] where
  atMostOne := Nat.zero_le 1
  zero_iff := iff_of_false MuResult.noConfusion fun h => absurd h.1 Nat.zero_ne_one
  failure _ := Or.inl rfl

/-- The ending of `sendPacketItem` tells whether the packet has been accepted. -/
theorem TellsRequest.of_finishes {c c' : MqttClient} {result returned : MuResult} {ending added : List Action} {p : Buffer}
    (hf : Finishes c result c' ending returned) (haccepted : ownPackets added = if result = .zero then [p] else [])
    (hsuffix : ending <:+ added) : TellsRequest returned added := by
  cases hf with
  | refused hr =>
    rw [if_neg hr] at haccepted
    refine ⟨by simp [haccepted], iff_of_false MuResult.noConfusion fun h => ?_, fun _ => Or.inl haccepted⟩
    exact absurd h.1 (by simp [haccepted])
  | noTime hr =>
    rw [if_pos hr] at haccepted
    refine ⟨by simp [haccepted], iff_of_false MuResult.noConfusion fun ⟨_, currentMs, hclock⟩ => ?_, fun _ => Or.inr hsuffix⟩
    have hlast := (List.suffix_of_suffix_length_le hclock hsuffix le_rfl).eq_of_length rfl
    simp at hlast
  | stamped currentMs hr =>
    rw [if_pos hr] at haccepted
    exact ⟨by simp [haccepted], iff_of_true rfl ⟨by simp [haccepted], currentMs, hsuffix⟩, fun h => absurd rfl h⟩

/-! ## Requests -/

section

variable {dispatch : List IoEvent → Session → Session} (hd : ∀ events s, Adds Action.Nested s (dispatch events s))

include hd

/-- `sendPacketItem` tells the truth of every packet but a CONNECT. -/
theorem tells_sendPacketItem (s : Session) {p : Buffer} (hp : p.packetType ≠ some .connectType) :
    ∃ added, (sendPacketItem dispatch s p).1.history = s.history ++ added ∧ TellsRequest (sendPacketItem dispatch s p).2 added := by
  obtain ⟨nested, hnested, hback⟩ := nested_callBack hd (s.handOver p)
  rw [sendPacketItem_eq]
  obtain ⟨ending, hf, hending⟩ := finishes (callBack dispatch (s.handOver p)) s.env.send.head
  have hall : ∀ a ∈ nested ++ ending, a.NotOwn := by
    intro a ha
    exact ((List.mem_append.mp ha).elim (hback a) (nested_finishes hf a)).notOwn
  refine ⟨.xioSend s.client.xioHandle p s.env.send.head :: (nested ++ ending), ?_, ?_⟩
  · rw [hending, hnested, Session.handOver, Session.log]
    simp
  · exact .of_finishes hf (ownPackets_send hall s.client.xioHandle hp s.env.send.head)
      ((List.suffix_append nested ending).trans (List.suffix_cons _ _))

theorem tells_sendRequest (s : Session) {t : ControlPacketType} (ht : t ≠ .connectType) {packet : Alloc Buffer}
    (hp : packet.Ensures (·.packetType = some t)) :
    ∃ added, (sendRequest dispatch s t packet).1.history = s.history ++ added ∧ TellsRequest (sendRequest dispatch s t packet).2 added := by
  unfold sendRequest
  rcases halloc : s.alloc packet with ⟨_ | built, s'⟩
  all_goals have hhist : s'.history = s.history := history_of_alloc halloc
  · exact ⟨[], by simp [hhist], .refused⟩
  · have htype : built.packetType = some t := hp.of_produces (alloc_produces halloc)
    rw [← hhist]
    exact tells_sendPacketItem hd { s' with client := { s'.client with packetState := t } } (htype ▸ mt Option.some.inj ht)

/-! ## Responses -/

/-- Nothing is accepted in `set_error_callback`. -/
theorem accepts_setErrorCallback (s : Session) (e : MqttClientEventError) :
    ∃ added, (setErrorCallback dispatch s e).history = s.history ++ .setErrorCallback e :: added ∧ ownPackets added = [] := by
  obtain ⟨added, hadded, hnone⟩ :=
    adds_setErrorCallback (P := Action.NotOwn) hd (fun _ => Action.Nested.notOwn) s (e := e) nofun
  refine ⟨added, ?_, ownPackets_eq_nil hnone⟩
  rw [hadded, Session.log, List.append_assoc]
  rfl

/-- A reply is accepted once, or the failure is reported. -/
theorem accepts_sendReply (s : Session) {t : ControlPacketType} (ht : t ≠ .connectType) {reply : Alloc Buffer}
    (hp : reply.Ensures (·.packetType = some t)) :
    ∃ added, (sendReply dispatch s reply).history = s.history ++ added ∧ (ownPackets added).length ≤ 1 ∧
      (ownPackets added = [] → .setErrorCallback .memoryError ∈ added ∨ .setErrorCallback .communicationError ∈ added) := by
  unfold sendReply
  rcases halloc : s.alloc reply with ⟨_ | pubRel, s'⟩
  all_goals have hhist : s'.history = s.history := history_of_alloc halloc
  · obtain ⟨added, hadded, hnone⟩ := accepts_setErrorCallback hd s' .memoryError
    have haccepted : ownPackets (.setErrorCallback .memoryError :: added) = [] := hnone
    exact ⟨_, hhist ▸ hadded, by simp [haccepted], fun _ => Or.inl List.mem_cons_self⟩
  · have htype : pubRel.packetType = some t := hp.of_produces (alloc_produces halloc)
    obtain ⟨sent, hsent, htells⟩ := tells_sendPacketItem hd s' (htype ▸ mt Option.some.inj ht)
    dsimp only
    split
    · obtain ⟨added, hadded, hnone⟩ := accepts_setErrorCallback hd (sendPacketItem dispatch s' pubRel).1 .communicationError
      have haccepted : ownPackets (sent ++ .setErrorCallback .communicationError :: added) = ownPackets sent := by
        rw [ownPackets_append]
        exact (congrArg _ hnone).trans (List.append_nil _)
      refine ⟨sent ++ .setErrorCallback .communicationError :: added, ?_, haccepted ▸ htells.atMostOne, fun _ => Or.inr (by simp)⟩
      rw [hadded, hsent, hhist, List.append_assoc]
    · rename_i hzero
      have hone := (htells.zero_iff.mp (not_not.mp hzero)).1
      exact ⟨sent, hhist ▸ hsent, htells.atMostOne, fun hnone => absurd hone (by simp [hnone])⟩

theorem tells_sendMessageResponse (s : Session) (packetId : UInt16) (qosValue : QosValue) :
    ∃ added, (mqttClientSendMessageResponse dispatch s packetId qosValue).1.history = s.history ++ added ∧
      TellsResponse packetId qosValue (mqttClientSendMessageResponse dispatch s packetId qosValue).2 added := by
  unfold mqttClientSendMessageResponse
  split
  · rename_i hid
    exact ⟨[], (List.append_nil _).symm, Nat.zero_le 1, fun _ => rfl, fun _ hne => absurd hid hne⟩
  · cases qosValue with
    | deliverExactlyOnce =>
      obtain ⟨added, hadded, hone, hreports⟩ := accepts_sendReply hd s (t := .pubrecType) (by decide)
        (packetType_mqttCodecPublishReceived packetId)
      exact ⟨added, hadded, hone, fun h => absurd rfl h, fun hnone _ _ => hreports hnone⟩
    | deliverAtLeastOnce =>
      obtain ⟨added, hadded, hone, hreports⟩ := accepts_sendReply hd s (t := .pubackType) (by decide)
        (packetType_mqttCodecPublishAck packetId)
      exact ⟨added, hadded, hone, fun h => absurd rfl h, fun hnone _ _ => hreports hnone⟩
    | qosValueInvalid | deliverAtMostOnce | deliverFailure =>
      exact ⟨[], (List.append_nil _).symm, Nat.zero_le 1, fun h => absurd rfl h, fun _ _ hqos => by simp at hqos⟩

theorem tells_publish (s : Session) (msgHandle : Option MqttMessage) :
    ∃ added, (mqttClientPublish dispatch s msgHandle).1.history = s.history ++ added ∧
      TellsRequest (mqttClientPublish dispatch s msgHandle).2 added := by
  cases msgHandle with
  | none => exact ⟨[], (List.append_nil _).symm, .refused⟩
  | some msgHandle => exact tells_sendRequest hd s (by decide) (packetType_mqttCodecPublish _ _ _ _ _ _)

theorem tells_subscribe (s : Session) (packetId : UInt16) (subscribeList : List SubscribePayload) :
    ∃ added, (mqttClientSubscribe dispatch s packetId subscribeList).1.history = s.history ++ added ∧
      TellsRequest (mqttClientSubscribe dispatch s packetId subscribeList).2 added := by
  unfold mqttClientSubscribe
  split
  · exact ⟨[], (List.append_nil _).symm, .refused⟩
  · exact tells_sendRequest hd s (by decide) (packetType_mqttCodecSubscribe _ _)

theorem tells_unsubscribe (s : Session) (packetId : UInt16) (unsubscribeList : List CString) :
    ∃ added, (mqttClientUnsubscribe dispatch s packetId unsubscribeList).1.history = s.history ++ added ∧
      TellsRequest (mqttClientUnsubscribe dispatch s packetId unsubscribeList).2 added := by
  unfold mqttClientUnsubscribe
  split
  · exact ⟨[], (List.append_nil _).symm, .refused⟩
  · exact tells_sendRequest hd s (by decide) (packetType_mqttCodecUnsubscribe _ _)

end

/-! ## The four functions -/

/-- The functions that send tell what has been accepted, in every state and whatever the memory, the xio and the clock do. -/
theorem send_api_tells (depth : Nat) (s : Session) :
    (∀ msgHandle, ∃ added, (mqttClientPublish (deliver depth) s msgHandle).1.history = s.history ++ added ∧
      TellsRequest (mqttClientPublish (deliver depth) s msgHandle).2 added) ∧
    (∀ packetId subscribeList, ∃ added,
      (mqttClientSubscribe (deliver depth) s packetId subscribeList).1.history = s.history ++ added ∧
      TellsRequest (mqttClientSubscribe (deliver depth) s packetId subscribeList).2 added) ∧
    (∀ packetId unsubscribeList, ∃ added,
      (mqttClientUnsubscribe (deliver depth) s packetId unsubscribeList).1.history = s.history ++ added ∧
      TellsRequest (mqttClientUnsubscribe (deliver depth) s packetId unsubscribeList).2 added) ∧
    ∀ packetId qosValue, ∃ added,
      (mqttClientSendMessageResponse (deliver depth) s packetId qosValue).1.history = s.history ++ added ∧
      TellsResponse packetId qosValue (mqttClientSendMessageResponse (deliver depth) s packetId qosValue).2 added :=
  have hd := nested_deliver depth
  ⟨tells_publish hd s, tells_subscribe hd s, tells_unsubscribe hd s, tells_sendMessageResponse hd s⟩

/-- A connected client, in surroundings that change after the CONNECT. -/
def connectedIn (env : Env) : Session := (run 1 (mqttClientInit true env okHeap) (openedWith 1 0)).callContext

/-- How many packets of any type are accepted between two states of a session. -/
def acceptedBetween (s t : Session) : Nat := (acceptedPackets (t.history.drop s.history.length)).length

/-- The clock fails after an UNSUBSCRIBE is accepted, and the request fails; the xio refuses a PUBACK, and the response returns 0; an open
completes while an UNSUBSCRIBE is handed over, and two packets are accepted. -/
theorem not_tells_literally :
    (let s := connectedIn { calmEnv with clock := fun n => if n = 0 then some 0 else none }
     let r := mqttClientUnsubscribe (deliver 1) s 6 [letterA]
     r.2 = .muFailure ∧ acceptedBetween s r.1 = 1) ∧
    (let s := connectedIn { calmEnv with send := fun n => if n = 0 then .zero else .muFailure }
     let r := mqttClientSendMessageResponse (deliver 1) s 7 .deliverAtLeastOnce
     r.2 = .zero ∧ acceptedBetween s r.1 = 0) ∧
    (let s := (run 1 (mqttClientInit true { calmEnv with sync := fun n => if n = 1 then [.openComplete .ioOpenOk] else [] } okHeap)
       [.connect (some 1) (some plainOptions)]).callContext
     let r := mqttClientUnsubscribe (deliver 1) s 6 [letterA]
     r.2 = .zero ∧ acceptedBetween s r.1 = 2) := by
  exact ⟨by decide +kernel, by decide +kernel, by decide +kernel⟩

end Umqtt
