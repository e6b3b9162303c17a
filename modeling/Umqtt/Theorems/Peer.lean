import Umqtt.Lemmas.Stored
import Umqtt.Lib.Packets
import Umqtt.Theorems.ConnectPacket
import Umqtt.Theorems.Granted
import Umqtt.Theorems.Relay
import Umqtt.Theorems.TopicLists

/-!
# What a server reads

The packets that an xio accepts from a client are packets of MQTT, one after another. A reader of the stream that knows nothing of the
client finds in it the requests of the application, in order and as they were made, and in a CONNECT the options of the latest connects
(`run_is_read`).
-/

namespace Umqtt

open Alloc Transcript Reader

/-! ## Requests -/

/-- The options that a CONNECT can hold: a client id, other strings that are NULL or not empty, and a quality of service of MQTT. -/
def MqttClientOptions.Legal (mqttOptions : MqttClientOptions) : Prop :=
  OptionsFilled mqttOptions ∧ mqttOptions.qualityOfServiceValue ∈ [QosValue.deliverAtMostOnce, .deliverAtLeastOnce, .deliverExactlyOnce]

instance (mqttOptions : MqttClientOptions) : Decidable mqttOptions.Legal := inferInstanceAs (Decidable ((_ ∧ _) ∧ _))

namespace Request

/-- What a request means. -/
def meaning : Request → Mqtt.ClientPacket
  | connect mqttOptions => .connect mqttOptions.meaning
  | publish qosValue duplicateMsg serverRetain packetId topicName msgBuffer =>
    .publish
      { duplicate := duplicateMsg, qos := qosValue.toByte, retain := serverRetain, topic := bytesOpt topicName,
        packetId := if qosValue = .deliverAtMostOnce then none else some packetId, payload := msgBuffer }
  | subscribe packetId subscribeList => .subscribe packetId (subscribeList.map SubscribePayload.meaning)
  | unsubscribe packetId unsubscribeList => .unsubscribe packetId (unsubscribeList.map Subtype.val)

/-- The qualities of service are those of MQTT. -/
def Proper : Request → Prop
  | connect mqttOptions => mqttOptions.Legal
  | publish qosValue .. => qosValue ∈ [QosValue.deliverAtMostOnce, .deliverAtLeastOnce, .deliverExactlyOnce]
  | subscribe _ subscribeList =>
    ∀ item ∈ subscribeList, item.qosReturn ∈ [QosValue.deliverAtMostOnce, .deliverAtLeastOnce, .deliverExactlyOnce]
  | unsubscribe .. => True

instance : (r : Request) → Decidable r.Proper
  | connect mqttOptions => inferInstanceAs (Decidable mqttOptions.Legal)
  | publish .. => inferInstanceAs (Decidable (_ ∈ _))
  | subscribe _ subscribeList => inferInstanceAs (Decidable (∀ item ∈ subscribeList, _))
  | unsubscribe .. => inferInstanceAs (Decidable True)

/-- The first byte of a PUBLISH says what it is, and holds its flags. -/
theorem first_publish {q : QosValue} (hq : q ∈ [QosValue.deliverAtMostOnce, .deliverAtLeastOnce, .deliverExactlyOnce])
    (duplicateMsg serverRetain : Bool) (packetId : UInt16) (topicName : Option CString) (msgBuffer : List UInt8) :
    let first := (EncoderCall.request (publish q duplicateMsg serverRetain packetId topicName msgBuffer)).first
    first ≠ 0x10 ∧ first >>> 4 = 3 ∧ ((first &&& 0x0F) >>> 1) &&& 3 = q.toByte ∧ ((first &&& 0x0F) >>> 1) &&& 3 ≤ 2 ∧
      decide ((first &&& 0x0F) &&& 8 ≠ 0) = duplicateMsg ∧ decide ((first &&& 0x0F) &&& 1 ≠ 0) = serverRetain ∧
      decide (q.toByte ≠ 0) = decide (q ≠ .deliverAtMostOnce) := by
  have hall : ∀ q ∈ [QosValue.deliverAtMostOnce, .deliverAtLeastOnce, .deliverExactlyOnce], ∀ d r : Bool,
      let first := ControlPacketType.publishType.toByte ||| ((if d then 8 else 0) + 2 * qosLevel q + (if r then 1 else 0))
      first ≠ 0x10 ∧ first >>> 4 = 3 ∧ ((first &&& 0x0F) >>> 1) &&& 3 = q.toByte ∧ ((first &&& 0x0F) >>> 1) &&& 3 ≤ 2 ∧
        decide ((first &&& 0x0F) &&& 8 ≠ 0) = d ∧ decide ((first &&& 0x0F) &&& 1 ≠ 0) = r ∧
        decide (q.toByte ≠ 0) = decide (q ≠ .deliverAtMostOnce) := by decide
  exact hall q hq duplicateMsg serverRetain

/-- The body of a PUBLISH is read as the message. -/
theorem readsAll_publish {q : QosValue} (hq : q ∈ [QosValue.deliverAtMostOnce, .deliverAtLeastOnce, .deliverExactlyOnce])
    (duplicateMsg serverRetain : Bool) (packetId : UInt16) {topicName : CString} (hle : strlen topicName ≤ ushrtMax)
    (msgBuffer : List UInt8) :
    let r := publish q duplicateMsg serverRetain packetId (some topicName) msgBuffer
    ReadsAll (Mqtt.clientBody (EncoderCall.request r).first) r.body r.meaning := by
  dsimp only
  obtain ⟨hconnect, htype, hqos, hmax, hdup, hretain, hid⟩ :=
    first_publish hq duplicateMsg serverRetain packetId (some topicName) msgBuffer
  have hreadId : Reads (optional (decide (q ≠ .deliverAtMostOnce)) Mqtt.uint16) (if q ≠ .deliverAtMostOnce then uint16Bytes packetId else [])
      (if q = .deliverAtMostOnce then none else some packetId) := by
    by_cases h0 : q = .deliverAtMostOnce
    · rw [if_neg (not_not_intro h0), if_pos h0, decide_eq_false (not_not_intro h0)]
      exact reads_pure none
    · rw [if_pos h0, if_neg h0, decide_eq_true h0]
      exact (reads_uint16Bytes packetId).map some
  have hbody : (publish q duplicateMsg serverRetain packetId (some topicName) msgBuffer).body =
      [] ++ (utfField topicName.val ++ ((if q ≠ .deliverAtMostOnce then uint16Bytes packetId else []) ++ msgBuffer)) := by
    simp only [body, Option.map_some, Option.getD_some, publishHeader, utfField, strlen, List.append_assoc, List.nil_append]
  rw [Mqtt.clientBody, if_neg hconnect, if_pos htype]
  refine ReadsAll.map ?_ _
  rw [Mqtt.publish, hbody]
  simp only [hqos, hdup, hretain, hid]
  refine (reads_check hmax).bindAll ?_
  refine (reads_utfField hle).bindAll (hreadId.bindAll ?_)
  exact (readsAll_rest msgBuffer).map _

/-- What is built for a request is read as the request. -/
theorem reads {r : Request} (hadm : r.Admitted) (hproper : r.Proper) (hlen : r.body.length < 268435456) :
    Reads Mqtt.clientPacket r.bytes r.meaning := by
  have hpacket := reads_packet hlen (EncoderCall.request r).first
  rw [← remainSize_eq (Nat.lt_trans hlen (by decide))] at hpacket
  refine Mqtt.reads_clientPacket hpacket ?_
  cases r with
  | connect mqttOptions =>
    have hfirst : (EncoderCall.request (connect mqttOptions)).first = 0x10 := show ControlPacketType.connectType.toByte ||| 0 = 0x10 by decide
    rw [hfirst]
    exact (readsAll_connectBody hproper.1 hadm.1 hproper.2).map Mqtt.ClientPacket.connect
  | publish qosValue duplicateMsg serverRetain packetId topicName msgBuffer =>
    cases topicName with
    | none => exact absurd hadm id
    | some topicName => exact readsAll_publish hproper duplicateMsg serverRetain packetId hadm.1 msgBuffer
  | subscribe packetId subscribeList =>
    have hfirst : (EncoderCall.request (subscribe packetId subscribeList)).first = 0x82 :=
      show ControlPacketType.subscribeType.toByte ||| 2 = 0x82 by decide
    rw [hfirst]
    exact (readsAll_subscribeBody packetId hadm.2 hproper).map fun fields => Mqtt.ClientPacket.subscribe fields.1 fields.2
  | unsubscribe packetId unsubscribeList =>
    have hfirst : (EncoderCall.request (unsubscribe packetId unsubscribeList)).first = 0xA2 :=
      show ControlPacketType.unsubscribeType.toByte ||| 2 = 0xA2 by decide
    rw [hfirst]
    exact (readsAll_unsubscribeBody packetId hadm.2).map fun fields => Mqtt.ClientPacket.unsubscribe fields.1 fields.2

end Request

/-! ## Packets that are handed over -/

/-- A packet is written throughout and read as it is meant; its type tells the requests apart. -/
structure ReadAs (packet : Buffer) (fields : Mqtt.ClientPacket) : Prop where
  reads : ∃ bytes, packet = Buffer.ofBytes bytes ∧ Reads Mqtt.clientPacket bytes fields
  isRequest : fields.isRequest = true ↔
    packet.packetType = some .publishType ∨ packet.packetType = some .subscribeType ∨ packet.packetType = some .unsubscribeType

/-- A CONNECT says options of successive connects. -/
def Meant (connects : List MqttClientOptions) : Mqtt.ClientPacket → Prop
  | .connect fields => ∃ latest, latest ≠ [] ∧ latest <:+: connects ∧ fields = (mergeAll latest).meaning
  | _ => True

/-- A packet that is handed over is read. -/
def Action.IsRead (connects : List MqttClientOptions) : Action → Prop
  | .xioSend _ built _ => ∃ fields, ReadAs built fields ∧ Meant connects fields
  | _ => True

/-- A packet whose remaining length is one byte is read when its body is. -/
theorem reads_shortPacket {first : UInt8} {body : List UInt8} {fields : Mqtt.ClientPacket} (hlen : body.length < 128)
    (hbody : ReadsAll (Mqtt.clientBody first) body fields) :
    Reads Mqtt.clientPacket (first :: UInt8.ofNat body.length :: body) fields := by
  have hpacket := reads_packet (show body.length < 268435456 by omega) first
  rw [lenField_lt hlen] at hpacket
  exact Mqtt.reads_clientPacket hpacket hbody

/-- A packet that is no request. -/
theorem readAs_of_not_request {bytes : List UInt8} {t : ControlPacketType} {fields : Mqtt.ClientPacket}
    (hread : Reads Mqtt.clientPacket bytes fields) (htype : (Buffer.ofBytes bytes).packetType = some t)
    (ht : t ∉ [ControlPacketType.publishType, .subscribeType, .unsubscribeType]) (hrequest : fields.isRequest = false) :
    ReadAs (Buffer.ofBytes bytes) fields where
  reads := ⟨bytes, rfl, hread⟩
  isRequest := by
    rw [htype, hrequest]
    simpa using ht

/-- The types and flags of the packets of four bytes. -/
def replyKinds : List (ControlPacketType × UInt8) := [(.pubackType, 0), (.pubrecType, 0), (.pubrelType, 2), (.pubcompType, 0)]

/-- A packet of four bytes is read as its packet id. -/
theorem readAs_replyBytes {t : ControlPacketType} {flags : UInt8} (h : (t, flags) ∈ replyKinds) (packetId : UInt16) :
    ∃ fields, ReadAs (Buffer.ofBytes (replyBytes t flags packetId)) fields ∧ ∀ connects, Meant connects fields := by
  have hkinds : ∀ k ∈ replyKinds, packetTypeByte (k.1.toByte ||| k.2) = k.1 ∧
      k.1 ∉ [ControlPacketType.publishType, .subscribeType, .unsubscribeType] := by decide
  obtain ⟨htype, ht⟩ := hkinds _ h
  have hgives : ∀ fields : Mqtt.ClientPacket, ReadsAll (Mqtt.clientBody (t.toByte ||| flags)) (uint16Bytes packetId) fields →
      fields.isRequest = false → ReadAs (Buffer.ofBytes (replyBytes t flags packetId)) fields := by
    intro fields hbody hrequest
    have hread := reads_shortPacket (show (uint16Bytes packetId).length < 128 from (by decide : 2 < 128)) hbody
    exact readAs_of_not_request hread (packetType_replyBytes t flags packetId htype) ht hrequest
  have hid := (reads_uint16Bytes packetId).readsAll
  simp only [replyKinds, List.mem_cons, Prod.mk.injEq, List.not_mem_nil, or_false] at h
  rcases h with ⟨rfl, rfl⟩ | ⟨rfl, rfl⟩ | ⟨rfl, rfl⟩ | ⟨rfl, rfl⟩
  · exact ⟨.puback packetId, hgives _ (hid.map Mqtt.ClientPacket.puback) rfl, fun _ => trivial⟩
  · exact ⟨.pubrec packetId, hgives _ (hid.map Mqtt.ClientPacket.pubrec) rfl, fun _ => trivial⟩
  · exact ⟨.pubrel packetId, hgives _ (hid.map Mqtt.ClientPacket.pubrel) rfl, fun _ => trivial⟩
  · exact ⟨.pubcomp packetId, hgives _ (hid.map Mqtt.ClientPacket.pubcomp) rfl, fun _ => trivial⟩

/-- A packet without a body. -/
theorem readAs_emptyPacket {first : UInt8} {t : ControlPacketType} {fields : Mqtt.ClientPacket} (htype : packetTypeByte first = t)
    (ht : t ∉ [ControlPacketType.publishType, .subscribeType, .unsubscribeType]) (hrequest : fields.isRequest = false)
    (hbody : ReadsAll (Mqtt.clientBody first) [] fields) : ReadAs (Buffer.ofBytes [first, 0]) fields :=
  readAs_of_not_request (reads_shortPacket (by decide) hbody) (congrArg some htype) ht hrequest

/-! ## Scripts -/

section

variable {connects : List MqttClientOptions}

theorem isRead_replies {r : Option Reply} {l : List Action} (h : Replies r l) (hr : ∀ x ∈ r, (x.type, x.flags) ∈ replyKinds) :
    ∀ a ∈ l, a.IsRead connects := by
  cases h with
  | notDue => exact List.forall_mem_nil _
  | sent r xioHandle result =>
    obtain ⟨fields, hread, hmeant⟩ := readAs_replyBytes (hr r rfl) r.packetId
    exact List.forall_mem_singleton.mpr ⟨fields, hread, hmeant connects⟩
  | notBuilt => exact List.forall_mem_singleton.mpr trivial

theorem kind_responseTo {packetId : UInt16} {qosValue : QosValue} {r : Reply} (h : responseTo packetId qosValue = some r) :
    (r.type, r.flags) ∈ replyKinds := by
  cases qosValue with
  | deliverAtLeastOnce | deliverExactlyOnce =>
    obtain rfl := Option.some.inj h
    simp [replyKinds]
  | qosValueInvalid | deliverAtMostOnce | deliverFailure => cases h

theorem kind_replyTo {x : Exchange} {r : Reply} (h : replyTo x = some r) : (r.type, r.flags) ∈ replyKinds := by
  cases x with
  | message m ack =>
    rw [replyTo_message] at h
    split at h
    · exact kind_responseTo h
    · cases h
  | event actionResult =>
    cases actionResult with
    | onPublishRecv | onPublishRel =>
      obtain rfl := Option.some.inj h
      simp [replyKinds]
    | _ => cases h
  | _ => cases h

/-- What a packet leads to is read. -/
theorem isRead_leads {d : Delivery} {l : List Action} (h : Leads d l) : ∀ a ∈ l, a.IsRead connects := by
  obtain ⟨rest, rfl, hrest⟩ := h.cases
  refine List.forall_mem_cons.mpr ⟨trivial, ?_⟩
  cases hrest with
  | message _ hr | event _ _ hr =>
    refine List.forall_mem_cons.mpr ⟨trivial, isRead_replies hr ?_⟩
    intro x hx
    exact kind_replyTo hx
  | nothing => exact List.forall_mem_nil _
  | loss hloss =>
    rw [List.forall_mem_singleton]
    rcases hloss with rfl | rfl <;> trivial

theorem isRead_works {event : WorkEvent} {l : List Action} (h : Works event l) : ∀ a ∈ l, a.IsRead connects := by
  cases event with
  | io e =>
    obtain rfl : l = [] := h
    exact List.forall_mem_nil _
  | bytes buffer =>
    cases h with
    | well hl => exact List.forall_mem_cons.mpr ⟨trivial, hl.forall_mem fun _ _ _ => isRead_leads⟩
    | badly hl =>
      refine List.forall_mem_cons.mpr ⟨trivial, List.forall_mem_append.mpr ⟨hl.forall_mem fun _ _ _ => isRead_leads, ?_⟩⟩
      exact List.forall_mem_singleton.mpr trivial

/-- What is built for the request of a call is read as the request. -/
theorem readAs_request {call : Call} {r : Request} (hr : call.request = some r) {built : Buffer} (hbuilt : r.packet.Produces built)
    (hproper : r.Proper) (hlen : r.body.length ≤ 268435455) : ReadAs built r.meaning := by
  obtain rfl := Request.bytes_of_produces hr hbuilt
  refine ⟨⟨_, rfl, Request.reads (Request.admitted_of_produces hbuilt) hproper (Nat.lt_succ_of_le hlen)⟩, ?_⟩
  rw [packetType_bytes]
  have hne := Call.request_ne_connect hr
  cases r with
  | connect => exact absurd rfl hne
  | _ => simp [Request.meaning, Mqtt.ClientPacket.isRequest, Request.type]

/-- The script of a call is read, when its request is proper. -/
theorem isRead_speech {call : Call} {result : MuResult} {l : List Action} (h : Speech call result l)
    (hcall : ∀ r ∈ call.request, r.Proper ∧ r.body.length ≤ 268435455) : ∀ a ∈ l, a.IsRead connects := by
  cases h with
  | @request _ r _ _ hr hs =>
    cases hs with
    | notBuilt => exact List.forall_mem_nil _
    | sent x hbuilt _ =>
      obtain ⟨hproper, hlen⟩ := hcall r hr
      have hmeant : Meant connects r.meaning := by
        have hne := Call.request_ne_connect hr
        cases r with
        | connect => exact absurd rfl hne
        | _ => trivial
      exact List.forall_mem_singleton.mpr ⟨r.meaning, readAs_request hr hbuilt hproper hlen, hmeant⟩
  | response _ _ hr =>
    refine isRead_replies hr ?_
    intro x hx
    exact kind_responseTo hx
  | disconnect _ hs =>
    cases hs with
    | notBuilt => exact List.forall_mem_nil _
    | sent x hbuilt _ =>
      obtain rfl := (ensures_emptyPacket .disconnectType).of_produces hbuilt
      have hread : ReadAs (Buffer.ofBytes [0xE0, 0]) .disconnect :=
        readAs_emptyPacket (t := .disconnectType) (by decide) (by decide) rfl rfl
      exact List.forall_mem_singleton.mpr ⟨.disconnect, hread, trivial⟩
  | dowork hworks halive =>
    refine List.forall_mem_append.mpr ⟨hworks.forall_mem fun _ _ _ => isRead_works, ?_⟩
    cases halive with
    | idle => exact List.forall_mem_nil _
    | ping =>
      have hread : ReadAs (Buffer.ofBytes [0xC0, 0]) .pingreq :=
        readAs_emptyPacket (t := .pingreqType) (by decide) (by decide) rfl rfl
      exact List.forall_mem_singleton.mpr ⟨.pingreq, hread, trivial⟩
    | dead => exact List.forall_mem_singleton.mpr trivial
  | xio hw => exact isRead_works hw
  | requestRefused | responseRefused | disconnectClosed | connect | clearXio | doworkClosed => exact List.forall_mem_nil _

end

/-! ## The CONNECT -/

theorem NullOrFilled.or {s s' : Option CString} (h : NullOrFilled s) (h' : NullOrFilled s') : NullOrFilled (s.or s') := by
  cases s with
  | none => exact h'
  | some s => exact h

/-- The strings that need not be there are NULL or not empty. -/
def StringsFilled (mqttOptions : MqttClientOptions) : Prop :=
  ∀ s ∈ [mqttOptions.willTopic, mqttOptions.willMessage, mqttOptions.username, mqttOptions.password], NullOrFilled s

theorem stringsFilled_mergeOptions {mqttOptions stored : MqttClientOptions} (h : StringsFilled mqttOptions)
    (hs : StringsFilled stored) : StringsFilled (mergeOptions mqttOptions stored) := by
  simp only [StringsFilled, List.forall_mem_cons, List.not_mem_nil, false_implies, implies_true, and_true] at h hs ⊢
  obtain ⟨htopic, hmessage, husername, hpassword⟩ := h
  obtain ⟨htopic', hmessage', husername', hpassword'⟩ := hs
  exact ⟨htopic.or htopic', hmessage.or hmessage', husername.or husername', hpassword.or hpassword'⟩

theorem stringsFilled_mergeAll {latest : List MqttClientOptions} (h : ∀ mqttOptions ∈ latest, StringsFilled mqttOptions) :
    StringsFilled (mergeAll latest) := by
  induction latest using List.reverseRecOn with
  | nil =>
    intro s hs
    simp only [mergeAll, List.foldl_nil, noOptions, List.mem_cons, List.not_mem_nil, or_false, or_self] at hs
    exact Or.inl hs
  | append_singleton latest mqttOptions ih =>
    rw [mergeAll, List.foldl_concat]
    exact stringsFilled_mergeOptions (h mqttOptions (by simp)) (ih fun o ho => h o (List.mem_append_left _ ho))

/-- Options that a CONNECT can hold, one over another, can be held by it. -/
theorem legal_mergeAll {latest : List MqttClientOptions} (hne : latest ≠ []) (h : ∀ mqttOptions ∈ latest, mqttOptions.Legal) :
    (mergeAll latest).Legal := by
  obtain ⟨init, last, rfl⟩ := (List.eq_nil_or_concat latest).resolve_left hne
  have hfilled : StringsFilled (mergeAll (init.concat last)) := stringsFilled_mergeAll fun o ho => (h o ho).1.2
  obtain ⟨⟨hid, -⟩, hqos⟩ := h last (by simp)
  rw [List.concat_eq_append, mergeAll, List.foldl_concat] at hfilled ⊢
  refine ⟨⟨?_, hfilled⟩, hqos⟩
  intro hnone
  exact hid (Option.or_eq_none_iff.mp hnone).1

/-- A CONNECT that is handed over is read as options of the latest connects. -/
theorem isRead_connect {h : List Action} (hconnects : ConnectsGiven h) (hoptions : ∀ mqttOptions ∈ given h, mqttOptions.Legal)
    {xioHandle : Option XioHandle} {built : Buffer} {result : MuResult} (ha : Action.xioSend xioHandle built result ∈ h)
    (htype : built.packetType = some .connectType) : (Action.xioSend xioHandle built result).IsRead (given h) := by
  obtain ⟨pre, post, rfl⟩ := List.append_of_mem ha
  obtain ⟨mqttOptions, ⟨latest, hne, hlatest, rfl⟩, hbuilt⟩ := hconnects pre _ post rfl xioHandle built result rfl htype
  have hwithin : latest <:+: given (pre ++ .xioSend xioHandle built result :: post) :=
    hlatest.isInfix.trans ((List.prefix_append pre _).filterMap Action.asGiven).isInfix
  have hlegal := legal_mergeAll hne fun o ho => hoptions o (hwithin.subset ho)
  have hadm : (Request.connect (mergeAll latest)).Admitted := Request.admitted_of_produces (r := .connect _) hbuilt
  obtain rfl := ((EncoderCall.request (.connect (mergeAll latest))).ensures_packet hlegal.1).of_produces hbuilt
  refine ⟨.connect (mergeAll latest).meaning, ⟨⟨_, rfl, ?_⟩, ?_⟩, latest, hne, hwithin, rfl⟩
  · exact Request.reads (r := .connect _) hadm hlegal (length_connectBody hadm.1)
  · rw [htype]
    exact iff_of_false Bool.false_ne_true (by decide)

/-! ## The stream -/

/-- A packet is handed over and accepted. -/
def Action.isAccept : Action → Bool
  | .xioSend _ _ .zero => true
  | _ => false

/-- The bytes of a packet that is accepted. -/
def Action.sent : Action → List UInt8
  | .xioSend _ built .zero => built.bytes
  | _ => []

/-- What is read of a packet that is accepted, by itself. -/
def Action.asRead : Action → Option Mqtt.ClientPacket
  | .xioSend _ built .zero => whole Mqtt.clientPacket built.bytes
  | _ => none

theorem ReadAs.whole_eq {built : Buffer} {fields : Mqtt.ClientPacket} (h : ReadAs built fields) :
    whole Mqtt.clientPacket built.bytes = some fields := by
  obtain ⟨bytes, rfl, hread⟩ := h.reads
  rw [bytes_ofBytes]
  exact hread.readsAll.whole_eq

/-- An entry adds a packet to the stream that is read, and to the outbox if it is a request, or it adds nothing. -/
theorem Action.IsRead.cases {connects : List MqttClientOptions} {a : Action} (h : a.IsRead connects) :
    (∃ built fields, ReadAs built fields ∧ Meant connects fields ∧ a.sent = built.bytes ∧ a.asRead = some fields ∧ a.isAccept = true ∧
      a.asPost = if fields.isRequest then some (built, .zero) else none) ∨
    (a.sent = [] ∧ a.asRead = none ∧ a.isAccept = false ∧ ∀ p ∈ a.asPost, p.2 ≠ .zero) := by
  cases a with
  | xioSend xioHandle built result =>
    obtain ⟨fields, hread, hmeant⟩ := h
    cases result with
    | zero =>
      refine Or.inl ⟨built, fields, hread, hmeant, rfl, hread.whole_eq, rfl, ?_⟩
      simp only [asPost, hread.isRequest]
    | muFailure =>
      refine Or.inr ⟨rfl, rfl, rfl, ?_⟩
      intro p hp
      simp only [asPost, Option.mem_def] at hp
      split at hp
      · obtain rfl := Option.some.inj hp
        exact MuResult.noConfusion
      · cases hp
  | _ => exact Or.inr ⟨rfl, rfl, rfl, fun p hp => by cases hp⟩

section

variable {connects : List MqttClientOptions} {part : List Action} (h : ∀ a ∈ part, a.IsRead connects)

include h

/-- The stream of some of the entries is read packet by packet. -/
theorem clientPackets_sent : Mqtt.clientPackets (part.flatMap Action.sent) = some (part.filterMap Action.asRead) ∧
    (part.filterMap Action.asRead).length = part.countP Action.isAccept := by
  -- the packets, each with what it is read as
  have hpairs : ∃ cs : List (List UInt8 × Mqtt.ClientPacket), (∀ c ∈ cs, Reads Mqtt.clientPacket c.1 c.2) ∧
      part.flatMap Action.sent = cs.flatMap Prod.fst ∧ part.filterMap Action.asRead = cs.map Prod.snd ∧
      cs.length = part.countP Action.isAccept := by
    induction part with
    | nil => exact ⟨[], fun c hc => absurd hc List.not_mem_nil, rfl, rfl, rfl⟩
    | cons a part ih =>
      obtain ⟨ha, hpart⟩ := List.forall_mem_cons.mp h
      obtain ⟨cs, hreads, hbytes, hfields, hlen⟩ := ih hpart
      rcases ha.cases with ⟨built, fields, ⟨⟨bytes, rfl, hread⟩, -⟩, -, hsent, hasRead, hacc, -⟩ | ⟨hsent, hasRead, hacc, -⟩
      · refine ⟨(bytes, fields) :: cs, List.forall_mem_cons.mpr ⟨hread, hreads⟩, ?_, ?_, ?_⟩
        · rw [List.flatMap_cons, List.flatMap_cons, hsent, bytes_ofBytes, hbytes]
        · rw [List.filterMap_cons_some hasRead, hfields, List.map_cons]
        · rw [List.countP_cons_of_pos hacc, List.length_cons, hlen]
      · refine ⟨cs, hreads, ?_, ?_, ?_⟩
        · rw [List.flatMap_cons, hsent, List.nil_append, hbytes]
        · rw [List.filterMap_cons_none hasRead, hfields]
        · rw [List.countP_cons_of_neg (by rw [hacc]; exact Bool.false_ne_true), hlen]
  obtain ⟨cs, hreads, hbytes, hfields, hlen⟩ := hpairs
  rw [hbytes, hfields, List.length_map]
  exact ⟨Mqtt.clientPackets_flatMap hreads, hlen⟩

/-- The requests that are read are those of the outbox that are accepted. -/
theorem requests_asRead : (part.filterMap Action.asRead).filter Mqtt.ClientPacket.isRequest =
    (((outbox part).filter fun p => p.2 = .zero).map Prod.fst).filterMap fun built => whole Mqtt.clientPacket built.bytes := by
  induction part with
  | nil => rfl
  | cons a part ih =>
    obtain ⟨ha, hpart⟩ := List.forall_mem_cons.mp h
    have hrest := ih hpart
    rw [outbox] at hrest ⊢
    rcases ha.cases with ⟨built, fields, hread, -, -, hasRead, -, hpost⟩ | ⟨-, hasRead, -, hpost⟩
    · rw [List.filterMap_cons_some hasRead]
      by_cases hreq : fields.isRequest = true
      · rw [if_pos hreq] at hpost
        rw [List.filter_cons_of_pos hreq, List.filterMap_cons_some hpost, List.filter_cons_of_pos (by simp), List.map_cons, hrest]
        exact (List.filterMap_cons_some (f := fun built : Buffer => whole Mqtt.clientPacket built.bytes) hread.whole_eq).symm
      · rw [if_neg hreq] at hpost
        rw [List.filter_cons_of_neg hreq, List.filterMap_cons_none hpost, hrest]
    · rw [List.filterMap_cons_none hasRead, hrest]
      rcases hasPost : a.asPost with _ | p
      · rw [List.filterMap_cons_none hasPost]
      · rw [List.filterMap_cons_some hasPost, List.filter_cons_of_neg (by simpa using hpost p hasPost)]

/-- A CONNECT that is read says options of successive connects. -/
theorem meant_of_asRead : ∀ fields ∈ part.filterMap Action.asRead, Meant connects fields := by
  intro fields hfields
  obtain ⟨a, ha, hasRead⟩ := List.mem_filterMap.mp hfields
  rcases (h a ha).cases with ⟨built, fields', -, hmeant, -, hasRead', -⟩ | ⟨-, hnone, -⟩
  · rwa [Option.some.inj (hasRead.symm.trans hasRead')]
  · cases hnone.symm.trans hasRead

end

/-! ## Runs -/

/-- Every packet that is handed over in a run is read, when the options and the requests are those of MQTT. -/
theorem isRead_run (r : ClientRun) (hoptions : ∀ mqttOptions ∈ given r.history, mqttOptions.Legal)
    (hrequests : ∀ q ∈ r.requests, q.1.Proper ∧ q.1.body.length ≤ 268435455) : ∀ a ∈ r.history, a.IsRead (given r.history) := by
  obtain ⟨l, hl, added, hadded, hspoken⟩ := speaks_run r.depth r.start r.calls
  have hhist : r.history = added := hadded
  have hread : ∀ a ∈ l, a.IsRead (given r.history) := by
    refine hl.forall_mem fun c hc l hs => isRead_speech hs fun request hr => hrequests (request, c.2) ?_
    exact List.mem_filterMap.mpr ⟨c, hc, by rw [hr]; rfl⟩
  intro a ha
  by_cases hsp : a.isSpoken = true
  · exact hread a (hspoken ▸ List.mem_filter.mpr ⟨hhist ▸ ha, hsp⟩)
  · cases a with
    | xioSend xioHandle built result =>
      have htype : built.packetType = some .connectType := by simpa [Action.isSpoken] using hsp
      exact isRead_connect (connects_run r.fnOnErrorCallBack r.env r.heap r.depth r.calls) hoptions ha htype
    | _ => trivial

/-- What a server reads is what the application asked for: in any run, whatever the memory, the xio and the clock do, the packets that are
accepted in any part of the history make up a stream that a reader of MQTT reads, packet by packet. The PUBLISH, SUBSCRIBE and UNSUBSCRIBE
packets that it reads are requests of the calls, in their order and with their values, those that succeeded among them; and a CONNECT says
the options of successive connects, one over another. -/
theorem run_is_read (r : ClientRun) (hoptions : ∀ mqttOptions ∈ given r.history, mqttOptions.Legal)
    (hrequests : ∀ q ∈ r.requests, q.1.Proper ∧ q.1.body.length ≤ 268435455) :
    (∀ part, part <:+: r.history → Mqtt.clientPackets (part.flatMap Action.sent) = some (part.filterMap Action.asRead) ∧
      (part.filterMap Action.asRead).length = part.countP Action.isAccept) ∧
    (∃ sent, sent.Sublist r.requests ∧ (r.requests.filter fun q => q.2 = .zero).Sublist sent ∧
      (r.history.filterMap Action.asRead).filter Mqtt.ClientPacket.isRequest = sent.map fun q => q.1.meaning) ∧
    ∀ fields, .connect fields ∈ r.history.filterMap Action.asRead →
      ∃ latest, latest ≠ [] ∧ latest <:+: given r.history ∧ fields = (mergeAll latest).meaning := by
  have hread := isRead_run r hoptions hrequests
  refine ⟨fun part hpart => clientPackets_sent fun a ha => hread a (hpart.subset ha), ?_, fun fields => meant_of_asRead hread _⟩
  obtain ⟨l, hl, houtbox⟩ := posted_run r.depth r.start r.calls
  obtain ⟨sent, hsub, hzero, hbuilt, hsent⟩ := sent_of_posted hl
  have hbox : outbox r.history = l := houtbox
  refine ⟨sent, hsub, hzero, ?_⟩
  rw [requests_asRead hread, hbox, hsent, List.filterMap_map]
  have hmeaning : ∀ q ∈ sent, whole Mqtt.clientPacket (Buffer.ofBytes q.1.bytes).bytes = some q.1.meaning := by
    intro q hq
    obtain ⟨hproper, hlen⟩ := hrequests q (hsub.subset hq)
    rw [bytes_ofBytes]
    exact (Request.reads (Request.admitted_of_produces (hbuilt q hq)) hproper (Nat.lt_succ_of_le hlen)).readsAll.whole_eq
  exact (List.filterMap_congr hmeaning).trans (congrFun List.filterMap_eq_map sent)

/-- Two connections: one that is lost before its request, and one with a user name and two requests. -/
theorem run_is_read_twoConnections :
    let r : ClientRun := ⟨true, calmEnv, okHeap, 1,
      openedWith 1 0 ++ [.xio (.io .ioError), .xio (.io .closeComplete), .connect (some 2) (some userOptions),
        .xio (.io (.openComplete .ioOpenOk)), .publish (some (messageOnA 7 .deliverAtLeastOnce [1, 2])),
        .subscribe 5 [⟨letterA, .deliverExactlyOnce⟩]]⟩
    (∀ part, part <:+: r.history → Mqtt.clientPackets (part.flatMap Action.sent) = some (part.filterMap Action.asRead) ∧
      (part.filterMap Action.asRead).length = part.countP Action.isAccept) ∧
    (∃ sent, sent.Sublist r.requests ∧ (r.requests.filter fun q => q.2 = .zero).Sublist sent ∧
      (r.history.filterMap Action.asRead).filter Mqtt.ClientPacket.isRequest = sent.map fun q => q.1.meaning) ∧
    ∀ fields, .connect fields ∈ r.history.filterMap Action.asRead →
      ∃ latest, latest ≠ [] ∧ latest <:+: given r.history ∧ fields = (mergeAll latest).meaning :=
  run_is_read _ (by decide +kernel) (by decide +kernel)

end Umqtt
