import Umqtt.Theorems.Connected
import Umqtt.Theorems.Outbox
import Umqtt.Theorems.RoundTrip

/-!
# From one client to another

A client that receives the bytes of the PUBLISH packets that another client's xio has accepted, in any cut and as far as they have come,
hears what has been published, in order and each message once (`relay`). Neither client is disturbed by anything else that it does, or
that is done to it.
-/

namespace Umqtt

open Alloc Transcript Feed

/-! ## Messages -/

namespace Request

/-- The message that a PUBLISH is heard as. -/
def message : Request → Option MqttMessage
  | publish qosValue duplicateMsg serverRetain packetId (some topicName) msgBuffer =>
    some { packetId := if qosValue = .deliverAtMostOnce then 0 else packetId, qosInfo := qosValue, topicName := none, appPayload := [],
           constTopicName := some topicName.val, constPayload := msgBuffer, isDuplicateMsg := duplicateMsg,
           isMessageRetained := serverRetain }
  | _ => none

/-- A PUBLISH that is heard as it was published: its quality of service is one that MQTT has, the flags of one without acknowledgement
are not set, a packet id is there if there is an acknowledgement, and topic and packet are of a length that is read. -/
structure Readable (qosValue : QosValue) (duplicateMsg serverRetain : Bool) (packetId : UInt16) (topicName : CString)
    (msgBuffer : List UInt8) : Prop where
  qos : qosValue ∈ [.deliverAtMostOnce, .deliverAtLeastOnce, .deliverExactlyOnce]
  plain : ¬(qosValue = .deliverAtMostOnce ∧ (duplicateMsg = true ∨ serverRetain = true))
  id : qosValue ≠ .deliverAtMostOnce → packetId ≠ 0
  topic : 0 < strlen topicName ∧ strlen topicName ≤ ushrtMax
  length_le : (publishBody qosValue packetId topicName msgBuffer).length ≤ 2097151

instance (qosValue : QosValue) (duplicateMsg serverRetain : Bool) (packetId : UInt16) (topicName : CString) (msgBuffer : List UInt8) :
    Decidable (Readable qosValue duplicateMsg serverRetain packetId topicName msgBuffer) :=
  decidable_of_iff (qosValue ∈ [QosValue.deliverAtMostOnce, .deliverAtLeastOnce, .deliverExactlyOnce] ∧
      ¬(qosValue = .deliverAtMostOnce ∧ (duplicateMsg = true ∨ serverRetain = true)) ∧
      (qosValue ≠ .deliverAtMostOnce → packetId ≠ 0) ∧ (0 < strlen topicName ∧ strlen topicName ≤ ushrtMax) ∧
      (publishBody qosValue packetId topicName msgBuffer).length ≤ 2097151)
    ⟨fun ⟨h1, h2, h3, h4, h5⟩ => ⟨h1, h2, h3, h4, h5⟩, fun ⟨h1, h2, h3, h4, h5⟩ => ⟨h1, h2, h3, h4, h5⟩⟩

/-- A PUBLISH is readable; other requests are not relayed. -/
def Relayed : Request → Prop
  | publish qosValue duplicateMsg serverRetain packetId (some topicName) msgBuffer =>
    Readable qosValue duplicateMsg serverRetain packetId topicName msgBuffer
  | publish _ _ _ _ none _ => False
  | _ => True

instance : (r : Request) → Decidable r.Relayed
  | publish _ _ _ _ (some _) _ => inferInstanceAs (Decidable (Readable _ _ _ _ _ _))
  | publish _ _ _ _ none _ => inferInstanceAs (Decidable False)
  | connect _ | subscribe _ _ | unsubscribe _ _ => inferInstanceAs (Decidable True)

/-- The packet that is written. -/
def toPacket (r : Request) : Packet := ⟨(EncoderCall.request r).first, r.body⟩

/-- It is the packet of a PUBLISH. -/
theorem toPacket_publish (qosValue : QosValue) (duplicateMsg serverRetain : Bool) (packetId : UInt16) (topic : CString)
    (msgBuffer : List UInt8) :
    (publish qosValue duplicateMsg serverRetain packetId (some topic) msgBuffer).toPacket =
      publishPacket qosValue duplicateMsg serverRetain packetId topic msgBuffer := by
  rw [publishPacket, publishHeaderFlags_eq]
  rfl

/-- A packet with a message is said as the message. -/
theorem said_message {p : Packet} {m : MqttMessage} (hbody : p.body ≠ []) (ht : p.type = .publishType)
    (hm : publishMessage p.flags p.body = some m) : p.delivery.said = [.message m] := by
  have hlen : (bodyOf p.delivery.headerData).length > 0 := by
    rw [Packet.delivery, p.bodyOf_headerData]
    exact List.length_pos_iff.mpr hbody
  have htype : p.delivery.packet ≠ .subackType := fun hsub => by cases ht.symm.trans hsub
  have hheard : p.delivery.heard = some (.message m) := by
    rw [p.heard_delivery, Packet.heard, ht, Umqtt.heard, hm, Option.map_some]
  rw [Delivery.said, if_pos (Or.inl hlen), if_neg htype, hheard]

/-- A readable PUBLISH is framed, is its bytes, and says its message. -/
theorem Relayed.spec {r : Request} (h : r.Relayed) (ht : r.type = .publishType) :
    r.toPacket.Framed ∧ r.bytes = r.toPacket.wire ∧ ∃ m, r.message = some m ∧ r.toPacket.delivery.said = [.message m] := by
  cases r with
  | publish qosValue duplicateMsg serverRetain packetId topicName msgBuffer =>
    rcases topicName with _ | topic
    · exact absurd h id
    have hread : Readable qosValue duplicateMsg serverRetain packetId topic msgBuffer := h
    obtain ⟨hpos, hle⟩ := hread.topic
    obtain ⟨htype, hflags⟩ := first_publishPacket hread.qos duplicateMsg serverRetain packetId topic msgBuffer
    obtain ⟨hdup, hretain⟩ := masks_publishHeaderFlags hread.qos duplicateMsg serverRetain
    have hq := (publishQosValue_publishHeaderFlags hread.qos duplicateMsg serverRetain).mpr hread.plain
    have hbytes : (publish qosValue duplicateMsg serverRetain packetId (some topic) msgBuffer).bytes =
        (publish qosValue duplicateMsg serverRetain packetId (some topic) msgBuffer).toPacket.wire := by
      have hlen : (publish qosValue duplicateMsg serverRetain packetId (some topic) msgBuffer).body.length < 2 ^ 64 :=
        Nat.lt_of_le_of_lt hread.length_le (by decide)
      rw [bytes, Packet.wire, remainSize_eq hlen]
      rfl
    have hmessage := publishMessage_publishBody hq hread.id hpos hle msgBuffer
    rw [hdup, hretain, ← hflags] at hmessage
    rw [hbytes, toPacket_publish]
    refine ⟨framed_publishPacket hread.qos duplicateMsg serverRetain packetId topic hread.length_le, rfl, _, rfl, ?_⟩
    exact said_message (by simp [publishPacket, publishBody, publishHeader, uint16Bytes]) htype hmessage
  | _ => cases ht

end Request

/-! ## What has been sent -/

/-- The PUBLISH packets that `xio_send` has accepted, in order. -/
def sentPublishes (history : List Action) : List Buffer :=
  ((outbox history).filter fun p => p.2 = .zero ∧ p.1.packetType = some .publishType).map Prod.fst

/-- The requests whose packets have been accepted: a part of those that were made, and those that succeeded are among them. -/
theorem sent_of_posted {rs : List (Request × MuResult)} {l : List (Buffer × MuResult)} (h : Scripts Posted rs l) :
    ∃ sent, sent.Sublist rs ∧ (rs.filter fun r => r.2 = .zero).Sublist sent ∧
      (∀ r ∈ sent, r.1.packet.Produces (Buffer.ofBytes r.1.bytes)) ∧
      (l.filter fun p => p.2 = .zero).map Prod.fst = sent.map fun r => Buffer.ofBytes r.1.bytes := by
  induction h with
  | nil => exact ⟨[], .slnil, .slnil, fun r hr => absurd hr List.not_mem_nil, rfl⟩
  | @cons r rs l more hfirst _ ih =>
    obtain ⟨sent, hsub, hzero, hbuilt, hsent⟩ := ih
    cases hfirst with
    | handedOver result hfirst hok =>
      rcases result with _ | _
      · refine ⟨r :: sent, hsub.cons_cons r, ?_, List.forall_mem_cons.mpr ⟨hfirst, hbuilt⟩, ?_⟩
        · rw [List.filter_cons]
          split
          · exact hzero.cons_cons r
          · exact hzero.cons r
        · rw [List.singleton_append, List.filter_cons_of_pos (by simp), List.map_cons, hsent, List.map_cons]
      · have hfailed : ¬r.2 = .zero := fun hr => by cases hok hr
        refine ⟨sent, hsub.cons r, ?_, hbuilt, ?_⟩
        · rwa [List.filter_cons_of_neg (by simpa using hfailed)]
        · rwa [List.singleton_append, List.filter_cons_of_neg (by simp)]
    | failed hne =>
      refine ⟨sent, hsub.cons r, ?_, hbuilt, hsent⟩
      rwa [List.filter_cons_of_neg (by simpa using hne)]

/-- The messages of requests, in order. -/
def messagesOf (rs : List (Request × MuResult)) : List Heard := rs.filterMap fun r => r.1.message.map Heard.message

/-- What the accepted PUBLISH packets are, and what they say. -/
theorem packets_of_sent {sent : List (Request × MuResult)} (h : ∀ r ∈ sent, r.1.Relayed) :
    ∃ ps : List Packet, (∀ p ∈ ps, p.Framed) ∧
      ((sent.map fun r => Buffer.ofBytes r.1.bytes).filter fun p => p.packetType = some .publishType).flatMap Buffer.bytes = wireOf ps ∧
      ps.flatMap (fun p => p.delivery.said) = messagesOf sent := by
  induction sent with
  | nil => exact ⟨[], by simp, rfl, rfl⟩
  | cons r sent ih =>
    obtain ⟨ps, hframed, hwire, hsaid⟩ := ih fun x hx => h x (List.mem_cons_of_mem _ hx)
    rw [List.map_cons]
    by_cases ht : r.1.type = .publishType
    · obtain ⟨hfirst, hbytes, m, hm, hmsg⟩ := (h r List.mem_cons_self).spec ht
      refine ⟨r.1.toPacket :: ps, List.forall_mem_cons.mpr ⟨hfirst, hframed⟩, ?_, ?_⟩
      · rw [List.filter_cons_of_pos (by simpa [packetType_bytes] using ht), List.flatMap_cons, hwire, bytes_ofBytes, hbytes]
        rfl
      · rw [List.flatMap_cons, hmsg, hsaid, messagesOf, messagesOf, List.filterMap_cons_some (by rw [hm, Option.map_some])]
        rfl
    · have hnone : r.1.message = none := by
        rcases r with ⟨r, result⟩
        cases r with
        | publish => exact absurd rfl ht
        | _ => rfl
      refine ⟨ps, hframed, ?_, ?_⟩
      · rwa [List.filter_cons_of_neg (by simpa [packetType_bytes] using ht)]
      · rw [hsaid, messagesOf, messagesOf, List.filterMap_cons_none (by rw [hnone, Option.map_none])]

/-! ## What has been received -/

/-- A recording codec forgets nothing. -/
theorem prefix_replayChunk (c : Codec (List Delivery)) (buffer : Option (List UInt8)) :
    c.callContext <+: (replayChunk c buffer).callContext := by
  have hstep (packet : ControlPacketType) (flags : UInt8) (headerData : Option Buffer) (log : List Delivery)
      (h : c.callContext <+: log) : c.callContext <+: record packet flags headerData log :=
    h.trans (List.prefix_append log _)
  have hcall : c.callContext <+: (mqttCodecBytesReceived record c buffer).1.callContext :=
    bytesReceived_preserves (P := fun log => c.callContext <+: log) hstep (List.prefix_refl _) buffer
  simp only [replayChunk]
  split <;> exact hcall

/-- The packets that have come through a stream so far. -/
theorem replay_cut {ps : List Packet} (h : ∀ p ∈ ps, p.Framed) {bufs : List (List UInt8)} (hne : ∀ buf ∈ bufs, buf ≠ [])
    (hcut : bufs.flatten <+: wireOf ps) :
    (replay ⟨mqttCodecCreate, okHeap, []⟩ (bufs.map some)).callContext <+: ps.map Packet.delivery ∧
      (bufs.flatten = wireOf ps → (replay ⟨mqttCodecCreate, okHeap, []⟩ (bufs.map some)).callContext = ps.map Packet.delivery) := by
  have hwhole : bufs.flatten = wireOf ps →
      (replay ⟨mqttCodecCreate, okHeap, []⟩ (bufs.map some)).callContext = ps.map Packet.delivery := fun heq => (replay_framed h hne heq).2
  refine ⟨?_, hwhole⟩
  obtain ⟨rest, hrest⟩ := hcut
  by_cases hnil : rest = []
  · rw [hnil, List.append_nil] at hrest
    rw [hwhole hrest]
  · -- one more chunk completes the stream
    have hmore : ∀ buf ∈ bufs ++ [rest], buf ≠ [] := by
      intro buf hbuf
      rcases List.mem_append.mp hbuf with hbuf | hbuf
      · exact hne buf hbuf
      · rwa [List.mem_singleton.mp hbuf]
    have hall := (replay_framed h hmore (by simpa using hrest)).2
    have hlast : replay ⟨mqttCodecCreate, okHeap, []⟩ ((bufs ++ [rest]).map some) =
        replayChunk (replay ⟨mqttCodecCreate, okHeap, []⟩ (bufs.map some)) (some rest) := by simp [replay]
    rw [← hall, hlast]
    exact prefix_replayChunk _ (some rest)

/-- What is told is a part of what the packets say. -/
theorem sublist_of_aligned {ds : List Delivery} {out : List Heard}
    (h : Scripts (fun (d : Delivery) out => out = d.said ∨ out = []) ds out) : out.Sublist (ds.flatMap Delivery.said) := by
  induction h with
  | nil => exact .slnil
  | cons hfirst _ ih =>
    rw [List.flatMap_cons]
    refine List.Sublist.append ?_ ih
    rcases hfirst with rfl | rfl
    · exact List.Sublist.refl _
    · exact List.nil_sublist _

/-! ## Two runs -/

/-- A run of a client that has just been made. -/
structure ClientRun where
  fnOnErrorCallBack : Bool
  env : Env
  heap : Heap
  depth : Nat
  calls : List Call

namespace ClientRun

/-- Where the run starts. -/
def start (r : ClientRun) : World := mqttClientInit r.fnOnErrorCallBack r.env r.heap

/-- All that has happened. -/
def history (r : ClientRun) : List Action := (run r.depth r.start r.calls).callContext.history

/-- The requests that its calls make, each with what is returned. -/
def requests (r : ClientRun) : List (Request × MuResult) := asked (results r.depth r.start r.calls)

/-- The bytes of the PUBLISH packets that its xio has accepted. -/
def published (r : ClientRun) : List UInt8 := (sentPublishes r.history).flatMap Buffer.bytes

/-- The requests whose packets have been accepted, and the packets that make up what is published. -/
theorem published_spec (r : ClientRun) (h : ∀ q ∈ r.requests, q.1.Relayed) :
    ∃ sent, sent.Sublist r.requests ∧ (r.requests.filter fun q => q.2 = .zero).Sublist sent ∧
      ∃ ps : List Packet, (∀ p ∈ ps, p.Framed) ∧ r.published = wireOf ps ∧ ps.flatMap (fun p => p.delivery.said) = messagesOf sent := by
  obtain ⟨l, hl, houtbox⟩ := posted_run r.depth r.start r.calls
  obtain ⟨sent, hsub, hzero, -, hsent⟩ := sent_of_posted hl
  obtain ⟨ps, hframed, hwire, hsaid⟩ := packets_of_sent fun q hq => h q (hsub.subset hq)
  refine ⟨sent, hsub, hzero, ps, hframed, ?_, hsaid⟩
  have hbox : outbox r.history = l := houtbox
  have hfilter : (l.filter fun p => p.2 = .zero ∧ p.1.packetType = some .publishType).map Prod.fst =
      ((l.filter fun p => p.2 = .zero).map Prod.fst).filter fun p => p.packetType = some .publishType := by
    rw [List.filter_map, List.filter_filter]
    congr 1
    exact List.filter_congr fun p _ => by simp [Bool.and_comm]
  rw [published, sentPublishes, hbox, hfilter, hsent, hwire]

end ClientRun

/-- What is published arrives: a client that receives the bytes of the PUBLISH packets that another one's xio has accepted, cut in any
way and as far as they have come, is told what was published, in the order of the calls and each message once, whatever else the two clients
do. The messages that were published with success are among those that are sent, and unless a loss is reported the client is told all that
has come through. -/
theorem relay (sender receiver : ClientRun) (hreadable : ∀ q ∈ sender.requests, q.1.Relayed) (hheap : receiver.heap = okHeap)
    {bufs : List (List UInt8)} (hne : ∀ buf ∈ bufs, buf ≠ []) (hbufs : chunks receiver.history = bufs.map some)
    (hbytes : bufs.flatten <+: sender.published) :
    ∃ sent, sent.Sublist sender.requests ∧ (sender.requests.filter fun q => q.2 = .zero).Sublist sent ∧
      (told receiver.history).Sublist (messagesOf sent) ∧
      ((∀ a ∈ receiver.history, ¬a.Loss) → told receiver.history <+: messagesOf sent ∧
        (bufs.flatten = sender.published → told receiver.history = messagesOf sent)) := by
  obtain ⟨sent, hsub, hzero, ps, hframed, hwire, hsaid⟩ := sender.published_spec hreadable
  rw [hwire] at hbytes ⊢
  obtain ⟨hfront, hwhole⟩ := replay_cut hframed hne hbytes
  obtain ⟨haligned, hcomplete⟩ : Faithful Delivery.said Action.asHeard receiver.history :=
    faithful_told_run receiver.fnOnErrorCallBack receiver.env receiver.heap receiver.depth receiver.calls
  have hdeliveries : deliveries receiver.history = (replay ⟨mqttCodecCreate, receiver.heap, []⟩ (chunks receiver.history)).callContext :=
    deliveries_replay receiver.fnOnErrorCallBack receiver.env receiver.heap receiver.depth receiver.calls
  rw [hbufs, hheap] at hdeliveries
  rw [← hdeliveries] at hfront hwhole
  have hall : (ps.map Packet.delivery).flatMap Delivery.said = messagesOf sent := by rw [List.flatMap_map, hsaid]
  have hcome := hfront.flatMap Delivery.said
  rw [hall] at hcome
  refine ⟨sent, hsub, hzero, (sublist_of_aligned haligned).trans hcome.sublist, ?_⟩
  intro hloss
  have htold : told receiver.history = (deliveries receiver.history).flatMap Delivery.said := hcomplete hloss
  rw [htold]
  refine ⟨hcome, ?_⟩
  intro heq
  rw [hwhole heq, hall]

theorem zero_not_mem_a : (0 : UInt8) ∉ [97] := by decide

/-- A message on the topic "a". -/
def messageOnA (packetId : UInt16) (qosValue : QosValue) (appPayload : List UInt8) : MqttMessage :=
  { packetId := packetId, qosInfo := qosValue, topicName := some ⟨[97], zero_not_mem_a⟩, appPayload := appPayload, constTopicName := none,
    constPayload := [], isDuplicateMsg := false, isMessageRetained := false }

/-- A client that connects and publishes two messages. -/
def twoMessages : ClientRun :=
  ⟨true, calmEnv, okHeap, 1, openedWith 1 0 ++
    [.publish (some (messageOnA 7 .deliverAtLeastOnce [1, 2])), .publish (some (messageOnA 0 .deliverAtMostOnce [3]))]⟩

/-- A client that connects and receives the first message, and the second but for its payload. -/
def twoChunks : ClientRun :=
  ⟨true, calmEnv, okHeap, 1,
    [.connect (some 2) (some plainOptions), .xio (.io (.openComplete .ioOpenOk)), .xio (.bytes (some [0x32, 7, 0])), .dowork [],
      .xio (.bytes (some [1, 97, 0, 7, 1, 2, 0x30, 4, 0, 1, 97]))]⟩

/-- The message that has come through is told. -/
theorem relay_twoMessages :
    ∃ sent, sent.Sublist twoMessages.requests ∧ (twoMessages.requests.filter fun q => q.2 = .zero).Sublist sent ∧
      (told twoChunks.history).Sublist (messagesOf sent) ∧
      ((∀ a ∈ twoChunks.history, ¬a.Loss) → told twoChunks.history <+: messagesOf sent ∧
        ([[0x32, 7, 0], [1, 97, 0, 7, 1, 2, 0x30, 4, 0, 1, 97]].flatten = twoMessages.published →
          told twoChunks.history = messagesOf sent)) :=
  relay twoMessages twoChunks (by decide +kernel) rfl (by decide) (by decide +kernel) (by decide +kernel)

end Umqtt
