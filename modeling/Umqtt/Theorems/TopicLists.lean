import Umqtt.Lemmas.Reading

/-!
# SUBSCRIBE and UNSUBSCRIBE hold the whole list

With memory at hand, `mqtt_codec_subscribe` and `mqtt_codec_unsubscribe` return NULL when there is no topic or one is too long for its
length field, and otherwise a packet in which a reader of MQTT finds the packet id and every topic in its place.
-/

namespace Umqtt

open Cells Alloc Reader

/-! ## The bodies -/

/-- What a SUBSCRIBE asks for. -/
def SubscribePayload.meaning (item : SubscribePayload) : List UInt8 × UInt8 := (item.subscribeTopic.val, item.qosReturn.toByte)

/-- A topic with a quality of service is read as it was written. -/
theorem reads_subscribeField {item : SubscribePayload} (hle : strlen item.subscribeTopic ≤ ushrtMax)
    (hq : item.qosReturn ∈ [QosValue.deliverAtMostOnce, .deliverAtLeastOnce, .deliverExactlyOnce]) :
    Reads Mqtt.topicRequest (subscribeField item) item.meaning := by
  have hqos : item.qosReturn.toByte ≤ 2 := by
    have hall : ∀ q ∈ [QosValue.deliverAtMostOnce, .deliverAtLeastOnce, .deliverExactlyOnce], q.toByte ≤ 2 := by decide
    exact hall _ hq
  refine (reads_utfField hle).bind ?_
  rw [← List.append_nil [item.qosReturn.toByte]]
  exact (reads_next _).bind ((reads_check hqos).bind (reads_pure _))

theorem readsAll_subscribeBody (packetId : UInt16) {subscribeList : List SubscribePayload}
    (hle : ∀ item ∈ subscribeList, strlen item.subscribeTopic ≤ ushrtMax)
    (hq : ∀ item ∈ subscribeList, item.qosReturn ∈ [QosValue.deliverAtMostOnce, .deliverAtLeastOnce, .deliverExactlyOnce]) :
    ReadsAll Mqtt.subscribe (subscribeBody packetId subscribeList) (packetId, subscribeList.map SubscribePayload.meaning) := by
  have htopics := readsAll_untilEnd subscribeList (fun item hitem => reads_subscribeField (hle item hitem) (hq item hitem))
    fun item _ => by simp [subscribeField]
  exact (reads_uint16Bytes packetId).bindAll (htopics.map fun topics => (packetId, topics))

theorem readsAll_unsubscribeBody (packetId : UInt16) {unsubscribeList : List CString}
    (hle : ∀ topic ∈ unsubscribeList, strlen topic ≤ ushrtMax) :
    ReadsAll Mqtt.unsubscribe (unsubscribeBody packetId unsubscribeList) (packetId, unsubscribeList.map Subtype.val) := by
  have hreads : ∀ topic ∈ unsubscribeList, Reads Mqtt.string (unsubscribeField topic) topic.val :=
    fun topic htopic => reads_utfField (hle topic htopic)
  have htopics := readsAll_untilEnd unsubscribeList hreads fun topic _ => by simp [unsubscribeField, utfField, uint16Bytes]
  exact (reads_uint16Bytes packetId).bindAll (htopics.map fun topics => (packetId, topics))

/-! ## The packets -/

/-- SUBSCRIBE and UNSUBSCRIBE hold the whole list. With memory at hand, and topics whose packet stays below 268435456 bytes, the two
encoders return NULL exactly when the list is empty or a topic is longer than 65535 bytes, and otherwise a packet that is read as the
packet id and the list, with nothing left over. -/
theorem topicLists_decode (packetId : UInt16) :
    (∀ (subscribeList : List SubscribePayload) (heap : Heap),
      (∀ item ∈ subscribeList, item.qosReturn ∈ [QosValue.deliverAtMostOnce, .deliverAtLeastOnce, .deliverExactlyOnce]) →
      (2 + (subscribeList.map fun item => strlen item.subscribeTopic + 3).sum < 268435456) → Meets heap (5 + subscribeList.length) →
      (((mqttCodecSubscribe packetId subscribeList).answer heap).1 = none ↔
        subscribeList = [] ∨ ∃ item ∈ subscribeList, strlen item.subscribeTopic > ushrtMax) ∧
      ∀ packet, ((mqttCodecSubscribe packetId subscribeList).answer heap).1 = some packet →
        ∃ bytes, packet = Buffer.ofBytes bytes ∧
          Mqtt.decodeSubscribe bytes = some (packetId, subscribeList.map SubscribePayload.meaning)) ∧
    (∀ (unsubscribeList : List CString) (heap : Heap),
      (2 + (unsubscribeList.map fun topic => strlen topic + 2).sum < 268435456) → Meets heap (5 + unsubscribeList.length) →
      (((mqttCodecUnsubscribe packetId unsubscribeList).answer heap).1 = none ↔
        unsubscribeList = [] ∨ ∃ topic ∈ unsubscribeList, strlen topic > ushrtMax) ∧
      ∀ packet, ((mqttCodecUnsubscribe packetId unsubscribeList).answer heap).1 = some packet →
        ∃ bytes, packet = Buffer.ofBytes bytes ∧
          Mqtt.decodeUnsubscribe bytes = some (packetId, unsubscribeList.map Subtype.val)) := by
  refine ⟨?_, ?_⟩
  · intro subscribeList heap hq hlen hheap
    rw [show 5 + subscribeList.length = 1 + (1 + (subscribeList.length + 3)) by omega] at hheap
    have haccepted : ¬(subscribeList = [] ∨ ∃ item ∈ subscribeList, strlen item.subscribeTopic > ushrtMax) →
        subscribeList ≠ [] ∧ ∀ item ∈ subscribeList, strlen item.subscribeTopic ≤ ushrtMax := by
      intro hn
      exact ⟨fun hnil => hn (Or.inl hnil), fun item hitem => Nat.not_lt.mp fun hlong => hn (Or.inr ⟨item, hitem, hlong⟩)⟩
    exact (Request.subscribe packetId subscribeList).decodes (show ControlPacketType.subscribeType.toByte ||| 2 = 0x82 by decide)
      trivial hheap (never_mqttCodecSubscribe packetId)
      (fun hn => needs_mqttCodecSubscribe packetId (haccepted hn).1 (haccepted hn).2)
      (fun hn => readsAll_subscribeBody packetId (haccepted hn).2 hq)
      (fun _ => by rw [Request.body, length_subscribeBody]; exact hlen)
  · intro unsubscribeList heap hlen hheap
    rw [show 5 + unsubscribeList.length = 1 + (1 + (unsubscribeList.length + 3)) by omega] at hheap
    have haccepted : ¬(unsubscribeList = [] ∨ ∃ topic ∈ unsubscribeList, strlen topic > ushrtMax) →
        unsubscribeList ≠ [] ∧ ∀ topic ∈ unsubscribeList, strlen topic ≤ ushrtMax := by
      intro hn
      exact ⟨fun hnil => hn (Or.inl hnil), fun topic htopic => Nat.not_lt.mp fun hlong => hn (Or.inr ⟨topic, htopic, hlong⟩)⟩
    exact (Request.unsubscribe packetId unsubscribeList).decodes
      (show ControlPacketType.unsubscribeType.toByte ||| 2 = 0xA2 by decide) trivial hheap (never_mqttCodecUnsubscribe packetId)
      (fun hn => needs_mqttCodecUnsubscribe packetId (haccepted hn).1 (haccepted hn).2)
      (fun hn => readsAll_unsubscribeBody packetId (haccepted hn).2)
      (fun _ => by rw [Request.body, length_unsubscribeBody]; exact hlen)

/-- A SUBSCRIBE with two topics and an UNSUBSCRIBE with one. -/
theorem topicLists_decode_two :
    let subscribeList : List SubscribePayload :=
      [⟨⟨[97], by decide⟩, .deliverAtLeastOnce⟩, ⟨⟨[98, 99], by decide⟩, .deliverExactlyOnce⟩]
    let unsubscribeList : List CString := [⟨[97], by decide⟩]
    ((((mqttCodecSubscribe 5 subscribeList).answer okHeap).1 = none ↔
        subscribeList = [] ∨ ∃ item ∈ subscribeList, strlen item.subscribeTopic > ushrtMax) ∧
      ∀ packet, ((mqttCodecSubscribe 5 subscribeList).answer okHeap).1 = some packet →
        ∃ bytes, packet = Buffer.ofBytes bytes ∧
          Mqtt.decodeSubscribe bytes = some (5, subscribeList.map SubscribePayload.meaning)) ∧
    ((((mqttCodecUnsubscribe 5 unsubscribeList).answer okHeap).1 = none ↔
        unsubscribeList = [] ∨ ∃ topic ∈ unsubscribeList, strlen topic > ushrtMax) ∧
      ∀ packet, ((mqttCodecUnsubscribe 5 unsubscribeList).answer okHeap).1 = some packet →
        ∃ bytes, packet = Buffer.ofBytes bytes ∧ Mqtt.decodeUnsubscribe bytes = some (5, unsubscribeList.map Subtype.val)) :=
  ⟨(topicLists_decode 5).1 _ okHeap (by decide) (by decide) (meets_okHeap _),
    (topicLists_decode 5).2 _ okHeap (by decide) (meets_okHeap _)⟩

end Umqtt
