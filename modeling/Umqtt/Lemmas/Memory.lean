import Umqtt.Lemmas.Bodies

/-!
# How much memory an encoder asks for

An encoder gives up at the first request for memory that is not met, and where its arguments are in order it gives up for no other
reason: it asks a number of times that follows from the arguments, and returns a packet exactly when all of them are met (`Needs`).
Where the arguments are not in order it returns NULL whatever the allocator answers (`Never`).
-/

namespace Umqtt

open Cells

/-- The next `n` requests are met. -/
def Meets (h : Heap) (n : Nat) : Prop := ∀ i < n, h.get i = true

instance (h : Heap) (n : Nat) : Decidable (Meets h n) := inferInstanceAs (Decidable (∀ i < n, h.get i = true))

theorem meets_zero (h : Heap) : Meets h 0 := fun _ hi => absurd hi (Nat.not_lt_zero _)

theorem meets_okHeap (n : Nat) : Meets okHeap n := fun _ _ => rfl

/-- The next requests are met, and those after them. -/
theorem meets_add (h : Heap) (n k : Nat) : Meets h (n + k) ↔ Meets h n ∧ Meets (h.drop n) k := by
  constructor
  · intro hm
    refine ⟨fun i hi => hm i (by omega), ?_⟩
    intro i hi
    rw [Stream'.get_drop]
    exact hm _ (by omega)
  · rintro ⟨hn, hk⟩ i hi
    by_cases hlt : i < n
    · exact hn i hlt
    · have := hk (i - n) (by omega)
      rwa [Stream'.get_drop, show n + (i - n) = i by omega] at this

theorem drop_okHeap (n : Nat) : okHeap.drop n = okHeap := Stream'.drop_const n true

namespace Alloc

/-- The computation asks for memory `n` times, and returns something exactly when every request is met. -/
structure Needs {α : Type} (m : Alloc α) (n : Nat) : Prop where
  met : ∀ h, Meets h n → ∃ a, m.answer h = (some a, h.drop n)
  unmet : ∀ h, ¬Meets h n → (m.answer h).1 = none

/-- The computation returns NULL whatever the allocator answers. -/
def Never {α : Type} (m : Alloc α) : Prop := ∀ h, (m.answer h).1 = none

theorem Needs.isSome_iff {α : Type} {m : Alloc α} {n : Nat} (hm : m.Needs n) (h : Heap) : (m.answer h).1.isSome ↔ Meets h n := by
  by_cases hmet : Meets h n
  · obtain ⟨a, ha⟩ := hm.met h hmet
    simp [ha, hmet]
  · simp [hm.unmet h hmet, hmet]

theorem needs_pure {α : Type} (a : α) : (pure a : Alloc α).Needs 0 where
  met := fun _ _ => ⟨a, rfl⟩
  unmet := fun h hn => absurd (meets_zero h) hn

theorem needs_takeMemory : takeMemory.Needs 1 where
  met := by
    intro h hm
    refine ⟨(), ?_⟩
    have hhead : h.head = true := hm 0 Nat.one_pos
    rw [answer, takeMemory, if_pos hhead]
    rfl
  unmet := by
    intro h hn
    have hhead : ¬h.head = true := fun hh => hn fun i hi => by
      rw [Nat.lt_one_iff.mp hi]
      exact hh
    rw [answer, takeMemory, if_neg hhead]

/-- In a sequence the requests add up; the second part may rely on what the first ensures. -/
theorem Needs.bind {α β : Type} {m : Alloc α} {f : α → Alloc β} {Q : α → Prop} {n k : Nat} (hm : m.Needs n) (hq : m.Ensures Q)
    (hf : ∀ a, Q a → (f a).Needs k) : (m >>= f).Needs (n + k) where
  met := by
    intro h hmet
    obtain ⟨hn, hk⟩ := (meets_add h n k).mp hmet
    obtain ⟨a, ha⟩ := hm.met h hn
    obtain ⟨b, hb⟩ := (hf a (hq _ _ _ ha)).met _ hk
    exact ⟨b, by rw [answer_bind, ha]; exact hb.trans (by rw [Stream'.drop_drop])⟩
  unmet := by
    intro h hunmet
    rw [answer_bind]
    by_cases hn : Meets h n
    · obtain ⟨a, ha⟩ := hm.met h hn
      rw [ha]
      exact (hf a (hq _ _ _ ha)).unmet _ fun hk => hunmet ((meets_add h n k).mpr ⟨hn, hk⟩)
    · rcases ha : m.answer h with ⟨_ | a, h'⟩
      · rfl
      · exact absurd (hm.unmet h hn) (by simp [ha])

/-- In a sequence the requests add up. -/
theorem Needs.then {α β : Type} {m : Alloc α} {f : α → Alloc β} {n k : Nat} (hm : m.Needs n) (hf : ∀ a, (f a).Needs k) :
    (m >>= f).Needs (n + k) :=
  hm.bind (Q := fun _ => True) (fun _ _ _ _ => trivial) fun a _ => hf a

theorem never_giveUp {α : Type} : (giveUp : Alloc α).Never := fun _ => rfl

/-- A sequence whose second part never returns anything returns nothing. -/
theorem never_bind {α β : Type} {m : Alloc α} {f : α → Alloc β} (hf : ∀ a, (f a).Never) : (m >>= f).Never := by
  intro h
  rw [answer_bind]
  rcases m.answer h with ⟨_ | a, h'⟩
  · rfl
  · exact hf a h'

/-- A sequence whose first part never returns anything returns nothing. -/
theorem Never.bind {α β : Type} {m : Alloc α} (hm : m.Never) (f : α → Alloc β) : (m >>= f).Never := by
  intro h
  rw [answer_bind]
  rcases ha : m.answer h with ⟨_ | a, h'⟩
  · rfl
  · exact absurd (hm h) (by simp [ha])

end Alloc

open Alloc

/-! ## The buffer -/

/-- One request, whose result does not depend on it. -/
theorem needs_takeMemory_pure {α : Type} (a : α) : (takeMemory >>= fun _ => pure a : Alloc α).Needs 1 :=
  needs_takeMemory.then fun _ => needs_pure a

theorem needs_bufferNew : bufferNew.Needs 1 := needs_takeMemory_pure _

theorem needs_bufferPreBuild (b : Buffer) (n : Nat) : (bufferPreBuild b n).Needs 1 := needs_takeMemory_pure _

theorem needs_bufferEnlarge (b : Buffer) {n : Nat} (h : 0 < n) : (bufferEnlarge b n).Needs 1 := by
  rw [bufferEnlarge_pos b h]
  exact needs_takeMemory_pure _

theorem needs_bufferPrepend (b b' : Buffer) : (bufferPrepend b b').Needs 1 := needs_takeMemory_pure _

/-! ## The parts of a packet -/

theorem needs_constructFixedHeader (ctrlPacket : Buffer) (t : ControlPacketType) (flags : UInt8) :
    (constructFixedHeader ctrlPacket t flags).Needs 3 :=
  needs_bufferNew.then fun _ => (needs_bufferPreBuild _ _).then fun _ => needs_bufferPrepend _ _

theorem needs_constructConnectVariableHeader (mqttOptions : MqttClientOptions) :
    (constructConnectVariableHeader ⟨[]⟩ mqttOptions).Needs 1 := by
  refine Needs.bind (k := 0) (needs_bufferEnlarge _ (by decide)) (ensures_bufferEnlarge _ _) ?_
  intro ctrlPacket hc
  subst hc
  exact needs_pure _

theorem needs_constructSubscibeTypeVariableHeader (packetId : UInt16) : (constructSubscibeTypeVariableHeader ⟨[]⟩ packetId).Needs 1 := by
  refine Needs.bind (k := 0) (needs_bufferEnlarge _ (by decide)) (ensures_bufferEnlarge _ _) ?_
  intro ctrlPacket hc
  subst hc
  exact needs_pure _

/-! ## CONNECT -/

/-- The options that the checks of `constructConnPayload` let through: the strings fit their length fields, a password comes with a
user name, and a will has its topic and its message. -/
def OptionsAccepted (mqttOptions : MqttClientOptions) : Prop :=
  OptionsFit mqttOptions ∧ ¬(strlenOpt mqttOptions.username = 0 ∧ strlenOpt mqttOptions.password > 0) ∧
    ¬((strlenOpt mqttOptions.willMessage > 0 ∧ strlenOpt mqttOptions.willTopic = 0) ∨
      (strlenOpt mqttOptions.willTopic > 0 ∧ strlenOpt mqttOptions.willMessage = 0))

theorem needs_constructConnPayload (ctrlPacket : Buffer) {mqttOptions : MqttClientOptions} (h : OptionsAccepted mqttOptions)
    (hpos : 0 < connPayloadLen mqttOptions) : (constructConnPayload ctrlPacket mqttOptions).Needs 1 := by
  obtain ⟨⟨hid, hmessage, htopic, husername, hpassword⟩, hpass, hwill⟩ := h
  unfold constructConnPayload
  dsimp only
  rw [if_neg (Nat.not_lt.mpr hid), if_neg hpass, if_neg hwill]
  refine Needs.then (k := 0) (needs_bufferEnlarge _ hpos) ?_
  intro enlarged
  rw [if_neg (by omega)]
  exact needs_pure _

/-- Options that are not let through, or that have no strings: the buffer is not enlarged by 0. -/
theorem never_constructConnPayload (ctrlPacket : Buffer) {mqttOptions : MqttClientOptions}
    (h : ¬(OptionsAccepted mqttOptions ∧ 0 < connPayloadLen mqttOptions)) : (constructConnPayload ctrlPacket mqttOptions).Never := by
  unfold constructConnPayload
  dsimp only
  split
  · exact never_giveUp
  · rename_i hid
    split
    · exact never_giveUp
    · rename_i hpass
      split
      · exact never_giveUp
      · rename_i hwill
        by_cases hzero : connPayloadLen mqttOptions = 0
        · rw [hzero]
          exact never_giveUp.bind _
        · refine never_bind ?_
          intro enlarged
          split
          · exact never_giveUp
          · exact absurd ⟨⟨by rw [OptionsFit]; omega, hpass, hwill⟩, Nat.pos_of_ne_zero hzero⟩ h

theorem needs_mqttCodecConnect {mqttOptions : MqttClientOptions} (h : OptionsAccepted mqttOptions)
    (hpos : 0 < connPayloadLen mqttOptions) : (mqttCodecConnect mqttOptions).Needs 6 := by
  refine Needs.bind (k := 1 + (1 + 3)) needs_bufferNew ensures_bufferNew ?_
  intro result hr
  subst hr
  exact (needs_constructConnectVariableHeader mqttOptions).then fun result =>
    (needs_constructConnPayload result h hpos).then fun result => needs_constructFixedHeader result _ _

theorem never_mqttCodecConnect {mqttOptions : MqttClientOptions}
    (h : ¬(OptionsAccepted mqttOptions ∧ 0 < connPayloadLen mqttOptions)) : (mqttCodecConnect mqttOptions).Never :=
  never_bind fun _ => never_bind fun result => (never_constructConnPayload result h).bind _

/-! ## PUBLISH -/

/-- The requests of `mqtt_codec_publish`: one more for a message that is not empty. -/
theorem needs_mqttCodecPublish (qosValue : QosValue) (duplicateMsg serverRetain : Bool) (packetId : UInt16) {topicName : CString}
    {msgBuffer : List UInt8} (ht : strlen topicName ≤ ushrtMax) (hm : msgBuffer.length ≤ maxSendSize) :
    (mqttCodecPublish qosValue duplicateMsg serverRetain packetId (some topicName) msgBuffer).Needs
      (5 + if msgBuffer.length > 0 then 1 else 0) := by
  have hheader := constructPublishVariableHeader_eq topicName packetId qosValue ht
  have happend : (appendMsgBuffer (Buffer.ofBytes (publishHeader topicName packetId qosValue)) msgBuffer).Needs
      (if msgBuffer.length > 0 then 1 else 0) := by
    rw [appendMsgBuffer_eq]
    split
    · exact needs_takeMemory_pure _
    · exact needs_pure _
  unfold mqttCodecPublish
  simp only [if_neg (Nat.not_lt.mpr hm)]
  rw [show 5 + (if msgBuffer.length > 0 then 1 else 0) = 1 + (1 + ((if msgBuffer.length > 0 then 1 else 0) + 3)) by omega]
  refine needs_bufferNew.bind ensures_bufferNew ?_
  intro result hr
  subst hr
  rw [show (⟨[]⟩ : Buffer) = Buffer.ofBytes [] from rfl, hheader]
  refine (needs_takeMemory_pure _).bind (Q := (· = Buffer.ofBytes (publishHeader topicName packetId qosValue)))
    (ensures_bind fun _ => ensures_pure rfl) fun result hr => ?_
  subst hr
  exact happend.then fun result => needs_constructFixedHeader result _ _

/-- Without a topic that fits its length field, or with a message over `MAX_SEND_SIZE`, there is no PUBLISH. -/
theorem never_mqttCodecPublish (qosValue : QosValue) (duplicateMsg serverRetain : Bool) (packetId : UInt16) {topicName : Option CString}
    {msgBuffer : List UInt8} (h : ¬∃ t, topicName = some t ∧ strlen t ≤ ushrtMax ∧ msgBuffer.length ≤ maxSendSize) :
    (mqttCodecPublish qosValue duplicateMsg serverRetain packetId topicName msgBuffer).Never := by
  unfold mqttCodecPublish
  rcases topicName with _ | t
  · exact never_giveUp
  · dsimp only
    split
    · exact never_giveUp
    · rename_i hmax
      have hlong : strlen t > ushrtMax := by
        by_contra hshort
        exact h ⟨t, rfl, Nat.not_lt.mp hshort, Nat.not_lt.mp hmax⟩
      refine never_bind fun result => Never.bind ?_ _
      unfold constructPublishVariableHeader
      simp only [if_pos hlong]
      exact never_giveUp

/-! ## SUBSCRIBE and UNSUBSCRIBE -/

/-- The loop asks once a topic. -/
theorem needs_addListItemsToSubscribePacket (ctrlPacket : Buffer) (payloadList : List SubscribePayload)
    (h : ∀ item ∈ payloadList, strlen item.subscribeTopic ≤ ushrtMax) :
    (addListItemsToSubscribePacket ctrlPacket payloadList).Needs payloadList.length := by
  induction payloadList generalizing ctrlPacket with
  | nil => exact needs_pure _
  | cons item payloadList ih =>
    unfold addListItemsToSubscribePacket
    dsimp only
    rw [if_neg (Nat.not_lt.mpr (h item List.mem_cons_self)), List.length_cons, Nat.add_comm payloadList.length 1]
    exact (needs_bufferEnlarge _ (by omega)).then fun _ => ih _ fun x hx => h x (List.mem_cons_of_mem _ hx)

/-- A topic that is too long ends the loop. -/
theorem never_addListItemsToSubscribePacket (ctrlPacket : Buffer) (payloadList : List SubscribePayload)
    (h : ∃ item ∈ payloadList, strlen item.subscribeTopic > ushrtMax) : (addListItemsToSubscribePacket ctrlPacket payloadList).Never := by
  induction payloadList generalizing ctrlPacket with
  | nil =>
    obtain ⟨item, hitem, -⟩ := h
    exact absurd hitem List.not_mem_nil
  | cons item payloadList ih =>
    unfold addListItemsToSubscribePacket
    dsimp only
    split
    · exact never_giveUp
    · rename_i hshort
      refine never_bind fun enlarged => ih _ ?_
      obtain ⟨x, hx, hlong⟩ := h
      rcases List.mem_cons.mp hx with rfl | hx
      · exact absurd hlong hshort
      · exact ⟨x, hx, hlong⟩

/-- The loop asks once a topic. -/
theorem needs_addListItemsToUnsubscribePacket (ctrlPacket : Buffer) (payloadList : List CString)
    (h : ∀ topic ∈ payloadList, strlen topic ≤ ushrtMax) :
    (addListItemsToUnsubscribePacket ctrlPacket payloadList).Needs payloadList.length := by
  induction payloadList generalizing ctrlPacket with
  | nil => exact needs_pure _
  | cons topic payloadList ih =>
    unfold addListItemsToUnsubscribePacket
    dsimp only
    rw [if_neg (Nat.not_lt.mpr (h topic List.mem_cons_self)), List.length_cons, Nat.add_comm payloadList.length 1]
    exact (needs_bufferEnlarge _ (by omega)).then fun _ => ih _ fun x hx => h x (List.mem_cons_of_mem _ hx)

/-- A topic that is too long ends the loop. -/
theorem never_addListItemsToUnsubscribePacket (ctrlPacket : Buffer) (payloadList : List CString)
    (h : ∃ topic ∈ payloadList, strlen topic > ushrtMax) : (addListItemsToUnsubscribePacket ctrlPacket payloadList).Never := by
  induction payloadList generalizing ctrlPacket with
  | nil =>
    obtain ⟨topic, htopic, -⟩ := h
    exact absurd htopic List.not_mem_nil
  | cons topic payloadList ih =>
    unfold addListItemsToUnsubscribePacket
    dsimp only
    split
    · exact never_giveUp
    · rename_i hshort
      refine never_bind fun enlarged => ih _ ?_
      obtain ⟨x, hx, hlong⟩ := h
      rcases List.mem_cons.mp hx with rfl | hx
      · exact absurd hlong hshort
      · exact ⟨x, hx, hlong⟩

theorem needs_mqttCodecSubscribe (packetId : UInt16) {subscribeList : List SubscribePayload} (hne : subscribeList ≠ [])
    (h : ∀ item ∈ subscribeList, strlen item.subscribeTopic ≤ ushrtMax) :
    (mqttCodecSubscribe packetId subscribeList).Needs (1 + (1 + (subscribeList.length + 3))) := by
  unfold mqttCodecSubscribe
  rw [if_neg hne]
  refine needs_bufferNew.bind ensures_bufferNew ?_
  intro result hr
  subst hr
  exact (needs_constructSubscibeTypeVariableHeader packetId).then fun result =>
    (needs_addListItemsToSubscribePacket result subscribeList h).then fun result => needs_constructFixedHeader result _ _

theorem never_mqttCodecSubscribe (packetId : UInt16) {subscribeList : List SubscribePayload}
    (h : subscribeList = [] ∨ ∃ item ∈ subscribeList, strlen item.subscribeTopic > ushrtMax) :
    (mqttCodecSubscribe packetId subscribeList).Never := by
  unfold mqttCodecSubscribe
  split
  · exact never_giveUp
  · rename_i hne
    exact never_bind fun _ => never_bind fun result =>
      (never_addListItemsToSubscribePacket result subscribeList (h.resolve_left hne)).bind _

theorem needs_mqttCodecUnsubscribe (packetId : UInt16) {unsubscribeList : List CString} (hne : unsubscribeList ≠ [])
    (h : ∀ topic ∈ unsubscribeList, strlen topic ≤ ushrtMax) :
    (mqttCodecUnsubscribe packetId unsubscribeList).Needs (1 + (1 + (unsubscribeList.length + 3))) := by
  unfold mqttCodecUnsubscribe
  rw [if_neg hne]
  refine needs_bufferNew.bind ensures_bufferNew ?_
  intro result hr
  subst hr
  exact (needs_constructSubscibeTypeVariableHeader packetId).then fun result =>
    (needs_addListItemsToUnsubscribePacket result unsubscribeList h).then fun result => needs_constructFixedHeader result _ _

theorem never_mqttCodecUnsubscribe (packetId : UInt16) {unsubscribeList : List CString}
    (h : unsubscribeList = [] ∨ ∃ topic ∈ unsubscribeList, strlen topic > ushrtMax) :
    (mqttCodecUnsubscribe packetId unsubscribeList).Never := by
  unfold mqttCodecUnsubscribe
  split
  · exact never_giveUp
  · rename_i hne
    exact never_bind fun _ => never_bind fun result =>
      (never_addListItemsToUnsubscribePacket result unsubscribeList (h.resolve_left hne)).bind _

end Umqtt
