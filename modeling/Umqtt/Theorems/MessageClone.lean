import Umqtt.Client.Api
import Umqtt.Lemmas.Memory

/-!
# Clones of messages

`mqttmessage_clone` hands the topic that the message owns to `mqttmessage_create`. A message that points to the topic of somebody else
owns none, and its clone is NULL; a message that owns its topic is cloned field by field, whatever has been done to it since it was
created.
-/

namespace Umqtt

open Alloc

/-! ## The messages of an application -/

/-- How a message is created: with copies of the topic and the payload, or pointing to them. -/
inductive MessageOrigin where
  | create (packetId : UInt16) (topicName : CString) (qosValue : QosValue) (appMsg : List UInt8)
  | createInPlace (packetId : UInt16) (topicName : List UInt8) (qosValue : QosValue) (appMsg : List UInt8)

/-- The message that is created. -/
def MessageOrigin.message : MessageOrigin → Alloc MqttMessage
  | create packetId topicName qosValue appMsg => mqttmessageCreate packetId (some topicName) qosValue appMsg
  | createInPlace packetId topicName qosValue appMsg => mqttmessageCreateInPlace packetId (some topicName) qosValue appMsg

/-- The message is created with copies. -/
def MessageOrigin.copies : MessageOrigin → Bool
  | create .. => true
  | createInPlace .. => false

/-- What is done to a message: a flag is set, or the clone takes its place. -/
inductive MessageChange where
  | setIsDuplicateMsg (duplicateMsg : Bool)
  | setIsRetained (retainMsg : Bool)
  | clone

/-- The message after the change. -/
def MessageChange.apply : MessageChange → MqttMessage → Alloc MqttMessage
  | setIsDuplicateMsg duplicateMsg, m => return mqttmessageSetIsDuplicateMsg m duplicateMsg
  | setIsRetained retainMsg, m => return mqttmessageSetIsRetained m retainMsg
  | clone, m => mqttmessageClone m

/-- The message after changes one after another. -/
def changed (m : MqttMessage) : List MessageChange → Alloc MqttMessage
  | [] => return m
  | change :: changes => do changed (← change.apply m) changes

/-- The message owns its topic and its payload, and points to no others. -/
def Owning (m : MqttMessage) : Prop := m.topicName ≠ none ∧ m.constTopicName = none ∧ m.constPayload = []

/-- The message owns no topic. -/
def Pointing (m : MqttMessage) : Prop := m.topicName = none

/-- The clone of a message that owns its topic takes memory for the message, the topic and a payload that is not empty, and is equal to
it. -/
theorem mqttmessageClone_owning {m : MqttMessage} (h : Owning m) :
    mqttmessageClone m = takeMemory >>= fun _ => takeMemory >>= fun _ =>
      if m.appPayload.length > 0 then takeMemory >>= fun _ => pure m else pure m := by
  obtain ⟨packetId, qosInfo, topicName, appPayload, constTopicName, constPayload, isDuplicateMsg, isMessageRetained⟩ := m
  obtain ⟨htopic, hconst, hpayload⟩ := h
  simp only at htopic hconst hpayload
  subst hconst hpayload
  obtain ⟨t, rfl⟩ := Option.ne_none_iff_exists'.mp htopic
  simp only [mqttmessageClone, mqttmessageCreate, createMsgObject, bind_assoc, pure_bind]
  split
  · simp only [bind_assoc, pure_bind]
  · rename_i hempty
    simp only [pure_bind, List.eq_nil_of_length_eq_zero (Nat.eq_zero_of_not_pos hempty)]

/-- A message that owns no topic has no clone. -/
theorem mqttmessageClone_pointing {m : MqttMessage} (h : Pointing m) : mqttmessageClone m = giveUp := by
  rw [mqttmessageClone, h]
  rfl

theorem ensures_mqttmessageClone_owning {m : MqttMessage} (h : Owning m) : (mqttmessageClone m).Ensures (· = m) := by
  rw [mqttmessageClone_owning h]
  refine ensures_bind fun _ => ensures_bind ?_
  intro _
  split
  · exact ensures_bind fun _ => ensures_pure rfl
  · exact ensures_pure rfl

theorem needs_mqttmessageClone_owning {m : MqttMessage} (h : Owning m) :
    (mqttmessageClone m).Needs (2 + if m.appPayload.length > 0 then 1 else 0) := by
  rw [mqttmessageClone_owning h, show 2 + (if m.appPayload.length > 0 then 1 else 0) =
    1 + (1 + if m.appPayload.length > 0 then 1 else 0) by omega]
  refine needs_takeMemory.then fun _ => needs_takeMemory.then ?_
  intro _
  split
  · exact needs_takeMemory_pure _
  · exact needs_pure _

/-- No change makes a message own what it did not own, or the other way round. -/
theorem MessageChange.ensures_apply (change : MessageChange) (m : MqttMessage) :
    (Owning m → (change.apply m).Ensures Owning) ∧ (Pointing m → (change.apply m).Ensures Pointing) := by
  cases change with
  | setIsDuplicateMsg duplicateMsg => exact ⟨fun h => ensures_pure h, fun h => ensures_pure h⟩
  | setIsRetained retainMsg => exact ⟨fun h => ensures_pure h, fun h => ensures_pure h⟩
  | clone =>
    refine ⟨?_, ?_⟩
    · intro h heap c heap' hc
      rw [ensures_mqttmessageClone_owning h _ _ _ hc]
      exact h
    · intro h
      rw [MessageChange.apply, mqttmessageClone_pointing h]
      exact ensures_giveUp

/-- What every change keeps, all changes keep. -/
theorem ensures_changed {P : MqttMessage → Prop} (hstep : ∀ change m, P m → (MessageChange.apply change m).Ensures P) {m : MqttMessage}
    (h : P m) (changes : List MessageChange) : (changed m changes).Ensures P := by
  induction changes generalizing m with
  | nil => exact ensures_pure h
  | cons change changes ih => exact (hstep change m h).bind fun m' hm' => ih hm'

theorem ensures_createMsgObject (packetId : UInt16) (qosValue : QosValue) :
    (createMsgObject packetId qosValue).Ensures
      (· = { packetId := packetId, qosInfo := qosValue, topicName := none, appPayload := [], constTopicName := none,
             constPayload := [], isDuplicateMsg := false, isMessageRetained := false }) :=
  ensures_bind fun _ => ensures_pure rfl

/-- A message owns its topic exactly when it was created with a copy of it, whatever has been done to it. -/
theorem MessageOrigin.ensures_message (origin : MessageOrigin) (changes : List MessageChange) :
    (origin.message >>= fun m => changed m changes).Ensures fun m => if origin.copies then Owning m else Pointing m := by
  cases origin with
  | create packetId topicName qosValue appMsg =>
    have hcreated : (mqttmessageCreate packetId (some topicName) qosValue appMsg).Ensures Owning := by
      refine (ensures_createMsgObject packetId qosValue).bind fun result hr => ensures_bind ?_
      intro _
      subst hr
      have howning : ∀ appPayload, Owning
          { packetId := packetId, qosInfo := qosValue, topicName := some topicName, appPayload := appPayload, constTopicName := none,
            constPayload := [], isDuplicateMsg := false, isMessageRetained := false } :=
        fun appPayload => ⟨Option.some_ne_none topicName, rfl, rfl⟩
      dsimp only
      split
      · exact ensures_bind fun _ => ensures_pure (howning appMsg)
      · exact ensures_pure (howning [])
    exact hcreated.bind fun m hm => ensures_changed (fun change m => (change.ensures_apply m).1) hm changes
  | createInPlace packetId topicName qosValue appMsg =>
    have hcreated : (mqttmessageCreateInPlace packetId (some topicName) qosValue appMsg).Ensures Pointing := by
      refine (ensures_createMsgObject packetId qosValue).bind fun result hr => ensures_pure ?_
      subst hr
      rfl
    exact hcreated.bind fun m hm => ensures_changed (fun change m => (change.ensures_apply m).2) hm changes

/-! ## The clone -/

/-- The clone is a message like the original: every accessor gives the same, and to publish it does the same. -/
structure LikeOriginal (c m : MqttMessage) : Prop where
  packetId : mqttmessageGetPacketId c = mqttmessageGetPacketId m
  topicName : mqttmessageGetTopicName c = mqttmessageGetTopicName m
  qosType : mqttmessageGetQosType c = mqttmessageGetQosType m
  isDuplicateMsg : mqttmessageGetIsDuplicateMsg c = mqttmessageGetIsDuplicateMsg m
  isRetained : mqttmessageGetIsRetained c = mqttmessageGetIsRetained m
  applicationMsg : mqttmessageGetApplicationMsg c = mqttmessageGetApplicationMsg m
  publish : ∀ dispatch s, mqttClientPublish dispatch s (some c) = mqttClientPublish dispatch s (some m)

theorem LikeOriginal.refl (m : MqttMessage) : LikeOriginal m m := ⟨rfl, rfl, rfl, rfl, rfl, rfl, fun _ _ => rfl⟩

/-- Clones of messages. Of a message that an application has created and changed in any way, with memory at hand, the clone is a
message like it exactly when the message was created by `mqttmessage_create`; the clone of one created by
`mqttmessage_create_in_place` is NULL. -/
theorem clone_like_original_iff (origin : MessageOrigin) (changes : List MessageChange) {m : MqttMessage}
    (hm : (origin.message >>= fun m => changed m changes).Produces m) {heap : Heap} (hheap : Meets heap 3) :
    ((∃ c, ((mqttmessageClone m).answer heap).1 = some c ∧ LikeOriginal c m) ↔ origin.copies = true) ∧
      (origin.copies = false → ((mqttmessageClone m).answer heap).1 = none) := by
  have hkind := (origin.ensures_message changes).of_produces hm
  rcases hcopies : origin.copies with _ | _
  · rw [hcopies] at hkind
    have hnone : ((mqttmessageClone m).answer heap).1 = none := by
      rw [mqttmessageClone_pointing hkind]
      rfl
    refine ⟨iff_of_false ?_ (by simp), fun _ => hnone⟩
    rintro ⟨c, hc, -⟩
    rw [hnone] at hc
    exact absurd hc (by simp)
  · rw [hcopies] at hkind
    have howning : Owning m := hkind
    have henough : Meets heap (2 + if m.appPayload.length > 0 then 1 else 0) := by
      intro i hi
      exact hheap i (Nat.lt_of_lt_of_le hi (by split <;> omega))
    obtain ⟨c, hc⟩ := (needs_mqttmessageClone_owning howning).met heap henough
    have hcm : c = m := ensures_mqttmessageClone_owning howning _ _ _ hc
    refine ⟨iff_of_true ⟨c, by rw [hc], ?_⟩ rfl, fun h => absurd h (by simp)⟩
    rw [hcm]
    exact LikeOriginal.refl m

/-- A message with a topic and a payload, marked as a duplicate and cloned. -/
theorem clone_like_original_duplicate :
    let origin : MessageOrigin := .create 7 ⟨[97], by decide⟩ .deliverAtLeastOnce [1, 2]
    let m : MqttMessage :=
      { packetId := 7, qosInfo := .deliverAtLeastOnce, topicName := some ⟨[97], by decide⟩, appPayload := [1, 2], constTopicName := none,
        constPayload := [], isDuplicateMsg := true, isMessageRetained := false }
    ((∃ c, ((mqttmessageClone m).answer okHeap).1 = some c ∧ LikeOriginal c m) ↔ origin.copies = true) ∧
      (origin.copies = false → ((mqttmessageClone m).answer okHeap).1 = none) :=
  clone_like_original_iff _ [.setIsDuplicateMsg true, .clone] ⟨okHeap, by decide⟩ (meets_okHeap 3)

/-- The message of a received PUBLISH, which points to the packet: its clone is NULL. -/
theorem not_clone_like_original :
    let m : MqttMessage :=
      { packetId := 0, qosInfo := .deliverAtMostOnce, topicName := none, appPayload := [], constTopicName := some [97],
        constPayload := [1, 2], isDuplicateMsg := false, isMessageRetained := false }
    ((MessageOrigin.createInPlace 0 [97] .deliverAtMostOnce [1, 2]).message >>= fun m => changed m []).Produces m ∧
      ((mqttmessageClone m).answer okHeap).1 = none := by
  exact ⟨⟨okHeap, by decide⟩, rfl⟩

end Umqtt
