import Umqtt.Theorems.Encoding

/-!
# The array of `constructFixedHeader`

`constructFixedHeader` stores the length bytes into an array of four. That is room for the lengths that MQTT allows, and the encoders
let longer bodies through: `MAX_SEND_SIZE` is the last of those lengths as MQTT writes it, read as one number.
-/

namespace Umqtt

open Cells Alloc Groups

/-! ## The stores of the loop -/

/-- The indices at which `constructFixedHeader` stores into `remainSize`. -/
def remainSizeIndices (ctrlPacket : Buffer) : List Nat := List.range (remainSize (bufferLength ctrlPacket)).length

/-- The bytes are a remaining length of MQTT: one to four, of which all but the last carry the mark, and whose value is the length. -/
def LegalLength (bytes : List UInt8) (n : Nat) : Prop :=
  ∃ es d, bytes = es ++ [d] ∧ es.length ≤ 3 ∧ (∀ e ∈ es, 128 ≤ e.toNat) ∧ d.toNat < 128 ∧ value 128 (bytes.map UInt8.toNat) = n

/-- The stores stay in the array, and the bytes are a remaining length of MQTT. -/
def FitsRemainSize (ctrlPacket : Buffer) : Prop :=
  (∀ index ∈ remainSizeIndices ctrlPacket, index < 4) ∧
    LegalLength (remainSize (bufferLength ctrlPacket)) (bufferLength ctrlPacket)

/-- The loop of `constructFixedHeader` stores at most `k` bytes for a length below `128 ^ k`, and more for any other. -/
theorem length_remainSizeLoop_le_iff {rounds k n : Nat} (hk : 0 < k) (hr : k < rounds) :
    (remainSizeLoop rounds n).length ≤ k ↔ n < 128 ^ k := by
  induction k generalizing rounds n with
  | zero => exact absurd hk (Nat.lt_irrefl 0)
  | succ k ih =>
    obtain ⟨rounds, rfl⟩ : ∃ r, rounds = r + 1 := ⟨rounds - 1, by omega⟩
    have hdiv : n / 128 < 128 ^ k ↔ n < 128 ^ (k + 1) := by
      rw [Nat.div_lt_iff_lt_mul (by decide), Nat.pow_succ]
    unfold remainSizeLoop
    dsimp only
    split
    · rename_i hmore
      rw [List.length_cons, Nat.add_le_add_iff_right]
      rcases Nat.eq_zero_or_pos k with rfl | hpos
      · -- a second byte is one too many
        obtain ⟨rounds, rfl⟩ : ∃ r, rounds = r + 1 := ⟨rounds - 1, by omega⟩
        have hone : 0 < (remainSizeLoop (rounds + 1) (n / 128)).length := by
          unfold remainSizeLoop
          dsimp only
          split <;> simp
        rw [← hdiv]
        omega
      · rw [ih hpos (by omega), hdiv]
    · rename_i hlast
      have hsmall : n / 128 < 128 ^ k := by
        have := Nat.pow_pos (n := k) (show 0 < 128 by decide)
        omega
      rw [List.length_singleton]
      exact iff_of_true (by omega) (hdiv.mp hsmall)

theorem fitsRemainSize_iff (ctrlPacket : Buffer) : FitsRemainSize ctrlPacket ↔ bufferLength ctrlPacket ≤ 268435455 := by
  have hiff : (remainSize (bufferLength ctrlPacket)).length ≤ 4 ↔ bufferLength ctrlPacket < 128 ^ 4 :=
    length_remainSizeLoop_le_iff (by decide) (by decide)
  constructor
  · rintro ⟨-, es, d, hbytes, hlen, -⟩
    rw [hbytes, List.length_append, List.length_singleton] at hiff
    omega
  · intro h
    have hlen := hiff.mpr (by omega)
    refine ⟨fun index hi => Nat.lt_of_lt_of_le (List.mem_range.mp hi) hlen, ?_⟩
    have hremain := remainSize_eq (Nat.lt_of_le_of_lt h (by decide))
    obtain ⟨es, d, hshape, hes, hd, hvalue⟩ := lenField_shape (bufferLength ctrlPacket)
    rw [hremain, hshape, List.length_append, List.length_singleton] at hlen
    exact ⟨es, d, hremain.trans hshape, by omega, hes, hd, by rw [hremain, hshape, hvalue]⟩

/-! ## The length of what is handed over -/

/-- The length of the variable header and the payload, from the arguments. -/
def Request.bodyLen : Request → Nat
  | connect mqttOptions => connectVariableHeaderSize + connPayloadLen mqttOptions
  | publish qosValue _ _ _ topicName msgBuffer =>
    2 + strlenOpt topicName + (if qosValue ≠ .deliverAtMostOnce then 2 else 0) + msgBuffer.length
  | subscribe _ subscribeList => 2 + (subscribeList.map fun item => strlen item.subscribeTopic + 3).sum
  | unsubscribe _ unsubscribeList => 2 + (unsubscribeList.map fun topic => strlen topic + 2).sum

theorem ensures_length_constructConnPayload (ctrlPacket : Buffer) (mqttOptions : MqttClientOptions) :
    (constructConnPayload ctrlPacket mqttOptions).Ensures
      (bufferLength · = bufferLength ctrlPacket + connPayloadLen mqttOptions) := by
  unfold constructConnPayload
  dsimp only
  split
  · exact ensures_giveUp
  · split
    · exact ensures_giveUp
    · split
      · exact ensures_giveUp
      · refine (ensures_bufferEnlarge _ _).bind ?_
        intro built hb
        subst hb
        split
        · exact ensures_giveUp
        · refine ensures_pure ?_
          rw [bufferLength, length_writeConnFields, length_byteutilWriteUTF, List.length_append, List.length_replicate]
          rfl

/-- What is handed to `constructFixedHeader` has the length that follows from the arguments. -/
theorem Request.ensures_length_ctrlPacket (r : Request) : r.ctrlPacket.Ensures (bufferLength · = r.bodyLen) := by
  cases r with
  | connect mqttOptions =>
    refine ensures_bufferNew.bind ?_
    intro result hr
    subst hr
    refine (ensures_constructConnectVariableHeader mqttOptions).bind ?_
    intro result hr
    subst hr
    exact ensures_length_constructConnPayload _ mqttOptions
  | publish qosValue duplicateMsg serverRetain packetId topicName msgBuffer =>
    intro heap built heap' hc
    have hbuilt := ensures_ctrlPacket (publish qosValue duplicateMsg serverRetain packetId topicName msgBuffer) trivial _ _ _ hc
    rcases topicName with _ | topicName
    · exact absurd hc (by simp [ctrlPacket])
    · rw [hbuilt, bufferLength_ofBytes]
      simp only [body, bodyLen, Option.map_some, Option.getD_some, publishHeader, strlenOpt, strlen, uint16Bytes]
      split <;> simp <;> omega
  | subscribe packetId subscribeList =>
    intro heap built heap' hc
    rw [ensures_ctrlPacket (subscribe packetId subscribeList) trivial _ _ _ hc, bufferLength_ofBytes]
    exact length_subscribeBody packetId subscribeList
  | unsubscribe packetId unsubscribeList =>
    intro heap built heap' hc
    rw [ensures_ctrlPacket (unsubscribe packetId unsubscribeList) trivial _ _ _ hc, bufferLength_ofBytes]
    exact length_unsubscribeBody packetId unsubscribeList

/-- The array of `constructFixedHeader`. Of everything that an encoder hands to `constructFixedHeader`, the array has room for the
length bytes exactly when the variable header and the payload have at most 268435455 bytes. -/
theorem fixedHeader_fits_iff (r : Request) :
    (r.packet = r.ctrlPacket >>= fun ctrlPacket => constructFixedHeader ctrlPacket r.type r.flags) ∧
      r.ctrlPacket.Ensures fun ctrlPacket => FitsRemainSize ctrlPacket ↔ r.bodyLen ≤ 268435455 := by
  refine ⟨r.packet_eq, ?_⟩
  intro heap built heap' hc
  have hlen := r.ensures_length_ctrlPacket _ _ _ hc
  rw [← hlen]
  exact fitsRemainSize_iff built

/-- A payload that `MAX_SEND_SIZE` lets through: a fifth length byte is stored. -/
theorem not_fits_large_publish :
    ∃ ctrlPacket, (List.replicate 268435453 (0 : UInt8)).length ≤ maxSendSize ∧
      (Request.publish .deliverAtMostOnce false false 0 (some ⟨[97], by decide⟩) (List.replicate 268435453 0)).ctrlPacket.Produces
        ctrlPacket ∧ ¬FitsRemainSize ctrlPacket := by
  refine ⟨Buffer.ofBytes (publishHeader ⟨[97], by decide⟩ 0 .deliverAtMostOnce ++ List.replicate 268435453 0), ?_, ⟨okHeap, ?_⟩, ?_⟩
  · rw [List.length_replicate]
    decide
  · have hmax : ¬(List.replicate 268435453 (0 : UInt8)).length > maxSendSize := by
      rw [List.length_replicate]
      decide
    have hheader : (constructPublishVariableHeader ⟨[]⟩ ⟨[97], by decide⟩ 0 .deliverAtMostOnce).Gives
        (Buffer.ofBytes (publishHeader ⟨[97], by decide⟩ 0 .deliverAtMostOnce)) := by
      rw [show (⟨[]⟩ : Buffer) = Buffer.ofBytes [] from rfl, constructPublishVariableHeader_eq _ _ _ (by decide)]
      exact Gives.afterMemory rfl
    simp only [Request.ctrlPacket, if_neg hmax]
    exact congrArg Prod.fst (gives_bufferNew.bind (hheader.bind (gives_appendMsgBuffer _ _)))
  · rw [fitsRemainSize_iff, bufferLength_ofBytes, List.length_append, List.length_replicate]
    decide

end Umqtt
