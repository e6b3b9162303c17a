import Umqtt.Client.Checked
import Umqtt.Lemmas.Reports

/-!
# Accesses to a received packet

Every access that the functions make to the body of a received packet, and to the blocks they copy it into, is inside its block: with
every access checked the functions do what they do without.
-/

namespace Umqtt

namespace Checked

/-! ## Ranges -/

/-- A difference that is not negative does not wrap around. -/
theorem subSizeT_eq {a b : Nat} (hba : b ≤ a) (ha : a ≤ sizeMax) : subSizeT a b = a - b := by
  unfold subSizeT
  generalize sizeMax = m at ha
  rw [show a + (m + 1) - b = a - b + (m + 1) by omega, Nat.add_mod_right, Nat.mod_eq_of_lt (by omega)]

/-- The length of a SUBACK less its packet id, whether it has one or not. -/
theorem subSizeT_two (packetLength : Nat) : subSizeT packetLength 2 = subackRemainLen packetLength := by
  unfold subSizeT subackRemainLen
  rfl

/-- A product that does not overflow is exact. -/
theorem safeMultiplySizeT_eq {a b : Nat} (h : safeMultiplySizeT a b ≠ sizeMax) : safeMultiplySizeT a b = a * b := by
  unfold safeMultiplySizeT at h ⊢
  split
  · rename_i hover
    exact absurd (if_pos hover) h
  · rfl

/-- A sum that does not overflow is exact. -/
theorem safeAddSizeT_eq {a b : Nat} (h : safeAddSizeT a b ≠ sizeMax) : safeAddSizeT a b = a + b := by
  unfold safeAddSizeT at h ⊢
  split
  · rename_i hover
    exact absurd (if_pos hover) h
  · rfl

theorem inside_eq {size position length : Nat} (h : position + length ≤ size) : inside size position length = some () := if_pos h

theorem slice_eq {body : List UInt8} {position length : Nat} (h : position + length ≤ body.length) :
    slice body position length = some ((body.drop position).take length) := by
  unfold slice
  rw [inside_eq h]
  rfl

/-- A byte of the body is the one that is read without a check. -/
theorem getElem?_eq {body : List UInt8} {iterator : Nat} (h : iterator < body.length) :
    body[iterator]? = some (body[iterator]?.getD 0) := by
  rw [List.getElem?_eq_getElem h]
  rfl

/-! ## Reading a body -/

theorem byteutilReadByte_eq {body : List UInt8} {iterator : Nat} (h : iterator < body.length) :
    byteutilReadByte body iterator = some (Umqtt.byteutilReadByte body iterator) := by
  unfold byteutilReadByte
  rw [getElem?_eq h]
  rfl

/-- Two bytes are read when that many are left, and none otherwise. -/
theorem byteutilReadUint16_eq {body : List UInt8} {iterator byteLen : Nat} (h : iterator + byteLen ≤ body.length) :
    byteutilReadUint16 body iterator byteLen = some (Umqtt.byteutilReadUint16 body iterator byteLen) := by
  unfold byteutilReadUint16 Umqtt.byteutilReadUint16
  split
  · have hhigh : iterator < body.length := by omega
    have hlow : iterator + 1 < body.length := by omega
    rw [getElem?_eq hhigh, getElem?_eq hlow]
    rfl
  · rfl

/-- The iterator moves by 2, or not at all when fewer than two bytes are left. -/
theorem byteutilReadUint16_next (body : List UInt8) (iterator byteLen : Nat) :
    (Umqtt.byteutilReadUint16 body iterator byteLen).2 = if byteLen ≥ 2 then iterator + 2 else iterator := by
  unfold Umqtt.byteutilReadUint16
  split <;> rfl

/-- A number that is not 0 has been read. -/
theorem two_le_of_byteutilReadUint16 {body : List UInt8} {iterator byteLen : Nat}
    (h : (Umqtt.byteutilReadUint16 body iterator byteLen).1.toNat > 0) : 2 ≤ byteLen := by
  by_contra hlt
  rw [Umqtt.byteutilReadUint16, if_neg hlt] at h
  exact Nat.lt_irrefl 0 h

/-- The bytes of the string are in the body, and the copy of them with its terminator is in the block that was taken for it. -/
theorem byteutilReadUTF_eq {body : List UInt8} {iterator byteLen : Nat} (h : iterator + byteLen ≤ body.length) (s : Session) :
    byteutilReadUTF body iterator byteLen s = some (Umqtt.byteutilReadUTF body iterator byteLen s) := by
  unfold byteutilReadUTF Umqtt.byteutilReadUTF
  rw [byteutilReadUint16_eq h]
  have hnext := byteutilReadUint16_next body iterator byteLen
  have htwo := @two_le_of_byteutilReadUint16 body iterator byteLen
  generalize Umqtt.byteutilReadUint16 body iterator byteLen = r at hnext htwo ⊢
  obtain ⟨stringLen, next⟩ := r
  simp only [Option.bind_eq_bind, Option.bind_some]
  split
  · rename_i hlen
    split
    · rename_i hsize
      rcases s.alloc takeMemory with ⟨_ | u, s'⟩
      · rfl
      · have hge := htwo hlen.1
        rw [if_pos hge] at hnext
        have hcopy : next + stringLen.toNat ≤ body.length := by omega
        simp only [slice_eq hcopy, safeAddSizeT_eq hsize, inside_eq (show 0 + stringLen.toNat ≤ stringLen.toNat + 1 by omega),
          inside_eq (Nat.le_refl (stringLen.toNat + 1)), Option.bind_some]
        rfl
    · rfl
  · rfl

/-- A string that is read ends inside the bytes it was read from. -/
theorem byteutilReadUTF_next_le {body : List UInt8} {iterator byteLen : Nat} {s s' : Session} {topicName : List UInt8} {next : Nat}
    (h : Umqtt.byteutilReadUTF body iterator byteLen s = ((some topicName, next), s')) : next ≤ iterator + byteLen := by
  unfold Umqtt.byteutilReadUTF at h
  have hnext := byteutilReadUint16_next body iterator byteLen
  have htwo := @two_le_of_byteutilReadUint16 body iterator byteLen
  generalize Umqtt.byteutilReadUint16 body iterator byteLen = r at hnext htwo h
  obtain ⟨stringLen, afterLen⟩ := r
  change (if stringLen.toNat > 0 ∧ _ then _ else _) = _ at h
  split at h
  · rename_i hlen
    rw [if_pos (htwo hlen.1)] at hnext
    split at h
    · generalize s.alloc takeMemory = r at h
      rcases r with ⟨_ | u, s1⟩
      · exact absurd (congrArg (fun r => r.1.1) h) (by simp)
      · have hpos : afterLen + stringLen.toNat = next := congrArg (fun r => r.1.2) h
        omega
    · exact absurd (congrArg (fun r => r.1.1) h) (by simp)
  · exact absurd (congrArg (fun r => r.1.1) h) (by simp)

/-! ## The packets -/

section

variable {dispatch : List IoEvent → Session → Session}

/-- The packet id of a PUBLISH is read from what is left of the body. -/
theorem readPacketId_eq {body : List UInt8} {iterator : Nat} (qosValue : QosValue) (h : iterator ≤ body.length) :
    (if qosValue ≠ .deliverAtMostOnce then byteutilReadUint16 body iterator (body.length - iterator) else some (0, iterator)) =
      some (if qosValue ≠ .deliverAtMostOnce then Umqtt.byteutilReadUint16 body iterator (body.length - iterator)
        else (0, iterator)) := by
  split
  · exact byteutilReadUint16_eq (by omega)
  · rfl

theorem readPacketId_next_le {body : List UInt8} {iterator : Nat} (qosValue : QosValue) (h : iterator ≤ body.length) :
    (if qosValue ≠ .deliverAtMostOnce then Umqtt.byteutilReadUint16 body iterator (body.length - iterator)
      else (0, iterator)).2 ≤ body.length := by
  split
  · rw [byteutilReadUint16_next]
    split <;> omega
  · exact h

/-- The topic, the packet id and the payload of a PUBLISH are in its body. -/
theorem processPublishMessage_eq (s : Session) {body : List UInt8} (flags : UInt8) (hle : body.length ≤ sizeMax) :
    processPublishMessage dispatch s body flags = some (Umqtt.processPublishMessage dispatch s body flags) := by
  unfold processPublishMessage Umqtt.processPublishMessage
  dsimp only
  rw [byteutilReadUTF_eq (Nat.zero_add _).le]
  rcases hread : Umqtt.byteutilReadUTF body 0 body.length s with ⟨⟨_ | topicName, iterator⟩, s'⟩
  · rfl
  · have hiterator : iterator ≤ body.length := by
      have := byteutilReadUTF_next_le hread
      omega
    simp only [Option.bind_eq_bind, Option.bind_some, subSizeT_eq hiterator hle, readPacketId_eq _ hiterator]
    have hnext := readPacketId_next_le (publishQosValue flags) hiterator
    generalize (if publishQosValue flags ≠ .deliverAtMostOnce
      then Umqtt.byteutilReadUint16 body iterator (body.length - iterator) else (0, iterator)) = r at hnext ⊢
    obtain ⟨packetId, next⟩ := r
    simp only at hnext ⊢
    split
    · rfl
    · have hpayload : next + (body.length - next) ≤ body.length := by omega
      rw [subSizeT_eq hnext hle, slice_eq hpayload]
      simp only [Option.bind_some]
      rcases s'.alloc _ with ⟨_ | msgHandle, s''⟩
      · rfl
      · rfl

theorem processConnack_eq (s : Session) (body : List UInt8) :
    processConnack dispatch s body = some (Umqtt.processConnack dispatch s body) := by
  unfold processConnack Umqtt.processConnack
  split
  · rfl
  · rename_i hlen
    have hfirst : 0 < body.length := by omega
    have hsecond : (Umqtt.byteutilReadByte body 0).2 < body.length := by
      change 1 < body.length
      omega
    rw [byteutilReadByte_eq hfirst]
    simp only [Option.bind_eq_bind, Option.bind_some, byteutilReadByte_eq hsecond]
    split
    · rfl
    · rfl

theorem processPublishAck_eq (s : Session) (packet : ControlPacketType) (body : List UInt8) :
    processPublishAck dispatch s packet body = some (Umqtt.processPublishAck dispatch s packet body) := by
  unfold processPublishAck Umqtt.processPublishAck
  split
  · rfl
  · rw [byteutilReadUint16_eq (Nat.zero_add _).le]
    rfl

/-- The loop reads as many bytes, and stores as many elements, as it has rounds. -/
theorem subackLoop_eq {body : List UInt8} {mallocSize : Nat} (remainLen iterator : Nat) (qosReturn : List QosValue) (s : Session)
    (hbody : iterator + remainLen ≤ body.length) (hsize : sizeofQosValue * (qosReturn.length + remainLen) ≤ mallocSize) :
    subackLoop dispatch body mallocSize remainLen iterator qosReturn s =
      some (Umqtt.subackLoop dispatch body remainLen iterator qosReturn s) := by
  induction remainLen generalizing iterator qosReturn with
  | zero => rfl
  | succ remainLen ih =>
    unfold subackLoop Umqtt.subackLoop
    have hread : iterator < body.length := by omega
    rw [byteutilReadByte_eq hread]
    simp only [Option.bind_eq_bind, Option.bind_some]
    split
    · rfl
    · have hstore : sizeofQosValue * qosReturn.length + sizeofQosValue ≤ mallocSize := by
        unfold sizeofQosValue at hsize ⊢
        omega
      rw [inside_eq hstore]
      refine ih _ _ ?_ ?_
      · change iterator + 1 + remainLen ≤ body.length
        omega
      · rw [List.length_append, List.length_singleton]
        exact (congrArg (sizeofQosValue * ·) (by omega)).trans_le hsize

/-- The return codes are in the body, and they are stored in the block that was taken for them, when there are no more of them than the
body has bytes after its packet id. -/
theorem processSubackCodes_eq (s : Session) {body : List UInt8} (packetId : UInt16) {iterator remainLen : Nat}
    (hcodes : safeMultiplySizeT sizeofQosValue remainLen ≠ sizeMax → iterator + remainLen ≤ body.length) :
    processSubackCodes dispatch s body packetId iterator remainLen =
      some (Umqtt.processSubackCodes dispatch s body packetId iterator remainLen) := by
  unfold processSubackCodes Umqtt.processSubackCodes
  dsimp only
  split
  · rename_i hsize
    have hmalloc : sizeofQosValue * (([] : List QosValue).length + remainLen) ≤ safeMultiplySizeT sizeofQosValue remainLen := by
      rw [safeMultiplySizeT_eq hsize, List.length_nil, Nat.zero_add]
    rcases s.alloc takeMemory with ⟨_ | u, s'⟩
    · rfl
    · dsimp only
      rw [subackLoop_eq _ _ _ _ (hcodes hsize) hmalloc]
      rfl
  · rfl

/-- A SUBACK without room for a packet id has its length wrapped around, and is given up before its return codes are read. -/
theorem processSuback_eq (s : Session) {body : List UInt8} (hle : body.length ≤ sizeMax) :
    processSuback dispatch s body = some (Umqtt.processSuback dispatch s body) := by
  have hcodes : safeMultiplySizeT sizeofQosValue (subackRemainLen body.length) ≠ sizeMax →
      (Umqtt.byteutilReadUint16 body 0 body.length).2 + subackRemainLen body.length ≤ body.length := by
    intro hsize
    have htwo : 2 ≤ body.length := le_of_safeMultiplySizeT hsize
    rw [byteutilReadUint16_next, if_pos htwo, subackRemainLen_eq htwo hle]
    omega
  unfold processSuback Umqtt.processSuback
  rw [byteutilReadUint16_eq (Nat.zero_add _).le, subSizeT_two]
  generalize subackRemainLen body.length = remainLen at hcodes ⊢
  generalize Umqtt.byteutilReadUint16 body 0 body.length = r at hcodes ⊢
  obtain ⟨packetId, iterator⟩ := r
  rw [Option.bind_eq_bind, Option.bind_some]
  exact processSubackCodes_eq s packetId hcodes

theorem processUnsuback_eq (s : Session) (body : List UInt8) :
    processUnsuback dispatch s body = some (Umqtt.processUnsuback dispatch s body) := by
  unfold processUnsuback Umqtt.processUnsuback
  split
  · rfl
  · rw [byteutilReadUint16_eq (Nat.zero_add _).le]
    rfl

theorem processPacket_eq (s : Session) (packet : ControlPacketType) (flags : UInt8) {body : List UInt8} (hle : body.length ≤ sizeMax) :
    processPacket dispatch s packet flags body = some (Umqtt.processPacket dispatch s packet flags body) := by
  cases packet with
  | connackType => exact processConnack_eq s body
  | publishType => exact processPublishMessage_eq s flags hle
  | pubackType | pubrecType | pubrelType | pubcompType => exact processPublishAck_eq s _ body
  | subackType => exact processSuback_eq s hle
  | unsubackType => exact processUnsuback_eq s body
  | _ => rfl

end

end Checked

/-- The packet dispatcher never reads outside a packet body: whatever the packet, with every access checked it does what it does
without, so that no access leaves its block. -/
theorem recvCompleteCallback_inside (dispatch : List IoEvent → Session → Session) (packet : ControlPacketType) (flags : UInt8)
    (headerData : Option Buffer) (s : Session) (hle : (bodyOf headerData).length ≤ sizeMax) :
    Checked.recvCompleteCallback dispatch packet flags headerData s =
      some (recvCompleteCallback dispatch packet flags headerData s) := by
  unfold Checked.recvCompleteCallback recvCompleteCallback
  dsimp only
  split
  · exact Checked.processPacket_eq _ packet flags hle
  · rfl

/-- A SUBACK of one byte. -/
theorem recvCompleteCallback_inside_short :
    Checked.recvCompleteCallback (deliver 1) .subackType 0 (some (Buffer.ofBytes [7])) (mqttClientInit true calmEnv okHeap).callContext =
      some (recvCompleteCallback (deliver 1) .subackType 0 (some (Buffer.ofBytes [7]))
        (mqttClientInit true calmEnv okHeap).callContext) :=
  recvCompleteCallback_inside (deliver 1) .subackType 0 (some (Buffer.ofBytes [7])) (mqttClientInit true calmEnv okHeap).callContext
    (by decide)

end Umqtt
