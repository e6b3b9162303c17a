import Umqtt.Lemmas.Bodies

/-!
# The space reserved for the payload of a CONNECT

`constructConnPayload` reserves two bytes for every string that is not NULL and writes a field for every string that is not empty, the
client id in any case. The two agree when the client id is there and no other string is empty, and when a missing client id is made
up for by one empty string; otherwise the iterator ends before or behind the reserved space.
-/

namespace Umqtt

open Cells Alloc

/-! ## The iterator -/

/-- The iterator of `constructConnPayload` at its first store: the buffer enlarged by `totalLen`, at `currLen`. -/
def payloadStart (ctrlPacket : Buffer) (mqttOptions : MqttClientOptions) : Cursor UInt8 :=
  ⟨ctrlPacket.cells ++ List.replicate (connPayloadLen mqttOptions) none, bufferLength ctrlPacket⟩

/-- The iterator after the last store. -/
def payloadEnd (ctrlPacket : Buffer) (mqttOptions : MqttClientOptions) : Cursor UInt8 :=
  writeConnFields mqttOptions (byteutilWriteUTF (payloadStart ctrlPacket mqttOptions) (bytesOpt mqttOptions.clientId)
    (UInt16.ofNat (strlenOpt mqttOptions.clientId)))

/-- The number of bytes written through the iterator. -/
def payloadWritten (ctrlPacket : Buffer) (mqttOptions : MqttClientOptions) : Nat :=
  (payloadEnd ctrlPacket mqttOptions).pos - (payloadStart ctrlPacket mqttOptions).pos

/-- The stores through the iterator fill the space reserved for them: they are as many as `totalLen` says, the buffer has room for
them, and no byte of the space is left unwritten. -/
structure FillsReserved (ctrlPacket : Buffer) (mqttOptions : MqttClientOptions) : Prop where
  count : payloadWritten ctrlPacket mqttOptions = connPayloadLen mqttOptions
  inside : (payloadStart ctrlPacket mqttOptions).Room (payloadWritten ctrlPacket mqttOptions)
  written : Written ((payloadEnd ctrlPacket mqttOptions).cells.drop (bufferLength ctrlPacket))

theorem pos_byteutilWriteUTF (c : Cursor UInt8) {s : Option CString} (h : strlenOpt s ≤ ushrtMax) :
    (byteutilWriteUTF c (bytesOpt s) (UInt16.ofNat (strlenOpt s))).pos = c.pos + (utfField (bytesOpt s)).length := by
  rw [← length_bytesOpt] at h ⊢
  rw [byteutilWriteUTF_utfField c h, Cursor.pos_putAll]

/-- The iterator moves past the field of a string that is not empty. -/
theorem pos_writeConnField (c : Cursor UInt8) {s : Option CString} (h : strlenOpt s ≤ ushrtMax) (flag : UInt8) :
    (if strlenOpt s > 0 then byteutilWriteUTF (orConnFlag c flag) (bytesOpt s) (UInt16.ofNat (strlenOpt s)) else c).pos =
      c.pos + (connField s).length := by
  rw [connField]
  split
  · exact pos_byteutilWriteUTF _ h
  · rfl

/-- The iterator moves past the fields. -/
theorem pos_writeConnFields {mqttOptions : MqttClientOptions} (h : OptionsFit mqttOptions) (c : Cursor UInt8) :
    (writeConnFields mqttOptions c).pos = c.pos + (connFields mqttOptions).length := by
  obtain ⟨-, hmessage, htopic, husername, hpassword⟩ := h
  have hflag : ∀ (c : Cursor UInt8) (flag : UInt8), (orConnFlag c flag).pos = c.pos := fun _ _ => rfl
  have hif : ∀ (p : Prop) [Decidable p] (c : Cursor UInt8) (flag : UInt8), (if p then orConnFlag c flag else c).pos = c.pos := by
    intro p _ c flag
    split <;> rfl
  unfold writeConnFields
  dsimp only
  rw [hif, pos_writeConnField _ hpassword, pos_writeConnField _ husername, connFields, List.length_append, List.length_append,
    willFields]
  by_cases hw : HasWill mqttOptions
  · have hw' : strlenOpt mqttOptions.willMessage > 0 ∧ strlenOpt mqttOptions.willTopic > 0 := hw
    have htopicField : connField mqttOptions.willTopic = utfField (bytesOpt mqttOptions.willTopic) := if_pos hw.2
    have hmessageField : connField mqttOptions.willMessage = utfField (bytesOpt mqttOptions.willMessage) := if_pos hw.1
    rw [if_pos hw, if_pos hw', pos_byteutilWriteUTF _ hmessage, hif, hflag, pos_byteutilWriteUTF _ htopic, hflag, List.length_append,
      htopicField, hmessageField]
    omega
  · have hw' : ¬(strlenOpt mqttOptions.willMessage > 0 ∧ strlenOpt mqttOptions.willTopic > 0) := hw
    rw [if_neg hw, if_neg hw', List.length_nil]
    omega

/-- The client id and the fields are written, whatever is reserved. -/
theorem payloadWritten_eq (ctrlPacket : Buffer) {mqttOptions : MqttClientOptions} (h : OptionsFit mqttOptions) :
    payloadWritten ctrlPacket mqttOptions = (utfField (bytesOpt mqttOptions.clientId)).length + (connFields mqttOptions).length := by
  rw [payloadWritten, payloadEnd, pos_writeConnFields h, pos_byteutilWriteUTF _ h.1]
  omega

/-! ## What lies behind the iterator -/

/-- A flag is entered into a byte that has been written, or into none. -/
theorem writtenFrom_orConnFlag {start : Nat} {c : Cursor UInt8} (h : c.WrittenFrom start) (flag : UInt8) :
    (orConnFlag c flag).WrittenFrom start := by
  intro i hstart hpos hnone
  have hcell : (c.cells.modify connFlagByteOffset (Option.map (· ||| flag)))[i]? = some none := hnone
  rw [List.getElem?_modify] at hcell
  refine h i hstart hpos ?_
  rcases hc : c.cells[i]? with _ | _ | v
  · simp [hc] at hcell
  · rfl
  · rw [hc] at hcell
    split at hcell <;> simp at hcell

/-- Whatever the options, the stores leave no gap. -/
theorem writtenFrom_payloadEnd (ctrlPacket : Buffer) (mqttOptions : MqttClientOptions) :
    (payloadEnd ctrlPacket mqttOptions).WrittenFrom (bufferLength ctrlPacket) := by
  have hutf : ∀ (c : Cursor UInt8) (stringData : List UInt8) (len : UInt16), c.WrittenFrom (bufferLength ctrlPacket) →
      (byteutilWriteUTF c stringData len).WrittenFrom (bufferLength ctrlPacket) := by
    intro c stringData len hc
    rw [byteutilWriteUTF, byteutilWriteInt_eq]
    exact (hc.putAll _).putAll _
  exact writeConnFields_induction (fun c flag hc => writtenFrom_orConnFlag hc flag) hutf mqttOptions
    (hutf _ _ _ (Cursor.writtenFrom_pos (payloadStart ctrlPacket mqttOptions)))

/-- The buffer has the size it was enlarged to. -/
theorem length_payloadEnd (ctrlPacket : Buffer) (mqttOptions : MqttClientOptions) :
    (payloadEnd ctrlPacket mqttOptions).cells.length = bufferLength ctrlPacket + connPayloadLen mqttOptions := by
  rw [payloadEnd, length_writeConnFields, length_byteutilWriteUTF, payloadStart, List.length_append, List.length_replicate]
  rfl

/-- As many stores as were reserved for are all that is asked. -/
theorem fillsReserved_of_count {ctrlPacket : Buffer} {mqttOptions : MqttClientOptions} (h : OptionsFit mqttOptions)
    (hcount : payloadWritten ctrlPacket mqttOptions = connPayloadLen mqttOptions) : FillsReserved ctrlPacket mqttOptions where
  count := hcount
  inside := by
    rw [Cursor.Room, hcount, payloadStart, List.length_append, List.length_replicate]
    exact Nat.le_refl _
  written := by
    refine (writtenFrom_payloadEnd ctrlPacket mqttOptions).written_drop ?_
    have hpos : (payloadEnd ctrlPacket mqttOptions).pos = bufferLength ctrlPacket + payloadWritten ctrlPacket mqttOptions := by
      rw [payloadWritten_eq ctrlPacket h, payloadEnd, pos_writeConnFields h, pos_byteutilWriteUTF _ h.1]
      exact Nat.add_assoc _ _ _
    rw [length_payloadEnd, hpos, hcount]

/-! ## The two accounts -/

/-- The space of a CONNECT payload. Where `constructConnPayload` returns 0, the bytes it writes fill the space it reserved exactly
when no string but the client id is empty and the client id is there, or the client id is NULL and one other string is empty. -/
theorem fillsReserved_iff (ctrlPacket : Buffer) (mqttOptions : MqttClientOptions) :
    (constructConnPayload ctrlPacket mqttOptions).Ensures fun built =>
      built = ⟨(payloadEnd ctrlPacket mqttOptions).cells⟩ ∧
        (FillsReserved ctrlPacket mqttOptions ↔ emptyStrings mqttOptions = if mqttOptions.clientId = none then 1 else 0) := by
  unfold constructConnPayload
  dsimp only
  split
  · exact ensures_giveUp
  · rename_i hclient
    split
    · exact ensures_giveUp
    · split
      · exact ensures_giveUp
      · rename_i hwill
        refine (ensures_bufferEnlarge _ _).bind ?_
        intro enlarged he
        subst he
        split
        · exact ensures_giveUp
        · rename_i hlong
          have hfit : OptionsFit mqttOptions := by
            rw [OptionsFit]
            omega
          have hwritten := payloadWritten_eq ctrlPacket hfit
          have hadd := connPayloadLen_add hwill
          refine ensures_pure ⟨rfl, ?_⟩
          have hiff : payloadWritten ctrlPacket mqttOptions = connPayloadLen mqttOptions ↔
              emptyStrings mqttOptions = if mqttOptions.clientId = none then 1 else 0 := by
            by_cases hid : mqttOptions.clientId = none
            · rw [if_pos hid] at hadd ⊢
              omega
            · rw [if_neg hid] at hadd ⊢
              omega
          rw [← hiff]
          exact ⟨FillsReserved.count, fillsReserved_of_count hfit⟩

/-- A user name without a client id is written two bytes past the end; an empty user name leaves the last two bytes unwritten. -/
theorem not_fillsReserved :
    let header := Buffer.ofBytes (connectHeader 0 60)
    let withoutClientId : MqttClientOptions :=
      { clientId := none, willTopic := none, willMessage := none, username := some ⟨[97], by decide⟩, password := none,
        keepAliveInterval := 60, messageRetain := false, useCleanSession := true, qualityOfServiceValue := .deliverAtMostOnce }
    let withEmptyUsername : MqttClientOptions :=
      { withoutClientId with clientId := some ⟨[97], by decide⟩, username := some ⟨[], by decide⟩ }
    ((constructConnPayload header withoutClientId).answer okHeap).1 = some ⟨(payloadEnd header withoutClientId).cells⟩ ∧
      payloadWritten header withoutClientId = connPayloadLen withoutClientId + 2 ∧
      ((constructConnPayload header withEmptyUsername).answer okHeap).1 = some ⟨(payloadEnd header withEmptyUsername).cells⟩ ∧
      payloadWritten header withEmptyUsername + 2 = connPayloadLen withEmptyUsername ∧
      ¬(FillsReserved header withoutClientId ∨ FillsReserved header withEmptyUsername) := by
  intro header withoutClientId withEmptyUsername
  refine ⟨by decide +kernel, by decide +kernel, by decide +kernel, by decide +kernel, ?_⟩
  rintro (h | h)
  · exact absurd h.count (by decide +kernel)
  · exact absurd h.count (by decide +kernel)

end Umqtt
