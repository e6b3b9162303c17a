import Umqtt.Lemmas.Encoders

/-!
# The bodies that the encoders write

Whatever the allocator answers, an encoder returns nothing or one packet, whose variable header and payload are written out here:
of a SUBSCRIBE and an UNSUBSCRIBE the packet id and one field a topic, of a CONNECT the header with its flags and the fields that
the flags announce. The stores of a CONNECT go through one iterator, whose place in the block is kept as a value (`connCursor`).
-/

namespace Umqtt

open Cells Alloc

/-! ## Writing a string -/

theorem toNat_ofNat_le_ushrtMax {n : Nat} (h : n ≤ ushrtMax) : (UInt16.ofNat n).toNat = n := by
  rw [UInt16.toNat_ofNat']
  exact Nat.mod_eq_of_lt (Nat.lt_of_le_of_lt h (by decide))

/-- A string with its length before it. -/
def utfField (bytes : List UInt8) : List UInt8 := uint16Bytes (UInt16.ofNat bytes.length) ++ bytes

theorem length_utfField (bytes : List UInt8) : (utfField bytes).length = bytes.length + 2 := by
  simp [utfField, uint16Bytes]

/-- `byteutil_writeUTF` writes a string of at most `USHRT_MAX` bytes with its length. -/
theorem byteutilWriteUTF_utfField (buffer : Cursor UInt8) {bytes : List UInt8} (h : bytes.length ≤ ushrtMax) :
    byteutilWriteUTF buffer bytes (UInt16.ofNat bytes.length) = buffer.putAll (utfField bytes) :=
  byteutilWriteUTF_eq buffer bytes _ (toNat_ofNat_le_ushrtMax h)

/-! ## SUBSCRIBE and UNSUBSCRIBE -/

/-- A topic with the quality of service asked for. -/
def subscribeField (item : SubscribePayload) : List UInt8 := utfField item.subscribeTopic.val ++ [item.qosReturn.toByte]

/-- A topic to unsubscribe from. -/
def unsubscribeField (topic : CString) : List UInt8 := utfField topic.val

/-- The body of a SUBSCRIBE. -/
def subscribeBody (packetId : UInt16) (subscribeList : List SubscribePayload) : List UInt8 :=
  uint16Bytes packetId ++ subscribeList.flatMap subscribeField

/-- The body of an UNSUBSCRIBE. -/
def unsubscribeBody (packetId : UInt16) (unsubscribeList : List CString) : List UInt8 :=
  uint16Bytes packetId ++ unsubscribeList.flatMap unsubscribeField

/-- The length of the body of a SUBSCRIBE. -/
theorem length_subscribeBody (packetId : UInt16) (subscribeList : List SubscribePayload) :
    (subscribeBody packetId subscribeList).length = 2 + (subscribeList.map fun item => strlen item.subscribeTopic + 3).sum := by
  simp only [subscribeBody, List.length_append, List.length_flatMap, subscribeField, length_utfField, List.length_singleton]
  rfl

/-- The length of the body of an UNSUBSCRIBE. -/
theorem length_unsubscribeBody (packetId : UInt16) (unsubscribeList : List CString) :
    (unsubscribeBody packetId unsubscribeList).length = 2 + (unsubscribeList.map fun topic => strlen topic + 2).sum := by
  simp only [unsubscribeBody, List.length_append, List.length_flatMap, unsubscribeField, length_utfField]
  rfl

theorem ensures_constructSubscibeTypeVariableHeader (packetId : UInt16) :
    (constructSubscibeTypeVariableHeader ⟨[]⟩ packetId).Ensures (· = Buffer.ofBytes (uint16Bytes packetId)) := by
  unfold constructSubscibeTypeVariableHeader
  refine (ensures_bufferEnlarge _ _).bind ?_
  intro ctrlPacket hc
  subst hc
  exact ensures_pure rfl

/-- The loop appends one field a topic. -/
theorem ensures_addListItemsToSubscribePacket (done : List UInt8) (payloadList : List SubscribePayload) :
    (addListItemsToSubscribePacket (Buffer.ofBytes done) payloadList).Ensures
      (· = Buffer.ofBytes (done ++ payloadList.flatMap subscribeField)) := by
  induction payloadList generalizing done with
  | nil => exact ensures_pure (by simp)
  | cons item payloadList ih =>
    unfold addListItemsToSubscribePacket
    dsimp only
    split
    · exact ensures_giveUp
    · rename_i hle
      have hlen : strlen item.subscribeTopic + 2 + 1 = (subscribeField item).length := by
        rw [subscribeField, List.length_append, length_utfField]
        rfl
      refine (ensures_bufferEnlarge _ _).bind ?_
      intro ctrlPacket hc
      subst hc
      have hput : ∀ c : Cursor UInt8, (byteutilWriteUTF c item.subscribeTopic.val (UInt16.ofNat (strlen item.subscribeTopic))).put
          item.qosReturn.toByte = c.putAll (subscribeField item) := by
        intro c
        rw [strlen, byteutilWriteUTF_utfField c (Nat.not_lt.mp hle), subscribeField, Cursor.putAll_append]
        rfl
      simp only [hput, hlen, ofBytes_putAll]
      rw [List.flatMap_cons, ← List.append_assoc]
      exact ih (done ++ subscribeField item)

/-- The loop appends one field a topic. -/
theorem ensures_addListItemsToUnsubscribePacket (done : List UInt8) (payloadList : List CString) :
    (addListItemsToUnsubscribePacket (Buffer.ofBytes done) payloadList).Ensures
      (· = Buffer.ofBytes (done ++ payloadList.flatMap unsubscribeField)) := by
  induction payloadList generalizing done with
  | nil => exact ensures_pure (by simp)
  | cons topic payloadList ih =>
    unfold addListItemsToUnsubscribePacket
    dsimp only
    split
    · exact ensures_giveUp
    · rename_i hle
      have hlen : strlen topic + 2 = (unsubscribeField topic).length := by
        rw [unsubscribeField, length_utfField]
        rfl
      refine (ensures_bufferEnlarge _ _).bind ?_
      intro ctrlPacket hc
      subst hc
      have hput : ∀ c : Cursor UInt8, byteutilWriteUTF c topic.val (UInt16.ofNat (strlen topic)) =
          c.putAll (unsubscribeField topic) := by
        intro c
        exact byteutilWriteUTF_utfField c (Nat.not_lt.mp hle)
      simp only [hput, hlen, ofBytes_putAll]
      rw [List.flatMap_cons, ← List.append_assoc]
      exact ih (done ++ unsubscribeField topic)

/-! ## PUBLISH -/

theorem ensures_constructPublishVariableHeader (topicName : CString) (packetId : UInt16) (qosValue : QosValue) :
    (constructPublishVariableHeader ⟨[]⟩ topicName packetId qosValue).Ensures
      (· = Buffer.ofBytes (publishHeader topicName packetId qosValue)) := by
  by_cases h : strlen topicName ≤ ushrtMax
  · rw [show (⟨[]⟩ : Buffer) = Buffer.ofBytes [] from rfl, constructPublishVariableHeader_eq topicName packetId qosValue h]
    exact ensures_bind fun _ => ensures_pure rfl
  · unfold constructPublishVariableHeader
    simp only [if_pos (Nat.not_le.mp h)]
    exact ensures_giveUp

theorem ensures_appendMsgBuffer (header msgBuffer : List UInt8) :
    (appendMsgBuffer (Buffer.ofBytes header) msgBuffer).Ensures (· = Buffer.ofBytes (header ++ msgBuffer)) := by
  rw [appendMsgBuffer_eq]
  split
  · exact ensures_bind fun _ => ensures_pure rfl
  · exact ensures_pure rfl

/-! ## CONNECT -/

/-- The variable header of a CONNECT, with the given flags. -/
def connectHeader (flags : UInt8) (keepAliveInterval : UInt16) : List UInt8 :=
  utfField [0x4D, 0x51, 0x54, 0x54] ++ [protocolNumber, flags] ++ uint16Bytes keepAliveInterval

/-- The field of a string, if there is one that is not empty. -/
def connField (s : Option CString) : List UInt8 := if strlenOpt s > 0 then utfField (bytesOpt s) else []

/-- There is a will: its message and its topic are not empty. -/
def HasWill (mqttOptions : MqttClientOptions) : Prop :=
  strlenOpt mqttOptions.willMessage > 0 ∧ strlenOpt mqttOptions.willTopic > 0

instance (mqttOptions : MqttClientOptions) : Decidable (HasWill mqttOptions) := inferInstanceAs (Decidable (_ ∧ _))

/-- The fields of the will. -/
def willFields (mqttOptions : MqttClientOptions) : List UInt8 :=
  if HasWill mqttOptions then connField mqttOptions.willTopic ++ connField mqttOptions.willMessage else []

/-- The flags of the will. -/
def willFlags (mqttOptions : MqttClientOptions) : UInt8 :=
  if HasWill mqttOptions then
    (0x04 : UInt8) ||| mqttOptions.qualityOfServiceValue.toByte <<< 3 ||| (if mqttOptions.messageRetain then 0x20 else 0)
  else 0

/-- The fields of a CONNECT after the client id. -/
def connFields (mqttOptions : MqttClientOptions) : List UInt8 :=
  willFields mqttOptions ++ connField mqttOptions.username ++ connField mqttOptions.password

/-- The flags of a CONNECT. -/
def connFlags (mqttOptions : MqttClientOptions) : UInt8 :=
  willFlags mqttOptions ||| (if strlenOpt mqttOptions.username > 0 then 0x80 else 0) |||
    (if strlenOpt mqttOptions.password > 0 then 0x40 else 0) ||| (if mqttOptions.useCleanSession then 0x02 else 0)

/-- The body of a CONNECT. -/
def connectBody (mqttOptions : MqttClientOptions) : List UInt8 :=
  connectHeader (connFlags mqttOptions) mqttOptions.keepAliveInterval ++ utfField (bytesOpt mqttOptions.clientId) ++
    connFields mqttOptions

theorem length_bytesOpt (s : Option CString) : (bytesOpt s).length = strlenOpt s := by
  cases s <;> rfl

theorem ensures_constructConnectVariableHeader (mqttOptions : MqttClientOptions) :
    (constructConnectVariableHeader ⟨[]⟩ mqttOptions).Ensures
      (· = Buffer.ofBytes (connectHeader 0 mqttOptions.keepAliveInterval)) := by
  unfold constructConnectVariableHeader
  refine (ensures_bufferEnlarge _ _).bind ?_
  intro ctrlPacket hc
  subst hc
  exact ensures_pure rfl

/-- The iterator of `constructConnPayload`, with the block behind it: the header with the flags so far, what has been written after it,
and the room that is left. -/
def connCursor (flags : UInt8) (keepAliveInterval : UInt16) (done : List UInt8) (todo : Nat) : Cursor UInt8 :=
  ⟨(connectHeader flags keepAliveInterval ++ done).map some ++ List.replicate todo none,
    (connectHeader flags keepAliveInterval ++ done).length⟩

section

variable (flags : UInt8) (keepAliveInterval : UInt16) (done : List UInt8) (todo : Nat)

theorem orConnFlag_connCursor (flag : UInt8) :
    orConnFlag (connCursor flags keepAliveInterval done todo) flag = connCursor (flags ||| flag) keepAliveInterval done todo := rfl

/-- A flag that is set on a condition. -/
theorem orConnFlag_connCursor_if (c : Prop) [Decidable c] (flag : UInt8) :
    (if c then orConnFlag (connCursor flags keepAliveInterval done todo) flag
      else connCursor flags keepAliveInterval done todo) =
      connCursor (flags ||| if c then flag else 0) keepAliveInterval done todo := by
  split
  · exact orConnFlag_connCursor flags keepAliveInterval done todo flag
  · rw [UInt8.or_zero]

/-- A string is written where there is room for it. -/
theorem byteutilWriteUTF_connCursor {bytes : List UInt8} (h : bytes.length ≤ ushrtMax) :
    byteutilWriteUTF (connCursor flags keepAliveInterval done ((utfField bytes).length + todo)) bytes (UInt16.ofNat bytes.length) =
      connCursor flags keepAliveInterval (done ++ utfField bytes) todo := by
  have hput := Cursor.putAll_eq ((connectHeader flags keepAliveInterval ++ done).map some)
    (List.replicate ((utfField bytes).length + todo) none) (utfField bytes) (by simp)
  rw [List.length_map] at hput
  rw [byteutilWriteUTF_utfField _ h, connCursor, hput, connCursor]
  simp [Nat.add_assoc]

/-- A string that is not empty is written with its flag. -/
theorem writeConnField_connCursor {s : Option CString} (h : strlenOpt s ≤ ushrtMax) (flag : UInt8) :
    (if strlenOpt s > 0 then
      byteutilWriteUTF (orConnFlag (connCursor flags keepAliveInterval done ((connField s).length + todo)) flag) (bytesOpt s)
        (UInt16.ofNat (strlenOpt s))
    else connCursor flags keepAliveInterval done ((connField s).length + todo)) =
      connCursor (flags ||| if strlenOpt s > 0 then flag else 0) keepAliveInterval (done ++ connField s) todo := by
  rw [← length_bytesOpt] at h
  by_cases hpos : strlenOpt s > 0
  · simp only [connField, if_pos hpos, orConnFlag_connCursor]
    rw [← length_bytesOpt]
    exact byteutilWriteUTF_connCursor _ _ _ _ h
  · simp only [connField, if_neg hpos, List.length_nil, Nat.zero_add, List.append_nil, UInt8.or_zero]

end

/-- What every store of a string and every flag keeps, `writeConnFields` keeps. -/
theorem writeConnFields_induction {P : Cursor UInt8 → Prop} (hflag : ∀ c flag, P c → P (orConnFlag c flag))
    (hutf : ∀ c stringData len, P c → P (byteutilWriteUTF c stringData len)) (mqttOptions : MqttClientOptions) {c : Cursor UInt8}
    (h : P c) : P (writeConnFields mqttOptions c) := by
  have hif : ∀ (p : Prop) [Decidable p] (flag : UInt8) (c : Cursor UInt8), P c → P (if p then orConnFlag c flag else c) := by
    intro p _ flag c hc
    split
    · exact hflag c flag hc
    · exact hc
  have hfield : ∀ (p : Prop) [Decidable p] (flag : UInt8) (stringData : List UInt8) (len : UInt16) (c : Cursor UInt8), P c →
      P (if p then byteutilWriteUTF (orConnFlag c flag) stringData len else c) := by
    intro p _ flag stringData len c hc
    split
    · exact hutf _ _ _ (hflag _ _ hc)
    · exact hc
  unfold writeConnFields
  dsimp only
  refine hif _ _ _ (hfield _ _ _ _ _ (hfield _ _ _ _ _ ?_))
  split
  · exact hutf _ _ _ (hif _ _ _ (hflag _ _ (hutf _ _ _ (hflag _ _ h))))
  · exact h

theorem length_orConnFlag (c : Cursor UInt8) (flag : UInt8) : (orConnFlag c flag).cells.length = c.cells.length := List.length_modify ..

theorem length_byteutilWriteUTF (c : Cursor UInt8) (stringData : List UInt8) (len : UInt16) :
    (byteutilWriteUTF c stringData len).cells.length = c.cells.length := by
  rw [byteutilWriteUTF, byteutilWriteInt_eq, Cursor.length_cells_putAll, Cursor.length_cells_putAll]

/-- The stores of a CONNECT do not change the size of the block. -/
theorem length_writeConnFields (mqttOptions : MqttClientOptions) (c : Cursor UInt8) :
    (writeConnFields mqttOptions c).cells.length = c.cells.length :=
  writeConnFields_induction (P := fun c' => c'.cells.length = c.cells.length)
    (fun c' flag h => (length_orConnFlag c' flag).trans h)
    (fun c' stringData len h => (length_byteutilWriteUTF c' stringData len).trans h) mqttOptions rfl

/-- All strings fit their length fields. -/
def OptionsFit (mqttOptions : MqttClientOptions) : Prop :=
  strlenOpt mqttOptions.clientId ≤ ushrtMax ∧ strlenOpt mqttOptions.willMessage ≤ ushrtMax ∧
    strlenOpt mqttOptions.willTopic ≤ ushrtMax ∧ strlenOpt mqttOptions.username ≤ ushrtMax ∧
    strlenOpt mqttOptions.password ≤ ushrtMax

section

variable {mqttOptions : MqttClientOptions} (h : OptionsFit mqttOptions) (keepAliveInterval : UInt16) (done : List UInt8) (todo : Nat)

include h

/-- The stores of `writeConnFields` for the will. -/
theorem writeWill_connCursor :
    (if strlenOpt mqttOptions.willMessage > 0 ∧ strlenOpt mqttOptions.willTopic > 0 then
      let iterator := orConnFlag (connCursor 0 keepAliveInterval done ((willFields mqttOptions).length + todo)) 0x04
      let iterator := byteutilWriteUTF iterator (bytesOpt mqttOptions.willTopic) (UInt16.ofNat (strlenOpt mqttOptions.willTopic))
      let iterator := orConnFlag iterator (mqttOptions.qualityOfServiceValue.toByte <<< 3)
      let iterator := if mqttOptions.messageRetain then orConnFlag iterator 0x20 else iterator
      byteutilWriteUTF iterator (bytesOpt mqttOptions.willMessage) (UInt16.ofNat (strlenOpt mqttOptions.willMessage))
    else connCursor 0 keepAliveInterval done ((willFields mqttOptions).length + todo)) =
      connCursor (willFlags mqttOptions) keepAliveInterval (done ++ willFields mqttOptions) todo := by
  obtain ⟨-, hmessage, htopic, -, -⟩ := h
  by_cases hw : HasWill mqttOptions
  · have hw' : strlenOpt mqttOptions.willMessage > 0 ∧ strlenOpt mqttOptions.willTopic > 0 := hw
    have hfields : willFields mqttOptions = utfField (bytesOpt mqttOptions.willTopic) ++ utfField (bytesOpt mqttOptions.willMessage) := by
      simp only [willFields, connField, if_pos hw, if_pos hw.1, if_pos hw.2]
    have hlen : (willFields mqttOptions).length + todo =
        (utfField (bytesOpt mqttOptions.willTopic)).length + ((utfField (bytesOpt mqttOptions.willMessage)).length + todo) := by
      rw [hfields, List.length_append]
      omega
    rw [← length_bytesOpt] at hmessage htopic
    rw [if_pos hw']
    simp only [hlen, orConnFlag_connCursor, ← length_bytesOpt]
    rw [byteutilWriteUTF_connCursor _ _ _ _ htopic, orConnFlag_connCursor, orConnFlag_connCursor_if,
      byteutilWriteUTF_connCursor _ _ _ _ hmessage, UInt8.zero_or, hfields, willFlags, if_pos hw, List.append_assoc]
  · have hw' : ¬(strlenOpt mqttOptions.willMessage > 0 ∧ strlenOpt mqttOptions.willTopic > 0) := hw
    simp only [willFields, willFlags, if_neg hw, if_neg hw', List.length_nil, Nat.zero_add, List.append_nil]

/-- The stores of `constructConnPayload` after the client id are the fields with their flags. -/
theorem writeConnFields_connCursor :
    writeConnFields mqttOptions (connCursor 0 keepAliveInterval done ((connFields mqttOptions).length + todo)) =
      connCursor (connFlags mqttOptions) keepAliveInterval (done ++ connFields mqttOptions) todo := by
  have hspace : (connFields mqttOptions).length + todo = (willFields mqttOptions).length +
      ((connField mqttOptions.username).length + ((connField mqttOptions.password).length + todo)) := by
    simp only [connFields, List.length_append]
    omega
  have hwill := writeWill_connCursor h keepAliveInterval done
  obtain ⟨-, -, -, husername, hpassword⟩ := h
  unfold writeConnFields
  dsimp only at hwill ⊢
  rw [hspace, hwill, writeConnField_connCursor _ _ _ _ husername, writeConnField_connCursor _ _ _ _ hpassword,
    orConnFlag_connCursor_if]
  simp only [connFlags, connFields, List.append_assoc]

end

/-- A string that is there and is empty. -/
def emptyString (s : Option CString) : Bool := s.isSome && strlenOpt s = 0

/-- The strings but the client id that are there and are empty. -/
def emptyStrings (mqttOptions : MqttClientOptions) : Nat :=
  [mqttOptions.willTopic, mqttOptions.willMessage, mqttOptions.username, mqttOptions.password].countP emptyString

/-- What is reserved for a string is the length of its field, and two bytes that an empty string does not use. -/
theorem length_connField (s : Option CString) :
    (connField s).length + (if emptyString s then 2 else 0) = strlenOpt s + if s.isSome then 2 else 0 := by
  rcases s with _ | s
  · rfl
  · simp only [connField, emptyString, Option.isSome_some, Bool.true_and, decide_eq_true_eq, if_true]
    by_cases hpos : strlenOpt (some s) > 0
    · rw [if_pos hpos, if_neg (by omega), length_utfField]
      rfl
    · rw [if_neg hpos, if_pos (by omega), List.length_nil]
      omega

/-- When the will has both its strings or none, its fields are those of the strings. -/
theorem willFields_eq {mqttOptions : MqttClientOptions}
    (hwill : ¬((strlenOpt mqttOptions.willMessage > 0 ∧ strlenOpt mqttOptions.willTopic = 0) ∨
      (strlenOpt mqttOptions.willTopic > 0 ∧ strlenOpt mqttOptions.willMessage = 0))) :
    willFields mqttOptions = connField mqttOptions.willTopic ++ connField mqttOptions.willMessage := by
  rw [willFields]
  split
  · rfl
  · rename_i hnot
    have hnone : ¬strlenOpt mqttOptions.willMessage > 0 ∧ ¬strlenOpt mqttOptions.willTopic > 0 := by
      rw [HasWill] at hnot
      omega
    simp only [connField, if_neg hnone.1, if_neg hnone.2, List.append_nil]

/-- What `constructConnPayload` reserves, when the will has both its strings or none: the client id and the fields, two bytes for every
empty string, and nothing for the length of a client id that is NULL. -/
theorem connPayloadLen_add {mqttOptions : MqttClientOptions}
    (hwill : ¬((strlenOpt mqttOptions.willMessage > 0 ∧ strlenOpt mqttOptions.willTopic = 0) ∨
      (strlenOpt mqttOptions.willTopic > 0 ∧ strlenOpt mqttOptions.willMessage = 0))) :
    connPayloadLen mqttOptions + (if mqttOptions.clientId = none then 2 else 0) =
      (utfField (bytesOpt mqttOptions.clientId)).length + (connFields mqttOptions).length + 2 * emptyStrings mqttOptions := by
  have htopic := length_connField mqttOptions.willTopic
  have hmessage := length_connField mqttOptions.willMessage
  have husername := length_connField mqttOptions.username
  have hpassword := length_connField mqttOptions.password
  have hid : (if mqttOptions.clientId.isSome then 2 else 0) + (if mqttOptions.clientId = none then 2 else 0) = 2 := by
    cases mqttOptions.clientId <;> rfl
  have hempty : 2 * emptyStrings mqttOptions = (if emptyString mqttOptions.willTopic then 2 else 0) +
      (if emptyString mqttOptions.willMessage then 2 else 0) + (if emptyString mqttOptions.username then 2 else 0) +
      (if emptyString mqttOptions.password then 2 else 0) := by
    simp only [emptyStrings, List.countP_cons, List.countP_nil]
    split <;> split <;> split <;> split <;> rfl
  simp only [connPayloadLen, connFields, willFields_eq hwill, List.length_append, length_utfField, length_bytesOpt, hempty]
  omega

/-- The strings that `constructConnPayload` reserves exactly the room for that it writes: a client id, and otherwise none that is
empty. -/
def OptionsFilled (mqttOptions : MqttClientOptions) : Prop :=
  mqttOptions.clientId ≠ none ∧
    ∀ s ∈ [mqttOptions.willTopic, mqttOptions.willMessage, mqttOptions.username, mqttOptions.password], s = none ∨ strlenOpt s > 0

/-- `constructConnPayload` reserves what the client id and the fields take, when the will has both its strings or none. -/
theorem connPayloadLen_eq {mqttOptions : MqttClientOptions} (h : OptionsFilled mqttOptions)
    (hwill : ¬((strlenOpt mqttOptions.willMessage > 0 ∧ strlenOpt mqttOptions.willTopic = 0) ∨
      (strlenOpt mqttOptions.willTopic > 0 ∧ strlenOpt mqttOptions.willMessage = 0))) :
    connPayloadLen mqttOptions = (utfField (bytesOpt mqttOptions.clientId)).length + (connFields mqttOptions).length := by
  obtain ⟨hclient, hother⟩ := h
  have hempty : emptyStrings mqttOptions = 0 := by
    refine List.countP_eq_zero.mpr ?_
    intro s hs hempty
    simp only [emptyString, Bool.and_eq_true, decide_eq_true_eq] at hempty
    rcases hother s hs with rfl | hpos
    · exact absurd hempty.1 (by simp)
    · omega
  have hadd := connPayloadLen_add hwill
  rw [if_neg hclient, hempty] at hadd
  exact hadd

/-- `constructConnPayload`, after the variable header, writes the client id and the fields, and sets the flags. -/
theorem ensures_constructConnPayload {mqttOptions : MqttClientOptions} (h : OptionsFilled mqttOptions) :
    (constructConnPayload (Buffer.ofBytes (connectHeader 0 mqttOptions.keepAliveInterval)) mqttOptions).Ensures
      (· = Buffer.ofBytes (connectBody mqttOptions)) := by
  unfold constructConnPayload
  dsimp only
  split
  · exact ensures_giveUp
  · rename_i hclient
    split
    · exact ensures_giveUp
    · split
      · exact ensures_giveUp
      · rename_i hwill
        refine (ensures_bufferEnlarge _ _).bind ?_
        intro ctrlPacket hc
        subst hc
        split
        · exact ensures_giveUp
        · rename_i hlong
          have hfit : OptionsFit mqttOptions := by
            rw [OptionsFit]
            omega
          have hid : (bytesOpt mqttOptions.clientId).length ≤ ushrtMax := by
            rw [length_bytesOpt]
            exact hfit.1
          have hstart : (⟨(Buffer.ofBytes (connectHeader 0 mqttOptions.keepAliveInterval)).cells ++
                List.replicate (connPayloadLen mqttOptions) none,
              bufferLength (Buffer.ofBytes (connectHeader 0 mqttOptions.keepAliveInterval))⟩ : Cursor UInt8) =
              connCursor 0 mqttOptions.keepAliveInterval []
                ((utfField (bytesOpt mqttOptions.clientId)).length + ((connFields mqttOptions).length + 0)) := by
            rw [connPayloadLen_eq h hwill, bufferLength_ofBytes, connCursor, List.append_nil, Nat.add_zero]
            rfl
          rw [hstart, ← length_bytesOpt mqttOptions.clientId, byteutilWriteUTF_connCursor _ _ _ _ hid, writeConnFields_connCursor hfit]
          refine ensures_pure ?_
          simp [connCursor, connectBody, Buffer.ofBytes]

/-! ## The packets -/

/-- What an encoder that ends with `constructFixedHeader` returns. -/
theorem Alloc.Ensures.fixedHeader {m : Alloc Buffer} {body : List UInt8} (hm : m.Ensures (· = Buffer.ofBytes body)) (t : ControlPacketType)
    (flags : UInt8) :
    (m >>= fun ctrlPacket => constructFixedHeader ctrlPacket t flags).Ensures
      (· = Buffer.ofBytes ((t.toByte ||| flags) :: (remainSize body.length ++ body))) := by
  refine hm.bind ?_
  intro ctrlPacket hc
  subst hc
  intro heap packet heap' hp
  rw [ensures_constructFixedHeader _ _ _ _ _ _ hp, bufferLength_ofBytes]
  simp [Buffer.ofBytes]

end Umqtt
