import Umqtt.Lemmas.Reading

/-!
# A CONNECT means what the options say

With memory at hand, `mqtt_codec_connect` returns NULL for the options it rejects, and otherwise a packet in which a reader of MQTT finds
the options: the flags announce the fields that follow, and the fields are the strings.
-/

namespace Umqtt

open Cells Alloc Reader

/-! ## The flags -/

/-- There is a will. -/
def MqttClientOptions.hasWill (mqttOptions : MqttClientOptions) : Bool := mqttOptions.willTopic.isSome && mqttOptions.willMessage.isSome

/-- What a CONNECT with these options says. -/
def MqttClientOptions.meaning (mqttOptions : MqttClientOptions) : Mqtt.Connect where
  protocolName := [0x4D, 0x51, 0x54, 0x54]
  protocolLevel := 4
  usernameFlag := mqttOptions.username.isSome
  passwordFlag := mqttOptions.password.isSome
  willRetain := mqttOptions.hasWill && mqttOptions.messageRetain
  willQos := if mqttOptions.hasWill then mqttOptions.qualityOfServiceValue.toByte else 0
  willFlag := mqttOptions.hasWill
  cleanSession := mqttOptions.useCleanSession
  reserved := false
  keepAlive := mqttOptions.keepAliveInterval
  clientId := bytesOpt mqttOptions.clientId
  willTopic := mqttOptions.willTopic.map Subtype.val
  willMessage := mqttOptions.willMessage.map Subtype.val
  username := mqttOptions.username.map Subtype.val
  password := mqttOptions.password.map Subtype.val

/-- The flags byte of a CONNECT, from the flags. -/
def flagsByte (username password willRetain : Bool) (willQos : UInt8) (will cleanSession : Bool) : UInt8 :=
  (if will then (0x04 : UInt8) ||| willQos <<< 3 ||| (if willRetain then 0x20 else 0) else 0) ||| (if username then 0x80 else 0) |||
    (if password then 0x40 else 0) ||| (if cleanSession then 0x02 else 0)

/-- The bits of the flags byte are the flags; those of the will are 0 when there is none. -/
theorem bits_flagsByte {flags : UInt8} {username password willRetain will cleanSession : Bool} {q : QosValue}
    (hflags : flags = flagsByte username password willRetain q.toByte will cleanSession)
    (hq : q ∈ [QosValue.deliverAtMostOnce, .deliverAtLeastOnce, .deliverExactlyOnce]) :
    decide (flags &&& 0x80 ≠ 0) = username ∧ decide (flags &&& 0x40 ≠ 0) = password ∧ decide (flags &&& 0x04 ≠ 0) = will ∧
      decide (flags &&& 0x20 ≠ 0) = (will && willRetain) ∧ ((flags >>> 3) &&& 3) = (if will then q.toByte else 0) ∧
      decide (flags &&& 0x02 ≠ 0) = cleanSession ∧ decide (flags &&& 0x01 ≠ 0) = false := by
  have hall : ∀ q ∈ [QosValue.deliverAtMostOnce, .deliverAtLeastOnce, .deliverExactlyOnce],
      ∀ username password willRetain will cleanSession : Bool,
      let flags := flagsByte username password willRetain q.toByte will cleanSession
      decide (flags &&& 0x80 ≠ 0) = username ∧ decide (flags &&& 0x40 ≠ 0) = password ∧ decide (flags &&& 0x04 ≠ 0) = will ∧
        decide (flags &&& 0x20 ≠ 0) = (will && willRetain) ∧ ((flags >>> 3) &&& 3) = (if will then q.toByte else 0) ∧
        decide (flags &&& 0x02 ≠ 0) = cleanSession ∧ decide (flags &&& 0x01 ≠ 0) = false := by decide +kernel
  rw [hflags]
  exact hall q hq username password willRetain will cleanSession

/-- A string is NULL or not empty. -/
def NullOrFilled (s : Option CString) : Prop := s = none ∨ strlenOpt s > 0

theorem NullOrFilled.pos_iff {s : Option CString} (h : NullOrFilled s) : strlenOpt s > 0 ↔ s.isSome = true := by
  rcases h with rfl | hpos
  · simp [strlenOpt]
  · refine iff_of_true hpos ?_
    rcases s with _ | s
    · exact absurd hpos (by simp [strlenOpt])
    · rfl

/-- A field that its flag announces is read as the string. -/
theorem reads_connField {s : Option CString} (hs : NullOrFilled s) (hle : strlenOpt s ≤ ushrtMax) :
    Reads (optional s.isSome Mqtt.string) (connField s) (s.map Subtype.val) := by
  rcases s with _ | s
  · exact reads_pure none
  · have hfield : connField (some s) = utfField s.val := if_pos (hs.pos_iff.mpr rfl)
    rw [hfield]
    exact (reads_utfField hle).map some

section

variable {mqttOptions : MqttClientOptions} (h : OptionsFilled mqttOptions)

include h

/-- The strings of the options are there exactly when they are not empty. -/
theorem pos_iff_of_filled :
    (strlenOpt mqttOptions.willTopic > 0 ↔ mqttOptions.willTopic.isSome = true) ∧
      (strlenOpt mqttOptions.willMessage > 0 ↔ mqttOptions.willMessage.isSome = true) ∧
      (strlenOpt mqttOptions.username > 0 ↔ mqttOptions.username.isSome = true) ∧
      (strlenOpt mqttOptions.password > 0 ↔ mqttOptions.password.isSome = true) :=
  ⟨NullOrFilled.pos_iff (h.2 _ (by simp)), NullOrFilled.pos_iff (h.2 _ (by simp)), NullOrFilled.pos_iff (h.2 _ (by simp)),
    NullOrFilled.pos_iff (h.2 _ (by simp))⟩

/-- The flags that `constructConnPayload` enters are those of the options. -/
theorem connFlags_eq : connFlags mqttOptions = flagsByte mqttOptions.username.isSome mqttOptions.password.isSome mqttOptions.messageRetain
    mqttOptions.qualityOfServiceValue.toByte mqttOptions.hasWill mqttOptions.useCleanSession := by
  obtain ⟨htopic, hmessage, husername, hpassword⟩ := pos_iff_of_filled h
  have hwill : HasWill mqttOptions ↔ mqttOptions.hasWill = true := by
    rw [HasWill, htopic, hmessage, MqttClientOptions.hasWill, Bool.and_eq_true, and_comm]
  simp only [connFlags, willFlags, flagsByte, hwill, husername, hpassword]

/-- The options that are accepted are those that have a user name with a password and both strings of a will. -/
theorem optionsAccepted_iff (hfit : OptionsFit mqttOptions) :
    OptionsAccepted mqttOptions ↔ ¬((mqttOptions.password ≠ none ∧ mqttOptions.username = none) ∨
      (mqttOptions.willTopic = none ↔ mqttOptions.willMessage ≠ none)) := by
  obtain ⟨htopic, hmessage, husername, hpassword⟩ := pos_iff_of_filled h
  simp only [Option.isSome_iff_ne_none] at htopic hmessage husername hpassword
  have hzero : ∀ n : Nat, n = 0 ↔ ¬n > 0 := fun n => by omega
  simp only [OptionsAccepted, hfit, true_and, hzero, htopic, hmessage, husername, hpassword]
  grind

/-- The body of a CONNECT is read as the options. -/
theorem readsAll_connectBody (haccepted : OptionsAccepted mqttOptions)
    (hq : mqttOptions.qualityOfServiceValue ∈ [QosValue.deliverAtMostOnce, .deliverAtLeastOnce, .deliverExactlyOnce]) :
    ReadsAll Mqtt.connect (connectBody mqttOptions) mqttOptions.meaning := by
  obtain ⟨⟨hid, hmessage, htopic, husername, hpassword⟩, -, hwill⟩ := haccepted
  obtain ⟨hposTopic, hposMessage, -, -⟩ := pos_iff_of_filled h
  -- the two strings of the will are announced by one flag
  have hwillTopic : mqttOptions.hasWill = mqttOptions.willTopic.isSome := by
    rw [MqttClientOptions.hasWill, Bool.eq_iff_iff, Bool.and_eq_true, ← hposTopic, ← hposMessage]
    omega
  have hwillMessage : mqttOptions.hasWill = mqttOptions.willMessage.isSome := by
    rw [MqttClientOptions.hasWill, Bool.eq_iff_iff, Bool.and_eq_true, ← hposTopic, ← hposMessage]
    omega
  have hbytes : connectBody mqttOptions = utfField [0x4D, 0x51, 0x54, 0x54] ++ ([protocolNumber] ++ ([connFlags mqttOptions] ++
      (uint16Bytes mqttOptions.keepAliveInterval ++ (utfField (bytesOpt mqttOptions.clientId) ++ (connField mqttOptions.willTopic ++
        (connField mqttOptions.willMessage ++ (connField mqttOptions.username ++ connField mqttOptions.password))))))) := by
    simp only [connectBody, connectHeader, connFields, willFields_eq hwill, List.append_assoc, List.cons_append, List.nil_append]
  obtain ⟨hu, hp, hw, hr, hqos, hc, hz⟩ := bits_flagsByte (connFlags_eq h) hq
  rw [← length_bytesOpt] at hid
  rw [hbytes, Mqtt.connect]
  refine (reads_utfField (by decide)).bindAll ((reads_next _).bindAll ((reads_next _).bindAll ?_))
  simp only [hu, hp, hw, hr, hqos, hc, hz]
  refine (reads_uint16Bytes _).bindAll ((reads_utfField hid).bindAll ?_)
  have hreadTopic := reads_connField (h.2 mqttOptions.willTopic (by simp)) htopic
  have hreadMessage := reads_connField (h.2 mqttOptions.willMessage (by simp)) hmessage
  have hreadUsername := reads_connField (h.2 mqttOptions.username (by simp)) husername
  have hreadPassword := reads_connField (h.2 mqttOptions.password (by simp)) hpassword
  rw [← hwillTopic] at hreadTopic
  rw [← hwillMessage] at hreadMessage
  refine hreadTopic.bindAll (hreadMessage.bindAll (hreadUsername.bindAll ?_))
  have hlast := hreadPassword.bindAll (f := fun password => pure { mqttOptions.meaning with password }) (reads_pure _).readsAll
  rw [List.append_nil] at hlast
  exact hlast

end

/-! ## The packet -/

theorem length_connField_le (s : Option CString) : (connField s).length ≤ strlenOpt s + 2 := by
  have := length_connField s
  split at this <;> split at this <;> omega

/-- A CONNECT is far from the largest packet. -/
theorem length_connectBody {mqttOptions : MqttClientOptions} (h : OptionsAccepted mqttOptions) :
    (connectBody mqttOptions).length < 268435456 := by
  obtain ⟨⟨hid, hmessage, htopic, husername, hpassword⟩, -, hwill⟩ := h
  have hshort : ∀ s, strlenOpt s ≤ ushrtMax → (connField s).length ≤ 65537 := by
    intro s hs
    exact Nat.le_trans (length_connField_le s) (Nat.add_le_add_right hs 2)
  have h1 := hshort _ hmessage
  have h2 := hshort _ htopic
  have h3 := hshort _ husername
  have h4 := hshort _ hpassword
  have h5 : strlenOpt mqttOptions.clientId ≤ 65535 := hid
  simp only [connectBody, connectHeader, connFields, willFields_eq hwill, List.length_append, length_utfField, length_bytesOpt,
    uint16Bytes, List.length_cons, List.length_nil]
  omega

/-- A CONNECT means what the options say. For options with a client id, other strings that are NULL or not empty, all of them at most
65535 bytes, and a quality of service, with memory at hand: `mqtt_codec_connect` returns NULL exactly when there is a password without
a user name or one string of a will without the other, and otherwise a packet that is read as the options, field by field. -/
theorem connect_decodes {mqttOptions : MqttClientOptions} (hfilled : OptionsFilled mqttOptions) (hfit : OptionsFit mqttOptions)
    (hq : mqttOptions.qualityOfServiceValue ∈ [QosValue.deliverAtMostOnce, .deliverAtLeastOnce, .deliverExactlyOnce])
    {heap : Heap} (hheap : Meets heap 6) :
    (((mqttCodecConnect mqttOptions).answer heap).1 = none ↔ (mqttOptions.password ≠ none ∧ mqttOptions.username = none) ∨
      (mqttOptions.willTopic = none ↔ mqttOptions.willMessage ≠ none)) ∧
    ∀ packet, ((mqttCodecConnect mqttOptions).answer heap).1 = some packet →
      ∃ bytes, packet = Buffer.ofBytes bytes ∧ Mqtt.decodeConnect bytes = some mqttOptions.meaning := by
  have hiff := optionsAccepted_iff hfilled hfit
  have haccepted := fun hn => hiff.mpr hn
  have hpos : 0 < connPayloadLen mqttOptions := by
    simp only [connPayloadLen, Option.isSome_iff_ne_none.mpr hfilled.1, if_true]
    omega
  exact (Request.connect mqttOptions).decodes (show ControlPacketType.connectType.toByte ||| 0 = 0x10 by decide) hfilled hheap
    (fun hrejected => never_mqttCodecConnect fun hn => hiff.mp hn.1 hrejected) (fun hn => needs_mqttCodecConnect (haccepted hn) hpos)
    (fun hn => readsAll_connectBody hfilled (haccepted hn) hq) (fun hn => length_connectBody (haccepted hn))

/-- A CONNECT with a will and a password. -/
theorem connect_decodes_will :
    let mqttOptions : MqttClientOptions :=
      { clientId := some ⟨[97], by decide⟩, willTopic := some ⟨[98], by decide⟩, willMessage := some ⟨[99], by decide⟩,
        username := some ⟨[100], by decide⟩, password := some ⟨[101], by decide⟩, keepAliveInterval := 60, messageRetain := true,
        useCleanSession := false, qualityOfServiceValue := .deliverExactlyOnce }
    (((mqttCodecConnect mqttOptions).answer okHeap).1 = none ↔ (mqttOptions.password ≠ none ∧ mqttOptions.username = none) ∨
      (mqttOptions.willTopic = none ↔ mqttOptions.willMessage ≠ none)) ∧
    ∀ packet, ((mqttCodecConnect mqttOptions).answer okHeap).1 = some packet →
      ∃ bytes, packet = Buffer.ofBytes bytes ∧ Mqtt.decodeConnect bytes = some mqttOptions.meaning :=
  connect_decodes ⟨by decide, by decide⟩ (by unfold OptionsFit; decide) (by decide) (meets_okHeap 6)

end Umqtt
