import Umqtt.Lemmas.CodecInv

/-!
# Framing: which streams the decoder takes apart

The decoder delivers a stream of framed packets however it is cut (`bytesReceived_frames`). The two ways in which a packet of MQTT
is not framed are the length of its body: a remaining length of four bytes is refused although the encoder writes it
(`length_fields_agree_iff`), and a remaining length of 0 leaves every codec but that of a PINGRESP waiting for a body
(`empty_packet_resyncs_iff`).
-/

namespace Umqtt

open Feed Cells Groups

/-! ## Streams of framed packets -/

/-- The bytes of framed packets, in chunks cut anywhere: every call returns zero, `packetComplete` is invoked once for each packet,
in order, with its type, flags and body, and the codec ends between two packets. -/
theorem bytesReceived_frames {σ : Type} (packetComplete : OnPacketCompleteCallback σ) (s : σ) (ps : List Packet)
    (hps : ∀ p ∈ ps, p.Framed) (chunks : List (List UInt8)) (hne : ∀ chunk ∈ chunks, chunk ≠ [])
    (hcut : chunks.flatten = wireOf ps) :
    let r := receiveChunks packetComplete ⟨mqttCodecCreate, okHeap, s⟩ chunks
    r.2 = List.replicate chunks.length .zero ∧
      r.1.callContext = ps.foldl (fun s p => packetComplete p.type p.flags p.headerData s) s ∧
      r.1.inst.InitialParsing := by
  obtain ⟨off, hfeed⟩ := feed_wireOf packetComplete hps 0 s
  rw [← hcut, startAt_zero] at hfeed
  have hall := feedAll_of_flatten
    (show (feed .zero (receiveByte packetComplete) ⟨mqttCodecCreate, okHeap, s⟩ chunks.flatten).2 = .zero by rw [hfeed])
  rw [hfeed] at hall
  simp only [receiveChunks_eq_feedAll packetComplete hne, hall]
  exact ⟨trivial, rfl, initialParsing_startAt off⟩

/-- A PUBLISH and a PINGRESP, cut inside the body and before the length of the PINGRESP. -/
theorem bytesReceived_frames_cut :
    let r := receiveChunks record ⟨mqttCodecCreate, okHeap, []⟩ [[0x30, 3, 0], [1, 65, 0xD0], [0]]
    r.2 = [.zero, .zero, .zero] ∧
      r.1.callContext = [⟨.publishType, 0, some (Buffer.ofBytes [0, 1, 65])⟩, ⟨.pingrespType, 0, none⟩] ∧
      r.1.inst.InitialParsing :=
  bytesReceived_frames record [] [⟨0x30, [0, 1, 65]⟩, ⟨0xD0, []⟩] (by decide) [[0x30, 3, 0], [1, 65, 0xD0], [0]] (by decide)
    (by simp [wireOf, Packet.wire, lenField_lt])

/-! ## Long bodies -/

/-- The length bytes that `constructFixedHeader` writes for `body` are understood after the first byte: they are accepted, take a
buffer of just the length of the body, and the body is then delivered. -/
def LengthFieldsAgree {σ : Type} (packetComplete : OnPacketCompleteCallback σ) (first : UInt8) (body : List UInt8) (s : σ) : Prop :=
  let r := mqttCodecBytesReceived packetComplete ⟨mqttCodecCreate, okHeap, s⟩
    (some (first :: remainSize (bufferLength (Buffer.ofBytes body))))
  let r' := mqttCodecBytesReceived packetComplete r.1 (some body)
  r.2 = .zero ∧ r.1.inst.headerData = some ⟨List.replicate body.length none⟩ ∧ r'.2 = .zero ∧
    r'.1.callContext = packetComplete (packetTypeByte first) (flagValueByte first) (some (Buffer.ofBytes body)) s

section

variable {σ : Type} (packetComplete : OnPacketCompleteCallback σ) (first : UInt8) (body : List UInt8) (s : σ)

/-- A length of one to three bytes is understood. -/
theorem lengthFieldsAgree_of_le (hacc : firstByteAccepted (packetTypeByte first) (flagValueByte first) = true)
    (ht : packetTypeByte first ≠ .pingrespType) (hpos : 1 ≤ body.length) (hle : body.length ≤ 2097151) :
    LengthFieldsAgree packetComplete first body s := by
  have hne : body ≠ [] := List.ne_nil_of_length_pos hpos
  have hfirst := receiveByte_first packetComplete 0 okHeap s hacc
  have hlen := feed_lenField packetComplete 0 s ht hpos hle
  have hbody := feed_body packetComplete okHeap s first body [] hne
  rw [startAt_zero] at hfirst
  have hhead : mqttCodecBytesReceived packetComplete ⟨mqttCodecCreate, okHeap, s⟩
      (some (first :: remainSize (bufferLength (Buffer.ofBytes body)))) = (⟨inBody first [] body.length, okHeap, s⟩, .zero) := by
    rw [bufferLength_ofBytes, remainSize_eq (by omega), bytesReceived_of_ne_nil packetComplete (by simp),
      feed_cons_good _ (by rw [hfirst]), hfirst, hlen]
  simp only [LengthFieldsAgree, hhead, bytesReceived_of_ne_nil packetComplete hne, hbody]
  exact ⟨trivial, rfl, trivial, by rw [List.nil_append]⟩

/-- A length of four bytes is refused at its last byte. -/
theorem not_lengthFieldsAgree_of_ge (hacc : firstByteAccepted (packetTypeByte first) (flagValueByte first) = true)
    (ht : packetTypeByte first ≠ .pingrespType) (hge : 2097152 ≤ body.length) (hle : body.length ≤ 268435455) :
    ¬LengthFieldsAgree packetComplete first body s := by
  rintro ⟨hzero, -⟩
  have hfirst := receiveByte_first packetComplete 0 okHeap s hacc
  obtain ⟨inst, hlen⟩ := feed_lenField_long packetComplete 0 okHeap s ht hge []
  rw [List.append_nil] at hlen
  rw [startAt_zero] at hfirst
  rw [bufferLength_ofBytes, remainSize_eq (by omega), bytesReceived_of_ne_nil packetComplete (by simp),
    feed_cons_good _ (by rw [hfirst]), hfirst, hlen] at hzero
  exact MuResult.noConfusion hzero

/-- Encoder and decoder agree on the remaining length of a body exactly up to 2097151 bytes: the largest length of three bytes,
not of four. -/
theorem length_fields_agree_iff (hacc : firstByteAccepted (packetTypeByte first) (flagValueByte first) = true)
    (ht : packetTypeByte first ≠ .pingrespType) (hpos : 1 ≤ body.length) (hle : body.length ≤ 268435455) :
    LengthFieldsAgree packetComplete first body s ↔ body.length ≤ 2097151 := by
  constructor
  · intro h
    by_contra hlong
    exact not_lengthFieldsAgree_of_ge packetComplete first body s hacc ht (by omega) hle h
  · exact lengthFieldsAgree_of_le packetComplete first body s hacc ht hpos

end

/-- A PUBLISH whose body has 2097152 bytes is not understood. -/
theorem not_lengthFieldsAgree_publish : ¬LengthFieldsAgree record 0x30 (List.replicate 2097152 0) [] :=
  not_lengthFieldsAgree_of_ge record 0x30 _ [] (by decide) (by decide) (by rw [List.length_replicate])
    (by rw [List.length_replicate]; decide)

theorem length_fields_agree_iff_one_byte : LengthFieldsAgree record 0x30 [7] [] ↔ 1 ≤ 2097151 :=
  length_fields_agree_iff record 0x30 [7] [] (by decide) (by decide) (by decide) (by decide)

/-! ## Empty bodies -/

/-- After the first byte of a packet and a remaining length of 0, a created codec has either refused the length, or it is between
two packets and decodes what follows as a created codec does, in calls of its own and in the same call. -/
def ResyncsAfterEmpty {σ : Type} (packetComplete : OnPacketCompleteCallback σ) (first : UInt8) (heap : Heap) (s : σ) : Prop :=
  let fresh : Codec σ := ⟨mqttCodecCreate, heap, s⟩
  let r := mqttCodecBytesReceived packetComplete fresh (some [first, 0])
  let again : Codec σ := ⟨mqttCodecCreate, r.1.heap, r.1.callContext⟩
  r.2 ≠ .zero ∨
    (r.1.inst.InitialParsing ∧
      (∀ chunks, (receiveChunks packetComplete r.1 chunks).2 = (receiveChunks packetComplete again chunks).2 ∧
        (receiveChunks packetComplete r.1 chunks).1.callContext = (receiveChunks packetComplete again chunks).1.callContext) ∧
      ∀ stream, stream ≠ [] →
        (mqttCodecBytesReceived packetComplete fresh (some (first :: 0 :: stream))).2 =
          (mqttCodecBytesReceived packetComplete again (some stream)).2 ∧
        (mqttCodecBytesReceived packetComplete fresh (some (first :: 0 :: stream))).1.callContext =
          (mqttCodecBytesReceived packetComplete again (some stream)).1.callContext)

section

variable {σ : Type} (packetComplete : OnPacketCompleteCallback σ) {first : UInt8} (heap : Heap) (s : σ)

/-- An empty packet that is not a PINGRESP leaves a created codec waiting for a body that it has no buffer for. -/
theorem bytesReceived_empty (hacc : firstByteAccepted (packetTypeByte first) (flagValueByte first) = true)
    (ht : packetTypeByte first ≠ .pingrespType) :
    mqttCodecBytesReceived packetComplete ⟨mqttCodecCreate, heap, s⟩ (some [first, 0]) =
      (⟨enterVarHeader (inLength first [] 0), heap, s⟩, .zero) := by
  have hfirst := receiveByte_first packetComplete 0 heap s hacc
  have hzero := receiveByte_lenZero packetComplete 0 heap s ht
  rw [startAt_zero] at hfirst
  rw [bytesReceived_of_ne_nil packetComplete (by simp), feed_cons_good _ (by rw [hfirst]), hfirst,
    feed_cons_good _ (by rw [hzero]), hzero, feed_nil]

theorem not_resyncsAfterEmpty (hacc : firstByteAccepted (packetTypeByte first) (flagValueByte first) = true)
    (ht : packetTypeByte first ≠ .pingrespType) : ¬ResyncsAfterEmpty packetComplete first heap s := by
  rintro (hne | ⟨hinit, -⟩)
  · rw [bytesReceived_empty packetComplete heap s hacc ht] at hne
    exact hne rfl
  · rw [bytesReceived_empty packetComplete heap s hacc ht] at hinit
    exact CodecStateResult.noConfusion hinit.codecState

/-- A PINGRESP leaves a created codec as it was created. -/
theorem bytesReceived_pingresp (hacc : firstByteAccepted (packetTypeByte first) (flagValueByte first) = true)
    (ht : packetTypeByte first = .pingrespType) :
    feed .zero (receiveByte packetComplete) ⟨mqttCodecCreate, heap, s⟩ [first, 0] =
      (⟨mqttCodecCreate, heap, packetComplete (packetTypeByte first) (flagValueByte first) none s⟩, .zero) := by
  have hfirst := receiveByte_first packetComplete 0 heap s hacc
  have hping := receiveByte_pingresp packetComplete 0 heap s ht
  rw [startAt_zero] at hfirst hping
  rw [feed_cons_good _ (by rw [hfirst]), hfirst, feed_cons_good _ (by rw [hping]), hping, feed_nil]

/-- Of the packets without a body, exactly the PINGRESP leaves the codec in step with the stream. -/
theorem empty_packet_resyncs_iff (hacc : firstByteAccepted (packetTypeByte first) (flagValueByte first) = true) :
    ResyncsAfterEmpty packetComplete first heap s ↔ packetTypeByte first = .pingrespType := by
  constructor
  · intro h
    by_contra ht
    exact not_resyncsAfterEmpty packetComplete heap s hacc ht h
  · intro ht
    have hping := bytesReceived_pingresp packetComplete heap s hacc ht
    have hcall : mqttCodecBytesReceived packetComplete ⟨mqttCodecCreate, heap, s⟩ (some [first, 0]) = _ := hping
    refine Or.inr ?_
    simp only [hcall]
    refine ⟨initialParsing_create, fun _ => ⟨trivial, trivial⟩, ?_⟩
    intro stream hne
    have hmore : mqttCodecBytesReceived packetComplete ⟨mqttCodecCreate, heap, s⟩ (some (first :: 0 :: stream)) =
        feed .zero (receiveByte packetComplete) ⟨mqttCodecCreate, heap, s⟩ ([first, 0] ++ stream) := rfl
    rw [hmore, feed_append stream (by rw [hping]), hping, bytesReceived_of_ne_nil packetComplete hne]
    exact ⟨rfl, rfl⟩

end

/-- A PINGREQ as `mqtt_codec_ping` writes it swallows the PINGRESP after it: the first byte of the PINGRESP is taken for the body,
the second is refused, and nothing is delivered. -/
theorem not_resyncsAfterEmpty_pingreq :
    ¬ResyncsAfterEmpty record 0xC0 okHeap [] ∧
      (receiveChunks record ⟨mqttCodecCreate, okHeap, []⟩ [[0xC0, 0], [0xD0], [0]]).2 = [.zero, .zero, .muFailure] ∧
      (receiveChunks record ⟨mqttCodecCreate, okHeap, []⟩ [[0xC0, 0], [0xD0], [0]]).1.callContext = [] :=
  ⟨not_resyncsAfterEmpty record okHeap [] (by decide) (by decide), by decide, by decide⟩

theorem empty_packet_resyncs_iff_pingresp :
    ResyncsAfterEmpty record 0xD0 okHeap [] ↔ packetTypeByte 0xD0 = .pingrespType :=
  empty_packet_resyncs_iff record okHeap [] (by decide)

end Umqtt
