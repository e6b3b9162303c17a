import Umqtt.Frame

/-!
# The decoder inside a packet

The state of the codec between two packets (`startAt`), inside a remaining length (`inLength`) and inside a body (`inBody`),
written out as values of what has been read. One lemma says what each kind of byte does to such a state; a packet, and then a
stream of packets, follow by induction on the bytes.
-/

namespace Umqtt

open Groups Feed Cells

/-! ## The states -/

/-- The state between two packets. The offset of the last body is still in `bufferOffset`. -/
def startAt (off : Nat) : MqttCodecInstance := { clearCodecData with bufferOffset := off }

/-- The state after a first byte and the length bytes `ds`. -/
def inLength (first : UInt8) (ds : List UInt8) (off : Nat) : MqttCodecInstance :=
  { clearCodecData with
    currPacket := packetTypeByte first, headerFlags := flagValueByte first, bufferOffset := off,
    storeRemainLen := storeOf ds, remainLenIndex := ds.length }

/-- The state after a first byte, its remaining length and the body bytes `done`, when `todo` more are awaited. -/
def inBody (first : UInt8) (done : List UInt8) (todo : Nat) : MqttCodecInstance :=
  { clearCodecData with
    currPacket := packetTypeByte first, headerFlags := flagValueByte first, codecState := .codecStateVarHeader,
    bufferOffset := done.length, headerData := some ⟨done.map some ++ List.replicate todo none⟩ }

theorem startAt_zero : startAt 0 = mqttCodecCreate := rfl

theorem initialParsing_startAt (off : Nat) : (startAt off).InitialParsing := ⟨rfl, rfl, rfl, rfl, rfl⟩

/-- The state between two packets is determined by the offset and the flags that the last packet left. -/
theorem eq_startAt {i : MqttCodecInstance} (h : i.InitialParsing) (hf : i.headerFlags = 0) : i = startAt i.bufferOffset := by
  obtain ⟨h1, h2, h3, h4, h5⟩ := h
  cases i
  simp only at h1 h2 h3 h4 h5 hf
  subst h1 h2 h3 h4 h5 hf
  rfl

/-! ## Storing a length byte -/

theorem storeLenByte_inLength (first : UInt8) (ds : List UInt8) (off : Nat) (b : UInt8) :
    storeLenByte (inLength first ds off) b = inLength first (ds ++ [b]) off := by
  simp [storeLenByte, inLength, set_storeOf ds b]

/-- A fourth length byte is the last that is stored, and it is an error whether it carries the mark or not. -/
theorem prepareheaderDataInfo_full {i : MqttCodecInstance} {es : List UInt8} (hstore : i.storeRemainLen = storeOf es)
    (hidx : i.remainLenIndex = es.length) (hes : ∀ e ∈ es, 128 ≤ e.toNat) (hlen : es.length = 3) (b : UInt8) (heap : Heap) :
    prepareheaderDataInfo i b heap = (storeLenByte i b, .muFailure, heap) := by
  have hroom : ¬(i.remainLenIndex ≥ 4) := by omega
  have hstored : (storeLenByte i b).storeRemainLen = storeOf (es ++ [b]) := by
    rw [storeLenByte, hstore, hidx, set_storeOf]
  rw [prepareheaderDataInfo, if_neg hroom]
  by_cases hb : b.toNat < 128
  · have hdec : decodedLen (storeLenByte i b).storeRemainLen = none := by
      rw [hstored, decodedLen_storeOf hes hb (by omega), if_neg (by omega)]
    simp only [if_pos ((le_0x7f_iff b).mpr hb), hdec]
  · have hfull : (storeLenByte i b).remainLenIndex = 4 := by
      simp only [storeLenByte]
      omega
    simp only [if_neg (fun h => hb ((le_0x7f_iff b).mp h)), if_pos hfull]

theorem prepareheaderDataInfo_fourth {first : UInt8} {es : List UInt8} (hes : ∀ e ∈ es, 128 ≤ e.toNat) (hlen : es.length = 3)
    (off : Nat) (b : UInt8) (heap : Heap) :
    prepareheaderDataInfo (inLength first es off) b heap = (inLength first (es ++ [b]) off, .muFailure, heap) := by
  rw [prepareheaderDataInfo_full rfl rfl hes hlen, storeLenByte_inLength]

/-- One of the first three length bytes that carries the mark is stored, and the next is awaited. -/
theorem prepareheaderDataInfo_more {first : UInt8} {ds : List UInt8} (hlen : ds.length < 3) (off : Nat) {b : UInt8}
    (hb : 128 ≤ b.toNat) (heap : Heap) :
    prepareheaderDataInfo (inLength first ds off) b heap = (inLength first (ds ++ [b]) off, .zero, heap) := by
  have hidx : ¬((inLength first ds off).remainLenIndex ≥ 4) := by simp only [inLength]; omega
  have hle : ¬(b ≤ 0x7f) := by
    intro h
    have := (le_0x7f_iff b).mp h
    omega
  have hfull : ¬((inLength first (ds ++ [b]) off).remainLenIndex = 4) := by simp [inLength]; omega
  rw [prepareheaderDataInfo, if_neg hidx, storeLenByte_inLength]
  simp only [if_neg hle, if_neg hfull]

/-- The last length byte of a length of one to three bytes: the length is known, and the buffer for the body is taken. -/
theorem prepareheaderDataInfo_last {first : UInt8} {es : List UInt8} (hes : ∀ e ∈ es, 128 ≤ e.toNat) (hlen : es.length < 3)
    (off : Nat) {d : UInt8} (hd : d.toNat < 128) (heap : Heap) :
    prepareheaderDataInfo (inLength first es off) d heap =
      let n := value 128 ((es ++ [d]).map UInt8.toNat)
      let codecData := enterVarHeader (inLength first [] off)
      if n > 0 then
        let (headerData, result, heap) := takeHeaderData n heap
        ({ codecData with bufferOffset := 0, headerData := headerData }, result, heap)
      else (codecData, .zero, heap) := by
  have hidx : ¬((inLength first es off).remainLenIndex ≥ 4) := by simp only [inLength]; omega
  have hdec : decodedLen (inLength first (es ++ [d]) off).storeRemainLen = some (value 128 ((es ++ [d]).map UInt8.toNat)) := by
    rw [show (inLength first (es ++ [d]) off).storeRemainLen = storeOf (es ++ [d]) from rfl,
      decodedLen_storeOf hes hd (by omega), if_pos hlen]
  rw [prepareheaderDataInfo, if_neg hidx, storeLenByte_inLength]
  simp only [if_pos ((le_0x7f_iff d).mpr hd), hdec]
  rfl

/-- With memory at hand, the buffer for a body of `n` bytes has `n` bytes, none of them written. -/
theorem takeHeaderData_okHeap (n : Nat) :
    takeHeaderData n okHeap = (some ⟨List.replicate n none⟩, .zero, okHeap) := by
  have h1 : bufferNew.answer okHeap = (some ⟨[]⟩, okHeap) := gives_bufferNew
  have h2 : (bufferPreBuild ⟨[]⟩ n).answer okHeap = (some ⟨List.replicate n none⟩, okHeap) := gives_bufferPreBuild _ n
  simp only [takeHeaderData, h1, h2]

/-! ## One byte -/

section

variable {σ : Type} (packetComplete : OnPacketCompleteCallback σ) {first : UInt8} (off : Nat) (heap : Heap) (s : σ)

/-- An accepted first byte. -/
theorem receiveByte_first (h : firstByteAccepted (packetTypeByte first) (flagValueByte first) = true) :
    receiveByte packetComplete ⟨startAt off, heap, s⟩ first = (⟨inLength first [] off, heap, s⟩, .zero) := by
  simp [receiveByte, receiveFirstByte, processControlPacketType, startAt, clearCodecData, inLength, h]

/-- A length byte is what `receiveLenByte` makes of it. -/
theorem receiveByte_inLength (ds : List UInt8) (b : UInt8) :
    receiveByte packetComplete ⟨inLength first ds off, heap, s⟩ b =
      receiveLenByte packetComplete ⟨inLength first ds off, heap, s⟩ b := by
  simp [receiveByte, inLength, clearCodecData, packetTypeByte_ne_unknownType]

/-- A length byte that carries the mark, with room for another. -/
theorem receiveByte_lenMore (ht : packetTypeByte first ≠ .pingrespType) {ds : List UInt8} (hlen : ds.length < 3) {b : UInt8}
    (hb : 128 ≤ b.toNat) :
    receiveByte packetComplete ⟨inLength first ds off, heap, s⟩ b = (⟨inLength first (ds ++ [b]) off, heap, s⟩, .zero) := by
  rw [receiveByte_inLength, receiveLenByte, prepareheaderDataInfo_more hlen off hb]
  simp [inLength, ht]

/-- A fourth length byte is refused. -/
theorem receiveByte_lenFourth (first : UInt8) {es : List UInt8} (hes : ∀ e ∈ es, 128 ≤ e.toNat) (hlen : es.length = 3) (b : UInt8) :
    ∃ inst, receiveByte packetComplete ⟨inLength first es off, heap, s⟩ b = (⟨inst, heap, s⟩, .muFailure) := by
  refine ⟨{ inLength first (es ++ [b]) off with currPacket := .packetTypeError }, ?_⟩
  rw [receiveByte_inLength, receiveLenByte, prepareheaderDataInfo_fourth hes hlen]
  simp [Codec.fail]

/-- The last byte of a length that is not 0: the body is awaited. -/
theorem receiveByte_lenLast (ht : packetTypeByte first ≠ .pingrespType) {es : List UInt8} (hes : ∀ e ∈ es, 128 ≤ e.toNat)
    (hlen : es.length < 3) {d : UInt8} (hd : d.toNat < 128) {n : Nat} (hn : value 128 ((es ++ [d]).map UInt8.toNat) = n)
    (hpos : 0 < n) :
    receiveByte packetComplete ⟨inLength first es off, okHeap, s⟩ d = (⟨inBody first [] n, okHeap, s⟩, .zero) := by
  rw [receiveByte_inLength, receiveLenByte, prepareheaderDataInfo_last hes hlen off hd, hn]
  simp [hpos, takeHeaderData_okHeap, enterVarHeader, inLength, inBody, clearCodecData, ht]

/-- A remaining length of 0 after a first byte that is not a PINGRESP: a body is awaited, and there is no buffer for it. -/
theorem receiveByte_lenZero (ht : packetTypeByte first ≠ .pingrespType) :
    receiveByte packetComplete ⟨inLength first [] off, heap, s⟩ 0 =
      (⟨enterVarHeader (inLength first [] off), heap, s⟩, .zero) := by
  rw [receiveByte_inLength, receiveLenByte, prepareheaderDataInfo_last (by simp) (by decide) off (by decide)]
  simp [enterVarHeader, inLength, ht]

/-- A remaining length of 0 after a PINGRESP completes it. -/
theorem receiveByte_pingresp (ht : packetTypeByte first = .pingrespType) :
    receiveByte packetComplete ⟨inLength first [] off, heap, s⟩ 0 =
      (⟨startAt off, heap, packetComplete (packetTypeByte first) (flagValueByte first) none s⟩, .zero) := by
  rw [receiveByte_inLength, receiveLenByte, prepareheaderDataInfo_last (by simp) (by decide) off (by decide)]
  simp [enterVarHeader, inLength, clearCodecData, startAt, completePacketData, ht]

/-- A body byte that is not the last. -/
theorem receiveByte_bodyMore (first : UInt8) (done : List UInt8) (todo : Nat) (b : UInt8) :
    receiveByte packetComplete ⟨inBody first done (todo + 2), heap, s⟩ b =
      (⟨inBody first (done ++ [b]) (todo + 1), heap, s⟩, .zero) := by
  simp [receiveByte, receiveBodyByte, inBody, bufferUChar, Buffer.start, bufferLength, List.replicate_succ]

/-- The last body byte completes the packet. -/
theorem receiveByte_bodyLast (first : UInt8) (done : List UInt8) (b : UInt8) :
    receiveByte packetComplete ⟨inBody first done 1, heap, s⟩ b =
      (⟨startAt (done.length + 1), heap,
        packetComplete (packetTypeByte first) (flagValueByte first) (some (Buffer.ofBytes (done ++ [b]))) s⟩, .zero) := by
  have hset := set_done done [(none : Option UInt8)] b (by simp)
  simp [receiveByte, receiveBodyByte, inBody, bufferUChar, Buffer.start, bufferLength, hset, completePacketData, startAt,
    clearCodecData, Buffer.ofBytes]

/-! ## A packet -/

/-- The length bytes that carry the mark, up to three of them. -/
theorem feed_marked (ht : packetTypeByte first ≠ .pingrespType) (es : List UInt8) (hes : ∀ e ∈ es, 128 ≤ e.toNat)
    (ds : List UInt8) (hlen : ds.length + es.length ≤ 3) :
    feed .zero (receiveByte packetComplete) ⟨inLength first ds off, heap, s⟩ es =
      (⟨inLength first (ds ++ es) off, heap, s⟩, .zero) := by
  induction es generalizing ds with
  | nil => simp
  | cons e es ih =>
    rw [List.length_cons] at hlen
    have hb := receiveByte_lenMore packetComplete off heap s ht
      (show ds.length < 3 by omega) (hes e List.mem_cons_self)
    rw [feed_cons_good es (by rw [hb]), hb, ih (fun x hx => hes x (List.mem_cons_of_mem _ hx)) (ds ++ [e])
      (by rw [List.length_append, List.length_singleton]; omega), List.append_assoc, List.singleton_append]

/-- A remaining length of one to three bytes that is not 0. -/
theorem feed_lenField (ht : packetTypeByte first ≠ .pingrespType) {n : Nat} (hpos : 0 < n) (hle : n ≤ 2097151) :
    feed .zero (receiveByte packetComplete) ⟨inLength first [] off, okHeap, s⟩ (lenField n) =
      (⟨inBody first [] n, okHeap, s⟩, .zero) := by
  obtain ⟨es, d, e, hes, hd, hv⟩ := lenField_shape n
  have hlen : es.length < 3 := by
    have h1 : (lenField n).length ≤ 3 := (length_lenField_le_iff (by decide)).mpr (by omega)
    rw [e, List.length_append, List.length_singleton] at h1
    omega
  have hmarked := feed_marked packetComplete off okHeap s ht es hes []
    (by rw [List.length_nil]; omega)
  have hlast := receiveByte_lenLast packetComplete off s ht hes hlen hd hv hpos
  rw [List.nil_append] at hmarked
  rw [e, feed_append _ (by rw [hmarked]), hmarked, feed_cons_good [] (by rw [hlast]), hlast, feed_nil]

/-- A remaining length of four bytes or more is refused, whatever follows it. -/
theorem feed_lenField_long (ht : packetTypeByte first ≠ .pingrespType) {n : Nat} (hn : 2097152 ≤ n) (more : List UInt8) :
    ∃ inst, feed .zero (receiveByte packetComplete) ⟨inLength first [] off, heap, s⟩ (lenField n ++ more) =
      (⟨inst, heap, s⟩, .muFailure) := by
  obtain ⟨es, d, e, hes, -, -⟩ := lenField_shape n
  have hlen : 3 ≤ es.length := by
    have h1 : ¬((lenField n).length ≤ 3) := by
      intro h
      have := (length_lenField_le_iff (by decide)).mp h
      omega
    rw [e, List.length_append, List.length_singleton] at h1
    omega
  -- the first three marked bytes are stored, the byte after them is the fourth
  obtain ⟨three, rest, hsplit, h3⟩ : ∃ three rest, es ++ [d] = three ++ rest ∧ three = es.take 3 ∧ rest ≠ [] := by
    refine ⟨es.take 3, es.drop 3 ++ [d], ?_, rfl, by simp⟩
    rw [← List.append_assoc, List.take_append_drop]
  obtain ⟨rfl, hne⟩ := h3
  have hes' : ∀ x ∈ es.take 3, 128 ≤ x.toNat := fun x hx => hes x (List.mem_of_mem_take hx)
  have hlen' : (es.take 3).length = 3 := by rw [List.length_take]; omega
  have hmarked := feed_marked packetComplete off heap s ht _ hes' [] (by simp)
  rw [List.nil_append] at hmarked
  obtain ⟨b, bs, rfl⟩ := List.exists_cons_of_ne_nil hne
  obtain ⟨inst, hfourth⟩ := receiveByte_lenFourth packetComplete off heap s first hes' hlen' b
  refine ⟨inst, ?_⟩
  rw [e, hsplit, List.append_assoc, feed_append _ (by rw [hmarked]), hmarked, List.cons_append,
    feed_cons_bad _ (by rw [hfourth]; simp), hfourth]

/-- Body bytes before the last one. -/
theorem feed_bodyMore (first : UInt8) (more done : List UInt8) (todo : Nat) :
    feed .zero (receiveByte packetComplete) ⟨inBody first done (more.length + (todo + 1)), heap, s⟩ more =
      (⟨inBody first (done ++ more) (todo + 1), heap, s⟩, .zero) := by
  induction more generalizing done with
  | nil => rw [List.length_nil, Nat.zero_add, List.append_nil, feed_nil]
  | cons b more ih =>
    have hb := receiveByte_bodyMore packetComplete heap s first done (more.length + todo) b
    have hcount : (b :: more).length + (todo + 1) = more.length + todo + 2 := by
      rw [List.length_cons]
      omega
    rw [hcount, feed_cons_good _ (by rw [hb]), hb, Nat.add_assoc, ih, List.append_assoc, List.singleton_append]

/-- A body. -/
theorem feed_body (first : UInt8) (todo : List UInt8) (done : List UInt8) (hne : todo ≠ []) :
    feed .zero (receiveByte packetComplete) ⟨inBody first done todo.length, heap, s⟩ todo =
      (⟨startAt (done.length + todo.length), heap,
        packetComplete (packetTypeByte first) (flagValueByte first) (some (Buffer.ofBytes (done ++ todo))) s⟩, .zero) := by
  obtain ⟨more, b, rfl⟩ := (List.eq_nil_or_concat todo).resolve_left hne
  have hmore := feed_bodyMore packetComplete heap s first more done 0
  have hb := receiveByte_bodyLast packetComplete heap s first (done ++ more) b
  rw [List.concat_eq_append, List.length_append, List.length_singleton, feed_append _ (by rw [hmore]), hmore,
    feed_cons_good [] (by rw [hb]), hb, feed_nil, List.append_assoc, List.length_append, Nat.add_assoc]

/-- A framed packet is delivered once, and leaves the codec between two packets. -/
theorem feed_packet {p : Packet} (h : p.Framed) (off : Nat) (s : σ) :
    ∃ off', feed .zero (receiveByte packetComplete) ⟨startAt off, okHeap, s⟩ p.wire =
      (⟨startAt off', okHeap, p.deliver packetComplete s⟩, .zero) := by
  obtain ⟨hacc, hbody⟩ := h
  have hfirst := receiveByte_first packetComplete off okHeap s hacc
  rw [Packet.wire, feed_cons_good _ (by rw [hfirst]), hfirst]
  by_cases ht : p.type = .pingrespType
  · rw [if_pos ht] at hbody
    have hping := receiveByte_pingresp packetComplete off okHeap s ht
    refine ⟨off, ?_⟩
    rw [hbody, List.length_nil, lenField_zero, List.append_nil, feed_cons_good [] (by rw [hping]), hping, feed_nil,
      Packet.deliver, Packet.headerData, if_pos hbody, Packet.type, Packet.flags]
  · rw [if_neg ht] at hbody
    have hne : p.body ≠ [] := List.ne_nil_of_length_pos hbody.1
    have hlen := feed_lenField packetComplete off s ht hbody.1 hbody.2
    refine ⟨p.body.length, ?_⟩
    rw [feed_append _ (by rw [hlen]), hlen, feed_body packetComplete okHeap s p.first p.body [] hne, Packet.deliver, Packet.headerData, if_neg hne, Packet.type,
      Packet.flags, List.length_nil, Nat.zero_add, List.nil_append]

/-- Before its last byte, a framed packet that has a body is not delivered. -/
theorem feed_packet_part {p : Packet} (h : p.Framed) (ht : p.type ≠ .pingrespType) {body : List UInt8} {last : UInt8}
    (hbody : p.body = body ++ [last]) (off : Nat) (s : σ) :
    feed .zero (receiveByte packetComplete) ⟨startAt off, okHeap, s⟩ (p.first :: (lenField p.body.length ++ body)) =
      (⟨inBody p.first body 1, okHeap, s⟩, .zero) := by
  obtain ⟨hacc, hrange⟩ := h
  rw [if_neg ht] at hrange
  have hfirst := receiveByte_first packetComplete off okHeap s hacc
  have hlen := feed_lenField packetComplete off s ht hrange.1 hrange.2
  have hmore := feed_bodyMore packetComplete okHeap s p.first body [] 0
  have hcount : p.body.length = body.length + (0 + 1) := by
    rw [hbody, List.length_append]
    rfl
  rw [feed_cons_good _ (by rw [hfirst]), hfirst, feed_append _ (by rw [hlen]), hlen, hcount, hmore, List.nil_append]

/-- A stream of framed packets: every packet is delivered once, in order. -/
theorem feed_wireOf {ps : List Packet} (h : ∀ p ∈ ps, p.Framed) (off : Nat) (s : σ) :
    ∃ off', feed .zero (receiveByte packetComplete) ⟨startAt off, okHeap, s⟩ (wireOf ps) =
      (⟨startAt off', okHeap, ps.foldl (Packet.deliver packetComplete) s⟩, .zero) := by
  induction ps generalizing off s with
  | nil => exact ⟨off, rfl⟩
  | cons p ps ih =>
    obtain ⟨off₁, h₁⟩ := feed_packet packetComplete (h p List.mem_cons_self) off s
    obtain ⟨off₂, h₂⟩ := ih (fun q hq => h q (List.mem_cons_of_mem _ hq)) off₁ (p.deliver packetComplete s)
    refine ⟨off₂, ?_⟩
    rw [wireOf, List.map_cons, List.flatten_cons, feed_append _ (by rw [h₁]), h₁]
    exact h₂

/-! ## Packets that are not framed -/

/-- An empty packet that is not a PINGRESP leaves the codec waiting for a body that it has no buffer for, and nothing after it in the
same call is delivered. -/
theorem feed_afterEmpty (ht : packetTypeByte first ≠ .pingrespType) (more : List UInt8) :
    (feed .zero (receiveByte packetComplete) ⟨inLength first [] off, heap, s⟩ (0 :: more)).1.callContext = s := by
  have hzero := receiveByte_lenZero packetComplete off heap s ht
  rw [feed_cons_good _ (by rw [hzero]), hzero]
  -- one byte is swallowed, the next is refused
  rcases more with _ | ⟨b, _ | ⟨b', more⟩⟩
  · rfl
  · rfl
  · rw [feed_cons_good _ (by rfl), feed_cons_bad _ (fun h => MuResult.noConfusion h)]
    rfl

/-- Of a packet with a longer body, or with an empty one that is not a PINGRESP, and of what follows it in the same call, nothing is
delivered. -/
theorem feed_unframed {p : Packet} (hacc : p.Accepted) (ht : p.type ≠ .pingrespType)
    (hbody : p.body = [] ∨ 2097152 ≤ p.body.length) (more : List UInt8) :
    (feed .zero (receiveByte packetComplete) ⟨startAt off, heap, s⟩ (p.wire ++ more)).1.callContext = s := by
  have hfirst := receiveByte_first packetComplete off heap s hacc
  rw [Packet.wire, List.cons_append, feed_cons_good _ (by rw [hfirst]), hfirst]
  rcases hbody with hempty | hlong
  · rw [hempty, List.length_nil, lenField_zero, List.append_nil]
    exact feed_afterEmpty packetComplete off heap s ht more
  · obtain ⟨inst, hlen⟩ := feed_lenField_long packetComplete off heap s ht hlong (p.body ++ more)
    rw [List.append_assoc, hlen]

/-! ## Calls -/

/-- A call with a chunk that is not empty is the loop over its bytes. -/
theorem bytesReceived_of_ne_nil {chunk : List UInt8} (h : chunk ≠ []) (c : Codec σ) :
    mqttCodecBytesReceived packetComplete c (some chunk) = feed .zero (receiveByte packetComplete) c chunk := by
  cases chunk with
  | nil => exact absurd rfl h
  | cons b bs => rfl

/-- Calls with chunks that are not empty are the loop over the bytes of each. -/
theorem receiveChunks_eq_feedAll {chunks : List (List UInt8)} (h : ∀ chunk ∈ chunks, chunk ≠ []) (c : Codec σ) :
    receiveChunks packetComplete c chunks = feedAll .zero (receiveByte packetComplete) c chunks := by
  induction chunks generalizing c with
  | nil => rfl
  | cons chunk chunks ih =>
    have hc := bytesReceived_of_ne_nil packetComplete (h chunk List.mem_cons_self) c
    simp only [receiveChunks, feedAll, hc, ih (fun x hx => h x (List.mem_cons_of_mem _ hx))]

end

end Umqtt
