import Umqtt.Lemmas.Frames
import Umqtt.Stream

/-!
# The decoder reads packets

The codec keeps no byte but those of a body, and yet treats every stream as `readPacket` does, which reads a packet from its start. The
states of `Frames` are gone through once more, for any answers of the allocator, and for bytes that no packet is made up of.
-/

namespace Umqtt

open Groups Feed Cells Scan

/-! ## Memory for a body -/

theorem takeHeaderData_eq (n : Nat) (heap : Heap) :
    takeHeaderData n heap =
      if (bodyMemory heap).1 then (some ⟨List.replicate n none⟩, .zero, (bodyMemory heap).2)
      else (if heap.head then some ⟨[]⟩ else none, .muFailure, (bodyMemory heap).2) := by
  rw [takeHeaderData, bodyMemory, bufferNew, Alloc.answer_takeMemory_bind]
  rcases heap.head
  · rfl
  · simp only [if_true, Alloc.answer_pure, bufferPreBuild, Alloc.answer_takeMemory_bind]
    rcases heap.tail.head <;> rfl

@[simp] theorem bodyMemory_okHeap : bodyMemory okHeap = (true, okHeap) := by
  simp [bodyMemory]

/-! ## What a codec does with the front of a stream -/

section

variable {σ : Type} (packetComplete : OnPacketCompleteCallback σ)

/-- The codec treats the bytes as they are read: it waits with what is left of the memory, and a packet that has begun stays begun, it
fails, or it delivers a packet and goes on from between two packets. -/
def Follows (c : Codec σ) (bytes : List UInt8) : Reading Heap UInt8 Packet → Prop
  | .more left => ∃ inst, feed .zero (receiveByte packetComplete) c bytes = (⟨inst, left, c.callContext⟩, .zero) ∧
      (c.inst.currPacket ≠ .unknownType → inst.currPacket ≠ .unknownType)
  | .refused left => ∃ inst, feed .zero (receiveByte packetComplete) c bytes = (⟨inst, left, c.callContext⟩, .muFailure)
  | .item p rest left => ∃ off, feed .zero (receiveByte packetComplete) c bytes =
      feed .zero (receiveByte packetComplete) ⟨startAt off, left, p.deliver packetComplete c.callContext⟩ rest

variable {packetComplete}

/-- Bytes that are received well come before what is read. -/
theorem Follows.after {c c' : Codec σ} {before bytes : List UInt8} {reading : Reading Heap UInt8 Packet}
    (h : feed .zero (receiveByte packetComplete) c before = (c', .zero)) (hctx : c'.callContext = c.callContext)
    (hbegun : c'.inst.currPacket ≠ .unknownType) (hf : Follows packetComplete c' bytes reading) :
    Follows packetComplete c (before ++ bytes) reading := by
  have hfeed : feed .zero (receiveByte packetComplete) c (before ++ bytes) = feed .zero (receiveByte packetComplete) c' bytes := by
    rw [feed_append _ (by rw [h]), h]
  cases reading with
  | more left =>
    obtain ⟨inst, hmore, hinst⟩ := hf
    exact ⟨inst, by rw [hfeed, ← hctx, hmore], fun _ => hinst hbegun⟩
  | refused left =>
    obtain ⟨inst, hbad⟩ := hf
    exact ⟨inst, by rw [hfeed, ← hctx, hbad]⟩
  | item p rest left =>
    obtain ⟨off, hitem⟩ := hf
    exact ⟨off, by rw [hfeed, ← hctx, hitem]⟩

/-- One byte that is received well. -/
theorem Follows.afterByte {c c' : Codec σ} {b : UInt8} {bytes : List UInt8} {reading : Reading Heap UInt8 Packet}
    (h : receiveByte packetComplete c b = (c', .zero)) (hctx : c'.callContext = c.callContext)
    (hbegun : c'.inst.currPacket ≠ .unknownType) (hf : Follows packetComplete c' bytes reading) :
    Follows packetComplete c (b :: bytes) reading := by
  have hbyte : feed .zero (receiveByte packetComplete) c [b] = (c', .zero) := by
    rw [feed_cons_good [] (by rw [h]), h, feed_nil]
  exact hf.after hbyte hctx hbegun

/-- A byte that is refused ends the call. -/
theorem follows_refused {c : Codec σ} {b : UInt8} {inst : MqttCodecInstance} {left : Heap} (bytes : List UInt8)
    (h : receiveByte packetComplete c b = (⟨inst, left, c.callContext⟩, .muFailure)) :
    Follows packetComplete c (b :: bytes) (.refused left) :=
  ⟨inst, by rw [feed_cons_bad _ (by rw [h]; exact MuResult.noConfusion), h]⟩

/-- A first byte begins a packet. -/
theorem begun (first : UInt8) : packetTypeByte first ≠ .unknownType := packetTypeByte_ne_unknownType first

variable (packetComplete) {first : UInt8} (off : Nat) (heap : Heap) (s : σ)

/-! ## Length bytes -/

/-- The last byte of a length that is not 0: memory is asked for, and the body is awaited. -/
theorem receiveByte_lenBody (ht : packetTypeByte first ≠ .pingrespType) {es : List UInt8} (hes : Marked es) (hlen : es.length < 3)
    {d : UInt8} (hd : d.toNat < 128) {n : Nat} (hn : value 128 ((es ++ [d]).map UInt8.toNat) = n) (hpos : 0 < n)
    (hmem : (bodyMemory heap).1 = true) :
    receiveByte packetComplete ⟨inLength first es off, heap, s⟩ d = (⟨inBody first [] n, (bodyMemory heap).2, s⟩, .zero) := by
  rw [receiveByte_inLength, receiveLenByte, prepareheaderDataInfo_last hes hlen off hd, hn]
  simp [hpos, takeHeaderData_eq, hmem, enterVarHeader, inLength, inBody, clearCodecData, ht]

/-- Without memory the length is refused. -/
theorem receiveByte_lenNoMemory {es : List UInt8} (hes : Marked es) (hlen : es.length < 3) {d : UInt8} (hd : d.toNat < 128) {n : Nat}
    (hn : value 128 ((es ++ [d]).map UInt8.toNat) = n) (hpos : 0 < n) (hmem : (bodyMemory heap).1 = false) :
    ∃ inst, receiveByte packetComplete ⟨inLength first es off, heap, s⟩ d = (⟨inst, (bodyMemory heap).2, s⟩, .muFailure) := by
  rw [receiveByte_inLength, receiveLenByte, prepareheaderDataInfo_last hes hlen off hd, hn]
  simp [hpos, takeHeaderData_eq, hmem, Codec.fail]

/-- The last byte of a length of 0: a body is awaited, and there is no buffer for it. -/
theorem receiveByte_lenNone (ht : packetTypeByte first ≠ .pingrespType) {es : List UInt8} (hes : Marked es) (hlen : es.length < 3)
    {d : UInt8} (hd : d.toNat < 128) (hn : value 128 ((es ++ [d]).map UInt8.toNat) = 0) :
    receiveByte packetComplete ⟨inLength first es off, heap, s⟩ d = (⟨enterVarHeader (inLength first [] off), heap, s⟩, .zero) := by
  rw [receiveByte_inLength, receiveLenByte, prepareheaderDataInfo_last hes hlen off hd, hn]
  simp [enterVarHeader, inLength, ht]

/-- A PINGRESP whose length is not 0 is refused on its first length byte. -/
theorem receiveByte_pingrespBad (ht : packetTypeByte first = .pingrespType) {b : UInt8} (hb : b ≠ 0) :
    ∃ inst, receiveByte packetComplete ⟨inLength first [] off, heap, s⟩ b =
      (⟨inst, if b.toNat < 128 then (bodyMemory heap).2 else heap, s⟩, .muFailure) := by
  rw [receiveByte_inLength, receiveLenByte]
  by_cases hlow : b.toNat < 128
  · have hvalue : value 128 (([] ++ [b]).map UInt8.toNat) = b.toNat := by simp [value_cons, Nat.mod_eq_of_lt hlow]
    have hpos : b.toNat > 0 := Nat.pos_of_ne_zero fun h => hb (UInt8.toNat_inj.mp h)
    rw [prepareheaderDataInfo_last marked_nil (by decide) off hlow, hvalue]
    rcases hmem : (bodyMemory heap).1
    · simp [hpos, takeHeaderData_eq, hmem, Codec.fail, hlow]
    · simp [hpos, takeHeaderData_eq, hmem, Codec.fail, hlow, enterVarHeader, inLength, ht, hb]
  · rw [prepareheaderDataInfo_more (by decide) off (Nat.le_of_not_lt hlow)]
    simp [Codec.fail, inLength, ht, hb, hlow]

/-! ## Parts of a packet -/

theorem follows_body {n : Nat} (hpos : 0 < n) (bytes : List UInt8) :
    Follows packetComplete ⟨inBody first [] n, heap, s⟩ bytes
      (if bytes.length < n then .more heap else .item ⟨first, bytes.take n⟩ (bytes.drop n) heap) := by
  split
  · rename_i hlt
    obtain ⟨todo, rfl⟩ : ∃ todo, n = bytes.length + (todo + 1) := ⟨n - bytes.length - 1, by omega⟩
    exact ⟨_, feed_bodyMore packetComplete heap s first bytes [] todo, fun _ => begun first⟩
  · rename_i hge
    have hlen : (bytes.take n).length = n := List.length_take_of_le (Nat.le_of_not_lt hge)
    have hne : bytes.take n ≠ [] := by
      refine List.ne_nil_of_length_pos ?_
      rwa [hlen]
    have hbody := feed_body packetComplete heap s first (bytes.take n) [] hne
    rw [hlen] at hbody
    refine ⟨0 + n, ?_⟩
    conv_lhs => rw [← List.take_append_drop n bytes]
    rw [feed_append _ (by rw [hbody]), hbody]
    simp only [Packet.deliver, Packet.headerData, if_neg hne, Packet.type, Packet.flags, List.nil_append, List.length_nil]

theorem follows_pingresp (ht : packetTypeByte first = .pingrespType) (bytes : List UInt8) :
    Follows packetComplete ⟨inLength first [] off, heap, s⟩ bytes (readPingresp first heap bytes) := by
  rcases bytes with _ | ⟨b, bytes⟩
  · exact ⟨_, rfl, id⟩
  · rw [readPingresp]
    split
    · rename_i hb
      have hping := receiveByte_pingresp packetComplete off heap s ht
      refine ⟨off, ?_⟩
      rw [hb, feed_cons_good _ (by rw [hping]), hping]
      rfl
    · rename_i hb
      obtain ⟨inst, hbad⟩ := receiveByte_pingrespBad packetComplete off heap s ht hb
      exact follows_refused bytes hbad

/-- After a length of 0 one byte is swallowed, and the next is refused. -/
theorem follows_lenNone (bytes : List UInt8) :
    Follows packetComplete ⟨enterVarHeader (inLength first [] off), heap, s⟩ bytes
      (if bytes.length < 2 then .more heap else .refused heap) := by
  rcases bytes with _ | ⟨b, _ | ⟨b', bytes⟩⟩
  · exact ⟨_, rfl, id⟩
  · exact ⟨_, rfl, id⟩
  · exact Follows.afterByte rfl rfl (begun first) (follows_refused bytes rfl)

theorem follows_rest (ht : packetTypeByte first ≠ .pingrespType) (bytes : List UInt8) :
    Follows packetComplete ⟨inLength first [] off, heap, s⟩ bytes (readRest first heap bytes) := by
  have hspec := readLength_spec 3 bytes
  have hmarked : ∀ {es : List UInt8}, Marked es → es.length ≤ 3 →
      feed .zero (receiveByte packetComplete) ⟨inLength first [] off, heap, s⟩ es = (⟨inLength first es off, heap, s⟩, .zero) := by
    intro es hes hlen
    have := feed_marked packetComplete off heap s ht es hes [] (by rw [List.length_nil]; omega)
    rwa [List.nil_append] at this
  rw [readRest]
  generalize readLength 3 bytes = reading at hspec
  cases hspec with
  | more hes hlen => exact ⟨_, hmarked hes hlen, id⟩
  | tooLong b rest hes hlen =>
    obtain ⟨inst, hfourth⟩ := receiveByte_lenFourth packetComplete off heap s first hes hlen b
    exact Follows.after (hmarked hes hlen.le) rfl (begun first) (follows_refused rest hfourth)
  | @length es d rest hes hd hlen =>
    refine Follows.after (hmarked hes hlen.le) rfl (begun first) ?_
    rcases hn : value 128 ((es ++ [d]).map UInt8.toNat) with _ | n
    · exact Follows.afterByte (receiveByte_lenNone packetComplete off heap s ht hes hlen hd hn) rfl (begun first)
        (follows_lenNone packetComplete off heap s rest)
    · dsimp only
      rw [readBody]
      rcases hmem : (bodyMemory heap).1
      · obtain ⟨inst, hbad⟩ := @receiveByte_lenNoMemory _ packetComplete first off heap s _ hes hlen _ hd _ hn (Nat.succ_pos n) hmem
        exact follows_refused rest hbad
      · exact Follows.afterByte (receiveByte_lenBody packetComplete off heap s ht hes hlen hd hn (Nat.succ_pos n) hmem) rfl
          (begun first) (follows_body packetComplete _ s (Nat.succ_pos n) rest)

/-- After an accepted first byte. -/
theorem follows_begun (bytes : List UInt8) :
    Follows packetComplete ⟨inLength first [] off, heap, s⟩ bytes
      (if packetTypeByte first = .pingrespType then readPingresp first heap bytes else readRest first heap bytes) := by
  split
  · rename_i ht
    exact follows_pingresp packetComplete off heap s ht bytes
  · rename_i ht
    exact follows_rest packetComplete off heap s ht bytes

/-- Between two packets, the codec treats every stream as the reader does. -/
theorem follows_readPacket (bytes : List UInt8) :
    Follows packetComplete ⟨startAt off, heap, s⟩ bytes (readPacket heap bytes) := by
  rcases bytes with _ | ⟨first, bytes⟩
  · exact ⟨_, rfl, id⟩
  · rw [readPacket]
    split
    · rename_i hacc
      exact Follows.afterByte (receiveByte_first packetComplete off heap s hacc) rfl (begun first)
        (follows_begun packetComplete off heap s bytes)
    · rename_i hacc
      have hbad : receiveByte packetComplete ⟨startAt off, heap, s⟩ first =
          (⟨{ inLength first [] off with currPacket := .packetTypeError }, heap, s⟩, .muFailure) := by
        simp [receiveByte, startAt, inLength, clearCodecData, receiveFirstByte, processControlPacketType, hacc, Codec.fail]
      exact follows_refused bytes hbad

/-! ## The codec implements the reader -/

/-- The codec is between two packets, with these answers left. -/
def Codec.Between (heap : Heap) (c : Codec σ) : Prop := ∃ off, c.inst = startAt off ∧ c.heap = heap

theorem Codec.Between.follows {heap : Heap} {c : Codec σ} (hb : c.Between heap) {bytes : List UInt8}
    {reading : Reading Heap UInt8 Packet} (hr : packets.read heap bytes = reading) : Follows packetComplete c bytes reading := by
  obtain ⟨off, hinst, hheap⟩ := hb
  obtain ⟨inst, heap', s⟩ := c
  obtain rfl : inst = startAt off := hinst
  obtain rfl : heap' = heap := hheap
  exact hr ▸ follows_readPacket packetComplete off heap' s bytes

theorem implements_packets :
    Implements packets .zero (receiveByte packetComplete) Codec.Between Codec.heap Codec.callContext (Packet.deliver packetComplete) where
  more := by
    intro heap left c bytes hb hr
    obtain ⟨inst, hfeed, -⟩ := hb.follows packetComplete hr
    rw [hfeed]
    exact ⟨rfl, rfl, rfl⟩
  refused := by
    intro heap left c bytes hb hr
    obtain ⟨inst, hfeed⟩ := hb.follows packetComplete hr
    rw [hfeed]
    exact ⟨MuResult.noConfusion, rfl, rfl⟩
  item := by
    intro heap left c bytes p rest hb hr
    obtain ⟨off, hfeed⟩ := hb.follows packetComplete hr
    exact ⟨_, ⟨off, rfl, rfl⟩, rfl, hfeed⟩

/-- A codec that waits for the rest of a packet is not between two packets. -/
theorem Codec.Between.not_initial {heap left : Heap} {c : Codec σ} (hb : c.Between heap) {first : UInt8} {bytes : List UInt8}
    (hr : packets.read heap (first :: bytes) = .more left) :
    ¬(feed .zero (receiveByte packetComplete) c (first :: bytes)).1.inst.InitialParsing := by
  obtain ⟨off, hinst, hheap⟩ := hb
  obtain ⟨inst, heap', s⟩ := c
  obtain rfl : inst = startAt off := hinst
  obtain rfl : heap' = heap := hheap
  have hread : readPacket heap' (first :: bytes) = .more left := hr
  rw [readPacket] at hread
  split at hread
  · rename_i hacc
    have hfirst := receiveByte_first packetComplete off heap' s hacc
    have hfollows := @follows_begun _ packetComplete first off heap' s bytes
    rw [hread] at hfollows
    obtain ⟨inst, hmore, hinst⟩ := hfollows
    intro hinit
    rw [feed_cons_good _ (by rw [hfirst]), hfirst, hmore] at hinit
    exact hinst (begun first) hinit.currPacket
  · cases hread

end

end Umqtt
