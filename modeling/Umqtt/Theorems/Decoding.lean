import Umqtt.Lemmas.Scanning
import Umqtt.Theorems.Acknowledge

/-!
# What the decoder makes of any stream

The calls of `mqtt_codec_bytesReceived` up to the first that fails do with a stream what `scan` does with it as a whole, however it is
cut (`receiveUntil_scans`), and a client, which resets its codec after each call that fails, delivers in any run what a `Scanner` reads
off the chunks (`run_delivers_scanned`). With memory at hand, the streams that are taken to their end are those that are made up of
packets whose length is written in at most three bytes (`receiveUntil_accepts_iff`).
-/

namespace Umqtt

open Feed Scan Groups

/-! ## A stream up to the first failure -/

section

variable {σ : Type} (packetComplete : OnPacketCompleteCallback σ)

/-- One call of `mqtt_codec_bytesReceived` for each chunk, up to and including the first that fails. -/
def receiveUntil (c : Codec σ) : List (List UInt8) → Codec σ × MuResult
  | [] => (c, .zero)
  | chunk :: chunks =>
    let r := mqttCodecBytesReceived packetComplete c (some chunk)
    if r.2 = .zero then receiveUntil r.1 chunks else r

theorem receiveUntil_eq_feed {chunks : List (List UInt8)} (h : ∀ chunk ∈ chunks, chunk ≠ []) (c : Codec σ) :
    receiveUntil packetComplete c chunks = feed .zero (receiveByte packetComplete) c chunks.flatten := by
  rw [← feedUntil_eq_feed]
  induction chunks generalizing c with
  | nil => rfl
  | cons chunk chunks ih =>
    have hc := bytesReceived_of_ne_nil packetComplete (h chunk List.mem_cons_self) c
    simp only [receiveUntil, feedUntil, hc, ih (fun x hx => h x (List.mem_cons_of_mem _ hx))]

theorem between_create (heap : Heap) (s : σ) : (⟨mqttCodecCreate, heap, s⟩ : Codec σ).Between heap := ⟨0, rfl, rfl⟩

/-- A created codec decodes a stream as it is scanned: whatever the bytes are, however they are cut and whatever memory there is, the
packets delivered up to the first call that fails are those of the scan, and a call fails exactly when the scan refuses something. -/
theorem receiveUntil_scans (heap : Heap) (s : σ) (chunks : List (List UInt8)) (h : ∀ chunk ∈ chunks, chunk ≠ []) :
    let r := receiveUntil packetComplete ⟨mqttCodecCreate, heap, s⟩ chunks
    r.1.callContext = (scan packets heap chunks.flatten).1.foldl (Packet.deliver packetComplete) s ∧
      (r.2 = .zero ↔ (scan packets heap chunks.flatten).2.isRefused = false) := by
  rw [receiveUntil_eq_feed packetComplete h]
  exact (implements_packets packetComplete).of_scan (between_create heap s) chunks.flatten

end

/-- A PINGRESP, and a byte that no packet starts with, cut in the middle of the PINGRESP. -/
theorem receiveUntil_scans_cut :
    let r := receiveUntil record ⟨mqttCodecCreate, okHeap, []⟩ [[0xD0], [0, 0x0F]]
    r.1.callContext = (scan packets okHeap [0xD0, 0, 0x0F]).1.foldl (Packet.deliver record) [] ∧
      (r.2 = .zero ↔ (scan packets okHeap [0xD0, 0, 0x0F]).2.isRefused = false) :=
  receiveUntil_scans record okHeap [] [[0xD0], [0, 0x0F]] (by decide)

/-! ## The streams that are accepted -/

/-- Bytes that spell a packet: its first byte, the length of its body in at most three bytes, which need not be the shortest form, and
its body. The length of a PINGRESP is one byte. -/
structure Packet.Spelled (p : Packet) (bytes : List UInt8) : Prop where
  accepted : p.Accepted
  body : if p.type = .pingrespType then bytes = [p.first, 0] ∧ p.body = []
    else p.body ≠ [] ∧ ∃ len, LenBytes len p.body.length ∧ bytes = p.first :: (len ++ p.body)

section

variable {first : UInt8} {bytes rest : List UInt8} {p : Packet} {left : Heap}

theorem readBody_iff (n : Nat) :
    readBody first n okHeap bytes = .item p rest left ↔
      left = okHeap ∧ p.first = first ∧ p.body.length = n ∧ bytes = p.body ++ rest := by
  simp only [readBody, bodyMemory_okHeap, if_true]
  constructor
  · intro h
    split at h
    · cases h
    · rename_i hge
      obtain ⟨rfl, rfl, rfl⟩ := Reading.item.inj h
      exact ⟨rfl, rfl, List.length_take_of_le (Nat.le_of_not_lt hge), (List.take_append_drop n bytes).symm⟩
  · rintro ⟨rfl, rfl, rfl, rfl⟩
    rw [if_neg (by rw [List.length_append]; omega), List.take_left, List.drop_left]

theorem readPingresp_iff :
    readPingresp first okHeap bytes = .item p rest left ↔ left = okHeap ∧ p = ⟨first, []⟩ ∧ bytes = 0 :: rest := by
  rcases bytes with _ | ⟨b, bytes⟩
  · exact iff_of_false (fun h => by cases h) fun h => by cases h.2.2
  · rw [readPingresp]
    split
    · rename_i hb
      rw [Reading.item.injEq, hb, List.cons.injEq]
      constructor
      · rintro ⟨h1, h2, h3⟩
        exact ⟨h3.symm, h1.symm, rfl, h2⟩
      · rintro ⟨h1, h2, _, h3⟩
        exact ⟨h2.symm, h3, h1.symm⟩
    · rename_i hb
      exact iff_of_false (fun h => by cases h) fun h => hb (List.cons.inj h.2.2).1

theorem readRest_iff :
    readRest first okHeap bytes = .item p rest left ↔
      left = okHeap ∧ p.first = first ∧ p.body ≠ [] ∧ ∃ len, LenBytes len p.body.length ∧ bytes = len ++ (p.body ++ rest) := by
  constructor
  · intro h
    rw [readRest] at h
    split at h
    · cases h
    · cases h
    · split at h <;> cases h
    · rename_i n bytes' hlen
      obtain ⟨hleft, hfirst, hbody, rfl⟩ := (readBody_iff (n + 1)).mp h
      obtain ⟨len, hspell, rfl⟩ := (readLength_iff bytes (n + 1) _).mp hlen
      exact ⟨hleft, hfirst, List.ne_nil_of_length_eq_add_one hbody, len, hbody ▸ hspell, rfl⟩
  · rintro ⟨rfl, rfl, hne, len, hspell, rfl⟩
    obtain ⟨n, hn⟩ := Nat.exists_eq_add_one.mpr (List.length_pos_iff.mpr hne)
    have hlen : readLength 3 (len ++ (p.body ++ rest)) = .length (n + 1) (p.body ++ rest) :=
      (readLength_iff _ _ _).mpr ⟨len, hn ▸ hspell, rfl⟩
    simp only [readRest, hlen]
    exact (readBody_iff (n + 1)).mpr ⟨rfl, rfl, hn, rfl⟩

end

/-- With memory at hand, the reader takes a packet off exactly when the packet is spelled there. -/
theorem exact_packets : Exact packets okHeap Packet.Spelled := by
  intro bytes p rest left
  change readPacket okHeap bytes = .item p rest left ↔ _
  constructor
  · intro h
    rcases bytes with _ | ⟨first, bytes⟩
    · cases h
    rw [readPacket] at h
    split at h
    · rename_i hacc
      split at h
      · rename_i ht
        obtain ⟨hleft, rfl, rfl⟩ := readPingresp_iff.mp h
        exact ⟨hleft, [first, 0], rfl, hacc, by rw [if_pos (by exact ht)]; exact ⟨rfl, rfl⟩⟩
      · rename_i ht
        obtain ⟨hleft, rfl, hne, len, hspell, rfl⟩ := readRest_iff.mp h
        exact ⟨hleft, p.first :: (len ++ p.body), by simp, hacc, by rw [if_neg (by exact ht)]; exact ⟨hne, len, hspell, rfl⟩⟩
    · cases h
  · rintro ⟨rfl, front, rfl, hacc, hbody⟩
    have hacc' : firstByteAccepted (packetTypeByte p.first) (flagValueByte p.first) = true := hacc
    split at hbody
    · rename_i ht
      obtain ⟨rfl, hnil⟩ := hbody
      simp only [List.cons_append, List.nil_append, readPacket, if_pos hacc', if_pos (show packetTypeByte p.first = _ from ht)]
      exact readPingresp_iff.mpr ⟨rfl, by rw [← hnil], rfl⟩
    · rename_i ht
      obtain ⟨hne, len, hspell, rfl⟩ := hbody
      simp only [List.cons_append, readPacket, if_pos hacc', if_neg (show packetTypeByte p.first ≠ _ from ht)]
      exact readRest_iff.mpr ⟨rfl, rfl, hne, len, hspell, List.append_assoc _ _ _⟩

/-- Everything has been received well, the codec is between two packets, and this is what was delivered. -/
def Accepts (r : Codec (List Delivery) × MuResult) (ds : List Delivery) : Prop :=
  r.2 = .zero ∧ r.1.inst.InitialParsing ∧ r.1.callContext = ds

/-- A stream is accepted exactly when the scan takes it to its end. -/
theorem accepts_iff_scan (bytes : List UInt8) (ds : List Delivery) :
    Accepts (feed .zero (receiveByte record) ⟨mqttCodecCreate, okHeap, []⟩ bytes) ds ↔
      ∃ ps, scan packets okHeap bytes = (ps, .waiting [] okHeap okHeap) ∧ ds = ps.map Packet.delivery := by
  have hb := between_create okHeap ([] : List Delivery)
  obtain ⟨hout, hgood⟩ := (implements_packets record).of_scan hb bytes
  rw [Accepts, hgood, hout, foldl_deliver_record, List.nil_append]
  rcases hs : scan packets okHeap bytes with ⟨items, ⟨pending, resource, left⟩ | ⟨left⟩⟩
  · obtain ⟨c, hbetween, -, hfeed, hread⟩ := (implements_packets record).of_waiting hb hs
    obtain rfl := exact_packets.resource_eq hs
    rw [hfeed]
    rcases pending with _ | ⟨first, pending⟩
    · obtain ⟨off, hinst, -⟩ := hbetween
      obtain rfl : okHeap = left := Reading.more.inj ((packets.read_nil okHeap).symm.trans hread)
      constructor
      · rintro ⟨-, -, rfl⟩
        exact ⟨items, rfl, rfl⟩
      · rintro ⟨ps, hps, rfl⟩
        obtain rfl := (Prod.mk.inj hps).1
        exact ⟨rfl, hinst ▸ initialParsing_startAt off, rfl⟩
    · refine iff_of_false (fun h => hbetween.not_initial record hread h.2.1) ?_
      rintro ⟨ps, hps, -⟩
      cases (Prod.mk.inj hps).2
  · refine iff_of_false (fun h => Bool.noConfusion h.1) ?_
    rintro ⟨ps, hps, -⟩
    cases (Prod.mk.inj hps).2

/-- What is accepted is made up of packets: with memory at hand, the calls succeed and leave the codec between two packets exactly
when the stream is spelled by packets, and then it is these that were delivered, each once and in order. -/
theorem receiveUntil_accepts_iff (chunks : List (List UInt8)) (h : ∀ chunk ∈ chunks, chunk ≠ []) (ds : List Delivery) :
    Accepts (receiveUntil record ⟨mqttCodecCreate, okHeap, []⟩ chunks) ds ↔
      ∃ ps fronts, List.Forall₂ Packet.Spelled ps fronts ∧ chunks.flatten = fronts.flatten ∧ ds = ps.map Packet.delivery := by
  rw [receiveUntil_eq_feed record h, accepts_iff_scan]
  constructor
  · rintro ⟨ps, hs, rfl⟩
    obtain ⟨fronts, hall, hflat⟩ := (scan_eq_iff exact_packets ps _).mp hs
    exact ⟨ps, fronts, hall, hflat, rfl⟩
  · rintro ⟨ps, fronts, hall, hflat, rfl⟩
    exact ⟨ps, (scan_eq_iff exact_packets ps _).mpr ⟨fronts, hall, hflat⟩, rfl⟩

/-- A PUBLISH whose length is written in two bytes where one would do. -/
theorem receiveUntil_accepts_padded :
    Accepts (receiveUntil record ⟨mqttCodecCreate, okHeap, []⟩ [[0x30, 0x81], [0, 65]])
        [⟨.publishType, 0, some (Buffer.ofBytes [65])⟩] ↔
      ∃ ps fronts, List.Forall₂ Packet.Spelled ps fronts ∧ [0x30, 0x81, 0, 65] = fronts.flatten ∧
        [⟨.publishType, 0, some (Buffer.ofBytes [65])⟩] = ps.map Packet.delivery :=
  receiveUntil_accepts_iff [[0x30, 0x81], [0, 65]] (by decide) _

/-! ## Runs of a client -/

/-- What a call of `onBytesReceived` does to the scanner: without bytes the call fails, and what is pending is lost. -/
def takeChunk (sc : Scanner Heap UInt8 Packet) : Option (List UInt8) → Scanner Heap UInt8 Packet
  | none | some [] => sc.drop
  | some bytes => sc.take packets bytes

/-- The packets that are scanned from a sequence of chunks. -/
def scanned (heap : Heap) (buffers : List (Option (List UInt8))) : List Packet :=
  (buffers.foldl takeChunk (Scanner.start heap)).items

/-- The recording codec is where the scanner is. -/
def At (sc : Scanner Heap UInt8 Packet) (c : Codec (List Delivery)) : Prop :=
  Holds packets .zero (receiveByte record) Codec.Between Codec.callContext (Packet.deliver record) [] sc c

/-- One more chunk. -/
theorem At.step {sc : Scanner Heap UInt8 Packet} {c : Codec (List Delivery)} (h : At sc c) (buffer : Option (List UInt8)) :
    At (takeChunk sc buffer) (replayChunk c buffer) := by
  have hreset : ∀ (items : List Packet) (c' : Codec (List Delivery)), c'.callContext = items.foldl (Packet.deliver record) [] →
      At ⟨items, [], c'.heap, c'.heap⟩ { c' with inst := mqttCodecReset c'.inst } :=
    fun items c' hctx => holds_between ⟨0, rfl, rfl⟩ hctx
  have hlost : At sc.drop { c with inst := mqttCodecReset c.inst } := by
    obtain ⟨hctx, hheap⟩ := h.spec (implements_packets record)
    rw [Scanner.drop, ← hheap]
    exact hreset sc.items c hctx
  rcases buffer with _ | _ | ⟨b, bytes⟩
  · exact hlost
  · exact hlost
  · rcases hrefuses : sc.refuses packets (b :: bytes)
    · obtain ⟨hgood, hheld⟩ := h.take (implements_packets record) hrefuses
      have hsame : replayChunk c (some (b :: bytes)) = (feed .zero (receiveByte record) c (b :: bytes)).1 := if_neg (not_not_intro hgood)
      rw [hsame]
      exact hheld
    · obtain ⟨hbad, hctx, hnext⟩ := h.refused (implements_packets record) hrefuses
      have hsame : replayChunk c (some (b :: bytes)) =
          { (feed .zero (receiveByte record) c (b :: bytes)).1 with
            inst := mqttCodecReset (feed .zero (receiveByte record) c (b :: bytes)).1.inst } := if_pos hbad
      have hat := hreset _ _ hctx
      rw [← hnext] at hat
      rw [hsame]
      exact hat

/-- A sequence of chunks. -/
theorem At.steps {sc : Scanner Heap UInt8 Packet} {c : Codec (List Delivery)} (h : At sc c) (buffers : List (Option (List UInt8))) :
    At (buffers.foldl takeChunk sc) (replay c buffers) := by
  induction buffers generalizing sc c with
  | nil => exact h
  | cons buffer buffers ih => exact ih (h.step buffer)

/-- What a replay delivers is what is scanned. -/
theorem replay_scanned (heap : Heap) (buffers : List (Option (List UInt8))) :
    (replay ⟨mqttCodecCreate, heap, []⟩ buffers).callContext = (scanned heap buffers).map Packet.delivery := by
  have hstart : At (Scanner.start heap) ⟨mqttCodecCreate, heap, []⟩ := holds_between (between_create heap []) rfl
  obtain ⟨hctx, -⟩ := (hstart.steps buffers).spec (implements_packets record)
  rw [hctx, foldl_deliver_record, List.nil_append, scanned]

/-- The packets of a run are those of a replay of its chunks. -/
theorem deliveries_replay (fnOnErrorCallBack : Bool) (env : Env) (heap : Heap) (depth : Nat) (calls : List Call) :
    deliveries (run depth (mqttClientInit fnOnErrorCallBack env heap) calls).callContext.history =
      (replay ⟨mqttCodecCreate, heap, []⟩
        (chunks (run depth (mqttClientInit fnOnErrorCallBack env heap) calls).callContext.history)).callContext := by
  have hstart : Replays [] ⟨mqttCodecCreate, heap, []⟩ [] (mqttClientInit fnOnErrorCallBack env heap) :=
    ⟨SameParse.refl _, rfl, [], rfl, rfl, rfl⟩
  obtain ⟨more, hmore⟩ := @replays_run _ _ _ depth _ hstart calls
  obtain ⟨added, hhist, hdeliveries, hchunks⟩ := hmore.context
  rw [hhist, List.nil_append, hdeliveries, hchunks, List.nil_append]

/-- What a client delivers is what is scanned: in every run, the packets that `recvCompleteCallback` is called with are those scanned
from the chunks that the xio has handed over, whatever else happens in between. -/
theorem run_delivers_scanned (fnOnErrorCallBack : Bool) (env : Env) (heap : Heap) (depth : Nat) (calls : List Call) :
    let h := (run depth (mqttClientInit fnOnErrorCallBack env heap) calls).callContext.history
    deliveries h = (scanned heap (chunks h)).map Packet.delivery := by
  dsimp only
  rw [deliveries_replay, replay_scanned]

end Umqtt
