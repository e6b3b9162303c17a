import Umqtt.Lemmas.CodecInv

/-!
# What remains of an error

A call of `mqtt_codec_bytesReceived` that fails marks the packet with `PACKET_TYPE_ERROR`, and leaves the state of the parser, the
buffer and the stored length bytes as they are. Whether the calls after it fail too depends on these (`Stuck`): in the other states
the next bytes are taken for the rest of a packet, and what they complete is delivered with the type `PACKET_TYPE_ERROR`.
-/

namespace Umqtt

open Feed Cells

/-! ## Sticky errors -/

/-- Every later call, until a reset, fails and invokes no callback. -/
def Sticky (c : Codec (List Delivery)) : Prop :=
  ∀ (buffers : List (Option (List UInt8))) (buffer : Option (List UInt8)),
    let before := buffers.foldl (fun c buffer => (mqttCodecBytesReceived record c buffer).1) c
    (mqttCodecBytesReceived record before buffer).2 ≠ .zero ∧
      (mqttCodecBytesReceived record before buffer).1.callContext = c.callContext

/-- The states in which an error stays: `CODEC_STATE_PAYLOAD`; three or more length bytes are stored; or the body is awaited in a buffer
of size 0. -/
def Stuck (i : MqttCodecInstance) : Prop :=
  match i.codecState with
  | .codecStateFixedHeader => 3 ≤ i.remainLenIndex
  | .codecStateVarHeader => i.headerData = some ⟨[]⟩
  | .codecStatePayload => True

/-! ## The stored length bytes -/

/-- The length bytes stored so far, of which the first three carry the mark. -/
def StoredMarked (i : MqttCodecInstance) : Prop :=
  ∃ ds : List UInt8, i.storeRemainLen = storeOf ds ∧ i.remainLenIndex = ds.length ∧ ∀ e ∈ ds.take 3, 128 ≤ e.toNat

theorem storedMarked_cleared {i : MqttCodecInstance} (h : i.storeRemainLen = clearedRemainLen ∧ i.remainLenIndex = 0) :
    StoredMarked i := ⟨[], by rw [h.1, storeOf_nil], h.2, by simp⟩

/-- A length byte keeps the stored ones marked. -/
theorem storedMarked_prepareheaderDataInfo {i : MqttCodecInstance} (h : StoredMarked i) (b : UInt8) (heap : Heap) :
    StoredMarked (prepareheaderDataInfo i b heap).1 := by
  obtain ⟨ds, hstore, hidx, hmarked⟩ := h
  unfold prepareheaderDataInfo
  split
  · exact ⟨ds, hstore, hidx, hmarked⟩
  · have hstored : (storeLenByte i b).storeRemainLen = storeOf (ds ++ [b]) := by
      rw [storeLenByte, hstore, hidx, set_storeOf]
    have hcount : (storeLenByte i b).remainLenIndex = (ds ++ [b]).length := by
      rw [storeLenByte, hidx, List.length_append, List.length_singleton]
    dsimp only
    split
    · rename_i hlast
      rcases hdec : decodedLen (storeLenByte i b).storeRemainLen with _ | totalLen
      · -- only a fourth byte is refused
        have hthree : 3 ≤ ds.length := by
          by_contra hlt
          rw [List.take_of_length_le (by omega)] at hmarked
          rw [hstored, decodedLen_storeOf hmarked ((le_0x7f_iff b).mp hlast) (by omega), if_pos (by omega)] at hdec
          exact absurd hdec (by simp)
        refine ⟨ds ++ [b], hstored, hcount, ?_⟩
        rw [List.take_append_of_le_length hthree]
        exact hmarked
      · dsimp only
        split
        · exact storedMarked_cleared ⟨rfl, rfl⟩
        · exact storedMarked_cleared ⟨rfl, rfl⟩
    · rename_i hmore
      have hall : StoredMarked (storeLenByte i b) := by
        refine ⟨ds ++ [b], hstored, hcount, ?_⟩
        intro e he
        rw [List.take_append] at he
        rcases List.mem_append.mp he with he | he
        · exact hmarked e he
        · obtain rfl := List.mem_singleton.mp (List.mem_of_mem_take he)
          have := mt (le_0x7f_iff e).mpr hmore
          omega
      split
      · exact hall
      · exact hall

section

variable {σ : Type} (packetComplete : OnPacketCompleteCallback σ)

/-- A byte keeps the stored length bytes marked. -/
theorem storedMarked_receiveByte {c : Codec σ} (h : StoredMarked c.inst) (b : UInt8) :
    StoredMarked (receiveByte packetComplete c b).1.inst := by
  have hlen := storedMarked_prepareheaderDataInfo h b c.heap
  unfold receiveByte
  split
  · split
    · rw [receiveFirstByte_eq]
      split <;> exact h
    · unfold receiveLenByte
      dsimp only
      split
      · exact hlen
      · split
        · split <;> exact hlen
        · exact hlen
  · unfold receiveBodyByte
    split
    · exact h
    · split
      · exact h
      · dsimp only
        split <;> exact h
  · exact h

/-- A call keeps the stored length bytes marked. -/
theorem storedMarked_call {c : Codec σ} (h : StoredMarked c.inst) (call : CodecCall) :
    StoredMarked (c.call packetComplete call).inst := by
  rcases call with buffer | _
  · rcases buffer with _ | _ | ⟨b, bs⟩
    · exact h
    · exact h
    · exact feed_preserves (P := fun c : Codec σ => StoredMarked c.inst)
        (fun c b hc => storedMarked_receiveByte packetComplete hc b) h (b :: bs)
  · exact storedMarked_cleared ⟨rfl, rfl⟩

/-- In every state that a created codec can reach the stored length bytes are marked. -/
theorem storedMarked_calls {c : Codec σ} (h : StoredMarked c.inst) (calls : List CodecCall) :
    StoredMarked (calls.foldl (Codec.call packetComplete) c).inst := by
  induction calls generalizing c with
  | nil => exact h
  | cons call calls ih => exact ih (storedMarked_call packetComplete h call)

/-! ## Errors -/

/-- A result that is an error has marked the packet. -/
def MarksError (r : Codec σ × MuResult) : Prop := r.2 ≠ .zero → r.1.inst.currPacket = .packetTypeError

theorem marksError_zero (c : Codec σ) : MarksError (c, .zero) := fun h => absurd rfl h

theorem marksError_fail (c : Codec σ) : MarksError c.fail := fun _ => rfl

theorem marksError_receiveByte (c : Codec σ) (b : UInt8) : MarksError (receiveByte packetComplete c b) := by
  unfold receiveByte
  split
  · split
    · rw [receiveFirstByte_eq]
      split
      · exact marksError_zero _
      · exact marksError_fail _
    · unfold receiveLenByte
      dsimp only
      split
      · exact marksError_fail _
      · split
        · split
          · exact marksError_zero _
          · exact marksError_fail _
        · exact marksError_zero _
  · unfold receiveBodyByte
    split
    · exact marksError_zero _
    · split
      · exact marksError_fail _
      · dsimp only
        split
        · exact marksError_zero _
        · exact marksError_zero _
  · exact marksError_fail _

/-- The loop ends with the result of a byte, or without an error. -/
theorem marksError_feed (c : Codec σ) (bytes : List UInt8) : MarksError (feed .zero (receiveByte packetComplete) c bytes) := by
  induction bytes generalizing c with
  | nil => exact marksError_zero c
  | cons b bytes ih =>
    by_cases hb : (receiveByte packetComplete c b).2 = .zero
    · rw [feed_cons_good bytes hb]
      exact ih _
    · rw [feed_cons_bad bytes hb]
      exact marksError_receiveByte packetComplete c b

/-- A call that fails marks the packet as an error. -/
theorem marksError_bytesReceived (c : Codec σ) (buffer : Option (List UInt8)) :
    MarksError (mqttCodecBytesReceived packetComplete c buffer) := by
  rcases buffer with _ | _ | ⟨b, bytes⟩
  · exact marksError_fail c
  · exact marksError_fail c
  · exact marksError_feed packetComplete c (b :: bytes)

/-- A codec that is stuck in an error. -/
structure Halted (i : MqttCodecInstance) : Prop where
  stuck : Stuck i
  currPacket : i.currPacket = .packetTypeError
  stored : StoredMarked i

/-- The length byte of a codec that is stuck fails, and leaves the codec stuck. -/
theorem prepareheaderDataInfo_stuck {i : MqttCodecInstance} (h : StoredMarked i) (hidx : 3 ≤ i.remainLenIndex) (b : UInt8)
    (heap : Heap) :
    (prepareheaderDataInfo i b heap).2 = (.muFailure, heap) ∧ 3 ≤ (prepareheaderDataInfo i b heap).1.remainLenIndex ∧
      (prepareheaderDataInfo i b heap).1.codecState = i.codecState := by
  by_cases hfull : i.remainLenIndex ≥ 4
  · rw [prepareheaderDataInfo, if_pos hfull]
    exact ⟨rfl, hidx, rfl⟩
  · obtain ⟨ds, hstore, hcount, hmarked⟩ := h
    have hthree : ds.length = 3 := by omega
    rw [List.take_of_length_le (by omega)] at hmarked
    rw [prepareheaderDataInfo_full hstore hcount hmarked hthree]
    exact ⟨rfl, Nat.le_succ_of_le hidx, rfl⟩

/-- A byte that a stuck codec is given fails, calls nothing and leaves it stuck. -/
theorem receiveByte_halted {c : Codec σ} (h : Halted c.inst) (b : UInt8) :
    (receiveByte packetComplete c b).2 ≠ .zero ∧ (receiveByte packetComplete c b).1.callContext = c.callContext ∧
      Halted (receiveByte packetComplete c b).1.inst := by
  have hfail : c.fail.2 ≠ .zero ∧ c.fail.1.callContext = c.callContext ∧ Halted c.fail.1.inst :=
    ⟨MuResult.noConfusion, rfl, ⟨h.stuck, rfl, h.stored⟩⟩
  have hstuck := h.stuck
  unfold Stuck at hstuck
  unfold receiveByte
  split
  · rename_i hstate
    rw [hstate] at hstuck
    have hunknown : ¬c.inst.currPacket = .unknownType := by
      rw [h.currPacket]
      exact ControlPacketType.noConfusion
    obtain ⟨hresult, hidx, hfix⟩ := prepareheaderDataInfo_stuck h.stored hstuck b c.heap
    have hstored := storedMarked_prepareheaderDataInfo h.stored b c.heap
    rcases hprep : prepareheaderDataInfo c.inst b c.heap with ⟨inst, result, heap⟩
    rw [hprep] at hresult hidx hfix hstored
    obtain ⟨rfl, rfl⟩ := Prod.mk.inj hresult
    rw [if_neg hunknown, receiveLenByte, hprep]
    refine ⟨MuResult.noConfusion, rfl, ?_, rfl, hstored⟩
    unfold Stuck
    simp only [ne_eq, reduceCtorEq, not_false_eq_true, if_true, Codec.fail]
    rw [show inst.codecState = .codecStateFixedHeader from hfix.trans hstate]
    exact hidx
  · rename_i hstate
    rw [hstate] at hstuck
    dsimp only at hstuck
    rw [receiveBodyByte, hstuck]
    exact hfail
  · exact hfail

/-- A call of a stuck codec fails, calls nothing and leaves it stuck. -/
theorem bytesReceived_halted {c : Codec σ} (h : Halted c.inst) (buffer : Option (List UInt8)) :
    (mqttCodecBytesReceived packetComplete c buffer).2 ≠ .zero ∧
      (mqttCodecBytesReceived packetComplete c buffer).1.callContext = c.callContext ∧
      Halted (mqttCodecBytesReceived packetComplete c buffer).1.inst := by
  have hfail : c.fail.2 ≠ .zero ∧ c.fail.1.callContext = c.callContext ∧ Halted c.fail.1.inst :=
    ⟨MuResult.noConfusion, rfl, ⟨h.stuck, rfl, h.stored⟩⟩
  rcases buffer with _ | _ | ⟨b, bytes⟩
  · exact hfail
  · exact hfail
  · have hb := receiveByte_halted packetComplete h b
    have hcall : mqttCodecBytesReceived packetComplete c (some (b :: bytes)) = receiveByte packetComplete c b :=
      feed_cons_bad bytes hb.1
    rw [hcall]
    exact hb

end

/-- An error that has left the codec stuck stays. -/
theorem sticky_of_halted {c : Codec (List Delivery)} (h : Halted c.inst) : Sticky c := by
  intro buffers buffer
  induction buffers generalizing c with
  | nil =>
    obtain ⟨h1, h2, -⟩ := bytesReceived_halted record h buffer
    exact ⟨h1, h2⟩
  | cons first buffers ih =>
    obtain ⟨-, hcontext, hhalted⟩ := bytesReceived_halted record h first
    have hrest := ih hhalted
    dsimp only at hrest ⊢
    rw [hcontext] at hrest
    exact hrest

/-- In any other state, one byte is taken for a part of a packet. -/
theorem exists_call_of_not_stuck {c : Codec (List Delivery)} (hstuck : ¬Stuck c.inst) (hp : c.inst.currPacket = .packetTypeError) :
    ∃ b, (mqttCodecBytesReceived record c (some [b])).2 = .zero := by
  have hcall : ∀ b, (receiveByte record c b).2 = .zero → (mqttCodecBytesReceived record c (some [b])).2 = .zero := by
    intro b hb
    have hfeed : mqttCodecBytesReceived record c (some [b]) = feed .zero (receiveByte record) (receiveByte record c b).1 [] :=
      feed_cons_good [] hb
    rw [hfeed]
    rfl
  unfold Stuck at hstuck
  rcases hstate : c.inst.codecState with _ | _ | _
  · -- a length byte that carries the mark
    rw [hstate] at hstuck
    dsimp only at hstuck
    refine ⟨0x80, hcall _ ?_⟩
    have hmore : ¬(0x80 : UInt8) ≤ 0x7f := by decide
    have hroom : ¬c.inst.remainLenIndex ≥ 4 := by omega
    have hfour : ¬c.inst.remainLenIndex + 1 = 4 := by omega
    simp [receiveByte, hstate, hp, receiveLenByte, prepareheaderDataInfo, hroom, hmore, storeLenByte, hfour]
  · rw [hstate] at hstuck
    dsimp only at hstuck
    refine ⟨0, hcall _ ?_⟩
    rcases hdata : c.inst.headerData with _ | buf
    · simp [receiveByte, hstate, receiveBodyByte, hdata]
    · have hne : ¬buf.cells = [] := by
        intro hnil
        exact hstuck (by rw [hdata, ← hnil])
      simp only [receiveByte, hstate, receiveBodyByte, hdata, bufferUChar, if_neg hne]
      split <;> rfl
  · rw [hstate] at hstuck
    exact absurd trivial hstuck

/-- Sticky errors. After a call that fails, every later call fails and delivers nothing until a reset, exactly when the call has left
the codec in `CODEC_STATE_PAYLOAD`, with three or more length bytes, or with a body buffer of size 0. -/
theorem sticky_iff_stuck (heap : Heap) (calls : List CodecCall) (buffer : Option (List UInt8)) :
    let c := calls.foldl (Codec.call record) ⟨mqttCodecCreate, heap, []⟩
    (mqttCodecBytesReceived record c buffer).2 ≠ .zero →
      (Sticky (mqttCodecBytesReceived record c buffer).1 ↔ Stuck (mqttCodecBytesReceived record c buffer).1.inst) := by
  intro c hfails
  have hp := marksError_bytesReceived record c buffer hfails
  have hstored : StoredMarked c.inst :=
    storedMarked_calls record (c := ⟨mqttCodecCreate, heap, []⟩) (storedMarked_cleared ⟨rfl, rfl⟩) calls
  constructor
  · intro hsticky
    by_contra hnot
    obtain ⟨b, hzero⟩ := exists_call_of_not_stuck hnot hp
    exact (hsticky [] (some [b])).1 hzero
  · intro hstuck
    exact sticky_of_halted ⟨hstuck, hp, storedMarked_call record hstored (.bytesReceived buffer)⟩

/-- An empty packet that is not a PINGRESP, and two more bytes in the same call. -/
theorem sticky_iff_stuck_payload :
    Sticky (mqttCodecBytesReceived record ⟨mqttCodecCreate, okHeap, []⟩ (some [0x30, 0, 0, 0])).1 ↔
      Stuck (mqttCodecBytesReceived record ⟨mqttCodecCreate, okHeap, []⟩ (some [0x30, 0, 0, 0])).1.inst :=
  sticky_iff_stuck okHeap [] (some [0x30, 0, 0, 0]) (by decide)

/-- After a first byte of no type, two more bytes are a packet of the type `PACKET_TYPE_ERROR`. -/
theorem not_sticky_first_byte :
    let r := mqttCodecBytesReceived record ⟨mqttCodecCreate, okHeap, []⟩ (some [0x00])
    let r' := mqttCodecBytesReceived record r.1 (some [1, 5])
    r.2 ≠ .zero ∧ r'.2 = .zero ∧ r'.1.callContext = [⟨.packetTypeError, 0, some (Buffer.ofBytes [5])⟩] ∧ ¬Sticky r.1 := by
  refine ⟨by decide, by decide, by decide, ?_⟩
  intro h
  exact absurd (h [] (some [1, 5])).1 (by decide)

end Umqtt
