import Umqtt.Checked
import Umqtt.Lemmas.CodecInv

/-!
# The decoder under hostile input

What holds in every state a created codec can reach, whatever bytes it is given, whatever the allocator answers, and also when
calls go on after an error (`codec_invariant`). Where the representation invariant holds, the functions that check every access and
every sum do what the functions of the model do: none of them gives nothing. A call that has read a part of its bytes is in the state
that a call with that part leaves, so that the states in the middle of a call are among them.
-/

namespace Umqtt

open Cells

namespace Checked

/-! ## The remaining length -/

theorem int_eq {n : Nat} (h : n ≤ intMax) : int n = some n := if_pos h

/-- The store of a length byte is in bounds behind the guard. -/
theorem storeLenByte_eq {codecData : MqttCodecInstance} (h : codecData.remainLenIndex < 4) (remainLen : UInt8) :
    storeLenByte codecData remainLen = some (Umqtt.storeLenByte codecData remainLen) := by
  have hset : codecData.storeRemainLen.set codecData.remainLenIndex remainLen h =
      codecData.storeRemainLen.setIfInBounds codecData.remainLenIndex remainLen := by
    refine Vector.ext fun i hi => ?_
    rw [Vector.getElem_set h hi, Vector.getElem_setIfInBounds hi]
  rw [storeLenByte, dif_pos h, hset]
  rfl

-- at a full field, which the guard turns away, the store is refused
example : storeLenByte { clearCodecData with remainLenIndex := 4 } 0x80 = none := rfl

/-- The loop reads in bounds and its sums fit, whatever is stored, and it comes to its end. -/
theorem lenLoop_eq (v : Vector UInt8 4) (rounds index totalLen : Nat) (ht : totalLen < 128 ^ index) (hi : index < 4)
    (hr : 4 ≤ index + rounds) :
    lenLoop v rounds index totalLen (128 ^ index) = some (Umqtt.lenLoop v rounds index totalLen (128 ^ index)) := by
  induction rounds generalizing index totalLen with
  | zero => omega
  | succ rounds ih =>
    have hread : v[index]? = some (v[index]?.getD 0) := by
      rw [Vector.getElem?_eq_getElem hi]
      rfl
    have hmul : 128 ^ index * next128Chunk.toNat = 128 ^ (index + 1) := rfl
    have hb : ((v[index]?.getD 0) &&& 127).toNat < 128 := by
      rw [and_127_toNat]
      exact Nat.mod_lt _ (by decide)
    rw [lenLoop, Umqtt.lenLoop, hread]
    simp only [Option.getD_some, hmul]
    generalize v[index]?.getD 0 = b at hb
    have hproduct : (b &&& 127).toNat * 128 ^ index ≤ 127 * 128 ^ index := Nat.mul_le_mul_right _ (by omega)
    have hsum : totalLen + (b &&& 127).toNat * 128 ^ index < 128 ^ (index + 1) := by
      rw [Nat.pow_succ]
      omega
    have hmax : 128 ^ (index + 1) ≤ intMax :=
      Nat.le_trans (Nat.pow_le_pow_right (by decide) (by omega)) (by decide : 128 ^ 4 ≤ intMax)
    have hproduct' : (b &&& 127).toNat * 128 ^ index ≤ intMax := by omega
    have htotal : totalLen + (b &&& 127).toNat * 128 ^ index ≤ intMax := by omega
    simp only [Option.bind_eq_bind, Option.bind_some, int_eq hproduct', int_eq htotal, int_eq hmax]
    by_cases hbig : 128 ^ (index + 1) > max3DigitPacketSize
    · rw [if_pos hbig, if_pos hbig]
    · -- only the fourth round passes the limit
      have hi' : index + 1 < 4 := by
        by_contra hge
        exact hbig (Nat.lt_of_lt_of_le (by decide : max3DigitPacketSize < 128 ^ 4) (Nat.pow_le_pow_right (by decide) (by omega)))
      rw [if_neg hbig, if_neg hbig, ih (index + 1) _ hsum hi' (by omega)]
      split <;> rfl

/-- The loop of `prepareheaderDataInfo`, however many rounds it is given from four on. -/
theorem decodedLen_eq (v : Vector UInt8 4) (more : Nat) : decodedLen (4 + more) v = some (Umqtt.decodedLen v) := by
  have hloop : lenLoop v (4 + more) 0 0 1 = some (lenRounds v) := by
    have h := lenLoop_eq v (4 + more) 0 0 (by decide) (by decide) (by omega)
    rw [lenLoop_more v 4 more 0 0 (by decide) (by decide)] at h
    exact h
  rw [decodedLen, hloop, Umqtt.decodedLen, Option.bind_eq_bind, Option.bind_some]
  rcases (lenRounds v).getLast? with _ | last <;> rfl

theorem prepareheaderDataInfo_eq (codecData : MqttCodecInstance) (remainLen : UInt8) (heap : Heap) (more : Nat) :
    prepareheaderDataInfo (4 + more) codecData remainLen heap =
      some (Umqtt.prepareheaderDataInfo codecData remainLen heap) := by
  rw [prepareheaderDataInfo, Umqtt.prepareheaderDataInfo]
  by_cases hidx : codecData.remainLenIndex ≥ 4
  · rw [if_pos hidx, if_pos hidx]
  · rw [if_neg hidx, if_neg hidx, storeLenByte_eq (by omega), Option.bind_eq_bind, Option.bind_some]
    by_cases hb : remainLen ≤ 0x7f
    · simp only [if_pos hb, decodedLen_eq, Option.bind_eq_bind, Option.bind_some]
      rcases Umqtt.decodedLen (Umqtt.storeLenByte codecData remainLen).storeRemainLen with _ | totalLen
      · rfl
      · simp only
        split <;> rfl
    · simp only [if_neg hb]
      split <;> rfl

/-! ## Bytes -/

section

variable {σ : Type} {packetComplete : OnPacketCompleteCallback σ}

theorem receiveLenByte_eq (c : Codec σ) (iterator : UInt8) (more : Nat) :
    receiveLenByte (4 + more) packetComplete c iterator = some (Umqtt.receiveLenByte packetComplete c iterator) := by
  rw [receiveLenByte, Umqtt.receiveLenByte, prepareheaderDataInfo_eq, Option.bind_eq_bind, Option.bind_some]
  rcases Umqtt.prepareheaderDataInfo c.inst iterator c.heap with ⟨inst, result, heap⟩
  simp only
  split
  · rfl
  · split <;> rfl

/-- A body byte is stored below the end of the buffer: the bytes from the offset on are not written yet, and there is one. -/
theorem receiveBodyByte_eq {c : Codec σ} (h : c.inst.Inv) (iterator : UInt8) :
    receiveBodyByte packetComplete c iterator = some (Umqtt.receiveBodyByte packetComplete c iterator) := by
  rw [receiveBodyByte, Umqtt.receiveBodyByte]
  rcases hdata : c.inst.headerData with _ | headerData
  · rfl
  · rcases h.body headerData hdata with hempty | ⟨done, todo, hcells, hoff⟩
    · simp only [bufferUChar, if_pos hempty]
    · have hne : ¬(headerData.cells = []) := by simp [hcells]
      have hlt : c.inst.bufferOffset < headerData.cells.length := by simp [hcells, hoff]
      simp only [bufferUChar, if_neg hne, Buffer.start, if_pos hlt]

theorem receiveByte_eq {c : Codec σ} (h : c.inst.Inv) (iterator : UInt8) (more : Nat) :
    receiveByte (4 + more) packetComplete c iterator = some (Umqtt.receiveByte packetComplete c iterator) := by
  rw [receiveByte, Umqtt.receiveByte]
  rcases c.inst.codecState
  · simp only [receiveLenByte_eq]
    split <;> rfl
  · exact receiveBodyByte_eq h iterator
  · rfl

theorem call_eq {c : Codec σ} (h : c.inst.Inv) (call : CodecCall) (more : Nat) :
    Checked.call (4 + more) packetComplete c call = some (c.call packetComplete call) := by
  rcases call with buffer | _
  · rcases buffer with _ | _ | ⟨b, bs⟩
    · rfl
    · rfl
    · have hkeep : ∀ (c : Codec σ) b, c.inst.Inv → (Umqtt.receiveByte packetComplete c b).1.inst.Inv :=
        fun c b hc => (receiveByte_inv hc b).1
      exact congrArg (Option.map Prod.fst) (Feed.feedM_eq_feed hkeep (fun c b hc => receiveByte_eq hc b more) h (b :: bs))
  · rfl

/-- Any calls after one another. -/
theorem calls_eq {c : Codec σ} (h : c.inst.Inv) (calls : List CodecCall) (more : Nat) :
    calls.foldlM (Checked.call (4 + more) packetComplete) c = some (calls.foldl (Codec.call packetComplete) c) := by
  have hkeep : ∀ (c : Codec σ) call, c.inst.Inv → (c.call packetComplete call).inst.Inv :=
    fun c call hc => (call_inv (P := fun _ => True) (fun _ _ _ _ => trivial) hc trivial call).1
  exact Feed.foldlM_eq_foldl hkeep (fun c call hc => call_eq hc call more) h calls

end

end Checked

/-! ## Every reachable state -/

/-- What a codec keeps in every state. -/
structure Safe (codecData : MqttCodecInstance) : Prop where
  remainLenIndex_le : codecData.remainLenIndex ≤ 4
  headerData_only : codecData.headerData ≠ none → codecData.codecState = .codecStateVarHeader

/-- The log of deliveries holds only buffers that are written throughout. -/
def AllWritten (log : List Delivery) : Prop := ∀ d ∈ log, ∀ b, d.headerData = some b → Written b.cells

theorem allWritten_record {log log' : List Delivery} (h : DeliversWritten record log log') (hlog : AllWritten log) :
    AllWritten log' := by
  rcases h with rfl | ⟨packet, flags, headerData, rfl, hw⟩
  · exact hlog
  · intro d hd
    rcases List.mem_append.mp hd with hd | hd
    · exact hlog d hd
    · rw [List.mem_singleton.mp hd]
      exact hw

/-- Any sequence of calls leaves a created codec in a safe state and has delivered only buffers that are written throughout; with
every access and every sum checked, and with as many rounds of the loop as one likes from four on, the calls do the same. -/
theorem codec_invariant (heap : Heap) (calls : List CodecCall) :
    let c := calls.foldl (Codec.call record) ⟨mqttCodecCreate, heap, []⟩
    Safe c.inst ∧ (∀ d ∈ c.callContext, ∀ b, d.headerData = some b → Written b.cells) ∧
      ∀ more, calls.foldlM (Checked.call (4 + more) record) ⟨mqttCodecCreate, heap, []⟩ = some c := by
  obtain ⟨h1, h2⟩ := calls_inv (P := AllWritten) (fun _ _ => allWritten_record)
    (c := ⟨mqttCodecCreate, heap, []⟩) inv_clearCodecData (fun d hd => absurd hd (by simp)) calls
  exact ⟨⟨h1.index_le, h1.header⟩, h2, fun more => Checked.calls_eq inv_clearCodecData calls more⟩

end Umqtt
