import Umqtt.Counted

/-!
# The buffers of the codec

The codec creates a buffer for every body and deletes it with the packet, or when it is destroyed. `mqtt_codec_reset` forgets the buffer
without deleting it: the buffers that are created and neither deleted nor held are those that a reset has dropped, one a reset.
-/

namespace Umqtt

open Feed

namespace Counted

/-- The buffer that the codec holds. -/
def held (headerData : Option Buffer) : Nat := if headerData.isSome then 1 else 0

section

variable {σ : Type} {packetComplete : OnPacketCompleteCallback σ}

/-! ## The count changes nothing else -/

theorem fst_takeHeaderData (totalLen : Nat) (heap : Heap) (ledger : Ledger) :
    (takeHeaderData totalLen heap ledger).1 = Umqtt.takeHeaderData totalLen heap := by
  unfold takeHeaderData Umqtt.takeHeaderData
  rcases bufferNew.answer heap with ⟨_ | headerData, heap'⟩
  · rfl
  · dsimp only
    rcases (bufferPreBuild headerData totalLen).answer heap' with ⟨_ | built, heap''⟩ <;> rfl

theorem fst_prepareheaderDataInfo (codecData : MqttCodecInstance) (remainLen : UInt8) (heap : Heap) (ledger : Ledger) :
    (prepareheaderDataInfo codecData remainLen heap ledger).1 = Umqtt.prepareheaderDataInfo codecData remainLen heap := by
  unfold prepareheaderDataInfo Umqtt.prepareheaderDataInfo
  split
  · rfl
  · dsimp only
    split
    · rcases decodedLen (storeLenByte codecData remainLen).storeRemainLen with _ | totalLen
      · rfl
      · dsimp only
        rw [← fst_takeHeaderData totalLen heap ledger]
        split <;> rfl
    · split <;> rfl

theorem codec_receiveLenByte (c : Codec σ) (b : UInt8) :
    ((receiveLenByte packetComplete c b).1.codec, (receiveLenByte packetComplete c b).2) =
      Umqtt.receiveLenByte packetComplete c.codec b := by
  unfold receiveLenByte Umqtt.receiveLenByte
  rw [← fst_prepareheaderDataInfo _ _ _ c.ledger]
  dsimp only
  split
  · rfl
  · split
    · split <;> rfl
    · rfl

theorem codec_receiveBodyByte (c : Codec σ) (b : UInt8) :
    ((receiveBodyByte packetComplete c b).1.codec, (receiveBodyByte packetComplete c b).2) =
      Umqtt.receiveBodyByte packetComplete c.codec b := by
  unfold receiveBodyByte Umqtt.receiveBodyByte
  rcases c.codec.inst.headerData with _ | headerData
  · rfl
  · dsimp only
    rcases bufferUChar headerData with _ | dataBytes
    · rfl
    · dsimp only
      split <;> rfl

/-- The codec of a counted byte is the codec of the byte. -/
theorem codec_receiveByte (c : Codec σ) (b : UInt8) :
    ((receiveByte packetComplete c b).1.codec, (receiveByte packetComplete c b).2) = Umqtt.receiveByte packetComplete c.codec b := by
  unfold receiveByte Umqtt.receiveByte
  cases c.codec.inst.codecState with
  | codecStateFixedHeader =>
    dsimp only
    split
    · rfl
    · exact codec_receiveLenByte c b
  | codecStateVarHeader => exact codec_receiveBodyByte c b
  | codecStatePayload => rfl

theorem codec_call (c : Codec σ) (call : CodecCall) : (c.call packetComplete call).codec = c.codec.call packetComplete call := by
  cases call with
  | reset => rfl
  | bytesReceived buffer =>
    rcases buffer with _ | _ | ⟨b, bytes⟩
    · rfl
    · rfl
    · exact (feed_related (R := fun (c : Codec σ) d => c.codec = d) (fun c d b h => by
        have hbyte := @codec_receiveByte _ packetComplete c b
        subst h
        exact ⟨congrArg Prod.snd hbyte, congrArg Prod.fst hbyte⟩) rfl (b :: bytes)).2

theorem codec_calls (c : Codec σ) (calls : List CodecCall) :
    (calls.foldl (Codec.call packetComplete) c).codec = calls.foldl (Umqtt.Codec.call packetComplete) c.codec := by
  induction calls generalizing c with
  | nil => rfl
  | cons call calls ih => rw [List.foldl_cons, List.foldl_cons, ih, codec_call]

/-! ## The balance -/

/-- The account: `lost` buffers have been created, and are neither deleted nor held. Between two packets none is held. -/
structure Account (lost : Nat) (c : Codec σ) : Prop where
  balance : c.ledger.created = c.ledger.deleted + held c.codec.inst.headerData + lost
  between : c.codec.inst.codecState = .codecStateFixedHeader → c.codec.inst.headerData = none

variable {lost : Nat} {c : Codec σ}

theorem Account.fail (h : Account lost c) : Account lost c.fail.1 := ⟨h.balance, h.between⟩

/-- A completed packet deletes its buffer. -/
theorem Account.complete (h : Account lost c) : Account lost (completePacketData packetComplete c) where
  balance := by
    have hbalance := h.balance
    simp only [completePacketData, Umqtt.completePacketData, bufferDelete, held] at hbalance ⊢
    split <;> rename_i hsome <;> simp only [hsome] at hbalance <;> simpa using hbalance
  between := fun _ => rfl

/-- A buffer that is taken is held. -/
theorem balance_takeHeaderData (totalLen : Nat) (heap : Heap) (ledger : Ledger) :
    (takeHeaderData totalLen heap ledger).2.deleted = ledger.deleted ∧
      (takeHeaderData totalLen heap ledger).2.created = ledger.created + held (takeHeaderData totalLen heap ledger).1.1 := by
  unfold takeHeaderData
  rcases bufferNew.answer heap with ⟨_ | headerData, heap'⟩
  · exact ⟨rfl, rfl⟩
  · dsimp only
    rcases (bufferPreBuild headerData totalLen).answer heap' with ⟨_ | built, heap''⟩ <;> exact ⟨rfl, rfl⟩

/-- A length byte: the buffer of a body is taken where none is held. -/
theorem account_prepareheaderDataInfo (h : Account lost c) (hfix : c.codec.inst.codecState = .codecStateFixedHeader) (b : UInt8) :
    Account lost
      (⟨{ c.codec with
          inst := (prepareheaderDataInfo c.codec.inst b c.codec.heap c.ledger).1.1,
          heap := (prepareheaderDataInfo c.codec.inst b c.codec.heap c.ledger).1.2.2 },
        (prepareheaderDataInfo c.codec.inst b c.codec.heap c.ledger).2⟩ : Codec σ) := by
  have hnone := h.between hfix
  unfold prepareheaderDataInfo
  split
  · exact ⟨h.balance, h.between⟩
  · dsimp only
    split
    · rcases decodedLen (storeLenByte c.codec.inst b).storeRemainLen with _ | totalLen
      · exact ⟨h.balance, h.between⟩
      · dsimp only
        split
        · obtain ⟨hdeleted, hcreated⟩ := balance_takeHeaderData totalLen c.codec.heap c.ledger
          refine ⟨?_, fun hstate => absurd hstate (by simp [enterVarHeader])⟩
          have hbalance := h.balance
          simp only [hnone, held, Option.isSome_none, Bool.false_eq_true, if_false, Nat.add_zero] at hbalance
          change (takeHeaderData totalLen c.codec.heap c.ledger).2.created =
            (takeHeaderData totalLen c.codec.heap c.ledger).2.deleted + held (takeHeaderData totalLen c.codec.heap c.ledger).1.1 + lost
          rw [hcreated, hdeleted, hbalance, Nat.add_right_comm]
        · exact ⟨h.balance, fun _ => hnone⟩
    · split
      · exact ⟨h.balance, h.between⟩
      · exact ⟨h.balance, h.between⟩

theorem account_receiveLenByte (h : Account lost c) (hfix : c.codec.inst.codecState = .codecStateFixedHeader) (b : UInt8) :
    Account lost (receiveLenByte packetComplete c b).1 := by
  have hprepared := account_prepareheaderDataInfo h hfix b
  unfold receiveLenByte
  dsimp only
  split
  · exact hprepared.fail
  · split
    · split
      · exact hprepared.complete
      · exact hprepared.fail
    · exact hprepared

/-- A byte of the body is stored in the buffer that is held. -/
theorem account_receiveBodyByte (h : Account lost c) (hvar : c.codec.inst.codecState = .codecStateVarHeader) (b : UInt8) :
    Account lost (receiveBodyByte packetComplete c b).1 := by
  have hnot : ¬c.codec.inst.codecState = .codecStateFixedHeader := by
    rw [hvar]
    exact CodecStateResult.noConfusion
  have hbalance := h.balance
  unfold receiveBodyByte
  rcases hdata : c.codec.inst.headerData with _ | headerData
  · exact ⟨hbalance, fun hstate => absurd hstate (by simp)⟩
  · dsimp only
    rcases bufferUChar headerData with _ | dataBytes
    · exact h.fail
    · rw [hdata] at hbalance
      have hstored : Account lost (⟨{ c.codec with
          inst := { c.codec.inst with
            bufferOffset := c.codec.inst.bufferOffset + 1,
            headerData := some ⟨dataBytes.cells.set c.codec.inst.bufferOffset (some b)⟩ } }, c.ledger⟩ : Codec σ) :=
        ⟨hbalance, fun hstate => absurd hstate hnot⟩
      dsimp only
      split
      · exact hstored.complete
      · exact hstored

theorem account_receiveByte (h : Account lost c) (b : UInt8) : Account lost (receiveByte packetComplete c b).1 := by
  unfold receiveByte
  rcases hstate : c.codec.inst.codecState
  · dsimp only
    split
    · unfold receiveFirstByte Umqtt.receiveFirstByte
      dsimp only
      split
      · exact ⟨h.balance, h.between⟩
      · exact ⟨h.balance, h.between⟩
    · exact account_receiveLenByte h hstate b
  · exact account_receiveBodyByte h hstate b
  · exact h.fail

/-- Bytes lose nothing. -/
theorem account_bytesReceived (h : Account lost c) (buffer : Option (List UInt8)) :
    Account lost (mqttCodecBytesReceived packetComplete c buffer).1 := by
  rcases buffer with _ | _ | ⟨b, bytes⟩
  · exact h.fail
  · exact h.fail
  · exact feed_preserves (P := Account lost) (fun c b hc => account_receiveByte hc b) h (b :: bytes)

/-- A reset loses the buffer that is held. -/
theorem account_reset (h : Account lost c) :
    Account (lost + held c.codec.inst.headerData) (c.call packetComplete .reset) where
  balance := by
    have hbalance := h.balance
    change c.ledger.created = c.ledger.deleted + 0 + (lost + held c.codec.inst.headerData)
    omega
  between := fun _ => rfl

/-- The buffers that the resets of a sequence of calls lose. -/
def lostBy (packetComplete : OnPacketCompleteCallback σ) (c : Umqtt.Codec σ) : List CodecCall → Nat
  | [] => 0
  | .reset :: calls => held c.inst.headerData + lostBy packetComplete (c.call packetComplete .reset) calls
  | call :: calls => lostBy packetComplete (c.call packetComplete call) calls

/-- The account over any sequence of calls. -/
theorem account_calls (h : Account lost c) (calls : List CodecCall) :
    Account (lost + lostBy packetComplete c.codec calls) (calls.foldl (Codec.call packetComplete) c) := by
  induction calls generalizing c lost with
  | nil => exact h
  | cons call calls ih =>
    rw [List.foldl_cons]
    cases call with
    | bytesReceived buffer =>
      have hrest := ih (@account_bytesReceived _ packetComplete _ _ h buffer)
      have hcodec : (mqttCodecBytesReceived packetComplete c buffer).1.codec = c.codec.call packetComplete (.bytesReceived buffer) :=
        codec_call c (.bytesReceived buffer)
      rw [hcodec] at hrest
      exact hrest
    | reset =>
      have hrest := ih (@account_reset _ packetComplete _ _ h)
      rw [Nat.add_assoc] at hrest
      exact hrest

/-- Nothing is lost exactly when no reset finds a buffer. -/
theorem lostBy_eq_zero_iff (c : Umqtt.Codec σ) (calls : List CodecCall) :
    lostBy packetComplete c calls = 0 ↔
      ∀ pre post, calls = pre ++ .reset :: post → (pre.foldl (Umqtt.Codec.call packetComplete) c).inst.headerData = none := by
  have hheld : ∀ headerData, held headerData = 0 ↔ headerData = none := by
    intro headerData
    rcases headerData with _ | headerData <;> simp [held]
  induction calls generalizing c with
  | nil => exact iff_of_true rfl fun pre post heq => absurd heq (by simp)
  | cons call calls ih =>
    cases call with
    | bytesReceived buffer =>
      refine (ih (c.call packetComplete (.bytesReceived buffer))).trans ⟨?_, ?_⟩
      · intro h pre post heq
        cases pre with
        | nil => exact absurd heq (by simp)
        | cons first pre =>
          rw [List.cons_append, List.cons.injEq] at heq
          rw [← heq.1]
          exact h pre post heq.2
      · intro h pre post heq
        exact h (.bytesReceived buffer :: pre) post (by rw [heq]; rfl)
    | reset =>
      have hrest := ih (c.call packetComplete .reset)
      refine Nat.add_eq_zero_iff.trans ⟨?_, fun h => ⟨?_, hrest.mpr ?_⟩⟩
      · intro h pre post heq
        cases pre with
        | nil => exact (hheld _).mp h.1
        | cons first pre =>
          rw [List.cons_append, List.cons.injEq] at heq
          rw [← heq.1]
          exact hrest.mp h.2 pre post heq.2
      · exact (hheld _).mpr (h [] calls rfl)
      · intro pre post heq
        exact h (.reset :: pre) post (by rw [heq]; rfl)

/-! ## The ledger -/

/-- A created codec, before any buffer. -/
def created (heap : Heap) (callContext : σ) : Codec σ := ⟨⟨mqttCodecCreate, heap, callContext⟩, ⟨0, 0⟩⟩

/-- The ledger is balanced: what has been created has been deleted, but for the buffer that is held, and after `mqtt_codec_destroy`
without exception. -/
structure Balanced (c : Codec σ) : Prop where
  held : c.ledger.created = c.ledger.deleted + held c.codec.inst.headerData
  destroyed : (mqttCodecDestroy c).created = (mqttCodecDestroy c).deleted

/-- The buffers of the codec. After any calls on a created codec, whatever the bytes, the callback and the allocator, the ledger is
balanced exactly when each `mqtt_codec_reset` was made while `headerData` was NULL. Counting changes nothing of what the codec does. -/
theorem balanced_iff (packetComplete : OnPacketCompleteCallback σ) (heap : Heap) (callContext : σ) (calls : List CodecCall) :
    (calls.foldl (Codec.call packetComplete) (created heap callContext)).codec =
        calls.foldl (Umqtt.Codec.call packetComplete) ⟨mqttCodecCreate, heap, callContext⟩ ∧
      (Balanced (calls.foldl (Codec.call packetComplete) (created heap callContext)) ↔
        ∀ pre post, calls = pre ++ .reset :: post →
          (pre.foldl (Umqtt.Codec.call packetComplete) ⟨mqttCodecCreate, heap, callContext⟩).inst.headerData = none) := by
  refine ⟨codec_calls _ calls, ?_⟩
  have hstart : Account 0 (created heap callContext) := ⟨rfl, fun _ => rfl⟩
  have haccount := (@account_calls _ packetComplete _ _ hstart calls).balance
  have hzero := @lostBy_eq_zero_iff _ packetComplete ⟨mqttCodecCreate, heap, callContext⟩ calls
  rw [← hzero]
  have hlost : lostBy packetComplete (created heap callContext).codec calls =
    lostBy packetComplete ⟨mqttCodecCreate, heap, callContext⟩ calls := rfl
  rw [hlost] at haccount
  generalize lostBy packetComplete ⟨mqttCodecCreate, heap, callContext⟩ calls = n at haccount
  constructor
  · intro h
    have := h.held
    omega
  · rintro rfl
    refine ⟨by omega, ?_⟩
    unfold mqttCodecDestroy bufferDelete
    unfold Counted.held at haccount
    split at haccount <;> rename_i hsome
    · rw [if_pos hsome]
      simp only
      omega
    · rw [if_neg hsome]
      omega

end

/-- A PINGRESP with a remaining length of 2 is an error, after which the client resets the codec: the buffer for its body has been
created, and nobody has it. -/
theorem not_balanced_pingresp :
    let c := [CodecCall.bytesReceived (some [0xD0, 0x02]), .reset].foldl (Codec.call record) (created okHeap [])
    c.codec.inst.headerData = none ∧ c.ledger = ⟨1, 0⟩ ∧ ¬Balanced c := by
  refine ⟨by decide, by decide, fun h => absurd h.held (by decide)⟩

end Counted

end Umqtt
