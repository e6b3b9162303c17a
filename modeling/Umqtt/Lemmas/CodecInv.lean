import Umqtt.Lemmas.Frames

/-!
# What every codec keeps

`Inv` is the representation invariant of the codec object: it holds of a created codec and is kept by every byte, whatever the
byte and whatever the allocator answers, also after an error. `SameParse` relates two codec objects that differ at most in the
offset of a body that is no longer there; such codecs treat all bytes alike, whoever the callbacks are (`receiveByte_related`).
-/

namespace Umqtt

open Feed Cells

/-! ## The representation invariant -/

namespace MqttCodecInstance

/-- No length byte is stored. -/
def NoLength (i : MqttCodecInstance) : Prop := i.remainLenIndex = 0 ∧ i.storeRemainLen = clearedRemainLen

/-- The body buffer, if there is one: `BUFFER_pre_build` has failed, or the bytes before the offset are written, the others are
not, and there is at least one of these. -/
def BodyWritten (i : MqttCodecInstance) : Prop :=
  ∀ b, i.headerData = some b → b.cells = [] ∨
    ∃ (done : List UInt8) (todo : Nat), b.cells = done.map some ++ List.replicate (todo + 1) none ∧ i.bufferOffset = done.length

/-- The invariant, as far as it holds also in the middle of a length byte. -/
structure WeakInv (i : MqttCodecInstance) : Prop where
  index_le : i.remainLenIndex ≤ 4
  header : i.headerData ≠ none → i.codecState = .codecStateVarHeader
  body : i.BodyWritten
  clean : i.codecState ≠ .codecStateFixedHeader → i.NoLength
  start : i.currPacket = .unknownType → i.NoLength ∧ i.headerFlags = 0

/-- The representation invariant: also, a PINGRESP has no length byte stored, since its first one decides it. -/
structure Inv (i : MqttCodecInstance) : Prop extends WeakInv i where
  pingresp : i.currPacket = .pingrespType → i.NoLength

end MqttCodecInstance

open MqttCodecInstance

/-- A created codec keeps the invariant, and so does one that was reset. -/
theorem inv_clearCodecData : clearCodecData.Inv where
  index_le := by decide
  header := fun h => absurd rfl h
  body := fun _ h => absurd h (by simp [clearCodecData])
  clean := fun _ => ⟨rfl, rfl⟩
  start := fun _ => ⟨⟨rfl, rfl⟩, rfl⟩
  pingresp := fun _ => ⟨rfl, rfl⟩

/-- Marking the packet as an error makes the weak invariant the full one. -/
theorem WeakInv.error {i : MqttCodecInstance} (h : i.WeakInv) : ({ i with currPacket := .packetTypeError } : MqttCodecInstance).Inv where
  index_le := h.index_le
  header := h.header
  body := h.body
  clean := h.clean
  start := fun hp => ControlPacketType.noConfusion hp
  pingresp := fun hp => ControlPacketType.noConfusion hp

/-- A completed packet leaves the codec with the invariant. -/
theorem inv_complete {i : MqttCodecInstance} (hs : i.NoLength) :
    ({ i with
      currPacket := .unknownType, codecState := .codecStateFixedHeader, headerFlags := 0, headerData := none } :
      MqttCodecInstance).Inv where
  index_le := by simp only [hs.1]; decide
  header := fun hd => absurd rfl hd
  body := fun _ hb => absurd hb (by simp)
  clean := fun hc => absurd rfl hc
  start := fun _ => ⟨hs, rfl⟩
  pingresp := fun _ => hs

/-- The outcomes of `takeHeaderData`: no buffer, a buffer of size 0, or a buffer of the size asked for; only the last is a
success. -/
theorem takeHeaderData_cases (n : Nat) (heap : Heap) :
    ((takeHeaderData n heap).1 = none ∧ (takeHeaderData n heap).2.1 = .muFailure) ∨
    ((takeHeaderData n heap).1 = some ⟨[]⟩ ∧ (takeHeaderData n heap).2.1 = .muFailure) ∨
    ((takeHeaderData n heap).1 = some ⟨List.replicate n none⟩ ∧ (takeHeaderData n heap).2.1 = .zero) := by
  rw [takeHeaderData, bufferNew, Alloc.answer_takeMemory_bind]
  rcases heap.head
  · exact Or.inl ⟨rfl, rfl⟩
  · simp only [if_true, Alloc.answer_pure, bufferPreBuild, Alloc.answer_takeMemory_bind]
    rcases heap.tail.head
    · exact Or.inr (Or.inl ⟨rfl, rfl⟩)
    · exact Or.inr (Or.inr ⟨rfl, rfl⟩)

/-- What `prepareheaderDataInfo` leaves alone, and what it keeps of the invariant. After a success of the byte 0 there is no
buffer, when no length byte was stored before it. -/
theorem prepareheaderDataInfo_spec {i : MqttCodecInstance} (h : i.WeakInv) (hfix : i.codecState = .codecStateFixedHeader)
    (hp : i.currPacket ≠ .unknownType) (b : UInt8) (heap : Heap) :
    (prepareheaderDataInfo i b heap).1.currPacket = i.currPacket ∧
    (prepareheaderDataInfo i b heap).1.WeakInv ∧
    (i.NoLength → b = 0 → (prepareheaderDataInfo i b heap).1 = enterVarHeader i) := by
  have hnone : i.headerData = none := by
    by_contra hne
    exact absurd (hfix.symm.trans (h.header hne)) (by decide)
  have hstore : i.remainLenIndex < 4 → (storeLenByte i b).WeakInv := by
    intro hlt
    exact
      { index_le := hlt
        header := h.header
        body := h.body
        clean := fun hc => absurd hfix hc
        start := fun hs => absurd hs hp }
  have henter : ∀ (headerData : Option Buffer) (off : Nat),
      ({ enterVarHeader (storeLenByte i b) with bufferOffset := off, headerData := headerData } :
        MqttCodecInstance).BodyWritten →
      ({ enterVarHeader (storeLenByte i b) with bufferOffset := off, headerData := headerData } :
        MqttCodecInstance).WeakInv := fun _ _ hbody =>
    { index_le := Nat.zero_le 4
      header := fun _ => rfl
      body := hbody
      clean := fun _ => ⟨rfl, rfl⟩
      start := fun hs => absurd hs hp }
  have hzero : i.NoLength → b = 0 → decodedLen (storeLenByte i b).storeRemainLen = some 0 := by
    rintro ⟨hi, hs⟩ rfl
    simp only [storeLenByte, hi, hs]
    decide
  rw [prepareheaderDataInfo]
  by_cases hidx : i.remainLenIndex ≥ 4
  · rw [if_pos hidx]
    exact ⟨rfl, h, fun hn _ => absurd hidx (by rw [hn.1]; decide)⟩
  · rw [if_neg hidx]
    by_cases hb : b ≤ 0x7f
    · simp only [if_pos hb]
      rcases hdec : decodedLen (storeLenByte i b).storeRemainLen with _ | totalLen
      · exact ⟨rfl, hstore (by omega), fun hn h0 => absurd ((hzero hn h0).symm.trans hdec) (by simp)⟩
      · by_cases hpos : totalLen > 0
        · simp only [if_pos hpos]
          refine ⟨rfl, henter _ _ ?_, ?_⟩
          · -- the three outcomes of taking the buffer
            intro buf hbuf
            rcases takeHeaderData_cases totalLen heap with ⟨ht, -⟩ | ⟨ht, -⟩ | ⟨ht, -⟩
            · exact absurd (ht.symm.trans hbuf) (by simp)
            · rw [← Option.some.inj (ht.symm.trans hbuf)]
              exact Or.inl rfl
            · rw [← Option.some.inj (ht.symm.trans hbuf)]
              exact Or.inr ⟨[], totalLen - 1, by rw [Nat.sub_add_cancel hpos]; rfl, rfl⟩
          · intro hn h0
            have := Option.some.inj ((hzero hn h0).symm.trans hdec)
            omega
        · simp only [if_neg hpos]
          have hw := henter none i.bufferOffset (fun _ hb' => absurd hb' (by simp))
          have he : ({ enterVarHeader (storeLenByte i b) with bufferOffset := i.bufferOffset, headerData := none } :
              MqttCodecInstance) = enterVarHeader (storeLenByte i b) := by
            simp [enterVarHeader, storeLenByte, hnone]
          rw [he] at hw
          exact ⟨rfl, hw, fun _ _ => rfl⟩
    · simp only [if_neg hb]
      have hb0 : b ≠ 0 := by
        rintro rfl
        exact hb (by decide)
      by_cases hfull : (storeLenByte i b).remainLenIndex = 4
      · rw [if_pos hfull]
        exact ⟨rfl, hstore (by omega), fun _ h0 => absurd h0 hb0⟩
      · rw [if_neg hfull]
        exact ⟨rfl, hstore (by omega), fun _ h0 => absurd h0 hb0⟩

/-! ## Every byte keeps the invariant -/

section

variable {σ : Type} {packetComplete : OnPacketCompleteCallback σ}

/-- What a byte may do to the state behind the callback: nothing, or one packet with a buffer that is written throughout. -/
def DeliversWritten (packetComplete : OnPacketCompleteCallback σ) (s s' : σ) : Prop :=
  s' = s ∨ ∃ packet flags headerData,
    s' = packetComplete packet flags headerData s ∧ ∀ b, headerData = some b → Written b.cells

/-- A first byte, spelled out. -/
theorem receiveFirstByte_eq (c : Codec σ) (b : UInt8) :
    receiveFirstByte c b =
      if firstByteAccepted (packetTypeByte b) (flagValueByte b) then
        ({ c with inst := { c.inst with currPacket := packetTypeByte b, headerFlags := flagValueByte b } }, .zero)
      else
        Codec.fail { c with inst := { c.inst with currPacket := packetTypeByte b, headerFlags := flagValueByte b } } := rfl

theorem receiveFirstByte_inv {c : Codec σ} (h : c.inst.Inv) (hp : c.inst.currPacket = .unknownType)
    (b : UInt8) :
    (receiveFirstByte c b).1.inst.Inv ∧ (receiveFirstByte c b).1.callContext = c.callContext := by
  have hweak : ({ c.inst with currPacket := packetTypeByte b, headerFlags := flagValueByte b } : MqttCodecInstance).WeakInv :=
    { index_le := h.index_le
      header := h.header
      body := h.body
      clean := h.clean
      start := fun hs => absurd hs (packetTypeByte_ne_unknownType b) }
  rw [receiveFirstByte_eq]
  split
  · exact ⟨{ toWeakInv := hweak, pingresp := fun _ => (h.start hp).1 }, rfl⟩
  · exact ⟨WeakInv.error hweak, rfl⟩

theorem receiveLenByte_inv {c : Codec σ} (h : c.inst.Inv) (hfix : c.inst.codecState = .codecStateFixedHeader)
    (hp : c.inst.currPacket ≠ .unknownType) (b : UInt8) :
    (receiveLenByte packetComplete c b).1.inst.Inv ∧
      DeliversWritten packetComplete c.callContext (receiveLenByte packetComplete c b).1.callContext := by
  obtain ⟨hcurr, hweak, hzero⟩ := prepareheaderDataInfo_spec h.toWeakInv hfix hp b c.heap
  rw [receiveLenByte]
  by_cases hr : (prepareheaderDataInfo c.inst b c.heap).2.1 ≠ .zero
  · simp only [if_pos hr]
    exact ⟨WeakInv.error hweak, Or.inl rfl⟩
  · simp only [if_neg hr]
    by_cases ht : (prepareheaderDataInfo c.inst b c.heap).1.currPacket = .pingrespType
    · simp only [if_pos ht]
      by_cases h0 : b = 0
      · -- the first length byte of a PINGRESP: there is no buffer
        have he := hzero (h.pingresp (hcurr ▸ ht)) h0
        simp only [if_pos h0]
        have hdata : c.inst.headerData = none := by
          by_contra hne
          exact absurd (hfix.symm.trans (h.header hne)) (by decide)
        refine ⟨inv_complete ?_, Or.inr ⟨_, _, _, rfl, ?_⟩⟩
        · rw [he]
          exact ⟨rfl, rfl⟩
        · intro buf hbuf
          rw [he] at hbuf
          exact absurd (hdata.symm.trans hbuf) (by simp)
      · simp only [if_neg h0]
        exact ⟨WeakInv.error hweak, Or.inl rfl⟩
    · simp only [if_neg ht]
      exact ⟨{ toWeakInv := hweak, pingresp := fun h' => absurd h' ht }, Or.inl rfl⟩

theorem receiveBodyByte_inv {c : Codec σ} (h : c.inst.Inv) (hvar : c.inst.codecState = .codecStateVarHeader) (b : UInt8) :
    (receiveBodyByte packetComplete c b).1.inst.Inv ∧
      DeliversWritten packetComplete c.callContext (receiveBodyByte packetComplete c b).1.callContext := by
  have hclean : c.inst.NoLength := h.clean (by rw [hvar]; decide)
  rw [receiveBodyByte]
  rcases hdata : c.inst.headerData with _ | buf
  · refine ⟨{ index_le := h.index_le, header := fun hne => absurd hdata hne, body := h.body, clean := fun _ => hclean,
              start := h.start, pingresp := h.pingresp }, Or.inl rfl⟩
  · simp only
    rcases h.body buf hdata with hempty | ⟨done, todo, hcells, hoff⟩
    · rw [bufferUChar, if_pos hempty]
      exact ⟨WeakInv.error h.toWeakInv, Or.inl rfl⟩
    · have hne : ¬(buf.cells = []) := by simp [hcells]
      have hset : buf.cells.set c.inst.bufferOffset (some b) = (done ++ [b]).map some ++ List.replicate todo none := by
        rw [hcells, hoff, set_done _ _ _ (by simp)]
        simp
      simp only [bufferUChar, if_neg hne, Buffer.start, hset, bufferLength]
      cases todo with
      | zero =>
        rw [if_pos (by simp [hoff])]
        refine ⟨inv_complete hclean, Or.inr ⟨_, _, _, rfl, ?_⟩⟩
        intro b' hb'
        rw [← Option.some.inj hb']
        simpa using written_map_some (done ++ [b])
      | succ todo =>
        rw [if_neg (by simp [hoff])]
        refine ⟨{ index_le := h.index_le, header := fun _ => hvar, clean := fun _ => hclean, start := h.start,
                  pingresp := h.pingresp, body := ?_ }, Or.inl rfl⟩
        intro b' hb'
        rw [← Option.some.inj hb']
        exact Or.inr ⟨done ++ [b], todo, rfl, by simp [hoff]⟩

/-- A byte keeps the invariant, and delivers nothing or one packet with a buffer that is written throughout. -/
theorem receiveByte_inv {c : Codec σ} (h : c.inst.Inv) (b : UInt8) :
    (receiveByte packetComplete c b).1.inst.Inv ∧
      DeliversWritten packetComplete c.callContext (receiveByte packetComplete c b).1.callContext := by
  rw [receiveByte]
  rcases hstate : c.inst.codecState
  · by_cases hp : c.inst.currPacket = .unknownType
    · simp only [if_pos hp]
      exact ⟨(receiveFirstByte_inv h hp b).1, Or.inl (receiveFirstByte_inv h hp b).2⟩
    · simp only [if_neg hp]
      exact receiveLenByte_inv h hstate hp b
  · exact receiveBodyByte_inv h hstate b
  · exact ⟨WeakInv.error h.toWeakInv, Or.inl rfl⟩

/-- What every delivery of a written buffer keeps, a call keeps. -/
theorem call_inv {P : σ → Prop} (hP : ∀ s s', DeliversWritten packetComplete s s' → P s → P s') {c : Codec σ} (h : c.inst.Inv)
    (hs : P c.callContext) (call : CodecCall) :
    (c.call packetComplete call).inst.Inv ∧ P (c.call packetComplete call).callContext := by
  have hfail : c.fail.1.inst.Inv ∧ P c.fail.1.callContext := ⟨WeakInv.error h.toWeakInv, hs⟩
  rcases call with buffer | _
  · rcases buffer with _ | _ | ⟨b, bs⟩
    · exact hfail
    · exact hfail
    · refine feed_preserves (P := fun c : Codec σ => c.inst.Inv ∧ P c.callContext) (fun c b hc => ?_) ⟨h, hs⟩ (b :: bs)
      exact ⟨(receiveByte_inv hc.1 b).1, hP _ _ (receiveByte_inv hc.1 b).2 hc.2⟩
  · exact ⟨inv_clearCodecData, hs⟩

/-- What every delivery of a written buffer keeps, any sequence of calls keeps. -/
theorem calls_inv {P : σ → Prop} (hP : ∀ s s', DeliversWritten packetComplete s s' → P s → P s') {c : Codec σ} (h : c.inst.Inv)
    (hs : P c.callContext) (calls : List CodecCall) :
    (calls.foldl (Codec.call packetComplete) c).inst.Inv ∧ P (calls.foldl (Codec.call packetComplete) c).callContext := by
  induction calls generalizing c with
  | nil => exact ⟨h, hs⟩
  | cons call calls ih =>
    obtain ⟨h1, h2⟩ := call_inv hP h hs call
    exact ih h1 h2

end

/-! ## Codecs that treat all bytes alike -/

/-- The codec objects agree, up to the offset of a body that is no longer there. -/
def SameParse (i j : MqttCodecInstance) : Prop := ∃ off, i = { j with bufferOffset := off } ∧ (j.headerData = none ∨ i = j)

theorem SameParse.refl (i : MqttCodecInstance) : SameParse i i := ⟨i.bufferOffset, rfl, Or.inr rfl⟩

/-- Two codecs between two packets agree. -/
theorem sameParse_startAt (off off' : Nat) : SameParse (startAt off) (startAt off') := ⟨off, rfl, Or.inl rfl⟩

/-- The length byte: the offset that a length that is not 0 sets is the only place where codecs that agree could differ. -/
theorem prepareheaderDataInfo_sameParse (j : MqttCodecInstance) (hj : j.headerData = none) (off : Nat) (b : UInt8) (heap : Heap) :
    (prepareheaderDataInfo { j with bufferOffset := off } b heap).2 = (prepareheaderDataInfo j b heap).2 ∧
      SameParse (prepareheaderDataInfo { j with bufferOffset := off } b heap).1 (prepareheaderDataInfo j b heap).1 := by
  have hlen : storeLenByte { j with bufferOffset := off } b = { storeLenByte j b with bufferOffset := off } := rfl
  have henter : enterVarHeader { storeLenByte j b with bufferOffset := off } =
      { enterVarHeader (storeLenByte j b) with bufferOffset := off } := rfl
  simp only [prepareheaderDataInfo, hlen, henter]
  by_cases hidx : j.remainLenIndex ≥ 4
  · simp only [if_pos hidx]
    exact ⟨trivial, off, rfl, Or.inl hj⟩
  · simp only [if_neg hidx]
    by_cases hb : b ≤ 0x7f
    · simp only [if_pos hb]
      rcases decodedLen (storeLenByte j b).storeRemainLen with _ | totalLen
      · exact ⟨rfl, off, rfl, Or.inl hj⟩
      · by_cases hpos : totalLen > 0
        · simp only [if_pos hpos]
          exact ⟨trivial, SameParse.refl _⟩
        · simp only [if_neg hpos]
          exact ⟨trivial, off, rfl, Or.inl hj⟩
    · simp only [if_neg hb]
      by_cases hfull : (storeLenByte j b).remainLenIndex = 4
      · simp only [if_pos hfull]
        exact ⟨trivial, off, rfl, Or.inl hj⟩
      · simp only [if_neg hfull]
        exact ⟨trivial, off, rfl, Or.inl hj⟩

section

variable {σ τ : Type} {cb : OnPacketCompleteCallback σ} {cb' : OnPacketCompleteCallback τ} {R : σ → τ → Prop}

/-- Two codecs agree: their objects do, the allocator answers both alike, and the states behind their callbacks are related. -/
structure Related (R : σ → τ → Prop) (c : Codec σ) (c' : Codec τ) : Prop where
  inst : SameParse c.inst c'.inst
  heap : c.heap = c'.heap
  context : R c.callContext c'.callContext

/-- Callbacks that take related states to related states. -/
def RelatedCallbacks (R : σ → τ → Prop) (cb : OnPacketCompleteCallback σ) (cb' : OnPacketCompleteCallback τ) : Prop :=
  ∀ packet flags headerData s t, R s t → R (cb packet flags headerData s) (cb' packet flags headerData t)

/-- A change that leaves the offset alone and takes no buffer keeps the agreement. -/
theorem SameParse.map {i j : MqttCodecInstance} (h : SameParse i j) (f : MqttCodecInstance → MqttCodecInstance)
    (hoff : ∀ k off, f { k with bufferOffset := off } = { f k with bufferOffset := off })
    (hnone : ∀ k, k.headerData = none → (f k).headerData = none) : SameParse (f i) (f j) := by
  obtain ⟨off, hi, hor⟩ := h
  refine ⟨off, by rw [hi, hoff], ?_⟩
  rcases hor with hj | rfl
  · exact Or.inl (hnone j hj)
  · exact Or.inr rfl

theorem SameParse.currPacket {i j : MqttCodecInstance} (h : SameParse i j) : i.currPacket = j.currPacket := by
  obtain ⟨off, rfl, -⟩ := h
  rfl

theorem SameParse.codecState {i j : MqttCodecInstance} (h : SameParse i j) : i.codecState = j.codecState := by
  obtain ⟨off, rfl, -⟩ := h
  rfl

theorem SameParse.headerFlags {i j : MqttCodecInstance} (h : SameParse i j) : i.headerFlags = j.headerFlags := by
  obtain ⟨off, rfl, -⟩ := h
  rfl

theorem SameParse.headerData {i j : MqttCodecInstance} (h : SameParse i j) : i.headerData = j.headerData := by
  obtain ⟨off, rfl, -⟩ := h
  rfl

theorem Related.fail {c : Codec σ} {c' : Codec τ} (h : Related R c c') :
    c.fail.2 = c'.fail.2 ∧ Related R c.fail.1 c'.fail.1 :=
  ⟨rfl, h.inst.map (fun k => { k with currPacket := .packetTypeError }) (fun _ _ => rfl) (fun _ hk => hk), h.heap, h.context⟩

theorem Related.complete (hcb : RelatedCallbacks R cb cb') {c : Codec σ} {c' : Codec τ} (h : Related R c c') :
    Related R (completePacketData cb c) (completePacketData cb' c') where
  inst := h.inst.map
    (fun k => { k with currPacket := .unknownType, codecState := .codecStateFixedHeader, headerFlags := 0, headerData := none })
    (fun _ _ => rfl) (fun _ _ => rfl)
  heap := h.heap
  context := by
    simp only [completePacketData, h.inst.currPacket, h.inst.headerFlags, h.inst.headerData]
    exact hcb _ _ _ _ _ h.context

theorem receiveFirstByte_related {c : Codec σ} {c' : Codec τ} (h : Related R c c') (b : UInt8) :
    (receiveFirstByte c b).2 = (receiveFirstByte c' b).2 ∧ Related R (receiveFirstByte c b).1 (receiveFirstByte c' b).1 := by
  have hset : Related R
      { c with inst := { c.inst with currPacket := packetTypeByte b, headerFlags := flagValueByte b } }
      { c' with inst := { c'.inst with currPacket := packetTypeByte b, headerFlags := flagValueByte b } } :=
    ⟨h.inst.map (fun k => { k with currPacket := packetTypeByte b, headerFlags := flagValueByte b }) (fun _ _ => rfl)
      (fun _ hk => hk), h.heap, h.context⟩
  rw [receiveFirstByte_eq, receiveFirstByte_eq]
  split
  · exact ⟨rfl, hset⟩
  · exact hset.fail

theorem receiveLenByte_related (hcb : RelatedCallbacks R cb cb') {c : Codec σ} {c' : Codec τ} (h : Related R c c') (b : UInt8) :
    (receiveLenByte cb c b).2 = (receiveLenByte cb' c' b).2 ∧
      Related R (receiveLenByte cb c b).1 (receiveLenByte cb' c' b).1 := by
  have hprep : (prepareheaderDataInfo c.inst b c.heap).2 = (prepareheaderDataInfo c'.inst b c'.heap).2 ∧
      SameParse (prepareheaderDataInfo c.inst b c.heap).1 (prepareheaderDataInfo c'.inst b c'.heap).1 := by
    rw [h.heap]
    obtain ⟨off, hi, hj | heq⟩ := h.inst
    · rw [hi]
      exact prepareheaderDataInfo_sameParse c'.inst hj off b c'.heap
    · rw [heq]
      exact ⟨rfl, SameParse.refl _⟩
  have hset : Related R
      { c with
        inst := (prepareheaderDataInfo c.inst b c.heap).1, heap := (prepareheaderDataInfo c.inst b c.heap).2.2 }
      { c' with
        inst := (prepareheaderDataInfo c'.inst b c'.heap).1, heap := (prepareheaderDataInfo c'.inst b c'.heap).2.2 } :=
    ⟨hprep.2, by rw [hprep.1], h.context⟩
  simp only [receiveLenByte, hprep.2.currPacket, hprep.1]
  split
  · exact hprep.1 ▸ hset.fail
  · split
    · split
      · exact ⟨rfl, hprep.1 ▸ hset.complete hcb⟩
      · exact hprep.1 ▸ hset.fail
    · exact ⟨rfl, hprep.1 ▸ hset⟩

theorem receiveBodyByte_related (hcb : RelatedCallbacks R cb cb') {c : Codec σ} {c' : Codec τ} (h : Related R c c') (b : UInt8) :
    (receiveBodyByte cb c b).2 = (receiveBodyByte cb' c' b).2 ∧
      Related R (receiveBodyByte cb c b).1 (receiveBodyByte cb' c' b).1 := by
  rcases hdata : c'.inst.headerData with _ | buf
  · simp only [receiveBodyByte, h.inst.headerData, hdata]
    exact ⟨trivial, h.inst.map (fun k => { k with codecState := .codecStatePayload, headerData := none }) (fun _ _ => rfl)
      (fun _ _ => rfl), h.heap, h.context⟩
  · -- with a body in progress the objects are equal
    have heq : c.inst = c'.inst := by
      obtain ⟨off, hi, hj | heq⟩ := h.inst
      · exact absurd (hj.symm.trans hdata) (by simp)
      · exact heq
    simp only [receiveBodyByte, heq, hdata]
    rcases bufferUChar buf with _ | dataBytes
    · exact h.fail
    · simp only
      split
      · refine ⟨rfl, Related.complete hcb ⟨?_, h.heap, h.context⟩⟩
        exact SameParse.refl _
      · exact ⟨rfl, SameParse.refl _, h.heap, h.context⟩

/-- Codecs that agree answer every byte alike, and agree after it. -/
theorem receiveByte_related (hcb : RelatedCallbacks R cb cb') {c : Codec σ} {c' : Codec τ} (h : Related R c c') (b : UInt8) :
    (receiveByte cb c b).2 = (receiveByte cb' c' b).2 ∧ Related R (receiveByte cb c b).1 (receiveByte cb' c' b).1 := by
  simp only [receiveByte, h.inst.codecState, h.inst.currPacket]
  split
  · split
    · exact receiveFirstByte_related h b
    · exact receiveLenByte_related hcb h b
  · exact receiveBodyByte_related hcb h b
  · exact h.fail

/-- Codecs that agree answer every call alike, and agree after it. -/
theorem bytesReceived_related (hcb : RelatedCallbacks R cb cb') {c : Codec σ} {c' : Codec τ} (h : Related R c c')
    (buffer : Option (List UInt8)) :
    (mqttCodecBytesReceived cb c buffer).2 = (mqttCodecBytesReceived cb' c' buffer).2 ∧
      Related R (mqttCodecBytesReceived cb c buffer).1 (mqttCodecBytesReceived cb' c' buffer).1 := by
  rcases buffer with _ | _ | ⟨b, bs⟩
  · exact h.fail
  · exact h.fail
  · exact feed_related (R := Related R) (fun _ _ b hR => receiveByte_related hcb hR b) h (b :: bs)

/-- What the callback preserves, a call preserves. -/
theorem bytesReceived_preserves {P : σ → Prop} (hP : ∀ packet flags headerData s, P s → P (cb packet flags headerData s))
    {c : Codec σ} (hc : P c.callContext) (buffer : Option (List UInt8)) :
    P (mqttCodecBytesReceived cb c buffer).1.callContext := by
  have hrel : Related (fun s (_ : Unit) => P s) c ⟨c.inst, c.heap, ()⟩ := ⟨SameParse.refl _, rfl, hc⟩
  have hcb : RelatedCallbacks (fun s (_ : Unit) => P s) cb (fun _ _ _ t => t) :=
    fun packet flags headerData s _ h => hP packet flags headerData s h
  exact (bytesReceived_related hcb hrel buffer).2.context

end

end Umqtt
