import Umqtt.Lemmas.CallRuns
import Umqtt.Lemmas.Nested

/-!
# The return codes of a SUBACK

A SUBACK whose codes pass the check is delivered with its packet id and its codes, one by one and in order. The number of codes is the
length of the body less 2, which wraps around for a body of one byte: no memory can be counted for so many codes.
-/

namespace Umqtt

open Past Alloc

/-! ## The codes -/

/-- The values 0, 1 and 2 are qualities of service. -/
theorem toByte_subackQosValue {code : UInt8} (h : code ≤ 2) : (subackQosValue code).toByte = code := by
  have hle : code.toNat ≤ 2 := UInt8.le_iff_toNat_le.mp h
  unfold subackQosValue
  split
  · rfl
  · rfl
  · rfl
  · rename_i h0 h1 h2
    have hcases : code.toNat = 0 ∨ code.toNat = 1 ∨ code.toNat = 2 := by omega
    rcases hcases with hc | hc | hc
    · exact absurd (UInt8.toNat.inj hc) h0
    · exact absurd (UInt8.toNat.inj hc) h1
    · exact absurd (UInt8.toNat.inj hc) h2

/-- Any other value is a failure. -/
theorem subackQosValue_failure {code : UInt8} (h : ¬code ≤ 2) : subackQosValue code = .deliverFailure := by
  unfold subackQosValue
  split
  · exact absurd (by decide) h
  · exact absurd (by decide) h
  · exact absurd (by decide) h
  · rfl

/-- What the event of a SUBACK should say: the packet id, and one quality of service for each byte after it, in order. -/
structure DecodesSuback (body : List UInt8) (hlen : 3 ≤ body.length) (suback : SubscribeAck) : Prop where
  packetId : suback.packetId.toNat = 256 * body[0].toNat + body[1].toNat
  qosCount : suback.qosReturn.length = body.length - 2
  qosReturn : ∀ (i : Nat) (hi : i + 2 < body.length), ∃ qosValue, suback.qosReturn[i]? = some qosValue ∧
    if body[i + 2] ≤ 2 then qosValue.toByte = body[i + 2] else qosValue = .deliverFailure

/-- The id and the codes of a body are what its event should say. -/
theorem decodesSuback (body : List UInt8) (hlen : 3 ≤ body.length) :
    DecodesSuback body hlen { packetId := idOf body, qosReturn := (body.drop 2).map subackQosValue } where
  packetId := by
    have h0 := body[0].toNat_lt
    have h1 := body[1].toNat_lt
    have hid : idOf body = (256 : UInt16) * body[0].toUInt16 + body[1].toUInt16 := by
      rw [idOf, byteutilReadUint16, if_pos (by omega), List.getElem?_eq_getElem (by omega), List.getElem?_eq_getElem (by omega)]
      rfl
    rw [hid]
    simp only [UInt16.toNat_add, UInt16.toNat_mul, UInt8.toNat_toUInt16, UInt16.reduceToNat]
    omega
  qosCount := by rw [List.length_map, List.length_drop]
  qosReturn := by
    intro i hi
    refine ⟨subackQosValue body[i + 2], ?_, ?_⟩
    · rw [List.getElem?_map, List.getElem?_drop, Nat.add_comm 2 i, List.getElem?_eq_getElem hi]
      rfl
    · split
      · rename_i hle
        exact toByte_subackQosValue hle
      · rename_i hgt
        exact subackQosValue_failure hgt

/-! ## Events that are nested in a call -/

/-- The only events are those of DISCONNECTs, at once after their sends have completed. -/
def OnlyCompletions (added : List Action) : Prop :=
  Always (fun before a => ∀ actionResult, a = .operation actionResult →
    actionResult = .onDisconnect ∧ before.getLast? = some (.event (.sendComplete .ioSendOk))) added

theorem onlyCompletions_of_none {l : List Action} (h : ∀ a ∈ l, ∀ actionResult, a ≠ .operation actionResult) : OnlyCompletions l :=
  fun pre a post heq actionResult ha => absurd ha (h a (by simp [heq]) actionResult)

theorem OnlyCompletions.append {l l' : List Action} (h : OnlyCompletions l) (h' : OnlyCompletions l') : OnlyCompletions (l ++ l') :=
  Always.append h fun pre a post heq actionResult ha => by
    obtain ⟨hresult, hlast⟩ := h' pre a post heq actionResult ha
    exact ⟨hresult, by rw [List.getLast?_append, hlast]; rfl⟩

theorem Action.Plain.not_operation {a : Action} (h : a.Plain) (actionResult : MqttClientEventResult) : a ≠ .operation actionResult := by
  rintro rfl
  exact h

/-- A run of callbacks delivers nothing else. -/
theorem onlyCompletions_ioRun {s t : Session} (h : IoRun s t) : ∃ l, t.history = s.history ++ l ∧ OnlyCompletions l := by
  induction h with
  | refl s => exact ⟨[], (List.append_nil _).symm, always_nil⟩
  | trans _ _ ih ih' =>
    obtain ⟨l, hh, hl⟩ := ih
    obtain ⟨l', hh', hl'⟩ := ih'
    exact ⟨l ++ l', by rw [hh', hh, List.append_assoc], hl.append hl'⟩
  | direct hl hh _ =>
    refine ⟨_, hh, ?_⟩
    rcases entries_local hl with hplain | ⟨-, rfl⟩
    · exact onlyCompletions_of_none fun a ha => (hplain a ha).not_operation
    · have hsent : OnlyCompletions [.event (.sendComplete .ioSendOk)] := onlyCompletions_of_none (by simp)
      refine always_snoc.mpr ⟨hsent, ?_⟩
      intro actionResult ha
      exact ⟨(Action.operation.inj ha).symm, rfl⟩
  | @fail s t e _ _ _ ih =>
    obtain ⟨l, hh, hl⟩ := ih
    rw [history_failing, List.append_assoc] at hh
    refine ⟨_, hh, OnlyCompletions.append (onlyCompletions_of_none fun a ha => ?_) hl⟩
    rcases List.mem_append.mp ha with ha | ha
    · rcases mem_reportOf ha with rfl | rfl <;> simp
    · rw [List.mem_singleton.mp ha]
      simp
  | @connect s u t packet _ _ _ hh _ _ ih =>
    obtain ⟨l, hh', hl⟩ := ih
    obtain ⟨more, hf, hmore⟩ := finishes t u.env.send.head
    refine ⟨[.event (.openComplete .ioOpenOk), .connPacket (some packet), .xioSend u.client.xioHandle packet u.env.send.head] ++
      (l ++ more), ?_, ?_⟩
    · rw [hmore, hh', Session.handOver, Session.log, hh]
      simp
    · refine OnlyCompletions.append (onlyCompletions_of_none (by simp)) (hl.append (onlyCompletions_of_none fun a ha => ?_))
      exact (plain_finishes hf a ha).not_operation

/-! ## The packet -/

/-- The return codes are allocated: the size of the memory for them can be counted, and the memory is there. -/
def CodesAllocated (s : Session) (remainLen : Nat) : Prop :=
  safeMultiplySizeT sizeofQosValue remainLen ≠ sizeMax ∧ Meets s.env.heap 1

/-- As many codes as memory can be counted for are less than a `size_t` can count. -/
theorem lt_of_safeMultiplySizeT {n : Nat} (h : safeMultiplySizeT sizeofQosValue n ≠ sizeMax) : n + 2 ≤ sizeMax := by
  have hmax : sizeMax = 18446744073709551615 := rfl
  rw [safeMultiplySizeT, sizeofQosValue] at h
  generalize sizeMax = m at hmax h ⊢
  split at h
  · exact absurd rfl h
  · omega

/-- Codes that pass the check are delivered. -/
theorem processSuback_met {dispatch : List IoEvent → Session → Session} {s : Session} {body : List UInt8} (hlen : 2 ≤ body.length)
    (hcodes : ∀ code ∈ body.drop 2, code &&& 0x7C = 0) (halloc : CodesAllocated s (body.length - 2)) :
    processSuback dispatch s body =
      (s.takeAnswers 1).log (.operation (.onSubscribeAck { packetId := idOf body, qosReturn := (body.drop 2).map subackQosValue })) := by
  obtain ⟨hsize, hmet⟩ := halloc
  have hle := lt_of_safeMultiplySizeT hsize
  have hid : byteutilReadUint16 body 0 body.length = (idOf body, 2) := by
    rw [idOf, byteutilReadUint16, if_pos hlen]
  have htake : s.alloc takeMemory = (some (), s.takeAnswers 1) := alloc_met needs_takeMemory (fun _ _ _ _ => rfl) hmet
  have hremain : subackRemainLen body.length = body.length - 2 := subackRemainLen_eq hlen (by omega)
  simp only [processSuback, hid]
  rw [hremain, processSubackCodes, if_pos hsize, htake]
  simp only [subackLoop_eq body (body.length - 2) 2 [] (by omega) hcodes, List.nil_append]

/-- For a body of one byte there is no size: what is reported is that there is no memory. -/
theorem processSuback_one {dispatch : List IoEvent → Session → Session} {s : Session} {body : List UInt8} (hlen : body.length = 1) :
    processSuback dispatch s body = setErrorCallback dispatch s .memoryError := by
  have hsize : ¬safeMultiplySizeT sizeofQosValue (subackRemainLen body.length) ≠ sizeMax := by
    intro hne
    exact absurd (le_of_safeMultiplySizeT hne) (by omega)
  simp only [processSuback]
  rw [processSubackCodes, if_neg hsize]

/-- What `set_error_callback` adds: its entry, and after it no event but of DISCONNECTs. -/
theorem onlyCompletions_setErrorCallback (depth : Nat) (s : Session) {e : MqttClientEventError} (he : e ≠ .noPingResponse) :
    ∃ added, (setErrorCallback (deliver depth) s e).history = s.history ++ .setErrorCallback e :: added ∧
      OnlyCompletions (.setErrorCallback e :: added) := by
  obtain ⟨added, hh, -⟩ := adds_setErrorCallback (P := fun _ => True) (nested_deliver depth) (fun _ _ => trivial) s (e := e) trivial
  obtain ⟨l, hh', hl⟩ := onlyCompletions_ioRun (ioRun_setErrorCallback (ioRun_deliver depth) s he)
  rw [Session.log, List.append_assoc] at hh
  have hsame : l = .setErrorCallback e :: added := List.append_cancel_left (hh'.symm.trans hh)
  exact ⟨added, hh, hsame ▸ hl⟩

/-- A SUBACK is decoded exactly. With at least one return code, all with the bits 6 to 2 clear, and memory for them, exactly its event
is delivered and no error reported. With a body of one byte an error is reported, and no event of the packet is delivered. -/
theorem suback_decoded (depth : Nat) (s : Session) (flags : UInt8) (headerData : Buffer) :
    (∀ hlen : 3 ≤ headerData.bytes.length, (∀ code ∈ headerData.bytes.drop 2, code &&& 0x7C = 0) →
        CodesAllocated s (headerData.bytes.length - 2) →
        ∃ suback, DecodesSuback headerData.bytes hlen suback ∧
          (recvCompleteCallback (deliver depth) .subackType flags (some headerData) s).history =
            s.history ++ [.packet .subackType flags (some headerData), .operation (.onSubscribeAck suback)]) ∧
      (headerData.bytes.length = 1 → ∃ added,
        (recvCompleteCallback (deliver depth) .subackType flags (some headerData) s).history =
            s.history ++ .packet .subackType flags (some headerData) :: .setErrorCallback .memoryError :: added ∧
          OnlyCompletions (.setErrorCallback .memoryError :: added)) := by
  have hpacket : ∀ hpos : headerData.bytes.length > 0,
      recvCompleteCallback (deliver depth) .subackType flags (some headerData) s =
        processSuback (deliver depth) (s.log (.packet .subackType flags (some headerData))) headerData.bytes :=
    fun hpos => if_pos (Or.inl hpos)
  refine ⟨fun hlen hcodes halloc => ⟨_, decodesSuback headerData.bytes hlen, ?_⟩, ?_⟩
  · have hlogged : CodesAllocated (s.log (.packet .subackType flags (some headerData))) (headerData.bytes.length - 2) :=
      ⟨halloc.1, halloc.2⟩
    rw [hpacket (by omega), processSuback_met (by omega) hcodes hlogged]
    simp [Session.log, Session.takeAnswers]
  · intro hlen
    rw [hpacket (by omega), processSuback_one hlen]
    obtain ⟨added, hh, hadded⟩ := onlyCompletions_setErrorCallback depth (s.log (.packet .subackType flags (some headerData)))
      (e := .memoryError) MqttClientEventError.noConfusion
    exact ⟨added, by rw [hh, Session.log, List.append_assoc]; rfl, hadded⟩

/-- The packet id 5, a granted QoS 1 and a refusal. -/
theorem suback_decoded_two :
    let s := (mqttClientInit true calmEnv okHeap).callContext
    let headerData := Buffer.ofBytes [0, 5, 1, 0x80]
    ∃ (hlen : 3 ≤ headerData.bytes.length) (suback : SubscribeAck), DecodesSuback headerData.bytes hlen suback ∧
      (recvCompleteCallback (deliver 1) .subackType 0 (some headerData) s).history =
        s.history ++ [.packet .subackType 0 (some headerData), .operation (.onSubscribeAck suback)] := by
  intro s headerData
  have hbytes : headerData.bytes = [0, 5, 1, 0x80] := bytes_ofBytes _
  have hlen : 3 ≤ headerData.bytes.length := by
    rw [hbytes]
    decide
  have hcodes : ∀ code ∈ headerData.bytes.drop 2, code &&& 0x7C = 0 := by
    rw [hbytes]
    decide +kernel
  have halloc : CodesAllocated s (headerData.bytes.length - 2) := by
    rw [hbytes]
    exact ⟨by decide, meets_okHeap 1⟩
  exact ⟨hlen, (suback_decoded 1 s 0 headerData).1 hlen hcodes halloc⟩

end Umqtt
