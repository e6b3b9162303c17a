import Umqtt.Lemmas.Reports

/-!
# A packet is delivered or rejected

`recvCompleteCallback` reports a packet as one event or message, or as one error. The exceptions are a SUBACK, whose decoding goes on
after a return code that is an error, and whose length is not checked before the return codes are counted, and a packet without a body,
which is not handled.
-/

namespace Umqtt

/-- The types that `recvCompleteCallback` handles. -/
def Handled (packet : ControlPacketType) : Prop :=
  packet ∈ [ControlPacketType.connackType, .publishType, .pubackType, .pubrecType, .pubrelType, .pubcompType, .subackType,
    .unsubackType, .pingrespType]

instance (packet : ControlPacketType) : Decidable (Handled packet) := inferInstanceAs (Decidable (_ ∈ _))

/-- The contents of the packet are rejected. -/
def Rejects (reports : List Action) : Prop :=
  .setErrorCallback .communicationError ∈ reports ∨ .setErrorCallback .parseError ∈ reports

instance (reports : List Action) : Decidable (Rejects reports) := inferInstanceAs (Decidable (_ ∨ _))

/-- A packet whose contents are rejected is one error and nothing else; any other packet that is handled is one event or message and no
error. -/
def AllOrNothing (packet : ControlPacketType) (reports : List Action) : Prop :=
  (Rejects reports → ∃ e, reports = [.setErrorCallback e]) ∧
    (¬Rejects reports → Handled packet → ∃ a, reports = [a] ∧ ∀ e, a ≠ .setErrorCallback e)

/-- A packet that is handled has a body or is a PINGRESP, and a SUBACK has room for its packet id, and return codes that pass the
check. -/
def DecodedWhole (packet : ControlPacketType) (body : List UInt8) : Prop :=
  Handled packet → (body ≠ [] ∨ packet = .pingrespType) ∧
    (packet = .subackType → safeMultiplySizeT sizeofQosValue (subackRemainLen body.length) ≠ sizeMax ∧
      ∀ code ∈ body.drop 2, code &&& 0x7C = 0)

/-- One error is all or nothing, when it says that the contents are rejected. -/
theorem allOrNothing_error (packet : ControlPacketType) {e : MqttClientEventError} (he : e = .communicationError ∨ e = .parseError) :
    AllOrNothing packet [.setErrorCallback e] := by
  have hrejects : Rejects [.setErrorCallback e] := by
    rcases he with rfl | rfl
    · exact Or.inl (List.mem_singleton_self _)
    · exact Or.inr (List.mem_singleton_self _)
  exact ⟨fun _ => ⟨e, rfl⟩, fun h => absurd hrejects h⟩

/-- One event or message is all or nothing. -/
theorem allOrNothing_single (packet : ControlPacketType) {a : Action} (ha : ∀ e, a ≠ .setErrorCallback e) :
    AllOrNothing packet [a] := by
  refine ⟨fun h => ?_, fun _ _ => ⟨a, rfl, ha⟩⟩
  rcases h with h | h
  · exact absurd (List.mem_singleton.mp h).symm (ha _)
  · exact absurd (List.mem_singleton.mp h).symm (ha _)

/-- What a packet says is all or nothing, unless it is handled and says nothing. -/
theorem allOrNothing_heardReports {packet : ControlPacketType} {errorType : MqttClientEventError}
    (he : errorType = .communicationError ∨ errorType = .parseError) (ack : MqttClientAckOption) {x : Option Heard}
    (hx : x = some .nothing → ¬Handled packet) : AllOrNothing packet (heardReports errorType ack x) := by
  rcases x with _ | m | actionResult | _
  · exact allOrNothing_error packet he
  · exact allOrNothing_single packet fun _ => Action.noConfusion
  · exact allOrNothing_single packet fun _ => Action.noConfusion
  · refine ⟨fun h => ?_, fun _ hh => absurd hh (hx rfl)⟩
    simp [Rejects, heardReports] at h

/-- A packet that says nothing is not handled. -/
theorem not_handled_of_heard {packet : ControlPacketType} {flags : UInt8} {body : List UInt8}
    (h : heard packet flags body = some .nothing) : ¬Handled packet := by
  intro hh
  cases packet with
  | connackType | pubackType | pubrecType | pubrelType | pubcompType | subackType | unsubackType =>
    simp only [heard] at h
    split at h <;> simp at h
  | publishType =>
    obtain ⟨m, -, hm⟩ := Option.map_eq_some_iff.mp h
    exact Heard.noConfusion hm
  | pingrespType => simp [heard] at h
  | _ => exact absurd hh (by decide)

/-- A SUBACK is all or nothing when its return codes can be counted and all of them pass the check. -/
theorem allOrNothing_subackReports_iff (body : List UInt8) :
    AllOrNothing .subackType (subackReports body) ↔
      safeMultiplySizeT sizeofQosValue (subackRemainLen body.length) ≠ sizeMax ∧ ∀ code ∈ body.drop 2, code &&& 0x7C = 0 := by
  unfold subackReports
  split
  · rename_i hsize
    split
    · rename_i hcodes
      exact iff_of_true (allOrNothing_single _ fun _ => Action.noConfusion) ⟨hsize, hcodes⟩
    · rename_i hcodes
      refine iff_of_false (fun h => ?_) fun h => hcodes h.2
      obtain ⟨e, he⟩ := h.1 (Or.inl (by simp))
      simp at he
  · rename_i hsize
    refine iff_of_false (fun h => ?_) fun h => hsize h.1
    obtain ⟨a, ha, hne⟩ := h.2 (by simp [Rejects]) (by decide)
    exact hne _ (List.cons.inj ha).1.symm

/-- The reports of a packet are all or nothing, a SUBACK apart. -/
theorem allOrNothing_reportsOf_iff (packet : ControlPacketType) (flags : UInt8) (body : List UInt8) (ack : MqttClientAckOption) :
    AllOrNothing packet (reportsOf packet flags body ack) ↔
      (packet = .subackType → safeMultiplySizeT sizeofQosValue (subackRemainLen body.length) ≠ sizeMax ∧
        ∀ code ∈ body.drop 2, code &&& 0x7C = 0) := by
  have hheard : ∀ p errorType, errorType = .communicationError ∨ errorType = .parseError →
      AllOrNothing p (heardReports errorType ack (heard p flags body)) := by
    intro p errorType he
    exact allOrNothing_heardReports he ack not_handled_of_heard
  cases packet with
  | subackType =>
    rw [reportsOf, allOrNothing_subackReports_iff]
    exact ⟨fun h _ => h, fun h => h rfl⟩
  | publishType => exact iff_of_true (hheard _ _ (Or.inr rfl)) ControlPacketType.noConfusion
  | _ => exact iff_of_true (hheard _ _ (Or.inl rfl)) ControlPacketType.noConfusion

/-- A rejected packet is not also delivered, and any other packet that is handled is delivered once, exactly when the packet has a body
or is a PINGRESP and, for a SUBACK, has room for its packet id and return codes that pass the check. -/
theorem allOrNothing_iff (depth : Nat) {s : Session} (hready : Ready s.env) (packet : ControlPacketType) (flags : UInt8)
    (headerData : Option Buffer) (hle : (bodyOf headerData).length ≤ sizeMax) :
    ∃ added, (recvCompleteCallback (deliver depth) packet flags headerData s).history = s.history ++ added ∧
      (AllOrNothing packet (added.filter Action.isReport) ↔ DecodedWhole packet (bodyOf headerData)) := by
  have hlog : Reports s (s.log (.packet packet flags headerData)) [] := reports_log hready _
  unfold recvCompleteCallback
  dsimp only
  split
  · rename_i hbody
    have hbody' : bodyOf headerData ≠ [] ∨ packet = .pingrespType := hbody.imp_left fun h => List.ne_nil_of_length_pos h
    have hall := hlog.after (reports_processPacket (silently_deliver depth) hlog.ready packet flags hle)
    obtain ⟨added, hhist, hreports⟩ := hall.trace
    refine ⟨added, hhist, ?_⟩
    rw [hreports, allOrNothing_reportsOf_iff]
    refine ⟨fun h _ => ⟨hbody', h⟩, fun h hsuback => (h ?_).2 hsuback⟩
    rw [hsuback]
    decide
  · rename_i hbody
    have hbody' : ¬(bodyOf headerData ≠ [] ∨ packet = .pingrespType) := by
      rintro (hne | hping)
      · exact hbody (Or.inl (List.length_pos_iff.mpr hne))
      · exact hbody (Or.inr hping)
    refine ⟨[.packet packet flags headerData], rfl, ?_⟩
    by_cases hh : Handled packet
    · refine iff_of_false (fun h => ?_) fun h => hbody' (h hh).1
      obtain ⟨a, ha, -⟩ := h.2 (by simp [Rejects, Action.isReport]) hh
      exact absurd ha (by simp [Action.isReport])
    · exact iff_of_true ⟨fun h => absurd h (by simp [Rejects, Action.isReport]), fun _ h => absurd h hh⟩ fun h => absurd h hh

theorem ready_calmEnv : Ready calmEnv :=
  ⟨rfl, fun _ => rfl, fun _ => Option.some_ne_none 0, fun _ _ he => absurd he List.not_mem_nil⟩

/-- A SUBACK with two return codes. -/
theorem allOrNothing_iff_suback :
    ∃ added, (recvCompleteCallback (deliver 1) .subackType 0 (some (Buffer.ofBytes [0, 5, 1, 0x80]))
        (mqttClientInit true calmEnv okHeap).callContext).history = [] ++ added ∧
      (AllOrNothing .subackType (added.filter Action.isReport) ↔ DecodedWhole .subackType [0, 5, 1, 0x80]) :=
  allOrNothing_iff 1 (s := (mqttClientInit true calmEnv okHeap).callContext) ready_calmEnv .subackType 0
    (some (Buffer.ofBytes [0, 5, 1, 0x80])) (by decide)

/-- A SUBACK with a return code that is an error is reported as an error and as an event. -/
theorem not_allOrNothing_suback :
    ¬AllOrNothing .subackType ((recvCompleteCallback (deliver 1) .subackType 0 (some (Buffer.ofBytes [0, 5, 0, 0x44]))
        (mqttClientInit true calmEnv okHeap).callContext).history.filter Action.isReport) := by
  have hreports : (recvCompleteCallback (deliver 1) .subackType 0 (some (Buffer.ofBytes [0, 5, 0, 0x44]))
      (mqttClientInit true calmEnv okHeap).callContext).history.filter Action.isReport =
      [.setErrorCallback .communicationError,
        .operation (.onSubscribeAck { packetId := 5, qosReturn := [.deliverAtMostOnce] })] := by decide +kernel
  rw [hreports]
  intro h
  obtain ⟨e, he⟩ := h.1 (by decide)
  simp at he

end Umqtt
