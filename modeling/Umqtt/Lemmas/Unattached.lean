import Umqtt.Lemmas.Advance

/-!
# Without an xio

Once the client has given up its xio, no call but `mqtt_client_connect` gives it another, and every function of an xio that is called on
the client's xio is called with NULL.
-/

namespace Umqtt

open Past Alloc

/-- The client's xio, as it is passed to `xio_send`, `xio_close` and `xio_dowork`; none when it is NULL, and for other entries. -/
def Action.passed : Action → Option XioHandle
  | .xioSend x _ _ | .xioClose x | .xioDowork x => x
  | _ => none

/-- The client has no xio, and none has been passed on the way. -/
def StaysUnattached (s t : Session) : Prop :=
  t.client.xioHandle = none ∧ ∃ added, t.history = s.history ++ added ∧ ∀ a ∈ added, a.passed = none

theorem passed_disconnectedOf (c : MqttClient) : ∀ a ∈ disconnectedOf c, a.passed = none := by
  intro a ha
  obtain ⟨callback, -, rfl⟩ := List.mem_map.mp ha
  rfl

theorem passed_reportOf (c : MqttClient) (e : MqttClientEventError) : ∀ a ∈ reportOf c e, a.passed = none := by
  intro a ha
  rcases mem_reportOf ha with rfl | rfl <;> rfl

theorem passed_local {c c' : MqttClient} {h l : List Action} (hl : Local c h c' l) (hx : c.xioHandle = none) :
    ∀ a ∈ l, a.passed = none := by
  intro a ha
  cases hl with
  | idle => exact absurd ha (by simp)
  | working =>
    rw [List.mem_singleton.mp ha]
    exact hx
  | ioError | notSent => exact List.mem_singleton.mp ha ▸ rfl
  | sent | openNoPacket =>
    simp only [List.mem_cons, List.not_mem_nil, or_false] at ha
    rcases ha with rfl | rfl <;> rfl
  | openRefused =>
    rcases List.mem_cons.mp ha with rfl | ha
    · rfl
    · split at ha
      · exact absurd ha (by simp)
      · rw [mem_onErrorOf ha]
        rfl
  | connectFailed =>
    rw [mem_onErrorOf ha]
    rfl
  | closed =>
    rcases List.mem_cons.mp ha with rfl | ha
    · rfl
    · exact passed_disconnectedOf c a ha
  | failed e => exact (List.mem_append.mp ha).elim (passed_reportOf c e a) (passed_disconnectedOf c a)

theorem passed_callLocal {c c' : MqttClient} {l : List Action} (h : CallLocal c c' l) (hx : c.xioHandle = none) :
    ∀ a ∈ l, a.passed = none := by
  intro a ha
  cases h with
  | options => exact absurd ha (by simp)
  | working =>
    rw [List.mem_singleton.mp ha]
    exact hx
  | disconnectClosed callback =>
    rcases List.mem_cons.mp ha with rfl | ha
    · rfl
    · obtain ⟨b, -, rfl⟩ := List.mem_map.mp ha
      rfl
  | _ => exact List.mem_singleton.mp ha ▸ rfl

theorem passed_finishes {c c' : MqttClient} {result returned : MuResult} {l : List Action} (h : Finishes c result c' l returned) :
    ∀ a ∈ l, a.passed = none := by
  intro a ha
  rcases mem_finishes h ha with ⟨_, rfl⟩ | ⟨_, rfl⟩ <;> rfl

/-- Without an xio, a step passes none, and there is none after it. -/
theorem Advance.unattached {c c' : MqttClient} {h l : List Action} (ha : Advance c h c' l) (hx : c.xioHandle = none) :
    c'.xioHandle = none ∧ ∀ a ∈ l, a.passed = none := by
  cases ha with
  | callback hl => exact ⟨by cases hl <;> exact hx, passed_local hl hx⟩
  | call hl => exact ⟨by cases hl <;> first | exact hx | rfl, passed_callLocal hl hx⟩
  | finishes result returned hf => exact ⟨by cases hf <;> exact hx, passed_finishes hf⟩
  | pingFails result _ hf => exact ⟨by cases hf <;> exact hx, passed_finishes hf⟩
  | delivers packet flags headerData _ htold =>
    refine ⟨?_, ?_⟩
    · unfold MqttClient.told
      split
      · split <;> exact hx
      · exact hx
      · exact hx
    · intro a ha
      rw [List.mem_singleton.mp ha]
      cases htold <;> rfl
  | sends own result hs =>
    refine ⟨by cases hs <;> exact hx, ?_⟩
    cases hs <;> simp [Action.passed, hx]
  | fails e =>
    refine ⟨hx, fun a ha => (List.mem_append.mp ha).elim (passed_reportOf c e a) ?_⟩
    intro ha
    rw [List.mem_singleton.mp ha]
    exact hx
  | detach => exact ⟨rfl, by simp⟩
  | _ => exact ⟨hx, by simp [Action.passed, hx]⟩

theorem StaysUnattached.refl {s : Session} (h : s.client.xioHandle = none) : StaysUnattached s s :=
  ⟨h, [], (List.append_nil _).symm, by simp⟩

/-- Entries that are added without an xio. -/
theorem StaysUnattached.add {s t u : Session} (h : StaysUnattached s t) {l : List Action} (hh : u.history = t.history ++ l)
    (hx : u.client.xioHandle = none) (hl : ∀ a ∈ l, a.passed = none) : StaysUnattached s u := by
  obtain ⟨-, added, hadded, hpassed⟩ := h
  refine ⟨hx, added ++ l, by rw [hh, hadded, List.append_assoc], ?_⟩
  intro a ha
  exact (List.mem_append.mp ha).elim (hpassed a) (hl a)

/-- Calls without a connect: a client that has no xio has none afterwards, and passes none. -/
theorem unattached_run (depth : Nat) {w : World} {calls : List Call} (hcalls : ∀ call ∈ calls, call.connects = false)
    (hx : w.callContext.client.xioHandle = none) : StaysUnattached w.callContext (run depth w calls).callContext := by
  refine run_advances (P := fun _ call => call.connects = false) (I := StaysUnattached w.callContext) ?_ ?_ ?_
    (runMeets_of_forall hcalls) (.refl hx)
  · rintro t u ⟨l, ha, hh⟩ ht
    exact ht.add hh (ha.unattached ht.1).1 (ha.unattached ht.1).2
  · intro v call hcall hv
    rwa [beginCall_of_not_connects v.callContext hcall]
  · intro v call _ _ hv
    refine hv.add (history_callDisconnectCb v.callContext) ?_ (passed_disconnectedOf v.callContext.client)
    simpa [Session.endPending, Session.setStatus, client_callDisconnectCb] using hv.1

end Umqtt
