import Umqtt.Theorems.Connected

/-!
# The options of a connection

`cloneMqttOptions` copies the strings that are given and leaves the others as they are stored. So a connect stores the given options
exactly when nothing is stored where nothing is given, and what is stored is what the CONNECT packet is built from.
-/

namespace Umqtt

open Past Alloc

/-! ## What is stored -/

/-- The options that are stored after they were copied over others. -/
def mergeOptions (mqttOptions stored : MqttClientOptions) : MqttClientOptions :=
  { mqttOptions with
    clientId := mqttOptions.clientId.or stored.clientId
    willTopic := mqttOptions.willTopic.or stored.willTopic
    willMessage := mqttOptions.willMessage.or stored.willMessage
    username := mqttOptions.username.or stored.username
    password := mqttOptions.password.or stored.password }

/-- No string is stored where none is given. -/
def NoLeftover (mqttOptions stored : MqttClientOptions) : Prop :=
  (mqttOptions.clientId = none → stored.clientId = none) ∧ (mqttOptions.willTopic = none → stored.willTopic = none) ∧
    (mqttOptions.willMessage = none → stored.willMessage = none) ∧ (mqttOptions.username = none → stored.username = none) ∧
    (mqttOptions.password = none → stored.password = none)

theorem or_eq_left_iff {α : Type} (a b : Option α) : a.or b = a ↔ (a = none → b = none) := by
  cases a <;> simp

theorem mergeOptions_eq_iff (mqttOptions stored : MqttClientOptions) :
    mergeOptions mqttOptions stored = mqttOptions ↔ NoLeftover mqttOptions stored := by
  cases mqttOptions
  simp only [mergeOptions, NoLeftover, MqttClientOptions.mk.injEq, or_eq_left_iff, and_true]

theorem ensures_cloneOption (option stored : Option CString) : (cloneOption option stored).Ensures (· = option.or stored) := by
  cases option with
  | none => exact ensures_pure rfl
  | some option => exact ensures_bind fun _ => ensures_pure rfl

theorem ensures_clonedOptions (mqttOptions stored : MqttClientOptions) :
    (clonedOptions mqttOptions stored).Ensures (· = mergeOptions mqttOptions stored) := by
  refine (ensures_cloneOption _ _).bind fun clientId h1 => (ensures_cloneOption _ _).bind ?_
  intro willTopic h2
  refine (ensures_cloneOption _ _).bind fun willMessage h3 => (ensures_cloneOption _ _).bind ?_
  intro username h4
  refine (ensures_cloneOption _ _).bind fun password h5 => ensures_pure ?_
  rw [h1, h2, h3, h4, h5]
  rfl

theorem cloneMqttOptions_zero (s : Session) (mqttOptions : MqttClientOptions) (h : (cloneMqttOptions s mqttOptions).2 = .zero) :
    (cloneMqttOptions s mqttOptions).1.client.mqttOptions = mergeOptions mqttOptions s.client.mqttOptions ∧
      (cloneMqttOptions s mqttOptions).1.history = s.history := by
  rw [cloneMqttOptions] at h ⊢
  rcases halloc : s.alloc (clonedOptions mqttOptions s.client.mqttOptions) with ⟨_ | stored, s'⟩
  · rw [halloc] at h
    exact absurd h (by simp)
  · exact ⟨(ensures_clonedOptions _ _).of_produces (alloc_produces halloc), (history_of_alloc halloc :)⟩

/-- A connect that succeeds merges the options, and what follows is steps of callbacks. -/
theorem mqttClientConnect_zero {dispatch : List IoEvent → Session → Session} (hd : MakesSteps dispatch) (s : Session)
    (xioHandle : XioHandle) (mqttOptions : MqttClientOptions)
    (h : (mqttClientConnect dispatch s (some xioHandle) (some mqttOptions)).2 = .zero) :
    ∃ t, t.client.mqttOptions = mergeOptions mqttOptions s.client.mqttOptions ∧
      t.history = s.history ++ [.connect xioHandle mqttOptions] ∧
      Steps InnerStep t (mqttClientConnect dispatch s (some xioHandle) (some mqttOptions)).1 := by
  have hmerge := cloneMqttOptions_zero (beginConnect (s.log (.connect xioHandle mqttOptions)) xioHandle mqttOptions) mqttOptions
  generalize hr : cloneMqttOptions (beginConnect (s.log (.connect xioHandle mqttOptions)) xioHandle mqttOptions) mqttOptions = r
  rw [hr] at hmerge
  simp only [mqttClientConnect, hr] at h ⊢
  by_cases hclone : r.2 = .zero
  · obtain ⟨hopts, hhist⟩ := hmerge hclone
    rw [if_neg (not_not_intro hclone)] at h ⊢
    refine ⟨r.1, hopts, hhist, ?_⟩
    by_cases hopen : (xioOpen dispatch r.1 xioHandle).2 = .zero
    · rw [if_neg (not_not_intro hopen)]
      exact (steps_xioOpen hd r.1 xioHandle).trans (steps_log _ _ trivial)
    · rw [if_pos hopen] at h
      exact absurd h (by simp)
  · rw [if_pos hclone] at h
    exact absurd h (by simp)

/-! ## Until the next connect -/

/-- The options are stored, and every CONNECT packet built since a given point of the history was built from them. -/
def BuiltFrom (mqttOptions : MqttClientOptions) (before : List Action) (s : Session) : Prop :=
  s.client.mqttOptions = mqttOptions ∧
    ∃ added, s.history = before ++ added ∧
      ∀ connPacket, .connPacket (some connPacket) ∈ added → (mqttCodecConnect mqttOptions).Produces connPacket

theorem Inner.mqttOptions_eq {c c' : MqttClient} {h added : List Action} (hi : Inner c h c' added) :
    c'.mqttOptions = c.mqttOptions := by
  cases hi <;> rfl

theorem Outer.mqttOptions_eq {c c' : MqttClient} {h added : List Action} (ho : Outer c h c' added) :
    c'.mqttOptions = c.mqttOptions := by
  cases ho <;> rfl

/-- A CONNECT packet is built from the stored options. -/
theorem Inner.connPacket {c c' : MqttClient} {h added : List Action} (hi : Inner c h c' added) {packet : Buffer}
    (hp : .connPacket (some packet) ∈ added) : (mqttCodecConnect c.mqttOptions).Produces packet := by
  have honError : ∀ e, .connPacket (some packet) ∉ onErrorOf c e := by
    intro e
    rw [onErrorOf]
    split <;> simp
  have hdisconnected : .connPacket (some packet) ∉ disconnectedOf c := by
    rw [disconnectedOf]
    rcases c.disconnectCb <;> simp
  cases hi with
  | openPacket p result _ hbuilt => simpa using (by simpa using hp : packet = p) ▸ hbuilt
  | note a ha => exact absurd ha (List.mem_singleton.mp hp ▸ id)
  | openRefused r =>
    split at hp
    · simp at hp
    · simp [honError] at hp
  | connectFailed => exact absurd hp (honError _)
  | closed => simp [hdisconnected] at hp
  | report e => simp [reportOf, honError] at hp
  | notOpen => exact absurd hp hdisconnected
  | _ => simp at hp

theorem Outer.no_connPacket {c c' : MqttClient} {h added : List Action} (ho : Outer c h c' added) {packet : Option Buffer} :
    .connPacket packet ∉ added := by
  cases ho <;> simp

theorem builtFrom_step {mqttOptions : MqttClientOptions} {before : List Action} (s t : Session) (hst : KeepStep s t)
    (hs : BuiltFrom mqttOptions before s) : BuiltFrom mqttOptions before t := by
  obtain ⟨hopts, old, hold, hbuilt⟩ := hs
  have hmore : ∀ added, t.client.mqttOptions = s.client.mqttOptions → t.history = s.history ++ added →
      (∀ p, .connPacket (some p) ∈ added → (mqttCodecConnect s.client.mqttOptions).Produces p) →
      BuiltFrom mqttOptions before t := by
    intro added hc hh hadded
    refine ⟨hc.trans hopts, old ++ added, by rw [hh, hold, List.append_assoc], ?_⟩
    intro p hp
    rcases List.mem_append.mp hp with hp | hp
    · exact hbuilt p hp
    · exact hopts ▸ hadded p hp
  rcases hst with ⟨added, hi | ho, hh⟩ | ⟨a, ha, hc, hh⟩
  · exact hmore added hi.mqttOptions_eq hh fun p => hi.connPacket
  · exact hmore added ho.mqttOptions_eq hh fun p hp => absurd hp ho.no_connPacket
  · refine hmore [a] (by rw [hc]) hh ?_
    intro p hp
    exact absurd ha (List.mem_singleton.mp hp ▸ id)

/-! ## Connections -/

/-- The connection that a connect begins uses the options it was given: they are stored until the next call that may change them,
and every CONNECT packet is built from them. -/
def UsesExactly (depth : Nat) (w : World) (xioHandle : XioHandle) (mqttOptions : MqttClientOptions) : Prop :=
  ∀ calls : List Call, (∀ call ∈ calls, call.keepsOptions = true) →
    BuiltFrom mqttOptions w.callContext.history
      (run depth w (.connect (some xioHandle) (some mqttOptions) :: calls)).callContext

/-- A successful connect uses exactly the options it was given if and only if no string is stored where none is given. -/
theorem usesExactly_iff (depth : Nat) (w : World) (xioHandle : XioHandle) (mqttOptions : MqttClientOptions)
    (h : (mqttClientConnect (deliver depth) w.callContext (some xioHandle) (some mqttOptions)).2 = .zero) :
    UsesExactly depth w xioHandle mqttOptions ↔ NoLeftover mqttOptions w.callContext.client.mqttOptions := by
  obtain ⟨t, hopts, hhist, hsteps⟩ := mqttClientConnect_zero (steps_deliver depth) w.callContext xioHandle mqttOptions h
  have hconnect : BuiltFrom (mergeOptions mqttOptions w.callContext.client.mqttOptions) w.callContext.history
      (runCall depth w (.connect (some xioHandle) (some mqttOptions))).callContext := by
    refine (keep_steps (inner_steps hsteps)).preserves builtFrom_step ⟨hopts, [.connect xioHandle mqttOptions], hhist, ?_⟩
    simp
  rw [← mergeOptions_eq_iff]
  constructor
  · intro huse
    exact hconnect.1.symm.trans (huse [] (by simp)).1
  · intro heq calls hcalls
    rw [heq] at hconnect
    exact (steps_keepingRun depth _ hcalls).preserves builtFrom_step hconnect

/-- `plainOptions` with a user name. -/
def userOptions : MqttClientOptions := { plainOptions with username := some ⟨[0x75], by decide⟩ }

/-- A connection with a user name is lost, and the next one has a user name again. -/
theorem usesExactly_iff_userOptions :
    let w := run 1 (mqttClientInit true calmEnv okHeap) [.connect (some 1) (some userOptions), .xio (.io .ioError)]
    UsesExactly 1 w 2 userOptions ↔ NoLeftover userOptions w.callContext.client.mqttOptions :=
  usesExactly_iff 1 _ 2 userOptions (by decide +kernel)

/-- The connection with a user name is lost, and the next connect, without one, succeeds: the user name is still stored. -/
theorem not_usesExactly_username :
    let w := run 1 (mqttClientInit true calmEnv okHeap) [.connect (some 1) (some userOptions), .xio (.io .ioError)]
    (mqttClientConnect (deliver 1) w.callContext (some 2) (some plainOptions)).2 = .zero ∧ ¬UsesExactly 1 w 2 plainOptions := by
  refine ⟨by decide +kernel, fun h => absurd (h [] (by simp)).1 (by decide +kernel)⟩

end Umqtt
