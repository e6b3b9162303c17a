import Umqtt.Lemmas.Memory
import Umqtt.Theorems.Options

/-!
# What is stored, and what a CONNECT is built from

What is stored is what has been given: no string, or what the options of the latest connects make up, stored one over another
(`mergeAll`). A connect that fails and a disconnect leave no string. So every CONNECT is built from options that were given to the latest
calls of `mqtt_client_connect` (`connects_run`).
-/

namespace Umqtt

open Past Alloc

/-! ## Options, one over another -/

/-- No string is stored. -/
def NoStrings (mqttOptions : MqttClientOptions) : Prop :=
  mqttOptions.clientId = none ∧ mqttOptions.willTopic = none ∧ mqttOptions.willMessage = none ∧ mqttOptions.username = none ∧
    mqttOptions.password = none

/-- What is stored in a client that has just been made. -/
def noOptions : MqttClientOptions :=
  { clientId := none, willTopic := none, willMessage := none, username := none, password := none, keepAliveInterval := 0,
    messageRetain := false, useCleanSession := false, qualityOfServiceValue := .deliverAtMostOnce }

/-- What is stored after several connects, one after another. -/
def mergeAll (given : List MqttClientOptions) : MqttClientOptions :=
  given.foldl (fun stored mqttOptions => mergeOptions mqttOptions stored) noOptions

/-- The options that are given to `mqtt_client_connect`. -/
def Action.asGiven : Action → Option MqttClientOptions
  | .connect _ mqttOptions => some mqttOptions
  | _ => none

/-- The options that have been given, in order. -/
def given (h : List Action) : List MqttClientOptions := h.filterMap Action.asGiven

/-- The options are those of the latest connects. -/
def MergedFrom (h : List Action) (mqttOptions : MqttClientOptions) : Prop :=
  ∃ latest, latest ≠ [] ∧ latest <:+ given h ∧ mqttOptions = mergeAll latest

theorem mergeOptions_noStrings (mqttOptions : MqttClientOptions) {stored : MqttClientOptions} (h : NoStrings stored) :
    mergeOptions mqttOptions stored = mqttOptions := by
  rw [mergeOptions_eq_iff]
  exact ⟨fun _ => h.1, fun _ => h.2.1, fun _ => h.2.2.1, fun _ => h.2.2.2.1, fun _ => h.2.2.2.2⟩

/-- One more connect. -/
theorem mergedFrom_connect {h : List Action} {stored : MqttClientOptions} (hs : NoStrings stored ∨ MergedFrom h stored)
    (xioHandle : XioHandle) (mqttOptions : MqttClientOptions) :
    MergedFrom (h ++ [.connect xioHandle mqttOptions]) (mergeOptions mqttOptions stored) := by
  have hgiven : given (h ++ [.connect xioHandle mqttOptions]) = given h ++ [mqttOptions] := List.filterMap_append
  rcases hs with hnone | ⟨latest, -, hlatest, rfl⟩
  · refine ⟨[mqttOptions], by simp, hgiven ▸ List.suffix_append _ _, ?_⟩
    rw [mergeOptions_noStrings mqttOptions hnone]
    exact (mergeOptions_noStrings mqttOptions ⟨rfl, rfl, rfl, rfl, rfl⟩).symm
  · obtain ⟨earlier, hearlier⟩ := hlatest
    refine ⟨latest ++ [mqttOptions], by simp, ⟨earlier, ?_⟩, ?_⟩
    · rw [hgiven, ← hearlier, List.append_assoc]
    · rw [mergeAll, mergeAll, List.foldl_concat]

/-- Nothing is built from no strings. -/
theorem not_produces_noStrings {mqttOptions : MqttClientOptions} (h : NoStrings mqttOptions) {packet : Buffer} :
    ¬(mqttCodecConnect mqttOptions).Produces packet := by
  rintro ⟨heap, hp⟩
  obtain ⟨h1, h2, h3, h4, h5⟩ := h
  have hlen : ¬(OptionsAccepted mqttOptions ∧ 0 < connPayloadLen mqttOptions) := by
    simp [connPayloadLen, strlenOpt, h1, h2, h3, h4, h5]
  rw [never_mqttCodecConnect hlen heap] at hp
  cases hp

/-! ## Steps -/

/-- An entry that neither begins a connection nor hands over a CONNECT. -/
def Action.NoConnect (a : Action) : Prop := a.asGiven = none ∧ a.sendsType .connectType = false

theorem given_append_noConnect {h added : List Action} (ha : ∀ a ∈ added, a.NoConnect) : given (h ++ added) = given h := by
  rw [given, List.filterMap_append, List.filterMap_eq_nil_iff.mpr fun a hmem => (ha a hmem).1, List.append_nil]
  rfl

theorem noConnect_onErrorOf (c : MqttClient) (e : MqttClientEventError) : ∀ a ∈ onErrorOf c e, a.NoConnect := by
  intro a ha
  rw [mem_onErrorOf ha]
  exact ⟨rfl, rfl⟩

theorem noConnect_disconnectedOf (c : MqttClient) : ∀ a ∈ disconnectedOf c, a.NoConnect := by
  intro a ha
  obtain ⟨callback, -, rfl⟩ := List.mem_map.mp ha
  exact ⟨rfl, rfl⟩

/-- A packet that is handed over and is no CONNECT. -/
theorem noConnect_send {packet : Buffer} {t : ControlPacketType} (hp : packet.packetType = some t) (ht : t ≠ .connectType)
    (xioHandle : Option XioHandle) (result : MuResult) : (Action.xioSend xioHandle packet result).NoConnect :=
  ⟨rfl, decide_eq_false fun h => ht (Option.some.inj (hp.symm.trans h))⟩

/-- A callback hands over a CONNECT when the socket is opened, and it is built from what is stored. -/
theorem Inner.noConnect_or {c c' : MqttClient} {h added : List Action} (hi : Inner c h c' added) :
    (∀ a ∈ added, a.NoConnect) ∨ ∃ packet result, c.mqttStatus.socketConnected = false ∧ c'.mqttStatus.socketConnected = true ∧
      (mqttCodecConnect c.mqttOptions).Produces packet ∧
      added = [.event (.openComplete .ioOpenOk), .connPacket (some packet)] ++ [.xioSend c.xioHandle packet result] := by
  cases hi with
  | openPacket packet result hs hp => exact Or.inr ⟨packet, result, hs, rfl, hp, rfl⟩
  | idle | stamp | pingAnswered | detach => exact Or.inl fun a ha => absurd ha (by simp)
  | note a ha =>
    refine Or.inl ?_
    intro b hb
    rw [List.mem_singleton.mp hb]
    cases a <;> first | exact absurd ha id | exact ⟨rfl, rfl⟩
  | send packet t result hp ht => exact Or.inl fun a ha => List.mem_singleton.mp ha ▸ noConnect_send hp ht.1 _ _
  | accepted | sent | close => exact Or.inl fun a ha => List.mem_singleton.mp ha ▸ ⟨rfl, rfl⟩
  | openNoPacket =>
    refine Or.inl ?_
    intro a ha
    simp only [List.mem_cons, List.not_mem_nil, or_false] at ha
    rcases ha with rfl | rfl <;> exact ⟨rfl, rfl⟩
  | openRefused r =>
    refine Or.inl (List.forall_mem_cons.mpr ⟨⟨rfl, rfl⟩, ?_⟩)
    split
    · exact fun a ha => absurd ha List.not_mem_nil
    · exact noConnect_onErrorOf c _
  | connectFailed => exact Or.inl (noConnect_onErrorOf c _)
  | closed => exact Or.inl (List.forall_mem_cons.mpr ⟨⟨rfl, rfl⟩, noConnect_disconnectedOf c⟩)
  | report e => exact Or.inl (List.forall_mem_cons.mpr ⟨⟨rfl, rfl⟩, noConnect_onErrorOf c e⟩)
  | notOpen => exact Or.inl (noConnect_disconnectedOf c)

theorem Outer.noConnect {c c' : MqttClient} {h added : List Action} (ho : Outer c h c' added) : ∀ a ∈ added, a.NoConnect := by
  intro a ha
  cases ho with
  | clear | disconnect => exact List.mem_singleton.mp ha ▸ ⟨rfl, rfl⟩
  | disconnectPacket callback packet result _ _ hp => exact List.mem_singleton.mp ha ▸ noConnect_send hp (by decide) _ _
  | ping packet result _ hp => exact List.mem_singleton.mp ha ▸ noConnect_send hp (by decide) _ _
  | _ => exact absurd ha (by simp)

theorem Action.Arrival.noConnect {a : Action} (h : a.Arrival) : a.NoConnect := by
  cases a with
  | bytesReceived | packet => exact ⟨rfl, rfl⟩
  | _ => exact absurd h id

/-! ## The invariant -/

/-- A CONNECT that is handed over is built from the options of the latest connects. -/
def ConnectsGiven (h : List Action) : Prop :=
  Always (fun before a => ∀ xioHandle packet result, a = .xioSend xioHandle packet result → packet.packetType = some .connectType →
    ∃ mqttOptions, MergedFrom before mqttOptions ∧ (mqttCodecConnect mqttOptions).Produces packet) h

/-- What is stored is what has been given, and so is what the CONNECT packets are built from. -/
structure StoredInv (h : List Action) (stored : MqttClientOptions) : Prop where
  stored : NoStrings stored ∨ MergedFrom h stored
  connects : ConnectsGiven h

theorem Action.NoConnect.not_sends {a : Action} (h : a.NoConnect) {xioHandle : Option XioHandle} {packet : Buffer} {result : MuResult}
    (ha : a = .xioSend xioHandle packet result) : packet.packetType ≠ some .connectType := by
  subst ha
  exact of_decide_eq_false h.2

/-- Entries that neither begin a connection nor hand over a CONNECT. -/
theorem StoredInv.append {h added : List Action} {stored : MqttClientOptions} (hi : StoredInv h stored)
    (ha : ∀ a ∈ added, a.NoConnect) : StoredInv (h ++ added) stored where
  stored := by
    refine hi.stored.imp_right ?_
    rintro ⟨latest, hne, hlatest, heq⟩
    exact ⟨latest, hne, by rwa [given_append_noConnect ha], heq⟩
  connects := hi.connects.append fun pre a post hadded xioHandle packet result heq hp =>
    absurd hp ((ha a (hadded ▸ by simp)).not_sends heq)

theorem storedInv_keep (s t : Session) (hst : KeepStep s t) (hs : StoredInv s.history s.client.mqttOptions) :
    StoredInv t.history t.client.mqttOptions := by
  rcases hst with ⟨added, hi | ho, hh⟩ | ⟨a, ha, hc, hh⟩
  · rw [hh, hi.mqttOptions_eq]
    rcases hi.noConnect_or with hnone | ⟨packet, result, -, -, hp, rfl⟩
    · exact hs.append hnone
    · -- the CONNECT of an open: something is stored, for it was built
      have hmerged : MergedFrom s.history s.client.mqttOptions := hs.stored.resolve_left fun hnone => not_produces_noStrings hnone hp
      have hbefore : ∀ a ∈ [Action.event (.openComplete .ioOpenOk), .connPacket (some packet)], a.NoConnect := by
        intro a ha
        simp only [List.mem_cons, List.not_mem_nil, or_false] at ha
        rcases ha with rfl | rfl <;> exact ⟨rfl, rfl⟩
      have hpre := hs.append hbefore
      rw [← List.append_assoc]
      have hsame : given (s.history ++ [.event (.openComplete .ioOpenOk), .connPacket (some packet)] ++
          [.xioSend s.client.xioHandle packet result]) = given s.history := by
        rw [given, List.filterMap_append, ← given, given_append_noConnect hbefore]
        exact List.append_nil _
      obtain ⟨latest, hne, hlatest, heq⟩ := hmerged
      refine ⟨Or.inr ⟨latest, hne, hsame ▸ hlatest, heq⟩, always_snoc.mpr ⟨hpre.connects, ?_⟩⟩
      intro xioHandle packet' result' hsend _
      obtain ⟨-, rfl, -⟩ := Action.xioSend.inj hsend
      exact ⟨_, ⟨latest, hne, by rwa [given_append_noConnect hbefore], heq⟩, hp⟩
  · rw [hh, ho.mqttOptions_eq]
    exact hs.append ho.noConnect
  · rw [hh, hc]
    exact hs.append fun b hb => List.mem_singleton.mp hb ▸ ha.noConnect

/-- The strings are cleared. -/
theorem StoredInv.cleared {h : List Action} {stored : MqttClientOptions} (hi : StoredInv h stored) {stored' : MqttClientOptions}
    (hnone : NoStrings stored') : StoredInv h stored' := ⟨Or.inl hnone, hi.connects⟩

theorem noStrings_clearMqttOptions (s : Session) : NoStrings (clearMqttOptions s).client.mqttOptions := ⟨rfl, rfl, rfl, rfl, rfl⟩

/-! ## Runs -/

/-- A connect merges the options over those that are stored, or leaves no string. -/
theorem storedInv_connect {dispatch : List IoEvent → Session → Session} (hd : MakesSteps dispatch) {s : Session}
    (hs : StoredInv s.history s.client.mqttOptions) (xioHandle : XioHandle) (mqttOptions : MqttClientOptions) :
    StoredInv (mqttClientConnect dispatch s (some xioHandle) (some mqttOptions)).1.history
      (mqttClientConnect dispatch s (some xioHandle) (some mqttOptions)).1.client.mqttOptions := by
  have hentry : ConnectsGiven (s.history ++ [.connect xioHandle mqttOptions]) :=
    always_snoc.mpr ⟨hs.connects, fun _ _ _ heq => absurd heq Action.noConfusion⟩
  have hmerge := mergedFrom_connect hs.stored xioHandle mqttOptions
  have hlog : ∀ (t : Session) (a : Action), a.NoConnect → StoredInv t.history t.client.mqttOptions →
      StoredInv (t.log a).history (t.log a).client.mqttOptions :=
    fun t a ha ht => ht.append fun b hb => List.mem_singleton.mp hb ▸ ha
  unfold mqttClientConnect
  dsimp only
  unfold cloneMqttOptions
  rcases halloc : (beginConnect (s.log (.connect xioHandle mqttOptions)) xioHandle mqttOptions).alloc
    (clonedOptions mqttOptions (beginConnect (s.log (.connect xioHandle mqttOptions)) xioHandle mqttOptions).client.mqttOptions)
    with ⟨_ | stored, s'⟩
  all_goals have hhist : s'.history = s.history ++ [.connect xioHandle mqttOptions] := history_of_alloc halloc
  · refine hlog (clearMqttOptions s') (.connectReturns .muFailure) ⟨rfl, rfl⟩ ⟨Or.inl (noStrings_clearMqttOptions s'), ?_⟩
    exact hhist ▸ hentry
  · have hstored : stored = mergeOptions mqttOptions s.client.mqttOptions :=
      (ensures_clonedOptions mqttOptions _).of_produces (alloc_produces halloc)
    have hcopied : StoredInv s'.history stored := by
      rw [hhist, hstored]
      exact ⟨Or.inr hmerge, hentry⟩
    have hopen := (keep_steps (inner_steps (steps_xioOpen hd { s' with client := { s'.client with mqttOptions := stored } } xioHandle))).preserves
      (P := fun u => StoredInv u.history u.client.mqttOptions) storedInv_keep hcopied
    dsimp only
    rw [if_neg (not_not_intro rfl)]
    split
    · exact hlog _ _ ⟨rfl, rfl⟩ (hopen.cleared (noStrings_clearMqttOptions _))
    · exact hlog _ _ ⟨rfl, rfl⟩ hopen

theorem storedInv_call (depth : Nat) {w : World} (h : StoredInv w.callContext.history w.callContext.client.mqttOptions) (call : Call) :
    StoredInv (runCall depth w call).callContext.history (runCall depth w call).callContext.client.mqttOptions := by
  have hkeep : call.keepsOptions = true → StoredInv (runCall depth w call).callContext.history
      (runCall depth w call).callContext.client.mqttOptions := fun hk =>
    (steps_keepingCall depth w hk).preserves (P := fun u => StoredInv u.history u.client.mqttOptions) storedInv_keep h
  cases call with
  | connect xioHandle mqttOptions =>
    rcases xioHandle with _ | xioHandle
    · exact hkeep rfl
    · rcases mqttOptions with _ | mqttOptions
      · exact hkeep rfl
      · exact storedInv_connect (steps_deliver depth) h xioHandle mqttOptions
  | disconnect callback =>
    obtain ⟨t, hsteps, heq⟩ := mqttClientDisconnect_cleared (steps_deliver depth) w.callContext callback
    have ht := (keep_steps hsteps).preserves (P := fun u => StoredInv u.history u.client.mqttOptions) storedInv_keep h
    change StoredInv (mqttClientDisconnect (deliver depth) w.callContext callback).1.history
      (mqttClientDisconnect (deliver depth) w.callContext callback).1.client.mqttOptions
    rw [heq]
    exact ht.cleared (noStrings_clearMqttOptions t)
  | _ => exact hkeep rfl

/-- In every run, a CONNECT is built from the options of the latest connects. -/
theorem connects_run (fnOnErrorCallBack : Bool) (env : Env) (heap : Heap) (depth : Nat) (calls : List Call) :
    ConnectsGiven (run depth (mqttClientInit fnOnErrorCallBack env heap) calls).callContext.history := by
  suffices h : ∀ w : World, StoredInv w.callContext.history w.callContext.client.mqttOptions →
      StoredInv (run depth w calls).callContext.history (run depth w calls).callContext.client.mqttOptions by
    exact (h (mqttClientInit fnOnErrorCallBack env heap) ⟨Or.inl ⟨rfl, rfl, rfl, rfl, rfl⟩, always_nil⟩).connects
  induction calls with
  | nil => exact fun w hw => hw
  | cons call calls ih => exact fun w hw => ih (runCall depth w call) (storedInv_call depth hw call)

end Umqtt
