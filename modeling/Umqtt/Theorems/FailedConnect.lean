import Umqtt.Lemmas.Memory
import Umqtt.Lemmas.Unattached
import Umqtt.Theorems.Connected

/-!
# A connect that fails

`mqtt_client_connect` stores the xio before it copies the options. When `xio_open` fails it forgets the xio again; when a copy fails it
does not, and the next `mqtt_client_dowork` works an xio that has never been opened.
-/

namespace Umqtt

open Alloc

/-! ## The copies -/

/-- The strings that `cloneMqttOptions` copies. -/
def MqttClientOptions.copies (mqttOptions : MqttClientOptions) : Nat :=
  [mqttOptions.clientId, mqttOptions.willTopic, mqttOptions.willMessage, mqttOptions.username, mqttOptions.password].countP
    Option.isSome

theorem needs_cloneOption (option stored : Option CString) : (cloneOption option stored).Needs (if option.isSome then 1 else 0) := by
  rcases option with _ | option
  · exact needs_pure stored
  · exact needs_takeMemory_pure (some option)

/-- Every string that is there is copied, one request each. -/
theorem needs_clonedOptions (mqttOptions stored : MqttClientOptions) : (clonedOptions mqttOptions stored).Needs mqttOptions.copies := by
  have hcopies : mqttOptions.copies = (if mqttOptions.clientId.isSome then 1 else 0) +
      ((if mqttOptions.willTopic.isSome then 1 else 0) + ((if mqttOptions.willMessage.isSome then 1 else 0) +
        ((if mqttOptions.username.isSome then 1 else 0) + ((if mqttOptions.password.isSome then 1 else 0) + 0)))) := by
    simp only [MqttClientOptions.copies, List.countP_cons, List.countP_nil]
    omega
  rw [hcopies]
  exact (needs_cloneOption _ _).then fun _ => (needs_cloneOption _ _).then fun _ => (needs_cloneOption _ _).then fun _ =>
    (needs_cloneOption _ _).then fun _ => (needs_cloneOption _ _).then fun _ => needs_pure _

/-- `cloneMqttOptions` succeeds exactly when every copy does. -/
theorem cloneMqttOptions_zero_iff (s : Session) (mqttOptions : MqttClientOptions) :
    (cloneMqttOptions s mqttOptions).2 = .zero ↔ Meets s.env.heap mqttOptions.copies := by
  rw [← (needs_clonedOptions mqttOptions s.client.mqttOptions).isSome_iff, cloneMqttOptions, Session.alloc]
  rcases (clonedOptions mqttOptions s.client.mqttOptions).answer s.env.heap with ⟨_ | stored, heap⟩ <;> simp

/-- Whether it succeeds or not, `cloneMqttOptions` keeps the xio. -/
theorem xioHandle_cloneMqttOptions (s : Session) (mqttOptions : MqttClientOptions) :
    (cloneMqttOptions s mqttOptions).1.client.xioHandle = s.client.xioHandle := by
  rw [cloneMqttOptions, Session.alloc]
  rcases (clonedOptions mqttOptions s.client.mqttOptions).answer s.env.heap with ⟨_ | stored, heap⟩ <;> rfl

/-! ## The connect -/

/-- What a connect that fails should leave: no xio and none of the five strings, and no later call passes an xio until the next
connect. -/
structure Detached (depth : Nat) (w : World) : Prop where
  xioHandle : w.callContext.client.xioHandle = none
  clientId : w.callContext.client.mqttOptions.clientId = none
  willTopic : w.callContext.client.mqttOptions.willTopic = none
  willMessage : w.callContext.client.mqttOptions.willMessage = none
  username : w.callContext.client.mqttOptions.username = none
  password : w.callContext.client.mqttOptions.password = none
  later : ∀ calls : List Call, (∀ call ∈ calls, call.connects = false) →
    StaysUnattached w.callContext (run depth w calls).callContext

/-- A client without an xio and without strings is detached. -/
theorem detached_clearMqttOptions {depth : Nat} {w : World} {s : Session} (hs : s.client.xioHandle = none)
    (hw : w.callContext.client = (clearMqttOptions s).client) : Detached depth w where
  xioHandle := by rw [hw]; exact hs
  clientId := by rw [hw]; rfl
  willTopic := by rw [hw]; rfl
  willMessage := by rw [hw]; rfl
  username := by rw [hw]; rfl
  password := by rw [hw]; rfl
  later := fun calls hcalls => unattached_run depth hcalls (by rw [hw]; exact hs)

/-- What `mqtt_client_connect` does after a copy has failed: it returns. -/
theorem mqttClientConnect_notCopied (depth : Nat) {s : Session} (xioHandle : XioHandle) {mqttOptions : MqttClientOptions}
    (h : ¬Meets s.env.heap mqttOptions.copies) :
    (mqttClientConnect (deliver depth) s (some xioHandle) (some mqttOptions)).2 = .muFailure ∧
      (mqttClientConnect (deliver depth) s (some xioHandle) (some mqttOptions)).1.client.xioHandle = some xioHandle := by
  have hfailed := mt (cloneMqttOptions_zero_iff (beginConnect (s.log (.connect xioHandle mqttOptions)) xioHandle mqttOptions)
    mqttOptions).mp h
  have hkept := xioHandle_cloneMqttOptions (beginConnect (s.log (.connect xioHandle mqttOptions)) xioHandle mqttOptions) mqttOptions
  simp only [mqttClientConnect]
  rw [if_pos hfailed]
  exact ⟨rfl, hkept⟩

/-- What `mqtt_client_connect` does after the copies: it fails when `xio_open` does, and then forgets the xio and clears the copies. -/
theorem mqttClientConnect_copied (depth : Nat) {s : Session} (xioHandle : XioHandle) {mqttOptions : MqttClientOptions}
    (h : Meets s.env.heap mqttOptions.copies)
    (hfails : (mqttClientConnect (deliver depth) s (some xioHandle) (some mqttOptions)).2 ≠ .zero) :
    ∃ t : Session, t.client.xioHandle = none ∧
      (mqttClientConnect (deliver depth) s (some xioHandle) (some mqttOptions)).1.client = (clearMqttOptions t).client := by
  have hcopied := (cloneMqttOptions_zero_iff (beginConnect (s.log (.connect xioHandle mqttOptions)) xioHandle mqttOptions)
    mqttOptions).mpr h
  simp only [mqttClientConnect] at hfails ⊢
  rw [if_neg (not_not.mpr hcopied)] at hfails ⊢
  split
  · exact ⟨_, rfl, rfl⟩
  · rename_i hopened
    rw [if_neg hopened] at hfails
    exact absurd rfl hfails

/-- A connect that fails detaches the client exactly when every option was copied: what fails then is `xio_open`. When a copy fails,
the client keeps an xio that has not been opened. -/
theorem detached_iff_copied (depth : Nat) (w : World) (xioHandle : XioHandle) (mqttOptions : MqttClientOptions) :
    ((mqttClientConnect (deliver depth) w.callContext (some xioHandle) (some mqttOptions)).2 ≠ .zero →
      Detached depth (runCall depth w (.connect (some xioHandle) (some mqttOptions)))) ↔
    Meets w.callContext.env.heap mqttOptions.copies := by
  constructor
  · intro h
    by_contra hnot
    obtain ⟨hfails, hkept⟩ := mqttClientConnect_notCopied depth xioHandle hnot
    have hdetached := (h (by rw [hfails]; exact MuResult.noConfusion)).xioHandle
    rw [show (runCall depth w (.connect (some xioHandle) (some mqttOptions))).callContext.client.xioHandle = some xioHandle from hkept]
      at hdetached
    exact absurd hdetached (by simp)
  · intro h hfails
    obtain ⟨t, ht, hclient⟩ := mqttClientConnect_copied depth xioHandle h hfails
    exact detached_clearMqttOptions ht hclient

/-- Memory runs out with the copy of the client id: `mqtt_client_connect` fails, and the next `mqtt_client_dowork` works the xio, which
`xio_open` has never been called on. -/
theorem not_detached_out_of_memory :
    let w := mqttClientInit true { calmEnv with heap := Stream'.const false } okHeap
    (mqttClientConnect (deliver 1) w.callContext (some 1) (some plainOptions)).2 = .muFailure ∧
      ¬Detached 1 (runCall 1 w (.connect (some 1) (some plainOptions))) ∧
      (run 1 w [.connect (some 1) (some plainOptions), .dowork []]).callContext.history =
        [.connect 1 plainOptions, .connectReturns .muFailure, .xioDowork (some 1)] := by
  exact ⟨by decide +kernel, fun h => absurd h.xioHandle (by decide +kernel), by decide +kernel⟩

end Umqtt
