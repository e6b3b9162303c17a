import Umqtt.Lemmas.Memory
import Umqtt.Lemmas.Nested
import Umqtt.Theorems.Connected

/-!
# An open that completes

`onOpenComplete` sends the CONNECT, or has the connection closed and says so, but for one branch: when `mqtt_codec_connect` returns NULL
it only writes a log line. The socket stays connected, nothing has been sent, and nothing ends the connection.
-/

namespace Umqtt

open Past Alloc

/-! ## What an open should lead to -/

/-- A CONNECT packet has been accepted by `xio_send`. -/
def ConnectAccepted (added : List Action) : Prop := ∃ x p, .xioSend x p .zero ∈ added ∧ p.packetType = some .connectType

/-- The connection is not left idle and unreported: a CONNECT has been accepted, or the next `mqtt_client_dowork` closes; and without one,
on a socket that was not connected, the error callback has been called if it is set. -/
structure NotIdle (s t : Session) (added : List Action) : Prop where
  closes : ConnectAccepted added ∨ t.client.mqttStatus.pendingClose = true
  reports : ¬ConnectAccepted added → s.client.mqttStatus.socketConnected = false → s.client.fnOnErrorCallBack = true →
    ∃ e, .onError e ∈ added

/-- The CONNECT packet can be built: the options are accepted and not without a string, and there is memory. -/
def Buildable (s : Session) : Prop :=
  (OptionsAccepted s.client.mqttOptions ∧ 0 < connPayloadLen s.client.mqttOptions) ∧ Meets s.env.heap 6

/-- `mqtt_codec_connect` returns a packet exactly then. -/
theorem isSome_connect_iff (s : Session) : (s.alloc (mqttCodecConnect s.client.mqttOptions)).1.isSome ↔ Buildable s := by
  by_cases hoptions : OptionsAccepted s.client.mqttOptions ∧ 0 < connPayloadLen s.client.mqttOptions
  · have hneeds := (needs_mqttCodecConnect hoptions.1 hoptions.2).isSome_iff s.env.heap
    exact hneeds.trans (and_iff_right hoptions).symm
  · have hnever : (s.alloc (mqttCodecConnect s.client.mqttOptions)).1 = none := never_mqttCodecConnect hoptions s.env.heap
    rw [hnever]
    exact iff_of_false Bool.noConfusion fun hb => hoptions hb.1

theorem notIdle_of_accepted {s t : Session} {added : List Action} (h : ConnectAccepted added) : NotIdle s t added :=
  ⟨Or.inl h, fun hno => absurd h hno⟩

/-! ## The error callback -/

theorem Inner.fnOnErrorCallBack_eq {c c' : MqttClient} {h added : List Action} (hi : Inner c h c' added) :
    c'.fnOnErrorCallBack = c.fnOnErrorCallBack := by
  cases hi <;> rfl

/-- Nothing that is nested in a call sets or clears the error callback. -/
theorem fnOnErrorCallBack_steps {s t : Session} (h : Steps InnerStep s t) : t.client.fnOnErrorCallBack = s.client.fnOnErrorCallBack :=
  h.eq_of_const (fun u => u.client.fnOnErrorCallBack) fun _ _ ⟨_, hi, _⟩ => hi.fnOnErrorCallBack_eq

theorem Finishes.fnOnErrorCallBack_eq {c c' : MqttClient} {result returned : MuResult} {l : List Action}
    (h : Finishes c result c' l returned) : c'.fnOnErrorCallBack = c.fnOnErrorCallBack := by
  cases h <;> rfl

theorem fnOnErrorCallBack_sendPacketItem (depth : Nat) (s : Session) (packet : Buffer) :
    (sendPacketItem (deliver depth) s packet).1.client.fnOnErrorCallBack = s.client.fnOnErrorCallBack := by
  have hback := fnOnErrorCallBack_steps (steps_callBack (steps_deliver depth) (s.handOver packet))
  rw [sendPacketItem_eq]
  obtain ⟨added, hf, -⟩ := finishes (callBack (deliver depth) (s.handOver packet)) s.env.send.head
  exact hf.fnOnErrorCallBack_eq.trans hback

/-! ## The branches -/

section

variable {s : Session}

/-- An open that fails, or that comes when a socket is connected: the connection will be closed. -/
theorem notIdle_openRefused (depth : Nat) {openResult : IoOpenResult}
    (h : ¬(openResult = .ioOpenOk ∧ s.client.mqttStatus.socketConnected = false)) :
    ∃ added, (onOpenComplete (deliver depth) s openResult).history = s.history ++ added ∧
      NotIdle s (onOpenComplete (deliver depth) s openResult) added := by
  have hdone : onOpenComplete (deliver depth) s openResult =
      (if s.client.mqttStatus.socketConnected = false then callOnError (s.log (.event (.openComplete openResult))) .connectionError
        else s.log (.event (.openComplete openResult))).setPendingClose := if_neg h
  rw [hdone]
  split
  · refine ⟨.event (.openComplete openResult) :: onErrorOf s.client .connectionError, ?_, Or.inr rfl, ?_⟩
    · change (callOnError _ _).history = _
      rw [history_callOnError, Session.log, List.append_assoc]
      rfl
    · intro _ _ hset
      exact ⟨.connectionError, by simp [onErrorOf, hset]⟩
  · rename_i hconnected
    exact ⟨[.event (.openComplete openResult)], rfl, Or.inr rfl, fun _ hs => absurd hs hconnected⟩

/-- A CONNECT that is handed over is accepted, or the connection will be closed. -/
theorem notIdle_sent (depth : Nat) {u : Session} {before : List Action} {packet : Buffer} (hhist : u.history = s.history ++ before)
    (hcallback : u.client.fnOnErrorCallBack = s.client.fnOnErrorCallBack) (htype : packet.packetType = some .connectType) :
    ∃ added, (if (sendPacketItem (deliver depth) u packet).2 ≠ .zero then
        (callOnError (sendPacketItem (deliver depth) u packet).1 .connectionError).setPendingClose
      else (sendPacketItem (deliver depth) u packet).1).history = s.history ++ added ∧
      NotIdle s (if (sendPacketItem (deliver depth) u packet).2 ≠ .zero then
        (callOnError (sendPacketItem (deliver depth) u packet).1 .connectionError).setPendingClose
      else (sendPacketItem (deliver depth) u packet).1) added := by
  obtain ⟨nested, hnested, -⟩ := nested_sendPacketItem (nested_deliver depth) u packet
  have hsent : (sendPacketItem (deliver depth) u packet).1.history =
      s.history ++ (before ++ .xioSend u.client.xioHandle packet u.env.send.head :: nested) := by
    rw [hnested, Session.handOver, Session.log, hhist]
    simp
  have hfailed : (callOnError (sendPacketItem (deliver depth) u packet).1 .connectionError).history =
      s.history ++ (before ++ .xioSend u.client.xioHandle packet u.env.send.head :: nested ++ onErrorOf s.client .connectionError) := by
    rw [history_callOnError, hsent, onErrorOf, onErrorOf, fnOnErrorCallBack_sendPacketItem, hcallback, List.append_assoc]
  rcases hresult : u.env.send.head
  · -- the packet is accepted, whatever the clock says
    rw [hresult] at hsent hfailed
    split
    · exact ⟨_, hfailed, notIdle_of_accepted ⟨u.client.xioHandle, packet, by simp, htype⟩⟩
    · exact ⟨_, hsent, notIdle_of_accepted ⟨u.client.xioHandle, packet, by simp, htype⟩⟩
  · have hfail : (sendPacketItem (deliver depth) u packet).2 ≠ .zero := by
      rw [sendPacketItem_eq, hresult]
      exact MuResult.noConfusion
    rw [if_pos hfail]
    exact ⟨_, hfailed, Or.inr rfl, fun _ _ hset => ⟨.connectionError, by simp [onErrorOf, hset]⟩⟩

variable (h : s.client.mqttStatus.socketConnected = false)

include h

/-- The open of a socket: `mqtt_codec_connect` is called. -/
theorem onOpenComplete_ok (depth : Nat) :
    onOpenComplete (deliver depth) s .ioOpenOk =
      sendConnPacket (deliver depth) (beginOpen (s.log (.event (.openComplete .ioOpenOk)))) := if_pos ⟨rfl, h⟩

/-- Without a packet nothing is done. -/
theorem onOpenComplete_notBuilt (depth : Nat) (hnot : ¬Buildable s) :
    (onOpenComplete (deliver depth) s .ioOpenOk).history = s.history ++ [.event (.openComplete .ioOpenOk), .connPacket none] ∧
      (onOpenComplete (deliver depth) s .ioOpenOk).client.mqttStatus.pendingClose = s.client.mqttStatus.pendingClose := by
  rw [onOpenComplete_ok h, sendConnPacket]
  generalize hb : beginOpen (s.log (.event (.openComplete .ioOpenOk))) = b
  have hnone := (isSome_connect_iff b).not.mpr (by rw [← hb]; exact hnot)
  rcases halloc : b.alloc (mqttCodecConnect b.client.mqttOptions) with ⟨_ | packet, t⟩
  · have hclient : t.client = b.client := client_of_alloc halloc
    have hhist : t.history = b.history := history_of_alloc halloc
    refine ⟨?_, ?_⟩
    · change t.history ++ _ = _
      rw [hhist, ← hb]
      simp [beginOpen, Session.log]
    · change t.client.mqttStatus.pendingClose = _
      rw [hclient, ← hb]
      rfl
  · exact absurd (by rw [halloc]; rfl) hnone

/-- With a packet, it is accepted, or the connection will be closed. -/
theorem notIdle_built (depth : Nat) (hbuilt : Buildable s) :
    ∃ added, (onOpenComplete (deliver depth) s .ioOpenOk).history = s.history ++ added ∧
      NotIdle s (onOpenComplete (deliver depth) s .ioOpenOk) added := by
  rw [onOpenComplete_ok h, sendConnPacket]
  generalize hb : beginOpen (s.log (.event (.openComplete .ioOpenOk))) = b
  have hsome := (isSome_connect_iff b).mpr (by rw [← hb]; exact hbuilt)
  rcases halloc : b.alloc (mqttCodecConnect b.client.mqttOptions) with ⟨_ | packet, t⟩
  · exact absurd hsome (by rw [halloc]; exact Bool.false_ne_true)
  · have hclient : t.client = b.client := client_of_alloc halloc
    have hsame : t.history = b.history := history_of_alloc halloc
    have htype : packet.packetType = some .connectType := (packetType_mqttCodecConnect _).of_produces (alloc_produces halloc)
    have hhist : (t.log (.connPacket (some packet))).history =
        s.history ++ [.event (.openComplete .ioOpenOk), .connPacket (some packet)] := by
      rw [Session.log, hsame, ← hb]
      simp [beginOpen, Session.log]
    have hcallback : t.client.fnOnErrorCallBack = s.client.fnOnErrorCallBack := by
      rw [hclient, ← hb]
      rfl
    exact notIdle_sent depth hhist hcallback htype

end

/-! ## The open -/

/-- After an open the connection is not left idle and unreported, whatever the result of the open, the options, the memory and the xio,
exactly when the CONNECT packet can be built if the socket opens, or a close was already pending and no error callback is set. -/
theorem notIdle_iff (depth : Nat) (s : Session) (openResult : IoOpenResult) :
    ∃ added, (onOpenComplete (deliver depth) s openResult).history = s.history ++ added ∧
      (NotIdle s (onOpenComplete (deliver depth) s openResult) added ↔
        (openResult = .ioOpenOk ∧ s.client.mqttStatus.socketConnected = false →
          Buildable s ∨ s.client.mqttStatus.pendingClose = true ∧ s.client.fnOnErrorCallBack = false)) := by
  by_cases hopen : openResult = .ioOpenOk ∧ s.client.mqttStatus.socketConnected = false
  · obtain ⟨rfl, hs⟩ := hopen
    by_cases hbuilt : Buildable s
    · obtain ⟨added, hh, hnot⟩ := notIdle_built hs depth hbuilt
      exact ⟨added, hh, iff_of_true hnot fun _ => Or.inl hbuilt⟩
    · obtain ⟨hh, hpending⟩ := onOpenComplete_notBuilt hs depth hbuilt
      have hno : ¬ConnectAccepted [.event (.openComplete .ioOpenOk), .connPacket none] := by
        rintro ⟨x, p, hmem, -⟩
        exact absurd hmem (by simp)
      refine ⟨_, hh, fun hnot _ => Or.inr ⟨hpending.symm.trans (hnot.closes.resolve_left hno), ?_⟩, ?_⟩
      · by_contra hset
        obtain ⟨e, he⟩ := hnot.reports hno hs (eq_true_of_ne_false hset)
        exact absurd he (by simp)
      · intro hcond
        obtain ⟨hpend, hset⟩ := (hcond ⟨rfl, hs⟩).resolve_left hbuilt
        exact ⟨Or.inr (hpending.trans hpend), fun _ _ htrue => absurd (hset.symm.trans htrue) Bool.false_ne_true⟩
  · obtain ⟨added, hh, hnot⟩ := notIdle_openRefused depth hopen
    exact ⟨added, hh, iff_of_true hnot fun h => absurd h hopen⟩

/-- A password without a user name: the socket opens, no CONNECT is built, and nothing follows, in a `mqtt_client_dowork` neither. -/
theorem not_notIdle_password :
    let mqttOptions : MqttClientOptions :=
      { clientId := some letterA, willTopic := none, willMessage := none, username := none,
        password := some ⟨[0x62], by decide⟩, keepAliveInterval := 20, messageRetain := false, useCleanSession := true,
        qualityOfServiceValue := .deliverAtMostOnce }
    let s := (run 1 (mqttClientInit true calmEnv okHeap) [.connect (some 1) (some mqttOptions)]).callContext
    let t := onOpenComplete (deliver 1) s .ioOpenOk
    t.history = s.history ++ [.event (.openComplete .ioOpenOk), .connPacket none] ∧ t.client.mqttStatus.socketConnected = true ∧
      (mqttClientDowork (deliver 1) ⟨mqttCodecCreate, okHeap, t⟩ []).callContext.history = t.history ++ [.xioDowork (some 1)] ∧
      ¬∃ added, t.history = s.history ++ added ∧ NotIdle s t added := by
  intro mqttOptions s t
  have hhist : t.history = s.history ++ [.event (.openComplete .ioOpenOk), .connPacket none] := by decide +kernel
  have hpending : ¬t.client.mqttStatus.pendingClose = true := by decide +kernel
  refine ⟨hhist, by decide +kernel, by decide +kernel, ?_⟩
  rintro ⟨added, hh, hnot⟩
  obtain rfl : added = [.event (.openComplete .ioOpenOk), .connPacket none] := List.append_cancel_left (hh.symm.trans hhist)
  obtain ⟨x, p, hmem, -⟩ := hnot.closes.resolve_right hpending
  exact absurd hmem (by simp)

end Umqtt
