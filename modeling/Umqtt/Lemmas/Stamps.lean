import Umqtt.Theorems.Reconnect

/-!
# The two times of the client

`packetSendTimeMs` is stamped when a packet is sent, and `timeSincePing` when a PINGREQ is; a PINGRESP clears the latter. `Ticks`
says what a run of callbacks, or of a call, does to them, read off the entries that it adds, when the tick counter shows one time.
-/

namespace Umqtt

open Alloc

/-! ## Entries -/

/-- A packet is handed to `xio_send`, which accepts it. -/
def Action.isSent : Action → Bool
  | .xioSend _ _ result => result = .zero
  | _ => false

/-- A PINGREQ is handed to `xio_send`, which accepts it. -/
def Action.isPing (a : Action) : Bool := a.isSent && a.sendsType .pingreqType

/-- A PINGRESP is received. -/
def Action.answersPing : Action → Bool
  | .packet t _ _ => t = .pingrespType
  | _ => false

/-- `MQTT_CLIENT_NO_PING_RESPONSE` is reported. -/
def Action.isNoPing : Action → Bool
  | .setErrorCallback errorType | .onError errorType => errorType = .noPingResponse
  | _ => false

/-- Sends are accepted, and the tick counter shows the given time. -/
def Action.Fits (now : UInt64) : Action → Prop
  | .xioSend _ _ result => result = .zero
  | .clock currentMs => currentMs = some now
  | _ => True

instance (now : UInt64) : (a : Action) → Decidable (a.Fits now)
  | .xioSend _ _ result => inferInstanceAs (Decidable (result = .zero))
  | .clock currentMs => inferInstanceAs (Decidable (currentMs = some now))
  | .connect _ _ | .connectReturns _ | .disconnect _ | .clearXio | .event _ | .bytesReceived _ | .packet _ _ _ | .xioOpen _ _
  | .sendReturns _ | .xioClose _ | .xioDowork _ | .connPacket _ | .operation _ | .messageRecv _ _ | .setErrorCallback _
  | .onError _ | .disconnected _ => inferInstanceAs (Decidable True)

/-- An entry that is neither a send nor about a ping. -/
def Action.Idle (a : Action) : Prop := a.isSent = false ∧ a.answersPing = false ∧ a.isNoPing = false

theorem Action.Idle.not_isPing {a : Action} (h : a.Idle) : a.isPing = false := by
  unfold isPing
  rw [h.1, Bool.false_and]

theorem Action.Plain.idle {a : Action} (h : a.Plain) : a.Idle := by
  cases a with
  | xioSend | packet => exact absurd h id
  | setErrorCallback | onError => exact ⟨rfl, rfl, decide_eq_false h⟩
  | _ => exact ⟨rfl, rfl, rfl⟩

/-! ## What is done to the times -/

/-- What a run does that takes the client from `c` to `c'` and adds the given entries. -/
structure Ticks (now : UInt64) (c c' : MqttClient) (added : List Action) : Prop where
  keepAliveInterval : c'.keepAliveInterval = c.keepAliveInterval
  maxPingRespTime : c'.maxPingRespTime = c.maxPingRespTime
  xioHandle : c'.xioHandle.isSome = true → c.xioHandle.isSome = true
  stamped : (∀ a ∈ added, a.Fits now) → c'.packetSendTimeMs = if added.any Action.isSent then now else c.packetSendTimeMs
  answered : c'.timeSincePing = if added.any Action.answersPing then 0 else c.timeSincePing

section

variable {now : UInt64} {c c' c'' : MqttClient} {added more : List Action}

theorem Ticks.trans (h : Ticks now c c' added) (h' : Ticks now c' c'' more) : Ticks now c c'' (added ++ more) where
  keepAliveInterval := h'.keepAliveInterval.trans h.keepAliveInterval
  maxPingRespTime := h'.maxPingRespTime.trans h.maxPingRespTime
  xioHandle := fun hs => h.xioHandle (h'.xioHandle hs)
  stamped := by
    intro hfits
    rw [h'.stamped fun a ha => hfits a (List.mem_append_right _ ha), h.stamped fun a ha => hfits a (List.mem_append_left _ ha),
      List.any_append]
    rcases more.any Action.isSent
    · rw [Bool.or_false, if_neg Bool.false_ne_true]
    · simp
  answered := by
    rw [h'.answered, h.answered, List.any_append]
    rcases more.any Action.answersPing
    · rw [Bool.or_false, if_neg Bool.false_ne_true]
    · simp

/-- Entries that are neither sends nor answers, and a client whose times and handle are the same. -/
theorem ticks_idle (hk : c'.keepAliveInterval = c.keepAliveInterval) (hm : c'.maxPingRespTime = c.maxPingRespTime)
    (hx : c'.xioHandle.isSome = true → c.xioHandle.isSome = true) (hp : c'.packetSendTimeMs = c.packetSendTimeMs)
    (ht : c'.timeSincePing = c.timeSincePing) (hidle : ∀ a ∈ added, a.Idle) : Ticks now c c' added where
  keepAliveInterval := hk
  maxPingRespTime := hm
  xioHandle := hx
  stamped := by
    intro _
    have hnone : added.any Action.isSent = false := List.any_eq_false.mpr fun a ha => by simp [(hidle a ha).1]
    rw [hnone, if_neg Bool.false_ne_true, hp]
  answered := by
    have hnone : added.any Action.answersPing = false := List.any_eq_false.mpr fun a ha => by simp [(hidle a ha).2.1]
    rw [hnone, if_neg Bool.false_ne_true, ht]

/-- The xio is forgotten. -/
theorem Ticks.detached (h : Ticks now c c' added) : Ticks now c { c' with xioHandle := none } added :=
  ⟨h.keepAliveInterval, h.maxPingRespTime, fun hs => absurd hs (by simp), h.stamped, h.answered⟩

/-- An accepted packet is stamped. -/
theorem Ticks.send {x : Option XioHandle} {p : Buffer} {result returned : MuResult} (h : Ticks now c c' added)
    (hf : Finishes c' result c'' more returned) : Ticks now c c'' (.xioSend x p result :: (added ++ more)) where
  keepAliveInterval := by cases hf <;> exact h.keepAliveInterval
  maxPingRespTime := by cases hf <;> exact h.maxPingRespTime
  xioHandle := by cases hf <;> exact h.xioHandle
  stamped := by
    intro hfits
    have hresult : result = .zero := hfits _ List.mem_cons_self
    have hclock : ∀ currentMs, .clock currentMs ∈ more → currentMs = some now :=
      fun currentMs hin => hfits (.clock currentMs) (by simp [hin])
    have hsent : (Action.xioSend x p result :: (added ++ more)).any Action.isSent = true := by
      rw [List.any_cons, Action.isSent, decide_eq_true hresult, Bool.true_or]
    rw [hsent, if_pos rfl]
    cases hf with
    | refused hno => exact absurd hresult hno
    | noTime => exact absurd (hclock none (by simp)) (by simp)
    | stamped currentMs => exact Option.some.inj (hclock (some currentMs) (by simp))
  answered := by
    have hmore : more.any Action.answersPing = false := List.any_eq_false.mpr fun a ha => by simp [(plain_finishes hf a ha).idle.2.1]
    have hsame : c''.timeSincePing = c'.timeSincePing := by cases hf <;> rfl
    have hfirst : (Action.xioSend x p result).answersPing = false := rfl
    rw [hsame, h.answered, List.any_cons, List.any_append, hmore, hfirst, Bool.false_or, Bool.or_false]

end

/-! ## Callbacks -/

/-- The entries of a run of callbacks: none is a PINGREQ, an answer to one, or the report that there is no answer, and nothing is sent
unless the xio opens. -/
structure IoEntries (added : List Action) : Prop where
  noPing : ∀ a ∈ added, a.isPing = false ∧ a.answersPing = false ∧ a.isNoPing = false
  quiet : (∀ a ∈ added, a.isOpen = false) → ∀ a ∈ added, a.isSent = false

theorem IoEntries.append {added more : List Action} (h : IoEntries added) (h' : IoEntries more) : IoEntries (added ++ more) where
  noPing := fun a ha => (List.mem_append.mp ha).elim (h.noPing a) (h'.noPing a)
  quiet := fun hopen a ha => (List.mem_append.mp ha).elim
    (h.quiet (fun b hb => hopen b (List.mem_append_left _ hb)) a)
    (h'.quiet (fun b hb => hopen b (List.mem_append_right _ hb)) a)

theorem ioEntries_of_idle {added : List Action} (h : ∀ a ∈ added, a.Idle) : IoEntries added :=
  ⟨fun a ha => ⟨(h a ha).not_isPing, (h a ha).2⟩, fun _ a ha => (h a ha).1⟩

/-- What is done at once by a callback. -/
theorem ticks_local {now : UInt64} {c c' : MqttClient} {h added : List Action} (hl : Local c h c' added) :
    Ticks now c c' added ∧ IoEntries added := by
  have hidle : ∀ a ∈ added, a.Idle := by
    rcases entries_local hl with hplain | ⟨-, rfl⟩
    · exact fun a ha => (hplain a ha).idle
    · intro a ha
      simp only [List.mem_cons, List.not_mem_nil, or_false] at ha
      rcases ha with rfl | rfl <;> exact ⟨rfl, rfl, rfl⟩
  refine ⟨?_, ioEntries_of_idle hidle⟩
  cases hl <;> exact ticks_idle rfl rfl id rfl rfl hidle

/-- A run of callbacks. -/
theorem ticks_ioRun (now : UInt64) {s t : Session} (h : IoRun s t) :
    ∃ added, t.history = s.history ++ added ∧ Ticks now s.client t.client added ∧ IoEntries added := by
  induction h with
  | refl s => exact ⟨[], by simp, ticks_idle rfl rfl id rfl rfl (by simp), ioEntries_of_idle (by simp)⟩
  | trans _ _ ih ih' =>
    obtain ⟨added, hh, ht, ho⟩ := ih
    obtain ⟨more, hh', ht', ho'⟩ := ih'
    exact ⟨added ++ more, by rw [hh', hh, List.append_assoc], ht.trans ht', ho.append ho'⟩
  | direct hl hh _ => exact ⟨_, hh, ticks_local hl⟩
  | @fail s t e he _ _ ih =>
    obtain ⟨added, hh, ht, ho⟩ := ih
    rw [client_failing] at ht
    rw [history_failing, List.append_assoc] at hh
    have hfirst : ∀ a ∈ reportOf s.client e ++ [.xioClose s.client.xioHandle], a.Idle := by
      intro a ha
      rcases List.mem_append.mp ha with ha | ha
      · exact (plain_reportOf s.client he a ha).idle
      · exact List.mem_singleton.mp ha ▸ ⟨rfl, rfl, rfl⟩
    have hreport : Ticks now s.client s.client (reportOf s.client e ++ [.xioClose s.client.xioHandle]) :=
      ticks_idle rfl rfl id rfl rfl hfirst
    exact ⟨_, hh, (hreport.trans ht).detached, (ioEntries_of_idle hfirst).append ho⟩
  | @connect s u t packet _ hp hc hh _ _ ih =>
    obtain ⟨added, hh', ht, ho⟩ := ih
    obtain ⟨more, hf, hmore⟩ := finishes t u.env.send.head
    have htype : packet.packetType = some .connectType := (packetType_mqttCodecConnect _).of_produces hp
    have hping : (Action.xioSend u.client.xioHandle packet u.env.send.head).isPing = false := by
      have : (Action.xioSend u.client.xioHandle packet u.env.send.head).sendsType .pingreqType = false := by
        simp [Action.sendsType, htype]
      rw [Action.isPing, this, Bool.and_false]
    have hbegin : Ticks now s.client u.client [.event (.openComplete .ioOpenOk), .connPacket (some packet)] := by
      rw [hc]
      refine ticks_idle rfl rfl id rfl rfl ?_
      intro a ha
      simp only [List.mem_cons, List.not_mem_nil, or_false] at ha
      rcases ha with rfl | rfl <;> exact ⟨rfl, rfl, rfl⟩
    refine ⟨[.event (.openComplete .ioOpenOk), .connPacket (some packet)] ++
      .xioSend u.client.xioHandle packet u.env.send.head :: (added ++ more), ?_, hbegin.trans (ht.send hf), ?_, ?_⟩
    · rw [hmore, hh', Session.handOver, Session.log, hh]
      simp
    · intro a ha
      simp only [List.mem_append, List.mem_cons, List.not_mem_nil, or_false] at ha
      rcases ha with (rfl | rfl) | rfl | ha | ha
      · exact ⟨rfl, rfl, rfl⟩
      · exact ⟨rfl, rfl, rfl⟩
      · exact ⟨hping, rfl, rfl⟩
      · exact ho.noPing a ha
      · exact ⟨(plain_finishes hf a ha).idle.not_isPing, (plain_finishes hf a ha).idle.2⟩
    · exact fun hopen => absurd (hopen (.event (.openComplete .ioOpenOk)) (by simp)) (by simp [Action.isOpen])

/-! ## Calls -/

/-- What a call does to the times, the keep-alive part of `mqtt_client_dowork` apart: it adds entries, and none of them is a PINGREQ. -/
def Keeps (now : UInt64) (s t : Session) : Prop :=
  ∃ added, t.history = s.history ++ added ∧ Ticks now s.client t.client added ∧ ∀ a ∈ added, a.isPing = false

section

variable {now : UInt64} {s t u : Session}

theorem Keeps.trans (h : Keeps now s t) (h' : Keeps now t u) : Keeps now s u := by
  obtain ⟨added, hh, ht, hp⟩ := h
  obtain ⟨more, hh', ht', hp'⟩ := h'
  exact ⟨added ++ more, by rw [hh', hh, List.append_assoc], ht.trans ht', fun a ha => (List.mem_append.mp ha).elim (hp a) (hp' a)⟩

theorem keeps_ioRun (h : IoRun s t) : Keeps now s t := by
  obtain ⟨added, hh, ht, ho⟩ := ticks_ioRun now h
  exact ⟨added, hh, ht, fun a ha => (ho.noPing a ha).1⟩

theorem Keeps.detached (h : Keeps now s t) : Keeps now s t.detached := by
  obtain ⟨added, hh, ht, hp⟩ := h
  exact ⟨added, hh, ht.detached, hp⟩

/-- Entries that are neither sends nor answers, and a client whose times and handle are the same. -/
theorem keeps_idle {l : List Action} (hh : t.history = s.history ++ l)
    (hk : t.client.keepAliveInterval = s.client.keepAliveInterval) (hm : t.client.maxPingRespTime = s.client.maxPingRespTime)
    (hx : t.client.xioHandle.isSome = true → s.client.xioHandle.isSome = true)
    (hp : t.client.packetSendTimeMs = s.client.packetSendTimeMs) (ht : t.client.timeSincePing = s.client.timeSincePing)
    (hidle : ∀ a ∈ l, a.Idle) : Keeps now s t :=
  ⟨l, hh, ticks_idle hk hm hx hp ht hidle, fun a ha => (hidle a ha).not_isPing⟩

/-- A packet other than a PINGREQ is handed over and sent. -/
theorem keeps_send {packet : Buffer} (hp : packet.packetType ≠ some .pingreqType) (h : IoRun (s.handOver packet) t) :
    Keeps now s (finishSend t s.env.send.head).1 := by
  obtain ⟨added, hh, ht, ho⟩ := ticks_ioRun now h
  obtain ⟨more, hf, hmore⟩ := finishes t s.env.send.head
  have hfirst : (Action.xioSend s.client.xioHandle packet s.env.send.head).isPing = false := by
    have : (Action.xioSend s.client.xioHandle packet s.env.send.head).sendsType .pingreqType = false := decide_eq_false hp
    rw [Action.isPing, this, Bool.and_false]
  refine ⟨.xioSend s.client.xioHandle packet s.env.send.head :: (added ++ more), ?_, ht.send hf, ?_⟩
  · rw [hmore, hh, Session.handOver, Session.log]
    simp
  · intro a ha
    rcases List.mem_cons.mp ha with rfl | ha
    · exact hfirst
    · rcases List.mem_append.mp ha with ha | ha
      · exact (ho.noPing a ha).1
      · exact (plain_finishes hf a ha).idle.not_isPing

theorem keeps_replyRun {types : List ControlPacketType} (h : ReplyRun types s t) : Keeps now s t := by
  induction h with
  | io hrun => exact keeps_ioRun hrun
  | trans _ _ ih ih' => exact ih.trans ih'
  | send hp ht _ hrun =>
    refine keeps_send ?_ hrun
    rw [hp]
    intro heq
    rw [Option.some.inj heq] at ht
    exact absurd ht (by decide)

/-- A PINGRESP clears the time of the ping. -/
theorem timeSincePing_told {packet : ControlPacketType} {flags : UInt8} {body : List UInt8} {x : Heard} {a : Action}
    (hx : heard packet flags body = some x) (ha : x.Says a) (c : MqttClient) :
    (c.told a).timeSincePing = if packet = .pingrespType then 0 else c.timeSincePing := by
  rcases said_cases hx ha with ⟨rfl, rfl⟩ | ⟨hpacket, hping, -⟩
  · rfl
  · rw [if_neg hpacket]
    unfold MqttClient.told
    split
    · split <;> rfl
    · exact absurd rfl hping
    · rfl

/-- Only the status and the time of the ping change when a packet is delivered. -/
theorem told_eq (c : MqttClient) (a : Action) :
    c.told a = { c with mqttStatus := (c.told a).mqttStatus, timeSincePing := (c.told a).timeSincePing } := by
  unfold MqttClient.told
  split
  · split <;> rfl
  · rfl
  · rfl

/-- The entry that something a packet says leaves is neither a send nor an answer. -/
theorem idle_of_says {x : Heard} {a : Action} (h : x.Says a) : a.Idle := by
  cases h <;> exact ⟨rfl, rfl, rfl⟩

/-- A received packet. -/
theorem keeps_serves {packet : ControlPacketType} {flags : UInt8} {headerData : Option Buffer}
    (h : Serves packet flags (bodyOf headerData) (s.log (.packet packet flags headerData)) t) : Keeps now s t := by
  -- the entry of a packet that is no PINGRESP
  have hentry : packet ≠ .pingrespType → Keeps now s (s.log (.packet packet flags headerData)) := by
    intro hp
    exact keeps_idle rfl rfl rfl id rfl rfl fun a ha => List.mem_singleton.mp ha ▸ ⟨rfl, decide_eq_false hp, rfl⟩
  cases h with
  | silent hp hrun => exact (hentry hp).trans (keeps_ioRun hrun)
  | @delivers u _ x a hx ha hc hh _ hrun =>
    have hidle := idle_of_says ha
    have htold := hc.trans (told_eq s.client a)
    refine Keeps.trans (t := u) ⟨[.packet packet flags headerData, a], ?_, ⟨?_, ?_, ?_, ?_, ?_⟩, ?_⟩ (keeps_replyRun hrun)
    · rw [hh, Session.log, List.append_assoc]
      rfl
    · rw [htold]
    · rw [htold]
    · rw [htold]
      exact id
    · intro _
      rw [htold, List.any_cons, List.any_cons, hidle.1]
      rfl
    · rw [hc]
      change (s.client.told a).timeSincePing = _
      rw [timeSincePing_told hx ha, List.any_cons, List.any_cons, hidle.2.1]
      simp [Action.answersPing]
    · intro b hb
      simp only [List.mem_cons, List.not_mem_nil, or_false] at hb
      rcases hb with rfl | rfl
      · rfl
      · exact hidle.not_isPing
  | suback suback hp _ hrun _ =>
    have hlog : ∀ r : Session, Keeps now r (r.log (.operation (.onSubscribeAck suback))) := by
      intro r
      exact keeps_idle rfl rfl rfl id rfl rfl fun a ha => List.mem_singleton.mp ha ▸ ⟨rfl, rfl, rfl⟩
    exact ((hentry (by rw [hp]; exact ControlPacketType.noConfusion)).trans (keeps_ioRun hrun)).trans (hlog _)

theorem keeps_callRun {own : List ControlPacketType} (h : CallRun own s t) : Keeps now s t := by
  induction h with
  | io hrun => exact keeps_ioRun hrun
  | trans _ _ ih ih' => exact ih.trans ih'
  | @direct s t added hl hh _ =>
    generalize hc : t.client = c at hl
    cases hl with
    | bytes | working | opens | connectReturns | clear | disconnectNoPacket =>
      refine keeps_idle hh ?_ ?_ ?_ ?_ ?_ fun a ha => List.mem_singleton.mp ha ▸ ⟨rfl, rfl, rfl⟩
      all_goals simp [hc]
    | options =>
      refine keeps_idle hh ?_ ?_ ?_ ?_ ?_ (by simp)
      all_goals simp [hc]
    | disconnectClosed callback =>
      have hidle : ∀ a ∈ Action.disconnect callback :: callback.toList.map .disconnected, a.Idle := by
        intro a ha
        rcases List.mem_cons.mp ha with rfl | ha
        · exact ⟨rfl, rfl, rfl⟩
        · obtain ⟨_, -, rfl⟩ := List.mem_map.mp ha
          exact ⟨rfl, rfl, rfl⟩
      refine keeps_idle hh ?_ ?_ ?_ ?_ ?_ hidle
      all_goals simp [hc]
  | reply hrun => exact keeps_replyRun hrun
  | packet packet flags headerData hserves => exact keeps_serves hserves
  | @send s u t added packet hs hh _ hrun =>
    generalize hc : u.client = c at hs
    have htype : packet.packetType ≠ some .pingreqType := by
      cases hs with
      | request _ _ hmem hp _ =>
        rw [hp]
        rintro heq
        rw [Option.some.inj heq] at hmem
        exact absurd hmem (by decide)
      | disconnect _ _ _ hp _ =>
        rw [hp]
        simp
    have hbegin : Keeps now s u := by
      cases hs with
      | request =>
        refine keeps_idle hh ?_ ?_ ?_ ?_ ?_ (by simp)
        all_goals simp [hc]
      | disconnect =>
        refine keeps_idle hh ?_ ?_ ?_ ?_ ?_ fun a ha => List.mem_singleton.mp ha ▸ ⟨rfl, rfl, rfl⟩
        all_goals simp [hc]
    exact hbegin.trans (keeps_send htype hrun)
  | @openFails s u t x r _ hc hh _ hrun =>
    have hlog : Keeps now s u := keeps_idle hh (by rw [hc]) (by rw [hc]) (by rw [hc]; exact id) (by rw [hc]) (by rw [hc])
      fun a ha => List.mem_singleton.mp ha ▸ ⟨rfl, rfl, rfl⟩
    exact (hlog.trans (keeps_ioRun hrun)).detached
  | @disconnect s t callback _ _ hrun =>
    have hbegin : Keeps now s ((s.disconnecting callback).log (.xioClose s.client.xioHandle)) := by
      refine keeps_idle (l := [.disconnect callback, .xioClose s.client.xioHandle]) (by simp [Session.disconnecting, Session.log])
        rfl rfl id rfl rfl fun a ha => ?_
      simp only [List.mem_cons, List.not_mem_nil, or_false] at ha
      rcases ha with rfl | rfl <;> exact ⟨rfl, rfl, rfl⟩
    exact (hbegin.trans (keeps_ioRun hrun)).detached
  | @closePending s t _ _ hrun =>
    have hbegin : Keeps now s (s.log (.xioClose s.client.xioHandle)) :=
      keeps_idle rfl rfl rfl id rfl rfl fun a ha => List.mem_singleton.mp ha ▸ ⟨rfl, rfl, rfl⟩
    obtain ⟨added, hh, ht, hp⟩ := (hbegin.trans (keeps_ioRun hrun)).detached
    exact ⟨added, hh, ⟨ht.keepAliveInterval, ht.maxPingRespTime, ht.xioHandle, ht.stamped, ht.answered⟩, hp⟩

end

end Umqtt
