import Umqtt.Lemmas.Stamps
import Umqtt.Lib.Timed

/-!
# Keep-alive

A connection is followed in time, from its `mqtt_client_connect` on: every entry has the time of the call that made it. A PINGREQ is
unanswered from its send until a PINGRESP is received. The keep-alive part of `mqtt_client_dowork` compares the times that the client
keeps (`packetSendTimeMs`, `timeSincePing`, with 0 for none), and it does what the log calls for: it reports a PINGREQ that is
unanswered for too long, and sends one when nothing has been sent for long enough.
-/

namespace Umqtt

open Past Timed

/-! ## A connection in time -/

/-- A connection: the world, and the log since its `mqtt_client_connect`. -/
structure Connection where
  world : World
  log : List (UInt64 × Action)

/-- What a call adds to the history. -/
def addedBy (depth : Nat) (w : World) (call : Call) : List Action :=
  (runCall depth w call).callContext.history.drop w.callContext.history.length

/-- The connection after a call that is made at the given time. -/
def Connection.after (depth : Nat) (x : Connection) (now : UInt64) (call : Call) : Connection :=
  { world := runCall depth x.world call, log := x.log ++ stamp now (addedBy depth x.world call) }

/-- `mqtt_client_dowork` comes to its keep-alive part: there is an xio, and no close is pending. -/
def Checks (w : World) : Prop := w.callContext.client.xioHandle.isSome = true ∧ w.callContext.client.mqttStatus.pendingClose = false

/-- The session at the keep-alive part of `mqtt_client_dowork`, once the xio has done its work. -/
def atCheck (depth : Nat) (w : World) (events : List WorkEvent) : Session :=
  (events.foldl (handleWork (deliver depth))
    { w with callContext := w.callContext.log (.xioDowork w.callContext.client.xioHandle) }).callContext

/-- The log at that time. -/
def Connection.logAtCheck (depth : Nat) (x : Connection) (now : UInt64) (events : List WorkEvent) : List (UInt64 × Action) :=
  x.log ++ stamp now ((atCheck depth x.world events).history.drop x.world.callContext.history.length)

/-- What the keep-alive part adds to the history. -/
def addedByCheck (depth : Nat) (w : World) (events : List WorkEvent) : List Action :=
  (runCall depth w (.dowork events)).callContext.history.drop (atCheck depth w events).history.length

/-- The keep-alive part finds the connection open, after a packet has been sent on it, and a PINGREQ can be built. -/
structure FindsOpen (log : List (UInt64 × Action)) (s : Session) : Prop where
  xioHandle : s.client.xioHandle.isSome = true
  socketConnected : s.client.mqttStatus.socketConnected = true
  clientConnected : s.client.mqttStatus.clientConnected = true
  sent : (lastTime Action.isSent log).isSome = true
  pingPacket : (s.alloc mqttCodecPing).1.isSome = true

/-- Where one connection gets to by a time: sends are accepted, the clock does not go back and shows one time during a call, and
`mqtt_client_dowork` finds the connection open when it comes to its keep-alive part. -/
inductive Reaches (depth : Nat) (keepAliveInterval : UInt16) : UInt64 → Connection → Prop
  | connect (w : World) (now : UInt64) (xioHandle : XioHandle) (mqttOptions : MqttClientOptions) :
      mqttOptions.keepAliveInterval = keepAliveInterval →
      (∀ a ∈ addedBy depth w (.connect (some xioHandle) (some mqttOptions)), a.Fits now) →
      Reaches depth keepAliveInterval now (Connection.after depth ⟨w, []⟩ now (.connect (some xioHandle) (some mqttOptions)))
  | call {before : UInt64} {x : Connection} (now : UInt64) (call : Call) : Reaches depth keepAliveInterval before x → before ≤ now →
      call.connects = false →
      (∀ events, call = .dowork events → Checks x.world →
        FindsOpen (x.logAtCheck depth now events) (atCheck depth x.world events)) →
      (∀ a ∈ addedBy depth x.world call, a.Fits now) → Reaches depth keepAliveInterval now (x.after depth now call)

/-! ## What the log calls for -/

/-- The time of the latest PINGREQ, if it is unanswered. -/
def unanswered (log : List (UInt64 × Action)) : Option UInt64 := waiting Action.isPing Action.answersPing log

/-- No PINGREQ is sent while an earlier one is unanswered. -/
def OnePingAtATime (log : List (UInt64 × Action)) : Prop := Always (fun before e => e.2.isPing = true → unanswered before = none) log

/-- A PINGREQ is unanswered, and was sent too many whole seconds ago. -/
def Overdue (keepAliveInterval : UInt16) (now : UInt64) (log : List (UInt64 × Action)) : Prop :=
  ∃ since, unanswered log = some since ∧ min 80 (keepAliveInterval.toNat / 2) < (now.toNat - since.toNat) / 1000

/-- No PINGREQ is unanswered, and the last packet was sent enough whole seconds ago. -/
def PingDue (keepAliveInterval : UInt16) (now : UInt64) (log : List (UInt64 × Action)) : Prop :=
  unanswered log = none ∧
    ∃ sent, lastTime Action.isSent log = some sent ∧ keepAliveInterval.toNat ≤ (now.toNat - sent.toNat) / 1000

/-- What the keep-alive part does, for a log and a client: its reports of `MQTT_CLIENT_NO_PING_RESPONSE` and the PINGREQs that it sends.
It sends nothing else, unless the xio opens again meanwhile. -/
structure KeepsAlive (keepAliveInterval : UInt16) (now : UInt64) (log : List (UInt64 × Action)) (c : MqttClient) (check : List Action) :
    Prop where
  overdue : Overdue keepAliveInterval now log → check.filter Action.isNoPing = reportOf c .noPingResponse
  notOverdue : ¬Overdue keepAliveInterval now log → check.filter Action.isNoPing = []
  due : PingDue keepAliveInterval now log →
    ∃ packet, packet.packetType = some .pingreqType ∧ check.filter Action.isPing = [.xioSend c.xioHandle packet .zero]
  notDue : ¬PingDue keepAliveInterval now log → check.filter Action.isPing = []
  nothingElse : (∀ a ∈ check, a.isOpen = false) → ∀ a ∈ check, a.isSent = true → a.isPing = true

/-! ## The invariant -/

/-- The times that the client keeps are those of the log. -/
structure Watched (c : MqttClient) (log : List (UInt64 × Action)) : Prop where
  timeSincePing : c.timeSincePing = (unanswered log).getD 0
  packetSendTimeMs : ∀ sent, lastTime Action.isSent log = some sent → c.packetSendTimeMs = sent
  afterPing : ∀ since, unanswered log = some since →
    1000 ≤ since.toNat ∧ ∃ sent, lastTime Action.isSent log = some sent ∧ since ≤ sent

structure KeepAliveInv (keepAliveInterval : UInt16) (now : UInt64) (c : MqttClient) (log : List (UInt64 × Action)) : Prop where
  interval : c.keepAliveInterval = keepAliveInterval
  maxPing : c.maxPingRespTime.toNat = min 80 (keepAliveInterval.toNat / 2)
  past : ∀ e ∈ log, e.1 ≤ now
  pings : OnePingAtATime log
  watched : c.xioHandle.isSome = true → Watched c log

section

variable {keepAliveInterval : UInt16} {before now : UInt64} {c c' : MqttClient} {log : List (UInt64 × Action)} {added : List Action}

/-- Entries that are no PINGREQs, at one time, keep to one PINGREQ at a time. -/
theorem OnePingAtATime.stamp (h : OnePingAtATime log) (ha : ∀ a ∈ added, a.isPing = false) :
    OnePingAtATime (log ++ Timed.stamp now added) := by
  refine h.append ?_
  intro pre e post heq hping
  have hin := (mem_stamp (heq ▸ by simp : e ∈ Timed.stamp now added)).2
  exact absurd (hping.symm.trans (ha e.2 hin)) (by decide)

theorem past_stamp (h : ∀ e ∈ log, e.1 ≤ before) (hle : before ≤ now) : ∀ e ∈ log ++ stamp now added, e.1 ≤ now := by
  intro e he
  rcases List.mem_append.mp he with he | he
  · exact UInt64.le_trans (h e he) hle
  · exact (mem_stamp he).1 ▸ UInt64.le_refl _

/-- What calls do, apart from the keep-alive part of `mqtt_client_dowork`, keeps the invariant. -/
theorem KeepAliveInv.ticks (h : KeepAliveInv keepAliveInterval before c log) (hle : before ≤ now) (ht : Ticks now c c' added)
    (hfits : ∀ a ∈ added, a.Fits now) (hping : ∀ a ∈ added, a.isPing = false) :
    KeepAliveInv keepAliveInterval now c' (log ++ stamp now added) where
  interval := ht.keepAliveInterval.trans h.interval
  maxPing := by rw [ht.maxPingRespTime, h.maxPing]
  past := past_stamp h.past hle
  pings := h.pings.stamp hping
  watched := by
    intro hx
    obtain ⟨htime, hsend, hafter⟩ := h.watched (ht.xioHandle hx)
    have hwait : unanswered (log ++ stamp now added) = if added.any Action.answersPing then none else unanswered log :=
      waiting_stamp Action.answersPing log now hping
    have hlast := lastTime_stamp Action.isSent log now added
    refine ⟨?_, ?_, ?_⟩
    · rw [ht.answered, hwait, htime]
      split <;> rfl
    · intro sent hsent
      rw [ht.stamped hfits]
      rw [hlast] at hsent
      split
      · rename_i hany
        rw [if_pos hany] at hsent
        exact Option.some.inj hsent
      · rename_i hany
        rw [if_neg hany] at hsent
        exact hsend sent hsent
    · intro since hsince
      have hold : unanswered log = some since := by
        rw [hwait] at hsince
        split at hsince
        · exact absurd hsince (by simp)
        · exact hsince
      obtain ⟨hms, sent, hsent, hord⟩ := hafter since hold
      refine ⟨hms, ?_⟩
      rw [hlast]
      split
      · obtain ⟨e, he, rfl⟩ := exists_mem_of_lastTime hsent
        exact ⟨now, rfl, UInt64.le_trans (UInt64.le_trans hord (h.past e he)) hle⟩
      · exact ⟨sent, hsent, hord⟩

/-! ## The keep-alive part -/

/-- Whole seconds between two times. -/
theorem toNat_seconds {since : UInt64} (h : since ≤ now) : ((now - since) / 1000).toNat = (now.toNat - since.toNat) / 1000 := by
  rw [UInt64.toNat_div, UInt64.toNat_sub_of_le now since h]
  rfl

/-- What `mqtt_client_dowork` tests first. -/
theorem overdue_iff (h : KeepAliveInv keepAliveInterval now c log) (hw : Watched c log) :
    (c.timeSincePing > 0 ∧ (now - c.timeSincePing) / 1000 > c.maxPingRespTime.toUInt64) ↔ Overdue keepAliveInterval now log := by
  unfold Overdue
  rcases hwait : unanswered log with _ | since
  · rw [hw.timeSincePing, hwait]
    simp
  · obtain ⟨hms, sent, hsent, hord⟩ := hw.afterPing since hwait
    obtain ⟨e, he, hsent'⟩ := exists_mem_of_lastTime hsent
    have hle : since ≤ now := UInt64.le_trans hord (hsent' ▸ h.past e he)
    have hpos : since > 0 := UInt64.lt_iff_toNat_lt.mpr (by rw [UInt64.toNat_zero]; omega)
    rw [hw.timeSincePing, hwait, Option.getD_some, and_iff_right hpos, gt_iff_lt, UInt64.lt_iff_toNat_lt, toNat_seconds hle,
      UInt16.toNat_toUInt64, h.maxPing]
    simp

/-- What it tests then. An unanswered PINGREQ that is not overdue was sent too recently for another one. -/
theorem pingDue_iff (hK : 0 < keepAliveInterval) (h : KeepAliveInv keepAliveInterval now c log) (hw : Watched c log)
    (hsent : (lastTime Action.isSent log).isSome = true) (hover : ¬Overdue keepAliveInterval now log) :
    (now - c.packetSendTimeMs) / 1000 ≥ c.keepAliveInterval.toUInt64 ↔ PingDue keepAliveInterval now log := by
  obtain ⟨sent, hsent⟩ := Option.isSome_iff_exists.mp hsent
  obtain ⟨e, he, rfl⟩ := exists_mem_of_lastTime hsent
  have hle : e.1 ≤ now := h.past e he
  have hcode : (now - c.packetSendTimeMs) / 1000 ≥ c.keepAliveInterval.toUInt64 ↔
      keepAliveInterval.toNat ≤ (now.toNat - e.1.toNat) / 1000 := by
    rw [hw.packetSendTimeMs e.1 hsent, ge_iff_le, UInt64.le_iff_toNat_le, toNat_seconds hle, UInt16.toNat_toUInt64, h.interval]
  rw [hcode, PingDue, hsent]
  rcases hwait : unanswered log with _ | since
  · simp
  · obtain ⟨-, sent', hsent', hord⟩ := hw.afterPing since hwait
    have hsame : e.1 = sent' := Option.some.inj (hsent.symm.trans hsent')
    have hrecent : (now.toNat - since.toNat) / 1000 ≤ min 80 (keepAliveInterval.toNat / 2) :=
      Nat.not_lt.mp fun hlt => hover ⟨since, hwait, hlt⟩
    have hK' : 0 < keepAliveInterval.toNat := UInt16.lt_iff_toNat_lt.mp hK
    have hord' : since.toNat ≤ e.1.toNat := UInt64.le_iff_toNat_le.mp (hsame ▸ hord)
    have hno : ¬keepAliveInterval.toNat ≤ (now.toNat - e.1.toNat) / 1000 := by omega
    simp [hno]

end

section

variable {keepAliveInterval : UInt16} {now : UInt64} {c c' : MqttClient} {log : List (UInt64 × Action)} {rest : List Action}

theorem Overdue.not_pingDue (h : Overdue keepAliveInterval now log) : ¬PingDue keepAliveInterval now log := by
  rintro ⟨hnone, -⟩
  obtain ⟨since, hsince, -⟩ := h
  exact absurd (hnone.symm.trans hsince) (by simp)

/-- The reading of the clock does not count. -/
theorem PingDue.clock {currentMs : Option UInt64} (h : PingDue keepAliveInterval now log) :
    PingDue keepAliveInterval now (log ++ stamp now [.clock currentMs]) := by
  have hno : ∀ a ∈ [Action.clock currentMs], a.isPing = false := fun a ha => List.mem_singleton.mp ha ▸ rfl
  unfold PingDue unanswered
  rw [waiting_stamp _ _ _ hno, lastTime_stamp]
  exact h

/-- A PINGREQ that is overdue is reported, and then the connection is closed. -/
theorem keepsAlive_overdue {x : Option XioHandle} (hover : Overdue keepAliveInterval now log) (hrest : IoEntries rest) :
    KeepsAlive keepAliveInterval now log c (.clock (some now) :: (reportOf c .noPingResponse ++ .xioClose x :: rest)) := by
  have hmem : ∀ a ∈ Action.clock (some now) :: (reportOf c .noPingResponse ++ .xioClose x :: rest),
      (a.isSent = false ∧ a.isPing = false) ∨ a ∈ rest := by
    intro a ha
    simp only [List.mem_cons, List.mem_append] at ha
    rcases ha with rfl | ha | rfl | ha
    · exact Or.inl ⟨rfl, rfl⟩
    · rcases mem_reportOf ha with rfl | rfl <;> exact Or.inl ⟨rfl, rfl⟩
    · exact Or.inl ⟨rfl, rfl⟩
    · exact Or.inr ha
  refine ⟨?_, fun hno => absurd hover hno, fun hdue => absurd hdue hover.not_pingDue, ?_,
    fun hopen a ha hsent => ?_⟩
  · intro _
    have hreport : (reportOf c .noPingResponse).filter Action.isNoPing = reportOf c .noPingResponse :=
      List.filter_eq_self.mpr fun a ha => by rcases mem_reportOf ha with rfl | rfl <;> rfl
    have hnone : rest.filter Action.isNoPing = [] := List.filter_eq_nil_iff.mpr fun a ha => by simp [(hrest.noPing a ha).2.2]
    rw [List.filter_cons_of_neg (by simp [Action.isNoPing]), List.filter_append, hreport,
      List.filter_cons_of_neg (by simp [Action.isNoPing]), hnone, List.append_nil]
  · intro _
    refine List.filter_eq_nil_iff.mpr ?_
    intro a ha
    rcases hmem a ha with h | h
    · simp [h.2]
    · simp [(hrest.noPing a h).1]
  · rcases hmem a ha with h | h
    · exact absurd (h.1.symm.trans hsent) (by decide)
    · have hquiet := hrest.quiet (fun b hb => hopen b (by simp [hb])) a h
      exact absurd (hquiet.symm.trans hsent) (by decide)

/-- A PINGREQ that is due is sent. -/
theorem keepsAlive_due {packet : Buffer} (hover : ¬Overdue keepAliveInterval now log) (hdue : PingDue keepAliveInterval now log)
    (hp : packet.packetType = some .pingreqType) (hrest : IoEntries rest) :
    KeepsAlive keepAliveInterval now log c (.clock (some now) :: .xioSend c.xioHandle packet .zero :: rest) := by
  have hping : (Action.xioSend c.xioHandle packet .zero).isPing = true := by
    simp [Action.isPing, Action.isSent, Action.sendsType, hp]
  refine ⟨fun h => absurd h hover, ?_, fun _ => ⟨packet, hp, ?_⟩, fun hno => absurd hdue hno, ?_⟩
  · intro _
    refine List.filter_eq_nil_iff.mpr ?_
    intro a ha
    simp only [List.mem_cons] at ha
    rcases ha with rfl | rfl | ha
    · simp [Action.isNoPing]
    · simp [Action.isNoPing]
    · simp [(hrest.noPing a ha).2.2]
  · have hnone : rest.filter Action.isPing = [] := List.filter_eq_nil_iff.mpr fun a ha => by simp [(hrest.noPing a ha).1]
    rw [List.filter_cons_of_neg (by simp [Action.isPing, Action.isSent]), List.filter_cons_of_pos hping, hnone]
  · intro hopen a ha hsent
    simp only [List.mem_cons] at ha
    rcases ha with rfl | rfl | ha
    · exact absurd hsent Bool.false_ne_true
    · exact hping
    · have hquiet := hrest.quiet (fun b hb => hopen b (by simp [hb])) a ha
      exact absurd (hquiet.symm.trans hsent) (by decide)

/-- Otherwise the clock is read. -/
theorem keepsAlive_idle (hover : ¬Overdue keepAliveInterval now log) (hdue : ¬PingDue keepAliveInterval now log) :
    KeepsAlive keepAliveInterval now log c [.clock (some now)] :=
  ⟨fun h => absurd h hover, fun _ => rfl, fun h => absurd h hdue, fun _ => rfl,
    fun _ a ha hsent => by
      rw [List.mem_singleton.mp ha] at hsent
      exact absurd hsent Bool.false_ne_true⟩

/-- A PINGREQ that is sent when it is due keeps the invariant. -/
theorem KeepAliveInv.ping {packet : Buffer} (hK : 0 < keepAliveInterval) (h : KeepAliveInv keepAliveInterval now c log)
    (hdue : PingDue keepAliveInterval now log) (hp : packet.packetType = some .pingreqType)
    (hrest : IoEntries rest) (ht : Ticks now c c' (.xioSend c.xioHandle packet .zero :: rest))
    (hfits : ∀ a ∈ Action.xioSend c.xioHandle packet .zero :: rest, a.Fits now) :
    KeepAliveInv keepAliveInterval now { c' with timeSincePing := now }
      (log ++ stamp now (.xioSend c.xioHandle packet .zero :: rest)) := by
  have hping : (Action.xioSend c.xioHandle packet .zero).isPing = true := by
    simp [Action.isPing, Action.isSent, Action.sendsType, hp]
  have hno : ∀ a ∈ rest, a.isPing = false := fun a ha => (hrest.noPing a ha).1
  have hsplit : log ++ stamp now (.xioSend c.xioHandle packet .zero :: rest) =
      log ++ [(now, .xioSend c.xioHandle packet .zero)] ++ stamp now rest := by simp [stamp]
  have hsent : (Action.xioSend c.xioHandle packet .zero :: rest).any Action.isSent = true := by simp [Action.isSent]
  have hwait : unanswered (log ++ stamp now (.xioSend c.xioHandle packet .zero :: rest)) = some now := by
    have hnone : rest.any Action.answersPing = false := List.any_eq_false.mpr fun a ha => by simp [(hrest.noPing a ha).2.1]
    rw [hsplit, unanswered, waiting_stamp _ _ _ hno, hnone, if_neg Bool.false_ne_true, waiting_snoc, if_pos hping]
  have hlast : lastTime Action.isSent (log ++ stamp now (.xioSend c.xioHandle packet .zero :: rest)) = some now := by
    rw [lastTime_stamp, hsent, if_pos rfl]
  have hlate : 1000 ≤ now.toNat := by
    obtain ⟨-, sent, -, hlong⟩ := hdue
    have hK' : 0 < keepAliveInterval.toNat := UInt16.lt_iff_toNat_lt.mp hK
    omega
  refine ⟨ht.keepAliveInterval.trans h.interval, by rw [← h.maxPing, ← ht.maxPingRespTime], past_stamp h.past (UInt64.le_refl _), ?_,
    fun _ => ⟨?_, fun sent hs => ?_, fun since hs => ?_⟩⟩
  · have hone : OnePingAtATime (log ++ [(now, .xioSend c.xioHandle packet .zero)]) := always_snoc.mpr ⟨h.pings, fun _ => hdue.1⟩
    rw [hsplit]
    exact hone.stamp hno
  · rw [hwait]
    rfl
  · have htime := ht.stamped hfits
    rw [hsent, if_pos rfl] at htime
    rw [hlast] at hs
    exact htime.trans (Option.some.inj hs)
  · rw [hwait] at hs
    obtain rfl := Option.some.inj hs
    exact ⟨hlate, now, hlast, UInt64.le_refl _⟩

end

/-- A packet that is accepted at a time that can be read is sent. -/
theorem sent_of_fits {now : UInt64} {c c' : MqttClient} {result returned : MuResult} {more : List Action}
    (h : Finishes c result c' more returned) (hresult : result = .zero) (hfits : ∀ a ∈ more, a.Fits now) : returned = .zero := by
  cases h with
  | refused hno => exact absurd hresult hno
  | noTime => exact absurd (hfits (.clock none) (by simp)) (by simp [Action.Fits])
  | stamped => rfl

section

variable {dispatch : List IoEvent → Session → Session} (hd : MakesRuns dispatch)

include hd

/-- What `mqtt_client_dowork` does when a PINGREQ is due: it hands one over, and if that is accepted it takes the time. -/
theorem sendPing_added (now : UInt64) {s : Session} (hp : (s.alloc mqttCodecPing).1.isSome = true) :
    ∃ packet result rest, packet.packetType = some .pingreqType ∧
      (sendPing dispatch s).history = s.history ++ .xioSend s.client.xioHandle packet result :: rest ∧
      ((∀ a ∈ Action.xioSend s.client.xioHandle packet result :: rest, a.Fits now) →
        IoEntries rest ∧ ∃ c, Ticks now s.client c (.xioSend s.client.xioHandle packet result :: rest) ∧
          (sendPing dispatch s).client = { c with timeSincePing := now }) := by
  unfold sendPing
  rcases halloc : s.alloc mqttCodecPing with ⟨_ | packet, s'⟩
  · rw [halloc] at hp
    exact absurd hp (by simp)
  · have htype := packetType_mqttCodecPing.of_produces (alloc_produces halloc)
    have hclient : s'.client = s.client := client_of_alloc halloc
    have hhist : s'.history = s.history := history_of_alloc halloc
    dsimp only
    rw [sendPacketItem_eq]
    obtain ⟨added, hadded, hticks, hio⟩ := ticks_ioRun now (ioRun_callBack hd (s'.handOver packet))
    generalize callBack dispatch (s'.handOver packet) = u at hadded hticks ⊢
    have hhand : u.history = s.history ++ .xioSend s.client.xioHandle packet s'.env.send.head :: added := by
      rw [hadded, Session.handOver, Session.log, hhist, hclient, List.append_assoc]
      rfl
    have hticks' : Ticks now s.client u.client added := by rwa [Session.handOver, Session.log, hclient] at hticks
    generalize s'.env.send.head = result at hhand ⊢
    obtain ⟨more, hf, hmore⟩ := finishes u result
    have hsend := hticks'.send (x := s.client.xioHandle) (p := packet) hf
    have hidle : ∀ a ∈ more, a.Idle := fun a ha => (plain_finishes hf a ha).idle
    rw [hhand, List.append_assoc] at hmore
    generalize finishSend u result = r at hf hmore hsend ⊢
    obtain ⟨t, returned⟩ := r
    dsimp only at hf hmore hsend ⊢
    split
    · -- a send that fails does not fit
      rename_i hfail
      obtain ⟨more', hmore', -, -⟩ := ticks_ioRun now (ioRun_setErrorCallback hd (resetPing t) (e := .communicationError)
        MqttClientEventError.noConfusion)
      have hhist' : (setErrorCallback dispatch (resetPing t) .communicationError).history =
          s.history ++ .xioSend s.client.xioHandle packet result :: (added ++ more ++ more') := by
        rw [hmore']
        change t.history ++ more' = _
        rw [hmore]
        simp
      refine ⟨packet, result, _, htype, hhist', ?_⟩
      intro hfits
      exact absurd (sent_of_fits hf (hfits _ List.mem_cons_self) fun a ha => hfits a (by simp [ha])) hfail
    · have hclock : t.askClock.2.history =
          s.history ++ .xioSend s.client.xioHandle packet result :: (added ++ more ++ [.clock t.env.clock.head]) := by
        change t.history ++ _ = _
        rw [hmore]
        simp
      refine ⟨packet, result, added ++ more ++ [.clock t.env.clock.head], htype, ?_, ?_⟩
      · rcases hask : t.askClock with ⟨_ | currentMs, v⟩
        all_goals
          rw [hask] at hclock
          exact hclock
      · intro hfits
        have hnow : t.env.clock.head = some now := hfits (.clock t.env.clock.head) (by simp)
        have hidle' : Action.Idle (.clock t.env.clock.head) := ⟨rfl, rfl, rfl⟩
        have htick : Ticks now t.client t.client [.clock t.env.clock.head] :=
          ticks_idle rfl rfl id rfl rfl fun a ha => List.mem_singleton.mp ha ▸ hidle'
        refine ⟨(hio.append (ioEntries_of_idle hidle)).append (ioEntries_of_idle fun a ha => List.mem_singleton.mp ha ▸ hidle'), t.client, ?_, ?_⟩
        · have := hsend.trans htick
          simpa using this
        · unfold Session.askClock
          rw [hnow]
          rfl

/-- The session after a check, whose entries are those that the log calls for. -/
def ChecksTo (keepAliveInterval : UInt16) (now : UInt64) (log : List (UInt64 × Action)) (s t : Session) : Prop :=
  ∃ check, t.history = s.history ++ check ∧
    (KeepAliveInv keepAliveInterval now s.client log → (∀ a ∈ check, a.Fits now) → KeepsAlive keepAliveInterval now log s.client check ∧
      KeepAliveInv keepAliveInterval now t.client (log ++ stamp now check))

section

variable {keepAliveInterval : UInt16} {now currentMs : UInt64} {log : List (UInt64 × Action)} {s s' : Session}

omit hd in
/-- The reading of the clock is an entry like any other. -/
theorem KeepAliveInv.reading {a : Option UInt64} (hinv : KeepAliveInv keepAliveInterval now s.client log)
    (hfits : ∀ b ∈ [Action.clock a], b.Fits now) : KeepAliveInv keepAliveInterval now s.client (log ++ stamp now [.clock a]) := by
  have hclock : ∀ b ∈ [Action.clock a], b.Idle := fun b hb => List.mem_singleton.mp hb ▸ ⟨rfl, rfl, rfl⟩
  exact hinv.ticks (UInt64.le_refl _) (ticks_idle rfl rfl id rfl rfl hclock) hfits fun b hb => (hclock b hb).not_isPing

omit hd in
/-- A clock that does not answer does not fit. -/
theorem checksTo_noTime (hhist : s'.history = s.history ++ [.clock none]) : ChecksTo keepAliveInterval now log s s' := by
  refine ⟨[.clock none], hhist, ?_⟩
  intro _ hfits
  exact absurd (hfits (.clock none) (by simp)) (by simp [Action.Fits])

omit hd in
/-- The clock says what time it is. -/
theorem eq_of_fits {rest : List Action} (hfits : ∀ a ∈ .clock (some currentMs) :: rest, a.Fits now) : currentMs = now :=
  Option.some.inj (hfits (.clock (some currentMs)) List.mem_cons_self)

variable (hopen : FindsOpen log s) (hclient : s'.client = s.client) (hhist : s'.history = s.history ++ [.clock (some currentMs)])

include hopen hclient hhist

/-- A ping that is not answered in time closes the connection. -/
theorem checksTo_overdue (hcode : s.client.timeSincePing > 0 ∧
      (currentMs - s.client.timeSincePing) / 1000 > s.client.maxPingRespTime.toUInt64) :
    ChecksTo keepAliveInterval now log s (resetPing (setErrorCallback dispatch s' .noPingResponse)) := by
  obtain ⟨t, hrun, heq⟩ := setErrorCallback_open hd (s := s') .noPingResponse (by rw [hclient]; exact hopen.socketConnected)
  obtain ⟨rest, hh, ht, ho⟩ := ticks_ioRun now hrun
  rw [heq]
  rw [client_failing, hclient] at ht
  have hhist' : (resetPing t.detached).history =
      s.history ++ .clock (some currentMs) :: (reportOf s.client .noPingResponse ++ .xioClose s.client.xioHandle :: rest) := by
    change t.history = _
    rw [hh, history_failing, hhist, hclient]
    simp
  refine ⟨_, hhist', ?_⟩
  intro hinv hfits
  obtain rfl := eq_of_fits hfits
  have hover := (overdue_iff hinv (hinv.watched hopen.xioHandle)).mp hcode
  have hkeeps : KeepsAlive keepAliveInterval currentMs log s.client (.clock (some currentMs) ::
      (reportOf s.client .noPingResponse ++ .xioClose s.client.xioHandle :: rest)) := keepsAlive_overdue hover ho
  have hno := List.filter_eq_nil_iff.mp (hkeeps.notDue hover.not_pingDue)
  refine ⟨hkeeps, ht.keepAliveInterval.trans hinv.interval, ?_, past_stamp hinv.past (UInt64.le_refl _),
    hinv.pings.stamp fun a ha => Bool.eq_false_iff.mpr (hno a ha), fun hx => absurd hx Bool.false_ne_true⟩
  rw [← hinv.maxPing, ← ht.maxPingRespTime]
  rfl

variable (hK : 0 < keepAliveInterval) (hcode : ¬(s.client.timeSincePing > 0 ∧
  (currentMs - s.client.timeSincePing) / 1000 > s.client.maxPingRespTime.toUInt64))

include hK hcode

/-- When the interval has passed a PINGREQ is sent. -/
theorem checksTo_ping (hpacket : (s'.alloc mqttCodecPing).1.isSome = true)
    (hdue : (currentMs - s.client.packetSendTimeMs) / 1000 ≥ s.client.keepAliveInterval.toUInt64) :
    ChecksTo keepAliveInterval now log s (sendPing dispatch s') := by
  obtain ⟨packet, result, rest, hp, hh, hsend⟩ := sendPing_added hd now hpacket
  rw [hhist, hclient] at hh
  rw [hclient] at hsend
  refine ⟨.clock (some currentMs) :: .xioSend s.client.xioHandle packet result :: rest, by rw [hh]; simp, ?_⟩
  intro hinv hfits
  obtain rfl := eq_of_fits hfits
  have hfits' : ∀ a ∈ Action.xioSend s.client.xioHandle packet result :: rest, a.Fits currentMs :=
    fun a ha => hfits a (List.mem_cons_of_mem _ ha)
  obtain ⟨ho, c, ht, hc⟩ := hsend hfits'
  obtain rfl : result = .zero := hfits' _ List.mem_cons_self
  have hover : ¬Overdue keepAliveInterval currentMs log := fun h => hcode ((overdue_iff hinv (hinv.watched hopen.xioHandle)).mpr h)
  have hpingDue := (pingDue_iff hK hinv (hinv.watched hopen.xioHandle) hopen.sent hover).mp hdue
  refine ⟨keepsAlive_due hover hpingDue hp ho, ?_⟩
  have hread := hinv.reading (a := some currentMs) fun a ha => List.mem_singleton.mp ha ▸ rfl
  have hping := hread.ping hK hpingDue.clock hp ho ht hfits'
  rw [List.append_assoc, ← stamp_append] at hping
  rw [hc]
  exact hping

omit hd in
/-- Otherwise nothing is done. -/
theorem checksTo_idle (hdue : ¬(currentMs - s.client.packetSendTimeMs) / 1000 ≥ s.client.keepAliveInterval.toUInt64) :
    ChecksTo keepAliveInterval now log s s' := by
  refine ⟨[.clock (some currentMs)], hhist, ?_⟩
  intro hinv hfits
  obtain rfl := eq_of_fits hfits
  have hover : ¬Overdue keepAliveInterval currentMs log := fun h => hcode ((overdue_iff hinv (hinv.watched hopen.xioHandle)).mpr h)
  have hnotDue : ¬PingDue keepAliveInterval currentMs log :=
    fun h => hdue ((pingDue_iff hK hinv (hinv.watched hopen.xioHandle) hopen.sent hover).mpr h)
  rw [hclient]
  exact ⟨keepsAlive_idle hover hnotDue, hinv.reading hfits⟩

end

/-- The keep-alive part does what the log calls for. -/
theorem keepAlive_check {keepAliveInterval : UInt16} (hK : 0 < keepAliveInterval) (now : UInt64) {s : Session}
    {log : List (UInt64 × Action)} (hinterval : s.client.keepAliveInterval = keepAliveInterval) (hopen : FindsOpen log s) :
    ChecksTo keepAliveInterval now log s (keepAlive dispatch s) := by
  have hon : s.client.mqttStatus.socketConnected ∧ s.client.mqttStatus.clientConnected ∧ s.client.keepAliveInterval > 0 :=
    ⟨hopen.socketConnected, hopen.clientConnected, hinterval ▸ hK⟩
  have hpacket : (s.askClock.2.alloc mqttCodecPing).1.isSome = true := hopen.pingPacket
  unfold keepAlive
  rw [if_pos hon]
  rcases hask : s.askClock with ⟨currentMs, s'⟩
  have hclient : s'.client = s.client := client_of_askClock hask
  have hhist : s'.history = s.history ++ [.clock currentMs] := by
    rw [show s' = s.askClock.2 by rw [hask], show currentMs = s.askClock.1 by rw [hask]]
    rfl
  rw [hask] at hpacket
  rcases currentMs with _ | currentMs
  · exact checksTo_noTime hhist
  · dsimp only
    rw [hclient]
    split
    · rename_i hcode
      exact checksTo_overdue hd hopen hclient hhist hcode
    · rename_i hcode
      split
      · rename_i hdue
        exact checksTo_ping hd hopen hclient hhist hK hcode hpacket hdue
      · rename_i hdue
        exact checksTo_idle hopen hclient hhist hK hcode hdue

end

/-! ## Runs -/

theorem runCall_of_checks {depth : Nat} {w : World} (h : Checks w) (events : List WorkEvent) :
    (runCall depth w (.dowork events)).callContext = keepAlive (deliver depth) (atCheck depth w events) := by
  have hsome : ¬w.callContext.client.xioHandle.isNone = true := by
    rw [Option.isNone_iff_eq_none]
    rintro hnone
    exact absurd (hnone ▸ h.1) (by simp)
  unfold runCall mqttClientDowork
  dsimp only
  rw [if_neg hsome, if_neg (by rw [h.2]; exact Bool.false_ne_true)]
  rfl

/-- What `mqtt_client_dowork` does before its keep-alive part. -/
theorem keeps_atCheck (depth : Nat) (now : UInt64) (w : World) (events : List WorkEvent) :
    Keeps now w.callContext (atCheck depth w events) := by
  have hlog : Keeps now w.callContext (w.callContext.log (.xioDowork w.callContext.client.xioHandle)) :=
    keeps_idle rfl rfl rfl id rfl rfl fun a ha => List.mem_singleton.mp ha ▸ ⟨rfl, rfl, rfl⟩
  have hwork : CallRun [] _ _ := callRun_handleWorks (ioRun_deliver depth)
    { w with callContext := w.callContext.log (.xioDowork w.callContext.client.xioHandle) } events
  exact hlog.trans (keeps_callRun hwork)

/-- A `mqtt_client_dowork` that does not come to its keep-alive part. -/
theorem keeps_dowork_of_not_checks (depth : Nat) (now : UInt64) {w : World} (h : ¬Checks w) (events : List WorkEvent) :
    Keeps now w.callContext (runCall depth w (.dowork events)).callContext := by
  unfold runCall mqttClientDowork
  dsimp only
  split
  · exact keeps_ioRun (.refl _)
  · rename_i hsome
    have hpend : w.callContext.client.mqttStatus.pendingClose = true := by
      by_contra hpend
      exact h ⟨by simpa [Option.isSome_iff_ne_none] using hsome, Bool.eq_false_iff.mpr hpend⟩
    rw [if_pos hpend]
    rcases hs : w.callContext.client.mqttStatus.socketConnected
    · rw [closeConnection_closed hs]
      refine keeps_idle (l := disconnectedOf w.callContext.client) (history_callDisconnectCb _) ?_ ?_ ?_ ?_ ?_
        fun a ha => (plain_disconnectedOf _ a ha).idle
      all_goals simp [Session.setStatus, client_callDisconnectCb]
    · obtain ⟨t, hrun, heq⟩ := closeConnection_open (ioRun_deliver depth) hs
      rw [heq]
      have hclose : CallRun [] _ _ := .closePending hpend hs hrun
      exact keeps_callRun hclose

/-- Calls that come to no keep-alive part keep the invariant. -/
theorem keepAliveInv_keeps {depth : Nat} {keepAliveInterval : UInt16} {before now : UInt64} {x : Connection} {call : Call}
    (h : KeepAliveInv keepAliveInterval before x.world.callContext.client x.log) (hle : before ≤ now)
    (hkeeps : Keeps now x.world.callContext (runCall depth x.world call).callContext)
    (hfits : ∀ a ∈ addedBy depth x.world call, a.Fits now) :
    KeepAliveInv keepAliveInterval now (x.after depth now call).world.callContext.client (x.after depth now call).log := by
  obtain ⟨added, hh, ht, hp⟩ := hkeeps
  have hadded : addedBy depth x.world call = added := by rw [addedBy, hh, List.drop_left]
  rw [Connection.after, hadded]
  rw [hadded] at hfits
  exact h.ticks hle ht hfits hp

/-- The keep-alive part of a `mqtt_client_dowork` does what the log calls for. -/
theorem keepsAlive_dowork {depth : Nat} {keepAliveInterval : UInt16} (hK : 0 < keepAliveInterval) {before now : UInt64} {x : Connection}
    (h : KeepAliveInv keepAliveInterval before x.world.callContext.client x.log) (hle : before ≤ now) {events : List WorkEvent}
    (hchecks : Checks x.world) (hopen : FindsOpen (x.logAtCheck depth now events) (atCheck depth x.world events))
    (hfits : ∀ a ∈ addedBy depth x.world (.dowork events), a.Fits now) :
    KeepsAlive keepAliveInterval now (x.logAtCheck depth now events) (atCheck depth x.world events).client
        (addedByCheck depth x.world events) ∧
      KeepAliveInv keepAliveInterval now (x.after depth now (.dowork events)).world.callContext.client
        (x.after depth now (.dowork events)).log := by
  obtain ⟨work, hwork, ht, hp⟩ := keeps_atCheck depth now x.world events
  have hlog : x.logAtCheck depth now events = x.log ++ stamp now work := by rw [Connection.logAtCheck, hwork, List.drop_left]
  rw [hlog] at hopen ⊢
  obtain ⟨check, hcheck, hkeeps⟩ := keepAlive_check (ioRun_deliver depth) hK now
    (ht.keepAliveInterval.trans h.interval) hopen
  rw [← runCall_of_checks hchecks events] at hcheck hkeeps
  have hadded : addedBy depth x.world (.dowork events) = work ++ check := by
    rw [addedBy, hcheck, hwork, List.append_assoc, List.drop_left]
  have hcheck' : addedByCheck depth x.world events = check := by rw [addedByCheck, hcheck, List.drop_left]
  have hinv := h.ticks hle ht (fun a ha => hfits a (by simp [hadded, ha])) hp
  rw [hcheck', Connection.after, hadded, stamp_append, ← List.append_assoc]
  exact hkeeps hinv fun a ha => hfits a (by simp [hadded, ha])

/-- A connection begins with no PINGREQ, and with half of the interval, or 80, for the answer to one. -/
theorem keepAliveInv_begin (s : Session) (now : UInt64) (xioHandle : XioHandle) (mqttOptions : MqttClientOptions) :
    KeepAliveInv mqttOptions.keepAliveInterval now (beginConnect s xioHandle mqttOptions).client
      [(now, .connect xioHandle mqttOptions)] where
  interval := rfl
  maxPing := by
    have hhalf : (mqttOptions.keepAliveInterval / 2).toNat = mqttOptions.keepAliveInterval.toNat / 2 := UInt16.toNat_div _ _
    have hdefault : defaultMaxPingResponseTime.toNat = 80 := rfl
    unfold beginConnect
    dsimp only
    split
    · rename_i hlt
      have := UInt16.lt_iff_toNat_lt.mp hlt
      omega
    · rename_i hge
      have := mt UInt16.lt_iff_toNat_lt.mpr hge
      omega
  past := fun e he => List.mem_singleton.mp he ▸ UInt64.le_refl _
  pings := always_snoc.mpr ⟨always_nil, fun hping => absurd hping Bool.false_ne_true⟩
  watched := fun _ => ⟨rfl, fun _ hsent => absurd hsent (by simp [lastTime, Action.isSent]),
    fun _ hsince => absurd hsince (by simp [unanswered, waiting, Action.isPing, Action.isSent, Action.answersPing])⟩

theorem keepAliveInv_reaches {depth : Nat} {keepAliveInterval : UInt16} (hK : 0 < keepAliveInterval) {now : UInt64} {x : Connection}
    (h : Reaches depth keepAliveInterval now x) : KeepAliveInv keepAliveInterval now x.world.callContext.client x.log := by
  induction h with
  | connect w now xioHandle mqttOptions hinterval hfits =>
    have hrun := callRun_runCall depth w (.connect (some xioHandle) (some mqttOptions)) (by simp)
    have hkeeps : Keeps now _ _ := keeps_callRun hrun
    obtain ⟨added, hh, ht, hp⟩ := hkeeps
    have hadded : addedBy depth w (.connect (some xioHandle) (some mqttOptions)) = .connect xioHandle mqttOptions :: added := by
      have hbegin : (beginCall w.callContext (.connect (some xioHandle) (some mqttOptions))).history =
          w.callContext.history ++ [.connect xioHandle mqttOptions] := rfl
      rw [addedBy, hh, hbegin, List.append_assoc, List.drop_left]
      rfl
    have hinv := (keepAliveInv_begin (w.callContext.log (.connect xioHandle mqttOptions)) now xioHandle mqttOptions).ticks
      (UInt64.le_refl _) ht (fun a ha => hfits a (by simp [hadded, ha])) hp
    rw [Connection.after, hadded]
    exact hinterval ▸ hinv
  | @call before x now call _ hle hno hopen hfits ih =>
    by_cases hdowork : ∃ events, call = .dowork events
    · obtain ⟨events, rfl⟩ := hdowork
      by_cases hchecks : Checks x.world
      · exact (keepsAlive_dowork hK ih hle hchecks (hopen events rfl hchecks) hfits).2
      · exact keepAliveInv_keeps ih hle (keeps_dowork_of_not_checks depth now hchecks events) hfits
    · have hrun := callRun_runCall depth x.world call fun events heq => hdowork ⟨events, heq⟩
      rw [beginCall_of_not_connects _ hno] at hrun
      exact keepAliveInv_keeps ih hle (keeps_callRun hrun) hfits

/-- On every connection the client keeps to one unanswered PINGREQ at a time, and the keep-alive part of `mqtt_client_dowork` does what
the log calls for. -/
theorem keepAlive_discipline (depth : Nat) (keepAliveInterval : UInt16) (hK : 0 < keepAliveInterval) (before : UInt64) (x : Connection)
    (h : Reaches depth keepAliveInterval before x) :
    OnePingAtATime x.log ∧ ∀ (now : UInt64) (events : List WorkEvent), before ≤ now → Checks x.world →
      FindsOpen (x.logAtCheck depth now events) (atCheck depth x.world events) →
      (∀ a ∈ addedBy depth x.world (.dowork events), a.Fits now) →
      KeepsAlive keepAliveInterval now (x.logAtCheck depth now events) (atCheck depth x.world events).client
        (addedByCheck depth x.world events) := by
  have hinv := keepAliveInv_reaches hK h
  exact ⟨hinv.pings, fun now events hle hchecks hopen hfits => (keepsAlive_dowork hK hinv hle hchecks hopen hfits).1⟩

/-- Surroundings whose clock shows 5 ms when the CONNECT is sent, 20006 ms at the first check, and 31007 ms after that. -/
def timedEnv : Env :=
  { calmEnv with clock := fun n => if n = 0 then some 5 else if n ≤ 3 then some 20006 else some 31007 }

/-- A connection that is begun, opened and accepted. -/
def acceptedConnection : Connection :=
  ((Connection.after 1 ⟨mqttClientInit true timedEnv okHeap, []⟩ 5 (.connect (some 1) (some plainOptions))).after 1 5
    (.xio (.io (.openComplete .ioOpenOk)))).after 1 5 (.xio (.bytes (some [0x20, 0x02, 0x00, 0x00])))

theorem reaches_acceptedConnection : Reaches 1 20 5 acceptedConnection := by
  have hconnect : Reaches 1 20 5
      (Connection.after 1 ⟨mqttClientInit true timedEnv okHeap, []⟩ 5 (.connect (some 1) (some plainOptions))) :=
    .connect _ 5 1 plainOptions rfl (by decide +kernel)
  have hopen := hconnect.call 5 (.xio (.io (.openComplete .ioOpenOk))) (UInt64.le_refl _) rfl (by simp) (by decide +kernel)
  exact hopen.call 5 (.xio (.bytes (some [0x20, 0x02, 0x00, 0x00]))) (UInt64.le_refl _) rfl (by simp) (by decide +kernel)

/-- The first check sends a PINGREQ, which is not answered, and the second one reports it. -/
theorem keepAlive_discipline_overdue :
    let x := acceptedConnection.after 1 20006 (.dowork [])
    OnePingAtATime x.log ∧ Overdue 20 31007 (x.logAtCheck 1 31007 []) ∧
      KeepsAlive 20 31007 (x.logAtCheck 1 31007 []) (atCheck 1 x.world []).client (addedByCheck 1 x.world []) := by
  have hx : Reaches 1 20 20006 (acceptedConnection.after 1 20006 (.dowork [])) := by
    refine reaches_acceptedConnection.call 20006 (.dowork []) (by decide) rfl ?_ (by decide +kernel)
    intro events hevents _
    cases hevents
    exact ⟨by decide +kernel, by decide +kernel, by decide +kernel, by decide +kernel, by decide +kernel⟩
  obtain ⟨hpings, hchecks⟩ := keepAlive_discipline 1 20 (by decide) 20006 _ hx
  refine ⟨hpings, ⟨20006, by decide +kernel, by decide⟩, hchecks 31007 [] (by decide) ⟨by decide +kernel, by decide +kernel⟩ ?_ ?_⟩
  · exact ⟨by decide +kernel, by decide +kernel, by decide +kernel, by decide +kernel, by decide +kernel⟩
  · decide +kernel

end Umqtt
