import Umqtt.Lemmas.Memory
import Umqtt.Lemmas.Unattached
import Umqtt.Theorems.Options

/-!
# After a DISCONNECT

`mqtt_client_disconnect` hands over a DISCONNECT and leaves the connection open: the client goes on to answer packets, to ping and to send
what it is asked to, until it gives up its xio. What it hands over has a cause, and from then on it hands over nothing.
-/

namespace Umqtt

open Past

/-! ## Why a packet is handed over -/

/-- The packet that is handed to `xio_send`. -/
def Action.handed : Action → Option Buffer
  | .xioSend _ p _ => some p
  | _ => none

/-- Why a packet of a type is handed over, after some entries of a call: it is of the types that the call sends itself, it replies to a
packet, or the xio is open. -/
inductive Cause (own : List ControlPacketType) (before : List Action) : ControlPacketType → Prop
  | own {t : ControlPacketType} : t ∈ own → Cause own before t
  | reply {t : ControlPacketType} (packet : ControlPacketType) (flags : UInt8) (headerData : Option Buffer) :
      .packet packet flags headerData ∈ before → t ∈ replyTypes packet → Cause own before t
  | opened (packet : Buffer) : [.event (.openComplete .ioOpenOk), .connPacket (some packet)] <:+ before →
      Cause own before .connectType

/-- Every packet that is handed over has a cause. -/
def Caused (own : List ControlPacketType) (added : List Action) : Prop :=
  Always (fun before a => ∀ packet ∈ a.handed, ∃ t, packet.packetType = some t ∧ Cause own before t) added

/-- The types of the packets that a call sends itself, the PINGREQ of `mqtt_client_dowork` included. -/
def sendable (w : World) : Call → List ControlPacketType
  | .dowork _ => if w.callContext.client.mqttStatus.pendingClose then [] else [.pingreqType]
  | call => call.own

/-- What is added to the history, all packets with a cause. -/
def AddsCaused (own : List ControlPacketType) (s t : Session) : Prop := ∃ added, t.history = s.history ++ added ∧ Caused own added

/-- The xio stays given up, and no packet is handed to one. -/
def StaysSilent (s t : Session) : Prop :=
  t.client.xioHandle = none ∧
    ∃ added, t.history = s.history ++ added ∧ ∀ x packet result, .xioSend x packet result ∈ added → x = none

/-- What a call does: what it hands over has a cause, and `mqtt_client_dowork` gives the xio up when a close is pending and the socket
connected, and does nothing when there is none. -/
structure SendsForCause (depth : Nat) (w : World) (call : Call) : Prop where
  caused : AddsCaused (sendable w call) w.callContext (runCall depth w call).callContext
  givesUp : (∃ events, call = .dowork events) → w.callContext.client.mqttStatus.pendingClose = true →
    w.callContext.client.mqttStatus.socketConnected = true → (runCall depth w call).callContext.client.xioHandle = none
  idle : (∃ events, call = .dowork events) → w.callContext.client.xioHandle = none → runCall depth w call = w

section

variable {own : List ControlPacketType} {before added more : List Action}

theorem Cause.append {t : ControlPacketType} (h : Cause own before t) (earlier : List Action) : Cause own (earlier ++ before) t := by
  cases h with
  | own hmem => exact .own hmem
  | reply packet flags headerData hmem ht => exact .reply packet flags headerData (List.mem_append_right _ hmem) ht
  | opened packet hlast => exact .opened packet (hlast.trans (List.suffix_append _ _))

theorem Caused.append (h : Caused own added) (h' : Caused own more) : Caused own (added ++ more) := by
  refine Always.append h ?_
  intro pre a post heq packet ha
  obtain ⟨t, ht, hcause⟩ := h' pre a post heq packet ha
  exact ⟨t, ht, hcause.append added⟩

/-- Entries that hand over nothing. -/
theorem caused_of_none (h : ∀ a ∈ added, a.handed = none) : Caused own added := by
  intro pre a post heq packet ha
  rw [h a (by simp [heq])] at ha
  exact absurd ha (by simp)

/-- One packet. -/
theorem caused_send {t : ControlPacketType} {packet : Buffer} (hp : packet.packetType = some t) (hcause : Cause own before t)
    (h : Caused own before) (x : Option XioHandle) (result : MuResult) : Caused own (before ++ [.xioSend x packet result]) := by
  refine always_snoc.mpr ⟨h, ?_⟩
  intro p hmem
  cases hmem
  exact ⟨t, hp, hcause⟩

/-- After a packet, what replies to it has a cause. -/
theorem Caused.reply {packet : ControlPacketType} (flags : UInt8) (headerData : Option Buffer) (h : Caused (replyTypes packet) added) :
    Caused own (.packet packet flags headerData :: added) := by
  have hfirst : Caused own [.packet packet flags headerData] := caused_of_none fun a ha => List.mem_singleton.mp ha ▸ rfl
  refine Always.append hfirst ?_
  intro pre a post heq p ha
  obtain ⟨t, ht, hcause⟩ := h pre a post heq p ha
  refine ⟨t, ht, ?_⟩
  cases hcause with
  | own hmem => exact .reply packet flags headerData (by simp) hmem
  | reply packet flags headerData hmem ht => exact .reply packet flags headerData (List.mem_append_right _ hmem) ht
  | opened packet hlast => exact .opened packet (hlast.trans (List.suffix_append _ _))

theorem Action.Plain.handed {a : Action} (h : a.Plain) : a.handed = none := by
  cases a with
  | xioSend => exact absurd h id
  | _ => rfl

end

/-! ## Runs hand over packets that have a cause -/

section

variable {own : List ControlPacketType} {s t u : Session}

theorem AddsCaused.trans (h : AddsCaused own s t) (h' : AddsCaused own t u) : AddsCaused own s u := by
  obtain ⟨added, hh, hc⟩ := h
  obtain ⟨more, hh', hc'⟩ := h'
  exact ⟨added ++ more, by rw [hh', hh, List.append_assoc], hc.append hc'⟩

theorem AddsCaused.of_history (h : AddsCaused own s t) (hh : u.history = t.history) : AddsCaused own s u := by
  obtain ⟨added, hadded, hc⟩ := h
  exact ⟨added, hh.trans hadded, hc⟩

/-- Entries that hand over nothing are added. -/
theorem addsCaused_of_none {l : List Action} (hh : t.history = s.history ++ l) (hl : ∀ a ∈ l, a.handed = none) : AddsCaused own s t :=
  ⟨l, hh, caused_of_none hl⟩

theorem AddsCaused.mono {wider : List ControlPacketType} (h : AddsCaused own s t) (hsub : ∀ t ∈ own, t ∈ wider) :
    AddsCaused wider s t := by
  obtain ⟨added, hh, hc⟩ := h
  refine ⟨added, hh, ?_⟩
  intro pre a post heq packet ha
  obtain ⟨t, ht, hcause⟩ := hc pre a post heq packet ha
  refine ⟨t, ht, ?_⟩
  cases hcause with
  | own hmem => exact .own (hsub t hmem)
  | reply packet flags headerData hmem ht => exact .reply packet flags headerData hmem ht
  | opened packet hlast => exact .opened packet hlast

theorem addsCaused_finishSend (s : Session) (result : MuResult) : AddsCaused own s (finishSend s result).1 := by
  obtain ⟨l, hf, hh⟩ := finishes s result
  exact addsCaused_of_none hh fun a ha => (plain_finishes hf a ha).handed

theorem addsCaused_failing {e : MqttClientEventError} (s : Session) : AddsCaused own s (s.failing e) := by
  refine addsCaused_of_none (history_failing s e) ?_
  intro a ha
  rcases List.mem_append.mp ha with ha | ha
  · rcases mem_reportOf ha with rfl | rfl <;> rfl
  · exact List.mem_singleton.mp ha ▸ rfl

/-- A packet that a call hands over itself. -/
theorem addsCaused_handOver {packet : Buffer} {type : ControlPacketType} (hp : packet.packetType = some type) (ht : type ∈ own)
    (s : Session) : AddsCaused own s (s.handOver packet) := by
  refine ⟨[] ++ [.xioSend s.client.xioHandle packet s.env.send.head], rfl, caused_send hp (.own ht) ?_ _ _⟩
  exact caused_of_none (by simp)

theorem addsCaused_ioRun (h : IoRun s t) : AddsCaused own s t := by
  induction h with
  | refl => exact addsCaused_of_none (List.append_nil _).symm (by simp)
  | trans _ _ ih ih' => exact ih.trans ih'
  | direct hl hh _ =>
    refine addsCaused_of_none hh ?_
    intro a ha
    rcases entries_local hl with hplain | ⟨-, rfl⟩
    · exact (hplain a ha).handed
    · simp only [List.mem_cons, List.not_mem_nil, or_false] at ha
      rcases ha with rfl | rfl <;> rfl
  | @fail s t e _ _ _ ih => exact ((addsCaused_failing s).trans ih).of_history rfl
  | @connect s u t packet _ hp _ hh _ _ ih =>
    have htype : packet.packetType = some .connectType := (packetType_mqttCodecConnect _).of_produces hp
    have hopen : AddsCaused own s (u.handOver packet) := by
      refine ⟨[.event (.openComplete .ioOpenOk), .connPacket (some packet)] ++ [.xioSend u.client.xioHandle packet u.env.send.head],
        ?_, caused_send htype (.opened packet (List.suffix_refl _)) (caused_of_none fun a ha => ?_) _ _⟩
      · rw [Session.handOver, Session.log, hh, List.append_assoc]
      · simp only [List.mem_cons, List.not_mem_nil, or_false] at ha
        rcases ha with rfl | rfl <;> rfl
    exact (hopen.trans ih).trans (addsCaused_finishSend t _)

theorem addsCaused_replyRun {types : List ControlPacketType} (h : ReplyRun types s t) : AddsCaused types s t := by
  induction h with
  | io hrun => exact addsCaused_ioRun hrun
  | trans _ _ ih ih' => exact ih.trans ih'
  | send hp _ hmem hrun => exact ((addsCaused_handOver hp hmem _).trans (addsCaused_ioRun hrun)).trans (addsCaused_finishSend _ _)

theorem addsCaused_packet {packet : ControlPacketType} {flags : UInt8} {headerData : Option Buffer}
    (h : Serves packet flags (bodyOf headerData) (s.log (.packet packet flags headerData)) t) : AddsCaused own s t := by
  have hserves : AddsCaused (replyTypes packet) (s.log (.packet packet flags headerData)) t := by
    cases h with
    | silent _ hrun => exact addsCaused_ioRun hrun
    | @delivers u _ x a _ htold _ hh _ hrun =>
      have hone : AddsCaused (replyTypes packet) (s.log (.packet packet flags headerData)) u := by
        refine addsCaused_of_none hh ?_
        intro b hb
        rw [List.mem_singleton.mp hb]
        cases htold <;> rfl
      exact hone.trans (addsCaused_replyRun hrun)
    | @suback t suback _ _ hrun _ =>
      have hevent : AddsCaused (replyTypes packet) t (t.log (.operation (.onSubscribeAck suback))) :=
        addsCaused_of_none rfl fun a ha => List.mem_singleton.mp ha ▸ rfl
      exact (addsCaused_ioRun hrun).trans hevent
  obtain ⟨added, hh, hc⟩ := hserves
  exact ⟨.packet packet flags headerData :: added, by rw [hh, Session.log, List.append_assoc]; rfl, hc.reply flags headerData⟩

theorem handed_callLocal {c c' : MqttClient} {l : List Action} (h : CallLocal c c' l) : ∀ a ∈ l, a.handed = none := by
  intro a ha
  cases h with
  | options => exact absurd ha (by simp)
  | disconnectClosed =>
    rcases List.mem_cons.mp ha with rfl | ha
    · rfl
    · obtain ⟨b, -, rfl⟩ := List.mem_map.mp ha
      rfl
  | _ => exact List.mem_singleton.mp ha ▸ rfl

theorem handed_callSends {c c' : MqttClient} {l : List Action} {packet : Buffer} (h : CallSends own c c' l packet) :
    (∀ a ∈ l, a.handed = none) ∧ ∃ type ∈ own, packet.packetType = some type := by
  cases h with
  | request _ type _ hp hmem => exact ⟨by simp, type, hmem, hp⟩
  | disconnect _ _ _ hp hmem => exact ⟨fun a ha => List.mem_singleton.mp ha ▸ rfl, _, hmem, hp⟩

theorem addsCaused_callRun (h : CallRun own s t) : AddsCaused own s t := by
  induction h with
  | io hrun => exact addsCaused_ioRun hrun
  | trans _ _ ih ih' => exact ih.trans ih'
  | direct hl hh _ => exact addsCaused_of_none hh (handed_callLocal hl)
  | reply hrun => exact addsCaused_replyRun hrun
  | packet packet flags headerData hserves => exact addsCaused_packet hserves
  | @send s u t l packet hs hh _ hrun =>
    obtain ⟨hnone, type, hmem, hp⟩ := handed_callSends hs
    have hbuild : AddsCaused own s u := addsCaused_of_none hh hnone
    exact ((hbuild.trans (addsCaused_handOver hp hmem u)).trans (addsCaused_ioRun hrun)).trans (addsCaused_finishSend t _)
  | @openFails s u t xioHandle result _ _ hh _ hrun =>
    have hopen : AddsCaused own s u := addsCaused_of_none hh fun a ha => List.mem_singleton.mp ha ▸ rfl
    exact (hopen.trans (addsCaused_ioRun hrun)).of_history rfl
  | @disconnect s t callback _ _ hrun =>
    have hclose : AddsCaused own s ((s.disconnecting callback).log (.xioClose s.client.xioHandle)) := by
      refine addsCaused_of_none (l := [.disconnect callback, .xioClose s.client.xioHandle])
        (by simp [Session.disconnecting, Session.log]) fun a ha => ?_
      simp only [List.mem_cons, List.not_mem_nil, or_false] at ha
      rcases ha with rfl | rfl <;> rfl
    exact (hclose.trans (addsCaused_ioRun hrun)).of_history rfl
  | @closePending s t _ _ hrun =>
    have hclose : AddsCaused own s (s.log (.xioClose s.client.xioHandle)) :=
      addsCaused_of_none rfl fun a ha => List.mem_singleton.mp ha ▸ rfl
    exact (hclose.trans (addsCaused_ioRun hrun)).of_history rfl

/-- With the keep-alive part, a PINGREQ may be handed over. -/
theorem addsCaused_pingRun (h : PingRun own s t) : AddsCaused (.pingreqType :: own) s t := by
  induction h with
  | call hrun => exact (addsCaused_callRun hrun).mono fun _ => List.mem_cons_of_mem _
  | trans _ _ ih ih' => exact ih.trans ih'
  | clock s => exact addsCaused_of_none rfl fun a ha => List.mem_singleton.mp ha ▸ rfl
  | @noPing s t _ hrun => exact ((addsCaused_failing s).trans (addsCaused_ioRun hrun)).of_history rfl
  | ping _ hp hrun | pingFails _ hp hrun =>
    exact (((addsCaused_handOver hp List.mem_cons_self _).trans (addsCaused_ioRun hrun)).trans (addsCaused_finishSend _ _)).of_history rfl
  | pingSent => exact addsCaused_of_none (List.append_nil _).symm (by simp)

end

/-! ## Once the xio has been given up -/

/-- Calls without a connect: an xio that has been given up stays given up, and no packet is handed to one. -/
theorem staysSilent_run (depth : Nat) {w : World} {calls : List Call} (hcalls : ∀ call ∈ calls, call.connects = false)
    (hx : w.callContext.client.xioHandle = none) : StaysSilent w.callContext (run depth w calls).callContext := by
  obtain ⟨hnone, added, hadded, hpassed⟩ := unattached_run depth hcalls hx
  exact ⟨hnone, added, hadded, fun x packet result hmem => hpassed _ hmem⟩

/-! ## Without options -/

/-- The options once their strings have been cleared. -/
def MqttClientOptions.cleared (mqttOptions : MqttClientOptions) : MqttClientOptions :=
  { mqttOptions with clientId := none, willTopic := none, willMessage := none, username := none, password := none }

/-- There is no CONNECT without a string. -/
theorem never_connect_cleared (mqttOptions : MqttClientOptions) : (mqttCodecConnect mqttOptions.cleared).Never :=
  never_mqttCodecConnect fun h => absurd h.2 (by simp [connPayloadLen, MqttClientOptions.cleared, strlenOpt])

/-- Calls without a connect: options that have been cleared stay so, and no CONNECT packet is built. -/
theorem builtFrom_cleared_run (depth : Nat) {mqttOptions : MqttClientOptions} {before : List Action} {w : World} {calls : List Call}
    (hcalls : ∀ call ∈ calls, call.connects = false) (hw : BuiltFrom mqttOptions.cleared before w.callContext) :
    BuiltFrom mqttOptions.cleared before (run depth w calls).callContext := by
  induction calls generalizing w with
  | nil => exact hw
  | cons call calls ih =>
    refine ih (fun c hc => hcalls c (List.mem_cons_of_mem _ hc)) ?_
    have hconnects := hcalls call List.mem_cons_self
    by_cases hkeeps : call.keepsOptions = true
    · exact (steps_keepingCall depth w hkeeps).preserves builtFrom_step hw
    · cases call with
      | disconnect callback =>
        obtain ⟨t, hsteps, heq⟩ := mqttClientDisconnect_cleared (steps_deliver depth) w.callContext callback
        obtain ⟨hopts, hbuilt⟩ := (keep_steps hsteps).preserves builtFrom_step hw
        have hcall : (runCall depth w (.disconnect callback)).callContext = clearMqttOptions t := heq
        rw [hcall]
        exact ⟨(congrArg MqttClientOptions.cleared hopts).trans rfl, hbuilt⟩
      | connect xioHandle mqttOptions =>
        rcases xioHandle with _ | xioHandle
        · exact absurd rfl hkeeps
        · rcases mqttOptions with _ | mqttOptions
          · exact absurd rfl hkeeps
          · exact absurd hconnects Bool.noConfusion
      | _ => exact absurd rfl hkeeps

/-- After a disconnect and without a connect, no CONNECT packet is built. -/
theorem no_connPacket_run (depth : Nat) (w : World) (callback : Option DisconnectedCallback) {calls : List Call}
    (hcalls : ∀ call ∈ calls, call.connects = false) :
    ∃ added, (run depth (runCall depth w (.disconnect callback)) calls).callContext.history =
        (runCall depth w (.disconnect callback)).callContext.history ++ added ∧ ∀ packet, .connPacket (some packet) ∉ added := by
  obtain ⟨t, -, heq⟩ := mqttClientDisconnect_cleared (steps_deliver depth) w.callContext callback
  have hcleared : (runCall depth w (.disconnect callback)).callContext.client.mqttOptions = t.client.mqttOptions.cleared :=
    congrArg (fun s => s.client.mqttOptions) heq
  have hstart : BuiltFrom t.client.mqttOptions.cleared (runCall depth w (.disconnect callback)).callContext.history
      (runCall depth w (.disconnect callback)).callContext :=
    ⟨hcleared, [], (List.append_nil _).symm, fun packet hp => absurd hp List.not_mem_nil⟩
  obtain ⟨-, added, hadded, hbuilt⟩ := builtFrom_cleared_run depth hcalls hstart
  refine ⟨added, hadded, ?_⟩
  intro packet hp
  obtain ⟨heap, hheap⟩ := hbuilt packet hp
  exact absurd ((never_connect_cleared t.client.mqttOptions heap).symm.trans hheap) (by simp)

/-! ## Runs after a disconnect -/

theorem run_append (depth : Nat) (w : World) (calls more : List Call) :
    run depth w (calls ++ more) = run depth (run depth w calls) more := List.foldl_append

/-- A `mqtt_client_dowork` that finds a close pending sends nothing itself. -/
theorem addsCaused_pending (depth : Nat) (w : World) (events : List WorkEvent)
    (hpend : w.callContext.client.mqttStatus.pendingClose = true) :
    AddsCaused [] w.callContext (mqttClientDowork (deliver depth) w events).callContext := by
  rcases hx : w.callContext.client.xioHandle with _ | x
  · rw [mqttClientDowork, if_pos (by rw [hx]; rfl)]
    exact addsCaused_of_none (List.append_nil _).symm (by simp)
  · rcases hs : w.callContext.client.mqttStatus.socketConnected
    · have hends : EndsPending w (.dowork events) := ⟨⟨events, rfl⟩, by rw [hx]; rfl, hpend, hs⟩
      rw [(@pingRun_mqttClientDowork _ (ioRun_deliver depth) [] w events).2 hends]
      refine addsCaused_of_none (history_callDisconnectCb w.callContext) ?_
      intro a ha
      obtain ⟨b, -, rfl⟩ := List.mem_map.mp ha
      rfl
    · obtain ⟨t, hrun, heq⟩ := mqttClientDowork_pending (ioRun_deliver depth) w events (by rw [hx]; rfl) hpend hs
      rw [heq]
      exact addsCaused_callRun (.closePending hpend hs hrun)

theorem sendsForCause_runCall (depth : Nat) (w : World) {call : Call} (hcall : call.connects = false) : SendsForCause depth w call := by
  have hbegin := beginCall_of_not_connects w.callContext hcall
  refine ⟨?_, ?_, ?_⟩
  · by_cases hwork : ∃ events, call = .dowork events
    · obtain ⟨events, rfl⟩ := hwork
      rcases hpend : w.callContext.client.mqttStatus.pendingClose
      · have hends : ¬EndsPending w (.dowork events) := by
          intro h
          rw [h.2.2.1] at hpend
          exact absurd hpend (by decide)
        have hrun := (@pingRun_mqttClientDowork _ (ioRun_deliver depth) [] w events).1 hends
        rw [sendable, hpend]
        exact addsCaused_pingRun hrun
      · rw [sendable, hpend]
        exact addsCaused_pending depth w events hpend
    · have hrun := callRun_runCall depth w call fun events heq => hwork ⟨events, heq⟩
      rw [hbegin] at hrun
      have hown : sendable w call = call.own := by
        cases call with
        | dowork events => exact absurd ⟨events, rfl⟩ hwork
        | _ => rfl
      rw [hown]
      exact addsCaused_callRun hrun
  · rintro ⟨events, rfl⟩ hpend hs
    rcases hx : w.callContext.client.xioHandle with _ | x
    · have hsame : runCall depth w (.dowork events) = w := by
        rw [runCall, mqttClientDowork, if_pos (by rw [hx]; rfl)]
      rw [hsame, hx]
    · obtain ⟨t, hrun, heq⟩ := mqttClientDowork_pending (ioRun_deliver depth) w events (by rw [hx]; rfl) hpend hs
      rw [runCall, heq]
      rfl
  · rintro ⟨events, rfl⟩ hx
    rw [runCall, mqttClientDowork, if_pos (by rw [hx]; rfl)]

/-- After a `mqtt_client_disconnect` and until the next `mqtt_client_connect`, every packet that a call hands over has a cause, no CONNECT
packet is built, and once the xio has been given up, no packet is handed to one. -/
theorem sends_after_disconnect (depth : Nat) (fnOnErrorCallBack : Bool) (env : Env) (heap : Heap) (calls : List Call)
    (callback : Option DisconnectedCallback) (more : List Call) (hmore : ∀ call ∈ more, call.connects = false) :
    (∀ pre call post, more = pre ++ call :: post →
        SendsForCause depth (run depth (mqttClientInit fnOnErrorCallBack env heap) (calls ++ .disconnect callback :: pre)) call) ∧
      (∃ added, (run depth (mqttClientInit fnOnErrorCallBack env heap) (calls ++ .disconnect callback :: more)).callContext.history =
          (run depth (mqttClientInit fnOnErrorCallBack env heap) (calls ++ [.disconnect callback])).callContext.history ++ added ∧
        ∀ packet, .connPacket (some packet) ∉ added) ∧
      ∀ pre post, more = pre ++ post →
        (run depth (mqttClientInit fnOnErrorCallBack env heap) (calls ++ .disconnect callback :: pre)).callContext.client.xioHandle = none →
          StaysSilent (run depth (mqttClientInit fnOnErrorCallBack env heap) (calls ++ .disconnect callback :: pre)).callContext
            (run depth (mqttClientInit fnOnErrorCallBack env heap) (calls ++ .disconnect callback :: more)).callContext := by
  refine ⟨fun pre call post heq => sendsForCause_runCall depth _ (hmore call (by simp [heq])), ?_, fun pre post heq hx => ?_⟩
  · rw [run_append, run_append]
    exact no_connPacket_run depth _ callback hmore
  have hsplit : calls ++ .disconnect callback :: more = (calls ++ .disconnect callback :: pre) ++ post := by simp [heq]
  rw [hsplit, run_append depth _ (calls ++ .disconnect callback :: pre) post]
  exact staysSilent_run depth (fun call hcall => hmore call (heq ▸ List.mem_append_right _ hcall)) hx

/-- A DISCONNECT that completes, and a `mqtt_client_dowork` that gives the xio up; then a SUBSCRIBE is asked for. -/
theorem sends_after_disconnect_closed :
    StaysSilent
      (run 1 (mqttClientInit true calmEnv okHeap)
        (openedWith 1 0 ++ .disconnect (some 7) :: [.xio (.io (.sendComplete .ioSendOk)), .dowork []])).callContext
      (run 1 (mqttClientInit true calmEnv okHeap)
        (openedWith 1 0 ++ .disconnect (some 7) :: [.xio (.io (.sendComplete .ioSendOk)), .dowork [],
          .subscribe 5 [⟨letterA, .deliverAtLeastOnce⟩]])).callContext :=
  (sends_after_disconnect 1 true calmEnv okHeap (openedWith 1 0) (some 7) [.xio (.io (.sendComplete .ioSendOk)), .dowork [],
    .subscribe 5 [⟨letterA, .deliverAtLeastOnce⟩]] (by simp [Call.connects])).2.2
      [.xio (.io (.sendComplete .ioSendOk)), .dowork []] [.subscribe 5 [⟨letterA, .deliverAtLeastOnce⟩]] rfl
      (by decide +kernel)

/-- Surroundings in which every call succeeds, and in which 20 seconds have passed when the clock is read for the fourth time. -/
def laterEnv : Env := { calmEnv with clock := fun n => some (if n < 3 then 0 else 20000) }

/-- The types of the packets that some entries hand over. -/
def handedTypes (l : List Action) : List (Option ControlPacketType) := (l.filterMap Action.handed).map Buffer.packetType

/-- A message for the topic `a`. -/
def plainMessage : MqttMessage :=
  { packetId := 4, qosInfo := .deliverAtLeastOnce, topicName := some letterA, appPayload := [0x62],
    constTopicName := none, constPayload := [], isDuplicateMsg := false, isMessageRetained := false }

/-- A QoS 1 PUBLISH arrives, the keep-alive interval passes, and the application sends one packet of each kind. -/
def busyAfterwards : List Call :=
  [.xio (.bytes (some [0x32, 0x06, 0x00, 0x01, 0x61, 0x00, 0x05, 0x62])), .dowork [], .publish (some plainMessage),
    .subscribe 5 [⟨letterA, .deliverAtLeastOnce⟩], .unsubscribe 6 [letterA],
    .sendMessageResponse 7 .deliverAtLeastOnce, .disconnect none]

/-- A DISCONNECT is handed over and `mqtt_client_disconnect` returns 0; a packet of every kind but CONNECT is handed over afterwards. -/
theorem not_silent_after_disconnect :
    let w := run 1 (mqttClientInit true laterEnv okHeap) (openedWith 1 0)
    let v := runCall 1 w (.disconnect (some 7))
    (mqttClientDisconnect (deliver 1) w.callContext (some 7)).2 = .zero ∧
      handedTypes (v.callContext.history.drop w.callContext.history.length) = [some .disconnectType] ∧
      (∀ call ∈ busyAfterwards, call.connects = false) ∧
      handedTypes ((run 1 v busyAfterwards).callContext.history.drop v.callContext.history.length) =
        [some .pubackType, some .pingreqType, some .publishType, some .subscribeType, some .unsubscribeType, some .pubackType,
          some .disconnectType] := by
  refine ⟨by decide +kernel, by decide +kernel, by simp [busyAfterwards, Call.connects], by decide +kernel⟩

end Umqtt
