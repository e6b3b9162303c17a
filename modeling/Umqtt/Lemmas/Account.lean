import Umqtt.Lemmas.Advance

/-!
# An account of the client, kept from its history

The history tells whether the socket and the client count as connected, which callback is stored for the disconnect, and, in nearly all
cases, whether the packet that was last asked for is a DISCONNECT. `account` reads it off entry by entry, and on every step it agrees
with the client (`agrees_advance`).
-/

namespace Umqtt

open Past

/-! ## The account -/

/-- Whether the packet that was last asked for is a DISCONNECT, and then whether a PINGREQ has been handed over after it. When a PINGREQ
is not answered or not sent, the client forgets what was asked for; the history does not tell when. -/
inductive Requested where
  | other
  | disconnect (pinged : Bool)
  | unsure
  deriving DecidableEq

namespace Requested

/-- A PINGREQ is handed over. -/
def ping : Requested → Requested
  | disconnect _ => disconnect true
  | r => r

/-- A send fails, which may be the one of a PINGREQ. -/
def sendFails : Requested → Requested
  | disconnect true => unsure
  | r => r

/-- There is no answer to a PINGREQ. -/
def noPing : Requested → Requested
  | disconnect _ => unsure
  | r => r

/-- What it says about `packetState`. -/
def Allows : Requested → ControlPacketType → Prop
  | other, t => t ≠ .disconnectType
  | disconnect _, t => t = .disconnectType
  | unsure, _ => True

theorem Allows.ping {r : Requested} {t : ControlPacketType} (h : r.Allows t) : r.ping.Allows t := by
  cases r <;> exact h

theorem Allows.sendFails {r : Requested} {t : ControlPacketType} (h : r.Allows t) : r.sendFails.Allows t := by
  rcases r with _ | (_ | _) | _
  · exact h
  · exact h
  · trivial
  · trivial

theorem Allows.noPing {r : Requested} {t : ControlPacketType} (h : r.Allows t) : r.noPing.Allows t := by
  cases r with
  | other => exact h
  | disconnect | unsure => trivial

theorem allows_of_ne {r : Requested} (h : ∀ b, r ≠ disconnect b) {t : ControlPacketType} (ht : t ≠ .disconnectType) : r.Allows t := by
  cases r with
  | other => exact ht
  | disconnect b => exact absurd rfl (h b)
  | unsure => trivial

end Requested

/-- The account: the bits of the client, what was asked for last, the callback of the latest `mqtt_client_disconnect`, the callback that
is stored, how many connections have been begun, those whose xio has been told to close and has not reported it, oldest first, and the
connection on which the stored callback was given, if it has not been called since. -/
structure Account where
  clientConnected : Bool
  socketConnected : Bool
  requested : Requested
  asked : Option DisconnectedCallback
  stored : Option DisconnectedCallback
  connection : Nat
  closing : List Nat
  due : Option Nat
  deriving DecidableEq

namespace Account

/-- A packet is handed over. -/
def send (x : Account) (packet : Buffer) : Account :=
  if packet.packetType = some .disconnectType then { x with requested := .disconnect false, stored := x.asked, due := some x.connection }
  else if packet.packetType ∈ [some ControlPacketType.publishType, some .subscribeType, some .unsubscribeType] then
    { x with requested := .other }
  else if packet.packetType = some .pingreqType then { x with requested := x.requested.ping }
  else x

/-- One more entry. A `mqtt_client_disconnect` of a client that is connected stores its callback when its packet is handed over. -/
def add (x : Account) : Action → Account
  | .connect _ _ => { x with requested := .other, connection := x.connection + 1 }
  | .disconnect callback =>
    if x.clientConnected then { x with requested := .other, asked := callback }
    else { x with asked := callback, stored := callback, due := some x.connection }
  | .connPacket _ => { x with requested := .other, socketConnected := true }
  | .xioClose xioHandle =>
    { x with closing :=
        if xioHandle.isSome ∧ x.connection ∉ x.closing then x.closing ++ [x.connection] else x.closing }
  | .event .closeComplete => { x with socketConnected := false, closing := x.closing.tail }
  | .xioSend _ packet _ => x.send packet
  | .sendReturns .muFailure => { x with requested := x.requested.sendFails }
  | .setErrorCallback .noPingResponse => { x with requested := x.requested.noPing }
  | .operation (.onConnack connack) => { x with clientConnected := x.clientConnected || connack.returnCode = .connectionAccepted }
  | .disconnected _ => { x with due := none }
  | _ => x

/-- The account of a new client. -/
def start : Account :=
  { clientConnected := false, socketConnected := false, requested := .other, asked := none, stored := none,
    connection := 0, closing := [], due := none }

/-- The account agrees with a client. -/
structure Agrees (x : Account) (c : MqttClient) : Prop where
  clientConnected : c.mqttStatus.clientConnected = x.clientConnected
  socketConnected : c.mqttStatus.socketConnected = x.socketConnected
  stored : c.disconnectCb = x.stored
  requested : x.requested.Allows c.packetState

end Account

/-- The account of a history. -/
def account (h : List Action) : Account := h.foldl Account.add Account.start

theorem account_append (h l : List Action) : account (h ++ l) = l.foldl Account.add (account h) := List.foldl_append

/-! ## The account agrees with the client -/

section

variable {x : Account} {c : MqttClient}

/-- A packet that a client hands over without asking for it. -/
theorem Account.Agrees.sendPlain (h : x.Agrees c) {packet : Buffer} {t : ControlPacketType} (hp : packet.packetType = some t)
    (ht : t ∉ [ControlPacketType.disconnectType, .publishType, .subscribeType, .unsubscribeType]) : (x.send packet).Agrees c := by
  have h1 : ¬packet.packetType = some .disconnectType := by
    rw [hp]
    rintro heq
    exact ht (by simp [Option.some.inj heq])
  have h2 : ¬packet.packetType ∈ [some ControlPacketType.publishType, some .subscribeType, some .unsubscribeType] := by
    rw [hp]
    intro hmem
    apply ht
    simp only [List.mem_cons, List.not_mem_nil, or_false, Option.some.injEq] at hmem ⊢
    exact Or.inr hmem
  unfold Account.send
  rw [if_neg h1, if_neg h2]
  split
  · exact ⟨h.clientConnected, h.socketConnected, h.stored, h.requested.ping⟩
  · exact h

/-- A client that differs in nothing that is accounted for. -/
theorem Account.Agrees.of_eq {c' : MqttClient} (h : x.Agrees c)
    (hcc : c'.mqttStatus.clientConnected = c.mqttStatus.clientConnected)
    (hsc : c'.mqttStatus.socketConnected = c.mqttStatus.socketConnected) (hcb : c'.disconnectCb = c.disconnectCb)
    (hps : c'.packetState = c.packetState) : x.Agrees c' :=
  ⟨hcc.trans h.clientConnected, hsc.trans h.socketConnected, hcb.trans h.stored, hps ▸ h.requested⟩

/-- The entries that change no bit, and neither the stored callback nor what was asked for, except to make it unsure. -/
def Action.Mute : Action → Prop
  | .connect _ _ | .disconnect _ | .connPacket _ | .event .closeComplete | .xioSend _ _ _ => False
  | .operation (.onConnack connack) => connack.returnCode ≠ .connectionAccepted
  | _ => True

theorem Account.Agrees.mute (h : x.Agrees c) {a : Action} (ha : a.Mute) : (x.add a).Agrees c := by
  cases a with
  | connect | disconnect | connPacket | xioSend => exact absurd ha id
  | event e =>
    cases e with
    | closeComplete => exact absurd ha id
    | _ => exact h
  | sendReturns result =>
    cases result with
    | zero => exact h
    | muFailure => exact ⟨h.clientConnected, h.socketConnected, h.stored, h.requested.sendFails⟩
  | setErrorCallback e =>
    cases e with
    | noPingResponse => exact ⟨h.clientConnected, h.socketConnected, h.stored, h.requested.noPing⟩
    | _ => exact h
  | operation actionResult =>
    cases actionResult with
    | onConnack connack =>
      refine ⟨?_, h.socketConnected, h.stored, h.requested⟩
      rw [h.clientConnected, Account.add, decide_eq_false ha, Bool.or_false]
    | _ => exact h
  | _ => exact ⟨h.clientConnected, h.socketConnected, h.stored, h.requested⟩

theorem Account.Agrees.one (h : x.Agrees c) {a : Action} (ha : a.Mute) : ([a].foldl Account.add x).Agrees c := h.mute ha

theorem Account.Agrees.mutes (h : x.Agrees c) {l : List Action} (hl : ∀ a ∈ l, a.Mute) : (l.foldl Account.add x).Agrees c := by
  induction l generalizing x with
  | nil => exact h
  | cons a l ih => exact ih (h.mute (hl a List.mem_cons_self)) fun b hb => hl b (List.mem_cons_of_mem _ hb)

end

theorem mute_onErrorOf {c : MqttClient} {e : MqttClientEventError} : ∀ a ∈ onErrorOf c e, a.Mute := by
  intro a ha
  rw [mem_onErrorOf ha]
  trivial

theorem mute_reportOf {c : MqttClient} {e : MqttClientEventError} : ∀ a ∈ reportOf c e, a.Mute := by
  intro a ha
  rcases mem_reportOf ha with rfl | rfl <;> trivial

theorem mute_disconnectedOf {c : MqttClient} : ∀ a ∈ disconnectedOf c, a.Mute := by
  intro a ha
  obtain ⟨callback, -, rfl⟩ := List.mem_map.mp ha
  trivial

theorem mute_finishes {c c' : MqttClient} {result returned : MuResult} {l : List Action} (h : Finishes c result c' l returned) :
    ∀ a ∈ l, a.Mute := by
  intro a ha
  rcases mem_finishes h ha with ⟨_, rfl⟩ | ⟨_, rfl⟩ <;> trivial

/-- A property of what was asked for that every entry keeps, unless it hands over a DISCONNECT. -/
structure Requested.Kept (Q : Requested → Prop) : Prop where
  other : Q .other
  ping : ∀ r, Q r → Q r.ping
  sendFails : ∀ r, Q r → Q r.sendFails
  noPing : ∀ r, Q r → Q r.noPing

theorem Requested.Kept.add {Q : Requested → Prop} (h : Requested.Kept Q) {x : Account} {a : Action}
    (ha : ¬a.sendsType .disconnectType = true) (hx : Q x.requested) : Q (x.add a).requested := by
  cases a with
  | connect | connPacket => exact h.other
  | disconnect callback =>
    unfold Account.add
    dsimp only
    split
    · exact h.other
    · exact hx
  | event e => cases e <;> exact hx
  | xioSend _ p _ =>
    have hp : ¬p.packetType = some .disconnectType := by simpa [Action.sendsType] using ha
    unfold Account.add Account.send
    dsimp only
    rw [if_neg hp]
    split
    · exact h.other
    · split
      · exact h.ping _ hx
      · exact hx
  | sendReturns result =>
    cases result with
    | zero => exact hx
    | muFailure => exact h.sendFails _ hx
  | setErrorCallback e =>
    cases e with
    | noPingResponse => exact h.noPing _ hx
    | _ => exact hx
  | operation actionResult => cases actionResult <;> exact hx
  | _ => exact hx

/-- What holds after an event and is kept holds as long as no DISCONNECT is handed over. -/
theorem Requested.Kept.of_since {Q : Requested → Prop} (h : Requested.Kept Q) {event : Action → Prop}
    (hevent : ∀ (x : Account) (a : Action), event a → Q (x.add a).requested) {log : List Action}
    (hs : Since (·.sendsType .disconnectType) event log) : Q (account log).requested := by
  obtain ⟨pre, e, post, rfl, he, hpost⟩ := hs
  rw [account_append, List.foldl_cons]
  have hfirst := hevent (account pre) e he
  generalize (account pre).add e = y at hfirst
  induction post generalizing y with
  | nil => exact hfirst
  | cons a post ih =>
    exact ih (fun b hb => hpost b (List.mem_cons_of_mem _ hb)) _ (h.add (hpost a List.mem_cons_self) hfirst)

/-- Once a PINGREQ has been handed over, a send that fails makes it unsure that a DISCONNECT was asked for. -/
theorem kept_pinged : Requested.Kept (· ≠ .disconnect false) := by
  constructor
  · exact Requested.noConfusion
  all_goals
    rintro (_ | (_ | _) | _) h
    all_goals simp_all [Requested.ping, Requested.sendFails, Requested.noPing]

/-- Once a PINGREQ is not answered, it is unsure. -/
theorem kept_unsure : Requested.Kept (∀ b, · ≠ .disconnect b) := by
  constructor
  · exact fun _ => Requested.noConfusion
  all_goals
    rintro (_ | (_ | _) | _) h
    all_goals simp_all [Requested.ping, Requested.sendFails, Requested.noPing]

theorem requested_ping_ne (r : Requested) : r.ping ≠ .disconnect false := by
  cases r <;> simp [Requested.ping]

theorem requested_noPing_ne (r : Requested) (b : Bool) : r.noPing ≠ .disconnect b := by
  cases r <;> simp [Requested.noPing]

/-! ## Every step agrees -/

section

variable {c c' : MqttClient} {h l : List Action}

/-- A PINGREQ that is not sent. -/
theorem pingFails_unsure (hs : Since (·.sendsType .disconnectType) (·.sendsType .pingreqType) h) {result : MuResult}
    (hf : Finishes c result c' l .muFailure) (b : Bool) : (account (h ++ l)).requested ≠ .disconnect b := by
  have hpinged : (account h).requested ≠ .disconnect false := by
    refine kept_pinged.of_since (fun x a ha => ?_) hs
    cases a with
    | xioSend _ p _ =>
      have hp : p.packetType = some .pingreqType := by simpa [Action.sendsType] using ha
      unfold Account.add Account.send
      dsimp only
      rw [if_neg (by simp [hp]), if_neg (by simp [hp]), if_pos hp]
      exact requested_ping_ne _
    | _ => exact absurd ha Bool.false_ne_true
  have hfails : ∀ r : Requested, r ≠ .disconnect false → ∀ b, r.sendFails ≠ .disconnect b := by
    rintro (_ | (_ | _) | _) hr b
    all_goals simp_all [Requested.sendFails]
  rw [account_append]
  cases hf with
  | refused => exact hfails _ hpinged b
  | noTime => exact hfails _ hpinged b

theorem agrees_local (hl : Local c h c' l) (hx : (account h).Agrees c) : (account (h ++ l)).Agrees c' := by
  rw [account_append]
  cases hl with
  | idle => exact hx
  | working => exact hx.one trivial
  | ioError => exact hx.one trivial
  | notSent => exact hx.one trivial
  | sent =>
    have hevent := (hx.mute (a := .event (.sendComplete .ioSendOk)) trivial).mute (a := .operation .onDisconnect) trivial
    exact hevent.of_eq rfl rfl rfl rfl
  | openNoPacket => exact ⟨hx.clientConnected, rfl, hx.stored, by simp [Requested.Allows, Account.add]⟩
  | openRefused r =>
    have hmute : ∀ a ∈ .event (.openComplete r) :: if c.mqttStatus.socketConnected then [] else onErrorOf c .connectionError,
        a.Mute := by
      intro a ha
      rcases List.mem_cons.mp ha with rfl | ha
      · trivial
      · split at ha
        · exact absurd ha (by simp)
        · exact mute_onErrorOf a ha
    exact (hx.mutes hmute).of_eq rfl rfl rfl rfl
  | connectFailed => exact (hx.mutes mute_onErrorOf).of_eq rfl rfl rfl rfl
  | closed =>
    have hclosed : ((account h).add (.event .closeComplete)).Agrees
        { c with mqttStatus := { c.mqttStatus with socketConnected := false } } :=
      ⟨hx.clientConnected, rfl, hx.stored, hx.requested⟩
    exact hclosed.mutes mute_disconnectedOf
  | failed e => exact hx.mutes fun a ha => (List.mem_append.mp ha).elim (mute_reportOf a) (mute_disconnectedOf a)

/-- What is done at once by a call. -/
theorem agrees_callLocal (hl : CallLocal c c' l) (hx : (account h).Agrees c) : (account (h ++ l)).Agrees c' := by
  rw [account_append]
  cases hl with
  | bytes => exact hx.one trivial
  | working => exact hx.one trivial
  | opens => exact hx.one trivial
  | connectReturns => exact hx.one trivial
  | options => exact hx.of_eq rfl rfl rfl rfl
  | clear => exact (hx.one (a := .clearXio) trivial).of_eq rfl rfl rfl rfl
  | disconnectNoPacket callback hc =>
    rw [hx.clientConnected] at hc
    rw [List.foldl_cons, List.foldl_nil, Account.add, if_pos hc]
    exact ⟨hx.clientConnected, hx.socketConnected, hx.stored, by simp [Requested.Allows]⟩
  | disconnectClosed callback hc =>
    rw [hx.clientConnected] at hc
    have hstored : ((account h).add (.disconnect callback)).Agrees { c with disconnectCb := callback } := by
      rw [Account.add, if_neg (by rw [hc]; exact Bool.false_ne_true)]
      exact ⟨hx.clientConnected, hx.socketConnected, rfl, hx.requested⟩
    refine hstored.mutes ?_
    intro a ha
    obtain ⟨b, -, rfl⟩ := List.mem_map.mp ha
    trivial

/-- A packet that a call hands over. -/
theorem agrees_callSends {own : List ControlPacketType} {packet : Buffer} (hs : CallSends own c c' l packet)
    (hx : (account h).Agrees c) (x : Option XioHandle) (result : MuResult) :
    (account (h ++ (l ++ [.xioSend x packet result]))).Agrees c' := by
  rw [account_append]
  cases hs with
  | request _ t ht hp =>
    have hne : ¬packet.packetType = some .disconnectType := by
      rw [hp]
      intro heq
      rw [Option.some.inj heq] at ht
      exact absurd ht (by decide)
    have hmem : packet.packetType ∈ [some ControlPacketType.publishType, some .subscribeType, some .unsubscribeType] := by
      rw [hp]
      simpa using ht
    rw [List.nil_append, List.foldl_cons, List.foldl_nil, Account.add, Account.send, if_neg hne, if_pos hmem]
    refine ⟨hx.clientConnected, hx.socketConnected, hx.stored, ?_⟩
    rintro rfl
    exact absurd ht (by decide)
  | disconnect callback _ hc hp =>
    rw [hx.clientConnected] at hc
    rw [List.singleton_append, List.foldl_cons, List.foldl_cons, List.foldl_nil, Account.add, if_pos hc, Account.add, Account.send,
      if_pos hp]
    exact ⟨hx.clientConnected, hx.socketConnected, rfl, rfl⟩

/-- A CONNACK that is delivered and accepted makes the client count as connected. -/
theorem agrees_told {x : Heard} {a : Action} (ha : x.Says a) (hx : (account h).Agrees c) : (account (h ++ [a])).Agrees (c.told a) := by
  rw [account_append]
  cases ha with
  | message => exact hx.one trivial
  | event actionResult =>
    cases actionResult with
    | onConnack connack =>
      unfold MqttClient.told
      dsimp only
      split
      · rename_i hacc
        refine ⟨?_, hx.socketConnected, hx.stored, hx.requested⟩
        rw [List.foldl_cons, List.foldl_nil, Account.add, decide_eq_true hacc, Bool.or_true]
      · rename_i hacc
        exact hx.one hacc
    | onPingResponse => exact (hx.one (a := .operation .onPingResponse) trivial).of_eq rfl rfl rfl rfl
    | _ => exact hx.one trivial

theorem ReplyType.not_requested {t : ControlPacketType} (h : ReplyType t) :
    t ∉ [ControlPacketType.disconnectType, .publishType, .subscribeType, .unsubscribeType] := by
  simp only [ReplyType, List.mem_cons, List.not_mem_nil, or_false] at h
  rcases h with rfl | rfl | rfl | rfl <;> decide

/-- An account that agrees with a client agrees after every step. -/
theorem agrees_advance (ha : Advance c h c' l) (hx : (account h).Agrees c) : (account (h ++ l)).Agrees c' := by
  cases ha with
  | callback hl => exact agrees_local hl hx
  | call hl => exact agrees_callLocal hl hx
  | sends own result hs => exact agrees_callSends hs hx _ result
  | delivers packet flags headerData _ htold _ => exact agrees_told htold hx
  | fails e =>
    rw [account_append]
    refine hx.mutes fun a ha => (List.mem_append.mp ha).elim (mute_reportOf a) ?_
    intro ha
    exact List.mem_singleton.mp ha ▸ trivial
  | detach | pendingDone | pingSent =>
    rw [List.append_nil]
    exact hx.of_eq rfl rfl rfl rfl
  | noPingDone hs =>
    rw [List.append_nil]
    have hunsure : ∀ b, (account h).requested ≠ .disconnect b := kept_unsure.of_since (fun x a ha b => by
      rw [ha]
      exact requested_noPing_ne _ b) hs
    exact ⟨hx.clientConnected, hx.socketConnected, hx.stored, Requested.allows_of_ne (t := .unknownType) hunsure (by decide)⟩
  | opens packet result _ hbuilt =>
    have htype := (packetType_mqttCodecConnect c.mqttOptions).of_produces hbuilt
    have hopen : (((account h).add (.event (.openComplete .ioOpenOk))).add (.connPacket (some packet))).Agrees
        { c with packetState := .connectType, mqttStatus := { c.mqttStatus with socketConnected := true } } :=
      ⟨hx.clientConnected, rfl, hx.stored, by simp [Requested.Allows, Account.add]⟩
    rw [account_append]
    exact hopen.sendPlain htype (by decide)
  | finishes result returned hf =>
    rw [account_append]
    refine (hx.mutes (mute_finishes hf)).of_eq ?_ ?_ ?_ ?_
    all_goals cases hf <;> rfl
  | pingFails result hs hf =>
    have hunsure := Requested.allows_of_ne (pingFails_unsure hs hf) (t := .unknownType) (by decide)
    rw [account_append] at hunsure ⊢
    have hsame := hx.mutes (mute_finishes hf)
    refine ⟨?_, ?_, ?_, hunsure⟩
    · rw [← hsame.clientConnected]
      cases hf <;> rfl
    · rw [← hsame.socketConnected]
      cases hf <;> rfl
    · rw [← hsame.stored]
      cases hf <;> rfl
  | reply packet t result hp ht =>
    rw [account_append]
    exact hx.sendPlain hp ht.not_requested
  | ping packet result _ hp =>
    rw [account_append]
    exact hx.sendPlain hp (by decide)
  | packet | suback | openFails | closePending | clock =>
    rw [account_append]
    exact hx.one trivial
  | disconnects callback hc =>
    rw [hx.clientConnected] at hc
    have hstored : ((account h).add (.disconnect callback)).Agrees { c with disconnectCb := callback } := by
      rw [Account.add, if_neg (by rw [hc]; exact Bool.false_ne_true)]
      exact ⟨hx.clientConnected, hx.socketConnected, rfl, hx.requested⟩
    rw [account_append]
    exact hstored.mute (a := .xioClose c.xioHandle) trivial

/-- A new client. -/
theorem agrees_init (fnOnErrorCallBack : Bool) (env : Env) (heap : Heap) :
    (account (mqttClientInit fnOnErrorCallBack env heap).callContext.history).Agrees
      (mqttClientInit fnOnErrorCallBack env heap).callContext.client :=
  ⟨rfl, rfl, rfl, ControlPacketType.noConfusion⟩

/-- The start of a connection. -/
theorem agrees_begin {s : Session} (call : Call) (hx : (account s.history).Agrees s.client) :
    (account (beginCall s call).history).Agrees (beginCall s call).client := by
  rcases beginCall_cases s call with ⟨xioHandle, mqttOptions, rfl⟩ | hsame
  · change (account (s.history ++ [.connect xioHandle mqttOptions])).Agrees _
    rw [account_append]
    exact ⟨hx.clientConnected, hx.socketConnected, hx.stored, by simp [Requested.Allows, Account.add, beginCall, beginConnect]⟩
  · rw [hsame]
    exact hx

/-- The end of a connection that was to be closed. -/
theorem agrees_endPending {s : Session} (hx : (account s.history).Agrees s.client) :
    (account s.endPending.history).Agrees s.endPending.client := by
  have hhist : s.endPending.history = s.history ++ disconnectedOf s.client := history_callDisconnectCb s
  rw [hhist, account_append]
  refine (hx.mutes mute_disconnectedOf).of_eq ?_ ?_ ?_ ?_
  all_goals simp [Session.endPending, Session.setStatus, client_callDisconnectCb]

end

end Umqtt
