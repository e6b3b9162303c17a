import Umqtt.Lemmas.Account
import Umqtt.Theorems.Connected

/-!
# The callback of `mqtt_client_disconnect`

The callback that is given to `mqtt_client_disconnect` is stored, and it is called whenever the xio reports that it has closed, and
whenever a connection is to be closed that does not count as open. It is never forgotten. Each call answers one request when at each
such occasion the stored callback was given for the connection that ends, or for a later one, and has not been called since.
-/

namespace Umqtt

open Past

/-! ## The connection that ends, and the request -/

/-- The connection whose xio closes next. -/
def Account.closes (x : Account) : Nat := x.closing.head?.getD x.connection

/-- The connection that has just been closed or has just failed. -/
def lastEnded (h : List Action) : Nat :=
  if h.getLast? = some (.event .closeComplete) then (account h.dropLast).closes else (account h).connection

/-- `mqtt_client_disconnect` has been called with a callback for a connection, or for a later one. -/
def GivenFor (h : List Action) (callback : DisconnectedCallback) (connection : Nat) : Prop :=
  ∃ pre post, h = pre ++ .disconnect (some callback) :: post ∧ connection ≤ (account pre).connection

/-- A callback is called at most as many times as `mqtt_client_disconnect` was called with it, and for no connection that is later than
all those calls. -/
structure CalledOnRequest (h : List Action) : Prop where
  count : ∀ callback, h.count (.disconnected callback) ≤ h.count (.disconnect (some callback))
  ended : Always (fun before a => ∀ callback, a = .disconnected callback → GivenFor before callback (lastEnded before)) h

/-- No callback is stored, or it was given for a connection, or for a later one, and has not been called since. -/
def Account.DueFor (x : Account) (connection : Nat) : Prop := x.stored = none ∨ ∃ given ∈ x.due, connection ≤ given

instance (x : Account) (connection : Nat) : Decidable (x.DueFor connection) := inferInstanceAs (Decidable (_ ∨ _))

/-- The stored callback is due when the xio closes, and when an error is reported and no socket counts as connected. -/
def DueWhenEnded (h : List Action) : Prop :=
  Always (fun before a => (a = .event .closeComplete → (account before).DueFor (account before).closes) ∧
    (a.isFatal = true → (account before).socketConnected = false → (account before).DueFor (account before).connection)) h

instance (h : List Action) : Decidable (DueWhenEnded h) := inferInstanceAs (Decidable (Always _ _))

/-- The stored callback is due when `mqtt_client_dowork` finds a close pending and no socket connected. -/
def DueWhenPending (w : World) (call : Call) : Prop :=
  EndsPending w call → (account w.callContext.history).DueFor (account w.callContext.history).connection

instance (w : World) : (call : Call) → Decidable (DueWhenPending w call)
  | .dowork events =>
    have : EndsPending w (.dowork events) ↔ w.callContext.client.xioHandle.isSome ∧
        w.callContext.client.mqttStatus.pendingClose = true ∧ w.callContext.client.mqttStatus.socketConnected = false :=
      and_iff_right ⟨events, rfl⟩
    decidable_of_iff (w.callContext.client.xioHandle.isSome ∧ w.callContext.client.mqttStatus.pendingClose = true ∧
      w.callContext.client.mqttStatus.socketConnected = false →
        (account w.callContext.history).DueFor (account w.callContext.history).connection) (by rw [DueWhenPending, this])
  | .connect _ _ | .publish _ | .subscribe _ _ | .unsubscribe _ _ | .sendMessageResponse _ _ | .disconnect _ | .clearXio | .xio _ =>
    isTrue fun h => by
      obtain ⟨events, heq⟩ := h.1
      exact absurd heq (by simp)

theorem GivenFor.append {h : List Action} {callback : DisconnectedCallback} {connection : Nat} (hg : GivenFor h callback connection)
    (l : List Action) : GivenFor (h ++ l) callback connection := by
  obtain ⟨pre, post, rfl, hle⟩ := hg
  exact ⟨pre, post ++ l, by simp, hle⟩

theorem GivenFor.mono {h : List Action} {callback : DisconnectedCallback} {k m : Nat} (hg : GivenFor h callback m) (hk : k ≤ m) :
    GivenFor h callback k := by
  obtain ⟨pre, post, heq, hle⟩ := hg
  exact ⟨pre, post, heq, hk.trans hle⟩

/-! ## What a history owes -/

/-- One when the callback is stored and due. -/
def owes (x : Account) (callback : DisconnectedCallback) : Nat := if x.stored = some callback ∧ x.due.isSome = true then 1 else 0

/-- The calls made and the one that is still due are requested, and each was made for a connection that was to end. -/
structure Accounted (h : List Action) : Prop where
  count : ∀ callback, h.count (.disconnected callback) + owes (account h) callback ≤ h.count (.disconnect (some callback))
  given : ∀ callback connection, (account h).stored = some callback → (account h).due = some connection →
    GivenFor h callback connection
  ended : Always (fun before a => ∀ callback, a = .disconnected callback → GivenFor before callback (lastEnded before)) h

theorem account_snoc (h : List Action) (a : Action) : account (h ++ [a]) = (account h).add a := account_append h [a]

theorem accounted_nil : Accounted [] where
  count := by simp [owes, account, Account.start]
  given := by simp [account, Account.start]
  ended := always_nil

/-- An entry that neither asks for the callback nor calls it. -/
def Action.Aside : Action → Prop
  | .disconnect _ | .disconnected _ => False
  | .xioSend _ p _ => p.packetType ≠ some .disconnectType
  | _ => True

theorem Action.Aside.add {a : Action} (ha : a.Aside) (x : Account) : (x.add a).stored = x.stored ∧ (x.add a).due = x.due := by
  cases a with
  | disconnect | disconnected => exact absurd ha id
  | event e => cases e <;> exact ⟨rfl, rfl⟩
  | xioSend _ p _ =>
    unfold Account.add Account.send
    dsimp only
    rw [if_neg ha]
    split
    · exact ⟨rfl, rfl⟩
    · split <;> exact ⟨rfl, rfl⟩
  | sendReturns result => cases result <;> exact ⟨rfl, rfl⟩
  | setErrorCallback e => cases e <;> exact ⟨rfl, rfl⟩
  | operation actionResult => cases actionResult <;> exact ⟨rfl, rfl⟩
  | _ => exact ⟨rfl, rfl⟩

variable {h : List Action}

theorem Accounted.aside (hs : Accounted h) {a : Action} (ha : a.Aside) : Accounted (h ++ [a]) := by
  obtain ⟨hstored, hdue⟩ := ha.add (account h)
  refine ⟨?_, ?_, always_snoc.mpr ⟨hs.ended, ?_⟩⟩
  · intro callback
    have hno : [a].count (.disconnected callback) = 0 ∧ [a].count (.disconnect (some callback)) = 0 := by
      constructor
      all_goals
        refine List.count_eq_zero.mpr ?_
        intro hmem
        rw [← List.mem_singleton.mp hmem] at ha
        exact ha
    have hold := hs.count callback
    rw [List.count_append, List.count_append, hno.1, hno.2, account_snoc, owes, hstored, hdue]
    exact hold
  · intro callback connection hcb hr
    rw [account_snoc, hstored] at hcb
    rw [account_snoc, hdue] at hr
    exact (hs.given callback connection hcb hr).append [a]
  · intro callback heq
    subst heq
    exact absurd ha id

theorem Accounted.asides (hs : Accounted h) {l : List Action} (hl : ∀ a ∈ l, a.Aside) : Accounted (h ++ l) := by
  induction l generalizing h with
  | nil => rwa [List.append_nil]
  | cons a l ih =>
    have hmore := ih (hs.aside (hl a List.mem_cons_self)) fun b hb => hl b (List.mem_cons_of_mem _ hb)
    rwa [List.append_assoc, List.singleton_append] at hmore

/-- The callback is called, if it is set, when it is due for the connection that has ended. -/
theorem Accounted.called (hs : Accounted h) {stored : Option DisconnectedCallback} (hstored : (account h).stored = stored)
    (hdue : (account h).DueFor (lastEnded h)) : Accounted (h ++ stored.toList.map .disconnected) := by
  cases stored with
  | none => simpa using hs
  | some called =>
    obtain ⟨connection, hr, hle⟩ := hdue.resolve_left (by rw [hstored]; exact Option.some_ne_none _)
    refine ⟨?_, ?_, always_snoc.mpr ⟨hs.ended, ?_⟩⟩
    · intro callback
      have hold := hs.count callback
      rw [owes, hstored, Option.mem_def.mp hr] at hold
      have hnone : owes (account (h ++ [.disconnected called])) callback = 0 := by
        rw [account_snoc]
        simp [owes, Account.add]
      rw [Option.toList_some, List.map_singleton, hnone]
      by_cases hsame : called = callback
      · subst hsame
        simp at hold ⊢
        omega
      · simp [hsame] at hold ⊢
        omega
    · intro callback connection hcb hr
      rw [Option.toList_some, List.map_singleton, account_snoc] at hr
      exact absurd hr (by simp [Account.add])
    · intro callback heq
      obtain rfl := Action.disconnected.inj heq
      exact (hs.given called connection hstored hr).mono hle

/-- `mqtt_client_disconnect` is called by a client that is not connected. -/
theorem Accounted.asked (hs : Accounted h) (hc : (account h).clientConnected = false) (callback : Option DisconnectedCallback) :
    Accounted (h ++ [.disconnect callback]) := by
  have hadd : account (h ++ [.disconnect callback]) =
      { account h with asked := callback, stored := callback, due := some (account h).connection } := by
    rw [account_snoc, Account.add, if_neg (by rw [hc]; exact Bool.false_ne_true)]
  refine ⟨?_, ?_, always_snoc.mpr ⟨hs.ended, ?_⟩⟩
  · intro called
    have hold := hs.count called
    rw [hadd, owes]
    by_cases hsame : callback = some called
    · simp [hsame]
      omega
    · simp [hsame]
      omega
  · intro called connection hcb hr
    rw [hadd] at hcb hr
    dsimp only at hcb hr
    subst hcb
    exact ⟨h, [], rfl, (Option.some.inj hr).ge⟩
  · intro called heq
    exact absurd heq (by simp)

/-- `mqtt_client_disconnect` is called by a client that is connected, and can build no packet. -/
theorem Accounted.notAsked (hs : Accounted h) (hc : (account h).clientConnected = true) (callback : Option DisconnectedCallback) :
    Accounted (h ++ [.disconnect callback]) := by
  have hadd : account (h ++ [.disconnect callback]) = { account h with requested := .other, asked := callback } := by
    rw [account_snoc, Account.add, if_pos hc]
  refine ⟨?_, ?_, always_snoc.mpr ⟨hs.ended, ?_⟩⟩
  · intro called
    have hold : h.count (.disconnected called) + owes (account (h ++ [.disconnect callback])) called ≤
        h.count (.disconnect (some called)) := by
      rw [hadd]
      exact hs.count called
    rw [List.count_append, List.count_append, List.count_singleton, if_neg (by simp)]
    omega
  · intro called connection hcb hr
    rw [hadd] at hcb hr
    exact (hs.given called connection hcb hr).append _
  · intro called heq
    exact absurd heq (by simp)

/-- `mqtt_client_disconnect` is called by a client that is connected, and hands over its packet. -/
theorem Accounted.sent (hs : Accounted h) (hc : (account h).clientConnected = true) (callback : Option DisconnectedCallback)
    {packet : Buffer} (hp : packet.packetType = some .disconnectType) (x : Option XioHandle) (result : MuResult) :
    Accounted (h ++ [.disconnect callback, .xioSend x packet result]) := by
  have hadd : account (h ++ [.disconnect callback, .xioSend x packet result]) =
      { account h with
        requested := .disconnect false, asked := callback, stored := callback, due := some (account h).connection } := by
    rw [account_append, List.foldl_cons, List.foldl_cons, List.foldl_nil, Account.add, if_pos hc, Account.add, Account.send, if_pos hp]
  refine ⟨?_, ?_, hs.ended.append ?_⟩
  · intro called
    have hold := hs.count called
    rw [hadd, owes]
    by_cases hsame : callback = some called
    · simp [hsame]
      omega
    · simp [hsame]
      omega
  · intro called connection hcb hr
    rw [hadd] at hcb hr
    dsimp only at hcb hr
    subst hcb
    exact ⟨h, [.xioSend x packet result], rfl, (Option.some.inj hr).ge⟩
  · intro pre a post heq called hcalled
    have hmem : a ∈ [.disconnect callback, .xioSend x packet result] := by simp [heq]
    rw [hcalled] at hmem
    exact absurd hmem (by simp)

theorem Account.DueFor.mono {x : Account} {k m : Nat} (hx : x.DueFor m) (hk : k ≤ m) : x.DueFor k :=
  hx.imp_right fun ⟨given, hgiven, hle⟩ => ⟨given, hgiven, hk.trans hle⟩

theorem closing_le (h : List Action) : ∀ k ∈ (account h).closing, k ≤ (account h).connection := by
  induction h using List.reverseRecOn with
  | nil => simp [account, Account.start]
  | append_singleton h a ih =>
    rw [account_snoc]
    cases a with
    | connect => exact fun k hk => (ih k hk).trans (Nat.le_succ _)
    | disconnect callback =>
      unfold Account.add
      dsimp only
      split <;> exact ih
    | xioClose xioHandle =>
      intro k hk
      rw [Account.add] at hk ⊢
      dsimp only at hk ⊢
      split at hk
      · rcases List.mem_append.mp hk with hk | hk
        · exact ih k hk
        · exact (List.mem_singleton.mp hk).le
      · exact ih k hk
    | event e =>
      cases e with
      | closeComplete => exact fun k hk => ih k (List.mem_of_mem_tail hk)
      | _ => exact ih
    | xioSend _ p _ =>
      unfold Account.add Account.send
      dsimp only
      repeat' split
      all_goals exact ih
    | sendReturns result => cases result <;> exact ih
    | setErrorCallback e => cases e <;> exact ih
    | operation actionResult => cases actionResult <;> exact ih
    | _ => exact ih

/-- No connection ends before it is begun. -/
theorem lastEnded_le (h : List Action) : lastEnded h ≤ (account h).connection := by
  unfold lastEnded
  split
  · rename_i hlast
    obtain ⟨pre, rfl⟩ := List.getLast?_eq_some_iff.mp hlast
    rw [List.dropLast_concat, account_snoc]
    unfold Account.closes
    rcases hhead : (account pre).closing.head? with _ | k
    · exact le_rfl
    · exact closing_le pre k (List.mem_of_mem_head? hhead)
  · exact le_rfl

/-! ## Every step is accounted for -/

section

variable {c c' : MqttClient} {l : List Action}

theorem aside_onErrorOf {e : MqttClientEventError} : ∀ a ∈ onErrorOf c e, a.Aside := by
  intro a ha
  rw [mem_onErrorOf ha]
  trivial

theorem aside_reportOf {e : MqttClientEventError} : ∀ a ∈ reportOf c e, a.Aside := by
  intro a ha
  rcases mem_reportOf ha with rfl | rfl <;> trivial

theorem accounted_local (hl : Local c h c' l) (hx : (account h).Agrees c) (hq : DueWhenEnded (h ++ l)) (hs : Accounted h) :
    Accounted (h ++ l) := by
  cases hl with
  | idle => exact hs.asides (by simp)
  | working | ioError | notSent => exact hs.aside trivial
  | sent | openNoPacket =>
    refine hs.asides ?_
    intro a ha
    simp only [List.mem_cons, List.not_mem_nil, or_false] at ha
    rcases ha with rfl | rfl <;> trivial
  | openRefused openResult =>
    refine hs.asides ?_
    intro a ha
    rcases List.mem_cons.mp ha with rfl | ha
    · trivial
    · split at ha
      · exact absurd ha (by simp)
      · exact aside_onErrorOf a ha
  | connectFailed => exact hs.asides aside_onErrorOf
  | closed =>
    have hdue := (hq h (.event .closeComplete) (disconnectedOf c) rfl).1 rfl
    have hclosed : Accounted (h ++ [.event .closeComplete]) := hs.aside trivial
    have hlast : lastEnded (h ++ [.event .closeComplete]) = (account h).closes := by
      rw [lastEnded, if_pos List.getLast?_concat, List.dropLast_concat]
    have hstored : (account (h ++ [.event .closeComplete])).stored = c.disconnectCb := by
      rw [hx.stored, account_snoc]
      rfl
    have hcalled := hclosed.called hstored (by
      rw [hlast, account_snoc]
      exact hdue)
    rwa [List.append_assoc] at hcalled
  | failed e _ hsocket =>
    have hdue := (hq h (.setErrorCallback e) (onErrorOf c e ++ disconnectedOf c) rfl).2 rfl (hx.socketConnected ▸ hsocket)
    have hreport : Accounted (h ++ reportOf c e) := hs.asides aside_reportOf
    have hsame : (account (h ++ reportOf c e)).stored = (account h).stored ∧ (account (h ++ reportOf c e)).due = (account h).due ∧
        (account (h ++ reportOf c e)).connection = (account h).connection := by
      rw [account_append]
      unfold reportOf onErrorOf
      cases e <;> split <;> exact ⟨rfl, rfl, rfl⟩
    have hstored : (account (h ++ reportOf c e)).stored = c.disconnectCb := by rw [hx.stored, hsame.1]
    have hcalled := hreport.called hstored (by
      refine Account.DueFor.mono ?_ (lastEnded_le _)
      unfold Account.DueFor
      rw [hsame.1, hsame.2.1, hsame.2.2]
      exact hdue)
    rwa [List.append_assoc] at hcalled

theorem accounted_callLocal (hl : CallLocal c c' l) (hx : (account h).Agrees c) (hs : Accounted h) : Accounted (h ++ l) := by
  cases hl with
  | options => exact hs.asides (by simp)
  | disconnectNoPacket callback hc => exact hs.notAsked (hx.clientConnected ▸ hc) callback
  | disconnectClosed callback hc =>
    rw [hx.clientConnected] at hc
    have hadd : account (h ++ [.disconnect callback]) =
        { account h with asked := callback, stored := callback, due := some (account h).connection } := by
      rw [account_snoc, Account.add, if_neg (by rw [hc]; exact Bool.false_ne_true)]
    have hstored : (account (h ++ [.disconnect callback])).stored = callback := by rw [hadd]
    have hcalled := (hs.asked hc callback).called hstored (by
      refine Account.DueFor.mono (m := (account h).connection) ?_ ?_
      · rw [hadd]
        exact Or.inr ⟨_, rfl, le_rfl⟩
      · refine (lastEnded_le _).trans_eq ?_
        rw [hadd])
    rwa [List.append_assoc] at hcalled
  | _ => exact hs.aside trivial

theorem aside_finishes {result returned : MuResult} (hf : Finishes c result c' l returned) : ∀ a ∈ l, a.Aside := by
  intro a ha
  rcases mem_finishes hf ha with ⟨_, rfl⟩ | ⟨_, rfl⟩ <;> trivial

/-- A packet of another type than DISCONNECT. -/
theorem aside_xioSend {packet : Buffer} {t : ControlPacketType} (hp : packet.packetType = some t) (ht : t ≠ .disconnectType)
    (x : Option XioHandle) (result : MuResult) : (Action.xioSend x packet result).Aside :=
  fun heq => ht (Option.some.inj (hp.symm.trans heq))

theorem accounted_advance (ha : Advance c h c' l) (hx : (account h).Agrees c) (hq : DueWhenEnded (h ++ l)) (hs : Accounted h) :
    Accounted (h ++ l) := by
  cases ha with
  | callback hl => exact accounted_local hl hx hq hs
  | call hl => exact accounted_callLocal hl hx hs
  | sends own result hsends =>
    cases hsends with
    | request packet t ht hp => exact hs.aside (aside_xioSend hp (by rintro rfl; exact absurd ht (by decide)) _ _)
    | disconnect callback packet hc hp => exact hs.sent (hx.clientConnected ▸ hc) callback hp _ result
  | disconnects callback hc =>
    have hasked := (hs.asked (hx.clientConnected ▸ hc) callback).aside (a := .xioClose c.xioHandle) trivial
    rwa [List.append_assoc] at hasked
  | fails e =>
    refine hs.asides fun a ha => (List.mem_append.mp ha).elim (aside_reportOf a) ?_
    intro ha
    exact List.mem_singleton.mp ha ▸ trivial
  | opens packet result _ hbuilt =>
    have htype := (packetType_mqttCodecConnect c.mqttOptions).of_produces hbuilt
    refine hs.asides ?_
    intro a ha
    simp only [List.mem_cons, List.not_mem_nil, or_false] at ha
    rcases ha with rfl | rfl | rfl
    · trivial
    · trivial
    · exact aside_xioSend htype (by decide) _ _
  | finishes result returned hf => exact hs.asides (aside_finishes hf)
  | pingFails result _ hf => exact hs.asides (aside_finishes hf)
  | reply packet t result hp ht =>
    exact hs.aside (aside_xioSend hp (fun heq => ht.not_requested (heq ▸ List.mem_cons_self)) _ _)
  | ping packet result _ hp => exact hs.aside (aside_xioSend hp (by decide) _ _)
  | delivers packet flags headerData _ htold =>
    refine hs.aside ?_
    cases htold <;> trivial
  | detach | pendingDone | pingSent | noPingDone => exact hs.asides (by simp)
  | packet | suback | openFails | closePending | clock => exact hs.aside trivial

end

/-! ## Runs -/

/-- The account agrees with the client, and the calls are accounted for if the callback is due whenever a connection ends. -/
structure CallbackInv (s : Session) : Prop where
  agrees : (account s.history).Agrees s.client
  accounted : DueWhenEnded s.history → Accounted s.history

theorem callbackInv_step (s t : Session) (hstep : AdvanceStep s t) (hs : CallbackInv s) : CallbackInv t := by
  obtain ⟨l, ha, hh⟩ := hstep
  refine ⟨hh ▸ agrees_advance ha hs.agrees, ?_⟩
  intro hq
  rw [hh] at hq ⊢
  exact accounted_advance ha hs.agrees hq (hs.accounted (always_append_iff.mp hq).1)

theorem callbackInv_begin (w : World) (call : Call) (hw : CallbackInv w.callContext) :
    CallbackInv (beginCall w.callContext call) := by
  refine ⟨agrees_begin call hw.agrees, ?_⟩
  rcases beginCall_cases w.callContext call with ⟨xioHandle, mqttOptions, rfl⟩ | hsame
  · exact fun hq => (hw.accounted (always_append_iff.mp hq).1).aside (a := .connect xioHandle mqttOptions) trivial
  · rw [hsame]
    exact hw.accounted

theorem callbackInv_ends (w : World) (call : Call) (hdue : DueWhenPending w call) (hends : EndsPending w call)
    (hw : CallbackInv w.callContext) : CallbackInv w.callContext.endPending := by
  have hhist : w.callContext.endPending.history = w.callContext.history ++ disconnectedOf w.callContext.client :=
    history_callDisconnectCb w.callContext
  refine ⟨agrees_endPending hw.agrees, ?_⟩
  intro hq
  rw [hhist] at hq ⊢
  have hbefore := hw.accounted (always_append_iff.mp hq).1
  exact hbefore.called hw.agrees.stored.symm ((hdue hends).mono (lastEnded_le _))

/-- In every run in which the stored callback is due whenever it is called, each of its calls answers a request. -/
theorem called_on_request (depth : Nat) (fnOnErrorCallBack : Bool) (env : Env) (heap : Heap) (calls : List Call)
    (hpending : RunMeets DueWhenPending depth (mqttClientInit fnOnErrorCallBack env heap) calls)
    (hended : DueWhenEnded (run depth (mqttClientInit fnOnErrorCallBack env heap) calls).callContext.history) :
    CalledOnRequest (run depth (mqttClientInit fnOnErrorCallBack env heap) calls).callContext.history := by
  have hstart : CallbackInv (mqttClientInit fnOnErrorCallBack env heap).callContext :=
    ⟨agrees_init fnOnErrorCallBack env heap, fun _ => accounted_nil⟩
  have hinv := (run_advances callbackInv_step (fun w call _ => callbackInv_begin w call) callbackInv_ends hpending hstart).accounted hended
  exact ⟨fun callback => (Nat.le_add_right _ _).trans (hinv.count callback), hinv.ended⟩

/-- A connection that `mqtt_client_disconnect` ends with a callback: its xio is told to close, and closes. -/
def endedWithCallback : List Call :=
  openedWith 1 0 ++ [.disconnect (some 7), .xio (.io (.sendComplete .ioSendOk)), .dowork [], .xio (.io .closeComplete)]

/-- The callback is called once, and a connection that is begun afterwards is open. -/
theorem called_on_request_once :
    CalledOnRequest (run 1 (mqttClientInit true calmEnv okHeap) (endedWithCallback ++ openedWith 2 0)).callContext.history :=
  called_on_request 1 true calmEnv okHeap _ (by decide +kernel) (by decide +kernel)

/-- The next connection fails, and is closed. -/
theorem not_calledOnRequest_second_connection :
    ¬CalledOnRequest (run 1 (mqttClientInit true calmEnv okHeap)
      (endedWithCallback ++ openedWith 2 0 ++ [.xio (.io .ioError), .xio (.io .closeComplete)])).callContext.history := by
  intro h
  have hcount : ¬(run 1 (mqttClientInit true calmEnv okHeap) (endedWithCallback ++ openedWith 2 0 ++
      [.xio (.io .ioError), .xio (.io .closeComplete)])).callContext.history.count (.disconnected 7) ≤
        (run 1 (mqttClientInit true calmEnv okHeap) (endedWithCallback ++ openedWith 2 0 ++
          [.xio (.io .ioError), .xio (.io .closeComplete)])).callContext.history.count (.disconnect (some 7)) := by
    decide +kernel
  exact hcount (h.count 7)

end Umqtt
