import Umqtt.Client.Api
import Umqtt.Lemmas.Encoders

/-!
# What the client says when nothing fails

The part of the history that the application and the broker see: messages, events, packets and errors (`exchanges`). In surroundings
in which all memory is there, all sends are accepted, and an xio that calls back reports a send that has completed (`Calm`), each
function adds exactly what it says (`Moves`). A clock that fails makes `sendPacketItem` fail after it has handed the packet over: the
errors that follow are all that it adds (`Emits`).
-/

namespace Umqtt

open Alloc

/-! ## Exchanges -/

/-- What the application and the broker see of a client. -/
inductive Exchange where
  | message (m : MqttMessage) (ack : MqttClientAckOption)
  | event (actionResult : MqttClientEventResult)
  | sent (p : Buffer)
  | error (errorType : MqttClientEventError)
  deriving DecidableEq

/-- An error is reported. -/
def Exchange.isError : Exchange → Bool
  | .error _ => true
  | _ => false

/-- The exchange that an entry stands for. The event of a DISCONNECT that has been sent is left out. -/
def Action.asExchange : Action → Option Exchange
  | .messageRecv m ack => some (.message m ack)
  | .operation .onDisconnect => none
  | .operation actionResult => some (.event actionResult)
  | .xioSend _ p _ => some (.sent p)
  | .setErrorCallback errorType | .onError errorType => some (.error errorType)
  | _ => none

/-- The exchanges of a history, in order. -/
def exchanges (history : List Action) : List Exchange := history.filterMap Action.asExchange

/-! ## Calm surroundings -/

/-- All memory is there, every send is accepted, and what is called back before a call returns is that a send has completed. -/
structure Calm (env : Env) : Prop where
  heap : env.heap = okHeap
  send : ∀ n, env.send n = .zero
  sync : ∀ n, ∀ e ∈ env.sync n, e = .sendComplete .ioSendOk

/-- The tick counter does not fail. -/
def ClockRuns (env : Env) : Prop := ∀ n, env.clock n ≠ none

theorem calm_calmEnv : Calm calmEnv := ⟨rfl, fun _ => rfl, fun _ _ he => absurd he List.not_mem_nil⟩

theorem clockRuns_calmEnv : ClockRuns calmEnv := fun _ => Option.some_ne_none 0

/-- A computation that gives its result takes nothing from surroundings in which all memory is there. -/
theorem alloc_okHeap {α : Type} {s : Session} (h : s.env.heap = okHeap) {m : Alloc α} {a : α} (hm : m.Gives a) :
    s.alloc m = (some a, s) := by
  rw [Session.alloc, h, hm]
  simp only [← h]

theorem alloc_calm {α : Type} {s : Session} (h : Calm s.env) {m : Alloc α} {a : α} (hm : m.Gives a) : s.alloc m = (some a, s) :=
  alloc_okHeap h.heap hm

/-- The session moves on in calm surroundings: `asks` answers of the application are used up, and `out` are the new exchanges. -/
structure Moves (s t : Session) (asks : Nat) (out : List Exchange) : Prop where
  calm : Calm t.env
  clock : ClockRuns s.env → ClockRuns t.env
  ack : t.env.ack = s.env.ack.drop asks
  trace : exchanges t.history = exchanges s.history ++ out

theorem Moves.refl {s : Session} (h : Calm s.env) : Moves s s 0 [] := ⟨h, id, rfl, by simp⟩

theorem Moves.trans {s t u : Session} {m n : Nat} {out out' : List Exchange} (h : Moves s t m out) (h' : Moves t u n out') :
    Moves s u (m + n) (out ++ out') where
  calm := h'.calm
  clock := fun hs => h'.clock (h.clock hs)
  ack := by rw [h'.ack, h.ack, Stream'.drop_drop, Nat.add_comm]
  trace := by rw [h'.trace, h.trace, List.append_assoc]

/-- A move that adds nothing, before another one. -/
theorem Moves.after {s t u : Session} {m : Nat} {out : List Exchange} (h : Moves s t 0 []) (h' : Moves t u m out) :
    Moves s u m out := by
  have := h.trans h'
  rwa [Nat.zero_add, List.nil_append] at this

/-- A move that adds nothing, after another one. -/
theorem Moves.before {s t u : Session} {m : Nat} {out : List Exchange} (h : Moves s t m out) (h' : Moves t u 0 []) :
    Moves s u m out := by
  have := h.trans h'
  rwa [Nat.add_zero, List.append_nil] at this

/-- A change of the client alone. -/
theorem moves_client {s : Session} (h : Calm s.env) (c : MqttClient) : Moves s { s with client := c } 0 [] :=
  ⟨h, id, rfl, by simp⟩

/-- An entry that is no exchange. -/
theorem moves_log {s : Session} (h : Calm s.env) {a : Action} (ha : a.asExchange = none) : Moves s (s.log a) 0 [] :=
  ⟨h, id, rfl, by simp [Session.log, exchanges, ha]⟩

/-- An entry that is an exchange. -/
theorem moves_exchange {s : Session} (h : Calm s.env) {a : Action} {x : Exchange} (ha : a.asExchange = some x) :
    Moves s (s.log a) 0 [x] :=
  ⟨h, id, rfl, by simp [Session.log, exchanges, ha]⟩

/-- The session moves on and adds the given exchanges, followed or interspersed by errors only if the clock fails. -/
def Emits (s t : Session) (asks : Nat) (out : List Exchange) : Prop :=
  ∃ real, Moves s t asks real ∧ real.filter (fun x => !x.isError) = out ∧ (ClockRuns s.env → real = out)

theorem Emits.calm {s t : Session} {asks : Nat} {out : List Exchange} (h : Emits s t asks out) : Calm t.env := by
  obtain ⟨real, hmove, -⟩ := h
  exact hmove.calm

theorem Moves.emits {s t : Session} {asks : Nat} {out : List Exchange} (h : Moves s t asks out) (hout : ∀ x ∈ out, x.isError = false) :
    Emits s t asks out :=
  ⟨out, h, List.filter_eq_self.mpr fun x hx => by simp [hout x hx], fun _ => rfl⟩

theorem Emits.trans {s t u : Session} {m n : Nat} {out out' : List Exchange} (h : Emits s t m out) (h' : Emits t u n out') :
    Emits s u (m + n) (out ++ out') := by
  obtain ⟨real, hmove, hfilter, hclock⟩ := h
  obtain ⟨real', hmove', hfilter', hclock'⟩ := h'
  refine ⟨real ++ real', hmove.trans hmove', by rw [List.filter_append, hfilter, hfilter'], ?_⟩
  intro hs
  rw [hclock hs, hclock' (hmove.clock hs)]

/-- The session moves on and adds nothing but errors. -/
def Fails (s t : Session) : Prop := ∃ real, Moves s t 0 real ∧ ∀ x ∈ real, x.isError = true

theorem Moves.fails {s t : Session} (h : Moves s t 0 []) : Fails s t := ⟨[], h, by simp⟩

theorem Fails.trans {s t u : Session} (h : Fails s t) (h' : Fails t u) : Fails s u := by
  obtain ⟨real, hmove, herr⟩ := h
  obtain ⟨real', hmove', herr'⟩ := h'
  exact ⟨real ++ real', hmove.trans hmove', fun x hx => (List.mem_append.mp hx).elim (herr x) (herr' x)⟩

/-! ## The functions -/

/-- What the xio calls back moves on without an exchange. -/
def Mild (dispatch : List IoEvent → Session → Session) : Prop :=
  ∀ events s, Calm s.env → (∀ e ∈ events, e = .sendComplete .ioSendOk) → Moves s (dispatch events s) 0 []

theorem moves_sendComplete (dispatch : List IoEvent → Session → Session) {s : Session} (h : Calm s.env) :
    Moves s (sendComplete dispatch s .ioSendOk) 0 [] := by
  have hlog : Moves s (s.log (.event (.sendComplete .ioSendOk))) 0 [] := moves_log h rfl
  simp only [sendComplete]
  split
  · have hdone := hlog.after (moves_log (a := .operation .onDisconnect) hlog.calm rfl)
    exact hdone.after (moves_client hdone.calm _)
  · exact hlog

/-- The callbacks are mild, however deep they are nested. -/
theorem mild_deliver (depth : Nat) : Mild (deliver depth) := by
  cases depth with
  | zero => exact fun _ _ h _ => Moves.refl h
  | succ depth =>
    intro events
    induction events with
    | nil => exact fun _ h _ => Moves.refl h
    | cons e events ih =>
      intro s h he
      have hfirst : Moves s (handleEvent (deliver depth) s e) 0 [] := by
        rw [he e List.mem_cons_self]
        exact moves_sendComplete (deliver depth) h
      exact hfirst.after (ih _ hfirst.calm fun x hx => he x (List.mem_cons_of_mem _ hx))

section

variable {dispatch : List IoEvent → Session → Session} (hd : Mild dispatch) {s : Session}

include hd

theorem moves_callBack (h : Calm s.env) : Moves s (callBack dispatch s) 0 [] := by
  have henv : Moves s { s with env := { s.env with sync := s.env.sync.tail } } 0 [] :=
    ⟨⟨h.heap, h.send, fun n => h.sync (n + 1)⟩, id, rfl, by simp⟩
  exact henv.after (hd _ _ henv.calm (h.sync 0))

theorem moves_xioSend (h : Calm s.env) (packet : Buffer) : Moves s (xioSend dispatch s packet).1 0 [.sent packet] := by
  have hsend : Moves s ({ s with env := { s.env with send := s.env.send.tail } }.log
      (.xioSend s.client.xioHandle packet s.env.send.head)) 0 [.sent packet] :=
    ⟨⟨h.heap, fun n => h.send (n + 1), h.sync⟩, id, rfl, by simp [Session.log, exchanges, Action.asExchange]⟩
  exact hsend.before (moves_callBack hd hsend.calm)

omit hd in
theorem moves_askClock (h : Calm s.env) : Moves s s.askClock.2 0 [] :=
  ⟨⟨h.heap, h.send, h.sync⟩, fun hc n => hc (n + 1), rfl, by simp [Session.askClock, Session.log, exchanges, Action.asExchange]⟩

/-- `sendPacketItem` hands the packet over, and returns 0 if the clock runs. -/
theorem moves_sendPacketItem (h : Calm s.env) (packet : Buffer) :
    Moves s (sendPacketItem dispatch s packet).1 0 [.sent packet] ∧
      (ClockRuns s.env → (sendPacketItem dispatch s packet).2 = .zero) := by
  have hsend := moves_xioSend hd h packet
  have hzero : (xioSend dispatch s packet).2 = .zero := h.send 0
  have hclock := moves_askClock hsend.calm
  simp only [sendPacketItem, hzero, ne_eq, not_true_eq_false, if_false]
  rcases hc : (xioSend dispatch s packet).1.askClock with ⟨_ | currentMs, t⟩
  · rw [hc] at hclock
    refine ⟨(hsend.before hclock).before (moves_log hclock.calm rfl), ?_⟩
    intro hruns
    exact absurd (congrArg Prod.fst hc) (hsend.clock hruns 0)
  · rw [hc] at hclock
    refine ⟨?_, fun _ => rfl⟩
    have hstamp := moves_client hclock.calm { t.client with packetSendTimeMs := currentMs }
    exact ((hsend.before hclock).before hstamp).before (moves_log hstamp.calm rfl)

theorem moves_closeLoop (rounds : Nat) (h : Calm s.env) : Moves s (closeLoop dispatch rounds s) 0 [] := by
  induction rounds generalizing s with
  | zero => exact Moves.refl h
  | succ rounds ih =>
    have hlog : Moves s (s.log (.xioDowork s.client.xioHandle)) 0 [] := moves_log h rfl
    have hwork : Moves s (xioDowork dispatch s) 0 [] := hlog.after (moves_callBack hd hlog.calm)
    simp only [closeLoop]
    split
    · exact hwork.after (ih hwork.calm)
    · exact hwork

theorem moves_closeConnection (h : Calm s.env) : Moves s (closeConnection dispatch s) 0 [] := by
  simp only [closeConnection]
  split
  · have hlog : Moves s (s.log (.xioClose s.client.xioHandle)) 0 [] := moves_log h rfl
    have hclose : Moves s (xioClose dispatch s) 0 [] := hlog.after (moves_callBack hd hlog.calm)
    split
    · have hloop := hclose.after (moves_closeLoop hd maxCloseRetries hclose.calm)
      exact hloop.after (moves_client hloop.calm _)
    · exact hclose.after (moves_client hclose.calm _)
  · rw [callDisconnectCb]
    split
    · exact Moves.refl h
    · exact moves_log h rfl

theorem fails_setErrorCallback (h : Calm s.env) (e : MqttClientEventError) : Fails s (setErrorCallback dispatch s e) := by
  have hlog : Fails s (s.log (.setErrorCallback e)) :=
    ⟨[.error e], moves_exchange h rfl, fun x hx => List.mem_singleton.mp hx ▸ rfl⟩
  have hreport : ∀ t : Session, Calm t.env → Fails t (callOnError t e) ∧ Calm (callOnError t e).env := by
    intro t ht
    rw [callOnError]
    split
    · exact ⟨⟨[.error e], moves_exchange ht rfl, fun x hx => List.mem_singleton.mp hx ▸ rfl⟩, ht⟩
    · exact ⟨(Moves.refl ht).fails, ht⟩
  obtain ⟨hcall, hcalm⟩ := hreport (s.log (.setErrorCallback e)) h
  exact (hlog.trans hcall).trans (moves_closeConnection hd hcalm).fails

/-- A reply that is built is sent. -/
theorem emits_sendReply (h : Calm s.env) {reply : Alloc Buffer} {packet : Buffer} (hr : reply.Gives packet) :
    Emits s (sendReply dispatch s reply) 0 [.sent packet] := by
  obtain ⟨hsend, hzero⟩ := moves_sendPacketItem hd h packet
  simp only [sendReply, alloc_calm h hr]
  by_cases hresult : (sendPacketItem dispatch s packet).2 = .zero
  · rw [if_neg (not_not_intro hresult)]
    exact hsend.emits (by simp [Exchange.isError])
  · rw [if_pos hresult]
    obtain ⟨real, hmove, herr⟩ := fails_setErrorCallback hd hsend.calm .communicationError
    refine ⟨[.sent packet] ++ real, hsend.trans hmove, ?_, fun hruns => absurd (hzero hruns) hresult⟩
    have hnone : real.filter (fun x => !x.isError) = [] := List.filter_eq_nil_iff.mpr fun x hx => by simp [herr x hx]
    rw [List.filter_append, hnone]
    rfl

end

end Umqtt
