import Umqtt.Lemmas.CallSteps

/-!
# What a run delivers is a replay of its chunks

The packets that `recvCompleteCallback` is called with depend on nothing but the chunks that `onBytesReceived` is called with: they
are what a recording codec gives that starts where the client's codec does, reads the same chunks and is reset after each that
fails (`replay`). All other calls and callbacks leave the codec alone (`replays_runCall`).
-/

namespace Umqtt

open Past

/-! ## Entries of bytes -/

/-- The delivery of a packet. -/
def Action.asDelivery : Action → Option Delivery
  | .packet p flags headerData => some ⟨p, flags, headerData⟩
  | _ => none

/-- The chunk of a call of `onBytesReceived`. -/
def Action.asChunk : Action → Option (Option (List UInt8))
  | .bytesReceived buffer => some buffer
  | _ => none

/-- The packets that were delivered, in order. -/
def deliveries (history : List Action) : List Delivery := history.filterMap Action.asDelivery

/-- The chunks that were received, in order. -/
def chunks (history : List Action) : List (Option (List UInt8)) := history.filterMap Action.asChunk

@[simp] theorem deliveries_append (h h' : List Action) : deliveries (h ++ h') = deliveries h ++ deliveries h' :=
  List.filterMap_append

@[simp] theorem chunks_append (h h' : List Action) : chunks (h ++ h') = chunks h ++ chunks h' := List.filterMap_append

theorem asDelivery_eq_none {a : Action} (h : ¬a.Arrival) : a.asDelivery = none := by
  cases a with
  | packet => exact absurd trivial h
  | _ => rfl

theorem asChunk_eq_none {a : Action} (h : ¬a.Arrival) : a.asChunk = none := by
  cases a with
  | bytesReceived => exact absurd trivial h
  | _ => rfl

/-- The session adds entries to its history, and none of them is of bytes. -/
def Silent (s t : Session) : Prop :=
  ∃ added, t.history = s.history ++ added ∧ deliveries added = [] ∧ chunks added = []

theorem silent_of_not_arrival {s t : Session} {added : List Action} (hh : t.history = s.history ++ added)
    (h : ∀ a ∈ added, ¬a.Arrival) : Silent s t :=
  ⟨added, hh, List.filterMap_eq_nil_iff.mpr fun a ha => asDelivery_eq_none (h a ha),
    List.filterMap_eq_nil_iff.mpr fun a ha => asChunk_eq_none (h a ha)⟩

theorem Silent.trans {s t u : Session} (hst : Silent s t) (htu : Silent t u) : Silent s u := by
  obtain ⟨added, h1, h2, h3⟩ := hst
  obtain ⟨more, h4, h5, h6⟩ := htu
  exact ⟨added ++ more, by rw [h4, h1, List.append_assoc], by simp [h2, h5], by simp [h3, h6]⟩

theorem Outer.not_arrival {c c' : MqttClient} {h added : List Action} (ho : Outer c h c' added) : ∀ a ∈ added, ¬a.Arrival := by
  cases ho <;> simp [Action.Arrival]

/-- Steps of the client are silent. -/
theorem silent_steps {s t : Session} (hst : Steps SessionStep s t) : Silent s t := by
  refine hst.preserves (P := Silent s) ?_ ⟨[], by simp, rfl, rfl⟩
  rintro u v (⟨added, hi | ho, hh⟩ | ⟨mqttOptions, -, hh⟩) hu
  · exact hu.trans (silent_of_not_arrival hh fun a ha => (hi.ofCallback a ha).not_arrival)
  · exact hu.trans (silent_of_not_arrival hh ho.not_arrival)
  · exact hu.trans ⟨[], by simp [hh], rfl, rfl⟩

theorem silent_beginCall (s : Session) (call : Call) : Silent s (beginCall s call) := by
  have hrefl : Silent s s := ⟨[], by simp, rfl, rfl⟩
  cases call with
  | connect xioHandle mqttOptions =>
    rcases xioHandle with _ | xioHandle
    · exact hrefl
    · rcases mqttOptions with _ | mqttOptions
      · exact hrefl
      · exact ⟨[.connect xioHandle mqttOptions], rfl, rfl, rfl⟩
  | _ => exact hrefl

/-! ## Replaying chunks -/

/-- What `onBytesReceived` does with the codec, recording the packets. -/
def replayChunk (c : Codec (List Delivery)) (buffer : Option (List UInt8)) : Codec (List Delivery) :=
  let (c, result) := mqttCodecBytesReceived record c buffer
  if result ≠ .zero then { c with inst := mqttCodecReset c.inst } else c

/-- The recording codec after a sequence of chunks. -/
def replay (c : Codec (List Delivery)) (buffers : List (Option (List UInt8))) : Codec (List Delivery) :=
  buffers.foldl replayChunk c

/-- Without a failure nothing is reset. -/
theorem replay_eq_receiveChunks {c : Codec (List Delivery)} {bufs : List (List UInt8)}
    (h : (receiveChunks record c bufs).2 = List.replicate bufs.length .zero) :
    replay c (bufs.map some) = (receiveChunks record c bufs).1 := by
  induction bufs generalizing c with
  | nil => rfl
  | cons buf bufs ih =>
    obtain ⟨hzero, hrest⟩ := List.cons.inj h
    have hfirst : replayChunk c (some buf) = (mqttCodecBytesReceived record c (some buf)).1 := by
      simp only [replayChunk]
      rw [if_neg (not_not_intro hzero)]
    rw [List.map_cons, replay, List.foldl_cons, hfirst]
    exact ih hrest

/-- After the history `before`, the session has received these chunks, and these packets were delivered. -/
def Received (before : List Action) (buffers : List (Option (List UInt8))) (s : Session) (log : List Delivery) : Prop :=
  ∃ added, s.history = before ++ added ∧ deliveries added = log ∧ chunks added = buffers

/-- After the history `before`, the world is where the replay of the chunks it has received since is. -/
def Replays (before : List Action) (c : Codec (List Delivery)) (buffers : List (Option (List UInt8))) (w : World) : Prop :=
  Related (Received before buffers) w (replay c buffers)

theorem Received.silent {before : List Action} {buffers : List (Option (List UInt8))} {s t : Session} {log : List Delivery}
    (h : Received before buffers s log) (hst : Silent s t) : Received before buffers t log := by
  obtain ⟨added, h1, h2, h3⟩ := h
  obtain ⟨more, h4, h5, h6⟩ := hst
  exact ⟨added ++ more, by rw [h4, h1, List.append_assoc], by simp [h2, h5], by simp [h3, h6]⟩

theorem Replays.silent {before : List Action} {c : Codec (List Delivery)} {buffers : List (Option (List UInt8))} {w : World}
    (h : Replays before c buffers w) {s : Session} (hs : Silent w.callContext s) :
    Replays before c buffers { w with callContext := s } :=
  ⟨h.inst, h.heap, h.context.silent hs⟩

section

variable {dispatch : List IoEvent → Session → Session} (hd : MakesSteps dispatch)

include hd

/-- The client's callback records what `record` does. -/
theorem received_callbacks (before : List Action) (buffers : List (Option (List UInt8))) :
    RelatedCallbacks (Received before buffers) (recvCompleteCallback dispatch) record := by
  rintro packet flags headerData s log ⟨added, h1, h2, h3⟩
  have hlog : Received before buffers (s.log (.packet packet flags headerData)) (record packet flags headerData log) :=
    ⟨added ++ [.packet packet flags headerData], by simp [Session.log, h1], by rw [deliveries_append, h2]; rfl,
      by rw [chunks_append, h3]; exact List.append_nil _⟩
  exact hlog.silent (silent_steps (session_steps_of_inner (steps_recvCompleteCallback hd packet flags headerData s)))

/-- One more chunk is received. -/
theorem replays_onBytesReceived {before : List Action} {c : Codec (List Delivery)} {buffers : List (Option (List UInt8))} {w : World}
    (h : Replays before c buffers w) (buffer : Option (List UInt8)) :
    Replays before c (buffers ++ [buffer]) (onBytesReceived dispatch w buffer) := by
  have hlog : Related (Received before (buffers ++ [buffer]))
      ({ w with callContext := w.callContext.log (.bytesReceived buffer) } : World) (replay c buffers) := by
    obtain ⟨added, h1, h2, h3⟩ := h.context
    exact ⟨h.inst, h.heap, added ++ [.bytesReceived buffer], by simp [Session.log, h1],
      by rw [deliveries_append, h2]; exact List.append_nil _, by rw [chunks_append, h3]; rfl⟩
  obtain ⟨hresult, hrel⟩ := bytesReceived_related (received_callbacks hd before (buffers ++ [buffer])) hlog buffer
  rw [Replays, show replay c (buffers ++ [buffer]) = replayChunk (replay c buffers) buffer by simp [replay]]
  simp only [onBytesReceived, replayChunk, hresult]
  split
  · exact ⟨SameParse.refl _, hrel.heap,
      hrel.context.silent (silent_steps (session_steps_of_inner (steps_setErrorCallback hd _ _)))⟩
  · exact hrel

/-- What an xio does, between two calls or at work. -/
theorem replays_handleWorks {before : List Action} {c : Codec (List Delivery)} {buffers : List (Option (List UInt8))} {w : World}
    (h : Replays before c buffers w) (events : List WorkEvent) :
    ∃ more, Replays before c (buffers ++ more) (events.foldl (handleWork dispatch) w) := by
  induction events generalizing w buffers with
  | nil => exact ⟨[], by rwa [List.append_nil]⟩
  | cons event events ih =>
    cases event with
    | io e => exact ih (h.silent (silent_steps (session_steps_of_inner (steps_handleEvent hd w.callContext e))))
    | bytes buffer =>
      obtain ⟨more, hmore⟩ := ih (replays_onBytesReceived hd h buffer)
      rw [List.append_assoc] at hmore
      exact ⟨[buffer] ++ more, hmore⟩

end

/-- Every call goes on with the replay. -/
theorem replays_runCall {before : List Action} {c : Codec (List Delivery)} {buffers : List (Option (List UInt8))} {depth : Nat}
    {w : World} (h : Replays before c buffers w) (call : Call) : ∃ more, Replays before c (buffers ++ more) (runCall depth w call) := by
  have hd := steps_deliver depth
  have hsession : ∀ s, Silent w.callContext s → ∃ more, Replays before c (buffers ++ more) { w with callContext := s } :=
    fun s hs => ⟨[], by rw [List.append_nil]; exact h.silent hs⟩
  cases call with
  | dowork events =>
    simp only [runCall, mqttClientDowork]
    split
    · exact ⟨[], by rwa [List.append_nil]⟩
    · split
      · rename_i hpend
        have hclose := (inner_steps (steps_closeConnection hd w.callContext (Or.inl hpend))).trans (steps_outer _ _ .pendingDone)
        exact hsession _ (silent_steps (session_steps hclose))
      · obtain ⟨more, hmore⟩ := replays_handleWorks hd
          (h.silent (silent_steps (session_steps_of_inner (steps_log _ (.xioDowork w.callContext.client.xioHandle) trivial)))) events
        exact ⟨more, hmore.silent (silent_steps (session_steps (steps_keepAlive hd _)))⟩
  | xio event => exact replays_handleWorks hd h [event]
  | _ => exact hsession _ ((silent_beginCall _ _).trans (silent_steps (steps_sessionCall depth _ _)))

theorem replays_run {before : List Action} {c : Codec (List Delivery)} {buffers : List (Option (List UInt8))} {depth : Nat}
    {w : World} (h : Replays before c buffers w) (calls : List Call) :
    ∃ more, Replays before c (buffers ++ more) (run depth w calls) := by
  induction calls generalizing w buffers with
  | nil => exact ⟨[], by rwa [List.append_nil]⟩
  | cons call calls ih =>
    obtain ⟨more, hmore⟩ := replays_runCall h call
    obtain ⟨rest, hrest⟩ := ih hmore
    exact ⟨more ++ rest, by rw [← List.append_assoc]; exact hrest⟩

/-! ## The codec of a run -/

/-- Received bytes keep the codec's invariant. -/
theorem inv_onBytesReceived {dispatch : List IoEvent → Session → Session} {w : World} (h : w.inst.Inv)
    (buffer : Option (List UInt8)) : (onBytesReceived dispatch w buffer).inst.Inv := by
  have hcall : (mqttCodecBytesReceived (recvCompleteCallback dispatch)
      ({ w with callContext := w.callContext.log (.bytesReceived buffer) } : World) buffer).1.inst.Inv :=
    (call_inv (P := fun _ => True) (fun _ _ _ _ => trivial) (c := { w with callContext := w.callContext.log (.bytesReceived buffer) })
      h trivial (.bytesReceived buffer)).1
  simp only [onBytesReceived]
  split
  · exact inv_clearCodecData
  · exact hcall

theorem inv_handleWorks {dispatch : List IoEvent → Session → Session} {w : World} (h : w.inst.Inv) (events : List WorkEvent) :
    (events.foldl (handleWork dispatch) w).inst.Inv := by
  induction events generalizing w with
  | nil => exact h
  | cons event events ih =>
    cases event with
    | io e => exact ih h
    | bytes buffer => exact ih (inv_onBytesReceived h buffer)

/-- The codec keeps its invariant in every run. -/
theorem inv_runCall {depth : Nat} {w : World} (h : w.inst.Inv) (call : Call) : (runCall depth w call).inst.Inv := by
  cases call with
  | dowork events =>
    simp only [runCall, mqttClientDowork]
    split
    · exact h
    · split
      · exact h
      · exact inv_handleWorks (w := { w with callContext := w.callContext.log (.xioDowork w.callContext.client.xioHandle) }) h events
  | xio event => exact inv_handleWorks h [event]
  | _ => exact h

theorem inv_run {depth : Nat} {w : World} (h : w.inst.Inv) (calls : List Call) : (run depth w calls).inst.Inv := by
  induction calls generalizing w with
  | nil => exact h
  | cons call calls ih => exact ih (inv_runCall h call)

end Umqtt
