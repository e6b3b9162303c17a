import Umqtt.Lemmas.Heard
import Umqtt.Lemmas.Replay

/-!
# What is answered to a stream

In calm surroundings a client that starts between two packets shows, for every packet that is delivered, the callback and the reply
of that packet, in order, and errors beside them only if a call of `mqtt_codec_bytesReceived` or the clock fails (`shows_receive`).
-/

namespace Umqtt

open Alloc

/-! ## Callbacks in order -/

/-- The callbacks that packets make, with the answers the application will give. -/
def callbacks : List Heard → Stream' MqttClientAckOption → List Exchange
  | [], _ => []
  | x :: xs, acks => (x.callback acks.head).toList ++ callbacks xs (acks.drop x.asks)

/-- How often the application is asked for an answer. -/
def askCount (xs : List Heard) : Nat := (xs.map Heard.asks).sum

theorem callbacks_append (xs ys : List Heard) (acks : Stream' MqttClientAckOption) :
    callbacks (xs ++ ys) acks = callbacks xs acks ++ callbacks ys (acks.drop (askCount xs)) := by
  induction xs generalizing acks with
  | nil => rfl
  | cons x xs ih =>
    simp only [List.cons_append, callbacks, ih, List.append_assoc, askCount, List.map_cons, List.sum_cons, Stream'.drop_drop]

/-- One more packet. -/
theorem callbacks_concat (xs : List Heard) (x : Heard) (acks : Stream' MqttClientAckOption) :
    callbacks (xs ++ [x]) acks = callbacks xs acks ++ (x.callback (acks.drop (askCount xs)).head).toList := by
  rw [callbacks_append]
  exact congrArg _ (List.append_nil _)

theorem askCount_concat (xs : List Heard) (x : Heard) : askCount (xs ++ [x]) = askCount xs + x.asks := by
  simp [askCount]

/-! ## Showing exchanges -/

/-- The session moves on and shows the given exchanges, with errors beside them only if the clock fails or `calmly` does not hold. -/
def Shows (calmly : Prop) (s t : Session) (asks : Nat) (out : List Exchange) : Prop :=
  ∃ real, Moves s t asks real ∧ real.filter (fun x => !x.isError) = out ∧ (calmly → ClockRuns s.env → real = out)

theorem Emits.shows {calmly : Prop} {s t : Session} {asks : Nat} {out : List Exchange} (h : Emits s t asks out) :
    Shows calmly s t asks out := by
  obtain ⟨real, hmove, hfilter, hclock⟩ := h
  exact ⟨real, hmove, hfilter, fun _ => hclock⟩

theorem Shows.trans {calmly : Prop} {s t u : Session} {m n : Nat} {out out' : List Exchange} (h : Shows calmly s t m out)
    (h' : Shows calmly t u n out') : Shows calmly s u (m + n) (out ++ out') := by
  obtain ⟨real, hmove, hfilter, hclock⟩ := h
  obtain ⟨real', hmove', hfilter', hclock'⟩ := h'
  refine ⟨real ++ real', hmove.trans hmove', by rw [List.filter_append, hfilter, hfilter'], ?_⟩
  intro hc hs
  rw [hclock hc hs, hclock' hc (hmove.clock hs)]

/-- Errors are beside what is shown. -/
theorem Shows.fails {calmly : Prop} {s t u : Session} {m : Nat} {out : List Exchange} (h : Shows calmly s t m out)
    (hcalmly : ¬calmly) (h' : Fails t u) : Shows calmly s u m out := by
  obtain ⟨real, hmove, hfilter, -⟩ := h
  obtain ⟨errs, herrs, herr⟩ := h'
  have hnone : errs.filter (fun x => !x.isError) = [] := List.filter_eq_nil_iff.mpr fun x hx => by simp [herr x hx]
  refine ⟨real ++ errs, hmove.trans herrs, by rw [List.filter_append, hfilter, hnone, List.append_nil], fun hc => absurd hc hcalmly⟩

/-- A move that adds nothing. -/
theorem Shows.before {calmly : Prop} {s t u : Session} {m : Nat} {out : List Exchange} (h : Shows calmly s t m out)
    (h' : Moves t u 0 []) : Shows calmly s u m out := by
  obtain ⟨real, hmove, hrest⟩ := h
  exact ⟨real, hmove.before h', hrest⟩

theorem Shows.calm {calmly : Prop} {s t : Session} {m : Nat} {out : List Exchange} (h : Shows calmly s t m out) : Calm t.env := by
  obtain ⟨real, hmove, -⟩ := h
  exact hmove.calm

theorem Shows.ack {calmly : Prop} {s t : Session} {m : Nat} {out : List Exchange} (h : Shows calmly s t m out) :
    t.env.ack = s.env.ack.drop m := by
  obtain ⟨real, hmove, -⟩ := h
  exact hmove.ack

/-! ## Deliveries -/

/-- What a delivered packet says. -/
def Delivery.heard (d : Delivery) : Option Heard := Umqtt.heard d.packet d.flags (bodyOf d.headerData)

/-- A delivered packet that is handled: it says something, and `recvCompleteCallback` looks at it. -/
structure Delivery.Handled (d : Delivery) (x : Heard) : Prop where
  heard : d.heard = some x
  length_le : (bodyOf d.headerData).length ≤ 268435455
  looked : (bodyOf d.headerData).length > 0 ∨ d.packet = .pingrespType

section

variable {dispatch : List IoEvent → Session → Session} (hd : Mild dispatch)

include hd

theorem emits_recvCompleteCallback {s : Session} (h : Calm s.env) {d : Delivery} {x : Heard} (hx : d.Handled x) :
    Emits s (recvCompleteCallback dispatch d.packet d.flags d.headerData s) x.asks
      ((x.callback s.env.ack.head).toList.flatMap answered) := by
  have hlog : Emits s (s.log (.packet d.packet d.flags d.headerData)) 0 [] := (moves_log h rfl).emits (by simp)
  have hpacket := emits_processPacket hd hlog.calm hx.heard hx.length_le
  simp only [recvCompleteCallback, if_pos hx.looked]
  have := hlog.trans hpacket
  rwa [Nat.zero_add, List.nil_append] at this

/-- Since the session `s₀`, the session has shown what the deliveries of the log say, as long as they are among the given ones. -/
def Answers (calmly : Prop) (s₀ : Session) (ds : List Delivery) (s : Session) (log : List Delivery) : Prop :=
  log <+: ds → Shows calmly s₀ s (askCount (log.filterMap Delivery.heard))
    ((callbacks (log.filterMap Delivery.heard) s₀.env.ack).flatMap answered)

variable {calmly : Prop} {s₀ : Session} {ds : List Delivery} (hds : ∀ d ∈ ds, ∃ x, d.Handled x)

include hds

theorem answers_callbacks : RelatedCallbacks (Answers calmly s₀ ds) (recvCompleteCallback dispatch) record := by
  intro packet flags headerData s log hs hpre
  have hshown := hs ((List.prefix_append log _).trans hpre)
  obtain ⟨x, hx⟩ := hds ⟨packet, flags, headerData⟩ (hpre.subset (by simp [record]))
  have hheard : (record packet flags headerData log).filterMap Delivery.heard = log.filterMap Delivery.heard ++ [x] := by
    rw [record, List.filterMap_append, List.filterMap_cons_some hx.heard]
    rfl
  have hmore := hshown.trans (emits_recvCompleteCallback hd hshown.calm hx).shows
  rw [hheard, askCount_concat, callbacks_concat, List.flatMap_append]
  rwa [hshown.ack] at hmore

/-- A call with bytes shows what it delivers, and an error if it fails. -/
theorem answers_onBytesReceived {w : World} {c : Codec (List Delivery)} (h : Related (Answers calmly s₀ ds) w c)
    (buffer : Option (List UInt8)) (hzero : calmly → (mqttCodecBytesReceived record c buffer).2 = .zero) :
    Related (Answers calmly s₀ ds) (onBytesReceived dispatch w buffer) (replayChunk c buffer) := by
  have hlog : Related (Answers calmly s₀ ds) ({ w with callContext := w.callContext.log (.bytesReceived buffer) } : World) c :=
    ⟨h.inst, h.heap, fun hp => (h.context hp).before (moves_log (h.context hp).calm rfl)⟩
  obtain ⟨hresult, hrel⟩ := bytesReceived_related (answers_callbacks hd hds) hlog buffer
  simp only [onBytesReceived, replayChunk, hresult]
  split
  · rename_i hfail
    exact ⟨SameParse.refl _, hrel.heap, fun hp =>
      (hrel.context hp).fails (fun hc => hfail (hzero hc)) (fails_setErrorCallback hd (hrel.context hp).calm _)⟩
  · exact hrel

/-- So does a sequence of calls. -/
theorem answers_chunks {w : World} {c : Codec (List Delivery)} (h : Related (Answers calmly s₀ ds) w c) (chunks : List (List UInt8))
    (hzero : calmly → (receiveChunks record c chunks).2 = List.replicate chunks.length .zero) :
    Related (Answers calmly s₀ ds) (chunks.foldl (fun w chunk => onBytesReceived dispatch w (some chunk)) w)
      (replay c (chunks.map some)) := by
  induction chunks generalizing w c with
  | nil => exact h
  | cons chunk chunks ih =>
    have hfirst : calmly → (mqttCodecBytesReceived record c (some chunk)).2 = .zero ∧
        (receiveChunks record (mqttCodecBytesReceived record c (some chunk)).1 chunks).2 = List.replicate chunks.length .zero := by
      intro hc
      exact List.cons.inj (hzero hc)
    refine ih (answers_onBytesReceived hd hds h (some chunk) fun hc => (hfirst hc).1) ?_
    intro hc
    have hsame : replayChunk c (some chunk) = (mqttCodecBytesReceived record c (some chunk)).1 := by
      simp only [replayChunk]
      rw [if_neg (not_not_intro (hfirst hc).1)]
    rw [hsame]
    exact (hfirst hc).2

end

/-- The world after a sequence of chunks. -/
def receive (depth : Nat) (w : World) (chunks : List (List UInt8)) : World :=
  chunks.foldl (fun w chunk => onBytesReceived (deliver depth) w (some chunk)) w

/-- A client that starts with a created codec shows what the replay of the chunks delivers. -/
theorem shows_receive (calmly : Prop) (depth : Nat) {w : World} (hinst : w.inst = mqttCodecCreate) (hheap : w.heap = okHeap)
    (hcalm : Calm w.callContext.env) (chunks : List (List UInt8))
    (hzero : calmly → (receiveChunks record ⟨mqttCodecCreate, okHeap, []⟩ chunks).2 = List.replicate chunks.length .zero)
    (hds : ∀ d ∈ (replay ⟨mqttCodecCreate, okHeap, []⟩ (chunks.map some)).callContext, ∃ x, d.Handled x) :
    let xs := (replay ⟨mqttCodecCreate, okHeap, []⟩ (chunks.map some)).callContext.filterMap Delivery.heard
    Shows calmly w.callContext (receive depth w chunks).callContext (askCount xs)
      ((callbacks xs w.callContext.env.ack).flatMap answered) := by
  have hstart : Related (Answers calmly w.callContext (replay ⟨mqttCodecCreate, okHeap, []⟩ (chunks.map some)).callContext) w
      ⟨mqttCodecCreate, okHeap, []⟩ :=
    ⟨hinst ▸ SameParse.refl _, hheap, fun _ => (Moves.refl hcalm |>.emits (by simp)).shows⟩
  exact (answers_chunks (mild_deliver depth) hds hstart chunks hzero).context (List.prefix_refl _)

end Umqtt
