import Umqtt.Theorems.Speech

/-!
# What is sent for the application

The PUBLISH, SUBSCRIBE and UNSUBSCRIBE packets that a run hands over are those that its calls ask for, in the order of the calls and each
once (`run_posts_requests`).
-/

namespace Umqtt

open Alloc Transcript

/-! ## Requests -/

namespace Request

/-- The packet, written out. -/
def bytes (r : Request) : List UInt8 := (EncoderCall.request r).first :: (remainSize r.body.length ++ r.body)

/-- What a request that a call makes is encoded as. -/
theorem bytes_of_produces {call : Call} {r : Request} (h : call.request = some r) {p : Buffer} (hp : r.packet.Produces p) :
    p = Buffer.ofBytes r.bytes := by
  have hfilled : (EncoderCall.request r).Filled := by
    cases r with
    | connect => exact absurd rfl (Call.request_ne_connect h)
    | _ => trivial
  exact ((EncoderCall.request r).ensures_packet hfilled).of_produces hp

end Request

theorem packetType_bytes (r : Request) : (Buffer.ofBytes r.bytes).packetType = some r.type :=
  congrArg some (EncoderCall.request r).first_spec.1

/-- A PUBLISH, SUBSCRIBE or UNSUBSCRIBE that is handed over, and whether it is accepted. -/
def Action.asPost : Action → Option (Buffer × MuResult)
  | .xioSend _ p result =>
    if p.packetType = some .publishType ∨ p.packetType = some .subscribeType ∨ p.packetType = some .unsubscribeType then some (p, result)
    else none
  | _ => none

/-- The PUBLISH, SUBSCRIBE and UNSUBSCRIBE packets that have been handed over, in order. -/
def outbox (history : List Action) : List (Buffer × MuResult) := history.filterMap Action.asPost

/-- The requests that calls make, each with what is returned. -/
def asked (results : List (Call × MuResult)) : List (Request × MuResult) :=
  results.filterMap fun c => c.1.request.map fun r => (r, c.2)

/-- A request is handed over once if it can be built, and accepted if the call succeeds, or it is not handed over and the call fails. -/
inductive Posted (r : Request × MuResult) : List (Buffer × MuResult) → Prop
  | handedOver (result : MuResult) : r.1.packet.Produces (Buffer.ofBytes r.1.bytes) → (r.2 = .zero → result = .zero) →
      Posted r [(Buffer.ofBytes r.1.bytes, result)]
  | failed : r.2 ≠ .zero → Posted r []

theorem asPost_eq_none {x : Option XioHandle} {p : Buffer} {result : MuResult} {t : ControlPacketType} (hp : p.packetType = some t)
    (ht : t ∉ [ControlPacketType.publishType, .subscribeType, .unsubscribeType]) : (Action.xioSend x p result).asPost = none := by
  refine if_neg ?_
  rw [hp]
  simpa using ht

/-- A reply is none of these packets. -/
theorem outbox_replies {r : Option Reply} {l : List Action} (h : Replies r l)
    (hr : ∀ x ∈ r, packetTypeByte (x.type.toByte ||| x.flags) ∉ [ControlPacketType.publishType, .subscribeType, .unsubscribeType]) :
    outbox l = [] := by
  cases h with
  | sent r x result => exact List.filterMap_cons_none (asPost_eq_none rfl (hr r rfl))
  | notDue | notBuilt => rfl

/-- No response is one. -/
theorem notPost_responseTo {packetId : UInt16} {qosValue : QosValue} {r : Reply} (h : responseTo packetId qosValue = some r) :
    packetTypeByte (r.type.toByte ||| r.flags) ∉ [ControlPacketType.publishType, .subscribeType, .unsubscribeType] := by
  have hkinds : ∀ t ∈ [ControlPacketType.pubackType, .pubrecType],
      packetTypeByte (t.toByte ||| 0) ∉ [ControlPacketType.publishType, .subscribeType, .unsubscribeType] := by decide
  cases qosValue with
  | deliverAtLeastOnce =>
    obtain rfl := Option.some.inj h
    exact hkinds .pubackType (by decide)
  | deliverExactlyOnce =>
    obtain rfl := Option.some.inj h
    exact hkinds .pubrecType (by decide)
  | qosValueInvalid | deliverAtMostOnce | deliverFailure => cases h

/-- No reply to a message or an event is one. -/
theorem notPost_replyTo {x : Exchange} {r : Reply} (h : replyTo x = some r) :
    packetTypeByte (r.type.toByte ||| r.flags) ∉ [ControlPacketType.publishType, .subscribeType, .unsubscribeType] := by
  have hkinds : ∀ k ∈ [(ControlPacketType.pubrelType, (2 : UInt8)), (.pubcompType, 0)],
      packetTypeByte (k.1.toByte ||| k.2) ∉ [ControlPacketType.publishType, .subscribeType, .unsubscribeType] := by decide
  cases x with
  | message m ack =>
    rw [replyTo_message] at h
    split at h
    · exact notPost_responseTo h
    · cases h
  | event actionResult =>
    cases actionResult with
    | onPublishRecv =>
      obtain rfl := Option.some.inj h
      exact hkinds (.pubrelType, 2) (by decide)
    | onPublishRel =>
      obtain rfl := Option.some.inj h
      exact hkinds (.pubcompType, 0) (by decide)
    | _ => cases h
  | _ => cases h

theorem outbox_append (h h' : List Action) : outbox (h ++ h') = outbox h ++ outbox h' := List.filterMap_append

/-- What a packet leads to is none of these packets. -/
theorem outbox_leads {d : Delivery} {l : List Action} (h : Leads d l) : outbox l = [] := by
  obtain ⟨rest, rfl, hrest⟩ := h.cases
  cases hrest with
  | message _ hr =>
    have hnone := outbox_replies hr fun x hx => notPost_replyTo hx
    exact hnone
  | event _ _ hr =>
    have hnone := outbox_replies hr fun x hx => notPost_replyTo hx
    exact hnone
  | nothing => rfl
  | loss hloss => rcases hloss with rfl | rfl <;> rfl

theorem outbox_works {event : WorkEvent} {l : List Action} (h : Works event l) : outbox l = [] := by
  have hpackets : ∀ {ds l}, Scripts Leads ds l → outbox l = [] := fun hl =>
    hl.closed (P := fun l => outbox l = []) rfl (fun a b ha hb => by rw [outbox_append, ha, hb]; rfl) fun _ _ => outbox_leads
  cases event with
  | io e =>
    obtain rfl : l = [] := h
    rfl
  | bytes buffer =>
    cases h with
    | well hl =>
      have hnone := hpackets hl
      exact hnone
    | @badly ds l hl =>
      change outbox (l ++ [.setErrorCallback .parseError]) = []
      rw [outbox_append, hpackets hl]
      rfl

/-- The script of a call, as to these packets. -/
theorem posted_speech {call : Call} {result : MuResult} {l : List Action} (h : Speech call result l) :
    Scripts Posted (call.request.map fun r => (r, result)).toList (outbox l) := by
  cases h with
  | request hr hs =>
    rw [hr]
    cases hs with
    | notBuilt => exact .one (.failed MuResult.noConfusion)
    | @sent p x result returned hbuilt hzero =>
      obtain rfl := Request.bytes_of_produces hr hbuilt
      have htype := Call.request_type hr
      have hentry : (Action.xioSend x (Buffer.ofBytes _) result).asPost = some (Buffer.ofBytes _, result) :=
        if_pos (by rw [packetType_bytes]; simpa using htype)
      rw [outbox, List.filterMap_cons_some hentry]
      exact .one (.handedOver result hbuilt hzero)
  | requestRefused _ hr =>
    rw [hr]
    exact .nil
  | @response packetId qosValue l _ hr =>
    have hnone := outbox_replies hr fun x hx => notPost_responseTo hx
    rw [hnone]
    exact .nil
  | disconnect _ hs =>
    cases hs with
    | notBuilt => exact .nil
    | sent x hbuilt _ =>
      rw [outbox, List.filterMap_cons_none (asPost_eq_none (packetType_mqttCodecDisconnect.of_produces hbuilt) (by decide))]
      exact .nil
  | dowork hworks halive =>
    have hnone := hworks.closed (P := fun l => outbox l = []) rfl (fun a b ha hb => by rw [outbox_append, ha, hb]; rfl)
      fun _ _ => outbox_works
    rw [outbox_append, hnone]
    cases halive with
    | idle | dead => exact .nil
    | ping => exact .nil
  | xio hw =>
    rw [outbox_works hw]
    exact .nil
  | responseRefused | disconnectClosed | connect | clearXio | doworkClosed => exact .nil

/-- What a run posts. -/
theorem posted_run (depth : Nat) (w : World) (calls : List Call) :
    ∃ l, Scripts Posted (asked (results depth w calls)) l ∧
      outbox (run depth w calls).callContext.history = outbox w.callContext.history ++ l := by
  obtain ⟨_, hl, added, hadded, rfl⟩ := speaks_run depth w calls
  refine ⟨outbox (added.filter Action.isSpoken), hl.select rfl outbox_append fun c l hs => posted_speech hs, ?_⟩
  have hspoken : ∀ a : Action, a.isSpoken = false → a.asPost = none := by
    intro a ha
    cases a with
    | xioSend x p result =>
      have hp : p.packetType = some .connectType := by simpa [Action.isSpoken] using ha
      exact asPost_eq_none hp (by decide)
    | _ => rfl
  rw [hadded, outbox_append, outbox, outbox, outbox, filterMap_spoken hspoken]

/-- The outbox is a queue: in any run, whatever the memory, the xio and the clock do, the PUBLISH, SUBSCRIBE and UNSUBSCRIBE packets that
are handed over are those of the calls, in the order of the calls, each once and encoded as the call asks. A call that returns 0 has had
its packet accepted. The bytes are those of the code for bodies up to 268435455 bytes, which is what `constructFixedHeader` has room for. -/
theorem run_posts_requests (fnOnErrorCallBack : Bool) (env : Env) (heap : Heap) (depth : Nat) (calls : List Call) :
    Scripts Posted (asked (results depth (mqttClientInit fnOnErrorCallBack env heap) calls))
      (outbox (run depth (mqttClientInit fnOnErrorCallBack env heap) calls).callContext.history) := by
  obtain ⟨l, hl, houtbox⟩ := posted_run depth (mqttClientInit fnOnErrorCallBack env heap) calls
  rw [houtbox]
  exact hl

end Umqtt
