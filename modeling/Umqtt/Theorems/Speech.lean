import Umqtt.Lemmas.Lossless
import Umqtt.Theorems.Decoding
import Umqtt.Theorems.Encoding

/-!
# The transcript of a run

Every call says one script of its own, in every state and whatever its surroundings answer (`speaks_runCall`): a run says one script after
another (`run_speaks`). The packets in it are those that are scanned from the chunks, so the scripts tell what the application hears
(`run_tells_scanned`) and which packets a PUBREL or a PUBCOMP is sent for (`run_handshakes_scanned`).
-/

namespace Umqtt

open Alloc Transcript

/-! ## One call -/

/-- The packet that a call asks to be sent. -/
def Call.request : Call → Option Request
  | .publish (some msgHandle) =>
    some (.publish (mqttmessageGetQosType msgHandle) (mqttmessageGetIsDuplicateMsg msgHandle) (mqttmessageGetIsRetained msgHandle)
      (mqttmessageGetPacketId msgHandle) ((mqttmessageGetTopicName msgHandle).map cStringAt) (mqttmessageGetApplicationMsg msgHandle))
  | .subscribe packetId subscribeList =>
    if subscribeList = [] ∨ packetId = 0 then none else some (.subscribe packetId subscribeList)
  | .unsubscribe packetId unsubscribeList =>
    if unsubscribeList = [] ∨ packetId = 0 then none else some (.unsubscribe packetId unsubscribeList)
  | _ => none

/-- The call is `mqtt_client_publish`, `mqtt_client_subscribe` or `mqtt_client_unsubscribe`. -/
def Call.isRequest : Call → Bool
  | .publish _ | .subscribe .. | .unsubscribe .. => true
  | _ => false

/-- What a call says, with what it returns. -/
inductive Speech : Call → MuResult → List Action → Prop
  | request {call : Call} {r : Request} {result : MuResult} {l : List Action} : call.request = some r → Sends r.packet result l →
      Speech call result l
  | requestRefused {call : Call} : call.isRequest = true → call.request = none → Speech call .muFailure []
  | response {packetId : UInt16} (qosValue : QosValue) {l : List Action} : packetId ≠ 0 → Replies (responseTo packetId qosValue) l →
      Speech (.sendMessageResponse packetId qosValue) .zero l
  | responseRefused (qosValue : QosValue) : Speech (.sendMessageResponse 0 qosValue) .muFailure []
  | disconnect (callback : Option DisconnectedCallback) {result : MuResult} {l : List Action} : Sends mqttCodecDisconnect result l →
      Speech (.disconnect callback) result l
  | disconnectClosed (callback : Option DisconnectedCallback) : Speech (.disconnect callback) .zero []
  | connect (xioHandle : Option XioHandle) (mqttOptions : Option MqttClientOptions) (result : MuResult) :
      Speech (.connect xioHandle mqttOptions) result []
  | clearXio : Speech .clearXio .zero []
  | dowork {events : List WorkEvent} {l l' : List Action} : Scripts Works events l → PingSpeech l' →
      Speech (.dowork events) .zero (l ++ l')
  | doworkClosed (events : List WorkEvent) : Speech (.dowork events) .zero []
  | xio {event : WorkEvent} {l : List Action} : Works event l → Speech (.xio event) .zero l

/-- What a call asks to be sent is no CONNECT. -/
theorem Call.request_ne_connect {call : Call} {r : Request} (h : call.request = some r) : r.type ≠ .connectType := by
  cases call with
  | publish msgHandle =>
    cases msgHandle with
    | none => cases h
    | some msgHandle =>
      obtain rfl := Option.some.inj h
      exact ControlPacketType.noConfusion
  | subscribe packetId subscribeList | unsubscribe packetId unsubscribeList =>
    simp only [Call.request] at h
    split at h
    · cases h
    · obtain rfl := Option.some.inj h
      exact ControlPacketType.noConfusion
  | _ => cases h

theorem Call.request_type {call : Call} {r : Request} (h : call.request = some r) :
    r.type ∈ [ControlPacketType.publishType, .subscribeType, .unsubscribeType] := by
  have hne := Call.request_ne_connect h
  cases r with
  | connect => exact absurd rfl hne
  | _ => simp [Request.type]

/-- The packet of a request has its type. -/
theorem Request.packetType (r : Request) : r.packet.Ensures (·.packetType = some r.type) := by
  cases r with
  | connect mqttOptions => exact packetType_mqttCodecConnect mqttOptions
  | publish => exact packetType_mqttCodecPublish _ _ _ _ _ _
  | subscribe => exact packetType_mqttCodecSubscribe _ _
  | unsubscribe => exact packetType_mqttCodecUnsubscribe _ _

section

variable {dispatch : List IoEvent → Session → Session} (hd : ∀ events s, Adds Action.Nested s (dispatch events s))

include hd

theorem speaks_request (s : Session) {t : ControlPacketType} {call : Call} {r : Request} (hr : call.request = some r) :
    ∃ l, Speech call (sendRequest dispatch s t r.packet).2 l ∧ Speaks s (sendRequest dispatch s t r.packet).1 l := by
  have hne : r.packet.Ensures (·.packetType ≠ some .connectType) := by
    refine r.packetType.mono ?_
    intro p hp
    rw [hp]
    exact mt Option.some.inj (Call.request_ne_connect hr)
  obtain ⟨l, hl, hspeaks⟩ := speaks_sendRequest hd s (t := t) hne
  exact ⟨l, .request hr hl, hspeaks⟩

omit hd in
theorem history_of_cloneMqttOptions (s : Session) (mqttOptions : MqttClientOptions) :
    (cloneMqttOptions s mqttOptions).1.history = s.history := by
  unfold cloneMqttOptions
  rcases halloc : s.alloc (clonedOptions mqttOptions s.client.mqttOptions) with ⟨_ | stored, s'⟩
  all_goals
    have hhist : s'.history = s.history := history_of_alloc halloc
    exact hhist

theorem speaks_connect (s : Session) (xioHandle : Option XioHandle) (mqttOptions : Option MqttClientOptions) :
    Speaks s (mqttClientConnect dispatch s xioHandle mqttOptions).1 [] := by
  rcases xioHandle with _ | xioHandle
  · exact .refl s
  rcases mqttOptions with _ | mqttOptions
  · exact .refl s
  have hcall : Speaks s (beginConnect (s.log (.connect xioHandle mqttOptions)) xioHandle mqttOptions) [] :=
    (speaks_silent s (a := .connect xioHandle mqttOptions) rfl).of_log rfl rfl
  have hclone := hcall.before (speaks_of_history (history_of_cloneMqttOptions
    (beginConnect (s.log (.connect xioHandle mqttOptions)) xioHandle mqttOptions) mqttOptions))
  unfold mqttClientConnect
  dsimp only
  generalize cloneMqttOptions (beginConnect (s.log (.connect xioHandle mqttOptions)) xioHandle mqttOptions) mqttOptions = cloned at hclone
  obtain ⟨s', result⟩ := cloned
  dsimp only at hclone ⊢
  split
  · exact hclone.before (speaks_silent s' rfl)
  · have hopen : Speaks s (xioOpen dispatch s' xioHandle).1 [] :=
      hclone.before ((speaks_silent (a := .xioOpen xioHandle s'.env.openResult.head) _ rfl).before (speaks_nested (nested_callBack hd _)))
    split
    · exact hopen.before ((speaks_silent (xioOpen dispatch s' xioHandle).1 (a := .connectReturns .muFailure) rfl).of_log rfl rfl)
    · exact hopen.before (speaks_silent _ rfl)

theorem speaks_disconnect (s : Session) (callback : Option DisconnectedCallback) :
    ∃ l, Speech (.disconnect callback) (mqttClientDisconnect dispatch s callback).2 l ∧
      Speaks s (mqttClientDisconnect dispatch s callback).1 l := by
  have hcall : Speaks s (s.log (.disconnect callback)) [] := speaks_silent s rfl
  unfold mqttClientDisconnect
  dsimp only
  split
  · rcases halloc : (s.log (.disconnect callback)).alloc mqttCodecDisconnect with ⟨_ | disconnectPacket, s'⟩
    all_goals have hstart : Speaks s s' [] := hcall.after (speaks_of_history (history_of_alloc halloc))
    · exact ⟨[], .disconnect callback .notBuilt, hstart.of_log rfl rfl⟩
    · have hbuilt := alloc_produces halloc
      have htype : disconnectPacket.packetType ≠ some .connectType := by
        rw [packetType_mqttCodecDisconnect.of_produces hbuilt]
        decide
      have hsend := speaks_sendPacketItem hd
        { s' with client := { s'.client with disconnectCb := callback, packetState := .disconnectType } } htype
      refine ⟨_, .disconnect callback (.sent s'.client.xioHandle hbuilt sendPacketItem_zero), ?_⟩
      exact hstart.after (hsend.of_log rfl rfl)
  · have hclose := nested_closeConnection hd { s.log (.disconnect callback) with
      client := { (s.log (.disconnect callback)).client with disconnectCb := callback } }
    exact ⟨[], .disconnectClosed callback, hcall.after ((speaks_nested hclose).of_log rfl rfl)⟩

theorem speaks_dowork (w : World) (events : List WorkEvent) :
    ∃ l, Speech (.dowork events) .zero l ∧ Speaks w.callContext (mqttClientDowork dispatch w events).callContext l := by
  unfold mqttClientDowork
  split
  · exact ⟨[], .doworkClosed events, .refl _⟩
  · split
    · exact ⟨[], .doworkClosed events, (speaks_nested (nested_closeConnection hd w.callContext)).of_log rfl rfl⟩
    · have hwork := speaks_silent w.callContext (a := .xioDowork w.callContext.client.xioHandle) rfl
      obtain ⟨l, hl, hspeaks⟩ := speaks_handleWorks hd
        { w with callContext := w.callContext.log (.xioDowork w.callContext.client.xioHandle) } events
      obtain ⟨l', hl', hspeaks₂⟩ := speaks_keepAlive hd (events.foldl (handleWork dispatch)
        { w with callContext := w.callContext.log (.xioDowork w.callContext.client.xioHandle) }).callContext
      exact ⟨_, .dowork hl hl', (hwork.after hspeaks).trans hspeaks₂⟩

end

/-- Every call says a script of its own. -/
theorem speaks_runCall (depth : Nat) (w : World) (call : Call) :
    ∃ l, Speech call (callResult depth w call) l ∧ Speaks w.callContext (runCall depth w call).callContext l := by
  have hd := nested_deliver depth
  cases call with
  | connect xioHandle mqttOptions => exact ⟨[], .connect xioHandle mqttOptions _, speaks_connect hd w.callContext xioHandle mqttOptions⟩
  | publish msgHandle =>
    cases msgHandle with
    | none => exact ⟨[], .requestRefused rfl rfl, .refl _⟩
    | some msgHandle =>
      have hr : (Call.publish (some msgHandle)).request = some _ := rfl
      exact speaks_request hd w.callContext hr
  | subscribe packetId subscribeList =>
    simp only [callResult, runCall, sessionCall, mqttClientSubscribe]
    split
    · rename_i hbad
      exact ⟨[], .requestRefused rfl (if_pos hbad), .refl _⟩
    · rename_i hgood
      have hr : (Call.subscribe packetId subscribeList).request = some (.subscribe packetId subscribeList) := if_neg hgood
      exact speaks_request hd w.callContext hr
  | unsubscribe packetId unsubscribeList =>
    simp only [callResult, runCall, sessionCall, mqttClientUnsubscribe]
    split
    · rename_i hbad
      exact ⟨[], .requestRefused rfl (if_pos hbad), .refl _⟩
    · rename_i hgood
      have hr : (Call.unsubscribe packetId unsubscribeList).request = some (.unsubscribe packetId unsubscribeList) := if_neg hgood
      exact speaks_request hd w.callContext hr
  | sendMessageResponse packetId qosValue =>
    simp only [callResult, runCall, sessionCall, mqttClientSendMessageResponse]
    split
    · rename_i hzero
      subst hzero
      exact ⟨[], .responseRefused qosValue, .refl _⟩
    · rename_i hid
      obtain ⟨l, hl, hspeaks⟩ := speaks_sendMessageAck hd w.callContext packetId qosValue
      exact ⟨l, .response qosValue hid hl, hspeaks⟩
  | disconnect callback => exact speaks_disconnect hd w.callContext callback
  | dowork events => exact speaks_dowork hd w events
  | clearXio => exact ⟨[], .clearXio, (speaks_silent w.callContext (a := .clearXio) rfl).of_log rfl rfl⟩
  | xio event =>
    obtain ⟨l, hl, hspeaks⟩ := speaks_handleWork hd w event
    exact ⟨l, .xio hl, hspeaks⟩

/-- The scripts of a run. -/
theorem speaks_run (depth : Nat) (w : World) (calls : List Call) :
    ∃ l, Scripts (fun c : Call × MuResult => Speech c.1 c.2) (results depth w calls) l ∧
      Speaks w.callContext (run depth w calls).callContext l := by
  induction calls generalizing w with
  | nil => exact ⟨[], .nil, .refl _⟩
  | cons call calls ih =>
    obtain ⟨first, hscript, hfirst⟩ := speaks_runCall depth w call
    obtain ⟨rest, hscripts, hrest⟩ := ih (runCall depth w call)
    exact ⟨first ++ rest, .cons hscript hscripts, hfirst.trans hrest⟩

/-- What is read off the observed entries is read off the history. -/
theorem filterMap_spoken {β : Type} {f : Action → Option β} (hf : ∀ a : Action, a.isSpoken = false → f a = none) (l : List Action) :
    (l.filter Action.isSpoken).filterMap f = l.filterMap f := by
  rw [List.filterMap_filter]
  refine List.filterMap_congr ?_
  intro a _
  rcases ha : a.isSpoken
  · rw [hf a ha]
    rfl
  · rfl

/-- A run is a transcript: what is observed of a client, in any run and whatever its surroundings answer, is one script for each call,
one after another. -/
theorem run_speaks (depth : Nat) (w : World) (calls : List Call) :
    ∃ l, Scripts (fun c : Call × MuResult => Speech c.1 c.2) (results depth w calls) l ∧
      (run depth w calls).callContext.history.filter Action.isSpoken = w.callContext.history.filter Action.isSpoken ++ l := by
  obtain ⟨l, hl, hspeaks⟩ := speaks_run depth w calls
  exact ⟨l, hl, hspeaks.filter_eq⟩

/-! ## What is said of each packet -/

/-- The entries of scripts that are not about a packet that has been received. -/
def Action.Unrelated : Action → Prop
  | .bytesReceived _ | .setErrorCallback _ => True
  | .xioSend _ p _ => ∃ t ∈ [ControlPacketType.publishType, .subscribeType, .unsubscribeType, .pubackType, .pubrecType, .pingreqType,
      .disconnectType], p.packetType = some t
  | _ => False

theorem packetType_replyBytes (t : ControlPacketType) (flags : UInt8) (packetId : UInt16) (ht : packetTypeByte (t.toByte ||| flags) = t) :
    (Buffer.ofBytes (replyBytes t flags packetId)).packetType = some t := congrArg some ht

/-- The call may hand over bytes. -/
def Call.receives : Call → Bool
  | .dowork _ | .xio _ => true
  | _ => false

/-- What keeps a connection alive is not about a packet. -/
theorem PingSpeech.unrelated {l : List Action} (h : PingSpeech l) : ∀ a ∈ l, a.Unrelated := by
  intro a ha
  cases h with
  | idle => exact absurd ha List.not_mem_nil
  | ping => exact List.mem_singleton.mp ha ▸ ⟨.pingreqType, by decide, rfl⟩
  | dead => exact List.mem_singleton.mp ha ▸ trivial

/-- Nor is the script of a call that does not receive bytes. -/
theorem Speech.unrelated {call : Call} {result : MuResult} {l : List Action} (h : Speech call result l) (hc : call.receives = false) :
    ∀ a ∈ l, a.Unrelated := by
  intro a ha
  cases h with
  | request hp hs =>
    cases hs with
    | notBuilt => exact absurd ha List.not_mem_nil
    | sent x hbuilt _ =>
      have hall : ∀ t ∈ [ControlPacketType.publishType, .subscribeType, .unsubscribeType],
          t ∈ [ControlPacketType.publishType, .subscribeType, .unsubscribeType, .pubackType, .pubrecType, .pingreqType,
            .disconnectType] := by decide
      exact List.mem_singleton.mp ha ▸ ⟨_, hall _ (Call.request_type hp), (Request.packetType _).of_produces hbuilt⟩
  | @response packetId qosValue l _ hr =>
    unfold responseTo at hr
    split at hr
    · cases hr with
      | sent =>
        exact List.mem_singleton.mp ha ▸ ⟨.pubackType, by decide, packetType_replyBytes .pubackType 0 packetId (by decide)⟩
      | notBuilt => exact List.mem_singleton.mp ha ▸ trivial
    · cases hr with
      | sent =>
        exact List.mem_singleton.mp ha ▸ ⟨.pubrecType, by decide, packetType_replyBytes .pubrecType 0 packetId (by decide)⟩
      | notBuilt => exact List.mem_singleton.mp ha ▸ trivial
    · cases hr
      exact absurd ha List.not_mem_nil
  | disconnect _ hs =>
    cases hs with
    | notBuilt => exact absurd ha List.not_mem_nil
    | sent x hbuilt _ =>
      exact List.mem_singleton.mp ha ▸ ⟨.disconnectType, by decide, packetType_mqttCodecDisconnect.of_produces hbuilt⟩
  | dowork | xio => exact absurd hc Bool.noConfusion
  | requestRefused | responseRefused | disconnectClosed | connect | clearXio | doworkClosed => exact absurd ha List.not_mem_nil

section

variable {β : Type} (say : Delivery → List β) (hear : Action → Option β)

/-- What is heard is what the packets say, in order: each once, and one that is not said is a loss. -/
structure Faithful (l : List Action) : Prop where
  aligned : Scripts (fun d out => out = say d ∨ out = []) (deliveries l) (l.filterMap hear)
  complete : (∀ a ∈ l, ¬a.Loss) → l.filterMap hear = (deliveries l).flatMap say

variable {say hear}

theorem Faithful.of_none {l : List Action} (hd : deliveries l = []) (hh : l.filterMap hear = []) : Faithful say hear l := by
  refine ⟨?_, fun _ => ?_⟩
  · rw [hd, hh]
    exact .nil
  · rw [hd, hh]
    rfl

theorem Faithful.append {l l' : List Action} (h : Faithful say hear l) (h' : Faithful say hear l') : Faithful say hear (l ++ l') := by
  refine ⟨?_, fun hloss => ?_⟩
  · rw [deliveries_append, List.filterMap_append]
    exact h.aligned.append h'.aligned
  · rw [deliveries_append, List.filterMap_append, List.flatMap_append, h.complete fun a ha => hloss a (List.mem_append_left _ ha),
      h'.complete fun a ha => hloss a (List.mem_append_right _ ha)]

/-- A packet that is said, or that is a loss. -/
theorem Faithful.of_packet {l : List Action} {d : Delivery} (hd : deliveries l = [d])
    (hh : l.filterMap hear = say d ∨ l.filterMap hear = [] ∧ ∃ a ∈ l, a.Loss) : Faithful say hear l := by
  refine ⟨?_, fun hloss => ?_⟩
  · rw [hd]
    exact .one (hh.imp_right And.left)
  · rcases hh with hh | ⟨-, a, ha, hbad⟩
    · rw [hd, hh, List.flatMap_singleton]
    · exact absurd hbad (hloss a ha)

variable (hquiet : ∀ a : Action, a.Unrelated → hear a = none)

include hquiet

theorem Faithful.of_unrelated {l : List Action} (h : ∀ a ∈ l, a.Unrelated) : Faithful say hear l := by
  refine .of_none (List.filterMap_eq_nil_iff.mpr ?_) (List.filterMap_eq_nil_iff.mpr fun a ha => hquiet a (h a ha))
  intro a ha
  have hun := h a ha
  cases a with
  | packet => exact absurd hun id
  | _ => rfl

variable (hleads : ∀ d l, Leads d l → Faithful say hear l)

include hleads

theorem Faithful.of_works {event : WorkEvent} {l : List Action} (h : Works event l) : Faithful say hear l := by
  have hpackets : ∀ {ds l}, Scripts Leads ds l → Faithful say hear l := fun hl =>
    hl.closed (.of_none rfl rfl) (fun _ _ => Faithful.append) hleads
  cases event with
  | io e =>
    obtain rfl : l = [] := h
    exact .of_none rfl rfl
  | bytes buffer =>
    have hchunk : Faithful say hear [.bytesReceived buffer] := .of_unrelated hquiet fun a ha => List.mem_singleton.mp ha ▸ trivial
    have herror : Faithful say hear [.setErrorCallback .parseError] :=
      .of_unrelated hquiet fun a ha => List.mem_singleton.mp ha ▸ trivial
    cases h with
    | well hl => exact hchunk.append (hpackets hl)
    | badly hl => exact hchunk.append ((hpackets hl).append herror)

/-- The script of a call is faithful if what the packets lead to is. -/
theorem Faithful.of_speech {call : Call} {result : MuResult} {l : List Action} (h : Speech call result l) : Faithful say hear l := by
  have hnil : Faithful say hear [] := .of_none rfl rfl
  cases call with
  | dowork events =>
    cases h with
    | dowork hworks halive =>
      have hpackets := hworks.closed hnil (fun _ _ => Faithful.append) fun event l hl => Faithful.of_works hquiet hleads hl
      exact hpackets.append (.of_unrelated hquiet halive.unrelated)
    | doworkClosed => exact hnil
    | request hr => cases hr
    | requestRefused hq => cases hq
  | xio event =>
    cases h with
    | xio hw => exact .of_works hquiet hleads hw
    | request hr => cases hr
    | requestRefused hq => cases hq
  | _ => exact .of_unrelated hquiet (h.unrelated rfl)

/-- A run is faithful if what the packets lead to is. -/
theorem faithful_run (hspoken : ∀ a : Action, a.isSpoken = false → hear a = none) (fnOnErrorCallBack : Bool) (env : Env) (heap : Heap)
    (depth : Nat) (calls : List Call) :
    Faithful say hear (run depth (mqttClientInit fnOnErrorCallBack env heap) calls).callContext.history := by
  obtain ⟨l, hl, added, hadded, rfl⟩ := speaks_run depth (mqttClientInit fnOnErrorCallBack env heap) calls
  have hfaithful := hl.closed (P := Faithful say hear) (.of_none rfl rfl) (fun _ _ => Faithful.append)
    fun c l hs => .of_speech hquiet hleads hs
  have hhist : (run depth (mqttClientInit fnOnErrorCallBack env heap) calls).callContext.history = added := hadded
  have hdeliveries : deliveries (added.filter Action.isSpoken) = deliveries added := by
    refine filterMap_spoken ?_ added
    intro a ha
    cases a with
    | packet => exact absurd ha (by simp [Action.isSpoken])
    | _ => rfl
  rw [hhist]
  refine ⟨?_, fun hloss => ?_⟩
  · have haligned := hfaithful.aligned
    rwa [hdeliveries, filterMap_spoken hspoken] at haligned
  · have hcomplete := hfaithful.complete fun a ha => hloss a (List.mem_of_mem_filter ha)
    rwa [hdeliveries, filterMap_spoken hspoken] at hcomplete

end

/-! ## What the application hears -/

/-- What a packet says to the application when it is delivered: a SUBACK says the return codes that pass the check. -/
def Delivery.said (d : Delivery) : List Heard :=
  if (bodyOf d.headerData).length > 0 ∨ d.packet = .pingrespType then
    if d.packet = .subackType then
      if 2 ≤ (bodyOf d.headerData).length then
        [.event (.onSubscribeAck { packetId := idOf (bodyOf d.headerData), qosReturn := grantedBy (bodyOf d.headerData) })]
      else []
    else
      match d.heard with
      | some (.message m) => [.message m]
      | some (.event actionResult) => [.event actionResult]
      | _ => []
  else []

/-- What an entry tells the application. -/
def Action.asHeard : Action → Option Heard
  | .messageRecv m _ => some (.message m)
  | .operation actionResult => if actionResult = .onDisconnect then none else some (.event actionResult)
  | _ => none

/-- What the application has been told, in order. -/
def told (history : List Action) : List Heard := history.filterMap Action.asHeard

/-- A reply tells the application nothing. -/
theorem told_replies {r : Option Reply} {l : List Action} (h : Replies r l) : told l = [] ∧ deliveries l = [] := by
  cases h <;> exact ⟨rfl, rfl⟩

/-- No packet says that a DISCONNECT has been sent. -/
theorem heard_ne_onDisconnect {packet : ControlPacketType} {flags : UInt8} {body : List UInt8} :
    heard packet flags body ≠ some (.event .onDisconnect) := by
  intro h
  rcases said_cases h (.event .onDisconnect) with ⟨-, h⟩ | ⟨-, -, h⟩
  · exact Action.noConfusion h (fun h => MqttClientEventResult.noConfusion h)
  · exact h rfl

/-- A packet that is handled is said with a callback and its reply, or says nothing, or is a loss. -/
inductive Said (d : Delivery) : List Action → Prop
  | message {m : MqttMessage} {ack : MqttClientAckOption} {l : List Action} : d.said = [.message m] →
      Replies (replyTo (.message m ack)) l → Said d (.messageRecv m ack :: l)
  | event {actionResult : MqttClientEventResult} {l : List Action} : actionResult ≠ .onDisconnect → d.said = [.event actionResult] →
      Replies (replyTo (.event actionResult)) l → Said d (.operation actionResult :: l)
  | nothing : d.said = [] → Said d []
  | loss {a : Action} : a.Loss → Said d [a]

theorem said_of_handles {d : Delivery} {l : List Action} (hbody : (bodyOf d.headerData).length > 0 ∨ d.packet = .pingrespType)
    (h : Handles d.packet d.flags (bodyOf d.headerData) l) : Said d l := by
  cases h with
  | @message m ack l hheard hr =>
    have hne : d.packet ≠ .subackType := by
      intro hsub
      rw [hsub, heard] at hheard
      split at hheard <;> simp at hheard
    refine .message ?_ hr
    rw [Delivery.said, if_pos hbody, if_neg hne, Delivery.heard, hheard]
  | @event actionResult l hne hheard hr =>
    refine .event (fun hdisc => heard_ne_onDisconnect (hdisc ▸ hheard)) ?_ hr
    rw [Delivery.said, if_pos hbody, if_neg hne, Delivery.heard, hheard]
  | suback hsub htwo =>
    refine .event MqttClientEventResult.noConfusion ?_ .notDue
    rw [Delivery.said, if_pos hbody, if_pos hsub, if_pos htwo]
  | nothing hne hheard =>
    refine .nothing ?_
    rw [Delivery.said, if_pos hbody, if_neg hne, Delivery.heard]
    rcases hheard with hheard | ⟨-, hheard⟩ <;> rw [hheard]
  | noTopic => exact .loss (Or.inl rfl)
  | noMemory => exact .loss (Or.inr rfl)

/-- What a packet leads to begins with its delivery. -/
theorem Leads.cases {d : Delivery} {l : List Action} (h : Leads d l) :
    ∃ rest, l = .packet d.packet d.flags d.headerData :: rest ∧ Said d rest := by
  cases h with
  | handled hbody hl => exact ⟨_, rfl, said_of_handles hbody hl⟩
  | empty hbody => exact ⟨[], rfl, .nothing (if_neg hbody)⟩

/-- A packet is said, or is a loss: it is enough to look at what follows its delivery. -/
theorem faithful_leads {β : Type} {say : Delivery → List β} {hear : Action → Option β} {d : Delivery} {l : List Action} (h : Leads d l)
    (hpacket : ∀ packet flags headerData, hear (.packet packet flags headerData) = none)
    (hsaid : ∀ rest, Said d rest → deliveries rest = [] ∧
      (rest.filterMap hear = say d ∨ rest.filterMap hear = [] ∧ ∃ a ∈ rest, a.Loss)) : Faithful say hear l := by
  obtain ⟨rest, rfl, hrest⟩ := h.cases
  obtain ⟨hnone, hheard⟩ := hsaid rest hrest
  refine .of_packet (d := d) (congrArg (d :: ·) hnone) ?_
  rw [List.filterMap_cons_none (hpacket _ _ _)]
  exact hheard.imp id fun ⟨hnil, a, ha, hloss⟩ => ⟨hnil, a, List.mem_cons_of_mem _ ha, hloss⟩

/-- No packet is delivered while another one is said. -/
theorem deliveries_said {d : Delivery} {l : List Action} (h : Said d l) : deliveries l = [] := by
  cases h with
  | message _ hr => exact (told_replies hr).2
  | event _ _ hr => exact (told_replies hr).2
  | nothing => rfl
  | loss hloss => rcases hloss with rfl | rfl <;> rfl

theorem faithful_told {d : Delivery} {l : List Action} (h : Leads d l) : Faithful Delivery.said Action.asHeard l := by
  refine faithful_leads h (fun _ _ _ => rfl) ?_
  intro rest hrest
  refine ⟨deliveries_said hrest, ?_⟩
  cases hrest with
  | @message m _ _ hsaid hr =>
    rw [hsaid]
    exact Or.inl (congrArg (Heard.message m :: ·) (told_replies hr).1)
  | @event actionResult _ hdisc hsaid hr =>
    have hentry : (Action.operation actionResult).asHeard = some (.event actionResult) := if_neg hdisc
    rw [hsaid, List.filterMap_cons_some hentry]
    exact Or.inl (congrArg (Heard.event actionResult :: ·) (told_replies hr).1)
  | nothing hsaid =>
    rw [hsaid]
    exact Or.inl rfl
  | loss hloss =>
    refine Or.inr ⟨?_, _, List.mem_singleton_self _, hloss⟩
    rcases hloss with rfl | rfl <;> rfl

theorem asHeard_of_unrelated {a : Action} (ha : a.Unrelated) : a.asHeard = none := by
  cases a with
  | messageRecv | operation => exact absurd ha id
  | _ => rfl

theorem asHeard_of_unspoken {a : Action} (ha : a.isSpoken = false) : a.asHeard = none := by
  cases a with
  | messageRecv => exact absurd ha (by simp [Action.isSpoken])
  | operation actionResult => exact if_pos (by simpa [Action.isSpoken] using ha)
  | _ => rfl

theorem faithful_told_run (fnOnErrorCallBack : Bool) (env : Env) (heap : Heap) (depth : Nat) (calls : List Call) :
    Faithful Delivery.said Action.asHeard (run depth (mqttClientInit fnOnErrorCallBack env heap) calls).callContext.history :=
  faithful_run (fun _ => asHeard_of_unrelated) (fun _ _ => faithful_told) (fun _ => asHeard_of_unspoken) fnOnErrorCallBack env heap depth
    calls

/-- What the application hears is what the stream says, in any run: what it is told is, in order, what the packets scanned from the
chunks say, each once. One of which it is told nothing is reported, so in a run without such a report it is told everything. -/
theorem run_tells_scanned (fnOnErrorCallBack : Bool) (env : Env) (heap : Heap) (depth : Nat) (calls : List Call) :
    let h := (run depth (mqttClientInit fnOnErrorCallBack env heap) calls).callContext.history
    Scripts (fun (p : Packet) out => out = p.delivery.said ∨ out = []) (scanned heap (chunks h)) (told h) ∧
      ((∀ a ∈ h, ¬a.Loss) → told h = (scanned heap (chunks h)).flatMap fun p => p.delivery.said) := by
  obtain ⟨haligned, hcomplete⟩ := faithful_told_run fnOnErrorCallBack env heap depth calls
  dsimp only
  rw [deliveries_replay, replay_scanned, scripts_map] at haligned
  rw [deliveries_replay, replay_scanned, List.flatMap_map] at hcomplete
  exact ⟨haligned, hcomplete⟩

/-! ## The second half of a delivery exactly once -/

/-- The PUBREL that answers a PUBREC and the PUBCOMP that answers a PUBREL, as they are sent. -/
def Heard.handshake : Heard → List Buffer
  | .event actionResult => ((replyTo (.event actionResult)).map fun r => Buffer.ofBytes r.bytes).toList
  | _ => []

/-- What a packet is answered with when it is the second or the third of a delivery exactly once. -/
def Delivery.handshake (d : Delivery) : List Buffer := d.said.flatMap Heard.handshake

/-- A PUBREL or a PUBCOMP that is handed over. -/
def Action.asHandshake : Action → Option Buffer
  | .xioSend _ p _ => if p.packetType = some .pubrelType ∨ p.packetType = some .pubcompType then some p else none
  | _ => none

/-- The PUBREL and PUBCOMP packets that have been handed over, in order. -/
def handshakes (history : List Action) : List Buffer := history.filterMap Action.asHandshake

/-- The reply to a message is neither. -/
theorem handshakes_message {m : MqttMessage} {ack : MqttClientAckOption} {l : List Action} (h : Replies (replyTo (.message m ack)) l) :
    handshakes l = [] := by
  rw [replyTo_message] at h
  split at h
  · unfold responseTo at h
    split at h
    · cases h with
      | sent => exact List.filterMap_cons_none (if_neg (by
          rw [Reply.bytes, packetType_replyBytes .pubackType 0 m.packetId (by decide)]
          decide))
      | notBuilt => rfl
    · cases h with
      | sent => exact List.filterMap_cons_none (if_neg (by
          rw [Reply.bytes, packetType_replyBytes .pubrecType 0 m.packetId (by decide)]
          decide))
      | notBuilt => rfl
    · cases h
      rfl
  · cases h
    rfl

/-- The reply to an event is handed over, or is a loss. -/
theorem handshakes_event {actionResult : MqttClientEventResult} {l : List Action} (h : Replies (replyTo (.event actionResult)) l) :
    handshakes l = (Heard.event actionResult).handshake ∨ handshakes l = [] ∧ ∃ a ∈ l, a.Loss := by
  have hkind : ∀ r, replyTo (.event actionResult) = some r → (r.type = .pubrelType ∧ r.flags = 2) ∨ (r.type = .pubcompType ∧ r.flags = 0) := by
    intro r hr
    cases actionResult with
    | onPublishRecv =>
      obtain rfl := Option.some.inj hr
      exact Or.inl ⟨rfl, rfl⟩
    | onPublishRel =>
      obtain rfl := Option.some.inj hr
      exact Or.inr ⟨rfl, rfl⟩
    | _ => cases hr
  rw [Heard.handshake]
  generalize replyTo (.event actionResult) = reply at h hkind
  cases h with
  | notDue => exact Or.inl rfl
  | sent r =>
    refine Or.inl (List.filterMap_cons_some (if_pos ?_))
    rw [Reply.bytes]
    rcases hkind r rfl with ⟨ht, hf⟩ | ⟨ht, hf⟩
    · rw [ht, hf]
      exact Or.inl (packetType_replyBytes .pubrelType 2 r.packetId (by decide))
    · rw [ht, hf]
      exact Or.inr (packetType_replyBytes .pubcompType 0 r.packetId (by decide))
  | notBuilt => exact Or.inr ⟨rfl, _, List.mem_singleton_self _, Or.inr rfl⟩

theorem faithful_handshakes {d : Delivery} {l : List Action} (h : Leads d l) : Faithful Delivery.handshake Action.asHandshake l := by
  refine faithful_leads h (fun _ _ _ => rfl) ?_
  intro rest hrest
  refine ⟨deliveries_said hrest, ?_⟩
  unfold Delivery.handshake
  cases hrest with
  | message hsaid hr =>
    have hnone := handshakes_message hr
    rw [hsaid]
    exact Or.inl hnone
  | event _ hsaid hr =>
    rw [hsaid, List.flatMap_singleton]
    exact (handshakes_event hr).imp id fun ⟨hnil, a, ha, hloss⟩ => ⟨hnil, a, List.mem_cons_of_mem _ ha, hloss⟩
  | nothing hsaid =>
    rw [hsaid]
    exact Or.inl rfl
  | loss hloss =>
    refine Or.inr ⟨?_, _, List.mem_singleton_self _, hloss⟩
    rcases hloss with rfl | rfl <;> rfl

theorem asHandshake_of_unrelated {a : Action} (ha : a.Unrelated) : a.asHandshake = none := by
  cases a with
  | xioSend x p r =>
    obtain ⟨t, ht, hp⟩ := ha
    have hne : t ≠ .pubrelType ∧ t ≠ .pubcompType := by
      clear hp
      revert t
      decide
    refine if_neg ?_
    rw [hp]
    rintro (h | h)
    · exact hne.1 (Option.some.inj h)
    · exact hne.2 (Option.some.inj h)
  | _ => rfl

theorem asHandshake_of_unspoken {a : Action} (ha : a.isSpoken = false) : a.asHandshake = none := by
  cases a with
  | xioSend x p r =>
    have hp : p.packetType = some .connectType := by simpa [Action.isSpoken] using ha
    exact if_neg (by rw [hp]; decide)
  | _ => rfl

/-- A PUBREL is sent for a PUBREC, and a PUBCOMP for a PUBREL, in any run: those that are handed over are, in order, the answers to the
packets scanned from the chunks, each once, with the packet id that was received. One that is not sent is reported. -/
theorem run_handshakes_scanned (fnOnErrorCallBack : Bool) (env : Env) (heap : Heap) (depth : Nat) (calls : List Call) :
    let h := (run depth (mqttClientInit fnOnErrorCallBack env heap) calls).callContext.history
    Scripts (fun (p : Packet) out => out = p.delivery.handshake ∨ out = []) (scanned heap (chunks h)) (handshakes h) ∧
      ((∀ a ∈ h, ¬a.Loss) → handshakes h = (scanned heap (chunks h)).flatMap fun p => p.delivery.handshake) := by
  obtain ⟨haligned, hcomplete⟩ :=
    faithful_run (fun _ => asHandshake_of_unrelated) (fun _ _ => faithful_handshakes) (fun _ => asHandshake_of_unspoken) fnOnErrorCallBack
      env heap depth calls
  dsimp only
  rw [deliveries_replay, replay_scanned, scripts_map] at haligned
  rw [deliveries_replay, replay_scanned, List.flatMap_map] at hcomplete
  exact ⟨haligned, hcomplete⟩

end Umqtt
