import Umqtt.Lemmas.Memory
import Umqtt.Lemmas.Supply
import Umqtt.Theorems.Connected
import Umqtt.Theorems.FixedHeader
import Umqtt.Theorems.Outbox

/-!
# Requests where nothing fails

Where the allocator, `xio_send` and the clock do not fail, a request of the application succeeds exactly when it can be encoded, and then its
packet is handed over and accepted (`run_grants_requests`). What the xio calls back, what it receives and what else the application does have
no part in it. The encoders let through what is too long for the length bytes of `constructFixedHeader` (`Admitted`); the requests of
the run are no such ones.
-/

namespace Umqtt

open Alloc Transcript

namespace Request

/-! ## Requests that can be encoded -/

/-- The encoder lets the request through: the strings fit their length fields, there is a topic, and a message is not over
`MAX_SEND_SIZE`. -/
def Admitted : Request → Prop
  | connect mqttOptions => OptionsAccepted mqttOptions ∧ 0 < connPayloadLen mqttOptions
  | publish _ _ _ _ (some topicName) msgBuffer => strlen topicName ≤ ushrtMax ∧ msgBuffer.length ≤ maxSendSize
  | publish _ _ _ _ none _ => False
  | subscribe _ subscribeList => subscribeList ≠ [] ∧ ∀ item ∈ subscribeList, strlen item.subscribeTopic ≤ ushrtMax
  | unsubscribe _ unsubscribeList => unsubscribeList ≠ [] ∧ ∀ topic ∈ unsubscribeList, strlen topic ≤ ushrtMax

instance (mqttOptions : MqttClientOptions) : Decidable (OptionsFit mqttOptions) := inferInstanceAs (Decidable (_ ∧ _ ∧ _ ∧ _ ∧ _))

instance (mqttOptions : MqttClientOptions) : Decidable (OptionsAccepted mqttOptions) := inferInstanceAs (Decidable (_ ∧ _ ∧ _))

instance : (r : Request) → Decidable r.Admitted
  | connect _ | publish _ _ _ _ (some _) _ | subscribe _ _ | unsubscribe _ _ => inferInstanceAs (Decidable (_ ∧ _))
  | publish _ _ _ _ none _ => inferInstanceAs (Decidable False)

/-- The request is let through, and `constructFixedHeader` has room for the length bytes. -/
def Encodable (r : Request) : Prop := r.Admitted ∧ r.bodyLen ≤ 268435455

instance (r : Request) : Decidable r.Encodable := inferInstanceAs (Decidable (_ ∧ _))

/-- A request that is let through is built when there is memory. -/
theorem Admitted.isSome {r : Request} (h : r.Admitted) : (r.packet.answer okHeap).1.isSome := by
  have hneeds : ∃ n, r.packet.Needs n := by
    cases r with
    | connect mqttOptions => exact ⟨_, needs_mqttCodecConnect h.1 h.2⟩
    | publish qosValue duplicateMsg serverRetain packetId topicName msgBuffer =>
      cases topicName with
      | none => exact absurd h id
      | some topicName => exact ⟨_, needs_mqttCodecPublish qosValue duplicateMsg serverRetain packetId h.1 h.2⟩
    | subscribe packetId subscribeList => exact ⟨_, needs_mqttCodecSubscribe packetId h.1 h.2⟩
    | unsubscribe packetId unsubscribeList => exact ⟨_, needs_mqttCodecUnsubscribe packetId h.1 h.2⟩
  obtain ⟨n, hn⟩ := hneeds
  exact (hn.isSome_iff okHeap).mpr (meets_okHeap n)

/-- No other request is built. -/
theorem never_packet {r : Request} (h : ¬r.Admitted) : r.packet.Never := by
  cases r with
  | connect mqttOptions => exact never_mqttCodecConnect h
  | publish qosValue duplicateMsg serverRetain packetId topicName msgBuffer =>
    refine never_mqttCodecPublish _ _ _ _ ?_
    rintro ⟨topicName, rfl, hok⟩
    exact h hok
  | subscribe packetId subscribeList =>
    refine never_mqttCodecSubscribe packetId ?_
    by_contra hno
    exact h ⟨fun hnil => hno (Or.inl hnil), fun item hitem => Nat.le_of_not_gt fun hlong => hno (Or.inr ⟨item, hitem, hlong⟩)⟩
  | unsubscribe packetId unsubscribeList =>
    refine never_mqttCodecUnsubscribe packetId ?_
    by_contra hno
    exact h ⟨fun hnil => hno (Or.inl hnil), fun topic htopic => Nat.le_of_not_gt fun hlong => hno (Or.inr ⟨topic, htopic, hlong⟩)⟩

theorem isSome_iff (r : Request) : (r.packet.answer okHeap).1.isSome ↔ r.Admitted := by
  refine ⟨fun h => ?_, Admitted.isSome⟩
  by_contra hne
  rw [never_packet hne okHeap] at h
  exact Bool.false_ne_true h

theorem admitted_of_produces {r : Request} {p : Buffer} (h : r.packet.Produces p) : r.Admitted := by
  obtain ⟨heap, hp⟩ := h
  by_contra hne
  rw [never_packet hne heap] at hp
  cases hp

theorem frugal_packet (r : Request) : r.packet.Frugal := by
  cases r with
  | connect mqttOptions => exact frugal_mqttCodecConnect mqttOptions
  | publish => exact frugal_mqttCodecPublish _ _ _ _ _ _
  | subscribe => exact frugal_mqttCodecSubscribe _ _
  | unsubscribe => exact frugal_mqttCodecUnsubscribe _ _

end Request

/-! ## Calls -/

section

variable {dispatch : List IoEvent → Session → Session} (hdraws : ∀ events s, Draws s (dispatch events s))

include hdraws

/-- `sendPacketItem` succeeds. -/
theorem sendPacketItem_generous {s : Session} (h : Generous s.env) (packet : Buffer) : (sendPacketItem dispatch s packet).2 = .zero := by
  have hhand : Draws s (s.handOver packet) := .one (t := s.handOver packet) .send
  have hafter : Generous (callBack dispatch (s.handOver packet)).env :=
    (hhand.trans (draws_callBack hdraws _)).lasts (fun _ _ hstep => hstep.generous) h
  have hsend : s.env.send.head = .zero := h.send 0
  rw [sendPacketItem_eq, hsend]
  generalize callBack dispatch (s.handOver packet) = t at hafter
  obtain ⟨currentMs, hclock⟩ := Option.ne_none_iff_exists'.mp (hafter.clock 0)
  have hask : t.env.clock.head = some currentMs := hclock
  simp [finishSend, Session.askClock, hask]

/-- A request succeeds exactly when it is built. -/
theorem sendRequest_zero_iff {s : Session} (h : Generous s.env) (t : ControlPacketType) {packet : Alloc Buffer} (hp : packet.Frugal) :
    (sendRequest dispatch s t packet).2 = .zero ↔ (packet.answer okHeap).1.isSome := by
  unfold sendRequest
  rcases halloc : s.alloc packet with ⟨_ | built, s'⟩
  all_goals
    have hanswer : (packet.answer s.env.heap).1 = _ := (Prod.mk.inj halloc).1
    rw [← h.heap, hanswer]
  · exact iff_of_false (fun hzero => by cases hzero) Bool.false_ne_true
  · have hbuilt : Generous s'.env := (draws_alloc hp halloc).lasts (fun _ _ hstep => hstep.generous) h
    exact iff_of_true (sendPacketItem_generous (s := { s' with client := { s'.client with packetState := t } }) hdraws hbuilt built) rfl

end

/-- A call succeeds exactly when its request is let through. -/
theorem callResult_zero_iff (depth : Nat) {w : World} (h : Generous w.callContext.env) {call : Call} {r : Request}
    (hr : call.request = some r) : callResult depth w call = .zero ↔ r.Admitted := by
  rw [← r.isSome_iff]
  have hsend := fun t => sendRequest_zero_iff (draws_deliver depth) h t r.frugal_packet
  cases call with
  | publish msgHandle =>
    cases msgHandle with
    | none => cases hr
    | some msgHandle =>
      obtain rfl := Option.some.inj hr
      exact hsend .publishType
  | subscribe packetId subscribeList =>
    rw [Call.request] at hr
    split at hr
    · cases hr
    · rename_i hgood
      obtain rfl := Option.some.inj hr
      rw [callResult, mqttClientSubscribe, if_neg hgood]
      exact hsend .subscribeType
  | unsubscribe packetId unsubscribeList =>
    rw [Call.request] at hr
    split at hr
    · cases hr
    · rename_i hgood
      obtain rfl := Option.some.inj hr
      rw [callResult, mqttClientUnsubscribe, if_neg hgood]
      exact hsend .unsubscribeType
  | _ => cases hr

/-! ## Runs -/

theorem granted_run (depth : Nat) {w : World} (h : Generous w.callContext.env) (calls : List Call) :
    ∀ q ∈ asked (results depth w calls), q.2 = .zero ↔ q.1.Admitted := by
  induction calls generalizing w with
  | nil => exact fun q hq => absurd hq List.not_mem_nil
  | cons call calls ih =>
    have hrest := ih ((draws_runCall depth w call).lasts (fun _ _ hstep => hstep.generous) h)
    intro q hq
    obtain ⟨c, hc, hcq⟩ := List.mem_filterMap.mp hq
    rcases List.mem_cons.mp hc with rfl | hc
    · obtain ⟨r, hr, rfl⟩ := Option.map_eq_some_iff.mp hcq
      exact callResult_zero_iff depth h hr
    · exact hrest q (List.mem_filterMap.mpr ⟨c, hc, hcq⟩)

/-- The requests that are answered are those that the calls make. -/
theorem requests_asked (depth : Nat) (w : World) (calls : List Call) :
    (asked (results depth w calls)).map Prod.fst = calls.filterMap Call.request := by
  induction calls generalizing w with
  | nil => rfl
  | cons call calls ih =>
    rw [List.filterMap_cons, ← ih (runCall depth w call), results, asked, List.filterMap_cons]
    cases call.request <;> rfl

/-- What is posted, when exactly the requests succeed that are let through. -/
theorem Posted.eq_of_granted {q : Request × MuResult} {l : List (Buffer × MuResult)} (h : Posted q l) (hq : q.2 = .zero ↔ q.1.Admitted) :
    (q.1.Admitted ∧ l = [(Buffer.ofBytes q.1.bytes, .zero)]) ∨ ¬q.1.Admitted ∧ l = [] := by
  cases h with
  | handedOver result hbuilt hzero =>
    have hadm := Request.admitted_of_produces hbuilt
    exact Or.inl ⟨hadm, by rw [hzero (hq.mpr hadm)]⟩
  | failed hne => exact Or.inr ⟨mt hq.mpr hne, rfl⟩

theorem outbox_of_granted {rs : List (Request × MuResult)} {l : List (Buffer × MuResult)} (h : Scripts Posted rs l)
    (hrs : ∀ q ∈ rs, q.2 = .zero ↔ q.1.Admitted) :
    l = (rs.filter fun q => q.1.Admitted).map fun q => (Buffer.ofBytes q.1.bytes, .zero) := by
  induction h with
  | nil => rfl
  | @cons q rs l more hfirst _ ih =>
    obtain ⟨hq, hrest⟩ := List.forall_mem_cons.mp hrs
    rcases hfirst.eq_of_granted hq with ⟨hadm, rfl⟩ | ⟨hadm, rfl⟩
    · rw [List.filter_cons_of_pos (by simpa using hadm), List.map_cons, ih hrest, List.singleton_append]
    · rw [List.filter_cons_of_neg (by simpa using hadm), ih hrest, List.nil_append]

/-- Where nothing fails, every request is granted: in surroundings whose allocator, `xio_send` and clock do not fail, whatever is called
back and whatever arrives, a request succeeds exactly when it can be encoded, and the packets that are handed over are those of the
requests that can, in the order of the calls and all of them accepted. No request is let through that `constructFixedHeader` has no room
for. -/
theorem run_grants_requests (fnOnErrorCallBack : Bool) (env : Env) (h : Generous env) (heap : Heap) (depth : Nat) (calls : List Call)
    (hroom : ∀ r ∈ calls.filterMap Call.request, r.Admitted → r.bodyLen ≤ 268435455) :
    let w := mqttClientInit fnOnErrorCallBack env heap
    (∀ q ∈ asked (results depth w calls), q.2 = .zero ↔ q.1.Encodable) ∧
      outbox (run depth w calls).callContext.history =
        ((asked (results depth w calls)).filter fun q => q.1.Encodable).map fun q => (Buffer.ofBytes q.1.bytes, .zero) := by
  have hgranted := granted_run depth (w := mqttClientInit fnOnErrorCallBack env heap) h calls
  obtain ⟨l, hl, houtbox⟩ := posted_run depth (mqttClientInit fnOnErrorCallBack env heap) calls
  have hiff : ∀ q ∈ asked (results depth (mqttClientInit fnOnErrorCallBack env heap) calls), q.1.Admitted ↔ q.1.Encodable := by
    intro q hq
    have hr : q.1 ∈ calls.filterMap Call.request := by
      rw [← requests_asked depth (mqttClientInit fnOnErrorCallBack env heap)]
      exact List.mem_map_of_mem hq
    exact ⟨fun hadm => ⟨hadm, hroom q.1 hr hadm⟩, And.left⟩
  refine ⟨fun q hq => (hgranted q hq).trans (hiff q hq), ?_⟩
  rw [houtbox]
  refine (outbox_of_granted hl hgranted).trans (congrArg (List.map _) (List.filter_congr fun q hq => ?_))
  exact decide_eq_decide.mpr (hiff q hq)

/-- On an opened connection, a subscription to no topic, and one that is granted while the xio closes the connection. -/
theorem run_grants_requests_closed :
    let env : Env := { calmEnv with sync := Stream'.cons [] (Stream'.cons [] (Stream'.const [.closeComplete])) }
    let calls : List Call := openedWith 1 0 ++ [.subscribe 7 [], .subscribe 7 [⟨letterA, .deliverAtMostOnce⟩]]
    let w := mqttClientInit false env okHeap
    (∀ q ∈ asked (results 2 w calls), q.2 = .zero ↔ q.1.Encodable) ∧
      outbox (run 2 w calls).callContext.history =
        ((asked (results 2 w calls)).filter fun q => q.1.Encodable).map fun q => (Buffer.ofBytes q.1.bytes, .zero) :=
  run_grants_requests false { calmEnv with sync := Stream'.cons [] (Stream'.cons [] (Stream'.const [.closeComplete])) }
    ⟨rfl, fun _ => rfl, fun _ => Option.some_ne_none 0⟩ okHeap 2 _ (by decide +kernel)

end Umqtt
