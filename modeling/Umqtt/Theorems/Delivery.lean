import Umqtt.Theorems.Granted
import Umqtt.Theorems.Relay

/-!
# Nothing is lost

Where the allocator does not fail, the application is told all that the packets say, whatever the xio, the clock and the application itself
do (`run_tells_all`). A client whose `xio_send` and clock do not fail either loses no message that it publishes, so between the two everything
that is published arrives (`relay_all`).
-/

namespace Umqtt

open Alloc Transcript Scan

/-! ## Packets that are scanned -/

/-- A body that a length of at most three bytes can announce. -/
def Delivery.Short (d : Delivery) : Prop := (bodyOf d.headerData).length ≤ 2097151

theorem length_readPacket {heap left : Heap} {bytes rest : List UInt8} {p : Packet} (h : readPacket heap bytes = .item p rest left) :
    p.body.length ≤ 2097151 := by
  rcases bytes with _ | ⟨first, bytes⟩
  · cases h
  rw [readPacket] at h
  split at h
  · split at h
    · rcases bytes with _ | ⟨b, bytes⟩
      · cases h
      · rw [readPingresp] at h
        split at h
        · obtain ⟨rfl, -, -⟩ := Reading.item.inj h
          exact Nat.zero_le _
        · cases h
    · rw [readRest] at h
      split at h
      · cases h
      · cases h
      · split at h <;> cases h
      · rename_i n rest' hlen
        obtain ⟨len, hbytes, -⟩ := (readLength_iff bytes (n + 1) rest').mp hlen
        have hlt := Groups.value_lt (b := 128) (by decide) (len.map UInt8.toNat)
        rw [hbytes.value_eq, List.length_map] at hlt
        have hpow : 128 ^ len.length ≤ 128 ^ 3 := Nat.pow_le_pow_right (by decide) hbytes.length_le
        unfold readBody at h
        split at h
        · split at h
          · cases h
          · obtain ⟨rfl, -, -⟩ := Reading.item.inj h
            have htake := List.length_take_le (n + 1) rest'
            have hcube : 128 ^ 3 = 2097152 := by norm_num
            dsimp only
            omega
        · cases h
  · cases h

/-- Every packet that is scanned is short. -/
theorem short_scanned (heap : Heap) (buffers : List (Option (List UInt8))) : ∀ p ∈ scanned heap buffers, p.delivery.Short := by
  have hall : ∀ sc : Scanner Heap UInt8 Packet, (∀ p ∈ sc.items, p.body.length ≤ 2097151) →
      ∀ p ∈ (buffers.foldl takeChunk sc).items, p.body.length ≤ 2097151 := by
    induction buffers with
    | nil => exact fun _ h => h
    | cons buffer buffers ih =>
      refine fun sc h => ih (takeChunk sc buffer) ?_
      rcases buffer with _ | _ | ⟨b, bytes⟩
      · exact h
      · exact h
      · exact Scanner.forall_take (r := packets) length_readPacket h _
  intro p hp
  rw [Delivery.Short, Packet.delivery, p.bodyOf_headerData]
  exact hall _ (fun p hp => absurd hp List.not_mem_nil) p hp

/-- A packet that says something and is short is not lost for what it is. -/
theorem Delivery.Short.wholesome {d : Delivery} (h : d.Short) (hsaid : d.said ≠ []) : Wholesome d.packet d.flags (bodyOf d.headerData) := by
  refine ⟨fun hpub hnone => hsaid ?_, fun hsub => ?_⟩
  · have hheard : d.heard = none := by rw [Delivery.heard, hpub, Umqtt.heard, hnone, Option.map_none]
    rw [Delivery.said, if_neg (show d.packet ≠ .subackType from hpub ▸ by decide), hheard]
    split <;> rfl
  · have htwo : 2 ≤ (bodyOf d.headerData).length := by
      by_contra hlt
      refine hsaid ?_
      rw [Delivery.said, if_pos hsub, if_neg hlt]
      split <;> rfl
    have hmax : 4 * 2097151 < sizeMax := by decide
    have hle : (bodyOf d.headerData).length ≤ 2097151 := h
    rw [subackRemainLen_eq htwo (by omega), safeMultiplySizeT, sizeofQosValue]
    generalize sizeMax = m at hmax ⊢
    rw [if_neg (by omega)]
    omega

/-! ## What is heard where the allocator does not fail -/

section

variable {β : Type} (say : Delivery → List β) (hear : Action → Option β)

/-- Answers are used up on the way, and unless the allocator fails, all is heard that short packets say. -/
structure Tells (s t : Session) : Prop where
  draws : Draws s t
  whole : s.env.heap = okHeap → ∃ added, t.history = s.history ++ added ∧
    Scripts (fun d out => d.Short → out = say d) (deliveries added) (added.filterMap hear)

variable {say hear} {s t u : Session}

theorem Tells.refl (s : Session) : Tells say hear s s := ⟨.refl s, fun _ => ⟨[], (List.append_nil _).symm, .nil⟩⟩

theorem Tells.trans (h : Tells say hear s t) (h' : Tells say hear t u) : Tells say hear s u := by
  refine ⟨h.draws.trans h'.draws, fun hs => ?_⟩
  have ht : t.env.heap = okHeap := h.draws.lasts (fun _ _ hstep => hstep.okHeap) hs
  obtain ⟨added, hadded, hscripts⟩ := h.whole hs
  obtain ⟨more, hmore, hscripts'⟩ := h'.whole ht
  refine ⟨added ++ more, by rw [hmore, hadded, List.append_assoc], ?_⟩
  rw [deliveries_append, List.filterMap_append]
  exact hscripts.append hscripts'

variable (hspoken : ∀ a : Action, a.isSpoken = false → hear a = none)

include hspoken

/-- What is observed is all that matters. -/
theorem heard_of_speaks {l : List Action} (h : Speaks s t l) :
    ∃ added, t.history = s.history ++ added ∧ deliveries added = deliveries l ∧ added.filterMap hear = l.filterMap hear := by
  obtain ⟨added, hadded, rfl⟩ := h
  have hpacket : ∀ a : Action, a.isSpoken = false → a.asDelivery = none := by
    intro a ha
    cases a with
    | packet => exact absurd ha (by simp [Action.isSpoken])
    | _ => rfl
  exact ⟨added, hadded, (filterMap_spoken hpacket added).symm, (filterMap_spoken hspoken added).symm⟩

variable (hquiet : ∀ a : Action, a.Unrelated → hear a = none)

include hquiet

/-- What is not about a packet tells nothing. -/
theorem Tells.of_speaks {l : List Action} (hdraws : Draws s t) (h : Speaks s t l) (hl : ∀ a ∈ l, a.Unrelated) : Tells say hear s t := by
  refine ⟨hdraws, fun _ => ?_⟩
  obtain ⟨added, hadded, hdeliveries, hheard⟩ := heard_of_speaks hspoken h
  have hsilent : l.filterMap hear = [] := List.filterMap_eq_nil_iff.mpr fun a ha => hquiet a (hl a ha)
  have hnone : deliveries l = [] := by
    refine List.filterMap_eq_nil_iff.mpr fun a ha => ?_
    have hun := hl a ha
    cases a with
    | packet => exact absurd hun id
    | _ => rfl
  refine ⟨added, hadded, ?_⟩
  rw [hdeliveries, hheard, hnone, hsilent]
  exact .nil

variable (hleads : ∀ d l, Leads d l → Faithful say hear l) (hempty : ∀ d : Delivery, d.said = [] → say d = [])

section

variable {dispatch : List IoEvent → Session → Session} (hd : ∀ events s, Adds Action.Nested s (dispatch events s))
  (hdraws : ∀ events s, Draws s (dispatch events s))

include hleads hempty hd hdraws

omit hquiet in
/-- A packet. -/
theorem tells_recvCompleteCallback (packet : ControlPacketType) (flags : UInt8) (headerData : Option Buffer) (s : Session) :
    Tells say hear s (recvCompleteCallback dispatch packet flags headerData s) := by
  refine ⟨draws_recvCompleteCallback hdraws packet flags headerData s, fun hheap => ?_⟩
  obtain ⟨l, hl, hspeaks⟩ := speaks_recvCompleteCallback hd packet flags headerData s
  obtain ⟨added, hadded, hdeliveries, hheard⟩ := heard_of_speaks hspoken hspeaks
  obtain ⟨haligned, hcomplete⟩ := hleads _ _ hl
  have hone : deliveries l = [⟨packet, flags, headerData⟩] := by
    obtain ⟨rest, rfl, hrest⟩ := hl.cases
    exact congrArg (_ :: ·) (deliveries_said hrest)
  rw [hone] at haligned hcomplete
  refine ⟨added, hadded, ?_⟩
  rw [hdeliveries, hheard, hone]
  refine .one fun hshort => ?_
  by_cases hsaid : Delivery.said ⟨packet, flags, headerData⟩ = []
  · -- what says nothing is heard as nothing, lost or not
    rw [hempty _ hsaid]
    rcases haligned.of_one with hout | hout
    · rw [hout, hempty _ hsaid]
    · exact hout
  · have hspares := spares_recvCompleteCallback hd hheap (hshort.wholesome hsaid)
    rw [hcomplete (not_loss_of_speaks hspeaks hspares), List.flatMap_singleton]

/-- A chunk. -/
theorem tells_onBytesReceived (w : World) (buffer : Option (List UInt8)) :
    Tells say hear w.callContext (onBytesReceived dispatch w buffer).callContext := by
  have hchunk : Tells say hear w.callContext (w.callContext.log (.bytesReceived buffer)) :=
    .of_speaks hspoken hquiet (.refl _) (speaks_log _ rfl) fun a ha => List.mem_singleton.mp ha ▸ trivial
  have hbytes := bytesReceived_preserves (P := fun s => Tells say hear w.callContext s)
    (fun packet flags headerData s hs =>
      hs.trans (tells_recvCompleteCallback hspoken hleads hempty hd hdraws packet flags headerData s))
    (c := { w with callContext := w.callContext.log (.bytesReceived buffer) }) hchunk buffer
  unfold onBytesReceived
  dsimp only
  split
  · exact hbytes.trans (.of_speaks hspoken hquiet (draws_setErrorCallback hdraws _ _) (speaks_setErrorCallback hd _ rfl)
      fun a ha => List.mem_singleton.mp ha ▸ trivial)
  · exact hbytes

theorem tells_handleWork (w : World) (event : WorkEvent) :
    Tells say hear w.callContext (handleWork dispatch w event).callContext := by
  cases event with
  | io e =>
    exact .of_speaks hspoken hquiet (draws_handleEvent hdraws _ e) (speaks_nested (nested_handleEvent hd _ e))
      fun a ha => absurd ha List.not_mem_nil
  | bytes buffer => exact tells_onBytesReceived hspoken hquiet hleads hempty hd hdraws w buffer

theorem tells_handleWorks (w : World) (events : List WorkEvent) :
    Tells say hear w.callContext (events.foldl (handleWork dispatch) w).callContext := by
  induction events generalizing w with
  | nil => exact .refl _
  | cons event events ih => exact (tells_handleWork hspoken hquiet hleads hempty hd hdraws w event).trans (ih _)

theorem tells_mqttClientDowork (w : World) (events : List WorkEvent) :
    Tells say hear w.callContext (mqttClientDowork dispatch w events).callContext := by
  unfold mqttClientDowork
  split
  · exact .refl _
  · split
    · have hclose : Speaks w.callContext (closeConnection dispatch w.callContext) [] := speaks_nested (nested_closeConnection hd _)
      exact .of_speaks hspoken hquiet (draws_closeConnection hdraws w.callContext) (hclose.of_log rfl rfl)
        fun a ha => absurd ha List.not_mem_nil
    · have hwork : Tells say hear w.callContext (w.callContext.log (.xioDowork w.callContext.client.xioHandle)) :=
        .of_speaks hspoken hquiet (.refl _) (speaks_silent _ rfl) fun a ha => absurd ha List.not_mem_nil
      have hworks := hwork.trans (tells_handleWorks hspoken hquiet hleads hempty hd hdraws
        { w with callContext := w.callContext.log (.xioDowork w.callContext.client.xioHandle) } events)
      obtain ⟨l, hl, hspeaks⟩ := speaks_keepAlive hd (events.foldl (handleWork dispatch)
        { w with callContext := w.callContext.log (.xioDowork w.callContext.client.xioHandle) }).callContext
      exact hworks.trans (.of_speaks hspoken hquiet (draws_keepAlive hdraws _) hspeaks hl.unrelated)

end

include hleads hempty

theorem tells_runCall (depth : Nat) (w : World) (call : Call) : Tells say hear w.callContext (runCall depth w call).callContext := by
  have hd := nested_deliver depth
  have hdraws := draws_deliver depth
  cases call with
  | dowork events => exact tells_mqttClientDowork hspoken hquiet hleads hempty hd hdraws w events
  | xio event => exact tells_handleWork hspoken hquiet hleads hempty hd hdraws w event
  | _ =>
    obtain ⟨l, hl, hspeaks⟩ := speaks_runCall depth w _
    exact .of_speaks hspoken hquiet (draws_runCall depth w _) hspeaks (hl.unrelated rfl)

theorem tells_run (depth : Nat) (w : World) (calls : List Call) : Tells say hear w.callContext (run depth w calls).callContext := by
  induction calls generalizing w with
  | nil => exact .refl _
  | cons call calls ih => exact (tells_runCall hspoken hquiet hleads hempty depth w call).trans (ih _)

/-- What is heard in a run is what the packets say that are scanned from the chunks. -/
theorem heard_run (fnOnErrorCallBack : Bool) {env : Env} (henv : env.heap = okHeap) (heap : Heap) (depth : Nat) (calls : List Call) :
    (run depth (mqttClientInit fnOnErrorCallBack env heap) calls).callContext.history.filterMap hear =
      (scanned heap (chunks (run depth (mqttClientInit fnOnErrorCallBack env heap) calls).callContext.history)).flatMap
        fun p => say p.delivery := by
  obtain ⟨added, hadded, hscripts⟩ :=
    (tells_run hspoken hquiet hleads hempty depth (mqttClientInit fnOnErrorCallBack env heap) calls).whole henv
  have hhist : (run depth (mqttClientInit fnOnErrorCallBack env heap) calls).callContext.history = added := hadded
  have hdeliveries := deliveries_replay fnOnErrorCallBack env heap depth calls
  rw [replay_scanned, hhist] at hdeliveries
  rw [hdeliveries, scripts_map] at hscripts
  rw [hhist]
  exact hscripts.eq_flatMap fun p hp => short_scanned _ _ p hp

end

/-- The application is told what the packets say. -/
theorem told_run (fnOnErrorCallBack : Bool) {env : Env} (henv : env.heap = okHeap) (heap : Heap) (depth : Nat) (calls : List Call) :
    told (run depth (mqttClientInit fnOnErrorCallBack env heap) calls).callContext.history =
      (scanned heap (chunks (run depth (mqttClientInit fnOnErrorCallBack env heap) calls).callContext.history)).flatMap
        fun p => p.delivery.said :=
  heard_run (fun _ => asHeard_of_unspoken) (fun _ => asHeard_of_unrelated) (fun _ _ => faithful_told) (fun _ h => h) fnOnErrorCallBack henv
    heap depth calls

/-- Where the allocator does not fail, nothing is lost, whatever else happens in a run: the application is told what the packets scanned
from the chunks say, all of it and in order, and the PUBRELs and PUBCOMPs that are handed over are all those that the packets ask for. -/
theorem run_tells_all (fnOnErrorCallBack : Bool) (env : Env) (henv : env.heap = okHeap) (heap : Heap) (depth : Nat) (calls : List Call) :
    let h := (run depth (mqttClientInit fnOnErrorCallBack env heap) calls).callContext.history
    told h = (scanned heap (chunks h)).flatMap (fun p => p.delivery.said) ∧
      handshakes h = (scanned heap (chunks h)).flatMap fun p => p.delivery.handshake := by
  have hempty : ∀ d : Delivery, d.said = [] → d.handshake = [] := by
    intro d hd
    rw [Delivery.handshake, hd, List.flatMap_nil]
  refine ⟨told_run fnOnErrorCallBack henv heap depth calls, ?_⟩
  exact heard_run (fun _ => asHandshake_of_unspoken) (fun _ => asHandshake_of_unrelated) (fun _ _ => faithful_handshakes) hempty
    fnOnErrorCallBack henv heap depth calls

/-- A PUBREC in two chunks, for a client whose `xio_send` fails. -/
theorem run_tells_all_pubrec :
    let env : Env := { calmEnv with send := Stream'.const .muFailure }
    let h := (run 1 (mqttClientInit true env okHeap) [.xio (.bytes (some [0x50, 2, 0])), .xio (.bytes (some [7]))]).callContext.history
    told h = (scanned okHeap (chunks h)).flatMap (fun p => p.delivery.said) ∧
      handshakes h = (scanned okHeap (chunks h)).flatMap fun p => p.delivery.handshake :=
  run_tells_all true { calmEnv with send := Stream'.const .muFailure } rfl okHeap 1 _

/-! ## From one client to another -/

/-- A readable PUBLISH is let through. -/
theorem Request.Relayed.admitted {r : Request} (h : r.Relayed) (hm : r.message ≠ none) : r.Admitted := by
  cases r with
  | publish qosValue duplicateMsg serverRetain packetId topicName msgBuffer =>
    cases topicName with
    | none => exact absurd h id
    | some topicName =>
      have hlen : msgBuffer.length ≤ maxSendSize := by
        have hmax : 2097151 ≤ maxSendSize := by decide
        have hbody := h.length_le
        rw [publishBody, List.length_append] at hbody
        omega
      exact ⟨h.topic.2, hlen⟩
  | _ => exact absurd rfl hm

/-- Of requests that succeed when they are let through, no message is lost with those that do not succeed. -/
theorem messagesOf_succeeded {rs : List (Request × MuResult)} (hreadable : ∀ q ∈ rs, q.1.Relayed)
    (hgranted : ∀ q ∈ rs, q.2 = .zero ↔ q.1.Admitted) : messagesOf (rs.filter fun q => q.2 = .zero) = messagesOf rs := by
  rw [messagesOf, messagesOf, List.filterMap_filter]
  refine List.filterMap_congr ?_
  intro q hq
  by_cases hm : q.1.message = none
  · simp [hm]
  · have hzero : q.2 = .zero := (hgranted q hq).mpr ((hreadable q hq).admitted hm)
    simp [hzero]

/-- Everything that is published arrives: between a client in surroundings that do not fail and one whose allocator does not fail, the
second is told exactly what the first publishes, in the order of the calls and each message once, as far as the bytes have come and
whatever else the two clients do. -/
theorem relay_all (sender receiver : ClientRun) (hreadable : ∀ q ∈ sender.requests, q.1.Relayed) (hsender : Generous sender.env)
    (hmemory : receiver.env.heap = okHeap) (hheap : receiver.heap = okHeap) {bufs : List (List UInt8)} (hne : ∀ buf ∈ bufs, buf ≠ [])
    (hbufs : chunks receiver.history = bufs.map some) :
    (bufs.flatten <+: sender.published → told receiver.history <+: messagesOf sender.requests) ∧
      (bufs.flatten = sender.published → told receiver.history = messagesOf sender.requests) := by
  obtain ⟨sent, hsub, hzero, ps, hframed, hwire, hsaid⟩ := sender.published_spec hreadable
  have hgranted : ∀ q ∈ sender.requests, q.2 = .zero ↔ q.1.Admitted :=
    granted_run sender.depth (w := sender.start) hsender sender.calls
  have hsent : messagesOf sent = messagesOf sender.requests := by
    refine (hsub.filterMap _).antisymm ?_
    have hall := hzero.filterMap fun r : Request × MuResult => r.1.message.map Heard.message
    rwa [← messagesOf, messagesOf_succeeded hreadable hgranted] at hall
  have hreplay : deliveries receiver.history = (replay ⟨mqttCodecCreate, receiver.heap, []⟩ (chunks receiver.history)).callContext :=
    deliveries_replay receiver.fnOnErrorCallBack receiver.env receiver.heap receiver.depth receiver.calls
  have htold : told receiver.history = (deliveries receiver.history).flatMap Delivery.said := by
    rw [hreplay, replay_scanned, List.flatMap_map]
    exact told_run receiver.fnOnErrorCallBack hmemory receiver.heap receiver.depth receiver.calls
  have hmessages : (ps.map Packet.delivery).flatMap Delivery.said = messagesOf sender.requests := by
    rw [List.flatMap_map, hsaid, hsent]
  rw [hbufs, hheap] at hreplay
  rw [htold, hreplay, hwire, ← hmessages]
  refine ⟨fun hcut => (replay_cut hframed hne hcut).1.flatMap _, fun heq => ?_⟩
  rw [(replay_cut hframed hne (heq ▸ List.prefix_refl _)).2 heq]

/-- The two messages, and the second but for its payload. -/
theorem relay_all_twoMessages :
    ([[0x32, 7, 0], [1, 97, 0, 7, 1, 2, 0x30, 4, 0, 1, 97]].flatten <+: twoMessages.published →
        told twoChunks.history <+: messagesOf twoMessages.requests) ∧
      ([[0x32, 7, 0], [1, 97, 0, 7, 1, 2, 0x30, 4, 0, 1, 97]].flatten = twoMessages.published →
        told twoChunks.history = messagesOf twoMessages.requests) :=
  relay_all twoMessages twoChunks (by decide +kernel) ⟨rfl, fun _ => rfl, fun _ => Option.some_ne_none 0⟩ rfl rfl (by decide)
    (by decide +kernel)

end Umqtt
