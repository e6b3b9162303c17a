import Umqtt.Lemmas.Answers
import Umqtt.Theorems.Connected

/-!
# The acknowledgement protocol over a stream

For every well-formed packet of a stream the client makes the callback that the packet says, and answers it with one reply or none
(`Acknowledges`). A packet that the decoder does not take ends this: it and what follows it in the same call is lost.
-/

namespace Umqtt

open Feed Alloc

/-! ## Streams -/

namespace Packet

/-- What a packet says. -/
def heard (p : Packet) : Option Heard := Umqtt.heard p.type p.flags p.body

/-- How a packet is delivered. -/
def delivery (p : Packet) : Delivery := ⟨p.type, p.flags, p.headerData⟩

/-- A well-formed packet that is no error: type and flags are accepted, the remaining length is one that four bytes can hold, a
PINGRESP is empty, and the packet says something. -/
structure WellFormed (p : Packet) : Prop where
  accepted : p.Accepted
  length_le : p.body.length ≤ 268435455
  pingresp : p.type = .pingrespType → p.body = []
  heard : p.heard ≠ none

/-- The body has at most 2097151 bytes, and at least one unless the packet is a PINGRESP. -/
def Taken (p : Packet) : Prop := p.body.length ≤ 2097151 ∧ (p.body = [] → p.type = .pingrespType)

instance (p : Packet) : Decidable p.Taken := inferInstanceAs (Decidable (_ ∧ _))

instance (p : Packet) : Decidable p.WellFormed :=
  decidable_of_iff (p.Accepted ∧ p.body.length ≤ 268435455 ∧ (p.type = .pingrespType → p.body = []) ∧ p.heard ≠ none)
    ⟨fun ⟨h1, h2, h3, h4⟩ => ⟨h1, h2, h3, h4⟩, fun ⟨h1, h2, h3, h4⟩ => ⟨h1, h2, h3, h4⟩⟩

theorem WellFormed.framed {p : Packet} (h : p.WellFormed) (ht : p.Taken) : p.Framed := by
  refine ⟨h.accepted, ?_⟩
  split
  · rename_i hping
    exact h.pingresp hping
  · rename_i hping
    exact ⟨List.length_pos_iff.mpr fun he => hping (ht.2 he), ht.1⟩

theorem bodyOf_headerData (p : Packet) : bodyOf p.headerData = p.body := by
  rw [headerData]
  split
  · rename_i he
    rw [he]
    rfl
  · exact bytes_ofBytes p.body

theorem heard_delivery (p : Packet) : p.delivery.heard = p.heard := by
  simp only [Delivery.heard, delivery, bodyOf_headerData, heard]

/-- A taken packet is handled. -/
theorem WellFormed.handled {p : Packet} (h : p.WellFormed) (ht : p.Taken) : ∃ x, p.delivery.Handled x := by
  obtain ⟨x, hx⟩ := Option.ne_none_iff_exists'.mp h.heard
  refine ⟨x, p.heard_delivery.trans hx, ?_, ?_⟩
  · simpa only [delivery, bodyOf_headerData] using h.length_le
  · simp only [delivery, bodyOf_headerData]
    by_cases he : p.body = []
    · exact Or.inr (ht.2 he)
    · exact Or.inl (List.length_pos_iff.mpr he)

end Packet

/-- The callbacks that a stream makes. -/
def callbacksOf (ps : List Packet) (acks : Stream' MqttClientAckOption) : List Exchange := callbacks (ps.filterMap Packet.heard) acks

theorem filterMap_heard_delivery (ps : List Packet) : (ps.map Packet.delivery).filterMap Delivery.heard = ps.filterMap Packet.heard := by
  rw [List.filterMap_map]
  exact List.filterMap_congr fun p _ => p.heard_delivery

theorem foldl_deliver_record (ps : List Packet) (log : List Delivery) :
    ps.foldl (Packet.deliver record) log = log ++ ps.map Packet.delivery := by
  induction ps generalizing log with
  | nil => simp
  | cons p ps ih =>
    rw [List.foldl_cons, ih, Packet.deliver, record, List.append_assoc]
    rfl

/-! ## Replies -/

/-- A reply is a packet of four bytes, which a created codec decodes to its type, flags and packet id. -/
structure Redecodes (r : Reply) : Prop where
  bytes : r.bytes = [r.type.toByte ||| r.flags, 2, (r.packetId / 256).toUInt8, (r.packetId % 256).toUInt8]
  decoded : ∃ body inst, idOf body = r.packetId ∧
    mqttCodecBytesReceived record ⟨mqttCodecCreate, okHeap, []⟩ (some r.bytes) =
      (⟨inst, okHeap, [⟨r.type, r.flags, some (Buffer.ofBytes body)⟩]⟩, .zero)

/-- Every reply that is sent can be decoded. -/
theorem redecodes_replyTo {x : Exchange} {r : Reply} (h : replyTo x = some r) : Redecodes r := by
  -- the four kinds of replies, as to type and flags
  have hkinds : ∀ k ∈ [(ControlPacketType.pubackType, (0 : UInt8)), (.pubrecType, 0), (.pubrelType, 2), (.pubcompType, 0)],
      (packetTypeByte (k.1.toByte ||| k.2) = k.1 ∧ flagValueByte (k.1.toByte ||| k.2) = k.2) ∧
        firstByteAccepted k.1 k.2 = true ∧ k.1 ≠ .pingrespType := by decide
  have hkind := hkinds (r.type, r.flags) (by
    rw [replyTo.eq_def] at h
    split at h
    · split at h
      · simp [← Option.some.inj h]
      · simp [← Option.some.inj h]
      · exact absurd h (by simp)
    · simp [← Option.some.inj h]
    · simp [← Option.some.inj h]
    · exact absurd h (by simp))
  obtain ⟨⟨htype, hflags⟩, hacc, hping⟩ := hkind
  refine ⟨rfl, [(r.packetId / 256).toUInt8, (r.packetId % 256).toUInt8], ?_⟩
  have hframed : Packet.Framed ⟨r.type.toByte ||| r.flags, [(r.packetId / 256).toUInt8, (r.packetId % 256).toUInt8]⟩ := by
    refine ⟨by rw [Packet.Accepted, Packet.type, Packet.flags, htype, hflags]; exact hacc, ?_⟩
    rw [Packet.type, htype, if_neg hping]
    exact ⟨by simp, by simp⟩
  obtain ⟨off, hfeed⟩ := feed_packet record hframed 0 []
  refine ⟨startAt off, idOf_bytes r.packetId, ?_⟩
  rw [startAt_zero] at hfeed
  have hwire : Packet.wire ⟨r.type.toByte ||| r.flags, [(r.packetId / 256).toUInt8, (r.packetId % 256).toUInt8]⟩ = r.bytes := by
    rw [Packet.wire, lenField_lt (by simp)]
    rfl
  rw [bytesReceived_of_ne_nil record (by simp [Reply.bytes, replyBytes]), ← hwire, hfeed]
  simp only [Packet.deliver, Packet.type, Packet.flags, htype, hflags, record, List.nil_append, Packet.headerData]
  rfl

/-! ## Replaying a stream -/

/-- A stream of framed packets, cut into chunks, is delivered packet by packet, and no call fails. -/
theorem replay_framed {ps : List Packet} (h : ∀ p ∈ ps, p.Framed) {chunks : List (List UInt8)} (hne : ∀ chunk ∈ chunks, chunk ≠ [])
    (hcut : chunks.flatten = wireOf ps) :
    (receiveChunks record ⟨mqttCodecCreate, okHeap, []⟩ chunks).2 = List.replicate chunks.length .zero ∧
      (replay ⟨mqttCodecCreate, okHeap, []⟩ (chunks.map some)).callContext = ps.map Packet.delivery := by
  obtain ⟨off, hfeed⟩ := feed_wireOf record h 0 []
  rw [startAt_zero] at hfeed
  have hchunks := receiveChunks_eq_feedAll record hne ⟨mqttCodecCreate, okHeap, []⟩
  rw [feedAll_of_flatten (by rw [hcut, hfeed]), hcut, hfeed, foldl_deliver_record, List.nil_append] at hchunks
  refine ⟨by rw [hchunks], ?_⟩
  rw [replay_eq_receiveChunks (by rw [hchunks]), hchunks]

/-- When a packet that is not taken comes after framed ones, one call with the whole stream delivers these and no more. -/
theorem replay_untaken {good rest : List Packet} {bad : Packet} (hgood : ∀ p ∈ good, p.Framed) (hacc : bad.Accepted)
    (hping : bad.type = .pingrespType → bad.body = []) (hbad : ¬bad.Taken) :
    (replay ⟨mqttCodecCreate, okHeap, []⟩ [some (wireOf (good ++ bad :: rest))]).callContext = good.map Packet.delivery := by
  have htype : bad.type ≠ .pingrespType := by
    intro ht
    refine hbad ⟨?_, fun _ => ht⟩
    rw [hping ht]
    exact Nat.zero_le _
  have hbody : bad.body = [] ∨ 2097152 ≤ bad.body.length := by
    by_contra hno
    rw [not_or] at hno
    exact hbad ⟨by omega, fun he => absurd he hno.1⟩
  obtain ⟨off, hfeed⟩ := feed_wireOf record hgood 0 []
  rw [startAt_zero] at hfeed
  have hsplit : wireOf (good ++ bad :: rest) = wireOf good ++ (bad.wire ++ wireOf rest) := by simp [wireOf]
  have hne : wireOf (good ++ bad :: rest) ≠ [] := by simp [hsplit, Packet.wire]
  have hcall : (mqttCodecBytesReceived record ⟨mqttCodecCreate, okHeap, []⟩ (some (wireOf (good ++ bad :: rest)))).1.callContext =
      good.map Packet.delivery := by
    rw [bytesReceived_of_ne_nil record hne, hsplit, feed_append _ (by rw [hfeed]), hfeed,
      feed_unframed record off okHeap _ hacc htype hbody, foldl_deliver_record, List.nil_append]
  simp only [replay, List.foldl_cons, List.foldl_nil, replayChunk]
  split
  · exact hcall
  · exact hcall

/-- One call with a whole stream delivers the packets before the first that is not taken. -/
theorem replay_wireOf {ps : List Packet} (h : ∀ p ∈ ps, p.WellFormed) :
    (replay ⟨mqttCodecCreate, okHeap, []⟩ ([wireOf ps].map some)).callContext =
      (ps.takeWhile (fun p => p.Taken)).map Packet.delivery := by
  have hgood : ∀ p ∈ ps.takeWhile (fun p => p.Taken), p.Framed := by
    intro p hp
    exact (h p (List.takeWhile_subset _ hp)).framed (by simpa using List.mem_takeWhile_imp hp)
  have hsplit : ps = ps.takeWhile (fun p => p.Taken) ++ ps.dropWhile (fun p => p.Taken) := List.takeWhile_append_dropWhile.symm
  generalize ps.takeWhile (fun p => p.Taken) = good at hgood hsplit
  rcases hrest : ps.dropWhile (fun p => p.Taken) with _ | ⟨bad, rest⟩
  · rw [hrest, List.append_nil] at hsplit
    subst hsplit
    by_cases hnil : ps = []
    · rw [hnil]
      rfl
    · refine (replay_framed hgood (fun chunk hchunk => ?_) (by simp)).2
      rw [List.mem_singleton.mp hchunk]
      obtain ⟨p, ps, rfl⟩ := List.exists_cons_of_ne_nil hnil
      simp [wireOf, Packet.wire]
  · have hwf : bad.WellFormed := h bad (List.dropWhile_subset _ (hrest ▸ List.mem_cons_self))
    have hbad : ¬bad.Taken := by
      have hhead := List.head?_dropWhile_not (fun p : Packet => decide p.Taken) ps
      rw [hrest] at hhead
      simpa using hhead
    rw [hrest] at hsplit
    rw [hsplit]
    exact replay_untaken hgood hwf.accepted hwf.pingresp hbad

/-! ## The protocol -/

/-- The stream, received in these chunks, is acknowledged as it should be: the callbacks are those of its packets, in order, each
followed by its reply, nothing else is sent, and the replies can be decoded. -/
def Acknowledges (depth : Nat) (w : World) (ps : List Packet) (chunks : List (List UInt8)) : Prop :=
  (∃ out, exchanges (receive depth w chunks).callContext.history = exchanges w.callContext.history ++ out ∧
      out.filter (fun x => !x.isError) = (callbacksOf ps w.callContext.env.ack).flatMap answered) ∧
    ∀ x ∈ callbacksOf ps w.callContext.env.ack, ∀ r, replyTo x = some r → Redecodes r

/-- What a stream of packets that are all taken, or that ends with the first that is not, shows. -/
theorem shows_stream (calmly : Prop) (depth : Nat) {w : World} (hinst : w.inst = mqttCodecCreate) (hheap : w.heap = okHeap)
    (hcalm : Calm w.callContext.env) {ps : List Packet} (hps : ∀ p ∈ ps, p.WellFormed ∧ p.Taken) {chunks : List (List UInt8)}
    (hzero : calmly → (receiveChunks record ⟨mqttCodecCreate, okHeap, []⟩ chunks).2 = List.replicate chunks.length .zero)
    (hreplay : (replay ⟨mqttCodecCreate, okHeap, []⟩ (chunks.map some)).callContext = ps.map Packet.delivery) :
    Shows calmly w.callContext (receive depth w chunks).callContext (askCount (ps.filterMap Packet.heard))
      ((callbacksOf ps w.callContext.env.ack).flatMap answered) := by
  have hshows := shows_receive calmly depth hinst hheap hcalm chunks hzero (by
    rw [hreplay]
    intro d hd
    obtain ⟨p, hp, rfl⟩ := List.mem_map.mp hd
    exact (hps p hp).1.handled (hps p hp).2)
  rw [hreplay, filterMap_heard_delivery] at hshows
  exact hshows

/-- A stream of well-formed packets that are taken is acknowledged, however it is cut. -/
theorem acknowledges_of_taken (depth : Nat) {w : World} (hinst : w.inst = mqttCodecCreate) (hheap : w.heap = okHeap)
    (hcalm : Calm w.callContext.env) {ps : List Packet} (hps : ∀ p ∈ ps, p.WellFormed ∧ p.Taken) {chunks : List (List UInt8)}
    (hne : ∀ chunk ∈ chunks, chunk ≠ []) (hcut : chunks.flatten = wireOf ps) : Acknowledges depth w ps chunks := by
  obtain ⟨hzero, hreplay⟩ := replay_framed (fun p hp => (hps p hp).1.framed (hps p hp).2) hne hcut
  obtain ⟨real, hmove, hfilter, -⟩ := shows_stream True depth hinst hheap hcalm hps (fun _ => hzero) hreplay
  exact ⟨⟨real, hmove.trace, hfilter⟩, fun x _ r hr => redecodes_replyTo hr⟩

/-- The callbacks are none if and only if no packet says anything. -/
theorem callbacks_eq_nil_iff (xs : List Heard) (acks : Stream' MqttClientAckOption) : callbacks xs acks = [] ↔ ∀ x ∈ xs, x = .nothing := by
  induction xs generalizing acks with
  | nil => simp [callbacks]
  | cons x xs ih =>
    have hhead : (x.callback acks.head).toList = [] ↔ x = .nothing := by cases x <;> simp [Heard.callback]
    rw [callbacks, List.append_eq_nil_iff, hhead, ih, List.forall_mem_cons]

theorem callbacksOf_eq_nil_iff {ps : List Packet} (hps : ∀ p ∈ ps, p.WellFormed) (acks : Stream' MqttClientAckOption) :
    callbacksOf ps acks = [] ↔ ∀ p ∈ ps, p.heard = some .nothing := by
  rw [callbacksOf, callbacks_eq_nil_iff]
  constructor
  · intro h p hp
    obtain ⟨x, hx⟩ := Option.ne_none_iff_exists'.mp (hps p hp).heard
    rw [hx, h x (List.mem_filterMap.mpr ⟨p, hp, hx⟩)]
  · intro h x hx
    obtain ⟨p, hp, hpx⟩ := List.mem_filterMap.mp hx
    exact Option.some.inj (hpx.symm.trans (h p hp))

/-- In one call, a packet that is not taken is lost with all that follows it: the stream is acknowledged if and only if nothing is
said there. -/
theorem acknowledges_wireOf_iff (depth : Nat) {w : World} (hinst : w.inst = mqttCodecCreate) (hheap : w.heap = okHeap)
    (hcalm : Calm w.callContext.env) {ps : List Packet} (hps : ∀ p ∈ ps, p.WellFormed) :
    Acknowledges depth w ps [wireOf ps] ↔ ∀ p ∈ ps.dropWhile (fun p => p.Taken), p.heard = some .nothing := by
  have hgood : ∀ p ∈ ps.takeWhile (fun p => p.Taken), p.WellFormed ∧ p.Taken := by
    intro p hp
    exact ⟨hps p (List.takeWhile_subset _ hp), by simpa using List.mem_takeWhile_imp hp⟩
  obtain ⟨real, hmove, hreal, -⟩ :=
    shows_stream False depth hinst hheap hcalm hgood False.elim (replay_wireOf hps)
  have hall : callbacksOf ps w.callContext.env.ack = callbacksOf (ps.takeWhile (fun p => p.Taken)) w.callContext.env.ack ++
      callbacksOf (ps.dropWhile (fun p => p.Taken))
        (w.callContext.env.ack.drop (askCount ((ps.takeWhile (fun p => p.Taken)).filterMap Packet.heard))) := by
    simp only [callbacksOf]
    rw [← callbacks_append, ← List.filterMap_append, List.takeWhile_append_dropWhile]
  rw [← callbacksOf_eq_nil_iff (fun p hp => hps p (List.dropWhile_subset _ hp)) (w.callContext.env.ack.drop (askCount
    ((ps.takeWhile (fun p => p.Taken)).filterMap Packet.heard)))]
  constructor
  · rintro ⟨⟨out, hout, hfilter⟩, -⟩
    have heq : out = real := List.append_cancel_left (hout.symm.trans hmove.trace)
    rw [heq, hreal, hall, List.flatMap_append] at hfilter
    have hnil := List.flatMap_eq_nil_iff.mp (List.self_eq_append_right.mp hfilter)
    exact List.eq_nil_iff_forall_not_mem.mpr fun x hx => absurd (hnil x hx) (by simp [answered])
  · intro hnil
    rw [hnil, List.append_nil] at hall
    exact ⟨⟨real, hmove.trace, by rw [hreal, hall]⟩, fun x _ r hr => redecodes_replyTo hr⟩

/-- The acknowledgement protocol. From a created codec, in calm surroundings, a stream of well-formed packets is acknowledged in
every cut when all its packets are taken. In one call it is acknowledged if and only if, from the first packet that is not taken on,
no packet says anything. -/
theorem acknowledges_stream (depth : Nat) {w : World} (hinst : w.inst = mqttCodecCreate) (hheap : w.heap = okHeap)
    (hcalm : Calm w.callContext.env) {ps : List Packet} (hps : ∀ p ∈ ps, p.WellFormed) :
    ((∀ p ∈ ps, p.Taken) → ∀ chunks : List (List UInt8), (∀ chunk ∈ chunks, chunk ≠ []) → chunks.flatten = wireOf ps →
        Acknowledges depth w ps chunks) ∧
      (Acknowledges depth w ps [wireOf ps] ↔ ∀ p ∈ ps.dropWhile (fun p => p.Taken), p.heard = some .nothing) := by
  refine ⟨fun htaken chunks hne hcut => ?_, acknowledges_wireOf_iff depth hinst hheap hcalm hps⟩
  exact acknowledges_of_taken depth hinst hheap hcalm (fun p hp => ⟨hps p hp, htaken p hp⟩) hne hcut

/-- A PUBLISH of quality of service `DELIVER_AT_LEAST_ONCE`, a PUBREC, a PUBREL and a PINGRESP, in three chunks. -/
theorem acknowledges_stream_cut :
    let ps : List Packet := [⟨0x32, [0, 1, 97, 2, 1, 7]⟩, ⟨0x50, [0, 5]⟩, ⟨0x62, [0, 6]⟩, ⟨0xD0, []⟩]
    Acknowledges 1 openedClient ps
        [[0x32, 6, 0, 1], [97, 2, 1, 7, 0x50, 2, 0, 5, 0x62], [2, 0, 6, 0xD0, 0]] ∧
      (Acknowledges 1 openedClient ps [wireOf ps] ↔
        ∀ p ∈ ps.dropWhile (fun p => p.Taken), p.heard = some .nothing) := by
  intro ps
  have h := acknowledges_stream 1 (w := openedClient) rfl rfl (env_openedClient ▸ calm_calmEnv) (show ∀ p ∈ ps, p.WellFormed by decide)
  exact ⟨h.1 (by decide) _ (by decide) (by simp [ps, wireOf, Packet.wire, lenField_lt]), h.2⟩

/-- A PUBLISH whose body is too long is lost, and with it a PUBREL behind it. -/
theorem untaken_publish {body : List UInt8} {m : MqttMessage} (hread : publishMessage 0 body = some m)
    (hlen : 2097152 ≤ body.length) (hle : body.length ≤ 268435455) :
    (∀ p ∈ [(⟨0x30, body⟩ : Packet), ⟨0x62, [0, 5]⟩], p.WellFormed) ∧
      ¬Acknowledges 1 openedClient [⟨0x30, body⟩, ⟨0x62, [0, 5]⟩] [wireOf [⟨0x30, body⟩, ⟨0x62, [0, 5]⟩]] := by
  have htype : Packet.type ⟨0x30, body⟩ = .publishType := show packetTypeByte 0x30 = .publishType by decide
  have hflags : Packet.flags ⟨0x30, body⟩ = 0 := show flagValueByte 0x30 = 0 by decide
  have hheard : Packet.heard ⟨0x30, body⟩ = some (.message m) := by rw [Packet.heard, htype, hflags, Umqtt.heard, hread, Option.map_some]
  have hlong : Packet.WellFormed ⟨0x30, body⟩ := by
    refine ⟨?_, hle, fun ht => absurd (htype.symm.trans ht) (by decide), by simp [hheard]⟩
    rw [Packet.Accepted, htype]
    rfl
  have hps : ∀ p ∈ [(⟨0x30, body⟩ : Packet), ⟨0x62, [0, 5]⟩], p.WellFormed := by
    intro p hp
    rcases List.mem_pair.mp hp with rfl | rfl
    · exact hlong
    · decide
  refine ⟨hps, ?_⟩
  intro h
  have hbad : ¬Packet.Taken ⟨0x30, body⟩ := fun ht => absurd ht.1 (Nat.not_le.mpr hlen)
  have hall := (acknowledges_wireOf_iff 1 rfl rfl (env_openedClient ▸ calm_calmEnv) hps).mp h
  rw [List.dropWhile_cons_of_neg (by simpa using hbad)] at hall
  exact absurd (hall ⟨0x62, [0, 5]⟩ (by simp)) (by decide)

/-- A PUBLISH with a body of 2097154 bytes and a PUBREL: no PUBCOMP is sent. -/
theorem not_acknowledges_long_publish :
    let ps : List Packet :=
      [⟨0x30, publishBody .deliverAtMostOnce 0 ⟨[97], by decide⟩ (List.replicate 2097151 0)⟩, ⟨0x62, [0, 5]⟩]
    (∀ p ∈ ps, p.WellFormed) ∧ ¬Acknowledges 1 openedClient ps [wireOf ps] := by
  have hread : publishMessage 0 (publishBody .deliverAtMostOnce 0 ⟨[97], by decide⟩ (List.replicate 2097151 0)) = some _ :=
    publishMessage_publishBody (by decide) (by simp) (by decide) (by decide) (List.replicate 2097151 0)
  have hlen : (publishBody .deliverAtMostOnce 0 ⟨[97], by decide⟩ (List.replicate 2097151 0)).length = 2097154 := by
    rw [publishBody, List.length_append, List.length_replicate]
    rfl
  exact untaken_publish hread (by omega) (by omega)

end Umqtt
