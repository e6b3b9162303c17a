import Umqtt.Lemmas.CallRuns
import Umqtt.Lemmas.Nested
import Umqtt.Lemmas.Replay
import Umqtt.Lib.Transcript

/-!
# What the client says

What is nested in the calls into the xio (`Action.Nested`) apart, the history tells what the client makes of the packets it receives and
of the calls of the application. The scripts say what that may be, for whatever the allocator, the xio, the clock and the application
answer, and each function of the client says one of its scripts.
-/

namespace Umqtt

open Alloc Transcript

/-! ## What is observed -/

/-- The entries that are observed: chunks and packets that arrive, callbacks of the application, packets that are handed over, and errors
that are not of the connection. -/
def Action.isSpoken : Action → Bool
  | .bytesReceived _ | .packet .. | .messageRecv .. => true
  | .operation actionResult => actionResult ≠ .onDisconnect
  | .xioSend _ p _ => p.packetType ≠ some .connectType
  | .setErrorCallback errorType => errorType ≠ .connectionError ∧ errorType ≠ .communicationError
  | _ => false

/-- What is observed of a session, on the way from one state to another. -/
abbrev Speaks : Session → Session → List Action → Prop := Says Session.history Action.isSpoken

theorem Action.Nested.not_spoken {a : Action} (h : a.Nested) : a.isSpoken = false := by
  cases a with
  | xioSend x p r => exact decide_eq_false (not_not_intro h)
  | operation actionResult => exact decide_eq_false (not_not_intro h)
  | setErrorCallback errorType => rcases h with rfl | rfl <;> rfl
  | bytesReceived | packet | messageRecv => exact absurd h id
  | _ => rfl

section

variable {s t : Session}

theorem speaks_nested (h : Adds Action.Nested s t) : Speaks s t [] := by
  obtain ⟨added, hadded, hnested⟩ := h
  exact says_nil hadded fun a ha => (hnested a ha).not_spoken

theorem speaks_of_history (h : t.history = s.history) : Speaks s t [] := (Says.refl s).of_log rfl h

theorem speaks_silent (s : Session) {a : Action} (ha : a.isSpoken = false) : Speaks s (s.log a) [] :=
  says_nil rfl fun _ hb => List.mem_singleton.mp hb ▸ ha

theorem speaks_log (s : Session) {a : Action} (ha : a.isSpoken = true) : Speaks s (s.log a) [a] := says_one rfl ha

end

/-! ## The scripts -/

/-- A packet that is sent in reply: none when none is due, and an error when it is not built. -/
inductive Replies : Option Reply → List Action → Prop
  | notDue : Replies none []
  | sent (r : Reply) (xioHandle : Option XioHandle) (result : MuResult) :
      Replies (some r) [.xioSend xioHandle (Buffer.ofBytes r.bytes) result]
  | notBuilt (r : Reply) : Replies (some r) [.setErrorCallback .memoryError]

/-- The reply to a message of a quality of service. -/
def responseTo (packetId : UInt16) : QosValue → Option Reply
  | .deliverAtLeastOnce => some ⟨.pubackType, 0, packetId⟩
  | .deliverExactlyOnce => some ⟨.pubrecType, 0, packetId⟩
  | _ => none

/-- What the return codes of a SUBACK grant, up to the first that does not pass the check. -/
def grantedBy (body : List UInt8) : List QosValue :=
  (((body.drop 2).take (subackRemainLen body.length)).takeWhile (· &&& 0x7C = 0)).map subackQosValue

/-- What a packet with a body leads to: a callback and its reply. A SUBACK is said with the return codes that pass the check, and a packet
that is an error is not said, nor one for which there is no memory. -/
inductive Handles (packet : ControlPacketType) (flags : UInt8) (body : List UInt8) : List Action → Prop
  | message {m : MqttMessage} (ack : MqttClientAckOption) {l : List Action} : heard packet flags body = some (.message m) →
      Replies (replyTo (.message m ack)) l → Handles packet flags body (.messageRecv m ack :: l)
  | event {actionResult : MqttClientEventResult} {l : List Action} : packet ≠ .subackType →
      heard packet flags body = some (.event actionResult) → Replies (replyTo (.event actionResult)) l →
      Handles packet flags body (.operation actionResult :: l)
  | suback : packet = .subackType → 2 ≤ body.length →
      Handles packet flags body [.operation (.onSubscribeAck { packetId := idOf body, qosReturn := grantedBy body })]
  | nothing : packet ≠ .subackType → (heard packet flags body = some .nothing ∨ packet ≠ .publishType ∧ heard packet flags body = none) →
      Handles packet flags body []
  | noTopic : packet = .publishType → Handles packet flags body [.setErrorCallback .parseError]
  | noMemory : packet = .publishType ∨ packet = .subackType → Handles packet flags body [.setErrorCallback .memoryError]

/-- A packet that is delivered is handled if it has a body or is a PINGRESP. -/
inductive Leads (d : Delivery) : List Action → Prop
  | handled {l : List Action} : (bodyOf d.headerData).length > 0 ∨ d.packet = .pingrespType →
      Handles d.packet d.flags (bodyOf d.headerData) l → Leads d (.packet d.packet d.flags d.headerData :: l)
  | empty : ¬((bodyOf d.headerData).length > 0 ∨ d.packet = .pingrespType) → Leads d [.packet d.packet d.flags d.headerData]

/-- The packets of a chunk, and an error if it is not received well. -/
inductive Receives (buffer : Option (List UInt8)) : List Action → Prop
  | well {ds : List Delivery} {l : List Action} : Scripts Leads ds l → Receives buffer (.bytesReceived buffer :: l)
  | badly {ds : List Delivery} {l : List Action} : Scripts Leads ds l →
      Receives buffer (.bytesReceived buffer :: (l ++ [.setErrorCallback .parseError]))

/-- What an xio does is observed if it hands over bytes. -/
def Works : WorkEvent → List Action → Prop
  | .io _, l => l = []
  | .bytes buffer, l => Receives buffer l

/-- What keeps a connection alive: a PINGREQ, or an error when one is not answered. -/
inductive PingSpeech : List Action → Prop
  | idle : PingSpeech []
  | ping (xioHandle : Option XioHandle) (result : MuResult) :
      PingSpeech [.xioSend xioHandle (Buffer.ofBytes [ControlPacketType.pingreqType.toByte, 0]) result]
  | dead : PingSpeech [.setErrorCallback .noPingResponse]

/-- A packet that the application asks for: handed over if it is built, and accepted if the call succeeds. -/
inductive Sends (packet : Alloc Buffer) : MuResult → List Action → Prop
  | notBuilt : Sends packet .muFailure []
  | sent {p : Buffer} (xioHandle : Option XioHandle) {result returned : MuResult} : packet.Produces p →
      (returned = .zero → result = .zero) → Sends packet returned [.xioSend xioHandle p result]

/-! ## Sends and errors -/

section

variable {dispatch : List IoEvent → Session → Session} (hd : ∀ events s, Adds Action.Nested s (dispatch events s))

include hd

theorem speaks_setErrorCallback (s : Session) {e : MqttClientEventError} (he : (Action.setErrorCallback e).isSpoken = true) :
    Speaks s (setErrorCallback dispatch s e) [.setErrorCallback e] := by
  obtain ⟨added, hadded, hnone⟩ :=
    adds_setErrorCallback (P := fun a => a.isSpoken = false) hd (fun _ => Action.Nested.not_spoken) s (e := e) rfl
  exact (speaks_log s he).before (says_nil hadded hnone)

/-- An error of the connection is not observed. -/
theorem speaks_communicationError (s : Session) : Speaks s (setErrorCallback dispatch s .communicationError) [] :=
  speaks_nested (nested_setErrorCallback hd s (Or.inr rfl))

omit hd in
/-- What `sendPacketItem` returns is zero only if `xio_send` has accepted the packet. -/
theorem sendPacketItem_zero {s : Session} {packet : Buffer} (h : (sendPacketItem dispatch s packet).2 = .zero) :
    s.env.send.head = .zero := by
  rw [sendPacketItem_eq] at h
  obtain ⟨added, hf, -⟩ := finishes (callBack dispatch (s.handOver packet)) s.env.send.head
  rw [h] at hf
  generalize (finishSend _ _).1.client = c at hf
  cases hf with
  | stamped _ hzero => exact hzero

theorem speaks_sendPacketItem (s : Session) {packet : Buffer} (hp : packet.packetType ≠ some .connectType) :
    Speaks s (sendPacketItem dispatch s packet).1 [.xioSend s.client.xioHandle packet s.env.send.head] := by
  have hhand : Speaks s (s.handOver packet) [.xioSend s.client.xioHandle packet s.env.send.head] := says_one rfl (decide_eq_true hp)
  exact hhand.before (speaks_nested (nested_sendPacketItem hd s packet))

/-- A reply is handed over or not built. -/
theorem speaks_sendReply (s : Session) {t : ControlPacketType} {flags : UInt8}
    (ht : packetTypeByte (t.toByte ||| flags) ≠ .connectType) (packetId : UInt16) :
    ∃ l, Replies (some ⟨t, flags, packetId⟩) l ∧ Speaks s (sendReply dispatch s (constructPublishReply t flags packetId)) l := by
  unfold sendReply
  rcases halloc : s.alloc (constructPublishReply t flags packetId) with ⟨_ | packet, s'⟩
  all_goals have hstart : Speaks s s' [] := speaks_of_history (history_of_alloc halloc)
  · exact ⟨_, .notBuilt _, hstart.after (speaks_setErrorCallback hd s' rfl)⟩
  · obtain rfl := (ensures_constructPublishReply t flags packetId).of_produces (alloc_produces halloc)
    have htype : (Buffer.ofBytes (replyBytes t flags packetId)).packetType ≠ some .connectType := fun h => ht (Option.some.inj h)
    have hsend := hstart.after (speaks_sendPacketItem hd s' htype)
    refine ⟨_, .sent ⟨t, flags, packetId⟩ s'.client.xioHandle s'.env.send.head, ?_⟩
    dsimp only
    split
    · exact hsend.before (speaks_communicationError hd _)
    · exact hsend

theorem speaks_sendMessageAck (s : Session) (packetId : UInt16) (qosValue : QosValue) :
    ∃ l, Replies (responseTo packetId qosValue) l ∧ Speaks s (sendMessageAck dispatch s packetId qosValue) l := by
  cases qosValue with
  | deliverExactlyOnce => exact speaks_sendReply hd s (by decide) packetId
  | deliverAtLeastOnce => exact speaks_sendReply hd s (by decide) packetId
  | qosValueInvalid | deliverAtMostOnce | deliverFailure => exact ⟨[], .notDue, .refl s⟩

/-! ## Packets -/

omit hd in
theorem replyTo_message (m : MqttMessage) (ack : MqttClientAckOption) :
    replyTo (.message m ack) = if ack = .ackSync then responseTo m.packetId m.qosInfo else none := by
  rcases ack with _ | _ | _
  · rw [if_pos rfl, replyTo]
    cases m.qosInfo <;> rfl
  · rfl
  · rfl

/-- A message is handed to the application, and then acknowledged if it says so. -/
theorem speaks_message {packet : ControlPacketType} {flags : UInt8} {body : List UInt8} {m : MqttMessage}
    (hheard : heard packet flags body = some (.message m)) (s : Session) :
    ∃ l, Handles packet flags body l ∧ Speaks s
      (if (fnMessageRecv s m).1 = .ackSync then sendMessageAck dispatch (fnMessageRecv s m).2 m.packetId m.qosInfo
        else (fnMessageRecv s m).2) l := by
  have hrecv : Speaks s (fnMessageRecv s m).2 [.messageRecv m (fnMessageRecv s m).1] := says_one rfl rfl
  have hreply := replyTo_message m (fnMessageRecv s m).1
  split
  · rename_i hsync
    rw [if_pos hsync] at hreply
    obtain ⟨l, hl, hspeaks⟩ := speaks_sendMessageAck hd (fnMessageRecv s m).2 m.packetId m.qosInfo
    exact ⟨_, .message _ hheard (hreply ▸ hl), hrecv.trans hspeaks⟩
  · rename_i hasync
    rw [if_neg hasync] at hreply
    exact ⟨_, .message _ hheard (hreply ▸ .notDue), hrecv⟩

omit hd in
/-- A PUBLISH is an error, or is handed to the application as the message it stands for. -/
theorem processPublishMessage_cases (s : Session) (body : List UInt8) (flags : UInt8) :
    ∃ s' : Session, s'.history = s.history ∧
      (processPublishMessage dispatch s body flags = setErrorCallback dispatch s' .parseError ∨
        processPublishMessage dispatch s body flags = setErrorCallback dispatch s' .memoryError ∨
        ∃ m, publishMessage flags body = some m ∧ processPublishMessage dispatch s body flags =
          if (fnMessageRecv s' m).1 = .ackSync then sendMessageAck dispatch (fnMessageRecv s' m).2 m.packetId m.qosInfo
          else (fnMessageRecv s' m).2) := by
  obtain ⟨s', -, hhist, -, hread⟩ := byteutilReadUTF_cases body s
  unfold processPublishMessage publishMessage
  dsimp only at hread ⊢
  generalize byteutilReadUint16 body 0 body.length = r at hread
  rcases hread with hread | ⟨htopic, hread⟩
  · rw [hread]
    exact ⟨s', hhist, Or.inl rfl⟩
  · rw [hread, if_pos htopic]
    have hid : (if publishQosValue flags ≠ .deliverAtMostOnce then
        byteutilReadUint16 body (r.2 + r.1.toNat) (body.length - (r.2 + r.1.toNat)) else (0, r.2 + r.1.toNat)) =
        publishPacketId (publishQosValue flags) body (r.2 + r.1.toNat) := rfl
    simp only [hid]
    generalize publishPacketId (publishQosValue flags) body (r.2 + r.1.toNat) = packetId
    split
    · exact ⟨s', hhist, Or.inl rfl⟩
    · have hpayload : (body.drop packetId.2).take (body.length - packetId.2) = body.drop packetId.2 :=
        List.take_of_length_le (by simp)
      rw [hpayload]
      rcases halloc : s'.alloc (mqttmessageCreateInPlace packetId.1 (some ((body.drop r.2).take r.1.toNat)) (publishQosValue flags)
        (body.drop packetId.2)) with ⟨_ | msgHandle, s''⟩
      all_goals have hhist' : s''.history = s.history := (history_of_alloc halloc).trans hhist
      · exact ⟨s'', hhist', Or.inr (Or.inl rfl)⟩
      · have hmsg := (ensures_mqttmessageCreateInPlace packetId.1 _ (publishQosValue flags) _).of_produces (alloc_produces halloc)
        subst hmsg
        exact ⟨s'', hhist', Or.inr (Or.inr ⟨_, rfl, rfl⟩)⟩

theorem speaks_processPublishMessage (s : Session) (body : List UInt8) (flags : UInt8) :
    ∃ l, Handles .publishType flags body l ∧ Speaks s (processPublishMessage dispatch s body flags) l := by
  obtain ⟨s', hhist, hparse | hmem | ⟨m, hm, hmsg⟩⟩ := @processPublishMessage_cases dispatch s body flags
  all_goals have hstart : Speaks s s' [] := speaks_of_history hhist
  · exact ⟨_, .noTopic rfl, hparse ▸ hstart.after (speaks_setErrorCallback hd s' rfl)⟩
  · exact ⟨_, .noMemory (Or.inl rfl), hmem ▸ hstart.after (speaks_setErrorCallback hd s' rfl)⟩
  · have hheard : heard .publishType flags body = some (.message m) := by rw [heard, hm, Option.map_some]
    obtain ⟨l, hl, hspeaks⟩ := speaks_message hd hheard s'
    exact ⟨l, hl, hmsg ▸ hstart.after hspeaks⟩

/-- A packet that is an error of the connection is not observed. -/
theorem speaks_malformed {packet : ControlPacketType} {flags : UInt8} {body : List UInt8} (hsub : packet ≠ .subackType)
    (hpub : packet ≠ .publishType) (hheard : heard packet flags body = none) (s : Session) :
    ∃ l, Handles packet flags body l ∧ Speaks s (setErrorCallback dispatch s .communicationError) l :=
  ⟨[], .nothing hsub (Or.inr ⟨hpub, hheard⟩), speaks_communicationError hd s⟩

omit hd in
/-- An event that is not answered. -/
theorem speaks_event {packet : ControlPacketType} {flags : UInt8} {body : List UInt8} {actionResult : MqttClientEventResult}
    (hsub : packet ≠ .subackType) (hheard : heard packet flags body = some (.event actionResult))
    (hreply : replyTo (.event actionResult) = none) (hne : actionResult ≠ .onDisconnect) {s t : Session}
    (ht : t.history = s.history ++ [.operation actionResult]) : ∃ l, Handles packet flags body l ∧ Speaks s t l :=
  ⟨_, .event hsub hheard (hreply ▸ .notDue), says_one ht (decide_eq_true hne)⟩

theorem speaks_processConnack (s : Session) (flags : UInt8) (body : List UInt8) :
    ∃ l, Handles .connackType flags body l ∧ Speaks s (processConnack dispatch s body) l := by
  unfold processConnack
  split
  · rename_i hlen
    have hnone : heard .connackType flags body = none := if_neg fun h => hlen h.1
    exact speaks_malformed hd (by decide) (by decide) hnone s
  · rename_i hlen
    dsimp only
    split
    · rename_i hflags
      have hnone : heard .connackType flags body = none := if_neg fun h => hflags h.2
      exact speaks_malformed hd (by decide) (by decide) hnone s
    · rename_i hflags
      have hheard : heard .connackType flags body = some (.event (.onConnack
          { isSessionPresent := (byteutilReadByte body 0).1 = 0x1, returnCode := connackReturnCode (byteutilReadByte body 1).1 })) :=
        if_pos ⟨not_not.mp hlen, not_not.mp hflags⟩
      refine speaks_event (by decide) hheard rfl MqttClientEventResult.noConfusion ?_
      split <;> rfl

theorem speaks_processPublishAck (s : Session) {packet : ControlPacketType} (flags : UInt8) (body : List UInt8)
    (hne : packet ≠ .subackType ∧ packet ≠ .publishType)
    (hheard : heard packet flags body = if body.length = 2 then some (.event (publishAckAction packet (idOf body))) else none) :
    ∃ l, Handles packet flags body l ∧ Speaks s (processPublishAck dispatch s packet body) l := by
  unfold processPublishAck
  split
  · rename_i hlen
    exact speaks_malformed hd hne.1 hne.2 (hheard.trans (if_neg hlen)) s
  · rename_i hlen
    rw [if_pos (not_not.mp hlen)] at hheard
    have hdisc : publishAckAction packet (idOf body) ≠ .onDisconnect := by
      unfold publishAckAction
      repeat' split
      all_goals exact MqttClientEventResult.noConfusion
    have hsaid := speaks_log s (a := .operation (publishAckAction packet (idOf body))) (decide_eq_true hdisc)
    change ∃ l, _ ∧ Speaks s (if packet = .pubrecType then sendReply dispatch _ (mqttCodecPublishRelease (idOf body)) else
      if packet = .pubrelType then sendReply dispatch _ (mqttCodecPublishComplete (idOf body)) else _) l
    by_cases hrec : packet = .pubrecType
    · obtain ⟨l, hl, hspeaks⟩ := @speaks_sendReply dispatch hd (s.log (.operation (publishAckAction packet (idOf body)))) .pubrelType 2
        (by decide) (idOf body)
      rw [if_pos hrec]
      refine ⟨_, .event hne.1 hheard ?_, hsaid.trans hspeaks⟩
      rw [publishAckAction, if_neg (by rw [hrec]; decide), if_pos hrec]
      exact hl
    · by_cases hrel : packet = .pubrelType
      · obtain ⟨l, hl, hspeaks⟩ := @speaks_sendReply dispatch hd (s.log (.operation (publishAckAction packet (idOf body)))) .pubcompType 0
          (by decide) (idOf body)
        rw [if_neg hrec, if_pos hrel]
        refine ⟨_, .event hne.1 hheard ?_, hsaid.trans hspeaks⟩
        rw [publishAckAction, if_neg (by rw [hrel]; decide), if_neg hrec, if_pos hrel]
        exact hl
      · rw [if_neg hrec, if_neg hrel]
        refine ⟨_, .event hne.1 hheard ?_, hsaid⟩
        have hreply : replyTo (.event (publishAckAction packet (idOf body))) = none := by
          rw [publishAckAction, if_neg hrec, if_neg hrel]
          split <;> rfl
        exact hreply ▸ .notDue

/-! ## SUBACK -/

/-- The loop stores the return codes up to the first that does not pass the check. -/
theorem speaks_subackLoop (body : List UInt8) (remainLen iterator : Nat) (qosReturn : List QosValue)
    (hlen : iterator + remainLen ≤ body.length) (s : Session) :
    (subackLoop dispatch body remainLen iterator qosReturn s).1 =
        qosReturn ++ (((body.drop iterator).take remainLen).takeWhile (· &&& 0x7C = 0)).map subackQosValue ∧
      Speaks s (subackLoop dispatch body remainLen iterator qosReturn s).2 [] := by
  induction remainLen generalizing iterator qosReturn with
  | zero => exact ⟨by simp [subackLoop], .refl s⟩
  | succ remainLen ih =>
    have hlt : iterator < body.length := by omega
    have hdrop : body.drop iterator = body[iterator] :: body.drop (iterator + 1) := List.drop_eq_getElem_cons hlt
    simp only [subackLoop, byteutilReadByte, List.getElem?_eq_getElem hlt, Option.getD_some]
    rw [hdrop, List.take_succ_cons]
    by_cases hcode : body[iterator] &&& 0x7C = 0
    · obtain ⟨hstored, hspeaks⟩ := ih (iterator + 1) (qosReturn ++ [subackQosValue body[iterator]]) (by omega)
      rw [if_neg (not_not_intro hcode), List.takeWhile_cons_of_pos (by simpa using hcode)]
      exact ⟨by rw [hstored, List.map_cons, List.append_assoc, List.singleton_append], hspeaks⟩
    · rw [if_pos hcode, List.takeWhile_cons_of_neg (by simpa using hcode), List.map_nil, List.append_nil]
      exact ⟨rfl, speaks_communicationError hd s⟩

omit hd in
theorem subackRemainLen_le {packetLength : Nat} (h : 2 ≤ packetLength) : 2 + subackRemainLen packetLength ≤ packetLength := by
  rw [subackRemainLen]
  generalize sizeMax = m
  rw [show packetLength + (m + 1) - 2 = packetLength - 2 + (m + 1) by omega, Nat.add_mod_right]
  have := Nat.mod_le (packetLength - 2) (m + 1)
  omega

/-- The part of a SUBACK after its packet id: no memory, or the return codes. -/
theorem speaks_processSubackCodes (s : Session) (body : List UInt8) (packetId : UInt16) (iterator remainLen : Nat)
    (hlen : safeMultiplySizeT sizeofQosValue remainLen ≠ sizeMax → iterator + remainLen ≤ body.length) :
    ∃ l, (l = [.setErrorCallback .memoryError] ∨ safeMultiplySizeT sizeofQosValue remainLen ≠ sizeMax ∧
        l = [.operation (.onSubscribeAck { packetId := packetId, qosReturn :=
          (((body.drop iterator).take remainLen).takeWhile (· &&& 0x7C = 0)).map subackQosValue })]) ∧
      Speaks s (processSubackCodes dispatch s body packetId iterator remainLen) l := by
  unfold processSubackCodes
  split
  · rename_i hsize
    rcases halloc : s.alloc takeMemory with ⟨_ | _, s'⟩
    all_goals have hstart : Speaks s s' [] := speaks_of_history (history_of_alloc halloc)
    · exact ⟨_, Or.inl rfl, hstart.after (speaks_setErrorCallback hd s' rfl)⟩
    · obtain ⟨hstored, hspeaks⟩ := speaks_subackLoop hd body remainLen iterator [] (hlen hsize) s'
      refine ⟨_, Or.inr ⟨hsize, rfl⟩, (hstart.after hspeaks).after ?_⟩
      rw [List.nil_append] at hstored
      dsimp only
      rw [hstored]
      exact speaks_log _ rfl
  · exact ⟨_, Or.inl rfl, speaks_setErrorCallback hd s rfl⟩

theorem speaks_processSuback (s : Session) (flags : UInt8) (body : List UInt8) :
    ∃ l, Handles .subackType flags body l ∧ Speaks s (processSuback dispatch s body) l := by
  have htwo : safeMultiplySizeT sizeofQosValue (subackRemainLen body.length) ≠ sizeMax → 2 ≤ body.length := le_of_safeMultiplySizeT
  have hremain : 2 ≤ body.length → 2 + subackRemainLen body.length ≤ body.length := subackRemainLen_le
  have hgranted : grantedBy body =
      (((body.drop 2).take (subackRemainLen body.length)).takeWhile (· &&& 0x7C = 0)).map subackQosValue := by rw [grantedBy]
  have hread : 2 ≤ body.length → byteutilReadUint16 body 0 body.length = (idOf body, 2) := by
    intro hlen
    rw [idOf, byteutilReadUint16, if_pos hlen]
  unfold processSuback
  generalize subackRemainLen body.length = remainLen at htwo hremain hgranted ⊢
  generalize byteutilReadUint16 body 0 body.length = r at hread ⊢
  obtain ⟨packetId, iterator⟩ := r
  have hlen : safeMultiplySizeT sizeofQosValue remainLen ≠ sizeMax → iterator + remainLen ≤ body.length := by
    intro hsize
    obtain ⟨-, rfl⟩ := Prod.mk.inj (hread (htwo hsize))
    exact hremain (htwo hsize)
  obtain ⟨l, rfl | ⟨hsize, rfl⟩, hspeaks⟩ := speaks_processSubackCodes hd s body packetId iterator remainLen hlen
  · exact ⟨_, .noMemory (Or.inr rfl), hspeaks⟩
  · obtain ⟨rfl, rfl⟩ := Prod.mk.inj (hread (htwo hsize))
    rw [← hgranted] at hspeaks
    exact ⟨_, .suback rfl (htwo hsize), hspeaks⟩

/-! ## Any packet, and chunks -/

theorem speaks_processPacket (s : Session) (packet : ControlPacketType) (flags : UInt8) (body : List UInt8) :
    ∃ l, Handles packet flags body l ∧ Speaks s (processPacket dispatch s packet flags body) l := by
  cases packet with
  | connackType => exact speaks_processConnack hd s flags body
  | publishType => exact speaks_processPublishMessage hd s body flags
  | pubackType | pubrecType | pubrelType | pubcompType => exact speaks_processPublishAck hd s flags body (by decide) rfl
  | subackType => exact speaks_processSuback hd s flags body
  | unsubackType =>
    unfold processPacket processUnsuback
    dsimp only
    split
    · rename_i hlen
      have hnone : heard .unsubackType flags body = none := if_neg hlen
      exact speaks_malformed hd (by decide) (by decide) hnone s
    · rename_i hlen
      have hheard : heard .unsubackType flags body = some (.event (.onUnsubscribeAck (idOf body))) := if_pos (not_not.mp hlen)
      exact speaks_event (by decide) hheard rfl MqttClientEventResult.noConfusion rfl
  | pingrespType => exact speaks_event (by decide) rfl rfl MqttClientEventResult.noConfusion rfl
  | controlPacketTypeInvalid | connectType | subscribeType | unsubscribeType | pingreqType | disconnectType | packetTypeError
  | unknownType | packetInvalid1Type | packetInvalid2Type => exact ⟨[], .nothing (by decide) (Or.inl rfl), .refl s⟩

theorem speaks_recvCompleteCallback (packet : ControlPacketType) (flags : UInt8) (headerData : Option Buffer) (s : Session) :
    ∃ l, Leads ⟨packet, flags, headerData⟩ l ∧ Speaks s (recvCompleteCallback dispatch packet flags headerData s) l := by
  have hpacket := speaks_log s (a := .packet packet flags headerData) rfl
  unfold recvCompleteCallback
  dsimp only
  split
  · rename_i hbody
    obtain ⟨l, hl, hspeaks⟩ := speaks_processPacket hd (s.log (.packet packet flags headerData)) packet flags (bodyOf headerData)
    exact ⟨_, .handled hbody hl, hpacket.trans hspeaks⟩
  · rename_i hempty
    exact ⟨_, .empty hempty, hpacket⟩

/-- The packets of a chunk so far have been answered, in order. -/
def AnsweredSince (s : Session) (t : Session) (log : List Delivery) : Prop := ∃ l, Scripts Leads log l ∧ Speaks s t l

theorem speaks_onBytesReceived (w : World) (buffer : Option (List UInt8)) :
    ∃ l, Receives buffer l ∧ Speaks w.callContext (onBytesReceived dispatch w buffer).callContext l := by
  have hchunk := speaks_log w.callContext (a := .bytesReceived buffer) rfl
  have hcb : RelatedCallbacks (AnsweredSince (w.callContext.log (.bytesReceived buffer))) (recvCompleteCallback dispatch) record := by
    rintro packet flags headerData s log ⟨l, hl, hspeaks⟩
    obtain ⟨more, hmore, hspeaks₂⟩ := speaks_recvCompleteCallback hd packet flags headerData s
    exact ⟨l ++ more, hl.snoc hmore, hspeaks.trans hspeaks₂⟩
  have hstart : Related (AnsweredSince (w.callContext.log (.bytesReceived buffer)))
      ({ w with callContext := w.callContext.log (.bytesReceived buffer) } : World) ⟨w.inst, w.heap, []⟩ :=
    ⟨SameParse.refl _, rfl, [], .nil, .refl _⟩
  have hrel := (bytesReceived_related hcb hstart buffer).2
  obtain ⟨l, hl, hspeaks⟩ := hrel.context
  unfold onBytesReceived
  dsimp only
  split
  · exact ⟨_, .badly hl, (hchunk.trans (hspeaks.trans (speaks_setErrorCallback hd _ rfl)))⟩
  · exact ⟨_, .well hl, hchunk.trans hspeaks⟩

theorem speaks_handleWork (w : World) (event : WorkEvent) :
    ∃ l, Works event l ∧ Speaks w.callContext (handleWork dispatch w event).callContext l := by
  cases event with
  | io e => exact ⟨[], rfl, speaks_nested (nested_handleEvent hd w.callContext e)⟩
  | bytes buffer => exact speaks_onBytesReceived hd w buffer

theorem speaks_handleWorks (w : World) (events : List WorkEvent) :
    ∃ l, Scripts Works events l ∧ Speaks w.callContext (events.foldl (handleWork dispatch) w).callContext l := by
  have hfold : ∃ l, Scripts Works events l ∧
      Says (fun w : World => w.callContext.history) Action.isSpoken w (events.foldl (handleWork dispatch) w) l := by
    refine says_foldl ?_ w events
    intro w event
    obtain ⟨l, hl, hspeaks⟩ := speaks_handleWork hd w event
    exact ⟨l, hl, hspeaks.of_log rfl rfl⟩
  obtain ⟨l, hl, hspeaks⟩ := hfold
  exact ⟨l, hl, hspeaks.of_log rfl rfl⟩

/-! ## The functions -/

/-- A request is handed over if it is built. -/
theorem speaks_sendRequest (s : Session) {t : ControlPacketType} {packet : Alloc Buffer}
    (hp : packet.Ensures (·.packetType ≠ some .connectType)) :
    ∃ l, Sends packet (sendRequest dispatch s t packet).2 l ∧ Speaks s (sendRequest dispatch s t packet).1 l := by
  unfold sendRequest
  rcases halloc : s.alloc packet with ⟨_ | built, s'⟩
  all_goals have hstart : Speaks s s' [] := speaks_of_history (history_of_alloc halloc)
  · exact ⟨[], .notBuilt, hstart⟩
  · have hbuilt := alloc_produces halloc
    have hsend := speaks_sendPacketItem hd { s' with client := { s'.client with packetState := t } } (hp.of_produces hbuilt)
    refine ⟨_, .sent s'.client.xioHandle hbuilt ?_, hstart.after (hsend.of_log rfl rfl)⟩
    exact sendPacketItem_zero

omit hd in
theorem speaks_askClock (s : Session) : Speaks s s.askClock.2 [] := (speaks_silent s rfl).of_log rfl rfl

theorem speaks_keepAlive (s : Session) : ∃ l, PingSpeech l ∧ Speaks s (keepAlive dispatch s) l := by
  unfold keepAlive
  split
  · have hclock := speaks_askClock s
    rcases hask : s.askClock with ⟨_ | currentMs, s'⟩
    all_goals rw [hask] at hclock
    · exact ⟨[], .idle, hclock⟩
    · dsimp only
      split
      · exact ⟨_, .dead, (hclock.after (speaks_setErrorCallback hd s' rfl)).of_log rfl rfl⟩
      · split
        · unfold sendPing
          rcases halloc : s'.alloc mqttCodecPing with ⟨_ | pingPacket, s''⟩
          all_goals have hstart : Speaks s s'' [] := hclock.after (speaks_of_history (history_of_alloc halloc))
          · exact ⟨[], .idle, hstart⟩
          · obtain rfl := (ensures_emptyPacket .pingreqType).of_produces (alloc_produces halloc)
            have hping : (Buffer.ofBytes [ControlPacketType.pingreqType.toByte, 0]).packetType ≠ some .connectType := by decide
            have hsend := hstart.after (speaks_sendPacketItem hd s'' hping)
            refine ⟨_, .ping s''.client.xioHandle s''.env.send.head, ?_⟩
            dsimp only
            split
            · have herror := speaks_communicationError hd (resetPing (sendPacketItem dispatch s''
                (Buffer.ofBytes [ControlPacketType.pingreqType.toByte, 0])).1)
              exact hsend.before (herror.of_log rfl rfl)
            · generalize (sendPacketItem dispatch s'' _).1 = u at hsend
              have hclock' := speaks_askClock u
              rcases hask' : u.askClock with ⟨_ | currentMs, u'⟩
              all_goals rw [hask'] at hclock'
              · exact hsend.before hclock'
              · exact hsend.before (hclock'.of_log rfl rfl)
        · exact ⟨[], .idle, hclock⟩
  · exact ⟨[], .idle, .refl s⟩

end

end Umqtt
