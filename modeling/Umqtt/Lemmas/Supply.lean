import Umqtt.Lemmas.CodecInv
import Umqtt.Lemmas.IoRuns

/-!
# The answers that are used up

Whatever the client does, it uses up answers of its surroundings one at a time and changes nothing else about them (`draws_runCall`): what
holds of the surroundings and is not spoiled by an answer holds for the whole run. An allocator that never fails never fails again, and so
on (`Generous`).
-/

namespace Umqtt

open Alloc Cells Relation

/-! ## Memory -/

/-- The computation asks the allocator and does nothing else with it. -/
def Alloc.Frugal {α : Type} (m : Alloc α) : Prop := ∀ h, ∃ n, (m.answer h).2 = h.drop n

namespace Alloc

theorem frugal_pure {α : Type} (a : α) : (pure a : Alloc α).Frugal := fun _ => ⟨0, rfl⟩

theorem frugal_giveUp {α : Type} : (giveUp : Alloc α).Frugal := fun _ => ⟨0, rfl⟩

theorem frugal_takeMemory : takeMemory.Frugal := fun _ => ⟨1, rfl⟩

theorem Frugal.bind {α β : Type} {m : Alloc α} {f : α → Alloc β} (hm : m.Frugal) (hf : ∀ a, (f a).Frugal) : (m >>= f).Frugal := by
  intro h
  obtain ⟨n, hn⟩ := hm h
  rw [answer_bind]
  rcases ha : m.answer h with ⟨_ | a, h'⟩
  all_goals
    rw [ha] at hn
    obtain rfl : h' = h.drop n := hn
  · exact ⟨n, rfl⟩
  · obtain ⟨k, hk⟩ := hf a (h.drop n)
    exact ⟨n + k, by rw [hk, Stream'.drop_drop]⟩

theorem Frugal.ite {α : Type} {p : Prop} [Decidable p] {m m' : Alloc α} (hm : m.Frugal) (hm' : m'.Frugal) :
    (if p then m else m').Frugal := by
  split
  · exact hm
  · exact hm'

end Alloc

theorem frugal_bufferNew : bufferNew.Frugal := frugal_takeMemory.bind fun _ => frugal_pure _

theorem frugal_bufferPreBuild (b : Buffer) (n : Nat) : (bufferPreBuild b n).Frugal := frugal_takeMemory.bind fun _ => frugal_pure _

theorem frugal_bufferEnlarge (b : Buffer) (n : Nat) : (bufferEnlarge b n).Frugal := by
  unfold bufferEnlarge
  exact frugal_giveUp.ite (frugal_takeMemory.bind fun _ => frugal_pure _)

/-- What is done with the bytes of a buffer, if it has any. -/
theorem frugal_bufferUChar {α : Type} (b : Buffer) {f : Cursor UInt8 → Alloc α} (hf : ∀ iterator, (f iterator).Frugal) :
    (match bufferUChar b with | none => giveUp | some iterator => f iterator : Alloc α).Frugal := by
  split
  · exact frugal_giveUp
  · exact hf _

theorem frugal_constructFixedHeader (ctrlPacket : Buffer) (t : ControlPacketType) (flags : UInt8) :
    (constructFixedHeader ctrlPacket t flags).Frugal :=
  frugal_bufferNew.bind fun _ => (frugal_bufferPreBuild _ _).bind fun _ => frugal_takeMemory.bind fun _ => frugal_pure _

theorem frugal_constructPublishReply (t : ControlPacketType) (flags : UInt8) (packetId : UInt16) :
    (constructPublishReply t flags packetId).Frugal :=
  frugal_bufferNew.bind fun _ => (frugal_bufferPreBuild _ _).bind fun _ => frugal_bufferUChar _ fun _ => frugal_pure _

theorem frugal_emptyPacket (t : ControlPacketType) : (emptyPacket t).Frugal :=
  frugal_bufferNew.bind fun _ => (frugal_bufferEnlarge _ _).bind fun _ => frugal_bufferUChar _ fun _ => frugal_pure _

theorem frugal_constructConnPayload (ctrlPacket : Buffer) (mqttOptions : MqttClientOptions) :
    (constructConnPayload ctrlPacket mqttOptions).Frugal := by
  unfold constructConnPayload
  refine frugal_giveUp.ite (frugal_giveUp.ite (frugal_giveUp.ite ?_))
  exact (frugal_bufferEnlarge _ _).bind fun _ => frugal_giveUp.ite (frugal_pure _)

theorem frugal_mqttCodecConnect (mqttOptions : MqttClientOptions) : (mqttCodecConnect mqttOptions).Frugal := by
  refine frugal_bufferNew.bind fun _ => Frugal.bind ?_ fun _ => (frugal_constructConnPayload _ _).bind fun _ =>
    frugal_constructFixedHeader _ _ _
  exact (frugal_bufferEnlarge _ _).bind fun _ => frugal_bufferUChar _ fun _ => frugal_pure _

theorem frugal_mqttCodecPublish (qosValue : QosValue) (duplicateMsg serverRetain : Bool) (packetId : UInt16) (topicName : Option CString)
    (msgBuffer : List UInt8) : (mqttCodecPublish qosValue duplicateMsg serverRetain packetId topicName msgBuffer).Frugal := by
  unfold mqttCodecPublish
  split
  · exact frugal_giveUp
  · refine frugal_giveUp.ite (frugal_bufferNew.bind fun _ => Frugal.bind ?_ fun _ => Frugal.bind ?_ fun _ =>
      frugal_constructFixedHeader _ _ _)
    · unfold constructPublishVariableHeader
      exact frugal_giveUp.ite ((frugal_bufferEnlarge _ _).bind fun _ => frugal_bufferUChar _ fun _ => frugal_pure _)
    · unfold appendMsgBuffer
      exact ((frugal_bufferEnlarge _ _).bind fun _ => frugal_bufferUChar _ fun _ => frugal_pure _).ite (frugal_pure _)

theorem frugal_constructSubscibeTypeVariableHeader (ctrlPacket : Buffer) (packetId : UInt16) :
    (constructSubscibeTypeVariableHeader ctrlPacket packetId).Frugal :=
  (frugal_bufferEnlarge _ _).bind fun _ => frugal_bufferUChar _ fun _ => frugal_pure _

theorem frugal_addListItemsToSubscribePacket (ctrlPacket : Buffer) (payloadList : List SubscribePayload) :
    (addListItemsToSubscribePacket ctrlPacket payloadList).Frugal := by
  induction payloadList generalizing ctrlPacket with
  | nil => exact frugal_pure _
  | cons item payloadList ih =>
    unfold addListItemsToSubscribePacket
    exact frugal_giveUp.ite ((frugal_bufferEnlarge _ _).bind fun _ => ih _)

theorem frugal_addListItemsToUnsubscribePacket (ctrlPacket : Buffer) (payloadList : List CString) :
    (addListItemsToUnsubscribePacket ctrlPacket payloadList).Frugal := by
  induction payloadList generalizing ctrlPacket with
  | nil => exact frugal_pure _
  | cons topic payloadList ih =>
    unfold addListItemsToUnsubscribePacket
    exact frugal_giveUp.ite ((frugal_bufferEnlarge _ _).bind fun _ => ih _)

theorem frugal_mqttCodecSubscribe (packetId : UInt16) (subscribeList : List SubscribePayload) :
    (mqttCodecSubscribe packetId subscribeList).Frugal := by
  unfold mqttCodecSubscribe
  exact frugal_giveUp.ite (frugal_bufferNew.bind fun _ => (frugal_constructSubscibeTypeVariableHeader _ _).bind fun _ =>
    (frugal_addListItemsToSubscribePacket _ _).bind fun _ => frugal_constructFixedHeader _ _ _)

theorem frugal_mqttCodecUnsubscribe (packetId : UInt16) (unsubscribeList : List CString) :
    (mqttCodecUnsubscribe packetId unsubscribeList).Frugal := by
  unfold mqttCodecUnsubscribe
  exact frugal_giveUp.ite (frugal_bufferNew.bind fun _ => (frugal_constructSubscibeTypeVariableHeader _ _).bind fun _ =>
    (frugal_addListItemsToUnsubscribePacket _ _).bind fun _ => frugal_constructFixedHeader _ _ _)

theorem frugal_mqttmessageCreateInPlace (packetId : UInt16) (topicName : Option (List UInt8)) (qosValue : QosValue) (appMsg : List UInt8) :
    (mqttmessageCreateInPlace packetId topicName qosValue appMsg).Frugal := by
  unfold mqttmessageCreateInPlace
  split
  · exact frugal_giveUp
  · exact Frugal.bind (frugal_takeMemory.bind fun _ => frugal_pure _) fun _ => frugal_pure _

theorem frugal_cloneOption (option stored : Option CString) : (cloneOption option stored).Frugal := by
  unfold cloneOption
  split
  · exact frugal_pure _
  · exact frugal_takeMemory.bind fun _ => frugal_pure _

theorem frugal_clonedOptions (mqttOptions stored : MqttClientOptions) : (clonedOptions mqttOptions stored).Frugal :=
  (frugal_cloneOption _ _).bind fun _ => (frugal_cloneOption _ _).bind fun _ => (frugal_cloneOption _ _).bind fun _ =>
    (frugal_cloneOption _ _).bind fun _ => (frugal_cloneOption _ _).bind fun _ => frugal_pure _

/-! ## The surroundings -/

/-- One answer is used up. -/
inductive Draw (e : Env) : Env → Prop
  | heap : Draw e { e with heap := e.heap.tail }
  | send : Draw e { e with send := e.send.tail }
  | openResult : Draw e { e with openResult := e.openResult.tail }
  | clock : Draw e { e with clock := e.clock.tail }
  | ack : Draw e { e with ack := e.ack.tail }
  | sync : Draw e { e with sync := e.sync.tail }

/-- Surroundings that never fail: all memory is there, `xio_send` accepts every packet and the clock runs. -/
structure Generous (env : Env) : Prop where
  heap : env.heap = okHeap
  send : ∀ n, env.send n = .zero
  clock : ∀ n, env.clock n ≠ none

theorem Draw.okHeap {e e' : Env} (h : Draw e e') (he : e.heap = okHeap) : e'.heap = okHeap := by
  cases h with
  | heap => exact (congrArg Stream'.tail he).trans okHeap_tail
  | _ => exact he

theorem Draw.generous {e e' : Env} (h : Draw e e') (he : Generous e) : Generous e' := by
  refine ⟨h.okHeap he.heap, ?_, ?_⟩
  · cases h with
    | send => exact fun n => he.send (n + 1)
    | _ => exact he.send
  · cases h with
    | clock => exact fun n => he.clock (n + 1)
    | _ => exact he.clock

/-- On the way from one state of a session to another, answers are used up. -/
def Draws (s t : Session) : Prop := ReflTransGen Draw s.env t.env

section

variable {s t u : Session}

theorem Draws.refl (s : Session) : Draws s s := ReflTransGen.refl

theorem Draws.trans (h : Draws s t) (h' : Draws t u) : Draws s u := ReflTransGen.trans h h'

theorem Draws.one (h : Draw s.env t.env) : Draws s t := .single h

/-- What an answer does not spoil lasts. -/
theorem Draws.lasts {K : Env → Prop} (h : Draws s t) (hK : ∀ e e', Draw e e' → K e → K e') (hs : K s.env) : K t.env := by
  unfold Draws at h
  generalize t.env = e at h
  induction h with
  | refl => exact hs
  | tail _ hstep ih => exact hK _ _ hstep ih

theorem draws_heap (e : Env) (n : Nat) : ReflTransGen Draw e { e with heap := e.heap.drop n } := by
  induction n with
  | zero => exact .refl
  | succ n ih =>
    rw [← Stream'.tail_drop']
    exact ih.tail .heap

theorem draws_alloc {α : Type} {m : Alloc α} (hm : m.Frugal) {result : Option α} (h : s.alloc m = (result, t)) : Draws s t := by
  obtain ⟨n, hn⟩ := hm s.env.heap
  have ht : (s.alloc m).2 = t := congrArg Prod.snd h
  have henv : (s.alloc m).2.env = { s.env with heap := s.env.heap.drop n } := by
    rw [← hn]
    rfl
  rw [Draws, ← ht, henv]
  exact draws_heap s.env n

theorem draws_askClock (s : Session) : Draws s s.askClock.2 := .one .clock

theorem draws_callDisconnectCb (s : Session) : Draws s (callDisconnectCb s) := by
  unfold callDisconnectCb
  split <;> exact .refl _

theorem draws_callOnError (s : Session) (e : MqttClientEventError) : Draws s (callOnError s e) := by
  unfold callOnError
  split <;> exact .refl _

end

/-! ## The functions -/

section

variable {dispatch : List IoEvent → Session → Session} (hd : ∀ events s, Draws s (dispatch events s))

include hd

theorem draws_callBack (s : Session) : Draws s (callBack dispatch s) :=
  (Draws.one (t := { s with env := { s.env with sync := s.env.sync.tail } }) .sync).trans (hd _ _)

theorem draws_closeLoop (rounds : Nat) (s : Session) : Draws s (closeLoop dispatch rounds s) := by
  induction rounds generalizing s with
  | zero => exact .refl s
  | succ rounds ih =>
    have hwork : Draws s (xioDowork dispatch s) := draws_callBack hd (s.log (.xioDowork s.client.xioHandle))
    simp only [closeLoop]
    split
    · exact hwork.trans (ih _)
    · exact hwork

theorem draws_closeConnection (s : Session) : Draws s (closeConnection dispatch s) := by
  unfold closeConnection
  split
  · have hclose : Draws s (xioClose dispatch s) := draws_callBack hd (s.log (.xioClose s.client.xioHandle))
    dsimp only
    split
    · exact hclose.trans (draws_closeLoop hd _ _)
    · exact hclose
  · exact draws_callDisconnectCb s

theorem draws_setErrorCallback (s : Session) (e : MqttClientEventError) : Draws s (setErrorCallback dispatch s e) :=
  (draws_callOnError (s.log (.setErrorCallback e)) e).trans (draws_closeConnection hd _)

omit hd in
theorem draws_finishSend (s : Session) (result : MuResult) : Draws s (finishSend s result).1 := by
  unfold finishSend
  split
  · exact .refl s
  · have hclock := draws_askClock s
    rcases hask : s.askClock with ⟨_ | currentMs, s'⟩
    all_goals
      rw [hask] at hclock
      exact hclock

theorem draws_sendPacketItem (s : Session) (packet : Buffer) : Draws s (sendPacketItem dispatch s packet).1 := by
  have hhand : Draws s (s.handOver packet) := .one (t := s.handOver packet) .send
  rw [sendPacketItem_eq]
  exact (hhand.trans (draws_callBack hd _)).trans (draws_finishSend _ _)

theorem draws_sendComplete (s : Session) (sendResult : IoSendResult) : Draws s (sendComplete dispatch s sendResult) := by
  cases sendResult with
  | ioSendOk =>
    unfold sendComplete
    dsimp only
    split <;> exact .refl s
  | ioSendError => exact draws_setErrorCallback hd (s.log (.event (.sendComplete .ioSendError))) _
  | ioSendCancelled => exact .refl s

theorem draws_sendConnPacket (s : Session) : Draws s (sendConnPacket dispatch s) := by
  unfold sendConnPacket
  rcases halloc : s.alloc (mqttCodecConnect s.client.mqttOptions) with ⟨_ | packet, s'⟩
  all_goals have hstart : Draws s s' := draws_alloc (frugal_mqttCodecConnect _) halloc
  · exact hstart
  · have hsend : Draws s (sendPacketItem dispatch (s'.log (.connPacket (some packet))) packet).1 :=
      hstart.trans (draws_sendPacketItem hd (s'.log (.connPacket (some packet))) packet)
    dsimp only
    split
    · exact hsend.trans (draws_callOnError _ _)
    · exact hsend

theorem draws_handleEvent (s : Session) (e : IoEvent) : Draws s (handleEvent dispatch s e) := by
  cases e with
  | openComplete openResult =>
    unfold handleEvent onOpenComplete
    dsimp only
    split
    · exact draws_sendConnPacket hd (beginOpen (s.log (.event (.openComplete openResult))))
    · split
      · exact draws_callOnError (s.log (.event (.openComplete openResult))) _
      · exact .refl s
  | ioError => exact draws_setErrorCallback hd (s.log (.event .ioError)) _
  | sendComplete sendResult => exact draws_sendComplete hd s sendResult
  | closeComplete => exact draws_callDisconnectCb ((s.log (.event .closeComplete)).setStatus fun status => { status with socketConnected := false })

theorem draws_handleEvents (events : List IoEvent) (s : Session) : Draws s (events.foldl (handleEvent dispatch) s) := by
  induction events generalizing s with
  | nil => exact .refl s
  | cons e events ih => exact (draws_handleEvent hd s e).trans (ih _)

/-! ## Packets -/

theorem draws_sendReply (s : Session) {reply : Alloc Buffer} (hr : reply.Frugal) : Draws s (sendReply dispatch s reply) := by
  unfold sendReply
  rcases halloc : s.alloc reply with ⟨_ | packet, s'⟩
  all_goals have hstart : Draws s s' := draws_alloc hr halloc
  · exact hstart.trans (draws_setErrorCallback hd _ _)
  · have hsend := hstart.trans (draws_sendPacketItem hd s' packet)
    dsimp only
    split
    · exact hsend.trans (draws_setErrorCallback hd _ _)
    · exact hsend

theorem draws_sendMessageAck (s : Session) (packetId : UInt16) (qosValue : QosValue) :
    Draws s (sendMessageAck dispatch s packetId qosValue) := by
  unfold sendMessageAck
  split
  · exact draws_sendReply hd s (frugal_constructPublishReply _ _ _)
  · exact draws_sendReply hd s (frugal_constructPublishReply _ _ _)
  · exact .refl s

omit hd in
theorem draws_byteutilReadUTF (body : List UInt8) (iterator byteLen : Nat) (s : Session) :
    Draws s (byteutilReadUTF body iterator byteLen s).2 := by
  unfold byteutilReadUTF
  dsimp only
  split
  · split
    · rcases halloc : s.alloc takeMemory with ⟨_ | _, s'⟩ <;> exact draws_alloc frugal_takeMemory halloc
    · exact .refl s
  · exact .refl s

theorem draws_processPublishMessage (s : Session) (body : List UInt8) (flags : UInt8) :
    Draws s (processPublishMessage dispatch s body flags) := by
  have hread := draws_byteutilReadUTF body 0 body.length s
  unfold processPublishMessage
  dsimp only
  rcases hutf : byteutilReadUTF body 0 body.length s with ⟨⟨_ | topicName, iterator⟩, s'⟩
  all_goals rw [hutf] at hread
  · exact hread.trans (draws_setErrorCallback hd _ _)
  · dsimp only at hread ⊢
    generalize (if publishQosValue flags ≠ .deliverAtMostOnce then byteutilReadUint16 body iterator (body.length - iterator)
      else (0, iterator)) = packetId
    split
    · exact hread.trans (draws_setErrorCallback hd _ _)
    · rcases halloc : s'.alloc (mqttmessageCreateInPlace packetId.1 (some topicName) (publishQosValue flags)
        ((body.drop packetId.2).take (body.length - packetId.2))) with ⟨_ | msgHandle, s''⟩
      all_goals have hmsg : Draws s s'' := hread.trans (draws_alloc (frugal_mqttmessageCreateInPlace _ _ _ _) halloc)
      · exact hmsg.trans (draws_setErrorCallback hd _ _)
      · have hack : ∀ m, Draws s (fnMessageRecv s'' m).2 := fun m => hmsg.trans (.one (t := (fnMessageRecv s'' m).2) .ack)
        dsimp only
        split
        · exact (hack _).trans (draws_sendMessageAck hd _ _ _)
        · exact hack _

theorem draws_subackLoop (body : List UInt8) (remainLen iterator : Nat) (qosReturn : List QosValue) (s : Session) :
    Draws s (subackLoop dispatch body remainLen iterator qosReturn s).2 := by
  induction remainLen generalizing iterator qosReturn with
  | zero => exact .refl s
  | succ remainLen ih =>
    simp only [subackLoop]
    split
    · exact draws_setErrorCallback hd _ _
    · exact ih _ _

theorem draws_processSubackCodes (s : Session) (body : List UInt8) (packetId : UInt16) (iterator remainLen : Nat) :
    Draws s (processSubackCodes dispatch s body packetId iterator remainLen) := by
  unfold processSubackCodes
  split
  · rcases halloc : s.alloc takeMemory with ⟨_ | _, s'⟩
    all_goals have hstart : Draws s s' := draws_alloc frugal_takeMemory halloc
    · exact hstart.trans (draws_setErrorCallback hd _ _)
    · exact hstart.trans (draws_subackLoop hd body remainLen iterator [] s')
  · exact draws_setErrorCallback hd _ _

theorem draws_processPublishAck (s : Session) (packet : ControlPacketType) (body : List UInt8) :
    Draws s (processPublishAck dispatch s packet body) := by
  unfold processPublishAck
  dsimp only
  split
  · exact draws_setErrorCallback hd _ _
  · split
    · exact draws_sendReply hd (s.log _) (frugal_constructPublishReply _ _ _)
    · split
      · exact draws_sendReply hd (s.log _) (frugal_constructPublishReply _ _ _)
      · exact .refl s

theorem draws_processConnack (s : Session) (body : List UInt8) : Draws s (processConnack dispatch s body) := by
  unfold processConnack
  dsimp only
  split
  · exact draws_setErrorCallback hd _ _
  · split
    · exact draws_setErrorCallback hd _ _
    · split <;> exact .refl s

theorem draws_processPacket (s : Session) (packet : ControlPacketType) (flags : UInt8) (body : List UInt8) :
    Draws s (processPacket dispatch s packet flags body) := by
  cases packet with
  | connackType => exact draws_processConnack hd s body
  | publishType => exact draws_processPublishMessage hd s body flags
  | pubackType | pubrecType | pubrelType | pubcompType => exact draws_processPublishAck hd s _ body
  | subackType =>
    unfold processPacket processSuback
    dsimp only
    generalize subackRemainLen body.length = remainLen
    exact draws_processSubackCodes hd s body _ _ remainLen
  | unsubackType =>
    unfold processPacket processUnsuback
    dsimp only
    split
    · exact draws_setErrorCallback hd _ _
    · exact .refl s
  | _ => exact .refl s

theorem draws_recvCompleteCallback (packet : ControlPacketType) (flags : UInt8) (headerData : Option Buffer) (s : Session) :
    Draws s (recvCompleteCallback dispatch packet flags headerData s) := by
  unfold recvCompleteCallback
  dsimp only
  split
  · exact draws_processPacket hd (s.log (.packet packet flags headerData)) packet flags _
  · exact .refl s

/-! ## The functions of the application -/

theorem draws_onBytesReceived (w : World) (buffer : Option (List UInt8)) :
    Draws w.callContext (onBytesReceived dispatch w buffer).callContext := by
  have hbytes := bytesReceived_preserves (P := fun s => Draws w.callContext s)
    (fun packet flags headerData s hs => hs.trans (draws_recvCompleteCallback hd packet flags headerData s))
    (c := { w with callContext := w.callContext.log (.bytesReceived buffer) }) (.refl w.callContext) buffer
  unfold onBytesReceived
  dsimp only
  split
  · exact hbytes.trans (draws_setErrorCallback hd _ _)
  · exact hbytes

theorem draws_handleWork (w : World) (event : WorkEvent) : Draws w.callContext (handleWork dispatch w event).callContext := by
  cases event with
  | io e => exact draws_handleEvent hd w.callContext e
  | bytes buffer => exact draws_onBytesReceived hd w buffer

theorem draws_handleWorks (w : World) (events : List WorkEvent) :
    Draws w.callContext (events.foldl (handleWork dispatch) w).callContext := by
  induction events generalizing w with
  | nil => exact .refl _
  | cons event events ih => exact (draws_handleWork hd w event).trans (ih _)

theorem draws_sendRequest (s : Session) (t : ControlPacketType) {packet : Alloc Buffer} (hp : packet.Frugal) :
    Draws s (sendRequest dispatch s t packet).1 := by
  unfold sendRequest
  rcases halloc : s.alloc packet with ⟨_ | built, s'⟩
  all_goals have hstart : Draws s s' := draws_alloc hp halloc
  · exact hstart
  · exact hstart.trans (draws_sendPacketItem hd { s' with client := { s'.client with packetState := t } } built)

theorem draws_mqttClientConnect (s : Session) (xioHandle : Option XioHandle) (mqttOptions : Option MqttClientOptions) :
    Draws s (mqttClientConnect dispatch s xioHandle mqttOptions).1 := by
  unfold mqttClientConnect
  split
  · rename_i xioHandle mqttOptions
    have hclone : ∀ s : Session, Draws s (cloneMqttOptions s mqttOptions).1 := by
      intro s
      unfold cloneMqttOptions
      rcases halloc : s.alloc (clonedOptions mqttOptions s.client.mqttOptions) with ⟨_ | stored, s'⟩
      all_goals
        have hstart : Draws s s' := draws_alloc (frugal_clonedOptions _ _) halloc
        exact hstart
    have hcopied := hclone (beginConnect (s.log (.connect xioHandle mqttOptions)) xioHandle mqttOptions)
    dsimp only
    split
    · exact hcopied
    · have hopen : ∀ s : Session, Draws s (xioOpen dispatch s xioHandle).1 := fun s =>
        (Draws.one (t := { s with env := { s.env with openResult := s.env.openResult.tail } }.log
          (.xioOpen xioHandle s.env.openResult.head)) .openResult).trans (draws_callBack hd _)
      split <;> exact hcopied.trans (hopen _)
  · exact .refl s

theorem draws_mqttClientDisconnect (s : Session) (callback : Option DisconnectedCallback) :
    Draws s (mqttClientDisconnect dispatch s callback).1 := by
  unfold mqttClientDisconnect
  dsimp only
  split
  · rcases halloc : (s.log (.disconnect callback)).alloc mqttCodecDisconnect with ⟨_ | packet, s'⟩
    all_goals have hstart : Draws s s' := draws_alloc (s := s.log (.disconnect callback)) (frugal_emptyPacket _) halloc
    · exact hstart
    · exact hstart.trans (draws_sendPacketItem hd
        { s' with client := { s'.client with disconnectCb := callback, packetState := .disconnectType } } packet)
  · exact draws_closeConnection hd { s.log (.disconnect callback) with client := { s.client with disconnectCb := callback } }

theorem draws_sendPing (s : Session) : Draws s (sendPing dispatch s) := by
  unfold sendPing
  rcases halloc : s.alloc mqttCodecPing with ⟨_ | packet, s'⟩
  all_goals have hstart : Draws s s' := draws_alloc (frugal_emptyPacket _) halloc
  · exact hstart
  · have hsend := hstart.trans (draws_sendPacketItem hd s' packet)
    dsimp only
    split
    · exact hsend.trans (draws_setErrorCallback hd (resetPing _) _)
    · generalize (sendPacketItem dispatch s' packet).1 = t at hsend
      have hclock := hsend.trans (draws_askClock t)
      rcases hask : t.askClock with ⟨_ | currentMs, t'⟩
      all_goals
        rw [hask] at hclock
        exact hclock

theorem draws_keepAlive (s : Session) : Draws s (keepAlive dispatch s) := by
  unfold keepAlive
  split
  · have hclock := draws_askClock s
    rcases hask : s.askClock with ⟨_ | currentMs, s'⟩
    all_goals rw [hask] at hclock
    · exact hclock
    · dsimp only
      split
      · exact hclock.trans (draws_setErrorCallback hd _ _)
      · split
        · exact hclock.trans (draws_sendPing hd _)
        · exact hclock
  · exact .refl s

theorem draws_mqttClientDowork (w : World) (events : List WorkEvent) :
    Draws w.callContext (mqttClientDowork dispatch w events).callContext := by
  unfold mqttClientDowork
  split
  · exact .refl _
  · split
    · exact draws_closeConnection hd w.callContext
    · exact (draws_handleWorks hd { w with callContext := w.callContext.log (.xioDowork w.callContext.client.xioHandle) } events).trans
        (draws_keepAlive hd _)

end

/-- However deep the calls are nested. -/
theorem draws_deliver (depth : Nat) : ∀ events s, Draws s (deliver depth events s) := by
  induction depth with
  | zero => exact fun _ s => .refl s
  | succ depth ih => exact fun events s => draws_handleEvents ih events s

theorem draws_runCall (depth : Nat) (w : World) (call : Call) : Draws w.callContext (runCall depth w call).callContext := by
  have hd := draws_deliver depth
  have hrequest : ∀ (s : Session) (t : ControlPacketType) (packet : Alloc Buffer), packet.Frugal →
      Draws s (sendRequest (deliver depth) s t packet).1 := fun s t _ hp => draws_sendRequest hd s t hp
  cases call with
  | connect xioHandle mqttOptions => exact draws_mqttClientConnect hd _ xioHandle mqttOptions
  | publish msgHandle =>
    cases msgHandle with
    | none => exact .refl _
    | some msgHandle => exact hrequest _ _ _ (frugal_mqttCodecPublish _ _ _ _ _ _)
  | subscribe packetId subscribeList =>
    simp only [runCall, sessionCall, mqttClientSubscribe]
    split
    · exact .refl _
    · exact hrequest _ _ _ (frugal_mqttCodecSubscribe _ _)
  | unsubscribe packetId unsubscribeList =>
    simp only [runCall, sessionCall, mqttClientUnsubscribe]
    split
    · exact .refl _
    · exact hrequest _ _ _ (frugal_mqttCodecUnsubscribe _ _)
  | sendMessageResponse packetId qosValue =>
    simp only [runCall, sessionCall, mqttClientSendMessageResponse]
    split
    · exact .refl _
    · exact draws_sendMessageAck hd _ packetId qosValue
  | disconnect callback => exact draws_mqttClientDisconnect hd _ callback
  | dowork events => exact draws_mqttClientDowork hd w events
  | clearXio => exact .refl _
  | xio event => exact draws_handleWork hd w event

end Umqtt
