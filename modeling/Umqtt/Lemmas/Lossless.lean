import Umqtt.Lemmas.Speech
import Umqtt.Lemmas.Supply

/-!
# Packets when there is memory

A packet is lost when it is malformed or when there is no memory for what it leads to (`Action.Loss`). Where the allocator does not fail, a
well-formed packet is not lost, whatever the xio and the application do.
-/

namespace Umqtt

open Alloc Transcript

/-- An error that is reported when a packet is malformed, or when there is no memory. -/
def Action.Loss (a : Action) : Prop := a = .setErrorCallback .parseError ∨ a = .setErrorCallback .memoryError

/-- No packet is lost on the way from one state of a session to another. -/
abbrev Spares : Session → Session → Prop := Adds fun a => ¬a.Loss

/-- A body that is not lost for what it is: a PUBLISH stands for a message, and the return codes of a SUBACK can be counted. -/
structure Wholesome (packet : ControlPacketType) (flags : UInt8) (body : List UInt8) : Prop where
  publish : packet = .publishType → publishMessage flags body ≠ none
  suback : packet = .subackType → safeMultiplySizeT sizeofQosValue (subackRemainLen body.length) ≠ sizeMax

theorem Action.Nested.not_loss {a : Action} (h : a.Nested) : ¬a.Loss := by
  rintro (rfl | rfl)
  · rcases h with h | h <;> cases h
  · rcases h with h | h <;> cases h

theorem spares_nested {s t : Session} (h : Adds Action.Nested s t) : Spares s t := h.mono fun _ => Action.Nested.not_loss

/-- What is observed on the way is no loss. -/
theorem not_loss_of_speaks {s t : Session} {l : List Action} (h : Speaks s t l) (hs : Spares s t) : ∀ a ∈ l, ¬a.Loss := by
  obtain ⟨added, hadded, rfl⟩ := h
  obtain ⟨added', hadded', hnone⟩ := hs
  obtain rfl := List.append_cancel_left (hadded.symm.trans hadded')
  exact fun a ha => hnone a (List.mem_of_mem_filter ha)

section

variable {dispatch : List IoEvent → Session → Session} (hd : ∀ events s, Adds Action.Nested s (dispatch events s))

include hd

theorem spares_communicationError (s : Session) : Spares s (setErrorCallback dispatch s .communicationError) :=
  spares_nested (nested_setErrorCallback hd s (Or.inr rfl))

/-- A reply is built. -/
theorem spares_sendReply {s : Session} (h : s.env.heap = okHeap) (t : ControlPacketType) (flags : UInt8) (packetId : UInt16) :
    Spares s (sendReply dispatch s (constructPublishReply t flags packetId)) := by
  unfold sendReply
  rw [alloc_okHeap h (gives_constructPublishReply t flags packetId)]
  have hhand : Spares s (s.handOver (Buffer.ofBytes (replyBytes t flags packetId))) := ⟨[_], rfl, by simp [Action.Loss]⟩
  have hsend := hhand.trans (spares_nested (nested_sendPacketItem hd s _))
  dsimp only
  split
  · exact hsend.trans (spares_communicationError hd _)
  · exact hsend

theorem spares_sendMessageAck {s : Session} (h : s.env.heap = okHeap) (packetId : UInt16) (qosValue : QosValue) :
    Spares s (sendMessageAck dispatch s packetId qosValue) := by
  unfold sendMessageAck
  split
  · exact spares_sendReply hd h _ _ _
  · exact spares_sendReply hd h _ _ _
  · exact .refl s

/-- A PUBLISH that stands for a message is handed to the application. -/
theorem spares_processPublishMessage {s : Session} (h : s.env.heap = okHeap) {flags : UInt8} {body : List UInt8}
    (hm : publishMessage flags body ≠ none) : Spares s (processPublishMessage dispatch s body flags) := by
  have hmet : Meets s.env.heap 2 := h ▸ meets_okHeap 2
  obtain ⟨n, heq⟩ := @processPublishMessage_met dispatch s hmet flags body
  obtain ⟨m, hm⟩ := Option.ne_none_iff_exists'.mp hm
  rw [takeAnswers_okHeap h, hm] at heq
  have hrecv : Spares s (fnMessageRecv s m).2 := ⟨[.messageRecv m s.env.ack.head], rfl, by simp [Action.Loss]⟩
  rw [heq]
  dsimp only
  split
  · exact hrecv.trans (spares_sendMessageAck (s := (fnMessageRecv s m).2) hd h _ _)
  · exact hrecv

theorem spares_processPublishAck {s : Session} (h : s.env.heap = okHeap) (packet : ControlPacketType) (body : List UInt8) :
    Spares s (processPublishAck dispatch s packet body) := by
  unfold processPublishAck
  dsimp only
  split
  · exact spares_communicationError hd s
  · generalize byteutilReadUint16 body 0 body.length = r
    have hevent : Spares s (s.log (.operation (publishAckAction packet r.1))) := adds_log s (by simp [Action.Loss])
    split
    · exact hevent.trans (spares_sendReply (s := s.log _) hd h _ _ _)
    · split
      · exact hevent.trans (spares_sendReply (s := s.log _) hd h _ _ _)
      · exact hevent

theorem spares_processConnack (s : Session) (body : List UInt8) : Spares s (processConnack dispatch s body) := by
  unfold processConnack
  dsimp only
  split
  · exact spares_communicationError hd s
  · split
    · exact spares_communicationError hd s
    · split <;> exact (adds_log (a := .operation _) s (by simp [Action.Loss])).of_history rfl

/-- The return codes of a SUBACK that can be counted are read. -/
theorem spares_processSubackCodes {s : Session} (h : s.env.heap = okHeap) {body : List UInt8} (packetId : UInt16) {iterator remainLen : Nat}
    (hsize : safeMultiplySizeT sizeofQosValue remainLen ≠ sizeMax) (hlen : iterator + remainLen ≤ body.length) :
    Spares s (processSubackCodes dispatch s body packetId iterator remainLen) := by
  obtain ⟨added, hadded, hnone⟩ := (speaks_subackLoop hd body remainLen iterator [] hlen s).2
  have hcodes : Spares s (subackLoop dispatch body remainLen iterator [] s).2 := by
    refine ⟨added, hadded, ?_⟩
    rintro a ha (rfl | rfl) <;> exact List.filter_eq_nil_iff.mp hnone _ ha rfl
  unfold processSubackCodes
  rw [if_pos hsize, alloc_okHeap h gives_takeMemory]
  exact hcodes.trans (adds_log _ (by simp [Action.Loss]))

theorem spares_processSuback {s : Session} (h : s.env.heap = okHeap) {body : List UInt8}
    (hsize : safeMultiplySizeT sizeofQosValue (subackRemainLen body.length) ≠ sizeMax) : Spares s (processSuback dispatch s body) := by
  have htwo : 2 ≤ body.length := le_of_safeMultiplySizeT hsize
  have hremain := subackRemainLen_le htwo
  have hread : byteutilReadUint16 body 0 body.length = (idOf body, 2) := by rw [idOf, byteutilReadUint16, if_pos htwo]
  rw [processSuback, hread]
  exact spares_processSubackCodes hd h _ hsize hremain

/-- A body that is not lost for what it is, is not lost. -/
theorem spares_processPacket {s : Session} (h : s.env.heap = okHeap) {packet : ControlPacketType} {flags : UInt8} {body : List UInt8}
    (hw : Wholesome packet flags body) : Spares s (processPacket dispatch s packet flags body) := by
  cases packet with
  | connackType => exact spares_processConnack hd s body
  | publishType => exact spares_processPublishMessage hd h (hw.publish rfl)
  | pubackType | pubrecType | pubrelType | pubcompType => exact spares_processPublishAck hd h _ body
  | subackType => exact spares_processSuback hd h (hw.suback rfl)
  | unsubackType =>
    unfold processPacket processUnsuback
    dsimp only
    split
    · exact spares_communicationError hd s
    · exact adds_log s (by simp [Action.Loss])
  | pingrespType => exact (adds_log (a := .operation .onPingResponse) s (by simp [Action.Loss])).of_history rfl
  | _ => exact .refl s

theorem spares_recvCompleteCallback {s : Session} (h : s.env.heap = okHeap) {packet : ControlPacketType} {flags : UInt8}
    {headerData : Option Buffer} (hw : Wholesome packet flags (bodyOf headerData)) :
    Spares s (recvCompleteCallback dispatch packet flags headerData s) := by
  have hpacket : Spares s (s.log (.packet packet flags headerData)) := adds_log s (by simp [Action.Loss])
  unfold recvCompleteCallback
  dsimp only
  split
  · exact hpacket.trans (spares_processPacket (s := s.log _) hd h hw)
  · exact hpacket

end

end Umqtt
