import Umqtt.Lemmas.Replay
import Umqtt.Theorems.Connected

/-!
# Bytes of earlier connections

The codec lives as long as the client, and only a parse error resets it. A connection that is begun while the codec is between two
packets is served as by a client that was created for it; one that is begun in the middle of a packet is not.
-/

namespace Umqtt

open Past

/-- What a connection is given: the connect, and the chunks that are received. -/
def connectionCalls (xioHandle : XioHandle) (mqttOptions : MqttClientOptions) (buffers : List (Option (List UInt8))) : List Call :=
  .connect (some xioHandle) (some mqttOptions) :: buffers.map fun buffer => .xio (.bytes buffer)

/-- The packets that are delivered from a connect on are those that a client delivers that was just created, whose codec the
allocator answers alike, on the chunks that are received from that connect on. -/
def ServedAsFresh (depth : Nat) (w : World) (xioHandle : XioHandle) (mqttOptions : MqttClientOptions) (calls : List Call) : Prop :=
  ∃ added, (run depth w (.connect (some xioHandle) (some mqttOptions) :: calls)).callContext.history =
      w.callContext.history ++ added ∧
    ∀ fnOnErrorCallBack env, deliveries added =
      deliveries (run depth (mqttClientInit fnOnErrorCallBack env w.heap)
        (connectionCalls xioHandle mqttOptions (chunks added))).callContext.history

/-- A created client that is given chunks delivers what their replay records. -/
theorem deliveries_connectionCalls (depth : Nat) (fnOnErrorCallBack : Bool) (env : Env) (heap : Heap) (xioHandle : XioHandle)
    (mqttOptions : MqttClientOptions) (buffers : List (Option (List UInt8))) :
    deliveries (run depth (mqttClientInit fnOnErrorCallBack env heap)
      (connectionCalls xioHandle mqttOptions buffers)).callContext.history =
        (replay ⟨mqttCodecCreate, heap, []⟩ buffers).callContext := by
  have hinit : Replays [] ⟨mqttCodecCreate, heap, []⟩ [] (mqttClientInit fnOnErrorCallBack env heap) :=
    ⟨SameParse.refl _, rfl, [], rfl, rfl, rfl⟩
  have hconnect : Replays [] ⟨mqttCodecCreate, heap, []⟩ []
      (runCall depth (mqttClientInit fnOnErrorCallBack env heap) (.connect (some xioHandle) (some mqttOptions))) :=
    hinit.silent ((silent_beginCall _ _).trans (silent_steps (steps_sessionCall depth _ _)))
  have hchunks : ∀ (more old : List (Option (List UInt8))) (w : World), Replays [] ⟨mqttCodecCreate, heap, []⟩ old w →
      Replays [] ⟨mqttCodecCreate, heap, []⟩ (old ++ more) (run depth w (more.map fun buffer => .xio (.bytes buffer))) := by
    intro more
    induction more with
    | nil =>
      intro old w h
      rwa [List.append_nil]
    | cons buffer more ih =>
      intro old w h
      rw [← List.singleton_append, ← List.append_assoc]
      exact ih _ _ (replays_onBytesReceived (steps_deliver depth) h buffer)
  obtain ⟨added, h1, h2, -⟩ := (hchunks buffers [] _ hconnect).context
  rw [List.nil_append] at h1 h2
  rw [← h2, ← h1]
  rfl

/-- A connection that is begun between two packets is served as by a created client. -/
theorem servedAsFresh_of_start {depth : Nat} {w : World} (hstart : w.inst.InitialParsing) (hinv : w.inst.Inv)
    (xioHandle : XioHandle) (mqttOptions : MqttClientOptions) (calls : List Call) :
    ServedAsFresh depth w xioHandle mqttOptions calls := by
  have hflags := (hinv.start hstart.currPacket).2
  have hbegin : Replays w.callContext.history ⟨mqttCodecCreate, w.heap, []⟩ [] w := by
    refine ⟨?_, rfl, [], by simp, rfl, rfl⟩
    rw [eq_startAt hstart hflags, ← startAt_zero]
    exact sameParse_startAt _ _
  obtain ⟨buffers, hrun⟩ := replays_run hbegin (.connect (some xioHandle) (some mqttOptions) :: calls)
  obtain ⟨added, h1, h2, h3⟩ := hrun.context
  refine ⟨added, h1, ?_⟩
  intro fnOnErrorCallBack env
  rw [deliveries_connectionCalls, h3, h2]

/-- `mqtt_client_connect` is called only when the codec is between two packets. -/
def ConnectsAtStart (w : World) (call : Call) : Prop := call.connects = true → w.inst.InitialParsing

instance (w : World) (call : Call) : Decidable (ConnectsAtStart w call) := inferInstanceAs (Decidable (_ → _))

/-- In every run whose connects find the codec between two packets, every connection is served as by a created client, up to the
next connect and beyond. -/
theorem connections_isolated (depth : Nat) (fnOnErrorCallBack : Bool) (env : Env) (heap : Heap) (calls : List Call)
    (h : RunMeets ConnectsAtStart depth (mqttClientInit fnOnErrorCallBack env heap) calls) :
    ∀ before xioHandle mqttOptions after, calls = before ++ .connect (some xioHandle) (some mqttOptions) :: after →
      ServedAsFresh depth (run depth (mqttClientInit fnOnErrorCallBack env heap) before) xioHandle mqttOptions after := by
  rintro before xioHandle mqttOptions after rfl
  refine servedAsFresh_of_start ?_ (inv_run inv_clearCodecData before) xioHandle mqttOptions after
  exact (runMeets_append.mp h).2.1 rfl

/-- A connection that is lost after a whole packet, and the next one. -/
theorem connections_isolated_connack :
    ServedAsFresh 1 (run 1 (mqttClientInit true calmEnv okHeap) (openedWith 1 0 ++ [.xio (.io .ioError)])) 2 plainOptions
      [.xio (.bytes (some [0xD0])), .xio (.bytes (some [0x00]))] := by
  have hmeets : RunMeets ConnectsAtStart 1 (mqttClientInit true calmEnv okHeap)
      (openedWith 1 0 ++ [.xio (.io .ioError)] ++ .connect (some 2) (some plainOptions) ::
        [.xio (.bytes (some [0xD0])), .xio (.bytes (some [0x00]))]) := by decide +kernel
  exact connections_isolated 1 true calmEnv okHeap _ hmeets _ 2 plainOptions _ rfl

/-- A connection is lost after the first byte of a packet. On the next one a PINGRESP is not delivered. -/
theorem not_servedAsFresh_cut :
    ¬ServedAsFresh 1
      (run 1 (mqttClientInit true calmEnv okHeap)
        [.connect (some 1) (some plainOptions), .xio (.io (.openComplete .ioOpenOk)), .xio (.bytes (some [0x30])), .xio (.io .ioError)])
      2 plainOptions [.xio (.io (.openComplete .ioOpenOk)), .xio (.bytes (some [0xD0, 0x00]))] := by
  rintro ⟨added, hadded, h⟩
  have hdrop := List.drop_left.symm.trans (congrArg (List.drop _) hadded.symm)
  rw [hdrop] at h
  exact absurd (h true calmEnv) (by decide +kernel)

end Umqtt
