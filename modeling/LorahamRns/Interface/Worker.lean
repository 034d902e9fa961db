import LorahamRns.Framing.Reassembler
import LorahamRns.Interface.Programmed
import LorahamRns.Lib.Monitor
import LorahamRns.Radio.Transmit

/-!
# The worker loops

What the threads of the interface run: the RX and TX workers, `process_outgoing` and
`detach`, as programs over one set of calls.  A loop is cut into its turns; a turn ends
with the loop test to go on at.
-/

namespace LorahamRns.Interface

open LorahamRns.Lib LorahamRns.Framing LorahamRns.Radio

/-- `MAX_DUTY_HOLD`. -/
def maxDutyHold : ℚ := 120

/-- `MAX_QUEUE_PACKETS`. -/
def maxQueuePackets : ℕ := 64

/-! ## Calls -/

/-- An entry of the queue: the packet and when it was queued. -/
structure Packet where
  data : Bytes
  queuedAt : ℚ

/-- What a worker catches: `SpiBusError`, `RadioError`, `DutyError`, or another exception. -/
inductive Raised where
  | spiBus
  | radio
  | duty
  | other
  deriving DecidableEq

/-- How `duty.reserve` comes back. -/
inductive Verdict where
  | granted
  | refused
  | raises (reason : Raised)

/-- The lines the interface writes through `RNS.log`. -/
inductive Notice where
  | fatal
  | received
  | rxError
  | dropped
  | unconfirmed
  | txBlocked
  | txError
  | oversize
  | queueFull
  deriving DecidableEq

/-- The calls of the threads.  `handOver` is the call of `radio.transmit` itself, with the
place of the frame in its packet; the calls of the driver behind it are `radio`. -/
inductive Call where
  | readRun
  | clearRun
  | readOnline
  | clearOnline
  | setFatal (cause : Raised)
  | setEvent
  | waitEvent
  | clearEvent
  | queueLength
  | append (packet : Packet)
  | popleft
  | readActive
  | setActive
  | clearActive
  | acquire
  | release
  | radio (effect : Radio.Effect)
  | waitIrq
  | handOver (place : ℕ) (frame : Bytes)
  | random
  | reserve (toa : ℚ)
  | time
  | sleep (seconds : ℚ)
  | log (notice : Notice)
  | logTx (confirmed : Bool) (frame : Bytes)
  | logRx (reception : Reception)
  | feed (frame : Bytes)
  | inbound (data : Bytes)
  | closeRadio
  | closeBus
  | closeLog

/-- `none` where a call of the driver raises what the drivers do not raise themselves, or
the queue is empty; `false` where a line could not be read or a log or the transport
raises. -/
@[reducible]
def Call.Answer : Call → Type
  | .readRun | .readOnline | .readActive | .waitEvent => Bool
  | .queueLength => ℕ
  | .popleft => Option Packet
  | .radio effect => Option effect.Answer
  | .random => UInt8
  | .reserve _ => Verdict
  | .time => ℚ
  | .feed _ => Option Bytes
  | .waitIrq | .log _ | .logTx _ _ | .logRx _ | .inbound _ => Bool
  | _ => Unit

abbrev Worker (α : Type) : Type := Program Call Call.Answer Raised α

/-- What the interface makes of a driver's exceptions. -/
def Raised.ofFault : Fault → Raised
  | .spiBus => .spiBus
  | .radio => .radio
  | _ => .other

/-- A driver call made by a worker. -/
def drive {α : Type} : Driver α → Worker α
  | .done value => .done value
  | .fail fault => .fail (.ofFault fault)
  | .call effect next => .call (.radio effect) fun reply =>
      Option.elim reply (.fail .other) fun reply => drive (next reply)

theorem drive_bind {α β : Type} (program : Driver α) (next : α → Driver β) :
    drive (program.bind next) = (drive program).bind fun value => drive (next value) := by
  induction program with
  | done => rfl
  | fail => rfl
  | call effect rest ih =>
      change Program.call (Call.radio effect) _ = Program.call (Call.radio effect) _
      refine congrArg _ (funext fun reply => ?_)
      cases reply with
      | none => rfl
      | some reply => exact ih reply

/-- A driver call makes the calls of its driver. -/
theorem only_drive {α : Type} {permitted : Radio.Effect → Prop} {program : Driver α}
    (h : program.Only permitted) :
    (drive program).Only fun call => ∃ effect, call = .radio effect ∧ permitted effect := by
  induction program with
  | done => trivial
  | fail => trivial
  | call effect next ih =>
      refine ⟨⟨effect, rfl, h.1⟩, fun reply => ?_⟩
      cases reply with
      | none => trivial
      | some reply => exact ih reply (h.2 reply)

/-- A call that raises another exception where it does not succeed. -/
def attempt (call : Call) (succeeded : call.Answer → Bool) : Worker Unit :=
  .call call fun reply => if succeeded reply then .done () else .fail .other

def log (notice : Notice) : Worker Unit := attempt (.log notice) id

/-- `with self._radio_lock:`. -/
def withLock {α : Type} (body : Worker α) : Worker α :=
  .call .acquire fun _ => body.ensuring (.call .release .done)

/-- Where a worker goes on after a turn: at the test of its outer or inner loop, or
nowhere. -/
inductive Next where
  | outer
  | inner
  | ended
  | failed (cause : Raised)

/-- `_fail`. -/
def fail (cause : Raised) : Worker Unit :=
  .call .readRun fun run =>
    if run then
      .call .clearRun fun _ => .call .setEvent fun _ => .call .clearOnline fun _ =>
        .call (.setFatal cause) fun _ => log .fatal
    else .done ()

/-- `self._fail(exc)` and the `return` behind it. -/
def failAndReturn (cause : Raised) : Worker Next := (fail cause).bind fun _ => .done (.failed cause)

/-! ## Receiving -/

/-- What `_rx_loop` does with a packet of the radio. -/
def received (iface : LoRaSPIInterface) (reception : Reception) : Worker Unit := do
  log .received
  attempt (.logRx reception) id
  let data := reception.payload.map UInt8.ofNat
  if iface.rnodeFraming then
    .call (.feed data) fun
      | none => .done ()
      | some packet => attempt (.inbound packet) id
  else attempt (.inbound data) id

/-- The look at `_tx_active` and the `poll_rx` under `_radio_lock`. -/
def poll (iface : LoRaSPIInterface) : Worker (Option Reception) :=
  withLock <| .call .readActive fun active =>
    if active then .done none else drive (Radio.pollRx iface.profile iface.settings)

/-- `self.radio.wait_irq(0.1)`, which raises `RadioError` only. -/
def waitIrq : Worker Unit :=
  .call .waitIrq fun succeeded => if succeeded then .done () else .fail .radio

/-- The `try` block of `_rx_loop`. -/
def rxBody (iface : LoRaSPIInterface) : Worker Unit :=
  .call .readActive fun active =>
    if active then .call (.sleep 0.005) .done
    else do
      waitIrq
      match ← poll iface with
      | none => .done ()
      | some reception => received iface reception

/-- The handlers of `_rx_loop`. -/
def rxHandler : Raised → Worker Next
  | .spiBus => failAndReturn .spiBus
  | .radio => failAndReturn .radio
  | _ => .call .readRun fun run =>
      if run then do
        log .rxError
        .call (.sleep 0.5) fun _ => .done .outer
      else .done .outer

/-- One turn of `_rx_loop`. -/
def rxTurn (iface : LoRaSPIInterface) : Worker Next :=
  .call .readRun fun run =>
    if run then ((rxBody iface).bind fun _ => .done .outer).rescue rxHandler
    else .done .ended

/-! ## Transmitting -/

/-- The frames of a packet. -/
def framesOf (iface : LoRaSPIInterface) (data : Bytes) : Worker (List Bytes) :=
  if iface.rnodeFraming then
    .call .random fun random =>
      match frame data random with
      | some frames => .done frames
      | none => .fail .other
  else .done [data]

/-- The sum of `time_on_air` taken frame by frame. -/
def airtime (iface : LoRaSPIInterface) (frames : List Bytes) : Except Fault ℚ := do
  let airtimes ← frames.mapM fun frame => charge iface.settings frame.length
  pure airtimes.sum

/-- The reservation loop: whether the packet was granted its airtime.  `tries` is how many
refusals still come before the hold is over at the latest. -/
def hold (packet : Packet) (toa : ℚ) : ℕ → Worker Bool
  | 0 => .call (.reserve toa) fun
      | .granted => .done true
      | .refused => .call .time fun _ => (log .dropped).bind fun _ => .done false
      | .raises reason => .fail reason
  | tries + 1 => .call (.reserve toa) fun
      | .granted => .done true
      | .refused => .call .time fun now =>
          if maxDutyHold < now - packet.queuedAt then
            (log .dropped).bind fun _ => .done false
          else .call (.sleep 0.25) fun _ => hold packet toa tries
      | .raises reason => .fail reason

/-- What `_transmit` writes down about a frame. -/
def noteSent (frame : Bytes) (confirmed : Bool) : Worker Unit :=
  if confirmed then attempt (.logTx true frame) id
  else (log .unconfirmed).bind fun _ => attempt (.logTx false frame) id

/-- The `for` loop of `_transmit`, from a place in the packet on.  `polls` bounds the
status polls of a transmission. -/
def sendFrames (iface : LoRaSPIInterface) (timeoutS : ℚ) (polls : ℕ) :
    ℕ → List Bytes → Worker Unit
  | _, [] => .done ()
  | place, frame :: rest => .call (.handOver place frame) fun _ => do
      noteSent frame
        (← (Radio.transmit iface.profile iface.settings frame timeoutS polls).within drive)
      sendFrames iface timeoutS polls (place + 1) rest

/-- The frames, then continuous reception, under the `finally` that clears `_tx_active`. -/
def keyUp (iface : LoRaSPIInterface) (timeoutS : ℚ) (polls : ℕ) (frames : List Bytes) :
    Worker Unit :=
  ((sendFrames iface timeoutS polls 0 frames).bind fun _ =>
    withLock (drive (Radio.startRx iface.profile iface.settings))).ensuring
      (.call .clearActive .done)

/-- `_transmit`; `fuel` bounds the refusals and the status polls. -/
def transmit (iface : LoRaSPIInterface) (packet : Packet) (fuel : ℕ) : Worker Unit := do
  let frames ← framesOf iface packet.data
  let toa ← .ofExcept ((airtime iface frames).mapError .ofFault)
  let granted ← hold packet toa fuel
  if granted then do
    withLock (.call .setActive .done)
    keyUp iface (max 5 (toa * 4)) fuel frames
  else .done ()

/-- The handlers of `_tx_loop`. -/
def txHandler : Raised → Worker Next
  | .spiBus => failAndReturn .spiBus
  | .radio => failAndReturn .radio
  | .duty => (log .txBlocked).bind fun _ => .done .inner
  | .other => (log .txError).bind fun _ => .done .inner

/-- The `try` statement of `_tx_loop`. -/
def txPacket (iface : LoRaSPIInterface) (packet : Packet) (fuel : ℕ) : Worker Next :=
  ((transmit iface packet fuel).bind fun _ => .done .inner).rescue txHandler

/-- One turn of the outer loop of `_tx_loop`, up to the inner one. -/
def txOuter : Worker Next :=
  .call .readRun fun run =>
    if run then .call .waitEvent fun _ => .call .clearEvent fun _ => .done .inner
    else .done .ended

/-- One turn of the inner loop of `_tx_loop`. -/
def txInner (iface : LoRaSPIInterface) (fuel : ℕ) : Worker Next :=
  .call .queueLength fun length =>
    if length = 0 then .done .outer
    else .call .readRun fun run =>
      if run then .call .popleft fun
        | some packet => txPacket iface packet fuel
        | none => .fail .other
      else .done .outer

/-! ## The callers -/

/-- `process_outgoing`. -/
def processOutgoing (iface : LoRaSPIInterface) (data : Bytes) : Worker Next :=
  .call .readOnline fun online =>
    if online then
      if iface.maxPacket < data.length then (log .oversize).bind fun _ => .done .ended
      else .call .queueLength fun length =>
        if maxQueuePackets ≤ length then (log .queueFull).bind fun _ => .done .ended
        else .call .time fun now => .call (.append ⟨data, now⟩) fun _ =>
          .call .setEvent fun _ => .done .ended
    else .done .ended

/-- `detach`. -/
def detach : Worker Next :=
  .call .clearRun fun _ => .call .setEvent fun _ => .call .clearOnline fun _ =>
    .call (.sleep 0.15) fun _ => .call .closeRadio fun _ => .call .closeBus fun _ =>
      .call .closeLog fun _ => .done .ended

/-! ## A board -/

/-- The LoRaHAM board on 868 MHz with the settings of its defaults. -/
def loraham : LoRaSPIInterface where
  profile := ⟨.sx1276, 7, some 6, none, none, 0, false⟩
  settings := ⟨869525000, 125000, 8, 5, 14, 0x12, 8⟩
  rnodeFraming := false
  maxPacket := 255
  hwMtu := 255
  shortLimit := 10
  longLimit := 10
  bitrate := 3125
  maxAge := none

/-! ## The calls of the parts -/

/-- A call of the driver. -/
def Call.IsRadio (call : Call) : Prop := ∃ effect, call = .radio effect

theorem only_radio {α : Type} (program : Driver α) : (drive program).Only Call.IsRadio :=
  (only_drive (Program.only_any program)).mono fun _ ⟨effect, same, _⟩ => ⟨effect, same⟩

theorem only_within {α : Type} {permitted : Call → Prop} {call : Guarded α}
    (before : (drive call.before).Only permitted)
    (body : ∀ deadline, (drive (call.body deadline)).Only permitted)
    (cleanUp : (drive call.cleanUp).Only permitted) : (call.within drive).Only permitted :=
  before.bind fun deadline => (body deadline).ensuring cleanUp

theorem attempt_only {call : Call} {succeeded : call.Answer → Bool} {permitted : Call → Prop}
    (h : permitted call) : (attempt call succeeded).Only permitted := by
  refine ⟨h, fun reply => ?_⟩
  dsimp only
  split
  · trivial
  · trivial

theorem framesOf_only (iface : LoRaSPIInterface) (data : Bytes) :
    (framesOf iface data).Only (· = .random) := by
  unfold framesOf
  split
  · refine ⟨rfl, fun random => ?_⟩
    dsimp only
    split
    · trivial
    · trivial
  · trivial

/-- A packet has at least one frame. -/
theorem frame_ne_nil {data : Bytes} {random : UInt8} {frames : List Bytes}
    (h : frame data random = some frames) : frames ≠ [] := by
  unfold frame at h
  obtain ⟨_, same⟩ := Option.ite_none_left_eq_some.mp h
  obtain rfl := Option.some_inj.mp same
  split
  · exact List.cons_ne_nil _ _
  · next some => exact List.map_eq_nil_iff.not.mpr some

theorem fail_only (cause : Raised) :
    (fail cause).Only fun call => call = .readRun ∨ call = .clearRun ∨ call = .setEvent ∨
      call = .clearOnline ∨ call = .setFatal cause ∨ call = .log .fatal := by
  refine ⟨by simp, fun run => ?_⟩
  cases run with
  | false => trivial
  | true =>
      exact ⟨by simp, fun _ => ⟨by simp, fun _ => ⟨by simp, fun _ => ⟨by simp, fun _ =>
        attempt_only (by simp)⟩⟩⟩⟩

theorem hold_only (packet : Packet) (toa : ℚ) (tries : ℕ) :
    (hold packet toa tries).Only fun call => call = .reserve toa ∨ call = .time ∨
      call = .log .dropped ∨ call = .sleep 0.25 := by
  induction tries with
  | zero =>
      refine ⟨by simp, fun verdict => ?_⟩
      cases verdict with
      | granted => trivial
      | refused => exact ⟨by simp, fun _ => (attempt_only (by simp)).bind fun _ => trivial⟩
      | raises => trivial
  | succ tries ih =>
      refine ⟨by simp, fun verdict => ?_⟩
      cases verdict with
      | granted => trivial
      | refused =>
          refine ⟨by simp, fun now => ?_⟩
          dsimp only
          split
          · exact (attempt_only (by simp)).bind fun _ => trivial
          · exact ⟨by simp, fun _ => ih⟩
      | raises => trivial

theorem noteSent_only (frame : Bytes) (confirmed : Bool) :
    (noteSent frame confirmed).Only fun call =>
      call = .log .unconfirmed ∨ call = .logTx confirmed frame := by
  unfold noteSent
  split
  · next sent =>
      subst sent
      exact attempt_only (by simp)
  · next unsent =>
      obtain rfl := eq_false_of_ne_true unsent
      exact (attempt_only (by simp)).bind fun _ => attempt_only (by simp)

theorem received_only (iface : LoRaSPIInterface) (reception : Reception) :
    (received iface reception).Only fun call => call = .log .received ∨
      (∃ reception, call = .logRx reception) ∨ (∃ data, call = .feed data) ∨
        ∃ data, call = .inbound data := by
  refine (attempt_only (by simp)).bind fun _ => (attempt_only (by simp)).bind fun _ => ?_
  dsimp only
  split
  · refine ⟨by simp, fun fed => ?_⟩
    cases fed with
    | none => trivial
    | some packet => exact attempt_only (by simp)
  · exact attempt_only (by simp)

/-- The calls of `_transmit`. -/
def Call.OfTransmit : Call → Prop
  | .random | .reserve _ | .time | .log _ | .sleep _ | .acquire | .release | .setActive
  | .clearActive | .radio _ | .handOver _ _ | .logTx _ _ => True
  | _ => False

/-- The calls of the `try` block of `_rx_loop`. -/
def Call.OfReceive : Call → Prop
  | .readActive | .sleep _ | .waitIrq | .acquire | .release | .radio _ | .log _ | .logRx _
  | .feed _ | .inbound _ => True
  | _ => False

theorem drive_ofTransmit {α : Type} (program : Driver α) : (drive program).Only Call.OfTransmit :=
  (only_radio program).mono fun _ ⟨_, same⟩ => same ▸ trivial

theorem sendFrames_only (iface : LoRaSPIInterface) (timeoutS : ℚ) (polls place : ℕ)
    (frames : List Bytes) :
    (sendFrames iface timeoutS polls place frames).Only Call.OfTransmit := by
  induction frames generalizing place with
  | nil => trivial
  | cons frame rest ih =>
      refine ⟨trivial, fun _ => Program.Only.bind (only_within (drive_ofTransmit _)
        (fun _ => drive_ofTransmit _) (drive_ofTransmit _)) fun confirmed => ?_⟩
      refine ((noteSent_only frame confirmed).mono fun call kind => ?_).bind fun _ => ih _
      rcases kind with rfl | rfl
      · trivial
      · trivial

theorem withLock_only {α : Type} {permitted : Call → Prop} {body : Worker α}
    (acquire : permitted .acquire) (release : permitted .release) (h : body.Only permitted) :
    (withLock body).Only permitted :=
  ⟨acquire, fun _ => h.ensuring ⟨release, fun _ => trivial⟩⟩

theorem transmit_only (iface : LoRaSPIInterface) (packet : Packet) (fuel : ℕ) :
    (transmit iface packet fuel).Only Call.OfTransmit := by
  refine ((framesOf_only iface packet.data).mono fun _ same => same ▸ trivial).bind fun frames => ?_
  refine Program.Only.bind ?_ fun toa => ?_
  · cases (airtime iface frames).mapError Raised.ofFault
    · trivial
    · trivial
  refine ((hold_only packet toa fuel).mono fun call kind => ?_).bind fun granted => ?_
  · rcases kind with rfl | rfl | rfl | rfl
    · trivial
    · trivial
    · trivial
    · trivial
  cases granted with
  | false => trivial
  | true =>
      have sets : (withLock (.call .setActive .done)).Only Call.OfTransmit :=
        withLock_only trivial trivial ⟨trivial, fun _ => trivial⟩
      refine sets.bind fun _ => Program.Only.ensuring ?_ ⟨trivial, fun _ => trivial⟩
      exact (sendFrames_only iface _ _ _ _).bind fun _ =>
        withLock_only trivial trivial (drive_ofTransmit _)

theorem rxBody_only (iface : LoRaSPIInterface) : (rxBody iface).Only Call.OfReceive := by
  refine ⟨trivial, fun active => ?_⟩
  cases active with
  | true => exact ⟨trivial, fun _ => trivial⟩
  | false =>
      refine Program.Only.bind ⟨trivial, fun woken => ?_⟩ fun _ => Program.Only.bind
        (withLock_only trivial trivial ⟨trivial, fun active => ?_⟩) fun got => ?_
      · cases woken <;> trivial
      · cases active with
        | true => trivial
        | false => exact (only_radio _).mono fun _ ⟨_, same⟩ => same ▸ trivial
      · cases got with
        | none => trivial
        | some reception =>
            refine (received_only iface reception).mono fun call kind => ?_
            rcases kind with rfl | ⟨_, rfl⟩ | ⟨_, rfl⟩ | ⟨_, rfl⟩
            · trivial
            · trivial
            · trivial
            · trivial

/-- The calls of the handlers. -/
def Call.OfHandler : Call → Prop
  | .readRun | .clearRun | .setEvent | .clearOnline | .setFatal _ | .log _ | .sleep _ => True
  | _ => False

theorem failAndReturn_only (cause : Raised) : (failAndReturn cause).Only Call.OfHandler := by
  refine ((fail_only cause).mono fun call kind => ?_).bind fun _ => trivial
  rcases kind with rfl | rfl | rfl | rfl | rfl | rfl
  · trivial
  · trivial
  · trivial
  · trivial
  · trivial
  · trivial

theorem rxHandler_only (reason : Raised) : (rxHandler reason).Only Call.OfHandler := by
  have other : Program.Only Call.OfHandler (.call .readRun fun run =>
      if run then (log .rxError).bind fun _ => .call (.sleep 0.5) fun _ => .done .outer
      else .done .outer : Worker Next) := by
    refine ⟨trivial, fun run => ?_⟩
    cases run with
    | false => trivial
    | true => exact (attempt_only trivial).bind fun _ => ⟨trivial, fun _ => trivial⟩
  cases reason with
  | spiBus => exact failAndReturn_only .spiBus
  | radio => exact failAndReturn_only .radio
  | duty => exact other
  | other => exact other

theorem txHandler_only (reason : Raised) : (txHandler reason).Only Call.OfHandler := by
  cases reason with
  | spiBus => exact failAndReturn_only .spiBus
  | radio => exact failAndReturn_only .radio
  | duty => exact (attempt_only trivial).bind fun _ => trivial
  | other => exact (attempt_only trivial).bind fun _ => trivial

/-- The calls of `process_outgoing`. -/
def Call.OfCaller : Call → Prop
  | .readOnline | .queueLength | .time | .append _ | .setEvent | .log _ => True
  | _ => False

theorem processOutgoing_only (iface : LoRaSPIInterface) (data : Bytes) :
    (processOutgoing iface data).Only Call.OfCaller := by
  refine ⟨trivial, fun online => ?_⟩
  dsimp only
  split
  · split
    · exact (attempt_only trivial).bind fun _ => trivial
    · refine ⟨trivial, fun length => ?_⟩
      dsimp only
      split
      · exact (attempt_only trivial).bind fun _ => trivial
      · exact ⟨trivial, fun now => ⟨trivial, fun _ => ⟨trivial, fun _ => trivial⟩⟩⟩
  · trivial

end LorahamRns.Interface
