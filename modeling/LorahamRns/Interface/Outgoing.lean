import LorahamRns.Interface.Courier
import LorahamRns.Interface.Programmed
import LorahamRns.Interface.Schedule

/-!
# From the queue to the radio

Every packet that `process_outgoing` accepts is, in queue order, sent whole under one
reservation of its airtime, or not sent at all; only the last may be cut short.  The
packet in hand and the queue together account for what has been accepted.
-/

namespace LorahamRns.Interface

open LorahamRns.Lib LorahamRns.Framing LorahamRns.Radio

/-! ## What is to be shown -/

def Label.appended : Label → List Packet
  | .call _ this _ => this.appended
  | _ => []

/-- What the TX worker does for a packet in the step. -/
def Label.emitted : Label → List Emission
  | .call .tx this answer => this.emitted answer
  | _ => []

/-- The packets accepted in a run, in order. -/
def accepted (trace : List Label) : List Packet := trace.flatMap Label.appended

/-- The reservations granted and the frames handed over in a run, in order. -/
def emitted (trace : List Label) : List Emission := trace.flatMap Label.emitted

/-- A packet taken from the queue, and what was done for it. -/
structure Delivery where
  packet : Packet
  emissions : List Emission

/-- Nothing was done, or one reservation of exactly the airtime of the frames was granted
and all the frames followed. -/
inductive Delivery.Whole (iface : LoRaSPIInterface) : Delivery → Prop where
  | nothing (packet : Packet) : Whole iface ⟨packet, []⟩
  | sent {packet : Packet} {frames : List Bytes} {toa : ℚ}
      (framed : FramesOf iface packet.data frames) (charged : airtime iface frames = .ok toa) :
      Whole iface ⟨packet, .granted toa :: frames.map .handed⟩

/-- The first frames of a packet, under its reservation. -/
inductive Delivery.Cut (iface : LoRaSPIInterface) : Delivery → Prop where
  | short {packet : Packet} {frames : List Bytes} {toa : ℚ}
      (framed : FramesOf iface packet.data frames) (charged : airtime iface frames = .ok toa)
      (count : ℕ) : Cut iface ⟨packet, .granted toa :: (frames.take count).map .handed⟩

/-- The TX worker is in the middle of a packet, or a fatal fault ended it. -/
def World.Sending (world : World) : Prop :=
  (∃ call next, (world.threads .tx).program = .call call next) ∨
    ∃ cause, (world.threads .tx).program = .done (.failed cause) ∧ cause.Fatal

/-- How the packets accepted so far were treated; at most one is in hand. -/
structure World.Accounted (iface : LoRaSPIInterface) (world : World) (trace : List Label)
    (settled inHand : List Delivery) : Prop where
  accepted : accepted trace = (settled ++ inHand).map Delivery.packet ++ world.queue
  emitted : emitted trace = (settled ++ inHand).flatMap Delivery.emissions
  settled : ∀ delivery ∈ settled, delivery.Whole iface
  single : inHand.length ≤ 1
  inHand : ∀ delivery ∈ inHand, delivery.Whole iface ∨ delivery.Cut iface ∧ world.Sending
  passes : ∀ frame, .handed frame ∈ Interface.emitted trace →
    frame.length ≤ maxPayload ∧ checkLength frame = .done ()

/-! ## Runs without other exceptions -/

/-- A transfer reads as many bytes as it clocks out. -/
def readsAll : (call : Spi.Call) → call.Reply → Prop
  | .xfer2 payload, received => ∀ bytes, received = some bytes → bytes.length = payload.length
  | _, _ => True

/-- The TX worker meets duty refusals, errors of the ledger, faults of the bus and of the
radio, but no other exception once it has taken a packet. -/
def Undisturbed (_ : World) (label : Label) (_ : World) : Prop :=
  match label with
  | .call .tx call answer => call.Calm answer
  | .bus .tx call reply => readsAll call reply
  | .throws who => who ≠ .tx
  | _ => True

/-! ## The transaction of a driver call -/

/-- The point of a transaction and the payload it was begun with. -/
def Reads (payload : List ℤ) : Spi.Xfer → Prop
  | .begin clocked | .locking clocked _ | .contended clocked _ | .asserting clocked
  | .clocking clocked => clocked = payload
  | .releasing outcome | .unlocking outcome | .returned outcome =>
      ∀ bytes, outcome = .ok bytes → bytes.length = payload.length

theorem Reads.step {soft : Bool} {payload : List ℤ} {point : Spi.Xfer} (h : Reads payload point)
    {call : Spi.Call} {resume : call.Reply → Spi.Xfer} (asks : point.next soft = .call call resume)
    {reply : call.Reply} (all : readsAll call reply) : Reads payload (resume reply) := by
  have keeps {outcome instead : Spi.Outcome} (succeeded : Bool)
      (h : ∀ bytes, outcome = .ok bytes → bytes.length = payload.length)
      (raised : ∀ bytes, instead ≠ .ok bytes) (bytes : List ℕ)
      (this : (if succeeded then outcome else instead) = .ok bytes) :
      bytes.length = payload.length := by
    cases succeeded with
    | true => exact h bytes this
    | false => exact absurd this (raised bytes)
  cases point with
  | begin clocked =>
      cases asks
      exact h
  | locking clocked deadline =>
      cases asks
      cases reply with
      | granted => cases soft <;> exact h
      | again => exact h
      | failed => exact nofun
  | contended clocked deadline =>
      cases asks
      dsimp only
      split
      · exact nofun
      · exact h
  | asserting clocked =>
      cases asks
      cases reply with
      | true => exact h
      | false => exact nofun
  | clocking clocked =>
      cases asks
      obtain rfl : clocked = payload := h
      cases reply with
      | none => cases soft <;> exact nofun
      | some received =>
          have read (bytes : List ℕ) (this : (.ok received : Spi.Outcome) = .ok bytes) :
              bytes.length = clocked.length := by
            cases this
            exact all received rfl
          cases soft <;> exact read
  | releasing outcome =>
      cases asks
      exact keeps reply h nofun
  | unlocking outcome =>
      cases asks
      exact keeps reply h nofun
  | returned outcome => cases asks

/-! ## The queue -/

section Step

variable {soft : Bool} {iface : LoRaSPIInterface} {world after : World} {label : Label}
  {trace : List Label} {settled : List Delivery} {progress : Progress}

/-- The packet taken off the queue in a step. -/
def Label.popped : Label → List Packet
  | .call _ this answer => this.popped answer
  | _ => []

theorem World.Answers.queue {who : Who} {call : Call} {answer : call.Answer}
    (answered : World.Answers who call world answer after) :
    world.queue ++ call.appended = call.popped answer ++ after.queue := by
  cases call with
  | append packet =>
      cases answered
      rfl
  | popleft =>
      obtain ⟨rfl, rfl⟩ := answered
      cases world.queue with
      | nil => rfl
      | cons packet rest => exact List.append_nil _
  | readRun | readOnline | waitEvent | queueLength | readActive | waitIrq | acquire =>
      obtain ⟨-, rfl⟩ := answered
      exact List.append_nil _
  | feed frame =>
      obtain ⟨now, -, rfl⟩ := answered
      exact List.append_nil _
  | radio effect =>
      cases effect with
      | xfer payload => exact answered.elim
      | setTxen on =>
          obtain ⟨-, rfl⟩ := answered
          exact List.append_nil _
      | _ =>
          cases answered
          exact List.append_nil _
  | _ =>
      cases answered
      exact List.append_nil _

/-- The queue is first in, first out. -/
theorem World.Step.queue (taken : World.Step soft iface world label after) :
    world.queue ++ label.appended = label.popped ++ after.queue := by
  cases taken with
  | call here answered => exact answered.queue
  | _ => exact List.append_nil _

theorem accepted_concat : accepted (trace ++ [label]) = accepted trace ++ label.appended := by
  unfold accepted
  rw [List.flatMap_append, List.flatMap_singleton]

theorem emitted_concat : emitted (trace ++ [label]) = emitted trace ++ label.emitted := by
  unfold emitted
  rw [List.flatMap_append, List.flatMap_singleton]

/-! ## The invariant -/

/-- The queue, the packet in hand and the packets settled account for the run. -/
structure Delivering (iface : LoRaSPIInterface) (world : World) (trace : List Label)
    (settled : List Delivery) (progress : Progress) : Prop where
  delivers : Delivers iface (world.threads .tx).program progress
  inside : ∀ point, (world.threads .tx).xfer = some point → ∃ payload next,
    (world.threads .tx).program = .call (.radio (.xfer payload)) next ∧ Reads payload point
  elsewhere : ∀ who ≠ .tx, (world.threads who).program.Only (Call.Elsewhere iface)
  sound : progress ≠ .excused
  proper : progress.Proper iface
  accepted : accepted trace = settled.map Delivery.packet ++ progress.packets ++ world.queue
  emitted : emitted trace = settled.flatMap Delivery.emissions ++ progress.emitted
  settled : ∀ delivery ∈ settled, delivery.Whole iface
  small : ∀ packet ∈ Interface.accepted trace, packet.data.length ≤ iface.maxPacket

theorem World.Initial.delivering (h : world.Initial iface) :
    Delivering iface world [] [] .idle where
  delivers := by
    rw [h.tx]
    exact Or.inl trivial
  inside := by
    rw [h.tx]
    nofun
  elsewhere who other := by
    cases who with
    | rx =>
        rw [h.rx]
        trivial
    | tx => exact absurd rfl other
    | detacher =>
        rw [h.detacher]
        exact detach_elsewhere iface
    | caller number =>
        rw [h.caller]
        trivial
  sound := nofun
  proper := trivial
  accepted := h.queue.symm
  emitted := rfl
  settled := nofun
  small := nofun

theorem popped_elsewhere {call : Call} {answer : call.Answer} (h : call.Elsewhere iface) :
    call.popped answer = [] := by
  cases call with
  | popleft => exact h.elim
  | _ => rfl

theorem small_elsewhere {call : Call} (h : call.Elsewhere iface) :
    ∀ packet ∈ call.appended, packet.data.length ≤ iface.maxPacket := by
  intro packet member
  cases call with
  | append queued =>
      obtain rfl := List.mem_singleton.mp member
      exact h
  | _ => cases member

theorem emitted_elsewhere {who : Who} {call : Call} {answer : call.Answer} (other : who ≠ .tx) :
    Label.emitted (.call who call answer) = [] := by
  cases who with
  | tx => exact absurd rfl other
  | _ => rfl

theorem Turn.elsewhere {who : Who} {next : Next} {program : Worker Next}
    (goesOn : Turn iface who next program) (other : who ≠ .tx) :
    program.Only (Call.Elsewhere iface) := by
  cases goesOn with
  | rx => exact rxTurn_elsewhere iface
  | outer => exact absurd rfl other
  | inner fuel => exact absurd rfl other
  | caller number data => exact processOutgoing_elsewhere iface data

/-- What a thread other than the TX worker still does after a step. -/
theorem World.Step.elsewhere {who : Who} (taken : World.Step soft iface world label after)
    (h : (world.threads who).program.Only (Call.Elsewhere iface)) (other : who ≠ .tx) :
    (after.threads who).program.Only (Call.Elsewhere iface) := by
  by_cases mover : label.mover = some who
  · cases taken with
    | call here answered =>
        obtain rfl := Option.some_inj.mp mover
        rw [here] at h
        rw [World.goTo_self]
        exact h.2 _
    | enters here | bus here asks answered closed =>
        obtain rfl := Option.some_inj.mp mover
        rw [here] at h
        rw [World.goTo_self]
        exact h
    | leaves here | throws here =>
        obtain rfl := Option.some_inj.mp mover
        rw [here] at h
        rw [World.goTo_self]
        exact h.2 _
    | turn here goesOn =>
        obtain rfl := Option.some_inj.mp mover
        rw [World.goTo_self]
        exact goesOn.elsewhere other
    | peer moved => cases mover
  · rw [taken.unmoved mover]
    exact h

/-- A step that is not the TX worker's sends nothing, and queues small packets only. -/
theorem Delivering.elsewhere_label (h : Delivering iface world trace settled progress)
    (taken : World.Step soft iface world label after) (other : label.mover ≠ some .tx) :
    label.popped = [] ∧ label.emitted = [] ∧
      ∀ packet ∈ label.appended, packet.data.length ≤ iface.maxPacket := by
  cases taken with
  | @call _ who _ _ _ here answered =>
      have apart : who ≠ .tx := fun same => other (congrArg some same)
      have permitted := h.elsewhere who apart
      rw [here] at permitted
      exact ⟨popped_elsewhere permitted.1, emitted_elsewhere apart, small_elsewhere permitted.1⟩
  | _ => exact ⟨rfl, rfl, nofun⟩

/-- Another thread, or a peer process, takes the step. -/
theorem Delivering.others (h : Delivering iface world trace settled progress)
    (taken : World.Step soft iface world label after) (other : label.mover ≠ some .tx) :
    Delivering iface after (trace ++ [label]) settled progress := by
  obtain ⟨popped, silent, small⟩ := h.elsewhere_label taken other
  have queue := taken.queue
  rw [popped, List.nil_append] at queue
  have same := taken.unmoved other
  refine ⟨?_, ?_, fun who apart => taken.elsewhere (h.elsewhere who apart) apart, h.sound,
    h.proper, ?_, ?_, h.settled, fun packet member => ?_⟩
  · rw [same]
    exact h.delivers
  · rw [same]
    exact h.inside
  · rw [accepted_concat, h.accepted, List.append_assoc _ world.queue, queue]
  · rw [emitted_concat, silent, List.append_nil]
    exact h.emitted
  · rw [accepted_concat] at member
    exact (List.mem_append.mp member).elim (h.small packet) (small packet)

/-- The TX worker takes a step within its turn, with what it holds before and after. -/
theorem Delivering.own {thread : Thread} {last : Progress}
    (h : Delivering iface world trace settled progress)
    (taken : World.Step soft iface world label after) (threads : after.threads .tx = thread)
    (delivers : Delivers iface thread.program last)
    (inside : ∀ point, thread.xfer = some point → ∃ payload next,
      thread.program = .call (.radio (.xfer payload)) next ∧ Reads payload point)
    (sound : last ≠ .excused) (proper : last.Proper iface)
    (packets : last.packets = progress.packets ++ label.popped)
    (emitted : last.emitted = progress.emitted ++ label.emitted) (appended : label.appended = []) :
    Delivering iface after (trace ++ [label]) settled last := by
  have queue := taken.queue
  rw [appended, List.append_nil] at queue
  refine ⟨?_, ?_, fun who apart => taken.elsewhere (h.elsewhere who apart) apart, sound,
    proper, ?_, ?_, h.settled, fun packet member => ?_⟩
  · rw [threads]
    exact delivers
  · rw [threads]
    exact inside
  · rw [accepted_concat, appended, List.append_nil, h.accepted, packets, queue]
    simp only [List.append_assoc]
  · rw [emitted_concat, h.emitted, emitted, List.append_assoc]
  · rw [accepted_concat, appended, List.append_nil] at member
    exact h.small packet member

/-! ## Turns -/

/-- The packet in hand, as it stands. -/
def Progress.deliveries (progress : Progress) : List Delivery :=
  progress.packets.map fun packet => ⟨packet, progress.emitted⟩

theorem Progress.deliveries_packets (progress : Progress) :
    progress.deliveries.map Delivery.packet = progress.packets := by
  cases progress <;> rfl

theorem Progress.deliveries_emissions (progress : Progress) :
    progress.deliveries.flatMap Delivery.emissions = progress.emitted := by
  cases progress with
  | sending => exact List.flatMap_singleton ..
  | _ => rfl

theorem Progress.Proper.whole (proper : progress.Proper iface) (complete : progress.Complete) :
    ∀ delivery ∈ progress.deliveries, delivery.Whole iface := by
  intro delivery member
  cases progress with
  | idle | excused => cases member
  | taken packet frames =>
      obtain rfl := List.mem_singleton.mp member
      exact .nothing packet
  | sending packet toa frames sent =>
      obtain rfl := List.mem_singleton.mp member
      obtain rfl : sent = frames.length := complete
      change Delivery.Whole iface ⟨packet, .granted toa :: (frames.take frames.length).map .handed⟩
      rw [List.take_length]
      exact .sent proper.1 proper.2

theorem Progress.Proper.cut (proper : progress.Proper iface) :
    ∀ delivery ∈ progress.deliveries, delivery.Whole iface ∨ delivery.Cut iface := by
  intro delivery member
  cases progress with
  | idle | excused => cases member
  | taken packet frames =>
      obtain rfl := List.mem_singleton.mp member
      exact Or.inl (.nothing packet)
  | sending packet toa frames sent =>
      obtain rfl := List.mem_singleton.mp member
      exact Or.inr (.short proper.1 proper.2 sent)

/-- A new turn begins only where the packet in hand is settled. -/
theorem Delivering.turn {next : Next} {program : Worker Next}
    (h : Delivering iface world trace settled progress)
    (here : world.threads .tx = ⟨.done next, none⟩) (goesOn : Turn iface .tx next program) :
    Delivering iface (world.goTo .tx ⟨program, none⟩) (trace ++ [.turn .tx])
      (settled ++ progress.deliveries) .idle := by
  have ended := h.delivers
  rw [here] at ended
  have complete : progress.Complete := by
    rcases ended with complete | ⟨cause, rfl, -⟩
    · exact complete
    · cases goesOn
  have taken : World.Step false iface world (.turn .tx) _ := .turn here goesOn
  refine ⟨?_, ?_, fun who apart => taken.elsewhere (h.elsewhere who apart) apart, nofun, trivial,
    ?_, ?_, fun delivery member => ?_, fun packet member => ?_⟩
  · rw [World.goTo_self]
    cases goesOn with
    | outer => exact delivers_txOuter
    | inner fuel => exact delivers_txInner fuel
  · rw [World.goTo_self]
    nofun
  · rw [accepted_concat, h.accepted, List.map_append, Progress.deliveries_packets]
    exact (List.append_nil _).trans (congrArg (· ++ world.queue) (List.append_nil _).symm)
  · rw [emitted_concat, h.emitted, List.flatMap_append, Progress.deliveries_emissions]
    rfl
  · exact (List.mem_append.mp member).elim (h.settled delivery) (h.proper.whole complete delivery)
  · rw [accepted_concat, show Label.appended (.turn .tx) = [] from rfl, List.append_nil] at member
    exact h.small packet member

theorem Delivering.step (h : Delivering iface world trace settled progress)
    (taken : World.Step soft iface world label after) (calm : Undisturbed world label after) :
    ∃ settled progress, Delivering iface after (trace ++ [label]) settled progress := by
  by_cases mover : label.mover = some .tx
  · have delivers := h.delivers
    have inside := h.inside
    have step := taken
    cases taken with
    | @call _ _ call next answer here answered =>
        obtain rfl := Option.some_inj.mp mover
        rw [here] at delivers
        obtain ⟨last, moved, rest⟩ := delivers.step answer
        have accounts := courier_accounts h.sound calm moved
        exact ⟨settled, last, h.own step (World.goTo_self ..) rest nofun accounts.sound
          (accounts.proper h.proper) accounts.packets accounts.emitted accounts.appended⟩
    | @enters _ payload next here =>
        obtain rfl := Option.some_inj.mp mover
        rw [here] at delivers
        refine ⟨settled, progress, h.own step (World.goTo_self ..) delivers (fun point this => ?_)
          h.sound h.proper (List.append_nil _).symm (List.append_nil _).symm rfl⟩
        obtain rfl := Option.some_inj.mp this
        exact ⟨payload, next, rfl, rfl⟩
    | @bus _ program point call resume reply bus here asks answered closed =>
        obtain rfl := Option.some_inj.mp mover
        rw [here] at delivers inside
        obtain ⟨payload, next, radio, reads⟩ := inside point rfl
        refine ⟨settled, progress, h.own step (World.goTo_self ..) delivers (fun point this => ?_)
          h.sound h.proper (List.append_nil _).symm (List.append_nil _).symm rfl⟩
        obtain rfl := Option.some_inj.mp this
        exact ⟨payload, next, radio, reads.step asks calm⟩
    | @leaves _ payload outcome next here =>
        obtain rfl := Option.some_inj.mp mover
        rw [here] at delivers inside
        obtain ⟨clocked, _, radio, reads⟩ := inside _ rfl
        cases radio
        have fits : (Call.radio (.xfer payload)).Calm (some outcome.toOption) := by
          cases outcome with
          | error reason => rfl
          | ok bytes => exact decide_eq_true (reads bytes rfl)
        obtain ⟨last, moved, rest⟩ := delivers.step (some outcome.toOption)
        have accounts := courier_accounts h.sound fits moved
        exact ⟨settled, last, h.own step (World.goTo_self ..) rest nofun accounts.sound
          (accounts.proper h.proper) accounts.packets accounts.emitted rfl⟩
    | throws here => exact absurd (Option.some_inj.mp mover) calm
    | turn here goesOn =>
        obtain rfl := Option.some_inj.mp mover
        exact ⟨_, _, h.turn here goesOn⟩
    | peer moved => cases mover
  · exact ⟨settled, progress, h.others taken mover⟩

end Step

/-! ## The length of frames -/

/-- A header byte and at most `FRAME_PAYLOAD` bytes. -/
theorem frame_length_le {data : Bytes} {random : UInt8} {frames : List Bytes}
    (framed : frame data random = some frames) :
    ∀ frame ∈ frames, frame.length ≤ maxPayload := by
  unfold frame at framed
  obtain ⟨-, same⟩ := Option.ite_none_left_eq_some.mp framed
  obtain rfl := Option.some_inj.mp same
  intro frame member
  obtain ⟨piece, there, rfl⟩ := List.mem_map.mp member
  have short : piece.length ≤ Framing.framePayload := by
    split at there
    · obtain rfl := List.mem_singleton.mp there
      exact Nat.zero_le _
    · obtain ⟨place, -, rfl⟩ := List.mem_map.mp there
      exact List.length_take_le ..
  exact Nat.succ_le_succ short

/-- Without framing the packet is the frame. -/
def LoRaSPIInterface.Sized (iface : LoRaSPIInterface) : Prop :=
  iface.rnodeFraming = false → iface.maxPacket = maxPayload

theorem FramesOf.length_le {iface : LoRaSPIInterface} {data : Bytes} {frames : List Bytes}
    (framed : FramesOf iface data frames) (sized : iface.Sized)
    (small : data.length ≤ iface.maxPacket) : ∀ frame ∈ frames, frame.length ≤ maxPayload := by
  unfold FramesOf at framed
  cases framing : iface.rnodeFraming with
  | true =>
      rw [framing] at framed
      obtain ⟨random, framed⟩ := framed
      exact frame_length_le framed
  | false =>
      rw [framing] at framed
      obtain rfl : frames = [data] := framed
      intro frame member
      obtain rfl := List.mem_singleton.mp member
      exact small.trans_eq (sized framing)

/-- The constructor sets the limit to what one frame holds, unless packets are framed. -/
theorem ends_init_sized (c : Configuration) (sent : Sent) :
    Program.Ends bus c.init (fun iface _ => iface.Sized) sent := by
  refine Program.ends_any fun checked state => Program.ends_any fun settings state => ?_
  obtain ⟨profile, short, long⟩ := checked
  refine Program.ends_any fun _ state => Program.ends_any fun rate state => ?_
  split
  · next framing =>
      refine Program.ends_any fun longest state => ⟨trivial, fun plain => ?_⟩
      cases framing.symm.trans plain
  · exact ⟨trivial, fun _ => rfl⟩

/-! ## The verdict -/

section Verdict

variable {soft : Bool} {iface : LoRaSPIInterface} {world : World} {trace : List Label}
  {settled : List Delivery} {progress : Progress}

/-- The frames handed over belong to accepted packets. -/
theorem Delivery.handed_le {delivery : Delivery} (h : delivery.Whole iface ∨ delivery.Cut iface)
    (sized : iface.Sized) (small : delivery.packet.data.length ≤ iface.maxPacket) {frame : Bytes}
    (member : .handed frame ∈ delivery.emissions) : frame.length ≤ maxPayload := by
  have among {toa : ℚ} {frames : List Bytes}
      (member : .handed frame ∈ Emission.granted toa :: frames.map .handed) : frame ∈ frames := by
    obtain ⟨other, there, same⟩ := List.mem_map.mp ((List.mem_cons.mp member).resolve_left nofun)
    cases same
    exact there
  rcases h with (_ | @⟨packet, frames, toa, framed, charged⟩) |
    @⟨packet, frames, toa, framed, charged, count⟩
  · cases member
  · exact framed.length_le sized small frame (among member)
  · exact framed.length_le sized small frame (List.mem_of_mem_take (among member))

theorem checkLength_passes {data : Bytes} (small : data.length ≤ maxPayload) :
    checkLength data = .done () := if_neg (Nat.not_lt.mpr small)

theorem Delivering.accounted (h : Delivering iface world trace settled progress)
    (sized : iface.Sized) : world.Accounted iface trace settled progress.deliveries := by
  have accounts : Interface.accepted trace =
      (settled ++ progress.deliveries).map Delivery.packet ++ world.queue := by
    rw [h.accepted, List.map_append, Progress.deliveries_packets]
  have emits : Interface.emitted trace =
      (settled ++ progress.deliveries).flatMap Delivery.emissions := by
    rw [h.emitted, List.flatMap_append, Progress.deliveries_emissions]
  refine ⟨accounts, emits, h.settled, ?_, fun delivery member => ?_, fun frame member => ?_⟩
  · cases progress with
    | idle | excused => exact Nat.zero_le 1
    | taken | sending => exact le_rfl
  · have ended := h.delivers
    cases still : (world.threads .tx).program with
    | call call next =>
        exact (h.proper.cut delivery member).imp_right fun cut => ⟨cut, Or.inl ⟨call, next, still⟩⟩
    | done next =>
        rw [still] at ended
        rcases ended with complete | ⟨cause, rfl, fatal⟩
        · exact Or.inl (h.proper.whole complete delivery member)
        · exact (h.proper.cut delivery member).imp_right
            fun cut => ⟨cut, Or.inr ⟨cause, still, fatal⟩⟩
    | fail reason =>
        rw [still] at ended
        exact Or.inl (h.proper.whole ended delivery member)
  · rw [emits] at member
    obtain ⟨delivery, there, member⟩ := List.mem_flatMap.mp member
    have small : delivery.packet.data.length ≤ iface.maxPacket := by
      refine h.small _ ?_
      rw [accounts]
      exact List.mem_append_left _ (List.mem_map_of_mem there)
    have kind : delivery.Whole iface ∨ delivery.Cut iface :=
      (List.mem_append.mp there).elim (fun old => Or.inl (h.settled delivery old))
        (h.proper.cut delivery)
    have fits := Delivery.handed_le kind sized small member
    exact ⟨fits, checkLength_passes fits⟩

/-- Every undisturbed run is accounted for. -/
theorem delivering_of_run (run : ((threads soft iface).restrict Undisturbed).Run world trace) :
    ∃ settled progress, Delivering iface world trace settled progress := by
  induction run with
  | start initial => exact ⟨_, _, World.Initial.delivering initial⟩
  | step _ taken ih =>
      obtain ⟨_, _, h⟩ := ih
      exact h.step taken.1 taken.2

/-- In every run of an accepted configuration: the packets accepted are, in order, those
settled, at most one in hand, and those still queued.  A settled packet emitted nothing, or
one granted reservation of exactly the airtime of its frames and then all its frames; the
one in hand may be short of frames only while it is sent, or after a fatal fault.  Every
frame passes the length check of the driver. -/
theorem packets_sent_in_order {c : Configuration} {sent : Sent} (built : Accepted c iface sent)
    (run : ((threads soft iface).restrict Undisturbed).Run world trace) :
    ∃ settled inHand, world.Accounted iface trace settled inHand := by
  obtain ⟨settled, progress, h⟩ := delivering_of_run run
  exact ⟨settled, progress.deliveries,
    h.accounted (Program.ends_path (ends_init_sized c []) built)⟩

end Verdict

/-! ## The first packet -/

deriving instance DecidableEq for Radio.Settings
deriving instance DecidableEq for LoRaSPIInterface

/-- The configuration of `loraham`. -/
def lorahamConfiguration : Configuration :=
  { handEdited 8 with airtimeLimitLong := some 10, preamble := none }

/-- The constructor makes `loraham` of it. -/
theorem loraham_accepted : ∃ sent, Accepted lorahamConfiguration loraham sent := by
  have built : (lorahamConfiguration.init.runWith goodChip []).map Prod.fst = some loraham := by
    decide +kernel
  obtain ⟨last, run, same⟩ := Option.map_eq_some_iff.mp built
  rw [← same]
  exact ⟨last.2, Program.path_of_runWith goodChip_admissible run⟩

/-- A thread makes a call that raises nothing. -/
theorem calls_calmly {soft : Bool} {iface : LoRaSPIInterface} {world after : World}
    {trace : List Label} (who : Who) (call : Call) {next : call.Answer → Worker Next}
    (answer : call.Answer) (run : ((threads soft iface).restrict Undisturbed).Run world trace)
    (here : world.threads who = ⟨.call call next, none⟩)
    (answered : World.Answers who call world answer after) (calm : call.Calm answer) :
    ((threads soft iface).restrict Undisturbed).Run (after.goTo who ⟨next answer, none⟩)
      (trace ++ [.call who call answer]) := by
  refine .step run ⟨.call here answered, ?_⟩
  cases who with
  | tx => exact calm
  | _ => trivial

/-- A thread begins a turn. -/
theorem turns_calmly {soft : Bool} {iface : LoRaSPIInterface} {world : World} {trace : List Label}
    (who : Who) {next : Next} {program : Worker Next}
    (run : ((threads soft iface).restrict Undisturbed).Run world trace)
    (here : world.threads who = ⟨.done next, none⟩) (goesOn : Turn iface who next program) :
    ((threads soft iface).restrict Undisturbed).Run (world.goTo who ⟨program, none⟩)
      (trace ++ [.turn who]) :=
  .step run ⟨.turn here goesOn, trivial⟩

/-- Without framing, a packet taken is first of all to be granted its airtime. -/
theorem txPacket_asks {iface : LoRaSPIInterface} (plain : iface.rnodeFraming = false)
    {packet : Packet} {toa : ℚ} (charged : airtime iface [packet.data] = .ok toa) :
    ∃ next, txPacket iface packet 0 = .call (.reserve toa) next := by
  have framed : framesOf iface packet.data = .done [packet.data] := by
    unfold framesOf
    rw [plain]
    rfl
  unfold txPacket transmit
  rw [Program.bind_eq, framed, Program.done_bind, charged]
  exact ⟨_, rfl⟩

/-- The first packet of two bytes is granted its airtime. -/
theorem first_packet_is_granted :
    ∃ world trace toa, ((threads true loraham).restrict Undisturbed).Run world trace ∧
      emitted trace = [.granted toa] ∧
        ∃ settled inHand, world.Accounted loraham trace settled inHand := by
  obtain ⟨sent, built⟩ := loraham_accepted
  obtain ⟨toa, charged⟩ : ∃ toa, airtime loraham [[0x48, 0x69]] = .ok toa := by
    have succeeds : (airtime loraham [[0x48, 0x69]]).isOk = true := by decide +kernel
    cases sum : airtime loraham [[0x48, 0x69]] with
    | ok toa => exact ⟨toa, rfl⟩
    | error fault =>
        rw [sum] at succeeds
        cases succeeds
  obtain ⟨next, asks⟩ := @txPacket_asks loraham rfl ⟨[0x48, 0x69], 0⟩ toa charged
  have start : ((threads true loraham).restrict Undisturbed).Run (World.fresh loraham) [] :=
    .start (World.fresh_initial loraham)
  have begun := turns_calmly (.caller 0) start rfl (.caller 0 [0x48, 0x69])
  have online := calls_calmly (.caller 0) .readOnline true begun rfl ⟨rfl, rfl⟩ trivial
  have roomy := calls_calmly (.caller 0) .queueLength (0 : ℕ) online rfl ⟨rfl, rfl⟩ trivial
  have timed := calls_calmly (.caller 0) .time (0 : ℚ) roomy rfl rfl trivial
  have queued := calls_calmly (.caller 0) (.append ⟨[0x48, 0x69], 0⟩) () timed rfl rfl trivial
  have woken := turns_calmly .tx queued rfl .outer
  have looked := calls_calmly .tx .readRun true woken rfl ⟨rfl, rfl⟩ trivial
  have waited := calls_calmly .tx .waitEvent false looked rfl ⟨rfl, rfl⟩ trivial
  have cleared := calls_calmly .tx .clearEvent () waited rfl rfl trivial
  have inner := turns_calmly .tx cleared rfl (.inner 0)
  have counted := calls_calmly .tx .queueLength (1 : ℕ) inner rfl ⟨rfl, rfl⟩ trivial
  have going := calls_calmly .tx .readRun true counted rfl ⟨rfl, rfl⟩ trivial
  have taken := calls_calmly .tx .popleft (some ⟨[0x48, 0x69], 0⟩) going rfl ⟨rfl, rfl⟩ trivial
  have asking := congrArg (Thread.mk · none) asks
  have granted := calls_calmly .tx (.reserve toa) .granted taken
    ((World.goTo_self ..).trans asking) rfl trivial
  exact ⟨_, _, toa, granted, rfl, packets_sent_in_order built granted⟩

end LorahamRns.Interface
