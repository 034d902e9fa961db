import LorahamRns.Interface.Schedule
import LorahamRns.Interface.Watched

/-!
# From the radio to the transport

Every frame the RX worker has received and logged goes, in order, through the reassembler
and on to the transport; at most one is on its way.  What the reassembler holds is what
the frames of the run have made of it.
-/

namespace LorahamRns.Radio

open LorahamRns.Framing

/-- The bytes of a reception. -/
def Reception.bytes (reception : Reception) : Bytes := reception.payload.map UInt8.ofNat

end LorahamRns.Radio

namespace LorahamRns.Interface

open LorahamRns.Lib LorahamRns.Framing LorahamRns.Radio
open Program (keeps_bind keeps_rescue)
open Reassembler (outputs after)

/-! ## What is to be shown -/

/-- A frame written to the RF log as received. -/
def Call.heard : (call : Call) → call.Answer → List Bytes
  | .logRx reception, true => [reception.bytes]
  | _, _ => []

/-- A frame given to the reassembler, and what came back. -/
def Call.fed : (call : Call) → call.Answer → List (Bytes × Option Bytes)
  | .feed frame, packet => [(frame, packet)]
  | _, _ => []

/-- A packet handed to the transport. -/
def Call.passed : Call → List Bytes
  | .inbound data => [data]
  | _ => []

def Label.heard : Label → List Bytes
  | .call _ this answer => this.heard answer
  | _ => []

def Label.fed : Label → List (Bytes × Option Bytes)
  | .call _ this answer => this.fed answer
  | _ => []

def Label.passed : Label → List Bytes
  | .call _ this _ => this.passed
  | _ => []

/-- The frames received in a run, in order. -/
def heard (trace : List Label) : List Bytes := trace.flatMap Label.heard

/-- What the reassembler was fed in a run and what it returned, in order. -/
def fed (trace : List Label) : List (Bytes × Option Bytes) := trace.flatMap Label.fed

/-- The packets handed to the transport in a run, in order. -/
def passed (trace : List Label) : List Bytes := trace.flatMap Label.passed

/-- Receptions with the frames and the returns of these calls. -/
structure Explains (maxAge : Option ℚ) (calls : List (Bytes × Option Bytes))
    (receptions : List Reassembler.Reception) : Prop where
  frames : receptions.map Reassembler.Reception.raw = calls.map Prod.fst
  returns : outputs maxAge receptions = calls.map Prod.snd

/-- What became of the frames received so far. -/
structure World.Received (iface : LoRaSPIInterface) (world : World) (trace : List Label)
    (waiting inHand : List Bytes) : Prop where
  /-- With framing, the frames go through the reassembler and what it returns is passed on. -/
  framed : iface.rnodeFraming = true → heard trace = (fed trace).map Prod.fst ++ waiting ∧
    ((fed trace).map Prod.snd).reduceOption = passed trace ++ inHand
  /-- Without, the frames are passed on as they are. -/
  plain : iface.rnodeFraming = false → fed trace = [] ∧ waiting = [] ∧
    heard trace = passed trace ++ inHand
  /-- The reassembler is as a fresh one after the frames, read at some times. -/
  assembled : ∃ receptions, Explains iface.maxAge (fed trace) receptions ∧
    world.reassembler = after iface.maxAge receptions
  single : (waiting ++ inHand).length ≤ 1
  between : ∀ next, (world.threads .rx).program = .done next → waiting = [] ∧ inHand = []

/-! ## One reception after the other -/

/-- What the RX worker has in hand: nothing, a frame for the reassembler, or a packet for
the transport.  The other threads are apart. -/
inductive Arriving where
  | apart
  | idle
  | frame (bytes : Bytes)
  | packet (data : Bytes)

def Arriving.waiting : Arriving → List Bytes
  | .frame bytes => [bytes]
  | _ => []

def Arriving.inHand : Arriving → List Bytes
  | .packet data => [data]
  | _ => []

/-- A frame is received with empty hands; it goes on to the reassembler if there is one, and
what comes back to the transport. -/
def arriving (iface : LoRaSPIInterface) : Monitor Call Call.Answer Arriving
  | .idle, .logRx reception, logged =>
      some (if logged then
        if iface.rnodeFraming then .frame reception.bytes else .packet reception.bytes
        else .idle)
  | .frame bytes, .feed frame, none => if frame = bytes then some .idle else none
  | .frame bytes, .feed frame, some data => if frame = bytes then some (.packet data) else none
  | .packet packet, .inbound data, _ => if data = packet then some .idle else none
  | .apart, .logRx _, _ | .frame _, .logRx _, _ | .packet _, .logRx _, _ => none
  | .apart, .feed _, _ | .idle, .feed _, _ | .packet _, .feed _, _ => none
  | .apart, .inbound _, _ | .idle, .inbound _, _ | .frame _, .inbound _, _ => none
  | place, _, _ => some place

/-- The calls about a frame received. -/
def Call.Arrives : Call → Bool
  | .logRx _ | .feed _ | .inbound _ => true
  | _ => false

section Walk

variable {iface : LoRaSPIInterface} {α : Type}

theorem arriving_other {call : Call} (h : call.Arrives = false) (place : Arriving)
    (answer : call.Answer) : arriving iface place call answer = some place := by
  cases call with
  | logRx | feed | inbound => cases h
  | _ => cases place <;> rfl

theorem keepsArriving_other {program : Worker α} (h : program.Only fun call => call.Arrives = false)
    (place : Arriving) :
    program.Keeps (arriving iface) (fun _ => (· = place)) (fun _ => (· = place)) place :=
  h.keeps fun _ answer other => arriving_other other place answer

/-- Where each thread is between its turns. -/
def Arriving.Between : Who → Arriving → Prop
  | .rx, place => place = .idle
  | _, place => place = .apart

theorem keepsArriving_inbound (data : Bytes) :
    (attempt (.inbound data) id).Keeps (arriving iface) (fun _ => (· = .idle)) (fun _ => (· = .idle))
      (.packet data) := by
  refine fun succeeded => ⟨.idle, if_pos rfl, ?_⟩
  cases succeeded with
  | true => exact rfl
  | false => exact rfl

theorem keepsArriving_received (reception : Reception) :
    (received iface reception).Keeps (arriving iface) (fun _ => (· = .idle)) (fun _ => (· = .idle))
      .idle := by
  refine keeps_bind ((keepsArriving_other (attempt_only rfl) .idle).mono ?_ fun _ _ same => same)
  rintro _ _ rfl
  refine keeps_bind fun logged => ⟨_, rfl, ?_⟩
  cases logged with
  | false => exact rfl
  | true =>
      dsimp only [id, if_true]
      cases iface.rnodeFraming with
      | false => exact keepsArriving_inbound _
      | true =>
          intro packet
          cases packet with
          | none => exact ⟨.idle, if_pos rfl, rfl⟩
          | some data => exact ⟨.packet data, if_pos rfl, keepsArriving_inbound data⟩

theorem keepsArriving_rxTurn :
    (rxTurn iface).Keeps (arriving iface) (fun _ => (· = .idle)) (fun _ _ => True) .idle := by
  have body : (rxBody iface).Keeps (arriving iface) (fun _ => (· = .idle)) (fun _ => (· = .idle))
      .idle := by
    refine fun active => ⟨.idle, rfl, ?_⟩
    cases active with
    | true => exact fun _ => ⟨.idle, rfl, rfl⟩
    | false =>
        have waits : waitIrq.Only fun call => call.Arrives = false :=
          ⟨rfl, fun woken => by cases woken <;> trivial⟩
        have polls : (poll iface).Only fun call => call.Arrives = false := by
          refine withLock_only rfl rfl ⟨rfl, fun active => ?_⟩
          cases active with
          | true => trivial
          | false => exact (only_radio _).mono fun _ ⟨_, same⟩ => same ▸ rfl
        refine keeps_bind ((keepsArriving_other waits .idle).mono ?_ fun _ _ same => same)
        rintro _ _ rfl
        refine keeps_bind ((keepsArriving_other polls .idle).mono ?_ fun _ _ same => same)
        rintro got _ rfl
        cases got with
        | none => exact rfl
        | some reception => exact keepsArriving_received reception
  refine fun run => ⟨.idle, rfl, ?_⟩
  cases run with
  | false => exact rfl
  | true =>
      refine keeps_rescue (keeps_bind (body.mono (fun _ _ same => same) fun reason place same => ?_))
      subst same
      have handles : (rxHandler reason).Only fun call => call.Arrives = false := by
        refine (rxHandler_only reason).mono fun call kind => ?_
        cases call with
        | logRx | feed | inbound => exact kind.elim
        | _ => rfl
      exact (keepsArriving_other handles .idle).mono (fun _ _ same => same) fun _ _ _ => trivial

theorem arrives_tx {call : Call} (kind : call.OfTx) : call.Arrives = false := by
  cases call with
  | logRx | feed | inbound => simp [Call.OfTx, Call.OfTransmit, Call.OfHandler] at kind
  | _ => rfl

theorem keepsArriving_apart {program : Worker Next}
    (h : program.Only fun call => call.Arrives = false) :
    program.Keeps (arriving iface) (fun _ => (· = .apart)) (fun _ _ => True) .apart :=
  (keepsArriving_other h .apart).mono (fun _ _ same => same) fun _ _ _ => trivial

theorem keepsArriving_turn {who : Who} {next : Next} {program : Worker Next} {place : Arriving}
    (goesOn : Turn iface who next program) (between : place.Between who) :
    program.Keeps (arriving iface) (fun _ => Arriving.Between who) (fun _ _ => True) place := by
  cases goesOn with
  | rx =>
      obtain rfl : place = .idle := between
      exact keepsArriving_rxTurn
  | outer =>
      obtain rfl : place = .apart := between
      exact keepsArriving_apart (txOuter_only.mono fun _ => arrives_tx)
  | inner fuel =>
      obtain rfl : place = .apart := between
      exact keepsArriving_apart ((txInner_only iface fuel).mono fun _ => arrives_tx)
  | caller number data =>
      obtain rfl : place = .apart := between
      refine keepsArriving_apart ((processOutgoing_only iface data).mono fun call kind => ?_)
      cases call with
      | logRx | feed | inbound => exact kind.elim
      | _ => rfl

theorem keepsArriving_detach :
    detach.Keeps (arriving iface) (fun _ => (· = .apart)) (fun _ _ => True) .apart := by
  refine keepsArriving_apart (detach_only.mono fun call kind => ?_)
  cases call with
  | logRx | feed | inbound => exact kind.elim
  | _ => rfl

end Walk

/-! ## The invariant -/

section Trace

variable {trace : List Label} {label : Label} {maxAge : Option ℚ}

theorem heard_concat : heard (trace ++ [label]) = heard trace ++ label.heard := by
  rw [heard, List.flatMap_append, List.flatMap_singleton, ← heard]

theorem fed_concat : fed (trace ++ [label]) = fed trace ++ label.fed := by
  rw [fed, List.flatMap_append, List.flatMap_singleton, ← fed]

theorem passed_concat : passed (trace ++ [label]) = passed trace ++ label.passed := by
  rw [passed, List.flatMap_append, List.flatMap_singleton, ← passed]

/-- One more call of `feed`. -/
theorem Explains.concat {calls : List (Bytes × Option Bytes)}
    {receptions : List Reassembler.Reception} (h : Explains maxAge calls receptions) (frame : Bytes)
    (now : ℚ) :
    Explains maxAge (calls ++ [(frame, ((after maxAge receptions).feed frame now).2)])
      (receptions ++ [⟨frame, now⟩]) where
  frames := by
    rw [List.map_append, List.map_append, h.frames]
    rfl
  returns := by
    rw [outputs, Reassembler.feedAll_append, List.map_append, ← h.returns]
    rfl

theorem after_append_one (receptions : List Reassembler.Reception) (frame : Bytes) (now : ℚ) :
    after maxAge (receptions ++ [⟨frame, now⟩]) =
      ((after maxAge receptions).feed frame now).1 := by
  rw [after, Reassembler.feedAll_append]
  rfl

end Trace

/-- The trace and the reassembler, as the places of the threads describe them. -/
structure Handled (iface : LoRaSPIInterface) (trace : List Label) (fields : Fields)
    (places : Who → Arriving) : Prop where
  apart : ∀ who, who ≠ .rx → places who = .apart
  framed : iface.rnodeFraming = true →
    heard trace = (fed trace).map Prod.fst ++ (places .rx).waiting ∧
      ((fed trace).map Prod.snd).reduceOption = passed trace ++ (places .rx).inHand
  plain : iface.rnodeFraming = false → fed trace = [] ∧ (places .rx).waiting = [] ∧
    heard trace = passed trace ++ (places .rx).inHand
  assembled : ∃ receptions, Explains iface.maxAge (fed trace) receptions ∧
    fields.reassembler = after iface.maxAge receptions

section Step

variable {iface : LoRaSPIInterface} {trace : List Label} {label : Label} {fields next : Fields}
  {places : Who → Arriving} {who : Who}

/-- A label about no frame. -/
theorem Handled.silent (h : Handled iface trace fields places) (heard : label.heard = [])
    (fed : label.fed = []) (passed : label.passed = [])
    (same : next.reassembler = fields.reassembler) :
    Handled iface (trace ++ [label]) next places where
  apart := h.apart
  framed framing := by
    rw [heard_concat, fed_concat, passed_concat, heard, fed, passed]
    simp only [List.append_nil]
    exact h.framed framing
  plain framing := by
    rw [heard_concat, fed_concat, passed_concat, heard, fed, passed]
    simp only [List.append_nil]
    exact h.plain framing
  assembled := by
    rw [fed_concat, fed, List.append_nil, same]
    exact h.assembled

theorem apart_update {place : Arriving} (apart : ∀ who, who ≠ .rx → places who = .apart)
    (other : Who) (here : other ≠ .rx) : Function.update places .rx place other = .apart := by
  rw [Function.update_of_ne here]
  exact apart other here

/-- A frame is received. -/
theorem Handled.receives {reception : Reception} {logged : Bool} {place : Arriving}
    (h : Handled iface trace fields places)
    (moved : arriving iface (places .rx) (.logRx reception) logged = some place) :
    Handled iface (trace ++ [.call .rx (.logRx reception) logged]) fields
      (Function.update places .rx place) := by
  cases before : places .rx with
  | idle =>
      rw [before] at moved
      have framed := h.framed
      have plain := h.plain
      rw [before] at framed plain
      cases logged with
      | false =>
          obtain rfl : Arriving.idle = place := Option.some_inj.mp moved
          rw [← before, Function.update_eq_self]
          exact h.silent rfl rfl rfl rfl
      | true =>
          refine ⟨apart_update h.apart, fun framing => ?_, fun framing => ?_, ?_⟩
          · obtain rfl : Arriving.frame reception.bytes = place := by
              refine Option.some_inj.mp (Eq.trans (congrArg some ?_) moved)
              rw [if_pos rfl, if_pos framing]
            rw [heard_concat, fed_concat, passed_concat, Function.update_self]
            obtain ⟨heard, returned⟩ := framed framing
            rw [heard]
            simp only [Label.heard, Call.heard, Label.fed, Call.fed, Label.passed, Call.passed,
              Arriving.waiting, Arriving.inHand, List.append_nil]
            exact ⟨trivial, returned.trans (List.append_nil _)⟩
          · obtain rfl : Arriving.packet reception.bytes = place := by
              refine Option.some_inj.mp (Eq.trans (congrArg some ?_) moved)
              rw [if_pos rfl, if_neg (by rw [framing]; decide)]
            rw [heard_concat, fed_concat, passed_concat, Function.update_self]
            obtain ⟨none, -, heard⟩ := plain framing
            rw [heard, none]
            simp [Label.heard, Call.heard, Label.fed, Call.fed, Label.passed, Call.passed,
              Arriving.waiting, Arriving.inHand]
          · rw [fed_concat]
            exact (List.append_nil _).symm ▸ h.assembled
  | _ =>
      rw [before] at moved
      cases moved

/-- A frame goes through the reassembler. -/
theorem Handled.feeds {frame : Bytes} {packet : Option Bytes} {place : Arriving}
    (h : Handled iface trace fields places) {now : ℚ}
    (moved : arriving iface (places .rx) (.feed frame) packet = some place)
    (returned : packet = (fields.reassembler.feed frame now).2)
    (stored : next.reassembler = (fields.reassembler.feed frame now).1) :
    Handled iface (trace ++ [.call .rx (.feed frame) packet]) next
      (Function.update places .rx place) := by
  cases before : places .rx with
  | frame bytes =>
      rw [before] at moved
      have framed := h.framed
      have plain := h.plain
      rw [before] at framed plain
      have goes : frame = bytes ∧ place = packet.elim .idle .packet := by
        cases packet with
        | none =>
            obtain ⟨same, ⟨⟩⟩ := Option.ite_none_right_eq_some.mp moved
            exact ⟨same, rfl⟩
        | some data =>
            obtain ⟨same, ⟨⟩⟩ := Option.ite_none_right_eq_some.mp moved
            exact ⟨same, rfl⟩
      obtain ⟨rfl, rfl⟩ := goes
      refine ⟨apart_update h.apart, fun framing => ?_, fun framing => ?_, ?_⟩
      · rw [heard_concat, fed_concat, passed_concat, Function.update_self]
        obtain ⟨heard, returned⟩ := framed framing
        rw [heard, List.map_append, List.map_append, List.reduceOption_append, returned]
        cases packet <;>
          simp [Label.heard, Call.heard, Label.fed, Call.fed, Label.passed, Call.passed,
            Arriving.waiting, Arriving.inHand, List.reduceOption_cons_of_some,
            List.reduceOption_cons_of_none]
      · cases (plain framing).2.1
      · obtain ⟨receptions, explains, same⟩ := h.assembled
        refine ⟨receptions ++ [⟨frame, now⟩], ?_, ?_⟩
        · rw [fed_concat, returned, same]
          exact explains.concat frame now
        · rw [stored, same, after_append_one]
  | _ =>
      rw [before] at moved
      cases packet <;> cases moved

/-- A packet is handed to the transport. -/
theorem Handled.passes {data : Bytes} {succeeded : Bool} {place : Arriving}
    (h : Handled iface trace fields places)
    (moved : arriving iface (places .rx) (.inbound data) succeeded = some place) :
    Handled iface (trace ++ [.call .rx (.inbound data) succeeded]) fields
      (Function.update places .rx place) := by
  cases before : places .rx with
  | packet packet =>
      rw [before] at moved
      have framed := h.framed
      have plain := h.plain
      rw [before] at framed plain
      obtain ⟨rfl, ⟨⟩⟩ := Option.ite_none_right_eq_some.mp moved
      refine ⟨apart_update h.apart, fun framing => ?_, fun framing => ?_, ?_⟩
      · rw [heard_concat, fed_concat, passed_concat, Function.update_self]
        obtain ⟨heard, returned⟩ := framed framing
        rw [heard]
        simp only [Label.heard, Call.heard, Label.fed, Call.fed, Label.passed, Call.passed,
          Arriving.waiting, Arriving.inHand, List.append_nil]
        exact ⟨trivial, returned⟩
      · rw [heard_concat, fed_concat, passed_concat, Function.update_self]
        obtain ⟨none, -, heard⟩ := plain framing
        rw [heard, none]
        simp [Label.heard, Call.heard, Label.fed, Call.fed, Label.passed, Call.passed,
          Arriving.waiting, Arriving.inHand]
      · rw [fed_concat]
        exact (List.append_nil _).symm ▸ h.assembled
  | _ =>
      rw [before] at moved
      cases moved

end Step

/-- Calls that are not about a frame leave the reassembler. -/
theorem World.Answers.reassembler {who : Who} {call : Call} {world next : World}
    {answer : call.Answer} (answered : World.Answers who call world answer next)
    (h : call.Arrives = false) : next.fields.reassembler = world.fields.reassembler := by
  cases call with
  | logRx | feed | inbound => cases h
  | readRun | readOnline | waitEvent | readActive | waitIrq | acquire | queueLength | popleft =>
      obtain ⟨-, rfl⟩ := answered
      rfl
  | radio effect =>
      cases effect with
      | xfer payload => exact answered.elim
      | setTxen on =>
          obtain ⟨-, rfl⟩ := answered
          rfl
      | _ =>
          cases answered
          rfl
  | _ =>
      cases answered
      rfl

theorem handled_tied (iface : LoRaSPIInterface) : Tied (arriving iface) (Handled iface) where
  call {trace world next places who call answer place} h moved answered := by
    cases arrives : call.Arrives with
    | false =>
        obtain rfl := Option.some_inj.mp ((arriving_other arrives _ answer).symm.trans moved)
        rw [Function.update_eq_self]
        refine h.silent ?_ ?_ ?_ (answered.reassembler arrives)
        all_goals
          cases call with
          | logRx | feed | inbound => cases arrives
          | _ => rfl
    | true =>
        have own : who = .rx := by
          by_contra other
          rw [h.apart who other] at moved
          cases call with
          | logRx | feed | inbound => cases moved
          | _ => cases arrives
        subst own
        cases call with
        | logRx reception =>
            obtain rfl : next = world := answered
            exact h.receives moved
        | feed frame =>
            obtain ⟨now, returned, rfl⟩ := answered
            exact h.feeds moved returned rfl
        | inbound data =>
            obtain rfl : next = world := answered
            exact h.passes moved
        | _ => cases arrives
  back {trace fields places who label payload reply place} h moved returns := by
    obtain rfl := Option.some_inj.mp ((arriving_other rfl _ reply).symm.trans moved)
    rw [Function.update_eq_self]
    rcases returns with rfl | rfl
    · exact h.silent rfl rfl rfl rfl
    · exact h.silent rfl rfl rfl rfl
  quiet {trace fields places label} h quiet := by
    cases label with
    | call who call answer => exact absurd rfl (quiet who call answer)
    | _ => exact h.silent rfl rfl rfl rfl

/-- Only the RX worker has to do with frames received. -/
def Arriving.first : Who → Arriving
  | .rx => .idle
  | _ => .apart

section Run

variable {soft : Bool} {iface : LoRaSPIInterface} {world : World} {trace : List Label}

/-- Every run keeps the RX worker to one frame after the other. -/
theorem handled_of_run (run : (threads soft iface).Run world trace) :
    ∃ places, Watched (arriving iface) (fun who _ => Arriving.Between who) (fun _ _ => True) world
      places ∧ Handled iface trace world.fields places := by
  refine run_watched Arriving.first run (handled_tied iface) keepsArriving_turn
    keepsArriving_detach rfl rfl (fun _ => rfl) fun world initial => ?_
  refine ⟨fun who other => ?_, fun _ => ⟨rfl, rfl⟩, fun _ => ⟨rfl, rfl, rfl⟩, [], ⟨rfl, rfl⟩,
    initial.reassembler⟩
  cases who with
  | rx => exact absurd rfl other
  | _ => rfl

/-- Between two turns the RX worker has nothing in hand. -/
theorem Arriving.idle_between {places : Who → Arriving} {next : Next}
    (watched : Watched (arriving iface) (fun who _ => Arriving.Between who) (fun _ _ => True) world
      places) (here : (world.threads .rx).program = .done next) : places .rx = .idle := by
  have ended := watched .rx
  rw [here] at ended
  exact ended

/-- In every run, whatever the order of the steps: with framing, the frames received are
those fed to the reassembler, and the packets it returned are those handed to the
transport; without, the frames received are handed on as they are.  Everything happens once
and in order, and between two turns of the RX worker nothing is left in hand. -/
theorem received_in_order (run : (threads soft iface).Run world trace) :
    ∃ waiting inHand, world.Received iface trace waiting inHand := by
  obtain ⟨places, watched, handled⟩ := handled_of_run run
  refine ⟨(places .rx).waiting, (places .rx).inHand, handled.framed, handled.plain,
    handled.assembled, ?_, fun next here => ?_⟩
  · cases places .rx with
    | frame | packet => exact le_rfl
    | apart | idle => exact Nat.zero_le 1
  · rw [Arriving.idle_between watched here]
    exact ⟨rfl, rfl⟩

end Run

/-- With framing, and a chip that has the first half of a packet to hand out. -/
def oneHalf : Setting where
  iface := { loraham with rnodeFraming := true, maxPacket := framedMtu }
  oracle := willing fun _ => .granted
  received := [0x00, 0x51, 0x48, 0x69]
  fuel := 0
  data := []

/-- After one turn of the RX worker the half waits for its partner. -/
theorem first_half_is_assembled :
    ∃ world trace, (threads true oneHalf.iface).Run world trace ∧
      world.reassembler.half = some ⟨5, [0x48, 0x69], 0⟩ ∧
      ∃ waiting inHand, world.Received oneHalf.iface trace waiting inHand := by
  have played : (oneHalf.play (List.replicate 74 .rx) (.fresh oneHalf.iface)).map (fun world =>
      world.reassembler.half) = some (some ⟨5, [0x48, 0x69], 0⟩) := by
    decide +kernel
  obtain ⟨world, trace, run, seen⟩ := Setting.reaches played
  exact ⟨world, trace, run, seen, received_in_order run⟩

end LorahamRns.Interface
