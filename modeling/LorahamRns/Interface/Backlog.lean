import LorahamRns.Interface.Schedule
import LorahamRns.Interface.Watched

/-!
# The outbound queue

`process_outgoing` looks at the length of the queue and appends to it in two calls, with no
lock between them: every caller at work may add one packet to a full queue, and no more.
The TX worker takes a packet only from a queue it has seen filled, and nobody else takes
any, so it never finds the queue empty.
-/

namespace LorahamRns.Interface

open LorahamRns.Lib LorahamRns.Framing LorahamRns.Radio
open Program (keeps_bind keeps_rescue)

/-- A caller that has yet to look at the queue or has found room in it, the TX worker before
and behind its look, and a thread that leaves the queue alone. -/
inductive Queueing where
  | away
  | admitted
  | serving
  | filled
  | apart
  deriving DecidableEq

/-- A packet is appended behind a look that found room, and taken behind one that found a
packet. -/
def queueing : Monitor Call Call.Answer Queueing
  | .away, .queueLength, length => some (if length < maxQueuePackets then .admitted else .away)
  | .admitted, .append _, _ => some .away
  | .serving, .queueLength, length => some (if length = 0 then .serving else .filled)
  | .filled, .queueLength, length => some (if length = 0 then .serving else .filled)
  | .filled, .popleft, _ => some .serving
  | .admitted, .queueLength, _ => none
  | .apart, .queueLength, _ => none
  | .away, .append _, _ => none
  | .serving, .append _, _ => none
  | .filled, .append _, _ => none
  | .apart, .append _, _ => none
  | .away, .popleft, _ => none
  | .admitted, .popleft, _ => none
  | .serving, .popleft, _ => none
  | .apart, .popleft, _ => none
  | place, _, _ => some place

/-! ## The threads keep to it -/

/-- The calls about the queue. -/
def Call.Queues : Call → Bool
  | .queueLength | .append _ | .popleft => true
  | _ => false

theorem queueing_apart {call : Call} (h : call.Queues = false) (place : Queueing)
    (answer : call.Answer) : queueing place call answer = some place := by
  cases call with
  | queueLength | append | popleft => cases h
  | _ => cases place <;> rfl

section Walk

variable {iface : LoRaSPIInterface} {α : Type}

theorem keepsQueue_apart {program : Worker α} (h : program.Only fun call => call.Queues = false)
    (place : Queueing) :
    program.Keeps queueing (fun _ => (· = place)) (fun _ => (· = place)) place :=
  h.keeps fun _ answer apart => queueing_apart apart place answer

theorem queues_receive {call : Call} (h : call.OfReceive) : call.Queues = false := by
  cases call with
  | queueLength | append | popleft => exact h.elim
  | _ => rfl

theorem queues_transmit {call : Call} (h : call.OfTransmit) : call.Queues = false := by
  cases call with
  | queueLength | append | popleft => exact h.elim
  | _ => rfl

theorem queues_handler {call : Call} (h : call.OfHandler) : call.Queues = false := by
  cases call with
  | queueLength | append | popleft => exact h.elim
  | _ => rfl

/-- Where each thread is between its turns. -/
def Queueing.Between : Who → Queueing → Prop
  | .rx, place => place = .apart
  | .tx, place => place = .serving ∨ place = .filled
  | .detacher, place => place = .apart
  | .caller _, place => place = .away

theorem keepsQueue_rxTurn :
    (rxTurn iface).Keeps queueing (fun _ => (· = .apart)) (fun _ _ => True) .apart := by
  have apart : (rxTurn iface).Only fun call => call.Queues = false := by
    refine ⟨rfl, fun run => ?_⟩
    cases run with
    | false => trivial
    | true =>
        refine Program.Only.rescue (((rxBody_only iface).mono fun _ => queues_receive).bind
          fun _ => trivial) fun reason => (rxHandler_only reason).mono fun _ => queues_handler
  exact (keepsQueue_apart apart .apart).mono (fun _ _ same => same) fun _ _ _ => trivial

theorem keepsQueue_txOuter {place : Queueing} (loops : place = .serving ∨ place = .filled) :
    txOuter.Keeps queueing (fun _ place => place = .serving ∨ place = .filled) (fun _ _ => True)
      place := by
  have apart : txOuter.Only fun call => call.Queues = false := by
    refine ⟨rfl, fun run => ?_⟩
    cases run with
    | false => trivial
    | true => exact ⟨rfl, fun _ => ⟨rfl, fun _ => trivial⟩⟩
  exact (keepsQueue_apart apart place).mono (fun _ _ same => same ▸ loops) fun _ _ _ => trivial

theorem keepsQueue_txInner (fuel : ℕ) {place : Queueing}
    (loops : place = .serving ∨ place = .filled) :
    (txInner iface fuel).Keeps queueing (fun _ place => place = .serving ∨ place = .filled)
      (fun _ _ => True) place := by
  have sends (packet : Packet) : (txPacket iface packet fuel).Only
      fun call => call.Queues = false :=
    Program.Only.rescue (((transmit_only iface packet fuel).mono fun _ => queues_transmit).bind
      fun _ => trivial) fun reason => (txHandler_only reason).mono fun _ => queues_handler
  intro length
  refine ⟨if length = 0 then .serving else .filled, by rcases loops with rfl | rfl <;> rfl, ?_⟩
  dsimp only
  split
  · exact Or.inl rfl
  refine fun run => ⟨.filled, rfl, ?_⟩
  cases run with
  | false => exact Or.inr rfl
  | true =>
      refine fun packet => ⟨.serving, rfl, ?_⟩
      cases packet with
      | none => trivial
      | some packet =>
          exact (keepsQueue_apart (sends packet) .serving).mono (fun _ _ => Or.inl)
            fun _ _ _ => trivial

theorem keepsQueue_caller (data : Bytes) :
    (processOutgoing iface data).Keeps queueing (fun _ => (· = .away)) (fun _ _ => True)
      .away := by
  have drops (notice : Notice) : ((log notice).bind fun _ => .done .ended : Worker Next).Keeps
      queueing (fun _ => (· = .away)) (fun _ _ => True) .away :=
    keeps_bind ((keepsQueue_apart (attempt_only rfl) .away).mono (fun _ _ same => same)
      fun _ _ _ => trivial)
  refine fun online => ⟨.away, rfl, ?_⟩
  dsimp only
  split
  · split
    · exact drops .oversize
    · refine fun length => ⟨_, rfl, ?_⟩
      dsimp only
      split
      · next full =>
          rw [if_neg (not_lt.mpr full)]
          exact drops .queueFull
      · next room =>
          rw [if_pos (not_le.mp room)]
          exact fun now => ⟨.admitted, rfl, fun _ => ⟨.away, rfl, fun _ => ⟨.away, rfl, rfl⟩⟩⟩
  · exact rfl

theorem keepsQueue_detach :
    detach.Keeps queueing (fun _ => (· = .apart)) (fun _ _ => True) .apart := by
  have apart : detach.Only fun call => call.Queues = false :=
    ⟨rfl, fun _ => ⟨rfl, fun _ => ⟨rfl, fun _ => ⟨rfl, fun _ => ⟨rfl, fun _ => ⟨rfl, fun _ =>
      ⟨rfl, fun _ => trivial⟩⟩⟩⟩⟩⟩⟩
  exact (keepsQueue_apart apart .apart).mono (fun _ _ same => same) fun _ _ _ => trivial

theorem keepsQueue_turn {who : Who} {next : Next} {program : Worker Next} {place : Queueing}
    (goesOn : Turn iface who next program) (between : place.Between who) :
    program.Keeps queueing (fun _ => Queueing.Between who) (fun _ _ => True) place := by
  cases goesOn with
  | rx =>
      obtain rfl : place = .apart := between
      exact keepsQueue_rxTurn
  | outer => exact keepsQueue_txOuter between
  | inner fuel => exact keepsQueue_txInner fuel between
  | caller number data =>
      obtain rfl : place = .away := between
      exact keepsQueue_caller data

end Walk

/-! ## The bound -/

/-- The places a thread can be in. -/
def Queueing.Fits : Who → Queueing → Prop
  | .rx, place | .detacher, place => place = .apart
  | .tx, place => place = .serving ∨ place = .filled
  | .caller _, place => place = .away ∨ place = .admitted

/-- A call takes a thread from a place that fits to one that does. -/
theorem Queueing.Fits.moved {who : Who} {place after : Queueing} {call : Call}
    {answer : call.Answer} (fits : place.Fits who)
    (moved : queueing place call answer = some after) : after.Fits who := by
  cases queues : call.Queues with
  | false =>
      obtain rfl := Option.some_inj.mp ((queueing_apart queues place answer).symm.trans moved)
      exact fits
  | true =>
      cases call with
      | queueLength =>
          cases place with
          | admitted | apart => cases moved
          | away =>
              obtain rfl := Option.some_inj.mp moved
              cases who with
              | caller number =>
                  change (if _ then _ else _) = _ ∨ _
                  split
                  · exact Or.inr rfl
                  · exact Or.inl rfl
              | tx => rcases fits with same | same <;> cases same
              | rx | detacher => cases fits
          | serving | filled =>
              obtain rfl := Option.some_inj.mp moved
              cases who with
              | tx =>
                  change (if _ then _ else _) = _ ∨ _
                  split
                  · exact Or.inl rfl
                  · exact Or.inr rfl
              | caller number => rcases fits with same | same <;> cases same
              | rx | detacher => cases fits
      | append packet =>
          cases place with
          | admitted =>
              obtain rfl := Option.some_inj.mp moved
              cases who with
              | caller number => exact Or.inl rfl
              | tx => rcases fits with same | same <;> cases same
              | rx | detacher => cases fits
          | _ => cases moved
      | popleft =>
          cases place with
          | filled =>
              obtain rfl := Option.some_inj.mp moved
              cases who with
              | tx => exact Or.inl rfl
              | caller number => rcases fits with same | same <;> cases same
              | rx | detacher => cases fits
          | _ => cases moved
      | _ => cases queues

/-- The callers that have found room and not appended yet. -/
def pending (callers : Finset ℕ) (places : Who → Queueing) : Finset ℕ :=
  callers.filter fun number => places (.caller number) = .admitted

/-- The queue, as the places of the threads describe it. -/
structure Backlog (callers : Finset ℕ) (fields : Fields) (places : Who → Queueing) : Prop where
  fits : ∀ who, (places who).Fits who
  known : ∀ number, places (.caller number) = .admitted → number ∈ callers
  filled : places .tx = .filled → fields.queue ≠ []
  bounded : fields.queue.length + (pending callers places).card < maxQueuePackets + callers.card

section Pending

variable {callers : Finset ℕ} {places : Who → Queueing} {who : Who} {place : Queueing}

theorem pending_card_le : (pending callers places).card ≤ callers.card :=
  Finset.card_le_card (Finset.filter_subset _ _)

/-- A thread that is not let in adds nothing. -/
theorem pending_subset (callers : Finset ℕ) (places : Who → Queueing) (who : Who)
    (out : place ≠ .admitted) :
    pending callers (Function.update places who place) ⊆ pending callers places := by
  intro number waits
  obtain ⟨known, admitted⟩ := Finset.mem_filter.mp waits
  refine Finset.mem_filter.mpr ⟨known, ?_⟩
  by_cases same : Who.caller number = who
  · subst same
    rw [Function.update_self] at admitted
    exact absurd admitted out
  · rwa [Function.update_of_ne same] at admitted

theorem pending_lt {number : ℕ} (known : number ∈ callers)
    (admitted : places (.caller number) = .admitted) (out : place ≠ .admitted) :
    (pending callers (Function.update places (.caller number) place)).card <
      (pending callers places).card := by
  refine Finset.card_lt_card ⟨pending_subset _ _ _ out, fun back => out ?_⟩
  have waits := back (Finset.mem_filter.mpr ⟨known, admitted⟩)
  have here := (Finset.mem_filter.mp waits).2
  rwa [Function.update_self] at here

theorem fits_update (fits : ∀ who, (places who).Fits who) (here : place.Fits who) (other : Who) :
    (Function.update places who place other).Fits other := by
  by_cases same : other = who
  · subst same
    rw [Function.update_self]
    exact here
  · rw [Function.update_of_ne same]
    exact fits other

end Pending

/-- Calls that are not about the queue leave it. -/
theorem World.Answers.unqueued {who : Who} {call : Call} {world after : World}
    {answer : call.Answer} (answered : World.Answers who call world answer after)
    (h : call.Queues = false) : after.fields.queue = world.fields.queue := by
  cases call with
  | queueLength | append | popleft => cases h
  | readRun | readOnline | waitEvent | readActive | waitIrq | acquire =>
      obtain ⟨-, rfl⟩ := answered
      rfl
  | feed frame =>
      obtain ⟨now, -, rfl⟩ := answered
      rfl
  | radio effect =>
      cases effect with
      | xfer payload => exact answered.elim
      | setTxen on =>
          obtain ⟨-, rfl⟩ := answered
          rfl
      | _ =>
          cases answered
          rfl
  | _ =>
      cases answered
      rfl

section Step

variable {callers : Finset ℕ} {fields after : Fields} {places : Who → Queueing} {who : Who}

theorem Backlog.stays (h : Backlog callers fields places) (same : after.queue = fields.queue) :
    Backlog callers after (Function.update places who (places who)) := by
  rw [Function.update_eq_self]
  exact ⟨h.fits, h.known, by rw [same]; exact h.filled, by rw [same]; exact h.bounded⟩

/-- A look at the queue lets a caller in only where there is room. -/
theorem Backlog.looks {place : Queueing} (h : Backlog callers fields places)
    (known : ∀ number, who = .caller number → number ∈ callers)
    (moved : queueing (places who) .queueLength fields.queue.length = some place) :
    Backlog callers fields (Function.update places who place) where
  fits := fits_update h.fits ((h.fits who).moved moved)
  known number admitted := by
    by_cases same : Who.caller number = who
    · exact known number same.symm
    · rw [Function.update_of_ne same] at admitted
      exact h.known number admitted
  filled here := by
    by_cases same : Who.tx = who
    · subst same
      rw [Function.update_self] at here
      subst here
      intro empty
      rw [empty] at moved
      rcases h.fits .tx with serving | filled
      · rw [serving] at moved
        cases moved
      · rw [filled] at moved
        cases moved
    · rw [Function.update_of_ne same] at here
      exact h.filled here
  bounded := by
    by_cases admitted : place = .admitted
    · have room : fields.queue.length < maxQueuePackets := by
        subst admitted
        by_contra full
        cases before : places who with
        | away =>
            rw [before] at moved
            cases (congrArg some (if_neg full)).symm.trans moved
        | admitted | apart =>
            rw [before] at moved
            cases moved
        | serving | filled =>
            rw [before] at moved
            have lets := Option.some_inj.mp moved
            split at lets <;> cases lets
      have most : (pending callers (Function.update places who place)).card ≤ callers.card :=
        pending_card_le
      omega
    · have fewer := Finset.card_le_card (pending_subset callers places who admitted)
      have before := h.bounded
      omega

/-- A packet is appended by a caller that was let in. -/
theorem Backlog.appends {packet : Packet} {place : Queueing} (h : Backlog callers fields places)
    (moved : queueing (places who) (.append packet) () = some place)
    (queue : after.queue = fields.queue ++ [packet]) :
    Backlog callers after (Function.update places who place) := by
  cases before : places who with
  | admitted =>
      have fits := h.fits who
      rw [before] at moved fits
      obtain rfl := Option.some_inj.mp moved
      cases who with
      | caller number =>
          refine ⟨fits_update h.fits (Or.inl rfl), fun other admitted => ?_, fun _ => ?_, ?_⟩
          · by_cases same : other = number
            · exact same ▸ h.known number before
            · rw [Function.update_of_ne fun equal => same (Who.caller.inj equal)] at admitted
              exact h.known other admitted
          · rw [queue]
            exact List.append_ne_nil_of_right_ne_nil _ (List.cons_ne_nil _ _)
          · have out : Queueing.away ≠ .admitted := Queueing.noConfusion
            have fewer := pending_lt (h.known number before) before out
            have bounded := h.bounded
            rw [queue, List.length_append, List.length_singleton]
            omega
      | tx => rcases fits with same | same <;> cases same
      | rx | detacher => cases fits
  | _ =>
      rw [before] at moved
      cases moved

/-- A packet is taken by the TX worker, behind its look. -/
theorem Backlog.takes {packet : Option Packet} {place : Queueing} (h : Backlog callers fields places)
    (moved : queueing (places who) .popleft packet = some place)
    (queue : after.queue = fields.queue.tail) :
    Backlog callers after (Function.update places who place) := by
  cases before : places who with
  | filled =>
      have fits := h.fits who
      rw [before] at moved fits
      obtain rfl := Option.some_inj.mp moved
      cases who with
      | tx =>
          refine ⟨fits_update h.fits (Or.inl rfl), fun number admitted => ?_, fun here => ?_, ?_⟩
          · rw [Function.update_of_ne Who.noConfusion] at admitted
            exact h.known number admitted
          · rw [Function.update_self] at here
            cases here
          · have out : Queueing.serving ≠ .admitted := Queueing.noConfusion
            have fewer := Finset.card_le_card (pending_subset callers places .tx out)
            have bounded := h.bounded
            rw [queue, List.length_tail]
            omega
      | caller number => rcases fits with same | same <;> cases same
      | rx | detacher => cases fits
  | _ =>
      rw [before] at moved
      cases moved

end Step

/-- All callers that step in a trace are among these. -/
def OnlyCallers (callers : Finset ℕ) (trace : List Label) : Prop :=
  ∀ label ∈ trace, ∀ number, label.mover = some (.caller number) → number ∈ callers

/-- A trace has finitely many. -/
theorem only_callers (trace : List Label) : ∃ callers, OnlyCallers callers trace := by
  induction trace with
  | nil => exact ⟨∅, by rintro _ ⟨⟩⟩
  | cons label trace ih =>
      obtain ⟨callers, known⟩ := ih
      have grows {more : Finset ℕ} (sub : callers ⊆ more)
          (here : ∀ number, label.mover = some (.caller number) → number ∈ more) :
          OnlyCallers more (label :: trace) := by
        intro other seen number same
        rcases List.mem_cons.mp seen with rfl | seen
        · exact here number same
        · exact sub (known other seen number same)
      by_cases calls : ∃ number, label.mover = some (.caller number)
      · obtain ⟨number, here⟩ := calls
        refine ⟨insert number callers, grows (Finset.subset_insert _ _) fun other same => ?_⟩
        obtain rfl := Who.caller.inj (Option.some_inj.mp (here.symm.trans same))
        exact Finset.mem_insert_self _ _
      · exact ⟨callers, grows (Finset.Subset.refl _) fun number same =>
          absurd ⟨number, same⟩ calls⟩

theorem backlog_tied (callers : Finset ℕ) : Tied queueing fun trace fields places =>
    OnlyCallers callers trace → Backlog callers fields places where
  call {trace world after places who call answer place} h moved answered known := by
    have before := h fun label seen => known label (List.mem_append_left _ seen)
    cases queues : call.Queues with
    | false =>
        obtain rfl := Option.some_inj.mp ((queueing_apart queues _ answer).symm.trans moved)
        exact before.stays (answered.unqueued queues)
    | true =>
        cases call with
        | queueLength =>
            obtain ⟨rfl, rfl⟩ := answered
            refine before.looks (fun number same => ?_) moved
            exact known _ (List.mem_append_right _ (List.mem_singleton_self _)) number
              (congrArg some same)
        | append packet =>
            cases answered
            exact before.appends moved rfl
        | popleft =>
            obtain ⟨-, rfl⟩ := answered
            exact before.takes moved rfl
        | _ => cases queues
  back {trace fields places who label payload reply place} h moved _ known := by
    obtain rfl := Option.some_inj.mp ((queueing_apart rfl _ reply).symm.trans moved)
    exact (h fun label seen => known label (List.mem_append_left _ seen)).stays rfl
  quiet h _ known := h fun label seen => known label (List.mem_append_left _ seen)

/-- Nobody has looked at the queue. -/
def Queueing.first : Who → Queueing
  | .rx | .detacher => .apart
  | .tx => .serving
  | .caller _ => .away

theorem backlog_start (callers : Finset ℕ) {iface : LoRaSPIInterface} {world : World}
    (initial : world.Initial iface) : Backlog callers world.fields Queueing.first where
  fits who := by
    cases who with
    | tx => exact Or.inl rfl
    | caller number => exact Or.inl rfl
    | rx | detacher => rfl
  known _ admitted := by cases admitted
  filled here := by cases here
  bounded := by
    have none : world.fields.queue = [] := initial.queue
    have most : pending callers Queueing.first = ∅ :=
      Finset.filter_eq_empty_iff.mpr fun _ _ here => by cases here
    rw [none, most]
    simp [maxQueuePackets]

/-- In every run, whatever the order of the steps: the queue stays below its limit and one
packet for each caller at work; `popleft` is called by the TX worker alone, and never on an
empty queue. -/
theorem queue_is_bounded {soft : Bool} {iface : LoRaSPIInterface} {world : World}
    {trace : List Label} (run : (threads soft iface).Run world trace) :
    (∀ callers, OnlyCallers callers trace →
      world.queue.length < maxQueuePackets + callers.card) ∧
    ∀ who next, (world.threads who).program = .call .popleft next →
      who = .tx ∧ world.queue ≠ [] := by
  have reached (callers : Finset ℕ) := run_watched Queueing.first run (backlog_tied callers)
    keepsQueue_turn keepsQueue_detach rfl (Or.inl rfl) (fun _ => rfl)
    fun world initial _ => backlog_start callers initial
  refine ⟨fun callers known => ?_, fun who next here => ?_⟩
  · obtain ⟨places, -, ties⟩ := reached callers
    have bounded := (ties known).bounded
    exact lt_of_le_of_lt (Nat.le_add_right _ _) bounded
  · obtain ⟨callers, known⟩ := only_callers trace
    obtain ⟨places, watched, ties⟩ := reached callers
    have takes := watched who
    rw [here] at takes
    obtain ⟨after, moved, -⟩ := takes.step none
    have backlog := ties known
    have fits := backlog.fits who
    cases before : places who with
    | filled =>
        rw [before] at fits
        cases who with
        | tx => exact ⟨rfl, backlog.filled before⟩
        | caller number => rcases fits with same | same <;> cases same
        | rx | detacher => cases fits
    | _ =>
        rw [before] at moved
        cases moved

/-- Two callers, and workers that have not started. -/
def callersOnly : Setting where
  iface := loraham
  oracle := willing fun _ => .granted
  received := []
  fuel := 0
  data := []

/-- One caller fills the queue up to one packet, and both look at it before they append. -/
def rush : List Who :=
  List.replicate (63 * 6) (.caller 0) ++
    [.caller 0, .caller 0, .caller 0, .caller 1, .caller 1, .caller 1, .caller 0, .caller 0,
      .caller 1, .caller 1]

/-- The bound is met: two callers bring the queue to 65 packets. -/
theorem two_callers_overfill_the_queue :
    ∃ world trace, (threads true loraham).Run world trace ∧ OnlyCallers {0, 1} trace ∧
      world.queue.length = 65 ∧
      world.queue.length < maxQueuePackets + ({0, 1} : Finset ℕ).card := by
  have played : (callersOnly.play rush (.fresh callersOnly.iface)).map (fun world =>
      world.queue.length) = some 65 := by
    decide +kernel
  obtain ⟨world, played, seen⟩ := Option.map_eq_some_iff.mp played
  obtain ⟨run, moves⟩ := Setting.play_traced played (.start (World.fresh_initial loraham))
  have known : OnlyCallers {0, 1} (callersOnly.trace rush (.fresh loraham)) := by
    intro label passed number same
    have scheduled : some (Who.caller number) ∈ rush.map some := by
      rw [← moves, ← same]
      exact List.mem_map_of_mem passed
    have among : ∀ who ∈ rush, who = .caller 0 ∨ who = .caller 1 := by decide +kernel
    obtain ⟨who, taken, equal⟩ := List.mem_map.mp scheduled
    obtain rfl := Option.some_inj.mp equal
    rcases among _ taken with here | here
    · obtain rfl := Who.caller.inj here
      decide
    · obtain rfl := Who.caller.inj here
      decide
  exact ⟨world, _, run, known, seen, (queue_is_bounded run).1 {0, 1} known⟩

end LorahamRns.Interface
