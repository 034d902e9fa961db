import LorahamRns.Interface.Worker
import LorahamRns.Radio.Faults

/-!
# The packet in hand

What the TX worker has done with the packet it took last.  A packet is taken and framed;
its airtime is granted once; then its frames are handed over one by one.  Only a fault of
the bus or the radio ends that before the last frame.
-/

namespace LorahamRns.Interface

open LorahamRns.Lib LorahamRns.Framing LorahamRns.Radio
open Program (keeps_bind keeps_rescue keeps_ensuring keeps_ofExcept)

/-- The frames of a packet; with framing, for some random byte. -/
def FramesOf (iface : LoRaSPIInterface) (data : Bytes) (frames : List Bytes) : Prop :=
  if iface.rnodeFraming then ∃ random, frame data random = some frames else frames = [data]

/-- What the TX worker does for a packet: airtime granted, a frame handed to
`radio.transmit`. -/
inductive Emission where
  | granted (toa : ℚ)
  | handed (frame : Bytes)

/-- How far the TX worker is with the packet it took last.  It is excused once an exception
came that is none of the bus, the radio or the ledger. -/
inductive Progress where
  | idle
  | taken (packet : Packet) (frames : Option (List Bytes))
  | sending (packet : Packet) (toa : ℚ) (frames : List Bytes) (sent : ℕ)
  | excused

def Progress.packets : Progress → List Packet
  | .idle | .excused => []
  | .taken packet _ | .sending packet _ _ _ => [packet]

def Progress.emitted : Progress → List Emission
  | .idle | .excused | .taken _ _ => []
  | .sending _ toa frames sent => .granted toa :: (frames.take sent).map .handed

/-- No frame is missing. -/
def Progress.Complete : Progress → Prop
  | .sending _ _ frames sent => sent = frames.length
  | _ => True

/-- The frames are those of the packet, the airtime theirs. -/
def Progress.Proper (iface : LoRaSPIInterface) : Progress → Prop
  | .taken _ none => iface.rnodeFraming
  | .taken packet (some frames) => FramesOf iface packet.data frames
  | .sending packet toa frames _ =>
      FramesOf iface packet.data frames ∧ airtime iface frames = .ok toa
  | _ => True

/-- The faults `_tx_loop` treats as fatal. -/
def Raised.Fatal (reason : Raised) : Prop := reason = .spiBus ∨ reason = .radio

def courier (iface : LoRaSPIInterface) : Monitor Call Call.Answer Progress
  | .excused, _, _ => some .excused
  | progress, .log _, succeeded => some (if succeeded then progress else .excused)
  | progress, .logTx _ _, succeeded => some (if succeeded then progress else .excused)
  | progress, .radio effect, reply =>
      some (if Option.any effect.fits reply then progress else .excused)
  | .idle, .popleft, none => some .idle
  | .idle, .popleft, some packet =>
      some (.taken packet (if iface.rnodeFraming then none else some [packet.data]))
  | .taken packet none, .random, random => some (.taken packet (frame packet.data random))
  | .taken packet (some frames), .reserve toa, verdict =>
      if airtime iface frames = .ok toa then
        some (match verdict with
          | .granted => .sending packet toa frames 0
          | _ => .taken packet (some frames))
      else none
  | .sending packet toa frames sent, .handOver place frame, _ =>
      if place = sent ∧ frames[sent]? = some frame then
        some (.sending packet toa frames (sent + 1))
      else none
  | _, .popleft, _ | _, .reserve _, _ | _, .handOver _ _, _ | _, .append _, _ | _, .random, _ =>
      none
  | progress, _, _ => some progress

section Calls

variable {iface : LoRaSPIInterface} {progress after : Progress}

/-- The calls that tell nothing about the packet in hand. -/
def Call.Quiet : Call → Prop
  | .log _ | .logTx _ _ | .radio _ | .popleft | .random | .reserve _ | .handOver _ _
  | .append _ => False
  | _ => True

theorem courier_quiet {call : Call} (quiet : call.Quiet) (reply : call.Answer) :
    courier iface progress call reply = some progress := by
  cases call with
  | log | logTx | radio | popleft | random | reserve | handOver | append => exact quiet.elim
  | _ =>
      cases progress with
      | taken packet frames => cases frames <;> rfl
      | _ => rfl

theorem courier_log {notice : Notice} (succeeded : Bool) :
    courier iface progress (.log notice) succeeded =
      some (if succeeded then progress else .excused) := by
  cases progress with
  | excused => cases succeeded <;> rfl
  | _ => rfl

theorem courier_logTx {confirmed : Bool} {frame : Bytes} (succeeded : Bool) :
    courier iface progress (.logTx confirmed frame) succeeded =
      some (if succeeded then progress else .excused) := by
  cases progress with
  | excused => cases succeeded <;> rfl
  | _ => rfl

theorem courier_radio {effect : Radio.Effect} (reply : Option effect.Answer) :
    courier iface progress (.radio effect) reply =
      some (if Option.any effect.fits reply then progress else .excused) := by
  cases progress with
  | excused => exact congrArg some (ite_self _).symm
  | _ => rfl

/-- The packet a call takes off the queue. -/
def Call.popped : (call : Call) → call.Answer → List Packet
  | .popleft, some packet => [packet]
  | _, _ => []

/-- The packet a call queues. -/
def Call.appended : Call → List Packet
  | .append packet => [packet]
  | _ => []

/-- What a call does for a packet. -/
def Call.emitted : (call : Call) → call.Answer → List Emission
  | .reserve toa, .granted => [.granted toa]
  | .handOver _ frame, _ => [.handed frame]
  | _, _ => []

/-- No exception but those of the bus, the radio and the ledger; transfers read as many
bytes as they clock out. -/
def Call.Calm : (call : Call) → call.Answer → Prop
  | .log _, succeeded | .logTx _ _, succeeded => succeeded = true
  | .radio effect, reply => Option.any effect.fits reply = true
  | _, _ => True

/-- A permitted call is accounted for by what is in hand before and after it. -/
structure Accounts (iface : LoRaSPIInterface) (progress : Progress) (call : Call)
    (answer : call.Answer) (after : Progress) : Prop where
  sound : after ≠ .excused
  packets : after.packets = progress.packets ++ call.popped answer
  emitted : after.emitted = progress.emitted ++ call.emitted answer
  appended : call.appended = []
  proper : progress.Proper iface → after.Proper iface

theorem Accounts.same {call : Call} {answer : call.Answer} (sound : progress ≠ .excused)
    (popped : call.popped answer = []) (emitted : call.emitted answer = [])
    (appended : call.appended = []) : Accounts iface progress call answer progress where
  sound := sound
  packets := by rw [popped, List.append_nil]
  emitted := by rw [emitted, List.append_nil]
  appended := appended
  proper := id

theorem accounts_popleft (sound : progress ≠ .excused) {packet : Option Packet}
    (moved : courier iface progress .popleft packet = some after) :
    Accounts iface progress .popleft packet after := by
  cases progress with
  | idle =>
      cases packet with
      | none =>
          obtain rfl := Option.some_inj.mp moved
          exact .same sound rfl rfl rfl
      | some packet =>
          obtain rfl := Option.some_inj.mp moved
          refine ⟨nofun, rfl, rfl, rfl, fun _ => ?_⟩
          cases framing : iface.rnodeFraming with
          | true => exact framing
          | false =>
              change if iface.rnodeFraming then _ else _
              rw [framing]
              rfl
  | taken packet frames => cases frames <;> cases moved
  | sending => cases moved
  | excused => exact absurd rfl sound

theorem accounts_random (sound : progress ≠ .excused) {random : UInt8}
    (moved : courier iface progress .random random = some after) :
    Accounts iface progress .random random after := by
  cases progress with
  | taken packet frames =>
      cases frames with
      | none =>
          obtain rfl := Option.some_inj.mp moved
          refine ⟨nofun, rfl, rfl, rfl, fun framing => ?_⟩
          cases framed : frame packet.data random with
          | none => exact framing
          | some frames =>
              have framing : iface.rnodeFraming = true := framing
              change if iface.rnodeFraming then _ else _
              rw [if_pos framing]
              exact ⟨random, framed⟩
      | some frames => cases moved
  | idle | sending => cases moved
  | excused => exact absurd rfl sound

theorem accounts_reserve (sound : progress ≠ .excused) {toa : ℚ} {verdict : Verdict}
    (moved : courier iface progress (.reserve toa) verdict = some after) :
    Accounts iface progress (.reserve toa) verdict after := by
  cases progress with
  | taken packet frames =>
      cases frames with
      | none => cases moved
      | some frames =>
          obtain ⟨charged, moved⟩ := Option.ite_none_right_eq_some.mp moved
          obtain rfl := Option.some_inj.mp moved
          cases verdict with
          | granted => exact ⟨nofun, rfl, rfl, rfl, fun framed => ⟨framed, charged⟩⟩
          | refused | raises => exact .same nofun rfl rfl rfl
  | idle | sending => cases moved
  | excused => exact absurd rfl sound

theorem accounts_handOver (sound : progress ≠ .excused) {place : ℕ} {frame : Bytes} {answer : Unit}
    (moved : courier iface progress (.handOver place frame) answer = some after) :
    Accounts iface progress (.handOver place frame) answer after := by
  cases progress with
  | sending packet toa frames sent =>
      obtain ⟨⟨-, this⟩, moved⟩ := Option.ite_none_right_eq_some.mp moved
      obtain rfl := Option.some_inj.mp moved
      refine ⟨nofun, rfl, ?_, rfl, id⟩
      have taken : frames.take (sent + 1) = frames.take sent ++ [frame] := by
        rw [List.take_add_one, this]
        rfl
      change Emission.granted toa :: (frames.take (sent + 1)).map .handed = _
      rw [taken, List.map_append]
      rfl
  | taken packet frames => cases frames <;> cases moved
  | idle => cases moved
  | excused => exact absurd rfl sound

theorem courier_accounts (sound : progress ≠ .excused) {call : Call} {answer : call.Answer}
    (calm : call.Calm answer) (moved : courier iface progress call answer = some after) :
    Accounts iface progress call answer after := by
  cases call with
  | popleft => exact accounts_popleft sound moved
  | random => exact accounts_random sound moved
  | reserve toa => exact accounts_reserve sound moved
  | handOver place frame => exact accounts_handOver sound moved
  | append packet =>
      cases progress with
      | taken packet frames => cases frames <;> cases moved
      | idle | sending => cases moved
      | excused => exact absurd rfl sound
  | log notice =>
      rw [courier_log, if_pos (show answer = true from calm)] at moved
      obtain rfl := Option.some_inj.mp moved
      exact .same sound rfl rfl rfl
  | logTx confirmed frame =>
      rw [courier_logTx, if_pos (show answer = true from calm)] at moved
      obtain rfl := Option.some_inj.mp moved
      exact .same sound rfl rfl rfl
  | radio effect =>
      rw [courier_radio, if_pos (show Option.any effect.fits answer = true from calm)] at moved
      obtain rfl := Option.some_inj.mp moved
      exact .same sound rfl rfl rfl
  | _ =>
      rw [courier_quiet (by exact trivial) answer] at moved
      obtain rfl := Option.some_inj.mp moved
      exact .same sound rfl rfl rfl

end Calls

/-! ## What `_transmit` does -/

/-- An exception that ends the sending is fatal. -/
def Progress.Thrown (reason : Raised) (progress : Progress) : Prop :=
  progress.Complete ∨ reason.Fatal

section Walk

variable {iface : LoRaSPIInterface} {α : Type}

/-- Calls that leave what is in hand, if no exception of another kind comes. -/
def Call.Aside : Call → Prop
  | .popleft | .random | .reserve _ | .handOver _ _ | .append _ => False
  | _ => True

theorem courier_aside {call : Call} (aside : call.Aside) (progress : Progress)
    (reply : call.Answer) :
    ∃ after, courier iface progress call reply = some after ∧
      (after = progress ∨ after = .excused) := by
  have either (expected : Bool) : (if expected then progress else .excused) = progress ∨
      (if expected then progress else .excused) = Progress.excused := by
    cases expected with
    | true => exact Or.inl rfl
    | false => exact Or.inr rfl
  cases call with
  | popleft | random | reserve | handOver | append => exact aside.elim
  | log notice => exact ⟨_, courier_log reply, either reply⟩
  | logTx confirmed frame => exact ⟨_, courier_logTx reply, either reply⟩
  | radio effect => exact ⟨_, courier_radio reply, either _⟩
  | _ => exact ⟨progress, courier_quiet (by exact trivial) reply, Or.inl rfl⟩

/-- What is in hand is as before, or the worker is excused. -/
def Progress.Kept (progress after : Progress) : Prop := after = progress ∨ after = .excused

theorem Progress.Kept.complete {progress after : Progress} (kept : progress.Kept after)
    (complete : progress.Complete) : after.Complete := by
  rcases kept with rfl | rfl
  · exact complete
  · trivial

theorem carries_aside {program : Worker α} (h : program.Only Call.Aside) (progress : Progress) :
    program.Keeps (courier iface) (fun _ => progress.Kept) (fun _ => progress.Kept) progress := by
  refine h.keeps_within (fun place call reply kept aside => ?_) (Or.inl rfl)
  obtain ⟨after, moved, same⟩ := courier_aside aside place reply
  refine ⟨after, moved, ?_⟩
  rcases same with rfl | rfl
  · exact kept
  · exact Or.inr rfl

/-- Nothing is asked of a worker that is excused. -/
theorem carries_excused (program : Worker α) :
    program.Keeps (courier iface) (fun _ => (· = .excused)) (fun _ => (· = .excused)) .excused :=
  (Program.only_any program).keeps fun _ _ _ => rfl

/-- A line that cannot be written excuses the worker. -/
theorem carries_log (notice : Notice) (progress : Progress) :
    (log notice).Keeps (courier iface) (fun _ => progress.Kept) (fun _ => (· = .excused))
      progress := by
  intro succeeded
  refine ⟨_, courier_log succeeded, ?_⟩
  cases succeeded with
  | true => exact Or.inl rfl
  | false => rfl

theorem carries_logTx (frame : Bytes) (confirmed : Bool) (progress : Progress) :
    (attempt (.logTx confirmed frame) id).Keeps (courier iface) (fun _ => progress.Kept)
      (fun _ => (· = .excused)) progress := by
  intro succeeded
  refine ⟨_, courier_logTx succeeded, ?_⟩
  cases succeeded with
  | true => exact Or.inl rfl
  | false => rfl

theorem carries_noteSent (frame : Bytes) (confirmed : Bool) (progress : Progress) :
    (noteSent frame confirmed).Keeps (courier iface) (fun _ => progress.Kept)
      (fun _ => (· = .excused)) progress := by
  unfold noteSent
  split
  · exact carries_logTx frame true progress
  · refine keeps_bind ((carries_log .unconfirmed progress).mono (fun _ after kept => ?_)
      fun _ _ excused => excused)
    rcases kept with rfl | rfl
    · exact carries_logTx frame false after
    · exact (carries_excused _).mono (fun _ _ excused => Or.inr excused) fun _ _ excused => excused

/-- A fatal fault leaves what is in hand, or the worker is excused. -/
def Progress.Faulted (progress : Progress) (reason : Raised) (after : Progress) : Prop :=
  after = progress ∧ reason.Fatal ∨ after = .excused

theorem Progress.Faulted.kept {progress after : Progress} {reason : Raised}
    (faulted : progress.Faulted reason after) : progress.Kept after :=
  faulted.imp_left And.left

/-- A driver call with answers that fit raises fatal faults only. -/
theorem carries_regular {program : Driver α} (regular : Regular program) {progress after : Progress}
    (kept : progress.Kept after) :
    (drive program).Keeps (courier iface) (fun _ => progress.Kept) progress.Faulted after := by
  have forgiven (program : Worker α) :
      program.Keeps (courier iface) (fun _ => progress.Kept) progress.Faulted .excused :=
    (carries_excused program).mono (fun _ _ => Or.inr) fun _ _ => Or.inr
  rcases kept with rfl | rfl
  · induction program with
    | done value => exact Or.inl rfl
    | fail fault =>
        refine Or.inl ⟨rfl, ?_⟩
        rcases regular.2 with rfl | rfl
        · exact Or.inl rfl
        · exact Or.inr rfl
    | call effect next ih =>
        intro reply
        refine ⟨_, courier_radio reply, ?_⟩
        cases reply with
        | none => exact Or.inr rfl
        | some reply =>
            rw [Option.any_some]
            cases fits : effect.fits reply with
            | true => exact ih reply (regular.2 reply () fits)
            | false => exact forgiven _
  · exact forgiven _

/-- `radio.transmit`: it comes back, or raises a fatal fault. -/
theorem carries_guarded {call : Guarded α} (regular : call.Regular) (progress : Progress) :
    (call.within drive).Keeps (courier iface) (fun _ => progress.Kept) progress.Faulted
      progress := by
  refine keeps_bind ((carries_regular regular.before (Or.inl rfl)).mono (fun deadline after kept => ?_)
    fun _ _ faulted => faulted)
  refine keeps_ensuring ((carries_regular (regular.body deadline) kept).mono
    (fun value after kept => carries_regular regular.cleanUp kept) fun reason after faulted => ?_)
  rcases faulted with ⟨rfl, fatal⟩ | rfl
  · refine (carries_regular regular.cleanUp (Or.inl rfl)).mono (fun _ last kept => ?_)
      fun _ _ faulted => faulted
    exact kept.imp_left fun same => ⟨same, fatal⟩
  · exact (carries_excused _).mono (fun _ _ => Or.inr) fun _ _ => Or.inr

theorem carries_sendFrames {packet : Packet} {toa : ℚ} (timeoutS : ℚ) (polls : ℕ)
    (before rest : List Bytes) :
    (sendFrames iface timeoutS polls before.length rest).Keeps (courier iface)
      (fun _ after => after.Complete) Progress.Thrown
      (.sending packet toa (before ++ rest) before.length) := by
  induction rest generalizing before with
  | nil => exact congrArg List.length (List.append_nil before).symm
  | cons frame rest ih =>
      have this : (before ++ frame :: rest)[before.length]? = some frame := by
        rw [List.getElem?_append_right le_rfl, Nat.sub_self]
        rfl
      have later := ih (before ++ [frame])
      rw [List.append_assoc, List.singleton_append, List.length_append] at later
      have forgiven (program : Worker Unit) : program.Keeps (courier iface)
          (fun _ after => after.Complete) Progress.Thrown .excused :=
        (carries_excused program).mono (fun _ after excused => excused ▸ trivial)
          fun _ after excused => Or.inl (excused ▸ trivial)
      have regular := regular_transmit iface.profile iface.settings frame timeoutS polls
      refine fun _ => ⟨_, if_pos ⟨rfl, this⟩, keeps_bind ((carries_guarded regular _).mono
        (fun confirmed after kept => ?_) fun reason after faulted => ?_)⟩
      · rcases kept with rfl | rfl
        · refine keeps_bind ((carries_noteSent frame confirmed _).mono (fun _ after kept => ?_)
            fun _ after excused => Or.inl (excused ▸ trivial))
          rcases kept with rfl | rfl
          · exact later
          · exact forgiven _
        · exact forgiven _
      · rcases faulted with ⟨-, fatal⟩ | rfl
        · exact Or.inr fatal
        · exact Or.inl trivial

/-- Calls aside keep whatever holds of what is in hand and of an excused worker. -/
theorem carries_around {program : Worker α} (h : program.Only Call.Aside) {holds : Progress → Prop}
    (excused : holds .excused) {progress : Progress} (start : holds progress) :
    program.Keeps (courier iface) (fun _ => holds) (fun _ => holds) progress := by
  have after {last : Progress} (kept : progress.Kept last) : holds last := by
    rcases kept with rfl | rfl
    · exact start
    · exact excused
  exact (carries_aside h progress).mono (fun _ _ => after) fun _ _ => after

theorem drive_aside (program : Driver α) : (drive program).Only Call.Aside :=
  (only_radio program).mono fun _ ⟨_, same⟩ => same ▸ trivial

theorem carries_keyUp {packet : Packet} {toa : ℚ} (timeoutS : ℚ) (polls : ℕ) (frames : List Bytes) :
    (keyUp iface timeoutS polls frames).Keeps (courier iface) (fun _ after => after.Complete)
      Progress.Thrown (.sending packet toa frames 0) := by
  have clear : (.call .clearActive .done : Worker Unit).Only Call.Aside :=
    ⟨trivial, fun _ => trivial⟩
  have body : ((sendFrames iface timeoutS polls 0 frames).bind fun _ =>
      withLock (drive (Radio.startRx iface.profile iface.settings))).Keeps (courier iface)
        (fun _ after => after.Complete) Progress.Thrown (.sending packet toa frames 0) := by
    refine keeps_bind ((carries_sendFrames timeoutS polls [] frames).mono
      (fun _ after complete => ?_) fun _ _ thrown => thrown)
    have receives : (withLock (drive (Radio.startRx iface.profile iface.settings))).Only
        Call.Aside := withLock_only trivial trivial (drive_aside _)
    exact (carries_around receives trivial complete).mono (fun _ _ complete => complete)
      fun _ _ => Or.inl
  refine keeps_ensuring (body.mono (fun _ after complete => ?_) fun reason after thrown => ?_)
  · exact (carries_around clear trivial complete).mono (fun _ _ complete => complete)
      fun _ _ => Or.inl
  · exact carries_around clear (Or.inl trivial) thrown

/-- The reservation loop asks for the airtime of the frames, and only for that. -/
theorem carries_hold {packet : Packet} {toa : ℚ} {frames : List Bytes}
    (charged : airtime iface frames = .ok toa) (queued : Packet) (tries : ℕ) :
    (hold queued toa tries).Keeps (courier iface)
      (fun granted after => if granted then after = .sending packet toa frames 0 ∨ after = .excused
        else after.Complete)
      (fun _ after => after.Complete) (.taken packet (some frames)) := by
  have gone (progress : Progress) (complete : progress.Complete) :
      ((log .dropped).bind fun _ => .done false).Keeps (courier iface)
        (fun granted after => if granted then
          after = Progress.sending packet toa frames 0 ∨ after = .excused else after.Complete)
        (fun _ after => after.Complete) progress := by
    refine keeps_bind ((carries_log .dropped progress).mono (fun _ after kept => ?_)
      fun _ after excused => excused ▸ trivial)
    exact kept.complete complete
  induction tries with
  | zero =>
      refine fun verdict => ⟨_, if_pos charged, ?_⟩
      cases verdict with
      | granted => exact Or.inl rfl
      | refused => exact fun _ => ⟨_, rfl, gone _ trivial⟩
      | raises reason => trivial
  | succ tries ih =>
      refine fun verdict => ⟨_, if_pos charged, ?_⟩
      cases verdict with
      | granted => exact Or.inl rfl
      | refused =>
          refine fun now => ⟨_, rfl, ?_⟩
          dsimp only
          split
          · exact gone _ trivial
          · exact fun _ => ⟨_, rfl, ih⟩
      | raises reason => trivial

/-- What the TX worker holds of a packet it has just taken. -/
def Progress.took (iface : LoRaSPIInterface) (packet : Packet) : Progress :=
  .taken packet (if iface.rnodeFraming then none else some [packet.data])

theorem carries_framesOf (packet : Packet) :
    (framesOf iface packet.data).Keeps (courier iface)
      (fun frames after => after = .taken packet (some frames))
      (fun _ after => after.Complete) (.took iface packet) := by
  unfold framesOf Progress.took
  cases iface.rnodeFraming with
  | true =>
      refine fun random => ⟨_, rfl, ?_⟩
      dsimp only
      cases frame packet.data random with
      | none => trivial
      | some frames => rfl
  | false => rfl

theorem carries_transmit (packet : Packet) (fuel : ℕ) :
    (transmit iface packet fuel).Keeps (courier iface) (fun _ after => after.Complete)
      Progress.Thrown (.took iface packet) := by
  refine keeps_bind ((carries_framesOf packet).mono (fun frames after this => ?_)
    fun _ _ => Or.inl)
  subst this
  refine keeps_bind (keeps_ofExcept (fun toa charged => ?_) fun _ _ => Or.inl trivial)
  have charged : airtime iface frames = .ok toa := by
    cases sum : airtime iface frames with
    | error fault =>
        rw [sum] at charged
        cases charged
    | ok value =>
        rw [sum] at charged
        exact congrArg Except.ok (Except.ok.inj charged)
  refine keeps_bind ((carries_hold charged packet fuel).mono (fun granted after held => ?_)
    fun _ _ => Or.inl)
  cases granted with
  | false => exact held
  | true =>
      rcases held with rfl | rfl
      · -- `_tx_active` is set under the lock
        exact fun _ => ⟨_, rfl, fun _ => ⟨_, rfl, fun _ => ⟨_, rfl, carries_keyUp _ fuel frames⟩⟩⟩
      · exact (carries_excused _).mono (fun _ after excused => excused ▸ trivial)
          fun _ after excused => Or.inl (excused ▸ trivial)

/-! ## What `_tx_loop` does -/

/-- Where a turn ends, no frame is missing, unless by a fatal fault. -/
def Progress.Settled (next : Next) (progress : Progress) : Prop :=
  progress.Complete ∨ ∃ cause, next = .failed cause ∧ cause.Fatal

/-- From here on the TX worker treats its packets as `courier` says. -/
abbrev Delivers (iface : LoRaSPIInterface) (program : Worker Next) (progress : Progress) : Prop :=
  program.Keeps (courier iface) Progress.Settled (fun _ after => after.Complete) progress

/-- The handler of a fatal fault says so where the turn ends. -/
theorem delivers_failAndReturn {cause : Raised} (fatal : cause.Fatal) (progress : Progress) :
    Delivers iface (failAndReturn cause) progress := by
  have settled (after : Progress) : after.Settled (.failed cause) := Or.inr ⟨cause, rfl, fatal⟩
  have stays (call : Call) (quiet : call.Quiet) (reply : call.Answer) :=
    @courier_quiet iface progress call quiet reply
  refine fun run => ⟨progress, stays .readRun trivial run, ?_⟩
  cases run with
  | false => exact settled progress
  | true =>
      refine fun _ => ⟨progress, stays .clearRun trivial (), fun _ =>
        ⟨progress, stays .setEvent trivial (), fun _ => ⟨progress, stays .clearOnline trivial (),
          fun _ => ⟨progress, stays (.setFatal cause) trivial (), ?_⟩⟩⟩⟩
      exact keeps_bind ((carries_log .fatal progress).mono (fun _ after _ => settled after)
        fun _ _ excused => excused ▸ trivial)

theorem delivers_txHandler {reason : Raised} {progress : Progress}
    (thrown : progress.Thrown reason) : Delivers iface (txHandler reason) progress := by
  have goesOn (notice : Notice) (complete : progress.Complete) :
      Delivers iface ((log notice).bind fun _ => .done .inner) progress :=
    keeps_bind ((carries_log notice progress).mono (fun _ _ kept => Or.inl (kept.complete complete))
      fun _ _ excused => excused ▸ trivial)
  have complete (other : ¬reason.Fatal) : progress.Complete := thrown.resolve_right other
  cases reason with
  | spiBus => exact delivers_failAndReturn (Or.inl rfl) progress
  | radio => exact delivers_failAndReturn (Or.inr rfl) progress
  | duty => exact goesOn .txBlocked (complete (by rintro (h | h) <;> cases h))
  | other => exact goesOn .txError (complete (by rintro (h | h) <;> cases h))

theorem delivers_txPacket (packet : Packet) (fuel : ℕ) :
    Delivers iface (txPacket iface packet fuel) (.took iface packet) :=
  keeps_rescue (keeps_bind ((carries_transmit packet fuel).mono (fun _ _ => Or.inl)
    fun _ _ => delivers_txHandler))

theorem delivers_txOuter : Delivers iface txOuter .idle := by
  refine fun run => ⟨_, rfl, ?_⟩
  cases run with
  | false => exact Or.inl trivial
  | true => exact fun _ => ⟨_, rfl, fun _ => ⟨_, rfl, Or.inl trivial⟩⟩

theorem delivers_txInner (fuel : ℕ) : Delivers iface (txInner iface fuel) .idle := by
  refine fun length => ⟨_, rfl, ?_⟩
  dsimp only
  split
  · exact Or.inl trivial
  refine fun run => ⟨_, rfl, ?_⟩
  cases run with
  | false => exact Or.inl trivial
  | true =>
      intro packet
      cases packet with
      | none => exact ⟨_, rfl, trivial⟩
      | some packet => exact ⟨_, rfl, delivers_txPacket packet fuel⟩

end Walk

/-! ## The other threads -/

/-- The calls of the threads that send nothing: a packet is queued only if it is not over
the limit. -/
def Call.Elsewhere (iface : LoRaSPIInterface) : Call → Prop
  | .append packet => packet.data.length ≤ iface.maxPacket
  | .popleft => False
  | _ => True

section Elsewhere

variable (iface : LoRaSPIInterface)

theorem rxTurn_elsewhere : (rxTurn iface).Only (Call.Elsewhere iface) := by
  have elsewhere (call : Call) (kind : call.OfReceive ∨ call.OfHandler) : call.Elsewhere iface := by
    cases call with
    | append | popleft => exact (kind.elim id id).elim
    | _ => trivial
  refine ⟨trivial, fun run => ?_⟩
  cases run with
  | false => trivial
  | true =>
      have body : Program.Only (Call.Elsewhere iface)
          ((rxBody iface).bind fun _ => .done .outer : Worker Next) :=
        ((rxBody_only iface).mono fun call kind => elsewhere call (Or.inl kind)).bind
          fun _ => trivial
      exact body.rescue fun reason =>
        (rxHandler_only reason).mono fun call kind => elsewhere call (Or.inr kind)

theorem processOutgoing_elsewhere (data : Bytes) :
    (processOutgoing iface data).Only (Call.Elsewhere iface) := by
  refine ⟨trivial, fun online => ?_⟩
  dsimp only
  split
  · split
    · exact (attempt_only trivial).bind fun _ => trivial
    · next within =>
        refine ⟨trivial, fun length => ?_⟩
        dsimp only
        split
        · exact (attempt_only trivial).bind fun _ => trivial
        · exact ⟨trivial, fun _ => ⟨Nat.le_of_not_lt within, fun _ => ⟨trivial, fun _ => trivial⟩⟩⟩
  · trivial

theorem detach_elsewhere : detach.Only (Call.Elsewhere iface) :=
  ⟨trivial, fun _ => ⟨trivial, fun _ => ⟨trivial, fun _ => ⟨trivial, fun _ => ⟨trivial, fun _ =>
    ⟨trivial, fun _ => ⟨trivial, fun _ => trivial⟩⟩⟩⟩⟩⟩⟩

end Elsewhere

end LorahamRns.Interface
