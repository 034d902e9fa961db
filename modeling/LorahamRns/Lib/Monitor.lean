import LorahamRns.Lib.Lockstep

/-!
# Monitors

A monitor is an automaton that watches the calls of a program.  Every answered call
leads from one place to the next, or is forbidden.  What a monitor accepts it accepts
whatever the answers are, so the place reached tells which calls may still come.
-/

namespace LorahamRns.Lib

/-- Where each answered call leads; `none` where it is forbidden. -/
abbrev Monitor (ε : Type) (answer : ε → Type) (Place : Type) : Type :=
  Place → (effect : ε) → answer effect → Option Place

namespace Program

variable {ε : Type} {answer : ε → Type} {error : Type} {α β Place : Type}
  {monitor : Monitor ε answer Place} {post post' : α → Place → Prop}
  {fault fault' : error → Place → Prop}

/-- From a place, no call of the program is forbidden; `post` with a result, `fault`
with an error. -/
def Keeps (monitor : Monitor ε answer Place) (post : α → Place → Prop)
    (fault : error → Place → Prop) : Program ε answer error α → Place → Prop
  | .done value, place => post value place
  | .fail reason, place => fault reason place
  | .call effect next, place =>
      ∀ reply, ∃ after, monitor place effect reply = some after ∧
        (next reply).Keeps monitor post fault after

/-- An answered call was permitted, and the rest is accepted where it led. -/
theorem Keeps.step {effect : ε} {next : answer effect → Program ε answer error α}
    {place : Place} (h : (Program.call effect next).Keeps monitor post fault place)
    (reply : answer effect) :
    ∃ after, monitor place effect reply = some after ∧
      (next reply).Keeps monitor post fault after :=
  h reply

theorem Keeps.mono {program : Program ε answer error α} {place : Place}
    (h : program.Keeps monitor post fault place)
    (hpost : ∀ value place, post value place → post' value place)
    (hfault : ∀ reason place, fault reason place → fault' reason place) :
    program.Keeps monitor post' fault' place := by
  induction program generalizing place with
  | done value => exact hpost value place h
  | fail reason => exact hfault reason place h
  | call effect next ih =>
      intro reply
      obtain ⟨after, moved, rest⟩ := h reply
      exact ⟨after, moved, ih reply rest⟩

/-- The rule of composition. -/
theorem keeps_bind {program : Program ε answer error α} {next : α → Program ε answer error β}
    {post : β → Place → Prop} {place : Place}
    (h : program.Keeps monitor (fun value => (next value).Keeps monitor post fault) fault place) :
    (program.bind next).Keeps monitor post fault place := by
  induction program generalizing place with
  | done value => exact h
  | fail reason => exact h
  | call effect rest ih =>
      intro reply
      obtain ⟨after, moved, rest⟩ := h reply
      exact ⟨after, moved, ih reply rest⟩

/-- The rule of exception handling. -/
theorem keeps_rescue {program : Program ε answer error α}
    {handler : error → Program ε answer error α} {place : Place}
    (h : program.Keeps monitor post
      (fun reason => (handler reason).Keeps monitor post fault) place) :
    (program.rescue handler).Keeps monitor post fault place := by
  induction program generalizing place with
  | done value => exact h
  | fail reason => exact h
  | call effect rest ih =>
      intro reply
      obtain ⟨after, moved, rest⟩ := h reply
      exact ⟨after, moved, ih reply rest⟩

/-- The rule of `try`/`finally`. -/
theorem keeps_ensuring {program : Program ε answer error α}
    {cleanUp : Program ε answer error Unit} {place : Place}
    (h : program.Keeps monitor (fun value => cleanUp.Keeps monitor (fun _ => post value) fault)
      (fun reason => cleanUp.Keeps monitor (fun _ => fault reason) fault) place) :
    (program.ensuring cleanUp).Keeps monitor post fault place := by
  refine keeps_bind (keeps_rescue (h.mono (fun value after tidy => ?_) fun reason after tidy => ?_))
  · exact keeps_bind tidy
  · exact keeps_bind tidy

theorem keeps_ofExcept {result : Except error α} {place : Place}
    (hok : ∀ value, result = .ok value → post value place)
    (herror : ∀ reason, result = .error reason → fault reason place) :
    (ofExcept result : Program ε answer error α).Keeps monitor post fault place := by
  cases result with
  | ok value => exact hok value rfl
  | error reason => exact herror reason rfl

/-- What a monitor accepts holds of every state that its places describe. -/
theorem Keeps.wp {σ : Type} {env : Environment ε answer σ} {describes : Place → σ → Prop}
    {program : Program ε answer error α} {place : Place} {state : σ}
    (h : program.Keeps monitor post fault place)
    (follows : ∀ place effect state reply after next, describes place state →
      env effect state reply after → monitor place effect reply = some next →
        describes next after)
    (start : describes place state) :
    program.wp env (fun state => ∃ place, describes place state)
      (fun value state => ∃ place, describes place state ∧ post value place)
      (fun reason state => ∃ place, describes place state ∧ fault reason place) state := by
  induction program generalizing place state with
  | done value => exact ⟨⟨place, start⟩, place, start, h⟩
  | fail reason => exact ⟨⟨place, start⟩, place, start, h⟩
  | call effect next ih =>
      refine ⟨⟨place, start⟩, fun reply after answered => ?_⟩
      obtain ⟨there, moved, rest⟩ := h reply
      exact ih reply rest (follows _ _ _ _ _ _ start answered moved)

theorem only_any (program : Program ε answer error α) : program.Only fun _ => True := by
  induction program with
  | done => trivial
  | fail => trivial
  | call effect next ih => exact ⟨trivial, ih⟩

/-- A program of calls that lead from certain places to certain places only. -/
theorem Only.keeps_within {permitted : ε → Prop} {inside : Place → Prop}
    {program : Program ε answer error α} {place : Place} (h : program.Only permitted)
    (stays : ∀ place effect reply, inside place → permitted effect →
      ∃ after, monitor place effect reply = some after ∧ inside after) (start : inside place) :
    program.Keeps monitor (fun _ => inside) (fun _ => inside) place := by
  induction program generalizing place with
  | done => exact start
  | fail => exact start
  | call effect next ih =>
      intro reply
      obtain ⟨after, moved, there⟩ := stays place effect reply start h.1
      exact ⟨after, moved, ih reply (h.2 reply) there⟩

/-- A program of calls that leave the monitor in its place stays there. -/
theorem Only.keeps {permitted : ε → Prop} {program : Program ε answer error α} {place : Place}
    (h : program.Only permitted)
    (stays : ∀ effect reply, permitted effect → monitor place effect reply = some place) :
    program.Keeps monitor (fun _ => (· = place)) (fun _ => (· = place)) place :=
  h.keeps_within (fun there effect reply same permitted =>
    ⟨place, by rw [same]; exact stays effect reply permitted, rfl⟩) rfl

end Program

end LorahamRns.Lib
