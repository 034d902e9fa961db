import LorahamRns.Lib.Program

/-!
# One program on two states

A program runs in lockstep on two related states when every answer it can get on the
first it can also get on the second, with related states behind.  The rules are those
of the one-state specifications.
-/

namespace LorahamRns.Lib.Program

variable {ε : Type} {answer : ε → Type} {error : Type} {α β σ : Type}

/-! ## Programs that keep to certain effects -/

/-- All effects of the program are permitted. -/
def Only (permitted : ε → Prop) : Program ε answer error α → Prop
  | .done _ => True
  | .fail _ => True
  | .call effect next => permitted effect ∧ ∀ reply, (next reply).Only permitted

variable {permitted wider : ε → Prop}

theorem Only.mono {program : Program ε answer error α} (h : program.Only permitted)
    (implies : ∀ effect, permitted effect → wider effect) : program.Only wider := by
  induction program with
  | done => trivial
  | fail => trivial
  | call effect next ih => exact ⟨implies effect h.1, fun reply => ih reply (h.2 reply)⟩

theorem Only.bind {program : Program ε answer error α} {next : α → Program ε answer error β}
    (h : program.Only permitted) (hnext : ∀ value, (next value).Only permitted) :
    (program.bind next).Only permitted := by
  induction program with
  | done value => exact hnext value
  | fail => trivial
  | call effect rest ih => exact ⟨h.1, fun reply => ih reply (h.2 reply)⟩

theorem Only.rescue {program : Program ε answer error α}
    {handler : error → Program ε answer error α} (h : program.Only permitted)
    (hhandler : ∀ reason, (handler reason).Only permitted) :
    (program.rescue handler).Only permitted := by
  induction program with
  | done => trivial
  | fail reason => exact hhandler reason
  | call effect rest ih => exact ⟨h.1, fun reply => ih reply (h.2 reply)⟩

theorem Only.ensuring {program : Program ε answer error α}
    {cleanUp : Program ε answer error Unit} (h : program.Only permitted)
    (tidy : cleanUp.Only permitted) : (program.ensuring cleanUp).Only permitted := by
  unfold Program.ensuring
  refine (h.rescue fun reason => ?_).bind fun value => ?_
  · exact tidy.bind fun _ => trivial
  · exact tidy.bind fun _ => trivial

theorem only_perform {effect : ε} (h : permitted effect) :
    (perform effect : Program ε answer error (answer effect)).Only permitted :=
  ⟨h, fun _ => trivial⟩

/-- A program keeps what its effects keep. -/
theorem Only.wp {env : Environment ε answer σ} {keeps : σ → Prop}
    {program : Program ε answer error α} (h : program.Only permitted)
    (kept : ∀ effect state reply after, permitted effect → keeps state →
      env effect state reply after → keeps after)
    {state : σ} (start : keeps state) :
    program.wp env keeps (fun _ => keeps) (fun _ => keeps) state := by
  induction program generalizing state with
  | done => exact ⟨start, start⟩
  | fail => exact ⟨start, start⟩
  | call effect next ih =>
      exact ⟨start, fun reply after answered =>
        ih reply (h.2 reply) (kept _ _ _ _ h.1 start answered)⟩

/-! ## Lockstep -/

variable {env : Environment ε answer σ} {rel : σ → σ → Prop} {post post' : α → σ → σ → Prop}

/-- The states stay related at every call, and `post` relates them with a result. -/
def Lockstep (env : Environment ε answer σ) (rel : σ → σ → Prop) (post : α → σ → σ → Prop) :
    Program ε answer error α → σ → σ → Prop
  | .done value, first, second => rel first second ∧ post value first second
  | .fail _, first, second => rel first second
  | .call effect next, first, second =>
      rel first second ∧ ∀ reply after, env effect first reply after →
        ∃ other, env effect second reply other ∧ (next reply).Lockstep env rel post after other

theorem Lockstep.related {program : Program ε answer error α} {first second : σ}
    (h : program.Lockstep env rel post first second) : rel first second := by
  cases program with
  | done => exact h.1
  | fail => exact h
  | call => exact h.1

theorem Lockstep.mono {rel' : σ → σ → Prop} {program : Program ε answer error α}
    {first second : σ} (h : program.Lockstep env rel post first second)
    (hrel : ∀ first second, rel first second → rel' first second)
    (hpost : ∀ value first second, post value first second → post' value first second) :
    program.Lockstep env rel' post' first second := by
  induction program generalizing first second with
  | done value => exact ⟨hrel _ _ h.1, hpost _ _ _ h.2⟩
  | fail => exact hrel _ _ h
  | call effect next ih =>
      refine ⟨hrel _ _ h.1, fun reply after answered => ?_⟩
      obtain ⟨other, answered', rest⟩ := h.2 reply after answered
      exact ⟨other, answered', ih reply rest⟩

/-- The rule of composition. -/
theorem Lockstep.bind {program : Program ε answer error α}
    {next : α → Program ε answer error β} {post : β → σ → σ → Prop} {first second : σ}
    (h : program.Lockstep env rel (fun value => (next value).Lockstep env rel post) first second) :
    (program.bind next).Lockstep env rel post first second := by
  induction program generalizing first second with
  | done value => exact h.2
  | fail => exact h
  | call effect rest ih =>
      refine ⟨h.1, fun reply after answered => ?_⟩
      obtain ⟨other, answered', rest⟩ := h.2 reply after answered
      exact ⟨other, answered', ih reply rest⟩

/-- A program whose effects all keep the relation keeps it. -/
theorem Only.lockstep {program : Program ε answer error α} (h : program.Only permitted)
    (keeps : ∀ effect first second reply after, permitted effect → rel first second →
      env effect first reply after → ∃ other, env effect second reply other ∧ rel after other)
    {first second : σ} (related : rel first second) :
    program.Lockstep env rel (fun _ => rel) first second := by
  induction program generalizing first second with
  | done => exact ⟨related, related⟩
  | fail => exact related
  | call effect next ih =>
      refine ⟨related, fun reply after answered => ?_⟩
      obtain ⟨other, answered', related⟩ := keeps _ _ _ _ _ h.1 related answered
      exact ⟨other, answered', ih reply (h.2 reply) related⟩

end LorahamRns.Lib.Program
