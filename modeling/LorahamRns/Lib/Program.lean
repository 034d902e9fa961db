import Mathlib

/-!
# Programs over effects

A program is a tree of calls to its environment.  The environment answers
nondeterministically and may stop the program between any two calls, so a
specification has three parts: what holds at every call, what holds with a
result, and what holds with an error.
-/

namespace LorahamRns.Lib

/-- A program that ends with a value or an error, or calls an effect and goes on
with its answer. -/
inductive Program (ε : Type) (answer : ε → Type) (error : Type) (α : Type) where
  | done (value : α)
  | fail (reason : error)
  | call (effect : ε) (next : answer effect → Program ε answer error α)

namespace Program

variable {ε : Type} {answer : ε → Type} {error : Type} {α β : Type} {σ : Type}

def bind : Program ε answer error α → (α → Program ε answer error β) → Program ε answer error β
  | .done value, next => next value
  | .fail reason, _ => .fail reason
  | .call effect rest, next => .call effect fun reply => (rest reply).bind next

instance : Monad (Program ε answer error) where
  pure := .done
  bind := .bind

/-- `try`/`except`: the handler goes on where the program failed. -/
def rescue : Program ε answer error α → (error → Program ε answer error α) →
    Program ε answer error α
  | .done value, _ => .done value
  | .fail reason, handler => handler reason
  | .call effect rest, handler => .call effect fun reply => (rest reply).rescue handler

/-- `try`/`finally`: the clean-up runs either way, and what it raises comes first. -/
def ensuring (program : Program ε answer error α) (cleanUp : Program ε answer error Unit) :
    Program ε answer error α :=
  (program.rescue fun reason => cleanUp.bind fun _ => .fail reason).bind fun value =>
    cleanUp.bind fun _ => .done value

/-- One call whose answer is the result. -/
def perform (effect : ε) : Program ε answer error (answer effect) := .call effect .done

/-- A pure computation that may raise. -/
def ofExcept : Except error α → Program ε answer error α
  | .ok value => .done value
  | .error reason => .fail reason

@[simp]
theorem pure_eq (value : α) : (pure value : Program ε answer error α) = .done value := rfl

@[simp]
theorem bind_eq (program : Program ε answer error α) (next : α → Program ε answer error β) :
    program >>= next = program.bind next := rfl

@[simp]
theorem done_bind (value : α) (next : α → Program ε answer error β) :
    (Program.done value).bind next = next value := rfl

@[simp]
theorem fail_bind (reason : error) (next : α → Program ε answer error β) :
    (Program.fail reason : Program ε answer error α).bind next = .fail reason := rfl

@[simp]
theorem perform_bind (effect : ε) (next : answer effect → Program ε answer error β) :
    (perform effect).bind next = .call effect next := rfl

theorem bind_assoc {γ : Type} (program : Program ε answer error α)
    (next : α → Program ε answer error β) (last : β → Program ε answer error γ) :
    (program.bind next).bind last = program.bind fun value => (next value).bind last := by
  induction program with
  | done => rfl
  | fail => rfl
  | call effect rest ih => exact congrArg (call effect) (funext ih)

/-! ## Environments and specifications -/

/-- How an environment in one state may answer an effect, and the state after. -/
abbrev Environment (ε : Type) (answer : ε → Type) (σ : Type) : Type :=
  (effect : ε) → σ → answer effect → σ → Prop

variable {env : Environment ε answer σ} {always : σ → Prop}
  {post post' : α → σ → Prop} {fault fault' : error → σ → Prop}

/-- `always` at every point where the program can be stopped, `post` with a
result, `fault` with an error, whatever the environment answers. -/
def wp (env : Environment ε answer σ) (always : σ → Prop) (post : α → σ → Prop)
    (fault : error → σ → Prop) : Program ε answer error α → σ → Prop
  | .done value, state => always state ∧ post value state
  | .fail reason, state => always state ∧ fault reason state
  | .call effect next, state =>
      always state ∧ ∀ reply after, env effect state reply after →
        (next reply).wp env always post fault after

theorem wp_always {program : Program ε answer error α} {state : σ}
    (h : program.wp env always post fault state) : always state := by
  cases program <;> exact h.1

theorem wp_mono {program : Program ε answer error α} {state : σ}
    (h : program.wp env always post fault state)
    (hpost : ∀ value state, post value state → post' value state)
    (hfault : ∀ reason state, fault reason state → fault' reason state) :
    program.wp env always post' fault' state := by
  induction program generalizing state with
  | done value => exact ⟨h.1, hpost value state h.2⟩
  | fail reason => exact ⟨h.1, hfault reason state h.2⟩
  | call effect next ih =>
      exact ⟨h.1, fun reply after step => ih reply (h.2 reply after step)⟩

/-- A weaker `always`. -/
theorem wp_always_mono {always' : σ → Prop} {program : Program ε answer error α} {state : σ}
    (h : program.wp env always post fault state)
    (implies : ∀ state, always state → always' state) :
    program.wp env always' post fault state := by
  induction program generalizing state with
  | done value => exact ⟨implies _ h.1, h.2⟩
  | fail reason => exact ⟨implies _ h.1, h.2⟩
  | call effect next ih =>
      exact ⟨implies _ h.1, fun reply after step => ih reply (h.2 reply after step)⟩

/-- `always` also holds with a result. -/
theorem wp_always_post {program : Program ε answer error α} {state : σ}
    (h : program.wp env always post fault state) :
    program.wp env always (fun value last => always last ∧ post value last) fault state := by
  induction program generalizing state with
  | done value => exact ⟨h.1, h⟩
  | fail reason => exact h
  | call effect next ih =>
      exact ⟨h.1, fun reply after step => ih reply (h.2 reply after step)⟩

/-- The rule of composition. -/
theorem wp_bind {program : Program ε answer error α} {next : α → Program ε answer error β}
    {post : β → σ → Prop} {state : σ}
    (h : program.wp env always (fun value => (next value).wp env always post fault) fault state) :
    (program.bind next).wp env always post fault state := by
  induction program generalizing state with
  | done value => exact h.2
  | fail reason => exact h
  | call effect rest ih =>
      exact ⟨h.1, fun reply after step => ih reply (h.2 reply after step)⟩

/-- The rule of exception handling. -/
theorem wp_rescue {program : Program ε answer error α}
    {handler : error → Program ε answer error α} {state : σ}
    (h : program.wp env always post
      (fun reason => (handler reason).wp env always post fault) state) :
    (program.rescue handler).wp env always post fault state := by
  induction program generalizing state with
  | done value => exact h
  | fail reason => exact h.2
  | call effect rest ih =>
      exact ⟨h.1, fun reply after step => ih reply (h.2 reply after step)⟩

/-- The rule of `try`/`finally`. -/
theorem wp_ensuring {program : Program ε answer error α} {cleanUp : Program ε answer error Unit}
    {state : σ}
    (h : program.wp env always (fun value => cleanUp.wp env always (fun _ => post value) fault)
      (fun reason => cleanUp.wp env always (fun _ => fault reason) fault) state) :
    (program.ensuring cleanUp).wp env always post fault state := by
  refine wp_bind (wp_rescue (wp_mono h (fun value after tidy => ?_) fun reason after tidy => ?_))
  · exact wp_bind (wp_mono (wp_always_post tidy) (fun _ _ both => both) fun _ _ raised => raised)
  · exact wp_bind (wp_mono (wp_always_post tidy) (fun _ _ both => both) fun _ _ raised => raised)

theorem wp_perform {effect : ε} {post : answer effect → σ → Prop} {state : σ}
    (halways : always state)
    (h : ∀ reply after, env effect state reply after → always after ∧ post reply after) :
    (perform effect).wp env always post fault state :=
  ⟨halways, h⟩

theorem wp_ofExcept {result : Except error α} {state : σ} (halways : always state)
    (hok : ∀ value, result = .ok value → post value state)
    (herror : ∀ reason, result = .error reason → fault reason state) :
    (ofExcept result).wp env always post fault state := by
  cases result with
  | ok value => exact ⟨halways, hok value rfl⟩
  | error reason => exact ⟨halways, herror reason rfl⟩

/-! ## Executions -/

/-- The answers received so far took one program and state to another. -/
inductive Path (env : Environment ε answer σ) :
    Program ε answer error α → σ → Program ε answer error α → σ → Prop where
  | refl (program : Program ε answer error α) (state : σ) : Path env program state program state
  | step {effect : ε} {next : answer effect → Program ε answer error α} {state after last : σ}
      {reply : answer effect} {rest : Program ε answer error α}
      (answered : env effect state reply after) (path : Path env (next reply) after rest last) :
      Path env (.call effect next) state rest last

theorem wp_step {effect : ε} {next : answer effect → Program ε answer error α} {state after : σ}
    {reply : answer effect} (h : (Program.call effect next).wp env always post fault state)
    (answered : env effect state reply after) : (next reply).wp env always post fault after :=
  h.2 reply after answered

/-- A specification goes along every path. -/
theorem wp_path {program rest : Program ε answer error α} {state last : σ}
    (path : Path env program state rest last) (h : program.wp env always post fault state) :
    rest.wp env always post fault last := by
  induction path with
  | refl => exact h
  | step answered _ ih => exact ih (wp_step h answered)

/-- A property that no answer takes away lasts along every path. -/
theorem Path.keeps {keeps : σ → Prop}
    (kept : ∀ effect state reply after, keeps state → env effect state reply after → keeps after)
    {program rest : Program ε answer error α} {state last : σ}
    (path : Path env program state rest last) (start : keeps state) : keeps last := by
  induction path with
  | refl => exact start
  | step answered _ ih => exact ih (kept _ _ _ _ start answered)

/-- The specification that asks for nothing. -/
theorem wp_trivial (program : Program ε answer error α) (state : σ) :
    program.wp env (fun _ => True) (fun _ _ => True) (fun _ _ => True) state := by
  induction program generalizing state with
  | done => exact ⟨trivial, trivial⟩
  | fail => exact ⟨trivial, trivial⟩
  | call effect next ih => exact ⟨trivial, fun reply after _ => ih reply after⟩

/-! ## Partial correctness -/

/-- If the program ends with a value, then with the property. -/
abbrev Ends (env : Environment ε answer σ) (program : Program ε answer error α)
    (post : α → σ → Prop) (state : σ) : Prop :=
  program.wp env (fun _ => True) post (fun _ _ => True) state

theorem ends_done {value : α} {state : σ} (h : post value state) :
    Ends env (.done value : Program ε answer error α) post state :=
  ⟨trivial, h⟩

theorem ends_fail (reason : error) (state : σ) :
    Ends env (.fail reason : Program ε answer error α) post state :=
  ⟨trivial, trivial⟩

theorem ends_bind {program : Program ε answer error α} {next : α → Program ε answer error β}
    {post : β → σ → Prop} {state : σ}
    (h : Ends env program (fun value => Ends env (next value) post) state) :
    Ends env (program.bind next) post state :=
  wp_bind h

theorem ends_mono {program : Program ε answer error α} {state : σ} (h : Ends env program post state)
    (implies : ∀ value state, post value state → post' value state) :
    Ends env program post' state :=
  wp_mono h implies fun _ _ _ => trivial

/-- The rest of a program relies on nothing the first part does. -/
theorem ends_any {program : Program ε answer error α} {next : α → Program ε answer error β}
    {post : β → σ → Prop} {state : σ} (h : ∀ value state, Ends env (next value) post state) :
    Ends env (program.bind next) post state :=
  ends_bind (ends_mono (wp_trivial program state) fun value state _ => h value state)

theorem ends_ofExcept {result : Except error α} {state : σ}
    (h : ∀ value, result = .ok value → post value state) :
    Ends env (ofExcept result : Program ε answer error α) post state :=
  wp_ofExcept trivial h fun _ _ => trivial

/-- What partial correctness says of a finished path. -/
theorem ends_path {program : Program ε answer error α} {state last : σ} {value : α}
    (h : Ends env program post state) (path : Path env program state (.done value) last) :
    post value last :=
  (wp_path path h).2

/-! ## Possible ends -/

/-- Some answers end the program with a value and the property. -/
def Can (env : Environment ε answer σ) (post : α → σ → Prop) :
    Program ε answer error α → σ → Prop
  | .done value, state => post value state
  | .fail _, _ => False
  | .call effect next, state =>
      ∃ reply after, env effect state reply after ∧ (next reply).Can env post after

theorem can_call {effect : ε} {next : answer effect → Program ε answer error α} {state after : σ}
    {reply : answer effect} (answered : env effect state reply after)
    (h : (next reply).Can env post after) : (Program.call effect next).Can env post state :=
  ⟨reply, after, answered, h⟩

theorem can_bind {program : Program ε answer error α} {next : α → Program ε answer error β}
    {post : β → σ → Prop} {state : σ}
    (h : program.Can env (fun value => (next value).Can env post) state) :
    (program.bind next).Can env post state := by
  induction program generalizing state with
  | done value => exact h
  | fail reason => exact h.elim
  | call effect rest ih =>
      obtain ⟨reply, after, answered, h⟩ := h
      exact ⟨reply, after, answered, ih reply h⟩

/-- A possible end has a path to it. -/
theorem can_path {program : Program ε answer error α} {state : σ}
    (h : program.Can env post state) :
    ∃ value last, Path env program state (.done value) last ∧ post value last := by
  induction program generalizing state with
  | done value => exact ⟨value, state, .refl _ _, h⟩
  | fail reason => exact h.elim
  | call effect next ih =>
      obtain ⟨reply, after, answered, h⟩ := h
      obtain ⟨value, last, path, hpost⟩ := ih reply h
      exact ⟨value, last, .step answered path, hpost⟩

/-! ## Running to the end -/

/-- In an environment that always has an answer, every program runs to its end,
and what its specification says of the end holds there. -/
theorem wp_runs {keeps : σ → Prop}
    (live : ∀ effect state, keeps state → ∃ reply after, env effect state reply after ∧ keeps after)
    {program : Program ε answer error α} {state : σ}
    (h : program.wp env always post fault state) (hstate : keeps state) :
    (∃ value last, Path env program state (.done value) last ∧ keeps last ∧ post value last) ∨
      (∃ reason last, Path env program state (.fail reason) last ∧ keeps last ∧
        fault reason last) := by
  induction program generalizing state with
  | done value => exact Or.inl ⟨value, state, .refl _ _, hstate, h.2⟩
  | fail reason => exact Or.inr ⟨reason, state, .refl _ _, hstate, h.2⟩
  | call effect next ih =>
      obtain ⟨reply, after, answered, hafter⟩ := live effect state hstate
      rcases ih reply (h.2 reply after answered) hafter with
        ⟨value, last, path, hlast, hpost⟩ | ⟨reason, last, path, hlast, hfault⟩
      · exact Or.inl ⟨value, last, .step answered path, hlast, hpost⟩
      · exact Or.inr ⟨reason, last, .step answered path, hlast, hfault⟩

/-- A path through an environment is one through every environment with more
answers in the states it visits. -/
theorem Path.mono {wider : Environment ε answer σ} {keeps : σ → Prop}
    (more : ∀ effect state reply after, keeps state → env effect state reply after →
      wider effect state reply after ∧ keeps after)
    {program rest : Program ε answer error α} {state last : σ} (hstate : keeps state)
    (path : Path env program state rest last) : Path wider program state rest last := by
  induction path with
  | refl program state => exact .refl program state
  | step answered _ ih =>
      obtain ⟨answered', hafter⟩ := more _ _ _ _ hstate answered
      exact .step answered' (ih hafter)

/-- Runs a program to its value with the answers of one environment. -/
def runWith (answers : (effect : ε) → σ → Option (answer effect × σ)) :
    Program ε answer error α → σ → Option (α × σ)
  | .done value, state => some (value, state)
  | .fail _, _ => none
  | .call effect next, state =>
      match answers effect state with
      | none => none
      | some (reply, after) => (next reply).runWith answers after

/-- A run with admissible answers is a path. -/
theorem path_of_runWith {answers : (effect : ε) → σ → Option (answer effect × σ)}
    (admissible : ∀ effect state reply after, answers effect state = some (reply, after) →
      env effect state reply after)
    {program : Program ε answer error α} {state last : σ} {value : α}
    (h : program.runWith answers state = some (value, last)) :
    Path env program state (.done value) last := by
  induction program generalizing state with
  | done value' =>
      cases h
      exact .refl _ _
  | fail reason => cases h
  | call effect next ih =>
      unfold runWith at h
      split at h
      · cases h
      · next reply after answered => exact .step (admissible _ _ _ _ answered) (ih reply h)

/-! ## Given answers -/

/-- Runs a program with one answer for every call. -/
def execute (answers : (effect : ε) → σ → answer effect × σ) :
    Program ε answer error α → σ → Except error α × σ
  | .done value, state => (.ok value, state)
  | .fail reason, state => (.error reason, state)
  | .call effect next, state =>
      (next (answers effect state).1).execute answers (answers effect state).2

section Execute

variable {answers : (effect : ε) → σ → answer effect × σ}

theorem execute_bind (program : Program ε answer error α) (next : α → Program ε answer error β)
    (state : σ) :
    (program.bind next).execute answers state =
      match program.execute answers state with
      | (.ok value, after) => (next value).execute answers after
      | (.error reason, after) => (.error reason, after) := by
  induction program generalizing state with
  | done => rfl
  | fail => rfl
  | call effect rest ih => exact ih _ _

theorem execute_rescue (program : Program ε answer error α)
    (handler : error → Program ε answer error α) (state : σ) :
    (program.rescue handler).execute answers state =
      match program.execute answers state with
      | (.ok value, after) => (.ok value, after)
      | (.error reason, after) => (handler reason).execute answers after := by
  induction program generalizing state with
  | done => rfl
  | fail => rfl
  | call effect rest ih => exact ih _ _

end Execute

end Program

end LorahamRns.Lib
