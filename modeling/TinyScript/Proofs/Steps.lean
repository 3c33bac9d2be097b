import TinyScript.Run.Evaluate

/-!
# Single steps of evaluation

What each step of evaluation does to a state, as an equation.  The part of the
state that the steps work on is its store; the counters, the place of an error
and the log are kept beside it.
-/

namespace TinyScript

variable {σ α β : Type}

/-- What the steps of a run work on: the names, the sink and the state of the host. -/
@[ext]
structure Store (σ : Type) where
  env : Environment
  sink : Sink
  host : σ

namespace Store

def assign (x : Store σ) (name : String) (value : Value) : Store σ :=
  { x with env := x.env.assign name value }

def invoke (x : Store σ) (host : Host σ) (f : Native) (args : List Value) :
    Except EvalError (Option Value) × Store σ :=
  match f.handle with
  | .write =>
      let (result, sink) := writeLines x.sink args
      (result.map fun _ => none, { x with sink })
  | .host index =>
      let reply := host.invoke index args x.sink x.host
      (reply.result, { x with sink := reply.sink, host := reply.state })

theorem extends_invoke (x : Store σ) (host : Host σ) (f : Native) (args : List Value) :
    x.sink.Extends (x.invoke host f args).2.sink := by
  unfold invoke
  cases f.handle with
  | write => exact x.sink.extends_writeAll _
  | host index => exact host.extends_sink index args x.sink x.host

end Store

namespace State

def store (s : State σ) : Store σ := ⟨s.env, s.sink, s.host⟩

def withStore (s : State σ) (x : Store σ) : State σ :=
  { s with env := x.env, sink := x.sink, host := x.host }

def enter (s : State σ) : State σ := { s with depth := s.depth + 1 }

def count (s : State σ) : State σ := { s with steps := s.steps + 1 }

def log (s : State σ) (e : Event) : State σ := { s with events := s.events.push e }

end State

/-- What is visited and counted, one at a time: an expression or a statement. -/
inductive Node where
  | expr (e : Expr)
  | stmt (s : Stmt)

def Node.span : Node → Span
  | .expr e => e.span
  | .stmt s => s.span

namespace Eval

def final : EStateM.Result Halt (State σ) α → State σ
  | .ok _ s => s
  | .error _ s => s

def outcome : Except EvalError α → State σ → EStateM.Result Halt (State σ) α
  | .ok x, s => .ok x s
  | .error e, s => .error (.failed e) s

@[simp]
theorem final_outcome (x : Except EvalError α) (s : State σ) : final (outcome x s) = s := by
  cases x <;> rfl

theorem bind_eq (p : Eval σ α) (f : α → Eval σ β) (s : State σ) :
    (p >>= f) s = match p s with
      | .ok x s' => f x s'
      | .error halt s' => .error halt s' := by
  change EStateM.bind p f s = _
  unfold EStateM.bind
  cases p s <;> rfl

/-- What relates every state to the one after a computation is kept by a further one. -/
theorem final_bind {R : State σ → State σ → Prop} (trans : ∀ {s t u}, R s t → R t u → R s u)
    {p : Eval σ α} {f : α → Eval σ β} (first : ∀ s, R s (final (p s)))
    (next : ∀ a s, R s (final (f a s))) (s : State σ) : R s (final ((p >>= f) s)) := by
  have related := first s
  rw [bind_eq]
  cases ran : p s with
  | ok a s' =>
      rw [ran] at related
      exact trans related (next a s')
  | error halt s' =>
      rw [ran] at related
      exact related

/-- What relates every state to the one after a round is kept by all rounds. -/
theorem final_repeatRounds {R : State σ → State σ → Prop} (refl : ∀ s, R s s)
    (trans : ∀ {s t u}, R s t → R t u → R s u) {round : Eval σ Bool}
    (each : ∀ s, R s (final (round s))) (bound done : Nat) (s : State σ) :
    R s (final (repeatRounds round bound done s)) := by
  induction bound generalizing done s with
  | zero => exact refl s
  | succ bound ih =>
      rw [repeatRounds]
      refine final_bind (R := R) trans each (fun again s => ?_) s
      cases again with
      | true => exact ih (done + 1) s
      | false => exact refl s

theorem lookup_eq (name : String) (s : State σ) :
    lookup name s = match s.env.get? name with
      | some value => .ok value s
      | none => .error (.failed (.undefinedVariable name)) s := by
  change (match s.env.get? name with
    | some value => pure value
    | none => fail (.undefinedVariable name) : Eval σ Value) s = _
  cases s.env.get? name <;> rfl

@[simp]
theorem final_lookup (name : String) (s : State σ) : final (lookup name s) = s := by
  rw [lookup_eq]
  cases s.env.get? name <;> rfl

@[simp]
theorem final_callee (name : String) (s : State σ) : final (callee name s) = s := by
  rw [callee, bind_eq, lookup_eq]
  cases s.env.get? name with
  | none => rfl
  | some value => cases value <;> rfl

theorem invoke_eq (host : Host σ) (f : Native) (args : List Value) (s : State σ) :
    invoke host f args s =
      ofExcept (s.store.invoke host f args).1 (s.withStore (s.store.invoke host f args).2) := by
  unfold invoke Store.invoke
  cases f.handle with
  | write =>
      change (ofExcept (writeLines s.sink args).1 >>= fun _ => pure none : Eval σ _)
        { s with sink := (writeLines s.sink args).2 } =
        ofExcept ((writeLines s.sink args).1.map fun _ => none)
          { s with sink := (writeLines s.sink args).2 }
      cases (writeLines s.sink args).1 <;> rfl
  | host index => rfl

@[simp]
theorem final_ofExcept (x : Except EvalError α) (s : State σ) : final (ofExcept x s) = s := by
  cases x <;> rfl

theorem tick_eq (limits : Limits) (s : State σ) :
    tick limits s = match limits.maxSteps with
      | some limit =>
          if limit < s.steps + 1 then .error (.failed (.stepLimitExceeded limit)) s.count
          else .ok () s.count
      | none => .ok () s.count := rfl

@[simp]
theorem final_tick (limits : Limits) (s : State σ) : final (tick limits s) = s.count := by
  rw [tick_eq]
  cases limits.maxSteps with
  | none => rfl
  | some limit =>
      dsimp only
      split <;> rfl

def leave (span : Span) : EStateM.Result Halt (State σ) α → EStateM.Result Halt (State σ) α
  | .ok x s => .ok x { s with depth := s.depth - 1 }
  | .error halt s => .error halt ({ s with depth := s.depth - 1 }.locate span)

theorem nested_eq (limits : Limits) (span : Span) (p : Eval σ α) (s : State σ) :
    nested limits span p s =
      if limits.maxDepth ≤ s.depth then
        .error (.failed (.stackOverflow limits.maxDepth)) (s.locate span)
      else leave span ((tick limits >>= fun _ => p) s.enter) := by
  unfold nested leave
  rfl

def begin (program : Program) (s : State σ) : State σ :=
  { s.log (.evaluating program.stmts.length) with errorSpan := none }

/-- How a program ends after its statements: with their error, or with flushing the sink. -/
def conclude : EStateM.Result Halt (State σ) Unit → EStateM.Result Halt (State σ) Unit
  | .ok () s =>
      match s.sink.flush with
      | .ok () => .ok () (s.log (.finished s.steps))
      | .error e => .error (.failed e) (s.log (.aborted s.steps e))
  | .error (.failed e) s => .error (.failed e) (s.log (.aborted s.steps e))
  | .error .unfinished s => .error .unfinished s

theorem evalProgram_eq (setting : Setting σ) (program : Program) (s : State σ) :
    evalProgram setting program s =
      conclude (evalStmts setting program.stmts (begin program s)) := by
  change (attempt (evalStmts setting program.stmts) >>= fun result => get >>= fun s' => _)
    (begin program s) = _
  rw [bind_eq, attempt]
  cases evalStmts setting program.stmts (begin program s) with
  | ok u s' =>
      change (match s'.sink.flush with
        | .ok () => emit (.finished s'.steps)
        | .error e => do emit (.aborted s'.steps e); fail e : Eval σ Unit) s' = _
      rw [conclude]
      cases s'.sink.flush <;> rfl
  | error halt s' => cases halt <;> rfl

/-- Concluding neither writes nor visits nodes. -/
theorem final_conclude (r : EStateM.Result Halt (State σ) Unit) :
    (final (conclude r)).sink = (final r).sink ∧ (final (conclude r)).steps = (final r).steps ∧
      (final (conclude r)).depth = (final r).depth := by
  cases r with
  | ok u s =>
      rw [conclude]
      cases s.sink.flush <;> exact ⟨rfl, rfl, rfl⟩
  | error halt s => cases halt <;> exact ⟨rfl, rfl, rfl⟩

end Eval

end TinyScript
