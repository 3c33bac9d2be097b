import TinyScript.Run.Environment
import TinyScript.Run.Event
import TinyScript.Run.Sink

/-!
# The state of a run

A run has an environment, a sink, the state of the host's functions, the
number of nodes visited, the number of nodes being evaluated, the region of
the node that failed first, and a log.  The host says what its functions do;
they may add to the sink and change their own state, and nothing else.
-/

namespace TinyScript

/-- What a host function gives back: a value, none, or an error. -/
structure HostReply (σ : Type) where
  result : Except EvalError (Option Value)
  sink : Sink
  state : σ

structure Host (σ : Type) where
  invoke : Nat → List Value → Sink → σ → HostReply σ
  extends_sink : ∀ (index : Nat) (args : List Value) (sink : Sink) (state : σ),
    sink.Extends (invoke index args sink state).sink

structure Limits where
  /-- The most nodes that may be visited. -/
  maxSteps : Option Nat := none
  /-- The most nodes that may be in evaluation at once. -/
  maxDepth : Nat := 512
  deriving DecidableEq, Repr

/--
A bound on the rounds of a single loop.  Every round visits a node, so the
bound lies beyond what a step limit allows; without a step limit it lies
beyond what can be waited for.
-/
def Limits.rounds (limits : Limits) : Nat :=
  match limits.maxSteps with
  | some n => n + 1
  | none => 0x4000000000000000

structure State (σ : Type) where
  env : Environment := .builtins
  sink : Sink := {}
  host : σ
  steps : Nat := 0
  depth : Nat := 0
  errorSpan : Option Span := none
  events : Array Event := #[]

/-- Why a run ends early: an error, or a loop that outlasts the bound on its rounds. -/
inductive Halt where
  | failed (error : EvalError)
  | unfinished
  deriving DecidableEq, Repr

/-- Evaluation: a value or a halt, and the state after it in both cases. -/
abbrev Eval (σ : Type) : Type → Type := EStateM Halt (State σ)

structure Setting (σ : Type) where
  host : Host σ
  limits : Limits
  rounds : Nat := limits.rounds

namespace State

variable {σ : Type}

/-- Remember where an error arose, unless a place is already known. -/
def locate (s : State σ) (span : Span) : State σ :=
  { s with errorSpan := s.errorSpan.or (some span) }

end State

namespace Eval

variable {σ α : Type}

def fail (e : EvalError) : Eval σ α := throw (.failed e)

def ofExcept : Except EvalError α → Eval σ α
  | .ok a => pure a
  | .error e => fail e

def attempt (p : Eval σ α) : Eval σ (Except EvalError α) := fun s =>
  match p s with
  | .ok a s => .ok (.ok a) s
  | .error (.failed e) s => .ok (.error e) s
  | .error .unfinished s => .error .unfinished s

def emit (e : Event) : Eval σ Unit := modify fun s => { s with events := s.events.push e }

def tick (limits : Limits) : Eval σ Unit := fun s =>
  let s := { s with steps := s.steps + 1 }
  match limits.maxSteps with
  | some limit =>
      if limit < s.steps then .error (.failed (.stepLimitExceeded limit)) s else .ok () s
  | none => .ok () s

/-- Evaluate one node: a level deeper, counted, and located if it fails. -/
def nested (limits : Limits) (span : Span) (p : Eval σ α) : Eval σ α := fun s =>
  if limits.maxDepth ≤ s.depth then
    .error (.failed (.stackOverflow limits.maxDepth)) (s.locate span)
  else
    match (do tick limits; p : Eval σ α) { s with depth := s.depth + 1 } with
    | .ok a s => .ok a { s with depth := s.depth - 1 }
    | .error h s => .error h ({ s with depth := s.depth - 1 }.locate span)

end Eval

end TinyScript
