import TinyScript.Proofs.AdequateExpressions

/-!
# Rules that blame nodes

What a program does within its budgets, as rules that give every error
together with the node that raised it.  A node raises an error if the budgets
refuse it, or if its own step fails: reading a literal or a name, finding the
function of a call and calling it, computing, comparing.  A condition that is
not a boolean raises the error itself.  An error raised below a node passes
through it as it is.  The rules keep no place of an error, and levels are
handed down along the tree.
-/

namespace TinyScript

namespace Blame

variable {σ α : Type}

/-- An error and the node that raised it. -/
structure Raised where
  error : EvalError
  node : Node

def place : Except Raised α → Option Span
  | .ok _ => none
  | .error raised => some raised.node.span

structure Progress (σ : Type) where
  store : Store σ
  steps : Nat

def Progress.count (x : Progress σ) : Progress σ := { x with steps := x.steps + 1 }

/-- Rules take a run to a value, or to an error and the node that raised it, and further on. -/
abbrev Rule (σ α : Type) : Type := Progress σ → Except Raised α → Progress σ → Prop

/-- The budgets refuse a node: it lies too deep, or its visit is one too many. -/
inductive Refuses (limits : Limits) (level : Nat) : Progress σ → EvalError → Progress σ → Prop where
  | depth {x : Progress σ} (full : limits.maxDepth ≤ level) :
      Refuses limits level x (.stackOverflow limits.maxDepth) x
  | steps {x : Progress σ} {limit : Nat} (room : level < limits.maxDepth)
      (limited : limits.maxSteps = some limit) (spent : limit ≤ x.steps) :
      Refuses limits level x (.stepLimitExceeded limit) x.count

/-- The budgets admit a node: there is room on its level, and one more visit is allowed. -/
structure Admits (limits : Limits) (level : Nat) (x : Progress σ) : Prop where
  room : level < limits.maxDepth
  unspent : ∀ limit, limits.maxSteps = some limit → x.steps < limit

/-- Visiting a node: it is refused and raises the error, or its inside follows. -/
inductive Visits (limits : Limits) (level : Nat) (node : Node) (inside : Rule σ α) :
    Progress σ → Except Raised α → Progress σ → Prop where
  | refused {x y : Progress σ} {e : EvalError} (refused : Refuses limits level x e y) :
      Visits limits level node inside x (.error ⟨e, node⟩) y
  | admitted {x y : Progress σ} {given : Except Raised α} (admitted : Admits limits level x)
      (ran : inside x.count given y) : Visits limits level node inside x given y

/-- The own step of a node, on the store.  The node raises the errors of its own step. -/
def Own (node : Node) (step : Store σ → Except EvalError α → Store σ → Prop) : Rule σ α :=
  fun x given y => ∃ result, step x.store result y.store ∧ x.steps = y.steps ∧
    given = result.mapError (⟨·, node⟩)

def Gives (a : α) : Rule σ α := fun x given y => given = .ok a ∧ x = y

/--
A call, at a node: the function is found, then the arguments are evaluated,
then the function is called.  The node raises the errors of the function.
-/
def Calls (host : Host σ) (node : Node) (name : String) (args : Rule σ (List Value)) :
    Rule σ (Option Value) :=
  Then (Own node fun x result y => Resolves x.env name result ∧ x = y) fun f =>
    Then args fun values => Own node (Invokes host values f)

variable (host : Host σ) (limits : Limits)

mutual

def Evaluates : Nat → Expr → Rule σ Value
  | level, .const literal span =>
      let node := .expr (.const literal span)
      Visits limits level node (Own node fun x result y => literal.value = result ∧ x = y)
  | level, .ident name span =>
      let node := .expr (.ident name span)
      Visits limits level node (Own node fun x result y => Reads x.env name result ∧ x = y)
  | level, .call callee args span =>
      let node := .expr (.call callee args span)
      Visits limits level node
        (Then (Calls host node callee.name (EvaluatesAll (level + 1) args)) fun value =>
          Gives (value.getD .null))
  | level, .additive left op right span =>
      let node := .expr (.additive left op right span)
      Visits limits level node
        (Then (Evaluates (level + 1) left) fun a => Then (Evaluates (level + 1) right) fun b =>
          Own node fun x result y => Arithmetic op a b result ∧ x = y)
  | level, .comparison left op right span =>
      let node := .expr (.comparison left op right span)
      Visits limits level node
        (Then (Evaluates (level + 1) left) fun a => Then (Evaluates (level + 1) right) fun b =>
          Own node fun x result y => Comparison op a b result ∧ x = y)
  | level, .paren inner span =>
      Visits limits level (.expr (.paren inner span)) (Evaluates (level + 1) inner)

def EvaluatesAll : Nat → List Expr → Rule σ (List Value)
  | _, [] => Gives []
  | level, e :: es =>
      Then (Evaluates level e) fun v => Then (EvaluatesAll level es) fun vs => Gives (v :: vs)

end

def Checks (level : Nat) (keyword : String) (condition : Expr) : Rule σ Bool :=
  Then (Evaluates host limits level condition) fun v =>
    Own (.expr condition) fun x result y => decision keyword v = result ∧ x = y

def Decides (level : Nat) (kind : LoopKind) (condition : Expr) : Rule σ Bool :=
  Then (Checks host limits level kind.keyword condition) fun holds => Gives (holds == kind.goesOn)

mutual

def Executes : Nat → Stmt → Rule σ Unit
  | level, .assign target value span =>
      let node := .stmt (.assign target value span)
      Visits limits level node (Then (Evaluates host limits (level + 1) value) fun v =>
        Own node fun x result y => result = .ok () ∧ x.assign target.name v = y)
  | level, .call callee args span =>
      let node := .stmt (.call callee args span)
      Visits limits level node
        (Then (Calls host node callee.name (EvaluatesAll host limits (level + 1) args)) fun _ =>
          Gives ())
  | level, .loop kind condition body otherwise span =>
      -- the alternative runs in place of the rounds, never after them
      Visits limits level (.stmt (.loop kind condition body otherwise span))
        (Then (Decides host limits (level + 1) kind condition) fun again =>
          if again then
            Repeats (Then (ExecutesBlock (level + 1) body) fun _ =>
              Decides host limits (level + 1) kind condition)
          else ExecutesOtherwise (level + 1) otherwise)
  | level, .branch b => Visits limits level (.stmt (.branch b)) (ExecutesBranch (level + 1) b)

def ExecutesBlock : Nat → Block → Rule σ Unit
  | level, .mk stmts _ => ExecutesAll level stmts

def ExecutesBranch : Nat → Branch → Rule σ Unit
  | level, .mk condition body otherwise _ =>
      Then (Checks host limits level "if" condition) fun holds =>
        if holds then ExecutesBlock level body else ExecutesOtherwise level otherwise

def ExecutesOtherwise : Nat → Otherwise → Rule σ Unit
  | _, .nothing => Gives ()
  | level, .block body => ExecutesBlock level body
  | level, .branch b => ExecutesBranch level b

def ExecutesAll : Nat → List Stmt → Rule σ Unit
  | _, [] => Gives ()
  | level, s :: ss => Then (Executes level s) fun _ => ExecutesAll level ss

end

end Blame

end TinyScript
