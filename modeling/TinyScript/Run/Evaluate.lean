import TinyScript.Run.State
import TinyScript.Value.Literal
import TinyScript.Value.Operator

/-!
# Evaluation

Statements run in order up to the first error.  The left operand is evaluated
before the right one, and a call finds its function before it evaluates its
arguments.  A loop checks its condition once before every round; its
alternative runs if the very first check ends the loop.  Recursion follows the
tree; only the rounds of a loop need a bound.
-/

namespace TinyScript

variable {σ : Type}

namespace Eval

def lookup (name : String) : Eval σ Value := do
  match (← get).env.get? name with
  | some value => return value
  | none => fail (.undefinedVariable name)

def callee (name : String) : Eval σ Native := do
  match ← lookup name with
  | .native f => return f
  | v => fail (.notCallable ("'" ++ name ++ "' is " ++ v.typeName ++ ", not a function"))

def invoke (host : Host σ) (f : Native) (args : List Value) : Eval σ (Option Value) := do
  let s ← get
  match f.handle with
  | .write =>
      let (result, sink) := writeLines s.sink args
      set { s with sink }
      ofExcept result
      return none
  | .host index =>
      let reply := host.invoke index args s.sink s.host
      set { s with sink := reply.sink, host := reply.state }
      ofExcept reply.result

def assign (name : String) (value : Value) : Eval σ Unit :=
  modify fun s => { s with env := s.env.assign name value }

def condition (keyword : String) (span : Span) (value : Value) : Eval σ Bool := do
  match value.truth? with
  | some b => return b
  | none =>
      modify (·.locate span)
      fail (.notBoolean ("`" ++ keyword ++ "` condition: " ++ value.notBoolean))

/-- Run rounds until one ends the loop; the number of rounds is returned. -/
def repeatRounds (round : Eval σ Bool) : Nat → Nat → Eval σ Nat
  | 0, _ => throw .unfinished
  | bound + 1, done => do
      if ← round then repeatRounds round bound (done + 1) else return done + 1

end Eval

open Eval

mutual

/-- Evaluate an expression.  A call without a value gives `null`. -/
def evalExpr (setting : Setting σ) : Expr → Eval σ Value
  | .const literal span => nested setting.limits span (ofExcept literal.value)
  | .ident name span => nested setting.limits span (lookup name)
  | .call name args span => nested setting.limits span do
      let f ← callee name.name
      let values ← evalArgs setting args
      emit (.called name.name values.length)
      return (← invoke setting.host f values).getD .null
  | .additive left op right span => nested setting.limits span do
      let l ← evalExpr setting left
      let r ← evalExpr setting right
      ofExcept (op.arithmetic l r)
  | .comparison left op right span => nested setting.limits span do
      let l ← evalExpr setting left
      let r ← evalExpr setting right
      ofExcept (op.comparison l r)
  | .paren inner span => nested setting.limits span (evalExpr setting inner)

def evalArgs (setting : Setting σ) : List Expr → Eval σ (List Value)
  | [] => return []
  | e :: es => do
      let v ← evalExpr setting e
      let vs ← evalArgs setting es
      return v :: vs

end

def evalCondition (setting : Setting σ) (keyword : String) (e : Expr) : Eval σ Bool := do
  condition keyword e.span (← evalExpr setting e)

mutual

/-- Run a statement.  Only a call may have a value. -/
def evalStmt (setting : Setting σ) : Stmt → Eval σ (Option Value)
  | .assign target value span => nested setting.limits span do
      let v ← evalExpr setting value
      emit (.assigned target.name v)
      assign target.name v
      return none
  | .call name args span => nested setting.limits span do
      let f ← callee name.name
      let values ← evalArgs setting args
      emit (.called name.name values.length)
      invoke setting.host f values
  | .loop kind cond body otherwise span => nested setting.limits span do
      let check := do return kind.continues (← evalCondition setting kind.keyword cond)
      if ← check then
        let round := do
          evalBlock setting body
          check
        let iterations ← repeatRounds round setting.rounds 0
        emit (.loopFinished kind iterations)
      else
        evalOtherwise setting otherwise
      return none
  | .branch b => nested setting.limits b.span do
      evalBranch setting b
      return none

def evalBlock (setting : Setting σ) : Block → Eval σ Unit
  | .mk stmts _ => evalStmts setting stmts

def evalBranch (setting : Setting σ) : Branch → Eval σ Unit
  | .mk cond body otherwise _ => do
      if ← evalCondition setting "if" cond then evalBlock setting body
      else evalOtherwise setting otherwise

def evalOtherwise (setting : Setting σ) : Otherwise → Eval σ Unit
  | .nothing => return
  | .block body => evalBlock setting body
  | .branch b => evalBranch setting b

def evalStmts (setting : Setting σ) : List Stmt → Eval σ Unit
  | [] => return
  | s :: ss => do
      discard (evalStmt setting s)
      evalStmts setting ss

end

/--
Run a program.  The place of an earlier error is forgotten, and the sink is
flushed once, whether the statements failed or not; their error wins.
-/
def evalProgram (setting : Setting σ) (program : Program) : Eval σ Unit := do
  emit (.evaluating program.stmts.length)
  modify fun s => { s with errorSpan := none }
  let result ← attempt (evalStmts setting program.stmts)
  let s ← get
  match result.bind fun _ => s.sink.flush with
  | .ok () => emit (.finished s.steps)
  | .error e =>
      emit (.aborted s.steps e)
      fail e

end TinyScript
