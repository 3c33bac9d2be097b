import TinyScript.Run.State

/-!
# A catalogue of host functions

Small functions that a host can bind in an environment.  Each function counts
its calls for itself; values that denote the same function share the count.
-/

namespace TinyScript

inductive Behaviour where
  /-- Gives no value. -/
  | none
  /-- Gives its first argument back. -/
  | echo
  /-- Gives the number of its calls. -/
  | count
  /-- Tells whether the number of its calls is below a bound. -/
  | below (bound : Nat)
  /-- Gives the kinds of its arguments. -/
  | types
  /-- Writes its name and arguments, and gives their number. -/
  | print
  /-- Fails. -/
  | fail (error : EvalError)
  deriving DecidableEq, Repr

structure HostFunction where
  name : String
  behaviour : Behaviour
  calls : Nat := 0
  deriving DecidableEq, Repr

abbrev Catalogue := List HostFunction

namespace Catalogue

/-- Create a function; its value is distinct from every other. -/
def create (catalogue : Catalogue) (name : String) (behaviour : Behaviour) : Native × Catalogue :=
  (⟨name, .host catalogue.length⟩, catalogue ++ [⟨name, behaviour, 0⟩])

def printed (name : String) (args : List Value) : String :=
  name ++ "(" ++ String.intercalate ", " (args.map Value.display) ++ ")\n"

def invoke (index : Nat) (args : List Value) (sink : Sink) (catalogue : Catalogue) :
    HostReply Catalogue :=
  match catalogue[index]? with
  | Option.none => ⟨.ok Option.none, sink, catalogue⟩
  | some f =>
      let calls := f.calls + 1
      let catalogue := catalogue.set index { f with calls }
      match f.behaviour with
      | .none => ⟨.ok Option.none, sink, catalogue⟩
      | .echo => ⟨.ok args.head?, sink, catalogue⟩
      | .count => ⟨.ok (some (.integer (Int64.ofNat calls))), sink, catalogue⟩
      | .below bound => ⟨.ok (some (.boolean (calls < bound))), sink, catalogue⟩
      | .types =>
          ⟨.ok (some (.text (String.intercalate "," (args.map Value.typeName)))), sink, catalogue⟩
      | .print =>
          let (result, sink) := sink.write (printed f.name args)
          ⟨result.map fun _ => some (.integer (Int64.ofNat args.length)), sink, catalogue⟩
      | .fail e => ⟨.error e, sink, catalogue⟩

theorem extends_invoke (index : Nat) (args : List Value) (sink : Sink) (catalogue : Catalogue) :
    sink.Extends (invoke index args sink catalogue).sink := by
  unfold invoke
  split
  · exact .refl sink
  · dsimp only
    split
    all_goals first
      | exact .refl sink
      | exact sink.extends_write _

def host : Host Catalogue := ⟨invoke, extends_invoke⟩

end Catalogue

end TinyScript
