import TinyScript.Value.Basic

/-!
# Output sinks

A sink takes bytes up to its capacity.  Of a write that does not fit it takes
the part that does, and refuses the rest.  A sink without capacity takes
everything.  Flushing may fail on its own account.
-/

namespace TinyScript

/-- How a full sink refuses: with an error of its own, or by taking no bytes. -/
inductive Refusal where
  | error (message : String)
  | takesNothing
  deriving DecidableEq, Repr

namespace Refusal

def message : Refusal → String
  | error message => message
  | takesNothing => "failed to write whole buffer"

end Refusal

structure Sink where
  written : ByteArray := .empty
  capacity : Option Nat := none
  refusal : Refusal := .error "sink is full"
  flushError : Option String := none

namespace Sink

def Extends (before after : Sink) : Prop :=
  ∃ added : ByteArray, after = { before with written := before.written ++ added }

def append (sink : Sink) (bytes : ByteArray) : Sink :=
  { sink with written := sink.written ++ bytes }

def write (sink : Sink) (text : String) : Except EvalError Unit × Sink :=
  let bytes := text.toUTF8
  match sink.capacity with
  | none => (.ok (), sink.append bytes)
  | some capacity =>
      let room := capacity - sink.written.size
      if bytes.size ≤ room then (.ok (), sink.append bytes)
      else (.error (.output sink.refusal.message), sink.append (bytes.extract 0 room))

def writeAll (sink : Sink) : List String → Except EvalError Unit × Sink
  | [] => (.ok (), sink)
  | text :: texts =>
      match sink.write text with
      | (.ok (), sink) => sink.writeAll texts
      | (.error e, sink) => (.error e, sink)

def flush (sink : Sink) : Except EvalError Unit :=
  match sink.flushError with
  | none => .ok ()
  | some message => .error (.output message)

theorem Extends.refl (sink : Sink) : Extends sink sink := ⟨.empty, by simp⟩

theorem Extends.trans {a b c : Sink} (ab : Extends a b) (bc : Extends b c) : Extends a c := by
  obtain ⟨x, rfl⟩ := ab
  obtain ⟨y, rfl⟩ := bc
  exact ⟨x ++ y, by simp [ByteArray.append_assoc]⟩

theorem extends_write (sink : Sink) (text : String) : Extends sink (sink.write text).2 := by
  unfold write
  split
  · exact ⟨_, rfl⟩
  · dsimp only
    split <;> exact ⟨_, rfl⟩

theorem extends_writeAll (sink : Sink) (texts : List String) :
    Extends sink (sink.writeAll texts).2 := by
  induction texts generalizing sink with
  | nil => exact .refl sink
  | cons text texts ih =>
      have first := sink.extends_write text
      unfold writeAll
      split
      · next after eq =>
          rw [eq] at first
          exact first.trans (ih after)
      · next eq =>
          rw [eq] at first
          exact first

end Sink

/-- The builtin: each argument on a line of its own. -/
def writeLines (sink : Sink) (args : List Value) : Except EvalError Unit × Sink :=
  sink.writeAll (args.map fun v => v.display ++ "\n")

end TinyScript
