import TinyScript.Proofs.Assignments

/-!
# The log tells what was done

Inside of a run the log gets one entry for every assignment that is completed
and one for every call, in the order in which they happen, and entries of
loops between them.  An assignment whose expression fails is not in the log.
So the names after the run can be found from the texts of the log alone.
-/

namespace TinyScript

open Eval

variable {σ α β : Type}

namespace Event

def read? (message first second : String) (e : Event) : Option (String × String) :=
  if e.message = message then do
    let x ← e.fields.lookup first
    let y ← e.fields.lookup second
    return (x, y)
  else none

def assignment? : Event → Option (String × String) := read? "assign" "name" "value"

def call? : Event → Option (String × String) := read? "call" "function" "args"

def loop? : Event → Option (String × String) := read? "loop finished" "keyword" "iterations"

end Event

/-- What is displayed for the value of each name. -/
def Environment.displayed (env : Environment) (name : String) : Option String :=
  (env.get? name).map Value.display

/-- An assignment that was read changes what is displayed for its name. -/
def retell (shown : String → Option String) (assignment : String × String) :
    String → Option String :=
  fun name => if name = assignment.1 then some assignment.2 else shown name

theorem Environment.displayed_assign (env : Environment) (target : String) (v : Value) :
    (env.assign target v).displayed = retell env.displayed (target, v.display) := by
  funext name
  rw [displayed, get?_assign, retell]
  split <;> rfl

def Deed.invocation? : Deed → Option (String × Nat)
  | .calls name _ args => some (name, args.length)
  | .assigns _ _ => none

/--
Entries of a log tell deeds: completed assignments and calls, in order.
Assignments that fail have no entry, and loops have entries without a deed.
-/
inductive Tells : List Event → List Deed → Prop where
  | nil : Tells [] []
  | assigned {entries : List Event} {deeds : List Deed} (target : String) (v : Value)
      (others : Tells entries deeds) :
      Tells (.assigned target v :: entries) (.assigns target (some v) :: deeds)
  | failed {entries : List Event} {deeds : List Deed} (target : String)
      (others : Tells entries deeds) : Tells entries (.assigns target none :: deeds)
  | called {entries : List Event} {deeds : List Deed} (name : String) (f : Native)
      (args : List Value) (others : Tells entries deeds) :
      Tells (.called name args.length :: entries) (.calls name f args :: deeds)
  | looped {entries : List Event} {deeds : List Deed} (kind : LoopKind) (rounds : Nat)
      (others : Tells entries deeds) : Tells (.loopFinished kind rounds :: entries) deeds

namespace Tells

variable {entries entries' : List Event} {deeds deeds' : List Deed}

theorem append (first : Tells entries deeds) (second : Tells entries' deeds') :
    Tells (entries ++ entries') (deeds ++ deeds') := by
  induction first with
  | nil => exact second
  | assigned target v _ ih => exact .assigned target v ih
  | failed target _ ih => exact .failed target ih
  | called name f args _ ih => exact .called name f args ih
  | looped kind rounds _ ih => exact .looped kind rounds ih

/-- Only assignments, calls and loops are told of. -/
theorem messages (tells : Tells entries deeds) :
    ∀ e ∈ entries, e.message ∈ ["assign", "call", "loop finished"] := by
  induction tells with
  | nil => exact List.forall_mem_nil _
  | failed _ _ ih => exact ih
  | assigned target v _ ih => exact List.forall_mem_cons.2 ⟨by simp [Event.message], ih⟩
  | called name f args _ ih => exact List.forall_mem_cons.2 ⟨by simp [Event.message], ih⟩
  | looped kind rounds _ ih => exact List.forall_mem_cons.2 ⟨by simp [Event.message], ih⟩

/-- The calls of a log are the calls that were made. -/
theorem calls (tells : Tells entries deeds) :
    entries.filterMap Event.call? =
      (deeds.filterMap Deed.invocation?).map fun call => (call.1, toString call.2) := by
  induction tells with
  | nil => rfl
  | failed _ _ ih => exact ih
  | assigned target v _ ih => exact ih
  | called name f args _ ih => exact congrArg ((name, toString args.length) :: ·) ih
  | looped kind rounds _ ih => exact ih

/-- Replaying the texts of the assignments displays the values of all names. -/
theorem displayed (tells : Tells entries deeds) (host : Host σ) (x : Store σ) :
    (entries.filterMap Event.assignment?).foldl retell x.env.displayed =
      (replay host x deeds).env.displayed := by
  induction tells generalizing x with
  | nil => rfl
  | failed target _ ih => exact ih x
  | looped kind rounds _ ih => exact ih x
  | assigned target v _ ih =>
      have assigned := x.env.displayed_assign target v
      refine Eq.trans ?_ (ih (x.assign target v))
      exact congrArg (List.foldl retell · _) assigned.symm
  | called name f args _ ih =>
      have unchanged := congrArg Environment.displayed (x.env_invoke host f args)
      refine Eq.trans ?_ (ih (x.invoke host f args).2)
      exact congrArg (List.foldl retell · _) unchanged.symm

end Tells

/-- From one state to another, the log gets entries that tell deeds. -/
def Narrated (s : State σ) (deeds : List Deed) (t : State σ) : Prop :=
  ∃ entries, t.events.toList = s.events.toList ++ entries ∧ Tells entries deeds

namespace Narrated

variable {s t u : State σ} {first second : List Deed}

theorem idle (same : t.events = s.events) : Narrated s [] t :=
  ⟨[], by rw [same, List.append_nil], .nil⟩

theorem append (before : Narrated s first t) (after : Narrated t second u) :
    Narrated s (first ++ second) u := by
  obtain ⟨entries, told, tells⟩ := before
  obtain ⟨entries', told', tells'⟩ := after
  exact ⟨entries ++ entries', by rw [told', told, List.append_assoc], tells.append tells'⟩

theorem entry {e : Event} (logged : t.events = s.events.push e) (tells : Tells [e] first) :
    Narrated s first t :=
  ⟨[e], by rw [logged, Array.toList_push], tells⟩

theorem leave {r : EStateM.Result Halt (State σ) α} (narrated : Narrated s first (final r))
    (span : Span) : Narrated s first (final (leave span r)) := by
  cases r <;> exact narrated

theorem bind {p : Eval σ α} {f : α → Eval σ β} {h : History σ} {k : α → History σ}
    (before : Narrated s (h s) (final (p s)))
    (after : ∀ a s', p s = .ok a s' → Narrated s' (k a s') (final (f a s'))) :
    Narrated s (h.andThen p k s) (final ((p >>= f) s)) := by
  rw [bind_eq, History.andThen, History.after]
  cases ran : p s with
  | ok a s' =>
      rw [ran] at before
      exact before.append (after a s' ran)
  | error halt s' =>
      rw [ran] at before
      rw [List.append_nil]
      exact before

theorem nested {limits : Limits} {p : Eval σ α} {h : History σ} (span : Span)
    (inside : ∀ s, Narrated s (h s) (final (p s))) (s : State σ) :
    Narrated s (h.inside limits s) (final (Eval.nested limits span p s)) := by
  rw [nested_eq, History.inside]
  split
  · exact .idle rfl
  · have counted : Narrated s.enter [] (final (tick limits s.enter)) := by
      rw [final_tick]
      exact .idle rfl
    exact leave (counted.bind (h := .nothing) fun _ s' _ => inside s') span

theorem repeatRounds {round : Eval σ Bool} {h : History σ}
    (each : ∀ s, Narrated s (h s) (final (round s))) (bound done : Nat) (s : State σ) :
    Narrated s (h.rounds round bound s) (final (Eval.repeatRounds round bound done s)) := by
  induction bound generalizing done s with
  | zero => exact .idle rfl
  | succ bound ih =>
      rw [Eval.repeatRounds, History.rounds]
      refine (each s).bind fun again s' _ => ?_
      cases again with
      | true => exact ih (done + 1) s'
      | false => exact .idle rfl

end Narrated

/-- The log of a computation tells its deeds. -/
theorem Does.narrated {setting : Setting σ} {p : Eval σ α} {h : History σ} {post : α → Prop}
    (does : Does (fun _ => True) setting p h post) (s : State σ) :
    Narrated s (h s) (final (p s)) := by
  induction does generalizing s with
  | pure => exact .idle rfl
  | fail => exact .idle rfl
  | reject => exact .idle rfl
  | lookup name =>
      rw [final_lookup]
      exact .idle rfl
  | bind first _ ihFirst ihNext =>
      -- what is done next depends on the value, so its property is needed
      have told := first.told (fun _ _ _ _ v _ _ _ => v.known_of_all) s
        fun _ v _ => v.known_of_all
      exact (ihFirst s).bind fun a s' ran => ihNext a (told.2 a s' ran) s'
  | @assign p h target given ih =>
      have before := ih s
      dsimp only
      rw [bind_eq]
      cases ran : p s with
      | ok v s' =>
          rw [ran] at before
          exact before.append (.entry rfl (.assigned target v .nil))
      | error halt s' =>
          rw [ran] at before
          obtain ⟨entries, told, tells⟩ := before
          refine ⟨entries, told, ?_⟩
          rw [← List.append_nil entries]
          exact tells.append (.failed target .nil)
  | @call f args name isKnown knownArgs =>
      rw [called_eq, final_ofExcept]
      exact .entry rfl (.called name f args .nil)
  | nested span _ ih => exact .nested span ih s
  | @rounds round h kind _ ih =>
      rw [← (h.rounds round setting.rounds).andThen_nothing (repeatRounds round setting.rounds 0)]
      refine (Narrated.repeatRounds ih setting.rounds 0 s).bind fun n s' _ => ?_
      exact .entry rfl (.looped kind n .nil)

end TinyScript
