import TinyScript.Proofs.LoggedLoops

/-!
# The log of a program is faithful

A run that ends has a first and a last entry in the log, whether it succeeds or
fails.  The entries between them are those of its assignments, its calls and
its completed loops, and tell enough of each to check it against the run.
-/

namespace TinyScript

open Eval

variable {σ : Type}

/-- The last entry of a run: how many nodes were visited, and the error if there is one. -/
def Event.closing (steps : Nat) : Except EvalError Unit → Event
  | .ok () => .finished steps
  | .error e => .aborted steps e

/-- A program that ends has logged this last. -/
theorem Eval.closed_of_conclude {given result : Except EvalError Unit} {s s' : State σ}
    (ended : conclude (outcome given s) = outcome result s') :
    s' = s.log (.closing s.steps result) := by
  cases given with
  | error e =>
      obtain ⟨rfl, rfl⟩ := outcome_inj (show outcome (.error e) _ = outcome result s' from ended)
      rfl
  | ok u =>
      have flushing : conclude (.ok () s) = outcome s.sink.flush
          (s.log (.closing s.steps s.sink.flush)) := by
        rw [conclude]
        cases s.sink.flush <;> rfl
      obtain ⟨rfl, rfl⟩ := outcome_inj (flushing.symm.trans ended)
      rfl

/-- What entries tell of a run from one state to another. -/
structure Faithful (setting : Setting σ) (program : Program) (s s' : State σ)
    (entries : List Event) : Prop where
  /-- Nothing but assignments, calls and loops has entries. -/
  messages : ∀ e ∈ entries, e.message ∈ ["assign", "call", "loop finished"]
  /-- Replaying the texts of the assignments gives what is displayed for each name. -/
  assignments :
    (entries.filterMap Event.assignment?).foldl retell s.env.displayed = s'.env.displayed
  /-- The calls are the calls of functions, in order, each with the number of its arguments. -/
  calls :
    entries.filterMap Event.call? =
      (((Call.program program).deeds setting s).filterMap Deed.invocation?).map
        fun call => (call.1, toString call.2)
  /-- These calls, and the assignments, have made the state what it is. -/
  deeds : s'.store = replay setting.host s.store ((Call.program program).deeds setting s)
  /-- The loops are those that the run comes to and completes, in the order of their ends. -/
  loops : ∃ runs : List (LoopRun σ),
    entries.filterMap Event.loop? = runs.map LoopRun.entry ∧
    (runs.Pairwise fun run next => run.ended.steps < next.ended.steps) ∧
    ∀ run, run ∈ runs ↔ run.From setting (.stmts program.stmts) (begin program s)

/--
**The log is faithful.**  When a program ends, with success or with an error,
its run has added to the log:

* one entry for its beginning;
* the entries of its assignments, from which the display of every name's final
  value can be found; of its calls, one for each call of a function; and of its
  loops, one for each loop that is completed after a round or more, with the
  number of its rounds;
* one entry for its end, as it ended, with the number of visited nodes.
-/
theorem log_faithful {setting : Setting σ} {program : Program} {s s' : State σ}
    {result : Except EvalError Unit} (ended : evalProgram setting program s = outcome result s') :
    ∃ entries : List Event,
      s'.events.toList = s.events.toList ++
        .evaluating program.stmts.length :: (entries ++ [.closing s'.steps result]) ∧
      Faithful setting program s s' entries := by
  have account : Accounted (fun _ => True) setting.host s _ _ :=
    (Call.program program).accounted (fun _ _ _ _ v _ _ _ => v.known_of_all)
      fun _ v _ => v.known_of_all
  rw [Call.run, ended, final_outcome] at account
  have store := account.store
  rw [evalProgram_eq] at ended
  obtain ⟨given, s₁, ran⟩ := of_conclude ended
  rw [ran] at ended
  obtain rfl := closed_of_conclude ended
  obtain ⟨entries, logged, tells⟩ := (does_stmts program.stmts).narrated (begin program s)
  obtain ⟨runs, listed⟩ := lists_stmts setting program.stmts (begin program s) given s₁ ran
  rw [ran, final_outcome] at logged
  refine ⟨entries, ?_, tells.messages, ?_, tells.calls, store, runs, ?_, listed.order, listed.mem⟩
  · rw [State.log, Array.toList_push, logged, begin, State.log, Array.toList_push,
      List.append_assoc, List.append_assoc]
    rfl
  · have replayed := tells.displayed setting.host s.store
    exact replayed.trans (congrArg (fun x => x.env.displayed) store.symm)
  · have both := listed.entries
    rw [State.loopEntries, logged, List.filterMap_append, ← State.loopEntries] at both
    exact List.append_cancel_left both

/--
The program `while more() { x = count(); } while more() { } else { write(x, x); } y = z;`,
whose last assignment fails.
-/
def abortedLoops : Program :=
  let span : Span := default
  let more : Expr := .call ⟨"more", span⟩ [] span
  ⟨[.loop .whileTrue more
      (.mk [.assign ⟨"x", span⟩ (.call ⟨"count", span⟩ [] span) span] span) .nothing span,
    .loop .whileTrue more (.mk [] span)
      (.block (.mk [.call ⟨"write", span⟩ [.ident "x" span, .ident "x" span] span] span)) span,
    .assign ⟨"y", span⟩ (.ident "z" span) span], span⟩

/-- Of its loops the first one has two rounds; the second one has none and no entry. -/
theorem log_faithful_abortedLoops :
    let setting : Setting Catalogue := ⟨Catalogue.host, {}, 4⟩
    ∃ s', evalProgram setting abortedLoops guardedState =
        outcome (.error (.undefinedVariable "z")) s' ∧
      Faithful setting abortedLoops guardedState s'
        [.called "more" 0, .called "count" 0, .assigned "x" (.integer 1), .called "more" 0,
          .called "count" 0, .assigned "x" (.integer 2), .called "more" 0,
          .loopFinished .whileTrue 2, .called "more" 0, .called "write" 2] ∧
      s'.env.displayed "x" = some "2" ∧ s'.env.displayed "y" = none := by
  intro setting
  have ended := @eq_outcome_of_result _ _ (evalProgram setting abortedLoops guardedState)
    (.error (.undefinedVariable "z")) (by decide +kernel)
  obtain ⟨entries, logged, faithful⟩ := log_faithful ended
  have computed : (final (evalProgram setting abortedLoops guardedState)).events.toList =
      .evaluating 3 :: ([.called "more" 0, .called "count" 0, .assigned "x" (.integer 1),
        .called "more" 0, .called "count" 0, .assigned "x" (.integer 2), .called "more" 0,
        .loopFinished .whileTrue 2, .called "more" 0, .called "write" 2] ++
          [.aborted 15 (.undefinedVariable "z")]) := by
    decide +kernel
  have between {first last first' last' : Event} {inner inner' : List Event}
      (same : first :: (inner ++ [last]) = first' :: (inner' ++ [last'])) :
      inner = inner' :=
    (List.append_inj' (List.cons.inj same).2 rfl).1
  rw [computed] at logged
  obtain rfl := between (logged.trans (List.nil_append _))
  exact ⟨_, ended, faithful, by decide +kernel, by decide +kernel⟩

end TinyScript
