import TinyScript.Proofs.Avoiding
import TinyScript.Proofs.Budgets
import TinyScript.Proofs.Places

/-!
# Places of missing names

If a run of a script fails because a name is not bound, then the place that is
reported for the error is one where the text has this name.  The innermost
node that fails is the one that looks the name up, and it begins with the name.
A function of the host may raise the same error on its own account, so the
calls of these functions are recorded; the recording changes nothing else.
-/

namespace TinyScript

open Eval

variable {σ α β : Type}

/-- A call of a function of the host: which function, its arguments and its result. -/
structure HostCall where
  index : Nat
  args : List Value
  result : Except EvalError (Option Value)

/-- The host that does what another one does, and keeps a list of the calls. -/
def Host.recording (host : Host σ) : Host (σ × List HostCall) where
  invoke index args sink state :=
    let reply := host.invoke index args sink state.1
    ⟨reply.result, reply.sink, (reply.state, state.2 ++ [⟨index, args, reply.result⟩])⟩
  extends_sink index args sink state := host.extends_sink index args sink state.1

def State.recorded (s : State σ) : State (σ × List HostCall) :=
  { s with host := (s.host, []) }

def Called (host : Host σ) (limits : Limits) (program : Program) (s : State σ)
    (call : HostCall) : Prop :=
  ∃ result t, Ends host.recording limits program s.recorded result t ∧ call ∈ t.host.2

def Simulation.ofRecording (host : Host σ) (limits : Limits) (rounds : Nat) :
    Simulation (fun _ _ => True) ⟨host, limits, rounds⟩ ⟨host.recording, limits, rounds⟩ where
  related x y := y.env = x.env ∧ y.sink = x.sink ∧ y.host.1 = x.host
  cut _ := False
  behind := Sink.Extends
  behind_of_related := by
    rintro x y ⟨_, sink, _⟩
    rw [sink]
    exact .refl x.sink
  behind_extends := Sink.Extends.trans
  lookup := by
    rintro x y ⟨env, _⟩ name span _
    rw [env]
  assign := by
    rintro x y ⟨env, sink, state⟩ name value
    refine ⟨?_, sink, state⟩
    rw [Store.assign, Store.assign, env]
  invoke := by
    rintro x y ⟨env, sink, state⟩ f args
    refine .inl ?_
    unfold Store.invoke
    cases f.handle with
    | write =>
        dsimp only
        rw [sink]
        exact ⟨rfl, env, rfl, state⟩
    | host index =>
        dsimp only [Host.recording]
        rw [sink, state]
        exact ⟨rfl, env, rfl, rfl⟩
  flush := by
    rintro x y ⟨_, sink, _⟩
    rw [sink]
  depth := .inl rfl
  steps := .inl rfl
  rounds := .inl rfl

/-- A run ends recorded as it ends unrecorded. -/
theorem Ends.recorded {host : Host σ} {limits : Limits} {program : Program} {s s' : State σ}
    {result : Except EvalError Unit} (ended : Ends host limits program s result s') :
    ∃ t, Ends host.recording limits program s.recorded result t ∧ t.errorSpan = s'.errorSpan := by
  obtain ⟨rounds, ended⟩ := ended
  let sim := Simulation.ofRecording host limits rounds
  have start : sim.Related s s.recorded := ⟨⟨rfl, rfl, rfl⟩, rfl, rfl, rfl, rfl⟩
  have follows : sim.Follows (evalProgram ⟨host, limits, rounds⟩ program s)
      (evalProgram ⟨host.recording, limits, rounds⟩ program s.recorded) :=
    sim.program (fun _ _ => trivial) start
  rw [ended] at follows
  obtain ⟨t, ran, related⟩ := follows.of_outcome fun _ => id
  exact ⟨t, ⟨rounds, ran⟩, related.errorSpan.symm⟩

/-- The calls of a run are those that are recorded. -/
theorem called_iff {host : Host σ} {limits : Limits} {program : Program} {s : State σ}
    {result : Except EvalError Unit} {t : State (σ × List HostCall)}
    (ended : Ends host.recording limits program s.recorded result t) {call : HostCall} :
    Called host limits program s call ↔ call ∈ t.host.2 := by
  constructor
  · rintro ⟨result', t', ended', called⟩
    rwa [(ended.unique ended').2]
  · exact fun called => ⟨result, t, ended, called⟩

/-- One of the recorded calls has failed for want of a name. -/
def CallFailed (name : String) (x : Store (σ × List HostCall)) : Prop :=
  ∃ call ∈ x.host.2, call.result = .error (.undefinedVariable name)

/-- A call that fails for want of a name is recorded. -/
theorem callFailed_of_invoke {host : Host σ} {x : Store (σ × List HostCall)} {f : Native}
    {args : List Value} {name : String}
    (failed : (x.invoke host.recording f args).1 = .error (.undefinedVariable name)) :
    CallFailed name (x.invoke host.recording f args).2 := by
  unfold Store.invoke at failed ⊢
  cases handle : f.handle with
  | write =>
      rw [handle] at failed
      dsimp only at failed
      cases written : (writeLines x.sink args).1 with
      | ok u =>
          rw [written] at failed
          cases failed
      | error e =>
          rw [written] at failed
          cases failed
          cases writeAll_error written
  | host index =>
      rw [handle] at failed
      exact ⟨_, List.mem_append_right _ List.mem_cons_self, failed⟩

namespace Eval

variable {reads : String → Span → Prop} {raised : String → Store σ → Prop} {own : Option Span}

/--
An outcome in which a missing name is located: at a node that reads the name,
which may still be the node in evaluation; or else the error was raised by a
function.  As long as nothing fails, no place is reported.
-/
def Located (reads : String → Span → Prop) (raised : String → Store σ → Prop)
    (own : Option Span) : EStateM.Result Halt (State σ) α → Prop
  | .ok _ s => s.errorSpan = none
  | .error halt s => ∀ name, halt = .failed (.undefinedVariable name) →
      raised name s.store ∨ ∃ span, reads name span ∧ s.errorSpan.or own = some span

theorem located_other {e : EvalError} (other : e.kind ≠ .undefinedVariable) (s : State σ) :
    Located reads raised own (.error (.failed e) s : EStateM.Result Halt (State σ) α) := by
  rintro name ⟨⟩
  exact absurd rfl other

theorem Located.bind {p : Eval σ α} {f : α → Eval σ β} {s : State σ}
    (first : Located reads raised own (p s))
    (next : ∀ x s', s'.errorSpan = none → Located reads raised own (f x s')) :
    Located reads raised own ((p >>= f) s) := by
  rw [bind_eq]
  cases ran : p s with
  | ok x s' =>
      rw [ran] at first
      exact next x s' first
  | error halt s' =>
      rw [ran] at first
      exact first

theorem located_tick (limits : Limits) {s : State σ} (clear : s.errorSpan = none) :
    Located reads raised own (tick limits s) := by
  rw [tick_eq]
  cases limits.maxSteps with
  | none => exact clear
  | some limit =>
      dsimp only
      split
      · exact located_other (by nofun) _
      · exact clear

/-- A node gives its place to an error inside of it that has none. -/
theorem Located.leave {span : Span} {r : EStateM.Result Halt (State σ) α}
    (inside : Located reads raised (some span) r) (own : Option Span) :
    Located reads raised own (leave span r) := by
  cases r with
  | ok x s => exact inside
  | error halt s =>
      intro name missing
      rcases inside name missing with raised | ⟨place, read, located⟩
      · exact .inl raised
      · refine .inr ⟨place, read, ?_⟩
        change (s.errorSpan.or (some span)).or own = some place
        rw [located, Option.some_or]

theorem located_nested {limits : Limits} {span : Span} {p : Eval σ α}
    (inside : ∀ s, s.errorSpan = none → Located reads raised (some span) (p s)) {s : State σ}
    (clear : s.errorSpan = none) : Located reads raised own (nested limits span p s) := by
  rw [nested_eq]
  split
  · exact located_other (by nofun) _
  · have visited : Located reads raised (some span) (tick limits s.enter) :=
      located_tick limits clear
    exact (visited.bind fun _ => inside).leave own

theorem located_repeatRounds {round : Eval σ Bool}
    (each : ∀ s, s.errorSpan = none → Located reads raised own (round s)) (bound done : Nat)
    {s : State σ} (clear : s.errorSpan = none) :
    Located reads raised own (repeatRounds round bound done s) := by
  induction bound generalizing done s with
  | zero => nofun
  | succ bound ih =>
      rw [repeatRounds]
      refine (each s clear).bind fun again s' clear' => ?_
      cases again with
      | true => exact ih (done + 1) clear'
      | false => exact clear'

end Eval

/-- Every evaluation locates missing names, if functions that miss a name are known for it. -/
theorem Lockstep.located {reads : String → Span → Prop} {setting other : Setting σ}
    {raised : String → Store σ → Prop}
    (raises : ∀ {x : Store σ} {f : Native} {args : List Value} {name : String},
      (x.invoke setting.host f args).1 = .error (.undefinedVariable name) →
        raised name (x.invoke setting.host f args).2)
    {own : Option Span} {p q : Eval σ α} (built : Lockstep reads setting other own p q)
    {s : State σ} (clear : s.errorSpan = none) : Located reads raised own (p s) := by
  induction built generalizing s with
  | pure x => exact clear
  | bind _ _ first next => exact (first clear).bind fun x s' => next x
  | fail other => exact located_other other s
  | reject span other => exact located_other other _
  | @lookup span name mentioned =>
      rw [lookup_eq]
      cases s.env.get? name with
      | some value => exact clear
      | none =>
          rintro _ ⟨⟩
          refine .inr ⟨span, mentioned, ?_⟩
          rw [clear]
          rfl
  | emit e => exact clear
  | assign name value => exact clear
  | invoke f args =>
      rw [invoke_eq]
      cases failed : (s.store.invoke setting.host f args).1 with
      | ok result => exact clear
      | error e =>
          rintro name ⟨⟩
          exact .inl (raises failed)
  | nested _ inside => exact located_nested (fun s => inside) clear
  | rounds _ _ _ runs checks decides =>
      refine located_repeatRounds (fun s clear => ?_) setting.rounds 0 clear
      exact (runs clear).bind fun _ s clear =>
        (located_nested (fun s => checks) clear).bind fun v s => decides v

/-- A run that fails for want of a name reports a place where the program looks this name up. -/
theorem errorSpan_of_missing {host : Host σ} {limits : Limits} {program : Program}
    {s t : State (σ × List HostCall)} {name : String}
    (ended : Ends host.recording limits program s (.error (.undefinedVariable name)) t) :
    CallFailed name t.store ∨
    ∃ span, (name, span) ∈ program.mentions ∧ t.errorSpan = some span := by
  obtain ⟨rounds, ended⟩ := ended
  rw [evalProgram_eq] at ended
  let setting : Setting (σ × List HostCall) := ⟨host.recording, limits, rounds⟩
  have built : Lockstep (fun name span => (name, span) ∈ program.mentions) setting setting none
      (evalStmts setting program.stmts) (evalStmts setting program.stmts) :=
    lockstep_stmts program.stmts (fun _ mem => mem) none
  have located := built.located callFailed_of_invoke (s := begin program s) rfl
  cases ran : evalStmts setting program.stmts (begin program s) with
  | ok u s' =>
      rw [ran, conclude] at ended
      cases flushed : s'.sink.flush with
      | ok u =>
          rw [flushed] at ended
          cases ended
      | error e =>
          rw [flushed] at ended
          cases ended
          cases flush_error flushed
  | error halt s' =>
      rw [ran] at ended located
      cases halt with
      | unfinished => cases ended
      | failed e =>
          cases ended
          obtain raised | ⟨span, mentioned, place⟩ := located name rfl
          · exact .inl raised
          · rw [Option.or_none] at place
            exact .inr ⟨span, mentioned, place⟩

theorem plain_of_isName {name : String} (isName : IsName name) :
    ∀ d ∈ name.toList, d ≠ '\n' ∧ d ≠ '\r' := by
  intro d mem
  have wordy := Lexeme.wordChar_of_isName isName d mem
  constructor <;> rintro rfl <;> cases wordy

/-- A name that stands at a place is found in the line and column of the place. -/
theorem Placed.line {source : Source} (short : source.text.utf8ByteSize < UInt32.size)
    {name : String} {span : Span} (placed : Placed source.text.toList (name, span)) :
    ∃ text front rest, source.line? span.start.line = some text ∧
      text.toList = front ++ name.toList ++ rest ∧
      span.start.column.toNat = front.length + 1 ∧ Lexeme.continuesWord rest = false := by
  obtain ⟨isName, c, within, start, behind, ahead, ends⟩ := placed
  have visible : name.toList ≠ [] := by
    obtain ⟨⟨d, more, split, _⟩, _⟩ := isName
    rw [split]
    exact List.cons_ne_nil d more
  obtain ⟨text, front, rest, found, split, column, part⟩ :=
    source.line?_of_within short within ahead visible (plain_of_isName isName)
  rw [← start] at found column
  refine ⟨text, front, rest, found, split, column, ?_⟩
  obtain ⟨more, rfl⟩ := part
  cases rest with
  | nil => rfl
  | cons d rest => exact ends

/--
If a script fails because a name is not bound, and no function of the host
raises this error, then the line and column that are reported for the error
are those of the name in the text: the line has the name at this column, and
behind it ends or goes on with a character that is not one of a name.
-/
theorem missing_name_located {source : Source} {program : Program}
    (parsed : source.parse = .ok program) (short : source.text.utf8ByteSize < UInt32.size)
    {host : Host σ} {limits : Limits} {s s' : State σ}
    (quiet : ∀ call, Called host limits program s call →
      ∀ name, call.result ≠ .error (.undefinedVariable name))
    {name : String} (ended : Ends host limits program s (.error (.undefinedVariable name)) s') :
    ∃ span text front rest, s'.errorSpan = some span ∧
      source.line? span.start.line = some text ∧ text.toList = front ++ name.toList ++ rest ∧
      span.start.column.toNat = front.length + 1 ∧ Lexeme.continuesWord rest = false := by
  obtain ⟨t, recorded, same⟩ := ended.recorded
  obtain ⟨call, called, raised⟩ | ⟨span, mentioned, place⟩ := errorSpan_of_missing recorded
  · exact absurd raised (quiet call ((called_iff recorded).2 called) name)
  · obtain ⟨text, front, rest, line⟩ := (placed_of_parse parsed _ mentioned).line short
    exact ⟨span, text, front, rest, same.symm.trans place, line⟩

def missingName : Source := ⟨"lost", "x = count();\r\nwrite('é', x + lost); // lost\r\n"⟩

/-- The script fails for want of the name, and the name is found where the error is reported. -/
theorem missing_name_located_lost :
    ∃ program s' span text front rest, missingName.parse = .ok program ∧
      Ends Catalogue.host {} program countingState (.error (.undefinedVariable "lost")) s' ∧
      s'.errorSpan = some span ∧ missingName.line? span.start.line = some text ∧
      text.toList = front ++ "lost".toList ++ rest ∧
      span.start.column.toNat = front.length + 1 ∧ Lexeme.continuesWord rest = false := by
  have ran : missingName.parse.toOption.any (fun program =>
      let plain := evalProgram ⟨Catalogue.host, {}, 0⟩ program countingState
      let recorded := evalProgram ⟨Catalogue.host.recording, {}, 0⟩ program countingState.recorded
      decide (Eval.result plain = some (.error (.undefinedVariable "lost")) ∧
        Eval.result recorded = some (.error (.undefinedVariable "lost")) ∧
        ∀ call ∈ (final recorded).host.2, call.result.isOk = true)) = true := by
    decide +kernel
  cases parsed : missingName.parse with
  | error e =>
      rw [parsed] at ran
      cases ran
  | ok program =>
      rw [parsed] at ran
      obtain ⟨failed, recorded, calls⟩ := of_decide_eq_true ran
      have quiet : ∀ call, Called Catalogue.host {} program countingState call →
          ∀ name, call.result ≠ .error (.undefinedVariable name) := by
        intro call called name raised
        have isOk := calls call ((called_iff (ends_of_result recorded)).1 called)
        rw [raised] at isOk
        cases isOk
      have ended := ends_of_result failed
      obtain ⟨span, text, front, rest, located⟩ :=
        missing_name_located parsed (by decide) quiet ended
      exact ⟨program, _, span, text, front, rest, rfl, ended, located⟩

end TinyScript
