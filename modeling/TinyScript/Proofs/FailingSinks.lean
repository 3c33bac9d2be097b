import TinyScript.Proofs.Replaying

/-!
# Sinks that fill up

If nothing but the builtin can be called, then what a run writes is what its
calls are given, line by line.  A sink that takes fewer bytes takes the first
of these bytes: the run goes on as without a limit up to the write that no
longer fits, and fails there.
-/

namespace TinyScript

open Eval

variable {σ α β : Type}

def Deed.lines : Deed → List String
  | .assigns _ _ => []
  | .calls _ _ args => args.map fun v => v.display ++ "\n"

/-- The bytes that deeds write, if only the builtin is called. -/
def output (deeds : List Deed) : ByteArray := (String.join (deeds.flatMap Deed.lines)).toUTF8

theorem output_cons (d : Deed) (deeds : List Deed) :
    output (d :: deeds) = (String.join d.lines).toUTF8 ++ output deeds := by
  rw [output, output, List.flatMap_cons, String.join_append]
  exact String.toByteArray_append

/-- If no function of the host is known, then a known function is the builtin. -/
theorem Store.invoke_builtin {f : Native} (isKnown : (Value.native f).Known fun _ => False)
    (host : Host σ) (x : Store σ) (args : List Value) :
    x.invoke host f args = ((writeLines x.sink args).1.map fun _ => none,
      { x with sink := (writeLines x.sink args).2 }) := by
  unfold Store.invoke
  cases handle : f.handle with
  | write => rfl
  | host index => exact absurd (isKnown index handle) id

theorem Environment.known_of_builtin {env : Environment}
    (builtin : ∀ name f, env.get? name = some (.native f) → f.handle = .write) :
    env.Known fun _ => False := by
  intro name v found
  cases v with
  | native f =>
      intro index handle
      rw [builtin name f found] at handle
      cases handle
  | _ => trivial

namespace Sink

theorem append_append (sink : Sink) (a b : ByteArray) :
    (sink.append a).append b = sink.append (a ++ b) := by
  rw [append, append, append, ByteArray.append_assoc]

theorem append_empty (sink : Sink) : sink.append .empty = sink := by
  rw [append, ByteArray.append_empty]

theorem append_join_cons (sink : Sink) (text : String) (texts : List String) :
    sink.append (String.join (text :: texts)).toUTF8 =
      (sink.append text.toUTF8).append (String.join texts).toUTF8 := by
  rw [append_append, String.join_cons]
  exact congrArg sink.append String.toByteArray_append

theorem writeAll_unlimited {sink : Sink} (unlimited : sink.capacity = none) (texts : List String) :
    sink.writeAll texts = (.ok (), sink.append (String.join texts).toUTF8) := by
  induction texts generalizing sink with
  | nil => exact congrArg (Prod.mk _) sink.append_empty.symm
  | cons text texts ih =>
      have written : sink.write text = (.ok (), sink.append text.toUTF8) := by
        rw [write, unlimited]
      have next : (sink.append text.toUTF8).capacity = none := unlimited
      rw [writeAll, written, append_join_cons]
      exact ih next

end Sink

/-- Deeds that call nothing but the builtin write their output. -/
theorem sink_replay (host : Host σ) {deeds : List Deed}
    (builtin : ∀ d ∈ deeds, d.Known fun _ => False) {x : Store σ}
    (unlimited : x.sink.capacity = none) :
    (replay host x deeds).sink = x.sink.append (output deeds) := by
  induction deeds generalizing x with
  | nil => exact x.sink.append_empty.symm
  | cons d deeds ih =>
      obtain ⟨first, others⟩ := List.forall_mem_cons.1 builtin
      have performed : (d.perform host x).sink = x.sink.append (String.join d.lines).toUTF8 := by
        cases d with
        | assigns target value => cases value <;> exact x.sink.append_empty.symm
        | calls name f args =>
            rw [Deed.perform, Store.invoke_builtin first]
            exact congrArg Prod.snd (Sink.writeAll_unlimited unlimited _)
      have next : (d.perform host x).sink.capacity = none := by
        rw [performed]
        exact unlimited
      rw [output_cons, ← Sink.append_append, ← performed]
      exact ih others next

def Sink.limited (sink : Sink) (capacity : Nat) (refusal : Refusal) : Sink :=
  { sink with capacity := some capacity, refusal }

def State.limited (s : State σ) (capacity : Nat) (refusal : Refusal) : State σ :=
  { s with sink := s.sink.limited capacity refusal }

theorem extract_of_size_le {bytes : ByteArray} {n : Nat} (le : bytes.size ≤ n) :
    bytes.extract 0 n = bytes := by
  refine ByteArray.ext ?_
  rw [ByteArray.data_extract]
  exact Array.extract_eq_self_of_le le

/-- A cut inside of what is there already is not changed by what is added. -/
theorem extract_append_of_le {bytes more : ByteArray} {n : Nat} (le : n ≤ bytes.size) :
    (bytes ++ more).extract 0 n = bytes.extract 0 n := by
  have none : n - bytes.size = 0 := Nat.sub_eq_zero_of_le le
  rw [ByteArray.extract_append, none]
  simp

/-- A cut behind what is there already falls into what is added. -/
theorem extract_append_of_ge {bytes more : ByteArray} {n : Nat} (ge : bytes.size ≤ n) :
    (bytes ++ more).extract 0 n = bytes ++ more.extract 0 (n - bytes.size) := by
  rw [ByteArray.extract_append, extract_of_size_le ge, Nat.zero_sub]

/-- A limited sink takes texts as an unlimited one does, or takes what fits and refuses. -/
theorem Sink.writeAll_limited {capacity : Nat} (refusal : Refusal) (texts : List String)
    {sink : Sink} (fits : sink.written.size ≤ capacity) :
    let all := sink.append (String.join texts).toUTF8
    (all.written.size ≤ capacity ∧
      (sink.limited capacity refusal).writeAll texts = (.ok (), all.limited capacity refusal)) ∨
    (capacity < all.written.size ∧ ∃ full,
      (sink.limited capacity refusal).writeAll texts = (.error (.output refusal.message), full) ∧
      full.written = all.written.extract 0 capacity) := by
  induction texts generalizing sink with
  | nil =>
      have same : sink.append (String.join []).toUTF8 = sink := sink.append_empty
      rw [same]
      exact .inl ⟨fits, rfl⟩
  | cons text texts ih =>
      have grown : (sink.append text.toUTF8).written.size =
          sink.written.size + text.toUTF8.size := ByteArray.size_append
      have written : (sink.limited capacity refusal).write text =
          if text.toUTF8.size ≤ capacity - sink.written.size then
            (.ok (), (sink.append text.toUTF8).limited capacity refusal)
          else (.error (.output refusal.message),
            (sink.limited capacity refusal).append
              (text.toUTF8.extract 0 (capacity - sink.written.size))) := rfl
      rw [append_join_cons, writeAll, written]
      by_cases room : text.toUTF8.size ≤ capacity - sink.written.size
      · have fits' : (sink.append text.toUTF8).written.size ≤ capacity := by omega
        rw [if_pos room]
        exact ih fits'
      · have beyond : capacity < (sink.append text.toUTF8).written.size := by omega
        have all : ((sink.append text.toUTF8).append (String.join texts).toUTF8).written.size =
            (sink.append text.toUTF8).written.size + (String.join texts).toUTF8.size :=
          ByteArray.size_append
        have kept : ((sink.append text.toUTF8).written ++ (String.join texts).toUTF8).extract 0
            capacity = sink.written ++ text.toUTF8.extract 0 (capacity - sink.written.size) := by
          rw [extract_append_of_le (Nat.le_of_lt beyond)]
          exact extract_append_of_ge fits
        rw [if_neg room]
        exact .inr ⟨by omega, _, rfl, kept.symm⟩

/-! ## Runs on a limited sink -/

variable {capacity : Nat} {refusal : Refusal}

/-- A state to compare runs from: no limit, an output that fits, no function but the builtin. -/
structure State.Fits (capacity : Nat) (s : State σ) : Prop where
  unlimited : s.sink.capacity = none
  size : s.sink.written.size ≤ capacity
  builtin : s.env.Known fun _ => False

theorem State.Fits.after {host : Host σ} {s t : State σ} {deeds : List Deed}
    (fits : s.Fits capacity) (account : Accounted (fun _ => False) host s deeds t)
    (size : t.sink.written.size ≤ capacity) : t.Fits capacity where
  unlimited := by
    obtain ⟨added, same⟩ := account.grows.1
    rw [same]
    exact fits.unlimited
  size := size
  builtin := account.bound

/--
The outcome of a run on a limited sink against that on an unlimited one: the
same if the output fits, and otherwise an error, with what fits of the output.
-/
inductive Truncated (capacity : Nat) (refusal : Refusal) :
    EStateM.Result Halt (State σ) α → EStateM.Result Halt (State σ) α → Prop where
  | ok {a : α} {s t : State σ} (same : t = s.limited capacity refusal)
      (size : s.sink.written.size ≤ capacity) : Truncated capacity refusal (.ok a t) (.ok a s)
  | error {halt : Halt} {s t : State σ} (same : t = s.limited capacity refusal)
      (size : s.sink.written.size ≤ capacity) :
      Truncated capacity refusal (.error halt t) (.error halt s)
  | cut {s : State σ} {r : EStateM.Result Halt (State σ) α}
      (size : capacity < (final r).sink.written.size)
      (written : s.sink.written = (final r).sink.written.extract 0 capacity)
      (steps : s.steps ≤ (final r).steps) :
      Truncated capacity refusal (.error (.failed (.output refusal.message)) s) r

namespace Truncated

theorem leave {r r' : EStateM.Result Halt (State σ) α} (truncated : Truncated capacity refusal r r')
    (span : Span) : Truncated capacity refusal (leave span r) (leave span r') := by
  cases truncated with
  | ok same size =>
      rw [same]
      exact .ok rfl size
  | error same size =>
      rw [same]
      exact .error rfl size
  | cut size written steps => cases r' <;> exact .cut size written steps

theorem conclude {r r' : EStateM.Result Halt (State σ) Unit}
    (truncated : Truncated capacity refusal r r') :
    Truncated capacity refusal (conclude r) (conclude r') := by
  cases truncated with
  | @ok u s _ same size =>
      have flush : (s.limited capacity refusal).sink.flush = s.sink.flush := rfl
      rw [same, Eval.conclude, Eval.conclude, flush]
      cases s.sink.flush with
      | ok u => exact .ok rfl size
      | error e => exact .error rfl size
  | @error halt s _ same size =>
      rw [same]
      cases halt <;> exact .error rfl size
  | cut size written steps =>
      obtain ⟨sink, counted, _⟩ := final_conclude r'
      rw [← sink] at size written
      rw [← counted] at steps
      exact .cut size written steps

/-- A run that ends on an unlimited sink ends on a limited one, in one of two ways. -/
theorem of_outcome {r : EStateM.Result Halt (State σ) α} {result : Except EvalError α}
    {s : State σ} (truncated : Truncated capacity refusal r (outcome result s)) :
    (s.sink.written.size ≤ capacity ∧ r = outcome result (s.limited capacity refusal)) ∨
    (capacity < s.sink.written.size ∧ ∃ t, r = outcome (.error (.output refusal.message)) t ∧
      t.sink.written = s.sink.written.extract 0 capacity ∧ t.steps ≤ s.steps) := by
  generalize ended : outcome result s = r' at truncated
  cases truncated with
  | ok same size =>
      cases result <;> cases ended
      exact .inl ⟨size, congrArg _ same⟩
  | error same size =>
      cases result <;> cases ended
      exact .inl ⟨size, congrArg _ same⟩
  | cut size written steps =>
      rw [← ended, final_outcome] at size written steps
      exact .inr ⟨size, _, rfl, written, steps⟩

end Truncated

def Truncates (capacity : Nat) (refusal : Refusal) (p : Eval σ α) : Prop :=
  ∀ s : State σ, s.Fits capacity →
    Truncated capacity refusal (p (s.limited capacity refusal)) (p s)

namespace Truncates

variable {host : Host σ} {p : Eval σ α} {h : History σ} {mid : α → Prop}

theorem lookup (name : String) :
    Truncates capacity refusal (lookup name : Eval σ Value) := by
  intro s fits
  have same : (s.limited capacity refusal).env = s.env := rfl
  rw [lookup_eq, lookup_eq, same]
  cases s.env.get? name with
  | some v => exact .ok rfl fits.size
  | none => exact .error rfl fits.size

/-- Once the output is cut, nothing that comes later matters. -/
theorem bind {f : α → Eval σ β} (first : Truncates capacity refusal p)
    (told : Told (fun _ => False) host p h mid)
    (next : ∀ a, mid a → Truncates capacity refusal (f a))
    (later : ∀ a, mid a → ∀ s : State σ, (s.env.Known fun _ => False) → s.Grows (final (f a s))) :
    Truncates capacity refusal (p >>= f) := by
  intro s fits
  have truncated := first s fits
  obtain ⟨account, given⟩ := told s fits.builtin
  rw [bind_eq, bind_eq]
  generalize p (s.limited capacity refusal) = r at truncated
  generalize p s = r' at truncated account given
  cases truncated with
  | @ok a s' _ same size =>
      rw [same]
      exact next a (given a s' rfl) s' (fits.after account size)
  | error same size => exact .error same size
  | @cut t r' size written steps =>
      cases r' with
      | error halt s' => exact .cut size written steps
      | ok a s' =>
          -- the unlimited run goes on, beyond what fits, and only adds to what it has written
          obtain ⟨⟨added, sink⟩, more⟩ := later a (given a s' rfl) s' account.bound
          have all : (final (f a s')).sink.written = s'.sink.written ++ added := by rw [sink]
          have cut : (s'.sink.written ++ added).extract 0 capacity =
              s'.sink.written.extract 0 capacity := extract_append_of_le (Nat.le_of_lt size)
          refine .cut ?_ ?_ (Nat.le_trans steps more)
          · rw [all, ByteArray.size_append]
            exact Nat.lt_add_right _ size
          · rw [all, cut]
            exact written

theorem tick (limits : Limits) : Truncates capacity refusal (tick limits : Eval σ Unit) := by
  intro s fits
  have same : (s.limited capacity refusal).steps = s.steps := rfl
  rw [tick_eq, tick_eq, same]
  cases limits.maxSteps with
  | none => exact .ok rfl fits.size
  | some limit =>
      dsimp only
      split
      · exact .error rfl fits.size
      · exact .ok rfl fits.size

theorem nested {limits : Limits} (inside : Truncates capacity refusal p)
    (told : Told (fun _ => False) host p h mid) (span : Span) :
    Truncates capacity refusal (nested limits span p) := by
  intro s fits
  have same : (s.limited capacity refusal).depth = s.depth := rfl
  rw [nested_eq, nested_eq, same]
  split
  · exact .error rfl fits.size
  · have deeper : s.enter.Fits capacity := ⟨fits.unlimited, fits.size, fits.builtin⟩
    have counted : Told (fun _ => False) host (Eval.tick limits) .nothing fun _ => True :=
      .tick limits
    have ran : Truncated capacity refusal _ _ :=
      (tick limits).bind counted (fun _ _ => inside) (fun _ _ => told.grows) s.enter deeper
    exact ran.leave span

theorem repeatRounds {round : Eval σ Bool} (each : Truncates capacity refusal round)
    (told : Told (fun _ => False) host round h fun _ => True) (bound done : Nat) :
    Truncates capacity refusal (repeatRounds round bound done) := by
  induction bound generalizing done with
  | zero => exact fun s fits => .error rfl fits.size
  | succ bound ih =>
      rw [Eval.repeatRounds]
      refine each.bind told (fun again _ => ?_) fun again _ => ?_
      · cases again with
        | true => exact ih (done + 1)
        | false => exact fun s fits => .ok rfl fits.size
      · cases again with
        | true => exact (told.repeatRounds bound (done + 1)).grows
        | false => exact fun s _ => .refl s

/-- A call of the builtin writes all of its lines, or the bytes of them that fit. -/
theorem call {f : Native} (isKnown : (Value.native f).Known fun _ => False) (name : String)
    (args : List Value) :
    Truncates capacity refusal
      (do emit (.called name args.length); invoke host f args : Eval σ _) := by
  intro s fits
  have lines : writeLines s.sink args = _ := Sink.writeAll_unlimited fits.unlimited _
  rw [called_eq, called_eq, Store.invoke_builtin isKnown, Store.invoke_builtin isKnown]
  have same : s.store.sink = s.sink := rfl
  rw [same, lines]
  rcases Sink.writeAll_limited refusal (args.map fun v => v.display ++ "\n") fits.size with
    ⟨size, wrote⟩ | ⟨size, full, wrote, written⟩
  · have limited : writeLines (s.limited capacity refusal).store.sink args = _ := wrote
    rw [limited]
    exact .ok rfl size
  · have limited : writeLines (s.limited capacity refusal).store.sink args = _ := wrote
    rw [limited]
    exact .cut size written (Nat.le_refl _)

end Truncates

/-- If nothing but the builtin is bound, then nothing else gives a value. -/
theorem Host.closed_builtin (host : Host σ) : host.Closed fun _ => False :=
  fun _ _ _ _ _ isKnown => absurd isKnown id

/-- Every computation goes along on a limited and an unlimited sink. -/
theorem Does.truncates {setting : Setting σ} {p : Eval σ α} {h : History σ} {post : α → Prop}
    (does : Does (fun _ => False) setting p h post) : Truncates capacity refusal p := by
  have closed := setting.host.closed_builtin
  induction does with
  | pure holds => exact fun s fits => .ok rfl fits.size
  | bind first next ih ihNext =>
      exact ih.bind (first.told closed) ihNext fun a given => ((next a given).told closed).grows
  | fail e => exact fun s fits => .error rfl fits.size
  | reject span e => exact fun s fits => .error rfl fits.size
  | lookup name => exact .lookup name
  | assign target given ih =>
      exact ih.bind (given.told closed) (fun v _ s fits => .ok rfl fits.size)
        fun v _ s _ => .refl s
  | call name isKnown _ => exact .call isKnown name _
  | nested span inside ih => exact ih.nested (inside.told closed) span
  | rounds kind each ih =>
      exact (ih.repeatRounds (each.told closed) _ 0).bind ((each.told closed).repeatRounds _ 0)
        (fun _ _ s fits => .ok rfl fits.size) fun _ _ s _ => .refl s

/-- A program goes along on a limited and an unlimited sink. -/
theorem evalProgram_truncated (setting : Setting σ) (program : Program) {s : State σ}
    (fits : s.Fits capacity) :
    Truncated capacity refusal (evalProgram setting program (s.limited capacity refusal))
      (evalProgram setting program s) := by
  have fits' : (begin program s).Fits capacity := ⟨fits.unlimited, fits.size, fits.builtin⟩
  have does : Does (fun _ => False) setting (evalStmts setting program.stmts)
      (stmtDeeds setting program.stmts) fun _ => True := does_stmts program.stmts
  have ran : Truncated capacity refusal _ _ := does.truncates (begin program s) fits'
  rw [evalProgram_eq, evalProgram_eq]
  exact ran.conclude

/--
A sink that fills up only cuts the output.  Let nothing but the builtin be
bound, under any names, and let a run end on a sink without limit.  The bytes
that it adds are those of its calls in order, every argument on a line of its
own.  With room for all of them, the run ends on a limited sink with the same
result in the same state.  With less room it fails with the complaint of the
sink, the sink has taken the bytes that fit, from the first on, and no more
nodes have been visited.
-/
theorem full_sink_truncates {setting : Setting σ} {program : Program} {s s' : State σ}
    {result : Except EvalError Unit}
    (builtin : ∀ name f, s.env.get? name = some (.native f) → f.handle = .write)
    (unlimited : s.sink.capacity = none)
    (ended : evalProgram setting program s = outcome result s') :
    let added := output ((Call.program program).deeds setting s)
    s'.sink = s.sink.append added ∧
    ∀ room refusal,
      let capacity := s.sink.written.size + room
      (added.size ≤ room →
        evalProgram setting program (s.limited capacity refusal) =
          outcome result (s'.limited capacity refusal)) ∧
      (room < added.size → ∃ t,
        evalProgram setting program (s.limited capacity refusal) =
          outcome (.error (.output refusal.message)) t ∧
        t.sink.written = s.sink.written ++ added.extract 0 room ∧ t.steps ≤ s'.steps) := by
  intro added
  have known := Environment.known_of_builtin builtin
  have account := (Call.program program).accounted setting.host.closed_builtin known
  rw [Call.run, ended, final_outcome] at account
  have sink : s'.sink = s.sink.append added :=
    (congrArg Store.sink account.store).trans (sink_replay _ account.called unlimited)
  refine ⟨sink, fun room refusal => ?_⟩
  intro capacity
  have size : s'.sink.written.size = s.sink.written.size + added.size := by
    rw [sink]
    exact ByteArray.size_append
  have fits : s.Fits capacity := ⟨unlimited, Nat.le_add_right _ _, known⟩
  have truncated : Truncated capacity refusal _ _ := evalProgram_truncated setting program fits
  rw [ended] at truncated
  rcases truncated.of_outcome with ⟨small, same⟩ | ⟨large, t, failed, written, steps⟩
  · exact ⟨fun _ => same, fun large => by omega⟩
  · refine ⟨fun small => by omega, fun _ => ⟨t, failed, ?_, steps⟩⟩
    have kept : s'.sink.written.extract 0 capacity =
        s.sink.written ++ added.extract 0 (capacity - s.sink.written.size) := by
      rw [sink]
      exact extract_append_of_ge fits.size
    rw [written, kept, Nat.add_sub_cancel_left]

/-- The script `put = write; i = 0; until i == 2 { put('é', write(i)); i = i + 1; }`. -/
def renamedWrite : Program :=
  let span : Span := default
  let number (text : String) : Expr := .const ⟨.integer, text⟩ span
  let i : Expr := .ident "i" span
  ⟨[.assign ⟨"put", span⟩ (.ident "write" span) span, .assign ⟨"i", span⟩ (number "0") span,
    .loop .untilTrue (.comparison i .eq (number "2") span)
      (.mk [.call ⟨"put", span⟩ [.const ⟨.text, "'é'"⟩ span, .call ⟨"write", span⟩ [i] span] span,
        .assign ⟨"i", span⟩ (.additive i .add (number "1") span) span] span) .nothing span], span⟩

/-- The sink takes half of a character in the second round and nothing behind it. -/
theorem full_sink_truncates_renamedWrite :
    let setting : Setting Catalogue := ⟨Catalogue.host, {}, 2⟩
    let s : State Catalogue := { sink := { written := ">".toUTF8 }, host := [] }
    ∃ s' t, evalProgram setting renamedWrite s = outcome (.ok ()) s' ∧
      s'.sink.written.data = ">0\né\nnull\n1\né\nnull\n".toUTF8.data ∧
      evalProgram setting renamedWrite (s.limited 14 .takesNothing) =
        outcome (.error (.output "failed to write whole buffer")) t ∧
      t.sink.written.data = ">0\né\nnull\n1\n".toUTF8.data.push 0xc3 ∧ t.steps ≤ s'.steps := by
  intro setting s
  have ended : evalProgram setting renamedWrite s = outcome (.ok ()) _ :=
    eq_outcome_of_result (by decide +kernel)
  have builtin : ∀ name f, s.env.get? name = some (.native f) → f.handle = .write := by
    intro name f found
    change (Environment.builtins.get? name) = _ at found
    rw [Environment.builtins, Environment.define, Environment.get?_assign] at found
    split at found <;> cases found
    rfl
  obtain ⟨sink, limited⟩ := full_sink_truncates builtin rfl ended
  obtain ⟨t, failed, written, steps⟩ := (limited 13 .takesNothing).2 (by decide +kernel)
  refine ⟨_, t, ended, by decide +kernel, failed, ?_, steps⟩
  rw [written]
  decide +kernel

end TinyScript
