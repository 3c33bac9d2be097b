import TinyScript.Proofs.IntegerExpressions
import TinyScript.Proofs.Language

/-!
# Literals denote themselves

A script that assigns a literal to a name binds the name to what the text of
the literal denotes: what stands between its quotation marks, the decimal value
of its digits, a truth value, or null.  Nothing between quotation marks is
interpreted, and what was bound is written as it is.  Digits whose value does
not fit in 64 bits fail, and the name stays as it was.
-/

namespace TinyScript

variable {σ : Type}

/-- What the text of a literal denotes: a value, or an overflow. -/
inductive Denotes : String → Except EvalError Value → Prop where
  | double {s : String} (inside : '"' ∉ s.toList) : Denotes ("\"" ++ s ++ "\"") (.ok (.text s))
  | single {s : String} (inside : '\'' ∉ s.toList) : Denotes ("'" ++ s ++ "'") (.ok (.text s))
  | integer {digits : String} (isDigits : IsDigits digits.toList)
      (fits : Nat.ofDigitChars 10 digits.toList 0 ≤ 0x7fffffffffffffff) :
      Denotes digits (.ok (.integer (Int64.ofNat (Nat.ofDigitChars 10 digits.toList 0))))
  | overflow {digits : String} (isDigits : IsDigits digits.toList)
      (beyond : 0x7fffffffffffffff < Nat.ofDigitChars 10 digits.toList 0) :
      Denotes digits (.error (.overflow ("integer literal " ++ digits ++ " is out of range")))
  | true : Denotes "true" (.ok (.boolean true))
  | false : Denotes "false" (.ok (.boolean false))
  | null : Denotes "null" (.ok .null)

theorem natOf_eq_ofDigitChars (digits : List Char) :
    Numeral.natOf digits = Nat.ofDigitChars 10 digits 0 := by
  rw [Nat.ofDigitChars_eq_foldl]
  rfl

/-- A quoted text is the literal of what stands between its quotation marks. -/
theorem text_literal {quote : Char} (kind : quote = '"' ∨ quote = '\'') {s text : String}
    (inside : quote ∉ s.toList) (quoted : text.toList = quote :: (s.toList ++ [quote])) :
    (Literal.mk .text text).IsLexical ∧ (Literal.mk .text text).value = .ok (.text s) := by
  refine ⟨⟨quote, s.toList, kind, inside, quoted⟩, ?_⟩
  simp [Literal.value, quoted, unquoted_of_quoted kind]

theorem Denotes.literal {text : String} {denoted : Except EvalError Value}
    (denotes : Denotes text denoted) :
    ∃ literal : Literal, literal.text = text ∧ literal.IsLexical ∧ literal.value = denoted := by
  cases denotes with
  | @double s inside =>
      exact ⟨⟨.text, _⟩, rfl, text_literal (.inl rfl) inside (by simp)⟩
  | @single s inside =>
      exact ⟨⟨.text, _⟩, rfl, text_literal (.inr rfl) inside (by simp)⟩
  | integer isDigits fits =>
      have value := @value_of_digits ⟨.integer, text⟩ rfl isDigits
      dsimp only at value
      rw [natOf_eq_ofDigitChars, fitted, int64?, if_pos (by omega)] at value
      exact ⟨⟨.integer, text⟩, rfl, isDigits, value⟩
  | overflow isDigits beyond =>
      have value := @value_of_digits ⟨.integer, text⟩ rfl isDigits
      dsimp only at value
      rw [natOf_eq_ofDigitChars, fitted, int64?, if_neg (by omega)] at value
      exact ⟨⟨.integer, text⟩, rfl, isDigits, value⟩
  | true => exact ⟨⟨.boolean, _⟩, rfl, .inl rfl, by simp [Literal.value]⟩
  | false => exact ⟨⟨.boolean, _⟩, rfl, .inr rfl, by simp [Literal.value]⟩
  | null => exact ⟨⟨.null, _⟩, rfl, rfl, rfl⟩

/-- A program whose tree is that of one statement, places apart, is that statement somewhere. -/
theorem singleton_of_erase {program : Program} {stmt : Stmt}
    (same : program.erase = ⟨[stmt], default⟩) :
    ∃ found, program.stmts = [found] ∧ found.erase = stmt := by
  have stmts : eraseStmts program.stmts = [stmt] := congrArg Program.stmts same
  rw [eraseStmts_eq] at stmts
  exact List.map_eq_singleton_iff.1 stmts

section

variable {name : String} (isName : IsName name) (file : String)
include isName

/-- The assignment of a literal is read as one. -/
theorem parse_assignment {literal : Literal} (lexical : literal.IsLexical) :
    ∃ a b c d, Source.parse ⟨file, name ++ " = " ++ literal.text ++ ";"⟩ =
      .ok ⟨[.assign ⟨name, a⟩ (.const literal b) c], d⟩ := by
  let assignment : Program := ⟨[.assign ⟨name, default⟩ (.const literal default) default], default⟩
  have wellShaped : assignment.WellShaped :=
    { shaped := ⟨⟨isName, lexical⟩, trivial⟩
      low := Nat.le_of_ble_eq_true rfl
      shallow := Nat.le_of_ble_eq_true rfl }
  have space : Trivia false [' '] := .blank rfl .nil
  have apart {p q : Prop} : false = true → p → q := nofun
  have rendered : Renders false assignment.tokens
      ([] ++ (name.toList ++ ([' '] ++ (['='] ++ ([' '] ++ (literal.text.toList ++
        ([] ++ ([';'] ++ [])))))))) :=
    .token (t := .name name) .nil apart (.token (t := .mark '=') space apart
      (.token (t := .literal literal) space apart
        (.token (t := .mark ';') .nil apart (.ending .nil))))
  have spelled : assignment.RenderedBy (name ++ " = " ++ literal.text ++ ";") := by
    rw [Program.RenderedBy]
    simpa using rendered
  obtain ⟨program, parsed, same⟩ := @parse_of_rendered ⟨file, _⟩ _ wellShaped spelled
  obtain ⟨found, stmts, erased⟩ := singleton_of_erase same
  obtain ⟨_, d⟩ := program
  subst stmts
  cases found with
  | assign target value c =>
      obtain ⟨_, a⟩ := target
      cases value <;> cases erased
      exact ⟨a, _, c, d, parsed⟩
  | _ => cases erased

/-- The call that writes a name is read as one. -/
theorem parse_write :
    ∃ a b c d, Source.parse ⟨file, "write(" ++ name ++ ");"⟩ =
      .ok ⟨[.call ⟨"write", a⟩ [.ident name b] c], d⟩ := by
  let call : Program := ⟨[.call ⟨"write", default⟩ [.ident name default] default], default⟩
  have isWrite : IsName "write" :=
    ⟨⟨'w', ['r', 'i', 't', 'e'], rfl, by decide, List.all_eq_true.1 rfl⟩, by decide⟩
  have wellShaped : call.WellShaped :=
    { shaped := ⟨⟨isWrite, isName, trivial⟩, trivial⟩
      low := Nat.le_of_ble_eq_true rfl
      shallow := Nat.le_of_ble_eq_true rfl }
  have apart {p q : Prop} : false = true → p → q := nofun
  have rendered : Renders false call.tokens
      ([] ++ ("write".toList ++ ([] ++ (['('] ++ ([] ++ (name.toList ++
        ([] ++ ([')'] ++ ([] ++ ([';'] ++ [])))))))))) :=
    .token (t := .name "write") .nil apart (.token (t := .mark '(') .nil apart
      (.token (t := .name name) .nil apart (.token (t := .mark ')') .nil apart
        (.token (t := .mark ';') .nil apart (.ending .nil)))))
  have spelled : call.RenderedBy ("write(" ++ name ++ ");") := by
    rw [Program.RenderedBy]
    simpa using rendered
  obtain ⟨program, parsed, same⟩ := @parse_of_rendered ⟨file, _⟩ _ wellShaped spelled
  obtain ⟨found, stmts, erased⟩ := singleton_of_erase same
  obtain ⟨_, d⟩ := program
  subst stmts
  cases found with
  | call callee args c =>
      obtain ⟨_, a⟩ := callee
      injection erased with callee args
      cases callee
      rw [eraseExprs_eq] at args
      obtain ⟨arg, rfl, erased⟩ := List.map_eq_singleton_iff.1 args
      cases arg <;> cases erased
      exact ⟨a, _, c, d, parsed⟩
  | _ => cases erased

end

/-- A run of a program whose statements the rules execute, given enough room. -/
theorem ends_of_executes {host : Host σ} {limits : Limits} (unlimited : limits.maxSteps = none)
    (program : Program) {s : State σ} (room : s.depth + mostLevels program.stmts ≤ limits.maxDepth)
    {given : Except EvalError Unit} {after : Store σ}
    (derived : Executes host (.stmts program.stmts) s.store given after) :
    ∃ s', Ends host limits program s (given.bind fun _ => after.sink.flush) s' ∧
      s'.store = after ∧ s'.depth = s.depth := by
  have implemented : Implements limits (mostLevels program.stmts)
      (fun rounds => evalStmts ⟨host, limits, rounds⟩ program.stmts)
      (Executes host (.stmts program.stmts)) := implements_stmts unlimited program.stmts
  obtain ⟨least, ends⟩ := implemented.complete derived
  obtain ⟨s₁, ran, rfl⟩ := ends least (Nat.le_refl least) (Eval.begin program s) rfl room
  have depth := (implemented.sound (s := Eval.begin program s) room ran).1
  obtain ⟨s', concluded, store, _⟩ := Eval.conclude_outcome given s₁
  have kept := (Eval.final_conclude (Eval.outcome given s₁)).2.2
  rw [concluded, Eval.final_outcome, Eval.final_outcome] at kept
  refine ⟨s', ⟨least, ?_⟩, store, kept.trans depth⟩
  rw [Eval.evalProgram_eq, ran]
  exact concluded

section

variable (host : Host σ) {limits : Limits} (unlimited : limits.maxSteps = none) {s : State σ}
  (deep : s.depth + 2 ≤ limits.maxDepth)
include unlimited deep

/-- The assignment of a literal binds its value, or fails as the literal does. -/
theorem ends_assignment (flushes : s.sink.flushError = none) (name : String) (literal : Literal)
    (a b c d : Span) :
    ∃ s', Ends host limits ⟨[.assign ⟨name, a⟩ (.const literal b) c], d⟩ s
        (literal.value.map fun _ => ()) s' ∧ s'.depth = s.depth ∧
      s'.store = match literal.value with
        | .ok v => s.store.assign name v
        | .error _ => s.store := by
  have evaluated : Evaluates host (.const literal b) s.store literal.value s.store := .const
  cases value : literal.value with
  | ok v =>
      rw [value] at evaluated
      obtain ⟨s', ended, store, depth⟩ := ends_of_executes unlimited
        ⟨[.assign ⟨name, a⟩ (.const literal b) c], d⟩ deep (.cons (.assign evaluated) .nil)
      have flushed : (s.store.assign name v).sink.flush = .ok () := by
        rw [Sink.flush, Store.assign]
        simp only [State.store, flushes]
      rw [Except.bind, flushed] at ended
      exact ⟨s', ended, depth, store⟩
  | error e =>
      rw [value] at evaluated
      obtain ⟨s', ended, store, depth⟩ := ends_of_executes unlimited
        ⟨[.assign ⟨name, a⟩ (.const literal b) c], d⟩ deep (.consFailed (.assignFailed evaluated))
      exact ⟨s', ended, depth, store⟩

/-- Writing a name that is bound to a text adds the text and a newline to a sink that takes it. -/
theorem ends_write (takes : s.sink.capacity = none) (flushes : s.sink.flushError = none)
    (builtin : s.env.get? "write" = some (.native ⟨"write", .write⟩)) {name content : String}
    (bound : s.env.get? name = some (.text content)) (a b c d : Span) :
    ∃ s', Ends host limits ⟨[.call ⟨"write", a⟩ [.ident name b] c], d⟩ s (.ok ()) s' ∧
      s'.sink.written = s.sink.written ++ (content ++ "\n").toUTF8 := by
  have taken : s.sink.write ((Value.text content).display ++ "\n") =
      (.ok (), s.sink.append (content ++ "\n").toUTF8) := by
    rw [Sink.write, takes]
    rfl
  have evaluated : EvaluatesAll host [.ident name b] s.store (.ok [.text content]) s.store :=
    .cons (.ident (.bound bound)) .nil
  have called := Calls.native (Resolves.native builtin) evaluated
    (.write (.line taken (.done _)))
  have executed := @Executes.call _ host ⟨"write", a⟩ _ c _ _ _ called
  obtain ⟨s', ended, store, _⟩ := ends_of_executes unlimited
    ⟨[.call ⟨"write", a⟩ [.ident name b] c], d⟩ deep (.cons executed .nil)
  have flushed : (s.sink.append (content ++ "\n").toUTF8).flush = .ok () := by
    rw [Sink.flush, Sink.append]
    simp only [flushes]
  have sink : s'.sink = s.sink.append (content ++ "\n").toUTF8 := congrArg Store.sink store
  refine ⟨s', ?_, by rw [sink]; rfl⟩
  rw [Except.bind] at ended
  dsimp only at ended
  rwa [flushed] at ended

end

/--
A state between two runs: no node is being evaluated, `write` is the builtin,
and the sink takes everything.
-/
structure State.Idle (s : State σ) : Prop where
  depth : s.depth = 0
  builtin : s.env.get? "write" = some (.native ⟨"write", .write⟩)
  takes : s.sink.capacity = none
  flushes : s.sink.flushError = none

theorem State.idle_fresh (host : σ) : ({ host } : State σ).Idle :=
  ⟨rfl, rfl, rfl, rfl⟩

/--
Literals denote themselves.  Without a step limit and with room for two
levels, the script that assigns a literal to a name is read, and it ends: it
binds the name to what the text of the literal denotes, or fails because the
digits do not fit in 64 bits and leaves all names as they were.  A text that
was bound is then written as it is, with a newline behind it.
-/
theorem literal_denotes (host : Host σ) {limits : Limits} (unlimited : limits.maxSteps = none)
    (deep : 2 ≤ limits.maxDepth) {s : State σ} (idle : s.Idle) {name : String}
    (isName : IsName name) (notWrite : name ≠ "write") {text : String}
    {denoted : Except EvalError Value} (denotes : Denotes text denoted) (file : String) :
    ∃ program s', Source.parse ⟨file, name ++ " = " ++ text ++ ";"⟩ = .ok program ∧
      Ends host limits program s (denoted.map fun _ => ()) s' ∧ s'.sink = s.sink ∧
      (∀ v, denoted = .ok v → s'.env = s.env.assign name v ∧ s'.env.get? name = some v) ∧
      (∀ e, denoted = .error e → s'.env = s.env) ∧
      ∀ content, denoted = .ok (.text content) →
        ∃ program' s'', Source.parse ⟨file, "write(" ++ name ++ ");"⟩ = .ok program' ∧
          Ends host limits program' s' (.ok ()) s'' ∧
          s''.sink.written = s.sink.written ++ (content ++ "\n").toUTF8 := by
  obtain ⟨literal, rfl, lexical, rfl⟩ := denotes.literal
  obtain ⟨a, b, c, d, parsed⟩ := parse_assignment isName file lexical
  have room : s.depth + 2 ≤ limits.maxDepth := by
    rw [idle.depth]
    exact deep
  obtain ⟨s', ended, depth, store⟩ :=
    ends_assignment host unlimited room idle.flushes name literal a b c d
  have sink : s'.sink = s.sink := by
    cases value : literal.value <;> rw [value] at store <;> exact congrArg Store.sink store
  have bound (v : Value) (value : literal.value = .ok v) : s'.env = s.env.assign name v := by
    rw [value] at store
    exact congrArg Store.env store
  refine ⟨_, s', parsed, ended, sink, fun v value => ⟨bound v value, ?_⟩, fun e value => ?_,
    fun content value => ?_⟩
  · rw [bound v value, Environment.get?_assign, if_pos rfl]
  · rw [value] at store
    exact congrArg Store.env store
  · obtain ⟨a', b', c', d', parsed'⟩ := parse_write isName file
    have builtin : s'.env.get? "write" = some (.native ⟨"write", .write⟩) := by
      rw [bound _ value, Environment.get?_assign, if_neg (Ne.symm notWrite)]
      exact idle.builtin
    have given : s'.env.get? name = some (.text content) := by
      rw [bound _ value, Environment.get?_assign, if_pos rfl]
    obtain ⟨s'', ended', written⟩ := ends_write host unlimited (by rwa [depth])
      (by rw [sink, idle.takes]) (by rw [sink, idle.flushes]) builtin given a' b' c' d'
    rw [sink] at written
    exact ⟨_, s'', parsed', ended', written⟩

/-- A text with a backslash, a comment, brackets, the other quotation mark and a newline. -/
def verbatim : String := "\\n // [((\x7b 'é\n"

/-- Nothing of it is interpreted between quotation marks. -/
theorem literal_denotes_verbatim :
    ∃ program s' program' s'',
      Source.parse ⟨"quoted", "x" ++ " = " ++ ("\"" ++ verbatim ++ "\"") ++ ";"⟩ = .ok program ∧
      Ends Catalogue.host {} program { host := [] } (.ok ()) s' ∧
      s'.env.get? "x" = some (.text verbatim) ∧
      Source.parse ⟨"quoted", "write(" ++ "x" ++ ");"⟩ = .ok program' ∧
      Ends Catalogue.host {} program' s' (.ok ()) s'' ∧
      s''.sink.written = (verbatim ++ "\n").toUTF8 := by
  have isName : IsName "x" := ⟨⟨'x', [], rfl, by decide, List.forall_mem_nil _⟩, by decide⟩
  obtain ⟨program, s', parsed, ended, _, bound, _, writes⟩ :=
    @literal_denotes _ Catalogue.host {} rfl (by decide) _ (State.idle_fresh []) "x" isName
      (by decide) _ _ (.double (s := verbatim) (by decide)) "quoted"
  obtain ⟨program', s'', parsed', ended', written⟩ := writes verbatim rfl
  exact ⟨program, s', program', s'', parsed, ended, (bound _ rfl).2, parsed', ended',
    written.trans ByteArray.empty_append⟩

end TinyScript
