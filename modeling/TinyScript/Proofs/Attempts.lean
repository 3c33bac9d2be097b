import TinyScript.Proofs.ParsingExpressions

/-!
# Failed attempts

Recognizing follows the grammar: the recognizer of a rule succeeds where a run
of the rule does, and the frontier that it reports is that of the log of the
run.  A syntax error therefore lies at the furthest place at which a rule was
tried and failed, and it lists rules that failed there.
-/

namespace TinyScript

/-- A place of a text is known by its offset. -/
theorem Cursor.Within.eq_of_offset {text : List Char} {c d : Cursor} (first : c.Within text)
    (second : d.Within text) (same : c.mark.offset = d.mark.offset) : c = d := by
  obtain ⟨front, split, marked⟩ := first
  obtain ⟨front', split', marked'⟩ := second
  rw [marked, marked', Mark.offset_advance, Mark.offset_advance, Nat.add_left_cancel_iff] at same
  obtain ⟨rfl, rest⟩ := append_inj_of_utf8Length (split.symm.trans split') same
  obtain ⟨mark, chars⟩ := c
  obtain ⟨mark', chars'⟩ := d
  cases marked
  cases marked'
  cases rest
  rfl

/-- A frontier reports some of the rules of a log that failed furthest into the text. -/
structure Frontier.Records (text : List Char) (log : List (Rule × Cursor)) (f : Frontier) :
    Prop where
  /-- All rules of the log were tried at places of the text. -/
  within : ∀ a ∈ log, a.2.Within text
  /-- The frontier lies at a place of the text. -/
  placed : ∃ d : Cursor, d.Within text ∧ d.mark = f.mark
  /-- No rule failed further into the text. -/
  furthest : ∀ a ∈ log, a.2.mark.offset ≤ f.mark.offset
  /-- The rules that are reported were tried at the frontier. -/
  tried : ∀ r ∈ f.rules, ∃ d, (r, d) ∈ log ∧ d.mark = f.mark
  /-- Where no rule is reported, none failed. -/
  silent : f.rules = [] → log = [] ∧ f.mark.offset = 0

namespace Frontier.Records

variable {text : List Char} {log log' : List (Rule × Cursor)} {f g : Frontier}

theorem none (text : List Char) : Records text [] Frontier.none where
  within := List.forall_mem_nil _
  placed := ⟨⟨Mark.origin, text⟩, ⟨[], rfl, rfl⟩, rfl⟩
  furthest := List.forall_mem_nil _
  tried := List.forall_mem_nil _
  silent _ := ⟨rfl, rfl⟩

theorem merge (first : Records text log f) (second : Records text log' g) :
    Records text (log ++ log') (f.merge g) := by
  have within : ∀ a ∈ log ++ log', a.2.Within text :=
    List.forall_mem_append.2 ⟨first.within, second.within⟩
  unfold Frontier.merge
  split
  · next further =>
      refine ⟨within, second.placed, List.forall_mem_append.2 ⟨?_, second.furthest⟩, ?_, ?_⟩
      · intro a mem
        exact Nat.le_trans (first.furthest a mem) (Nat.le_of_lt further)
      · intro r mem
        obtain ⟨d, mem, same⟩ := second.tried r mem
        exact ⟨d, List.mem_append_right _ mem, same⟩
      · intro none
        rw [(second.silent none).2] at further
        exact absurd further (Nat.not_lt_zero _)
  · split
    · next _ further =>
        refine ⟨within, first.placed, List.forall_mem_append.2 ⟨first.furthest, ?_⟩, ?_, ?_⟩
        · intro a mem
          exact Nat.le_trans (second.furthest a mem) (Nat.le_of_lt further)
        · intro r mem
          obtain ⟨d, mem, same⟩ := first.tried r mem
          exact ⟨d, List.mem_append_left _ mem, same⟩
        · intro none
          rw [(first.silent none).2] at further
          exact absurd further (Nat.not_lt_zero _)
    · next low high =>
        have same : f.mark.offset = g.mark.offset := by omega
        -- two places with one offset are one place
        have place : g.mark = f.mark := by
          obtain ⟨d, withinD, marked⟩ := first.placed
          obtain ⟨e, withinE, marked'⟩ := second.placed
          have equal : d = e := by
            refine withinD.eq_of_offset withinE ?_
            rw [marked, marked', same]
          rw [← marked, ← marked', equal]
        refine ⟨within, first.placed, List.forall_mem_append.2 ⟨first.furthest, ?_⟩, ?_, ?_⟩
        · intro a mem
          exact same ▸ second.furthest a mem
        · intro r mem
          rcases List.mem_append.1 mem with mem | mem
          · obtain ⟨d, mem, same⟩ := first.tried r mem
            exact ⟨d, List.mem_append_left _ mem, same⟩
          · obtain ⟨d, mem, same⟩ := second.tried r mem
            exact ⟨d, List.mem_append_right _ mem, same.trans place⟩
        · intro none
          obtain ⟨noneFirst, noneSecond⟩ := List.append_eq_nil_iff.1 none
          obtain ⟨rfl, start⟩ := first.silent noneFirst
          obtain ⟨rfl, _⟩ := second.silent noneSecond
          exact ⟨rfl, start⟩

theorem blame (records : Records text log f) {c : Cursor} (here : c.Within text) (rule : Rule) :
    Records text (log ++ [(rule, c)]) (f.blame rule c.mark) := by
  have within : ∀ a ∈ log ++ [(rule, c)], a.2.Within text :=
    List.forall_mem_append.2 ⟨records.within, List.forall_mem_singleton.2 here⟩
  have kept (reached : c.mark.offset ≤ f.mark.offset) (some : f.rules ≠ []) :
      Records text (log ++ [(rule, c)]) f := by
    refine ⟨within, records.placed, ?_, ?_, fun none => absurd none some⟩
    · exact List.forall_mem_append.2 ⟨records.furthest, List.forall_mem_singleton.2 reached⟩
    · intro r mem
      obtain ⟨d, mem, same⟩ := records.tried r mem
      exact ⟨d, List.mem_append_left _ mem, same⟩
  unfold Frontier.blame
  split
  · next further =>
      refine kept (Nat.le_of_lt further) fun none => ?_
      rw [(records.silent none).2] at further
      exact absurd further (Nat.not_lt_zero _)
  · next near =>
      split
      · next only =>
          refine kept (Nat.le_of_eq only.1.symm) fun none => ?_
          rw [none] at only
          cases only.2
      · refine ⟨within, ⟨c, here, rfl⟩, ?_, ?_, fun none => nomatch none⟩
        · refine List.forall_mem_append.2
            ⟨fun a mem => ?_, List.forall_mem_singleton.2 (Nat.le_refl _)⟩
          exact Nat.le_trans (records.furthest a mem) (Nat.not_lt.1 near)
        · exact List.forall_mem_singleton.2 ⟨c, by simp, rfl⟩

end Frontier.Records

/-! ## Recognizers of parsing expressions -/

/--
A reply is that of a run: the value ends where the run does, and the frontier is
that of what failed earlier and of the log of the run.
-/
def Reply.Realizes {α : Type} (reply : Reply α) (text : List Char)
    (earlier : List (Rule × Cursor)) (peg : Peg) (c : Cursor) : Prop :=
  ∃ log, Peg.Runs peg c (reply.result.map Prod.snd) log ∧
    Frontier.Records text (earlier ++ log) reply.frontier

namespace Grammar

open Recognizer Peg

/--
A recognizer realizes a parsing expression at all places of a text with fewer
than so many characters ahead if its replies are those of the runs there.
-/
def Realizes {α : Type} (text : List Char) (n : Nat) (p : Recognizer α) (peg : Peg) : Prop :=
  ∀ ⦃c : Cursor⦄, c.Within text → c.rest.length < n → (p c).Realizes text [] peg c

section

variable {α β : Type} {text : List Char} {n : Nat} {p : Recognizer α} {peg peg' : Peg}

theorem Realizes.mono {m : Nat} (realizes : Realizes text n p peg) (le : m ≤ n) :
    Realizes text m p peg :=
  fun _ within short => realizes within (Nat.lt_of_lt_of_le short le)

theorem realizes_zero (p : Recognizer α) (peg : Peg) : Realizes text 0 p peg :=
  fun _ _ impossible => absurd impossible (Nat.not_lt_zero _)

theorem realizes_pure (a : α) : Realizes text n (pure a) .empty :=
  fun c _ _ => ⟨[], .empty c, .none text⟩

theorem realizes_lexeme (terminal : Terminal) :
    Realizes text n (lexeme terminal.scan) (.terminal terminal) := by
  intro c _ _
  unfold lexeme
  cases found : terminal.scan c.rest with
  | none => exact ⟨[], .noToken found, .none text⟩
  | some r => exact ⟨[], .token found, .none text⟩

theorem realizes_ending :
    Realizes text n (fun c => if c.rest.isEmpty then ⟨some ((), c), .none⟩ else ⟨none, .none⟩)
      .ending := by
  intro c _ _
  dsimp only
  split
  · next atEnd => exact ⟨[], .ending (List.isEmpty_iff.1 atEnd), .none text⟩
  · next ahead => exact ⟨[], .noEnding (mt List.isEmpty_iff.2 ahead), .none text⟩

theorem Realizes.map (realizes : Realizes text n p peg) (f : α → β) :
    Realizes text n (p >>= fun a => pure (f a)) peg := by
  intro c within short
  obtain ⟨log, run, records⟩ := realizes within short
  change (Recognizer.bind p (fun a => pure (f a)) c).Realizes text [] peg c
  unfold Recognizer.bind
  cases reply : p c with
  | mk result frontier =>
      rw [reply] at run records
      cases result with
      | none => exact ⟨log, run, records⟩
      | some r =>
          refine ⟨log, run, ?_⟩
          rw [← List.append_nil log]
          exact records.merge (.none text)

theorem Realizes.spanned (realizes : Realizes text n p peg) :
    Realizes text n (spanned p) peg := by
  intro c within short
  obtain ⟨log, run, records⟩ := realizes within short
  unfold Recognizer.spanned
  cases reply : p c with
  | mk result frontier =>
      rw [reply] at run records
      cases result with
      | none => exact ⟨log, run, records⟩
      | some r => exact ⟨log, run, records⟩

theorem Realizes.expecting {rule : Rule} (realizes : Realizes text n p (body rule)) :
    Realizes text n (expecting rule p) (.rule rule) := by
  intro c within short
  obtain ⟨log, run, records⟩ := realizes within short
  unfold Recognizer.expecting
  cases reply : p c with
  | mk result frontier =>
      rw [reply] at run records
      cases result with
      | none => exact ⟨_, .ruleFails run, records.blame within rule⟩
      | some r => exact ⟨log, .rule run, records⟩

theorem Realizes.orElse {q : Recognizer α} (first : Realizes text n p peg)
    (second : Realizes text n q peg') : Realizes text n (p <|> q) (.alt peg peg') := by
  intro c within short
  obtain ⟨log, run, records⟩ := first within short
  change (Recognizer.orElse p (fun _ => q) c).Realizes text [] (.alt peg peg') c
  unfold Recognizer.orElse
  cases reply : p c with
  | mk result frontier =>
      rw [reply] at run records
      cases result with
      | some r => exact ⟨log, .first run, records⟩
      | none =>
          obtain ⟨log', run', records'⟩ := second within short
          exact ⟨_, .second run run', records.merge records'⟩

theorem Realizes.withDefault (realizes : Realizes text n p peg) (default : α) :
    Realizes text n (withDefault default p) (opt peg) :=
  realizes.orElse (realizes_pure default)

theorem realizes_seq {f : α → Recognizer β} {c : Cursor} (first : (p c).Realizes text [] peg c)
    (second : ∀ a c', p.Reads c a c' → (f a c'.skip).Realizes text [] peg' c'.skip) :
    ((p >>= fun a => trivia >>= fun _ => f a) c).Realizes text [] (.seq peg peg') c := by
  obtain ⟨log, run, records⟩ := first
  change (Recognizer.bind p _ c).Realizes text [] (.seq peg peg') c
  unfold Recognizer.bind
  cases reply : p c with
  | mk result frontier =>
      rw [reply] at run records
      cases result with
      | none => exact ⟨log, .seqFails run, records⟩
      | some r =>
          obtain ⟨a, c'⟩ := r
          obtain ⟨log', run', records'⟩ := second a c' (congrArg Reply.result reply)
          exact ⟨log ++ log', .seq run run', records.merge (.merge (.none text) records')⟩

/-- The cursor behind a value is a place of the text with fewer characters ahead. -/
theorem Realizes.reached (realizes : Realizes text n p peg) {c c' : Cursor} {a : α}
    (within : c.Within text) (short : c.rest.length < n) (read : p.Reads c a c') :
    c'.Within text ∧ c'.rest.length ≤ c.rest.length ∧
      (peg.solid = true → c'.rest.length < c.rest.length) := by
  obtain ⟨log, run, _⟩ := realizes within short
  rw [read] at run
  obtain ⟨w, leads⟩ := run.leads c' rfl
  exact ⟨within.behind leads, leads.length_le, fun solid => run.length_lt solid c' rfl⟩

theorem Realizes.seq {f : α → Recognizer β} (first : Realizes text n p peg)
    (second : ∀ a, Realizes text n (f a) peg') :
    Realizes text n (p >>= fun a => trivia >>= fun _ => f a) (.seq peg peg') := by
  intro c within short
  refine realizes_seq (first within short) fun a c' read => ?_
  obtain ⟨within', le, _⟩ := first.reached within short read
  have skipped := c'.skip_length_le
  exact second a within'.skip (by omega)

/-- Behind a solid expression fewer characters are ahead. -/
theorem Realizes.seqSolid {f : α → Recognizer β} (first : Realizes text (n + 1) p peg)
    (solid : peg.solid = true) (second : ∀ a, Realizes text n (f a) peg') :
    Realizes text (n + 1) (p >>= fun a => trivia >>= fun _ => f a) (.seq peg peg') := by
  intro c within short
  refine realizes_seq (first within short) fun a c' read => ?_
  obtain ⟨within', _, lt⟩ := first.reached within short read
  have skipped := c'.skip_length_le
  have shorter := lt solid
  exact second a within'.skip (by omega)

theorem Realizes.skip (realizes : Realizes text n p peg) :
    Realizes text n (trivia >>= fun _ => p) (.seq .empty peg) := by
  intro c within short
  have skipped := c.skip_length_le
  obtain ⟨log, run, records⟩ := realizes within.skip (by omega)
  exact ⟨log, .seq (.empty c) run, .merge (.none text) records⟩

theorem realizes_more (item : Realizes text n p peg) (solid : peg.solid = true) {bound : Nat}
    {found : List α} {frontier : Frontier} {log : List (Rule × Cursor)}
    (records : Frontier.Records text log frontier) {c : Cursor} (within : c.Within text)
    (short : c.rest.length < n) (enough : c.rest.length < bound) :
    (manyMore p bound found frontier c).Realizes text log (.more peg) c := by
  induction bound generalizing found frontier log c with
  | zero => exact absurd enough (Nat.not_lt_zero _)
  | succ bound ih =>
      obtain ⟨itemLog, run, itemRecords⟩ := item.skip within short
      unfold manyMore
      split
      · next f reply =>
          rw [reply] at run itemRecords
          exact ⟨itemLog, .moreNone run.of_skip, records.merge itemRecords⟩
      · next a c' f reply =>
          rw [reply] at run itemRecords
          have taken : p.Reads c.skip a c' := reads_trivia_bind.1 (congrArg Reply.result reply)
          have skipped := c.skip_length_le
          obtain ⟨within', _, lt⟩ := item.reached within.skip (by omega) taken
          have shorter := lt solid
          obtain ⟨log', others, othersRecords⟩ := @ih (a :: found) (frontier.merge f)
            (log ++ itemLog) (records.merge itemRecords) c' within' (by omega) (by omega)
          refine ⟨itemLog ++ log', .more run.of_skip others, ?_⟩
          rw [← List.append_assoc]
          exact othersRecords

/-- Items that each take a character are never too many. -/
theorem Realizes.many (item : Realizes text n p peg) (solid : peg.solid = true) {bound : Nat}
    (enough : n ≤ bound + 1) : Realizes text n (many bound p) (.many peg) := by
  intro c within short
  obtain ⟨log, run, records⟩ := item within short
  unfold Recognizer.many
  split
  · next f reply =>
      rw [reply] at run records
      exact ⟨log, .manyNone run, records⟩
  · next a c' f reply =>
      rw [reply] at run records
      obtain ⟨within', _, lt⟩ := item.reached within short (congrArg Reply.result reply)
      have shorter := lt solid
      obtain ⟨log', others, joined⟩ :
          (manyMore p bound [a] f c').Realizes text log (.more peg) c' :=
        realizes_more item solid records within' (by omega) (by omega)
      exact ⟨log ++ log', .many run others, joined⟩

end

section

variable {text : List Char} {n : Nat}

theorem realizes_token {rule : Rule} (terminal : Terminal)
    (same : body rule = .terminal terminal) :
    Realizes text n (token rule terminal.scan) (.rule rule) := by
  refine Realizes.expecting ?_
  rw [same]
  exact realizes_lexeme terminal

theorem realizes_symbol (x : Char) : Realizes text n (symbol [x]) (mark x) :=
  (realizes_lexeme (.mark x)).map fun _ => ()

theorem realizes_identifier : Realizes text n identifier (.rule .identifier) := by
  unfold identifier
  exact Realizes.map (Realizes.spanned (realizes_token .name rfl)) _

theorem realizes_constant : Realizes text n constant (.rule .constant) := by
  have null : Realizes text n (token .null (Lexeme.word "null")) (.rule .null) := by
    rw [Lexeme.word_eq_oneOf]
    exact realizes_token (.literal .null) rfl
  unfold constant
  refine Realizes.map (Realizes.spanned (Realizes.expecting ?_)) _
  exact Realizes.orElse ((realizes_token (.literal .float) rfl).map (Literal.mk .float)) <|
    Realizes.orElse ((realizes_token (.literal .integer) rfl).map (Literal.mk .integer)) <|
    Realizes.orElse ((realizes_token (.literal .text) rfl).map (Literal.mk .text)) <|
    Realizes.orElse ((realizes_token (.literal .boolean) rfl).map (Literal.mk .boolean)) <|
    null.map (Literal.mk .null)

theorem realizes_operatorOf {rule : Rule} {op : BinOp}
    (same : body rule = .terminal (.operator op)) :
    Realizes text n (operatorOf rule op) (.rule rule) := by
  refine Realizes.expecting ?_
  rw [same]
  exact ((realizes_lexeme (.operator op)).map fun _ => ()).map fun _ => op

theorem realizes_operator : Realizes text n operator anyOperator :=
  (realizes_operatorOf rfl).orElse <| (realizes_operatorOf rfl).orElse <|
    (realizes_operatorOf rfl).orElse <| (realizes_operatorOf rfl).orElse <|
    (realizes_operatorOf rfl).orElse <| (realizes_operatorOf rfl).orElse (realizes_operatorOf rfl)

section

variable {p : Recognizer Expr} {bound : Nat}
  (realizes : Realizes text bound p (.rule .expression))

include realizes

theorem realizes_arguments : Realizes text bound (arguments p bound) Peg.arguments := by
  have further : Realizes text bound (furtherArgument p) (.seq (mark ',') (.rule .expression)) :=
    (realizes_symbol ',').seq fun _ => realizes
  exact realizes.seq fun first => (further.many rfl (Nat.le_succ bound)).map fun others =>
    first :: others

theorem realizes_call : Realizes text (bound + 1) (call p bound) (.rule .call) := by
  unfold call
  refine Realizes.map (Realizes.spanned (Realizes.expecting ?_)) _
  refine realizes_identifier.seqSolid rfl fun callee => (realizes_symbol '(').seq fun _ => ?_
  exact ((realizes_arguments realizes).withDefault []).seq fun args =>
    (realizes_symbol ')').map fun _ => (callee, args)

theorem realizes_paren : Realizes text (bound + 1) (paren p) (.rule .paren) := by
  unfold paren
  refine Realizes.map (Realizes.spanned (Realizes.expecting ?_)) _
  refine (realizes_symbol '(').seqSolid rfl fun _ => ?_
  exact realizes.seq fun inner => (realizes_symbol ')').map fun _ => inner

theorem realizes_term : Realizes text (bound + 1) (term p bound) operand := by
  have call := (realizes_call realizes).map fun r => Expr.call r.1 r.2.1 r.2.2
  have name : Realizes text (bound + 1) _ (.rule .identifier) :=
    realizes_identifier.map fun ident => Expr.ident ident.name ident.span
  exact realizes_constant.orElse (call.orElse (name.orElse (realizes_paren realizes)))

theorem realizes_link :
    Realizes text (bound + 1) (link p bound) (.seq anyOperator operand) :=
  realizes_operator.seq fun op => (realizes_term realizes).map fun e => (op, e)

end

theorem realizes_expression (bound : Nat) :
    Realizes text bound (expression bound) (.rule .expression) := by
  induction bound with
  | zero => exact realizes_zero _ _
  | succ bound ih =>
      have links := ((realizes_link ih).mono (Nat.le_succ bound)).many rfl (Nat.le_succ bound)
      refine Realizes.expecting ((realizes_term ih).seqSolid rfl fun first => ?_)
      exact links.map fun links => Precedence.resolve Expr.binary first links

theorem realizes_assignment (bound : Nat) :
    Realizes text (bound + 1) (assignment bound) (.rule .assignment) := by
  unfold assignment
  refine Realizes.map (Realizes.spanned (Realizes.expecting ?_)) _
  refine realizes_identifier.seqSolid rfl fun target => (realizes_symbol '=').seq fun _ => ?_
  exact (realizes_expression bound).map fun value => (target, value)

theorem realizes_simpleStmt (bound : Nat) :
    Realizes text (bound + 1) (simpleStmt bound) simple := by
  have call : Realizes text (bound + 1) _ (.rule .call) :=
    (realizes_call (realizes_expression bound)).map fun r => Stmt.call r.1 r.2.1 r.2.2
  exact ((realizes_assignment bound).orElse call).seq fun s => (realizes_symbol ';').map fun _ => s

theorem realizes_block {p : Recognizer Stmt} {m bound : Nat} (realizes : Realizes text m p line)
    (le : m ≤ bound) : Realizes text (m + 1) (block p bound) (.rule .block) := by
  unfold block
  refine Realizes.map (Realizes.spanned (Realizes.expecting ?_)) _
  refine (realizes_symbol '\x7b').seqSolid rfl fun _ => ?_
  exact (realizes.many rfl (Nat.le_succ_of_le le)).seq fun stmts =>
    (realizes_symbol '\x7d').map fun _ => stmts

section

variable {p : Recognizer Block} {q : Recognizer Branch}

theorem realizes_otherwise (block : Realizes text n p (.rule .block))
    (branch : Realizes text n q (.rule .branch)) :
    Realizes text (n + 1) (otherwise p q)
      (opt (.seq (.rule .elseKeyword) (.rule .alternative))) := by
  refine Realizes.withDefault ?_ Otherwise.nothing
  have word : Realizes text (n + 1) (token .elseKeyword (Lexeme.word "else"))
    (.rule .elseKeyword) := realizes_token .elseWord rfl
  refine word.seqSolid rfl fun _ => Realizes.expecting ?_
  exact (block.map Otherwise.block).orElse (branch.map Otherwise.branch)

theorem realizes_guarded {α : Type} {bound : Nat} {other : Recognizer Otherwise} (le : n ≤ bound)
    (block : Realizes text n p (.rule .block))
    (others : Realizes text n other (opt (.seq (.rule .elseKeyword) (.rule .alternative))))
    (f : Expr → Block → Otherwise → α) :
    Realizes text n (do
      let condition ← expression bound
      trivia
      let body ← p
      trivia
      let other ← other
      return f condition body other) guarded :=
  ((realizes_expression bound).mono le).seq fun condition =>
    block.seq fun body => others.map fun other => f condition body other

/-- The keyword and, if there is an alternative, the keyword of it each take a character. -/
theorem realizes_branch {bound links : Nat} (le : links < bound)
    (block : Realizes text bound p (.rule .block))
    (further : Realizes text links (branch p bound links) (.rule .branch)) :
    Realizes text (links + 2) (branch p bound (links + 1)) (.rule .branch) := by
  have word : Realizes text (links + 2) (token .ifKeyword (Lexeme.word "if"))
    (.rule .ifKeyword) := realizes_token .ifWord rfl
  have others := realizes_otherwise (block.mono (Nat.le_of_lt le)) further
  rw [branch]
  refine Realizes.map (Realizes.spanned (Realizes.expecting ?_)) _
  exact word.seqSolid rfl fun _ => realizes_guarded le (block.mono le) others _

/-- Every branch of a chain takes a character at least, so that the chain is read to its end. -/
theorem realizes_branches {bound links : Nat} (le : links ≤ bound)
    (block : Realizes text bound p (.rule .block)) :
    Realizes text links (branch p bound links) (.rule .branch) := by
  induction links with
  | zero => exact realizes_zero _ _
  | succ links ih => exact (realizes_branch le block (ih (Nat.le_of_lt le))).mono (by omega)

theorem realizes_loop {bound : Nat} (block : Realizes text (bound + 1) p (.rule .block)) :
    Realizes text (bound + 2) (loop p (bound + 1)) (.rule .loop) := by
  have word : Realizes text (bound + 2) (token .loopKeyword (Lexeme.oneOf ["while", "until"]))
    (.rule .loopKeyword) := realizes_token .loopWord rfl
  have branches := realizes_branches (Nat.le_refl (bound + 1)) block
  have others := realizes_otherwise (block.mono (Nat.le_succ bound))
    (branches.mono (Nat.le_succ bound))
  unfold loop
  refine Realizes.map (Realizes.spanned (Realizes.expecting ?_)) _
  exact word.seqSolid rfl fun _ => realizes_guarded (Nat.le_refl _) block others _

end

/-- With a bound of one, branches are refused before they are tried. -/
theorem realizes_stmt (bound : Nat) :
    Realizes text (bound + 2) (stmt (bound + 2)) line := by
  have step (bound : Nat)
      (block : Realizes text (bound + 1) (block (stmt (bound + 1)) (bound + 1)) (.rule .block)) :
      Realizes text (bound + 2) (stmt (bound + 2)) line := by
    have further := realizes_branches (Nat.le_succ bound) block
    have branch := (realizes_branch (Nat.lt_succ_self bound) block further).map Stmt.branch
    exact (realizes_simpleStmt (bound + 1)).orElse (branch.orElse (realizes_loop block))
  induction bound with
  | zero => exact step 0 (realizes_block (realizes_zero _ _) (Nat.zero_le 1))
  | succ bound ih =>
      exact step (bound + 1) ((realizes_block ih (Nat.le_refl _)).mono (Nat.le_succ _))

theorem realizes_program (bound : Nat) :
    Realizes text (bound + 2) (program (bound + 2)) (.rule .program) := by
  have ending : Realizes text (bound + 2) endOfInput (.rule .endOfInput) :=
    Realizes.expecting realizes_ending
  unfold program
  refine Realizes.map (Realizes.spanned (Realizes.expecting (Realizes.skip ?_))) _
  exact ((realizes_stmt bound).many rfl (Nat.le_succ _)).seq fun stmts =>
    ending.map fun _ => stmts

end

end Grammar

/-! ## Syntax errors -/

open Peg

/-- The grammar matches a text. -/
def Grammatical (text : String) : Prop := ∃ c, Matches (.rule .program) (.ofText text) c

/-- The recognizer for whole texts follows the run of the grammar. -/
theorem recognize_spec (text : String) :
    (∃ program, recognize text = .ok program) ∧ Grammatical text ∨
      ∃ frontier log, recognize text = .error frontier ∧
        Runs (.rule .program) (.ofText text) none log ∧
        Frontier.Records text.toList log frontier := by
  have within := Cursor.Within.ofText text
  cases chars : text.toList with
  | nil =>
      -- the bound that is used for the empty text is too small to follow the grammar
      obtain rfl : text = "" := String.toList_inj.1 chars
      obtain ⟨log, run, _⟩ := Grammar.realizes_program 0 within Nat.two_pos
      exact .inl ⟨⟨_, rfl⟩, _, log, run⟩
  | cons x rest =>
      have short : (Cursor.ofText text).rest.length < rest.length + 2 := by
        rw [Cursor.ofText, chars]
        exact Nat.lt_succ_self _
      obtain ⟨log, run, records⟩ := Grammar.realizes_program rest.length within short
      have bound : (Cursor.ofText text).rest.length + 1 = rest.length + 2 := by
        rw [Cursor.ofText, chars, List.length_cons]
      unfold recognize
      simp only [bound]
      split
      · next program c frontier reply =>
          rw [reply] at run
          exact .inl ⟨⟨program, rfl⟩, c, log, run⟩
      · next frontier reply =>
          rw [reply] at run records
          exact .inr ⟨frontier, log, rfl, run, chars ▸ records⟩

/-- The texts that are recognized are those that the grammar matches. -/
theorem grammatical_iff {text : String} :
    Grammatical text ↔ ∃ program, recognize text = .ok program := by
  rcases recognize_spec text with ⟨recognized, matched⟩ | ⟨frontier, log, failed, run, _⟩
  · exact iff_of_true matched recognized
  · refine iff_of_false ?_ ?_
    · rintro ⟨c, _, matched⟩
      cases (run.unique matched).1
    · rintro ⟨program, recognized⟩
      cases failed.symm.trans recognized

theorem not_grammatical_of_refused {text : String} (refused : (recognize text).isOk = false) :
    ¬ Grammatical text := by
  intro matched
  obtain ⟨program, recognized⟩ := grammatical_iff.1 matched
  rw [recognized] at refused
  cases refused

/-- A text that the grammar does not match is refused with what was expected. -/
theorem parse_of_unrecognized {source : Source} {frontier : Frontier}
    (shallow : Nesting.tooDeep? source.text.toList = none)
    (failed : recognize source.text = .error frontier) :
    Program.ofText source.text = .error (.expected frontier) ∧
      source.parse = .error
        (.report source (Fault.expected frontier).message (.point frontier.mark.position)) := by
  have refused : Program.ofText source.text = .error (.expected frontier) := by
    unfold Program.ofText
    rw [shallow, failed]
    rfl
  refine ⟨refused, ?_⟩
  unfold Source.parse
  rw [refused]
  rfl

theorem Rule.mem_all (r : Rule) : r ∈ Rule.all := by
  cases r <;> decide

namespace Frontier

theorem mem_expected {f : Frontier} {r : Rule} : r ∈ f.expected ↔ r ∈ f.rules := by
  simp [expected, Rule.mem_all]

/-- What is expected is listed in the order of the grammar. -/
theorem expected_increasing (f : Frontier) :
    f.expected.Pairwise fun r s => Rule.all.idxOf r < Rule.all.idxOf s := by
  have increasing : Rule.all.Pairwise fun r s => Rule.all.idxOf r < Rule.all.idxOf s := by decide
  exact increasing.sublist List.filter_sublist

/-- Where something failed, all that is expected failed at one place. -/
theorem Records.exists_place {text : List Char} {log : List (Rule × Cursor)} {f : Frontier}
    (records : Records text log f) (failed : log ≠ []) :
    ∃ c : Cursor, c.Within text ∧ c.mark = f.mark ∧ f.expected ≠ [] ∧
      ∀ r ∈ f.expected, (r, c) ∈ log := by
  obtain ⟨r, mem⟩ := List.exists_mem_of_ne_nil _ fun none => failed (records.silent none).1
  obtain ⟨c, mem', marked⟩ := records.tried r mem
  refine ⟨c, records.within _ mem', marked, List.ne_nil_of_mem (mem_expected.2 mem), ?_⟩
  intro s memS
  obtain ⟨d, memD, marked'⟩ := records.tried s (mem_expected.1 memS)
  have same : d = c := by
    refine (records.within _ memD).eq_of_offset (records.within _ mem') ?_
    rw [marked, marked']
  exact same ▸ memD

end Frontier

theorem Peg.Runs.log_ne_nil {r : Rule} {c : Cursor} {log : List (Rule × Cursor)}
    (run : Runs (.rule r) c none log) : log ≠ [] := by
  cases run with
  | ruleFails failed => exact List.append_ne_nil_of_right_ne_nil _ (List.cons_ne_nil _ _)

/-- A text that the grammar does not match is refused where the rules that are expected failed. -/
theorem exists_syntaxError {source : Source}
    (shallow : Nesting.tooDeep? source.text.toList = none)
    (unmatched : ¬ Grammatical source.text) :
    ∃ (frontier : Frontier) (log : List (Rule × Cursor)) (c : Cursor),
      (Program.ofText source.text = .error (.expected frontier) ∧
        source.parse = .error (.report source (Fault.expected frontier).message
          (.point (source.position frontier.mark.offset)))) ∧
      Runs (.rule .program) (.ofText source.text) none log ∧
      Frontier.Records source.text.toList log frontier ∧
      c.Within source.text.toList ∧ c.mark = frontier.mark ∧ frontier.expected ≠ [] ∧
      ∀ r ∈ frontier.expected, (r, c) ∈ log := by
  rcases recognize_spec source.text with ⟨_, matched⟩ | ⟨frontier, log, failed, run, records⟩
  · exact absurd matched unmatched
  · obtain ⟨c, within, marked, some, tried⟩ := records.exists_place run.log_ne_nil
    have refused := parse_of_unrecognized shallow failed
    rw [← marked, within.position, marked] at refused
    exact ⟨frontier, log, c, refused, run, records, within, marked, some, tried⟩

def Rule.untracked : List String :=
  ["WHITESPACE", "COMMENT", "line", "statement", "term", "infix", "ident_char", "keyword"]

theorem Rule.name_not_untracked (r : Rule) : r.name ∉ Rule.untracked := by
  cases r <;> simp [Rule.name, Rule.untracked]

/--
A text that the grammar does not match is refused with the rules that were
expected.  There is at least one, they are listed in the order of the grammar,
and none of them is silent.  In the run of the grammar all of them failed at the
place that is reported, none of them matches there, and no rule failed further
into the text.
-/
theorem expected_sound {source : Source}
    (shallow : Nesting.tooDeep? source.text.toList = none)
    (unmatched : ¬ Grammatical source.text) :
    ∃ (frontier : Frontier) (log : List (Rule × Cursor)) (c : Cursor),
      Program.ofText source.text = .error (.expected frontier) ∧
      source.parse = .error (.report source
        ("expected " ++ alternatives (frontier.expected.map Rule.name))
        (.point (source.position frontier.mark.offset))) ∧
      Runs (.rule .program) (.ofText source.text) none log ∧
      c.Within source.text.toList ∧ c.mark = frontier.mark ∧
      frontier.expected ≠ [] ∧
      frontier.expected.Pairwise (fun r s => Rule.all.idxOf r < Rule.all.idxOf s) ∧
      (∀ r ∈ frontier.expected, r.name ∉ Rule.untracked ∧ (r, c) ∈ log ∧
        ∀ c', ¬ Matches (.rule r) c c') ∧
      ∀ a ∈ log, a.2.mark.offset ≤ frontier.mark.offset := by
  obtain ⟨frontier, log, c, ⟨refused, reported⟩, run, records, within, marked, some, tried⟩ :=
    exists_syntaxError shallow unmatched
  refine ⟨frontier, log, c, refused, reported, run, within, marked, some,
    frontier.expected_increasing, fun r mem => ⟨r.name_not_untracked, tried r mem, ?_⟩,
    records.furthest⟩
  exact fun c' => run.not_matches (tried r mem)

def danglingOperator : Source := ⟨"dangling", "x = 1 + // é\n ;"⟩

/-- In front of the semicolon operands were expected. -/
theorem expected_sound_danglingOperator :
    ∃ (frontier : Frontier) (log : List (Rule × Cursor)) (c : Cursor),
      Nesting.tooDeep? danglingOperator.text.toList = none ∧
      ¬ Grammatical danglingOperator.text ∧
      Program.ofText danglingOperator.text = .error (.expected frontier) ∧
      Runs (.rule .program) (.ofText danglingOperator.text) none log ∧
      frontier.expected = [.paren, .constant, .identifier] ∧ frontier.mark.offset = 15 ∧
      ∀ r ∈ frontier.expected, (r, c) ∈ log ∧ ∀ c', ¬ Matches (.rule r) c c' := by
  have shallow : Nesting.tooDeep? danglingOperator.text.toList = none := by decide +kernel
  have unmatched : ¬ Grammatical danglingOperator.text :=
    not_grammatical_of_refused (by decide +kernel)
  obtain ⟨frontier, log, c, failed, _, run, _, _, _, _, tried, _⟩ :=
    @expected_sound danglingOperator shallow unmatched
  have computed : (match Program.ofText danglingOperator.text with
      | .error (.expected frontier) => (frontier.expected, frontier.mark.offset)
      | _ => ([], 0)) = ([.paren, .constant, .identifier], 15) := by
    decide +kernel
  rw [failed] at computed
  obtain ⟨expected, offset⟩ := Prod.mk.inj computed
  exact ⟨frontier, log, c, shallow, unmatched, failed, run, expected, offset,
    fun r mem => (tried r mem).2⟩

end TinyScript
