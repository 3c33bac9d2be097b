import TinyScript.Proofs.Spreading

/-!
# The layout of what is read

Every rule of the grammar lays out the parts that it reads, and so a text that
is read has a layout of its program.  The spans of the program are those of the
regions in this layout.
-/

namespace TinyScript

namespace Precedence

variable {α : Type} {combine : α → BinOp → α → α}

/-- A pass leaves the operators of the other precedences. -/
theorem collapse_operators (level : Nat) (x : α) (links : List (BinOp × α)) :
    (collapse level combine x links).2.map Prod.fst =
      (links.map Prod.fst).filter (·.precedence ≠ level) := by
  induction links generalizing x with
  | nil => rfl
  | cons link links ih =>
      obtain ⟨op, y⟩ := link
      unfold collapse
      split
      · next same => rw [ih, List.map_cons, List.filter_cons_of_neg (by simpa using same)]
      · next other =>
          have kept : (List.map Prod.fst ((op, y) :: links)).filter (·.precedence ≠ level) =
              op :: (links.map Prod.fst).filter (·.precedence ≠ level) :=
            List.filter_cons_of_pos (by simpa using other)
          rw [kept, ← ih y]
          rfl

/-- Every operator has one of the three precedences, so three passes leave none. -/
theorem collapse_all (x : α) (links : List (BinOp × α)) :
    (collapse 0 combine (collapse 1 combine (collapse 2 combine x links).1
      (collapse 2 combine x links).2).1 (collapse 1 combine (collapse 2 combine x links).1
      (collapse 2 combine x links).2).2).2 = [] := by
  rw [← List.map_eq_nil_iff (f := Prod.fst), collapse_operators, collapse_operators,
    collapse_operators, List.filter_filter, List.filter_filter, List.filter_eq_nil_iff]
  intro op _
  cases op <;> decide

/-- What joining neighbours keeps is kept by a pass. -/
theorem collapse_joins (good : List α → Prop)
    (joins : ∀ before x op y behind, good (before ++ x :: y :: behind) →
      good (before ++ combine x op y :: behind))
    (level : Nat) (before : List α) {x : α} {links : List (BinOp × α)}
    (operands : good (before ++ x :: links.map Prod.snd)) :
    good (before ++ (collapse level combine x links).1 ::
      (collapse level combine x links).2.map Prod.snd) := by
  induction links generalizing before x with
  | nil => exact operands
  | cons link links ih =>
      obtain ⟨op, y⟩ := link
      unfold collapse
      split
      · exact ih before (joins before x op y _ operands)
      · have others : good ((before ++ [x]) ++ y :: links.map Prod.snd) := by
          rw [List.append_assoc]
          exact operands
        have collapsed := ih (before ++ [x]) others
        rw [List.append_assoc] at collapsed
        exact collapsed

/-- What joining neighbours keeps of a sequence of operands holds of their group alone. -/
theorem resolve_joins (good : List α → Prop)
    (joins : ∀ before x op y behind, good (before ++ x :: y :: behind) →
      good (before ++ combine x op y :: behind))
    {x : α} {links : List (BinOp × α)} (operands : good (x :: links.map Prod.snd)) :
    good [resolve combine x links] := by
  have products := collapse_joins good joins 2 [] operands
  have sums := collapse_joins good joins 1 [] products
  have comparisons := collapse_joins good joins 0 [] sums
  rw [collapse_all] at comparisons
  exact comparisons

end Precedence

namespace Grammar

open Recognizer

section

variable {source : Source} {closed : Bool} {c c' : Cursor}

theorem spread_token {t : Token} (leads : c.Leads t.text c') (lexical : t.Lexical)
    (notOpen : Nesting.opens t = false) (notClose : Nesting.closes t = false) :
    Spread source closed c c' [] := by
  have plain : Plain c'.rest.isEmpty ([] ++ (t.text ++ [])) :=
    .token .nil lexical notOpen notClose (.trivia .nil)
  rw [List.nil_append, List.append_nil] at plain
  exact .gap leads plain

theorem spread_leaf {part : Part} {t : Token} (leads : c.Leads t.text c') (lexical : t.Lexical)
    (notOpen : Nesting.opens t = false) (notClose : Nesting.closes t = false)
    (leaf : part.inner = []) (unbracketed : part.brackets? = none)
    (single : part.isBinary = false) (spelled : part.Spelled t.text)
    (span : ∀ span ∈ part.span?, span = c.mark.spanTo c'.mark) :
    Spread source closed c c' [part] := by
  have token : Spread source closed c c' part.inner :=
    leaf ▸ spread_token leads lexical notOpen notClose
  refine token.node unbracketed single (fun w other => ?_) span
  rw [other.unique leads]
  exact spelled

theorem spread_identifier {ident : Ident} (read : identifier.Reads c ident c') :
    Spread source closed c c' [.name ident] := by
  refine spread_leaf (t := .name ident.name) (leads_identifier read) (covers_identifier read).1
    rfl rfl rfl rfl rfl rfl ?_
  rintro _ ⟨⟩
  exact (reads_identifier.1 read).2.2

theorem spread_nameOperand {e : Expr} (read : nameOperand.Reads c e c') :
    Spread source closed c c' [.expr e] := by
  obtain ⟨ident, rfl, named⟩ := reads_nameOperand.1 read
  refine spread_leaf (t := .name ident.name) (leads_identifier named) (covers_identifier named).1
    rfl rfl rfl rfl rfl rfl ?_
  rintro _ ⟨⟩
  exact (reads_identifier.1 named).2.2

theorem spread_constant {e : Expr} (read : constant.Reads c e c') :
    Spread source closed c c' [.expr e] := by
  obtain ⟨literal, rfl, found, marked, _⟩ := reads_constant.1 read
  obtain ⟨lexical, split⟩ := isLexical_of_scan found
  refine spread_leaf (t := .literal literal) ⟨split, marked⟩ lexical rfl rfl rfl rfl rfl rfl ?_
  rintro _ ⟨⟩
  rfl

theorem spread_keyword {rule : Rule} {word found : String} (keyword : word ∈ Lexeme.keywords)
    (read : (token rule (Lexeme.word word)).Reads c found c') : Spread source closed c c' [] :=
  spread_token (t := .keyword word) (leads_word read) keyword rfl rfl

theorem spread_loopKeyword {rule : Rule} {word : String}
    (read : (token rule (Lexeme.oneOf ["while", "until"])).Reads c word c') :
    Spread source closed c c' [] := by
  obtain ⟨mem, leads⟩ := leads_loopKeyword read
  have keyword : word ∈ Lexeme.keywords := by
    simp only [List.mem_cons, List.not_mem_nil, or_false] at mem
    rcases mem with rfl | rfl <;> decide
  exact spread_token (t := .keyword word) leads keyword rfl rfl

theorem spread_mark {x : Char} (mem : x ∈ [',', ';', '=']) {u : Unit}
    (read : (symbol [x]).Reads c u c') : Spread source closed c c' [] := by
  have plain : x ∈ marks ∧ Nesting.opens (.mark x) = false ∧ Nesting.closes (.mark x) = false := by
    simp only [List.mem_cons, List.not_mem_nil, or_false] at mem
    rcases mem with rfl | rfl | rfl <;> decide
  exact spread_token (t := .mark x) (leads_symbol read) plain.1 plain.2.1 plain.2.2

theorem ahead_of_symbol {x : Char} {u : Unit} (read : (symbol [x]).Reads c u c') :
    c.rest ≠ [] := by
  rw [(leads_symbol read).1]
  exact List.cons_ne_nil _ _

end

/-- What is read is laid out between the cursors. -/
def Lays {α : Type} (source : Source) (closed : Bool) (p : Recognizer α) (parts : α → List Part) :
    Prop :=
  ∀ ⦃c c' : Cursor⦄ ⦃a : α⦄, p.Reads c a c' → Spread source closed c c' (parts a)

section

variable {α : Type} {source : Source} {closed : Bool} {p : Recognizer α} {parts : α → List Part}

theorem Lays.readsMore (lays : Lays source closed p parts) {c c' : Cursor} {as : List α}
    (read : ReadsMore p c as c') : Spread source closed c c' (as.flatMap parts) := by
  induction read with
  | done c => exact .refl c
  | @more c c₁ c' a as first others ih =>
      rw [List.flatMap_cons]
      exact (Spread.skip c).trans ((lays first).trans ih)

theorem Lays.many (lays : Lays source closed p parts) (bound : Nat) :
    Lays source closed (Recognizer.many bound p) fun as => as.flatMap parts := by
  intro c c' as read
  rcases read.of_many with ⟨rfl, rfl⟩ | ⟨a, others, c₁, rfl, first, more⟩
  · exact .refl _
  · exact (lays first).trans (lays.readsMore more)

/-- A repetition lays out one part for each value. -/
theorem Lays.items {part : α → Part} (lays : Lays source closed p fun a => [part a])
    (bound : Nat) : Lays source closed (Recognizer.many bound p) fun as => as.map part := by
  intro c c' as read
  dsimp only
  rw [List.map_eq_flatMap]
  exact lays.many bound read

end

section

variable {source : Source} {closed : Bool} {p : Recognizer Expr} {bound : Nat}

theorem lays_furtherArgument (lays : Lays source false p fun e => [.expr e]) :
    Lays source false (furtherArgument p) fun e => [.expr e] := by
  intro c c' e read
  obtain ⟨c₁, comma, read⟩ := reads_furtherArgument.1 read
  exact (spread_mark (by decide) comma).append (lays read)

theorem lays_arguments (lays : Lays source false p fun e => [.expr e]) :
    Lays source false (arguments p bound) fun args => args.map .expr := by
  intro c c' args read
  obtain ⟨first, others, c₁, rfl, read, more⟩ := reads_arguments.1 read
  exact (lays read).append ((lays_furtherArgument lays).items bound more)

/-- A call reads its name, and then its arguments in their brackets. -/
theorem lays_call (lays : Lays source false p fun e => [.expr e]) :
    Lays source closed (call p bound) fun a => [.name a.1, .args a.2.1] := by
  rintro c c' ⟨callee, args, span⟩ read
  obtain ⟨c₁, c₂, c₃, name, opened, given, shut, _⟩ := reads_call.1 read
  have inside : Spread source false c₂.skip c₃ (args.map .expr) := by
    rcases reads_withDefault.1 given with given | ⟨_, rfl, rfl⟩
    · exact lays_arguments lays given
    · exact .refl _
  have between : Spread source false c₂ c₃.skip (args.map .expr ++ []) :=
    (Spread.skip c₂).trans (inside.trans (.skip c₃))
  rw [List.append_nil] at between
  have brackets : Spread source closed c₁.skip c' [.args args] :=
    .bracketed rfl (leads_symbol opened) between (leads_symbol shut) fun _ none => nomatch none
  exact (spread_identifier name).append brackets

/-- The characters of a call begin with its name and end with a bracket. -/
theorem spelled_call (lays : Lays source false p fun e => [.expr e]) {c c' : Cursor}
    {callee : Ident} {args : List Expr} {span : Span}
    (read : (call p bound).Reads c (callee, args, span) c') :
    ∀ w, c.Leads w c' → ∃ middle, w = callee.name.toList ++ middle ++ [')'] := by
  intro w leads
  obtain ⟨c₁, c₂, c₃, name, opened, given, shut, _⟩ := reads_call.1 read
  have inside : ∃ u, c₂.skip.Leads u c₃ := by
    rcases reads_withDefault.1 given with given | ⟨_, rfl, rfl⟩
    · exact (lays_arguments lays given).leads
    · exact ⟨[], rfl, rfl⟩
  obtain ⟨u, inside⟩ := inside
  obtain ⟨u₁, first⟩ := c₁.leads_skip
  obtain ⟨u₂, second⟩ := c₂.leads_skip
  obtain ⟨u₃, third⟩ := c₃.leads_skip
  have whole := (leads_identifier name).trans (first.trans ((leads_symbol opened).trans
    (second.trans (inside.trans (third.trans (leads_symbol shut))))))
  rw [leads.unique whole]
  exact ⟨u₁ ++ (['('] ++ (u₂ ++ (u ++ u₃))), by simp⟩

theorem lays_callOperand (lays : Lays source false p fun e => [.expr e]) :
    Lays source closed (callOperand p bound) fun e => [.expr e] := by
  intro c c' e read
  obtain ⟨callee, args, span, rfl, called⟩ := reads_callOperand.1 read
  have inside : Spread source closed c c' (Part.expr (.call callee args span)).inner :=
    lays_call lays called
  refine inside.node rfl rfl (spelled_call lays called) ?_
  rintro _ ⟨⟩
  obtain ⟨_, _, _, _, _, _, _, rfl⟩ := reads_call.1 called
  rfl

theorem lays_paren (lays : Lays source false p fun e => [.expr e]) :
    Lays source closed (paren p) fun e => [.expr e] := by
  intro c c' e read
  obtain ⟨inner, c₁, c₂, rfl, opened, read, shut⟩ := reads_paren.1 read
  have inside : Spread source false c₁ c₂.skip [.expr inner] :=
    (Spread.skip c₁).trans ((lays read).trans (.skip c₂))
  refine .bracketed rfl (leads_symbol opened) inside (leads_symbol shut) ?_
  rintro _ ⟨⟩
  rfl

theorem lays_term (lays : Lays source false p fun e => [.expr e]) :
    Lays source closed (term p bound) fun e => [.expr e] := by
  intro c c' e read
  rcases reads_term.1 read with read | ⟨_, read | ⟨_, read | ⟨_, read⟩⟩⟩
  · exact spread_constant read
  · exact lays_callOperand lays read
  · exact spread_nameOperand read
  · exact lays_paren lays read

theorem lays_link (lays : Lays source false p fun e => [.expr e]) :
    Lays source closed (link p bound) fun link => [.expr link.2] := by
  rintro c c' ⟨op, e⟩ read
  obtain ⟨c₁, read, operand⟩ := reads_link.1 read
  have sign : Spread source closed c c₁ [] :=
    spread_token (t := .operator op) (leads_operator read) trivial rfl rfl
  exact sign.append (lays_term lays operand)

end

/-- The operands of an expression are read one behind the other, and then joined. -/
theorem lays_expression (source : Source) (bound : Nat) :
    Lays source false (expression bound) fun e => [.expr e] := by
  induction bound with
  | zero =>
      intro c c' e read
      exact absurd read not_reads_refuse
  | succ bound ih =>
      intro c c' e read
      obtain ⟨first, links, c₁, rfl, read, more⟩ := reads_expression.1 read
      have operands : Spread source false c c' ((first :: links.map Prod.snd).map .expr) := by
        rw [List.map_cons, List.map_map]
        exact (lays_term ih read).append ((lays_link ih).items bound more)
      refine Precedence.resolve_joins (fun es => Spread source false c c' (es.map .expr))
        (fun before x op y behind spread => ?_) operands
      rw [List.map_append, List.map_cons, List.map_cons] at spread
      rw [List.map_append, List.map_cons]
      exact spread.join x op y

theorem ahead_of_block {p : Recognizer Stmt} {bound : Nat} {c c' : Cursor} {b : Block}
    (read : (block p bound).Reads c b c') : c.rest ≠ [] := by
  obtain ⟨stmts, c₁, c₂, rfl, opened, _, _⟩ := reads_block.1 read
  exact ahead_of_symbol opened

section

variable {source : Source} {closed : Bool}

theorem lays_assignment (bound : Nat) :
    Lays source false (assignment bound) fun s => [.stmt s] := by
  intro c c' s read
  obtain ⟨target, value, c₁, c₂, rfl, name, sign, read⟩ := reads_assignment.1 read
  have inside : Spread source false c c' [.name target, .expr value] :=
    (spread_identifier name).append
      ((spread_mark (by decide) sign).append (lays_expression source bound read))
  refine inside.node rfl rfl (fun w leads _ none => nomatch none) ?_
  rintro _ ⟨⟩
  rfl

theorem lays_callStmt (bound : Nat) :
    Lays source closed (callStmt (expression bound) bound) fun s => [.stmt s] := by
  intro c c' s read
  have lays := lays_expression source bound
  obtain ⟨callee, args, span, rfl, called⟩ := reads_callStmt.1 read
  have inside : Spread source closed c c' (Part.stmt (.call callee args span)).inner :=
    lays_call lays called
  refine inside.node rfl rfl (spelled_call lays called) ?_
  rintro _ ⟨⟩
  obtain ⟨_, _, _, _, _, _, _, rfl⟩ := reads_call.1 called
  rfl

theorem lays_simpleStmt (bound : Nat) :
    Lays source closed (simpleStmt bound) fun s => [.stmt s] := by
  intro c c' s read
  obtain ⟨c₁, read, semicolon⟩ := reads_simpleStmt.1 read
  have stmt : Spread source false c c₁ [.stmt s] := by
    rcases read with read | ⟨_, read⟩
    · exact lays_assignment bound read
    · exact lays_callStmt bound read
  have ahead : c₁.rest ≠ [] :=
    (Spread.skip c₁ : Spread source false c₁ c₁.skip []).ahead (ahead_of_symbol semicolon)
  exact (stmt.close ahead).append (spread_mark (by decide) semicolon)

variable {p : Recognizer Stmt} {q : Recognizer Branch} {bound : Nat}

theorem lays_block (lays : Lays source false p fun s => [.stmt s]) :
    Lays source closed (block p bound) fun b => [.block b] := by
  intro c c' b read
  obtain ⟨stmts, c₁, c₂, rfl, opened, read, shut⟩ := reads_block.1 read
  have inside : Spread source false c₁ c₂.skip (stmts.map .stmt ++ []) :=
    (Spread.skip c₁).trans ((lays.items bound read).trans (.skip c₂))
  rw [List.append_nil] at inside
  refine .bracketed rfl (leads_symbol opened) inside (leads_symbol shut) ?_
  rintro _ ⟨⟩
  rfl

theorem lays_otherwise (lays : Lays source false p fun s => [.stmt s])
    (laysBranch : Lays source closed q fun b => [.branch b]) :
    Lays source closed (otherwise (block p bound) q) Otherwise.parts := by
  intro c c' o read
  rcases reads_otherwise.1 read with read | ⟨_, rfl, rfl⟩
  · obtain ⟨word, c₁, keyword, read⟩ := reads_alternative.1 read
    have word : Spread source closed c c₁ [] := spread_keyword (by decide) keyword
    rcases read with ⟨body, inner, rfl⟩ | ⟨_, b, inner, rfl⟩
    · exact word.append (lays_block lays inner)
    · exact word.append (laysBranch inner)
  · exact .refl _

theorem spread_guarded (lays : Lays source false p fun s => [.stmt s])
    (laysBranch : Lays source closed q fun b => [.branch b]) {c c₁ c₂ c₃ c' : Cursor}
    {condition : Expr} {body : Block} {other : Otherwise}
    (keyword : Spread source closed c c₁ [])
    (guard : (expression bound).Reads c₁.skip condition c₂)
    (read : (block p bound).Reads c₂.skip body c₃)
    (more : (otherwise (block p bound) q).Reads c₃.skip other c') :
    Spread source closed c c' (.expr condition :: .block body :: other.parts) := by
  have ahead : c₂.rest ≠ [] :=
    (Spread.skip c₂ : Spread source false c₂ c₂.skip []).ahead (ahead_of_block read)
  have guarded : Spread source closed c₁.skip c₂ [.expr condition] :=
    (lays_expression source bound guard).close ahead
  exact keyword.append (guarded.append
    ((lays_block lays read).append (lays_otherwise lays laysBranch more)))

theorem lays_branch (lays : Lays source false p fun s => [.stmt s]) (links : Nat) :
    Lays source closed (branch (block p bound) bound links) fun b => [.branch b] := by
  induction links with
  | zero =>
      intro c c' b read
      exact absurd read not_reads_refuse
  | succ links ih =>
      intro c c' b read
      obtain ⟨word, condition, body, other, c₁, c₂, c₃, rfl, keyword, guard, read, more⟩ :=
        reads_branch.1 read
      have inside : Spread source closed c c' (.expr condition :: .block body :: other.parts) :=
        spread_guarded lays ih (spread_keyword (by decide) keyword) guard read more
      refine inside.node rfl rfl (fun w leads _ none => nomatch none) ?_
      rintro _ ⟨⟩
      rfl

/-- A branch is marked with the place where it is read. -/
theorem span_of_branch {links : Nat} {c c' : Cursor} {b : Branch}
    (read : (branch (block p bound) bound links).Reads c b c') :
    b.span = c.mark.spanTo c'.mark := by
  cases links with
  | zero => exact absurd read not_reads_refuse
  | succ links =>
      obtain ⟨_, _, _, _, _, _, _, rfl, _⟩ := reads_branch.1 read
      rfl

theorem lays_loop (lays : Lays source false p fun s => [.stmt s]) :
    Lays source closed (loop (block p bound) bound) fun s => [.stmt s] := by
  intro c c' s read
  obtain ⟨word, condition, body, other, c₁, c₂, c₃, rfl, keyword, guard, read, more⟩ :=
    reads_loop.1 read
  have inside : Spread source closed c c' (.expr condition :: .block body :: other.parts) :=
    spread_guarded lays (lays_branch lays bound) (spread_loopKeyword keyword) guard read more
  refine inside.node rfl rfl (fun w leads _ none => nomatch none) ?_
  rintro _ ⟨⟩
  rfl

end

theorem lays_stmt (source : Source) (closed : Bool) (bound : Nat) :
    Lays source closed (stmt bound) fun s => [.stmt s] := by
  induction bound generalizing closed with
  | zero =>
      intro c c' s read
      exact absurd read not_reads_refuse
  | succ bound ih =>
      intro c c' s read
      rcases reads_stmt.1 read with simple | ⟨_, ⟨b, branched, rfl⟩ | ⟨_, looped⟩⟩
      · exact lays_simpleStmt bound simple
      · have inside : Spread source closed c c' [.branch b] :=
          lays_branch (ih false) bound branched
        refine inside.node rfl rfl (fun w leads _ none => nomatch none) ?_
        rintro _ ⟨⟩
        exact span_of_branch branched
      · exact lays_loop (ih false) looped

end Grammar

/-! ## Programs -/

/--
A text that is recognized has a layout of its program, and the spans of the
program are those of the regions in the layout if the text is not too long.
-/
theorem exists_layout {source : Source} {program : Program}
    (recognized : recognize source.text = .ok program) :
    ∃ layout : Layout, layout.Of program source.text.toList ∧
      (source.text.utf8ByteSize < UInt32.size → layout.Spans source) := by
  obtain ⟨_, matched⟩ := recognize_eq_ok_iff.1 recognized
  obtain ⟨c₁, read, atEnd, rfl, span⟩ := Grammar.reads_program.1 matched
  have found := (Grammar.lays_stmt source true _).items _ read
  have stmts := (Spread.skip (Cursor.ofText source.text)).trans (found.trans (.skip c₁))
  rw [List.nil_append, List.append_nil] at stmts
  have begins : (Cursor.ofText source.text).Within source.text.toList := .ofText source.text
  obtain ⟨w, leads⟩ := stmts.leads
  obtain ⟨front, split, stop, _⟩ := (begins.behind leads).split
  rw [atEnd, List.append_nil] at split
  have cuts := begins.cuts leads
  obtain ⟨ls, parts, sound, strewn, spans⟩ := stmts.laid begins
  rw [stop, ← split] at strewn cuts
  have fits : Fits source.text.toList (.program program) ⟨0, utf8Length source.text.toList⟩ ls :=
    .of_filled parts ⟨w, cuts, fun _ none => nomatch none⟩ (fun binary => nomatch binary) strewn
  refine ⟨.node (.program program) ⟨0, utf8Length source.text.toList⟩ ls,
    ⟨rfl, rfl, .node fits sound⟩, fun short => ?_⟩
  have spanned : program.span = source.span 0 (utf8Length source.text.toList) := by
    rw [span, Mark.spanTo, begins.position, (begins.behind leads).position, stop, ← split]
    rfl
  refine .node ?_ (spans short (.inl rfl))
  rintro _ ⟨⟩
  exact spanned

/--
Every node of a script that is read has the span of the bytes it takes.  These
bytes lie between characters of the text; each node takes bytes of the node
around it, and of nodes in one node the later ones take later bytes.
-/
theorem parse_lays_out {source : Source} {program : Program}
    (parsed : source.parse = .ok program) (short : source.text.utf8ByteSize < UInt32.size) :
    ∃ layout : Layout, layout.Of program source.text.toList ∧ layout.Spans source := by
  obtain ⟨_, recognized, _⟩ := ofText_eq_ok_iff.1 (parse_eq_ok_iff.1 parsed)
  obtain ⟨layout, laidOut, spans⟩ := exists_layout recognized
  exact ⟨layout, laidOut, spans short⟩

def commentedBranch : Source :=
  ⟨"commented", "// é\nif ( x+1 )*2 // (\n > \"ü\" \x7b f(y , 'é\n') ; \x7d" ++
    " else if z \x7b\x7d // \x7d"⟩

theorem parse_lays_out_commentedBranch :
    ∃ program, commentedBranch.parse = .ok program ∧
      commentedBranch.text.utf8ByteSize < UInt32.size ∧
      ∃ layout : Layout, layout.Of program commentedBranch.text.toList ∧
        layout.Spans commentedBranch := by
  have accepted : commentedBranch.parse.isOk = true := by decide +kernel
  have short : commentedBranch.text.utf8ByteSize < UInt32.size := by decide +kernel
  cases parsed : commentedBranch.parse with
  | error e =>
      rw [parsed] at accepted
      cases accepted
  | ok program => exact ⟨program, rfl, short, parse_lays_out parsed short⟩

end TinyScript
