import TinyScript.Proofs.Tracing

/-!
# Nodes that stand too high

Measuring a program goes over its expressions in postorder, operands before the
node above them and left before right, and stops at the first node that is
taller than allowed.  The depth error of a script is the error of this node: it
has the region of the node and quotes the line where the node begins.
-/

namespace TinyScript

mutual

/-- The nodes of an expression, operands in front of the node above them. -/
def Expr.postorder : Expr → List Expr
  | .const literal span => [.const literal span]
  | .ident name span => [.ident name span]
  | .call callee args span => postorderAll args ++ [.call callee args span]
  | .additive left op right span =>
      left.postorder ++ (right.postorder ++ [.additive left op right span])
  | .comparison left op right span =>
      left.postorder ++ (right.postorder ++ [.comparison left op right span])
  | .paren inner span => inner.postorder ++ [.paren inner span]

def postorderAll : List Expr → List Expr
  | [] => []
  | e :: es => e.postorder ++ postorderAll es

end

mutual

/-- The nodes of the expressions of a statement; a call that is a statement is none of them. -/
def Stmt.postorder : Stmt → List Expr
  | .assign _ value _ => value.postorder
  | .call _ args _ => postorderAll args
  | .loop _ condition body otherwise _ =>
      condition.postorder ++ (body.postorder ++ otherwise.postorder)
  | .branch b => b.postorder

def Block.postorder : Block → List Expr
  | .mk stmts _ => stmtPostorder stmts

def Branch.postorder : Branch → List Expr
  | .mk condition body otherwise _ =>
      condition.postorder ++ (body.postorder ++ otherwise.postorder)

def Otherwise.postorder : Otherwise → List Expr
  | .nothing => []
  | .block body => body.postorder
  | .branch b => b.postorder

def stmtPostorder : List Stmt → List Expr
  | [] => []
  | s :: ss => s.postorder ++ stmtPostorder ss

end

def Program.postorder (program : Program) : List Expr := stmtPostorder program.stmts

/-- The first of several nodes that is too tall. -/
def tooTall? (nodes : List Expr) : Option Expr := nodes.find? (maxHeight < ·.height)

@[simp]
theorem tooTall?_append (first second : List Expr) :
    tooTall? (first ++ second) = (tooTall? first).or (tooTall? second) :=
  List.find?_append

theorem tooTall?_eq_none_iff {nodes : List Expr} :
    tooTall? nodes = none ↔ ∀ n ∈ nodes, n.height ≤ 256 := by
  rw [tooTall?, List.find?_eq_none]
  simp only [decide_eq_true_eq, Nat.not_lt]
  exact Iff.rfl

/-- The first node that is too tall stands behind nodes that are not. -/
theorem tooTall?_eq_some_iff {nodes : List Expr} {node : Expr} :
    tooTall? nodes = some node ↔ 256 < node.height ∧
      ∃ before behind, nodes = before ++ node :: behind ∧ ∀ n ∈ before, n.height ≤ 256 := by
  rw [tooTall?, List.find?_eq_some_iff_append]
  simp only [decide_eq_true_eq, Bool.not_eq_true', decide_eq_false_iff_not, Nat.not_lt]
  exact Iff.rfl

/-- A measure is taken unless a node was found to be too tall. -/
def measured {α : Type} (found : Option Expr) (a : α) : Except Span α :=
  match found with
  | some node => .error node.span
  | none => .ok a

/-- Of two measures one after the other, the first one that fails decides. -/
theorem measured_bind {α β : Type} {first second : Option Expr} {a : α} {b : β}
    {f : α → Except Span β} (next : f a = measured second b) :
    measured first a >>= f = measured (first.or second) b := by
  cases first with
  | some node => rfl
  | none => exact next

/-- A node is measured by standing one level above what is below it. -/
theorem levelAbove_eq (node : Expr) {below : Nat} (height : node.height = below + 1) :
    levelAbove below node.span = measured (tooTall? [node]) node.height := by
  rw [levelAbove, tooTall?, List.find?_singleton, height]
  by_cases tall : maxHeight ≤ below
  · rw [if_pos tall, if_pos (by simpa using Nat.lt_succ_of_le tall)]
    rfl
  · rw [if_neg tall, if_neg (by simpa using Nat.succ_le_of_lt (Nat.not_le.1 tall))]
    rfl

/-- A node over two operands is measured after both of them. -/
theorem measured_operands (node : Expr) {left right : Except Span Nat} {l r : Option Expr}
    {m n : Nat} (first : left = measured l m) (second : right = measured r n)
    (height : node.height = max m n + 1) :
    (do let a ← left; let b ← right; levelAbove (max a b) node.span) =
      measured (l.or (r.or (tooTall? [node]))) node.height := by
  rw [first, second]
  exact measured_bind (measured_bind (levelAbove_eq node height))

mutual

theorem Expr.measure_eq : (e : Expr) → e.measure = measured (tooTall? e.postorder) e.height
  | .const literal span => rfl
  | .ident name span => rfl
  | .call callee args span => by
      rw [Expr.measure, measureAll_eq args, Expr.postorder, tooTall?_append]
      exact measured_bind (levelAbove_eq (.call callee args span) rfl)
  | .additive left op right span => by
      rw [Expr.measure, Expr.postorder, tooTall?_append, tooTall?_append]
      exact measured_operands (.additive left op right span) left.measure_eq right.measure_eq rfl
  | .comparison left op right span => by
      rw [Expr.measure, Expr.postorder, tooTall?_append, tooTall?_append]
      exact measured_operands (.comparison left op right span) left.measure_eq right.measure_eq rfl
  | .paren inner span => by
      rw [Expr.measure, inner.measure_eq, Expr.postorder, tooTall?_append]
      exact measured_bind (levelAbove_eq (.paren inner span) rfl)

theorem measureAll_eq : (es : List Expr) →
    measureAll es = measured (tooTall? (postorderAll es)) (tallest es)
  | [] => rfl
  | e :: es => by
      rw [measureAll, e.measure_eq, measureAll_eq es, postorderAll, tooTall?_append]
      refine measured_bind ?_
      cases tooTall? (postorderAll es) <;> rfl

end

/-- Without its result a measure only says whether a node is too tall. -/
theorem discard_measured {α : Type} (found : Option Expr) (a : α) :
    discard (measured found a) = measured found () := by
  cases found <;> rfl

theorem measured_guarded {condition : Expr} {body other : Except Span Unit} {b o : Option Expr}
    (second : body = measured b ()) (third : other = measured o ()) :
    (do discard condition.measure; body; other) =
      measured ((tooTall? condition.postorder).or (b.or o)) () := by
  rw [condition.measure_eq, discard_measured, second, third]
  exact measured_bind (measured_bind rfl)

mutual

theorem Stmt.measure_eq : (s : Stmt) → s.measure = measured (tooTall? s.postorder) ()
  | .assign target value span => by
      rw [Stmt.measure, value.measure_eq, discard_measured, Stmt.postorder]
  | .call callee args span => by
      rw [Stmt.measure, measureAll_eq args, discard_measured, Stmt.postorder]
  | .loop kind condition body otherwise span => by
      rw [Stmt.measure, Stmt.postorder, tooTall?_append, tooTall?_append]
      exact measured_guarded body.measure_eq otherwise.measure_eq
  | .branch b => b.measure_eq

theorem Block.measure_eq : (b : Block) → b.measure = measured (tooTall? b.postorder) ()
  | .mk stmts _ => measureStmts_eq stmts

theorem Branch.measure_eq : (b : Branch) → b.measure = measured (tooTall? b.postorder) ()
  | .mk condition body otherwise span => by
      rw [Branch.measure, Branch.postorder, tooTall?_append, tooTall?_append]
      exact measured_guarded body.measure_eq otherwise.measure_eq

theorem Otherwise.measure_eq : (o : Otherwise) → o.measure = measured (tooTall? o.postorder) ()
  | .nothing => rfl
  | .block body => body.measure_eq
  | .branch b => b.measure_eq

theorem measureStmts_eq : (ss : List Stmt) →
    measureStmts ss = measured (tooTall? (stmtPostorder ss)) ()
  | [] => rfl
  | s :: ss => by
      rw [measureStmts, s.measure_eq, measureStmts_eq ss, stmtPostorder, tooTall?_append]
      exact measured_bind rfl

end

/-- Measuring a program fails with the region of the first node that is too tall. -/
theorem Program.measure_eq (program : Program) :
    program.measure = measured (tooTall? program.postorder) () :=
  measureStmts_eq program.stmts

def Expr.Begins (text : List Char) (e : Expr) : Prop :=
  ∃ (c : Cursor) (d : Char) (rest : List Char), c.Within text ∧ c.rest = d :: rest ∧
    Lexeme.isBlank d = false ∧ e.span.start = c.mark.position

def Expr.Merged : Expr → Prop
  | .additive left _ right span => span = left.span.merge right.span
  | .comparison left _ right span => span = left.span.merge right.span
  | .const _ _ | .ident _ _ | .call _ _ _ | .paren _ _ => True

theorem Expr.mem_postorder (e : Expr) : e ∈ e.postorder := by
  cases e <;> simp [Expr.postorder]

theorem mem_postorderAll {n : Expr} {es : List Expr} :
    n ∈ postorderAll es ↔ ∃ e ∈ es, n ∈ e.postorder := by
  induction es with
  | nil => simp [postorderAll]
  | cons e es ih => rw [postorderAll, List.mem_append, ih, List.exists_mem_cons_iff]

mutual

/-- The nodes of a statement are nodes of its expressions. -/
theorem Stmt.postorder_sublist : (s : Stmt) →
    s.postorder.Sublist (s.expressions.flatMap Expr.postorder)
  | .assign target value span => by simp [Stmt.postorder, Stmt.expressions]
  | .call callee args span => by simp [Stmt.postorder, Stmt.expressions, Expr.postorder]
  | .loop kind condition body otherwise span => by
      have inside := body.postorder_sublist.append otherwise.postorder_sublist
      simpa [Stmt.postorder, Stmt.expressions] using inside
  | .branch b => b.postorder_sublist

theorem Block.postorder_sublist : (b : Block) →
    b.postorder.Sublist (b.expressions.flatMap Expr.postorder)
  | .mk stmts _ => stmtPostorder_sublist stmts

theorem Branch.postorder_sublist : (b : Branch) →
    b.postorder.Sublist (b.expressions.flatMap Expr.postorder)
  | .mk condition body otherwise span => by
      have inside := body.postorder_sublist.append otherwise.postorder_sublist
      simpa [Branch.postorder, Branch.expressions] using inside

theorem Otherwise.postorder_sublist : (o : Otherwise) →
    o.postorder.Sublist (o.expressions.flatMap Expr.postorder)
  | .nothing => List.Sublist.refl _
  | .block body => body.postorder_sublist
  | .branch b => b.postorder_sublist

theorem stmtPostorder_sublist : (ss : List Stmt) →
    (stmtPostorder ss).Sublist ((stmtExpressions ss).flatMap Expr.postorder)
  | [] => List.Sublist.refl _
  | s :: ss => by
      rw [stmtPostorder, stmtExpressions, List.flatMap_append]
      exact s.postorder_sublist.append (stmtPostorder_sublist ss)

end

section

variable {text : List Char}

/-- What begins where a solid token stands begins with a visible character. -/
theorem begins_of_token {c c' : Cursor} (within : c.Within text) {t : Token} (solid : t.Solid)
    (leads : c.Leads t.text c') {e : Expr} {stop : Mark} (region : e.span = c.mark.spanTo stop) :
    e.Begins text := by
  obtain ⟨nonempty, stops⟩ := solid
  obtain ⟨d, more, spelled⟩ := List.exists_cons_of_ne_nil nonempty
  rw [spelled] at stops
  refine ⟨c, d, more ++ c'.rest, within, ?_, stops.1, ?_⟩
  · rw [leads.1, spelled, List.cons_append]
  · rw [region]
    rfl

/-- The region of two operands begins where one of them does. -/
theorem begins_of_operands {left right e : Expr} (first : left.Begins text)
    (second : right.Begins text) (region : e.span = left.span.merge right.span) :
    e.Begins text := by
  have start : e.span.start = left.span.start ∨ e.span.start = right.span.start := by
    rw [region]
    exact ite_eq_or_eq _ _ _
  rcases start with same | same
  · rw [Expr.Begins, same]
    exact first
  · rw [Expr.Begins, same]
    exact second

/-- Reading places all nodes of an expression and merges the regions of operands. -/
theorem inherited_located (text : List Char) :
    Grammar.Inherited text fun e => ∀ n ∈ e.postorder, n.Begins text ∧ n.Merged where
  constant c c' e within read := by
    obtain ⟨literal, rfl, lexical, leads⟩ := Grammar.leads_constant read
    exact List.forall_mem_singleton.2
      ⟨begins_of_token within (solid_literal lexical) leads rfl, trivial⟩
  name c c' ident within read := by
    have named : (Token.name ident.name).Lexical := (Grammar.covers_identifier read).1
    exact List.forall_mem_singleton.2
      ⟨begins_of_token within named.solid (Grammar.leads_identifier read) rfl, trivial⟩
  call c c₁ callee args stop within read located := by
    have named : (Token.name callee.name).Lexical := (Grammar.covers_identifier read).1
    refine List.forall_mem_append.2 ⟨?_, List.forall_mem_singleton.2 ⟨?_, trivial⟩⟩
    · intro n mem
      obtain ⟨e, given, inside⟩ := mem_postorderAll.1 mem
      exact located e given n inside
    · exact begins_of_token within named.solid (Grammar.leads_identifier read) rfl
  paren c c₁ inner stop within opened located := by
    have leads : c.Leads (Token.mark '(').text c₁ := Grammar.leads_symbol opened
    refine List.forall_mem_append.2 ⟨located, List.forall_mem_singleton.2 ⟨?_, trivial⟩⟩
    exact begins_of_token within (by decide) leads rfl
  binary x op y first second := by
    have begins {e : Expr} (region : e.span = x.span.merge y.span) : e.Begins text :=
      begins_of_operands (first x x.mem_postorder).1 (second y y.mem_postorder).1 region
    unfold Expr.binary
    dsimp only
    split
    all_goals
      refine List.forall_mem_append.2 ⟨first, List.forall_mem_append.2 ⟨second, ?_⟩⟩
      exact List.forall_mem_singleton.2 ⟨begins rfl, rfl⟩

end

/-- Every node of a recognized program is located by reading. -/
theorem located_of_recognize {text : String} {program : Program}
    (recognized : recognize text = .ok program) :
    ∀ n ∈ program.postorder, n.Begins text.toList ∧ n.Merged := by
  intro n mem
  have mem := (stmtPostorder_sublist program.stmts).subset mem
  obtain ⟨e, expression, inside⟩ := List.mem_flatMap.1 mem
  exact (inherited_located text.toList).of_recognize recognized e expression n inside

/-- The line in which a node begins is a line of the source. -/
theorem Expr.Begins.line {source : Source} (short : source.text.utf8ByteSize < UInt32.size)
    {e : Expr} (begins : e.Begins source.text.toList) :
    ∃ line, source.line? e.span.start.line = some line := by
  obtain ⟨c, d, rest, within, ahead, visible, start⟩ := begins
  have plain : ∀ x ∈ [d], x ≠ '\n' ∧ x ≠ '\r' := by
    rw [List.forall_mem_singleton]
    constructor <;> rintro rfl <;> exact absurd visible (by decide)
  have ahead : c.rest = [d] ++ rest := ahead
  obtain ⟨line, _, _, found, _⟩ :=
    Source.line?_of_within short within ahead (List.cons_ne_nil _ _) plain
  exact ⟨line, start ▸ found⟩

/-! ## The height limit -/

/-- Where brackets are shallow and the grammar matches, measuring decides. -/
theorem parse_of_recognized {source : Source} {program : Program}
    (shallow : Nesting.tooDeep? source.text.toList = none)
    (recognized : recognize source.text = .ok program) :
    source.parse = match tooTall? program.postorder with
      | none => .ok program
      | some node => .error (.report source (Fault.height node.span).message node.span) := by
  rw [Source.parse, Program.ofText, shallow, recognized]
  change (Except.mapError Fault.height program.measure >>=
    fun _ => Except.ok program).mapError _ = _
  rw [program.measure_eq]
  cases tooTall? program.postorder <;> rfl

/--
The height limit is exact: a text whose brackets are shallow and that the
grammar matches is read if no node of its expressions is too tall.  Otherwise
the error has the region of the first node that is too tall, and the line in
which that node begins.
-/
theorem height_limit_exact (source : Source) {program : Program}
    (shallow : Nesting.tooDeep? source.text.toList = none)
    (recognized : recognize source.text = .ok program) :
    (source.parse = .ok program ↔ ∀ n ∈ program.postorder, n.height ≤ 256) ∧
    ((∃ n ∈ program.postorder, 256 < n.height) → ∃ before node behind e,
      program.postorder = before ++ node :: behind ∧ (∀ n ∈ before, n.height ≤ 256) ∧
      256 < node.height ∧ node.Merged ∧ source.parse = .error e ∧ e.file = source.name ∧
      e.message = "expression nests deeper than 256 levels" ∧ e.span = node.span ∧
      e.sourceLine = (source.line? node.span.start.line).getD "" ∧
      (source.text.utf8ByteSize < UInt32.size →
        source.line? node.span.start.line = some e.sourceLine)) := by
  have parsed := parse_of_recognized shallow recognized
  cases found : tooTall? program.postorder with
  | none =>
      have low := tooTall?_eq_none_iff.1 found
      rw [found] at parsed
      refine ⟨iff_of_true parsed low, ?_⟩
      rintro ⟨n, mem, tall⟩
      exact absurd (low n mem) (Nat.not_le.2 tall)
  | some node =>
      obtain ⟨tall, before, behind, split, low⟩ := tooTall?_eq_some_iff.1 found
      have mem : node ∈ program.postorder := by simp [split]
      obtain ⟨begins, merged⟩ := located_of_recognize recognized node mem
      rw [found] at parsed
      constructor
      · refine iff_of_false (fun read => ?_) fun low => absurd (low node mem) (Nat.not_le.2 tall)
        cases parsed.symm.trans read
      · intro _
        refine ⟨before, node, behind, _, split, low, tall, merged, parsed, rfl, rfl, rfl, rfl, ?_⟩
        intro short
        obtain ⟨line, found⟩ := begins.line short
        rw [ParseError.report, found]
        rfl

/-- If the tallest expression is too tall, then so is one of the nodes. -/
theorem exists_tall {program : Program} (tall : 256 < tallestOf program.stmts) :
    ∃ n ∈ program.postorder, 256 < n.height := by
  cases found : tooTall? program.postorder with
  | none =>
      have measured : program.measure = .ok () := by
        rw [program.measure_eq, found]
        rfl
      exact absurd ((measure_stmts program.stmts).1 measured) (Nat.not_le.2 tall)
  | some node =>
      obtain ⟨high, before, behind, split, _⟩ := tooTall?_eq_some_iff.1 found
      exact ⟨node, by simp [split], high⟩

def sum : Nat → Expr
  | 0 => .ident "a" default
  | operators + 1 => .additive (sum operators) .add (.ident "a" default) default

/-- A sum without parentheses is well shaped, and every operator makes it taller. -/
theorem sum_shaped (operators : Nat) :
    (sum operators).Shaped ∧ (sum operators).height = operators + 1 ∧
      (sum operators).brackets = 0 := by
  have isName : IsName "a" := ⟨⟨'a', [], by decide, by decide, by simp⟩, by decide⟩
  induction operators with
  | zero => exact ⟨isName, rfl, rfl⟩
  | succ operators ih =>
      obtain ⟨shaped, height, brackets⟩ := ih
      have groups : Groups (sum operators) .add (.ident "a" default) := by
        cases operators <;> exact ⟨Nat.le_of_ble_eq_true rfl, by decide⟩
      refine ⟨⟨rfl, groups, shaped, isName⟩, ?_, ?_⟩
      · rw [sum, Expr.height, height, Expr.height, Nat.max_eq_left (Nat.le_add_left _ _)]
      · rw [sum, Expr.brackets, brackets, Expr.brackets, Nat.max_self]

def sumProgram (operators : Nat) : Program :=
  ⟨[.assign ⟨"a", default⟩ (sum operators) default], default⟩

/-- A sum with 256 operators is one level too tall. -/
theorem height_limit_exact_sum :
    ∃ (program : Program) (node : Expr) (e : ParseError),
      Nesting.tooDeep? (sumProgram 256).render.toList = none ∧
      recognize (sumProgram 256).render = .ok program ∧ node ∈ program.postorder ∧
      256 < node.height ∧ Source.parse ⟨"sum", (sumProgram 256).render⟩ = .error e ∧
      e.message = "expression nests deeper than 256 levels" ∧ e.span = node.span := by
  have isName : IsName "a" := ⟨⟨'a', [], by decide, by decide, by simp⟩, by decide⟩
  obtain ⟨shaped, height, brackets⟩ := sum_shaped 256
  have shapedStmts : ShapedStmts (sumProgram 256).stmts := ⟨⟨isName, shaped⟩, trivial⟩
  have rendered := (sumProgram 256).renderedBy_render
  have shallow : Nesting.tooDeep? (sumProgram 256).render.toList = none := by
    refine (Nesting.tooDeep_eq_none_iff shapedStmts rendered).2 ?_
    rw [sumProgram, mostBracketsOf, mostBracketsOf, Stmt.brackets, brackets]
    decide
  obtain ⟨program, recognized, same⟩ := recognize_of_rendered shapedStmts rendered
  have sameStmts : eraseStmts program.stmts = eraseStmts (sumProgram 256).stmts :=
    congrArg Program.stmts same
  have tall : tallestOf program.stmts = 257 := by
    obtain ⟨_, _, kept, _⟩ := erase_keeps_stmts program.stmts
    obtain ⟨_, _, built, _⟩ := erase_keeps_stmts (sumProgram 256).stmts
    rw [← kept, sameStmts, built, sumProgram, tallestOf, tallestOf, Stmt.tallest, height]
    decide
  have found : ∃ n ∈ program.postorder, 256 < n.height :=
    exists_tall (tall.symm ▸ Nat.lt_succ_self 256)
  obtain ⟨before, node, behind, e, split, _, high, _, failed, _, message, region, _⟩ :=
    (height_limit_exact ⟨"sum", (sumProgram 256).render⟩ shallow recognized).2 found
  exact ⟨program, node, e, shallow, recognized, by simp [split], high, failed, message, region⟩

end TinyScript
