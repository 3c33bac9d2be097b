import TinyScript.Proofs.ParsingExpressions

/-!
# What the rules stand for

A rule of the grammar stands for lists of tokens: those of the trees that it is
read as.  Expressions over rules stand for what their parts stand for, one behind
the other.  The body of a rule stands for nothing else than the rule itself, and
every expression stands for some list.
-/

namespace TinyScript

def Terminal.Yields (terminal : Terminal) (ts : List Token) : Prop :=
  ∃ t, terminal.Accepts t ∧ ts = [t]

def GuardedTokens (ts : List Token) : Prop :=
  ∃ (condition : Expr) (body : Block) (otherwise : Otherwise),
    (condition.Shaped ∧ body.Shaped ∧ otherwise.Shaped) ∧
      ts = condition.tokens ++ (body.tokens ++ otherwise.tokens)

/-- The token lists that a rule stands for. -/
def Rule.Yields : Rule → List Token → Prop
  | .endOfInput, ts => ts = []
  | .program, ts => ∃ ss, ShapedStmts ss ∧ ts = stmtTokens ss
  | .block, ts => ∃ b : Block, b.Shaped ∧ ts = b.tokens
  | .branch, ts => ∃ b : Branch, b.Shaped ∧ ts = b.tokens
  | .loop, ts => ∃ (kind : LoopKind) (us : List Token),
      GuardedTokens us ∧ ts = .keyword kind.keyword :: us
  | .alternative, ts =>
      (∃ b : Block, b.Shaped ∧ ts = b.tokens) ∨ ∃ b : Branch, b.Shaped ∧ ts = b.tokens
  | .loopKeyword, ts => Terminal.loopWord.Yields ts
  | .ifKeyword, ts => Terminal.ifWord.Yields ts
  | .elseKeyword, ts => Terminal.elseWord.Yields ts
  | .assignment, ts => ∃ (target : String) (value : Expr),
      (IsName target ∧ value.Shaped) ∧ ts = .name target :: .mark '=' :: value.tokens
  | .call, ts => ∃ (callee : String) (args : List Expr), (IsName callee ∧ ShapedExprs args) ∧
      ts = .name callee :: .mark '(' :: (argTokens args ++ [.mark ')'])
  | .expression, ts => ∃ e : Expr, e.Shaped ∧ ts = e.tokens
  | .paren, ts => ∃ e : Expr, e.Shaped ∧ ts = .mark '(' :: (e.tokens ++ [.mark ')'])
  | .eq, ts => (Terminal.operator .eq).Yields ts
  | .notEq, ts => (Terminal.operator .notEq).Yields ts
  | .greater, ts => (Terminal.operator .greater).Yields ts
  | .less, ts => (Terminal.operator .less).Yields ts
  | .add, ts => (Terminal.operator .add).Yields ts
  | .sub, ts => (Terminal.operator .sub).Yields ts
  | .mul, ts => (Terminal.operator .mul).Yields ts
  | .constant, ts => ∃ l : Literal, l.IsLexical ∧ ts = [.literal l]
  | .float, ts => (Terminal.literal .float).Yields ts
  | .integer, ts => (Terminal.literal .integer).Yields ts
  | .text, ts => (Terminal.literal .text).Yields ts
  | .boolean, ts => (Terminal.literal .boolean).Yields ts
  | .null, ts => (Terminal.literal .null).Yields ts
  | .identifier, ts => Terminal.name.Yields ts

namespace Peg

def Yields : Peg → List Token → Prop
  | .empty, ts | .ending, ts => ts = []
  | .terminal kind, ts => kind.Yields ts
  | .seq p q, ts => ∃ us vs, p.Yields us ∧ q.Yields vs ∧ ts = us ++ vs
  | .alt p q, ts => p.Yields ts ∨ q.Yields ts
  | .many p, ts | .more p, ts =>
      ∃ items : List (List Token), (∀ us ∈ items, p.Yields us) ∧ ts = items.flatten
  | .rule r, ts => r.Yields ts

theorem yields_cons {p : Peg} (ts ts' : List Token) (first : p.Yields ts)
    (others : (Peg.more p).Yields ts') : (Peg.more p).Yields (ts ++ ts') := by
  obtain ⟨items, each, rfl⟩ := others
  exact ⟨ts :: items, List.forall_mem_cons.2 ⟨first, each⟩, rfl⟩

section

variable {ts : List Token}

theorem yields_mark {x : Char} (yields : (mark x).Yields ts) : ts = [.mark x] := by
  obtain ⟨_, rfl, rfl⟩ := yields
  rfl

theorem yields_items {α : Type} {good : α → Prop} {tokens : α → List Token}
    {items : List (List Token)} (each : ∀ us ∈ items, ∃ a, good a ∧ us = tokens a) :
    ∃ as : List α, (∀ a ∈ as, good a) ∧ items.flatten = as.flatMap tokens := by
  induction items with
  | nil => exact ⟨[], List.forall_mem_nil _, rfl⟩
  | cons us items ih =>
      obtain ⟨⟨a, goodFirst, rfl⟩, others⟩ := List.forall_mem_cons.1 each
      obtain ⟨as, goodOthers, same⟩ := ih others
      refine ⟨a :: as, List.forall_mem_cons.2 ⟨goodFirst, goodOthers⟩, ?_⟩
      rw [List.flatten_cons, List.flatMap_cons, same]

/-- Operands are those expressions that are no operators with operands. -/
theorem yields_operand (yields : operand.Yields ts) :
    ∃ e : Expr, (e.IsOperand ∧ e.Shaped) ∧ ts = e.tokens := by
  rcases yields with constant | call | name | paren
  · obtain ⟨l, lexical, rfl⟩ := constant
    exact ⟨.const l default, ⟨rfl, lexical⟩, rfl⟩
  · obtain ⟨callee, args, shaped, rfl⟩ := call
    exact ⟨.call ⟨callee, default⟩ args default, ⟨rfl, shaped⟩, rfl⟩
  · obtain ⟨_, ⟨n, isName, rfl⟩, rfl⟩ := name
    exact ⟨.ident n default, ⟨rfl, isName⟩, rfl⟩
  · obtain ⟨e, shaped, rfl⟩ := paren
    exact ⟨.paren e default, ⟨rfl, shaped⟩, rfl⟩

theorem yields_anyOperator (yields : anyOperator.Yields ts) : ∃ op, ts = [.operator op] := by
  rcases yields with h | h | h | h | h | h | h <;>
    · obtain ⟨_, rfl, rfl⟩ := h
      exact ⟨_, rfl⟩

theorem yields_link (yields : (Peg.seq anyOperator operand).Yields ts) :
    ∃ link : BinOp × Expr, (link.2.IsOperand ∧ link.2.Shaped) ∧
      ts = .operator link.1 :: link.2.tokens := by
  obtain ⟨_, _, first, second, rfl⟩ := yields
  obtain ⟨op, rfl⟩ := yields_anyOperator first
  obtain ⟨e, good, rfl⟩ := yields_operand second
  exact ⟨(op, e), good, rfl⟩

/-- Resolving the precedence of operators makes an expression of operands. -/
theorem yields_expression (yields : (body .expression).Yields ts) :
    ∃ e : Expr, e.Shaped ∧ ts = e.tokens := by
  obtain ⟨_, _, first, ⟨items, each, rfl⟩, rfl⟩ := yields
  obtain ⟨x, ⟨operand, shaped⟩, rfl⟩ := yields_operand first
  obtain ⟨links, good, same⟩ := yields_items fun us mem => yields_link (each us mem)
  obtain ⟨grouped, sameFirst, sameLinks⟩ := resolve_spec operand fun link mem => (good link mem).1
  refine ⟨Precedence.resolve Expr.binary x links, ?_, ?_⟩
  · rw [Expr.shaped_iff, sameFirst, sameLinks]
    exact ⟨grouped, shaped, fun link mem => (good link mem).2⟩
  · have flat := (Precedence.resolve Expr.binary x links).tokens_eq
    rw [sameFirst, sameLinks] at flat
    rw [flat, same]
    rfl

theorem yields_arguments (yields : (opt arguments).Yields ts) :
    ∃ args : List Expr, ShapedExprs args ∧ ts = argTokens args := by
  rcases yields with ⟨_, _, ⟨first, shaped, rfl⟩, ⟨items, each, rfl⟩, rfl⟩ | rfl
  · have further : ∀ us ∈ items, ∃ e : Expr, e.Shaped ∧ us = .mark ',' :: e.tokens := by
      intro us mem
      obtain ⟨_, _, comma, ⟨e, shaped, rfl⟩, rfl⟩ := each us mem
      rw [yields_mark comma]
      exact ⟨e, shaped, rfl⟩
    obtain ⟨others, good, same⟩ := yields_items further
    refine ⟨first :: others, ⟨shaped, (shapedExprs_iff others).2 good⟩, ?_⟩
    rw [argTokens, moreArgTokens_eq, same]
  · exact ⟨[], trivial, rfl⟩

theorem yields_guarded (yields : guarded.Yields ts) : GuardedTokens ts := by
  obtain ⟨_, _, ⟨condition, shaped, rfl⟩, ⟨_, _, ⟨body, shapedBody, rfl⟩, others, rfl⟩, rfl⟩ :=
    yields
  rcases others with ⟨_, _, ⟨_, rfl, rfl⟩, ⟨b, shapedOther, rfl⟩ | ⟨b, shapedOther, rfl⟩, rfl⟩ | rfl
  · exact ⟨condition, body, .block b, ⟨shaped, shapedBody, shapedOther⟩, rfl⟩
  · exact ⟨condition, body, .branch b, ⟨shaped, shapedBody, shapedOther⟩, rfl⟩
  · exact ⟨condition, body, .nothing, ⟨shaped, shapedBody, trivial⟩, rfl⟩

theorem yields_line (yields : line.Yields ts) : ∃ s : Stmt, s.Shaped ∧ ts = s.tokens := by
  rcases yields with ⟨_, _, first, semicolon, rfl⟩ | branch | loop
  · rw [yields_mark semicolon]
    rcases first with ⟨target, value, good, rfl⟩ | ⟨callee, args, good, rfl⟩
    · exact ⟨.assign ⟨target, default⟩ value default, good, rfl⟩
    · refine ⟨.call ⟨callee, default⟩ args default, good, ?_⟩
      simp [Stmt.tokens]
  · obtain ⟨b, shaped, rfl⟩ := branch
    exact ⟨.branch b, shaped, rfl⟩
  · obtain ⟨kind, _, ⟨condition, body, otherwise, shaped, rfl⟩, rfl⟩ := loop
    exact ⟨.loop kind condition body otherwise default, shaped, rfl⟩

theorem yields_lines (yields : (Peg.many line).Yields ts) :
    ∃ ss : List Stmt, ShapedStmts ss ∧ ts = stmtTokens ss := by
  obtain ⟨items, each, rfl⟩ := yields
  obtain ⟨ss, shaped, same⟩ := yields_items fun us mem => yields_line (each us mem)
  exact ⟨ss, (shapedStmts_iff ss).2 shaped, same.trans (stmtTokens_eq ss).symm⟩

theorem yields_rule {r : Rule} (yields : (body r).Yields ts) : r.Yields ts := by
  cases r with
  | program =>
      obtain ⟨_, _, rfl, ⟨_, _, lines, rfl, rfl⟩, rfl⟩ := yields
      obtain ⟨ss, shaped, rfl⟩ := yields_lines lines
      exact ⟨ss, shaped, by simp⟩
  | block =>
      obtain ⟨_, _, opened, ⟨_, _, lines, closed, rfl⟩, rfl⟩ := yields
      obtain ⟨ss, shaped, rfl⟩ := yields_lines lines
      rw [yields_mark opened, yields_mark closed]
      exact ⟨.mk ss default, shaped, rfl⟩
  | branch =>
      obtain ⟨_, _, ⟨_, rfl, rfl⟩, guarded, rfl⟩ := yields
      obtain ⟨condition, body, otherwise, shaped, rfl⟩ := yields_guarded guarded
      exact ⟨.mk condition body otherwise default, shaped, rfl⟩
  | loop =>
      obtain ⟨_, _, ⟨_, ⟨kind, rfl⟩, rfl⟩, guarded, rfl⟩ := yields
      exact ⟨kind, _, yields_guarded guarded, rfl⟩
  | assignment =>
      obtain ⟨_, _, ⟨_, ⟨n, isName, rfl⟩, rfl⟩, ⟨_, _, sign, ⟨e, shaped, rfl⟩, rfl⟩, rfl⟩ := yields
      rw [yields_mark sign]
      exact ⟨n, e, ⟨isName, shaped⟩, rfl⟩
  | call =>
      obtain ⟨_, _, ⟨_, ⟨n, isName, rfl⟩, rfl⟩, ⟨_, _, opened, ⟨_, _, inner, closed, rfl⟩, rfl⟩,
        rfl⟩ := yields
      obtain ⟨args, shaped, rfl⟩ := yields_arguments inner
      rw [yields_mark opened, yields_mark closed]
      exact ⟨n, args, ⟨isName, shaped⟩, rfl⟩
  | expression => exact yields_expression yields
  | paren =>
      obtain ⟨_, _, opened, ⟨_, _, ⟨e, shaped, rfl⟩, closed, rfl⟩, rfl⟩ := yields
      rw [yields_mark opened, yields_mark closed]
      exact ⟨e, shaped, rfl⟩
  | constant =>
      rcases yields with h | h | h | h | h <;>
        · obtain ⟨_, ⟨l, _, lexical, rfl⟩, rfl⟩ := h
          exact ⟨l, lexical, rfl⟩
  | _ => exact yields

end

theorem exists_accepts (terminal : Terminal) : ∃ t, terminal.Accepts t := by
  have digits : IsDigits ['0'] := ⟨List.cons_ne_nil _ _, List.forall_mem_singleton.2 rfl⟩
  cases terminal with
  | name => exact ⟨.name "a", "a", ⟨⟨'a', [], by decide, by decide, by simp⟩, by decide⟩, rfl⟩
  | literal kind =>
      cases kind with
      | integer => exact ⟨_, ⟨.integer, "0"⟩, rfl, digits, rfl⟩
      | float => exact ⟨_, ⟨.float, "0.0"⟩, rfl, ⟨['0'], ['0'], digits, digits, rfl⟩, rfl⟩
      | text => exact ⟨_, ⟨.text, "''"⟩, rfl, ⟨'\'', [], .inr rfl, by simp, rfl⟩, rfl⟩
      | boolean => exact ⟨_, ⟨.boolean, "true"⟩, rfl, .inl rfl, rfl⟩
      | null => exact ⟨_, ⟨.null, "null"⟩, rfl, rfl, rfl⟩
  | ifWord => exact ⟨_, rfl⟩
  | elseWord => exact ⟨_, rfl⟩
  | loopWord => exact ⟨_, .whileTrue, rfl⟩
  | operator op => exact ⟨_, rfl⟩
  | mark x => exact ⟨_, rfl⟩

theorem exists_yields_terminal (terminal : Terminal) : ∃ ts, terminal.Yields ts := by
  obtain ⟨t, accepts⟩ := exists_accepts terminal
  exact ⟨[t], t, accepts, rfl⟩

theorem exists_yields_rule (r : Rule) : ∃ ts, r.Yields ts := by
  obtain ⟨_, n, isName, _⟩ := exists_accepts .name
  have guarded : GuardedTokens _ := ⟨.ident n default, .mk [] default, .nothing,
    ⟨isName, trivial, trivial⟩, rfl⟩
  cases r with
  | endOfInput => exact ⟨[], rfl⟩
  | program => exact ⟨_, [], trivial, rfl⟩
  | block => exact ⟨_, .mk [] default, trivial, rfl⟩
  | branch =>
      exact ⟨_, .mk (.ident n default) (.mk [] default) .nothing default,
        ⟨isName, trivial, trivial⟩, rfl⟩
  | loop => exact ⟨_, .whileTrue, _, guarded, rfl⟩
  | alternative => exact ⟨_, .inl ⟨.mk [] default, trivial, rfl⟩⟩
  | assignment => exact ⟨_, n, .ident n default, ⟨isName, isName⟩, rfl⟩
  | call => exact ⟨_, n, [], ⟨isName, trivial⟩, rfl⟩
  | expression => exact ⟨_, .ident n default, isName, rfl⟩
  | paren => exact ⟨_, .ident n default, isName, rfl⟩
  | constant => exact ⟨_, ⟨.null, "null"⟩, rfl, rfl⟩
  | _ => exact exists_yields_terminal _

theorem exists_yields (p : Peg) : ∃ ts, p.Yields ts := by
  induction p with
  | empty | ending => exact ⟨[], rfl⟩
  | terminal kind => exact exists_yields_terminal kind
  | seq p q ihp ihq =>
      obtain ⟨us, first⟩ := ihp
      obtain ⟨vs, second⟩ := ihq
      exact ⟨us ++ vs, us, vs, first, second, rfl⟩
  | alt p q ihp ihq =>
      obtain ⟨us, first⟩ := ihp
      exact ⟨us, .inl first⟩
  | many p ih | more p ih => exact ⟨[], [], List.forall_mem_nil _, rfl⟩
  | rule r => exact exists_yields_rule r

end Peg

end TinyScript
