import TinyScript.Proofs.Occupying

/-!
# One tree at two places

Two trees that differ only in their places take their texts token by token in
parallel.  What is kept by skipping trivia and by passing the same characters
is kept along both texts, and so the places of one tree are determined by
those of the other.
-/

namespace TinyScript

def Ident.relocate (move : Span → Span) (ident : Ident) : Ident := ⟨ident.name, move ident.span⟩

mutual

def Expr.relocate (move : Span → Span) : Expr → Expr
  | .const literal span => .const literal (move span)
  | .ident name span => .ident name (move span)
  | .call callee args span => .call (callee.relocate move) (relocateExprs move args) (move span)
  | .additive left op right span =>
      .additive (left.relocate move) op (right.relocate move) (move span)
  | .comparison left op right span =>
      .comparison (left.relocate move) op (right.relocate move) (move span)
  | .paren inner span => .paren (inner.relocate move) (move span)

def relocateExprs (move : Span → Span) : List Expr → List Expr
  | [] => []
  | e :: es => e.relocate move :: relocateExprs move es

end

mutual

def Stmt.relocate (move : Span → Span) : Stmt → Stmt
  | .assign target value span =>
      .assign (target.relocate move) (value.relocate move) (move span)
  | .call callee args span => .call (callee.relocate move) (relocateExprs move args) (move span)
  | .loop kind condition body otherwise span =>
      .loop kind (condition.relocate move) (body.relocate move) (otherwise.relocate move)
        (move span)
  | .branch b => .branch (b.relocate move)

def Block.relocate (move : Span → Span) : Block → Block
  | .mk stmts span => .mk (relocateStmts move stmts) (move span)

def Branch.relocate (move : Span → Span) : Branch → Branch
  | .mk condition body otherwise span =>
      .mk (condition.relocate move) (body.relocate move) (otherwise.relocate move) (move span)

def Otherwise.relocate (move : Span → Span) : Otherwise → Otherwise
  | .nothing => .nothing
  | .block body => .block (body.relocate move)
  | .branch b => .branch (b.relocate move)

def relocateStmts (move : Span → Span) : List Stmt → List Stmt
  | [] => []
  | s :: ss => s.relocate move :: relocateStmts move ss

end

theorem relocateStmts_eq (move : Span → Span) (ss : List Stmt) :
    relocateStmts move ss = ss.map (Stmt.relocate move) := by
  induction ss with
  | nil => rfl
  | cons s ss ih => rw [relocateStmts, ih, List.map_cons]

/-! ## Two texts in parallel -/

/--
A relation between the cursors of two texts that is kept by skipping trivia and
by passing the same characters, and the relation between spans that follows.
-/
structure Parallel (cursors : Cursor → Cursor → Prop) (spans : Span → Span → Prop) : Prop where
  skip : ∀ {c d : Cursor}, cursors c d → cursors c.skip d.skip
  takes : ∀ {c d c' d' : Cursor} {w : List Char}, cursors c d → c.Takes w c' → d.Takes w d' →
    cursors c' d'
  span : ∀ {c d c' d' : Cursor}, cursors c d → cursors c' d' →
    spans (c.mark.spanTo c'.mark) (d.mark.spanTo d'.mark)
  merge : ∀ {a b a' b' : Span}, spans a b → spans a' b' → spans (a.merge a') (b.merge b')

/-- A tree is another one with spans moved, if related spans are moved ones. -/
def Moved {α : Type} (spans : Span → Span → Prop) (relocate : (Span → Span) → α → α) (a b : α) :
    Prop :=
  ∀ move, (∀ s t, spans s t → t = move s) → b = relocate move a

section

variable {cursors : Cursor → Cursor → Prop} {spans : Span → Span → Prop}
  (parallel : Parallel cursors spans)

include parallel

theorem parallel_token {w : List Char} {c d c' d' : Cursor} (related : cursors c d)
    (first : c.Takes w c') (second : d.Takes w d') :
    cursors c' d' ∧ spans (c.mark.spanTo c'.mark) (d.mark.spanTo d'.mark) := by
  have behind := parallel.takes related first second
  exact ⟨behind, parallel.span related behind⟩

theorem parallel_ident {a b : Ident} {c d c' d' : Cursor} (first : a.Takes c c')
    (second : b.Takes d d') (same : a.erase = b.erase) (related : cursors c d) :
    cursors c' d' ∧ Moved spans Ident.relocate a b := by
  obtain ⟨name, span⟩ := a
  obtain ⟨name', span'⟩ := b
  obtain ⟨text, rfl⟩ := first
  obtain ⟨text', rfl⟩ := second
  obtain rfl : name = name' := congrArg Ident.name same
  obtain ⟨behind, placed⟩ := parallel_token parallel related text text'
  refine ⟨behind, fun move moved => ?_⟩
  rw [Ident.relocate, moved _ _ placed]

theorem parallel_operands {left right left' right' : Expr} {op : BinOp}
    {c₁ c₂ c' d₁ d₂ d' : Cursor} (first : cursors c₁ d₁ ∧ spans left.span left'.span)
    (sign : c₁.skip.Takes op.symbol.toList c₂) (sign' : d₁.skip.Takes op.symbol.toList d₂)
    (second : cursors c₂.skip d₂.skip →
      (cursors c' d' ∧ spans right.span right'.span) ∧ Moved spans Expr.relocate right right') :
    (cursors c' d' ∧ spans (left.span.merge right.span) (left'.span.merge right'.span)) ∧
      Moved spans Expr.relocate right right' := by
  have joined := parallel.takes (parallel.skip first.1) sign sign'
  obtain ⟨⟨behind, operand⟩, movedRight⟩ := second (parallel.skip joined)
  exact ⟨⟨behind, parallel.merge first.2 operand⟩, movedRight⟩

mutual

theorem parallel_expr : (a : Expr) → {b : Expr} → {c d c' d' : Cursor} → a.Takes c c' →
    b.Takes d d' → a.erase = b.erase → cursors c d →
    (cursors c' d' ∧ spans a.span b.span) ∧ Moved spans Expr.relocate a b
  | .const literal span, b, c, d, c', d', first, second, same, related => by
      cases b with
      | const literal' span' =>
          obtain ⟨text, rfl⟩ := first
          obtain ⟨text', rfl⟩ := second
          rw [Expr.erase, Expr.erase, Expr.const.injEq] at same
          obtain ⟨rfl, _⟩ := same
          have behind := parallel_token parallel related text text'
          refine ⟨behind, fun move moved => ?_⟩
          rw [Expr.relocate, moved _ _ behind.2]
      | _ => cases same
  | .ident name span, b, c, d, c', d', first, second, same, related => by
      cases b with
      | ident name' span' =>
          obtain ⟨text, rfl⟩ := first
          obtain ⟨text', rfl⟩ := second
          rw [Expr.erase, Expr.erase, Expr.ident.injEq] at same
          obtain ⟨rfl, _⟩ := same
          have behind := parallel_token parallel related text text'
          refine ⟨behind, fun move moved => ?_⟩
          rw [Expr.relocate, moved _ _ behind.2]
      | _ => cases same
  | .call callee args span, b, c, d, c', d', first, second, same, related => by
      cases b with
      | call callee' args' span' =>
          obtain ⟨c₁, c₂, c₃, name, opened, given, closed, rfl⟩ := first
          obtain ⟨d₁, d₂, d₃, name', opened', given', closed', rfl⟩ := second
          rw [Expr.erase, Expr.erase, Expr.call.injEq] at same
          obtain ⟨sameCallee, sameArgs, _⟩ := same
          obtain ⟨related₁, movedCallee⟩ := parallel_ident parallel name name' sameCallee related
          have related₂ := parallel.takes (parallel.skip related₁) opened opened'
          obtain ⟨related₃, movedArgs⟩ :=
            parallel_args args given given' sameArgs (parallel.skip related₂)
          have behind := parallel.takes related₃ closed closed'
          have placed := parallel.span related behind
          refine ⟨⟨behind, placed⟩, fun move moved => ?_⟩
          rw [Expr.relocate, ← moved _ _ placed, ← movedCallee move moved, ← movedArgs move moved]
      | _ => cases same
  | .additive left op right span, b, c, d, c', d', first, second, same, related => by
      cases b with
      | additive left' op' right' span' =>
          obtain ⟨c₁, c₂, operand, sign, operand₂, rfl⟩ := first
          obtain ⟨d₁, d₂, operand', sign', operand₂', rfl⟩ := second
          rw [Expr.erase, Expr.erase, Expr.additive.injEq] at same
          obtain ⟨sameLeft, rfl, sameRight, _⟩ := same
          obtain ⟨found, movedLeft⟩ := parallel_expr left operand operand' sameLeft related
          obtain ⟨behind, movedRight⟩ := parallel_operands parallel found sign sign'
            (parallel_expr right operand₂ operand₂' sameRight)
          refine ⟨behind, fun move moved => ?_⟩
          rw [Expr.relocate, ← moved _ _ behind.2, ← movedLeft move moved, ← movedRight move moved]
      | _ => cases same
  | .comparison left op right span, b, c, d, c', d', first, second, same, related => by
      cases b with
      | comparison left' op' right' span' =>
          obtain ⟨c₁, c₂, operand, sign, operand₂, rfl⟩ := first
          obtain ⟨d₁, d₂, operand', sign', operand₂', rfl⟩ := second
          rw [Expr.erase, Expr.erase, Expr.comparison.injEq] at same
          obtain ⟨sameLeft, rfl, sameRight, _⟩ := same
          obtain ⟨found, movedLeft⟩ := parallel_expr left operand operand' sameLeft related
          obtain ⟨behind, movedRight⟩ := parallel_operands parallel found sign sign'
            (parallel_expr right operand₂ operand₂' sameRight)
          refine ⟨behind, fun move moved => ?_⟩
          rw [Expr.relocate, ← moved _ _ behind.2, ← movedLeft move moved, ← movedRight move moved]
      | _ => cases same
  | .paren inner span, b, c, d, c', d', first, second, same, related => by
      cases b with
      | paren inner' span' =>
          obtain ⟨c₁, c₂, opened, inside, closed, rfl⟩ := first
          obtain ⟨d₁, d₂, opened', inside', closed', rfl⟩ := second
          rw [Expr.erase, Expr.erase, Expr.paren.injEq] at same
          have related₁ := parallel.skip (parallel.takes related opened opened')
          obtain ⟨⟨related₂, _⟩, movedInner⟩ := parallel_expr inner inside inside' same.1 related₁
          have behind := parallel.takes (parallel.skip related₂) closed closed'
          have placed := parallel.span related behind
          refine ⟨⟨behind, placed⟩, fun move moved => ?_⟩
          rw [Expr.relocate, ← moved _ _ placed, ← movedInner move moved]
      | _ => cases same

theorem parallel_args : (as : List Expr) → {bs : List Expr} → {c d c' d' : Cursor} →
    TakeArgs as c c' → TakeArgs bs d d' → eraseExprs as = eraseExprs bs →
    cursors c.skip d.skip → cursors c'.skip d'.skip ∧ Moved spans relocateExprs as bs
  | [], bs, c, d, c', d', first, second, same, related => by
      cases bs with
      | nil =>
          cases first
          cases second
          exact ⟨related, fun _ _ => rfl⟩
      | cons b bs => cases same
  | a :: as, bs, c, d, c', d', first, second, same, related => by
      cases bs with
      | nil => cases same
      | cons b bs =>
          obtain ⟨c₁, operand, others⟩ := first
          obtain ⟨d₁, operand', others'⟩ := second
          rw [eraseExprs, eraseExprs, List.cons.injEq] at same
          obtain ⟨⟨related₁, _⟩, movedFirst⟩ := parallel_expr a operand operand' same.1 related
          obtain ⟨behind, movedOthers⟩ :=
            parallel_moreArgs as others others' same.2 (parallel.skip related₁)
          refine ⟨behind, fun move moved => ?_⟩
          rw [relocateExprs, ← movedFirst move moved, ← movedOthers move moved]

theorem parallel_moreArgs : (as : List Expr) → {bs : List Expr} → {c d c' d' : Cursor} →
    TakeMoreArgs as c c' → TakeMoreArgs bs d d' → eraseExprs as = eraseExprs bs →
    cursors c.skip d.skip → cursors c'.skip d'.skip ∧ Moved spans relocateExprs as bs
  | [], bs, c, d, c', d', first, second, same, related => by
      cases bs with
      | nil =>
          cases first
          cases second
          exact ⟨related, fun _ _ => rfl⟩
      | cons b bs => cases same
  | a :: as, bs, c, d, c', d', first, second, same, related => by
      cases bs with
      | nil => cases same
      | cons b bs =>
          obtain ⟨c₁, c₂, comma, operand, others⟩ := first
          obtain ⟨d₁, d₂, comma', operand', others'⟩ := second
          rw [eraseExprs, eraseExprs, List.cons.injEq] at same
          have related₁ := parallel.skip (parallel.takes related comma comma')
          obtain ⟨⟨related₂, _⟩, movedFirst⟩ := parallel_expr a operand operand' same.1 related₁
          obtain ⟨behind, movedOthers⟩ :=
            parallel_moreArgs as others others' same.2 (parallel.skip related₂)
          refine ⟨behind, fun move moved => ?_⟩
          rw [relocateExprs, ← movedFirst move moved, ← movedOthers move moved]

end

/-- Where two expressions of one shape end. -/
theorem parallel_behind {a b : Expr} (same : a.erase = b.erase) {c d : Cursor}
    (related : cursors c d) : cursors (a.behind c) (b.behind d) := by
  have binding : a.binding = b.binding := by
    rw [← Grammar.binding_erase, same, Grammar.binding_erase]
  unfold Expr.behind
  rw [binding]
  split
  · exact parallel.skip related
  · exact related

mutual

theorem parallel_stmt : (a : Stmt) → {b : Stmt} → {c d c' d' : Cursor} → a.Takes c c' →
    b.Takes d d' → a.erase = b.erase → cursors c d →
    cursors c' d' ∧ Moved spans Stmt.relocate a b
  | .assign target value span, b, c, d, c', d', first, second, same, related => by
      cases b with
      | assign target' value' span' =>
          obtain ⟨c₁, c₂, c₃, name, sign, operand, closed, rfl⟩ := first
          obtain ⟨d₁, d₂, d₃, name', sign', operand', closed', rfl⟩ := second
          rw [Stmt.erase, Stmt.erase, Stmt.assign.injEq] at same
          obtain ⟨sameTarget, sameValue, _⟩ := same
          obtain ⟨related₁, movedTarget⟩ := parallel_ident parallel name name' sameTarget related
          have related₂ := parallel.skip (parallel.takes (parallel.skip related₁) sign sign')
          obtain ⟨⟨related₃, _⟩, movedValue⟩ :=
            parallel_expr parallel value operand operand' sameValue related₂
          have placed := parallel.span related (parallel_behind parallel sameValue related₃)
          refine ⟨parallel.takes (parallel.skip related₃) closed closed', fun move moved => ?_⟩
          rw [Stmt.relocate, ← moved _ _ placed, ← movedTarget move moved, ← movedValue move moved]
      | _ => cases same
  | .call callee args span, b, c, d, c', d', first, second, same, related => by
      cases b with
      | call callee' args' span' =>
          obtain ⟨c₁, called, closed⟩ := first
          obtain ⟨d₁, called', closed'⟩ := second
          rw [Stmt.erase, Stmt.erase, Stmt.call.injEq] at same
          have sameCall :
              (Expr.call callee args span).erase = (Expr.call callee' args' span').erase := by
            rw [Expr.erase, Expr.erase, same.1, same.2.1]
          obtain ⟨⟨related₁, _⟩, movedCall⟩ :=
            parallel_expr parallel _ called called' sameCall related
          refine ⟨parallel.takes (parallel.skip related₁) closed closed', fun move moved => ?_⟩
          have call := movedCall move moved
          rw [Expr.relocate, Expr.call.injEq] at call
          rw [Stmt.relocate, ← call.1, ← call.2.1, ← call.2.2]
      | _ => cases same
  | .loop kind condition body otherwise span, b, c, d, c', d', first, second, same, related => by
      cases b with
      | loop kind' condition' body' otherwise' span' =>
          obtain ⟨c₁, c₂, c₃, keyword, guard, inside, more, rfl⟩ := first
          obtain ⟨d₁, d₂, d₃, keyword', guard', inside', more', rfl⟩ := second
          rw [Stmt.erase, Stmt.erase, Stmt.loop.injEq] at same
          obtain ⟨rfl, sameGuard, sameBody, sameOther, _⟩ := same
          have related₁ := parallel.skip (parallel.takes related keyword keyword')
          obtain ⟨⟨related₂, _⟩, movedGuard⟩ :=
            parallel_expr parallel condition guard guard' sameGuard related₁
          obtain ⟨related₃, movedBody⟩ :=
            parallel_block body inside inside' sameBody (parallel.skip related₂)
          obtain ⟨behind, movedOther⟩ :=
            parallel_otherwise otherwise more more' sameOther (parallel.skip related₃)
          have placed := parallel.span related behind
          refine ⟨behind, fun move moved => ?_⟩
          rw [Stmt.relocate, ← moved _ _ placed, ← movedGuard move moved, ← movedBody move moved,
            ← movedOther move moved]
      | _ => cases same
  | .branch a, b, c, d, c', d', first, second, same, related => by
      cases b with
      | branch b =>
          rw [Stmt.erase, Stmt.erase, Stmt.branch.injEq] at same
          obtain ⟨behind, movedBranch⟩ := parallel_branch a first second same related
          refine ⟨behind, fun move moved => ?_⟩
          rw [Stmt.relocate, ← movedBranch move moved]
      | _ => cases same

theorem parallel_block : (a : Block) → {b : Block} → {c d c' d' : Cursor} → a.Takes c c' →
    b.Takes d d' → a.erase = b.erase → cursors c d →
    cursors c' d' ∧ Moved spans Block.relocate a b
  | .mk stmts span, .mk stmts' span', c, d, c', d', first, second, same, related => by
      obtain ⟨c₁, c₂, opened, inside, closed, rfl⟩ := first
      obtain ⟨d₁, d₂, opened', inside', closed', rfl⟩ := second
      rw [Block.erase, Block.erase, Block.mk.injEq] at same
      have related₁ := parallel.skip (parallel.takes related opened opened')
      obtain ⟨related₂, movedStmts⟩ := parallel_stmts stmts inside inside' same.1 related₁
      have behind := parallel.takes related₂ closed closed'
      have placed := parallel.span related behind
      refine ⟨behind, fun move moved => ?_⟩
      rw [Block.relocate, ← moved _ _ placed, ← movedStmts move moved]

theorem parallel_branch : (a : Branch) → {b : Branch} → {c d c' d' : Cursor} → a.Takes c c' →
    b.Takes d d' → a.erase = b.erase → cursors c d →
    cursors c' d' ∧ Moved spans Branch.relocate a b
  | .mk condition body otherwise span, .mk condition' body' otherwise' span', c, d, c', d',
      first, second, same, related => by
      obtain ⟨c₁, c₂, c₃, keyword, guard, inside, more, rfl⟩ := first
      obtain ⟨d₁, d₂, d₃, keyword', guard', inside', more', rfl⟩ := second
      rw [Branch.erase, Branch.erase, Branch.mk.injEq] at same
      obtain ⟨sameGuard, sameBody, sameOther, _⟩ := same
      have related₁ := parallel.skip (parallel.takes related keyword keyword')
      obtain ⟨⟨related₂, _⟩, movedGuard⟩ :=
        parallel_expr parallel condition guard guard' sameGuard related₁
      obtain ⟨related₃, movedBody⟩ :=
        parallel_block body inside inside' sameBody (parallel.skip related₂)
      obtain ⟨behind, movedOther⟩ :=
        parallel_otherwise otherwise more more' sameOther (parallel.skip related₃)
      have placed := parallel.span related behind
      refine ⟨behind, fun move moved => ?_⟩
      rw [Branch.relocate, ← moved _ _ placed, ← movedGuard move moved, ← movedBody move moved,
        ← movedOther move moved]

theorem parallel_otherwise : (a : Otherwise) → {b : Otherwise} → {c d c' d' : Cursor} →
    a.Takes c c' → b.Takes d d' → a.erase = b.erase → cursors c d →
    cursors c' d' ∧ Moved spans Otherwise.relocate a b
  | .nothing, b, c, d, c', d', first, second, same, related => by
      cases b with
      | nothing =>
          cases first
          cases second
          exact ⟨related, fun _ _ => rfl⟩
      | _ => cases same
  | .block body, b, c, d, c', d', first, second, same, related => by
      cases b with
      | block body' =>
          obtain ⟨c₁, keyword, inside⟩ := first
          obtain ⟨d₁, keyword', inside'⟩ := second
          rw [Otherwise.erase, Otherwise.erase, Otherwise.block.injEq] at same
          have related₁ := parallel.skip (parallel.takes related keyword keyword')
          obtain ⟨behind, movedBody⟩ := parallel_block body inside inside' same related₁
          refine ⟨behind, fun move moved => ?_⟩
          rw [Otherwise.relocate, ← movedBody move moved]
      | _ => cases same
  | .branch a, b, c, d, c', d', first, second, same, related => by
      cases b with
      | branch b =>
          obtain ⟨c₁, keyword, inside⟩ := first
          obtain ⟨d₁, keyword', inside'⟩ := second
          rw [Otherwise.erase, Otherwise.erase, Otherwise.branch.injEq] at same
          have related₁ := parallel.skip (parallel.takes related keyword keyword')
          obtain ⟨behind, movedBranch⟩ := parallel_branch a inside inside' same related₁
          refine ⟨behind, fun move moved => ?_⟩
          rw [Otherwise.relocate, ← movedBranch move moved]
      | _ => cases same

theorem parallel_stmts : (as : List Stmt) → {bs : List Stmt} → {c d c' d' : Cursor} →
    TakeStmts as c c' → TakeStmts bs d d' → eraseStmts as = eraseStmts bs →
    cursors c.skip d.skip → cursors c'.skip d'.skip ∧ Moved spans relocateStmts as bs
  | [], bs, c, d, c', d', first, second, same, related => by
      cases bs with
      | nil =>
          cases first
          cases second
          exact ⟨related, fun _ _ => rfl⟩
      | cons b bs => cases same
  | a :: as, bs, c, d, c', d', first, second, same, related => by
      cases bs with
      | nil => cases same
      | cons b bs =>
          obtain ⟨c₁, stmt, others⟩ := first
          obtain ⟨d₁, stmt', others'⟩ := second
          rw [eraseStmts, eraseStmts, List.cons.injEq] at same
          obtain ⟨related₁, movedFirst⟩ := parallel_stmt a stmt stmt' same.1 related
          obtain ⟨behind, movedOthers⟩ :=
            parallel_stmts as others others' same.2 (parallel.skip related₁)
          refine ⟨behind, fun move moved => ?_⟩
          rw [relocateStmts, ← movedFirst move moved, ← movedOthers move moved]

end

end

end TinyScript
