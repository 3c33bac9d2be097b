import TinyScript.Proofs.Erasure
import TinyScript.Proofs.Rendering
import TinyScript.Proofs.Shape

/-!
# Grouping operands

Resolving the precedence of operators turns a flat sequence of operands into a
tree.  The tree holds the same sequence, its operands bind tightly enough to
need no parentheses, and no other tree has both properties.
-/

namespace TinyScript

open Precedence

/-- The leftmost operand of an expression, parentheses and calls not entered. -/
def Expr.first : Expr → Expr
  | .additive left _ _ _ => left.first
  | .comparison left _ _ _ => left.first
  | .const literal span => .const literal span
  | .ident name span => .ident name span
  | .call callee args span => .call callee args span
  | .paren inner span => .paren inner span

/-- The operators of an expression in order, each with the operand to its right. -/
def Expr.links : Expr → List (BinOp × Expr)
  | .additive left op right _ => left.links ++ (op, right.first) :: right.links
  | .comparison left op right _ => left.links ++ (op, right.first) :: right.links
  | .const _ _ | .ident _ _ | .call _ _ _ | .paren _ _ => []

/-- The operators stand in nodes of their kind, and their operands need no parentheses. -/
def Expr.Grouped : Expr → Prop
  | .additive left op right _ =>
      op.isArithmetic = true ∧ Groups left op right ∧ left.Grouped ∧ right.Grouped
  | .comparison left op right _ =>
      op.isArithmetic = false ∧ Groups left op right ∧ left.Grouped ∧ right.Grouped
  | .const _ _ | .ident _ _ | .call _ _ _ | .paren _ _ => True

def Expr.IsOperand (e : Expr) : Prop := e.binding = 3

/-- No operator binds more tightly than multiplication. -/
theorem BinOp.precedence_lt (op : BinOp) : op.precedence < 3 := by
  cases op <;> decide

theorem Expr.IsOperand.flat {e : Expr} (operand : e.IsOperand) :
    e.first = e ∧ e.links = [] ∧ e.Grouped := by
  cases e with
  | additive left op right span => exact absurd operand (Nat.ne_of_lt op.precedence_lt)
  | comparison left op right span => exact absurd operand (Nat.ne_of_lt op.precedence_lt)
  | _ => exact ⟨rfl, rfl, trivial⟩

@[simp]
theorem Expr.first_binary (left right : Expr) (op : BinOp) :
    (Expr.binary left op right).first = left.first := by
  unfold Expr.binary
  dsimp only
  split <;> rfl

@[simp]
theorem Expr.links_binary (left right : Expr) (op : BinOp) :
    (Expr.binary left op right).links = left.links ++ (op, right.first) :: right.links := by
  unfold Expr.binary
  dsimp only
  split <;> rfl

@[simp]
theorem Expr.binding_binary (left right : Expr) (op : BinOp) :
    (Expr.binary left op right).binding = op.precedence := by
  unfold Expr.binary
  dsimp only
  split <;> rfl

theorem Expr.grouped_binary {left right : Expr} {op : BinOp} (groups : Groups left op right)
    (leftGrouped : left.Grouped) (rightGrouped : right.Grouped) :
    (Expr.binary left op right).Grouped := by
  unfold Expr.binary
  dsimp only
  split
  · next arithmetic => exact ⟨arithmetic, groups, leftGrouped, rightGrouped⟩
  · next comparison => exact ⟨by simpa using comparison, groups, leftGrouped, rightGrouped⟩

def spread (links : List (BinOp × Expr)) : List (BinOp × Expr) :=
  links.flatMap fun link => (link.1, link.2.first) :: link.2.links

@[simp]
theorem spread_nil : spread [] = [] := rfl

@[simp]
theorem spread_cons (op : BinOp) (e : Expr) (links : List (BinOp × Expr)) :
    spread ((op, e) :: links) = (op, e.first) :: (e.links ++ spread links) := by
  simp [spread]

theorem spread_operands {links : List (BinOp × Expr)}
    (operands : ∀ link ∈ links, link.2.IsOperand) : spread links = links := by
  induction links with
  | nil => rfl
  | cons link links ih =>
      obtain ⟨op, e⟩ := link
      obtain ⟨first, none, _⟩ := (operands (op, e) (by simp)).flat
      have others := ih fun link mem => operands link (by simp [mem])
      rw [spread_cons, first, none, others, List.nil_append]

/-- A pass over the operators of one precedence keeps the flat sequence. -/
theorem collapse_flat (level : Nat) (x : Expr) (links : List (BinOp × Expr)) :
    (collapse level Expr.binary x links).1.first = x.first ∧
    (collapse level Expr.binary x links).1.links ++
        spread (collapse level Expr.binary x links).2 = x.links ++ spread links := by
  induction links generalizing x with
  | nil => exact ⟨rfl, rfl⟩
  | cons link links ih =>
      obtain ⟨op, y⟩ := link
      unfold collapse
      split
      · obtain ⟨first, flat⟩ := ih (Expr.binary x op y)
        rw [first, flat]
        simp
      · obtain ⟨first, flat⟩ := ih y
        refine ⟨rfl, ?_⟩
        dsimp only
        rw [spread_cons, first, flat, spread_cons]

/-- An operand of a sequence whose remaining operators bind less tightly than `level`. -/
def Ready (level : Nat) (e : Expr) : Prop := e.Grouped ∧ level ≤ e.binding

/--
A pass over the operators of one precedence groups them.  The operands bind
more tightly than these operators before, and as tightly afterwards.
-/
theorem collapse_ready (level : Nat) {x : Expr} {links : List (BinOp × Expr)}
    (first : Ready level x)
    (others : ∀ link ∈ links, link.1.precedence ≤ level ∧ Ready (level + 1) link.2) :
    Ready level (collapse level Expr.binary x links).1 ∧
    ∀ link ∈ (collapse level Expr.binary x links).2,
      link.1.precedence < level ∧ Ready level link.2 := by
  induction links generalizing x with
  | nil => exact ⟨first, fun link mem => by cases mem⟩
  | cons link links ih =>
      obtain ⟨op, y⟩ := link
      obtain ⟨below, ready⟩ := others (op, y) (by simp)
      have rest := fun link mem => others link (List.mem_cons_of_mem (op, y) mem)
      unfold collapse
      split
      · next same =>
          apply ih
          · refine ⟨Expr.grouped_binary ⟨?_, ?_⟩ first.1 ready.1, ?_⟩
            · exact same ▸ first.2
            · exact same ▸ ready.2
            · exact Nat.le_of_eq ((Expr.binding_binary x y op).trans same).symm
          · exact rest
      · next other =>
          have strictly : op.precedence < level := Nat.lt_of_le_of_ne below other
          obtain ⟨grouped, grown⟩ := ih ⟨ready.1, Nat.le_of_succ_le ready.2⟩ rest
          refine ⟨first, fun link mem => ?_⟩
          rcases List.mem_cons.mp mem with rfl | mem
          · exact ⟨strictly, grouped⟩
          · exact grown link mem

/-- Resolving a sequence of operands gives a grouped tree over the same sequence. -/
theorem resolve_spec {x : Expr} {links : List (BinOp × Expr)} (first : x.IsOperand)
    (others : ∀ link ∈ links, link.2.IsOperand) :
    (resolve Expr.binary x links).Grouped ∧ (resolve Expr.binary x links).first = x ∧
      (resolve Expr.binary x links).links = links := by
  have start : Ready 2 x := ⟨first.flat.2.2, by rw [first]; decide⟩
  have rest : ∀ link ∈ links, link.1.precedence ≤ 2 ∧ Ready 3 link.2 := fun link mem =>
    ⟨Nat.le_of_lt_succ link.1.precedence_lt, (others link mem).flat.2.2,
      Nat.le_of_eq (others link mem).symm⟩
  unfold resolve
  dsimp only
  generalize products : collapse 2 Expr.binary x links = p
  generalize sums : collapse 1 Expr.binary p.1 p.2 = s
  generalize whole : collapse 0 Expr.binary s.1 s.2 = w
  have ready₂ := collapse_ready 2 start rest
  rw [products] at ready₂
  have ready₁ := collapse_ready 1 ⟨ready₂.1.1, Nat.le_of_succ_le ready₂.1.2⟩
    fun link mem => ⟨Nat.le_of_lt_succ (ready₂.2 link mem).1, (ready₂.2 link mem).2⟩
  rw [sums] at ready₁
  have ready₀ := collapse_ready 0 ⟨ready₁.1.1, Nat.zero_le _⟩
    fun link mem => ⟨Nat.le_of_lt_succ (ready₁.2 link mem).1, (ready₁.2 link mem).2⟩
  rw [whole] at ready₀
  -- no operator binds less tightly than a comparison, so none is left
  have done : w.2 = [] := List.eq_nil_iff_forall_not_mem.mpr fun link mem =>
    Nat.not_lt_zero _ (ready₀.2 link mem).1
  have flat₂ := collapse_flat 2 x links
  have flat₁ := collapse_flat 1 p.1 p.2
  have flat₀ := collapse_flat 0 s.1 s.2
  rw [products] at flat₂
  rw [sums] at flat₁
  rw [whole, done, spread_nil, List.append_nil] at flat₀
  obtain ⟨itself, none, _⟩ := first.flat
  refine ⟨ready₀.1.1, ?_, ?_⟩
  · rw [flat₀.1, flat₁.1, flat₂.1, itself]
  · rw [flat₀.2, flat₁.2, flat₂.2, none, spread_operands others, List.nil_append]

/-! ## Only one tree groups a sequence -/

/-- A grouped expression that is no operand: its two operands, and what the node makes of them. -/
structure IsNode (e left : Expr) (op : BinOp) (right : Expr) : Prop where
  groups : Groups left op right
  leftGrouped : left.Grouped
  rightGrouped : right.Grouped
  binding : e.binding = op.precedence
  first : e.first = left.first
  links : e.links = left.links ++ (op, right.first) :: right.links
  erase : e.erase = (Expr.binary left op right).erase

/-- Grouped expressions are operands and nodes over grouped expressions. -/
theorem Expr.Grouped.operand_or_node {e : Expr} (grouped : e.Grouped) :
    e.IsOperand ∨ ∃ left op right, IsNode e left op right := by
  cases e with
  | additive left op right span =>
      obtain ⟨arithmetic, groups, leftGrouped, rightGrouped⟩ := grouped
      refine .inr ⟨left, op, right, groups, leftGrouped, rightGrouped, rfl, rfl, rfl, ?_⟩
      rw [Expr.erase_binary, if_pos arithmetic, Expr.erase]
  | comparison left op right span =>
      obtain ⟨comparison, groups, leftGrouped, rightGrouped⟩ := grouped
      refine .inr ⟨left, op, right, groups, leftGrouped, rightGrouped, rfl, rfl, rfl, ?_⟩
      rw [Expr.erase_binary, comparison, if_neg Bool.false_ne_true, Expr.erase]
  | _ => exact .inl rfl

/-- The operands of a node have fewer operators than the node. -/
theorem IsNode.smaller {e left right : Expr} {op : BinOp} (node : IsNode e left op right) :
    left.links.length < e.links.length ∧ right.links.length < e.links.length := by
  rw [node.links, List.length_append, List.length_cons]
  omega

/-- The operators inside of a grouped expression bind at least as tightly as the expression. -/
theorem Expr.Grouped.binding_le {e : Expr} (grouped : e.Grouped) :
    ∀ link ∈ e.links, e.binding ≤ link.1.precedence := by
  induction size : e.links.length using Nat.strongRecOn generalizing e with
  | ind n ih =>
      subst size
      rcases grouped.operand_or_node with operand | ⟨left, op, right, node⟩
      · rw [operand.flat.2.1]
        intro link mem
        cases mem
      · obtain ⟨smallerLeft, smallerRight⟩ := node.smaller
        rw [node.links, node.binding]
        intro link mem
        rcases List.mem_append.mp mem with mem | mem
        · exact Nat.le_trans node.groups.1 (ih _ smallerLeft node.leftGrouped rfl link mem)
        · rcases List.mem_cons.mp mem with rfl | mem
          · exact Nat.le_refl _
          · exact Nat.le_trans (Nat.le_of_lt node.groups.2)
              (ih _ smallerRight node.rightGrouped rfl link mem)

def eraseLink (link : BinOp × Expr) : BinOp × Expr := (link.1, link.2.erase)

/--
The operator of a node divides its flat sequence.  Two nodes over one sequence
divide it at the same place: an operator further to the left would lie in the
left operand of the other node, and the other one in its right operand, and
each would have to bind more tightly than the other.
-/
theorem split_unique {left₁ right₁ left₂ right₂ : Expr} {op₁ op₂ : BinOp}
    (groups₁ : Groups left₁ op₁ right₁) (groups₂ : Groups left₂ op₂ right₂)
    (right₁Grouped : right₁.Grouped) (left₂Grouped : left₂.Grouped)
    {between : List (BinOp × Expr)}
    (further : left₂.links.map eraseLink = left₁.links.map eraseLink ++ between)
    (same : eraseLink (op₁, right₁.first) :: right₁.links.map eraseLink =
      between ++ eraseLink (op₂, right₂.first) :: right₂.links.map eraseLink) :
    between = [] := by
  cases between with
  | nil => rfl
  | cons link between =>
      rw [List.cons_append, List.cons.injEq] at same
      obtain ⟨rfl, same⟩ := same
      have inLeft : eraseLink (op₁, right₁.first) ∈ left₂.links.map eraseLink := by
        rw [further]
        simp
      have inRight : eraseLink (op₂, right₂.first) ∈ right₁.links.map eraseLink := by
        rw [same]
        simp
      obtain ⟨link₁, mem₁, eq₁⟩ := List.mem_map.mp inLeft
      obtain ⟨link₂, mem₂, eq₂⟩ := List.mem_map.mp inRight
      have le₁ := left₂Grouped.binding_le link₁ mem₁
      have le₂ := right₁Grouped.binding_le link₂ mem₂
      rw [(Prod.mk.inj eq₁).1] at le₁
      rw [(Prod.mk.inj eq₂).1] at le₂
      have order₁ : op₂.precedence ≤ op₁.precedence := Nat.le_trans groups₂.1 le₁
      have order₂ : op₁.precedence < op₂.precedence := Nat.lt_of_lt_of_le groups₁.2 le₂
      exact absurd order₂ (Nat.not_lt.mpr order₁)

/-- Grouped expressions over the same flat sequence are the same, their places apart. -/
theorem Expr.Grouped.unique {e₁ e₂ : Expr} (grouped₁ : e₁.Grouped) (grouped₂ : e₂.Grouped)
    (first : e₁.first.erase = e₂.first.erase)
    (links : e₁.links.map eraseLink = e₂.links.map eraseLink) : e₁.erase = e₂.erase := by
  induction size : e₁.links.length using Nat.strongRecOn generalizing e₁ e₂ with
  | ind n ih =>
      subst size
      have lengths := congrArg List.length links
      rw [List.length_map, List.length_map] at lengths
      rcases grouped₁.operand_or_node with operand₁ | ⟨left₁, op₁, right₁, node₁⟩
      · rcases grouped₂.operand_or_node with operand₂ | ⟨left₂, op₂, right₂, node₂⟩
        · rwa [operand₁.flat.1, operand₂.flat.1] at first
        · rw [operand₁.flat.2.1, node₂.links] at lengths
          simp at lengths
      · rcases grouped₂.operand_or_node with operand₂ | ⟨left₂, op₂, right₂, node₂⟩
        · rw [operand₂.flat.2.1, node₁.links] at lengths
          simp at lengths
        · rw [node₁.links, node₂.links, List.map_append, List.map_append, List.map_cons,
            List.map_cons] at links
          have split : left₁.links.map eraseLink = left₂.links.map eraseLink := by
            rcases List.append_eq_append_iff.mp links with
              ⟨between, left, right⟩ | ⟨between, left, right⟩
            · have none := split_unique node₁.groups node₂.groups node₁.rightGrouped
                node₂.leftGrouped left right
              rw [left, none, List.append_nil]
            · have none := split_unique node₂.groups node₁.groups node₂.rightGrouped
                node₁.leftGrouped left right
              rw [left, none, List.append_nil]
          rw [split, List.append_cancel_left_eq, List.cons.injEq, eraseLink, eraseLink,
            Prod.mk.injEq] at links
          obtain ⟨⟨sameOp, rightFirst⟩, rightLinks⟩ := links
          dsimp only at sameOp rightFirst
          rw [node₁.first, node₂.first] at first
          obtain ⟨smallerLeft, smallerRight⟩ := node₁.smaller
          have leftSame := ih _ smallerLeft node₁.leftGrouped node₂.leftGrouped first split rfl
          have rightSame :=
            ih _ smallerRight node₁.rightGrouped node₂.rightGrouped rightFirst rightLinks rfl
          rw [node₁.erase, node₂.erase, Expr.erase_binary, Expr.erase_binary, sameOp, leftSame,
            rightSame]

/-- The flat sequence of an expression consists of operands. -/
theorem Expr.operands (e : Expr) :
    e.first.IsOperand ∧ ∀ link ∈ e.links, link.2.IsOperand := by
  fun_induction Expr.links e with
  | case1 left op right span ihLeft ihRight | case2 left op right span ihLeft ihRight =>
      refine ⟨ihLeft.1, fun link mem => ?_⟩
      rcases List.mem_append.mp mem with mem | mem
      · exact ihLeft.2 link mem
      · rcases List.mem_cons.mp mem with rfl | mem
        · exact ihRight.1
        · exact ihRight.2 link mem
  | _ => exact ⟨rfl, fun link mem => by cases mem⟩

/-- An expression is well shaped if it is grouped and its operands are well shaped. -/
theorem Expr.shaped_iff (e : Expr) :
    e.Shaped ↔ e.Grouped ∧ e.first.Shaped ∧ ∀ link ∈ e.links, link.2.Shaped := by
  fun_induction Expr.links e with
  | case1 left op right span ihLeft ihRight | case2 left op right span ihLeft ihRight =>
      rw [Expr.Shaped, Expr.Grouped, Expr.first, ihLeft, ihRight, List.forall_mem_append,
        List.forall_mem_cons]
      constructor
      · rintro ⟨kind, groups, ⟨grouped₁, first₁, links₁⟩, grouped₂, first₂, links₂⟩
        exact ⟨⟨kind, groups, grouped₁, grouped₂⟩, first₁, links₁, first₂, links₂⟩
      · rintro ⟨⟨kind, groups, grouped₁, grouped₂⟩, first₁, links₁, first₂, links₂⟩
        exact ⟨kind, groups, ⟨grouped₁, first₁, links₁⟩, grouped₂, first₂, links₂⟩
  | _ => simp [Expr.Grouped, Expr.first]

def linkTokens (links : List (BinOp × Expr)) : List Token :=
  links.flatMap fun link => .operator link.1 :: link.2.tokens

/-- The tokens of an expression are those of its flat sequence. -/
theorem Expr.tokens_eq (e : Expr) : e.tokens = e.first.tokens ++ linkTokens e.links := by
  fun_induction Expr.links e with
  | case1 left op right span ihLeft ihRight | case2 left op right span ihLeft ihRight =>
      rw [Expr.tokens, Expr.first, ihLeft, ihRight]
      simp [linkTokens]
  | _ => simp [Expr.first, linkTokens]

end TinyScript
