import TinyScript.Proofs.Grouping
import TinyScript.Proofs.Heights

/-!
# Precedence climbing

An expression can be built from its flat sequence in one pass: every operator
has a binding power, and an operand goes to the operator on its right only if
that operator binds more tightly than the one on its left.  Whatever the powers
are, as long as they are in the order of the precedences, this builds the
expression that resolving the precedences gives, with its height, and stops at
the first node that would stand too high.  It is the only expression over the
sequence in which every operator stands above operands that bind more tightly.
-/

namespace TinyScript

variable {α β : Type}

namespace Precedence

/-- Binding powers in the order of the precedences.  The power zero is left for no operator. -/
structure Ordered (power : BinOp → Nat) : Prop where
  positive : ∀ op, 0 < power op
  lt_iff : ∀ op op', power op < power op' ↔ op.precedence < op'.precedence

/--
Take operators one by one, as long as they bind more tightly than a limit.
Each has on its left what was built before.  On its right it has the next
operand, with all operators behind it that bind more tightly still.  The result
is what was built, and the sequence that is left over.
-/
def climb (power : BinOp → Nat) (combine : α → BinOp → α → α) (limit : Nat) (left : α)
    (links : List (BinOp × α)) : { r : α × List (BinOp × α) // r.2.length ≤ links.length } :=
  match links with
  | [] => ⟨(left, []), Nat.le_refl _⟩
  | (op, operand) :: links =>
      if limit < power op then
        let right := climb power combine (power op) operand links
        have shorter : right.1.2.length ≤ links.length := right.2
        let all := climb power combine limit (combine left op right.1.1) right.1.2
        ⟨all.1, Nat.le_succ_of_le (Nat.le_trans all.2 shorter)⟩
      else ⟨(left, (op, operand) :: links), Nat.le_refl _⟩
termination_by links.length
decreasing_by
  · exact Nat.lt_succ_self _
  · exact Nat.lt_succ_of_le shorter

variable (power : BinOp → Nat) (combine : α → BinOp → α → α) (limit : Nat) (left : α)

theorem climb_nil : (climb power combine limit left []).1 = (left, []) := by
  rw [climb]

/-- An operator that binds more tightly than the limit is taken. -/
theorem climb_cons {op : BinOp} (tight : limit < power op) (operand : α)
    (links : List (BinOp × α)) :
    (climb power combine limit left ((op, operand) :: links)).1 =
      (climb power combine limit
        (combine left op (climb power combine (power op) operand links).1.1)
        (climb power combine (power op) operand links).1.2).1 := by
  rw [climb, if_pos tight]

/-- An operator within the limit ends the climbing. -/
theorem climb_stop {links : List (BinOp × α)}
    (loose : ∀ link ∈ links.head?, power link.1 ≤ limit) :
    (climb power combine limit left links).1 = (left, links) := by
  cases links with
  | nil => exact climb_nil power combine limit left
  | cons link links =>
      obtain ⟨op, operand⟩ := link
      rw [climb, if_neg (Nat.not_lt.2 (loose _ rfl))]

end Precedence

def mapOperands (f : α → β) (links : List (BinOp × α)) : List (BinOp × β) :=
  links.map fun link => (link.1, f link.2)

theorem mapOperands_eq_self {f : α → α} {links : List (BinOp × α)}
    (same : ∀ link ∈ links, f link.2 = link.2) : mapOperands f links = links := by
  induction links with
  | nil => rfl
  | cons link links ih =>
      obtain ⟨first, others⟩ := List.forall_mem_cons.1 same
      rw [mapOperands, List.map_cons, first, ← mapOperands, ih others]

namespace Precedence

variable {combine : α → BinOp → α → α} {combine' : β → BinOp → β → β} {f : α → β}

/-- What is mapped node by node may be mapped before the climbing or behind it. -/
theorem climb_map (power : BinOp → Nat)
    (nodes : ∀ x op y, f (combine x op y) = combine' (f x) op (f y)) (limit : Nat) (left : α)
    (links : List (BinOp × α)) :
    (climb power combine' limit (f left) (mapOperands f links)).1 =
      (f (climb power combine limit left links).1.1,
        mapOperands f (climb power combine limit left links).1.2) := by
  obtain ⟨n, size⟩ : ∃ n, links.length = n := ⟨_, rfl⟩
  induction n using Nat.strongRecOn generalizing limit left links with
  | ind n ih =>
      subst size
      cases links with
      | nil => rw [mapOperands, List.map_nil, climb_nil, climb_nil]; rfl
      | cons link links =>
          obtain ⟨op, operand⟩ := link
          by_cases tight : limit < power op
          · rw [mapOperands, List.map_cons, ← mapOperands, climb_cons _ _ _ _ tight,
              climb_cons _ _ _ _ tight, ih _ (Nat.lt_succ_self _) _ _ _ rfl, ← nodes]
            exact ih _ (Nat.lt_succ_of_le (climb power combine _ operand links).2) _ _ _ rfl
          · rw [climb_stop, climb_stop]
            · rintro link ⟨⟩
              exact Nat.le_of_not_lt tight
            · rintro link ⟨⟩
              exact Nat.le_of_not_lt tight

/-- What is mapped node by node may be mapped before a pass over one precedence or behind it. -/
theorem collapse_map (nodes : ∀ x op y, f (combine x op y) = combine' (f x) op (f y))
    (level : Nat) (x : α) (links : List (BinOp × α)) :
    collapse level combine' (f x) (mapOperands f links) =
      (f (collapse level combine x links).1, mapOperands f (collapse level combine x links).2) := by
  induction links generalizing x with
  | nil => rfl
  | cons link links ih =>
      obtain ⟨op, y⟩ := link
      rw [mapOperands, List.map_cons, ← mapOperands, collapse, collapse]
      split
      · rw [← nodes, ih]
      · rw [ih]
        rfl

theorem resolve_map (nodes : ∀ x op y, f (combine x op y) = combine' (f x) op (f y)) (x : α)
    (links : List (BinOp × α)) :
    resolve combine' (f x) (mapOperands f links) = f (resolve combine x links) := by
  rw [resolve, resolve, collapse_map nodes, collapse_map nodes, collapse_map nodes]

end Precedence

/-- An expression with the regions of its operators' nodes taken from their operands. -/
def Expr.remerged : Expr → Expr
  | .additive left op right _ =>
      .additive left.remerged op right.remerged (left.remerged.span.merge right.remerged.span)
  | .comparison left op right _ =>
      .comparison left.remerged op right.remerged (left.remerged.span.merge right.remerged.span)
  | .const literal span => .const literal span
  | .ident name span => .ident name span
  | .call callee args span => .call callee args span
  | .paren inner span => .paren inner span

theorem Expr.remerged_binary (left : Expr) (op : BinOp) (right : Expr) :
    (Expr.binary left op right).remerged = .binary left.remerged op right.remerged := by
  unfold Expr.binary
  dsimp only
  split <;> rfl

theorem Expr.IsOperand.remerged {e : Expr} (operand : e.IsOperand) : e.remerged = e := by
  cases e with
  | additive left op right span => exact absurd operand (Nat.ne_of_lt op.precedence_lt)
  | comparison left op right span => exact absurd operand (Nat.ne_of_lt op.precedence_lt)
  | _ => rfl

/-- Resolving takes the regions of nodes from their operands. -/
theorem remerged_resolve {x : Expr} {links : List (BinOp × Expr)} (first : x.IsOperand)
    (others : ∀ link ∈ links, link.2.IsOperand) :
    (Precedence.resolve Expr.binary x links).remerged = Precedence.resolve Expr.binary x links := by
  have mapped := Precedence.resolve_map Expr.remerged_binary x links
  rwa [first.remerged, mapOperands_eq_self fun link mem => (others link mem).remerged,
    eq_comm] at mapped

theorem Precedence.Ordered.le {power : BinOp → Nat} (ordered : Ordered power) {op op' : BinOp}
    (le : op.precedence ≤ op'.precedence) : power op ≤ power op' :=
  Nat.not_lt.1 (mt (ordered.lt_iff op' op).1 (Nat.not_lt.2 le))

/--
Climbing over the flat sequence of a grouped expression builds the expression,
if it takes the operator of the expression, and the operator behind it does not
bind more tightly.
-/
theorem climb_grouped {power : BinOp → Nat} (ordered : Precedence.Ordered power) {e : Expr}
    (grouped : e.Grouped) {limit : Nat} {rest : List (BinOp × Expr)}
    (taken : ∀ op : BinOp, e.binding = op.precedence → limit < power op)
    (behind : ∀ link ∈ rest.head?, link.1.precedence ≤ e.binding) :
    (Precedence.climb power Expr.binary limit e.first (e.links ++ rest)).1 =
      (Precedence.climb power Expr.binary limit e.remerged rest).1 := by
  -- the left operand is built in front of the operator, the right one with the operator's power
  fun_induction Expr.links e generalizing limit rest with
  | case1 left op right span ihLeft ihRight | case2 left op right span ihLeft ihRight =>
      obtain ⟨kind, ⟨leftBinds, rightBinds⟩, leftGrouped, rightGrouped⟩ := grouped
      have tight : limit < power op := taken op rfl
      have leftBuilt := @ihLeft leftGrouped limit ((op, right.first) :: (right.links ++ rest))
        (fun op' root => Nat.lt_of_lt_of_le tight (ordered.le (root ▸ leftBinds)))
        (by rintro link ⟨⟩; exact leftBinds)
      have rightBuilt := @ihRight rightGrouped (power op) rest
        (fun op' root => (ordered.lt_iff op op').2 (root ▸ rightBinds))
        fun link mem => Nat.le_trans (behind link mem) (Nat.le_of_lt rightBinds)
      have stopped := Precedence.climb_stop power Expr.binary (power op) right.remerged
        fun link mem => ordered.le (behind link mem)
      rw [Expr.first, List.append_assoc, List.cons_append, leftBuilt,
        Precedence.climb_cons _ _ _ _ tight, rightBuilt, stopped, Expr.remerged]
      unfold Expr.binary
      simp only [kind, if_true, if_false, Bool.false_eq_true]
  | _ => rfl

/-- Climbing builds what resolving the precedences gives, and nothing is left over. -/
theorem climb_resolve {power : BinOp → Nat} (ordered : Precedence.Ordered power) {x : Expr}
    {links : List (BinOp × Expr)} (first : x.IsOperand)
    (others : ∀ link ∈ links, link.2.IsOperand) :
    (Precedence.climb power Expr.binary 0 x links).1 =
      (Precedence.resolve Expr.binary x links, []) := by
  obtain ⟨grouped, sameFirst, sameLinks⟩ := resolve_spec first others
  have built := @climb_grouped _ ordered _ grouped 0 []
    (fun op _ => ordered.positive op) fun link mem => nomatch mem
  rwa [sameFirst, sameLinks, List.append_nil, Precedence.climb_nil,
    remerged_resolve first others] at built

/-- Only one grouped expression lies over a sequence of operands, the regions of nodes apart. -/
theorem Expr.Grouped.remerged_eq {e : Expr} (grouped : e.Grouped) :
    e.remerged = Precedence.resolve Expr.binary e.first e.links := by
  obtain ⟨first, others⟩ := e.operands
  -- any powers will do, if they are in order
  have ordered : Precedence.Ordered fun op => op.precedence + 1 :=
    ⟨fun op => Nat.succ_pos _, fun op op' => Nat.succ_lt_succ_iff⟩
  have built := @climb_grouped _ ordered _ grouped 0 []
    (fun op _ => ordered.positive op) fun link mem => nomatch mem
  rw [List.append_nil, climb_resolve ordered first others, Precedence.climb_nil] at built
  exact (Prod.mk.inj built).1.symm

def Expr.measured (e : Expr) : Except Span (Expr × Nat) := e.measure.map (e, ·)

/-- The node of an operator over operands with their heights, if it does not stand too high. -/
def raise (left : Except Span (Expr × Nat)) (op : BinOp) (right : Except Span (Expr × Nat)) :
    Except Span (Expr × Nat) := do
  let (l, below) ← left
  let (r, below') ← right
  let height ← levelAbove (max below below') (l.span.merge r.span)
  return (.binary l op r, height)

theorem Expr.measured_binary (left : Expr) (op : BinOp) (right : Expr) :
    (Expr.binary left op right).measured = raise left.measured op right.measured := by
  unfold Expr.measured raise Expr.binary
  cases op.isArithmetic <;> cases measuredLeft : left.measure <;>
    cases measuredRight : right.measure <;>
    simp [Expr.measure, measuredLeft, measuredRight] <;> rfl

theorem Expr.measured_eq_ok {e e' : Expr} {height : Nat} :
    e.measured = .ok (e', height) ↔ e' = e ∧ height = e.height ∧ e.height ≤ maxHeight := by
  rw [Expr.measured, ← measure_expr e height]
  cases e.measure with
  | error span => exact iff_of_false nofun fun both => nomatch both.2
  | ok h => simp [Except.map, eq_comm]

/-- Build an expression by climbing over its flat sequence, the operands and the nodes measured. -/
def buildExpr (power : BinOp → Nat) (first : Expr) (links : List (BinOp × Expr)) :
    Except Span (Expr × Nat) :=
  (Precedence.climb power raise 0 first.measured (mapOperands Expr.measured links)).1.1

/-- Building measures the expression that resolving the precedences gives. -/
theorem buildExpr_eq {power : BinOp → Nat} (ordered : Precedence.Ordered power) {x : Expr}
    {links : List (BinOp × Expr)} (first : x.IsOperand)
    (others : ∀ link ∈ links, link.2.IsOperand) :
    buildExpr power x links = (Precedence.resolve Expr.binary x links).measured := by
  rw [buildExpr, Precedence.climb_map power Expr.measured_binary,
    climb_resolve ordered first others]

inductive Item where
  | operand (e : Expr)
  | operator (op : BinOp)

/-- The operands and the operators of an expression in order, parentheses and calls not entered. -/
def Expr.inOrder : Expr → List Item
  | .additive left op right _ => left.inOrder ++ .operator op :: right.inOrder
  | .comparison left op right _ => left.inOrder ++ .operator op :: right.inOrder
  | .const literal span => [.operand (.const literal span)]
  | .ident name span => [.operand (.ident name span)]
  | .call callee args span => [.operand (.call callee args span)]
  | .paren inner span => [.operand (.paren inner span)]

def flatItems (first : Expr) (links : List (BinOp × Expr)) : List Item :=
  .operand first :: links.flatMap fun link => [.operator link.1, .operand link.2]

theorem Expr.inOrder_eq (e : Expr) : e.inOrder = flatItems e.first e.links := by
  fun_induction Expr.links e with
  | case1 left op right span ihLeft ihRight | case2 left op right span ihLeft ihRight =>
      rw [Expr.inOrder, Expr.first, ihLeft, ihRight]
      simp [flatItems]
  | _ => rfl

theorem flatItems_inj {x y : Expr} {links links' : List (BinOp × Expr)}
    (same : flatItems x links = flatItems y links') : x = y ∧ links = links' := by
  obtain ⟨first, others⟩ := List.cons.inj same
  refine ⟨Item.operand.inj first, ?_⟩
  clear same first
  induction links generalizing links' with
  | nil =>
      cases links' with
      | nil => rfl
      | cons link links' => cases others
  | cons link links ih =>
      cases links' with
      | nil => cases others
      | cons link' links' =>
          simp only [List.flatMap_cons, List.cons_append, List.nil_append, List.cons.injEq,
            Item.operator.injEq, Item.operand.injEq] at others
          obtain ⟨op, operand, others⟩ := others
          rw [Prod.ext op operand, ih others]

/--
**Precedence climbing.**  Over every sequence of operands with operators
between them, and for all binding powers in the order of the precedences:

* building succeeds exactly if no node stands too high, with the expression
  that resolving the precedences gives, and with its height;
* going through this expression meets the operands and operators of the
  sequence, in order;
* the operators stand in nodes of their kind, and the operator of a left
  operand binds as tightly as the one above it at least, that of a right
  operand more tightly;
* every other expression with these two properties is the same, but for the
  regions of its operators' nodes.
-/
theorem precedence_climbing_exact {power : BinOp → Nat} (ordered : Precedence.Ordered power)
    {x : Expr} {links : List (BinOp × Expr)} (first : x.IsOperand)
    (others : ∀ link ∈ links, link.2.IsOperand) :
    let e := Precedence.resolve Expr.binary x links
    (∀ built height, buildExpr power x links = .ok (built, height) ↔
      built = e ∧ height = e.height ∧ e.height ≤ maxHeight) ∧
    e.inOrder = flatItems x links ∧ e.Grouped ∧
    ∀ other : Expr, other.inOrder = flatItems x links → other.Grouped → other.remerged = e := by
  intro e
  obtain ⟨grouped, sameFirst, sameLinks⟩ := resolve_spec first others
  refine ⟨fun built height => ?_, ?_, grouped, fun other items otherGrouped => ?_⟩
  · rw [buildExpr_eq ordered first others, Expr.measured_eq_ok]
  · rw [Expr.inOrder_eq, sameFirst, sameLinks]
  · obtain ⟨rfl, rfl⟩ := flatItems_inj (other.inOrder_eq.symm.trans items)
    exact otherGrouped.remerged_eq

def mixedOperators : Expr × List (BinOp × Expr) :=
  let name (text : String) (column : UInt32) : Expr :=
    .ident text ⟨⟨1, column⟩, ⟨1, column + 1⟩⟩
  (name "a" 1, [(.sub, name "b" 5), (.add, name "c" 9), (.mul, name "d" 13),
    (.greater, name "e" 17), (.eq, name "f" 22)])

/-- Five operators of three precedences, built with powers in steps of ten. -/
theorem precedence_climbing_exact_mixedOperators :
    let power (op : BinOp) := 10 * (op.precedence + 1)
    let e := Precedence.resolve Expr.binary mixedOperators.1 mixedOperators.2
    Precedence.Ordered power ∧ mixedOperators.1.IsOperand ∧
      (∀ link ∈ mixedOperators.2, link.2.IsOperand) ∧
      buildExpr power mixedOperators.1 mixedOperators.2 = .ok (e, 5) ∧
      e.inOrder = flatItems mixedOperators.1 mixedOperators.2 ∧ e.Grouped ∧
      e.span = ⟨⟨1, 1⟩, ⟨1, 23⟩⟩ := by
  intro power e
  have ordered : Precedence.Ordered power :=
    ⟨fun op => Nat.succ_pos _, fun op op' => by simp only [power]; omega⟩
  have others : ∀ link ∈ mixedOperators.2, link.2.IsOperand := by
    simp [mixedOperators, Expr.IsOperand, Expr.binding]
  obtain ⟨built, items, grouped, _⟩ :=
    precedence_climbing_exact ordered (x := mixedOperators.1) rfl others
  exact ⟨ordered, rfl, others, (built e 5).2 ⟨rfl, rfl, by decide⟩, items, grouped, rfl⟩

end TinyScript
