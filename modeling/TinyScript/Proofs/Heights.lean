import TinyScript.Proofs.Shape

/-!
# Measuring expressions

Measuring an expression gives its height, unless the height is above the
limit.  Measuring a program succeeds exactly if no expression of it is too tall.
-/

namespace TinyScript

theorem bind_succeeds {ε α β : Type} {x : Except ε α} {f : α → Except ε β} {b : β} :
    x >>= f = .ok b ↔ ∃ a, x = .ok a ∧ f a = .ok b := by
  cases x with
  | error e => exact iff_of_false (fun impossible => by cases impossible) (by simp)
  | ok a => simp [bind, Except.bind]

theorem seq_succeeds {ε β : Type} {x : Except ε Unit} {y : Except ε β} {b : β} :
    (x >>= fun _ => y) = .ok b ↔ x = .ok () ∧ y = .ok b := by
  rw [bind_succeeds]
  exact ⟨fun ⟨(), both⟩ => both, fun both => ⟨(), both⟩⟩

theorem discard_succeeds {ε α : Type} {x : Except ε α} :
    discard x = .ok () ↔ ∃ a, x = .ok a := by
  cases x with
  | error e => exact iff_of_false (fun impossible => by cases impossible) (by simp)
  | ok a => exact iff_of_true rfl ⟨a, rfl⟩

/-- A node may stand on what is lower than the limit. -/
theorem levelAbove_eq_ok {below h : Nat} {span : Span} :
    levelAbove below span = .ok h ↔ h = below + 1 ∧ below + 1 ≤ maxHeight := by
  unfold levelAbove
  split
  · next high => exact iff_of_false (by simp) (by omega)
  · next low =>
      rw [Except.ok.injEq]
      omega

/-- A node is measured if neither of its operands is too tall nor the node above them. -/
theorem measure_operands {left right : Except Span Nat} {l r h : Nat} {span : Span}
    (measureLeft : ∀ n, left = .ok n ↔ n = l ∧ l ≤ maxHeight)
    (measureRight : ∀ n, right = .ok n ↔ n = r ∧ r ≤ maxHeight) :
    (do let a ← left; let b ← right; levelAbove (max a b) span) = .ok h ↔
      h = max l r + 1 ∧ max l r + 1 ≤ maxHeight := by
  simp only [bind_succeeds, measureLeft, measureRight, levelAbove_eq_ok]
  constructor
  · rintro ⟨_, ⟨rfl, _⟩, _, ⟨rfl, _⟩, result⟩
    exact result
  · rintro ⟨rfl, low⟩
    exact ⟨l, ⟨rfl, by omega⟩, r, ⟨rfl, by omega⟩, rfl, low⟩

mutual

theorem measure_expr : (e : Expr) → ∀ h, e.measure = .ok h ↔ h = e.height ∧ e.height ≤ maxHeight
  | .const literal span, h => by
      rw [Expr.measure, Expr.height, Except.ok.injEq, maxHeight]
      omega
  | .ident name span, h => by
      rw [Expr.measure, Expr.height, Except.ok.injEq, maxHeight]
      omega
  | .call callee args span, h => by
      rw [Expr.measure, Expr.height, bind_succeeds]
      simp only [measure_exprs args, levelAbove_eq_ok]
      constructor
      · rintro ⟨_, ⟨rfl, _⟩, result⟩
        exact result
      · rintro ⟨rfl, low⟩
        exact ⟨_, ⟨rfl, by omega⟩, rfl, low⟩
  | .additive left op right span, h => by
      rw [Expr.measure, Expr.height]
      exact measure_operands (measure_expr left) (measure_expr right)
  | .comparison left op right span, h => by
      rw [Expr.measure, Expr.height]
      exact measure_operands (measure_expr left) (measure_expr right)
  | .paren inner span, h => by
      rw [Expr.measure, Expr.height, bind_succeeds]
      simp only [measure_expr inner, levelAbove_eq_ok]
      constructor
      · rintro ⟨_, ⟨rfl, _⟩, result⟩
        exact result
      · rintro ⟨rfl, low⟩
        exact ⟨_, ⟨rfl, by omega⟩, rfl, low⟩

theorem measure_exprs : (es : List Expr) →
    ∀ h, measureAll es = .ok h ↔ h = tallest es ∧ tallest es ≤ maxHeight
  | [], h => by
      rw [measureAll, tallest, Except.ok.injEq]
      omega
  | e :: es, h => by
      rw [measureAll, tallest, bind_succeeds]
      simp only [bind_succeeds, measure_expr e, measure_exprs es]
      constructor
      · rintro ⟨_, ⟨rfl, _⟩, _, ⟨rfl, _⟩, result⟩
        cases result
        exact ⟨rfl, by omega⟩
      · rintro ⟨rfl, low⟩
        exact ⟨_, ⟨rfl, by omega⟩, _, ⟨rfl, by omega⟩, rfl⟩

end

/-- An expression is measured if it is not too tall. -/
theorem discard_measure (e : Expr) : discard e.measure = .ok () ↔ e.height ≤ maxHeight := by
  simp [discard_succeeds, measure_expr]

/-- A condition, a block and an alternative are measured one after the other. -/
theorem measure_guarded {condition : Expr} {body other : Except Span Unit} {m n : Nat}
    (measureBody : body = .ok () ↔ m ≤ maxHeight) (measureOther : other = .ok () ↔ n ≤ maxHeight) :
    (do discard condition.measure; body; other) = .ok () ↔
      max condition.height (max m n) ≤ maxHeight := by
  rw [seq_succeeds, seq_succeeds, discard_measure, measureBody, measureOther]
  omega

mutual

theorem measure_stmt : (s : Stmt) → (s.measure = .ok () ↔ s.tallest ≤ maxHeight)
  | .assign target value span => by
      rw [Stmt.measure, Stmt.tallest, discard_measure]
  | .call callee args span => by
      rw [Stmt.measure, Stmt.tallest, discard_succeeds]
      simp [measure_exprs]
  | .loop kind condition body otherwise span => by
      rw [Stmt.measure, Stmt.tallest]
      exact measure_guarded (measure_block body) (measure_otherwise otherwise)
  | .branch b => by
      rw [Stmt.measure, Stmt.tallest, measure_branch b]

theorem measure_block : (b : Block) → (b.measure = .ok () ↔ b.tallest ≤ maxHeight)
  | .mk stmts span => by
      rw [Block.measure, Block.tallest, measure_stmts stmts]

theorem measure_branch : (b : Branch) → (b.measure = .ok () ↔ b.tallest ≤ maxHeight)
  | .mk condition body otherwise span => by
      rw [Branch.measure, Branch.tallest]
      exact measure_guarded (measure_block body) (measure_otherwise otherwise)

theorem measure_otherwise : (o : Otherwise) → (o.measure = .ok () ↔ o.tallest ≤ maxHeight)
  | .nothing => iff_of_true rfl (Nat.zero_le _)
  | .block body => by
      rw [Otherwise.measure, Otherwise.tallest, measure_block body]
  | .branch b => by
      rw [Otherwise.measure, Otherwise.tallest, measure_branch b]

theorem measure_stmts : (ss : List Stmt) → (measureStmts ss = .ok () ↔ tallestOf ss ≤ maxHeight)
  | [] => iff_of_true rfl (Nat.zero_le _)
  | s :: ss => by
      rw [measureStmts, tallestOf, seq_succeeds, measure_stmt s, measure_stmts ss]
      omega

end

end TinyScript
