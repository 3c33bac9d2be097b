import TinyScript.Proofs.Avoiding
import TinyScript.Proofs.Levels

/-!
# Evaluation of well-shaped trees

Evaluating a well-shaped tree raises no internal error, and no stack overflow
if there is room for all its levels.  The proof goes along the evaluator, one
case for each kind of node; both errors are avoided by the same argument.
-/

namespace TinyScript

open Eval

variable {σ : Type}

section

variable {known : Nat → Prop} {v : Value}

theorem literal_known {literal : Literal} (given : literal.value = .ok v) : v.Known known := by
  obtain ⟨kind, text⟩ := literal
  cases kind with
  | integer =>
      simp only [Literal.value] at given
      split at given <;> cases given
      trivial
  | float =>
      simp only [Literal.value] at given
      split at given <;> cases given
      trivial
  | text =>
      simp only [Literal.value] at given
      split at given <;> cases given
      trivial
  | boolean =>
      simp only [Literal.value] at given
      split at given
      · cases given
        trivial
      · split at given <;> cases given
        trivial
  | null =>
      cases given
      trivial

theorem arithmetic_known {op : BinOp} {left right : Value}
    (given : op.arithmetic left right = .ok v) : v.Known known := by
  unfold BinOp.arithmetic at given
  split at given
  · cases given
  · split at given
    · split at given <;> cases given
      trivial
    · cases given
      trivial
    · cases given
      trivial
    · cases given
      trivial
    · split at given <;> cases given
      trivial

theorem comparison_known {op : BinOp} {left right : Value}
    (given : op.comparison left right = .ok v) : v.Known known := by
  have ordered {op : BinOp} {wanted : Ordering} (given : op.ordered wanted left right = .ok v) :
      v.Known known := by
    unfold BinOp.ordered at given
    split at given <;> cases given
    trivial
  cases op with
  | eq =>
      cases given
      trivial
  | notEq =>
      cases given
      trivial
  | greater => exact ordered given
  | less => exact ordered given
  | _ => cases given

end

/-- There is room for so many further levels, if stack overflows are the concern. -/
def Room (kind : ErrorKind) (limits : Limits) (depth levels : Nat) : Prop :=
  kind = .stackOverflow → depth + levels ≤ limits.maxDepth

namespace Room

variable {kind : ErrorKind} {limits : Limits} {depth levels : Nat}

theorem mono (room : Room kind limits depth levels) {fewer : Nat} (le : fewer ≤ levels) :
    Room kind limits depth fewer := by
  intro same
  have enough := room same
  omega

theorem first (room : Room kind limits depth (levels + 1)) :
    kind = .stackOverflow → depth < limits.maxDepth := by
  intro same
  have enough := room same
  omega

theorem inside (room : Room kind limits depth (levels + 1)) :
    Room kind limits (depth + 1) levels := by
  intro same
  have enough := room same
  omega

end Room

section

variable {kind : ErrorKind} {known : Nat → Prop} {inv : σ → Prop} {setting : Setting σ}

/-- A literal of its kind is no internal error. -/
theorem avoids_literal (concerned : Concerned kind) {literal : Literal}
    (lexical : literal.IsLexical) (depth : Nat) :
    Avoids kind (At known inv depth) (ofExcept literal.value) (·.Known known) := by
  refine avoids_ofExcept (fun v => literal_known) fun e failed => ?_
  rcases lexical.readable with ⟨v, value⟩ | ⟨_, detail, value⟩
  · rw [value] at failed
    cases failed
  · rw [value] at failed
    cases failed
    have other : kind ≠ .overflow := concerned.ne (by decide)
    exact Ne.symm other

mutual

theorem avoids_expr (concerned : Concerned kind) (spares : setting.host.Spares kind known inv) :
    (e : Expr) → ∀ {depth : Nat}, e.Shaped →
    Room kind setting.limits depth e.height →
    Avoids kind (At known inv depth) (evalExpr setting e) (·.Known known)
  | .const literal span, depth, shaped, room => by
      rw [evalExpr]
      exact avoids_nested concerned room.first (avoids_literal concerned shaped _)
  | .ident name span, depth, shaped, room => by
      rw [evalExpr]
      exact avoids_nested concerned room.first (avoids_lookup concerned name)
  | .call callee args span, depth, shaped, room => by
      rw [evalExpr]
      refine avoids_nested concerned room.first ?_
      refine (avoids_callee concerned callee.name).bind fun f knownCallee => ?_
      refine (avoids_args concerned spares args shaped.2 room.inside).bind
        fun values knownValues => ?_
      refine (avoids_emit _).bind fun _ _ => ?_
      refine (avoids_invoke concerned spares knownCallee knownValues).bind
        fun result knownResult => avoids_pure ?_
      cases result with
      | none => trivial
      | some v => exact knownResult v rfl
  | .additive left op right span, depth, ⟨isArithmetic, _, shapedLeft, shapedRight⟩, room => by
      rw [evalExpr]
      refine avoids_nested concerned room.first ?_
      have roomLeft := room.inside.mono (Nat.le_max_left _ _)
      have roomRight := room.inside.mono (Nat.le_max_right _ _)
      refine (avoids_expr concerned spares left shapedLeft roomLeft).bind fun l _ => ?_
      refine (avoids_expr concerned spares right shapedRight roomRight).bind fun r _ => ?_
      refine avoids_ofExcept (fun v => arithmetic_known) fun e failed => ?_
      rcases arithmetic_error isArithmetic failed with same | same <;>
        exact fun same' => concerned.ne (by decide) (same'.symm.trans same)
  | .comparison left op right span, depth, ⟨isComparison, _, shapedLeft, shapedRight⟩, room => by
      rw [evalExpr]
      refine avoids_nested concerned room.first ?_
      have roomLeft := room.inside.mono (Nat.le_max_left _ _)
      have roomRight := room.inside.mono (Nat.le_max_right _ _)
      refine (avoids_expr concerned spares left shapedLeft roomLeft).bind fun l _ => ?_
      refine (avoids_expr concerned spares right shapedRight roomRight).bind fun r _ => ?_
      refine avoids_ofExcept (fun v => comparison_known) fun e failed => ?_
      have same := comparison_error isComparison failed
      exact fun same' => concerned.ne (by decide) (same'.symm.trans same)
  | .paren inner span, depth, shaped, room => by
      rw [evalExpr]
      exact avoids_nested concerned room.first
        (avoids_expr concerned spares inner shaped room.inside)

theorem avoids_args (concerned : Concerned kind) (spares : setting.host.Spares kind known inv) :
    (es : List Expr) → ∀ {depth : Nat}, ShapedExprs es →
    Room kind setting.limits depth (tallest es) →
    Avoids kind (At known inv depth) (evalArgs setting es) fun vs => ∀ v ∈ vs, v.Known known
  | [], depth, _, _ => by
      rw [evalArgs]
      exact avoids_pure (List.forall_mem_nil _)
  | e :: es, depth, ⟨shaped, others⟩, room => by
      rw [evalArgs]
      have roomFirst := room.mono (Nat.le_max_left _ _)
      have roomOthers := room.mono (Nat.le_max_right _ _)
      refine (avoids_expr concerned spares e shaped roomFirst).bind fun v knownFirst => ?_
      refine (avoids_args concerned spares es others roomOthers).bind fun vs knownOthers => ?_
      exact avoids_pure (List.forall_mem_cons.mpr ⟨knownFirst, knownOthers⟩)

end

/-- A value that is no boolean is reported as such. -/
theorem avoids_condition (concerned : Concerned kind) (keyword : String) (span : Span)
    (value : Value) (depth : Nat) :
    Avoids kind (At known inv depth) (condition keyword span value : Eval σ Bool)
      fun _ => True := by
  unfold condition
  cases value.truth? with
  | some b => exact avoids_pure trivial
  | none =>
      have other : kind ≠ .notBoolean := concerned.ne (by decide)
      exact avoids_locate_fail (Ne.symm other) span

theorem avoids_evalCondition (concerned : Concerned kind)
    (spares : setting.host.Spares kind known inv) (keyword : String) {e : Expr} {depth : Nat}
    (shaped : e.Shaped) (room : Room kind setting.limits depth e.height) :
    Avoids kind (At known inv depth) (evalCondition setting keyword e) fun _ => True := by
  rw [evalCondition]
  refine (avoids_expr concerned spares e shaped room).bind fun v _ => ?_
  exact avoids_condition concerned keyword e.span v depth

mutual

theorem avoids_stmt (concerned : Concerned kind) (spares : setting.host.Spares kind known inv) :
    (s : Stmt) → ∀ {depth : Nat}, s.Shaped → Room kind setting.limits depth s.levels →
    Avoids kind (At known inv depth) (evalStmt setting s) fun _ => True
  | .assign target value span, depth, ⟨_, shaped⟩, room => by
      rw [evalStmt]
      refine avoids_nested concerned room.first ?_
      refine (avoids_expr concerned spares value shaped room.inside).bind fun v isKnown => ?_
      refine (avoids_emit _).bind fun _ _ => ?_
      exact (avoids_assign target.name isKnown).bind fun _ _ => avoids_pure trivial
  | .call callee args span, depth, ⟨_, shaped⟩, room => by
      rw [evalStmt]
      refine avoids_nested concerned room.first ?_
      refine (avoids_callee concerned callee.name).bind fun f knownCallee => ?_
      refine (avoids_args concerned spares args shaped room.inside).bind
        fun values knownValues => ?_
      refine (avoids_emit _).bind fun _ _ => ?_
      exact (avoids_invoke concerned spares knownCallee knownValues).weaken fun _ _ => trivial
  | .loop kind' condition body otherwise span, depth, ⟨guard, inside, other⟩, room => by
      rw [evalStmt]
      refine avoids_nested concerned room.first ?_
      have roomGuard := room.inside.mono (Nat.le_max_left _ _)
      have roomBody := room.inside.mono
        (Nat.le_trans (Nat.le_max_left _ _) (Nat.le_max_right _ _))
      have roomOther := room.inside.mono
        (Nat.le_trans (Nat.le_max_right _ _) (Nat.le_max_right _ _))
      have check : Avoids kind (At known inv (depth + 1))
          (do return kind'.continues (← evalCondition setting kind'.keyword condition))
          fun _ => True :=
        (avoids_evalCondition concerned spares kind'.keyword guard roomGuard).bind
          fun _ _ => avoids_pure trivial
      refine check.bind fun goesOn _ => ?_
      cases goesOn with
      | true =>
          have round := (avoids_block concerned spares body inside roomBody).bind fun _ _ => check
          refine (avoids_repeatRounds round setting.rounds 0).bind fun n _ => ?_
          exact (avoids_emit _).bind fun _ _ => avoids_pure trivial
      | false =>
          exact (avoids_otherwise concerned spares otherwise other roomOther).bind
            fun _ _ => avoids_pure trivial
  | .branch b, depth, shaped, room => by
      rw [evalStmt]
      refine avoids_nested concerned room.first ?_
      exact (avoids_branch concerned spares b shaped room.inside).bind
        fun _ _ => avoids_pure trivial

theorem avoids_block (concerned : Concerned kind) (spares : setting.host.Spares kind known inv) :
    (b : Block) → ∀ {depth : Nat}, b.Shaped → Room kind setting.limits depth b.levels →
    Avoids kind (At known inv depth) (evalBlock setting b) fun _ => True
  | .mk stmts span, depth, shaped, room => by
      rw [evalBlock]
      exact avoids_stmts concerned spares stmts shaped room

theorem avoids_branch (concerned : Concerned kind) (spares : setting.host.Spares kind known inv) :
    (b : Branch) → ∀ {depth : Nat}, b.Shaped → Room kind setting.limits depth b.levels →
    Avoids kind (At known inv depth) (evalBranch setting b) fun _ => True
  | .mk condition body otherwise span, depth, ⟨guard, inside, other⟩, room => by
      rw [evalBranch]
      have roomGuard := room.mono (Nat.le_max_left _ _)
      have roomBody := room.mono (Nat.le_trans (Nat.le_max_left _ _) (Nat.le_max_right _ _))
      have roomOther := room.mono (Nat.le_trans (Nat.le_max_right _ _) (Nat.le_max_right _ _))
      refine (avoids_evalCondition concerned spares "if" guard roomGuard).bind fun holds _ => ?_
      cases holds with
      | true => exact avoids_block concerned spares body inside roomBody
      | false => exact avoids_otherwise concerned spares otherwise other roomOther

theorem avoids_otherwise (concerned : Concerned kind)
    (spares : setting.host.Spares kind known inv) :
    (o : Otherwise) → ∀ {depth : Nat}, o.Shaped → Room kind setting.limits depth o.levels →
    Avoids kind (At known inv depth) (evalOtherwise setting o) fun _ => True
  | .nothing, depth, _, _ => by
      rw [evalOtherwise]
      exact avoids_pure trivial
  | .block body, depth, shaped, room => by
      rw [evalOtherwise]
      exact avoids_block concerned spares body shaped room
  | .branch b, depth, shaped, room => by
      rw [evalOtherwise]
      exact avoids_branch concerned spares b shaped room

theorem avoids_stmts (concerned : Concerned kind) (spares : setting.host.Spares kind known inv) :
    (ss : List Stmt) → ∀ {depth : Nat}, ShapedStmts ss →
    Room kind setting.limits depth (mostLevels ss) →
    Avoids kind (At known inv depth) (evalStmts setting ss) fun _ => True
  | [], depth, _, _ => by
      rw [evalStmts]
      exact avoids_pure trivial
  | s :: ss, depth, ⟨shaped, others⟩, room => by
      rw [evalStmts]
      have first : Avoids kind (At known inv depth) (discard (evalStmt setting s)) fun _ => True :=
        (avoids_stmt concerned spares s shaped (room.mono (Nat.le_max_left _ _))).bind
          fun _ _ => avoids_pure trivial
      refine first.bind fun _ _ => ?_
      exact avoids_stmts concerned spares ss others (room.mono (Nat.le_max_right _ _))

end

/-- A whole run avoids what its statements avoid; flushing adds errors of the output only. -/
theorem avoids_program (concerned : Concerned kind) (spares : setting.host.Spares kind known inv)
    {program : Program} (shaped : ShapedStmts program.stmts) {s : State σ}
    (within : s.Within known inv)
    (room : Room kind setting.limits s.depth (mostLevels program.stmts)) :
    Spared kind (fun _ => True) (fun _ => True) (evalProgram setting program s) := by
  let ready : State σ :=
    { s with events := s.events.push (.evaluating program.stmts.length), errorSpan := none }
  have start : At known inv s.depth ready := ⟨⟨within.bound, within.host⟩, rfl⟩
  have outcome := spared_attempt
    (avoids_stmts concerned spares program.stmts shaped room ready start)
  change Spared kind _ _ ((attempt (evalStmts setting program.stmts) >>= _) ready)
  refine outcome.bind fun result spared => avoids_get.bind fun s' _ => ?_
  have ending : ∀ e, (result.bind fun _ => s'.sink.flush) = .error e → e.kind ≠ kind := by
    intro e failed
    cases result with
    | error e' =>
        cases failed
        exact spared e rfl
    | ok u =>
        have other : kind ≠ .output := concerned.ne (by decide)
        rw [flush_error failed]
        exact Ne.symm other
  cases final : result.bind fun _ => s'.sink.flush with
  | ok u => exact avoids_modify fun _ _ => trivial
  | error e => exact (avoids_modify fun _ _ => trivial).bind fun _ _ => avoids_fail (ending e final)

end

end TinyScript
