import TinyScript.Proofs.Yielding

/-!
# Loops and branches

A loop is a branch on its condition: if the loop goes on, then its body and the
rest of the loop, which has no alternative any more, and otherwise the
alternative.  Taking the first round out of a loop in this way changes neither
whether the loop ends, nor its result, the store after it, or what is done on
the way, as long as the budgets last.  Only an error of the first check quotes
the keyword of the statement that it belongs to.
-/

namespace TinyScript

open Eval

variable {σ α β : Type}

def Block.followedBy (body : Block) (last : Stmt) : Block :=
  .mk (body.stmts ++ [last]) body.span

/-- An alternative as a block: empty if there is none; a further branch gets a block of its own. -/
def Otherwise.asBlock (span : Span) : Otherwise → Block
  | .nothing => .mk [] span
  | .block body => body
  | .branch b => .mk [.branch b] span

/-- A branch that takes the first round of a loop, and then runs what is left of the loop. -/
def unrolled (kind : LoopKind) (condition : Expr) (body : Block) (otherwise : Otherwise)
    (span : Span) : Stmt :=
  let round := body.followedBy (.loop kind condition body .nothing span)
  match kind with
  | .whileTrue => .branch (.mk condition round otherwise span)
  | .untilTrue => .branch (.mk condition (otherwise.asBlock span) (.block round) span)

/-- What an unrolled loop does if its condition ends the loop at once. -/
def Otherwise.atOnce (kind : LoopKind) (span : Span) (otherwise : Otherwise) : Otherwise :=
  match kind with
  | .whileTrue => otherwise
  | .untilTrue => .block (otherwise.asBlock span)

section

variable (setting : Setting σ)

theorem evalStmts_append (ss ss' : List Stmt) :
    evalStmts setting (ss ++ ss') = evalStmts setting ss >>= fun _ => evalStmts setting ss' := by
  induction ss with
  | nil => rw [List.nil_append, evalStmts, pure_bind]
  | cons s ss ih => rw [List.cons_append, evalStmts, evalStmts, ih, bind_assoc]

theorem evalStmts_singleton (s : Stmt) :
    evalStmts setting [s] = discard (evalStmt setting s) := by
  rw [evalStmts, evalStmts]
  exact bind_pure _

theorem History.andThen_assoc (h : History σ) (p : Eval σ α) (k : α → History σ)
    (f : α → Eval σ β) (l : β → History σ) :
    (h.andThen p k).andThen (p >>= f) l = h.andThen p fun a => (k a).andThen (f a) l := by
  funext s
  simp only [andThen, after, bind_eq]
  cases p s with
  | ok a s' => exact List.append_assoc _ _ _
  | error halt s' => simp

theorem History.andThen_map (h : History σ) (p : Eval σ α) (g : α → β) (k : β → History σ) :
    h.andThen (do return g (← p)) k = h.andThen p fun a => k (g a) := by
  funext s
  simp only [andThen, after, bind_eq]
  cases p s <;> rfl

theorem stmtDeeds_append (ss ss' : List Stmt) :
    stmtDeeds setting (ss ++ ss') =
      (stmtDeeds setting ss).andThen (evalStmts setting ss) fun _ => stmtDeeds setting ss' := by
  induction ss with
  | nil =>
      rw [List.nil_append, stmtDeeds, evalStmts]
      rfl
  | cons s ss ih =>
      rw [List.cons_append, stmtDeeds, stmtDeeds, evalStmts, ih, History.andThen_assoc]

theorem stmtDeeds_singleton (s : Stmt) : stmtDeeds setting [s] = s.deeds setting := by
  rw [stmtDeeds, stmtDeeds, History.andThen_nothing]

theorem Block.followedBy_eq (body : Block) (last : Stmt) :
    evalBlock setting (body.followedBy last) =
      (evalBlock setting body >>= fun _ => discard (evalStmt setting last)) ∧
    (body.followedBy last).deeds setting =
      (body.deeds setting).andThen (evalBlock setting body) fun _ => last.deeds setting := by
  obtain ⟨stmts, span⟩ := body
  rw [followedBy, evalBlock, evalBlock, Block.deeds, Block.deeds, Block.stmts, evalStmts_append,
    evalStmts_singleton, stmtDeeds_append, stmtDeeds_singleton]
  exact ⟨rfl, rfl⟩

/-- What is done if a loop ends at once: the same, but a branch may be in a block of its own. -/
theorem Otherwise.atOnce_cases (kind : LoopKind) (span : Span) (otherwise : Otherwise) :
    (∀ setting : Setting σ,
      evalOtherwise setting (otherwise.atOnce kind span) = evalOtherwise setting otherwise ∧
      (otherwise.atOnce kind span).deeds setting = otherwise.deeds setting) ∨
    ∃ branch, otherwise = .branch branch ∧ ∀ setting : Setting σ,
      evalOtherwise setting (otherwise.atOnce kind span) =
        Eval.nested setting.limits branch.span (evalBranch setting branch) ∧
      (otherwise.atOnce kind span).deeds setting =
        .inside setting.limits (branch.deeds setting) := by
  cases kind with
  | whileTrue => exact .inl fun setting => ⟨rfl, rfl⟩
  | untilTrue =>
      simp only [atOnce, evalOtherwise, Otherwise.deeds]
      cases otherwise with
      | nothing =>
          simp only [asBlock, evalBlock, Block.deeds, evalStmts, stmtDeeds]
          exact .inl fun setting => ⟨rfl, rfl⟩
      | block body =>
          rw [asBlock]
          exact .inl fun setting => ⟨rfl, rfl⟩
      | branch branch =>
          simp only [asBlock, evalBlock, Block.deeds, evalStmts_singleton, stmtDeeds_singleton,
            discard_branch, Stmt.deeds]
          exact .inr ⟨branch, rfl, fun setting => ⟨rfl, rfl⟩⟩

variable (kind : LoopKind) (condition : Expr) (body : Block) (otherwise : Otherwise) (span : Span)

theorem evalCheck_bind (f : Bool → Eval σ α) :
    evalCheck setting kind condition >>= f =
      evalCondition setting kind.keyword condition >>= fun holds => f (kind.continues holds) := by
  rw [evalCheck, bind_assoc]
  simp only [pure_bind]

/-- A loop, with its first check in front. -/
theorem loop_eq :
    discard (evalStmt setting (.loop kind condition body otherwise span)) =
      Eval.nested setting.limits span (do
        if kind.continues (← evalCondition setting kind.keyword condition) then
          let iterations ← repeatRounds (do
            evalBlock setting body
            evalCheck setting kind condition) setting.rounds 0
          emit (.loopFinished kind iterations)
        else evalOtherwise setting otherwise) ∧
    (Stmt.loop kind condition body otherwise span).deeds setting =
      .inside setting.limits ((condition.deeds setting).andThen
        (evalCondition setting kind.keyword condition) fun holds =>
          if kind.continues holds then
            .rounds ((body.deeds setting).andThen (evalBlock setting body) fun _ =>
              condition.deeds setting)
              (evalBlock setting body >>= fun _ => evalCheck setting kind condition) setting.rounds
          else otherwise.deeds setting) := by
  rw [discard_loop, evalCheck_bind, Stmt.deeds]
  exact ⟨rfl, congrArg _ (History.andThen_map _ _ _ _)⟩

/-- An unrolled loop: its check, and one round with the rest of the loop behind it. -/
theorem unrolled_eq :
    discard (evalStmt setting (unrolled kind condition body otherwise span)) =
      Eval.nested setting.limits span (do
        if kind.continues (← evalCondition setting "if" condition) then
          evalBlock setting body
          discard (evalStmt setting (.loop kind condition body .nothing span))
        else evalOtherwise setting (otherwise.atOnce kind span)) ∧
    (unrolled kind condition body otherwise span).deeds setting =
      .inside setting.limits ((condition.deeds setting).andThen
        (evalCondition setting "if" condition) fun holds =>
          if kind.continues holds then
            (body.deeds setting).andThen (evalBlock setting body) fun _ =>
              (Stmt.loop kind condition body .nothing span).deeds setting
          else (otherwise.atOnce kind span).deeds setting) := by
  have round := body.followedBy_eq setting (.loop kind condition body .nothing span)
  cases kind with
  | whileTrue =>
      simp only [unrolled, discard_branch, evalBranch, Stmt.deeds, Branch.deeds, round]
      exact ⟨rfl, rfl⟩
  | untilTrue =>
      simp only [unrolled, discard_branch, evalBranch, evalOtherwise, Stmt.deeds, Branch.deeds,
        Otherwise.deeds, round]
      constructor
      · refine congrArg _ (bind_congr fun holds => ?_)
        cases holds <;> simp [LoopKind.continues, Otherwise.atOnce, evalOtherwise]
      · refine congrArg _ (congrArg _ (funext fun holds => ?_))
        cases holds <;> simp [LoopKind.continues, Otherwise.atOnce, Otherwise.deeds]

end

/-! ## Coupling a loop with its unrolled form -/

section

variable {early : Prop} {a b : Setting σ} {i j : Nat}

/-- A branch in a block of its own is a node deeper than the branch by itself. -/
theorem couples_atOnce (longer : Longer early a b) (kind : LoopKind) (span : Span)
    (otherwise : Otherwise) (fits : a.limits.maxDepth + j + 1 ≤ b.limits.maxDepth + i)
    (room : j < b.limits.maxDepth) :
    Couples a.limits early Eq i j (evalOtherwise a otherwise) (otherwise.deeds a)
      (evalOtherwise b (otherwise.atOnce kind span)) ((otherwise.atOnce kind span).deeds b) := by
  rcases otherwise.atOnce_cases kind span with same | ⟨branch, rfl, wrapped⟩
  · rw [(same b).1, (same b).2]
    exact coupled_otherwise longer otherwise i j (by omega)
  · rw [(wrapped b).1, (wrapped b).2, evalOtherwise, Otherwise.deeds]
    have inside := coupled_branch longer branch i (j + 1) (by omega)
    exact .nestedRight longer.unlimited room branch.span inside

/-- A branch by itself is a node less deep than the branch in a block of its own. -/
theorem atOnce_couples (longer : Longer early a b) (kind : LoopKind) (span : Span)
    (otherwise : Otherwise) (fits : a.limits.maxDepth + j ≤ b.limits.maxDepth + i) :
    Couples a.limits early Eq i j (evalOtherwise a (otherwise.atOnce kind span))
      ((otherwise.atOnce kind span).deeds a) (evalOtherwise b otherwise) (otherwise.deeds b) := by
  rcases otherwise.atOnce_cases kind span with same | ⟨branch, rfl, wrapped⟩
  · rw [(same a).1, (same a).2]
    exact coupled_otherwise longer otherwise i j fits
  · rw [(wrapped a).1, (wrapped a).2, evalOtherwise, Otherwise.deeds]
    have inside := coupled_branch longer branch (i + 1) j (by omega)
    exact .nestedLeft branch.span fun _ => inside

theorem repeatRounds_succ (event : Nat → Event) (p : Eval σ Unit) (q : Eval σ Bool)
    (bound done : Nat) :
    (repeatRounds (p >>= fun _ => q) (bound + 1) done >>= fun n => emit (event n)) =
      p >>= fun _ => q >>= fun again =>
        if again then
          repeatRounds (p >>= fun _ => q) bound (done + 1) >>= fun n => emit (event n)
        else emit (event (done + 1)) := by
  rw [repeatRounds]
  simp only [bind_assoc]
  refine bind_congr fun _ => bind_congr fun again => ?_
  cases again <;> rfl

theorem rounds_succ (p : Eval σ Unit) (h : History σ) (q : Eval σ Bool) (k : History σ)
    (bound : Nat) :
    History.rounds (h.andThen p fun _ => k) (p >>= fun _ => q) (bound + 1) =
      h.andThen p fun _ => k.andThen q fun again =>
        if again then .rounds (h.andThen p fun _ => k) (p >>= fun _ => q) bound else .nothing := by
  rw [History.rounds, History.andThen_assoc]

/-- A loop does what its unrolled form does, in a setting with one more level for the latter. -/
theorem mimics_unrolled (σ : Type) (kind : LoopKind) (condition : Expr) (body : Block)
    (otherwise : Otherwise) (span : Span) :
    Mimics σ kind.keyword "if" (.loop kind condition body otherwise span)
      (unrolled kind condition body otherwise span) := by
  intro a b longer _ i j fits
  rw [(loop_eq a kind condition body otherwise span).1,
    (loop_eq a kind condition body otherwise span).2, (unrolled_eq b ..).1, (unrolled_eq b ..).2]
  refine .nestedLeft span fun room => .nestedRight longer.unlimited (by omega) span ?_
  refine Couples.bind (couples_condition longer.toWider kind.keyword "if" condition (by omega))
    fun holds => ?_
  cases kind.continues holds with
  | false => exact (couples_atOnce longer kind span otherwise (by omega) (by omega)).reworded
  | true =>
      refine Couples.reworded ?_
      have check := coupled_check longer kind condition (i + 1) (j + 2) (by omega)
      have inside := coupled_block longer body (i + 1) (j + 2) (by omega)
      cases bound : a.rounds with
      | zero => exact fun _ _ _ _ _ => .inl (.rounds trivial List.nil_prefix)
      | succ n =>
          have le : n ≤ b.rounds := by
            have le := longer.rounds
            omega
          simp only [if_true, discard_loop, Stmt.deeds]
          rw [repeatRounds_succ, rounds_succ]
          refine (coupled_block longer body _ _ (by omega)).bind fun _ => ?_
          refine .nestedRight longer.unlimited (by omega) span (check.bind fun again => ?_)
          cases again with
          | true => exact .rounds (inside.bind fun _ => check) _ _ le (fun _ => trivial) _ _
          | false => exact fun _ _ store left right => .inr ⟨rfl, .ok store left right⟩

/-- An unrolled loop does what the loop does, in a setting with one more round for the latter. -/
theorem unrolled_mimics (σ : Type) (kind : LoopKind) (condition : Expr) (body : Block)
    (otherwise : Otherwise) (span : Span) :
    Mimics σ "if" kind.keyword (unrolled kind condition body otherwise span)
      (.loop kind condition body otherwise span) := by
  intro a b longer more i j fits
  rw [(loop_eq b kind condition body otherwise span).1,
    (loop_eq b kind condition body otherwise span).2, (unrolled_eq a ..).1, (unrolled_eq a ..).2]
  refine .nested longer.unlimited (Nat.le_of_succ_le fits) span ?_
  refine Couples.bind (couples_condition longer.toWider "if" kind.keyword condition (by omega))
    fun holds => ?_
  cases kind.continues holds with
  | false => exact (atOnce_couples longer kind span otherwise (by omega)).reworded
  | true =>
      refine Couples.reworded ?_
      have check := coupled_check longer kind condition (i + 2) (j + 1) (by omega)
      have inside := coupled_block longer body (i + 2) (j + 1) (by omega)
      obtain ⟨m, bound⟩ : ∃ m, b.rounds = m + 1 := ⟨b.rounds - 1, by omega⟩
      simp only [if_true, discard_loop, Stmt.deeds, bound]
      rw [repeatRounds_succ, rounds_succ]
      refine (coupled_block longer body _ _ (by omega)).bind fun _ => ?_
      refine .nestedLeft span fun room => check.bind fun again => ?_
      cases again with
      | true => exact .rounds (inside.bind fun _ => check) _ _ (by omega) (fun _ => trivial) _ _
      | false => exact fun _ _ store left right => .inr ⟨rfl, .ok store left right⟩

end

/--
**Loop unrolling.**  A loop and its unrolled form, from any state from which
both keep within their budgets: one ends if and only if the other does, and then
the result, the store and all that was done are the same.  Only the keyword in
the error of a condition that is not a boolean may differ.  Whether they end or
not, they begin with the same deeds.
-/
theorem loop_unrolling {host : Host σ} {limits : Limits} {kind : LoopKind} {condition : Expr}
    {body : Block} {otherwise : Otherwise} {span : Span} {s : State σ}
    (within : KeepsWithin host limits (.loop kind condition body otherwise span) s)
    (within' : KeepsWithin host limits (unrolled kind condition body otherwise span) s) :
    ((∃ result x deeds,
        Yields host limits (.loop kind condition body otherwise span) s result x deeds) ↔
      ∃ result x deeds,
        Yields host limits (unrolled kind condition body otherwise span) s result x deeds) ∧
    (∀ result x deeds result' x' deeds',
      Yields host limits (.loop kind condition body otherwise span) s result x deeds →
      Yields host limits (unrolled kind condition body otherwise span) s result' x' deeds' →
        SameResult (Reworded kind.keyword "if") result result' ∧ x = x' ∧ deeds = deeds') ∧
    ∀ deeds, Begins host limits (.loop kind condition body otherwise span) s deeds ↔
      Begins host limits (unrolled kind condition body otherwise span) s deeds := by
  have forth := mimics_unrolled σ kind condition body otherwise span
  have back := unrolled_mimics σ kind condition body otherwise span
  have ends : (∃ result x deeds,
        Yields host limits (.loop kind condition body otherwise span) s result x deeds) ↔
      ∃ result x deeds,
        Yields host limits (unrolled kind condition body otherwise span) s result x deeds := by
    constructor
    · rintro ⟨result, x, deeds, yields⟩
      obtain ⟨result', _, yields'⟩ := (within.freely yields).transfer forth
      exact ⟨result', x, deeds, within'.yields yields'⟩
    · rintro ⟨result', x, deeds, yields'⟩
      obtain ⟨result, _, yields⟩ := (within'.freely yields').transfer back
      exact ⟨result, x, deeds, within.yields yields⟩
  refine ⟨ends, ?_, fun deeds => ⟨?_, ?_⟩⟩
  · intro result x deeds result' x' deeds' yields yields'
    obtain ⟨found, same, unrolls⟩ := (within.freely yields).transfer forth
    obtain ⟨rfl, rfl, rfl⟩ := unrolls.unique (within'.freely yields')
    exact ⟨same, rfl, rfl⟩
  · exact fun begins => begins.transfer forth within within' ends.2
  · exact fun begins => begins.transfer back within' within ends.1

def guardedRound : Expr × Block :=
  let span : Span := default
  (.call ⟨"more", span⟩ [] span,
    .mk [.call ⟨"write", span⟩ [.call ⟨"count", span⟩ [] span] span] span)

/-- A loop of two rounds, within twenty visits and four levels, does as much if it is unrolled. -/
theorem loop_unrolling_guardedRound :
    ∃ x deeds, deeds.length = 7 ∧
      Yields Catalogue.host { maxSteps := some 20, maxDepth := 4 }
        (.loop .whileTrue guardedRound.1 guardedRound.2 .nothing default) guardedState (.ok ())
        x deeds ∧
      Yields Catalogue.host { maxSteps := some 20, maxDepth := 4 }
        (unrolled .whileTrue guardedRound.1 guardedRound.2 .nothing default) guardedState (.ok ())
        x deeds := by
  have yields (stmt : Stmt) (ended : Eval.result (discard (evalStmt
      ⟨Catalogue.host, { maxSteps := some 20, maxDepth := 4 }, 3⟩ stmt) guardedState) =
        some (.ok ())) :
      Yields Catalogue.host { maxSteps := some 20, maxDepth := 4 } stmt guardedState (.ok ()) _ _ :=
    ⟨3, _, eq_outcome_of_result ended, rfl, rfl⟩
  have loops := yields (.loop .whileTrue guardedRound.1 guardedRound.2 .nothing default)
    (by decide +kernel)
  have unrolls := yields (unrolled .whileTrue guardedRound.1 guardedRound.2 .nothing default)
    (by decide +kernel)
  have same := (loop_unrolling (loops.keepsWithin nofun) (unrolls.keepsWithin nofun)).2.1
    _ _ _ _ _ _ loops unrolls
  refine ⟨_, _, by decide +kernel, loops, ?_⟩
  rw [same.2.1, same.2.2]
  exact unrolls

end TinyScript
