import TinyScript.Proofs.Implementing
import TinyScript.Proofs.Shape

/-!
# Expressions follow the rules

Evaluating an expression implements its rules, without a step limit and with
room for its height.  The rules of a node are those of its parts, put together
in the way in which evaluation puts the parts together.
-/

namespace TinyScript

open Eval

variable {σ : Type} {host : Host σ} {limits : Limits}

def evalCall (setting : Setting σ) (name : String) (args : List Expr) : Eval σ (Option Value) := do
  let f ← callee name
  let values ← evalArgs setting args
  emit (.called name values.length)
  invoke setting.host f values

theorem evalExpr_call (setting : Setting σ) (callee : Ident) (args : List Expr) (span : Span) :
    evalExpr setting (.call callee args span) = Eval.nested setting.limits span (do
      return (← evalCall setting callee.name args).getD .null) := by
  rw [evalExpr]
  simp only [evalCall, bind_assoc]

theorem evaluates_const_iff {literal : Literal} {span : Span} {x y : Store σ}
    {result : Except EvalError Value} :
    Evaluates host (.const literal span) x result y ↔ literal.value = result ∧ x = y := by
  constructor
  · rintro ⟨⟩
    exact ⟨rfl, rfl⟩
  · rintro ⟨rfl, rfl⟩
    exact .const

theorem evaluates_ident_iff {name : String} {span : Span} {x y : Store σ}
    {result : Except EvalError Value} :
    Evaluates host (.ident name span) x result y ↔ Reads x.env name result ∧ x = y := by
  constructor
  · rintro ⟨⟩
    exact ⟨‹_›, rfl⟩
  · rintro ⟨read, rfl⟩
    exact .ident read

theorem evaluates_call_iff {callee : Ident} {args : List Expr} {span : Span} {x y : Store σ}
    {result : Except EvalError Value} :
    Evaluates host (.call callee args span) x result y ↔
      ∃ given, Calls host callee.name args x given y ∧ given.map (·.getD .null) = result := by
  constructor
  · rintro ⟨⟩
    exact ⟨_, ‹_›, rfl⟩
  · rintro ⟨given, called, rfl⟩
    exact .call called

theorem evaluates_paren_iff {inner : Expr} {span : Span} {x y : Store σ}
    {result : Except EvalError Value} :
    Evaluates host (.paren inner span) x result y ↔ Evaluates host inner x result y := by
  constructor
  · rintro ⟨⟩
    assumption
  · exact .paren

theorem evaluatesAll_cons_iff {e : Expr} {es : List Expr} {x y : Store σ}
    {result : Except EvalError (List Value)} :
    EvaluatesAll host (e :: es) x result y ↔ Then (Evaluates host e) (fun v x result y =>
      ∃ given, EvaluatesAll host es x given y ∧ given.map (v :: ·) = result) x result y := by
  constructor
  · intro rule
    cases rule with
    | cons first others => exact .next first ⟨_, others, rfl⟩
    | first first => exact .failed first
    | others first others => exact .next first ⟨_, others, rfl⟩
  · intro derived
    cases derived with
    | failed first => exact .first first
    | next first others =>
        obtain ⟨given, others, rfl⟩ := others
        cases given with
        | ok vs => exact .cons first others
        | error e => exact .others first others

theorem calls_iff {name : String} {args : List Expr} {x y : Store σ}
    {result : Except EvalError (Option Value)} :
    Calls host name args x result y ↔
      Then (fun x result y => Resolves x.env name result ∧ x = y) (fun f =>
        Then (EvaluatesAll host args) fun values => Invokes host values f) x result y := by
  constructor
  · intro rule
    cases rule with
    | unresolved found => exact .failed ⟨found, rfl⟩
    | args found given => exact .next ⟨found, rfl⟩ (.failed given)
    | native found given invoked => exact .next ⟨found, rfl⟩ (.next given invoked)
  · intro derived
    cases derived with
    | failed found =>
        obtain ⟨found, rfl⟩ := found
        exact .unresolved found
    | next found continued =>
        obtain ⟨found, rfl⟩ := found
        cases continued with
        | failed given => exact .args found given
        | next given invoked => exact .native found given invoked

theorem evaluates_additive_iff {left right : Expr} {op : BinOp} {span : Span} {x y : Store σ}
    {result : Except EvalError Value} :
    Evaluates host (.additive left op right span) x result y ↔
      Then (Evaluates host left) (fun a => Then (Evaluates host right) fun b x result y =>
        op.arithmetic a b = result ∧ x = y) x result y := by
  constructor
  · intro rule
    cases rule with
    | additive first second computed =>
        exact .next first (.next second ⟨arithmetic_iff.1 computed, rfl⟩)
    | additiveLeft first => exact .failed first
    | additiveRight first second => exact .next first (.failed second)
  · intro derived
    cases derived with
    | failed first => exact .additiveLeft first
    | next first continued =>
        cases continued with
        | failed second => exact .additiveRight first second
        | next second computed =>
            obtain ⟨computed, rfl⟩ := computed
            exact .additive first second (arithmetic_iff.2 computed)

theorem evaluates_comparison_iff {left right : Expr} {op : BinOp} {span : Span} {x y : Store σ}
    {result : Except EvalError Value} :
    Evaluates host (.comparison left op right span) x result y ↔
      Then (Evaluates host left) (fun a => Then (Evaluates host right) fun b x result y =>
        op.comparison a b = result ∧ x = y) x result y := by
  constructor
  · intro rule
    cases rule with
    | comparison first second compared =>
        exact .next first (.next second ⟨comparison_iff.1 compared, rfl⟩)
    | comparisonLeft first => exact .failed first
    | comparisonRight first second => exact .next first (.failed second)
  · intro derived
    cases derived with
    | failed first => exact .comparisonLeft first
    | next first continued =>
        cases continued with
        | failed second => exact .comparisonRight first second
        | next second compared =>
            obtain ⟨compared, rfl⟩ := compared
            exact .comparison first second (comparison_iff.2 compared)

mutual

theorem implements_expr (unlimited : limits.maxSteps = none) : (e : Expr) →
    Implements limits e.height (fun rounds => evalExpr ⟨host, limits, rounds⟩ e) (Evaluates host e)
  | .const literal span => by
      simp only [evalExpr]
      exact ((implements_ofExcept 0 literal.value).nested unlimited span).congr
        fun _ _ _ => evaluates_const_iff.symm
  | .ident name span => by
      simp only [evalExpr]
      exact ((implements_lookup 0 name).nested unlimited span).congr
        fun _ _ _ => evaluates_ident_iff.symm
  | .call callee args span => by
      simp only [evalExpr_call]
      exact (((implements_call unlimited callee.name args).map _).nested unlimited span).congr
        fun _ _ _ => evaluates_call_iff.symm
  | .additive left op right span => by
      simp only [evalExpr]
      have first := (implements_expr unlimited left).mono (Nat.le_max_left _ right.height)
      have second := (implements_expr unlimited right).mono (Nat.le_max_right left.height _)
      refine ((first.bind fun a => second.bind fun b => ?_).nested unlimited span).congr
        fun _ _ _ => evaluates_additive_iff.symm
      exact implements_ofExcept _ (op.arithmetic a b)
  | .comparison left op right span => by
      simp only [evalExpr]
      have first := (implements_expr unlimited left).mono (Nat.le_max_left _ right.height)
      have second := (implements_expr unlimited right).mono (Nat.le_max_right left.height _)
      refine ((first.bind fun a => second.bind fun b => ?_).nested unlimited span).congr
        fun _ _ _ => evaluates_comparison_iff.symm
      exact implements_ofExcept _ (op.comparison a b)
  | .paren inner span => by
      simp only [evalExpr]
      exact ((implements_expr unlimited inner).nested unlimited span).congr
        fun _ _ _ => evaluates_paren_iff.symm

theorem implements_args (unlimited : limits.maxSteps = none) : (es : List Expr) →
    Implements limits (tallest es) (fun rounds => evalArgs ⟨host, limits, rounds⟩ es)
      (EvaluatesAll host es)
  | [] => by
      simp only [evalArgs]
      refine (Implements.step (fun x => (.ok [], x)) fun _ s => ⟨s, rfl, rfl, rfl⟩).congr ?_
      intro x result y
      constructor
      · rintro ⟨⟩
        exact .nil
      · rintro ⟨⟩
        rfl
  | e :: es => by
      simp only [evalArgs]
      have first := (implements_expr unlimited e).mono (Nat.le_max_left _ (tallest es))
      have others := (implements_args unlimited es).mono (Nat.le_max_right e.height _)
      exact (first.bind fun v => others.map (v :: ·)).congr fun _ _ _ => evaluatesAll_cons_iff.symm

theorem implements_call (unlimited : limits.maxSteps = none) (name : String) (args : List Expr) :
    Implements limits (tallest args) (fun rounds => evalCall ⟨host, limits, rounds⟩ name args)
      (Calls host name args) := by
  refine ((implements_callee _ name).bind fun f => (implements_args unlimited args).bind
    fun values => ?_).congr fun _ _ _ => calls_iff.symm
  exact (implements_invoke _ f values).logged _

end

def decision (keyword : String) : Value → Except EvalError Bool
  | .boolean b => .ok b
  | v => .error (.notBoolean
      ("`" ++ keyword ++ "` condition: " ++ ("expected boolean, got " ++ v.typeName)))

theorem implements_condition (host : Host σ) (unlimited : limits.maxSteps = none)
    (keyword : String) (e : Expr) :
    Implements limits e.height (fun rounds => evalCondition ⟨host, limits, rounds⟩ keyword e)
      (Checks host keyword e) := by
  have decided (v : Value) := @Implements.step σ Bool limits e.height
    (fun _ => condition keyword e.span v) (fun x => (decision keyword v, x))
    fun _ s => by cases v <;> exact ⟨_, rfl, rfl, rfl⟩
  refine ((implements_expr unlimited e).bind decided).congr fun x result y => ⟨?_, ?_⟩
  · intro derived
    cases derived with
    | failed given => exact .failed given
    | @next _ _ v _ given decided =>
        cases v with
        | boolean b =>
            cases decided
            exact .boolean given
        | _ =>
            cases decided
            exact .other given nofun
  · intro rule
    cases rule with
    | boolean given => exact .next given rfl
    | @other _ v given noBoolean =>
        refine .next given ?_
        cases v with
        | boolean b => exact absurd rfl (noBoolean b)
        | _ => rfl
    | failed given => exact .failed given

end TinyScript
