import Mathlib.Algebra.Group.Int.Defs
import TinyScript.Proofs.AdequateBlame
import TinyScript.Proofs.SafeRuns
import TinyScript.Proofs.TallNodes

/-!
# Integer expressions are exact

An expression over integers is made of digits, names of integers, sums,
differences, products and parentheses.  Its exact value is computed without
any bound.  Evaluation gives this value if it fits in 64 bits, together with
the exact value of every node below; nothing is ever wrapped.  Otherwise it
overflows on the first node, operands before the node above them, whose exact
value does not fit.
-/

namespace TinyScript

open Eval

variable {σ : Type}

def FitsInt64 (z : Int) : Prop := -2 ^ 63 ≤ z ∧ z < 2 ^ 63

instance (z : Int) : Decidable (FitsInt64 z) := inferInstanceAs (Decidable (_ ∧ _))

theorem fitsInt64_iff {z : Int} : FitsInt64 z ↔ ∃ n, int64? z = some n := by
  unfold int64?
  constructor
  · intro fits
    exact ⟨_, if_pos fits⟩
  · rintro ⟨n, found⟩
    split at found
    · assumption
    · cases found

theorem fitsInt64_toInt (n : Int64) : FitsInt64 n.toInt :=
  ⟨Int64.le_toInt n, Int64.toInt_lt n⟩

def fitted (z : Int) (detail : String) : Except EvalError Value :=
  match int64? z with
  | some n => .ok (.integer n)
  | none => .error (.overflow detail)

namespace Expr

/--
An expression over integers: digits, names bound to integers, sums,
differences, products and parentheses.
-/
def OverIntegers (env : Environment) : Expr → Prop
  | .const literal _ => literal.kind = .integer ∧ IsDigits literal.text.toList
  | .ident name _ => ∃ n, env.get? name = some (.integer n)
  | .additive left op right _ =>
      op.isArithmetic = true ∧ left.OverIntegers env ∧ right.OverIntegers env
  | .paren inner _ => inner.OverIntegers env
  | .call _ _ _ | .comparison _ _ _ _ => False

/-- The exact value of an expression over integers. -/
def exact (env : Environment) : Expr → Int
  | .const literal _ => Numeral.natOf literal.text.toList
  | .ident name _ => match env.get? name with
      | some (.integer n) => n.toInt
      | _ => 0
  | .additive left op right _ => match op with
      | .add => left.exact env + right.exact env
      | .sub => left.exact env - right.exact env
      | .mul => left.exact env * right.exact env
      | _ => 0
  | .paren inner _ => inner.exact env
  | .call _ _ _ | .comparison _ _ _ _ => 0

end Expr

/-- The first of several nodes whose exact value does not fit. -/
def unfit? (env : Environment) (nodes : List Expr) : Option Expr :=
  nodes.find? fun node => ¬ FitsInt64 (node.exact env)

section

variable {env : Environment}

@[simp]
theorem unfit?_append (first second : List Expr) :
    unfit? env (first ++ second) = (unfit? env first).or (unfit? env second) :=
  List.find?_append

theorem unfit?_singleton (node : Expr) :
    unfit? env [node] = if FitsInt64 (node.exact env) then none else some node := by
  rw [unfit?, List.find?_singleton]
  by_cases fits : FitsInt64 (node.exact env) <;> simp [fits]

theorem unfit?_eq_none_iff {nodes : List Expr} :
    unfit? env nodes = none ↔ ∀ node ∈ nodes, FitsInt64 (node.exact env) := by
  simp [unfit?, List.find?_eq_none]

theorem unfit?_eq_some_iff {nodes : List Expr} {node : Expr} :
    unfit? env nodes = some node ↔ ¬ FitsInt64 (node.exact env) ∧
      ∃ before behind, nodes = before ++ node :: behind ∧
        ∀ other ∈ before, FitsInt64 (other.exact env) := by
  simp [unfit?, List.find?_eq_some_iff_append]

end

/-- Digits are read exactly, up to the first that leads out of range. -/
theorem integerFrom_exact {digits : List Char} (all : ∀ c ∈ digits, c.isDigit = true)
    {value : Nat} {n : Int64} (reached : n.toInt = value) :
    Numeral.integerFrom false n digits =
      (int64? (digits.foldl (fun n c => 10 * n + Numeral.digitValue c) value : Nat)).elim
        (.error .outOfRange) .ok := by
  induction digits generalizing value n with
  | nil =>
      rw [Numeral.integerFrom, List.foldl_nil, int64?_eq_some_iff.2 reached, Option.elim_some]
  | cons c digits ih =>
      rw [List.forall_mem_cons] at all
      have next : (10 * n.toInt + Numeral.digitValue c : Int) =
          (10 * value + Numeral.digitValue c : Nat) := by
        rw [reached]
        push_cast
        rfl
      rw [Numeral.integerFrom, if_pos all.1, List.foldl_cons]
      simp only [Bool.false_eq_true, if_false, next]
      cases found : int64? (10 * value + Numeral.digitValue c : Nat) with
      | some m =>
          have reached : m.toInt = (10 * value + Numeral.digitValue c : Nat) :=
            int64?_eq_some_iff.1 found
          dsimp only
          rw [ih all.2 reached]
      | none =>
          -- the value only grows, so what follows cannot lead back into the range
          have larger := le_foldl_digits digits (10 * value + Numeral.digitValue c)
          have beyond : int64? (digits.foldl (fun n c => 10 * n + Numeral.digitValue c)
              (10 * value + Numeral.digitValue c) : Nat) = none := by
            unfold int64? at found ⊢
            rw [ite_eq_right_iff] at found ⊢
            intro fits
            cases found ⟨by omega, by omega⟩
          rw [beyond, Option.elim_none]

/-- A literal of digits has its exact value, or overflows. -/
theorem value_of_digits {literal : Literal} (kind : literal.kind = .integer)
    (digits : IsDigits literal.text.toList) :
    literal.value = fitted (Numeral.natOf literal.text.toList)
      ("integer literal " ++ literal.text ++ " is out of range") := by
  have start : (0 : Int64).toInt = (0 : Nat) := by decide
  have read := integerFrom_exact digits.2 start
  rw [← integer_unsigned digits] at read
  rw [Literal.value, kind, fitted, Numeral.natOf]
  simp only [read]
  cases int64? (literal.text.toList.foldl _ 0 : Nat) <;> rfl

/-- Arithmetic on two integers gives the exact result, or overflows. -/
theorem arithmetic_fitted {op : BinOp} {onInt : Int → Int → Int} {onFloat : Float → Float → Float}
    (known : op.functions? = some (onInt, onFloat)) (a b : Int64) :
    Arithmetic op (.integer a) (.integer b) (fitted (onInt a.toInt b.toInt)
      ((Value.integer a).display ++ " " ++ op.symbol ++ " " ++ (Value.integer b).display ++
        " does not fit in 64 bits")) := by
  rw [arithmetic_iff, BinOp.arithmetic_integers known]
  cases fits : int64? (onInt a.toInt b.toInt) <;> simp only [fitted, fits]

theorem Expr.exact_additive {env : Environment} {left right : Expr} {op : BinOp} {span : Span}
    {onInt : Int → Int → Int} {onFloat : Float → Float → Float}
    (known : op.functions? = some (onInt, onFloat)) :
    (Expr.additive left op right span).exact env = onInt (left.exact env) (right.exact env) := by
  cases op <;> cases known <;> rfl

/--
What an expression over integers evaluates to: its exact value, if every node
fits, and otherwise an overflow that the first node that does not fit raises.
-/
inductive Exactly (env : Environment) (e : Expr) :
    Option Expr → Except Blame.Raised Value → Prop where
  | value {n : Int64} (exact : n.toInt = e.exact env) : Exactly env e none (.ok (.integer n))
  | overflow (node : Expr) (detail : String) :
      Exactly env e (some node) (.error ⟨.overflow detail, .expr node⟩)

namespace Blame

section

variable {env : Environment} {host : Host σ} {limits : Limits}

/-- The own step of a node that gives its exact value, or exceeds the range. -/
theorem Own.exactly {e : Expr} {z : Int} (exact : e.exact env = z) {x : Progress σ}
    (rule : Store σ → Except EvalError Value → Prop) {detail : String}
    (computed : rule x.store (fitted z detail)) :
    ∃ given, Own (.expr e) (fun y result z => rule y result ∧ y = z) x given x ∧
      Exactly env e (unfit? env [e]) given := by
  subst exact
  refine ⟨_, ⟨_, ⟨computed, rfl⟩, rfl, rfl⟩, ?_⟩
  rw [unfit?_singleton, fitted]
  cases found : int64? (e.exact env) with
  | some n =>
      rw [if_pos (fitsInt64_iff.2 ⟨n, found⟩)]
      exact .value (int64?_eq_some_iff.1 found)
  | none =>
      have beyond : ¬ FitsInt64 (e.exact env) := by
        rw [fitsInt64_iff, found]
        nofun
      rw [if_neg beyond]
      exact .overflow e detail

/--
Evaluating an expression over integers, with room for its levels, gives its
exact value, or blames the first of its nodes that does not fit.
-/
theorem evaluates_exactly (unlimited : limits.maxSteps = none) :
    (e : Expr) → ∀ {level : Nat} {x : Progress σ}, x.store.env = env → e.OverIntegers env →
      level + e.height ≤ limits.maxDepth → ∃ given y, Evaluates host limits level e x given y ∧
        Exactly env e (unfit? env e.postorder) given ∧ y.store = x.store
  | .const literal span, level, x, _, ⟨kind, digits⟩, room => by
      obtain ⟨given, ran, exactly⟩ := @Own.exactly _ env (.const literal span) _ rfl x.count
        (fun _ result => literal.value = result) _ (value_of_digits kind digits)
      exact ⟨given, x.count, .admitted ⟨room, by simp [unlimited]⟩ ran, exactly, rfl⟩
  | .ident name span, level, x, same, ⟨n, bound⟩, room => by
      have exact : (Expr.ident name span).exact env = n.toInt := by
        simp only [Expr.exact, bound]
      have read : Reads x.store.env name (fitted n.toInt "") := by
        rw [fitted, int64?_eq_some_iff.2 rfl, same]
        exact .bound bound
      obtain ⟨given, ran, exactly⟩ := @Own.exactly _ _ _ _ exact x.count
        (fun y result => Reads y.env name result) _ read
      exact ⟨given, x.count, .admitted ⟨room, by simp [unlimited]⟩ ran, exactly, rfl⟩
  | .additive left op right span, level, x, same, ⟨arithmetic, overLeft, overRight⟩, room => by
      obtain ⟨⟨onInt, onFloat⟩, known⟩ : ∃ functions, op.functions? = some functions := by
        rw [← Option.ne_none_iff_exists', Ne, BinOp.functions?_eq_none_iff, arithmetic]
        nofun
      rw [Expr.height] at room
      have admitted : Admits limits level x := ⟨by omega, by simp [unlimited]⟩
      obtain ⟨first, y, ranFirst, exactFirst, keptFirst⟩ :=
        @evaluates_exactly unlimited left (level + 1) x.count same overLeft (by omega)
      obtain ⟨second, z, ranSecond, exactSecond, keptSecond⟩ :=
        @evaluates_exactly unlimited right (level + 1) y (keptFirst ▸ same) overRight (by omega)
      rw [Expr.postorder, unfit?_append, unfit?_append]
      generalize unfit? env left.postorder = found at exactFirst
      generalize unfit? env right.postorder = found' at exactSecond
      cases exactFirst with
      | overflow node detail =>
          exact ⟨_, y, .admitted admitted (.failed ranFirst), .overflow node detail, keptFirst⟩
      | @value a exactLeft =>
          cases exactSecond with
          | overflow node detail =>
              exact ⟨_, z, .admitted admitted (.next ranFirst (.failed ranSecond)),
                .overflow node detail, keptSecond.trans keptFirst⟩
          | @value b exactRight =>
              have exact : (Expr.additive left op right span).exact env =
                  onInt a.toInt b.toInt := by
                rw [Expr.exact_additive known, exactLeft, exactRight]
              obtain ⟨given, ran, exactly⟩ := @Own.exactly _ _ _ _ exact z
                (fun _ result => Arithmetic op (.integer a) (.integer b) result) _
                (arithmetic_fitted known a b)
              exact ⟨given, z, .admitted admitted (.next ranFirst (.next ranSecond ran)), exactly,
                keptSecond.trans keptFirst⟩
  | .paren inner span, level, x, same, integers, room => by
      rw [Expr.height] at room
      have admitted : Admits limits level x := ⟨by omega, by simp [unlimited]⟩
      obtain ⟨given, y, ran, exactly, kept⟩ :=
        @evaluates_exactly unlimited inner (level + 1) x.count same integers (by omega)
      refine ⟨given, y, .admitted admitted ran, ?_, kept⟩
      rw [Expr.postorder, unfit?_append]
      generalize unfit? env inner.postorder = found at exactly
      cases exactly with
      | overflow node detail => exact .overflow node detail
      | @value n exact =>
          -- parentheses have the value of what they enclose, which fits
          have fits : FitsInt64 ((Expr.paren inner span).exact env) := by
            rw [Expr.exact, ← exact]
            exact fitsInt64_toInt n
          rw [Option.none_or, unfit?_singleton, if_pos fits]
          exact .value exact

end

end Blame

/--
An assignment of an expression over integers, without a step limit and with
room for its levels, ends like the flush after it and binds the exact value, if
and only if the exact value of every node of the expression fits in 64 bits.
Otherwise it overflows; the place is the region of the first node, operands
before the node above them and left before right, whose exact value does not
fit, and every name keeps its binding.
-/
theorem integer_expression_exact (host : Host σ) {limits : Limits} {s : State σ} {target : Ident}
    {e : Expr} (span whole : Span) (integers : e.OverIntegers s.env)
    (unlimited : limits.maxSteps = none) (room : s.depth + 1 + e.height ≤ limits.maxDepth) :
    ∃ result s', Ends host limits ⟨[.assign target e span], whole⟩ s result s' ∧
      ((∀ node ∈ e.postorder, FitsInt64 (node.exact s.env)) ↔
        ∃ n : Int64, n.toInt = e.exact s.env ∧ result = s.sink.flush ∧ s'.errorSpan = none ∧
          s'.store = s.store.assign target.name (.integer n)) ∧
      ∀ before node behind, e.postorder = before ++ node :: behind →
        (∀ other ∈ before, FitsInt64 (other.exact s.env)) → ¬ FitsInt64 (node.exact s.env) →
        (∃ detail, result = .error (.overflow detail)) ∧ s'.errorSpan = some node.span ∧
          s'.store = s.store := by
  have admitted : Blame.Admits limits s.depth s.progress := ⟨by omega, by simp [unlimited]⟩
  obtain ⟨given, y, ran, exactly, kept⟩ :=
    @Blame.evaluates_exactly _ s.env host limits unlimited e (s.depth + 1) s.progress.count rfl
      integers room
  have kept : y.store = s.store := kept
  generalize unfits : unfit? s.env e.postorder = found at exactly
  cases exactly with
  | @value n exact =>
      have fits := unfit?_eq_none_iff.1 unfits
      have bound : Blame.Executes host limits s.depth (.assign target e span) s.progress (.ok ())
          ⟨s.store.assign target.name (.integer n), y.steps⟩ := by
        refine .admitted admitted (.next ran ⟨.ok (), ⟨rfl, ?_⟩, rfl, rfl⟩)
        rw [kept]
      obtain ⟨s', ended, reached, placed⟩ :=
        @Blame.ends_of_executes _ _ _ ⟨[.assign target e span], whole⟩ _ _ _
          (.next bound ⟨rfl, rfl⟩)
      have store : s'.store = s.store.assign target.name (.integer n) :=
        congrArg Blame.Progress.store reached
      refine ⟨_, s', ended, iff_of_true fits ⟨n, exact, rfl, placed, store⟩, ?_⟩
      intro before node behind split _ unfit
      exact absurd (fits node (by simp [split])) unfit
  | overflow first detail =>
      obtain ⟨unfit, before, behind, split, others⟩ := unfit?_eq_some_iff.1 unfits
      have failed : Blame.ExecutesAll host limits s.depth [.assign target e span] s.progress
          (.error ⟨.overflow detail, .expr first⟩) y :=
        .failed (.admitted admitted (.failed ran))
      obtain ⟨s', ended, reached, placed⟩ :=
        @Blame.ends_of_executes _ _ _ ⟨[.assign target e span], whole⟩ _ _ _ failed
      have store : s'.store = s.store := (congrArg Blame.Progress.store reached).trans kept
      refine ⟨_, s', ended, iff_of_false (fun fits => unfit (fits first (by simp [split]))) ?_, ?_⟩
      · rintro ⟨_, _, _, clear, _⟩
        cases placed.symm.trans clear
      · intro before' node behind' split' others' unfit'
        have found := unfit?_eq_some_iff.2 ⟨unfit', before', behind', split', others'⟩
        cases unfits.symm.trans found
        exact ⟨⟨detail, rfl⟩, placed, store⟩

def lowState : State Catalogue :=
  { countingState with env := countingState.env.assign "low" (.integer Int64.minValue) }

def negatedLow : Expr :=
  let columns (first last : UInt32) : Span := ⟨⟨1, first⟩, ⟨1, last⟩⟩
  let one := .additive (.const ⟨.integer, "0"⟩ (columns 9 10)) .sub
    (.const ⟨.integer, "1"⟩ (columns 13 14)) (columns 9 14)
  .additive (.ident "low" (columns 1 4)) .mul (.paren one (columns 8 15)) (columns 1 15)

def restoredLow : Expr :=
  .additive negatedLow .add (.ident "low" ⟨⟨1, 18⟩, ⟨1, 21⟩⟩) ⟨⟨1, 1⟩, ⟨1, 21⟩⟩

/-- The sum overflows on its first operand, although it is zero. -/
theorem integer_expression_exact_restoredLow :
    restoredLow.exact lowState.env = 0 ∧ ∃ detail s',
      Ends Catalogue.host {} ⟨[.assign ⟨"low", default⟩ restoredLow default], default⟩ lowState
        (.error (.overflow detail)) s' ∧
      s'.errorSpan = some negatedLow.span ∧ s'.store = lowState.store := by
  have integers : restoredLow.OverIntegers lowState.env := by
    have low : ∃ n, lowState.env.get? "low" = some (.integer n) := ⟨Int64.minValue, by decide⟩
    have zero : IsDigits ['0'] := ⟨List.cons_ne_nil _ _, List.forall_mem_singleton.2 rfl⟩
    have one : IsDigits ['1'] := ⟨List.cons_ne_nil _ _, List.forall_mem_singleton.2 rfl⟩
    exact ⟨rfl, ⟨rfl, low, rfl, ⟨rfl, zero⟩, rfl, one⟩, low⟩
  obtain ⟨result, s', ended, _, overflows⟩ := @integer_expression_exact _ Catalogue.host {}
    lowState ⟨"low", default⟩ restoredLow default default integers rfl (by decide)
  have split : restoredLow.postorder =
      negatedLow.postorder.dropLast ++ negatedLow :: restoredLow.postorder.drop 6 := rfl
  obtain ⟨⟨detail, rfl⟩, placed, store⟩ :=
    overflows _ negatedLow _ split (by decide +kernel) (by decide +kernel)
  exact ⟨by decide +kernel, detail, s', ended, placed, store⟩

end TinyScript
