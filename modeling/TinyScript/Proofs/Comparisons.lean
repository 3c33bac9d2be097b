import TinyScript.Proofs.Promotion
import TinyScript.Proofs.Semantics

/-!
# Comparisons are coherent

Equality is an equivalence on all values, and order is a strict partial order
on numbers that equal numbers share.  Integers are ordered exactly among
themselves, and like floats against floats; both orders go together because an
integer has a rank that is monotone in it.  A number is below another one if
its rank is lower, or if both are integers and it is the smaller one.
-/

namespace TinyScript

def BinOp.Holds (op : BinOp) (left right : Value) : Prop :=
  op.comparison left right = .ok (.boolean true)

instance (op : BinOp) (left right : Value) : Decidable (op.Holds left right) :=
  inferInstanceAs (Decidable (_ = _))

namespace Value

def integer? : Value → Option Int
  | integer n => some n.toInt
  | _ => none

/-- The rank of a number, integers taken for floats. -/
def rank? : Value → Option Rank
  | integer n => some (integerRank n.toInt)
  | float x => floatRank x
  | _ => none

end Value

variable {a b c : Value}

theorem holds_eq_iff : BinOp.eq.Holds a b ↔ Alike a b := by
  rw [← Value.same_iff]
  exact ⟨fun holds => by injection holds with holds; injection holds, fun same => by
    rw [BinOp.Holds, BinOp.comparison, same]⟩

/-- Floats are alike if they have the same rank, or both of them none. -/
theorem alike_floats_iff {x y : Float} :
    Alike (.float x) (.float y) ↔ floatRank x = floatRank y := by
  rw [← Value.same_iff, same_floats_iff]

theorem Alike.refl : (a : Value) → Alike a a
  | .integer n => .integer n
  | .float _ => alike_floats_iff.2 rfl
  | .text s => .text s
  | .boolean b => .boolean b
  | .null => .null
  | .native _ => .native rfl

theorem Alike.symm (alike : Alike a b) : Alike b a := by
  cases alike with
  | integer n => exact .integer n
  | float same => exact alike_floats_iff.2 (alike_floats_iff.1 (.float same)).symm
  | noNumber left right => exact .noNumber right left
  | text s => exact .text s
  | boolean b => exact .boolean b
  | null => exact .null
  | native same => exact .native same.symm

theorem Alike.trans (first : Alike a b) (second : Alike b c) : Alike a c := by
  have floats {x y : Float} (first : Alike (.float x) (.float y)) (second : Alike (.float y) c) :
      Alike (.float x) c := by
    obtain ⟨z, rfl⟩ : ∃ z, c = .float z := by cases second <;> exact ⟨_, rfl⟩
    rw [alike_floats_iff] at first second ⊢
    exact first.trans second
  cases first with
  | float same => exact floats (.float same) second
  | noNumber left right => exact floats (.noNumber left right) second
  | native same =>
      cases second with
      | native same' => exact .native (same.trans same')
  | _ => exact second

/-- Alike values are the same integer or none, have the same rank or none, and the same kind. -/
theorem Alike.agree (alike : Alike a b) :
    a.typeName = b.typeName ∧ a.integer? = b.integer? ∧ a.rank? = b.rank? := by
  cases alike with
  | float same => exact ⟨rfl, rfl, alike_floats_iff.1 (.float same)⟩
  | noNumber left right => exact ⟨rfl, rfl, alike_floats_iff.1 (.noNumber left right)⟩
  | _ => exact ⟨rfl, rfl, rfl⟩

/-- A value is below another one if its rank is lower, or both are integers and it is smaller. -/
def Below (a b : Value) : Prop :=
  (∃ r s, a.rank? = some r ∧ b.rank? = some s ∧ r < s) ∨
    ∃ m n, a.integer? = some m ∧ b.integer? = some n ∧ m < n

/-- Numbers taken for floats keep their ranks, and are not both integers. -/
theorem Promotes.agree {x y : Float} (promoted : Promotes a b x y) :
    floatRank x = a.rank? ∧ floatRank y = b.rank? ∧ (a.integer? = none ∨ b.integer? = none) := by
  cases promoted with
  | floats x y => exact ⟨rfl, rfl, .inl rfl⟩
  | left n y => exact ⟨floatRank_floatOfInt n, rfl, .inr rfl⟩
  | right x n => exact ⟨rfl, floatRank_floatOfInt n, .inl rfl⟩

theorem Promotes.symm {x y : Float} (promoted : Promotes a b x y) : Promotes b a y x := by
  cases promoted with
  | floats x y => exact .floats y x
  | left n y => exact .right y n
  | right x n => exact .left n x

theorem Value.not_number (other : a.isNumber = false) : a.rank? = none ∧ a.integer? = none := by
  cases a with
  | integer n => cases other
  | float x => cases other
  | _ => exact ⟨rfl, rfl⟩

theorem below_integers_iff {m n : Int64} :
    Below (.integer m) (.integer n) ↔ m.toInt < n.toInt := by
  constructor
  · rintro (⟨r, s, left, right, lower⟩ | ⟨_, _, left, right, lower⟩)
    · cases left
      cases right
      exact integerRank_mono.reflect_lt lower
    · cases left
      cases right
      exact lower
  · exact fun lower => .inr ⟨_, _, rfl, rfl, lower⟩

theorem below_floats_iff {x y : Float} (promoted : Promotes a b x y) : Below a b ↔ x < y := by
  obtain ⟨left, right, single⟩ := promoted.agree
  rw [float_lt_iff, left, right, Below]
  refine or_iff_left ?_
  rintro ⟨m, n, isLeft, isRight, _⟩
  rcases single with none | none <;> simp [none] at isLeft isRight

theorem holds_ordered_iff {op : BinOp} {wanted : Ordering} (known : op.wanted? = some wanted) :
    op.Holds a b ↔ a.order? b = some (some wanted) := by
  rw [BinOp.Holds, BinOp.comparison_ordered known, BinOp.ordered]
  cases a.order? b <;> simp

/-- The operators of order ask whether a value is below the other one. -/
theorem holds_order_iff :
    (BinOp.less.Holds a b ↔ Below a b) ∧ (BinOp.greater.Holds a b ↔ Below b a) := by
  rw [@holds_ordered_iff a b .less .lt rfl, @holds_ordered_iff a b .greater .gt rfl]
  rcases Value.pair_cases a b with ⟨m, n, rfl, rfl⟩ | ⟨x, y, promoted⟩ | other
  · rw [below_integers_iff, below_integers_iff, Value.order?, Option.some_inj, Option.some_inj,
      Option.some_inj, Option.some_inj, compare_lt_iff_lt, compare_gt_iff_gt]
    exact ⟨Iff.rfl, Iff.rfl⟩
  · rw [BinOp.order?_floats promoted, below_floats_iff promoted, below_floats_iff promoted.symm,
      Option.some_inj, Option.some_inj]
    exact floatOrder_iff
  · rw [BinOp.order?_other other]
    have unordered : ¬ Below a b ∧ ¬ Below b a := by
      rcases other with none | none <;>
        simp [Below, (Value.not_number none).1, (Value.not_number none).2]
    exact ⟨iff_of_false nofun unordered.1, iff_of_false nofun unordered.2⟩

theorem below_irrefl (a : Value) : ¬ Below a a := by
  rintro (⟨r, s, left, right, lower⟩ | ⟨m, n, left, right, lower⟩)
  · cases left.symm.trans right
    exact lt_irrefl _ lower
  · cases left.symm.trans right
    exact lt_irrefl _ lower

theorem rank?_of_integer? {m : Int} (integer : a.integer? = some m) :
    a.rank? = some (integerRank m) := by
  cases a with
  | integer n =>
      cases integer
      rfl
  | _ => cases integer

/-- A value below another one does not have the higher rank. -/
theorem Below.rank_le (below : Below a b) :
    ∃ r s, a.rank? = some r ∧ b.rank? = some s ∧ r ≤ s := by
  rcases below with ⟨r, s, left, right, lower⟩ | ⟨m, n, left, right, lower⟩
  · exact ⟨r, s, left, right, lower.le⟩
  · exact ⟨_, _, rank?_of_integer? left, rank?_of_integer? right, integerRank_mono lower.le⟩

/--
Being below is transitive: if one of the two steps leads to a higher rank, then
so do both together; otherwise all three values are integers.
-/
theorem Below.trans (first : Below a b) (second : Below b c) : Below a c := by
  obtain ⟨r, s, rankA, rankB, le⟩ := first.rank_le
  obtain ⟨s', q, rankB', rankC, le'⟩ := second.rank_le
  cases rankB.symm.trans rankB'
  rcases first with ⟨r', _, left, right, lower⟩ | ⟨m, n, left, middle, lower⟩
  · cases rankA.symm.trans left
    cases rankB.symm.trans right
    exact .inl ⟨r, q, rankA, rankC, lower.trans_le le'⟩
  · rcases second with ⟨_, q', left', right', lower'⟩ | ⟨n', k, middle', right, lower'⟩
    · cases rankB.symm.trans left'
      cases rankC.symm.trans right'
      exact .inl ⟨r, q, rankA, rankC, le.trans_lt lower'⟩
    · cases middle.symm.trans middle'
      exact .inr ⟨m, k, left, right, lower.trans lower'⟩

/-- Alike values are below the same values, and above the same. -/
theorem Alike.below_iff (alike : Alike a b) :
    (Below a c ↔ Below b c) ∧ (Below c a ↔ Below c b) := by
  obtain ⟨_, integers, ranks⟩ := alike.agree
  rw [Below, Below, Below, Below, integers, ranks]
  exact ⟨Iff.rfl, Iff.rfl⟩

/-- Two values are numbers exactly if they have an order. -/
theorem order?_eq_none_iff (a b : Value) :
    a.order? b = none ↔ ¬ (a.isNumber = true ∧ b.isNumber = true) := by
  rcases Value.pair_cases a b with ⟨m, n, rfl, rfl⟩ | ⟨x, y, promoted⟩ | other
  · exact iff_of_false nofun (not_not_intro ⟨rfl, rfl⟩)
  · rw [BinOp.order?_floats promoted]
    refine iff_of_false nofun (not_not_intro ?_)
    cases promoted <;> exact ⟨rfl, rfl⟩
  · rw [BinOp.order?_other other]
    refine iff_of_true rfl ?_
    rcases other with none | none <;> simp [none]

/-- An operator of order decides between numbers, and complains about everything else. -/
theorem comparison_of_order {op : BinOp} (order : op = .less ∨ op = .greater) (a b : Value) :
    (a.isNumber = true ∧ b.isNumber = true → ∃ r, op.comparison a b = .ok (.boolean r)) ∧
    (¬ (a.isNumber = true ∧ b.isNumber = true) →
      ∃ detail, op.comparison a b = .error (.typeMismatch detail)) := by
  obtain ⟨wanted, known⟩ : ∃ wanted, op.wanted? = some wanted := by
    rcases order with rfl | rfl <;> exact ⟨_, rfl⟩
  rw [BinOp.comparison_ordered known, BinOp.ordered, ← order?_eq_none_iff]
  cases found : a.order? b with
  | none =>
      refine ⟨fun numbers => ?_, fun _ => ⟨_, rfl⟩⟩
      exact absurd numbers ((order?_eq_none_iff a b).1 found)
  | some o =>
      refine ⟨fun _ => ⟨_, rfl⟩, fun unordered => ?_⟩
      cases unordered

/--
Comparisons are coherent.  Equality never fails and is an equivalence, its
negation is the other operator, and equal values are of one kind.  Order fails,
for a mismatch of types, exactly if one of the values is no number; its two
operators mirror each other, it is irreflexive, asymmetric and transitive, and
equal values are below the same values and above the same.
-/
theorem comparisons_coherent :
    (∀ a b : Value, ∃ r, BinOp.eq.comparison a b = .ok (.boolean r) ∧
      BinOp.notEq.comparison a b = .ok (.boolean !r)) ∧
    Equivalence BinOp.eq.Holds ∧
    (∀ a b : Value, BinOp.eq.Holds a b → a.typeName = b.typeName) ∧
    (∀ (op : BinOp) (a b : Value), op = .less ∨ op = .greater →
      (a.isNumber = true ∧ b.isNumber = true → ∃ r, op.comparison a b = .ok (.boolean r)) ∧
      (¬ (a.isNumber = true ∧ b.isNumber = true) →
        ∃ detail, op.comparison a b = .error (.typeMismatch detail))) ∧
    (∀ a b : Value, BinOp.greater.Holds a b ↔ BinOp.less.Holds b a) ∧
    (∀ a : Value, ¬ BinOp.less.Holds a a) ∧
    (∀ a b : Value, BinOp.less.Holds a b → ¬ BinOp.less.Holds b a) ∧
    (∀ a b c : Value, BinOp.less.Holds a b → BinOp.less.Holds b c → BinOp.less.Holds a c) ∧
    ∀ a b c : Value, BinOp.eq.Holds a b →
      (BinOp.less.Holds a c ↔ BinOp.less.Holds b c) ∧
      (BinOp.less.Holds c a ↔ BinOp.less.Holds c b) := by
  have less (a b : Value) : BinOp.less.Holds a b ↔ Below a b := holds_order_iff.1
  refine ⟨fun a b => ⟨a.same b, rfl, rfl⟩, ⟨?_, ?_, ?_⟩, ?_, ?_, ?_, ?_, ?_, ?_, ?_⟩
  · exact fun a => holds_eq_iff.2 (.refl a)
  · exact fun alike => holds_eq_iff.2 (holds_eq_iff.1 alike).symm
  · exact fun first second => holds_eq_iff.2 ((holds_eq_iff.1 first).trans (holds_eq_iff.1 second))
  · exact fun a b alike => (holds_eq_iff.1 alike).agree.1
  · exact fun op a b order => comparison_of_order order a b
  · exact fun a b => holds_order_iff.2.trans (less b a).symm
  · exact fun a => (less a a).not.2 (below_irrefl a)
  · intro a b first second
    exact below_irrefl a (((less a b).1 first).trans ((less b a).1 second))
  · intro a b c first second
    exact (less a c).2 (((less a b).1 first).trans ((less b c).1 second))
  · intro a b c alike
    rw [less, less, less, less]
    exact (holds_eq_iff.1 alike).below_iff

/--
Two integers that are taken for the same float: the float is neither below nor
above either of them, and yet one of them is below the other.
-/
theorem comparisons_coherent_collapse :
    let even := Value.integer 9007199254740992
    let odd := Value.integer 9007199254740993
    let float := Value.float (floatOfInt 9007199254740992)
    let above := Value.float (floatOfInt 9007199254740994)
    BinOp.less.Holds even odd ∧ BinOp.less.Holds odd above ∧ BinOp.less.Holds even above ∧
      ¬ BinOp.less.Holds even float ∧ ¬ BinOp.less.Holds float odd ∧
      ¬ BinOp.eq.Holds even float := by
  intro even odd float above
  obtain ⟨_, _, kinds, _, _, _, _, trans, _⟩ := comparisons_coherent
  have first : BinOp.less.Holds even odd := by decide +kernel
  have second : BinOp.less.Holds odd above := by decide +kernel
  refine ⟨first, second, trans _ _ _ first second, by decide +kernel, by decide +kernel, ?_⟩
  exact fun alike => absurd (kinds _ _ alike) (by decide +kernel)

end TinyScript
