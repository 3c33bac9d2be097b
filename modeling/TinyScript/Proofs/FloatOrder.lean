import Mathlib
import TinyScript.Value.Operator

/-!
# The order of floats

Every float that is a number has a rank in a linear order: first the sign and
whether it is infinite or zero, then the exponent, then the mantissa, both of
which count downwards below zero.  The two zeros have the same rank.  Floats
compare like their ranks, and a float that is no number has none.
-/

namespace TinyScript

open Float.Model

/-- Ranks: a class, an exponent and a mantissa, the class first. -/
abbrev Rank : Type := Int ×ₗ Int ×ₗ Int

def rank (kind exponent mantissa : Int) : Rank := toLex (kind, toLex (exponent, mantissa))

theorem rank_lt_iff {k e m k' e' m' : Int} :
    rank k e m < rank k' e' m' ↔ k < k' ∨ k = k' ∧ (e < e' ∨ e = e' ∧ m < m') := by
  simp [rank, Prod.Lex.toLex_lt_toLex]

theorem rank_le_iff {k e m k' e' m' : Int} :
    rank k e m ≤ rank k' e' m' ↔ k < k' ∨ k = k' ∧ (e < e' ∨ e = e' ∧ m ≤ m') := by
  simp [rank, Prod.Lex.toLex_le_toLex]

theorem rank_eq_iff {k e m k' e' m' : Int} :
    rank k e m = rank k' e' m' ↔ k = k' ∧ e = e' ∧ m = m' := by
  simp [rank]

def rankOf : UnpackedFloat → Option Rank
  | .notANumber => none
  | .infinity .negative => some (rank (-2) 0 0)
  | .finite .negative m e _ => some (rank (-1) (-e) (-m))
  | .zero _ => some (rank 0 0 0)
  | .finite .positive m e _ => some (rank 1 e m)
  | .infinity .positive => some (rank 2 0 0)

theorem compare_signs :
    compare UnpackedFloat.Sign.negative .negative = .eq ∧
      compare UnpackedFloat.Sign.negative .positive = .lt ∧
      compare UnpackedFloat.Sign.positive .positive = .eq :=
  ⟨rfl, rfl, rfl⟩

/-- Unpacked floats compare like their ranks. -/
theorem compare_iff_rankOf (a b : UnpackedFloat) :
    (a.compare b = some .lt ↔ ∃ r s, rankOf a = some r ∧ rankOf b = some s ∧ r < s) ∧
    (a.compare b = some .eq ↔ ∃ r, rankOf a = some r ∧ rankOf b = some r) := by
  rcases a with (_ | _) | _ | _ | ⟨_ | _, m, e, _⟩ <;>
    rcases b with (_ | _) | _ | _ | ⟨_ | _, m', e', _⟩
  all_goals
    simp [UnpackedFloat.compare, rankOf, rank_lt_iff, rank_eq_iff, compare_signs,
      Ordering.then_eq_lt, Ordering.then_eq_gt, compare_lt_iff_lt, compare_gt_iff_gt]
  all_goals omega

def floatRank (x : Float) : Option Rank := rankOf x.toModel.unpack

variable {x y : Float}

theorem float_lt_iff :
    x < y ↔ ∃ r s, floatRank x = some r ∧ floatRank y = some s ∧ r < s := by
  rw [floatRank, floatRank, ← (compare_iff_rankOf _ _).1]
  change decide ((x.toModel.unpack.compare y.toModel.unpack == some .lt) = true) = true ↔ _
  rw [decide_eq_true_iff, beq_iff_eq]

theorem float_beq_iff :
    (x == y) = true ↔ ∃ r, floatRank x = some r ∧ floatRank y = some r := by
  rw [floatRank, floatRank, ← (compare_iff_rankOf _ _).2]
  change (x.toModel.unpack.compare y.toModel.unpack == some .eq) = true ↔ _
  rw [beq_iff_eq]

theorem float_isNaN_iff : x.isNaN = true ↔ floatRank x = none := by
  change x.toModel.unpack.isNaN = true ↔ rankOf x.toModel.unpack = none
  rcases x.toModel.unpack with (_ | _) | _ | _ | ⟨_ | _, m, e, _⟩ <;>
    simp [UnpackedFloat.isNaN, rankOf]

/-- Floats are the same value if they have the same rank, or both of them none. -/
theorem same_floats_iff :
    (Value.float x).same (.float y) = true ↔ floatRank x = floatRank y := by
  change (x == y || x.isNaN && y.isNaN) = true ↔ _
  rw [Bool.or_eq_true_iff, Bool.and_eq_true_iff, float_beq_iff, float_isNaN_iff, float_isNaN_iff]
  constructor
  · rintro (⟨r, left, right⟩ | ⟨left, right⟩) <;> rw [left, right]
  · intro same
    rw [same]
    cases floatRank y with
    | none => exact .inr ⟨rfl, rfl⟩
    | some r => exact .inl ⟨r, rfl, rfl⟩

theorem not_of_float_lt (lower : y < x) : ¬ x < y ∧ ¬ (x == y) = true := by
  obtain ⟨r, s, left, right, lower⟩ := float_lt_iff.1 lower
  rw [float_lt_iff, float_beq_iff]
  simp only [left, right, Option.some.injEq]
  constructor
  · rintro ⟨_, _, rfl, rfl, higher⟩
    exact lt_asymm lower higher
  · rintro ⟨_, rfl, rfl⟩
    exact lt_irrefl _ lower

/-- Two floats are in order if the first is below the second, and in reverse order if above. -/
theorem floatOrder_iff :
    (floatOrder x y = some .lt ↔ x < y) ∧ (floatOrder x y = some .gt ↔ y < x) := by
  unfold floatOrder
  split_ifs with below same above
  · exact ⟨iff_of_true rfl below, iff_of_false nofun fun above => (not_of_float_lt above).1 below⟩
  · exact ⟨iff_of_false nofun below, iff_of_false nofun fun above => (not_of_float_lt above).2 same⟩
  · exact ⟨iff_of_false nofun below, iff_of_true rfl above⟩
  · exact ⟨iff_of_false nofun below, iff_of_false nofun above⟩

end TinyScript
