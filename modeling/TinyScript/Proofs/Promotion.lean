import TinyScript.Proofs.FloatOrder

/-!
# Integers taken for floats

An integer that is taken for a float is rounded: of its binary digits the 53
highest are kept, and the digits behind them decide the rounding, to even where
they stand in the middle.  Rounding may carry into a further digit.  It never
reverses the order of two integers, although it may make them equal; so the
rank of the float is monotone in the integer.
-/

namespace TinyScript

open Float.Model Float.Model.UnpackedFloat

/--
A mantissa in quarters of its last place: its two further digits stand for what
was shifted out, the second of them for everything behind the first.
-/
def quarters (m : ExtendedMantissa) : Nat :=
  4 * m.mantissa + 2 * m.roundBit.toNat + m.stickyBit.toNat

/-- A shift halves the quarters, up to the digit that stands for everything behind. -/
theorem quarters_shiftRightOne (m : ExtendedMantissa) :
    quarters m.shiftRightOne = 2 * (quarters m / 4) + min 1 (quarters m % 4) := by
  obtain ⟨mantissa, roundBit, stickyBit⟩ := m
  have digit : (mantissa % 2 != 0).toNat = mantissa % 2 := by
    rcases Nat.mod_two_eq_zero_or_one mantissa with even | odd
    · rw [even]; rfl
    · rw [odd]; rfl
  simp only [quarters, ExtendedMantissa.shiftRightOne, digit]
  cases roundBit <;> cases stickyBit <;> simp only [Bool.toNat_false, Bool.toNat_true, Bool.or_self,
    Bool.or_false, Bool.or_true] <;> omega

/-- Rounding goes up beyond the middle, and in the middle from an odd mantissa. -/
theorem roundedMantissa_eq (m : ExtendedMantissa) :
    m.roundedMantissa = quarters m / 4 +
      if quarters m % 4 = 3 then 1 else if quarters m % 4 = 2 then quarters m / 4 % 2 else 0 := by
  obtain ⟨mantissa, roundBit, stickyBit⟩ := m
  cases roundBit <;> cases stickyBit
  · have whole : quarters ⟨mantissa, false, false⟩ = 4 * mantissa := rfl
    rw [whole]
    change mantissa = _
    split_ifs <;> omega
  · have low : quarters ⟨mantissa, false, true⟩ = 4 * mantissa + 1 := rfl
    rw [low]
    change mantissa = _
    split_ifs <;> omega
  · have middle : quarters ⟨mantissa, true, false⟩ = 4 * mantissa + 2 := rfl
    rw [middle]
    change mantissa + mantissa % 2 = _
    split_ifs <;> omega
  · have high : quarters ⟨mantissa, true, true⟩ = 4 * mantissa + 3 := rfl
    rw [high]
    change mantissa + 1 = _
    split_ifs <;> omega

theorem shiftRight_succ (m : ExtendedMantissa) (n : Nat) :
    m >>> (n + 1) = (m >>> n).shiftRightOne := rfl

/-- Shifting keeps the order of quarters. -/
theorem quarters_shiftRight_mono {m m' : ExtendedMantissa} (le : quarters m ≤ quarters m')
    (n : Nat) : quarters (m >>> n) ≤ quarters (m' >>> n) := by
  induction n with
  | zero => exact le
  | succ n ih =>
      rw [shiftRight_succ, shiftRight_succ, quarters_shiftRightOne, quarters_shiftRightOne]
      omega

/-- Shifting divides the mantissa. -/
theorem mantissa_shiftRight (m : ExtendedMantissa) (n : Nat) :
    (m >>> n).mantissa = m.mantissa / 2 ^ n := by
  induction n with
  | zero => exact (Nat.div_one _).symm
  | succ n ih =>
      rw [shiftRight_succ, Nat.pow_succ, ← Nat.div_div_eq_div_mul, ← ih]
      rfl

theorem roundedMantissa_mono {m m' : ExtendedMantissa} (le : quarters m ≤ quarters m') :
    m.roundedMantissa ≤ m'.roundedMantissa := by
  rw [roundedMantissa_eq, roundedMantissa_eq]
  split_ifs <;> omega

/-- A rounded mantissa is the mantissa or the next one. -/
theorem roundedMantissa_bounds (m : ExtendedMantissa) :
    m.mantissa ≤ m.roundedMantissa ∧ m.roundedMantissa ≤ m.mantissa + 1 := by
  have floor : quarters m / 4 = m.mantissa := by
    have first := Bool.toNat_le m.roundBit
    have second := Bool.toNat_le m.stickyBit
    rw [quarters]
    omega
  rw [roundedMantissa_eq, floor]
  split_ifs <;> omega

/-- The 53 highest digits of an integer, with zeros behind them if it has less, rounded. -/
def significand (k : Nat) : Nat :=
  (ExtendedMantissa.mk (k <<< (52 - k.log2)) false false >>> (k.log2 - 52)).roundedMantissa

theorem shiftLeft_ne_zero {k : Nat} (positive : 0 < k) (n : Nat) : k <<< n ≠ 0 := by
  rw [Nat.shiftLeft_eq]
  exact Nat.mul_ne_zero positive.ne' (Nat.two_pow_pos n).ne'

theorem log2_shiftLeft {k : Nat} (positive : 0 < k) (n : Nat) : (k <<< n).log2 = k.log2 + n := by
  rw [Nat.log2_eq_iff (shiftLeft_ne_zero positive n), Nat.shiftLeft_eq]
  constructor
  · rw [Nat.pow_add]
    exact Nat.mul_le_mul_right _ (Nat.log2_self_le positive.ne')
  · rw [Nat.add_right_comm, Nat.pow_add]
    exact Nat.mul_lt_mul_of_pos_right Nat.lt_log2_self (Nat.two_pow_pos n)

/-- The rounded digits are 53, or a carry has led to the next power of two. -/
theorem significand_bounds {k : Nat} (positive : 0 < k) :
    2 ^ 52 ≤ significand k ∧ significand k ≤ 2 ^ 53 := by
  have nonzero := shiftLeft_ne_zero positive (52 - k.log2)
  have length : (k <<< (52 - k.log2)).log2 = 52 + (k.log2 - 52) := by
    rw [log2_shiftLeft positive]
    omega
  have low := Nat.log2_self_le nonzero
  have high := @Nat.lt_log2_self (k <<< (52 - k.log2))
  rw [length, Nat.pow_add] at low
  rw [length, Nat.add_right_comm, Nat.pow_add] at high
  have digits := roundedMantissa_bounds
    (ExtendedMantissa.mk (k <<< (52 - k.log2)) false false >>> (k.log2 - 52))
  rw [mantissa_shiftRight] at digits
  have floor := (Nat.le_div_iff_mul_le (Nat.two_pow_pos (k.log2 - 52))).2 low
  have below := (Nat.div_lt_iff_lt_mul (Nat.two_pow_pos (k.log2 - 52))).2 high
  exact ⟨floor.trans digits.1, digits.2.trans below⟩

theorem significand_mono {j k : Nat} (le : j ≤ k) (length : j.log2 = k.log2) :
    significand j ≤ significand k := by
  rw [significand, significand, length]
  refine roundedMantissa_mono (quarters_shiftRight_mono ?_ _)
  have shifted : j <<< (52 - k.log2) ≤ k <<< (52 - k.log2) := by
    rw [Nat.shiftLeft_eq, Nat.shiftLeft_eq]
    exact Nat.mul_le_mul_right _ le
  simp only [quarters]
  omega

/-- The mantissa that an integer is rounded to: a carry is shifted out. -/
def mantissaOf (k : Nat) : Nat := if significand k < 2 ^ 53 then significand k else 2 ^ 52

def exponentOf (k : Nat) : Int := k.log2 - 52 + if significand k < 2 ^ 53 then 0 else 1

theorem mantissaOf_bounds {k : Nat} (positive : 0 < k) :
    2 ^ 52 ≤ mantissaOf k ∧ mantissaOf k < 2 ^ 53 := by
  have bounds := significand_bounds positive
  rw [mantissaOf]
  split_ifs <;> omega

theorem mantissaOf_pos {k : Nat} (positive : 0 < k) : 0 < mantissaOf k :=
  (Nat.two_pow_pos 52).trans_le (mantissaOf_bounds positive).1

/-- Rounding keeps the order of positive integers. -/
theorem rounded_mono {j k : Nat} (positive : 0 < j) (le : j ≤ k) :
    exponentOf j < exponentOf k ∨
      exponentOf j = exponentOf k ∧ mantissaOf j ≤ mantissaOf k := by
  have boundsJ := significand_bounds positive
  have boundsK := significand_bounds (positive.trans_le le)
  have lengths : j.log2 ≤ k.log2 := by
    rw [Nat.le_log2 (by omega)]
    exact (Nat.log2_self_le (by omega)).trans le
  rw [exponentOf, exponentOf, mantissaOf, mantissaOf]
  rcases lengths.eq_or_lt with same | less
  · have digits := significand_mono le same
    split_ifs <;> omega
  · split_ifs <;> omega

theorem targetExponent_eq (m : Nat) (e : Int) :
    Format.binary64.targetExponent (totalExponent m e) = max (m.log2 + 1 + e - 53) (-1074) := by
  simp [Format.targetExponent, totalExponent, Format.mantissaBits, Format.minExponent]

/-- A mantissa of 53 digits is not shifted. -/
theorem shiftToTargetExponent_of_digits {m : Nat} {e : Int} (low : 2 ^ 52 ≤ m) (high : m < 2 ^ 53)
    (least : -1074 ≤ e) : shiftToTargetExponent .binary64 m e .exact = (⟨m, false, false⟩, e) := by
  have length : m.log2 = 52 := (Nat.log2_eq_iff (by omega)).2 ⟨low, high⟩
  have shift : (max ((52 : Nat) + 1 + e - 53) (-1074) - e).toNat = 0 := by omega
  simp only [shiftToTargetExponent, targetExponent_eq, shiftToExponent, length, shift]
  simp [ExtendedMantissa.ofMantissaAndAccuracy]
  rfl

/-- A carry makes a mantissa one digit too long, which is shifted out. -/
theorem shiftToTargetExponent_of_carry {e : Int} (least : -1074 ≤ e) :
    shiftToTargetExponent .binary64 (2 ^ 53) e .exact = (⟨2 ^ 52, false, false⟩, e + 1) := by
  have shift : (max ((53 : Nat) + 1 + e - 53) (-1074) - e).toNat = 1 := by omega
  simp only [shiftToTargetExponent, targetExponent_eq, shiftToExponent, Nat.log2_two_pow, shift]
  rfl

/-- The digits of an integer are shifted until 53 of them are left. -/
theorem shiftToTargetExponent_of_integer {k : Nat} (positive : 0 < k) :
    shiftToTargetExponent .binary64 (k <<< (52 - k.log2)) (0 - (52 - k.log2 : Nat)) .exact =
      (ExtendedMantissa.mk (k <<< (52 - k.log2)) false false >>> (k.log2 - 52),
        (k.log2 : Int) - 52) := by
  have shift : (max (((k.log2 + (52 - k.log2) : Nat) : Int) + 1 + (0 - (52 - k.log2 : Nat)) - 53)
      (-1074) - (0 - (52 - k.log2 : Nat))).toNat = k.log2 - 52 := by omega
  have reached : (0 : Int) - (52 - k.log2 : Nat) + (k.log2 - 52 : Nat) = k.log2 - 52 := by omega
  simp only [shiftToTargetExponent, targetExponent_eq, shiftToExponent, log2_shiftLeft positive,
    shift, reached]
  rfl

/-- A positive integer is rounded to its mantissa and its exponent. -/
theorem round_eq (sign : Sign) {k : Nat} (positive : 0 < k) :
    UnpackedFloat.round .binary64 sign k 0 =
      .finite sign (mantissaOf k) (exponentOf k) (mantissaOf_pos positive) := by
  have bounds := significand_bounds positive
  have target : (0 - max ((k.log2 : Int) + 1 + 0 - 53) (-1074)).toNat = 52 - k.log2 := by omega
  have again : shiftToTargetExponent .binary64 (significand k) ((k.log2 : Int) - 52) .exact =
      (⟨mantissaOf k, false, false⟩, exponentOf k) := by
    rw [mantissaOf, exponentOf]
    rcases bounds.2.lt_or_eq with digits | carry
    · rw [if_pos digits, if_pos digits, Int.add_zero]
      exact shiftToTargetExponent_of_digits bounds.1 digits (by omega)
    · rw [if_neg (by omega), if_neg (by omega), carry]
      exact shiftToTargetExponent_of_carry (by omega)
  simp only [UnpackedFloat.round, targetExponent_eq, decreaseExponent, target, roundWithAccuracy,
    shiftToTargetExponent_of_integer positive]
  rw [significand] at again
  simp only [again]
  rw [dif_neg (mantissaOf_pos positive).ne']

/-- The first of 53 digits is left out when they are packed, and put back again. -/
theorem implicit_digit {m : Nat} (low : 2 ^ 52 ≤ m) (high : m < 2 ^ 53) :
    (1#1 ++ BitVec.ofNat 52 m).toNat = m := by
  rw [BitVec.toNat_append, ← Nat.shiftLeft_add_eq_or_of_lt (BitVec.ofNat 52 m).isLt,
    BitVec.toNat_ofNat, BitVec.toNat_ofNat]
  omega

/-- A float of 53 digits whose exponent is one of the format is packed without loss. -/
theorem unpack_pack (sign : Sign) {m : Nat} {e : Int} (positive : 0 < m) (low : 2 ^ 52 ≤ m)
    (high : m < 2 ^ 53) (least : -1074 ≤ e) (greatest : e ≤ 971) :
    (Float.Model.pack (.finite sign m e positive)).unpack = .finite sign m e positive := by
  have length : m.log2 = 52 := (Nat.log2_eq_iff (by omega)).2 ⟨low, high⟩
  obtain ⟨biased, within, rfl⟩ : ∃ biased : Nat, 1 ≤ biased ∧ e = (biased : Int) - 1075 :=
    ⟨(e + 1075).toNat, by omega, by omega⟩
  have fits : (BitVec.ofNat 11 biased).toNat = biased := by
    rw [BitVec.toNat_ofNat]
    omega
  have packed : UnpackedFloat.pack .binary64 (.finite sign m (biased - 1075) positive) =
      packComponents .binary64 sign (BitVec.ofNat 11 biased) (BitVec.ofNat 52 m) := by
    have exponent : ((biased : Int) - 1075 + (Format.exponentBias .binary64 : Nat) +
        (52 : Nat)).toNat = biased := by
      change ((biased : Int) - 1075 + (1023 : Nat) + (52 : Nat)).toNat = biased
      omega
    simp only [UnpackedFloat.pack, exponent, length]
    rw [if_neg (by omega), if_pos (show 52 + 1 = Format.binary64.mantissaBits from rfl)]
  have notZero : BitVec.ofNat 11 biased ≠ 0#11 := fun same => by
    have zero : biased = 0 := by rw [← fits, same]; rfl
    omega
  have notLast : BitVec.ofNat 11 biased ≠ -1#11 := fun same => by
    have last : biased = 2047 := by rw [← fits, same]; rfl
    omega
  change UnpackedFloat.unpack .binary64 (UnpackedFloat.pack .binary64 _) = _
  rw [packed, UnpackedFloat.unpack]
  simp only [unpackMantissa_packComponents, unpackExponent_packComponents,
    unpackSign_packComponents, Sign.ofBitVec_toBitVec, fits, implicit_digit low high]
  rw [if_neg notLast, if_neg notZero]
  rfl

def integerRank (z : Int) : Rank :=
  if 0 < z then rank 1 (exponentOf z.natAbs) (mantissaOf z.natAbs)
  else if z < 0 then rank (-1) (-exponentOf z.natAbs) (-mantissaOf z.natAbs)
  else rank 0 0 0

theorem integerRank_mono : Monotone integerRank := by
  intro y z le
  unfold integerRank
  split_ifs
  all_goals rw [rank_le_iff]
  all_goals try omega
  · have order := rounded_mono (j := y.natAbs) (k := z.natAbs) (by omega) (by omega)
    omega
  · have order := rounded_mono (j := z.natAbs) (k := y.natAbs) (by omega) (by omega)
    omega

/-- The exponents of integers are exponents of the format. -/
theorem exponentOf_bounds {k : Nat} (positive : 0 < k) (small : k < 2 ^ 64) :
    -1074 ≤ exponentOf k ∧ exponentOf k ≤ 971 := by
  have length : k.log2 < 64 := (Nat.log2_lt positive.ne').2 small
  rw [exponentOf]
  split_ifs <;> omega

/-- A positive integer as a float. -/
theorem unpack_toFloat {k : Nat} (positive : 0 < k) (small : k < 2 ^ 64) :
    (UInt64.ofNat k).toFloat.toModel.unpack =
      .finite .positive (mantissaOf k) (exponentOf k) (mantissaOf_pos positive) := by
  have value : (UInt64.ofNat k).toNat = k := UInt64.toNat_ofNat_of_lt' small
  have digits := mantissaOf_bounds positive
  have exponent := exponentOf_bounds positive small
  have sign : compare (k : Int) 0 = .gt := by
    rw [Int.compare_eq_gt]
    omega
  have rounded : UnpackedFloat.ofUInt64 .binary64 (UInt64.ofNat k) =
      .finite .positive (mantissaOf k) (exponentOf k) (mantissaOf_pos positive) := by
    rw [UnpackedFloat.ofUInt64, UnpackedFloat.ofNat, UnpackedFloat.ofInt,
      UnpackedFloat.normalize, value, sign]
    exact round_eq .positive positive
  change (Float.Model.pack (UnpackedFloat.ofUInt64 .binary64 (UInt64.ofNat k))).unpack = _
  rw [rounded]
  exact unpack_pack _ _ digits.1 digits.2 exponent.1 exponent.2

/-- The float that an integer is taken for has the rank of the integer. -/
theorem floatRank_floatOfInt (n : Int64) :
    floatRank (floatOfInt n) = some (integerRank n.toInt) := by
  have small : n.toInt.natAbs < 2 ^ 64 := by
    have low := Int64.le_toInt n
    have high := Int64.toInt_lt n
    omega
  have below : n < 0 ↔ n.toInt < 0 := Int64.lt_iff_toInt_lt
  rw [floatRank, floatOfInt, integerRank]
  rcases lt_trichotomy n.toInt 0 with negative | zero | positive
  · have size : 0 < n.toInt.natAbs := by omega
    have digits := mantissaOf_bounds size
    have exponent := exponentOf_bounds size small
    rw [if_pos (below.2 negative), if_neg (by omega), if_pos negative]
    change rankOf
      (Float.Model.pack (UInt64.ofNat n.toInt.natAbs).toFloat.toModel.unpack.neg).unpack = _
    rw [unpack_toFloat size small, UnpackedFloat.neg,
      unpack_pack _ _ digits.1 digits.2 exponent.1 exponent.2]
    rfl
  · have same : n = 0 := Int64.toInt_inj.1 zero
    subst same
    rfl
  · have size : 0 < n.toInt.natAbs := by omega
    rw [if_neg ((not_congr below).2 positive.not_gt), if_pos positive, unpack_toFloat size small]
    rfl

end TinyScript
