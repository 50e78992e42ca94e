import Mathlib

/-!
# Floating-point numbers

The operations on a `Float` unpack its bits into a mantissa and an exponent, compute with those,
round the result to the format and pack it again.  On positive normal numbers (`IsNormal`) some of
them do not round at all, and then a float can be read as the rational it stands for (`HasValue`):

* `hasValue_toFloat` — natural numbers that the mantissa has room for are converted exactly;
* `HasValue.div_two_pow` — division by a power of two only changes the exponent;
* `HasValue.le_iff` — floats compare as their values do.

All floats but NaN (`IsNumber`) are ordered, by their rank (`IsNumber.le_iff`, `IsNumber.lt_iff`).

The lemmas on unpacked numbers are for any format.
-/

namespace Floating

open Float.Model (Format UnpackedFloat totalExponent)
open Float.Model.UnpackedFloat

/-! ## Normal numbers -/

/-- A mantissa and an exponent that make a normal number of the format. -/
structure IsNormal (spec : Format) (m : ℕ) (e : ℤ) : Prop where
  full : m.log2 = spec.mantissaBitsWithoutImplicit
  lower : spec.minExponent ≤ e
  upper : e ≤ spec.exponentBias - spec.mantissaBitsWithoutImplicit

variable {spec : Format} {m : ℕ} {e : ℤ}

lemma IsNormal.ne_zero (h : IsNormal spec m e) : m ≠ 0 := by
  rintro rfl
  have := h.full
  have := spec.hm
  rw [Nat.log2_zero] at *
  omega

lemma IsNormal.pos (h : IsNormal spec m e) : 0 < m := Nat.pos_of_ne_zero h.ne_zero

lemma log2_mul_two_pow (h : m ≠ 0) (j : ℕ) : (m * 2 ^ j).log2 = m.log2 + j := by
  induction j with
  | zero => simp
  | succ j ih =>
    have hstep : m * 2 ^ (j + 1) = 2 * (m * 2 ^ j) := by ring
    rw [hstep, Nat.log2_two_mul (by positivity), ih, add_assoc]

/-- However a number is written, its leading digit is in the same place. -/
lemma totalExponent_mul_two_pow (h : m ≠ 0) (e : ℤ) (j : ℕ) :
    totalExponent (m * 2 ^ j) (e - j) = totalExponent m e := by
  rw [totalExponent, totalExponent, log2_mul_two_pow h]
  push_cast
  ring

/-- A normal number has the exponent the format asks for. -/
lemma IsNormal.targetExponent (h : IsNormal spec m e) :
    spec.targetExponent (totalExponent m e) = e := by
  rw [Format.targetExponent, totalExponent, h.full, Format.mantissaBits]
  have := h.lower
  push_cast
  omega

lemma shiftRight_exact (m j : ℕ) :
    (⟨m * 2 ^ j, false, false⟩ : ExtendedMantissa) >>> j = ⟨m, false, false⟩ := by
  show Nat.repeat ExtendedMantissa.shiftRightOne j ⟨m * 2 ^ j, false, false⟩ = _
  induction j generalizing m with
  | zero => simp [Nat.repeat]
  | succ j ih =>
    have hm : m * 2 ^ (j + 1) = m * 2 * 2 ^ j := by ring
    rw [Nat.repeat, hm, ih]
    simp [ExtendedMantissa.shiftRightOne]

/-- Rounding leaves a normal number as it is, however it is written. -/
lemma IsNormal.roundWithAccuracy_exact (h : IsNormal spec m e) (s : Sign) (j : ℕ) :
    roundWithAccuracy spec s (m * 2 ^ j) (e - j) .exact = .finite s m e h.pos := by
  have hshift : ∀ j : ℕ, shiftToTargetExponent spec (m * 2 ^ j) (e - j) .exact =
      (⟨m, false, false⟩, e) := by
    intro j
    have hj : (e - (e - j)).toNat = j := by omega
    rw [shiftToTargetExponent, totalExponent_mul_two_pow h.ne_zero, h.targetExponent,
      shiftToExponent, hj]
    simp only [ExtendedMantissa.ofMantissaAndAccuracy, shiftRight_exact]
    simp
  have hagain := hshift 0
  simp only [pow_zero, mul_one, Nat.cast_zero, sub_zero] at hagain
  have hround : (⟨m, false, false⟩ : ExtendedMantissa).roundedMantissa = m := rfl
  simp only [roundWithAccuracy, hshift, hround, hagain]
  rw [dif_neg h.ne_zero]

/-! ## Packing -/

lemma ofNat_ne_neg_one {n k : ℕ} (h : k + 1 < 2 ^ n) : BitVec.ofNat n k ≠ -1#n := by
  intro heq
  have hval := congrArg BitVec.toNat heq
  rw [BitVec.neg_one_eq_allOnes, BitVec.toNat_allOnes, BitVec.toNat_ofNat,
    Nat.mod_eq_of_lt (by omega)] at hval
  omega

/-- The bias is half the number of exponents, and the least exponent in terms of it. -/
lemma exponentBias_spec (spec : Format) : 2 ^ spec.exponentBits = 2 * spec.exponentBias + 2 ∧
    spec.minExponent = 1 - spec.exponentBias - spec.mantissaBitsWithoutImplicit := by
  obtain ⟨bits, hbits⟩ : ∃ bits, spec.exponentBits = bits + 1 :=
    ⟨spec.exponentBits - 1, (Nat.sub_add_cancel spec.he).symm⟩
  have hbias : (2 : ℤ) ^ bits = spec.exponentBias + 1 := by
    have hpow : 1 ≤ 2 ^ bits := Nat.one_le_two_pow
    rw [Format.exponentBias, hbits, Nat.add_sub_cancel]
    push_cast [hpow]
    ring
  constructor
  · have hbias : 2 ^ bits = spec.exponentBias + 1 := by exact_mod_cast hbias
    rw [hbits, pow_succ, hbias]
    ring
  · rw [Format.minExponent, Format.mantissaBits, hbits, Nat.add_sub_cancel, hbias]
    push_cast
    ring

/-- The implicit bit of a full mantissa is restored. -/
lemma append_implicitBit {bits : ℕ} (h : m.log2 = bits) (h0 : m ≠ 0) :
    (1#1 ++ BitVec.ofNat bits m).toNat = m := by
  obtain ⟨hlow, hhigh⟩ := (Nat.log2_eq_iff h0).mp h
  have hmod : m % 2 ^ bits = m - 2 ^ bits := by
    rw [Nat.mod_eq_sub_mod hlow, Nat.mod_eq_of_lt]
    rw [pow_succ] at hhigh
    omega
  have hlt : m % 2 ^ bits < 2 ^ bits := Nat.mod_lt _ (by positivity)
  rw [BitVec.toNat_append, BitVec.toNat_ofNat, BitVec.toNat_ofNat,
    ← Nat.shiftLeft_add_eq_or_of_lt hlt, hmod, Nat.shiftLeft_eq]
  omega

/-- Packing a normal number loses nothing. -/
lemma IsNormal.unpack_pack (h : IsNormal spec m e) (s : Sign) :
    unpack spec (pack spec (.finite s m e h.pos)) = .finite s m e h.pos := by
  obtain ⟨hcapacity, hmin⟩ := exponentBias_spec spec
  have hlower := h.lower
  have hupper := h.upper
  rw [hmin] at hlower
  obtain ⟨biased, hbiased⟩ : ∃ biased : ℕ,
      e + spec.exponentBias + spec.mantissaBitsWithoutImplicit = biased :=
    ⟨_, (Int.toNat_of_nonneg (by omega)).symm⟩
  have htoNat : (BitVec.ofNat spec.exponentBits biased).toNat = biased := by
    rw [BitVec.toNat_ofNat, Nat.mod_eq_of_lt (by omega)]
  have hzero : BitVec.ofNat spec.exponentBits biased ≠ 0#_ := by
    intro heq
    rw [heq, BitVec.toNat_zero] at htoNat
    omega
  have hones : BitVec.ofNat spec.exponentBits biased ≠ -1#_ := ofNat_ne_neg_one (by omega)
  have hfull : m.log2 + 1 = spec.mantissaBits := by rw [h.full, Format.mantissaBits, add_comm]
  have hpack : pack spec (.finite s m e h.pos) =
      packComponents spec s (BitVec.ofNat _ biased) (BitVec.ofNat _ m) := by
    simp only [pack, hbiased, Int.toNat_natCast]
    rw [if_neg (by omega), if_pos hfull]
  have hexponent : (biased : ℤ) - (spec.exponentBias + spec.mantissaBitsWithoutImplicit) = e := by
    omega
  rw [hpack, unpack]
  simp only [unpackMantissa_packComponents, unpackExponent_packComponents,
    unpackSign_packComponents, Sign.ofBitVec_toBitVec, htoNat, hexponent, if_neg hones,
    if_neg hzero, append_implicitBit h.full h.ne_zero]

/-! ## Division by a power of two -/

/-- Dividing by a power of two changes the exponent only. -/
lemma IsNormal.div_two_pow {e' : ℤ} (h : IsNormal spec m e)
    (hquot : IsNormal spec m (e - e' - spec.mantissaBitsWithoutImplicit)) (s s' : Sign)
    (hpos : 0 < 2 ^ spec.mantissaBitsWithoutImplicit) :
    div spec (.finite s m e h.pos) (.finite s' (2 ^ spec.mantissaBitsWithoutImplicit) e' hpos) =
      .finite (s / s') m (e - e' - spec.mantissaBitsWithoutImplicit) h.pos := by
  set bits := spec.mantissaBitsWithoutImplicit
  -- one bit more than the format holds is computed, unless the format has no smaller exponent
  obtain ⟨j, hj⟩ : ∃ j : ℕ, min (e - e') (spec.targetExponent
      (totalExponent m e - totalExponent (2 ^ bits) e')) = e - e' - bits - j := by
    have hmin := hquot.lower
    rw [Format.targetExponent, totalExponent, totalExponent, h.full, Nat.log2_two_pow,
      Format.mantissaBits]
    by_cases hlow : spec.minExponent = e - e' - bits
    · exact ⟨0, by push_cast; omega⟩
    · exact ⟨1, by push_cast; omega⟩
  have hshift : (e - e' - (e - e' - bits - j)).toNat = bits + j := by omega
  have hmantissa : m <<< (bits + j) = m * 2 ^ j * 2 ^ bits := by
    rw [Nat.shiftLeft_eq, pow_add]
    ring
  have hcore : divCore spec m e (2 ^ bits) e' = (m * 2 ^ j, e - e' - bits - j, .exact) := by
    rw [divCore, hj, hshift, hmantissa, Nat.mul_div_cancel _ hpos, Nat.mul_mod_left]
    rfl
  rw [div, hcore]
  exact hquot.roundWithAccuracy_exact (s / s') j

/-! ## Conversion of natural numbers -/

/-- A number the mantissa has room for is converted exactly. -/
lemma ofNat_exact {n : ℕ} (h0 : n ≠ 0) {j : ℕ} (h : IsNormal spec (n * 2 ^ j) (0 - j)) :
    ofNat spec n = .finite .positive (n * 2 ^ j) (0 - j) h.pos := by
  have hcompare : compare (n : ℤ) 0 = .gt := Int.compare_eq_gt.mpr (by omega)
  have htarget : spec.targetExponent (totalExponent n 0) = 0 - j := by
    rw [← totalExponent_mul_two_pow h0 0 j]
    exact h.targetExponent
  have hround := h.roundWithAccuracy_exact .positive 0
  rw [pow_zero, mul_one, Nat.cast_zero, sub_zero] at hround
  rw [ofNat, ofInt, UnpackedFloat.normalize, hcompare]
  simp only [Int.toNat_natCast, UnpackedFloat.round, htarget, decreaseExponent]
  simpa [Nat.shiftLeft_eq] using hround

/-! ## Order -/

/-- Between which powers of two a normal number lies. -/
lemma IsNormal.bounds (h : IsNormal spec m e) :
    (2 : ℚ) ^ (spec.mantissaBitsWithoutImplicit + e) ≤ m * 2 ^ e ∧
      (m : ℚ) * 2 ^ e < 2 ^ (spec.mantissaBitsWithoutImplicit + e + 1) := by
  obtain ⟨hlow, hhigh⟩ := (Nat.log2_eq_iff h.ne_zero).mp h.full
  have hlow : (2 : ℚ) ^ spec.mantissaBitsWithoutImplicit ≤ m := by exact_mod_cast hlow
  have hhigh : (m : ℚ) < 2 ^ (spec.mantissaBitsWithoutImplicit + 1) := by exact_mod_cast hhigh
  have hexp : (spec.mantissaBitsWithoutImplicit : ℤ) + e + 1 =
      (spec.mantissaBitsWithoutImplicit + 1 : ℕ) + e := by
    push_cast
    ring
  rw [hexp, zpow_add₀ two_ne_zero, zpow_add₀ two_ne_zero, zpow_natCast, zpow_natCast]
  constructor
  · gcongr
  · gcongr

/-- A normal number with a smaller exponent is smaller. -/
lemma IsNormal.lt_of_exponent_lt {m' : ℕ} {e' : ℤ} (h : IsNormal spec m e)
    (h' : IsNormal spec m' e') (he : e < e') : (m : ℚ) * 2 ^ e < m' * 2 ^ e' := by
  calc (m : ℚ) * 2 ^ e < 2 ^ (spec.mantissaBitsWithoutImplicit + e + 1) := h.bounds.2
    _ ≤ 2 ^ (spec.mantissaBitsWithoutImplicit + e') := by
      apply zpow_le_zpow_right₀ one_le_two
      omega
    _ ≤ m' * 2 ^ e' := h'.bounds.1

/-- The order of normal numbers is that of their values. -/
lemma IsNormal.le_iff {m' : ℕ} {e' : ℤ} (h : IsNormal spec m e) (h' : IsNormal spec m' e') :
    (UnpackedFloat.finite .positive m e h.pos).le (.finite .positive m' e' h'.pos) = true ↔
      (m : ℚ) * 2 ^ e ≤ m' * 2 ^ e' := by
  rcases lt_trichotomy e e' with he | rfl | he
  · have hvalue := h.lt_of_exponent_lt h' he
    simp [UnpackedFloat.le, UnpackedFloat.compare, Int.compare_eq_lt.mpr he, hvalue.le]
  · have hpow : (0 : ℚ) < 2 ^ e := by positivity
    simp [UnpackedFloat.le, UnpackedFloat.compare, hpow, Nat.isLE_compare]
  · have hvalue := h'.lt_of_exponent_lt h he
    simp [UnpackedFloat.le, UnpackedFloat.compare, Int.compare_eq_gt.mpr he, hvalue]

/-! ## Floats -/

/-- The float is a positive normal number, of this value. -/
def HasValue (x : Float) (q : ℚ) : Prop :=
  ∃ m e, ∃ h : IsNormal .binary64 m e,
    x.toModel.unpack = .finite .positive m e h.pos ∧ q = m * 2 ^ e

variable {x y : Float} {q r : ℚ}

/-- An operation packs its result and the next one unpacks it. -/
lemma unpack_of_pack {f : UnpackedFloat} (hx : x.toModel = .pack f) :
    x.toModel.unpack = UnpackedFloat.unpack .binary64 (UnpackedFloat.pack .binary64 f) := by
  rw [hx]
  rfl

/-- A count below `2 ^ 53` is converted exactly. -/
theorem hasValue_toFloat {n : UInt64} (h0 : n ≠ 0) (h : n.toNat < 2 ^ 53) :
    HasValue n.toFloat n.toNat := by
  have h0 : n.toNat ≠ 0 := fun hn => h0 (UInt64.toNat_inj.mp hn)
  have hlog : n.toNat.log2 < 53 := (Nat.log2_lt h0).mpr h
  obtain ⟨j, hj⟩ : ∃ j, n.toNat.log2 + j = 52 := ⟨52 - n.toNat.log2, by omega⟩
  have hnormal : IsNormal .binary64 (n.toNat * 2 ^ j) (0 - j) := by
    refine ⟨(log2_mul_two_pow h0 j).trans hj, ?_, ?_⟩
    · show (-1074 : ℤ) ≤ 0 - j
      omega
    · show 0 - (j : ℤ) ≤ 971
      omega
  refine ⟨_, _, hnormal, ?_, ?_⟩
  · have hconv : UnpackedFloat.ofUInt64 .binary64 n =
        .finite .positive (n.toNat * 2 ^ j) (0 - j) hnormal.pos := ofNat_exact h0 hnormal
    rw [unpack_of_pack (x := n.toFloat) rfl, hconv]
    exact hnormal.unpack_pack .positive
  · rw [zero_sub, zpow_neg, zpow_natCast]
    push_cast
    field_simp

/-- Dividing by a power of two is exact while the quotient is a normal number. -/
theorem HasValue.div_two_pow {k : ℕ} (hx : HasValue x q) (hy : HasValue y (2 ^ k))
    (hlow : 2 ^ (-1022 : ℤ) ≤ q / 2 ^ k) : HasValue (x / y) (q / 2 ^ k) := by
  obtain ⟨m, e, h, hunpack, rfl⟩ := hx
  obtain ⟨m', e', h', hunpack', hk⟩ := hy
  -- the divisor has the mantissa of a power of two
  have he' : (k : ℤ) = 52 + e' := by
    obtain ⟨hlow', hhigh'⟩ := h'.bounds
    rw [← hk, ← zpow_natCast] at hlow' hhigh'
    have hle : 52 + e' ≤ k := (zpow_le_zpow_iff_right₀ one_lt_two).mp hlow'
    have hlt : (k : ℤ) < 52 + e' + 1 := (zpow_lt_zpow_iff_right₀ one_lt_two).mp hhigh'
    omega
  have hm' : m' = 2 ^ 52 := by
    rw [← zpow_natCast, he', zpow_add₀ two_ne_zero] at hk
    have hcancel := mul_right_cancel₀ (zpow_ne_zero e' two_ne_zero) hk
    exact_mod_cast hcancel.symm
  subst hm'
  have hquot : IsNormal .binary64 m (e - e' - 52) := by
    refine ⟨h.full, ?_, ?_⟩
    · have hlt : (2 : ℚ) ^ (-1022 : ℤ) < 2 ^ (52 + e + 1 - k) := by
        calc (2 : ℚ) ^ (-1022 : ℤ) ≤ m * 2 ^ e / 2 ^ k := hlow
          _ < 2 ^ (52 + e + 1) / 2 ^ k := by
            have := h.bounds.2
            gcongr
            exact this
          _ = 2 ^ (52 + e + 1 - k) := by rw [zpow_sub₀ two_ne_zero, zpow_natCast]
      have hlt := (zpow_lt_zpow_iff_right₀ one_lt_two).mp hlt
      show (-1074 : ℤ) ≤ e - e' - 52
      omega
    · have hupper : e ≤ 971 := h.upper
      show e - e' - 52 ≤ 971
      omega
  refine ⟨m, e - e' - 52, hquot, ?_, ?_⟩
  · have hdiv : UnpackedFloat.div .binary64 x.toModel.unpack y.toModel.unpack =
        .finite .positive m (e - e' - 52) h.pos := by
      rw [hunpack, hunpack']
      exact h.div_two_pow hquot .positive .positive h'.pos
    rw [unpack_of_pack (x := x / y) rfl, hdiv]
    exact hquot.unpack_pack .positive
  · rw [← zpow_natCast, he', mul_div_assoc, ← zpow_sub₀ two_ne_zero]
    congr 2
    ring

/-- Floats compare as their values do. -/
theorem HasValue.le_iff (hx : HasValue x q) (hy : HasValue y r) : x ≤ y ↔ q ≤ r := by
  obtain ⟨m, e, h, hunpack, rfl⟩ := hx
  obtain ⟨m', e', h', hunpack', rfl⟩ := hy
  rw [← h.le_iff h', ← hunpack, ← hunpack']
  show decide _ = true ↔ _
  rw [decide_eq_true_iff]
  rfl

/-! ## Every float but NaN -/

/-- Where a float stands in the order of all that are not NaN: by its sign, then by magnitude. -/
def rank : UnpackedFloat → ℤ ×ₗ ℤ ×ₗ ℤ
  | .infinity .negative => toLex (-2, toLex (0, 0))
  | .finite .negative m e _ => toLex (-1, toLex (-e, -m))
  | .zero _ | .notANumber => toLex (0, toLex (0, 0))
  | .finite .positive m e _ => toLex (1, toLex (e, m))
  | .infinity .positive => toLex (2, toLex (0, 0))

lemma compare_toLex {β : Type*} [Ord β] (a a' : ℤ) (b b' : β) :
    compare (toLex (a, b)) (toLex (a', b')) = (compare a a').then (compare b b') := by
  simp [Prod.Lex.compare_def, compareLex, compareOn]

lemma compare_neg (a b : ℤ) : compare (-a) (-b) = (compare a b).swap := by
  rw [Int.compare_swap]
  rcases lt_trichotomy a b with h | rfl | h
  · rw [Int.compare_eq_gt.mpr h, Int.compare_eq_gt.mpr (neg_lt_neg h)]
  · simp
  · rw [Int.compare_eq_lt.mpr h, Int.compare_eq_lt.mpr (neg_lt_neg h)]

lemma compare_natCast (m n : ℕ) : compare (m : ℤ) n = compare m n := by
  rcases lt_trichotomy m n with h | rfl | h
  · rw [Nat.compare_eq_lt.mpr h, Int.compare_eq_lt.mpr (Int.ofNat_lt.mpr h)]
  · simp
  · rw [Nat.compare_eq_gt.mpr h, Int.compare_eq_gt.mpr (Int.ofNat_lt.mpr h)]

section Number
variable {f g : UnpackedFloat}

/-- Floats that are not NaN compare as their ranks do. -/
lemma compare_eq_rank (hf : f ≠ .notANumber) (hg : g ≠ .notANumber) :
    f.compare g = some (compare (rank f) (rank g)) := by
  cases f with
  | notANumber => exact absurd rfl hf
  | infinity s | zero s | finite s m e h =>
    cases g with
    | notANumber => exact absurd rfl hg
    | infinity t | zero t | finite t m' e' h' =>
      cases s <;> cases t <;>
        simp only [UnpackedFloat.compare, rank, compare_toLex, compare_neg, compare_natCast,
          Ordering.swap_then] <;>
        rfl

/-! Where NaN does not come from. -/

lemma roundWithAccuracy_ne_notANumber (s : Sign) (m : ℕ) (e : ℤ) (accuracy : Accuracy) :
    roundWithAccuracy spec s m e accuracy ≠ .notANumber := by
  unfold roundWithAccuracy
  dsimp only
  split <;> simp

lemma ofNat_ne_notANumber (n : ℕ) : ofNat spec n ≠ .notANumber := by
  unfold ofNat ofInt UnpackedFloat.normalize
  split
  · exact roundWithAccuracy_ne_notANumber _ _ _ _
  · simp
  · exact roundWithAccuracy_ne_notANumber _ _ _ _

/-- A quotient is a number if the divisor is finite and not zero. -/
lemma div_ne_notANumber (hf : f ≠ .notANumber) (s : Sign) (h : 0 < m) :
    div spec f (.finite s m e h) ≠ .notANumber := by
  cases f with
  | notANumber => exact absurd rfl hf
  | infinity t | zero t => simp [div]
  | finite t m' e' h' => exact roundWithAccuracy_ne_notANumber _ _ _ _

/-- Packing makes no number NaN. -/
lemma unpack_pack_ne_notANumber (hf : f ≠ .notANumber) :
    unpack spec (pack spec f) ≠ .notANumber := by
  have hzero : BitVec.ofNat spec.exponentBits 0 ≠ -1#_ :=
    ofNat_ne_neg_one (Nat.one_lt_two_pow spec.he.ne')
  cases f with
  | notANumber => exact absurd rfl hf
  | infinity s => simp [pack, packedInfinity, unpack]
  | zero s => simp [pack, packedZero, unpack, hzero]
  | finite s m e h =>
    unfold pack
    dsimp only
    split
    · simp [packedInfinity, unpack]
    · split
      · have hones : BitVec.ofNat spec.exponentBits
            (e + spec.exponentBias + spec.mantissaBitsWithoutImplicit).toNat ≠ -1#_ :=
          ofNat_ne_neg_one (by omega)
        simp only [unpack, unpackExponent_packComponents, if_neg hones]
        split
        · split <;> simp
        · simp
      · simp only [unpack, unpackExponent_packComponents, if_neg hzero, if_pos]
        split <;> simp

end Number

/-- The float is not NaN. -/
def IsNumber (x : Float) : Prop := x.toModel.unpack ≠ .notANumber

/-- The rank of a float. -/
def rankOf (x : Float) : ℤ ×ₗ ℤ ×ₗ ℤ := rank x.toModel.unpack

lemma isNumber_toFloat (n : UInt64) : IsNumber n.toFloat := by
  rw [IsNumber, unpack_of_pack (x := n.toFloat) rfl]
  exact unpack_pack_ne_notANumber (ofNat_ne_notANumber n.toNat)

lemma IsNumber.div (hx : IsNumber x) (hy : HasValue y q) : IsNumber (x / y) := by
  obtain ⟨m, e, h, hunpack, -⟩ := hy
  have hdiv : UnpackedFloat.div .binary64 x.toModel.unpack y.toModel.unpack ≠ .notANumber := by
    rw [hunpack]
    exact div_ne_notANumber hx .positive h.pos
  rw [IsNumber, unpack_of_pack (x := x / y) rfl]
  exact unpack_pack_ne_notANumber hdiv

lemma IsNumber.compare_eq (hx : IsNumber x) (hy : IsNumber y) :
    x.toModel.unpack.compare y.toModel.unpack = some (compare (rankOf x) (rankOf y)) :=
  compare_eq_rank hx hy

/-- **Numbers are ordered by their ranks.** -/
theorem IsNumber.le_iff (hx : IsNumber x) (hy : IsNumber y) : x ≤ y ↔ rankOf x ≤ rankOf y := by
  have hle : x.toModel.unpack.le y.toModel.unpack = true ↔ rankOf x ≤ rankOf y := by
    rw [UnpackedFloat.le, hx.compare_eq hy, Option.any_some]
    exact Ordering.isLE_iff_ne_gt.trans compare_le_iff_le
  rw [← hle]
  show decide _ = true ↔ _
  rw [decide_eq_true_iff]
  rfl

theorem IsNumber.lt_iff (hx : IsNumber x) (hy : IsNumber y) : x < y ↔ rankOf x < rankOf y := by
  have hlt : x.toModel.unpack.lt y.toModel.unpack = true ↔ rankOf x < rankOf y := by
    rw [UnpackedFloat.lt, hx.compare_eq hy, ← compare_lt_iff_lt]
    simp
  rw [← hlt]
  show decide _ = true ↔ _
  rw [decide_eq_true_iff]
  rfl

/-- Lists of numbers with the same ranks are equal, as floats are. -/
lemma beq_of_map_rankOf {l l' : List Float} (hl : ∀ x ∈ l, IsNumber x)
    (hl' : ∀ x ∈ l', IsNumber x) (h : l.map rankOf = l'.map rankOf) : (l == l') = true := by
  induction l generalizing l' with
  | nil =>
    obtain rfl : l' = [] := List.map_eq_nil_iff.mp h.symm
    rfl
  | cons x l ih =>
    obtain ⟨y, l', rfl, hxy, htail⟩ := List.map_eq_cons_iff.mp h.symm
    obtain ⟨hx, hl⟩ := List.forall_mem_cons.mp hl
    obtain ⟨hy, hl'⟩ := List.forall_mem_cons.mp hl'
    have hbeq : (x == y) = true := by
      show (x.toModel.unpack.compare y.toModel.unpack == some .eq) = true
      rw [hx.compare_eq hy, hxy]
      simp
    rw [List.cons_beq_cons, hbeq, ih hl hl' htail.symm]
    rfl

end Floating
