import Peekbeam.PlainText

/-!
# Byte counts

`format_bytes` shows a number of bytes in the largest unit that is not larger than it: a loop
divides an `f64` by 1024 until less than 1024 of the unit are left, and the quotient is printed
with one decimal.

Below `2 ^ 53` the conversion to `f64` and the divisions are exact (`scaleDown_spec`), so the unit
is right and the number is off by half a decimal at most.  The loop tests the number before it is
rounded, though, and what is printed can be 1024 of a unit.  `bytes_shown_well_iff` says for which
counts.
-/

namespace Peekbeam

open FixedPoint Floating

lemma formatFixed_eq {x : Float} {q : ℚ} (h : HasValue x q) (digits : ℕ) :
    formatFixed digits x = toFixed digits q := by
  obtain ⟨m, e, hnormal, hunpack, rfl⟩ := h
  rw [formatFixed, hunpack]
  rfl

/-! ## The loop -/

lemma hasValue_1024 : HasValue 1024 (2 ^ 10) := by
  have hconst : (1024 : Float) = (1024 : UInt64).toFloat := by decide +kernel
  have hvalue : ((1024 : UInt64).toNat : ℚ) = 2 ^ 10 := by norm_num [UInt64.toNat_ofNat]
  rw [hconst, ← hvalue]
  exact hasValue_toFloat (by decide) (by decide)

/-- Each division is exact and passes to the next unit; the loop ends at the last unit or with less
than 1024 of a unit. -/
lemma scaleDown_spec {value : Float} {q : ℚ} (hvalue : HasValue value q) (hone : 1 ≤ q)
    (more unit : ℕ) :
    ∃ j ≤ more, (scaleDown more value unit).2 = unit + j ∧
      HasValue (scaleDown more value unit).1 (q / 1024 ^ j) ∧ 1 ≤ q / 1024 ^ j ∧
      (j < more → q / 1024 ^ j < 1024) := by
  induction more generalizing value q unit with
  | zero => exact ⟨0, le_rfl, rfl, by simpa [scaleDown] using hvalue, by simpa, by simp⟩
  | succ more ih =>
    have h1024 : (2 : ℚ) ^ 10 = 1024 := by norm_num
    have hge : value ≥ 1024 ↔ 1024 ≤ q := by
      rw [← h1024]
      exact hasValue_1024.le_iff hvalue
    rw [scaleDown]
    by_cases hq : 1024 ≤ q
    · rw [if_pos (hge.mpr hq)]
      have hquot : 1 ≤ q / 1024 := (one_le_div (by norm_num)).mpr hq
      have hdiv : HasValue (value / 1024) (q / 1024) := by
        rw [← h1024] at hquot ⊢
        apply hvalue.div_two_pow hasValue_1024
        exact (zpow_le_one_of_nonpos₀ one_le_two (by decide)).trans hquot
      obtain ⟨j, hj, hunit, hscaled, hleft, hless⟩ := ih hdiv hquot (unit + 1)
      have hpow : q / 1024 / 1024 ^ j = q / 1024 ^ (j + 1) := by rw [div_div, ← pow_succ']
      rw [hpow] at hscaled hleft hless
      exact ⟨j + 1, by omega, by omega, hscaled, hleft, fun hlt => hless (by omega)⟩
    · rw [if_neg (hge.not.mpr hq)]
      exact ⟨0, Nat.zero_le _, rfl, by simpa using hvalue, by simpa, fun _ => by simpa using hq⟩

/-- A unit that is the largest whose size does not exceed a count, or the first. -/
def IsLargestUnit (n unit : ℕ) : Prop :=
  unit < UNITS.length ∧ (1024 ^ unit ≤ n ∨ unit = 0) ∧
    ∀ u < UNITS.length, 1024 ^ u ≤ n → u ≤ unit

/-- A count is less than 1024 of its unit, unless that is the last one. -/
lemma IsLargestUnit.lt {n unit : ℕ} (h : IsLargestUnit n unit) (hlast : unit + 1 < UNITS.length) :
    n < 1024 ^ (unit + 1) := by
  by_contra hge
  have := h.2.2 (unit + 1) hlast (not_lt.mp hge)
  omega

/-- The loop finds the largest unit and divides by its size. -/
lemma scaleDown_toFloat {bytes : UInt64} (h : bytes.toNat < 2 ^ 53) :
    ∃ unit, (scaleDown (UNITS.length - 1) bytes.toFloat 0).2 = unit ∧
      IsLargestUnit bytes.toNat unit ∧
      (unit ≠ 0 → HasValue (scaleDown (UNITS.length - 1) bytes.toFloat 0).1
        (bytes.toNat / 1024 ^ unit)) := by
  by_cases h0 : bytes = 0
  · subst h0
    refine ⟨0, by decide +kernel, ⟨by decide, Or.inr rfl, fun u _ hle => ?_⟩, fun hne => ?_⟩
    · exact absurd hle (by simp)
    · exact absurd rfl hne
  · have hpos : 0 < bytes.toNat := Nat.pos_of_ne_zero fun hn => h0 (UInt64.toNat_inj.mp hn)
    obtain ⟨j, hj, hunit, hvalue, hone, hless⟩ :=
      scaleDown_spec (hasValue_toFloat h0 h) (by exact_mod_cast hpos) (UNITS.length - 1) 0
    have hlength : UNITS.length = 5 := rfl
    have hpow : (0 : ℚ) < 1024 ^ j := by positivity
    have hfits : 1024 ^ j ≤ bytes.toNat := by
      rw [one_le_div hpow] at hone
      exact_mod_cast hone
    refine ⟨j, by omega, ⟨by omega, Or.inl hfits, fun u hu hle => ?_⟩, fun _ => hvalue⟩
    by_contra hlt
    have hless := hless (by omega)
    rw [div_lt_iff₀ hpow, ← pow_succ'] at hless
    have hless : bytes.toNat < 1024 ^ (j + 1) := by exact_mod_cast hless
    have hmono : 1024 ^ (j + 1) ≤ 1024 ^ u := Nat.pow_le_pow_right (by decide) (by omega)
    omega

/-- What `format_bytes` prints: the count in the largest unit, with a decimal if that is not a
byte. -/
lemma formatBytes_eq {bytes : UInt64} (h : bytes.toNat < 2 ^ 53) :
    ∃ unit, IsLargestUnit bytes.toNat unit ∧
      formatBytes formatFixed bytes =
        (if unit = 0 then decimal bytes.toNat else toFixed 1 (bytes.toNat / 1024 ^ unit)) ++
          ' ' :: UNITS.getD unit [] := by
  obtain ⟨unit, hunit, hlargest, hvalue⟩ := scaleDown_toFloat h
  refine ⟨unit, hlargest, ?_⟩
  unfold formatBytes
  simp only [hunit]
  by_cases h0 : unit = 0
  · rw [if_pos h0, if_pos h0]
  · rw [if_neg h0, if_neg h0, formatFixed_eq (hvalue h0)]

/-! ## Reading a count -/

/-- The number and the unit in a text. -/
def readBytes (text : Text) : Option (ℚ × ℕ) := do
  let (number, name) ← Str.splitOnce ' ' text
  let number ← readDecimal number
  let unit ← UNITS.idxOf? name
  some (number, unit)

lemma readBytes_append {number : Text} {q : ℚ} {unit : ℕ} (hspace : ' ' ∉ number)
    (hread : readDecimal number = some q) (hunit : unit < UNITS.length) :
    readBytes (number ++ ' ' :: UNITS.getD unit []) = some (q, unit) := by
  have hname : ∀ unit < UNITS.length, UNITS.idxOf? (UNITS.getD unit []) = some unit := by decide
  rw [readBytes, Str.splitOnce_append_cons hspace]
  simp only [hread, hname unit hunit, Option.bind_eq_bind, Option.bind_some]

/-- The number that is printed. -/
def shownNumber (n unit : ℕ) : ℚ :=
  if unit = 0 then n else (roundHalfEven (n / 1024 ^ unit * 10) : ℚ) / 10

lemma readBytes_formatBytes {bytes : UInt64} (h : bytes.toNat < 2 ^ 53) :
    ∃ unit, IsLargestUnit bytes.toNat unit ∧
      readBytes (formatBytes formatFixed bytes) = some (shownNumber bytes.toNat unit, unit) := by
  obtain ⟨unit, hunit, heq⟩ := formatBytes_eq h
  refine ⟨unit, hunit, ?_⟩
  rw [heq]
  apply readBytes_append _ _ hunit.1
  · split
    · exact fun hmem => absurd (Str.isDigit_of_mem hmem) (by decide)
    · exact not_mem_toFixed (by decide) (by decide) _ _
  · unfold shownNumber
    split
    · exact readDecimal_toDigits _
    · rw [readDecimal_toFixed, pow_one]

/-! ## What a reader may expect -/

/-- The unit is the largest that fits, the number is right to half a decimal, and it is less than
1024 unless there is no larger unit. -/
structure ShownWell (n : ℕ) (number : ℚ) (unit : ℕ) : Prop where
  largest : IsLargestUnit n unit
  accurate : |number * 1024 ^ unit - n| ≤ 1 / 20 * 1024 ^ unit
  normalised : unit + 1 < UNITS.length → number < 1024

/-- A count is less than a unit, but by a twentieth of the unit before it at most. -/
def JustBelowUnit (n : ℕ) : Prop :=
  ∃ unit < UNITS.length - 1, n < 1024 ^ (unit + 1) ∧
    20 * 1024 ^ (unit + 1) ≤ 20 * n + 1024 ^ unit

instance (n : ℕ) : Decidable (JustBelowUnit n) :=
  inferInstanceAs (Decidable (∃ unit < UNITS.length - 1, _ ∧ _))

/-- A number with a decimal is off by half a decimal at most. -/
lemma abs_shownNumber_sub_le {n unit : ℕ} (h : unit ≠ 0) :
    |shownNumber n unit - n / 1024 ^ unit| ≤ 1 / 20 := by
  have hround := abs_roundHalfEven_sub_le (q := n / 1024 ^ unit * 10) (by positivity)
  rw [shownNumber, if_neg h]
  rw [abs_le] at hround ⊢
  constructor <;> linarith

/-- The count is shown to a twentieth of the unit. -/
lemma shownNumber_accurate (n unit : ℕ) :
    |shownNumber n unit * 1024 ^ unit - n| ≤ 1 / 20 * 1024 ^ unit := by
  by_cases h : unit = 0
  · subst h
    norm_num [shownNumber]
  · have hpow : (0 : ℚ) < 1024 ^ unit := by positivity
    have hcount : (n : ℚ) = n / 1024 ^ unit * 1024 ^ unit := (div_mul_cancel₀ _ hpow.ne').symm
    calc |shownNumber n unit * 1024 ^ unit - n|
        = |shownNumber n unit - n / 1024 ^ unit| * 1024 ^ unit := by
          rw [← abs_of_pos hpow, ← abs_mul, sub_mul, abs_of_pos hpow, ← hcount]
      _ ≤ 1 / 20 * 1024 ^ unit :=
          mul_le_mul_of_nonneg_right (abs_shownNumber_sub_le h) hpow.le

/-- The count is never halfway between 1024 of a unit and the last number below that. -/
lemma div_pow_ne_halfway (n unit : ℕ) : (n : ℚ) / 1024 ^ unit ≠ 1024 - 1 / 20 := by
  intro heq
  rw [div_eq_iff (by positivity)] at heq
  have hcount : 20 * n = 20479 * 1024 ^ unit := by
    have : (20 : ℚ) * n = 20479 * 1024 ^ unit := by linarith
    exact_mod_cast this
  have hcoprime : Nat.Coprime 5 (20479 * 1024 ^ unit) :=
    Nat.Coprime.mul_right (by decide) (Nat.Coprime.pow_right _ (by decide))
  have hdvd : 5 ∣ 20479 * 1024 ^ unit := by
    rw [← hcount]
    exact Dvd.intro (4 * n) (by ring)
  exact absurd (Nat.Coprime.eq_one_of_dvd hcoprime hdvd) (by decide)

/-- The last number with a decimal that is less than 1024. -/
lemma shownNumber_le_of_lt {n unit : ℕ} (h0 : unit ≠ 0) (h : shownNumber n unit < 1024) :
    shownNumber n unit ≤ 1024 - 1 / 10 := by
  rw [shownNumber, if_neg h0] at h ⊢
  have hlt : (roundHalfEven (n / 1024 ^ unit * 10) : ℚ) < 10240 := by linarith
  have hlt : roundHalfEven (n / 1024 ^ unit * 10) < 10240 := by exact_mod_cast hlt
  have hle : (roundHalfEven (n / 1024 ^ unit * 10) : ℚ) ≤ 10239 := by
    exact_mod_cast Nat.le_of_lt_succ hlt
  linarith

/-- The number is less than 1024 unless the count is a twentieth of its unit short of that. -/
lemma shownNumber_lt_iff {n unit : ℕ} (h : n < 1024 ^ (unit + 1)) :
    shownNumber n unit < 1024 ↔ 20 * n + 1024 ^ unit < 20 * 1024 ^ (unit + 1) := by
  by_cases h0 : unit = 0
  · subst h0
    have hlt : (n : ℚ) < 1024 := by exact_mod_cast h
    simp only [shownNumber, if_true, hlt, true_iff]
    omega
  · have hpow : (0 : ℚ) < 1024 ^ unit := by positivity
    have hquot : (n : ℚ) / 1024 ^ unit < 1024 - 1 / 20 ↔
        20 * n + 1024 ^ unit < 20 * 1024 ^ (unit + 1) := by
      rw [div_lt_iff₀ hpow, pow_succ', ← Nat.cast_lt (α := ℚ)]
      push_cast
      constructor <;> intro <;> linarith
    obtain ⟨hlow, hhigh⟩ := abs_le.mp (abs_shownNumber_sub_le (n := n) h0)
    rw [← hquot]
    constructor
    · intro hlt
      have htenths := shownNumber_le_of_lt h0 hlt
      exact lt_of_le_of_ne (by linarith) (div_pow_ne_halfway n unit)
    · intro hlt
      linarith

/-- A count that is just below a unit is shown in the one before. -/
lemma justBelowUnit_iff {n unit : ℕ} (h : IsLargestUnit n unit) :
    JustBelowUnit n ↔
      unit + 1 < UNITS.length ∧ 20 * 1024 ^ (unit + 1) ≤ 20 * n + 1024 ^ unit := by
  constructor
  · rintro ⟨u, hu, hlt, hle⟩
    have hfits : 1024 ^ u ≤ n := by
      rw [pow_succ] at hle
      omega
    have hge : u ≤ unit := h.2.2 u (by omega) hfits
    have hle' : unit ≤ u := by
      rcases h.2.1 with hunit | hunit
      · have : 1024 ^ unit < 1024 ^ (u + 1) := hunit.trans_lt hlt
        have := (Nat.pow_lt_pow_iff_right (by decide)).mp this
        omega
      · omega
    obtain rfl := le_antisymm hge hle'
    exact ⟨Nat.add_lt_of_lt_sub hu, hle⟩
  · rintro ⟨hlast, hle⟩
    exact ⟨unit, Nat.lt_sub_of_add_lt hlast, h.lt hlast, hle⟩

/-- **When a count is shown well.**  Below `2 ^ 53` the unit and the number are right, and the
number is less than 1024, exactly when the count is not just below a unit. -/
theorem bytes_shown_well_iff {bytes : UInt64} (h : bytes.toNat < 2 ^ 53) :
    (∃ number unit, readBytes (formatBytes formatFixed bytes) = some (number, unit) ∧
      ShownWell bytes.toNat number unit) ↔ ¬ JustBelowUnit bytes.toNat := by
  obtain ⟨unit, hunit, hread⟩ := readBytes_formatBytes h
  rw [justBelowUnit_iff hunit]
  constructor
  · rintro ⟨number, unit', hread', hwell⟩ ⟨hlast, hle⟩
    obtain ⟨rfl, rfl⟩ : shownNumber bytes.toNat unit = number ∧ unit = unit' := by
      simpa using hread.symm.trans hread'
    have := (shownNumber_lt_iff (hunit.lt hlast)).mp (hwell.normalised hlast)
    omega
  · intro hfar
    refine ⟨_, unit, hread, hunit, shownNumber_accurate _ _, fun hlast => ?_⟩
    rw [shownNumber_lt_iff (hunit.lt hlast)]
    by_contra hge
    exact hfar ⟨hlast, not_lt.mp hge⟩

/-- A KiB and a half is shown well. -/
theorem bytes_shown_well_iff_small :
    ∃ number unit, readBytes (formatBytes formatFixed 1536) = some (number, unit) ∧
      ShownWell 1536 number unit :=
  (bytes_shown_well_iff (by decide : (1536 : UInt64).toNat < 2 ^ 53)).mpr (by decide)

/-- One byte less than a MiB is shown as 1024 KiB. -/
theorem mebibyte_shown_in_kibibytes :
    formatBytes formatFixed 1048575 = "1024.0 KiB".toList ∧
      ¬ ∃ number unit, readBytes (formatBytes formatFixed 1048575) = some (number, unit) ∧
        ShownWell 1048575 number unit := by
  have htext : formatBytes formatFixed 1048575 = "1024.0 KiB".toList := by decide +kernel
  refine ⟨htext, ?_⟩
  rintro ⟨number, unit, hread, hwell⟩
  have hread' : readBytes "1024.0 KiB".toList = some (1024, 1) := by decide +kernel
  rw [htext, hread'] at hread
  obtain ⟨rfl, rfl⟩ : 1024 = number ∧ 1 = unit := by simpa using hread
  exact absurd (hwell.normalised (by decide)) (lt_irrefl _)

end Peekbeam
