import Mathlib.Algebra.Order.Floor.Semiring
import Mathlib.Data.Rat.Floor
import Mathlib.Tactic.FieldSimp
import Mathlib.Tactic.Linarith
import Peekbeam.Foundation.Text

/-!
# Decimal numbers

A nonnegative rational printed with a fixed number of decimals (`toFixed`) is rounded to the
nearest number that has so many, and of two equally near ones to the one whose last digit is even.
`readDecimal_toFixed` reads that number back from the text; `abs_roundHalfEven_sub_le` says how far
it is from the number that was to be printed.
-/

namespace FixedPoint

open Str

/-! ## Rounding -/

/-- The natural number nearest to `q`, of two equally near the even one. -/
def roundHalfEven (q : ℚ) : ℕ :=
  let n := ⌊q⌋₊
  if q - n < 1 / 2 then n
  else if 1 / 2 < q - n then n + 1
  else n + n % 2

lemma abs_roundHalfEven_sub_le {q : ℚ} (h : 0 ≤ q) : |(roundHalfEven q : ℚ) - q| ≤ 1 / 2 := by
  have hlow := Nat.floor_le h
  have hhigh := Nat.lt_floor_add_one q
  unfold roundHalfEven
  dsimp only
  split
  · rw [abs_le]
    constructor <;> linarith
  · split
    · push_cast
      rw [abs_le]
      constructor <;> linarith
    · rcases Nat.mod_two_eq_zero_or_one ⌊q⌋₊ with hmod | hmod
      · rw [hmod, abs_le]
        push_cast
        constructor <;> linarith
      · rw [hmod, abs_le]
        push_cast
        constructor <;> linarith

/-! ## Printing -/

/-- A number with `digits` decimals. -/
def toFixed (digits : ℕ) (q : ℚ) : List Char :=
  let n := roundHalfEven (q * 10 ^ digits)
  Nat.toDigits 10 (n / 10 ^ digits) ++
    if digits = 0 then []
    else '.' :: (Nat.toDigits 10 (n % 10 ^ digits)).leftpad digits '0'

/-! ## Reading -/

/-- The number a text of digits stands for. -/
def readDigits (s : List Char) : Option ℕ :=
  if s ≠ [] ∧ s.all Char.isDigit then some (Nat.ofDigitChars 10 s 0) else none

/-- The number a text of digits stands for, with a decimal point or without. -/
def readDecimal (s : List Char) : Option ℚ :=
  match splitOnce '.' s with
  | none => (readDigits s).map Nat.cast
  | some (whole, fraction) => do
    let n ← readDigits whole
    let f ← readDigits fraction
    some ((n : ℚ) + f / 10 ^ fraction.length)

lemma isDigit_of_mem_leftpad {digits n : ℕ} {c : Char}
    (h : c ∈ (Nat.toDigits 10 n).leftpad digits '0') : c.isDigit = true := by
  rcases List.mem_append.mp h with hzero | hdigit
  · rw [List.eq_of_mem_replicate hzero]
    rfl
  · exact isDigit_of_mem hdigit

/-- Leading zeros do not change a number. -/
lemma readDigits_leftpad (digits n : ℕ) :
    readDigits ((Nat.toDigits 10 n).leftpad digits '0') = some n := by
  have hall : ((Nat.toDigits 10 n).leftpad digits '0').all Char.isDigit = true :=
    List.all_eq_true.mpr fun c hc => isDigit_of_mem_leftpad hc
  have hne : (Nat.toDigits 10 n).leftpad digits '0' ≠ [] := by simp [List.leftpad]
  rw [readDigits, if_pos ⟨hne, hall⟩, List.leftpad, Nat.ofDigitChars_append,
    Nat.ofDigitChars_replicate_zero, Nat.mul_zero, Nat.ofDigitChars_ten_toDigits]

lemma readDigits_toDigits (n : ℕ) : readDigits (Nat.toDigits 10 n) = some n := by
  simpa [List.leftpad] using readDigits_leftpad 0 n

lemma dot_not_mem_toDigits (n : ℕ) : '.' ∉ Nat.toDigits 10 n := fun hmem =>
  absurd (isDigit_of_mem hmem) (by decide)

/-- A printed number consists of digits and a decimal point. -/
lemma not_mem_toFixed {c : Char} (hdigit : c.isDigit = false) (hdot : c ≠ '.') (digits : ℕ)
    (q : ℚ) : c ∉ toFixed digits q := by
  have hne : ¬ c.isDigit = true := by simp [hdigit]
  intro h
  rcases List.mem_append.mp h with hwhole | hfraction
  · exact hne (isDigit_of_mem hwhole)
  · split at hfraction
    · exact List.not_mem_nil hfraction
    · rcases List.mem_cons.mp hfraction with heq | hfraction
      · exact hdot heq
      · exact hne (isDigit_of_mem_leftpad hfraction)

/-- A natural number is read back. -/
lemma readDecimal_toDigits (n : ℕ) : readDecimal (Nat.toDigits 10 n) = some (n : ℚ) := by
  rw [readDecimal, splitOnce, if_neg (dot_not_mem_toDigits n)]
  simp [readDigits_toDigits]

/-- What is printed is read back as the number rounded. -/
theorem readDecimal_toFixed (digits : ℕ) (q : ℚ) :
    readDecimal (toFixed digits q) = some ((roundHalfEven (q * 10 ^ digits) : ℚ) / 10 ^ digits) := by
  generalize hn : roundHalfEven (q * 10 ^ digits) = n
  simp only [toFixed, hn]
  split
  · next h =>
    subst h
    rw [List.append_nil, readDecimal_toDigits]
    simp
  · next h =>
    have hlength : ((Nat.toDigits 10 (n % 10 ^ digits)).leftpad digits '0').length = digits := by
      have hle : (Nat.toDigits 10 (n % 10 ^ digits)).length ≤ digits :=
        (Nat.length_toDigits_le_iff (by decide) (Nat.pos_of_ne_zero h)).mpr
          (Nat.mod_lt _ (by positivity))
      rw [List.length_leftpad, max_eq_left hle]
    have hsplit : (n : ℚ) =
        (10 ^ digits * (n / 10 ^ digits : ℕ) + (n % 10 ^ digits : ℕ) : ℚ) := by
      exact_mod_cast (Nat.div_add_mod n (10 ^ digits)).symm
    rw [readDecimal, splitOnce_append_cons (dot_not_mem_toDigits _)]
    simp only [readDigits_toDigits, readDigits_leftpad, hlength, Option.bind_eq_bind,
      Option.bind_some]
    rw [hsplit]
    field_simp

end FixedPoint
