import Mathlib.Algebra.Ring.Nat
import Mathlib.Data.List.Basic
import Mathlib.Tactic.Lemma

/-!
# Framing by a separator

Records sent over a stream of symbols, each followed by a separator.  `unlines sep` is what the
sender writes and `lines sep` is what a receiver that knows only the separator reads back;
`lines_unlines_iff` says when that is what was sent, and `length_lines_unlines_iff` that the number
of lines tells.
-/

namespace Framing

variable {α : Type*} [DecidableEq α] (sep : α)

/-- The records, each followed by the separator. -/
def unlines (records : List (List α)) : List α := records.flatMap fun r => r ++ [sep]

/-- What stands before each separator, and after the last one if anything does. -/
def lines : List α → List (List α)
  | [] => []
  | a :: l =>
    if a = sep then [] :: lines l
    else
      match lines l with
      | [] => [[a]]
      | r :: rs => (a :: r) :: rs

omit [DecidableEq α] in
@[simp] lemma unlines_nil : unlines sep [] = [] := rfl

omit [DecidableEq α] in
lemma unlines_cons (r : List α) (rs : List (List α)) :
    unlines sep (r :: rs) = r ++ sep :: unlines sep rs := by
  simp [unlines]

omit [DecidableEq α] in
lemma unlines_append (rs rs' : List (List α)) :
    unlines sep (rs ++ rs') = unlines sep rs ++ unlines sep rs' :=
  List.flatMap_append

omit [DecidableEq α] in
/-- Every record takes some room. -/
lemma length_le_length_unlines (records : List (List α)) :
    records.length ≤ (unlines sep records).length := by
  induction records with
  | nil => exact le_rfl
  | cons r rs ih =>
    rw [unlines_cons, List.length_append, List.length_cons, List.length_cons]
    omega

variable {sep}

lemma lines_append_cons {r : List α} (h : sep ∉ r) (l : List α) :
    lines sep (r ++ sep :: l) = r :: lines sep l := by
  induction r with
  | nil => simp [lines]
  | cons a r ih =>
    obtain ⟨ha, hr⟩ : sep ≠ a ∧ sep ∉ r := by simpa using h
    rw [List.cons_append, lines, if_neg (Ne.symm ha), ih hr]

/-- A line read contains no separator. -/
lemma not_mem_of_mem_lines {l r : List α} (h : r ∈ lines sep l) : sep ∉ r := by
  induction l generalizing r with
  | nil => simp [lines] at h
  | cons a l ih =>
    rw [lines] at h
    by_cases ha : a = sep
    · rw [if_pos ha] at h
      rcases List.mem_cons.mp h with rfl | h
      · simp
      · exact ih h
    · rw [if_neg ha] at h
      cases hl : lines sep l with
      | nil =>
        obtain rfl : r = [a] := by simpa [hl] using h
        simpa using Ne.symm ha
      | cons r' rs =>
        rw [hl] at h ih
        rcases List.mem_cons.mp h with rfl | h
        · simpa [Ne.symm ha] using ih (List.mem_cons_self (l := rs))
        · exact ih (List.mem_cons_of_mem _ h)

/-- **Framing is sound exactly for records without a separator.** -/
theorem lines_unlines_iff {records : List (List α)} :
    lines sep (unlines sep records) = records ↔ ∀ r ∈ records, sep ∉ r := by
  constructor
  · intro h r hr
    rw [← h] at hr
    exact not_mem_of_mem_lines hr
  · intro h
    induction records with
    | nil => rfl
    | cons r rs ih =>
      rw [unlines_cons, lines_append_cons (h r (by simp)),
        ih fun r' hr' => h r' (List.mem_cons_of_mem _ hr')]

/-- After a separator no line is begun, and every separator ends one. -/
lemma length_lines_concat (l : List α) :
    (lines sep (l ++ [sep])).length = (l ++ [sep]).count sep := by
  induction l with
  | nil => simp [lines]
  | cons a l ih =>
    rw [List.cons_append, lines]
    by_cases ha : a = sep
    · rw [if_pos ha, List.length_cons, ih, ha, List.count_cons_self]
    · rw [if_neg ha, List.count_cons_of_ne ha, ← ih]
      have hpos : 0 < (lines sep (l ++ [sep])).length := by
        rw [ih]
        simp
      cases hl : lines sep (l ++ [sep]) with
      | nil => simp [hl] at hpos
      | cons r rs => rfl

lemma length_lines_unlines (records : List (List α)) :
    (lines sep (unlines sep records)).length =
      records.length + (records.map (List.count sep)).sum := by
  have hcount : (unlines sep records).count sep =
      records.length + (records.map (List.count sep)).sum := by
    induction records with
    | nil => rfl
    | cons r rs ih =>
      rw [unlines_cons, List.count_append, List.count_cons_self, ih, List.map_cons, List.sum_cons,
        List.length_cons]
      omega
  rw [← hcount]
  rcases List.eq_nil_or_concat records with rfl | ⟨rs, r, rfl⟩
  · rfl
  · have hlast : unlines sep (rs.concat r) = (unlines sep rs ++ r) ++ [sep] := by
      simp [unlines]
    rw [hlast, length_lines_concat]

/-- **Counting lines shows the same**: there are as many lines as records exactly if no record
has a separator. -/
theorem length_lines_unlines_iff {records : List (List α)} :
    (lines sep (unlines sep records)).length = records.length ↔ ∀ r ∈ records, sep ∉ r := by
  rw [length_lines_unlines, Nat.add_eq_left, List.sum_eq_zero_iff_forall_eq_nat]
  simp [List.count_eq_zero]

end Framing
