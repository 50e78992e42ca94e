import Mathlib.Algebra.BigOperators.Group.List.Basic
import Mathlib.Algebra.Ring.Nat
import Mathlib.Data.UInt
import Peekbeam.Foundation.History

/-!
# Accumulators

A loop keeps several values and adds to them, or overwrites them: `foldl_sum` and `foldl_getLast`
read one of them off the items looped over, whatever the loop does to the others.

The consumer of a history keeps counters of 64 bits and adds to at most one of them in each step.
`Accumulates` relates the counters to their true values, which are natural numbers: a counter is
its true value modulo `2 ^ 64`, and a step adds the same amount to both, or adds nothing and only
resets.

`Accumulates.fits_iff` — no addition overflows along a history exactly when every true value
stays below `2 ^ 64`, in every state reached.
-/

namespace Accumulators

open History

/-! ## Loops -/

section Loops
variable {σ α M : Type*}

/-- A value that every iteration adds to: it grows by what the iterations add. -/
lemma foldl_sum [AddMonoid M] (proj : σ → M) {step : σ → α → σ} {added : α → List M}
    (hstep : ∀ s a, proj (step s a) = proj s + (added a).sum) (s : σ) (l : List α) :
    proj (l.foldl step s) = proj s + (l.flatMap added).sum := by
  induction l generalizing s with
  | nil => simp
  | cons a l ih =>
    rw [List.foldl_cons, ih, hstep, List.flatMap_cons, List.sum_append, add_assoc]

/-- A value that some iterations overwrite: it is what the last of them writes. -/
lemma foldl_getLast (proj : σ → M) {step : σ → α → σ} {written : α → Option M}
    (hstep : ∀ s a, proj (step s a) = (written a).getD (proj s)) (s : σ) (l : List α) :
    proj (l.foldl step s) = ((l.filterMap written).getLast?).getD (proj s) := by
  induction l using List.reverseRecOn with
  | nil => simp
  | append_singleton l a ih =>
    rw [List.foldl_concat, hstep, List.filterMap_append, ih]
    cases hw : written a <;> simp [hw]

lemma toNat_sum (l : List UInt64) : l.sum.toNat = (l.map UInt64.toNat).sum % 2 ^ 64 := by
  induction l with
  | nil => rfl
  | cons a l ih =>
    rw [List.sum_cons, UInt64.toNat_add, ih, List.map_cons, List.sum_cons]
    omega

/-- Two loops with as many items have both items or none. -/
lemma eq_nil_iff_of_length_eq {β : Type*} {l : List α} {l' : List β} (h : l.length = l'.length) :
    l = [] ↔ l' = [] := by
  rw [← List.length_eq_zero_iff, h, List.length_eq_zero_iff]

end Loops

/-! ## Counters of 64 bits -/

/-- The sum of two numbers of 64 bits is one. -/
def Fits (p : UInt64 × UInt64) : Prop := p.1.toNat + p.2.toNat < 2 ^ 64

instance (p : UInt64 × UInt64) : Decidable (Fits p) := inferInstanceAs (Decidable (_ < _))

variable {α ι : Type*}

/-- In each step of `l`, every addition the step performs fits. -/
def AdditionsFit (additions : List α → α → List (UInt64 × UInt64)) (l : List α) : Prop :=
  Stepwise (fun pre e => ∀ p ∈ additions pre e, Fits p) l

/-- Along `l`, the counters `value` follow their true values `total`. -/
structure Accumulates (value : ι → List α → UInt64) (total : ι → List α → ℕ)
    (additions : List α → α → List (UInt64 × UInt64)) (l : List α) : Prop where
  nil : ∀ i, total i [] = 0
  value_eq : ∀ pre, pre <+: l → ∀ i, (value i pre).toNat = total i pre % 2 ^ 64
  step : Stepwise (fun pre e =>
    (additions pre e = [] ∧ ∀ i, total i (pre ++ [e]) ≤ total i pre) ∨
      ∃ i d, additions pre e = [(value i pre, d)] ∧
        total i (pre ++ [e]) = total i pre + d.toNat ∧
        ∀ j, j ≠ i → total j (pre ++ [e]) = total j pre) l

namespace Accumulates
variable {value : ι → List α → UInt64} {total : ι → List α → ℕ}
  {additions : List α → α → List (UInt64 × UInt64)} {l : List α}

lemma of_isPrefix {p : List α} (h : Accumulates value total additions l) (hp : p <+: l) :
    Accumulates value total additions p where
  nil := h.nil
  value_eq pre hpre := h.value_eq pre (hpre.trans hp)
  step := h.step.of_isPrefix hp

/-- **Overflow is seen in the true values.** -/
theorem fits_iff (h : Accumulates value total additions l) :
    AdditionsFit additions l ↔ ∀ pre, pre <+: l → ∀ i, total i pre < 2 ^ 64 := by
  induction l using List.reverseRecOn with
  | nil =>
    simp [AdditionsFit, h.nil]
  | append_singleton l e ih =>
    have ih := ih (h.of_isPrefix (List.prefix_append l [e]))
    rw [AdditionsFit, stepwise_concat, ← AdditionsFit, ih, forall_prefix_concat]
    refine and_congr_right fun hl => ?_
    have hbefore : ∀ i, total i l < 2 ^ 64 := hl l List.prefix_rfl
    rcases (stepwise_concat.mp h.step).2 with ⟨hnone, hle⟩ | ⟨i, d, hadd, hi, hother⟩
    · simp only [hnone, List.not_mem_nil, false_imp_iff, implies_true, true_iff]
      exact fun i => (hle i).trans_lt (hbefore i)
    · have hvalue : (value i l).toNat = total i l := by
        rw [h.value_eq l (List.prefix_append l [e]) i, Nat.mod_eq_of_lt (hbefore i)]
      simp only [hadd, List.mem_singleton, forall_eq, Fits, hvalue, ← hi]
      constructor
      · intro hfits j
        by_cases hj : j = i
        · rwa [hj]
        · rw [hother j hj]
          exact hbefore j
      · exact fun hall => hall i

end Accumulates

end Accumulators
