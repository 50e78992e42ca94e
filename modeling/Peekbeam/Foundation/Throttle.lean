import Mathlib.Data.List.Chain

/-!
# Throttled loops

A loop that reads a clock in each iteration, and acts if at least `refresh` has passed since it
last acted.  `now a` is the reading of the iteration `a`, and `later a` the one after the action,
from which the next interval is counted.

Actions are at least `refresh` apart (`throttle_apart`), so that there is a bound on their number
(`length_throttle_mul_le`).  And if iterations follow each other within `δ`, no iteration finds
the last action more than `refresh + δ` ago (`now_le_mark`).
-/

namespace Peekbeam

variable {α : Type} (now later : α → ℕ) (refresh : ℕ)

/-- The iterations that act, counting from an action at `last`. -/
def throttle : ℕ → List α → List α
  | _, [] => []
  | last, a :: as =>
    if now a - last ≥ refresh then a :: throttle (later a) as else throttle last as

/-- The time of the last action. -/
def throttleMark : ℕ → List α → ℕ
  | last, [] => last
  | last, a :: as =>
    if now a - last ≥ refresh then throttleMark (later a) as else throttleMark last as

variable {now later refresh}

lemma throttle_sublist (last : ℕ) (as : List α) :
    (throttle now later refresh last as).Sublist as := by
  induction as generalizing last with
  | nil => exact List.Sublist.slnil
  | cons a as ih =>
    unfold throttle
    split
    · exact (ih _).cons_cons a
    · exact (ih _).cons a

lemma throttle_append (last : ℕ) (as bs : List α) :
    throttle now later refresh last (as ++ bs) = throttle now later refresh last as ++
      throttle now later refresh (throttleMark now later refresh last as) bs := by
  induction as generalizing last with
  | nil => rfl
  | cons a as ih =>
    rw [List.cons_append, throttle, throttle, throttleMark]
    split
    · rw [ih, List.cons_append]
    · exact ih last

lemma throttle_map {β : Type} (f : β → α) (last : ℕ) (bs : List β) :
    throttle now later refresh last (bs.map f) =
      (throttle (now ∘ f) (later ∘ f) refresh last bs).map f := by
  induction bs generalizing last with
  | nil => rfl
  | cons b bs ih =>
    rw [List.map_cons, throttle, throttle]
    simp only [Function.comp_apply]
    split
    · rw [ih, List.map_cons]
    · exact ih last

/-- The mark is where the last action was, or where it was set. -/
lemma throttleMark_eq (last : ℕ) (as : List α) :
    throttleMark now later refresh last as =
      ((throttle now later refresh last as).getLast?.map later).getD last := by
  induction as generalizing last with
  | nil => rfl
  | cons a as ih =>
    rw [throttleMark, throttle]
    split
    · rw [ih, List.getLast?_cons]
      cases (throttle now later refresh (later a) as).getLast? <;> rfl
    · exact ih last

/-- The first action is `refresh` after the mark. -/
lemma le_of_mem_head? {last : ℕ} {as : List α} :
    ∀ b ∈ (throttle now later refresh last as).head?, refresh ≤ now b - last := by
  induction as with
  | nil => simp [throttle]
  | cons a as ih =>
    intro b hb
    unfold throttle at hb
    split at hb
    · rename_i hle
      obtain rfl : a = b := by simpa using hb
      exact hle
    · exact ih b hb

/-- A chain is one up to any point. -/
lemma isChain_of_isPrefix {R : α → α → Prop} {as bs : List α} (h : bs.IsChain R)
    (hbegins : as <+: bs) : as.IsChain R := by
  obtain ⟨rest, rfl⟩ := hbegins
  exact h.left_of_append

/-- **Actions are apart.** -/
lemma throttle_apart (last : ℕ) (as : List α) :
    (throttle now later refresh last as).IsChain fun a b => refresh ≤ now b - later a := by
  induction as generalizing last with
  | nil => exact List.isChain_nil
  | cons a as ih =>
    unfold throttle
    split
    · exact List.isChain_cons.mpr ⟨le_of_mem_head?, ih (later a)⟩
    · exact ih last

/-- **Actions are few.** -/
lemma length_throttle_mul_le {last bound : ℕ} {as : List α}
    (hclock : ∀ a ∈ as, now a ≤ later a) (hbound : ∀ a ∈ as, now a ≤ bound) :
    (throttle now later refresh last as).length * refresh ≤ bound - last := by
  rcases Nat.eq_zero_or_pos refresh with rfl | hpos
  · rw [Nat.mul_zero]
    exact Nat.zero_le _
  induction as generalizing last with
  | nil => simp [throttle]
  | cons a as ih =>
    have hclock' : ∀ b ∈ as, now b ≤ later b := fun b hb => hclock b (List.mem_cons_of_mem a hb)
    have hbound' : ∀ b ∈ as, now b ≤ bound := fun b hb => hbound b (List.mem_cons_of_mem a hb)
    unfold throttle
    split
    · rename_i hle
      have hrest : (throttle now later refresh (later a) as).length * refresh ≤
          bound - later a := ih hclock' hbound'
      have hnow := hclock a List.mem_cons_self
      have hend := hbound a List.mem_cons_self
      rw [List.length_cons, Nat.succ_mul]
      omega
    · exact ih hclock' hbound'

/-- **Actions are prompt.**  Here `r` is the reading before the first iteration. -/
lemma now_le_mark {δ last r : ℕ} {before after : List α} {a : α}
    (hclock : ∀ b ∈ before, now b ≤ later b) (hr : r ≤ last + refresh)
    (hsteady : (r :: (before ++ a :: after).map now).IsChain fun s t => t ≤ s + δ) :
    now a ≤ throttleMark now later refresh last before + refresh + δ := by
  induction before generalizing last r with
  | nil =>
    have hfirst : now a ≤ r + δ := hsteady.rel
    rw [throttleMark]
    omega
  | cons b before ih =>
    have hclock' : ∀ c ∈ before, now c ≤ later c := fun c hc => hclock c (List.mem_cons_of_mem b hc)
    have hrest : (now b :: (before ++ a :: after).map now).IsChain fun s t => t ≤ s + δ :=
      hsteady.tail
    unfold throttleMark
    split
    · have hnow := hclock b List.mem_cons_self
      exact ih hclock' (by omega) hrest
    · exact ih hclock' (by omega) hrest

end Peekbeam
