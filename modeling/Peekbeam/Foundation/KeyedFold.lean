import Mathlib.Algebra.BigOperators.Group.Finset.Piecewise
import Mathlib.Algebra.Order.Group.Multiset
import Mathlib.Data.List.DropRight
import Peekbeam.Foundation.History

/-!
# Streams folded by key

A consumer of a stream of events keeps a table, each event naming the entry it concerns.  The
lemmas here say what the table holds without going through the stream as a whole.

* `Local read key upd step` — an event rewrites the entry of its own key, by `upd`, and no
  other.  Then an entry is the fold of the events of its key alone (`Local.foldl`), whatever
  lies between them (`Local.foldl_congr`).
* `since resets es`, `foldl_since` — if some events overwrite the entry without looking at it, only
  the last of them and what comes after it count.
* `collect_perm` — outputs that look back only at the past of their own key are, up to order,
  independent of the interleaving.
-/

namespace KeyedFold

open History

variable {α β σ κ ν : Type*} [DecidableEq κ]

/-! ## One entry -/

/-- The events of key `k`. -/
def stream (key : α → κ) (k : κ) (es : List α) : List α := es.filter fun e => key e = k

lemma stream_concat (key : α → κ) (k : κ) (es : List α) (e : α) :
    stream key k (es ++ [e]) = stream key k es ++ if key e = k then [e] else [] := by
  by_cases h : key e = k <;> simp [stream, h]

/-- An event rewrites the entry of its own key and leaves the others alone. -/
def Local (read : σ → κ → ν) (key : α → κ) (upd : ν → α → ν) (step : σ → α → σ) : Prop :=
  ∀ s e k, read (step s e) k = if key e = k then upd (read s k) e else read s k

section Local
variable {read : σ → κ → ν} {key : α → κ} {upd : ν → α → ν} {step : σ → α → σ}

/-- **An entry is the fold of its own events.** -/
theorem Local.foldl (h : Local read key upd step) (s : σ) (es : List α) (k : κ) :
    read (es.foldl step s) k = (stream key k es).foldl upd (read s k) := by
  induction es using List.reverseRecOn with
  | nil => rfl
  | append_singleton es e ih =>
    rw [List.foldl_append, List.foldl_cons, List.foldl_nil, h, ih, stream_concat]
    by_cases hk : key e = k <;> simp [hk]

/-- Two streams with the same events of a key lead to the same entry. -/
theorem Local.foldl_congr (h : Local read key upd step) (s : σ) {es es' : List α} {k : κ}
    (hk : stream key k es = stream key k es') :
    read (es.foldl step s) k = read (es'.foldl step s) k := by
  rw [h.foldl, h.foldl, hk]

end Local

/-- The events of `es` after the last one that `resets`, or all of them. -/
def since (resets : α → Bool) (es : List α) : List α := es.rtakeWhile fun e => !resets e

lemma since_concat (resets : α → Bool) (es : List α) (e : α) :
    since resets (es ++ [e]) = if resets e then [] else since resets es ++ [e] := by
  cases h : resets e <;> simp [since, h]

/-- Nothing after the last reset resets. -/
lemma resets_of_mem_since {resets : α → Bool} {es : List α} {e : α} (h : e ∈ since resets es) :
    resets e = false := by
  simpa using List.mem_rtakeWhile_imp h

lemma since_eq_self {resets : α → Bool} {es : List α} (h : lastWhere resets es = none) :
    since resets es = es := by
  have hnone : ∀ e ∈ es, resets e = false := by
    simpa [lastWhere, List.filter_eq_nil_iff] using h
  exact List.rtakeWhile_eq_self_iff.mpr fun e he => by simp [hnone e he]

/-- What follows a reset reaches back to it at most. -/
lemma since_append_cons {resets : α → Bool} {pre post : List α} {r : α} (hr : resets r = true) :
    since resets (pre ++ r :: post) = since resets post := by
  induction post using List.reverseRecOn with
  | nil => simp [since, hr]
  | append_singleton post e ih =>
    rw [← List.cons_append, ← List.append_assoc, since_concat, since_concat, ih]

/-- Events that overwrite the entry without looking at it cut off the past. -/
theorem foldl_since {upd : ν → α → ν} {resets : α → Bool}
    (h : ∀ e, resets e = true → ∀ v v', upd v e = upd v' e) (v : ν) (es : List α) :
    es.foldl upd v =
      (since resets es).foldl upd ((lastWhere resets es).elim v (upd v)) := by
  induction es using List.reverseRecOn with
  | nil => rfl
  | append_singleton es e ih =>
    rw [List.foldl_append, List.foldl_cons, List.foldl_nil, since_concat, lastWhere_concat]
    by_cases hr : resets e = true
    · simp only [hr, if_true, List.foldl_nil]
      exact h e hr _ _
    · simp [hr, ih]

/-! ## Outputs of all keys -/

/-- Outputs that look back only at the past of their own key are, up to order, those of the
keys taken one by one. -/
lemma collect_eq_sum {key : α → κ} {g : List α → α → List β}
    (hlocal : ∀ pre e, g (stream key (key e) pre) e = g pre e) (es : List α) {K : Finset κ}
    (hK : ∀ e ∈ es, key e ∈ K) :
    (collect g es : Multiset β) = ∑ k ∈ K, (collect g (stream key k es) : Multiset β) := by
  induction es using List.reverseRecOn with
  | nil => simp [stream]
  | append_singleton es e ih =>
    have hcollect : ∀ k, (collect g (stream key k (es ++ [e])) : Multiset β) =
        collect g (stream key k es) + if k = key e then (g es e : Multiset β) else 0 := by
      intro k
      rw [stream_concat]
      by_cases hk : key e = k
      · subst hk
        simp [collect_concat, hlocal]
      · simp [hk, Ne.symm hk]
    have ih := ih fun e' he' => hK e' (List.mem_append_left _ he')
    simp only [hcollect, Finset.sum_add_distrib, ← ih, Finset.sum_ite_eq',
      hK e (by simp), if_true, collect_concat, ← Multiset.coe_add]

/-- **Interleaving does not matter.**  Streams with the same events of every key have the same
outputs up to order. -/
theorem collect_perm {key : α → κ} {g : List α → α → List β}
    (hlocal : ∀ pre e, g (stream key (key e) pre) e = g pre e) {es es' : List α}
    (h : ∀ k, stream key k es = stream key k es') : (collect g es).Perm (collect g es') := by
  have hkeys : ∀ e ∈ es, key e ∈ (es.map key).toFinset := by
    intro e he
    simpa using ⟨e, he, rfl⟩
  have hkeys' : ∀ e ∈ es', key e ∈ (es.map key).toFinset := by
    intro e he
    have hmem : e ∈ stream key (key e) es := by
      rw [h]
      simpa [stream] using he
    exact hkeys e (List.mem_of_mem_filter hmem)
  rw [← Multiset.coe_eq_coe, collect_eq_sum hlocal es hkeys, collect_eq_sum hlocal es' hkeys']
  simp only [h]

end KeyedFold
