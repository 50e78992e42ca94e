import Mathlib.Data.List.Induction
import Mathlib.Data.List.DropRight
import Mathlib.Tactic.Lemma

/-!
# Finite histories

A run of a system is recorded here as the list of its steps, oldest first, and everything said
about a run is said by looking back along that list.  This file collects the vocabulary for
doing so; it knows nothing of any particular system.

* `Stepwise P l` — every step of `l` satisfies `P`, given the steps before it.  A guard, a
  well-formedness condition or a failure-freedom assumption on a run is a `Stepwise`
  statement, and `Stepwise.invariant` is the induction rule that turns a step lemma into a run
  lemma.
* `lastWhere p l` — the most recent step satisfying `p`.
* `Since key ends P l k` — a step satisfying `P` since the stream of `k` last ended.
* `collect g l` — the outputs of a step function that may look at the whole past of a step.
* `effective step idle s l` — `l` without the steps that do nothing when their turn comes.

The lemmas come in the shape an induction on the *end* of a history needs
(`stepwise_concat`, `lastWhere_concat`, `since_concat`, `collect_concat`), since a history grows
at its end.
-/

namespace History

variable {α β : Type*}

/-! ## Conditions on every step -/

/-- Every step of `l` satisfies `P`, which may mention the history before the step. -/
def Stepwise (P : List α → α → Prop) (l : List α) : Prop :=
  ∀ pre f post, l = pre ++ f :: post → P pre f

@[simp] lemma stepwise_nil (P : List α → α → Prop) : Stepwise P [] := by
  intro pre f post h
  simp at h

lemma stepwise_concat {P : List α → α → Prop} {l : List α} {f : α} :
    Stepwise P (l ++ [f]) ↔ Stepwise P l ∧ P l f := by
  constructor
  · intro h
    refine ⟨fun pre g post hl => h pre g (post ++ [f]) (by simp [hl]), h l f [] rfl⟩
  · rintro ⟨hl, hf⟩ pre g post heq
    rcases List.eq_nil_or_concat post with rfl | ⟨post', b, rfl⟩
    · obtain ⟨rfl, rfl⟩ := List.append_singleton_inj.mp (show l ++ [f] = pre ++ [g] from heq)
      exact hf
    · have heq' : l ++ [f] = (pre ++ g :: post') ++ [b] := by simp [heq]
      exact hl pre g post' (List.append_singleton_inj.mp heq').1

lemma Stepwise.of_isPrefix {P : List α → α → Prop} {l p : List α} (h : Stepwise P l)
    (hp : p <+: l) : Stepwise P p := by
  obtain ⟨t, rfl⟩ := hp
  intro pre f post hpre
  exact h pre f (post ++ t) (by simp [hpre])

lemma Stepwise.imp {P Q : List α → α → Prop} {l : List α} (h : Stepwise P l)
    (hPQ : ∀ pre f, P pre f → Q pre f) : Stepwise Q l :=
  fun pre f post hl => hPQ pre f (h pre f post hl)

/-- Conditions that agree on every step of `l`, given the history before it, agree on `l`. -/
lemma stepwise_congr {P Q : List α → α → Prop} {l : List α}
    (h : ∀ pre f, pre ++ [f] <+: l → (P pre f ↔ Q pre f)) : Stepwise P l ↔ Stepwise Q l := by
  have hsplit : ∀ pre f post, l = pre ++ f :: post → (P pre f ↔ Q pre f) := fun pre f post hl =>
    h pre f ⟨post, by simp [hl]⟩
  constructor
  · intro hP pre f post hl
    exact (hsplit pre f post hl).mp (hP pre f post hl)
  · intro hQ pre f post hl
    exact (hsplit pre f post hl).mpr (hQ pre f post hl)

lemma Stepwise.and {P Q : List α → α → Prop} {l : List α} (hP : Stepwise P l)
    (hQ : Stepwise Q l) : Stepwise (fun pre f => P pre f ∧ Q pre f) l :=
  fun pre f post hl => ⟨hP pre f post hl, hQ pre f post hl⟩

/-- A condition that ignores the past is a condition on the members. -/
lemma stepwise_forall {P : α → Prop} {l : List α} :
    Stepwise (fun _ f => P f) l ↔ ∀ f ∈ l, P f := by
  constructor
  · intro h f hf
    obtain ⟨pre, post, rfl⟩ := List.append_of_mem hf
    exact h pre f post rfl
  · rintro h pre f post rfl
    exact h f (by simp)

/-- Positions name the splits of a list, so a decidable `Stepwise` condition can be evaluated. -/
lemma stepwise_iff_get {P : List α → α → Prop} {l : List α} :
    Stepwise P l ↔ ∀ i : Fin l.length, P (l.take i) (l.get i) := by
  constructor
  · intro h i
    exact h _ _ (l.drop (i + 1)) (by simp)
  · rintro h pre f post rfl
    simpa using h ⟨pre.length, by simp⟩

instance (P : List α → α → Prop) [∀ pre f, Decidable (P pre f)] (l : List α) :
    Decidable (Stepwise P l) :=
  decidable_of_iff _ stepwise_iff_get.symm

/-- **The run lemma.**  An invariant of histories that holds at the start and is kept by one
admissible step holds of every history whose steps are admissible. -/
theorem Stepwise.invariant {P : List α → α → Prop} (I : List α → Prop) (init : I [])
    (step : ∀ l f, Stepwise P l → P l f → I l → I (l ++ [f])) {l : List α}
    (h : Stepwise P l) : I l := by
  induction l using List.reverseRecOn with
  | nil => exact init
  | append_singleton l f ih =>
    obtain ⟨hl, hf⟩ := stepwise_concat.mp h
    exact step l f hl hf (ih hl)

/-- The states reached along `l` are named by their lengths. -/
lemma forall_prefix_iff_take {Q : List α → Prop} {l : List α} :
    (∀ p, p <+: l → Q p) ↔ ∀ i : Fin (l.length + 1), Q (l.take i) := by
  constructor
  · intro h i
    exact h _ (List.take_prefix _ _)
  · intro h p hp
    have := h ⟨p.length, Nat.lt_succ_of_le hp.length_le⟩
    rwa [← List.prefix_iff_eq_take.mp hp] at this

/-- A property of every state reached along `l ++ [f]` is one of every state reached along `l`
and of the last state. -/
lemma forall_prefix_concat {Q : List α → Prop} {l : List α} {f : α} :
    (∀ p, p <+: l ++ [f] → Q p) ↔ (∀ p, p <+: l → Q p) ∧ Q (l ++ [f]) := by
  constructor
  · intro h
    exact ⟨fun p hp => h p (hp.trans (List.prefix_append l [f])), h _ List.prefix_rfl⟩
  · rintro ⟨hl, hf⟩ p hp
    rcases List.prefix_concat_iff.mp hp with rfl | hp
    · exact hf
    · exact hl p hp

/-! ## The most recent step of a kind -/

/-- The most recent step of `l` that satisfies `p`. -/
def lastWhere (p : α → Bool) (l : List α) : Option α := (l.filter p).getLast?

@[simp] lemma lastWhere_nil (p : α → Bool) : lastWhere p [] = none := rfl

lemma lastWhere_concat (p : α → Bool) (l : List α) (f : α) :
    lastWhere p (l ++ [f]) = if p f then some f else lastWhere p l := by
  by_cases hf : p f = true <;> simp [lastWhere, List.filter_append, hf]

lemma mem_of_lastWhere {p : α → Bool} {l : List α} {f : α} (h : lastWhere p l = some f) :
    f ∈ l ∧ p f = true :=
  List.mem_filter.mp (List.mem_of_getLast? h)

/-- Later steps that do not satisfy `p` do not change the most recent one that does. -/
lemma lastWhere_append {p : α → Bool} {l post : List α} (h : ∀ f ∈ post, p f = false) :
    lastWhere p (l ++ post) = lastWhere p l := by
  have : post.filter p = [] := by simpa [List.filter_eq_nil_iff] using h
  simp [lastWhere, List.filter_append, this]

/-- The most recent step that satisfies `p`, with what came after it. -/
lemma exists_split_of_lastWhere {p : α → Bool} {l : List α} {f : α}
    (h : lastWhere p l = some f) :
    ∃ pre post, l = pre ++ f :: post ∧ ∀ g ∈ post, p g = false := by
  induction l using List.reverseRecOn with
  | nil => simp at h
  | append_singleton l a ih =>
    rw [lastWhere_concat] at h
    split at h
    · obtain rfl := Option.some.inj h
      exact ⟨l, [], rfl, by simp⟩
    · rename_i hpa
      obtain ⟨pre, post, rfl, hpost⟩ := ih h
      refine ⟨pre, post ++ [a], by simp, fun g hg => ?_⟩
      rcases List.mem_append.mp hg with hg | hg
      · exact hpost g hg
      · obtain rfl := List.mem_singleton.mp hg
        simpa using hpa

/-- In a history sorted by `r`, no step satisfying `p` comes after the most recent one. -/
lemma rel_lastWhere {r : α → α → Prop} (refl : ∀ a, r a a) {p : α → Bool} {l : List α}
    (hr : l.Pairwise r) {f g : α} (hf : f ∈ l) (hpf : p f = true)
    (hg : lastWhere p l = some g) : r f g := by
  induction l using List.reverseRecOn with
  | nil => simp at hf
  | append_singleton l a ih =>
    obtain ⟨hl, -, hla⟩ := List.pairwise_append.mp hr
    rw [lastWhere_concat] at hg
    split at hg
    · obtain rfl : a = g := Option.some.inj hg
      rcases List.mem_append.mp hf with hf | hf
      · exact hla f hf a (by simp)
      · exact List.mem_singleton.mp hf ▸ refl f
    · rename_i hpa
      have hfl : f ∈ l := by
        rcases List.mem_append.mp hf with hf | hf
        · exact hf
        · exact absurd (List.mem_singleton.mp hf ▸ hpf) hpa
      exact ih hl hfl hg

/-! ## Steps since the last end -/

section Since
variable {κ : Type*} (key : α → κ) (ends : α → Bool)

/-- Among the steps of key `k` in `l` there is one that satisfies `P`, and none after it ends
the stream of `k`. -/
def Since (P : List α → α → Prop) (l : List α) (k : κ) : Prop :=
  ∃ pre g post, l = pre ++ g :: post ∧ key g = k ∧ P pre g ∧
    ∀ f ∈ post, key f = k → ends f = false

lemma since_iff_get {P : List α → α → Prop} {l : List α} {k : κ} :
    Since key ends P l k ↔ ∃ i : Fin l.length, key (l.get i) = k ∧ P (l.take i) (l.get i) ∧
      ∀ f ∈ l.drop (i + 1), key f = k → ends f = false := by
  constructor
  · rintro ⟨pre, g, post, rfl, hg, hP, hpost⟩
    exact ⟨⟨pre.length, by simp⟩, by simpa using hg, by simpa using hP, by simpa using hpost⟩
  · rintro ⟨i, hg, hP, hpost⟩
    exact ⟨l.take i, l.get i, l.drop (i + 1), by simp, hg, hP, hpost⟩

instance [DecidableEq κ] (P : List α → α → Prop) [∀ pre f, Decidable (P pre f)] (l : List α)
    (k : κ) : Decidable (Since key ends P l k) :=
  decidable_of_iff _ (since_iff_get key ends).symm

@[simp] lemma not_since_nil (P : List α → α → Prop) (k : κ) : ¬ Since key ends P [] k := by
  rintro ⟨pre, g, post, h, -⟩
  simp at h

variable {key ends}

lemma since_concat_of_ne {P : List α → α → Prop} {l : List α} {f : α} {k : κ} (h : key f ≠ k) :
    Since key ends P (l ++ [f]) k ↔ Since key ends P l k := by
  constructor
  · rintro ⟨pre, g, post, heq, hg, hP, hpost⟩
    rcases List.eq_nil_or_concat post with rfl | ⟨post', b, rfl⟩
    · obtain ⟨-, rfl⟩ := List.append_singleton_inj.mp (show l ++ [f] = pre ++ [g] from heq)
      exact absurd hg h
    · have heq' : l ++ [f] = (pre ++ g :: post') ++ [b] := by simp [heq]
      exact ⟨pre, g, post', (List.append_singleton_inj.mp heq').1, hg, hP,
        fun a ha => hpost a (by simp [ha])⟩
  · rintro ⟨pre, g, post, rfl, hg, hP, hpost⟩
    refine ⟨pre, g, post ++ [f], by simp, hg, hP, fun a ha hak => ?_⟩
    rcases List.mem_append.mp ha with ha | ha
    · exact hpost a ha hak
    · exact absurd (List.mem_singleton.mp ha ▸ hak) h

/-- A step of the stream either qualifies itself, or leaves the answer alone unless it ends the
stream. -/
lemma since_concat_self {P : List α → α → Prop} {l : List α} {f : α} :
    Since key ends P (l ++ [f]) (key f) ↔
      P l f ∨ ends f = false ∧ Since key ends P l (key f) := by
  constructor
  · rintro ⟨pre, g, post, heq, hg, hP, hpost⟩
    rcases List.eq_nil_or_concat post with rfl | ⟨post', b, rfl⟩
    · obtain ⟨rfl, rfl⟩ := List.append_singleton_inj.mp (show l ++ [f] = pre ++ [g] from heq)
      exact Or.inl hP
    · have heq' : l ++ [f] = (pre ++ g :: post') ++ [b] := by simp [heq]
      obtain ⟨rfl, rfl⟩ := List.append_singleton_inj.mp heq'
      exact Or.inr ⟨hpost f (by simp) rfl, pre, g, post', rfl, hg, hP,
        fun a ha => hpost a (by simp [ha])⟩
  · rintro (hP | ⟨hend, pre, g, post, rfl, hg, hP, hpost⟩)
    · exact ⟨l, f, [], rfl, rfl, hP, by simp⟩
    · refine ⟨pre, g, post ++ [f], by simp, hg, hP, fun a ha hak => ?_⟩
      rcases List.mem_append.mp ha with ha | ha
      · exact hpost a ha hak
      · exact List.mem_singleton.mp ha ▸ hend

lemma Since.imp {P Q : List α → α → Prop} {l : List α} {k : κ} (h : Since key ends P l k)
    (hPQ : ∀ pre g, pre ++ [g] <+: l → P pre g → Q pre g) : Since key ends Q l k := by
  obtain ⟨pre, g, post, hl, hg, hP, hpost⟩ := h
  exact ⟨pre, g, post, hl, hg, hPQ pre g ⟨post, by simp [hl]⟩ hP, hpost⟩

end Since

/-! ## Outputs that depend on the past -/

/-- The outputs along `rest`, where the output of a step may look at the past `past`. -/
def collectFrom (g : List α → α → List β) : List α → List α → List β
  | _, [] => []
  | past, f :: rest => g past f ++ collectFrom g (past ++ [f]) rest

/-- The outputs of all steps of `l`, in order. -/
def collect (g : List α → α → List β) (l : List α) : List β := collectFrom g [] l

@[simp] lemma collect_nil (g : List α → α → List β) : collect g [] = [] := rfl

lemma collectFrom_concat (g : List α → α → List β) (past l : List α) (f : α) :
    collectFrom g past (l ++ [f]) = collectFrom g past l ++ g (past ++ l) f := by
  induction l generalizing past with
  | nil => simp [collectFrom]
  | cons a l ih => simp [collectFrom, ih]

lemma collect_concat (g : List α → α → List β) (l : List α) (f : α) :
    collect g (l ++ [f]) = collect g l ++ g l f := by
  simp [collect, collectFrom_concat]

/-- Outputs are only added. -/
lemma collect_isPrefix (g : List α → α → List β) {p l : List α} (h : p <+: l) :
    collect g p <+: collect g l := by
  obtain ⟨post, rfl⟩ := h
  induction post using List.reverseRecOn with
  | nil => simp
  | append_singleton post f ih =>
    rw [← List.append_assoc, collect_concat]
    exact ih.trans (List.prefix_append _ _)

lemma mem_collect {g : List α → α → List β} {l : List α} {b : β} :
    b ∈ collect g l ↔ ∃ pre f post, l = pre ++ f :: post ∧ b ∈ g pre f := by
  induction l using List.reverseRecOn with
  | nil => simp
  | append_singleton l a ih =>
    rw [collect_concat, List.mem_append, ih]
    constructor
    · rintro (⟨pre, f, post, rfl, hb⟩ | hb)
      · exact ⟨pre, f, post ++ [a], by simp, hb⟩
      · exact ⟨l, a, [], rfl, hb⟩
    · rintro ⟨pre, f, post, heq, hb⟩
      rcases List.eq_nil_or_concat post with rfl | ⟨post', c, rfl⟩
      · obtain ⟨rfl, rfl⟩ := List.append_singleton_inj.mp (show l ++ [a] = pre ++ [f] from heq)
        exact Or.inr hb
      · have heq' : l ++ [a] = (pre ++ f :: post') ++ [c] := by simp [heq]
        exact Or.inl ⟨pre, f, post', (List.append_singleton_inj.mp heq').1, hb⟩

/-! ## Steps without effect -/

section Effective
variable {σ : Type*}

/-- The steps of `l` that are not `idle` in the state they are taken in, from `s` on. -/
def effective (step : σ → α → σ) (idle : σ → α → Bool) : σ → List α → List α
  | _, [] => []
  | s, f :: l =>
    if idle s f then effective step idle (step s f) l
    else f :: effective step idle (step s f) l

/-- **Leaving out idle steps.**  Steps that change nothing can be left out of a run, although
which ones they are depends on the state each is taken in. -/
theorem foldl_effective {step : σ → α → σ} {idle : σ → α → Bool}
    (h : ∀ s f, idle s f = true → step s f = s) (s : σ) (l : List α) :
    (effective step idle s l).foldl step s = l.foldl step s := by
  induction l generalizing s with
  | nil => rfl
  | cons f l ih =>
    rw [effective, List.foldl_cons]
    split
    · rename_i hidle
      rw [h s f hidle, ih]
    · rw [List.foldl_cons, ih]

end Effective

end History
