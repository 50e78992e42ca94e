import Mathlib.Data.Fintype.Basic
import Peekbeam.Foundation.History

/-!
# Calls paired through a shared slot

Several threads make calls; each call has an opening and a closing event, and a bookkeeper
sees the two event streams merged.  Per *key* the bookkeeper has one slot: an opening event
overwrites the slot of its key, a closing event consumes what it finds there.  The question
answered here is when the slot gives a closing event back its own opening event.

An event is an element of an arbitrary type `α`, read through three projections: the `thread`
it belongs to, the `key` whose slot it uses, and whether it `opens` a call.

* `held slot opens l k` — what the events `l` left in slot `k`.  Reading it at `slot := key`
  gives the bookkeeper's view, and at `slot := thread` the truth: the call a thread is in.
* `pairs slot opens l` — the closing events of `l` with the opening event each one finds.
* `Alternates` — every thread opens and closes its calls in turn.  A thread may be inside a
  call from the start (`init`), and it may stay in a call for ever.
* `Exclusive` — no two threads are inside calls of one key.

* `Stores`, `kept` — slots whose writes, or whose events altogether, can be lost.

Alternation alone gives one half: what a slot holds is always a call still in progress
(`held_thread_of_held_key`).  With exclusion the two views coincide (`held_key_eq_held_thread`,
`pairs_key_eq_pairs_thread`).  Without it, the opening event in the slot is at least never
older than the closing thread's own (`own_rel_held`).
-/

namespace SharedSlot

open History

variable {α τ κ κ' : Type*}

/-! ## The slot of a key -/

section Slot
variable [DecidableEq κ] (slot : α → κ) (opens : α → Bool)

/-- The content of slot `k` after `l`: the opening event that wrote it last, if no closing
event consumed it since. -/
def held (l : List α) (k : κ) : Option α :=
  (lastWhere (fun f => slot f = k) l).filter opens

@[simp] lemma held_nil (k : κ) : held slot opens [] k = none := rfl

lemma held_concat (l : List α) (f : α) (k : κ) :
    held slot opens (l ++ [f]) k =
      if slot f = k then (if opens f then some f else none) else held slot opens l k := by
  by_cases hk : slot f = k <;> simp [held, lastWhere_concat, hk, Option.filter]

variable {slot opens} in
lemma held_eq_some {l : List α} {k : κ} {e : α} (h : held slot opens l k = some e) :
    e ∈ l ∧ slot e = k ∧ opens e = true := by
  obtain ⟨hlast, hopen⟩ := Option.filter_eq_some_iff.mp h
  obtain ⟨hmem, hslot⟩ := mem_of_lastWhere hlast
  exact ⟨hmem, by simpa using hslot, hopen⟩

/-- A closing event that follows its opening event with nothing in the slot's stream between
them finds that opening event. -/
lemma held_of_window {pre win : List α} {e : α} (hopen : opens e = true)
    (hwin : ∀ g ∈ win, slot g ≠ slot e) :
    held slot opens (pre ++ e :: win) (slot e) = some e := by
  have : lastWhere (fun f => decide (slot f = slot e)) (pre ++ e :: win) = some e := by
    rw [List.append_cons, lastWhere_append (by simpa using hwin), lastWhere_concat]
    simp
  simp [held, this, Option.filter, hopen]

/-- An opening event that its thread has not closed stays in its slot when other events are left
out, if its thread alone uses the slot. -/
lemma held_filter_of_held [DecidableEq τ] {thread : α → τ} {l : List α} {th : τ} {e : α}
    {p : α → Bool} (h : held thread opens l th = some e) (hp : p e = true)
    (huser : ∀ f ∈ l, slot f = slot e → thread f = thread e) :
    held slot opens (l.filter p) (slot e) = some e := by
  obtain ⟨-, hth, ho⟩ := held_eq_some h
  obtain ⟨pre, win, rfl, hwin⟩ :=
    exists_split_of_lastWhere (Option.filter_eq_some_iff.mp h).1
  rw [List.filter_append, List.filter_cons_of_pos hp]
  refine held_of_window slot opens ho fun g hg hslot => ?_
  have hg := List.mem_of_mem_filter hg
  have hne : thread g ≠ th := by simpa using hwin g hg
  exact hne ((huser g (by simp [hg]) hslot).trans hth)

/-- Renaming the events does not change what a slot holds. -/
lemma held_map {ε : Type*} (g : ε → α) (l : List ε) (k : κ) :
    held slot opens (l.map g) k = (held (slot ∘ g) (opens ∘ g) l k).map g := by
  induction l using List.reverseRecOn with
  | nil => rfl
  | append_singleton l f ih =>
    rw [List.map_append, List.map_singleton, held_concat, held_concat, ih]
    by_cases hk : slot (g f) = k <;> by_cases ho : opens (g f) = true <;> simp [hk, ho]

/-- The closing events of `l`, each with the opening event it finds in its slot. -/
def pairs (l : List α) : List (α × α) :=
  collect (fun pre f =>
    if opens f then [] else ((held slot opens pre (slot f)).map fun e => (e, f)).toList) l

@[simp] lemma pairs_nil : pairs slot opens [] = [] := rfl

lemma pairs_concat (l : List α) (f : α) :
    pairs slot opens (l ++ [f]) = pairs slot opens l ++
      if opens f then [] else ((held slot opens l (slot f)).map fun e => (e, f)).toList :=
  collect_concat _ _ _

lemma pairs_map {ε : Type*} (g : ε → α) (l : List ε) :
    pairs slot opens (l.map g) = (pairs (slot ∘ g) (opens ∘ g) l).map (Prod.map g g) := by
  induction l using List.reverseRecOn with
  | nil => rfl
  | append_singleton l f ih =>
    rw [List.map_append, List.map_singleton, pairs_concat, pairs_concat, ih, held_map]
    by_cases ho : opens (g f) = true
    · simp [ho]
    · cases h : held (slot ∘ g) (opens ∘ g) l (slot (g f)) <;> simp [ho, h]

end Slot

/-! ## Threads and their calls -/

section Threads
variable [DecidableEq τ] (thread : α → τ) (key : α → κ) (opens : α → Bool)
  (init : τ → Option κ)

/-- The key of the call a thread is inside after `l`; before its first event it is inside
whatever call `init` says. -/
def inside (l : List α) (th : τ) : Option κ :=
  match lastWhere (fun f => thread f = th) l with
  | some f => if opens f then some (key f) else none
  | none => init th

lemma inside_concat (l : List α) (f : α) (th : τ) :
    inside thread key opens init (l ++ [f]) th =
      if thread f = th then (if opens f then some (key f) else none)
      else inside thread key opens init l th := by
  by_cases h : thread f = th <;> simp [inside, lastWhere_concat, h]

variable {thread key opens init}

lemma inside_of_held {l : List α} {th : τ} {e : α} (h : held thread opens l th = some e) :
    inside thread key opens init l th = some (key e) := by
  obtain ⟨hlast, hopen⟩ := Option.filter_eq_some_iff.mp h
  simp [inside, hlast, hopen]

/-- The last event of a thread decides what it is inside. -/
lemma inside_of_window {pre win : List α} {e : α} (hwin : ∀ g ∈ win, thread g ≠ thread e) :
    inside thread key opens init (pre ++ e :: win) (thread e) =
      if opens e then some (key e) else none := by
  have : lastWhere (fun f => decide (thread f = thread e)) (pre ++ e :: win) = some e := by
    rw [List.append_cons, lastWhere_append (by simpa using hwin), lastWhere_concat]
    simp
  simp [inside, this]

/-- A thread inside a call it did not open was inside it from the start. -/
lemma init_of_inside {l : List α} {th : τ} {k : κ}
    (hin : inside thread key opens init l th = some k) (h : held thread opens l th = none) :
    init th = some k := by
  unfold inside at hin
  cases hlast : lastWhere (fun f => decide (thread f = th)) l with
  | none => simpa [hlast] using hin
  | some f =>
    by_cases ho : opens f = true <;> simp_all [held, Option.filter]

variable (thread key opens init)

/-- A thread opens a call only outside one, and closes the very call it is inside. -/
def Alternates (pre : List α) (f : α) : Prop :=
  inside thread key opens init pre (thread f) = if opens f then none else some (key f)

instance [DecidableEq κ] (pre : List α) (f : α) :
    Decidable (Alternates thread key opens init pre f) :=
  inferInstanceAs (Decidable (_ = _))

variable {thread key opens init} in
/-- The opening event of the call that a closing event leaves is one of the same key. -/
lemma Alternates.key_eq {pre : List α} {f e : α} (h : Alternates thread key opens init pre f)
    (hclose : opens f = false) (hheld : held thread opens pre (thread f) = some e) :
    key e = key f := by
  have hin : inside thread key opens init pre (thread f) = some (key f) := by
    simpa [Alternates, hclose] using h
  exact Option.some.inj ((inside_of_held hheld).symm.trans hin)

/-- No two threads are inside calls of one key. -/
def Exclusive (l : List α) : Prop :=
  ∀ th th' k, inside thread key opens init l th = some k →
    inside thread key opens init l th' = some k → th = th'

lemma exclusive_iff {l : List α} :
    Exclusive thread key opens init l ↔ ∀ th th',
      (inside thread key opens init l th).isSome →
        inside thread key opens init l th = inside thread key opens init l th' → th = th' := by
  constructor
  · intro h th th' hsome heq
    obtain ⟨k, hk⟩ := Option.isSome_iff_exists.mp hsome
    exact h th th' k hk (heq ▸ hk)
  · intro h th th' k hk hk'
    exact h th th' (by simp [hk]) (hk.trans hk'.symm)

instance [Fintype τ] [DecidableEq κ] (l : List α) :
    Decidable (Exclusive thread key opens init l) :=
  decidable_of_iff _ (exclusive_iff thread key opens init).symm

variable {thread key opens init} [DecidableEq κ]

/-- What a slot holds is a call still in progress.  Alternation is enough: before its thread
could do anything else it would have closed the call, and so emptied the slot. -/
lemma held_thread_of_held_key {l : List α}
    (halt : Stepwise (Alternates thread key opens init) l) {k : κ} {e : α}
    (h : held key opens l k = some e) : held thread opens l (thread e) = some e := by
  revert k e
  refine Stepwise.invariant (fun l => ∀ {k e}, held key opens l k = some e →
    held thread opens l (thread e) = some e) (by simp) (fun l f _ hf ih => ?_) halt
  intro k e he
  rw [held_concat] at he
  by_cases hk : key f = k
  · rw [if_pos hk] at he
    by_cases ho : opens f = true
    · obtain rfl : f = e := by simpa [ho] using he
      simp [held_concat, ho]
    · simp [ho] at he
  · rw [if_neg hk] at he
    have hin : inside thread key opens init l (thread e) = some (key e) :=
      inside_of_held (ih he)
    -- `f` cannot be of the thread of `e`: it would have to close a call of key `k`
    have hne : thread f ≠ thread e := by
      intro hth
      rw [Alternates, hth, hin, (held_eq_some he).2.1] at hf
      split at hf
      · simp at hf
      · exact hk (Option.some.inj hf).symm
    rw [held_concat, if_neg hne]
    exact ih he

/-- Under exclusion the call a thread is in is still in its slot: only another thread inside a
call of the same key could have overwritten or consumed it. -/
lemma held_key_of_held_thread {l : List α}
    (halt : Stepwise (Alternates thread key opens init) l)
    (hexcl : ∀ p, p <+: l → Exclusive thread key opens init p) {th : τ} {e : α}
    (h : held thread opens l th = some e) : held key opens l (key e) = some e := by
  induction l using List.reverseRecOn generalizing th e with
  | nil => simp at h
  | append_singleton l f ih =>
    obtain ⟨hl, hf⟩ := stepwise_concat.mp halt
    obtain ⟨hexl, hexf⟩ := forall_prefix_concat.mp hexcl
    by_cases hth : thread f = th
    · rw [held_concat, if_pos hth] at h
      by_cases ho : opens f = true
      · obtain rfl : f = e := by simpa [ho] using h
        simp [held_concat, ho]
      · simp [ho] at h
    · have hin' : inside thread key opens init (l ++ [f]) th = some (key e) :=
        inside_of_held h
      rw [held_concat, if_neg hth] at h
      have hin : inside thread key opens init l th = some (key e) := inside_of_held h
      have hk : key f ≠ key e := by
        intro hk
        rw [Alternates, hk] at hf
        split at hf
        · rename_i ho
          have : inside thread key opens init (l ++ [f]) (thread f) = some (key e) := by
            simp [inside_concat, ho, hk]
          exact hth (hexf _ _ _ this hin')
        · exact hth (hexl l List.prefix_rfl _ _ _ hf hin)
      rw [held_concat, if_neg hk]
      exact ih hl hexl h

/-- **The two views coincide under exclusion.**  A closing event finds in its slot exactly the
opening event of its own thread, and nothing when that call was open from the start. -/
lemma held_key_eq_held_thread {l : List α} {f : α}
    (halt : Stepwise (Alternates thread key opens init) l)
    (hexcl : ∀ p, p <+: l → Exclusive thread key opens init p)
    (hf : Alternates thread key opens init l f) (hclose : opens f = false) :
    held key opens l (key f) = held thread opens l (thread f) := by
  have hin : inside thread key opens init l (thread f) = some (key f) := by
    simpa [Alternates, hclose] using hf
  cases hown : held thread opens l (thread f) with
  | some e =>
    have he : key e = key f := Option.some.inj ((inside_of_held hown).symm.trans hin)
    exact he ▸ held_key_of_held_thread halt hexcl hown
  | none =>
    by_contra hne
    obtain ⟨e, he⟩ := Option.ne_none_iff_exists'.mp hne
    have hheld := held_thread_of_held_key halt he
    have : inside thread key opens init l (thread e) = some (key f) :=
      (inside_of_held hheld).trans (by rw [(held_eq_some he).2.1])
    rw [hexcl l List.prefix_rfl _ _ _ this hin, hown] at hheld
    simp at hheld

/-- Under exclusion the bookkeeper pairs every call correctly and pairs nothing else. -/
theorem pairs_key_eq_pairs_thread {l : List α}
    (halt : Stepwise (Alternates thread key opens init) l)
    (hexcl : ∀ p, p <+: l → Exclusive thread key opens init p) :
    pairs key opens l = pairs thread opens l := by
  induction l using List.reverseRecOn with
  | nil => rfl
  | append_singleton l f ih =>
    obtain ⟨hl, hf⟩ := stepwise_concat.mp halt
    obtain ⟨hexl, -⟩ := forall_prefix_concat.mp hexcl
    rw [pairs_concat, pairs_concat, ih hl hexl]
    by_cases ho : opens f = true
    · simp [ho]
    · rw [held_key_eq_held_thread hl hexl hf (by simpa using ho)]

/-- A thread that opened the call it is inside opened it no later than the slot was written. -/
lemma own_rel_held {r : α → α → Prop} (refl : ∀ a, r a a) {l : List α}
    (hr : l.Pairwise r) {th : τ} {e e' : α} (hown : held thread opens l th = some e)
    (hheld : held key opens l (key e) = some e') : r e e' :=
  rel_lastWhere refl hr (held_eq_some hown).1 (by simp)
    (Option.filter_eq_some_iff.mp hheld).1

end Threads

/-! ## Slots that store what an event captures -/

section Stores
variable {ν : Type*} (slot : α → Option κ) (opens : α → Bool) (capture : α → Option ν)

/-- How an event `f` may change a family `m` of slots.  An opening event stores what it captures
in its slot, or is lost; a closing event empties its slot; and only events with a slot do
anything.  The family need not be `held`: this is what is left of it when writes can fail. -/
structure Stores (f : α) (m m' : κ → Option ν) : Prop where
  frame : ∀ k, slot f ≠ some k → m' k = m k
  close : opens f = false → ∀ k, slot f = some k → m' k = none
  store : opens f = true → ∀ k, slot f = some k → m' k = m k ∨ m' k = capture f

variable {slot opens capture} {contents : List α → κ → Option ν}

/-- **A slot with one user holds the call in progress.**  However many writes are lost, if a
slot is only ever used by one thread then what it holds was captured by the opening event of
the call that thread is in. -/
theorem own_of_stored [DecidableEq τ] [DecidableEq κ'] {thread : α → τ} {key : α → κ'}
    {init : τ → Option κ'} {l : List α}
    (halt : Stepwise (Alternates thread key opens init) l)
    (hempty : ∀ k, contents [] k = none)
    (hstores : Stepwise (fun pre f =>
      Stores slot opens capture f (contents pre) (contents (pre ++ [f]))) l)
    (hslot : ∀ f g, key f = key g → slot f = slot g)
    (huser : ∀ f ∈ l, ∀ g ∈ l, ∀ k, slot f = some k → slot g = some k → thread f = thread g)
    {k : κ} {v : ν} (h : contents l k = some v) :
    ∃ e, slot e = some k ∧ held thread opens l (thread e) = some e ∧ capture e = some v := by
  induction l using List.reverseRecOn generalizing k v with
  | nil => simp [hempty] at h
  | append_singleton l f ih =>
    obtain ⟨hl, hf⟩ := stepwise_concat.mp halt
    obtain ⟨hstores', hstep⟩ := stepwise_concat.mp hstores
    have ih := @ih hl hstores' fun a ha b hb =>
      huser a (List.mem_append_left _ ha) b (List.mem_append_left _ hb)
    by_cases hfk : slot f = some k
    · by_cases ho : opens f = true
      · rcases hstep.store ho k hfk with hkept | hstored
        · -- nothing is pending in the slot of a thread that is about to open a call
          obtain ⟨e, hek, hheld, -⟩ := ih (hkept.symm.trans h)
          have hth : thread e = thread f :=
            huser e (List.mem_append_left _ (held_eq_some hheld).1) f (by simp) k hek hfk
          have hin : inside thread key opens init l (thread f) = some (key e) :=
            hth ▸ inside_of_held hheld
          simp [Alternates, ho, hin] at hf
        · exact ⟨f, hfk, by simp [held_concat, ho], hstored.symm.trans h⟩
      · rw [hstep.close (by simpa using ho) k hfk] at h
        simp at h
    · obtain ⟨e, hek, hheld, hv⟩ := ih ((hstep.frame k hfk).symm.trans h)
      have hne : thread f ≠ thread e := by
        intro hth
        have hin : inside thread key opens init l (thread f) = some (key e) :=
          hth ▸ inside_of_held hheld
        rw [Alternates, hin] at hf
        split at hf
        · simp at hf
        · exact hfk ((hslot f e (Option.some.inj hf).symm).trans hek)
      exact ⟨e, hek, by rw [held_concat, if_neg hne, hheld], hv⟩

/-- If moreover no write is lost, the call in progress is always what its slot holds. -/
theorem stored_of_own [DecidableEq τ] {thread : α → τ} {l : List α}
    (hstores : Stepwise (fun pre f =>
      Stores slot opens capture f (contents pre) (contents (pre ++ [f])) ∧
        (opens f = true → ∀ k, slot f = some k → contents (pre ++ [f]) k = capture f)) l)
    (huser : ∀ f ∈ l, ∀ g ∈ l, ∀ k, slot f = some k → slot g = some k → thread f = thread g)
    {e : α} (h : held thread opens l (thread e) = some e) {k : κ} (hk : slot e = some k) :
    contents l k = capture e := by
  induction l using List.reverseRecOn with
  | nil => simp at h
  | append_singleton l f ih =>
    obtain ⟨hl, hstep, hkept⟩ := stepwise_concat.mp hstores
    have hmem := (held_eq_some h).1
    by_cases hth : thread f = thread e
    · rw [held_concat, if_pos hth] at h
      by_cases ho : opens f = true
      · obtain rfl : f = e := by simpa [ho] using h
        exact hkept ho k hk
      · simp [ho] at h
    · rw [held_concat, if_neg hth] at h
      have hfk : slot f ≠ some k := fun hfk => hth (huser f (by simp) e hmem k hfk hk)
      rw [hstep.frame k hfk]
      exact ih hl (fun a ha b hb =>
        huser a (List.mem_append_left _ ha) b (List.mem_append_left _ hb)) h

/-- When no write is lost the contents are the captures of the events `held`. -/
theorem contents_eq_held [DecidableEq κ] {l : List α} (hempty : ∀ k, contents [] k = none)
    (hstores : Stepwise (fun pre f =>
      Stores slot opens capture f (contents pre) (contents (pre ++ [f])) ∧
        (opens f = true → ∀ k, slot f = some k → contents (pre ++ [f]) k = capture f)) l)
    (k : κ) : contents l k = (held slot opens l (some k)).bind capture := by
  induction l using List.reverseRecOn with
  | nil => simp [hempty]
  | append_singleton l f ih =>
    obtain ⟨hl, hstep, hkept⟩ := stepwise_concat.mp hstores
    rw [held_concat]
    by_cases hfk : slot f = some k
    · rw [if_pos hfk]
      by_cases ho : opens f = true
      · simp [ho, hkept ho k hfk]
      · simp [ho, hstep.close (by simpa using ho) k hfk]
    · rw [if_neg hfk, hstep.frame k hfk, ih hl]

end Stores

/-! ## Slots whose events can be lost -/

section Kept
variable {ν : Type*} (keep : List α → α → Prop) [∀ pre f, Decidable (keep pre f)]

/-- The events of `l` that took effect. -/
def kept (l : List α) : List α := collect (fun pre f => if keep pre f then [f] else []) l

lemma kept_concat (l : List α) (f : α) :
    kept keep (l ++ [f]) = kept keep l ++ if keep l f then [f] else [] :=
  collect_concat _ _ _

variable {keep} {slot : α → Option κ} {opens : α → Bool} {capture : α → Option ν}
  {contents : List α → κ → Option ν}

/-- The contents are the captures of the events `held` once the lost events are left out. -/
theorem contents_eq_held_kept [DecidableEq κ] {l : List α}
    (hempty : ∀ k, contents [] k = none)
    (hkeep : Stepwise (fun pre f => keep pre f →
      Stores slot opens capture f (contents pre) (contents (pre ++ [f])) ∧
        (opens f = true → ∀ k, slot f = some k → contents (pre ++ [f]) k = capture f)) l)
    (hlose : Stepwise (fun pre f => ¬ keep pre f → contents (pre ++ [f]) = contents pre) l)
    (k : κ) : contents l k = (held slot opens (kept keep l) (some k)).bind capture := by
  induction l using List.reverseRecOn with
  | nil => simp [hempty, kept]
  | append_singleton l f ih =>
    obtain ⟨hkeepl, hkeepf⟩ := stepwise_concat.mp hkeep
    obtain ⟨hlosel, hlosef⟩ := stepwise_concat.mp hlose
    rw [kept_concat]
    by_cases hk : keep l f
    · obtain ⟨hstep, hstored⟩ := hkeepf hk
      rw [if_pos hk, held_concat]
      by_cases hfk : slot f = some k
      · rw [if_pos hfk]
        by_cases ho : opens f = true
        · simp [ho, hstored ho k hfk]
        · simp [ho, hstep.close (by simpa using ho) k hfk]
      · rw [if_neg hfk, hstep.frame k hfk, ih hkeepl hlosel]
    · rw [if_neg hk, List.append_nil, hlosef hk, ih hkeepl hlosel]

/-- An opening event that took effect is still in its slot while its thread, the only user of
the slot, does nothing else. -/
theorem held_kept_of_since [DecidableEq κ] [DecidableEq τ] {thread : α → τ} {l : List α} {th : τ}
    (h : Since thread (fun _ => true) (fun pre e => opens e = true ∧ keep pre e) l th)
    (huser : ∀ f ∈ l, ∀ g ∈ l, ∀ k, slot f = some k → slot g = some k → thread f = thread g) :
    ∃ e, held thread opens l th = some e ∧
      ∀ k, slot e = some k → held slot opens (kept keep l) (some k) = some e := by
  obtain ⟨pre, e, post, rfl, rfl, ⟨ho, hk⟩, hlast⟩ := h
  have hpost : ∀ f ∈ post, thread f ≠ thread e := fun f hf hth => by simpa using hlast f hf hth
  clear hlast
  refine ⟨e, held_of_window thread opens ho hpost, fun k hek => ?_⟩
  induction post using List.reverseRecOn with
  | nil =>
    rw [kept_concat, if_pos hk, held_concat, if_pos hek, if_pos ho]
  | append_singleton post f ih =>
    have hne : slot f ≠ some k := fun hfk =>
      hpost f (by simp) (huser f (by simp) e (by simp) k hfk hek)
    have ih := ih (fun a ha b hb => huser a (by simp at ha ⊢; tauto) b (by simp at hb ⊢; tauto))
      fun g hg => hpost g (List.mem_append_left _ hg)
    rw [← List.cons_append, ← List.append_assoc, kept_concat]
    split
    · rw [held_concat, if_neg hne, ih]
    · rw [List.append_nil, ih]

end Kept

/-! ## When two pairings agree in number -/

section Counts
variable {γ : Type*} [DecidableEq κ] [DecidableEq κ'] [DecidableEq γ]
  (slot : α → κ) (slot' : α → κ') (opens : α → Bool) (cls : α → γ)

/-- The pairs of `l` whose closing event is of class `c`. -/
def pairCount (l : List α) (c : γ) : ℕ :=
  (pairs slot opens l).countP fun p => cls p.2 = c

lemma pairCount_concat (l : List α) (f : α) (c : γ) :
    pairCount slot opens cls (l ++ [f]) c = pairCount slot opens cls l c +
      if opens f = false ∧ (held slot opens l (slot f)).isSome ∧ cls f = c then 1 else 0 := by
  rw [pairCount, pairs_concat, List.countP_append, ← pairCount]
  by_cases ho : opens f = true
  · simp [ho]
  · cases h : held slot opens l (slot f) with
    | none => simp [ho]
    | some e => by_cases hc : cls f = c <;> simp [ho, hc]

/-- Two pairings agree in number, class by class and in every state reached, exactly when every
closing event is paired by both or by neither. -/
theorem pairCount_eq_iff {l : List α} :
    (∀ p, p <+: l → ∀ c, pairCount slot opens cls p c = pairCount slot' opens cls p c) ↔
      Stepwise (fun pre f => opens f = false →
        ((held slot opens pre (slot f)).isSome ↔ (held slot' opens pre (slot' f)).isSome)) l := by
  induction l using List.reverseRecOn with
  | nil => simp [pairCount]
  | append_singleton l f ih =>
    rw [forall_prefix_concat, stepwise_concat, ih]
    refine and_congr_right fun hl => ?_
    have hcount := ih.mpr hl l List.prefix_rfl
    simp only [pairCount_concat, hcount, Nat.add_left_cancel_iff]
    constructor
    · intro h ho
      have := h (cls f)
      by_cases h₁ : (held slot opens l (slot f)).isSome = true <;>
        by_cases h₂ : (held slot' opens l (slot' f)).isSome = true <;>
        simp_all
    · intro h c
      by_cases ho : opens f = false
      · simp [ho, h ho]
      · simp [ho]

end Counts

end SharedSlot
