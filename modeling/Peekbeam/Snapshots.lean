import Mathlib.Logic.Function.Basic
import Peekbeam.Live

/-!
# What a poll takes

`poll_events` drains the rings one after the other, and each closure returns when it finds its ring
empty.  At that moment its table accounts for exactly what has been written to the ring, and until
the next poll the table stays as it is.  So a poll is four snapshots, at four moments, in the order
of the closures (`poll_takes_snapshots`).

Tables may therefore disagree, and in one direction only: what a later closure has not seen yet, an
earlier one cannot have seen.
-/

namespace Peekbeam

/-! ## One ring of the four -/

/-- The rings, in the order they are drained. -/
def Ring.all : List Ring := [.events, .netEvents, .fileEvents, .memEvents]

/-- The position of a ring in that order. -/
def Ring.rank : Ring → ℕ
  | .events => 0
  | .netEvents => 1
  | .fileEvents => 2
  | .memEvents => 3

lemma Ring.rank_eq_of_drop {ring : Ring} {rest : List Ring} {k : ℕ}
    (h : ring :: rest = Ring.all.drop k) : ring.rank = k ∧ rest = Ring.all.drop (k + 1) := by
  match k with
  | 0 | 1 | 2 | 3 =>
    obtain ⟨rfl, rfl⟩ := List.cons.inj h
    exact ⟨rfl, rfl⟩
  | k + 4 => simp [Ring.all] at h

lemma Ring.rank_inj {ring ring' : Ring} (h : ring.rank = ring'.rank) : ring = ring' := by
  cases ring <;> cases ring' <;> first | rfl | exact absurd h (by decide)

/-- Two states of the rings agree in one of them. -/
def Rings.EqAt (r r' : Rings) : Ring → Prop
  | .events => r.events = r'.events
  | .netEvents => r.netEvents = r'.netEvents
  | .fileEvents => r.fileEvents = r'.fileEvents
  | .memEvents => r.memEvents = r'.memEvents

namespace Rings

lemma EqAt.trans {r r' r'' : Rings} {ring : Ring} (h : r.EqAt r' ring) (h' : r'.EqAt r'' ring) :
    r.EqAt r'' ring := by
  cases ring <;> exact Eq.trans h h'

/-- An item is taken from one ring, and the others are left alone. -/
lemma eqAt_append_of_pop {r item rest : Rings} {ring ring' : Ring}
    (h : r.pop ring = some (item, rest)) (hne : ring' ≠ ring) (taken : Rings) :
    (taken ++ item).EqAt taken ring' := by
  cases ring <;>
  · simp only [pop] at h
    split at h
    · cases h
    · obtain ⟨rfl, -⟩ := Prod.mk.inj (Option.some.inj h)
      cases ring' <;> first | exact absurd rfl hne | exact List.append_nil _

/-- Nothing is taken from an empty ring. -/
lemma eqAt_of_pop_eq_none {r : Rings} {ring : Ring} (h : r.pop ring = none) (taken : Rings) :
    taken.EqAt (taken ++ r) ring := by
  cases ring <;>
  · simp only [pop] at h
    split at h
    · rename_i hring
      simp [EqAt, hring]
    · cases h

end Rings

/-! ## One poll -/

/-- `poll_events` under way, with the closures that have not returned yet. -/
structure Poll where
  tracer : Tracer
  remaining : List Ring

def Poll.start (t : Tracer) : Poll where
  tracer := t
  remaining := Ring.all

/-- What happens next during a poll: a program fires, or the loop of the current closure goes
round once more. -/
inductive Act
  | fire (f : Firing)
  | next

/-- A closure returns when it finds its ring empty. -/
def Poll.step (p : Poll) : Act → Poll
  | .fire f => { p with tracer := { p.tracer with kernel := p.tracer.kernel.fire f } }
  | .next =>
    match p.remaining with
    | [] => p
    | ring :: remaining =>
      match p.tracer.next ring with
      | some tracer => { p with tracer }
      | none => { p with remaining }

def Poll.run (p : Poll) (acts : List Act) : Poll := acts.foldl Poll.step p

/-- The firings during a poll. -/
def firedIn (acts : List Act) : List Firing :=
  acts.filterMap fun
    | .fire f => some f
    | .next => none

lemma poll_run_concat (p : Poll) (acts : List Act) (act : Act) :
    p.run (acts ++ [act]) = (p.run acts).step act := by
  simp [Poll.run]

lemma poll_step_next_some {tracer t' : Tracer} {ring : Ring} (h : tracer.next ring = some t')
    (rest : List Ring) : Poll.step ⟨tracer, ring :: rest⟩ .next = ⟨t', ring :: rest⟩ := by
  simp [Poll.step, h]

lemma poll_step_next_none {tracer : Tracer} {ring : Ring} (h : tracer.next ring = none)
    (rest : List Ring) : Poll.step ⟨tracer, ring :: rest⟩ .next = ⟨tracer, rest⟩ := by
  simp [Poll.step, h]

/-! ## The invariant of a poll -/

/-- A poll that began in `t`, with the programs firing as in `l` so far: each closure that has
returned took everything that was written to its ring up to a moment, and later closures returned
later. -/
def Poll.Snapshots (t : Tracer) (l : List Firing) (p : Poll) : Prop :=
  ∃ (taken : Rings) (moment : Ring → List Firing) (k : ℕ),
    t.Follows l taken p.tracer ∧ p.remaining = Ring.all.drop k ∧
    (∀ ring : Ring, ring.rank < k →
      moment ring <+: l ∧ taken.EqAt (t.kernel.run (moment ring)).rings ring) ∧
    ∀ ring ring' : Ring, ring.rank ≤ ring'.rank → ring'.rank < k → moment ring <+: moment ring'

namespace Poll.Snapshots

variable {t : Tracer} {l : List Firing} {p : Poll}

lemma start (t : Tracer) : (Poll.start t).Snapshots t [] := by
  refine ⟨{}, fun _ => [], 0, .refl t, rfl, fun ring hring => ?_, fun ring ring' _ hring' => ?_⟩
  · exact absurd hring (Nat.not_lt_zero _)
  · exact absurd hring' (Nat.not_lt_zero _)

lemma fire (h : p.Snapshots t l) (f : Firing) : (p.step (.fire f)).Snapshots t (l ++ [f]) := by
  obtain ⟨taken, moment, k, hfollows, hremaining, hmoment, horder⟩ := h
  refine ⟨taken, moment, k, hfollows.fire f, hremaining, fun ring hring => ?_, horder⟩
  exact ⟨(hmoment ring hring).1.trans (List.prefix_append l [f]), (hmoment ring hring).2⟩

lemma next (h : p.Snapshots t l) : (p.step .next).Snapshots t l := by
  obtain ⟨taken, moment, k, hfollows, hremaining, hmoment, horder⟩ := h
  obtain ⟨tracer, remaining⟩ := p
  cases remaining with
  | nil => exact ⟨taken, moment, k, hfollows, hremaining, hmoment, horder⟩
  | cons ring rest =>
    obtain ⟨hrank, hrest⟩ := Ring.rank_eq_of_drop hremaining
    cases hnext : tracer.next ring with
    | some t' =>
      rw [poll_step_next_some hnext]
      obtain ⟨item, hfollows', hpop⟩ := hfollows.next hnext
      refine ⟨taken ++ item, moment, k, hfollows', hremaining, fun ring' hring' => ?_, horder⟩
      have hne : ring' ≠ ring := by
        rintro rfl
        omega
      obtain ⟨hpast, heq⟩ := hmoment ring' hring'
      exact ⟨hpast, (Rings.eqAt_append_of_pop hpop hne taken).trans heq⟩
    | none =>
      rw [poll_step_next_none hnext]
      -- the closure returns now, so its moment is the present one
      refine ⟨taken, Function.update moment ring l, k + 1, hfollows, hrest, fun ring' hring' => ?_,
        fun ring' ring'' hle hring'' => ?_⟩
      · by_cases hring : ring' = ring
        · subst hring
          rw [Function.update_self, hfollows.rings_eq]
          exact ⟨List.prefix_rfl, Rings.eqAt_of_pop_eq_none (Option.map_eq_none_iff.mp hnext) taken⟩
        · have hlt : ring'.rank < k := by
            have hranks : ring'.rank ≠ ring.rank := fun heq => hring (Ring.rank_inj heq)
            omega
          rw [Function.update_of_ne hring]
          exact hmoment ring' hlt
      · by_cases hring : ring'' = ring
        · subst hring
          rw [Function.update_self]
          by_cases hring' : ring' = ring''
          · subst hring'
            rw [Function.update_self]
          · have hlt : ring'.rank < k := by
              have hranks : ring'.rank ≠ ring''.rank := fun heq => hring' (Ring.rank_inj heq)
              omega
            rw [Function.update_of_ne hring']
            exact (hmoment ring' hlt).1
        · have hlt : ring''.rank < k := by
            have hranks : ring''.rank ≠ ring.rank := fun heq => hring (Ring.rank_inj heq)
            omega
          have hring' : ring' ≠ ring := by
            rintro rfl
            omega
          rw [Function.update_of_ne hring, Function.update_of_ne hring']
          exact horder ring' ring'' hle hlt

lemma run (t : Tracer) (acts : List Act) : ((Poll.start t).run acts).Snapshots t (firedIn acts) := by
  induction acts using List.reverseRecOn with
  | nil => exact start t
  | append_singleton acts act ih =>
    rw [poll_run_concat]
    cases act with
    | fire f => simpa [firedIn] using ih.fire f
    | next => simpa [firedIn] using ih.next

end Poll.Snapshots

/-! ## A poll that returns -/

/-- Each table is what `tables` says of some moment of `during`: the syscalls of the first, the
connections of one that is not earlier, and so on. -/
def Tables.AtMoments (tables : List Firing → Tables) (during : List Firing) (t : Tables) : Prop :=
  ∃ m₁ m₂ m₃ m₄, m₁ <+: m₂ ∧ m₂ <+: m₃ ∧ m₃ <+: m₄ ∧ m₄ <+: during ∧
    t = { syscalls := (tables m₁).syscalls
          connections := (tables m₂).connections
          files := (tables m₃).files
          memEvents := (tables m₄).memEvents }

/-- Each table is drained from a ring of its own. -/
lemma drain_eq_of_eqAt {t : Tables} {r r₁ r₂ r₃ r₄ : Rings} (h₁ : r.EqAt r₁ .events)
    (h₂ : r.EqAt r₂ .netEvents) (h₃ : r.EqAt r₃ .fileEvents) (h₄ : r.EqAt r₄ .memEvents) :
    t.drain r = { syscalls := (t.drain r₁).syscalls
                  connections := (t.drain r₂).connections
                  files := (t.drain r₃).files
                  memEvents := (t.drain r₄).memEvents } := by
  obtain ⟨events, netEvents, fileEvents, memEvents⟩ := r
  obtain rfl : events = r₁.events := h₁
  obtain rfl : netEvents = r₂.netEvents := h₂
  obtain rfl : fileEvents = r₃.fileEvents := h₃
  obtain rfl : memEvents = r₄.memEvents := h₄
  rfl

/-- All closures have returned. -/
lemma Poll.Snapshots.atMoments {t : Tracer} {l : List Firing} {p : Poll} (h : p.Snapshots t l)
    (hdone : p.remaining = []) :
    p.tracer.tables.AtMoments (fun m => t.tables.drain (t.kernel.run m).rings) l := by
  obtain ⟨taken, moment, k, hfollows, hremaining, hmoment, horder⟩ := h
  have hk : 4 ≤ k := by
    rw [hdone, eq_comm, List.drop_eq_nil_iff] at hremaining
    exact hremaining
  have hreturned : ∀ ring : Ring, ring.rank < k := fun ring => by
    cases ring <;> (simp only [Ring.rank]; omega)
  refine ⟨moment .events, moment .netEvents, moment .fileEvents, moment .memEvents,
    horder _ _ (by decide) (hreturned _), horder _ _ (by decide) (hreturned _),
    horder _ _ (by decide) (hreturned _), (hmoment _ (hreturned _)).1, ?_⟩
  rw [hfollows.2]
  exact drain_eq_of_eqAt (hmoment _ (hreturned _)).2 (hmoment _ (hreturned _)).2
    (hmoment _ (hreturned _)).2 (hmoment _ (hreturned _)).2

/-- With nothing fired, the only moment is that of the beginning. -/
lemma Poll.Snapshots.eq_poll {t : Tracer} {p : Poll} (h : p.Snapshots t [])
    (hdone : p.remaining = []) : p = { tracer := t.poll, remaining := [] } := by
  obtain ⟨taken, moment, k, hfollows, hremaining, hmoment, -⟩ := h
  have hk : 4 ≤ k := by
    rw [hdone, eq_comm, List.drop_eq_nil_iff] at hremaining
    exact hremaining
  have hall : ∀ ring : Ring, taken.EqAt t.kernel.rings ring := fun ring => by
    obtain ⟨hpast, heq⟩ := hmoment ring (by cases ring <;> (simp only [Ring.rank]; omega))
    rwa [List.prefix_nil.mp hpast] at heq
  have htaken : taken = t.kernel.rings :=
    Rings.ext (hall .events) (hall .netEvents) (hall .fileEvents) (hall .memEvents)
  have hleft : p.tracer.kernel.rings = {} := by
    have hrings : t.kernel.rings ++ {} = taken ++ p.tracer.kernel.rings :=
      (Rings.append_nil _).trans hfollows.rings_eq
    rw [htaken] at hrings
    exact (Rings.append_left_cancel hrings).symm
  have hkernel : p.tracer.kernel = t.kernel.setRings {} := by
    have hprepend : t.kernel = p.tracer.kernel.prepend taken := hfollows.1
    rw [hprepend, Kernel.prepend, setRings_setRings, ← hleft, setRings_rings]
  obtain ⟨⟨kernel, tables⟩, remaining⟩ := p
  obtain rfl : remaining = [] := hdone
  obtain rfl : kernel = t.kernel.setRings {} := hkernel
  obtain rfl : tables = t.tables.drain t.kernel.rings := htaken ▸ hfollows.2
  rfl

/-! The loops of a quiet kernel's poll empty the rings one after the other. -/

def Rings.size (r : Rings) : ℕ :=
  r.events.length + r.netEvents.length + r.fileEvents.length + r.memEvents.length

lemma Rings.size_append (r r' : Rings) : (r ++ r').size = r.size + r'.size := by
  simp [size]
  omega

lemma Rings.size_of_pop {r item rest : Rings} {ring : Ring} (h : r.pop ring = some (item, rest)) :
    rest.size < r.size := by
  rw [← append_of_pop h, size_append]
  have hitem : item.size = 1 := by
    cases ring <;>
    · simp only [pop] at h
      split at h
      · simp at h
      · simp only [Option.some.injEq, Prod.mk.injEq] at h
        simp [← h.1, size]
  omega

/-- The loops terminate once nothing is written any more. -/
lemma exists_run_remaining_nil (p : Poll) : ∃ n, (p.run (List.replicate n .next)).remaining = [] := by
  obtain ⟨tracer, remaining⟩ := p
  induction remaining generalizing tracer with
  | nil => exact ⟨0, rfl⟩
  | cons ring remaining ih =>
    induction hn : tracer.kernel.rings.size using Nat.strong_induction_on generalizing tracer with
    | _ n ihn =>
      have hstep : Poll.step ⟨tracer, ring :: remaining⟩ .next = match tracer.next ring with
          | some tracer => ⟨tracer, ring :: remaining⟩
          | none => ⟨tracer, remaining⟩ := rfl
      cases hnext : tracer.next ring with
      | none =>
        obtain ⟨m, hm⟩ := ih tracer
        refine ⟨m + 1, ?_⟩
        simpa [List.replicate_succ, Poll.run, hstep, hnext] using hm
      | some t =>
        obtain ⟨⟨item, rest⟩, hpop, rfl⟩ := Option.map_eq_some_iff.mp hnext
        obtain ⟨m, hm⟩ := ihn rest.size (hn ▸ Rings.size_of_pop hpop)
          ⟨tracer.kernel.setRings rest, tracer.tables.drain item⟩ rfl
        refine ⟨m + 1, ?_⟩
        simpa [List.replicate_succ, Poll.run, hstep, hnext] using hm

/-- **A poll takes four snapshots.**  Whatever fires while `poll_events` runs, once it returns each
table accounts for exactly the records that were in its ring when the poll began and those written
up to a moment during it.  The moments are in the order of the closures.  It does return once
nothing fires any more, and if nothing has fired at all it has emptied the rings. -/
theorem poll_takes_snapshots (t : Tracer) :
    (∀ acts, ((Poll.start t).run acts).remaining = [] →
      ((Poll.start t).run acts).tracer.tables.AtMoments
        (fun m => t.tables.drain (t.kernel.run m).rings) (firedIn acts)) ∧
    (∀ acts, ∃ n, ((Poll.start t).run (acts ++ List.replicate n .next)).remaining = []) ∧
    ∃ n, (Poll.start t).run (List.replicate n .next) = { tracer := t.poll, remaining := [] } := by
  refine ⟨fun acts hdone => (Poll.Snapshots.run t acts).atMoments hdone, fun acts => ?_, ?_⟩
  · obtain ⟨n, hn⟩ := exists_run_remaining_nil ((Poll.start t).run acts)
    refine ⟨n, ?_⟩
    rw [← hn, Poll.run, List.foldl_append]
    rfl
  · obtain ⟨n, hn⟩ := exists_run_remaining_nil (Poll.start t)
    have hquiet : firedIn (List.replicate n .next) = [] := by
      simp [firedIn]
    exact ⟨n, (hquiet ▸ Poll.Snapshots.run t (List.replicate n .next)).eq_poll hn⟩

/-- A poll during which the target frees memory, after `drain_syscalls` has returned. -/
def kfreeDuringPoll : List Act := [.next, .fire (kfreeBy 1), .next, .next, .next, .next]

theorem poll_takes_snapshots_kfreeDuringPoll :
    ((Poll.start (.attach (.Pid 1))).run kfreeDuringPoll).tracer.tables.AtMoments
      (fun m => Tables.drain {} ((Kernel.load (.Pid 1)).run m).rings) [kfreeBy 1] :=
  (poll_takes_snapshots (.attach (.Pid 1))).1 kfreeDuringPoll (by decide +kernel)

end Peekbeam
