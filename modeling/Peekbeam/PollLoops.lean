import Peekbeam.Snapshots
import Peekbeam.TargetScope

/-!
# Loops that poll

Both modes of the tool are loops that poll the rings once in each iteration and then look at the
tables.  `polled` is what such a loop gets to see: with every iteration whose poll returns, the
tables at that moment.

Two facts about it hold of any such loop.  What is seen accounts for everything that was written
before the poll began, and in each table for what was written up to a moment during it
(`seenBy_of_mem_polled`); and from one iteration to the next the counters only grow
(`grows_polled`).
-/

namespace Peekbeam

/-! ## Growth -/

/-- The numbers of calls by syscall, of kernel allocations and of frees are no less, and no row of
the file table is gone.  Connections, byte counts and retransmits may be reset in between. -/
structure Tables.Grows (t t' : Tables) : Prop where
  calls : ∀ nr, (t.syscalls.statsOf nr).count ≤ (t'.syscalls.statsOf nr).count
  files : ∀ key, (t.files.lookup key).isSome → (t'.files.lookup key).isSome
  allocs : t.memEvents.allocCount ≤ t'.memEvents.allocCount
  frees : t.memEvents.freeCount ≤ t'.memEvents.freeCount

namespace Tables.Grows

variable {t t' t'' : Tables}

lemma refl (t : Tables) : t.Grows t := ⟨fun _ => le_rfl, fun _ h => h, le_rfl, le_rfl⟩

lemma trans (h : t.Grows t') (h' : t'.Grows t'') : t.Grows t'' where
  calls nr := (h.calls nr).trans (h'.calls nr)
  files key hkey := h'.files key (h.files key hkey)
  allocs := h.allocs.trans h'.allocs
  frees := h.frees.trans h'.frees

end Tables.Grows

lemma count_drainOne (t : SyscallTable) (event : SyscallEvent) (nr : UInt64) :
    (t.statsOf nr).count ≤ ((t.drainOne event).statsOf nr).count := by
  cases ho : event.opens with
  | true => rw [SyscallTable.statsOf_drainOne_enter ho]
  | false =>
    rw [SyscallTable.statsOf_drainOne_exit ho]
    split
    · exact le_rfl
    · split
      · exact Nat.le_succ _
      · exact le_rfl

lemma isSome_drainFileOne (files : FilesMap) (event : FileEvent) {key : UInt32 × Int32}
    (h : (files.lookup key).isSome) : ((drainFileOne files event).lookup key).isSome := by
  have hlocal := drainFileOne_local files event key
  dsimp only at hlocal
  rw [hlocal]
  split
  · unfold FileEvent.update
    split
    · rfl
    · simpa using h
    · rfl
    · rfl
  · exact h

lemma counts_drainMemOne (stats : MemEventStats) (event : MemEvent) :
    stats.allocCount ≤ (drainMemOne stats event).allocCount ∧
      stats.freeCount ≤ (drainMemOne stats event).freeCount := by
  unfold drainMemOne
  cases event.kind <;> simp

/-- Draining makes the tables grow. -/
lemma grows_drain (t : Tables) (r : Rings) : t.Grows (t.drain r) where
  calls nr := by
    refine drain_invariant (I := fun s : SyscallTable => (t.syscalls.statsOf nr).count ≤
      (s.statsOf nr).count) (fun item _ s hs => ?_) le_rfl
    exact hs.trans (count_drainOne s item.record nr)
  files key hkey := by
    refine drain_invariant (I := fun files : FilesMap => (files.lookup key).isSome)
      (fun item _ files hfiles => ?_) hkey
    exact isSome_drainFileOne files item.record hfiles
  allocs := by
    refine drain_invariant (I := fun s : MemEventStats => t.memEvents.allocCount ≤ s.allocCount)
      (fun item _ s hs => ?_) le_rfl
    exact hs.trans (counts_drainMemOne s item.record).1
  frees := by
    refine drain_invariant (I := fun s : MemEventStats => t.memEvents.freeCount ≤ s.freeCount)
      (fun item _ s hs => ?_) le_rfl
    exact hs.trans (counts_drainMemOne s item.record).2

/-! ## Polling once -/

/-- A poll that returns. -/
def pollOnce (t : Tracer) (acts : List Act) : Option Tracer :=
  let p := (Poll.start t).run acts
  if p.remaining = [] then some p.tracer else none

lemma Tracer.Follows.trans {t₀ t t' : Tracer} {l l' : List Firing} {taken taken' : Rings}
    (h : t₀.Follows l taken t) (h' : t.Follows l' taken' t') :
    t₀.Follows (l ++ l') (taken ++ taken') t' := by
  constructor
  · have hrun : t₀.kernel.run (l ++ l') = (t₀.kernel.run l).run l' := by
      simp [Kernel.run]
    rw [hrun, h.1, run_prepend, h'.1, prepend_prepend]
  · rw [h'.2, h.2, drain_drain]

lemma pollOnce_eq_some_iff {t t' : Tracer} {acts : List Act} : pollOnce t acts = some t' ↔
    ((Poll.start t).run acts).remaining = [] ∧ ((Poll.start t).run acts).tracer = t' := by
  simp [pollOnce]

lemma follows_of_pollOnce {t t' : Tracer} {acts : List Act} (h : pollOnce t acts = some t') :
    ∃ taken, t.Follows (firedIn acts) taken t' := by
  obtain ⟨-, rfl⟩ := pollOnce_eq_some_iff.mp h
  obtain ⟨taken, moment, k, hfollows, -⟩ := Poll.Snapshots.run t acts
  exact ⟨taken, hfollows⟩

lemma grows_of_pollOnce {t t' : Tracer} {acts : List Act} (h : pollOnce t acts = some t') :
    t.tables.Grows t'.tables := by
  obtain ⟨taken, hfollows⟩ := follows_of_pollOnce h
  rw [hfollows.2]
  exact grows_drain _ _

/-! ## Polling in a loop -/

/-- What happens in one iteration, as far as the kernel is concerned. -/
structure Activity where
  /-- The firings since the last poll. -/
  idle : List Firing
  /-- What happens while `poll_events` runs. -/
  acts : List Act

/-- The firings of an iteration. -/
def Activity.fired (a : Activity) : List Firing := a.idle ++ firedIn a.acts

/-- The programs fire, and nothing is drained. -/
def Tracer.meanwhile (t : Tracer) (l : List Firing) : Tracer := { t with kernel := t.kernel.run l }

/-- The state a loop is entered with, if the programs fired as in `past` before. -/
def Tracer.started (target : Target) (past : List Firing) : Tracer :=
  (Tracer.attach target).meanwhile past

lemma Tracer.Follows.meanwhile {t₀ t : Tracer} {l : List Firing} {taken : Rings}
    (h : t₀.Follows l taken t) (l' : List Firing) :
    t₀.Follows (l ++ l') taken (t.meanwhile l') := by
  refine ⟨?_, h.2⟩
  have hrun : t₀.kernel.run (l ++ l') = (t₀.kernel.run l).run l' := by
    simp [Kernel.run]
  rw [hrun, h.1, run_prepend]
  rfl

/-- Draining what is still to come after what was taken. -/
lemma Tracer.Follows.drain_run {t₀ t : Tracer} {l : List Firing} {taken : Rings}
    (h : t₀.Follows l taken t) (m : List Firing) :
    t.tables.drain (t.kernel.run m).rings = t₀.tables.drain (t₀.kernel.run (l ++ m)).rings := by
  rw [(h.meanwhile m).rings_eq, h.2, drain_drain]
  rfl

section Loop
variable {α : Type} (activity : α → Activity)

/-- The iterations whose poll returned, with the tables after it. -/
def polled : Tracer → List α → List (α × Tables)
  | _, [] => []
  | t, tick :: ticks =>
    match pollOnce (t.meanwhile (activity tick).idle) (activity tick).acts with
    | none => []
    | some t' => (tick, t'.tables) :: polled t' ticks

/-- The firings of some iterations. -/
def firedOver (ticks : List α) : List Firing := ticks.flatMap fun tick => (activity tick).fired

/-- The tables account for everything that was written while the programs fired as in `before`, and
each of them for what was written up to a moment while they fired on as in `during`. -/
def Accounts (target : Target) (before during : List Firing) (t : Tables) : Prop :=
  t.AtMoments (fun m => .after target (before ++ m)) during

/-- Among the iterations `ticks`, the tables of `p` account for all that was written before its
poll began, by the firings before the loop too. -/
def SeenBy (target : Target) (past : List Firing) (ticks : List α) (p : α × Tables) : Prop :=
  ∃ before after, ticks = before ++ p.1 :: after ∧
    Accounts target (past ++ firedOver activity before ++ (activity p.1).idle)
      (firedIn (activity p.1).acts) p.2

variable {activity}

variable (activity) in
/-- The loop looks at a prefix of the iterations. -/
lemma fst_polled_isPrefix (t : Tracer) (ticks : List α) :
    (polled activity t ticks).map Prod.fst <+: ticks := by
  induction ticks generalizing t with
  | nil => exact List.prefix_rfl
  | cons tick ticks ih =>
    unfold polled
    cases pollOnce (t.meanwhile (activity tick).idle) (activity tick).acts with
    | none => exact List.nil_prefix
    | some t' => exact List.cons_prefix_cons.mpr ⟨rfl, ih t'⟩

lemma grows_of_mem_polled {t : Tracer} {ticks : List α} {p : α × Tables}
    (hp : p ∈ polled activity t ticks) : t.tables.Grows p.2 := by
  induction ticks generalizing t with
  | nil => simp [polled] at hp
  | cons tick ticks ih =>
    unfold polled at hp
    cases hpoll : pollOnce (t.meanwhile (activity tick).idle) (activity tick).acts with
    | none => simp [hpoll] at hp
    | some t' =>
      have hgrows : (t.meanwhile (activity tick).idle).tables.Grows t'.tables :=
        grows_of_pollOnce hpoll
      rw [hpoll] at hp
      rcases List.mem_cons.mp hp with rfl | hp
      · exact hgrows
      · exact Tables.Grows.trans hgrows (ih hp)

/-- **What a loop sees grows.** -/
lemma grows_polled (t : Tracer) (ticks : List α) :
    (polled activity t ticks).Pairwise fun p p' => p.2.Grows p'.2 := by
  induction ticks generalizing t with
  | nil => exact List.Pairwise.nil
  | cons tick ticks ih =>
    unfold polled
    cases pollOnce (t.meanwhile (activity tick).idle) (activity tick).acts with
    | none => exact List.Pairwise.nil
    | some t' => exact List.pairwise_cons.mpr ⟨fun p hp => grows_of_mem_polled hp, ih t'⟩

lemma seenBy_of_follows {target : Target} {past : List Firing} {taken : Rings} {t : Tracer}
    {ticks : List α} {p : α × Tables} (hfollows : (Tracer.attach target).Follows past taken t)
    (hp : p ∈ polled activity t ticks) : SeenBy activity target past ticks p := by
  induction ticks generalizing past taken t with
  | nil => simp [polled] at hp
  | cons tick ticks ih =>
    unfold polled at hp
    cases hpoll : pollOnce (t.meanwhile (activity tick).idle) (activity tick).acts with
    | none => simp [hpoll] at hp
    | some t' =>
      have hidle := hfollows.meanwhile (activity tick).idle
      obtain ⟨taken', hpoll'⟩ := follows_of_pollOnce hpoll
      have hfollows' := hidle.trans hpoll'
      rw [hpoll] at hp
      rcases List.mem_cons.mp hp with rfl | hp
      · obtain ⟨hdone, htracer⟩ := pollOnce_eq_some_iff.mp hpoll
        have hmoments := (Poll.Snapshots.run (t.meanwhile (activity tick).idle)
          (activity tick).acts).atMoments hdone
        rw [htracer, funext fun m => hidle.drain_run m] at hmoments
        refine ⟨[], ticks, rfl, ?_⟩
        rw [firedOver, List.flatMap_nil, List.append_nil]
        exact hmoments
      · obtain ⟨before, after, rfl, haccounts⟩ := ih hfollows' hp
        refine ⟨tick :: before, after, rfl, ?_⟩
        have hpast : past ++ firedOver activity (tick :: before) =
            past ++ (activity tick).idle ++ firedIn (activity tick).acts ++
              firedOver activity before := by
          simp [firedOver, Activity.fired]
        rwa [hpast]

/-- **What a loop sees is what was written.** -/
lemma seenBy_of_mem_polled {target : Target} {past : List Firing} {ticks : List α} {p : α × Tables}
    (hp : p ∈ polled activity (.started target past) ticks) : SeenBy activity target past ticks p :=
  seenBy_of_follows ((Tracer.Follows.refl _).meanwhile past) hp

end Loop

end Peekbeam
