import Peekbeam.Foundation.Aliased
import Peekbeam.SocketFirings

/-!
# The connection table against the sockets

The kernel side knows a connection by its socket address, userspace by the 4-tuple each event
carries.  This file compares the two.

The reference is the `monitor`: the table one would keep if events carried the socket address,
with a row per socket from the firing that tracks it to its transition to `TCP_CLOSE`.
`monitor_aliased` says when userspace's table is that table, keyed by tuple: when a socket
reports one tuple while it is tracked and no two tracked sockets report the same.

* `connections_in_step` — the resulting correspondence between `TRACKED_SOCKS` and
  `connections`, entry by entry.
* `no_ghosts_iff` — no entry survives its socket, and there are never more entries than tracked
  sockets, as long as each tracked socket keeps its tuple; and where no two sockets share a
  tuple, only then.
* `followed_to_the_end_iff` — and every reported socket is followed to its end exactly when
  those that close outside the target's context were found, at some transition in it, with
  room in `TRACKED_SOCKS`.
-/

namespace Peekbeam

open History

attribute [local irreducible] TracePointContext.field

/-! ## Firings that do not fail -/

/-- Nothing fails during the firing: the record can be read, the ring has room for the event,
and the socket of a transition in the target's context can be added. -/
def NetFiring.Unfailing (target : Target) (pre : List NetFiring) (f : NetFiring) : Prop :=
  f.Written ∧
    (f.kind = .StateChange → f.Matches target → ¬ Tracked target pre f.skaddr →
      Insertable target pre f)

instance (target : Target) (pre : List NetFiring) (f : NetFiring) :
    Decidable (f.Unfailing target pre) :=
  inferInstanceAs (Decidable (_ ∧ (_ → _ → _ → _)))

section Unfailing
variable {target : Target} {l : List NetFiring} {f : NetFiring}

lemma emits_iff_processed (h : f.Unfailing target l) :
    Emits target l f ↔ Processed target l f := by
  simp [Emits, h.1]

/-- Without failures, a socket is tracked from the first firing processed to its close. -/
lemma tracked_concat_of_unfailing (h : f.Unfailing target l) (s : UInt64) :
    Tracked target (l ++ [f]) s ↔
      if s = f.skaddr then Processed target l f ∧ f.closes = false else Tracked target l s := by
  rw [tracked_concat]
  by_cases hs : s = f.skaddr
  · subst hs
    obtain ⟨hwritten, hins⟩ := h
    simp only [if_true, hwritten, and_true, Processed, Discovers, hwritten.1, true_and]
    by_cases ht : Tracked target l f.skaddr
    · simp [ht]
    · simp only [ht, false_or]
      constructor
      · rintro ⟨⟨hk, hm, -⟩, hc⟩
        exact ⟨⟨hk, hm⟩, by simpa using hc⟩
      · rintro ⟨⟨hk, hm⟩, hc⟩
        exact ⟨⟨hk, hm, hins hk hm ht⟩, by simp [hc]⟩
  · rw [if_neg hs, if_neg hs]

end Unfailing

/-! ## The reference table -/

/-- The firings of `l` that wrote a record. -/
def emittedFirings (target : Target) (l : List NetFiring) : List NetFiring :=
  collect (fun pre f => if Emits target pre f then [f] else []) l

/-- The last firing about socket `s` that wrote a record. -/
def lastEmitted (target : Target) (l : List NetFiring) (s : UInt64) : Option NetFiring :=
  lastWhere (fun f => f.skaddr = s) (emittedFirings target l)

/-- The tuple socket `s` reported last. -/
def tupleOf (target : Target) (l : List NetFiring) (s : UInt64) : ConnectionKey :=
  ((lastEmitted target l s).map NetFiring.tuple).getD default

/-- One step of the reference table, which knows the sockets. -/
def observe (rows : UInt64 → Option (ConnectionKey × ConnectionStats)) (f : NetFiring) :
    UInt64 → Option (ConnectionKey × ConnectionStats) :=
  Function.update rows f.skaddr
    ((if f.closes then none else some (f.event.account ((rows f.skaddr).map Prod.snd))).map
      fun stats => (f.tuple, stats))

/-- The reference table: the tuple, state and retransmissions of every open socket. -/
def monitor (target : Target) (l : List NetFiring) :
    UInt64 → Option (ConnectionKey × ConnectionStats) :=
  (emittedFirings target l).foldl observe fun _ => none

section Monitor
variable {target : Target} {l : List NetFiring} {f : NetFiring}

lemma emittedFirings_concat :
    emittedFirings target (l ++ [f]) =
      emittedFirings target l ++ if Emits target l f then [f] else [] :=
  collect_concat _ _ _

lemma lastEmitted_concat (s : UInt64) :
    lastEmitted target (l ++ [f]) s =
      if Emits target l f ∧ f.skaddr = s then some f else lastEmitted target l s := by
  rw [lastEmitted, emittedFirings_concat]
  by_cases he : Emits target l f
  · rw [if_pos he, lastWhere_concat]
    simp only [he, true_and, decide_eq_true_eq]
    rfl
  · simp only [he, if_false, List.append_nil, false_and]
    rfl

lemma monitor_concat :
    monitor target (l ++ [f]) =
      if Emits target l f then observe (monitor target l) f else monitor target l := by
  rw [monitor, emittedFirings_concat]
  split
  · rw [List.foldl_append, ← monitor, List.foldl_cons, List.foldl_nil]
  · rw [List.append_nil, ← monitor]

lemma mem_of_lastEmitted {s : UInt64} {g : NetFiring} (h : lastEmitted target l s = some g) :
    g ∈ l ∧ g.skaddr = s := by
  obtain ⟨hmem, hs⟩ := mem_of_lastWhere h
  obtain ⟨pre, f, post, rfl, hf⟩ := mem_collect.mp hmem
  split at hf
  · obtain rfl := List.mem_singleton.mp hf
    exact ⟨by simp, by simpa using hs⟩
  · simp at hf

/-- A row of the reference table carries what its socket reported last. -/
lemma lastEmitted_of_monitor {s : UInt64} {k : ConnectionKey} {v : ConnectionStats}
    (h : monitor target l s = some (k, v)) :
    ∃ g, lastEmitted target l s = some g ∧ g.tuple = k ∧ g.state = v.state := by
  induction l using List.reverseRecOn with
  | nil => simp [monitor, emittedFirings] at h
  | append_singleton l f ih =>
    rw [monitor_concat] at h
    rw [lastEmitted_concat]
    by_cases he : Emits target l f
    · rw [if_pos he, observe] at h
      by_cases hs : s = f.skaddr
      · subst hs
        rw [Function.update_self] at h
        by_cases hc : f.closes = true
        · simp [hc] at h
        · simp only [hc, Bool.false_eq_true, if_false, Option.map_some, Option.some.injEq,
            Prod.mk.injEq] at h
          obtain ⟨rfl, rfl⟩ := h
          exact ⟨f, by simp [he], rfl, rfl⟩
      · rw [Function.update_of_ne hs] at h
        obtain ⟨g, hg, hrest⟩ := ih h
        exact ⟨g, by simpa [Ne.symm hs] using hg, hrest⟩
    · rw [if_neg he] at h
      obtain ⟨g, hg, hrest⟩ := ih h
      exact ⟨g, by simpa [he] using hg, hrest⟩

lemma tupleOf_of_monitor {s : UInt64} {k : ConnectionKey} {v : ConnectionStats}
    (h : monitor target l s = some (k, v)) : tupleOf target l s = k := by
  obtain ⟨g, hg, rfl, -⟩ := lastEmitted_of_monitor h
  simp [tupleOf, hg]

/-- Without failures the reference table has a row for exactly the tracked sockets. -/
lemma monitor_isSome (hok : Stepwise (NetFiring.Unfailing target) l) (s : UInt64) :
    (monitor target l s).isSome ↔ Tracked target l s := by
  induction l using List.reverseRecOn with
  | nil => simp [monitor, emittedFirings]
  | append_singleton l f ih =>
    obtain ⟨hl, hf⟩ := stepwise_concat.mp hok
    rw [monitor_concat, tracked_concat_of_unfailing hf]
    by_cases hp : Processed target l f
    · rw [if_pos ((emits_iff_processed hf).mpr hp), observe]
      by_cases hs : s = f.skaddr
      · subst hs
        by_cases hc : f.closes = true <;> simp [hc, hp]
      · rw [Function.update_of_ne hs, if_neg hs, ih hl]
    · rw [if_neg (fun he => hp ((emits_iff_processed hf).mp he)), ih hl]
      by_cases hs : s = f.skaddr
      · subst hs
        have ht : ¬ Tracked target l f.skaddr := fun ht => hp ⟨hf.1.1, Or.inl ht⟩
        simp [hp, ht]
      · simp [hs]

end Monitor

/-! ## The table by tuple -/

/-- A tracked socket reports the tuple it reported before. -/
def FixedTuple (target : Target) (pre : List NetFiring) (f : NetFiring) : Prop :=
  Tracked target pre f.skaddr → f.tuple = tupleOf target pre f.skaddr

instance (target : Target) (pre : List NetFiring) (f : NetFiring) :
    Decidable (FixedTuple target pre f) :=
  inferInstanceAs (Decidable (_ → _))

/-- A socket being processed reports the tuple of no other tracked socket. -/
def DistinctTuples (target : Target) (pre : List NetFiring) (f : NetFiring) : Prop :=
  Processed target pre f → ∀ s, s ≠ f.skaddr → Tracked target pre s →
    tupleOf target pre s ≠ f.tuple

section Table
variable {target : Target} {l : List NetFiring} {f : NetFiring}

/-- **Refinement.**  With fixed and distinct tuples, `connections` is the reference table keyed
by tuple. -/
theorem monitor_aliased (hok : Stepwise (NetFiring.Unfailing target) l)
    (hfixed : Stepwise (FixedTuple target) l) (hdistinct : Stepwise (DistinctTuples target) l) :
    Aliased (monitor target l) fun k => (connections target l).lookup k := by
  induction l using List.reverseRecOn with
  | nil =>
    have hrows : monitor target [] = fun _ => none := rfl
    simp only [hrows, lookup_connections_nil]
    exact Aliased.empty
  | append_singleton l f ih =>
    obtain ⟨hokl, hokf⟩ := stepwise_concat.mp hok
    obtain ⟨hfixedl, hfixedf⟩ := stepwise_concat.mp hfixed
    obtain ⟨hdistinctl, hdistinctf⟩ := stepwise_concat.mp hdistinct
    have haliased := ih hokl hfixedl hdistinctl
    rw [monitor_concat, connections_concat]
    by_cases hp : Processed target l f
    · have hown : OwnAlias (monitor target l) f.skaddr f.tuple :=
        { kept := fun {k v} hrow => by
            have ht : Tracked target l f.skaddr := (monitor_isSome hokl _).mp (by simp [hrow])
            rw [hfixedf ht, tupleOf_of_monitor hrow]
          free := fun {s v} hrow => by
            by_contra hs
            have ht : Tracked target l s := (monitor_isSome hokl _).mp (by simp [hrow])
            exact hdistinctf hp s hs ht (tupleOf_of_monitor hrow) }
      have hread := haliased.read hown
      rw [if_pos ((emits_iff_processed hokf).mpr hp), if_pos ((emits_iff_processed hokf).mpr hp),
        lookup_drainNetOne, observe, ← hread]
      exact haliased.update hown _
    · rw [if_neg (fun he => hp ((emits_iff_processed hokf).mp he)),
        if_neg (fun he => hp ((emits_iff_processed hokf).mp he))]
      exact haliased

/-- A tracked socket is one that has made a transition seen to be the target's, since it was
last closed. -/
lemma tracked_iff_since (hok : Stepwise (NetFiring.Unfailing target) l) (s : UInt64) :
    Tracked target l s ↔ Since NetFiring.skaddr NetFiring.closes (fun pre g =>
      g.kind = .StateChange ∧ g.closes = false ∧
        (g.Matches target ∨ Tracked target pre g.skaddr)) l s := by
  induction l using List.reverseRecOn with
  | nil => simp
  | append_singleton l f ih =>
    obtain ⟨hl, hf⟩ := stepwise_concat.mp hok
    rw [tracked_concat_of_unfailing hf]
    by_cases hs : s = f.skaddr
    · subst hs
      rw [if_pos rfl, since_concat_self, ← ih hl, Processed]
      cases hk : f.kind with
      | StateChange =>
        simp only [hf.1.1]
        tauto
      | Retransmit =>
        simp only [hf.1.1]
        tauto
    · rw [if_neg hs, since_concat_of_ne (Ne.symm hs), ih hl]

/-- The row of a tracked socket counts its retransmissions since it was tracked. -/
lemma retransmits_of_tracked (hok : Stepwise (NetFiring.Unfailing target) l) {s : UInt64}
    (h : Tracked target l s) :
    ∃ pre t post k v, l = pre ++ t :: post ∧ ¬ Tracked target pre s ∧
      (∀ p, p <+: post → Tracked target (pre ++ t :: p) s) ∧
      monitor target l s = some (k, v) ∧
      v.retransmits = post.countP fun f => f.kind = .Retransmit ∧ f.skaddr = s := by
  induction l using List.reverseRecOn with
  | nil => simp at h
  | append_singleton l f ih =>
    obtain ⟨hl, hf⟩ := stepwise_concat.mp hok
    have hconcat := h
    rw [tracked_concat_of_unfailing hf] at hconcat
    rw [monitor_concat]
    by_cases hs : s = f.skaddr
    · subst hs
      obtain ⟨hp, hopen⟩ : Processed target l f ∧ f.closes = false := by simpa using hconcat
      rw [if_pos ((emits_iff_processed hf).mpr hp), observe, Function.update_self]
      by_cases ht : Tracked target l f.skaddr
      · obtain ⟨pre, t, post, k, v, rfl, hbefore, hsince, hrow, hcount⟩ := ih hl ht
        refine ⟨pre, t, post ++ [f], f.tuple, f.event.account (some v), by simp, hbefore, ?_, ?_,
          ?_⟩
        · exact forall_prefix_concat.mpr ⟨hsince, by simpa using h⟩
        · simp [hopen, hrow]
        · have hkind : f.event.kind = f.kind := rfl
          simp [NetEvent.account, hcount, List.countP_append, hkind]
      · have hk : f.kind = .StateChange := (hp.2.resolve_left ht).1
        have hrow : monitor target l f.skaddr = none :=
          Option.not_isSome_iff_eq_none.mp fun h => ht ((monitor_isSome hl _).mp h)
        refine ⟨l, f, [], f.tuple, f.event.account none, by simp, ht, ?_, ?_, ?_⟩
        · intro p hpre
          obtain rfl := List.prefix_nil.mp hpre
          exact h
        · simp [hopen, hrow]
        · have hkind : f.event.kind = .StateChange := hk
          simp [NetEvent.account, hkind]
    · rw [if_neg hs] at hconcat
      obtain ⟨pre, t, post, k, v, rfl, hbefore, hsince, hrow, hcount⟩ := ih hl hconcat
      refine ⟨pre, t, post ++ [f], k, v, by simp, hbefore, ?_, ?_, ?_⟩
      · exact forall_prefix_concat.mpr ⟨hsince, by simpa using h⟩
      · split
        · rw [observe, Function.update_of_ne hs, hrow]
        · exact hrow
      · simp [hcount, List.countP_append, Ne.symm hs]

lemma mem_of_tracked (hok : Stepwise (NetFiring.Unfailing target) l) {s : UInt64}
    (h : Tracked target l s) : ∃ g ∈ l, g.skaddr = s ∧ tupleOf target l s = g.tuple := by
  obtain ⟨⟨k, v⟩, hrow⟩ := Option.isSome_iff_exists.mp ((monitor_isSome hok s).mpr h)
  obtain ⟨g, hg, rfl, -⟩ := lastEmitted_of_monitor hrow
  obtain ⟨hmem, hs⟩ := mem_of_lastEmitted hg
  exact ⟨g, hmem, hs, tupleOf_of_monitor hrow⟩

/-- No two sockets report a common tuple. -/
def Unshared (l : List NetFiring) : Prop :=
  ∀ f ∈ l, ∀ g ∈ l, f.tuple = g.tuple → f.skaddr = g.skaddr

lemma distinct_of_unshared (hok : Stepwise (NetFiring.Unfailing target) l)
    (hunshared : Unshared l) : Stepwise (DistinctTuples target) l := by
  intro pre f post hl _ s hs ht heq
  obtain ⟨g, hg, hgs, htup⟩ := mem_of_tracked (hok.of_isPrefix ⟨f :: post, hl.symm⟩) ht
  refine hs (hgs.symm.trans (hunshared g (by simp [hl, hg]) f (by simp [hl]) ?_))
  exact htup.symm.trans heq

/-- **Kernel and userspace stay in step.**  Without failures, with fixed and distinct tuples:
the tracked sockets and the entries of `connections` correspond one to one through their
tuples; a socket is tracked exactly if it has made a transition seen to be the target's, other
than to `TCP_CLOSE`, since it was last closed; and the entry of a tracked socket holds the
state of its last record and the number of its retransmissions since it was tracked. -/
theorem connections_in_step (hok : Stepwise (NetFiring.Unfailing target) l)
    (hfixed : Stepwise (FixedTuple target) l) (hdistinct : Stepwise (DistinctTuples target) l) :
    Set.BijOn (tupleOf target l) {s | Tracked target l s}
      {k | ((connections target l).lookup k).isSome} ∧
    (∀ s, Tracked target l s ↔ Since NetFiring.skaddr NetFiring.closes (fun pre g =>
      g.kind = .StateChange ∧ g.closes = false ∧
        (g.Matches target ∨ Tracked target pre g.skaddr)) l s) ∧
    ∀ s, Tracked target l s → ∃ g pre t post, lastEmitted target l s = some g ∧
      l = pre ++ t :: post ∧ ¬ Tracked target pre s ∧
      (∀ p, p <+: post → Tracked target (pre ++ t :: p) s) ∧
      (connections target l).lookup (tupleOf target l s) =
        some { state := g.state
               retransmits := post.countP fun f => f.kind = .Retransmit ∧ f.skaddr = s } := by
  have haliased := monitor_aliased hok hfixed hdistinct
  refine ⟨?_, tracked_iff_since hok, fun s hs => ?_⟩
  · have htracked : {s | Tracked target l s} = {s | (monitor target l s).isSome} :=
      Set.ext fun s => (monitor_isSome hok s).symm
    rw [htracked]
    exact haliased.bijOn tupleOf_of_monitor
  · obtain ⟨pre, t, post, k, v, hl, hbefore, hsince, hrow, hcount⟩ :=
      retransmits_of_tracked hok hs
    obtain ⟨g, hg, -, hstate⟩ := lastEmitted_of_monitor hrow
    refine ⟨g, pre, t, post, hg, hl, hbefore, hsince, ?_⟩
    rw [tupleOf_of_monitor hrow, haliased.stored hrow, ← hcount, hstate]

/-- Process 1 opens two sockets; the first connects and retransmits while other processes are
current, the second closes there. -/
def twoSockets : List NetFiring :=
  [.plain .StateChange 1 8 80 2, .plain .StateChange 1 9 90 2, .plain .StateChange 2 8 80 1,
    .plain .Retransmit 3 8 80 1, .plain .StateChange 2 9 90 7]

lemma twoSockets_unfailing : Stepwise (NetFiring.Unfailing (.Pid 1)) twoSockets := by
  decide +kernel

lemma twoSockets_fixed : Stepwise (FixedTuple (.Pid 1)) twoSockets := by
  decide +kernel

theorem connections_in_step_twoSockets :
    Set.BijOn (tupleOf (.Pid 1) twoSockets) {s | Tracked (.Pid 1) twoSockets s}
      {k | ((connections (.Pid 1) twoSockets).lookup k).isSome} := by
  have hunshared : Unshared twoSockets := by
    unfold Unshared
    decide +kernel
  exact (connections_in_step twoSockets_unfailing twoSockets_fixed
    (distinct_of_unshared twoSockets_unfailing hunshared)).1

end Table

/-! ## Entries and their creators -/

/-- The firing adds the entry `k` to `connections`. -/
def Creates (target : Target) (pre : List NetFiring) (f : NetFiring) (k : ConnectionKey) : Prop :=
  (connections target pre).lookup k = none ∧
    ((connections target (pre ++ [f])).lookup k).isSome

instance (target : Target) (pre : List NetFiring) (f : NetFiring) (k : ConnectionKey) :
    Decidable (Creates target pre f k) :=
  inferInstanceAs (Decidable (_ ∧ _))

/-- The firing that last added the entry `k`. -/
def creator (target : Target) (l : List NetFiring) (k : ConnectionKey) : Option NetFiring :=
  (collect (fun pre f => if Creates target pre f k then [f] else []) l).getLast?

/-- After the close of a socket was drained no entry created by the socket is left, and there
are no more entries than tracked sockets. -/
def NoGhosts (target : Target) (l : List NetFiring) : Prop :=
  (∀ pre c post, l = pre ++ c :: post → c.closes = true → Emits target pre c →
    ∀ k g, creator target (pre ++ [c]) k = some g → g.skaddr = c.skaddr →
      (connections target (pre ++ [c])).lookup k = none) ∧
  (connections target l).keys.length ≤ (afterNet target l).trackedSocks.size

section Ghosts
variable {target : Target} {l : List NetFiring} {f : NetFiring}

lemma creator_concat (k : ConnectionKey) :
    creator target (l ++ [f]) k =
      if Creates target l f k then some f else creator target l k := by
  rw [creator, collect_concat]
  split
  · simp
  · rw [List.append_nil, ← creator]

lemma tupleOf_concat (s : UInt64) :
    tupleOf target (l ++ [f]) s =
      if Emits target l f ∧ f.skaddr = s then f.tuple else tupleOf target l s := by
  rw [tupleOf, lastEmitted_concat]
  split
  · rfl
  · rw [← tupleOf]

/-- With fixed tuples, the creator of an entry is tracked and still reports its tuple. -/
lemma creator_of_lookup (hok : Stepwise (NetFiring.Unfailing target) l)
    (hfixed : Stepwise (FixedTuple target) l) {k : ConnectionKey}
    (h : ((connections target l).lookup k).isSome) :
    ∃ g, creator target l k = some g ∧ Tracked target l g.skaddr ∧
      tupleOf target l g.skaddr = k := by
  induction l using List.reverseRecOn with
  | nil => simp at h
  | append_singleton l f ih =>
    obtain ⟨hokl, hokf⟩ := stepwise_concat.mp hok
    obtain ⟨hfixedl, hfixedf⟩ := stepwise_concat.mp hfixed
    have ih := ih hokl hfixedl
    have hconcat := lookup_connections_concat target l f k
    have htuple : ∀ s, tupleOf target (l ++ [f]) s = _ := tupleOf_concat
    have htracked := tracked_concat_of_unfailing hokf
    rw [creator_concat]
    by_cases hwrite : Emits target l f ∧ k = f.tuple
    · -- `f` writes the entry, so its socket is tracked and open afterwards
      obtain ⟨he, rfl⟩ := hwrite
      have hp : Processed target l f := he.1
      have hopen : f.closes = false := by
        by_contra hc
        rw [hconcat, if_pos ⟨he, rfl⟩, if_pos (by simpa using hc)] at h
        simp at h
      have hself : Tracked target (l ++ [f]) f.skaddr := by simp [htracked, hp, hopen]
      by_cases hbefore : (connections target l).lookup f.tuple = none
      · exact ⟨f, if_pos ⟨hbefore, h⟩, hself, by simp [htuple, he]⟩
      · obtain ⟨g, hg, ht, htup⟩ := ih (Option.isSome_iff_ne_none.mpr hbefore)
        refine ⟨g, by rw [if_neg fun hcreates => hbefore hcreates.1, hg], ?_, ?_⟩
        · by_cases hs : g.skaddr = f.skaddr
          · exact hs ▸ hself
          · rwa [htracked, if_neg hs]
        · rw [htuple]
          split
          · rfl
          · exact htup
    · rw [hconcat, if_neg hwrite] at h
      have hnot : ¬ Creates target l f k := fun hcreates => by simp [hcreates.1] at h
      obtain ⟨g, hg, ht, htup⟩ := ih h
      refine ⟨g, by rw [if_neg hnot, hg], ?_⟩
      by_cases he : Emits target l f
      · -- the creator is another socket: `f` reports another tuple than it would
        have hs : f.skaddr ≠ g.skaddr := by
          intro hs
          refine hwrite ⟨he, ?_⟩
          rw [← htup, ← hs]
          exact (hfixedf (hs ▸ ht)).symm
        rw [htracked, if_neg (Ne.symm hs), htuple, if_neg fun h' => hs h'.2]
        exact ⟨ht, htup⟩
      · have hp : ¬ Processed target l f := fun hp => he ((emits_iff_processed hokf).mpr hp)
        have hs : g.skaddr ≠ f.skaddr := fun hs => hp ⟨hokf.1.1, Or.inl (hs ▸ ht)⟩
        rw [htracked, if_neg hs, htuple, if_neg fun h' => he h'.1]
        exact ⟨ht, htup⟩

/-- The tracked addresses. -/
def trackedAddrs (target : Target) (l : List NetFiring) : List UInt64 :=
  (afterNet target l).trackedSocks.entries.keys

lemma mem_trackedAddrs {s : UInt64} : s ∈ trackedAddrs target l ↔ Tracked target l s :=
  BoundedMap.get_isSome_iff.symm

lemma mem_keys_connections {k : ConnectionKey} :
    k ∈ (connections target l).keys ↔ ((connections target l).lookup k).isSome :=
  AList.lookup_isSome.symm

lemma length_keys_le_of_fixed (hok : Stepwise (NetFiring.Unfailing target) l)
    (hfixed : Stepwise (FixedTuple target) l) :
    (connections target l).keys.length ≤ (afterNet target l).trackedSocks.size := by
  have hsub : (connections target l).keys ⊆ (trackedAddrs target l).map (tupleOf target l) := by
    intro k hk
    obtain ⟨g, -, ht, htup⟩ := creator_of_lookup hok hfixed (mem_keys_connections.mp hk)
    exact List.mem_map.mpr ⟨g.skaddr, mem_trackedAddrs.mpr ht, htup⟩
  have := (List.subperm_of_subset (connections target l).keys_nodup hsub).length_le
  rwa [List.length_map] at this

lemma noGhosts_of_fixed (hok : Stepwise (NetFiring.Unfailing target) l)
    (hfixed : Stepwise (FixedTuple target) l) : NoGhosts target l := by
  refine ⟨?_, length_keys_le_of_fixed hok hfixed⟩
  intro pre c post hl hclose he k g hg hs
  have hprefix : pre ++ [c] <+: l := ⟨post, by simp [hl]⟩
  by_contra hne
  obtain ⟨g', hg', ht, -⟩ := creator_of_lookup (hok.of_isPrefix hprefix)
    (hfixed.of_isPrefix hprefix) (Option.isSome_iff_ne_none.mpr hne)
  obtain rfl : g = g' := Option.some.inj (hg.symm.trans hg')
  have hokc := (stepwise_concat.mp (hok.of_isPrefix hprefix)).2
  rw [tracked_concat_of_unfailing hokc, if_pos hs] at ht
  simp [hclose] at ht

/-! ## Tuples that change -/

/-- A tracked socket that reports a new tuple leaves more entries than tracked sockets. -/
lemma more_entries_of_changed (hok : Stepwise (NetFiring.Unfailing target) (l ++ [f]))
    (hfixed : Stepwise (FixedTuple target) l) (hunshared : Unshared (l ++ [f]))
    (ht : Tracked target l f.skaddr) (hchanged : f.tuple ≠ tupleOf target l f.skaddr) :
    (afterNet target (l ++ [f])).trackedSocks.size <
      (connections target (l ++ [f])).keys.length := by
  obtain ⟨hokl, hokf⟩ := stepwise_concat.mp hok
  have hdistinct : Stepwise (DistinctTuples target) l :=
    (distinct_of_unshared hok hunshared).of_isPrefix (List.prefix_append l [f])
  have haliased := monitor_aliased hokl hfixed hdistinct
  have hsame : (connections target l).keys.length = (afterNet target l).trackedSocks.size :=
    haliased.length_eq tupleOf_of_monitor
      (AList.keys_nodup (afterNet target l).trackedSocks.entries) (AList.keys_nodup _)
      (fun s => mem_trackedAddrs.trans (monitor_isSome hokl s).symm)
      fun k => mem_keys_connections
  have hnew : f.event.key ∉ (connections target l).keys := by
    intro hmem
    obtain ⟨g, -, hgt, htup⟩ := creator_of_lookup hokl hfixed (mem_keys_connections.mp hmem)
    obtain ⟨g', hg', hgs, htup'⟩ := mem_of_tracked hokl hgt
    have hs : g'.skaddr = f.skaddr :=
      hunshared g' (by simp [hg']) f (by simp) (htup'.symm.trans htup)
    exact hchanged (htup.symm.trans (by rw [← hgs, hs]))
  have he : Emits target l f := (emits_iff_processed hokf).mpr ⟨hokf.1.1, Or.inl ht⟩
  rw [size_of_tracked ht he, connections_concat, if_pos he]
  by_cases hc : f.closes = true
  · have hpos : 0 < (afterNet target l).trackedSocks.size :=
      List.length_pos_of_mem (mem_trackedAddrs.mpr ht)
    rw [if_pos hc, drainNetOne_of_closes _ hc, AList.keys_erase, List.erase_of_not_mem hnew]
    omega
  · rw [if_neg hc, length_keys_drainNetOne _ _ (Bool.eq_false_iff.mpr hc), if_neg hnew]
    omega

/-- **No ghost connections, as long as tuples are kept.**  In every run without failures in
which each tracked socket reports the tuple it reported before, no entry survives the close of
the socket that created it and there are never more entries than tracked sockets.  Where no two
sockets report a common tuple the converse holds too. -/
theorem no_ghosts_iff (hok : Stepwise (NetFiring.Unfailing target) l) :
    (Stepwise (FixedTuple target) l → ∀ p, p <+: l → NoGhosts target p) ∧
    (Unshared l → ((∀ p, p <+: l → NoGhosts target p) ↔ Stepwise (FixedTuple target) l)) := by
  have hsound : Stepwise (FixedTuple target) l → ∀ p, p <+: l → NoGhosts target p :=
    fun hfixed p hp => noGhosts_of_fixed (hok.of_isPrefix hp) (hfixed.of_isPrefix hp)
  refine ⟨hsound, fun hunshared => ⟨fun h => ?_, hsound⟩⟩
  clear hsound
  induction l using List.reverseRecOn with
  | nil => exact stepwise_nil _
  | append_singleton l f ih =>
    obtain ⟨hl, hlast⟩ := forall_prefix_concat.mp h
    have hfixed := ih (stepwise_concat.mp hok).1
      (fun a ha b hb => hunshared a (by simp [ha]) b (by simp [hb])) hl
    refine stepwise_concat.mpr ⟨hfixed, fun ht => ?_⟩
    by_contra hchanged
    have := more_entries_of_changed hok hfixed hunshared ht hchanged
    have := hlast.2
    omega

/-- The sockets of `twoSockets` keep their tuples. -/
theorem no_ghosts_twoSockets : NoGhosts (.Pid 1) twoSockets :=
  (no_ghosts_iff twoSockets_unfailing).1 twoSockets_fixed twoSockets List.prefix_rfl

/-- A connect: the local port is 0 at the first transition, and known from the second on. -/
def connectRun : List NetFiring :=
  [.plain .StateChange 1 8 0 2, .plain .StateChange 1 8 80 1, .plain .StateChange 1 8 80 7]

/-- The entry under port 0 outlives its socket. -/
theorem connect_leaves_a_ghost :
    Stepwise (NetFiring.Unfailing (.Pid 1)) connectRun ∧
      (creator (.Pid 1) connectRun (NetFiring.plain .StateChange 1 8 0 2).tuple).map
        NetFiring.skaddr = some 8 ∧
      ((connections (.Pid 1) connectRun).lookup
        (NetFiring.plain .StateChange 1 8 0 2).tuple).isSome ∧
      ¬ NoGhosts (.Pid 1) connectRun := by
  refine ⟨?_, ?_, ?_, fun h => ?_⟩
  · decide +kernel
  · decide +kernel
  · decide +kernel
  · exact absurd h.2 (by decide +kernel)

end Ghosts

/-! ## Followed to the end -/

/-- The firing is a transition to another state than `TCP_CLOSE`. -/
def NetFiring.Opens (f : NetFiring) : Prop := f.kind = .StateChange ∧ f.closes = false

instance (f : NetFiring) : Decidable f.Opens := inferInstanceAs (Decidable (_ ∧ _))

/-- Since it was last closed, `s` has made a transition whose record was written. -/
def Reported (target : Target) : List NetFiring → UInt64 → Prop :=
  Since NetFiring.skaddr NetFiring.closes fun pre g => g.Opens ∧ Emits target pre g

/-- Since it was last closed, `s` has made a transition in the target's context. -/
def SeenInContext (target : Target) : List NetFiring → UInt64 → Prop :=
  Since NetFiring.skaddr NetFiring.closes fun _ g => g.Opens ∧ g.Matches target

/-- Since it was last closed, `s` has made a transition in the target's context that found
fewer than 1024 sockets tracked. -/
def FoundRoom (target : Target) : List NetFiring → UInt64 → Prop :=
  Since NetFiring.skaddr NetFiring.closes fun pre g =>
    g.Opens ∧ g.Matches target ∧ (afterNet target pre).trackedSocks.size < 1024

instance (target : Target) (l : List NetFiring) (s : UInt64) :
    Decidable (SeenInContext target l s) :=
  inferInstanceAs (Decidable (Since _ _ _ l s))

instance (target : Target) (l : List NetFiring) (s : UInt64) : Decidable (FoundRoom target l s) :=
  inferInstanceAs (Decidable (Since _ _ _ l s))

/-- An open socket reports the tuple it reported before. -/
def TupleKept (pre : List NetFiring) (f : NetFiring) : Prop :=
  ∀ g ∈ lastWhere (fun g => g.skaddr = f.skaddr) pre, g.closes = false → f.tuple = g.tuple

instance (pre : List NetFiring) (f : NetFiring) : Decidable (TupleKept pre f) :=
  inferInstanceAs (Decidable (∀ g ∈ lastWhere _ pre, _ → _))

section Followed
variable {target : Target} {l : List NetFiring} {f : NetFiring}

/-- When only a full map can refuse a socket, the tracked sockets are those that found room. -/
lemma tracked_iff_foundRoom
    (hok : ∀ f ∈ l, f.Written ∧ f.helpers.insertError = none) (s : UInt64) :
    Tracked target l s ↔ FoundRoom target l s := by
  induction l using List.reverseRecOn with
  | nil => simp [FoundRoom]
  | append_singleton l f ih =>
    have ih := ih fun g hg => hok g (List.mem_append_left _ hg)
    obtain ⟨hout, hins⟩ := hok f (by simp)
    rw [tracked_concat]
    by_cases hs : s = f.skaddr
    · subst hs
      rw [if_pos rfl, FoundRoom, since_concat_self, ← FoundRoom, ← ih]
      by_cases hc : f.closes = true
      · simp [hc, hout, NetFiring.Opens]
      · by_cases ht : Tracked target l f.skaddr
        · simp [hc, ht]
        · have hroom : Insertable target l f ↔ (afterNet target l).trackedSocks.size < 1024 := by
            have hnone : ¬ ((afterNet target l).trackedSocks.get f.skaddr).isSome := ht
            simp [Insertable, hins, BoundedMap.HasRoom, hnone]
          simp [hc, ht, Discovers, hout.1, hroom, NetFiring.Opens]
    · rw [if_neg hs, FoundRoom, since_concat_of_ne (Ne.symm hs), ← FoundRoom, ih]

lemma seenInContext_of_foundRoom {s : UInt64} (h : FoundRoom target l s) :
    SeenInContext target l s :=
  h.imp fun _ _ _ hg => ⟨hg.1, hg.2.1⟩

/-- A socket that was reported has been seen in the target's context. -/
lemma seenInContext_of_emits
    (hok : ∀ f ∈ l, f.Written ∧ f.helpers.insertError = none) {s : UInt64}
    (h : Since NetFiring.skaddr NetFiring.closes
      (fun pre g => g.closes = false ∧ Emits target pre g) l s) : SeenInContext target l s := by
  induction l using List.reverseRecOn with
  | nil => simp at h
  | append_singleton l f ih =>
    have hokl : ∀ f ∈ l, f.Written ∧ f.helpers.insertError = none :=
      fun g hg => hok g (List.mem_append_left _ hg)
    by_cases hs : f.skaddr = s
    · subst hs
      rw [SeenInContext, since_concat_self, ← SeenInContext]
      rcases since_concat_self.mp h with ⟨hopen, ⟨-, ht | ⟨hk, hm⟩⟩, -⟩ | ⟨hopen, hsince⟩
      · exact Or.inr ⟨hopen, seenInContext_of_foundRoom ((tracked_iff_foundRoom hokl _).mp ht)⟩
      · exact Or.inl ⟨⟨hk, hopen⟩, hm⟩
      · exact Or.inr ⟨hopen, ih hokl hsince⟩
    · rw [SeenInContext, since_concat_of_ne hs, ← SeenInContext]
      exact ih hokl ((since_concat_of_ne hs).mp h)

/-- While a socket is open it reports one tuple. -/
lemma last_of_since (htuple : Stepwise TupleKept l) {P : List NetFiring → NetFiring → Prop}
    {s : UInt64} {k : ConnectionKey}
    (h : Since NetFiring.skaddr NetFiring.closes
      (fun pre g => g.closes = false ∧ g.tuple = k ∧ P pre g) l s) :
    ∃ g, lastWhere (fun g => g.skaddr = s) l = some g ∧ g.closes = false ∧ g.tuple = k := by
  induction l using List.reverseRecOn with
  | nil => simp at h
  | append_singleton l f ih =>
    obtain ⟨hl, hf⟩ := stepwise_concat.mp htuple
    rw [lastWhere_concat]
    by_cases hs : f.skaddr = s
    · subst hs
      refine ⟨f, by simp, ?_⟩
      rcases since_concat_self.mp h with ⟨hopen, htup, -⟩ | ⟨hopen, hsince⟩
      · exact ⟨hopen, htup⟩
      · obtain ⟨g, hlast, hgopen, rfl⟩ := ih hl hsince
        exact ⟨hopen, hf g hlast hgopen⟩
    · obtain ⟨g, hlast, hrest⟩ := ih hl ((since_concat_of_ne hs).mp h)
      exact ⟨g, by simpa [hs] using hlast, hrest⟩

/-- A socket that closes outside the target's context, having been seen in it, found room in
`TRACKED_SOCKS` at one of the transitions there. -/
def RoomBeforeClose (target : Target) (pre : List NetFiring) (c : NetFiring) : Prop :=
  c.closes = true → SeenInContext target pre c.skaddr →
    c.Matches target ∨ FoundRoom target pre c.skaddr

instance (target : Target) (pre : List NetFiring) (c : NetFiring) :
    Decidable (RoomBeforeClose target pre c) :=
  inferInstanceAs (Decidable (_ → _ → _))

/-- Then the close is reported. -/
lemma emits_of_roomBeforeClose (hok : ∀ f ∈ l, f.Written ∧ f.helpers.insertError = none)
    (hwritten : f.Written) (hroom : RoomBeforeClose target l f) (hc : f.closes = true)
    (hseen : SeenInContext target l f.skaddr) : Emits target l f := by
  refine ⟨⟨hwritten.1, ?_⟩, hwritten⟩
  rcases hroom hc hseen with hm | hfound
  · exact Or.inr ⟨NetFiring.kind_of_closes hc, hm⟩
  · exact Or.inl ((tracked_iff_foundRoom hok _).mpr hfound)

/-- Moreover every entry of `connections` is of a socket that is still open. -/
lemma open_of_lookup
    (hok : ∀ f ∈ l, f.Written ∧ f.helpers.insertError = none)
    (htuple : Stepwise TupleKept l) (hroom : Stepwise (RoomBeforeClose target) l)
    {k : ConnectionKey} (h : ((connections target l).lookup k).isSome) :
    ∃ s, Since NetFiring.skaddr NetFiring.closes
      (fun pre g => g.closes = false ∧ g.tuple = k ∧ Emits target pre g) l s := by
  induction l using List.reverseRecOn with
  | nil => simp at h
  | append_singleton l f ih =>
    obtain ⟨htuplel, htuplef⟩ := stepwise_concat.mp htuple
    obtain ⟨hrooml, hroomf⟩ := stepwise_concat.mp hroom
    have hokl : ∀ f ∈ l, f.Written ∧ f.helpers.insertError = none :=
      fun g hg => hok g (List.mem_append_left _ hg)
    rw [lookup_connections_concat] at h
    by_cases hwrite : Emits target l f ∧ k = f.tuple
    · obtain ⟨he, rfl⟩ := hwrite
      have hopen : f.closes = false := by
        by_contra hc
        have hc : f.closes = true := by simpa using hc
        simp [he, hc] at h
      exact ⟨f.skaddr, since_concat_self.mpr (Or.inl ⟨hopen, rfl, he⟩)⟩
    · rw [if_neg hwrite] at h
      obtain ⟨s, hsince⟩ := ih hokl htuplel hrooml h
      by_cases hs : f.skaddr = s
      · subst hs
        -- `f` cannot close the socket: it would be reported, with the tuple of the entry
        have hopen : f.closes = false := by
          by_contra hc
          have hc : f.closes = true := by simpa using hc
          have hseen := seenInContext_of_emits hokl (hsince.imp fun _ _ _ hg => ⟨hg.1, hg.2.2⟩)
          have he := emits_of_roomBeforeClose hokl (hok f (by simp)).1 hroomf hc hseen
          obtain ⟨g, hlast, hgopen, rfl⟩ := last_of_since htuplel hsince
          exact hwrite ⟨he, (htuplef g hlast hgopen).symm⟩
        exact ⟨f.skaddr, since_concat_self.mpr (Or.inr ⟨hopen, hsince⟩)⟩
      · exact ⟨s, (since_concat_of_ne hs).mpr hsince⟩

/-- **Every reported connection is followed to its end, exactly when there was room.**  Suppose
no read and no output fails, and an insertion fails only when the map is full.  A close is reported
whenever a transition of the socket was, and every entry of `connections` is of a socket still
open, if and only if every socket that closes outside the target's context, having made a
transition in it since it was last closed, made one when fewer than 1024 sockets were
tracked. -/
theorem followed_to_the_end_iff
    (hok : ∀ f ∈ l, f.Written ∧ f.helpers.insertError = none)
    (htuple : Stepwise TupleKept l) :
    (Stepwise (fun pre c => c.closes = true → Reported target pre c.skaddr →
        Emits target pre c) l ∧
      ∀ p, p <+: l → ∀ k, ((connections target p).lookup k).isSome →
        ∃ s, Since NetFiring.skaddr NetFiring.closes
          (fun pre g => g.closes = false ∧ g.tuple = k ∧ Emits target pre g) p s) ↔
    Stepwise (RoomBeforeClose target) l := by
  constructor
  · rintro ⟨hfollowed, -⟩ pre c post hl hc hseen
    have hokpre : ∀ f ∈ pre, f.Written ∧ f.helpers.insertError = none :=
      fun f hf => hok f (by simp [hl, hf])
    have hreported : Reported target pre c.skaddr := by
      refine hseen.imp fun pre' g hg hopens => ?_
      have hwritten := (hokpre g (hg.subset (by simp))).1
      exact ⟨hopens.1, ⟨hwritten.1, Or.inr ⟨hopens.1.1, hopens.2⟩⟩, hwritten⟩
    rcases (hfollowed pre c post hl hc hreported).1.2 with ht | ⟨-, hm⟩
    · exact Or.inr ((tracked_iff_foundRoom hokpre _).mp ht)
    · exact Or.inl hm
  · intro hroom
    refine ⟨fun pre c post hl hc hreported => ?_, fun p hp k hk => ?_⟩
    · have hokpre : ∀ f ∈ pre, f.Written ∧ f.helpers.insertError = none :=
        fun f hf => hok f (by simp [hl, hf])
      have hseen := seenInContext_of_emits hokpre
        (hreported.imp fun _ _ _ hg => ⟨hg.1.2, hg.2⟩)
      exact emits_of_roomBeforeClose hokpre (hok c (by simp [hl])).1 (hroom pre c post hl) hc
        hseen
    · exact open_of_lookup (fun f hf => hok f (hp.subset hf)) (htuple.of_isPrefix hp)
        (hroom.of_isPrefix hp) hk

/-- The socket that closes in `twoSockets` was tracked, so its close is reported. -/
theorem followed_to_the_end_twoSockets :
    Stepwise (fun pre c => c.closes = true → Reported (.Pid 1) pre c.skaddr →
      Emits (.Pid 1) pre c) twoSockets :=
  ((followed_to_the_end_iff (by decide +kernel) (by decide +kernel)).mpr (by decide +kernel)).1

/-- The first transition, in process 1, of the socket with address and port `i`. -/
def member (i : ℕ) : NetFiring :=
  .plain .StateChange 1 (UInt16.ofNat i) (UInt16.ofNat i) 1

/-- Process 1 opens `n` sockets. -/
def crowd (n : ℕ) : List NetFiring := (List.range n).map member

/-- The socket with address and port 1024 closes in process 2. -/
def lateClose : NetFiring := .plain .StateChange 2 (UInt16.ofNat 1024) (UInt16.ofNat 1024) 7

lemma crowd_succ (n : ℕ) : crowd (n + 1) = crowd n ++ [member n] := by
  simp [crowd, List.range_succ]

lemma skaddr_member (i : ℕ) : (member i).skaddr = (UInt16.ofNat i).toUInt64 :=
  NetFiring.skaddr_plain _ _ _ _ _

lemma closes_member (i : ℕ) : (member i).closes = false := by
  have hstate : (member i).event.state = (1 : UInt8).toUInt16 := NetFiring.state_plain _ _ _ _ _
  by_contra hc
  have hclose := (NetFiring.closes_iff rfl).mp (show (member i).closes = true by simpa using hc)
  exact absurd (hstate.symm.trans hclose) (by decide)

lemma emits_member {i : ℕ} {l : List NetFiring} : Emits (.Pid 1) l (member i) :=
  ⟨⟨rfl, Or.inr ⟨rfl, matchesTarget_load_pid _ 1⟩⟩, NetFiring.written_plain _ _ _ _ _⟩

/-- Up to its capacity `TRACKED_SOCKS` takes the whole crowd, and nobody else. -/
lemma tracked_crowd {n : ℕ} (hn : n ≤ 1024) :
    (afterNet (.Pid 1) (crowd n)).trackedSocks.size = n ∧
      ∀ i < 65536, Tracked (.Pid 1) (crowd n) (member i).skaddr → i < n := by
  induction n with
  | zero => simp [crowd, afterNet, Kernel.load]
  | succ n ih =>
    obtain ⟨hsize, htracked⟩ := ih (by omega)
    have hnew : ¬ Tracked (.Pid 1) (crowd n) (member n).skaddr := by
      intro ht
      have := htracked n (by omega) ht
      omega
    have hd : Discovers (.Pid 1) (crowd n) (member n) :=
      ⟨rfl, rfl, matchesTarget_load_pid _ 1, rfl, Or.inr (by omega)⟩
    rw [crowd_succ]
    refine ⟨by rw [size_of_discovers hnew hd (closes_member n), hsize], fun i hi ht => ?_⟩
    rw [tracked_concat] at ht
    by_cases heq : (member i).skaddr = (member n).skaddr
    · rw [skaddr_member, skaddr_member] at heq
      have : (UInt16.ofNat i).toNat = (UInt16.ofNat n).toNat := by
        simpa using congrArg UInt64.toNat heq
      simp only [UInt16.toNat_ofNat'] at this
      omega
    · have := htracked i hi (by simpa [heq] using ht)
      omega

lemma mem_crowd_lateClose {f : NetFiring} (hf : f ∈ crowd 1025 ++ [lateClose]) :
    ∃ current addr state, f = .plain .StateChange current addr addr state := by
  rcases List.mem_append.mp hf with hf | hf
  · obtain ⟨i, -, rfl⟩ := List.mem_map.mp hf
    exact ⟨1, UInt16.ofNat i, 1, rfl⟩
  · exact ⟨2, UInt16.ofNat 1024, 7, List.mem_singleton.mp hf⟩

/-- Among the crowd, address and tuple determine each other. -/
lemma tuple_eq_iff_skaddr_eq {f g : NetFiring} (hf : f ∈ crowd 1025 ++ [lateClose])
    (hg : g ∈ crowd 1025 ++ [lateClose]) : f.tuple = g.tuple ↔ f.skaddr = g.skaddr := by
  obtain ⟨current, addr, state, rfl⟩ := mem_crowd_lateClose hf
  obtain ⟨current', addr', state', rfl⟩ := mem_crowd_lateClose hg
  rw [NetFiring.tuple_plain, NetFiring.tuple_plain, NetFiring.skaddr_plain,
    NetFiring.skaddr_plain]
  constructor
  · intro h
    have haddr : addr = addr' := congrArg ConnectionKey.sport h
    rw [haddr]
  · intro h
    have haddr : addr = addr' := UInt16.toNat_inj.mp (by simpa using congrArg UInt64.toNat h)
    rw [haddr]

/-- The last of 1025 sockets is reported but finds `TRACKED_SOCKS` full; its close, in another
process, is not reported, and its entry stays. -/
theorem crowd_is_not_followed :
    (∀ f ∈ crowd 1025 ++ [lateClose],
      f.Written ∧ f.helpers.insertError = none) ∧
    Stepwise TupleKept (crowd 1025 ++ [lateClose]) ∧ Unshared (crowd 1025 ++ [lateClose]) ∧
    Reported (.Pid 1) (crowd 1025) lateClose.skaddr ∧ lateClose.closes = true ∧
    ¬ Emits (.Pid 1) (crowd 1025) lateClose ∧
    ((connections (.Pid 1) (crowd 1025 ++ [lateClose])).lookup lateClose.tuple).isSome := by
  obtain ⟨hsize, htracked⟩ := tracked_crowd (le_refl 1024)
  have hsucc : crowd 1025 = crowd 1024 ++ [member 1024] := crowd_succ 1024
  have haddr : lateClose.skaddr = (member 1024).skaddr := by
    rw [skaddr_member]
    exact NetFiring.skaddr_plain _ _ _ _ _
  have hemits : Emits (.Pid 1) (crowd 1024) (member 1024) := emits_member
  have hopen := closes_member 1024
  -- the map is full when the last socket shows up
  have huntracked : ¬ Tracked (.Pid 1) (crowd 1024) (member 1024).skaddr := by
    intro ht
    have := htracked 1024 (by omega) ht
    omega
  have hfull : ¬ Tracked (.Pid 1) (crowd 1025) lateClose.skaddr := by
    rw [hsucc, haddr, tracked_concat, if_pos rfl]
    rintro ⟨ht | ⟨-, -, -, -, hold | hroom⟩, -⟩
    · exact huntracked ht
    · exact huntracked hold
    · omega
  have hsilent : ¬ Emits (.Pid 1) (crowd 1025) lateClose := by
    rintro ⟨⟨-, ht | ⟨-, hmatch⟩⟩, -⟩
    · exact hfull ht
    · exact absurd hmatch (by decide +kernel)
  refine ⟨fun f hf => ?_, fun pre f post hl g hg _ => ?_, fun f hf g hg => ?_, ?_, ?_, hsilent,
    ?_⟩
  · obtain ⟨current, addr, state, rfl⟩ := mem_crowd_lateClose hf
    exact ⟨NetFiring.written_plain _ _ _ _ _, rfl⟩
  · obtain ⟨hmem, hs⟩ := mem_of_lastWhere hg
    have hs : g.skaddr = f.skaddr := by simpa using hs
    exact (tuple_eq_iff_skaddr_eq (by simp [hl]) (by simp [hl, hmem])).mpr hs.symm
  · exact (tuple_eq_iff_skaddr_eq hf hg).mp
  · rw [hsucc, haddr]
    exact since_concat_self.mpr (Or.inl ⟨⟨rfl, hopen⟩, hemits⟩)
  · decide +kernel
  · have htuple : lateClose.tuple = (member 1024).tuple :=
      (NetFiring.tuple_plain _ _ _ _ _).trans (NetFiring.tuple_plain _ _ _ _ _).symm
    rw [lookup_connections_concat, if_neg fun h => hsilent h.1, hsucc, htuple,
      lookup_connections_concat, if_pos ⟨hemits, rfl⟩]
    simp [hopen]

end Followed

end Peekbeam
