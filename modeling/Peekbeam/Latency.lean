import Mathlib.Data.UInt
import Peekbeam.Drain.Syscalls
import Peekbeam.Threads

/-!
# Syscall latency: what the table says about the calls

The in-kernel programs report every syscall boundary with the process, the number and a
timestamp; userspace pairs the boundaries through one slot per `(pid, syscall_nr)`.  This file
states what that accounting says about the calls the threads really made, for every interleaving
of the threads.

* `latency_exact` — while no two threads of a process are inside one syscall number at a time,
  the table is exact: counts, total times and the calls still pending.
* `latency_never_over_reported` — without that assumption a call may be charged to the wrong
  start, but never to one before its own: no duration is over-reported.
* `counts_exact_iff` — and completed calls are lost exactly at the exits whose slot another
  thread of the process has used since; `overlap_loses_a_call` is the smallest such run.

All of it is an instance of `Foundation/SharedSlot.lean`, with the pair `(pid, syscall_nr)` as
the shared slot.
-/

namespace Peekbeam

open History SharedSlot

attribute [local irreducible] TracePointContext.field

variable {τ : Type}

/-! ## The table of a run -/

/-- Userspace's table after the run `l`, once every record is drained. -/
def drainedTable (target : Target) (l : List (SyscallFiring τ)) : SyscallTable :=
  SyscallTable.drainSyscalls (afterSyscalls target l).events {}

/-- The calls of `nr` that the slots of `pending` pair up. -/
def chargedCalls (l : List (SyscallFiring τ)) (nr : UInt64) :
    List (SyscallFiring τ × SyscallFiring τ) :=
  (pairs SyscallFiring.key SyscallFiring.opens l).filter fun p => p.2.syscallNr = nr

/-- Nanoseconds from the first firing of a pair to the second. -/
def elapsed (p : SyscallFiring τ × SyscallFiring τ) : ℕ := p.2.time.toNat - p.1.time.toNat

section Table
variable {target : Target} {l : List (SyscallFiring τ)}

lemma drainedTable_eq (hl : ∀ f ∈ l, f.Delivered target) :
    drainedTable target l = SyscallTable.ofEvents (l.map SyscallFiring.event) := by
  rw [drainedTable, afterSyscalls_events hl, SyscallTable.drainSyscalls_map_of]

lemma drainedTable_concat {f : SyscallFiring τ} (hl : ∀ g ∈ l ++ [f], g.Delivered target) :
    drainedTable target (l ++ [f]) = (drainedTable target l).drainOne f.event := by
  rw [drainedTable_eq hl, drainedTable_eq fun g hg => hl g (List.mem_append_left _ hg),
    List.map_append, List.map_singleton, SyscallTable.ofEvents_concat]

/-- `pending` holds the enters whose slot no later firing used. -/
lemma drainedTable_pending (hl : ∀ f ∈ l, f.Delivered target) (k : UInt32 × UInt64) :
    (drainedTable target l).pending.lookup k =
      (held SyscallFiring.key SyscallFiring.opens l k).map SyscallFiring.time := by
  rw [drainedTable_eq hl, SyscallTable.lookup_pending_ofEvents, held_map, Option.map_map]
  exact congrArg _ rfl

lemma charged_map (nr : UInt64) :
    SyscallTable.charged (l.map SyscallFiring.event) nr =
      (chargedCalls l nr).map (Prod.map SyscallFiring.event SyscallFiring.event) := by
  have hpairs : pairs SyscallEvent.key SyscallEvent.opens (l.map SyscallFiring.event) =
      (pairs SyscallFiring.key SyscallFiring.opens l).map
        (Prod.map SyscallFiring.event SyscallFiring.event) :=
    pairs_map _ _ _ l
  rw [SyscallTable.charged, hpairs, List.filter_map, chargedCalls]
  refine congrArg _ (List.filter_congr fun p _ => ?_)
  rw [Function.comp_apply, decide_eq_decide, Prod.map_snd, SyscallFiring.event]

lemma drainedTable_count (hl : ∀ f ∈ l, f.Delivered target) (nr : UInt64) :
    ((drainedTable target l).statsOf nr).count = (chargedCalls l nr).length := by
  rw [drainedTable_eq hl, (SyscallTable.statsOf_ofEvents _ nr).1, charged_map, List.length_map]

lemma drainedTable_totalNs (hl : ∀ f ∈ l, f.Delivered target) (nr : UInt64) :
    ((drainedTable target l).statsOf nr).totalNs.toNat =
      ((chargedCalls l nr).map elapsed).sum % 2 ^ 64 := by
  rw [drainedTable_eq hl, (SyscallTable.statsOf_ofEvents _ nr).2, charged_map, List.map_map]
  exact congrArg (fun d : List ℕ => d.sum % 2 ^ 64) rfl

end Table

variable [DecidableEq τ]

/-- The calls of `nr` whose enter and exit both fired, in the order of the exits. -/
def completedCalls (l : List (SyscallFiring τ)) (nr : UInt64) :
    List (SyscallFiring τ × SyscallFiring τ) :=
  (pairs SyscallFiring.thread SyscallFiring.opens l).filter fun p => p.2.syscallNr = nr

/-- No two threads of one process are inside the same syscall number. -/
def NoCollision (proc : τ → UInt32) (init : τ → Option OngoingCall)
    (l : List (SyscallFiring τ)) : Prop :=
  Exclusive SyscallFiring.thread SyscallFiring.key SyscallFiring.opens (initialKey proc init) l

/-! ## A run without collisions -/

open SyscallFiring (plain plain_delivered)

/-- One thread of process 1 makes a `read` while the other enters a `write` (64) and stays
there. -/
def sideBySide : List (SyscallFiring Bool) :=
  [plain false 1 .Enter 63 3 10, plain true 1 .Enter 64 4 20, plain false 1 .Exit 63 0 30]

lemma sideBySide_run : SyscallRun (.Pid 1) (fun _ => 1) (fun _ => none) sideBySide where
  delivered := by simp [sideBySide, plain_delivered]
  pid := by simp [sideBySide, plain, SyscallFiring.pid]
  alternates := by decide +kernel

lemma sideBySide_pairs : pairs SyscallFiring.thread SyscallFiring.opens sideBySide =
    [(plain false 1 .Enter 63 3 10, plain false 1 .Exit 63 0 30)] := rfl

lemma sideBySide_completed (nr : UInt64) :
    completedCalls sideBySide nr =
      if 63 = nr then [(plain false 1 .Enter 63 3 10, plain false 1 .Exit 63 0 30)] else [] := by
  have hnr : (plain false 1 .Exit 63 0 30).syscallNr = 63 := by decide +kernel
  rw [completedCalls, sideBySide_pairs]
  simp only [List.filter_cons, List.filter_nil, hnr, decide_eq_true_eq]

section Runs
variable {target : Target} {proc : τ → UInt32} {init : τ → Option OngoingCall}
  {l : List (SyscallFiring τ)}

/-! ## Runs without collisions -/

/-- The latency of a completed call. -/
def latency (p : SyscallFiring τ × SyscallFiring τ) : ℤ := p.2.time.toNat - p.1.time.toNat

omit [DecidableEq τ] in
lemma sum_latency {ps : List (SyscallFiring τ × SyscallFiring τ)}
    (h : ∀ p ∈ ps, p.1.time ≤ p.2.time) : (ps.map latency).sum = ((ps.map elapsed).sum : ℕ) := by
  induction ps with
  | nil => rfl
  | cons p ps ih =>
    have hp : p.1.time.toNat ≤ p.2.time.toNat := UInt64.le_iff_toNat_le.mp (h p (by simp))
    have := ih fun q hq => h q (List.mem_cons_of_mem _ hq)
    simp only [List.map_cons, List.sum_cons, this, latency, elapsed]
    push_cast [hp]
    rfl

/-- **Exact latency accounting when keys do not collide.**  For every interleaving in which no
two threads of a process are ever inside the same syscall number, the drained table holds for
each number exactly the completed calls and their total latency, and `pending` exactly the
calls that were entered and not yet exited. -/
theorem latency_exact (hrun : SyscallRun target proc init l)
    (hexcl : ∀ p, p <+: l → NoCollision proc init p)
    (htime : ∀ nr, ∀ p ∈ completedCalls l nr, p.1.time ≤ p.2.time)
    (hsum : ∀ nr, ((completedCalls l nr).map latency).sum < 2 ^ 64) :
    (∀ nr, ((drainedTable target l).statsOf nr).count = (completedCalls l nr).length ∧
      (((drainedTable target l).statsOf nr).totalNs.toNat : ℤ) =
        ((completedCalls l nr).map latency).sum) ∧
    ∀ pid nr t, (drainedTable target l).pending.lookup (pid, nr) = some t ↔
      ∃ th e, proc th = pid ∧ ownEnter l th = some e ∧ e.syscallNr = nr ∧ e.time = t := by
  have hpairs : ∀ nr, chargedCalls l nr = completedCalls l nr := fun nr => by
    rw [chargedCalls, completedCalls, pairs_key_eq_pairs_thread hrun.alternates hexcl]
  refine ⟨fun nr => ⟨?_, ?_⟩, fun pid nr t => ?_⟩
  · rw [drainedTable_count hrun.delivered, hpairs]
  · have hcast := sum_latency (htime nr)
    have hlt : ((completedCalls l nr).map elapsed).sum < 2 ^ 64 := by
      have := hsum nr
      rw [hcast] at this
      exact_mod_cast this
    rw [drainedTable_totalNs hrun.delivered, hpairs, hcast, Nat.mod_eq_of_lt hlt]
  · rw [drainedTable_pending hrun.delivered]
    constructor
    · intro h
      obtain ⟨e, he, rfl⟩ := Option.map_eq_some_iff.mp h
      obtain ⟨hmem, hkey, -⟩ := held_eq_some he
      have hpid : e.pid = pid := congrArg Prod.fst hkey
      exact ⟨e.thread, e, (hrun.pid e hmem).symm.trans hpid,
        held_thread_of_held_key hrun.alternates he, congrArg Prod.snd hkey, rfl⟩
    · rintro ⟨th, e, rfl, he, rfl, rfl⟩
      have hkey : e.key = (proc th, e.syscallNr) := by
        obtain ⟨hmem, hth, -⟩ := held_eq_some he
        rw [SyscallFiring.key, hrun.pid e hmem, hth]
      have := held_key_of_held_thread hrun.alternates hexcl he
      rw [← hkey, this]
      rfl

/-- In `sideBySide` the slots do not collide, so the table is exact. -/
theorem latency_exact_sideBySide :
    ((drainedTable (.Pid 1) sideBySide).statsOf 63).count = 1 ∧
      ((drainedTable (.Pid 1) sideBySide).statsOf 63).totalNs = 20 ∧
      (drainedTable (.Pid 1) sideBySide).pending.lookup (1, 64) = some 20 := by
  have hexcl : ∀ p, p <+: sideBySide → NoCollision (fun _ => 1) (fun _ => none) p := by
    unfold NoCollision
    rw [forall_prefix_iff_take]
    decide +kernel
  have htime : ∀ nr, ∀ p ∈ completedCalls sideBySide nr, p.1.time ≤ p.2.time := by
    intro nr
    rw [sideBySide_completed]
    split <;> decide +kernel
  have hsum : ∀ nr, ((completedCalls sideBySide nr).map latency).sum < 2 ^ 64 := by
    intro nr
    rw [sideBySide_completed]
    split <;> decide +kernel
  obtain ⟨hstats, hpending⟩ := latency_exact sideBySide_run hexcl htime hsum
  obtain ⟨hcount, htotal⟩ := hstats 63
  have htwenty : ((completedCalls sideBySide 63).map latency).sum = 20 := by decide +kernel
  rw [sideBySide_completed, if_pos rfl] at hcount
  rw [htwenty] at htotal
  refine ⟨hcount, UInt64.toNat_inj.mp (by exact_mod_cast htotal), ?_⟩
  rw [hpending]
  exact ⟨true, plain true 1 .Enter 64 4 20, rfl, rfl, by decide +kernel, rfl⟩

/-! ## Arbitrary overlap: no duration is over-reported -/

/-- When the call a thread is inside really began: at its enter firing, or before the run. -/
def trueStart (init : τ → Option OngoingCall) (pre : List (SyscallFiring τ))
    (f : SyscallFiring τ) : UInt64 :=
  match ownEnter pre f.thread with
  | some e => e.time
  | none => ((init f.thread).map OngoingCall.enterNs).getD 0

/-- How long the call that `f` exits really took. -/
def trueDuration (init : τ → Option OngoingCall) (pre : List (SyscallFiring τ))
    (f : SyscallFiring τ) : ℕ :=
  f.time.toNat - (trueStart init pre f).toNat

/-- The true durations of the calls of `nr` that exited during the run. -/
def returnedDurations (init : τ → Option OngoingCall) (l : List (SyscallFiring τ))
    (nr : UInt64) : List ℕ :=
  collect (fun pre f =>
    if f.opens = false ∧ f.syscallNr = nr then [trueDuration init pre f] else []) l

/-- Whatever start is pending at a thread's exit, it is not before that thread's own. -/
lemma trueStart_le_pending {pre : List (SyscallFiring τ)} {f : SyscallFiring τ}
    (hrun : SyscallRun target proc init (pre ++ [f])) (hclose : f.opens = false)
    (hinit : ∀ th call, init th = some call → ∀ g ∈ pre, call.enterNs ≤ g.time)
    (hmono : pre.Pairwise fun f g => f.time ≤ g.time) {start : UInt64}
    (hpend : (drainedTable target pre).pending.lookup f.key = some start) :
    trueStart init pre f ≤ start := by
  have hpre := hrun.of_isPrefix (List.prefix_append pre [f])
  rw [drainedTable_pending hpre.delivered] at hpend
  obtain ⟨e', he', rfl⟩ := Option.map_eq_some_iff.mp hpend
  have hin : inside SyscallFiring.thread SyscallFiring.key SyscallFiring.opens
      (initialKey proc init) pre f.thread = some f.key := by
    simpa [Alternates, hclose] using (stepwise_concat.mp hrun.alternates).2
  unfold trueStart
  cases hown : ownEnter pre f.thread with
  | some e =>
    have hkey : e.key = f.key := Option.some.inj ((inside_of_held hown).symm.trans hin)
    exact own_rel_held (fun a => UInt64.le_refl a.time) hmono hown (hkey ▸ he')
  | none =>
    obtain ⟨call, hcall, -⟩ := Option.map_eq_some_iff.mp
      (show initialKey proc init f.thread = some f.key from init_of_inside hin hown)
    simpa [hcall] using hinit _ _ hcall e' (held_eq_some he').1

/-- What one exit adds to the table: nothing, or one call no longer than the true one. -/
lemma statsOf_exit {pre : List (SyscallFiring τ)} {f : SyscallFiring τ}
    (hrun : SyscallRun target proc init (pre ++ [f])) (hclose : f.opens = false)
    (hinit : ∀ th call, init th = some call → ∀ g ∈ pre, call.enterNs ≤ g.time)
    (hmono : pre.Pairwise fun f g => f.time ≤ g.time) (nr : UInt64) :
    (drainedTable target (pre ++ [f])).statsOf nr = (drainedTable target pre).statsOf nr ∨
      f.syscallNr = nr ∧ ∃ dur : UInt64, dur.toNat ≤ trueDuration init pre f ∧
        (drainedTable target (pre ++ [f])).statsOf nr =
          { count := ((drainedTable target pre).statsOf nr).count + 1
            totalNs := ((drainedTable target pre).statsOf nr).totalNs + dur } := by
  have hevent : f.event.opens = false := hclose
  rw [drainedTable_concat hrun.delivered, SyscallTable.statsOf_drainOne_exit hevent]
  cases hpend : (drainedTable target pre).pending.lookup f.event.key with
  | none => exact Or.inl rfl
  | some start =>
    by_cases hnr : f.syscallNr = nr
    · refine Or.inr ⟨hnr, saturatingSub f.time start, ?_, if_pos hnr⟩
      have := UInt64.le_iff_toNat_le.mp (trueStart_le_pending hrun hclose hinit hmono hpend)
      rw [toNat_saturatingSub, trueDuration]
      omega
    · exact Or.inl (if_neg hnr)

/-- **Syscall time is never over-reported.**  For every interleaving with a non-decreasing
clock, every duration added at an exit is at most the true duration of the very call that
exited; so for every number the count is at most the number of calls that exited, and the total
time at most the sum of their true durations. -/
theorem latency_never_over_reported (hrun : SyscallRun target proc init l)
    (hinit : ∀ th call, init th = some call → ∀ g ∈ l, call.enterNs ≤ g.time)
    (hmono : l.Pairwise fun f g => f.time ≤ g.time) :
    (∀ pre f post, l = pre ++ f :: post → f.opens = false → ∀ nr,
      (drainedTable target (pre ++ [f])).statsOf nr = (drainedTable target pre).statsOf nr ∨
        f.syscallNr = nr ∧ ∃ dur : UInt64, dur.toNat ≤ trueDuration init pre f ∧
          (drainedTable target (pre ++ [f])).statsOf nr =
            { count := ((drainedTable target pre).statsOf nr).count + 1
              totalNs := ((drainedTable target pre).statsOf nr).totalNs + dur }) ∧
    ∀ nr, ((drainedTable target l).statsOf nr).count ≤ (returnedDurations init l nr).length ∧
      ((drainedTable target l).statsOf nr).totalNs.toNat ≤ (returnedDurations init l nr).sum := by
  constructor
  · rintro pre f post rfl hclose nr
    refine statsOf_exit (hrun.of_split rfl) hclose (fun th call hc g hg => ?_)
      (List.pairwise_append.mp hmono).1 nr
    exact hinit th call hc g (List.mem_append_left _ hg)
  · intro nr
    induction l using List.reverseRecOn with
    | nil => simp [drainedTable_eq, SyscallTable.ofEvents, SyscallTable.statsOf]
    | append_singleton l f ih =>
      have hmono' := (List.pairwise_append.mp hmono).1
      have hinit' : ∀ th call, init th = some call → ∀ g ∈ l, call.enterNs ≤ g.time :=
        fun th call hc g hg => hinit th call hc g (List.mem_append_left _ hg)
      obtain ⟨hcount, htotal⟩ := ih (hrun.of_isPrefix (List.prefix_append l [f])) hinit' hmono'
      rw [returnedDurations, collect_concat, ← returnedDurations]
      by_cases ho : f.opens = true
      · have hevent : f.event.opens = true := ho
        rw [drainedTable_concat hrun.delivered, SyscallTable.statsOf_drainOne_enter hevent]
        simpa [ho] using ⟨hcount, htotal⟩
      · have hclose : f.opens = false := by simpa using ho
        rcases statsOf_exit hrun hclose hinit' hmono' nr with hsame | ⟨hnr, dur, hdur, hadd⟩
        · rw [hsame, List.length_append, List.sum_append]
          omega
        · simp only [hadd, hclose, hnr, and_self, if_true, List.length_append, List.sum_append,
            List.length_singleton, List.sum_singleton, UInt64.toNat_add]
          have := Nat.mod_le
            (((drainedTable target l).statsOf nr).totalNs.toNat + dur.toNat) (2 ^ 64)
          omega

/-- In `overlap` the two reads took 20 ns each, and no more than that is reported. -/
theorem latency_never_over_reported_overlap :
    ((drainedTable (.Pid 1) overlap).statsOf 63).count ≤ 2 ∧
      ((drainedTable (.Pid 1) overlap).statsOf 63).totalNs.toNat ≤ 40 := by
  have hdurations : returnedDurations (fun _ => none) overlap 63 = [20, 20] := by
    decide +kernel
  obtain ⟨-, htable⟩ := latency_never_over_reported overlap_run (by simp) (by decide +kernel)
  have := htable 63
  rwa [hdurations] at this

/-! ## Which calls are lost -/

/-- At every exit the most recent earlier firing of the same process and number is an enter
exactly if the exiting thread's own enter fired. -/
def ExitsFindAnEnter (l : List (SyscallFiring τ)) : Prop :=
  Stepwise (fun pre f => f.opens = false →
    ((held SyscallFiring.key SyscallFiring.opens pre f.key).isSome ↔
      (ownEnter pre f.thread).isSome)) l

/-- **No completed call is lost, exactly when every exit finds an enter.**  In every state
reached the counts are the completed calls if and only if no exit of a completed call comes
after another exit of its process and number with no enter between them, and no exit of a call
from before the run directly follows an enter. -/
theorem counts_exact_iff (hrun : SyscallRun target proc init l) :
    (∀ p, p <+: l → ∀ nr,
      ((drainedTable target p).statsOf nr).count = (completedCalls p nr).length) ↔
    ExitsFindAnEnter l := by
  have hcount : ∀ p, p <+: l → ∀ nr, ((drainedTable target p).statsOf nr).count =
      pairCount SyscallFiring.key SyscallFiring.opens SyscallFiring.syscallNr p nr := by
    intro p hp nr
    rw [drainedTable_count (hrun.of_isPrefix hp).delivered, pairCount,
      List.countP_eq_length_filter]
    rfl
  have hcompleted : ∀ (p : List (SyscallFiring τ)) nr, (completedCalls p nr).length =
      pairCount SyscallFiring.thread SyscallFiring.opens SyscallFiring.syscallNr p nr := by
    intro p nr
    rw [pairCount, List.countP_eq_length_filter]
    rfl
  refine Iff.trans ?_ (pairCount_eq_iff SyscallFiring.key SyscallFiring.thread
    SyscallFiring.opens SyscallFiring.syscallNr)
  constructor
  · intro h p hp nr
    rw [← hcount p hp, ← hcompleted, h p hp]
  · intro h p hp nr
    rw [hcount p hp, hcompleted, h p hp]

/-- Every exit of `sideBySide` finds its enter, so nothing is lost there. -/
theorem counts_exact_sideBySide :
    ((drainedTable (.Pid 1) sideBySide).statsOf 63).count =
      (completedCalls sideBySide 63).length := by
  have hexits : ExitsFindAnEnter sideBySide := by
    unfold ExitsFindAnEnter ownEnter
    decide +kernel
  exact (counts_exact_iff sideBySide_run).mpr hexits sideBySide List.prefix_rfl 63

/-- The exit of the first read of `overlap` consumes the slot of the second, whose exit then
finds nothing. -/
theorem overlap_loses_a_call :
    SyscallRun (.Pid 1) (fun _ => 1) (fun _ => none) overlap ∧
      ((drainedTable (.Pid 1) overlap).statsOf 63).count = 1 ∧
      (completedCalls overlap 63).length = 2 := by
  refine ⟨overlap_run, ?_, ?_⟩
  · decide +kernel
  · decide +kernel

end Runs

end Peekbeam
