import Mathlib.Algebra.Group.Action.Defs
import Mathlib.Algebra.Order.BigOperators.Group.Finset
import Mathlib.Algebra.Order.BigOperators.Group.List
import Peekbeam.Drain.Syscalls
import Peekbeam.Foundation.Accumulators
import Peekbeam.Kernel.Run

/-!
# Syscall time and elapsed time

A duration is charged from an enter to the exit right after it among the events of their process
and number.  The intervals charged to one process and number are therefore disjoint, whatever
records are missing: an enter that is overwritten and an exit without an enter charge nothing.
When the timestamps do not decrease along the stream, `total_time_bounded` follows: the total of
a number is at most the time the stream spans, once per process.

`SyscallTable.additions` are the additions of `drain_syscalls` that could overflow.
-/

namespace Peekbeam

open History KeyedFold SharedSlot Accumulators

namespace SyscallTable

/-! ## Additions -/

/-- The additions of durations one iteration of `drain_syscalls` performs. -/
def additions (t : SyscallTable) (event : SyscallEvent) : List (UInt64 × UInt64) :=
  match event.kind, t.pending.lookup event.key with
  | .Exit, some start =>
    [((t.statsOf event.syscallNr).totalNs, saturatingSub event.timestampNs start)]
  | _, _ => []

/-- What one iteration adds is the sample it takes. -/
lemma additions_ofEvents (es : List SyscallEvent) (e : SyscallEvent) :
    (additions (ofEvents es) e = [] ∧ ∀ nr, samples (es ++ [e]) nr = samples es nr) ∨
      ∃ d, additions (ofEvents es) e = [(((ofEvents es).statsOf e.syscallNr).totalNs, d)] ∧
        samples (es ++ [e]) e.syscallNr = samples es e.syscallNr ++ [d.toNat] ∧
        ∀ nr, nr ≠ e.syscallNr → samples (es ++ [e]) nr = samples es nr := by
  have hheld : held SyscallEvent.key SyscallEvent.opens es e.key =
      (previous es e).filter SyscallEvent.opens := rfl
  simp only [samples_concat, additions, lookup_pending_ofEvents, hheld]
  cases hk : e.kind with
  | Enter => exact Or.inl ⟨rfl, fun nr => by cases previous es e <;> simp⟩
  | Exit =>
    cases hprev : previous es e with
    | none => exact Or.inl ⟨rfl, fun nr => by simp⟩
    | some enter =>
      cases hk' : enter.kind with
      | Enter =>
        refine Or.inr ⟨saturatingSub e.timestampNs enter.timestampNs, ?_, ?_, fun nr hnr => ?_⟩
        · simp [Option.filter, SyscallEvent.opens, hk']
        · simp [hk']
        · simp [Ne.symm hnr]
      | Exit =>
        refine Or.inl ⟨?_, fun nr => ?_⟩
        · simp [Option.filter, SyscallEvent.opens, hk']
        · simp [hk']

/-- The totals are accumulators of the samples. -/
lemma accumulates_samples (es : List SyscallEvent) :
    Accumulates (fun nr pre => ((ofEvents pre).statsOf nr).totalNs)
      (fun nr pre => (samples pre nr).sum) (fun pre e => additions (ofEvents pre) e) es where
  nil nr := by simp [samples]
  value_eq pre _ nr := by rw [samples_eq_charged, (statsOf_ofEvents pre nr).2]
  step pre e _ _ := by
    rcases additions_ofEvents pre e with ⟨hnone, hsame⟩ | ⟨d, hadd, hself, hother⟩
    · exact Or.inl ⟨hnone, fun nr => by rw [hsame]⟩
    · refine Or.inr ⟨e.syscallNr, d, hadd, ?_, fun nr hnr => by rw [hother nr hnr]⟩
      rw [hself, List.sum_append, List.sum_singleton]

/-- The additions along a stream fit when no total of samples reaches `2 ^ 64`. -/
lemma additionsFit_iff (es : List SyscallEvent) :
    AdditionsFit (fun pre e => additions (ofEvents pre) e) es ↔
      ∀ nr, (samples es nr).sum < 2 ^ 64 := by
  rw [(accumulates_samples es).fits_iff]
  constructor
  · exact fun h nr => h es List.prefix_rfl nr
  · intro h pre hpre nr
    -- samples are only added
    obtain ⟨more, hmore⟩ : samples pre nr <+: samples es nr := collect_isPrefix _ hpre
    have := h nr
    rw [← hmore, List.sum_append] at this
    omega

/-! ## Time -/

/-- The timestamps do not decrease. -/
def Chronological (es : List SyscallEvent) : Prop :=
  es.Pairwise fun a b => a.timestampNs ≤ b.timestampNs

instance (es : List SyscallEvent) : Decidable (Chronological es) :=
  inferInstanceAs (Decidable (List.Pairwise _ _))

/-- The time between the first event and the last. -/
def span (es : List SyscallEvent) : ℕ :=
  match es.head?, es.getLast? with
  | some first, some last => last.timestampNs.toNat - first.timestampNs.toNat
  | _, _ => 0

/-- The processes of a stream. -/
def pids (es : List SyscallEvent) : Finset UInt32 := (es.map SyscallEvent.pid).toFinset

/-- A stream has bounds a span apart. -/
lemma exists_bounds {es : List SyscallEvent} (h : Chronological es) :
    ∃ lo hi, hi - lo = span es ∧ ∀ e ∈ es, lo ≤ e.timestampNs.toNat ∧ e.timestampNs.toNat ≤ hi := by
  cases es with
  | nil => exact ⟨0, 0, rfl, by simp⟩
  | cons first rest =>
    have hlast : (first :: rest).getLast? = some ((first :: rest).getLast (by simp)) :=
      List.getLast?_eq_getLast_of_ne_nil _
    refine ⟨first.timestampNs.toNat, ((first :: rest).getLast (by simp)).timestampNs.toNat,
      by rw [span, hlast]; rfl, fun e he => ⟨?_, ?_⟩⟩
    · rcases List.mem_cons.mp he with rfl | he
      · exact le_rfl
      · exact UInt64.le_iff_toNat_le.mp ((List.pairwise_cons.mp h).1 e he)
    · have hsplit := List.dropLast_append_getLast (l := first :: rest) (by simp)
      rw [← hsplit] at h he
      rcases List.mem_append.mp he with he | he
      · exact UInt64.le_iff_toNat_le.mp ((List.pairwise_append.mp h).2.2 e he _ (by simp))
      · rw [List.mem_singleton.mp he]

/-- **The samples of one key are disjoint.**  Up to its last event a key has been charged at most
the time since `lo`. -/
lemma sum_samples_of_key {es : List SyscallEvent} (h : Chronological es) {k : UInt32 × UInt64}
    (hkey : ∀ e ∈ es, e.key = k) {lo : ℕ} (hlo : ∀ e ∈ es, lo ≤ e.timestampNs.toNat) (nr : UInt64)
    {last : SyscallEvent} (hlast : es.getLast? = some last) :
    (samples es nr).sum + lo ≤ last.timestampNs.toNat := by
  induction es using List.reverseRecOn generalizing last with
  | nil => simp at hlast
  | append_singleton es e ih =>
    obtain rfl : e = last := by simpa using hlast
    obtain ⟨hes, -, hle⟩ := List.pairwise_append.mp h
    have hall : stream SyscallEvent.key e.key es = es :=
      List.filter_eq_self.mpr fun e' he' => by
        simp [hkey e' (List.mem_append_left _ he'), hkey e (by simp)]
    have hprev : previous es e = es.getLast? := by
      rw [previous, lastWhere]
      exact congrArg _ hall
    have hsince := hlo e (by simp)
    rw [samples_concat, hprev]
    cases hbefore : es.getLast? with
    | none =>
      obtain rfl := List.getLast?_eq_none_iff.mp hbefore
      simpa [samples] using hsince
    | some before =>
      have ih := ih hes (fun e' he' => hkey e' (List.mem_append_left _ he'))
        (fun e' he' => hlo e' (List.mem_append_left _ he')) hbefore
      have hstep : before.timestampNs.toNat ≤ e.timestampNs.toNat :=
        UInt64.le_iff_toNat_le.mp (hle before (List.mem_of_getLast? hbefore) e (by simp))
      dsimp only
      split
      · rw [List.sum_append, List.sum_singleton]
        omega
      · rw [List.append_nil]
        omega

/-- A key whose number is another has no samples of `nr`. -/
lemma samples_stream_of_ne {es : List SyscallEvent} {k : UInt32 × UInt64} {nr : UInt64}
    (h : k.2 ≠ nr) : samples (stream SyscallEvent.key k es) nr = [] := by
  refine List.eq_nil_iff_forall_not_mem.mpr fun d hd => ?_
  obtain ⟨pre, e, post, hsplit, hd⟩ := mem_collect.mp hd
  have he : e ∈ stream SyscallEvent.key k es := by simp [hsplit]
  have hkey : e.key = k := by simpa using (List.mem_filter.mp he).2
  have hnr : e.syscallNr ≠ nr := fun hnr => h (hkey ▸ hnr)
  cases hprev : previous pre e <;> simp [hprev, hnr] at hd

/-- The samples of one key sum up to at most the span of the whole stream. -/
lemma sum_samples_stream {es : List SyscallEvent} {lo hi : ℕ} (h : Chronological es)
    (hbounds : ∀ e ∈ es, lo ≤ e.timestampNs.toNat ∧ e.timestampNs.toNat ≤ hi)
    (k : UInt32 × UInt64) (nr : UInt64) :
    (samples (stream SyscallEvent.key k es) nr).sum ≤ if k.2 = nr then hi - lo else 0 := by
  split
  · cases hlast : (stream SyscallEvent.key k es).getLast? with
    | none => simp [List.getLast?_eq_none_iff.mp hlast, samples]
    | some last =>
      have hmem : ∀ e ∈ stream SyscallEvent.key k es, e ∈ es ∧ e.key = k := fun e he => by
        simpa using List.mem_filter.mp he
      have hsum : (samples (stream SyscallEvent.key k es) nr).sum + lo ≤ last.timestampNs.toNat :=
        sum_samples_of_key (List.Pairwise.filter _ h) (fun e he => (hmem e he).2)
          (fun e he => (hbounds e (hmem e he).1).1) nr hlast
      have := (hbounds last (hmem last (List.mem_of_getLast? hlast)).1).2
      omega
  · rename_i hne
    simp [samples_stream_of_ne hne]

/-! ## Whole streams -/

/-- **A number is charged at most the span, once per process.** -/
lemma sum_samples_le {es : List SyscallEvent} (h : Chronological es) (nr : UInt64) :
    (samples es nr).sum ≤ (pids es).card * span es := by
  obtain ⟨lo, hi, hspan, hbounds⟩ := exists_bounds h
  let keys := (es.map SyscallEvent.key).toFinset
  have hsplit : (samples es nr : Multiset ℕ) =
      ∑ k ∈ keys, (samples (stream SyscallEvent.key k es) nr : Multiset ℕ) :=
    collect_eq_sum (fun pre e => by rw [previous_stream]) es
      fun e he => by simpa [keys] using ⟨e, he, rfl⟩
  have hcard : (keys.filter fun k => k.2 = nr).card ≤ (pids es).card := by
    refine Finset.card_le_card_of_injOn Prod.fst (fun k hk => ?_) fun k hk k' hk' hpid => ?_
    · obtain ⟨⟨e, he, rfl⟩, -⟩ : (∃ e ∈ es, e.key = k) ∧ k.2 = nr := by simpa [keys] using hk
      simpa [pids] using ⟨e, he, rfl⟩
    · have hnr : k.2 = nr := (Finset.mem_filter.mp hk).2
      have hnr' : k'.2 = nr := (Finset.mem_filter.mp hk').2
      exact Prod.ext hpid (hnr.trans hnr'.symm)
  calc (samples es nr).sum = (samples es nr : Multiset ℕ).sum := (Multiset.sum_coe _).symm
    _ = ∑ k ∈ keys, (samples (stream SyscallEvent.key k es) nr).sum := by
        rw [hsplit, ← Multiset.coe_sumAddMonoidHom, map_sum]
        simp
    _ ≤ ∑ k ∈ keys, if k.2 = nr then hi - lo else 0 :=
        Finset.sum_le_sum fun k _ => sum_samples_stream h hbounds k nr
    _ = (keys.filter fun k => k.2 = nr).card * span es := by
        rw [Finset.sum_ite, Finset.sum_const_zero, add_zero, Finset.sum_const, hspan, smul_eq_mul]
    _ ≤ (pids es).card * span es := Nat.mul_le_mul_right _ hcard

/-- The samples of a single process sum up to at most the span. -/
lemma sum_samples_le_of_pid {es : List SyscallEvent} (h : Chronological es) {pid : UInt32}
    (hpid : ∀ e ∈ es, e.pid = pid) (nr : UInt64) : (samples es nr).sum ≤ span es := by
  have hcard : (pids es).card ≤ 1 := by
    refine Finset.card_le_one.mpr fun a ha b hb => ?_
    obtain ⟨e, he, rfl⟩ : ∃ e ∈ es, e.pid = a := by simpa [pids] using ha
    obtain ⟨e', he', rfl⟩ : ∃ e ∈ es, e.pid = b := by simpa [pids] using hb
    exact (hpid e he).trans (hpid e' he').symm
  calc (samples es nr).sum ≤ (pids es).card * span es := sum_samples_le h nr
    _ ≤ 1 * span es := Nat.mul_le_mul_right _ hcard
    _ = span es := Nat.one_mul _

lemma span_lt {es : List SyscallEvent} : span es < 2 ^ 64 := by
  unfold span
  split
  · rename_i first last _ _
    have := last.timestampNs.toNat_lt
    omega
  · exact Nat.two_pow_pos 64

/-- An average lies between a least and a greatest number. -/
lemma average_between {l : List ℕ} (h : l ≠ []) :
    (∃ d ∈ l, d ≤ l.sum / l.length) ∧ ∃ d ∈ l, l.sum / l.length ≤ d := by
  have hpos : 0 < l.length := List.length_pos_iff.mpr h
  constructor
  · by_contra hall
    have hall : ∀ d ∈ l, l.sum / l.length < d := by simpa using hall
    have hsum : l.length * (l.sum / l.length + 1) ≤ l.sum := by
      rw [← smul_eq_mul]
      exact List.card_nsmul_le_sum l _ hall
    exact absurd (Nat.lt_mul_div_succ l.sum hpos) (Nat.not_lt.mpr hsum)
  · by_contra hall
    have hall : ∀ d ∈ l, d < l.sum / l.length := by simpa using hall
    obtain ⟨d, hd⟩ := List.exists_mem_of_ne_nil l h
    have hlt : 0 < l.sum / l.length := (Nat.zero_le d).trans_lt (hall d hd)
    have hsum : l.sum ≤ l.length * (l.sum / l.length - 1) := by
      rw [← smul_eq_mul]
      exact List.sum_le_card_nsmul l _ fun d hd => Nat.le_sub_one_of_lt (hall d hd)
    have hdiv := Nat.mul_div_le l.sum l.length
    rw [Nat.mul_sub_one] at hsum
    have : l.length ≤ l.length * (l.sum / l.length) := Nat.le_mul_of_pos_right _ hlt
    omega

end SyscallTable

/-! ## The events of one process -/

/-- A syscall program outputs an event of the firing process, if that matches the target. -/
lemma events_tryEmit (h : Helpers) (ctx : TracePointContext) (kind : EventKind) (k : Kernel) :
    (tryEmit h ctx kind k).1.events = k.events ∨
      ∃ event : SyscallEvent, k.matchesTarget h ctx.tgid = true ∧ event.pid = ctx.tgid ∧
        (tryEmit h ctx kind k).1.events = k.events ++ [RingBufItem.of event] := by
  unfold tryEmit
  dsimp only
  split
  · exact Or.inl rfl
  · rename_i hmatch
    split
    · exact Or.inl rfl
    · simp only [RingBuf.output]
      cases h.eventsError with
      | some e => exact Or.inl rfl
      | none =>
        dsimp only
        rw [handleFileSyscall, fileSyscall_frame]
        exact Or.inr ⟨_, by simpa using hmatch, rfl, rfl⟩

/-- The syscall events of a `--pid` run are of the target process. -/
lemma pid_of_mem_events {pid : UInt32} {l : List Firing} :
    ∀ item ∈ ((Kernel.load (.Pid pid)).run l).events, item.record.pid = pid := by
  induction l using List.reverseRecOn with
  | nil => exact fun item hitem => absurd hitem List.not_mem_nil
  | append_singleton l f ih =>
    have hmatch : ∀ h current,
        ((Kernel.load (.Pid pid)).run l).matchesTarget h current = true ↔ current = pid := by
      intro h current
      rw [run_matchesTarget]
      exact matchesTarget_load_pid_iff
    have hemit : ∀ kind, ∀ item ∈
        (tryEmit f.helpers f.ctx kind ((Kernel.load (.Pid pid)).run l)).1.events,
        item.record.pid = pid := by
      intro kind item hitem
      rcases events_tryEmit f.helpers f.ctx kind ((Kernel.load (.Pid pid)).run l) with
        hsame | ⟨event, hevent, hpid, happend⟩
      · exact ih item (hsame ▸ hitem)
      · rw [happend] at hitem
        rcases List.mem_append.mp hitem with hitem | hitem
        · exact ih item hitem
        · rw [List.mem_singleton.mp hitem]
          exact hpid.trans ((hmatch _ _).mp hevent)
    rw [run_concat]
    cases ht : f.tracepoint with
    | sysEnter => simpa [Kernel.fire, Kernel.exec, ht, sysEnter] using hemit .Enter
    | sysExit => simpa [Kernel.fire, Kernel.exec, ht, sysExit] using hemit .Exit
    | inetSockSetState | tcpRetransmitSkb | kmalloc | kfree =>
      rw [fire_frame, ht]
      exact ih

open SyscallTable in
/-- **Syscall time is bounded by elapsed time**, whatever records are missing and however the
threads interleave: if the timestamps do not decrease, the total of a number is at most the span
of the stream times the number of processes in it.  In `--pid` mode, where the events of any run
of the programs are of one process, it is at most the span; no addition of durations overflows;
and the average lies between two durations that were added. -/
theorem total_time_bounded {es : List SyscallEvent} (h : Chronological es) :
    (∀ nr, ((drainSyscalls (es.map RingBufItem.of) {}).statsOf nr).totalNs.toNat ≤
      (pids es).card * span es) ∧
    ∀ pid, ((∃ l, ((Kernel.load (.Pid pid)).run l).events = es.map RingBufItem.of) ∨
        ∀ e ∈ es, e.pid = pid) →
      (∀ nr, ((drainSyscalls (es.map RingBufItem.of) {}).statsOf nr).totalNs.toNat ≤ span es) ∧
      AdditionsFit (fun pre e => additions (drainSyscalls (pre.map RingBufItem.of) {}) e) es ∧
      ∀ nr stats, (drainSyscalls (es.map RingBufItem.of) {}).stats.lookup nr = some stats →
        (∃ d ∈ samples es nr, d ≤ stats.avgNs.toNat) ∧
          ∃ d ∈ samples es nr, stats.avgNs.toNat ≤ d := by
  have htotal : ∀ nr, ((ofEvents es).statsOf nr).totalNs.toNat ≤ (samples es nr).sum := fun nr => by
    rw [(statsOf_ofEvents es nr).2, samples_eq_charged]
    exact Nat.mod_le _ _
  simp only [drainSyscalls_map_of]
  refine ⟨fun nr => (htotal nr).trans (sum_samples_le h nr), fun pid hmode => ?_⟩
  have hpid : ∀ e ∈ es, e.pid = pid := by
    rcases hmode with ⟨l, hl⟩ | hpid
    · exact fun e he => pid_of_mem_events (RingBufItem.of e) (by rw [hl]; exact List.mem_map_of_mem he)
    · exact hpid
  have hsum : ∀ nr, (samples es nr).sum < 2 ^ 64 := fun nr =>
    (sum_samples_le_of_pid h hpid nr).trans_lt span_lt
  refine ⟨fun nr => (htotal nr).trans (sum_samples_le_of_pid h hpid nr),
    (additionsFit_iff es).mpr hsum, fun nr stats hstats => ?_⟩
  obtain ⟨hcount, htotal⟩ := lookup_stats_ofEvents hstats
  rw [Nat.mod_eq_of_lt (hsum nr)] at htotal
  have hne : samples es nr ≠ [] := (isSome_stats_ofEvents es nr).mp (by simp [hstats])
  have havg : stats.avgNs.toNat = (samples es nr).sum / (samples es nr).length := by
    have hcount0 : stats.count ≠ 0 := by
      rw [hcount]
      exact fun h0 => hne (List.length_eq_zero_iff.mp h0)
    rw [SyscallStats.avgNs, if_neg hcount0, htotal, hcount]
    exact UInt64.toNat_ofNat_of_lt' ((Nat.div_le_self _ _).trans_lt (hsum nr))
  rw [havg]
  exact average_between hne

/-- Two threads of process 1 in the same call: the second enter takes the place of the first, and
the second exit finds none. -/
def overlapping : List SyscallEvent :=
  [⟨1, .Enter, 63, 10⟩, ⟨1, .Enter, 63, 12⟩, ⟨1, .Exit, 63, 15⟩, ⟨1, .Exit, 63, 20⟩]

open SyscallTable in
/-- Of the 10 nanoseconds at most 10 are charged, without overflow, and the average of the one
duration charged is 3. -/
theorem total_time_bounded_overlapping :
    ((drainSyscalls (overlapping.map RingBufItem.of) {}).statsOf 63).totalNs.toNat ≤ 10 ∧
      AdditionsFit (fun pre e => additions (drainSyscalls (pre.map RingBufItem.of) {}) e)
        overlapping ∧
      (drainSyscalls (overlapping.map RingBufItem.of) {}).stats.lookup 63 = some ⟨1, 3⟩ ∧
      (∃ d ∈ samples overlapping 63, d ≤ 3) ∧ ∃ d ∈ samples overlapping 63, 3 ≤ d := by
  have hchron : Chronological overlapping := by decide
  have hbound := total_time_bounded hchron
  obtain ⟨htotal, hfits, haverage⟩ := hbound.2 1 (Or.inr (by decide))
  have hstats : (drainSyscalls (overlapping.map RingBufItem.of) {}).stats.lookup 63 =
      some ⟨1, 3⟩ := by decide +kernel
  exact ⟨htotal 63, hfits, hstats, haverage 63 _ hstats⟩

end Peekbeam
