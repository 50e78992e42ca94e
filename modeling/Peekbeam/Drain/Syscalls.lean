import Mathlib.Algebra.Ring.Nat
import Peekbeam.Common
import Peekbeam.Foundation.FinMap
import Peekbeam.Foundation.KeyedFold
import Peekbeam.Foundation.SharedSlot

/-!
# Draining syscall events

Userspace folds each record it drains into a table.  For syscall events the table
(`SyscallTable`) is the aggregate shown to the user, by syscall number, with the start times
still waiting for their exit event, by process and number.

The second half of the file reads the fold back as a statement about the whole stream: the
table pairs events through a shared slot per `(pid, syscall_nr)` (`Foundation/SharedSlot.lean`),
so its content is `held` and `pairs` at that key.  `drain_syscalls_meaning` says it without the
slots: every exit is looked back from to the event of its process and number before it, and the
table depends on nothing else.

Counters that only ever grow by one are natural numbers here; `totalNs` accumulates arbitrary
durations and wraps like the `u64` it is.
-/

namespace Peekbeam

open History SharedSlot KeyedFold

/-! ## The syscall table -/

/-- Aggregated stats for one syscall number, matched from enter/exit event pairs.  In the source
`count` is a `u64`; each record adds at most one, and a run has fewer than `2 ^ 64` of them. -/
@[ext]
structure SyscallStats where
  count : ℕ := 0
  totalNs : UInt64 := 0
  deriving DecidableEq

/-- `avg_ns`. -/
def SyscallStats.avgNs (s : SyscallStats) : UInt64 :=
  if s.count = 0 then 0 else UInt64.ofNat (s.totalNs.toNat / s.count)

/-- `a.saturating_sub(b)`. -/
def saturatingSub (a b : UInt64) : UInt64 := if b ≤ a then a - b else 0

@[simp] lemma toNat_saturatingSub (a b : UInt64) :
    (saturatingSub a b).toNat = a.toNat - b.toNat := by
  unfold saturatingSub
  split
  · rename_i h
    exact UInt64.toNat_sub_of_le a b h
  · rename_i h
    have : a.toNat < b.toNat := UInt64.lt_iff_toNat_lt.mp (UInt64.not_le.mp h)
    simp only [UInt64.toNat_zero]
    omega

/-- What `drain_syscalls` owns: `stats`, and `pending` from `(pid, syscall_nr)` to the enter
timestamp. -/
structure SyscallTable where
  stats : FinMap UInt64 SyscallStats := ∅
  pending : FinMap (UInt32 × UInt64) UInt64 := ∅

/-- The slot a syscall event uses in `pending`. -/
def SyscallEvent.key (event : SyscallEvent) : UInt32 × UInt64 := (event.pid, event.syscallNr)

def SyscallEvent.opens (event : SyscallEvent) : Bool := event.kind = .Enter

namespace SyscallTable

/-- One iteration of `drain_syscalls`. -/
def drainOne (t : SyscallTable) (event : SyscallEvent) : SyscallTable :=
  match event.kind with
  | .Enter => { t with pending := t.pending.insert event.key event.timestampNs }
  | .Exit =>
    let removed := t.pending.lookup event.key
    let t := { t with pending := t.pending.erase event.key }
    match removed with
    | none => t
    | some start =>
      let dur := saturatingSub event.timestampNs start
      { t with
        stats := t.stats.upsert event.syscallNr {} fun entry =>
          { count := entry.count + 1, totalNs := entry.totalNs + dur } }

/-- `drain_syscalls`. -/
def drainSyscalls (ring : RingBuf SyscallEvent) (t : SyscallTable) : SyscallTable :=
  drain drainOne ring t

/-- The stats of `nr`; a number without an entry has none. -/
def statsOf (t : SyscallTable) (nr : UInt64) : SyscallStats := (t.stats.lookup nr).getD {}

/-! ## One event -/

lemma lookup_pending_drainOne (t : SyscallTable) (event : SyscallEvent) (k : UInt32 × UInt64) :
    (t.drainOne event).pending.lookup k =
      if event.key = k then (if event.opens then some event.timestampNs else none)
      else t.pending.lookup k := by
  unfold drainOne SyscallEvent.opens
  cases event.kind with
  | Enter =>
    dsimp only
    rw [FinMap.lookup_insert_ite]
    simp [eq_comm]
  | Exit =>
    dsimp only
    split <;> simp [FinMap.lookup_erase_ite, eq_comm]

lemma statsOf_drainOne_enter {t : SyscallTable} {event : SyscallEvent}
    (h : event.opens = true) (nr : UInt64) : (t.drainOne event).statsOf nr = t.statsOf nr := by
  have hkind : event.kind = .Enter := by simpa [SyscallEvent.opens] using h
  simp [drainOne, hkind, statsOf]

/-- An exit adds one duration to the stats of its number, if its slot is filled. -/
lemma statsOf_drainOne_exit {t : SyscallTable} {event : SyscallEvent}
    (h : event.opens = false) (nr : UInt64) :
    (t.drainOne event).statsOf nr =
      match t.pending.lookup event.key with
      | none => t.statsOf nr
      | some start =>
        if event.syscallNr = nr then
          { count := (t.statsOf nr).count + 1
            totalNs := (t.statsOf nr).totalNs + saturatingSub event.timestampNs start }
        else t.statsOf nr := by
  have hkind : event.kind = .Exit := by
    cases hk : event.kind with
    | Enter => simp [SyscallEvent.opens, hk] at h
    | Exit => rfl
  unfold drainOne
  rw [hkind]
  dsimp only
  cases t.pending.lookup event.key with
  | none => rfl
  | some start =>
    simp only [statsOf, FinMap.lookup_upsert]
    by_cases hnr : event.syscallNr = nr
    · subst hnr
      simp
    · simp [hnr, Ne.symm hnr]

/-- An exit with a filled slot gives its number an entry. -/
lemma isSome_stats_drainOne (t : SyscallTable) (event : SyscallEvent) (nr : UInt64) :
    ((t.drainOne event).stats.lookup nr).isSome ↔ (t.stats.lookup nr).isSome ∨
      event.opens = false ∧ (t.pending.lookup event.key).isSome ∧ event.syscallNr = nr := by
  unfold drainOne SyscallEvent.opens
  cases event.kind with
  | Enter => simp
  | Exit =>
    dsimp only
    cases t.pending.lookup event.key with
    | none => simp
    | some start =>
      by_cases hnr : event.syscallNr = nr
      · simp [FinMap.lookup_upsert, hnr]
      · simp [FinMap.lookup_upsert, hnr, Ne.symm hnr]

/-! ## Whole streams -/

/-- The table after a stream of events, from an empty one. -/
def ofEvents (es : List SyscallEvent) : SyscallTable := es.foldl drainOne {}

/-- Draining records written in full folds their events. -/
lemma drainSyscalls_map_of (es : List SyscallEvent) :
    drainSyscalls (es.map RingBufItem.of) {} = ofEvents es := by
  rw [drainSyscalls, drain_map_of, ofEvents]

lemma ofEvents_concat (es : List SyscallEvent) (e : SyscallEvent) :
    ofEvents (es ++ [e]) = (ofEvents es).drainOne e := by
  simp [ofEvents]

/-- `pending` holds the enter events whose slot no later event used. -/
lemma lookup_pending_ofEvents (es : List SyscallEvent) (k : UInt32 × UInt64) :
    (ofEvents es).pending.lookup k =
      (held SyscallEvent.key SyscallEvent.opens es k).map SyscallEvent.timestampNs := by
  induction es using List.reverseRecOn with
  | nil => rfl
  | append_singleton es e ih =>
    rw [ofEvents_concat, lookup_pending_drainOne, held_concat, ih]
    split
    · split <;> rfl
    · rfl

/-- The duration a pair of events accounts for. -/
def duration (p : SyscallEvent × SyscallEvent) : ℕ :=
  p.2.timestampNs.toNat - p.1.timestampNs.toNat

/-- The pairs of `es` accounted to syscall number `nr`. -/
def charged (es : List SyscallEvent) (nr : UInt64) : List (SyscallEvent × SyscallEvent) :=
  (pairs SyscallEvent.key SyscallEvent.opens es).filter fun p => p.2.syscallNr = nr

/-- The stats of a number are its pairs: how many, and for how long (modulo `2 ^ 64`). -/
lemma statsOf_ofEvents (es : List SyscallEvent) (nr : UInt64) :
    ((ofEvents es).statsOf nr).count = (charged es nr).length ∧
      ((ofEvents es).statsOf nr).totalNs.toNat =
        ((charged es nr).map duration).sum % 2 ^ 64 := by
  induction es using List.reverseRecOn with
  | nil => simp [ofEvents, statsOf, charged]
  | append_singleton es e ih =>
    obtain ⟨hcount, htotal⟩ := ih
    rw [ofEvents_concat, charged, pairs_concat, List.filter_append]
    by_cases ho : e.opens = true
    · rw [statsOf_drainOne_enter ho, if_pos ho]
      simpa [charged] using ⟨hcount, htotal⟩
    · rw [statsOf_drainOne_exit (by simpa using ho), if_neg ho, lookup_pending_ofEvents]
      cases held SyscallEvent.key SyscallEvent.opens es e.key with
      | none => simpa [charged] using ⟨hcount, htotal⟩
      | some start =>
        by_cases hnr : e.syscallNr = nr
        · refine ⟨by simp [hnr, hcount, charged], ?_⟩
          simp [hnr, htotal, charged, UInt64.toNat_add, duration, Nat.add_mod]
        · simpa [hnr, charged] using ⟨hcount, htotal⟩

/-! ## Looking back -/

/-- The event of the same process and number immediately before `event`. -/
def previous (pre : List SyscallEvent) (event : SyscallEvent) : Option SyscallEvent :=
  lastWhere (fun e => e.key = event.key) pre

/-- The latencies sampled for `nr`: for each exit of `nr` whose previous event is an enter, the
time between the two, or 0 if the clock went back. -/
def samples (es : List SyscallEvent) (nr : UInt64) : List ℕ :=
  collect (fun pre event =>
    match previous pre event with
    | none => []
    | some enter =>
      if event.kind = .Exit ∧ event.syscallNr = nr ∧ enter.kind = .Enter then
        [event.timestampNs.toNat - enter.timestampNs.toNat]
      else []) es

lemma samples_concat (es : List SyscallEvent) (e : SyscallEvent) (nr : UInt64) :
    samples (es ++ [e]) nr = samples es nr ++
      match previous es e with
      | none => []
      | some enter =>
        if e.kind = .Exit ∧ e.syscallNr = nr ∧ enter.kind = .Enter then
          [e.timestampNs.toNat - enter.timestampNs.toNat]
        else [] :=
  collect_concat _ _ _

/-- The slots find what looking back finds. -/
lemma samples_eq_charged (es : List SyscallEvent) (nr : UInt64) :
    samples es nr = (charged es nr).map duration := by
  induction es using List.reverseRecOn with
  | nil => rfl
  | append_singleton es e ih =>
    rw [samples_concat, charged, pairs_concat, List.filter_append, List.map_append, ih]
    refine congrArg _ ?_
    have hheld : held SyscallEvent.key SyscallEvent.opens es e.key =
        (previous es e).filter SyscallEvent.opens := rfl
    rw [hheld]
    cases previous es e with
    | none => cases e.opens <;> rfl
    | some enter =>
      cases hk : e.kind <;> cases hk' : enter.kind <;> by_cases hnr : e.syscallNr = nr <;>
        simp [SyscallEvent.opens, hk, hk', hnr, Option.filter, duration]

/-- A number has stats once a latency was sampled for it. -/
lemma isSome_stats_ofEvents (es : List SyscallEvent) (nr : UInt64) :
    ((ofEvents es).stats.lookup nr).isSome ↔ samples es nr ≠ [] := by
  induction es using List.reverseRecOn with
  | nil => simp [ofEvents, samples]
  | append_singleton es e ih =>
    rw [ofEvents_concat, isSome_stats_drainOne, ih, lookup_pending_ofEvents, Option.isSome_map,
      samples_concat]
    have hheld : held SyscallEvent.key SyscallEvent.opens es e.key =
        (previous es e).filter SyscallEvent.opens := rfl
    rw [hheld]
    cases previous es e with
    | none => simp [Option.filter]
    | some enter =>
      cases hk : e.kind <;> cases hk' : enter.kind <;> by_cases hnr : e.syscallNr = nr <;>
        simp [SyscallEvent.opens, hk, hk', hnr, Option.filter]

lemma lookup_stats_eq_none {es : List SyscallEvent} {nr : UInt64} :
    (ofEvents es).stats.lookup nr = none ↔ samples es nr = [] := by
  rw [← Option.not_isSome_iff_eq_none, isSome_stats_ofEvents, not_not]

/-- Looking back from an event looks at the events of its key only. -/
lemma previous_stream (pre : List SyscallEvent) (e : SyscallEvent) :
    previous (stream SyscallEvent.key e.key pre) e = previous pre e := by
  simp [previous, stream, lastWhere, List.filter_filter]

/-- The latencies of a number do not depend on how its processes interleave. -/
lemma samples_perm {es es' : List SyscallEvent}
    (h : ∀ k, stream SyscallEvent.key k es = stream SyscallEvent.key k es') (nr : UInt64) :
    (samples es nr).Perm (samples es' nr) :=
  collect_perm (fun pre e => by rw [previous_stream]) h

/-- A number with stats has the count and the total of its samples. -/
lemma lookup_stats_ofEvents {es : List SyscallEvent} {nr : UInt64} {stats : SyscallStats}
    (h : (ofEvents es).stats.lookup nr = some stats) :
    stats.count = (samples es nr).length ∧
      stats.totalNs.toNat = (samples es nr).sum % 2 ^ 64 := by
  obtain ⟨hcount, htotal⟩ := statsOf_ofEvents es nr
  have hstats : (ofEvents es).statsOf nr = stats := by simp [statsOf, h]
  rw [samples_eq_charged, List.length_map, ← hstats]
  exact ⟨hcount, htotal⟩

/-- Streams with the same latencies up to order have the same stats. -/
lemma lookup_stats_congr {es es' : List SyscallEvent} {nr : UInt64}
    (h : (samples es nr).Perm (samples es' nr)) :
    (ofEvents es).stats.lookup nr = (ofEvents es').stats.lookup nr := by
  cases hs : (ofEvents es).stats.lookup nr with
  | none =>
    rw [lookup_stats_eq_none.mp hs, List.nil_perm] at h
    exact (lookup_stats_eq_none.mpr h).symm
  | some stats =>
    have hne : samples es nr ≠ [] := (isSome_stats_ofEvents es nr).mp (by simp [hs])
    have hne' : samples es' nr ≠ [] := fun hnil => hne (List.perm_nil.mp (hnil ▸ h))
    obtain ⟨stats', hs'⟩ := Option.isSome_iff_exists.mp ((isSome_stats_ofEvents es' nr).mpr hne')
    obtain ⟨hcount, htotal⟩ := lookup_stats_ofEvents hs
    obtain ⟨hcount', htotal'⟩ := lookup_stats_ofEvents hs'
    rw [hs', Option.some_inj]
    refine SyscallStats.ext ?_ (UInt64.toNat_inj.mp ?_)
    · rw [hcount, hcount', h.length_eq]
    · rw [htotal, htotal', h.sum_eq]

/-- An event decides what is pending for its own key. -/
lemma pending_local :
    Local (fun t : SyscallTable => t.pending.lookup) SyscallEvent.key
      (fun _ e => if e.opens then some e.timestampNs else none) drainOne :=
  lookup_pending_drainOne

/-- `pending` remembers the keys whose last event is an enter. -/
lemma lookup_pending_eq_some {es : List SyscallEvent} {k : UInt32 × UInt64} {start : UInt64} :
    (ofEvents es).pending.lookup k = some start ↔
      ∃ e, lastWhere (fun e => e.key = k) es = some e ∧ e.kind = .Enter ∧
        e.timestampNs = start := by
  simp [lookup_pending_ofEvents, held, Option.map_eq_some_iff, Option.filter_eq_some_iff,
    SyscallEvent.opens, and_assoc]

end SyscallTable

/-! ## The table of a stream -/

open SyscallTable in
/-- **`drain_syscalls` is its look-back definition.**  A number is in `stats` once one of its
exits directly follows an enter of the same process and number; its count is the number of such
exits and its total the sum of their durations.  A key is pending when its last event is an
enter.  And the table depends on each key's own events only, not on their interleaving. -/
theorem drain_syscalls_meaning (es : List SyscallEvent) :
    (∀ nr, ((drainSyscalls (es.map RingBufItem.of) {}).stats.lookup nr = none ↔
        samples es nr = []) ∧
      ∀ stats, (drainSyscalls (es.map RingBufItem.of) {}).stats.lookup nr = some stats →
        stats.count = (samples es nr).length ∧
          ((samples es nr).sum < 2 ^ 64 → stats.totalNs.toNat = (samples es nr).sum)) ∧
    (∀ k start, (drainSyscalls (es.map RingBufItem.of) {}).pending.lookup k = some start ↔
      ∃ e, lastWhere (fun e => e.key = k) es = some e ∧ e.kind = .Enter ∧
        e.timestampNs = start) ∧
    ∀ es', (∀ k, stream SyscallEvent.key k es = stream SyscallEvent.key k es') →
      (∀ nr, (drainSyscalls (es.map RingBufItem.of) {}).stats.lookup nr =
        (drainSyscalls (es'.map RingBufItem.of) {}).stats.lookup nr) ∧
      ∀ k, (drainSyscalls (es.map RingBufItem.of) {}).pending.lookup k =
        (drainSyscalls (es'.map RingBufItem.of) {}).pending.lookup k := by
  simp only [drainSyscalls_map_of]
  refine ⟨fun nr => ⟨lookup_stats_eq_none, fun stats hstats => ?_⟩,
    fun k start => lookup_pending_eq_some,
    fun es' h => ⟨fun nr => lookup_stats_congr (samples_perm h nr), fun k => ?_⟩⟩
  · obtain ⟨hcount, htotal⟩ := lookup_stats_ofEvents hstats
    exact ⟨hcount, fun hsum => htotal.trans (Nat.mod_eq_of_lt hsum)⟩
  · exact pending_local.foldl_congr {} (h k)

/-- Processes 1 and 2 overlap inside `read` (63), or make their calls in turn. -/
def readsOverlap : List SyscallEvent :=
  [⟨1, .Enter, 63, 10⟩, ⟨2, .Enter, 63, 12⟩, ⟨2, .Exit, 63, 20⟩, ⟨1, .Exit, 63, 30⟩]

def readsInTurn : List SyscallEvent :=
  [⟨1, .Enter, 63, 10⟩, ⟨1, .Exit, 63, 30⟩, ⟨2, .Enter, 63, 12⟩, ⟨2, .Exit, 63, 20⟩]

lemma stream_reads (k : UInt32 × UInt64) :
    stream SyscallEvent.key k readsOverlap = stream SyscallEvent.key k readsInTurn := by
  by_cases h : ((1, 63) : UInt32 × UInt64) = k
  · subst h
    decide +kernel
  · by_cases h' : ((2, 63) : UInt32 × UInt64) = k
    · subst h'
      decide +kernel
    · simp [stream, readsOverlap, readsInTurn, SyscallEvent.key, h, h']

open SyscallTable in
/-- Either way both calls are counted, for 28 ns in all. -/
theorem drain_syscalls_meaning_reads :
    (drainSyscalls (readsOverlap.map RingBufItem.of) {}).stats.lookup 63 = some ⟨2, 28⟩ ∧
      (28 : UInt64).toNat = (samples readsOverlap 63).sum ∧
      (drainSyscalls (readsOverlap.map RingBufItem.of) {}).stats.lookup 63 =
        (drainSyscalls (readsInTurn.map RingBufItem.of) {}).stats.lookup 63 := by
  have hlookup : (drainSyscalls (readsOverlap.map RingBufItem.of) {}).stats.lookup 63 =
      some ⟨2, 28⟩ := by decide +kernel
  have hmeaning := drain_syscalls_meaning readsOverlap
  exact ⟨hlookup, ((hmeaning.1 63).2 _ hlookup).2 (by decide +kernel),
    (hmeaning.2.2 readsInTurn stream_reads).1 63⟩

end Peekbeam
