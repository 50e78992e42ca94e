import Mathlib.Algebra.Ring.Nat
import Mathlib.Data.List.Induction
import Peekbeam.Common

/-!
# Draining memory events

The kernel allocation activity of the target is three counters (FR5.1).  As in the other tables
the counters that grow by one are natural numbers, while `allocBytes` accumulates arbitrary sizes
and wraps like the `u64` it is.  `memStatsOf_eq` reads the counters off the stream.
-/

namespace Peekbeam

/-- Kernel allocation activity attributable to the target (FR5.1).  In the source the two counts
are `u64`s as well; each record adds at most one, and a run has fewer than `2 ^ 64` of them. -/
@[ext]
structure MemEventStats where
  allocCount : ℕ := 0
  allocBytes : UInt64 := 0
  freeCount : ℕ := 0
  deriving DecidableEq

/-- One iteration of `drain_mem_events`. -/
def drainMemOne (stats : MemEventStats) (event : MemEvent) : MemEventStats :=
  match event.kind with
  | .Alloc =>
    { stats with
      allocCount := stats.allocCount + 1
      allocBytes := stats.allocBytes + event.bytes }
  | .Free => { stats with freeCount := stats.freeCount + 1 }

/-- `drain_mem_events`. -/
def drainMemEvents (ring : RingBuf MemEvent) (stats : MemEventStats) : MemEventStats :=
  drain drainMemOne ring stats

/-- The counters after a stream of events. -/
def memStatsOf (es : List MemEvent) : MemEventStats := es.foldl drainMemOne {}

/-- Draining records written in full counts their events. -/
lemma drainMemEvents_map_of (es : List MemEvent) :
    drainMemEvents (es.map RingBufItem.of) {} = memStatsOf es := by
  rw [drainMemEvents, drain_map_of, memStatsOf]

lemma memStatsOf_concat (es : List MemEvent) (e : MemEvent) :
    memStatsOf (es ++ [e]) = drainMemOne (memStatsOf es) e := by
  simp [memStatsOf]

/-- The bytes an event allocates. -/
def MemEvent.allocated (e : MemEvent) : ℕ := if e.kind = .Alloc then e.bytes.toNat else 0

/-- The bytes allocated by a stream of events. -/
def allocatedIn (es : List MemEvent) : ℕ := (es.map MemEvent.allocated).sum

lemma allocatedIn_concat (es : List MemEvent) (e : MemEvent) :
    allocatedIn (es ++ [e]) = allocatedIn es + e.allocated := by
  simp [allocatedIn]

/-- The counters count the events of each kind and add up the sizes, modulo `2 ^ 64`. -/
lemma memStatsOf_eq (es : List MemEvent) :
    (memStatsOf es).allocCount = es.countP (fun e => e.kind = .Alloc) ∧
      (memStatsOf es).allocBytes.toNat = allocatedIn es % 2 ^ 64 ∧
      (memStatsOf es).freeCount = es.countP (fun e => e.kind = .Free) := by
  induction es using List.reverseRecOn with
  | nil => simp [memStatsOf, allocatedIn]
  | append_singleton es e ih =>
    obtain ⟨hallocs, hbytes, hfrees⟩ := ih
    rw [memStatsOf_concat, allocatedIn_concat, List.countP_append, List.countP_append, drainMemOne]
    cases hk : e.kind with
    | Alloc => simp [hk, hallocs, hbytes, hfrees, MemEvent.allocated, UInt64.toNat_add]
    | Free => simp [hk, hallocs, hbytes, hfrees, MemEvent.allocated]

end Peekbeam
