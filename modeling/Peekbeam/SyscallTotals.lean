import Peekbeam.TargetScope

/-!
# The syscalls seen

The header of the syscall panel says how many syscalls were seen: the sum of the counts of its
rows.  `syscalls_seen_balance` balances it against the records of a live trace: of the enter
records that were drained, each was answered and is counted, or is still pending, or was
overwritten by another enter of its process and number; of the exit records, each is counted or
found nothing to answer.
-/

namespace SharedSlot

open History

/-! ## Events that are not paired -/

section Unpaired
variable {α κ : Type*} [DecidableEq κ] (slot : α → κ) (opens : α → Bool)

/-- The opening events that find their slot filled. -/
def overwriting (l : List α) : List α :=
  collect (fun pre f => if opens f ∧ (held slot opens pre (slot f)).isSome then [f] else []) l

/-- The closing events that find their slot empty. -/
def unanswering (l : List α) : List α :=
  collect (fun pre f => if opens f = false ∧ held slot opens pre (slot f) = none then [f] else []) l

lemma overwriting_concat (l : List α) (f : α) :
    overwriting slot opens (l ++ [f]) = overwriting slot opens l ++
      if opens f ∧ (held slot opens l (slot f)).isSome then [f] else [] :=
  collect_concat _ _ _

lemma unanswering_concat (l : List α) (f : α) :
    unanswering slot opens (l ++ [f]) = unanswering slot opens l ++
      if opens f = false ∧ held slot opens l (slot f) = none then [f] else [] :=
  collect_concat _ _ _

/-- A closing event answers or finds nothing. -/
lemma length_closings (l : List α) :
    (l.filter fun f => !opens f).length =
      (pairs slot opens l).length + (unanswering slot opens l).length := by
  induction l using List.reverseRecOn with
  | nil => rfl
  | append_singleton l f ih =>
    rw [List.filter_append, List.length_append, ih, pairs_concat, unanswering_concat,
      List.length_append, List.length_append]
    cases hf : opens f with
    | true => simp [hf]
    | false =>
      cases held slot opens l (slot f) with
      | none => simp [hf, Nat.add_assoc]
      | some e => simp [hf, Nat.add_right_comm]

end Unpaired

end SharedSlot

namespace Peekbeam

open SharedSlot History

/-! ## The table -/

namespace SyscallTable

/-- The number in the header of the panel. -/
def seen (t : SyscallTable) : ℕ := FinMap.total SyscallStats.count t.stats

/-- How many enters wait for their exit. -/
def waiting (t : SyscallTable) : ℕ := FinMap.total (fun _ => 1) t.pending

/-- An enter waits, instead of the one that waited before it if there was one. -/
lemma drainOne_enter {t : SyscallTable} {e : SyscallEvent} (h : e.opens = true) :
    (t.drainOne e).seen = t.seen ∧
      (t.drainOne e).waiting + (if (t.pending.lookup e.key).isSome then 1 else 0) =
        t.waiting + 1 := by
  have hkind : e.kind = .Enter := by simpa [SyscallEvent.opens] using h
  unfold drainOne
  rw [hkind]
  refine ⟨rfl, ?_⟩
  have htotal := FinMap.total_insert (fun _ => 1) t.pending e.key e.timestampNs
  cases hpending : t.pending.lookup e.key <;>
  · rw [hpending] at htotal
    exact htotal

/-- An exit is counted for the enter it answers. -/
lemma drainOne_exit {t : SyscallTable} {e : SyscallEvent} (h : e.opens = false) :
    let answers := if (t.pending.lookup e.key).isSome then 1 else 0
    (t.drainOne e).seen = t.seen + answers ∧
      (t.drainOne e).waiting + answers = t.waiting := by
  have hkind : e.kind = .Exit := by
    cases hk : e.kind with
    | Enter => simp [SyscallEvent.opens, hk] at h
    | Exit => rfl
  have herase := FinMap.total_erase (fun _ => 1) t.pending e.key
  unfold drainOne
  rw [hkind]
  dsimp only
  cases hpending : t.pending.lookup e.key with
  | none =>
    rw [hpending] at herase
    exact ⟨rfl, herase⟩
  | some start =>
    rw [hpending] at herase
    refine ⟨?_, herase⟩
    have hupsert := FinMap.total_upsert SyscallStats.count t.stats e.syscallNr {} fun entry =>
      { count := entry.count + 1
        totalNs := entry.totalNs + saturatingSub e.timestampNs start }
    dsimp only [seen]
    cases hentry : t.stats.lookup e.syscallNr <;>
    · simp only [hentry, Option.map_some, Option.map_none, Option.getD_some,
        Option.getD_none] at hupsert
      simp only [Option.isSome_some, if_true]
      omega

/-- **The balance of a stream.** -/
lemma ofEvents_balance (es : List SyscallEvent) :
    (ofEvents es).seen = (pairs SyscallEvent.key SyscallEvent.opens es).length ∧
      (es.filter SyscallEvent.opens).length = (ofEvents es).seen + (ofEvents es).waiting +
        (overwriting SyscallEvent.key SyscallEvent.opens es).length := by
  induction es using List.reverseRecOn with
  | nil => exact ⟨rfl, rfl⟩
  | append_singleton es e ih =>
    obtain ⟨hseen, henters⟩ := ih
    have hpending : ((ofEvents es).pending.lookup e.key).isSome =
        (held SyscallEvent.key SyscallEvent.opens es e.key).isSome := by
      rw [lookup_pending_ofEvents, Option.isSome_map]
    rw [ofEvents_concat, pairs_concat, overwriting_concat, List.filter_append,
      List.length_append, List.length_append, List.length_append]
    cases he : e.opens with
    | true =>
      obtain ⟨hsame, hwaiting⟩ := drainOne_enter (t := ofEvents es) he
      rw [hpending] at hwaiting
      cases hheld : (held SyscallEvent.key SyscallEvent.opens es e.key).isSome <;>
      · simp [he, hheld] at hwaiting ⊢
        omega
    | false =>
      obtain ⟨hcounted, hwaiting⟩ := drainOne_exit (t := ofEvents es) he
      rw [hpending] at hcounted hwaiting
      cases hheld : held SyscallEvent.key SyscallEvent.opens es e.key <;>
      · simp [he, hheld] at hcounted hwaiting ⊢
        omega

end SyscallTable

/-! ## Live traces -/

/-- The number in the argument of a syscall record. -/
def Firing.syscallNr (f : Firing) : UInt64 := (f.ctx.field Int64 SYSCALL_NR_OFFSET).toUInt64

/-- A syscall program fires for the target and its record is written. -/
structure Firing.Traces (target : Target) (f : Firing) : Prop where
  accepted : f.Accepted target
  readable : f.ctx.readError SYSCALL_NR_OFFSET = none
  delivered : f.helpers.eventsError = none

instance (target : Target) (f : Firing) : Decidable (f.Traces target) :=
  decidable_of_iff (f.Accepted target ∧ f.ctx.readError SYSCALL_NR_OFFSET = none ∧
      f.helpers.eventsError = none)
    ⟨fun ⟨h₁, h₂, h₃⟩ => ⟨h₁, h₂, h₃⟩, fun h => ⟨h.accepted, h.readable, h.delivered⟩⟩

/-- The record a firing leaves in `EVENTS`. -/
def Firing.syscallEvent (target : Target) (f : Firing) : Option SyscallEvent :=
  let event (kind : EventKind) : Option SyscallEvent :=
    if f.Traces target then
      some { pid := f.ctx.tgid, kind, syscallNr := f.syscallNr, timestampNs := f.helpers.ktimeNs }
    else none
  match f.tracepoint with
  | .sysEnter => event .Enter
  | .sysExit => event .Exit
  | _ => none

lemma events_tryEmit_eq (h : Helpers) (ctx : TracePointContext) (kind : EventKind) (k : Kernel) :
    (tryEmit h ctx kind k).1.events = k.events ++
      if k.matchesTarget h ctx.tgid = true ∧ ctx.readError SYSCALL_NR_OFFSET = none ∧
          h.eventsError = none then
        [RingBufItem.of ⟨ctx.tgid, kind, (ctx.field Int64 SYSCALL_NR_OFFSET).toUInt64, h.ktimeNs⟩]
      else [] := by
  unfold tryEmit
  cases hmatch : k.matchesTarget h ctx.tgid with
  | false => simp [hmatch]
  | true =>
    cases hread : ctx.readError SYSCALL_NR_OFFSET with
    | some e => simp [hmatch, TracePointContext.readAt_of_readError hread]
    | none =>
      cases herror : h.eventsError with
      | some e =>
        simp [hmatch, TracePointContext.readAt_of_readError_none hread, RingBuf.output]
      | none =>
        simp only [hmatch, TracePointContext.readAt_of_readError_none hread, RingBuf.output,
          Bool.not_true, Bool.false_eq_true, if_false, and_self, if_true]
        rw [handleFileSyscall, fileSyscall_frame]

lemma events_fire {target : Target} {k : Kernel}
    (hk : k.matchesTarget = (Kernel.load target).matchesTarget) (f : Firing) :
    (k.fire f).events = k.events ++ (f.syscallEvent target).toList.map RingBufItem.of := by
  have htraces : (k.matchesTarget f.helpers f.ctx.tgid = true ∧
      f.ctx.readError SYSCALL_NR_OFFSET = none ∧ f.helpers.eventsError = none) ↔
        f.Traces target := by
    rw [hk]
    exact ⟨fun ⟨h₁, h₂, h₃⟩ => ⟨h₁, h₂, h₃⟩, fun h => ⟨h.accepted, h.readable, h.delivered⟩⟩
  have hemit : ∀ kind, (tryEmit f.helpers f.ctx kind k).1.events = k.events ++
      ((if f.Traces target then
        some { pid := f.ctx.tgid, kind, syscallNr := f.syscallNr, timestampNs := f.helpers.ktimeNs }
        else none : Option SyscallEvent).toList.map RingBufItem.of) := by
    intro kind
    rw [events_tryEmit_eq]
    by_cases ht : f.Traces target
    · rw [if_pos (htraces.mpr ht), if_pos ht]
      rfl
    · rw [if_neg (mt htraces.mp ht), if_neg ht]
      rfl
  unfold Firing.syscallEvent
  cases ht : f.tracepoint with
  | sysEnter => simpa [Kernel.fire, Kernel.exec, ht, sysEnter] using hemit .Enter
  | sysExit => simpa [Kernel.fire, Kernel.exec, ht, sysExit] using hemit .Exit
  | inetSockSetState | tcpRetransmitSkb | kmalloc | kfree =>
    rw [fire_frame, ht]
    simp [Tracepoint.frame]

lemma events_run (target : Target) (l : List Firing) :
    ((Kernel.load target).run l).events =
      (l.filterMap (Firing.syscallEvent target)).map RingBufItem.of := by
  induction l using List.reverseRecOn with
  | nil => rfl
  | append_singleton l f ih =>
    rw [run_concat, events_fire (run_matchesTarget _ _), ih, List.filterMap_append,
      List.map_append]
    cases hevent : f.syscallEvent target <;> simp [hevent]

/-- **The number of syscalls seen balances.**  In every state of a live trace some of the records
of the target's syscalls, in order, have been drained.  The number seen is the number of drained
exits that answer a drained enter.  Every drained enter is counted in it, is still pending, or was
overwritten by a later enter of its process and number; every drained exit is counted in it, or
came when no enter was pending. -/
theorem syscalls_seen_balance (target : Target) (steps : List LiveStep) :
    let table := ((Tracer.attach target).exec steps).tables.syscalls
    ∃ drained left, (fired steps).filterMap (Firing.syscallEvent target) = drained ++ left ∧
      ((Tracer.attach target).exec steps).kernel.events = left.map RingBufItem.of ∧
      table.seen = (pairs SyscallEvent.key SyscallEvent.opens drained).length ∧
      (drained.filter SyscallEvent.opens).length = table.seen + table.waiting +
        (overwriting SyscallEvent.key SyscallEvent.opens drained).length ∧
      (drained.filter fun e => !e.opens).length = table.seen +
        (unanswering SyscallEvent.key SyscallEvent.opens drained).length := by
  intro table
  obtain ⟨taken, h⟩ := exec_follows (.attach target) steps
  have hevents : ((fired steps).filterMap (Firing.syscallEvent target)).map RingBufItem.of =
      taken.events ++ ((Tracer.attach target).exec steps).kernel.events := by
    rw [← events_run]
    exact congrArg Rings.events h.rings_eq
  obtain ⟨drained, left, hsplit, htaken, hleft⟩ := List.map_eq_append_iff.mp hevents
  have htable : table = SyscallTable.ofEvents drained := by
    have htables : table = SyscallTable.drainSyscalls taken.events {} :=
      congrArg Tables.syscalls h.2
    rw [htables, ← htaken, SyscallTable.drainSyscalls_map_of]
  obtain ⟨hseen, henters⟩ := SyscallTable.ofEvents_balance drained
  refine ⟨drained, left, hsplit, hleft.symm, ?_, ?_, ?_⟩
  · rw [htable, hseen]
  · rw [htable, henters]
  · rw [htable, hseen, length_closings SyscallEvent.key]

end Peekbeam
