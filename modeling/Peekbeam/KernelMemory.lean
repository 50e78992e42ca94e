import Peekbeam.TargetScope

/-!
# Kernel allocations end to end

The `kmem` programs report what the memory panel adds up.  `kernel_allocations_exact` follows the
numbers from the firings to the panel: they count the firings of the target whose record could be
read and found room in its ring, each once, whatever else fires in between and however the ring is
drained.
-/

namespace Peekbeam

/-- What was allocated, `bytes_alloc` in a `kmalloc` record; what was requested is not read. -/
def Firing.allocSize (f : Firing) : UInt64 := f.ctx.field UInt64 32

/-- A `kmalloc` of the target that is reported. -/
structure Firing.Allocates (target : Target) (f : Firing) : Prop where
  tracepoint : f.tracepoint = .kmalloc
  accepted : f.Accepted target
  readable : f.ctx.readError 32 = none
  delivered : f.helpers.memEventsError = none

/-- A `kfree` of the target that is reported. -/
structure Firing.Frees (target : Target) (f : Firing) : Prop where
  tracepoint : f.tracepoint = .kfree
  accepted : f.Accepted target
  delivered : f.helpers.memEventsError = none

instance (target : Target) (f : Firing) : Decidable (f.Allocates target) :=
  decidable_of_iff (f.tracepoint = .kmalloc ∧ f.Accepted target ∧ f.ctx.readError 32 = none ∧
      f.helpers.memEventsError = none)
    ⟨fun ⟨h₁, h₂, h₃, h₄⟩ => ⟨h₁, h₂, h₃, h₄⟩,
      fun h => ⟨h.tracepoint, h.accepted, h.readable, h.delivered⟩⟩

instance (target : Target) (f : Firing) : Decidable (f.Frees target) :=
  decidable_of_iff (f.tracepoint = .kfree ∧ f.Accepted target ∧ f.helpers.memEventsError = none)
    ⟨fun ⟨h₁, h₂, h₃⟩ => ⟨h₁, h₂, h₃⟩, fun h => ⟨h.tracepoint, h.accepted, h.delivered⟩⟩

/-- The record a firing leaves in `MEM_EVENTS`. -/
def Firing.memEvent (target : Target) (f : Firing) : Option MemEvent :=
  if f.Allocates target then
    some { pid := f.ctx.tgid, kind := .Alloc, bytes := f.allocSize, timestampNs := f.helpers.ktimeNs }
  else if f.Frees target then
    some { pid := f.ctx.tgid, kind := .Free, bytes := 0, timestampNs := f.helpers.ktimeNs }
  else none

/-- The two programs, by the outcome of reading the size. -/
lemma memEvents_emitMem {k : Kernel} {h : Helpers} {ctx : TracePointContext} {kind : MemEventKind}
    {bytes : Except Int32 UInt64} :
    (emitMem h ctx kind bytes k).1.memEvents = k.memEvents ++
      if k.matchesTarget h ctx.tgid = true ∧ h.memEventsError = none then
        (bytes.toOption.map fun bytes =>
          RingBufItem.of ⟨ctx.tgid, kind, bytes, h.ktimeNs⟩).toList
      else [] := by
  unfold emitMem
  cases hmatch : k.matchesTarget h ctx.tgid with
  | false => simp [hmatch]
  | true =>
    cases bytes with
    | error e => simp [hmatch, Except.toOption]
    | ok bytes => cases herror : h.memEventsError <;> simp [hmatch, RingBuf.output, Except.toOption]

/-- A firing appends its record, if it leaves one. -/
lemma memEvents_fire {target : Target} {k : Kernel}
    (hk : k.matchesTarget = (Kernel.load target).matchesTarget) (f : Firing) :
    (k.fire f).memEvents = k.memEvents ++ (f.memEvent target).toList.map RingBufItem.of := by
  have hother : ∀ f : Firing, f.tracepoint ≠ .kmalloc → f.tracepoint ≠ .kfree →
      f.memEvent target = none := by
    intro f halloc hfree
    rw [Firing.memEvent, if_neg fun h => halloc h.tracepoint, if_neg fun h => hfree h.tracepoint]
  have hmatch : k.matchesTarget f.helpers f.ctx.tgid = true ↔ f.Accepted target := by
    rw [hk]
    rfl
  rw [fire_frame]
  cases ht : f.tracepoint with
  | sysEnter | sysExit | inetSockSetState | tcpRetransmitSkb =>
    rw [hother f (by simp [ht]) (by simp [ht])]
    simp [Tracepoint.frame]
  | kmalloc =>
    have hfire : k.fire f = (emitMem f.helpers f.ctx .Alloc (f.ctx.readAt UInt64 32) k).1 := by
      simp only [Kernel.fire, Kernel.exec, ht]
      rfl
    show (k.fire f).memEvents = _
    rw [hfire, memEvents_emitMem, Firing.memEvent]
    by_cases hread : f.ctx.readError 32 = none
    · by_cases hacc : k.matchesTarget f.helpers f.ctx.tgid = true ∧
          f.helpers.memEventsError = none
      · have hallocates : f.Allocates target := ⟨ht, hmatch.mp hacc.1, hread, hacc.2⟩
        rw [if_pos hacc, if_pos hallocates, TracePointContext.readAt_of_readError_none hread]
        rfl
      · have hallocates : ¬ f.Allocates target := fun h =>
          hacc ⟨hmatch.mpr h.accepted, h.delivered⟩
        have hfrees : ¬ f.Frees target := fun h => by simpa [ht] using h.tracepoint
        rw [if_neg hacc, if_neg hallocates, if_neg hfrees]
        rfl
    · obtain ⟨e, he⟩ := Option.ne_none_iff_exists'.mp hread
      have hallocates : ¬ f.Allocates target := fun h => hread h.readable
      have hfrees : ¬ f.Frees target := fun h => by simpa [ht] using h.tracepoint
      rw [TracePointContext.readAt_of_readError he, if_neg hallocates, if_neg hfrees]
      simp [Except.toOption]
  | kfree =>
    have hfire : k.fire f = (emitMem f.helpers f.ctx .Free (.ok 0) k).1 := by
      simp only [Kernel.fire, Kernel.exec, ht]
      rfl
    show (k.fire f).memEvents = _
    rw [hfire, memEvents_emitMem, Firing.memEvent]
    have hallocates : ¬ f.Allocates target := fun h => by simpa [ht] using h.tracepoint
    by_cases hacc : k.matchesTarget f.helpers f.ctx.tgid = true ∧
        f.helpers.memEventsError = none
    · have hfrees : f.Frees target := ⟨ht, hmatch.mp hacc.1, hacc.2⟩
      rw [if_pos hacc, if_neg hallocates, if_pos hfrees]
      rfl
    · have hfrees : ¬ f.Frees target := fun h =>
        hacc ⟨hmatch.mpr h.accepted, h.delivered⟩
      rw [if_neg hacc, if_neg hallocates, if_neg hfrees]
      rfl

lemma memEvents_run (target : Target) (l : List Firing) :
    ((Kernel.load target).run l).memEvents =
      (l.filterMap (Firing.memEvent target)).map RingBufItem.of := by
  induction l using List.reverseRecOn with
  | nil => rfl
  | append_singleton l f ih =>
    rw [run_concat, memEvents_fire (run_matchesTarget _ _), ih, List.filterMap_append,
      List.map_append]
    cases hevent : f.memEvent target <;> simp [hevent]

/-! ## The panel -/

/-- The kinds of the records are those of the firings. -/
lemma memEvent_kind (target : Target) (f : Firing) :
    ((f.memEvent target).any fun e => e.kind = .Alloc) = decide (f.Allocates target) ∧
      ((f.memEvent target).any fun e => e.kind = .Free) = decide (f.Frees target) := by
  unfold Firing.memEvent
  by_cases halloc : f.Allocates target
  · have hfree : ¬ f.Frees target := fun h => by simpa [halloc.tracepoint] using h.tracepoint
    simp [halloc, hfree]
  · by_cases hfree : f.Frees target <;> simp [halloc, hfree]

lemma countP_filterMap_memEvent (target : Target) (p : MemEvent → Bool) (l : List Firing) :
    (l.filterMap (Firing.memEvent target)).countP p =
      l.countP fun f => (f.memEvent target).any p := by
  rw [List.countP_filterMap]
  refine List.countP_congr fun f _ => ?_
  cases f.memEvent target <;> simp

lemma allocatedIn_filterMap_memEvent (target : Target) (l : List Firing) :
    allocatedIn (l.filterMap (Firing.memEvent target)) =
      ((l.filter (·.Allocates target)).map fun f => f.allocSize.toNat).sum := by
  induction l with
  | nil => rfl
  | cons f l ih =>
    rw [List.filterMap_cons, List.filter_cons]
    by_cases halloc : f.Allocates target
    · have hevent : f.memEvent target = some ⟨f.ctx.tgid, .Alloc, f.allocSize, f.helpers.ktimeNs⟩ :=
        if_pos halloc
      rw [hevent, if_pos (by simpa using halloc)]
      simpa [allocatedIn, MemEvent.allocated] using ih
    · rw [if_neg (by simpa using halloc), ← ih]
      by_cases hfree : f.Frees target
      · have hevent : f.memEvent target = some ⟨f.ctx.tgid, .Free, 0, f.helpers.ktimeNs⟩ :=
          (if_neg halloc).trans (if_pos hfree)
        rw [hevent]
        simp [allocatedIn, MemEvent.allocated]
      · have hevent : f.memEvent target = none := (if_neg halloc).trans (if_neg hfree)
        rw [hevent]

/-- The counters of a trace, once the ring is empty. -/
lemma memEvents_after (target : Target) (l : List Firing) :
    let shown := (Tables.after target l).memEvents
    shown.allocCount = l.countP (·.Allocates target) ∧
      shown.allocBytes.toNat =
        ((l.filter (·.Allocates target)).map fun f => f.allocSize.toNat).sum % 2 ^ 64 ∧
      shown.freeCount = l.countP (·.Frees target) := by
  intro shown
  have hshown : shown = memStatsOf (l.filterMap (Firing.memEvent target)) := by
    rw [← drainMemEvents_map_of, ← memEvents_run]
    rfl
  obtain ⟨hallocs, hbytes, hfrees⟩ := memStatsOf_eq (l.filterMap (Firing.memEvent target))
  rw [hshown, hallocs, hbytes, hfrees, allocatedIn_filterMap_memEvent, countP_filterMap_memEvent,
    countP_filterMap_memEvent]
  refine ⟨?_, rfl, ?_⟩
  · exact List.countP_congr fun f _ => by rw [(memEvent_kind target f).1]
  · exact List.countP_congr fun f _ => by rw [(memEvent_kind target f).2]

/-- **The allocation counters are exact.**  However the ring is drained while the programs fire,
once it is empty the panel counts every `kmalloc` of the target whose size could be read and whose
record found room, adds up their sizes modulo `2 ^ 64`, and counts every `kfree` of the target
whose record found room; nothing else is counted. -/
theorem kernel_allocations_exact (target : Target) (steps : List LiveStep) :
    let shown := ((Tracer.attach target).exec steps).poll.tables.memEvents
    shown.allocCount = (fired steps).countP (·.Allocates target) ∧
      shown.allocBytes.toNat =
        (((fired steps).filter (·.Allocates target)).map fun f => f.allocSize.toNat).sum % 2 ^ 64 ∧
      shown.freeCount = (fired steps).countP (·.Frees target) := by
  obtain ⟨taken, h⟩ := exec_follows (.attach target) steps
  have hshown : ((Tracer.attach target).exec steps).poll.tables = .after target (fired steps) :=
    h.tables_poll
  rw [hshown]
  exact memEvents_after target (fired steps)

end Peekbeam
