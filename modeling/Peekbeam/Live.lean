import Peekbeam.Drain.Files
import Peekbeam.Drain.Memory
import Peekbeam.Drain.Net
import Peekbeam.Drain.Syscalls
import Peekbeam.Kernel.Run

/-!
# Draining while the programs run

The kernel does not wait for userspace: its programs fire between any two items that
`poll_events` takes from a ring.  A `Tracer` is both sides, the shared maps and rings of the
kernel and the tables of userspace, and a run (`Tracer.exec`) is any interleaving of firings with
the consumption of single items, from any of the four rings.

The programs append to the rings and never look at them (`fire_prepend`), so what was already
taken does not matter to them.  `polling_is_transparent` concludes that the tables are at every
moment those of a part of the records a run that is never drained has written, and those of all
its records once the rings are empty: what is proved about draining a finished run holds of a
live one.
-/

namespace Peekbeam

/-! ## Rings and tables -/

/-- The contents of the four ring buffers. -/
@[ext]
structure Rings where
  events : RingBuf SyscallEvent := []
  netEvents : RingBuf NetEvent := []
  fileEvents : RingBuf FileEvent := []
  memEvents : RingBuf MemEvent := []

instance : Append Rings where
  append r r' :=
    { events := r.events ++ r'.events
      netEvents := r.netEvents ++ r'.netEvents
      fileEvents := r.fileEvents ++ r'.fileEvents
      memEvents := r.memEvents ++ r'.memEvents }

namespace Rings

@[simp] lemma events_append (r r' : Rings) : (r ++ r').events = r.events ++ r'.events := rfl
@[simp] lemma netEvents_append (r r' : Rings) :
    (r ++ r').netEvents = r.netEvents ++ r'.netEvents := rfl
@[simp] lemma fileEvents_append (r r' : Rings) :
    (r ++ r').fileEvents = r.fileEvents ++ r'.fileEvents := rfl
@[simp] lemma memEvents_append (r r' : Rings) :
    (r ++ r').memEvents = r.memEvents ++ r'.memEvents := rfl

lemma append_assoc (r r' r'' : Rings) : r ++ r' ++ r'' = r ++ (r' ++ r'') := by
  ext1 <;> simp

lemma nil_append (r : Rings) : ({} : Rings) ++ r = r := by
  ext1 <;> simp

lemma append_nil (r : Rings) : r ++ ({} : Rings) = r := by
  ext1 <;> simp

lemma append_left_cancel {r r' r'' : Rings} (h : r ++ r' = r ++ r'') : r' = r'' := by
  ext1
  · exact List.append_cancel_left (congrArg events h)
  · exact List.append_cancel_left (congrArg netEvents h)
  · exact List.append_cancel_left (congrArg fileEvents h)
  · exact List.append_cancel_left (congrArg memEvents h)

end Rings

/-- The four rings, in the order `poll_events` drains them. -/
inductive Ring
  | events
  | netEvents
  | fileEvents
  | memEvents
  deriving DecidableEq, Repr

/-- `ring_buf.next()`: the oldest item of a ring, and the rings without it. -/
def Rings.pop (r : Rings) : Ring → Option (Rings × Rings)
  | .events =>
    match r.events with
    | [] => none
    | item :: events => some ({ events := [item] }, { r with events })
  | .netEvents =>
    match r.netEvents with
    | [] => none
    | item :: netEvents => some ({ netEvents := [item] }, { r with netEvents })
  | .fileEvents =>
    match r.fileEvents with
    | [] => none
    | item :: fileEvents => some ({ fileEvents := [item] }, { r with fileEvents })
  | .memEvents =>
    match r.memEvents with
    | [] => none
    | item :: memEvents => some ({ memEvents := [item] }, { r with memEvents })

lemma Rings.append_of_pop {r item rest : Rings} {ring : Ring} (h : r.pop ring = some (item, rest)) :
    item ++ rest = r := by
  cases ring <;>
  · simp only [Rings.pop] at h
    split at h
    · simp at h
    · rename_i hring
      simp only [Option.some.injEq, Prod.mk.injEq] at h
      obtain ⟨rfl, rfl⟩ := h
      ext1 <;> simp [hring]

/-- The contents of the kernel's rings. -/
def Kernel.rings (k : Kernel) : Rings where
  events := k.events
  netEvents := k.netEvents
  fileEvents := k.fileEvents
  memEvents := k.memEvents

/-- The same maps with other contents of the rings. -/
def Kernel.setRings (k : Kernel) (r : Rings) : Kernel :=
  { k with
    events := r.events
    netEvents := r.netEvents
    fileEvents := r.fileEvents
    memEvents := r.memEvents }

/-- The kernel before `taken` was consumed. -/
def Kernel.prepend (taken : Rings) (k : Kernel) : Kernel := k.setRings (taken ++ k.rings)

@[simp] lemma rings_setRings (k : Kernel) (r : Rings) : (k.setRings r).rings = r := rfl

@[simp] lemma setRings_rings (k : Kernel) : k.setRings k.rings = k := rfl

@[simp] lemma setRings_setRings (k : Kernel) (r r' : Rings) :
    (k.setRings r).setRings r' = k.setRings r' := rfl

lemma prepend_prepend (r r' : Rings) (k : Kernel) :
    (k.prepend r').prepend r = k.prepend (r ++ r') := by
  simp [Kernel.prepend, Rings.append_assoc]

/-- The tables userspace keeps. -/
structure Tables where
  syscalls : SyscallTable := {}
  connections : ConnMap := ∅
  files : FilesMap := ∅
  memEvents : MemEventStats := {}

/-- The four closures, each run on a ring of these contents. -/
def Tables.drain (t : Tables) (r : Rings) : Tables where
  syscalls := SyscallTable.drainSyscalls r.events t.syscalls
  connections := drainNetEvents r.netEvents t.connections
  files := drainFileEvents r.fileEvents t.files
  memEvents := drainMemEvents r.memEvents t.memEvents

/-- The tables of a trace in which the programs have fired as in `l`, once the rings are empty. -/
def Tables.after (target : Target) (l : List Firing) : Tables :=
  Tables.drain {} ((Kernel.load target).run l).rings

@[simp] lemma drain_nil (t : Tables) : t.drain {} = t := rfl

lemma drain_drain (t : Tables) (r r' : Rings) : (t.drain r).drain r' = t.drain (r ++ r') := by
  simp [Tables.drain, SyscallTable.drainSyscalls, drainNetEvents, drainFileEvents, drainMemEvents,
    drain_append]

/-! ## Both sides -/

/-- The maps and rings of the kernel, and the tables of userspace. -/
structure Tracer where
  kernel : Kernel
  tables : Tables := {}

/-- The state in which the programs are attached, before any of them runs. -/
def Tracer.attach (target : Target) : Tracer where
  kernel := Kernel.load target

/-- The body of a draining loop, if the ring has an item. -/
def Tracer.next (t : Tracer) (ring : Ring) : Option Tracer :=
  (t.kernel.rings.pop ring).map fun (item, rest) =>
    { kernel := t.kernel.setRings rest, tables := t.tables.drain item }

/-- `poll_events`, with no program firing meanwhile. -/
def Tracer.poll (t : Tracer) : Tracer where
  kernel := t.kernel.setRings {}
  tables := t.tables.drain t.kernel.rings

/-- What happens next: a program fires, or userspace takes an item from a ring. -/
inductive LiveStep
  | fire (f : Firing)
  | next (ring : Ring)

def Tracer.step (t : Tracer) : LiveStep → Tracer
  | .fire f => { t with kernel := t.kernel.fire f }
  | .next ring => (t.next ring).getD t

/-- A run of both sides. -/
def Tracer.exec (t : Tracer) (steps : List LiveStep) : Tracer := steps.foldl Tracer.step t

/-- The firings among the steps of a run. -/
def fired (steps : List LiveStep) : List Firing :=
  steps.filterMap fun
    | .fire f => some f
    | .next _ => none

/-! ## The programs do not look at the rings -/

lemma output_append {α : Type} [WireSize α] (taken ring : RingBuf α) (record : α)
    (err : Option Int32) :
    (taken ++ ring).output record err = (ring.output record err).map (taken ++ ·) := by
  cases err <;> simp [RingBuf.output, Except.map]

section Programs
variable (taken : Rings) (k : Kernel) (h : Helpers) (ctx : TracePointContext)

@[simp] lemma matchesTarget_prepend (pid : UInt32) :
    (k.prepend taken).matchesTarget h pid = k.matchesTarget h pid := rfl

lemma outputFile_prepend (event : FileEvent) :
    ((k.prepend taken).outputFile h event).1 = (k.outputFile h event).1.prepend taken := by
  rw [outputFile_eq, outputFile_eq]
  simp [Kernel.prepend, Kernel.setRings, Kernel.rings]

lemma stashOpenPath_prepend (pid : UInt32) :
    (stashOpenPath h ctx pid (k.prepend taken)).1 =
      (stashOpenPath h ctx pid k).1.prepend taken := by
  have hmap : (k.prepend taken).pendingOpenPath = k.pendingOpenPath := rfl
  unfold stashOpenPath
  rw [hmap]
  cases capturePath h ctx with
  | error e => rfl
  | ok pending =>
    dsimp only
    cases BpfHashMap.insert k.pendingOpenPath pid pending h.insertError <;> rfl

lemma stashFd_prepend (pid : UInt32) :
    (stashFd h ctx pid (k.prepend taken)).1 = (stashFd h ctx pid k).1.prepend taken := by
  have hmap : (k.prepend taken).pendingFd = k.pendingFd := rfl
  unfold stashFd
  rw [hmap]
  cases ctx.readAt Int64 16 with
  | error e => rfl
  | ok fd =>
    dsimp only
    cases BpfHashMap.insert k.pendingFd pid fd.toInt32 h.insertError <;> rfl

lemma emitOpenResult_prepend (pid : UInt32) :
    (emitOpenResult h ctx pid (k.prepend taken)).1 =
      (emitOpenResult h ctx pid k).1.prepend taken := by
  have hmap : (k.prepend taken).pendingOpenPath = k.pendingOpenPath := rfl
  unfold emitOpenResult
  dsimp only
  rw [hmap]
  cases k.pendingOpenPath.get pid with
  | none => rfl
  | some pending =>
    cases ctx.readAt Int64 16 with
    | error e => rfl
    | ok ret =>
      dsimp only
      split
      · rfl
      · exact outputFile_prepend taken { k with pendingOpenPath := k.pendingOpenPath.remove pid } h _

lemma emitFd_prepend (pid : UInt32) (kind : FileEventKind) (bytesOf : Int64 → Option Int64) :
    (emitFd h ctx pid kind bytesOf (k.prepend taken)).1 =
      (emitFd h ctx pid kind bytesOf k).1.prepend taken := by
  have hmap : (k.prepend taken).pendingFd = k.pendingFd := rfl
  unfold emitFd
  rw [hmap]
  cases k.pendingFd.get pid with
  | none => rfl
  | some fd =>
    cases ctx.readAt Int64 16 with
    | error e => rfl
    | ok ret =>
      dsimp only
      cases bytesOf ret with
      | none => rfl
      | some bytes =>
        exact outputFile_prepend taken { k with pendingFd := k.pendingFd.remove pid } h _

lemma fileSyscall_prepend (kind : EventKind) (pid : UInt32) (nr : Int64) :
    (fileSyscall h ctx kind pid nr (k.prepend taken)).1 =
      (fileSyscall h ctx kind pid nr k).1.prepend taken := by
  cases kind with
  | Enter =>
    unfold fileSyscall
    dsimp only
    split
    · exact stashOpenPath_prepend taken k h ctx pid
    · split
      · exact stashFd_prepend taken k h ctx pid
      · rfl
  | Exit =>
    unfold fileSyscall
    dsimp only
    split
    · exact emitOpenResult_prepend taken k h ctx pid
    · split
      · exact emitFd_prepend taken k h ctx pid .Read transferBytes
      · split
        · exact emitFd_prepend taken k h ctx pid .Write transferBytes
        · split
          · exact emitFd_prepend taken k h ctx pid .Close closeBytes
          · rfl

lemma tryEmit_prepend (kind : EventKind) :
    (tryEmit h ctx kind (k.prepend taken)).1 = (tryEmit h ctx kind k).1.prepend taken := by
  have hring : (k.prepend taken).events = taken.events ++ k.events := rfl
  unfold tryEmit
  dsimp only
  rw [matchesTarget_prepend, hring]
  split
  · rfl
  · cases ctx.readAt Int64 SYSCALL_NR_OFFSET with
    | error e => rfl
    | ok nr =>
      dsimp only
      rw [output_append]
      cases k.events.output _ h.eventsError with
      | error e => rfl
      | ok events => exact fileSyscall_prepend taken { k with events } h ctx kind ctx.tgid nr

lemma emitMem_prepend (kind : MemEventKind) (bytes : Except Int32 UInt64) :
    (emitMem h ctx kind bytes (k.prepend taken)).1 =
      (emitMem h ctx kind bytes k).1.prepend taken := by
  have hring : (k.prepend taken).memEvents = taken.memEvents ++ k.memEvents := rfl
  unfold emitMem
  dsimp only
  rw [matchesTarget_prepend, hring]
  split
  · rfl
  · cases bytes with
    | error e => rfl
    | ok bytes =>
      dsimp only
      rw [output_append]
      cases k.memEvents.output _ h.memEventsError <;> rfl

lemma tryNetRetransmit_prepend :
    (tryNetRetransmit h ctx (k.prepend taken)).1 =
      (tryNetRetransmit h ctx k).1.prepend taken := by
  have hring : (k.prepend taken).netEvents = taken.netEvents ++ k.netEvents := rfl
  have hmap : (k.prepend taken).trackedSocks = k.trackedSocks := rfl
  unfold tryNetRetransmit
  rw [hring, hmap]
  cases ctx.readAt UInt64 tcpRetransmitSkbLayout.skaddr with
  | error e => rfl
  | ok skaddr =>
    dsimp only
    split
    · rfl
    · cases readNetEvent .Retransmit h ctx with
      | error e => rfl
      | ok event =>
        dsimp only
        rw [output_append]
        cases k.netEvents.output event h.netEventsError <;> rfl

lemma tryNetState_prepend :
    (tryNetState h ctx (k.prepend taken)).1 = (tryNetState h ctx k).1.prepend taken := by
  have hmap : (k.prepend taken).trackedSocks = k.trackedSocks := rfl
  unfold tryNetState
  rw [hmap]
  cases ctx.readAt UInt64 inetSockSetStateLayout.skaddr with
  | error e => rfl
  | ok skaddr =>
    dsimp only
    rw [matchesTarget_prepend]
    split
    · rfl
    · cases (k.trackedSocks.get skaddr).isSome <;>
      · cases readNetEvent .StateChange h ctx with
        | error e => rfl
        | ok event =>
          have hring : (k.prepend taken).netEvents = taken.netEvents ++ k.netEvents := rfl
          simp only [Bool.not_false, Bool.not_true, Bool.false_eq_true, if_true, if_false, hring,
            output_append]
          cases k.netEvents.output event h.netEventsError with
          | error e => rfl
          | ok netEvents =>
            simp only [Except.map]
            split <;> rfl

end Programs

/-- **The programs do not look at the rings.**  A firing has the same effect whatever was taken
from them before. -/
theorem fire_prepend (taken : Rings) (k : Kernel) (f : Firing) :
    (k.prepend taken).fire f = (k.fire f).prepend taken := by
  obtain ⟨t, h, ctx⟩ := f
  cases t
  · exact tryEmit_prepend taken k h ctx .Enter
  · exact tryEmit_prepend taken k h ctx .Exit
  · exact tryNetState_prepend taken k h ctx
  · exact tryNetRetransmit_prepend taken k h ctx
  · exact emitMem_prepend taken k h ctx .Alloc (ctx.readAt UInt64 32)
  · exact emitMem_prepend taken k h ctx .Free (.ok 0)

lemma run_prepend (taken : Rings) (k : Kernel) (l : List Firing) :
    (k.prepend taken).run l = (k.run l).prepend taken := by
  induction l using List.reverseRecOn with
  | nil => rfl
  | append_singleton l f ih => rw [run_concat, run_concat, ih, fire_prepend]

/-! ## Runs of both sides -/

/-- `t` is what `t₀` becomes when the programs fire as in `l` and some of the records are
consumed, in some order: with `taken` put back, the kernel is as if none were, and the tables
are those of `taken`. -/
def Tracer.Follows (t₀ : Tracer) (l : List Firing) (taken : Rings) (t : Tracer) : Prop :=
  t₀.kernel.run l = t.kernel.prepend taken ∧ t.tables = t₀.tables.drain taken

namespace Tracer.Follows

variable {t₀ t t' : Tracer} {l : List Firing} {taken : Rings}

lemma refl (t : Tracer) : t.Follows [] {} t :=
  ⟨by simp [Kernel.prepend, Rings.nil_append], rfl⟩

lemma fire (h : t₀.Follows l taken t) (f : Firing) :
    t₀.Follows (l ++ [f]) taken { t with kernel := t.kernel.fire f } := by
  refine ⟨?_, h.2⟩
  rw [run_concat, h.1]
  apply fire_prepend

/-- A draining loop takes an item of one ring, and nothing else. -/
lemma next (h : t₀.Follows l taken t) {ring : Ring} (hnext : t.next ring = some t') :
    ∃ item, t₀.Follows l (taken ++ item) t' ∧
      t.kernel.rings.pop ring = some (item, t'.kernel.rings) := by
  obtain ⟨⟨item, rest⟩, hpop, rfl⟩ := Option.map_eq_some_iff.mp hnext
  have hrings := Rings.append_of_pop hpop
  refine ⟨item, ⟨?_, ?_⟩, hpop⟩
  · calc t₀.kernel.run l = t.kernel.prepend taken := h.1
      _ = (t.kernel.setRings rest).prepend (taken ++ item) := by
        simp [Kernel.prepend, Rings.append_assoc, hrings]
  · show t.tables.drain item = t₀.tables.drain (taken ++ item)
    rw [h.2, drain_drain]

/-- What was taken and what is left is everything that was written. -/
lemma rings_eq (h : t₀.Follows l taken t) : (t₀.kernel.run l).rings = taken ++ t.kernel.rings := by
  rw [h.1]
  rfl

/-- Taking the rest leaves the tables of everything. -/
lemma tables_poll (h : t₀.Follows l taken t) :
    t.poll.tables = t₀.tables.drain (t₀.kernel.run l).rings := by
  show t.tables.drain t.kernel.rings = _
  rw [h.2, drain_drain, h.rings_eq]

end Tracer.Follows

/-- **A live run follows a run that is not drained.** -/
lemma exec_follows (t : Tracer) (steps : List LiveStep) :
    ∃ taken, t.Follows (fired steps) taken (t.exec steps) := by
  induction steps using List.reverseRecOn with
  | nil => exact ⟨{}, .refl t⟩
  | append_singleton steps step ih =>
    obtain ⟨taken, h⟩ := ih
    have hexec : t.exec (steps ++ [step]) = (t.exec steps).step step := by
      simp [Tracer.exec]
    rw [hexec]
    cases step with
    | fire f =>
      refine ⟨taken, ?_⟩
      have hfired : fired (steps ++ [.fire f]) = fired steps ++ [f] := by simp [fired]
      rw [hfired]
      exact h.fire f
    | next ring =>
      have hfired : fired (steps ++ [.next ring]) = fired steps := by simp [fired]
      rw [hfired]
      cases hnext : (t.exec steps).next ring with
      | none =>
        refine ⟨taken, ?_⟩
        simpa [Tracer.step, hnext] using h
      | some t' =>
        obtain ⟨item, h', -⟩ := h.next hnext
        refine ⟨taken ++ item, ?_⟩
        simpa [Tracer.step, hnext] using h'

/-- **Polling is transparent.**  Let userspace take items from the rings at any moments, in any
order, while the programs fire.  The maps are those of a run without it; what each ring still
holds is the end of what that run wrote to it, and the tables are those of the records before.
Draining what is left gives the tables of all records of that run. -/
theorem polling_is_transparent (target : Target) (steps : List LiveStep) :
    let t := (Tracer.attach target).exec steps
    let k := (Kernel.load target).run (fired steps)
    (∃ taken, k.rings = taken ++ t.kernel.rings ∧ t.tables = Tables.drain {} taken) ∧
      k = t.kernel.setRings k.rings ∧ t.poll.tables = Tables.drain {} k.rings := by
  intro t k
  obtain ⟨taken, h⟩ := exec_follows (.attach target) steps
  refine ⟨⟨taken, h.rings_eq, h.2⟩, ?_, h.tables_poll⟩
  have hrings : k.rings = taken ++ t.kernel.rings := h.rings_eq
  rw [hrings]
  exact h.1

/-- A `kfree` in process `pid`. -/
def kfreeBy (pid : UInt32) : Firing where
  tracepoint := .kfree
  helpers := .plain 0
  ctx := { tgid := pid, record := fun _ => 0, readError := fun _ => none }

end Peekbeam
