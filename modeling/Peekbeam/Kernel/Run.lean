import Peekbeam.Foundation.History
import Peekbeam.Kernel.Syscalls
import Peekbeam.Kernel.Sockets

/-!
# Runs of the in-kernel programs

`main` attaches six programs.  A `Firing` is one invocation of one of them; `Kernel.fire` is its
effect on the shared maps and rings, and a run (`Kernel.run`) is the effect of a list of firings
in the order the kernel made them.

The two kernel memory programs, which only filter and report, are defined here.  The rest of
the file is what every run shares: the filters are never written (`run_matchesTarget`), each
ring is written by its own programs only, and nobody but the syscall programs touches the two
stashes and nobody but the socket programs `TRACKED_SOCKS`.
-/

namespace Peekbeam

/-! ## Kernel memory -/

/-- The common body of `try_kmalloc` and `try_kfree`, given how the record's size is read. -/
def emitMem (h : Helpers) (ctx : TracePointContext) (kind : MemEventKind)
    (bytes : Except Int32 UInt64) (k : Kernel) : Kernel × Except UInt32 UInt32 :=
  let pid := ctx.tgid
  if !k.matchesTarget h pid then (k, .ok 0)
  else
    match bytes with
    | .error _ => (k, .error 1)
    | .ok bytes =>
      match k.memEvents.output { pid, kind, bytes, timestampNs := h.ktimeNs } h.memEventsError with
      | .error _ => (k, .error 1)
      | .ok memEvents => ({ k with memEvents }, .ok 0)

/-- `try_kmalloc`: `bytes_alloc` is at offset 32. -/
def tryKmalloc (h : Helpers) (ctx : TracePointContext) : Kernel → Kernel × Except UInt32 UInt32 :=
  emitMem h ctx .Alloc (ctx.readAt UInt64 32)

/-- `try_kfree`: the record carries no size. -/
def tryKfree (h : Helpers) (ctx : TracePointContext) : Kernel → Kernel × Except UInt32 UInt32 :=
  emitMem h ctx .Free (.ok 0)

/-! ## Firings -/

/-- The programs of the object file, by the tracepoint each is attached to. -/
inductive Tracepoint
  | sysEnter
  | sysExit
  | inetSockSetState
  | tcpRetransmitSkb
  | kmalloc
  | kfree
  deriving DecidableEq, Repr

/-- One invocation of a program. -/
structure Firing where
  tracepoint : Tracepoint
  helpers : Helpers
  ctx : TracePointContext

/-- The effect of one firing, with what the program returns to the kernel. -/
def Kernel.exec (k : Kernel) (f : Firing) : Kernel × UInt32 :=
  match f.tracepoint with
  | .sysEnter => sysEnter f.helpers f.ctx k
  | .sysExit => sysExit f.helpers f.ctx k
  | .inetSockSetState => (tryNetState f.helpers f.ctx k).map id exitCode
  | .tcpRetransmitSkb => (tryNetRetransmit f.helpers f.ctx k).map id exitCode
  | .kmalloc => (tryKmalloc f.helpers f.ctx k).map id exitCode
  | .kfree => (tryKfree f.helpers f.ctx k).map id exitCode

/-- The shared state after one firing. -/
def Kernel.fire (k : Kernel) (f : Firing) : Kernel := (k.exec f).1

/-- The shared state after a list of firings. -/
def Kernel.run (k : Kernel) (l : List Firing) : Kernel := l.foldl Kernel.fire k

@[simp] lemma run_nil (k : Kernel) : k.run [] = k := rfl

lemma run_concat (k : Kernel) (l : List Firing) (f : Firing) :
    k.run (l ++ [f]) = (k.run l).fire f := by
  simp [Kernel.run]

/-! ## What a firing leaves alone -/

/-- The part of the state a tracepoint's program may write, cut out of `k'` and pasted on
`k`. -/
def Tracepoint.frame (t : Tracepoint) (k k' : Kernel) : Kernel :=
  match t with
  | .sysEnter | .sysExit =>
    { k with
      events := k'.events
      pendingOpenPath := k'.pendingOpenPath
      pendingFd := k'.pendingFd
      fileEvents := k'.fileEvents }
  | .inetSockSetState => { k with trackedSocks := k'.trackedSocks, netEvents := k'.netEvents }
  | .tcpRetransmitSkb => { k with netEvents := k'.netEvents }
  | .kmalloc | .kfree => { k with memEvents := k'.memEvents }

lemma tryEmit_frame (h : Helpers) (ctx : TracePointContext) (kind : EventKind) (k : Kernel) :
    (tryEmit h ctx kind k).1 = Tracepoint.sysEnter.frame k (tryEmit h ctx kind k).1 := by
  unfold tryEmit
  dsimp only
  split
  · rfl
  · split
    · rfl
    · split
      · rfl
      · rw [handleFileSyscall, fileSyscall_frame]
        rfl

lemma tryNetState_frame (h : Helpers) (ctx : TracePointContext) (k : Kernel) :
    (tryNetState h ctx k).1 =
      Tracepoint.inetSockSetState.frame k (tryNetState h ctx k).1 := by
  unfold tryNetState
  dsimp only
  split
  · rfl
  · split
    · rfl
    · split
      · split <;> rfl
      · split
        · split <;> rfl
        · split <;> split <;> rfl

lemma tryNetRetransmit_frame (h : Helpers) (ctx : TracePointContext) (k : Kernel) :
    (tryNetRetransmit h ctx k).1 =
      Tracepoint.tcpRetransmitSkb.frame k (tryNetRetransmit h ctx k).1 := by
  unfold tryNetRetransmit
  split
  · rfl
  · split
    · rfl
    · split
      · rfl
      · split <;> rfl

lemma emitMem_frame (h : Helpers) (ctx : TracePointContext) (kind : MemEventKind)
    (bytes : Except Int32 UInt64) (k : Kernel) :
    (emitMem h ctx kind bytes k).1 = Tracepoint.kmalloc.frame k (emitMem h ctx kind bytes k).1 := by
  unfold emitMem
  dsimp only
  split
  · rfl
  · split
    · rfl
    · split <;> rfl

/-- **Frame.**  A firing changes nothing outside the part of the state its program writes. -/
theorem fire_frame (k : Kernel) (f : Firing) : k.fire f = f.tracepoint.frame k (k.fire f) := by
  obtain ⟨t, h, ctx⟩ := f
  cases t
  · exact tryEmit_frame h ctx .Enter k
  · exact tryEmit_frame h ctx .Exit k
  · exact tryNetState_frame h ctx k
  · exact tryNetRetransmit_frame h ctx k
  · exact emitMem_frame h ctx .Alloc (ctx.readAt UInt64 32) k
  · exact emitMem_frame h ctx .Free (.ok 0) k

@[simp] lemma fire_pidFilter (k : Kernel) (f : Firing) : (k.fire f).pidFilter = k.pidFilter := by
  rw [fire_frame]
  cases f.tracepoint <;> rfl

@[simp] lemma fire_cgroupFilter (k : Kernel) (f : Firing) :
    (k.fire f).cgroupFilter = k.cgroupFilter := by
  rw [fire_frame]
  cases f.tracepoint <;> rfl

/-- The filters are written once, before any program runs. -/
@[simp] lemma run_matchesTarget (k : Kernel) (l : List Firing) :
    (k.run l).matchesTarget = k.matchesTarget := by
  induction l using List.reverseRecOn with
  | nil => rfl
  | append_singleton l f ih =>
    funext h pid
    rw [← ih, run_concat]
    simp [Kernel.matchesTarget]

end Peekbeam
