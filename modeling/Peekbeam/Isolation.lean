import Peekbeam.Kernel.Run

/-!
# Unrelated activity

Tracepoints fire for every task of the host.  A firing concerns the trace if its task matches the
target, or if it acts on a socket that is tracked at that moment; the others are `foreign`.  No
program does anything at a foreign firing (`fire_of_foreign`), so a run and the same run without
its foreign firings end in the same maps and the same rings (`run_related`): what is reported
about the target does not depend on what else happens on the host (FR2.2).
-/

namespace Peekbeam

open History

/-- The socket address a firing reads from its record, for the two socket programs. -/
def Firing.socket (f : Firing) : Option UInt64 :=
  match f.tracepoint with
  | .inetSockSetState => (f.ctx.readAt UInt64 inetSockSetStateLayout.skaddr).toOption
  | .tcpRetransmitSkb => (f.ctx.readAt UInt64 tcpRetransmitSkbLayout.skaddr).toOption
  | _ => none

/-- The firing neither matches the target nor acts on a tracked socket. -/
def Kernel.foreign (k : Kernel) (f : Firing) : Bool :=
  !k.matchesTarget f.helpers f.ctx.tgid &&
    f.socket.all fun skaddr => (k.trackedSocks.get skaddr).isNone

/-- The firings of a run that concern the trace when they fire. -/
def Kernel.related (k : Kernel) (l : List Firing) : List Firing :=
  effective Kernel.fire Kernel.foreign k l

/-! ## One firing -/

section Programs
variable {k : Kernel} {h : Helpers} {ctx : TracePointContext}

lemma tryEmit_of_foreign (hmatch : k.matchesTarget h ctx.tgid = false) (kind : EventKind) :
    (tryEmit h ctx kind k).1 = k := by
  simp [tryEmit, hmatch]

lemma emitMem_of_foreign (hmatch : k.matchesTarget h ctx.tgid = false) (kind : MemEventKind)
    (bytes : Except Int32 UInt64) : (emitMem h ctx kind bytes k).1 = k := by
  simp [emitMem, hmatch]

lemma tryNetState_of_foreign (hmatch : k.matchesTarget h ctx.tgid = false)
    (hsock : ∀ skaddr, ctx.readAt UInt64 inetSockSetStateLayout.skaddr = .ok skaddr →
      k.trackedSocks.get skaddr = none) : (tryNetState h ctx k).1 = k := by
  unfold tryNetState
  cases hread : ctx.readAt UInt64 inetSockSetStateLayout.skaddr with
  | error e => rfl
  | ok skaddr => simp [hmatch, hsock skaddr hread]

/-- `try_net_retransmit` asks for the socket only. -/
lemma tryNetRetransmit_of_foreign
    (hsock : ∀ skaddr, ctx.readAt UInt64 tcpRetransmitSkbLayout.skaddr = .ok skaddr →
      k.trackedSocks.get skaddr = none) : (tryNetRetransmit h ctx k).1 = k := by
  unfold tryNetRetransmit
  cases hread : ctx.readAt UInt64 tcpRetransmitSkbLayout.skaddr with
  | error e => rfl
  | ok skaddr => simp [hsock skaddr hread]

end Programs

/-- **A foreign firing leaves no trace.** -/
lemma fire_of_foreign (k : Kernel) (f : Firing) (hf : k.foreign f = true) : k.fire f = k := by
  obtain ⟨hmatch, hsock⟩ := Bool.and_eq_true_iff.mp hf
  have hmatch : k.matchesTarget f.helpers f.ctx.tgid = false := by simpa using hmatch
  have hsock : ∀ skaddr, f.socket = some skaddr → k.trackedSocks.get skaddr = none := by
    intro skaddr hs
    simpa [hs] using hsock
  unfold Kernel.fire Kernel.exec
  unfold Firing.socket at hsock
  cases ht : f.tracepoint with
  | sysEnter => exact tryEmit_of_foreign hmatch .Enter
  | sysExit => exact tryEmit_of_foreign hmatch .Exit
  | inetSockSetState =>
    rw [ht] at hsock
    exact tryNetState_of_foreign hmatch fun skaddr hread =>
      hsock skaddr (by simp [hread, Except.toOption])
  | tcpRetransmitSkb =>
    rw [ht] at hsock
    exact tryNetRetransmit_of_foreign fun skaddr hread =>
      hsock skaddr (by simp [hread, Except.toOption])
  | kmalloc => exact emitMem_of_foreign hmatch .Alloc (f.ctx.readAt UInt64 32)
  | kfree => exact emitMem_of_foreign hmatch .Free (.ok 0)

/-! ## Runs -/

/-- **Unrelated activity does not influence the trace (FR2.2).**  Deleting every foreign firing
from a run changes neither the maps nor the rings it ends with. -/
theorem run_related (target : Target) (l : List Firing) :
    (Kernel.load target).run ((Kernel.load target).related l) = (Kernel.load target).run l :=
  foldl_effective fire_of_foreign _ l

end Peekbeam
