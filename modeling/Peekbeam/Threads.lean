import Peekbeam.Kernel.Run
import Peekbeam.Foundation.SharedSlot

/-!
# Syscall firings of threads

The syscall programs know a firing by its process id only.  The statements about them are about
threads, so a run is recorded here as a list of `SyscallFiring`s, each with the thread that made
it; the thread is not visible to the programs.

`SyscallRun` is what every such run satisfies: the firings are of target processes and reach
`EVENTS`, and each thread enters and exits its calls in turn.  Calls already in progress when
tracing starts are given by `init`, and a call may be left unfinished.

`afterSyscalls target l` is the state of the in-kernel programs after the firings `l`.
-/

namespace Peekbeam

open History SharedSlot

/-- A firing of `sys_enter` or `sys_exit`, with the thread it fired in. -/
structure SyscallFiring (τ : Type) where
  thread : τ
  kind : EventKind
  helpers : Helpers
  ctx : TracePointContext

/-- A call in progress when tracing starts. -/
structure OngoingCall where
  nr : UInt64
  enterNs : UInt64
  deriving DecidableEq

namespace SyscallFiring

variable {τ : Type}

def toFiring (f : SyscallFiring τ) : Firing where
  tracepoint :=
    match f.kind with
    | .Enter => .sysEnter
    | .Exit => .sysExit
  helpers := f.helpers
  ctx := f.ctx

def pid (f : SyscallFiring τ) : UInt32 := f.ctx.tgid

/-- The syscall number in the record. -/
def nr (f : SyscallFiring τ) : Int64 := f.ctx.field Int64 SYSCALL_NR_OFFSET

/-- The number as userspace sees it. -/
def syscallNr (f : SyscallFiring τ) : UInt64 := f.nr.toUInt64

def time (f : SyscallFiring τ) : UInt64 := f.helpers.ktimeNs

def opens (f : SyscallFiring τ) : Bool := f.kind = .Enter

/-- The record the firing writes to `EVENTS`. -/
def event (f : SyscallFiring τ) : SyscallEvent where
  pid := f.pid
  kind := f.kind
  syscallNr := f.syscallNr
  timestampNs := f.time

/-- The process and syscall number of the call a firing enters or exits. -/
def key (f : SyscallFiring τ) : UInt32 × UInt64 := (f.pid, f.syscallNr)

/-- The firing is of a process of the target and its record reaches `EVENTS`. -/
structure Delivered (target : Target) (f : SyscallFiring τ) : Prop where
  ofTarget : (Kernel.load target).matchesTarget f.helpers f.pid = true
  readsNr : f.ctx.readError SYSCALL_NR_OFFSET = none
  output : f.helpers.eventsError = none

/-- A firing with small numbers in its record, during which nothing fails: `nr` at offset 8 and
`arg` at offset 16. -/
def plain (thread : τ) (pid : UInt32) (kind : EventKind) (nr arg : UInt8) (time : UInt64) :
    SyscallFiring τ where
  thread
  kind
  helpers := .plain time
  ctx :=
    { tgid := pid
      record := fun off => if off = 8 then nr else if off = 16 then arg else 0
      readError := fun _ => none }

lemma plain_delivered (thread : τ) (pid : UInt32) (kind : EventKind) (nr arg : UInt8)
    (time : UInt64) : (plain thread pid kind nr arg time).Delivered (.Pid pid) where
  ofTarget := matchesTarget_load_pid _ pid
  readsNr := rfl
  output := rfl

end SyscallFiring

/-! ## Runs -/

section Runs
variable {τ : Type}

/-- The state of the programs after the firings `l`. -/
def afterSyscalls (target : Target) (l : List (SyscallFiring τ)) : Kernel :=
  (Kernel.load target).run (l.map SyscallFiring.toFiring)

lemma afterSyscalls_concat (target : Target) (l : List (SyscallFiring τ))
    (f : SyscallFiring τ) :
    afterSyscalls target (l ++ [f]) = (afterSyscalls target l).fire f.toFiring := by
  simp [afterSyscalls, run_concat]

lemma fire_toFiring (k : Kernel) (f : SyscallFiring τ) :
    k.fire f.toFiring = (tryEmit f.helpers f.ctx f.kind k).1 := by
  cases hk : f.kind <;> simp [Kernel.fire, Kernel.exec, SyscallFiring.toFiring, hk] <;> rfl

/-- A delivered firing writes its record and then does the file bookkeeping. -/
lemma afterSyscalls_concat_of_delivered {target : Target} {l : List (SyscallFiring τ)}
    {f : SyscallFiring τ} (hf : f.Delivered target) :
    afterSyscalls target (l ++ [f]) =
      (fileSyscall f.helpers f.ctx f.kind f.pid f.nr
        { afterSyscalls target l with
          events := (afterSyscalls target l).events ++ [RingBufItem.of f.event] }).1 := by
  have hmatch : (afterSyscalls target l).matchesTarget f.helpers f.ctx.tgid = true := by
    rw [afterSyscalls, run_matchesTarget]
    exact hf.ofTarget
  rw [afterSyscalls_concat, fire_toFiring]
  simp only [tryEmit, hmatch, TracePointContext.readAt_of_readError_none hf.readsNr,
    RingBuf.output, hf.output]
  rfl

/-- Every delivered firing puts its record on `EVENTS`, in order. -/
lemma afterSyscalls_events {target : Target} {l : List (SyscallFiring τ)}
    (hl : ∀ f ∈ l, f.Delivered target) :
    (afterSyscalls target l).events = (l.map SyscallFiring.event).map RingBufItem.of := by
  induction l using List.reverseRecOn with
  | nil => rfl
  | append_singleton l f ih =>
    simp only [List.mem_append, List.mem_singleton] at hl
    rw [afterSyscalls_concat_of_delivered (hl f (Or.inr rfl)), fileSyscall_frame]
    simp [ih fun g hg => hl g (Or.inl hg)]

variable [DecidableEq τ]

/-- The calls in progress at the start, as the alternation of calls sees them. -/
def initialKey (proc : τ → UInt32) (init : τ → Option OngoingCall) (th : τ) :
    Option (UInt32 × UInt64) :=
  (init th).map fun call => (proc th, call.nr)

/-- The enter firing of the call a thread is inside, if it fired. -/
def ownEnter (l : List (SyscallFiring τ)) (th : τ) : Option (SyscallFiring τ) :=
  held SyscallFiring.thread SyscallFiring.opens l th

/-- A run of syscall firings of target processes: every record reaches `EVENTS`, the firings
of a thread carry its process, and each thread enters and exits its calls in turn. -/
structure SyscallRun (target : Target) (proc : τ → UInt32) (init : τ → Option OngoingCall)
    (l : List (SyscallFiring τ)) : Prop where
  delivered : ∀ f ∈ l, f.Delivered target
  pid : ∀ f ∈ l, f.pid = proc f.thread
  alternates : Stepwise (Alternates SyscallFiring.thread SyscallFiring.key SyscallFiring.opens
    (initialKey proc init)) l

variable {target : Target} {proc : τ → UInt32} {init : τ → Option OngoingCall}
  {l : List (SyscallFiring τ)}

lemma SyscallRun.of_isPrefix (h : SyscallRun target proc init l) {p : List (SyscallFiring τ)}
    (hp : p <+: l) : SyscallRun target proc init p where
  delivered f hf := h.delivered f (hp.subset hf)
  pid f hf := h.pid f (hp.subset hf)
  alternates := h.alternates.of_isPrefix hp

/-- The enter firing of the call that an exit leaves is one of the same process and number. -/
lemma SyscallRun.key_ownEnter {f e : SyscallFiring τ} (h : SyscallRun target proc init (l ++ [f]))
    (hclose : f.opens = false) (hown : ownEnter l f.thread = some e) : e.key = f.key :=
  (stepwise_concat.mp h.alternates).2.key_eq hclose hown

/-- A run up to and including one of its firings. -/
lemma SyscallRun.of_split (h : SyscallRun target proc init l) {pre post : List (SyscallFiring τ)}
    {f : SyscallFiring τ} (hl : l = pre ++ f :: post) :
    SyscallRun target proc init (pre ++ [f]) :=
  h.of_isPrefix ⟨post, by simp [hl]⟩

end Runs

/-! ## Two threads in one syscall -/

open SyscallFiring (plain plain_delivered)

/-- Two threads of process 1 overlap inside `read` (63), on descriptors 3 and 4. -/
def overlap : List (SyscallFiring Bool) :=
  [plain false 1 .Enter 63 3 10, plain true 1 .Enter 63 4 20,
    plain false 1 .Exit 63 0 30, plain true 1 .Exit 63 0 40]

lemma overlap_run : SyscallRun (.Pid 1) (fun _ => 1) (fun _ => none) overlap where
  delivered := by simp [overlap, plain_delivered]
  pid := by simp [overlap, plain, SyscallFiring.pid]
  alternates := by decide +kernel

end Peekbeam
