import Peekbeam.Threads

/-!
# File tracing: whose arguments a file event carries

A file event is assembled from two firings: the pathname or the descriptor is stashed at
`sys_enter`, the result is read at `sys_exit`.  Each process has one entry per stash, whatever
the number of its threads.  This file states what the events say about the calls.

* `file_tracing_exact` — for processes of one thread each, an entry is always the argument of
  the call in progress, so every event describes the call that just returned, whatever fails
  on the way; and when nothing fails there is exactly one event per successful call that was
  seen to begin.
* `fd_events_by_process` — for processes of many threads, a returning call is reported with the
  descriptor of its process's most recent entry into one of the five descriptor syscalls, and
  not at all if another return used that entry up.  That is the call's own descriptor when no
  other thread of the process was at one of the five meanwhile; `overlap_takes_the_wrong_fd`
  shows it is not in general.

Both are instances of the lossy slots of `Foundation/SharedSlot.lean`, with the process as the
slot.
-/

namespace Peekbeam

open History SharedSlot

attribute [local irreducible] TracePointContext.field

variable {τ : Type}

/-! ## What a firing says about its call -/

namespace SyscallFiring

/-- The return value in an exit record. -/
def ret (f : SyscallFiring τ) : Int64 := f.ctx.field Int64 16

/-- The descriptor argument in an enter record. -/
def fdArg (f : SyscallFiring τ) : Int32 := (f.ctx.field Int64 16).toInt32

/-- The pathname argument of an enter, as far as user memory shows it. -/
def pathArg (f : SyscallFiring τ) : Option PendingOpen := (capturePath f.helpers f.ctx).toOption

/-- The call that `f` exits is a file access and returned successfully: an open, a read or a
write returned a non-negative number, a close returned 0. -/
def Succeeded (f : SyscallFiring τ) : Prop :=
  match fileKind f.nr with
  | none => False
  | some .Close => f.ret = 0
  | some _ => 0 ≤ f.ret

instance (f : SyscallFiring τ) : Decidable f.Succeeded :=
  match h : fileKind f.nr with
  | none => .isFalse (by simp [Succeeded, h])
  | some .Close => decidable_of_iff (f.ret = 0) (by simp [Succeeded, h])
  | some .Open | some .Read | some .Write =>
    decidable_of_iff (0 ≤ f.ret) (by simp [Succeeded, h])

/-- The event of the call entered by `e` and exited by `f`. -/
def fileEvent (e f : SyscallFiring τ) : Option FileEvent :=
  if f.Succeeded then
    match fileKind f.nr with
    | none => none
    | some .Open => e.pathArg.map fun pathname =>
        { pid := f.pid, kind := .Open, fd := f.ret.toInt32, bytes := 0
          pathLen := pathname.pathLen, path := pathname.path
          timestampNs := f.helpers.laterKtimeNs }
    | some kind => some
        { pid := f.pid, kind, fd := e.fdArg, bytes := if kind = .Close then 0 else f.ret
          pathLen := 0, path := Vector.replicate FILE_PATH_MAX 0
          timestampNs := f.helpers.laterKtimeNs }
  else none

/-- The slot of `PENDING_OPEN_PATH` a firing uses. -/
def pathSlot (f : SyscallFiring τ) : Option UInt32 := if usesPath f.nr then some f.pid else none

/-- The slot of `PENDING_FD` a firing uses. -/
def fdSlot (f : SyscallFiring τ) : Option UInt32 := if usesFd f.nr then some f.pid else none

/-- The descriptor an enter stashes, if its record can be read. -/
def fdCapture (f : SyscallFiring τ) : Option Int32 :=
  ((f.ctx.readAt Int64 16).map Int64.toInt32).toOption

/-- Nothing fails during the firing `f` of the programs in state `k`: the record is readable,
the one map insertion it may attempt succeeds, and `FILE_EVENTS` has room. -/
structure Unfailing (k : Kernel) (f : SyscallFiring τ) : Prop where
  readable : f.ctx.Readable
  inserts : f.helpers.insertError = none
  roomPath : f.opens = true → usesPath f.nr = true → k.pendingOpenPath.HasRoom f.pid
  roomFd : f.opens = true → usesFd f.nr = true → k.pendingFd.HasRoom f.pid
  fileEvents : f.helpers.fileEventsError = none

/-- The pathname of an open is readable in user memory. -/
def PathReadable (f : SyscallFiring τ) : Prop :=
  f.opens = true → usesPath f.nr = true → f.pathArg.isSome

lemma nr_eq_of_key {f g : SyscallFiring τ} (h : f.key = g.key) : f.nr = g.nr :=
  congrArg Int64.ofUInt64 (congrArg Prod.snd h)

lemma pathSlot_of_key {f g : SyscallFiring τ} (h : f.key = g.key) : f.pathSlot = g.pathSlot := by
  rw [pathSlot, pathSlot, nr_eq_of_key h, show f.pid = g.pid from congrArg Prod.fst h]

lemma fdSlot_of_key {f g : SyscallFiring τ} (h : f.key = g.key) : f.fdSlot = g.fdSlot := by
  rw [fdSlot, fdSlot, nr_eq_of_key h, show f.pid = g.pid from congrArg Prod.fst h]

@[simp] lemma pathSlot_eq_some {f : SyscallFiring τ} {pid : UInt32} :
    f.pathSlot = some pid ↔ usesPath f.nr = true ∧ f.pid = pid := by
  simp [pathSlot]

@[simp] lemma fdSlot_eq_some {f : SyscallFiring τ} {pid : UInt32} :
    f.fdSlot = some pid ↔ usesFd f.nr = true ∧ f.pid = pid := by
  simp [fdSlot]

lemma kind_of_opens {f : SyscallFiring τ} (h : f.opens = true) : f.kind = .Enter := by
  simpa [opens] using h

lemma kind_of_closes {f : SyscallFiring τ} (h : f.opens = false) : f.kind = .Exit := by
  cases hk : f.kind with
  | Enter => simp [opens, hk] at h
  | Exit => rfl

lemma fdCapture_eq_some {f : SyscallFiring τ} {fd : Int32} (h : f.fdCapture = some fd) :
    fd = f.fdArg := by
  unfold fdCapture TracePointContext.readAt at h
  split at h
  · simp [Except.map, Except.toOption] at h
  · simpa [Except.map, Except.toOption, fdArg] using h.symm

lemma fdCapture_of_readable {f : SyscallFiring τ} (h : f.ctx.Readable) :
    f.fdCapture = some f.fdArg := by
  simp [fdCapture, h.readAt, Except.map, Except.toOption, fdArg]

/-- What the program reports from the stashes is the event of the call whose arguments they
hold. -/
lemma callEvent_eq_fileEvent {e f : SyscallFiring τ} {path : Option PendingOpen}
    {fd : Option Int32} (hpath : usesPath f.nr = true → path = e.pathArg)
    (hfd : usesFd f.nr = true → fd = some e.fdArg) :
    callEvent f.helpers f.pid f.nr f.ret path fd = fileEvent e f := by
  unfold callEvent fileEvent
  rcases hk : fileKind f.nr with _ | (_ | _ | _ | _)
  · simp
  · rw [hpath (by simp [usesPath, hk])]
    by_cases hret : f.ret < 0
    · simp [Succeeded, hk, hret, Int64.not_le.mpr hret]
    · simp only [Succeeded, hk, hret, Int64.not_lt.mp hret, if_true, if_false]
      rfl
  · rw [hfd (by simp [usesFd, usesPath, hk])]
    by_cases hret : f.ret = 0 <;> simp [Succeeded, hk, hret, fdEvent]
  all_goals
    rw [hfd (by simp [usesFd, usesPath, hk])]
    by_cases hret : f.ret < 0
    · simp [Succeeded, hk, hret, Int64.not_le.mpr hret]
    · simp [Succeeded, hk, hret, Int64.not_lt.mp hret, fdEvent]

/-- A call on a descriptor is reported with the descriptor it was entered with. -/
lemma fileEvent_fd {e f : SyscallFiring τ} {ev : FileEvent} (h : fileEvent e f = some ev)
    (hpath : ¬ usesPath f.nr = true) : ev.fd = e.fdArg := by
  unfold fileEvent at h
  split at h
  · rcases hk : fileKind f.nr with _ | (_ | _ | _ | _)
    · simp [hk] at h
    · simp [usesPath, hk] at hpath
    all_goals
      simp only [hk, Option.some.injEq] at h
      rw [← h]
  · simp at h

/-- With nothing stashed for the call nothing is reported. -/
lemma callEvent_eq_none {f : SyscallFiring τ} {path : Option PendingOpen} {fd : Option Int32}
    (hpath : usesPath f.nr = true → path = none) (hfd : usesFd f.nr = true → fd = none) :
    callEvent f.helpers f.pid f.nr f.ret path fd = none := by
  unfold callEvent
  rcases hk : fileKind f.nr with _ | (_ | _ | _ | _)
  · rfl
  · simp [hpath (by simp [usesPath, hk])]
  all_goals simp [hfd (by simp [usesFd, usesPath, hk])]

end SyscallFiring

/-! ## One firing -/

section Firing
open SyscallFiring
variable {target : Target} {l : List (SyscallFiring τ)} {f : SyscallFiring τ}

/-- What `PENDING_OPEN_PATH` holds for a process after `l`. -/
def pathContents (target : Target) (l : List (SyscallFiring τ)) (pid : UInt32) :
    Option PendingOpen :=
  (afterSyscalls target l).pendingOpenPath.get pid

/-- What `PENDING_FD` holds for a process after `l`. -/
def fdContents (target : Target) (l : List (SyscallFiring τ)) (pid : UInt32) : Option Int32 :=
  (afterSyscalls target l).pendingFd.get pid

lemma pathContents_nil (pid : UInt32) :
    pathContents target ([] : List (SyscallFiring τ)) pid = none :=
  BoundedMap.get_empty pid

lemma fdContents_nil (pid : UInt32) :
    fdContents target ([] : List (SyscallFiring τ)) pid = none :=
  BoundedMap.get_empty pid

lemma pathContents_concat (hf : f.Delivered target) (pid : UInt32) :
    pathContents target (l ++ [f]) pid =
      if usesPath f.nr = true ∧ pid = f.pid then
        match f.kind with
        | .Enter => stashedAt (afterSyscalls target l).pendingOpenPath f.helpers f.pid
            (capturePath f.helpers f.ctx)
        | .Exit => none
      else pathContents target l pid := by
  rw [pathContents, afterSyscalls_concat_of_delivered hf, get_pendingOpenPath_fileSyscall]
  rfl

lemma fdContents_concat (hf : f.Delivered target) (pid : UInt32) :
    fdContents target (l ++ [f]) pid =
      if usesFd f.nr = true ∧ pid = f.pid then
        match f.kind with
        | .Enter => stashedAt (afterSyscalls target l).pendingFd f.helpers f.pid
            ((f.ctx.readAt Int64 16).map Int64.toInt32)
        | .Exit => none
      else fdContents target l pid := by
  rw [fdContents, afterSyscalls_concat_of_delivered hf, get_pendingFd_fileSyscall]
  rfl

/-- An insertion into a stash stores what was captured or changes nothing. -/
lemma stashedAt_cases {ν : Type} {cap : ℕ} (m : BpfHashMap UInt32 ν cap) (h : Helpers)
    (pid : UInt32) (captured : Except Int32 ν) :
    stashedAt m h pid captured = m.get pid ∨ stashedAt m h pid captured = captured.toOption := by
  unfold stashedAt
  split
  · split
    · exact Or.inr rfl
    · exact Or.inl rfl
  · exact Or.inl rfl

/-- An insertion that cannot fail stores what was captured. -/
lemma stashedAt_of_room {ν : Type} {cap : ℕ} {m : BpfHashMap UInt32 ν cap} {h : Helpers}
    {pid : UInt32} {captured : Except Int32 ν} (herr : h.insertError = none)
    (hroom : m.HasRoom pid) (hcaptured : captured.toOption.isSome) :
    stashedAt m h pid captured = captured.toOption := by
  cases captured with
  | error e => simp [Except.toOption] at hcaptured
  | ok v => simp [stashedAt, herr, hroom, Except.toOption]

lemma stores_path (hf : f.Delivered target) :
    Stores pathSlot opens pathArg f (pathContents target l) (pathContents target (l ++ [f])) where
  frame pid hpid := by
    rw [pathContents_concat hf, if_neg]
    exact fun h => hpid (pathSlot_eq_some.mpr ⟨h.1, h.2.symm⟩)
  close ho pid hpid := by
    obtain ⟨huses, rfl⟩ := pathSlot_eq_some.mp hpid
    simp [pathContents_concat hf, huses, kind_of_closes ho]
  store ho pid hpid := by
    obtain ⟨huses, rfl⟩ := pathSlot_eq_some.mp hpid
    simp only [pathContents_concat hf, huses, kind_of_opens ho, and_self, if_true]
    exact stashedAt_cases _ _ _ _

lemma stores_fd (hf : f.Delivered target) :
    Stores fdSlot opens fdCapture f (fdContents target l) (fdContents target (l ++ [f])) where
  frame pid hpid := by
    rw [fdContents_concat hf, if_neg]
    exact fun h => hpid (fdSlot_eq_some.mpr ⟨h.1, h.2.symm⟩)
  close ho pid hpid := by
    obtain ⟨huses, rfl⟩ := fdSlot_eq_some.mp hpid
    simp [fdContents_concat hf, huses, kind_of_closes ho]
  store ho pid hpid := by
    obtain ⟨huses, rfl⟩ := fdSlot_eq_some.mp hpid
    simp only [fdContents_concat hf, huses, kind_of_opens ho, and_self, if_true]
    exact stashedAt_cases _ _ _ _

lemma pathContents_of_unfailing (hf : f.Delivered target)
    (hok : f.Unfailing (afterSyscalls target l)) (hread : f.PathReadable)
    (ho : f.opens = true) {pid : UInt32} (hpid : f.pathSlot = some pid) :
    pathContents target (l ++ [f]) pid = f.pathArg := by
  obtain ⟨huses, rfl⟩ := pathSlot_eq_some.mp hpid
  simp only [pathContents_concat hf, huses, kind_of_opens ho, and_self, if_true]
  exact stashedAt_of_room hok.inserts (hok.roomPath ho huses) (hread ho huses)

lemma fdContents_of_unfailing (hf : f.Delivered target)
    (hok : f.Unfailing (afterSyscalls target l)) (ho : f.opens = true) {pid : UInt32}
    (hpid : f.fdSlot = some pid) : fdContents target (l ++ [f]) pid = f.fdCapture := by
  obtain ⟨huses, rfl⟩ := fdSlot_eq_some.mp hpid
  simp only [fdContents_concat hf, huses, kind_of_opens ho, and_self, if_true]
  refine stashedAt_of_room hok.inserts (hok.roomFd ho huses) ?_
  have := fdCapture_of_readable hok.readable
  rw [fdCapture] at this
  simp [this]

/-- What a firing appends to `FILE_EVENTS`. -/
def emitted (target : Target) (l : List (SyscallFiring τ)) (f : SyscallFiring τ) :
    Option FileEvent :=
  if f.opens = true ∨ f.helpers.fileEventsError ≠ none then none
  else (f.ctx.readAt Int64 16).toOption.bind fun ret =>
    callEvent f.helpers f.pid f.nr ret (pathContents target l f.pid) (fdContents target l f.pid)

lemma fileEvents_concat (hf : f.Delivered target) :
    (afterSyscalls target (l ++ [f])).fileEvents =
      (afterSyscalls target l).fileEvents ++ (emitted target l f).toList.map RingBufItem.of := by
  rw [afterSyscalls_concat_of_delivered hf, fileEvents_fileSyscall, emitted]
  cases ho : f.opens with
  | true => simp [kind_of_opens ho]
  | false =>
    by_cases herr : f.helpers.fileEventsError = none
    · simp [kind_of_closes ho, recorded, herr]
      rfl
    · simp [kind_of_closes ho, recorded, herr]

end Firing

/-- A way to check that nothing fails along a run: every map always has room. -/
lemma unfailing_of_room {target : Target} {l : List (SyscallFiring τ)}
    (hl : ∀ f ∈ l, f.ctx.Readable ∧ f.helpers.insertError = none ∧
      f.helpers.fileEventsError = none)
    (hroom : Stepwise (fun pre f => (afterSyscalls target pre).pendingOpenPath.HasRoom f.pid ∧
      (afterSyscalls target pre).pendingFd.HasRoom f.pid) l) :
    Stepwise (fun pre f => f.Unfailing (afterSyscalls target pre)) l :=
  ((stepwise_forall.mpr hl).and hroom).imp fun _ _ h =>
    { readable := h.1.1
      inserts := h.1.2.1
      roomPath := fun _ _ => h.2.1
      roomFd := fun _ _ => h.2.2
      fileEvents := h.1.2.2 }

section Runs
open SyscallFiring
variable [DecidableEq τ] {target : Target} {proc : τ → UInt32} {init : τ → Option OngoingCall}
  {l : List (SyscallFiring τ)} {f : SyscallFiring τ}

lemma stepwise_stores_path (hrun : SyscallRun target proc init l) :
    Stepwise (fun pre f => Stores pathSlot opens pathArg f (pathContents target pre)
      (pathContents target (pre ++ [f]))) l :=
  (stepwise_forall.mpr hrun.delivered).imp fun _ _ hf => stores_path hf

lemma stepwise_stores_fd (hrun : SyscallRun target proc init l) :
    Stepwise (fun pre f => Stores fdSlot opens fdCapture f (fdContents target pre)
      (fdContents target (pre ++ [f]))) l :=
  (stepwise_forall.mpr hrun.delivered).imp fun _ _ hf => stores_fd hf

/-! ## Processes of one thread -/

section SingleThreaded
variable (hrun : SyscallRun target proc init l) (hsingle : Function.Injective proc)
include hrun hsingle

lemma thread_eq_of_pid {f g : SyscallFiring τ} (hf : f ∈ l) (hg : g ∈ l) (h : f.pid = g.pid) :
    f.thread = g.thread :=
  hsingle ((hrun.pid f hf).symm.trans (h.trans (hrun.pid g hg)))

/-- Each slot of either stash has one user, the thread of its process. -/
lemma thread_eq_of_pathSlot (f : SyscallFiring τ) (hf : f ∈ l) (g : SyscallFiring τ) (hg : g ∈ l)
    (pid : UInt32) (hfpid : f.pathSlot = some pid) (hgpid : g.pathSlot = some pid) :
    f.thread = g.thread :=
  thread_eq_of_pid hrun hsingle hf hg
    ((pathSlot_eq_some.mp hfpid).2.trans (pathSlot_eq_some.mp hgpid).2.symm)

lemma thread_eq_of_fdSlot (f : SyscallFiring τ) (hf : f ∈ l) (g : SyscallFiring τ) (hg : g ∈ l)
    (pid : UInt32) (hfpid : f.fdSlot = some pid) (hgpid : g.fdSlot = some pid) :
    f.thread = g.thread :=
  thread_eq_of_pid hrun hsingle hf hg
    ((fdSlot_eq_some.mp hfpid).2.trans (fdSlot_eq_some.mp hgpid).2.symm)

/-- An entry of `PENDING_OPEN_PATH` is the pathname of the call its process is in. -/
lemma own_of_pathContents {pid : UInt32} {pathname : PendingOpen}
    (h : pathContents target l pid = some pathname) :
    ∃ e, e.pid = pid ∧ ownEnter l e.thread = some e ∧ usesPath e.nr = true ∧
      e.pathArg = some pathname := by
  obtain ⟨e, hslot, hheld, hcap⟩ := own_of_stored hrun.alternates pathContents_nil
    (stepwise_stores_path hrun) (fun _ _ => pathSlot_of_key)
    (thread_eq_of_pathSlot hrun hsingle) h
  obtain ⟨huses, hpid⟩ := pathSlot_eq_some.mp hslot
  exact ⟨e, hpid, hheld, huses, hcap⟩

/-- An entry of `PENDING_FD` is the descriptor of the call its process is in. -/
lemma own_of_fdContents {pid : UInt32} {fd : Int32} (h : fdContents target l pid = some fd) :
    ∃ e, e.pid = pid ∧ ownEnter l e.thread = some e ∧ usesFd e.nr = true ∧ e.fdArg = fd := by
  obtain ⟨e, hslot, hheld, hcap⟩ := own_of_stored hrun.alternates fdContents_nil
    (stepwise_stores_fd hrun) (fun _ _ => fdSlot_of_key) (thread_eq_of_fdSlot hrun hsingle) h
  obtain ⟨huses, hpid⟩ := fdSlot_eq_some.mp hslot
  exact ⟨e, hpid, hheld, huses, (fdCapture_eq_some hcap).symm⟩

/-- The call a process is in is the one its thread is in. -/
lemma own_of_pid {pid : UInt32} {th : τ} (hth : pid = proc th) {e : SyscallFiring τ}
    (hpid : e.pid = pid) (hown : ownEnter l e.thread = some e) : ownEnter l th = some e := by
  have heth : e.thread = th :=
    hsingle ((hrun.pid e (held_eq_some hown).1).symm.trans (hpid.trans hth))
  exact heth ▸ hown

/-- What is stashed for the process of a returning call was stashed by that call. -/
lemma pathContents_at_exit {pid : UInt32} {th : τ} (hth : pid = proc th)
    {pathname : PendingOpen} (h : pathContents target l pid = some pathname) :
    ∃ e, ownEnter l th = some e ∧ e.pathArg = some pathname := by
  obtain ⟨e, hpid, hown, -, hpath⟩ := own_of_pathContents hrun hsingle h
  exact ⟨e, own_of_pid hrun hsingle hth hpid hown, hpath⟩

lemma fdContents_at_exit {pid : UInt32} {th : τ} (hth : pid = proc th) {fd : Int32}
    (h : fdContents target l pid = some fd) : ∃ e, ownEnter l th = some e ∧ e.fdArg = fd := by
  obtain ⟨e, hpid, hown, -, hfd⟩ := own_of_fdContents hrun hsingle h
  exact ⟨e, own_of_pid hrun hsingle hth hpid hown, hfd⟩

lemma pathContents_eq_none {pid : UInt32} {th : τ} (hth : pid = proc th)
    (hown : ownEnter l th = none) : pathContents target l pid = none := by
  refine Option.eq_none_iff_forall_ne_some.mpr fun pathname hpath => ?_
  obtain ⟨e, he, -⟩ := pathContents_at_exit hrun hsingle hth hpath
  simp [hown] at he

lemma fdContents_eq_none {pid : UInt32} {th : τ} (hth : pid = proc th)
    (hown : ownEnter l th = none) : fdContents target l pid = none := by
  refine Option.eq_none_iff_forall_ne_some.mpr fun fd hfd => ?_
  obtain ⟨e, he, -⟩ := fdContents_at_exit hrun hsingle hth hfd
  simp [hown] at he

/-- A stash holds what the call its process is in passed, or nothing. -/
lemma pathContents_cases {pid : UInt32} {th : τ} (hth : pid = proc th) {e : SyscallFiring τ}
    (hown : ownEnter l th = some e) :
    pathContents target l pid = none ∨ pathContents target l pid = e.pathArg := by
  cases h : pathContents target l pid with
  | none => exact Or.inl rfl
  | some pathname =>
    obtain ⟨e', he', harg⟩ := pathContents_at_exit hrun hsingle hth h
    obtain rfl : e = e' := Option.some.inj (hown.symm.trans he')
    exact Or.inr harg.symm

lemma fdContents_cases {pid : UInt32} {th : τ} (hth : pid = proc th) {e : SyscallFiring τ}
    (hown : ownEnter l th = some e) :
    fdContents target l pid = none ∨ fdContents target l pid = some e.fdArg := by
  cases h : fdContents target l pid with
  | none => exact Or.inl rfl
  | some fd =>
    obtain ⟨e', he', rfl⟩ := fdContents_at_exit hrun hsingle hth h
    obtain rfl : e = e' := Option.some.inj (hown.symm.trans he')
    exact Or.inr rfl

omit hrun in
/-- An exit reports nothing, or the very call it leaves. -/
lemma emitted_own (hrun : SyscallRun target proc init (l ++ [f])) :
    emitted target l f = none ∨ ∃ e, f.opens = false ∧ ownEnter l f.thread = some e ∧
      emitted target l f = fileEvent e f := by
  have hl := hrun.of_isPrefix (List.prefix_append l [f])
  have hpid : f.pid = proc f.thread := hrun.pid f (by simp)
  unfold emitted
  by_cases hfail : f.opens = true ∨ f.helpers.fileEventsError ≠ none
  · exact Or.inl (if_pos hfail)
  have ho : f.opens = false := by simpa using fun ho => hfail (Or.inl ho)
  rw [if_neg hfail]
  cases hret : f.ctx.readAt Int64 16 with
  | error err => exact Or.inl rfl
  | ok ret =>
    obtain rfl : ret = f.ret := TracePointContext.field_of_readAt_ok hret
    simp only [Except.toOption, Option.bind_some]
    cases hown : ownEnter l f.thread with
    | none =>
      exact Or.inl (callEvent_eq_none (fun _ => pathContents_eq_none hl hsingle hpid hown)
        fun _ => fdContents_eq_none hl hsingle hpid hown)
    | some e =>
      by_cases huses : usesPath f.nr = true
      · have hno := not_usesFd_of_usesPath huses
        rcases pathContents_cases hl hsingle hpid hown with hnone | hown'
        · exact Or.inl (callEvent_eq_none (fun _ => hnone) fun h => absurd h hno)
        · exact Or.inr ⟨e, ho, rfl,
            callEvent_eq_fileEvent (fun _ => hown') fun h => absurd h hno⟩
      · rcases fdContents_cases hl hsingle hpid hown with hnone | hown'
        · exact Or.inl (callEvent_eq_none (fun h => absurd h huses) fun _ => hnone)
        · exact Or.inr ⟨e, ho, rfl,
            callEvent_eq_fileEvent (fun h => absurd h huses) fun _ => hown'⟩

/-- When nothing fails, the call in progress is what its process has stashed. -/
lemma pathContents_of_own
    (hok : Stepwise (fun pre f => f.Unfailing (afterSyscalls target pre) ∧ f.PathReadable) l)
    {e : SyscallFiring τ} (hown : ownEnter l e.thread = some e) (huses : usesPath e.nr = true) :
    pathContents target l e.pid = e.pathArg := by
  refine stored_of_own ?_ (thread_eq_of_pathSlot hrun hsingle) hown
    (pathSlot_eq_some.mpr ⟨huses, rfl⟩)
  exact ((stepwise_forall.mpr hrun.delivered).and hok).imp fun pre f hf =>
    ⟨stores_path hf.1, fun ho k hk => pathContents_of_unfailing hf.1 hf.2.1 hf.2.2 ho hk⟩

lemma fdContents_of_own
    (hok : Stepwise (fun pre f => f.Unfailing (afterSyscalls target pre)) l)
    {e : SyscallFiring τ} (hown : ownEnter l e.thread = some e) (huses : usesFd e.nr = true) :
    fdContents target l e.pid = e.fdCapture := by
  refine stored_of_own ?_ (thread_eq_of_fdSlot hrun hsingle) hown
    (fdSlot_eq_some.mpr ⟨huses, rfl⟩)
  exact ((stepwise_forall.mpr hrun.delivered).and hok).imp fun pre f hf =>
    ⟨stores_fd hf.1, fun ho k hk => fdContents_of_unfailing hf.1 hf.2 ho hk⟩

omit hrun in
/-- When nothing fails, an exit reports the call it leaves, if that was seen to begin. -/
lemma emitted_of_unfailing (hrun : SyscallRun target proc init (l ++ [f]))
    (hok : Stepwise (fun pre f => f.Unfailing (afterSyscalls target pre) ∧ f.PathReadable)
      (l ++ [f])) (ho : f.opens = false) :
    emitted target l f = (ownEnter l f.thread).bind fun e => fileEvent e f := by
  have hl := hrun.of_isPrefix (List.prefix_append l [f])
  obtain ⟨hokl, hokf⟩ := stepwise_concat.mp hok
  have hpid : f.pid = proc f.thread := hrun.pid f (by simp)
  have hret : f.ctx.readAt Int64 16 = .ok f.ret := hokf.1.readable.readAt Int64 16
  rw [emitted, if_neg (by simp [ho, hokf.1.fileEvents]), hret]
  simp only [Except.toOption, Option.bind_some]
  cases hown : ownEnter l f.thread with
  | none =>
    exact callEvent_eq_none (fun _ => pathContents_eq_none hl hsingle hpid hown)
      fun _ => fdContents_eq_none hl hsingle hpid hown
  | some e =>
    have hkey := hrun.key_ownEnter ho hown
    have hnr := nr_eq_of_key hkey
    have hepid : e.pid = f.pid := congrArg Prod.fst hkey
    obtain ⟨hmem, hth, -⟩ := held_eq_some hown
    rw [← hth] at hown
    have hreadable : e.ctx.Readable :=
      (stepwise_forall.mp (hokl.imp fun _ g hg => hg.1.readable)) e hmem
    refine callEvent_eq_fileEvent (fun huses => ?_) fun huses => ?_
    · rw [← hepid, pathContents_of_own hl hsingle hokl hown (hnr ▸ huses)]
    · rw [← hepid, fdContents_of_own hl hsingle (hokl.imp fun _ _ h => h.1) hown (hnr ▸ huses),
        fdCapture_of_readable hreadable]

end SingleThreaded

/-- The events of the calls of `l` that were seen to begin, in the order they returned. -/
def fileReports (l : List (SyscallFiring τ)) : List FileEvent :=
  collect (fun pre f =>
    if f.opens then [] else ((ownEnter pre f.thread).bind fun e => fileEvent e f).toList) l

omit [DecidableEq τ] in
/-- A call has an event exactly if it succeeded, provided its pathname could be read. -/
lemma fileEvent_isSome {e f : SyscallFiring τ} (hpath : usesPath f.nr = true → e.pathArg.isSome) :
    (fileEvent e f).isSome ↔ f.Succeeded := by
  unfold fileEvent
  split
  · rename_i hs
    rcases hk : fileKind f.nr with _ | (_ | _ | _ | _)
    · simp [Succeeded, hk] at hs
    · simpa [hs] using hpath (by simp [usesPath, hk])
    all_goals simp [hs]
  · rename_i hs
    simp [hs]

/-- **File tracing is exact for single-threaded processes.**  For every interleaving of
processes of one thread each: (a) an entry of either stash is the argument of the call its
process is in; (b) whatever map insertions, user-string reads, record reads and `FILE_EVENTS`
outputs fail, a firing appends nothing or the event of the very call it exits; (c) if none of
them fails, `FILE_EVENTS` holds one event per successful call that was seen to begin, in the
order of the exits, and nothing else. -/
theorem file_tracing_exact (hrun : SyscallRun target proc init l)
    (hsingle : Function.Injective proc) :
    (∀ pid pathname, (afterSyscalls target l).pendingOpenPath.get pid = some pathname →
      ∃ e, e.pid = pid ∧ ownEnter l e.thread = some e ∧ usesPath e.nr = true ∧
        e.pathArg = some pathname) ∧
    (∀ pid fd, (afterSyscalls target l).pendingFd.get pid = some fd →
      ∃ e, e.pid = pid ∧ ownEnter l e.thread = some e ∧ usesFd e.nr = true ∧ e.fdArg = fd) ∧
    (∀ pre f post, l = pre ++ f :: post →
      (afterSyscalls target (pre ++ [f])).fileEvents = (afterSyscalls target pre).fileEvents ∨
        ∃ e ev, f.opens = false ∧ ownEnter pre f.thread = some e ∧ fileEvent e f = some ev ∧
          (afterSyscalls target (pre ++ [f])).fileEvents =
            (afterSyscalls target pre).fileEvents ++ [RingBufItem.of ev]) ∧
    (Stepwise (fun pre f => f.Unfailing (afterSyscalls target pre) ∧ f.PathReadable) l →
      (afterSyscalls target l).fileEvents = (fileReports l).map RingBufItem.of ∧
      ∀ pre f post, l = pre ++ f :: post → f.opens = false → ∀ e,
        ownEnter pre f.thread = some e → ((fileEvent e f).isSome ↔ f.Succeeded)) := by
  refine ⟨fun pid pathname h => own_of_pathContents hrun hsingle h,
    fun pid fd h => own_of_fdContents hrun hsingle h, ?_, fun hok => ⟨?_, ?_⟩⟩
  · intro pre f post hl
    have hpre := hrun.of_split hl
    rw [fileEvents_concat (hpre.delivered f (by simp))]
    rcases emitted_own hsingle hpre with hnone | ⟨e, ho, hown, heq⟩
    · simp [hnone]
    · cases hev : fileEvent e f with
      | none => simp [heq, hev]
      | some ev => exact Or.inr ⟨e, ev, ho, hown, hev, by simp [heq, hev]⟩
  · induction l using List.reverseRecOn with
    | nil => rfl
    | append_singleton l f ih =>
      have hl := hrun.of_isPrefix (List.prefix_append l [f])
      rw [fileEvents_concat (hrun.delivered f (by simp)), fileReports, collect_concat,
        ← fileReports, List.map_append, ih hl (stepwise_concat.mp hok).1]
      by_cases ho : f.opens = true
      · simp [ho, emitted]
      · rw [emitted_of_unfailing hsingle hrun hok (by simpa using ho), if_neg ho]
  · intro pre f post hl ho e hown
    have hpre := hrun.of_split hl
    have hnr := nr_eq_of_key (hpre.key_ownEnter ho hown)
    obtain ⟨hmem, -, hopens⟩ := held_eq_some hown
    have hread : e.PathReadable :=
      (stepwise_forall.mp (hok.imp fun _ g hg => hg.2)) e (by simp [hl, hmem])
    exact fileEvent_isSome fun huses => hread hopens (hnr ▸ huses)

/-- One process opens a file while another reads from descriptor 3. -/
def openRead : List (SyscallFiring Bool) :=
  [plain false 1 .Enter 56 0 10, plain true 2 .Enter 63 3 20,
    plain false 1 .Exit 56 9 30, plain true 2 .Exit 63 7 40]

/-- Both calls of `openRead` are reported, in the order they returned. -/
theorem file_tracing_exact_openRead :
    (afterSyscalls (.Container 0) openRead).fileEvents.map
        (fun item => (item.record.pid, item.record.kind, item.record.fd, item.record.bytes)) =
      [(1, .Open, 9, 0), (2, .Read, 3, 7)] := by
  have hrun : SyscallRun (.Container 0) (fun th => if th then 2 else 1) (fun _ => none)
      openRead :=
    { delivered := by
        simp only [openRead, List.forall_mem_cons]
        exact ⟨⟨by decide +kernel, rfl, rfl⟩, ⟨by decide +kernel, rfl, rfl⟩,
          ⟨by decide +kernel, rfl, rfl⟩, ⟨by decide +kernel, rfl, rfl⟩, by simp⟩
      pid := by simp [openRead, plain, SyscallFiring.pid]
      alternates := by decide +kernel }
  have hok : Stepwise (fun pre f => f.Unfailing (afterSyscalls (.Container 0) pre) ∧
      f.PathReadable) openRead :=
    (unfailing_of_room (by simp [openRead, plain, Helpers.plain, TracePointContext.Readable])
      (by decide +kernel)).and (stepwise_forall.mpr (by unfold PathReadable; decide +kernel))
  obtain ⟨-, -, -, hreports⟩ := file_tracing_exact hrun (by decide)
  rw [(hreports hok).1]
  decide +kernel

/-- A thread is in a `read` (63) when tracing starts, and returns from it. -/
def orphanExit : List (SyscallFiring Unit) := [plain () 1 .Exit 63 5 10]

/-- The descriptor of a call begun before tracing is unknown, so its return is not reported,
successful as it is. -/
theorem orphan_exit_reports_nothing :
    SyscallRun (.Pid 1) (fun _ => 1) (fun _ => some { nr := 63, enterNs := 0 }) orphanExit ∧
      Stepwise (fun pre f => f.Unfailing (afterSyscalls (.Pid 1) pre) ∧ f.PathReadable)
        orphanExit ∧
      (∀ f ∈ orphanExit, f.opens = false ∧ f.Succeeded) ∧
      (afterSyscalls (.Pid 1) orphanExit).fileEvents = [] := by
  refine ⟨⟨?_, ?_, ?_⟩, Stepwise.and ?_ ?_, ?_, ?_⟩
  · simp [orphanExit, plain_delivered]
  · simp [orphanExit, plain, SyscallFiring.pid]
  · decide +kernel
  · exact unfailing_of_room (by simp [orphanExit, plain, Helpers.plain, TracePointContext.Readable])
      (by decide +kernel)
  · exact stepwise_forall.mpr (by unfold PathReadable; decide +kernel)
  · decide +kernel
  · decide +kernel

/-! ## Processes of many threads -/

/-- When nothing fails, `PENDING_FD` holds the descriptor of the process's most recent entry
into one of the five descriptor syscalls, if no return from one has happened since. -/
lemma fdContents_eq_held (hrun : SyscallRun target proc init l)
    (hok : Stepwise (fun pre f => f.Unfailing (afterSyscalls target pre)) l) (pid : UInt32) :
    fdContents target l pid = (held fdSlot opens l (some pid)).bind fdCapture :=
  contents_eq_held fdContents_nil
    (((stepwise_forall.mpr hrun.delivered).and hok).imp fun _ _ hf =>
      ⟨stores_fd hf.1, fun ho _ hk => fdContents_of_unfailing hf.1 hf.2 ho hk⟩) pid

/-- So that is the call an exit reports. -/
lemma emitted_by_process (hrun : SyscallRun target proc init l)
    (hok : Stepwise (fun pre f => f.Unfailing (afterSyscalls target pre)) (l ++ [f]))
    (ho : f.opens = false) (huses : usesFd f.nr = true) :
    emitted target l f =
      (held fdSlot opens l (some f.pid)).bind fun e => fileEvent e f := by
  obtain ⟨hokl, hokf⟩ := stepwise_concat.mp hok
  have hret : f.ctx.readAt Int64 16 = .ok f.ret := hokf.readable.readAt Int64 16
  have hpath := not_usesPath_of_usesFd huses
  rw [emitted, if_neg (by simp [ho, hokf.fileEvents]), hret, fdContents_eq_held hrun hokl]
  simp only [Except.toOption, Option.bind_some]
  cases hheld : held fdSlot opens l (some f.pid) with
  | none => exact callEvent_eq_none (fun h => absurd h hpath) fun _ => rfl
  | some e =>
    have hreadable : e.ctx.Readable :=
      stepwise_forall.mp (hokl.imp fun _ _ hg => hg.readable) e (held_eq_some hheld).1
    exact callEvent_eq_fileEvent (fun h => absurd h hpath) fun _ =>
      fdCapture_of_readable hreadable

/-- **File events name the descriptor of the process's pending call.**  For every interleaving
of any number of threads, without map or ring failures: a return from one of the five
descriptor syscalls is reported with the descriptor of its process's most recent entry into one
of them, and not at all if another return used that entry up.  If from a thread's enter `e` to
its exit `f` no other thread of the process was at one of the five, then exactly one event is
emitted at `f` when the call succeeded, carrying the descriptor passed at `e`, and none when it
failed. -/
theorem fd_events_by_process (hrun : SyscallRun target proc init l)
    (hok : Stepwise (fun pre f => f.Unfailing (afterSyscalls target pre)) l) :
    (∀ pre f post, l = pre ++ f :: post → f.opens = false → usesFd f.nr = true →
      (afterSyscalls target (pre ++ [f])).fileEvents = (afterSyscalls target pre).fileEvents ++
        ((held fdSlot opens pre (some f.pid)).bind fun e => fileEvent e f).toList.map
          RingBufItem.of) ∧
    (∀ pre e win f post, l = pre ++ e :: win ++ f :: post → f.opens = false →
      usesFd f.nr = true → e.thread = f.thread →
      (∀ g ∈ win, g.thread ≠ f.thread ∧ (g.pid = f.pid → usesFd g.nr = false)) →
      (f.Succeeded → ∃ ev, ev.fd = e.fdArg ∧ fileEvent e f = some ev ∧
        (afterSyscalls target (pre ++ e :: win ++ [f])).fileEvents =
          (afterSyscalls target (pre ++ e :: win)).fileEvents ++ [RingBufItem.of ev]) ∧
      (¬ f.Succeeded → (afterSyscalls target (pre ++ e :: win ++ [f])).fileEvents =
          (afterSyscalls target (pre ++ e :: win)).fileEvents)) := by
  have hexit : ∀ pre f post, l = pre ++ f :: post → f.opens = false → usesFd f.nr = true →
      (afterSyscalls target (pre ++ [f])).fileEvents = (afterSyscalls target pre).fileEvents ++
        ((held fdSlot opens pre (some f.pid)).bind fun e => fileEvent e f).toList.map
          RingBufItem.of := by
    intro pre f post hl ho huses
    have hpre := hrun.of_split hl
    rw [fileEvents_concat (hpre.delivered f (by simp)),
      emitted_by_process (hpre.of_isPrefix (List.prefix_append pre [f]))
        (hok.of_isPrefix ⟨post, by simp [hl]⟩) ho huses]
  refine ⟨hexit, fun pre e win f post hl ho huses hth hwin => ?_⟩
  have hpre := hrun.of_split hl
  -- the thread has done nothing since `e`, so `e` entered the call that `f` exits
  have hin : (if e.opens then some e.key else none) = some f.key := by
    have halt := (stepwise_concat.mp hpre.alternates).2
    rw [Alternates, ← hth, inside_of_window fun g hg => hth ▸ (hwin g hg).1] at halt
    simpa [ho] using halt
  obtain ⟨hopens, hkey⟩ : e.opens = true ∧ e.key = f.key := by simpa using hin
  have hslot : e.fdSlot = some f.pid :=
    (fdSlot_of_key hkey).trans (fdSlot_eq_some.mpr ⟨huses, rfl⟩)
  have hheld : held fdSlot opens (pre ++ e :: win) (some f.pid) = some e := by
    rw [← hslot]
    refine held_of_window _ _ hopens fun g hg => ?_
    rw [hslot]
    intro hg'
    obtain ⟨hgu, hgp⟩ := fdSlot_eq_some.mp hg'
    simp [(hwin g hg).2 hgp] at hgu
  rw [hexit _ f post hl ho huses, hheld, Option.bind_some]
  have hpath := not_usesPath_of_usesFd huses
  constructor
  · intro hs
    have hsome : (fileEvent e f).isSome := (fileEvent_isSome fun h => absurd h hpath).mpr hs
    obtain ⟨ev, hev⟩ := Option.isSome_iff_exists.mp hsome
    exact ⟨ev, fileEvent_fd hev hpath, hev, by simp [hev]⟩
  · intro hs
    simp [fileEvent, hs]

/-- One thread reads from descriptor 3 while another enters an `openat` (56). -/
def readBesideOpen : List (SyscallFiring Bool) :=
  [plain false 1 .Enter 63 3 10, plain true 1 .Enter 56 0 20, plain false 1 .Exit 63 7 30]

/-- The open leaves the descriptor stash alone, so the read is reported with its own. -/
theorem fd_events_by_process_readBesideOpen :
    ∃ ev, ev.fd = 3 ∧
      (afterSyscalls (.Pid 1) readBesideOpen).fileEvents = [RingBufItem.of ev] := by
  have hrun : SyscallRun (.Pid 1) (fun _ => 1) (fun _ => none) readBesideOpen :=
    { delivered := by simp [readBesideOpen, plain_delivered]
      pid := by simp [readBesideOpen, plain, SyscallFiring.pid]
      alternates := by decide +kernel }
  have hok : Stepwise (fun pre f => f.Unfailing (afterSyscalls (.Pid 1) pre)) readBesideOpen :=
    unfailing_of_room (by simp [readBesideOpen, plain, Helpers.plain, TracePointContext.Readable])
      (by decide +kernel)
  obtain ⟨ev, hfd, -, hevents⟩ := ((fd_events_by_process hrun hok).2 []
    (plain false 1 .Enter 63 3 10) [plain true 1 .Enter 56 0 20] (plain false 1 .Exit 63 7 30) []
    rfl rfl (by decide +kernel) rfl (by decide +kernel)).1 (by decide +kernel)
  have hnone : (afterSyscalls (.Pid 1) (readBesideOpen.take 2)).fileEvents = [] := by
    decide +kernel
  exact ⟨ev, hfd.trans (by decide +kernel), hevents.trans (congrArg (· ++ [_]) hnone)⟩

/-- In `overlap` the first `read` passed descriptor 3 and is reported with 4; the second, which
passed 4 and succeeded, is not reported. -/
theorem overlap_takes_the_wrong_fd :
    SyscallRun (.Pid 1) (fun _ => 1) (fun _ => none) overlap ∧
      Stepwise (fun pre f => f.Unfailing (afterSyscalls (.Pid 1) pre)) overlap ∧
      (ownEnter (overlap.take 2) false).map fdArg = some 3 ∧
      (afterSyscalls (.Pid 1) (overlap.take 3)).fileEvents.map (fun item => item.record.fd) =
        [4] ∧
      (∀ f ∈ overlap.drop 3, f.opens = false ∧ f.Succeeded) ∧
      (afterSyscalls (.Pid 1) overlap).fileEvents =
        (afterSyscalls (.Pid 1) (overlap.take 3)).fileEvents := by
  refine ⟨overlap_run, ?_, ?_, ?_, ?_, ?_⟩
  · exact unfailing_of_room (by simp [overlap, plain, Helpers.plain, TracePointContext.Readable])
      (by decide +kernel)
  · decide +kernel
  · decide +kernel
  · decide +kernel
  · decide +kernel

end Runs

end Peekbeam
