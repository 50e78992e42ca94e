import Mathlib.Data.Finset.Basic
import Peekbeam.Drain.Files
import Peekbeam.FileTrace

/-!
# Processes that come and go

A world of processes of one thread each beside the trace: processes appear, make calls and exit,
and their ids are used again (`World`, `Step`).  A step of the world is a firing or goes unseen.

* `fileEvents_firings` — if no record is lost, `FILE_EVENTS` holds exactly the file accesses that
  were seen to begin and completed.  Whose argument an event carries is the question of
  `FileTrace.lean`, asked there for processes that live for ever; here an id passes from one
  process to the next, and what makes it work is that a process exits outside any other call.
* `released_cases` — what a step may do to a descriptor.  It goes away with a successful close, or
  silently: with its process in `exit_group`, or with a close that fails.
-/

namespace Peekbeam

open History SharedSlot

attribute [local irreducible] TracePointContext.field

/-! ## The world -/

/-- The number of `exit_group`. -/
def SYS_EXIT_GROUP : Int64 := 94

/-- A call a process is in: entered under the trace, or in progress since before. -/
inductive Call
  | entered (enter : SyscallFiring Unit)
  | early (nr : Int64) (fd : Int32)

namespace Call

def nr : Call → Int64
  | entered enter => enter.nr
  | early nr _ => nr

/-- The descriptor argument. -/
def fd : Call → Int32
  | entered enter => enter.fdArg
  | early _ fd => fd

/-- The firing that entered the call, if there was one. -/
def enter : Call → Option (SyscallFiring Unit)
  | entered enter => some enter
  | early _ _ => none

@[simp] lemma fd_entered (e : SyscallFiring Unit) : (entered e).fd = e.fdArg := rfl

@[simp] lemma enter_entered (e : SyscallFiring Unit) : (entered e).enter = some e := rfl

@[simp] lemma enter_early (nr : Int64) (fd : Int32) : (early nr fd).enter = none := rfl

end Call

/-- What a call that returned `ret` does to the descriptors of its process.  A close that fails
may still release its descriptor; calls other than the file accesses leave descriptors alone. -/
def Effect (kind : Option FileEventKind) (fd : Int32) (ret : Int64) (fds fds' : Finset Int32) :
    Prop :=
  match kind with
  | none => fds' = fds
  | some .Open => fds' = if 0 ≤ ret then insert ret.toInt32 fds else fds
  | some .Close => fds' = fds.erase fd ∨ ret ≠ 0 ∧ fds' = fds
  | some .Read | some .Write => (0 ≤ ret → fd ∈ fds) ∧ fds' = fds

instance (kind : Option FileEventKind) (fd : Int32) (ret : Int64) (fds fds' : Finset Int32) :
    Decidable (Effect kind fd ret fds fds') :=
  match kind with
  | none => inferInstanceAs (Decidable (fds' = fds))
  | some .Open =>
    inferInstanceAs (Decidable (fds' = if 0 ≤ ret then insert ret.toInt32 fds else fds))
  | some .Close => inferInstanceAs (Decidable (fds' = fds.erase fd ∨ ret ≠ 0 ∧ fds' = fds))
  | some .Read | some .Write => inferInstanceAs (Decidable ((0 ≤ ret → fd ∈ fds) ∧ fds' = fds))

/-- Only a close takes a descriptor away, and only its argument. -/
lemma Effect.close_of_released {kind : Option FileEventKind} {fd x : Int32} {ret : Int64}
    {fds fds' : Finset Int32} (h : Effect kind fd ret fds fds') (hx : x ∈ fds) (hx' : x ∉ fds') :
    kind = some .Close ∧ x = fd := by
  unfold Effect at h
  split at h
  · exact absurd (h ▸ hx) hx'
  · refine absurd ?_ hx'
    rw [h]
    split
    · exact Finset.mem_insert_of_mem hx
    · exact hx
  · rcases h with rfl | ⟨-, rfl⟩
    · exact ⟨rfl, by_contra fun hne => hx' (Finset.mem_erase_of_ne_of_mem hne hx)⟩
    · exact absurd hx hx'
  all_goals exact absurd (h.2 ▸ hx) hx'

/-- A process of one thread: the how-manieth it is, its open descriptors and the call it is
in. -/
structure Process where
  birth : ℕ
  fds : Finset Int32
  call : Option Call

/-- A process enters calls and returns from the call it is in. -/
def Process.Takes (p : Process) (f : SyscallFiring Unit) (fds' : Finset Int32) : Prop :=
  match p.call with
  | none => f.opens = true
  | some call => f.opens = false ∧ call.nr = f.nr ∧ Effect (fileKind f.nr) call.fd f.ret p.fds fds'

instance (p : Process) (f : SyscallFiring Unit) (fds' : Finset Int32) :
    Decidable (p.Takes f fds') :=
  match h : p.call with
  | none => decidable_of_iff (f.opens = true) (by simp [Process.Takes, h])
  | some call => decidable_of_iff
      (f.opens = false ∧ call.nr = f.nr ∧ Effect (fileKind f.nr) call.fd f.ret p.fds fds')
      (by simp [Process.Takes, h])

/-- The process after a firing; `exit_group` does not return. -/
def Process.next (p : Process) (f : SyscallFiring Unit) (fds' : Finset Int32) : Option Process :=
  if f.opens then
    if f.nr = SYS_EXIT_GROUP then none else some { p with call := some (.entered f) }
  else some { p with fds := fds', call := none }

/-- The live processes, by id, and how many there have been. -/
structure World where
  births : ℕ
  proc : UInt32 → Option Process

/-- Before anything happened. -/
def World.init : World where
  births := 0
  proc := fun _ => none

/-- One step of the world.  A process appears under an id not in use, with the descriptors it
inherits and possibly in a call; or a firing happens in a process, which an exit leaves with the
descriptors `fds`. -/
inductive Step
  | spawn (pid : UInt32) (fds : Finset Int32) (early : Option (Int64 × Int32))
  | syscall (f : SyscallFiring Unit) (fds : Finset Int32)

namespace Step

def firing : Step → Option (SyscallFiring Unit)
  | spawn _ _ _ => none
  | syscall f _ => some f

/-- The process that takes the step. -/
def pid : Step → UInt32
  | spawn pid _ _ => pid
  | syscall f _ => f.pid

/-- The step is the return of a successful close. -/
def closes : Step → Bool
  | spawn _ _ _ => false
  | syscall f _ => !f.opens && fileKind f.nr = some .Close && f.ret = 0

end Step

namespace World

def next (w : World) : Step → World
  | .spawn pid fds early =>
    { births := w.births + 1
      proc := Function.update w.proc pid
        (some ⟨w.births, fds, early.map fun call => .early call.1 call.2⟩) }
  | .syscall f fds =>
    { w with proc := Function.update w.proc f.pid ((w.proc f.pid).bind fun p => p.next f fds) }

def Allows (w : World) : Step → Prop
  | .spawn pid _ _ => (w.proc pid).isNone
  | .syscall f fds => ∃ p ∈ w.proc f.pid, p.Takes f fds

instance (w : World) (a : Step) : Decidable (w.Allows a) :=
  match a with
  | .spawn pid _ _ => inferInstanceAs (Decidable ((w.proc pid).isNone = true))
  | .syscall f fds => inferInstanceAs (Decidable (∃ p ∈ w.proc f.pid, p.Takes f fds))

/-- Descriptor `k` is open in a live process. -/
def IsOpen (w : World) (k : UInt32 × Int32) : Prop := ∃ p ∈ w.proc k.1, k.2 ∈ p.fds

instance (w : World) (k : UInt32 × Int32) : Decidable (w.IsOpen k) :=
  inferInstanceAs (Decidable (∃ p ∈ w.proc k.1, k.2 ∈ p.fds))

/-- The firing that entered the call `pid` is in. -/
def entered (w : World) (pid : UInt32) : Option (SyscallFiring Unit) :=
  ((w.proc pid).bind Process.call).bind Call.enter

/-- The file access that a step completes, with the process that made it. -/
def report (w : World) : Step → Option (ℕ × FileEvent)
  | .spawn _ _ _ => none
  | .syscall f _ =>
    if f.opens then none
    else (w.proc f.pid).bind fun p => (p.call.bind Call.enter).bind fun e =>
      (SyscallFiring.fileEvent e f).map fun event => (p.birth, event)

end World

/-- A firing begins a call of its process or is the return of the call the process is in. -/
lemma World.syscall_cases {w : World} {f : SyscallFiring Unit} {fds : Finset Int32}
    (h : w.Allows (.syscall f fds)) :
    ∃ p, w.proc f.pid = some p ∧ (p.call = none ∧ f.opens = true ∨
      ∃ call, p.call = some call ∧ f.opens = false ∧ call.nr = f.nr ∧
        Effect (fileKind f.nr) call.fd f.ret p.fds fds) := by
  obtain ⟨p, hp, htakes⟩ := h
  refine ⟨p, hp, ?_⟩
  unfold Process.Takes at htakes
  cases hcall : p.call with
  | none => exact Or.inl ⟨rfl, by simpa [hcall] using htakes⟩
  | some call => exact Or.inr ⟨call, rfl, by simpa [hcall] using htakes⟩

section Steps
variable {w : World} {a : Step} {f : SyscallFiring Unit} {fds : Finset Int32} {p : Process}

/-- A step concerns the process that takes it only. -/
lemma proc_next_of_ne {pid : UInt32} (h : pid ≠ a.pid) : (w.next a).proc pid = w.proc pid := by
  cases a <;> exact Function.update_of_ne h _ _

lemma proc_next_enter (hp : w.proc f.pid = some p) (ho : f.opens = true) :
    (w.next (.syscall f fds)).proc f.pid =
      if f.nr = SYS_EXIT_GROUP then none else some { p with call := some (.entered f) } := by
  simp [World.next, Process.next, hp, ho]

lemma proc_next_exit (hp : w.proc f.pid = some p) (ho : f.opens = false) :
    (w.next (.syscall f fds)).proc f.pid = some { p with fds, call := none } := by
  simp [World.next, Process.next, hp, ho]

/-- The firing that entered the call of a live process. -/
lemma entered_eq {pid : UInt32} (hp : w.proc pid = some p) :
    w.entered pid = p.call.bind Call.enter := by
  simp [World.entered, hp]

lemma entered_next_of_ne {pid : UInt32} (h : pid ≠ a.pid) :
    (w.next a).entered pid = w.entered pid := by
  rw [World.entered, proc_next_of_ne h, World.entered]

/-- A process that appears is in no call that was seen to begin. -/
lemma entered_next_spawn (pid : UInt32) (fds : Finset Int32) (early : Option (Int64 × Int32)) :
    (w.next (.spawn pid fds early)).entered pid = none := by
  cases early <;> simp [World.entered, World.next]

/-- After an enter a process is in the call entered, or has exited. -/
lemma entered_next_enter (hp : w.proc f.pid = some p) (ho : f.opens = true) :
    (w.next (.syscall f fds)).entered f.pid =
      if f.nr = SYS_EXIT_GROUP then none else some f := by
  rw [World.entered, proc_next_enter hp ho]
  split <;> rfl

lemma entered_next_exit (hp : w.proc f.pid = some p) (ho : f.opens = false) :
    (w.next (.syscall f fds)).entered f.pid = none := by
  simp [World.entered, proc_next_exit hp ho]

end Steps

/-! ## Runs -/

/-- The world after the steps `l`. -/
def worldAfter (l : List Step) : World := l.foldl World.next World.init

/-- The firings among the steps `l`. -/
def firings (l : List Step) : List (SyscallFiring Unit) := l.filterMap Step.firing

/-- The file accesses completed in `l`, with the processes that made them. -/
def accesses (l : List Step) : List (ℕ × FileEvent) :=
  collect (fun pre a => ((worldAfter pre).report a).toList) l

/-- The file accesses of `l` in the order of the returns. -/
def accessEvents (l : List Step) : List FileEvent := (accesses l).map Prod.snd

/-- `files` after the steps `l`, drained. -/
def filesAfter (target : Target) (l : List Step) : FilesMap :=
  drainFileEvents (afterSyscalls target (firings l)).fileEvents ∅

/-- A run of processes of the target: every step is one the world allows, and no record of a
firing is lost. -/
structure ProcessRun (target : Target) (l : List Step) : Prop where
  allowed : Stepwise (fun pre a => (worldAfter pre).Allows a) l
  delivered : ∀ f ∈ firings l, f.Delivered target
  unfailing : Stepwise (fun pre f => f.Unfailing (afterSyscalls target pre)) (firings l)

@[simp] lemma worldAfter_concat (l : List Step) (a : Step) :
    worldAfter (l ++ [a]) = (worldAfter l).next a := by
  simp [worldAfter]

@[simp] lemma firings_nil : firings [] = [] := rfl

@[simp] lemma firings_cons_spawn (pid : UInt32) (fds : Finset Int32)
    (early : Option (Int64 × Int32)) (l : List Step) :
    firings (.spawn pid fds early :: l) = firings l := rfl

@[simp] lemma firings_cons_syscall (f : SyscallFiring Unit) (fds : Finset Int32)
    (l : List Step) : firings (.syscall f fds :: l) = f :: firings l := rfl

@[simp] lemma firings_concat_spawn (l : List Step) (pid : UInt32) (fds : Finset Int32)
    (early : Option (Int64 × Int32)) : firings (l ++ [.spawn pid fds early]) = firings l := by
  simp [firings, Step.firing]

@[simp] lemma firings_concat_syscall (l : List Step) (f : SyscallFiring Unit)
    (fds : Finset Int32) : firings (l ++ [.syscall f fds]) = firings l ++ [f] := by
  simp [firings, Step.firing]

@[simp] lemma accesses_concat (l : List Step) (a : Step) :
    accesses (l ++ [a]) = accesses l ++ ((worldAfter l).report a).toList :=
  collect_concat _ _ _

lemma accessEvents_concat (l : List Step) (a : Step) :
    accessEvents (l ++ [a]) =
      accessEvents l ++ (((worldAfter l).report a).map Prod.snd).toList := by
  cases h : (worldAfter l).report a <;> simp [accessEvents, h]

lemma accessEvents_concat_of_none {l : List Step} {a : Step}
    (h : (worldAfter l).report a = none) : accessEvents (l ++ [a]) = accessEvents l := by
  simp [accessEvents_concat, h]

lemma accessEvents_concat_of_some {l : List Step} {a : Step} {access : ℕ × FileEvent}
    (h : (worldAfter l).report a = some access) :
    accessEvents (l ++ [a]) = accessEvents l ++ [access.2] := by
  simp [accessEvents_concat, h]

section Runs
variable {target : Target} {l : List Step} {a : Step} {f : SyscallFiring Unit}
  {fds : Finset Int32}

lemma firings_isPrefix {p : List Step} (h : p <+: l) : firings p <+: firings l :=
  h.filterMap _

lemma ProcessRun.of_isPrefix (h : ProcessRun target l) {p : List Step} (hp : p <+: l) :
    ProcessRun target p where
  allowed := h.allowed.of_isPrefix hp
  delivered f hf := h.delivered f ((firings_isPrefix hp).subset hf)
  unfailing := h.unfailing.of_isPrefix (firings_isPrefix hp)

lemma ProcessRun.of_concat (h : ProcessRun target (l ++ [a])) : ProcessRun target l :=
  h.of_isPrefix (List.prefix_append l [a])

lemma ProcessRun.allows (h : ProcessRun target (l ++ [a])) : (worldAfter l).Allows a :=
  (stepwise_concat.mp h.allowed).2

lemma ProcessRun.delivered_last (h : ProcessRun target (l ++ [.syscall f fds])) :
    f.Delivered target :=
  h.delivered f (by simp)

lemma ProcessRun.unfailing_last (h : ProcessRun target (l ++ [.syscall f fds])) :
    f.Unfailing (afterSyscalls target (firings l)) := by
  have := h.unfailing
  rw [firings_concat_syscall] at this
  exact (stepwise_concat.mp this).2

/-! ## The stashes -/

/-- What a stash holds that is true to the world: the argument of the call a process is in, if
the stash is for that call. -/
def World.stash {ν : Type} (w : World) (uses : Int64 → Bool)
    (arg : SyscallFiring Unit → Option ν) (pid : UInt32) : Option ν :=
  (w.entered pid).bind fun e => if uses e.nr then arg e else none

/-- A stash that is emptied by returns and filled, when empty, by the calls that use it is true to
the world: a process that exits is in no other call, so it leaves nothing behind. -/
lemma contents_eq_stash {ν : Type} {uses : Int64 → Bool}
    {arg capture : SyscallFiring Unit → Option ν}
    {contents : List (SyscallFiring Unit) → UInt32 → Option ν}
    (hnil : ∀ pid, contents [] pid = none) (hexit : uses SYS_EXIT_GROUP = false)
    (hstores : ∀ {l f fds}, ProcessRun target (l ++ [.syscall f fds]) →
      Stores (fun f => if uses f.nr then some f.pid else none) SyscallFiring.opens capture f
        (contents (firings l)) (contents (firings l ++ [f])))
    (hfresh : ∀ {l f fds}, ProcessRun target (l ++ [.syscall f fds]) → f.opens = true →
      uses f.nr = true → contents (firings l) f.pid = none →
        contents (firings l ++ [f]) f.pid = arg f)
    (h : ProcessRun target l) (pid : UInt32) :
    contents (firings l) pid = (worldAfter l).stash uses arg pid := by
  induction l using List.reverseRecOn generalizing pid with
  | nil => exact hnil pid
  | append_singleton l a ih =>
    have ih := ih h.of_concat
    rw [worldAfter_concat, World.stash]
    cases a with
    | spawn pid' fds early =>
      rw [firings_concat_spawn, ih, World.stash]
      by_cases hpid : pid = pid'
      · subst hpid
        have hp : (worldAfter l).proc pid = none := by simpa [World.Allows] using h.allows
        rw [entered_next_spawn, World.entered, hp]
        rfl
      · rw [entered_next_of_ne hpid]
    | syscall f fds =>
      rw [firings_concat_syscall]
      by_cases hpid : pid = f.pid
      swap
      · rw [(hstores h).frame pid (by simp [Ne.symm hpid]), ih, World.stash,
          entered_next_of_ne hpid]
      subst hpid
      obtain ⟨p, hp, ⟨hcall, ho⟩ | ⟨call, hcall, ho, hnr, -⟩⟩ := World.syscall_cases h.allows
      · -- an enter, with nothing stashed for the process
        have hnone : contents (firings l) f.pid = none := by
          simp [ih, World.stash, entered_eq hp, hcall]
        rw [entered_next_enter hp ho]
        by_cases huses : uses f.nr = true
        · have hne : f.nr ≠ SYS_EXIT_GROUP := fun he => by simp [he, hexit] at huses
          simp [hfresh h ho huses hnone, hne, huses]
        · rw [(hstores h).frame f.pid (by simp [huses]), hnone]
          split <;> simp [huses]
      · -- an exit, which finds nothing stashed if its call does not use the stash
        rw [entered_next_exit hp ho, Option.bind_none]
        by_cases huses : uses f.nr = true
        · exact (hstores h).close ho f.pid (by simp [huses])
        · rw [(hstores h).frame f.pid (by simp [huses]), ih, World.stash, entered_eq hp, hcall]
          cases call with
          | early nr fd => rfl
          | entered e =>
            have hnr : e.nr = f.nr := hnr
            simp [hnr, huses]

/-- `PENDING_OPEN_PATH` is true to the world. -/
lemma pathContents_eq_stash (h : ProcessRun target l) (pid : UInt32) :
    pathContents target (firings l) pid =
      (worldAfter l).stash usesPath SyscallFiring.pathArg pid := by
  refine contents_eq_stash pathContents_nil rfl (fun h => stores_path h.delivered_last)
    (fun {l f fds} h ho huses hnone => ?_) h pid
  have hslot : f.pathSlot = some f.pid := SyscallFiring.pathSlot_eq_some.mpr ⟨huses, rfl⟩
  cases harg : f.pathArg with
  | some pathname =>
    rw [← harg]
    exact pathContents_of_unfailing h.delivered_last h.unfailing_last
      (fun _ _ => by simp [harg]) ho hslot
  | none =>
    rcases (stores_path h.delivered_last).store ho f.pid hslot with hkept | hstored
    · exact hkept.trans hnone
    · exact hstored.trans harg

/-- `PENDING_FD` is true to the world. -/
lemma fdContents_eq_stash (h : ProcessRun target l) (pid : UInt32) :
    fdContents target (firings l) pid =
      (worldAfter l).stash usesFd (fun e => some e.fdArg) pid := by
  refine contents_eq_stash fdContents_nil rfl (fun h => stores_fd h.delivered_last)
    (fun {l f fds} h ho huses _ => ?_) h pid
  rw [fdContents_of_unfailing h.delivered_last h.unfailing_last ho
    (SyscallFiring.fdSlot_eq_some.mpr ⟨huses, rfl⟩),
    SyscallFiring.fdCapture_of_readable h.unfailing_last.readable]

/-- A returning call is reported, if it was entered under the trace. -/
lemma emitted_eq_report (h : ProcessRun target (l ++ [.syscall f fds])) :
    emitted target (firings l) f =
      ((worldAfter l).report (.syscall f fds)).map Prod.snd := by
  have hok := h.unfailing_last
  obtain ⟨p, hp, ⟨hcall, ho⟩ | ⟨call, hcall, ho, hnr, -⟩⟩ := World.syscall_cases h.allows
  · simp [emitted, World.report, ho]
  · have hret : f.ctx.readAt Int64 16 = .ok f.ret := hok.readable.readAt Int64 16
    rw [emitted, if_neg (by simp [ho, hok.fileEvents]), hret, pathContents_eq_stash h.of_concat,
      fdContents_eq_stash h.of_concat]
    simp only [Except.toOption, Option.bind_some, World.report, ho, hp, hcall,
      Bool.false_eq_true, if_false]
    cases call with
    | early nr fd =>
      exact SyscallFiring.callEvent_eq_none
        (fun _ => by simp [World.stash, entered_eq hp, hcall])
        fun _ => by simp [World.stash, entered_eq hp, hcall]
    | entered e =>
      have hnr : e.nr = f.nr := hnr
      rw [SyscallFiring.callEvent_eq_fileEvent (e := e)
        (fun huses => by simp [World.stash, entered_eq hp, hcall, hnr, huses])
        fun huses => by simp [World.stash, entered_eq hp, hcall, hnr, huses]]
      simp [Function.comp_def]

/-- **The ring is the history.**  `FILE_EVENTS` holds the file accesses completed so far. -/
lemma fileEvents_firings (h : ProcessRun target l) :
    (afterSyscalls target (firings l)).fileEvents =
      (accessEvents l).map RingBufItem.of := by
  induction l using List.reverseRecOn with
  | nil => rfl
  | append_singleton l a ih =>
    have ih := ih h.of_concat
    cases a with
    | spawn pid fds early => simpa [accessEvents_concat, World.report] using ih
    | syscall f fds =>
      rw [firings_concat_syscall, fileEvents_concat h.delivered_last, ih, emitted_eq_report h,
        accessEvents_concat, List.map_append]

/-- The table after a run, row by row. -/
lemma lookup_filesAfter (h : ProcessRun target l) (k : UInt32 × Int32) :
    (filesAfter target l).lookup k = row (accessEvents l) k := by
  rw [filesAfter, fileEvents_firings h, row]

end Runs

/-! ## What a step does to the descriptors -/

/-- The event of a call says whether it succeeded, and on which descriptor. -/
lemma fileEvent_eq_some {τ : Type} {e f : SyscallFiring τ} {event : FileEvent}
    (h : SyscallFiring.fileEvent e f = some event) :
    f.Succeeded ∧ fileKind f.nr = some event.kind ∧ event.pid = f.pid ∧
      event.fd = if event.kind = .Open then f.ret.toInt32 else e.fdArg := by
  unfold SyscallFiring.fileEvent at h
  split at h
  · rename_i hs
    rcases hk : fileKind f.nr with _ | (_ | _ | _ | _)
    · simp [hk] at h
    · obtain ⟨pathname, -, rfl⟩ := by simpa [hk] using h
      exact ⟨hs, rfl, rfl, rfl⟩
    all_goals
      obtain rfl := by simpa [hk] using h
      exact ⟨hs, rfl, rfl, rfl⟩
  · simp at h

section Descriptors
variable {w : World} {a : Step} {f : SyscallFiring Unit} {fds : Finset Int32} {p : Process}
  {k : UInt32 × Int32} {access : ℕ × FileEvent}

/-- A completed access is that of a call that was entered under the trace and succeeded. -/
lemma report_eq_some (h : w.report a = some access) :
    ∃ f fds p e, a = .syscall f fds ∧ f.opens = false ∧ w.proc f.pid = some p ∧
      p.call = some (.entered e) ∧ SyscallFiring.fileEvent e f = some access.2 ∧
      access.1 = p.birth := by
  cases a with
  | spawn pid fds early => simp [World.report] at h
  | syscall f fds =>
    unfold World.report at h
    dsimp only at h
    split at h
    · simp at h
    · rename_i ho
      obtain ⟨p, hp, e, ⟨call, hcall, henter⟩, event, hevent, rfl⟩ := by
        simpa [Option.bind_eq_some_iff] using h
      cases call with
      | early nr fd => simp at henter
      | entered e' =>
        obtain rfl := Option.some.inj henter
        exact ⟨f, fds, p, e', rfl, by simpa using ho, hp, hcall, hevent, rfl⟩

lemma pid_of_report (h : w.report a = some access) : access.2.key.1 = a.pid := by
  obtain ⟨f, fds, p, e, rfl, -, -, -, hevent, -⟩ := report_eq_some h
  exact (fileEvent_eq_some hevent).2.2.1

/-- The process that made an access is there before and after it. -/
lemma proc_of_report (h : w.report a = some access) :
    ∃ p p', w.proc access.2.key.1 = some p ∧ (w.next a).proc access.2.key.1 = some p' ∧
      p.birth = access.1 ∧ p'.birth = access.1 := by
  obtain ⟨f, fds, p, e, rfl, ho, hp, -, hevent, hbirth⟩ := report_eq_some h
  have hpid : access.2.key.1 = f.pid := (fileEvent_eq_some hevent).2.2.1
  rw [hpid]
  exact ⟨p, _, hp, proc_next_exit hp ho, hbirth.symm, hbirth.symm⟩

/-- A descriptor just opened, read or written is open. -/
lemma isOpen_of_report (hallows : w.Allows a) (h : w.report a = some access)
    (hkind : access.2.kind ≠ .Close) : (w.next a).IsOpen access.2.key := by
  obtain ⟨f, fds, p, e, rfl, ho, hp, hcall, hevent, -⟩ := report_eq_some h
  obtain ⟨hs, hk, hpid, hfd⟩ := fileEvent_eq_some hevent
  obtain ⟨p', hp', ⟨-, hopens⟩ | ⟨call, hcall', -, -, heffect⟩⟩ := World.syscall_cases hallows
  · simp [ho] at hopens
  obtain rfl := Option.some.inj (hp.symm.trans hp')
  obtain rfl := Option.some.inj (hcall.symm.trans hcall')
  have hnext : (w.next (.syscall f fds)).proc f.pid = _ := proc_next_exit hp ho
  rw [← hpid] at hnext
  refine ⟨_, hnext, ?_⟩
  change access.2.fd ∈ fds
  rw [hfd]
  rw [hk] at heffect
  unfold SyscallFiring.Succeeded at hs
  rw [hk] at hs
  cases hkind' : access.2.kind with
  | Open =>
    rw [hkind'] at heffect hs
    have hret : 0 ≤ f.ret := hs
    have hfds : fds = insert f.ret.toInt32 p.fds := by simpa [Effect, hret] using heffect
    simp [hfds]
  | Close => exact absurd hkind' hkind
  | Read | Write =>
    rw [hkind'] at heffect hs
    obtain ⟨hmem, rfl⟩ := heffect
    simpa using hmem hs

lemma pid_of_released (hopen : w.IsOpen k) (hgone : ¬ (w.next a).IsOpen k) : k.1 = a.pid := by
  obtain ⟨p, hp, hfd⟩ := hopen
  by_contra hne
  exact hgone ⟨p, (proc_next_of_ne hne).trans hp, hfd⟩

/-- A successful close that was seen to begin is reported. -/
lemma report_of_close {e : SyscallFiring Unit} (fds : Finset Int32) (hp : w.proc f.pid = some p)
    (hcall : p.call = some (.entered e)) (ho : f.opens = false)
    (hk : fileKind f.nr = some .Close) (hret : f.ret = 0) :
    ∃ access, w.report (.syscall f fds) = some access ∧ access.2.key = (f.pid, e.fdArg) ∧
      access.2.kind = .Close := by
  have hs : f.Succeeded := by simp [SyscallFiring.Succeeded, hk, hret]
  obtain ⟨event, hevent⟩ := Option.isSome_iff_exists.mp
    ((fileEvent_isSome (e := e) (by simp [usesPath, hk])).mpr hs)
  obtain ⟨-, hkind, hpid, hfd⟩ := fileEvent_eq_some hevent
  have hclose : event.kind = .Close := Option.some.inj (hkind.symm.trans hk)
  have hreport : w.report (.syscall f fds) = some (p.birth, event) := by
    simp [World.report, ho, hp, hcall, hevent]
  rw [hclose] at hfd
  exact ⟨_, hreport, Prod.ext hpid hfd, hclose⟩

/-- A descriptor goes away with a successful close of it, reported if the call was seen to begin,
or silently. -/
lemma released_cases (hallows : w.Allows a) (hopen : w.IsOpen k)
    (hgone : ¬ (w.next a).IsOpen k) :
    a.closes = false ∧ w.report a = none ∨
    a.closes = true ∧
      ((∃ access, w.report a = some access ∧ access.2.key = k ∧ access.2.kind = .Close) ∨
        ∃ p nr fd, w.proc k.1 = some p ∧ p.call = some (.early nr fd)) := by
  have hpid : k.1 = a.pid := pid_of_released hopen hgone
  obtain ⟨p, hp, hfd⟩ := hopen
  cases a with
  | spawn pid fds early =>
    have hnew : w.proc pid = none := by simpa [World.Allows] using hallows
    have hpid : k.1 = pid := hpid
    simp [hpid, hnew] at hp
  | syscall f fds =>
    have hpid : k.1 = f.pid := hpid
    rw [hpid] at hp ⊢
    obtain ⟨p', hp', ⟨-, ho⟩ | ⟨call, hcall, ho, -, heffect⟩⟩ := World.syscall_cases hallows
    · exact Or.inl ⟨by simp [Step.closes, ho], by simp [World.report, ho]⟩
    obtain rfl := Option.some.inj (hp'.symm.trans hp)
    obtain ⟨hk, hfd'⟩ := heffect.close_of_released hfd fun hmem =>
      hgone ⟨_, hpid ▸ proc_next_exit hp ho, hmem⟩
    by_cases hret : f.ret = 0
    · refine Or.inr ⟨by simp [Step.closes, ho, hk, hret], ?_⟩
      cases call with
      | early nr fd => exact Or.inr ⟨p', nr, fd, hp, hcall⟩
      | entered e =>
        obtain ⟨access, hreport, hkey, hclose⟩ := report_of_close fds hp hcall ho hk hret
        exact Or.inl ⟨access, hreport, hkey.trans (Prod.ext hpid.symm hfd'.symm), hclose⟩
    · have hs : ¬ f.Succeeded := by simp [SyscallFiring.Succeeded, hk, hret]
      exact Or.inl ⟨by simp [Step.closes, hret],
        by simp [World.report, SyscallFiring.fileEvent, hs]⟩

end Descriptors

end Peekbeam
