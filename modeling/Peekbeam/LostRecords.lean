import Peekbeam.FileTrace
import Peekbeam.Latency

/-!
# When `EVENTS` is full

A syscall firing whose record finds no room in `EVENTS` ends there: userspace does not see it, and
the file bookkeeping that follows the output is skipped too.  This file takes runs of
single-threaded processes in which any of the firings may be lost in that way, and asks what the
remaining ones still say about the calls.

* `events_own_iff` — file events.  A lost exit leaves its argument in the stash, and a lost enter
  fails to replace it, so the exit of the second call is reported with the argument of the first.
  That is the only way: events stay truthful exactly while no reporting exit whose own enter left
  nothing in the stash finds there the different argument of an earlier call.
* `samples_true_iff` — latencies.  In the same way a start left in `pending` by a call whose exit
  was lost is charged to a later exit whose own enter was lost, and exactly then a sample spans
  two calls.

`stale_path_is_reported` and `sample_spans_two_calls` are the smallest runs that go wrong.
-/

namespace Peekbeam

open History SharedSlot

attribute [local irreducible] TracePointContext.field

variable {τ : Type}

/-! ## Runs with losses -/

/-- The record of the firing reached `EVENTS`. -/
def SyscallFiring.Recorded (f : SyscallFiring τ) : Prop := f.helpers.eventsError = none

instance (f : SyscallFiring τ) : Decidable f.Recorded := inferInstanceAs (Decidable (_ = _))

section Runs
open SyscallFiring

/-- A run of syscall firings of target processes, any of which may find `EVENTS` full. -/
structure LossyRun [DecidableEq τ] (target : Target) (proc : τ → UInt32)
    (init : τ → Option OngoingCall) (l : List (SyscallFiring τ)) : Prop where
  ofTarget : ∀ f ∈ l, (Kernel.load target).matchesTarget f.helpers f.pid = true
  readsNr : ∀ f ∈ l, f.ctx.readError SYSCALL_NR_OFFSET = none
  pid : ∀ f ∈ l, f.pid = proc f.thread
  alternates : Stepwise (Alternates SyscallFiring.thread SyscallFiring.key SyscallFiring.opens
    (initialKey proc init)) l

variable {target : Target} {l : List (SyscallFiring τ)} {f : SyscallFiring τ}

/-- A lost firing leaves no trace. -/
lemma afterSyscalls_concat_of_lost (hread : f.ctx.readError SYSCALL_NR_OFFSET = none)
    (hlost : ¬ f.Recorded) : afterSyscalls target (l ++ [f]) = afterSyscalls target l := by
  obtain ⟨e, he⟩ := Option.ne_none_iff_exists'.mp hlost
  rw [afterSyscalls_concat, fire_toFiring]
  unfold tryEmit
  dsimp only
  split
  · rfl
  · rw [TracePointContext.readAt_of_readError_none hread]
    simp [RingBuf.output, he]

section Lossy
variable [DecidableEq τ] {proc : τ → UInt32} {init : τ → Option OngoingCall}

lemma LossyRun.of_isPrefix (h : LossyRun target proc init l) {p : List (SyscallFiring τ)}
    (hp : p <+: l) : LossyRun target proc init p where
  ofTarget f hf := h.ofTarget f (hp.subset hf)
  readsNr f hf := h.readsNr f (hp.subset hf)
  pid f hf := h.pid f (hp.subset hf)
  alternates := h.alternates.of_isPrefix hp

lemma LossyRun.delivered (h : LossyRun target proc init l) {f : SyscallFiring τ} (hf : f ∈ l)
    (hrec : f.Recorded) : f.Delivered target where
  ofTarget := h.ofTarget f hf
  readsNr := h.readsNr f hf
  output := hrec

/-- In a run of single-threaded processes the process identifies the thread. -/
lemma LossyRun.thread_eq (h : LossyRun target proc init l) (hsingle : Function.Injective proc)
    {f g : SyscallFiring τ} (hf : f ∈ l) (hg : g ∈ l) (hpid : f.pid = g.pid) :
    f.thread = g.thread :=
  hsingle ((h.pid f hf).symm.trans (hpid.trans (h.pid g hg)))

end Lossy

/-! ## File events -/

/-- What the firing `f` appends to `FILE_EVENTS`. -/
def reported (target : Target) (l : List (SyscallFiring τ)) (f : SyscallFiring τ) :
    RingBuf FileEvent :=
  (afterSyscalls target (l ++ [f])).fileEvents.drop (afterSyscalls target l).fileEvents.length

/-- The exit is recorded, its return value can be read, and `FILE_EVENTS` has room. -/
structure Reporting (f : SyscallFiring τ) : Prop where
  closes : f.opens = false
  recorded : f.Recorded
  readable : f.ctx.readError 16 = none
  fileEvents : f.helpers.fileEventsError = none

/-- The firing is recorded and, if it is the enter of a file access, stashes its argument. -/
def Effective (target : Target) (l : List (SyscallFiring τ)) (f : SyscallFiring τ) : Prop :=
  f.Recorded ∧ (f.opens = true →
    (usesPath f.nr = true → f.pathArg.isSome ∧ f.helpers.insertError = none ∧
      (afterSyscalls target l).pendingOpenPath.HasRoom f.pid) ∧
    (usesFd f.nr = true → f.fdCapture.isSome ∧ f.helpers.insertError = none ∧
      (afterSyscalls target l).pendingFd.HasRoom f.pid))

instance (target : Target) (l : List (SyscallFiring τ)) (f : SyscallFiring τ) :
    Decidable (Effective target l f) :=
  inferInstanceAs (Decidable (_ ∧ _))

/-- The enter whose argument is in the stash of `slot` for process `pid`. -/
def stashedBy (target : Target) (slot : SyscallFiring τ → Option UInt32)
    (l : List (SyscallFiring τ)) (pid : UInt32) : Option (SyscallFiring τ) :=
  held slot opens (kept (Effective target) l) (some pid)

/-- An insertion into a stash stores what was captured if nothing is in the way. -/
lemma stashedAt_eq {ν : Type} {cap : ℕ} (m : BpfHashMap UInt32 ν cap) (h : Helpers)
    (pid : UInt32) (captured : Except Int32 ν) :
    stashedAt m h pid captured =
      if captured.toOption.isSome ∧ h.insertError = none ∧ m.HasRoom pid then captured.toOption
      else m.get pid := by
  cases captured <;> simp [stashedAt, Except.toOption]

/-- An enter that was recorded writes its stash if it is effective. -/
lemma pathContents_of_opens (hf : f.Delivered target) (ho : f.opens = true) {pid : UInt32}
    (hslot : f.pathSlot = some pid) :
    pathContents target (l ++ [f]) pid =
      if Effective target l f then f.pathArg else pathContents target l pid := by
  obtain ⟨huses, rfl⟩ := pathSlot_eq_some.mp hslot
  have hno := not_usesFd_of_usesPath huses
  simp only [pathContents_concat hf, huses, kind_of_opens ho, and_self, if_true, stashedAt_eq]
  simp [Effective, Recorded, hf.output, ho, huses, hno, pathArg, pathContents]

lemma fdContents_of_opens (hf : f.Delivered target) (ho : f.opens = true) {pid : UInt32}
    (hslot : f.fdSlot = some pid) :
    fdContents target (l ++ [f]) pid =
      if Effective target l f then f.fdCapture else fdContents target l pid := by
  obtain ⟨huses, rfl⟩ := fdSlot_eq_some.mp hslot
  have hno := not_usesPath_of_usesFd huses
  simp only [fdContents_concat hf, huses, kind_of_opens ho, and_self, if_true, stashedAt_eq]
  simp [Effective, Recorded, hf.output, ho, huses, hno, fdCapture, fdContents]

/-- A failed call is not reported. -/
lemma callEvent_of_not_succeeded {path : Option PendingOpen} {fd : Option Int32}
    (h : ¬ f.Succeeded) : callEvent f.helpers f.pid f.nr f.ret path fd = none := by
  unfold Succeeded at h
  unfold callEvent
  rcases hk : fileKind f.nr with _ | (_ | _ | _ | _) <;> simp only [hk] at h
  · rfl
  · exact if_pos (Int64.not_le.mp h)
  · exact if_pos h
  all_goals exact if_pos (Int64.not_le.mp h)

/-- A successful call on a descriptor is reported with what is stashed. -/
lemma callEvent_of_succeeded {kind : FileEventKind} {path : Option PendingOpen}
    {fd : Option Int32} (hs : f.Succeeded) (hk : fileKind f.nr = some kind) (hne : kind ≠ .Open) :
    callEvent f.helpers f.pid f.nr f.ret path fd = fd.map fun fd =>
      fdEvent f.helpers f.pid kind fd (if kind = .Close then 0 else f.ret) := by
  unfold Succeeded at hs
  unfold callEvent
  cases kind <;> simp_all [Int64.not_lt]

lemma openEvent_injective (h : Helpers) (pid : UInt32) (ret : Int64) :
    Function.Injective (openEvent h pid ret) := by
  rintro ⟨path, pathLen⟩ ⟨path', pathLen'⟩ heq
  have hpath : path = path' := congrArg FileEvent.path heq
  have hlen : pathLen = pathLen' := congrArg FileEvent.pathLen heq
  rw [hpath, hlen]

section Stashes
variable [DecidableEq τ] {proc : τ → UInt32} {init : τ → Option OngoingCall}

/-- **A stash holds the argument of the last effective enter**, given how one firing changes
it. -/
lemma LossyRun.contents_eq (hrun : LossyRun target proc init l) {ν : Type}
    {slot : SyscallFiring τ → Option UInt32} {capture : SyscallFiring τ → Option ν}
    {contents : List (SyscallFiring τ) → UInt32 → Option ν} (hempty : ∀ pid, contents [] pid = none)
    (hlost : ∀ l f, f.ctx.readError SYSCALL_NR_OFFSET = none → ¬ f.Recorded →
      contents (l ++ [f]) = contents l)
    (hstores : ∀ l f, f.Delivered target →
      Stores slot opens capture f (contents l) (contents (l ++ [f])))
    (hwrite : ∀ l f, f.Delivered target → f.opens = true → ∀ pid, slot f = some pid →
      contents (l ++ [f]) pid = if Effective target l f then capture f else contents l pid)
    (pid : UInt32) : contents l pid = (stashedBy target slot l pid).bind capture := by
  have hall : Stepwise (fun _ f => f.ctx.readError SYSCALL_NR_OFFSET = none ∧
      (f.Recorded → f.Delivered target)) l :=
    stepwise_forall.mpr fun f hf => ⟨hrun.readsNr f hf, hrun.delivered hf⟩
  refine contents_eq_held_kept hempty (hall.imp fun pre f hf heff => ?_)
    (hall.imp fun pre f hf hidle => ?_) pid
  · refine ⟨hstores pre f (hf.2 heff.1), fun ho k hk => ?_⟩
    rw [hwrite pre f (hf.2 heff.1) ho k hk, if_pos heff]
  · by_cases hrec : f.Recorded
    · -- only an enter can be recorded and have no effect
      have ho : f.opens = true := by
        by_contra ho
        exact hidle ⟨hrec, fun h => absurd h ho⟩
      funext k
      by_cases hk : slot f = some k
      · rw [hwrite pre f (hf.2 hrec) ho k hk, if_neg hidle]
      · exact (hstores pre f (hf.2 hrec)).frame k hk
    · exact hlost pre f hf.1 hrec

lemma pathContents_eq_stashedBy (hrun : LossyRun target proc init l) (pid : UInt32) :
    pathContents target l pid = (stashedBy target pathSlot l pid).bind pathArg :=
  hrun.contents_eq pathContents_nil
    (fun l f hread hlost => by
      unfold pathContents
      rw [afterSyscalls_concat_of_lost hread hlost])
    (fun _ _ hf => stores_path hf) (fun _ _ hf ho _ hslot => pathContents_of_opens hf ho hslot) pid

lemma fdContents_eq_stashedBy (hrun : LossyRun target proc init l) (pid : UInt32) :
    fdContents target l pid = (stashedBy target fdSlot l pid).bind fdCapture :=
  hrun.contents_eq fdContents_nil
    (fun l f hread hlost => by
      unfold fdContents
      rw [afterSyscalls_concat_of_lost hread hlost])
    (fun _ _ hf => stores_fd hf) (fun _ _ hf ho _ hslot => fdContents_of_opens hf ho hslot) pid

/-! ### The reports of an exit -/

lemma reported_of_reporting (hrun : LossyRun target proc init (l ++ [f])) (hf : Reporting f) :
    reported target l f =
      (callEvent f.helpers f.pid f.nr f.ret (pathContents target l f.pid)
        (fdContents target l f.pid)).toList.map RingBufItem.of := by
  have hret : f.ctx.readAt Int64 16 = .ok f.ret :=
    TracePointContext.readAt_of_readError_none hf.readable
  rw [reported, fileEvents_concat (hrun.delivered (by simp) hf.recorded), List.drop_left, emitted,
    if_neg (by simp [hf.closes, hf.fileEvents]), hret]
  rfl

lemma reported_eq_nil (hrun : LossyRun target proc init (l ++ [f]))
    (hf : ¬ (Reporting f ∧ f.Succeeded)) : reported target l f = [] := by
  by_cases hrec : f.Recorded
  · by_cases hrep : Reporting f
    · rw [reported_of_reporting hrun hrep, callEvent_of_not_succeeded fun hs => hf ⟨hrep, hs⟩]
      rfl
    · rw [reported, fileEvents_concat (hrun.delivered (by simp) hrec), List.drop_left, emitted]
      split
      · rfl
      · rename_i hopen
        obtain ⟨hclose, herr⟩ : f.opens = false ∧ f.helpers.fileEventsError = none := by
          simpa using hopen
        have hread : f.ctx.readError 16 ≠ none := fun h => hrep ⟨hclose, hrec, h, herr⟩
        obtain ⟨e, he⟩ := Option.ne_none_iff_exists'.mp hread
        rw [TracePointContext.readAt_of_readError he]
        rfl
  · rw [reported, afterSyscalls_concat_of_lost (hrun.readsNr f (by simp)) hrec]
    simp

/-- An exit that reports what is stashed reports its own call if the call's argument is what is
stashed. -/
lemma reports_own_iff_of_event {ν : Type} {contents : Option ν}
    {arg : SyscallFiring τ → Option ν} {event : ν → FileEvent} (hinj : Function.Injective event)
    (hreported : reported target l f = (contents.map event).toList.map RingBufItem.of)
    (hown : ∀ e, fileEvent e f = (arg e).map event) :
    (∀ item ∈ reported target l f, ∃ e ev, ownEnter l f.thread = some e ∧
        fileEvent e f = some ev ∧ item = RingBufItem.of ev) ↔
      ∀ v, contents = some v → ∃ e, ownEnter l f.thread = some e ∧ arg e = some v := by
  rw [hreported]
  cases contents with
  | none => simp
  | some v =>
    constructor
    · intro h _ heq
      obtain rfl := Option.some.inj heq
      obtain ⟨e, ev, he, hev, hitem⟩ := h (.of (event v)) (by simp)
      rw [hown] at hev
      obtain ⟨v', harg, rfl⟩ := Option.map_eq_some_iff.mp hev
      obtain rfl := hinj (congrArg RingBufItem.record hitem)
      exact ⟨e, he, harg⟩
    · intro h item hitem
      obtain ⟨e, he, harg⟩ := h v rfl
      exact ⟨e, event v, he, by simp [hown, harg], by simpa using hitem⟩

/-- A successful exit from an open reports its call if what is stashed is the call's pathname. -/
lemma reports_own_path_iff (hrun : LossyRun target proc init (l ++ [f])) (hf : Reporting f)
    (hs : f.Succeeded) (huses : usesPath f.nr = true) :
    (∀ item ∈ reported target l f, ∃ e ev, ownEnter l f.thread = some e ∧
        fileEvent e f = some ev ∧ item = RingBufItem.of ev) ↔
      ∀ pathname, pathContents target l f.pid = some pathname →
        ∃ e, ownEnter l f.thread = some e ∧ e.pathArg = some pathname := by
  have hk : fileKind f.nr = some .Open := by simpa [usesPath] using huses
  have hret : ¬ f.ret < 0 := by
    have : 0 ≤ f.ret := by simpa [Succeeded, hk] using hs
    exact Int64.not_lt.mpr this
  refine reports_own_iff_of_event (openEvent_injective f.helpers f.pid f.ret) ?_ fun e => ?_
  · rw [reported_of_reporting hrun hf]
    simp [callEvent, hk, hret]
  · simp only [fileEvent, hs, hk, if_true]
    rfl

/-- A successful exit from a descriptor call reports its call if what is stashed is the call's
descriptor. -/
lemma reports_own_fd_iff (hrun : LossyRun target proc init (l ++ [f])) (hf : Reporting f)
    (hs : f.Succeeded) (huses : usesFd f.nr = true) :
    (∀ item ∈ reported target l f, ∃ e ev, ownEnter l f.thread = some e ∧
        fileEvent e f = some ev ∧ item = RingBufItem.of ev) ↔
      ∀ fd, fdContents target l f.pid = some fd →
        ∃ e, ownEnter l f.thread = some e ∧ some e.fdArg = some fd := by
  obtain ⟨kind, hk, hne⟩ : ∃ kind, fileKind f.nr = some kind ∧ kind ≠ .Open := by
    obtain ⟨hsome, hopen⟩ := Bool.and_eq_true_iff.mp huses
    obtain ⟨kind, hk⟩ := Option.isSome_iff_exists.mp hsome
    exact ⟨kind, hk, fun h => by simp [usesPath, hk, h] at hopen⟩
  have hinj : Function.Injective fun fd =>
      fdEvent f.helpers f.pid kind fd (if kind = .Close then 0 else f.ret) := fun fd fd' h =>
    congrArg FileEvent.fd h
  refine reports_own_iff_of_event hinj ?_ fun e => ?_
  · rw [reported_of_reporting hrun hf, callEvent_of_succeeded hs hk hne]
  · have hcall : callEvent f.helpers f.pid f.nr f.ret none (some e.fdArg) = fileEvent e f :=
      callEvent_eq_fileEvent (fun h => absurd h (not_usesPath_of_usesFd huses)) fun _ => rfl
    rw [← hcall, callEvent_of_succeeded hs hk hne]

/-! ### Stale arguments -/

/-- The last thing the thread did was an enter that was effective. -/
def OwnStashed (target : Target) (l : List (SyscallFiring τ)) (th : τ) : Prop :=
  Since SyscallFiring.thread (fun _ => true)
    (fun pre e => e.opens = true ∧ Effective target pre e) l th

/-- If `f` reports a call whose own enter was not effective, then no argument is left in its
stash, or one that the call passed too. -/
def NoStaleArgument (target : Target) (l : List (SyscallFiring τ)) (f : SyscallFiring τ) : Prop :=
  Reporting f → f.Succeeded → ¬ OwnStashed target l f.thread →
    (usesPath f.nr = true → ∀ e', stashedBy target pathSlot l f.pid = some e' →
      ∃ e, ownEnter l f.thread = some e ∧ e.pathArg = e'.pathArg) ∧
    (usesFd f.nr = true → ∀ e', stashedBy target fdSlot l f.pid = some e' →
      ∃ e, ownEnter l f.thread = some e ∧ e.fdArg = e'.fdArg)

/-- Every event in `FILE_EVENTS` is that of the call that had just returned. -/
def EventsOwn (target : Target) (l : List (SyscallFiring τ)) : Prop :=
  Stepwise (fun pre f => ∀ item ∈ reported target pre f, ∃ e ev, ownEnter pre f.thread = some e ∧
    fileEvent e f = some ev ∧ item = RingBufItem.of ev) l

omit [DecidableEq τ] in
/-- What is stashed by an effective enter has an argument. -/
lemma effective_of_stashedBy {slot : SyscallFiring τ → Option UInt32} {pid : UInt32}
    {e : SyscallFiring τ} (h : stashedBy target slot l pid = some e) :
    slot e = some pid ∧ e.opens = true ∧ ∃ pre, Effective target pre e := by
  obtain ⟨hmem, hslot, ho⟩ := held_eq_some h
  obtain ⟨pre, g, post, -, hg⟩ := mem_collect.mp hmem
  split at hg
  · rename_i heff
    obtain rfl := List.mem_singleton.mp hg
    exact ⟨hslot, ho, pre, heff⟩
  · simp at hg

omit [DecidableEq τ] in
lemma pathArg_of_stashedBy {pid : UInt32} {e : SyscallFiring τ}
    (h : stashedBy target pathSlot l pid = some e) : e.pathArg.isSome := by
  obtain ⟨hslot, ho, pre, heff⟩ := effective_of_stashedBy h
  exact ((heff.2 ho).1 (pathSlot_eq_some.mp hslot).1).1

omit [DecidableEq τ] in
lemma fdCapture_of_stashedBy {pid : UInt32} {e : SyscallFiring τ}
    (h : stashedBy target fdSlot l pid = some e) : e.fdCapture = some e.fdArg := by
  obtain ⟨hslot, ho, pre, heff⟩ := effective_of_stashedBy h
  obtain ⟨fd, hfd⟩ := Option.isSome_iff_exists.mp ((heff.2 ho).2 (fdSlot_eq_some.mp hslot).1).1
  rw [hfd, fdCapture_eq_some hfd]

/-- An effective enter has the stash of its process to itself until it exits, so the stash can
only hold another argument when the own enter was not effective. -/
lemma stashed_own_iff (hrun : LossyRun target proc init (l ++ [f]))
    (hsingle : Function.Injective proc) (hclose : f.opens = false) {ν : Type}
    {slot : SyscallFiring τ → Option UInt32} (arg : SyscallFiring τ → Option ν)
    (hslot : ∀ {f g : SyscallFiring τ}, f.key = g.key → slot f = slot g)
    (hpid : ∀ {f : SyscallFiring τ} {pid}, slot f = some pid → f.pid = pid)
    (harg : ∀ e, stashedBy target slot l f.pid = some e → (arg e).isSome)
    (hf : slot f = some f.pid) :
    (∀ v, (stashedBy target slot l f.pid).bind arg = some v →
        ∃ e, ownEnter l f.thread = some e ∧ arg e = some v) ↔
      (¬ OwnStashed target l f.thread → ∀ e', stashedBy target slot l f.pid = some e' →
        ∃ e, ownEnter l f.thread = some e ∧ arg e = arg e') := by
  constructor
  · intro h _ e' he'
    obtain ⟨v, hv⟩ := Option.isSome_iff_exists.mp (harg e' he')
    obtain ⟨e, he, hev⟩ := h v (by simp [he', hv])
    exact ⟨e, he, hev.trans hv.symm⟩
  · intro h v hv
    obtain ⟨e', he', hv⟩ := Option.bind_eq_some_iff.mp hv
    by_cases hown : OwnStashed target l f.thread
    · obtain ⟨e, he, hheld⟩ := held_kept_of_since hown fun a ha b hb k hak hbk =>
        hrun.thread_eq hsingle (List.mem_append_left _ ha) (List.mem_append_left _ hb)
          ((hpid hak).trans (hpid hbk).symm)
      have hkey : e.key = f.key := (stepwise_concat.mp hrun.alternates).2.key_eq hclose he
      obtain rfl := Option.some.inj ((hheld _ ((hslot hkey).trans hf)).symm.trans he')
      exact ⟨e, he, hv⟩
    · obtain ⟨e, he, hev⟩ := h hown e' he'
      exact ⟨e, he, hev.trans hv⟩

/-- One firing: its report is its own call's exactly if it finds no stale argument. -/
lemma reports_own_iff (hrun : LossyRun target proc init (l ++ [f]))
    (hsingle : Function.Injective proc) :
    (∀ item ∈ reported target l f, ∃ e ev, ownEnter l f.thread = some e ∧
        fileEvent e f = some ev ∧ item = RingBufItem.of ev) ↔ NoStaleArgument target l f := by
  have hl := hrun.of_isPrefix (List.prefix_append l [f])
  by_cases hf : Reporting f ∧ f.Succeeded
  · obtain ⟨hrep, hs⟩ := hf
    by_cases huses : usesPath f.nr = true
    · have hno := not_usesFd_of_usesPath huses
      have hiff := stashed_own_iff hrun hsingle hrep.closes pathArg pathSlot_of_key
        (fun h => (pathSlot_eq_some.mp h).2) (fun _ h => pathArg_of_stashedBy h)
        (pathSlot_eq_some.mpr ⟨huses, rfl⟩)
      rw [reports_own_path_iff hrun hrep hs huses, pathContents_eq_stashedBy hl, hiff]
      simp [NoStaleArgument, hrep, hs, huses, hno]
    · have huses' : usesFd f.nr = true := by
        have : (fileKind f.nr).isSome := by
          unfold Succeeded at hs
          cases hk : fileKind f.nr <;> simp_all
        simp [usesFd, this, huses]
      have hfd : fdContents target l f.pid =
          (stashedBy target fdSlot l f.pid).bind fun e => some e.fdArg := by
        rw [fdContents_eq_stashedBy hl]
        cases he : stashedBy target fdSlot l f.pid with
        | none => rfl
        | some e => exact fdCapture_of_stashedBy he
      have hiff := stashed_own_iff hrun hsingle hrep.closes (fun e => some e.fdArg)
        fdSlot_of_key (fun h => (fdSlot_eq_some.mp h).2) (fun _ _ => rfl)
        (fdSlot_eq_some.mpr ⟨huses', rfl⟩)
      rw [reports_own_fd_iff hrun hrep hs huses', hfd, hiff]
      simp [NoStaleArgument, hrep, hs, huses, huses']
  · rw [reported_eq_nil hrun hf]
    exact ⟨fun _ hrep hs => absurd ⟨hrep, hs⟩ hf, fun _ item hitem => by simp at hitem⟩

/-- **Losing records falsifies file events exactly when a stale argument is found.**  In a run of
single-threaded processes with arbitrary losses every file event is that of the call that just
returned, if and only if every exit that reports a call whose own enter left nothing in the stash
finds the stash empty, or holding an argument that its call passed too. -/
theorem events_own_iff (hrun : LossyRun target proc init l) (hsingle : Function.Injective proc) :
    EventsOwn target l ↔ Stepwise (NoStaleArgument target) l :=
  stepwise_congr fun _ _ hp => reports_own_iff (hrun.of_isPrefix hp) hsingle

end Stashes

/-- A firing of `openat` (56) of the pathname `name` in process 1, recorded or lost. -/
def openat (kind : EventKind) (name : UInt8) (time : UInt64) (lost : Bool) : SyscallFiring Unit :=
  { plain () 1 kind 56 9 time with
    helpers :=
      { Helpers.plain time with
        userString := fun _ => .ok [name]
        eventsError := if lost then some (-28) else none } }

/-- The exit of `openat("a")` and the enter of `openat("b")` find `EVENTS` full. -/
def staleOpen : List (SyscallFiring Unit) :=
  [openat .Enter 97 10 false, openat .Exit 97 20 true, openat .Enter 98 30 true,
    openat .Exit 98 40 false]

lemma staleOpen_run : LossyRun (.Pid 1) (fun _ => 1) (fun _ => none) staleOpen where
  ofTarget := by decide +kernel
  readsNr := by decide +kernel
  pid := by decide +kernel
  alternates := by decide +kernel

/-- The second call is reported with the pathname of the first. -/
lemma staleOpen_not_own : ¬ EventsOwn (.Pid 1) staleOpen := by
  intro h
  have hpaths : (reported (.Pid 1) (staleOpen.take 3) (openat .Exit 98 40 false)).map
      (fun item => item.record.path.toList.take 2) = [[97, 0]] := by decide +kernel
  have hmem := List.mem_singleton.mpr (rfl : ([97, 0] : List UInt8) = [97, 0])
  rw [← hpaths] at hmem
  obtain ⟨item, hitem, hpath⟩ := List.mem_map.mp hmem
  obtain ⟨e, ev, hown, hev, rfl⟩ := h (staleOpen.take 3) _ [] rfl item hitem
  obtain rfl : openat .Enter 98 30 true = e := Option.some.inj hown
  have hevent : (fileEvent (openat .Enter 98 30 true) (openat .Exit 98 40 false)).map
      (fun ev => ev.path.toList.take 2) = some [98, 0] := by decide +kernel
  rw [hev, Option.map_some, Option.some_inj] at hevent
  exact absurd (hpath.symm.trans hevent) (by decide)

/-- So a stale argument is found in `staleOpen`. -/
theorem events_own_iff_staleOpen : ¬ Stepwise (NoStaleArgument (.Pid 1)) staleOpen := fun h =>
  staleOpen_not_own ((events_own_iff staleOpen_run (fun _ _ _ => rfl)).mpr h)

/-- Losing records falsifies file events. -/
theorem stale_path_is_reported :
    LossyRun (.Pid 1) (fun _ => 1) (fun _ => none) staleOpen ∧ ¬ EventsOwn (.Pid 1) staleOpen :=
  ⟨staleOpen_run, staleOpen_not_own⟩

/-! ## Latencies -/

section Samples
variable [DecidableEq τ] {proc : τ → UInt32} {init : τ → Option OngoingCall}

/-- The firings userspace sees. -/
def recordedFirings (l : List (SyscallFiring τ)) : List (SyscallFiring τ) :=
  l.filter fun f => f.Recorded

omit [DecidableEq τ] in
lemma recordedFirings_concat (l : List (SyscallFiring τ)) (f : SyscallFiring τ) :
    recordedFirings (l ++ [f]) = recordedFirings l ++ if f.Recorded then [f] else [] := by
  by_cases h : f.Recorded <;> simp [recordedFirings, h]

/-- The lost firings might as well not have happened. -/
lemma LossyRun.afterSyscalls_eq (hrun : LossyRun target proc init l) :
    afterSyscalls target l = afterSyscalls target (recordedFirings l) := by
  induction l using List.reverseRecOn with
  | nil => rfl
  | append_singleton l f ih =>
    have ih := ih (hrun.of_isPrefix (List.prefix_append l [f]))
    rw [recordedFirings_concat]
    by_cases hrec : f.Recorded
    · rw [if_pos hrec, afterSyscalls_concat, afterSyscalls_concat, ih]
    · rw [if_neg hrec, List.append_nil,
        afterSyscalls_concat_of_lost (hrun.readsNr f (by simp)) hrec, ih]

lemma LossyRun.delivered_recorded (hrun : LossyRun target proc init l) :
    ∀ f ∈ recordedFirings l, f.Delivered target := by
  intro f hf
  obtain ⟨hmem, hrec⟩ := List.mem_filter.mp hf
  exact hrun.delivered hmem (by simpa using hrec)

/-- The duration that the record of `f`, if any, adds to the stats of its number: the total is
raised by it when the count goes up. -/
def addedNs (target : Target) (l : List (SyscallFiring τ)) (f : SyscallFiring τ) : Option ℕ :=
  let before := (drainedTable target l).statsOf f.syscallNr
  let after := (drainedTable target (l ++ [f])).statsOf f.syscallNr
  if before.count < after.count then some (after.totalNs - before.totalNs).toNat else none

/-- The nanoseconds spent in the calls of `nr` that were entered and exited. -/
def spentNs (l : List (SyscallFiring τ)) (nr : UInt64) : ℕ :=
  ((completedCalls l nr).map elapsed).sum

/-- Every duration added is that of the call of the same number that had just returned, and no
total exceeds the time spent. -/
def SamplesTrue (target : Target) (l : List (SyscallFiring τ)) : Prop :=
  Stepwise (fun pre f => ∀ d, addedNs target pre f = some d →
    ∃ e, ownEnter pre f.thread = some e ∧ e.syscallNr = f.syscallNr ∧
      d = f.time.toNat - e.time.toNat) l ∧
  ∀ nr, ((drainedTable target l).statsOf nr).totalNs.toNat ≤ spentNs l nr

/-- If an exit is recorded whose own enter was not, then the record of its process and number
before it is not an enter, or one of the same time. -/
def NoStaleStart (l : List (SyscallFiring τ)) (f : SyscallFiring τ) : Prop :=
  f.Recorded → f.opens = false → (∀ e, ownEnter l f.thread = some e → ¬ e.Recorded) →
    ∀ e', held SyscallFiring.key SyscallFiring.opens (recordedFirings l) f.key = some e' →
      ∃ e, ownEnter l f.thread = some e ∧ e.time = e'.time

/-- Userspace drains the records there are. -/
lemma LossyRun.drainedTable_eq (hrun : LossyRun target proc init l) :
    drainedTable target l = drainedTable target (recordedFirings l) := by
  rw [drainedTable, hrun.afterSyscalls_eq, drainedTable]

lemma LossyRun.drainedTable_concat (hrun : LossyRun target proc init (l ++ [f])) :
    drainedTable target (l ++ [f]) =
      if f.Recorded then (drainedTable target l).drainOne f.event
      else drainedTable target l := by
  have hl := hrun.of_isPrefix (List.prefix_append l [f])
  have hdelivered := hrun.delivered_recorded
  rw [hrun.drainedTable_eq, hl.drainedTable_eq]
  rw [recordedFirings_concat] at hdelivered ⊢
  by_cases hrec : f.Recorded
  · rw [if_pos hrec] at hdelivered
    rw [if_pos hrec, if_pos hrec, Peekbeam.drainedTable_concat hdelivered]
  · rw [if_neg hrec, if_neg hrec, List.append_nil]

/-- A duration is added by an exit that finds a start time under its process and number. -/
lemma addedNs_eq (hrun : LossyRun target proc init (l ++ [f])) :
    addedNs target l f =
      if f.Recorded ∧ f.opens = false then
        (held SyscallFiring.key SyscallFiring.opens (recordedFirings l) f.key).map
          fun e => f.time.toNat - e.time.toNat
      else none := by
  have hl := hrun.of_isPrefix (List.prefix_append l [f])
  have hpending : (drainedTable target l).pending.lookup f.event.key =
      (held SyscallFiring.key SyscallFiring.opens (recordedFirings l) f.key).map
        SyscallFiring.time := by
    rw [hl.drainedTable_eq, drainedTable_pending hl.delivered_recorded]
    rfl
  unfold addedNs
  rw [hrun.drainedTable_concat]
  by_cases hrec : f.Recorded
  · cases ho : f.opens with
    | true =>
      have hevent : f.event.opens = true := ho
      simp [hrec, SyscallTable.statsOf_drainOne_enter hevent]
    | false =>
      have hevent : f.event.opens = false := ho
      have hnr : f.event.syscallNr = f.syscallNr := rfl
      have hexit : f.Recorded ∧ false = false := ⟨hrec, rfl⟩
      rw [if_pos hrec, if_pos hexit, SyscallTable.statsOf_drainOne_exit hevent, hpending]
      cases held SyscallFiring.key SyscallFiring.opens (recordedFirings l) f.key with
      | none => simp
      | some e =>
        have htime : f.event.timestampNs = f.time := rfl
        simp [hnr, htime]
  · simp [hrec]

/-- An exit whose own enter was recorded is matched with it. -/
lemma held_recorded_of_own (hrun : LossyRun target proc init (l ++ [f]))
    (hsingle : Function.Injective proc) (hclose : f.opens = false) {e : SyscallFiring τ}
    (hown : ownEnter l f.thread = some e) (hrec : e.Recorded) :
    held SyscallFiring.key SyscallFiring.opens (recordedFirings l) f.key = some e := by
  have hkey : e.key = f.key := (stepwise_concat.mp hrun.alternates).2.key_eq hclose hown
  rw [← hkey]
  refine held_filter_of_held _ _ hown (by simpa using hrec) fun g hg hgk => ?_
  have he : e ∈ l := (held_eq_some hown).1
  exact hrun.thread_eq hsingle (List.mem_append_left _ hg) (List.mem_append_left _ he)
    (congrArg Prod.fst hgk)

/-- One firing: what it adds is the duration of its own call exactly if it finds no stale
start. -/
lemma adds_own_iff (hrun : LossyRun target proc init (l ++ [f]))
    (hsingle : Function.Injective proc)
    (hsorted : (l ++ [f]).Pairwise fun g h => g.time ≤ h.time) :
    (∀ d, addedNs target l f = some d → ∃ e, ownEnter l f.thread = some e ∧
        e.syscallNr = f.syscallNr ∧ d = f.time.toNat - e.time.toNat) ↔ NoStaleStart l f := by
  by_cases hf : f.Recorded ∧ f.opens = false
  · obtain ⟨hrec, hclose⟩ := hf
    have hnr : ∀ e, ownEnter l f.thread = some e → e.syscallNr = f.syscallNr := fun e he =>
      congrArg Prod.snd ((stepwise_concat.mp hrun.alternates).2.key_eq hclose he)
    have hbefore : ∀ e ∈ l, e.time.toNat ≤ f.time.toNat := fun e he =>
      UInt64.le_iff_toNat_le.mp ((List.pairwise_append.mp hsorted).2.2 e he f (by simp))
    rw [addedNs_eq hrun, if_pos ⟨hrec, hclose⟩]
    constructor
    · intro h _ _ _ e' he'
      obtain ⟨e, he, -, hd⟩ := h _ (by rw [he', Option.map_some])
      have hle := hbefore e (held_eq_some he).1
      have hle' := hbefore e' (List.mem_of_mem_filter (held_eq_some he').1)
      exact ⟨e, he, UInt64.toNat_inj.mp (by omega)⟩
    · intro h d hd
      obtain ⟨e', he', rfl⟩ := Option.map_eq_some_iff.mp hd
      by_cases hown : ∀ e, ownEnter l f.thread = some e → ¬ e.Recorded
      · obtain ⟨e, he, htime⟩ := h hrec hclose hown e' he'
        exact ⟨e, he, hnr e he, by rw [htime]⟩
      · obtain ⟨e, he, herec⟩ : ∃ e, ownEnter l f.thread = some e ∧ e.Recorded := by
          by_contra hno
          exact hown fun e he herec => hno ⟨e, he, herec⟩
        have := held_recorded_of_own hrun hsingle hclose he herec
        obtain rfl := Option.some.inj (this.symm.trans he')
        exact ⟨e, he, hnr e he, rfl⟩
  · constructor
    · exact fun _ hrec hclose => absurd ⟨hrec, hclose⟩ hf
    · intro _ d hd
      simp [addedNs_eq hrun, hf] at hd

/-- If every duration added is that of the returning call, the durations charged to a number are
among those of its completed calls. -/
lemma charged_le_spent (hrun : LossyRun target proc init l)
    (htrue : Stepwise (fun pre f => ∀ d, addedNs target pre f = some d →
      ∃ e, ownEnter pre f.thread = some e ∧ e.syscallNr = f.syscallNr ∧
        d = f.time.toNat - e.time.toNat) l) (nr : UInt64) :
    ((chargedCalls (recordedFirings l) nr).map elapsed).sum ≤ spentNs l nr := by
  induction l using List.reverseRecOn with
  | nil => simp [recordedFirings, chargedCalls]
  | append_singleton l f ih =>
    obtain ⟨htruel, htruef⟩ := stepwise_concat.mp htrue
    have hl := hrun.of_isPrefix (List.prefix_append l [f])
    have ih := ih hl htruel
    have hspent : spentNs (l ++ [f]) nr = spentNs l nr +
        (((if f.opens then [] else ((ownEnter l f.thread).map fun e => (e, f)).toList).filter
          fun p => p.2.syscallNr = nr).map elapsed).sum := by
      rw [spentNs, completedCalls, pairs_concat, List.filter_append, List.map_append,
        List.sum_append]
      rfl
    rw [hspent, recordedFirings_concat]
    by_cases hrec : f.Recorded
    · rw [if_pos hrec, chargedCalls, pairs_concat, List.filter_append, List.map_append,
        List.sum_append]
      refine Nat.add_le_add ih ?_
      by_cases ho : f.opens = true
      · simp [ho]
      · have hclose : f.opens = false := by simpa using ho
        rw [if_neg ho, if_neg ho]
        cases hheld : held SyscallFiring.key SyscallFiring.opens (recordedFirings l) f.key with
        | none => simp
        | some e' =>
          obtain ⟨e, he, -, hd⟩ := htruef (f.time.toNat - e'.time.toNat) (by
            rw [addedNs_eq hrun, if_pos ⟨hrec, hclose⟩, hheld, Option.map_some])
          by_cases hnr : f.syscallNr = nr <;> simp [he, hnr, elapsed, hd]
    · rw [if_neg hrec, List.append_nil]
      omega

/-- **Losing records falsifies latencies exactly when a stale start is found.**  In a run of
single-threaded processes with non-decreasing timestamps and arbitrary losses, every duration
added is that of the call that had just returned and no total exceeds the time spent, if and only
if at every recorded exit whose own enter was lost, the record of its process and number before
it is not an enter, or one of the same time as the lost one. -/
theorem samples_true_iff (hrun : LossyRun target proc init l)
    (hsingle : Function.Injective proc) (hsorted : l.Pairwise fun g h => g.time ≤ h.time) :
    SamplesTrue target l ↔ Stepwise NoStaleStart l := by
  have hsteps : Stepwise (fun pre f => ∀ d, addedNs target pre f = some d →
      ∃ e, ownEnter pre f.thread = some e ∧ e.syscallNr = f.syscallNr ∧
        d = f.time.toNat - e.time.toNat) l ↔ Stepwise NoStaleStart l :=
    stepwise_congr fun _ _ hp =>
      adds_own_iff (hrun.of_isPrefix hp) hsingle (hsorted.sublist hp.sublist)
  constructor
  · rintro ⟨htrue, -⟩
    exact hsteps.mp htrue
  · intro h
    have htrue := hsteps.mpr h
    refine ⟨htrue, fun nr => ?_⟩
    rw [hrun.drainedTable_eq, drainedTable_totalNs hrun.delivered_recorded]
    exact (Nat.mod_le _ _).trans (charged_le_spent hrun htrue nr)

end Samples

/-- A firing of `read` (63) in process 1, recorded or lost. -/
def lossyRead (kind : EventKind) (time : UInt64) (lost : Bool) : SyscallFiring Unit :=
  { plain () 1 kind 63 3 time with
    helpers := { Helpers.plain time with eventsError := if lost then some (-28) else none } }

/-- Two reads of 10 ns each; the exit of the first and the enter of the second are lost. -/
def staleRead : List (SyscallFiring Unit) :=
  [lossyRead .Enter 10 false, lossyRead .Exit 20 true, lossyRead .Enter 30 true,
    lossyRead .Exit 40 false]

lemma staleRead_run : LossyRun (.Pid 1) (fun _ => 1) (fun _ => none) staleRead where
  ofTarget := by decide +kernel
  readsNr := by decide +kernel
  pid := by decide +kernel
  alternates := by decide +kernel

lemma staleRead_sorted : staleRead.Pairwise fun g h => g.time ≤ h.time := by decide +kernel

/-- They are counted as one read of 30 ns, more than the 20 ns spent in both. -/
lemma staleRead_not_true : ¬ SamplesTrue (.Pid 1) staleRead := by
  intro h
  have hle := h.2 63
  have htotal : ((drainedTable (.Pid 1) staleRead).statsOf 63).totalNs.toNat = 30 := by
    decide +kernel
  have hspent : spentNs staleRead 63 = 20 := by decide +kernel
  omega

theorem samples_true_iff_staleRead : ¬ Stepwise NoStaleStart staleRead := fun h =>
  staleRead_not_true ((samples_true_iff staleRead_run (fun _ _ _ => rfl) staleRead_sorted).mpr h)

/-- Losing records makes up latencies. -/
theorem sample_spans_two_calls :
    LossyRun (.Pid 1) (fun _ => 1) (fun _ => none) staleRead ∧
      (staleRead.Pairwise fun g h => g.time ≤ h.time) ∧ ¬ SamplesTrue (.Pid 1) staleRead :=
  ⟨staleRead_run, staleRead_sorted, staleRead_not_true⟩

end Runs

end Peekbeam
