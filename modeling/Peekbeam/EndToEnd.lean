import Peekbeam.HeadlessRuns
import Peekbeam.KernelMemory
import Peekbeam.Startup
import Peekbeam.TuiRuns

/-!
# From the command line to the output

What the parts add up to, for a container or a pod.  The commands are asked for a process of the
container (`Targets.lean`), its cgroup becomes the filter (`Startup.lean`), the programs report on
the processes that pass it (`TargetScope.lean`), a loop drains what they report (`Snapshots.lean`,
`PollLoops.lean`) and shows the tables (`HeadlessRuns.lean`, `TuiRuns.lean`).

`container_end_to_end` says what the user can rely on: whatever is printed or drawn, from the first
iteration on, is about the processes of that cgroup, and the counters of the kernel's allocations
are those of a moment of the run.
-/

namespace Peekbeam

open Str

/-! ## What is printed, and what it is made of -/

/-- Every summary is that of an iteration. -/
lemma mem_headlessLoop {duration : Option ℕ} {refresh start lastEmit : ℕ} {its : List Iteration}
    {s : Summary} (h : s ∈ headlessLoop duration refresh start lastEmit its) :
    ∃ it ∈ its, it.summary = s := by
  induction its generalizing lastEmit with
  | nil => exact absurd h List.not_mem_nil
  | cons it its ih =>
    have hnow : s ∈ [it.summary] → ∃ it' ∈ it :: its, it'.summary = s := fun hs =>
      ⟨it, List.mem_cons_self, (List.mem_singleton.mp hs).symm⟩
    have hlater : ∀ {lastEmit}, s ∈ headlessLoop duration refresh start lastEmit its →
        ∃ it' ∈ it :: its, it'.summary = s := fun hs => by
      obtain ⟨it', hit', heq⟩ := ih hs
      exact ⟨it', List.mem_cons_of_mem it hit', heq⟩
    unfold headlessLoop at h
    split at h
    · exact hnow h
    · cases duration with
      | some d =>
        dsimp only at h
        split at h
        · exact hnow h
        · exact hlater h
      | none =>
        dsimp only at h
        split at h
        · rcases List.mem_cons.mp h with rfl | h
          · exact ⟨it, List.mem_cons_self, rfl⟩
          · exact hlater h
        · exact hlater h

lemma mem_headless_run {subject : Subject} {target : Target} {past : List Firing}
    {duration : Option ℕ} {refresh start lastEmit : ℕ} {ticks : List HeadlessTick} {s : Summary}
    (h : s ∈ HeadlessTick.run subject target past duration refresh start lastEmit ticks) :
    ∃ p ∈ HeadlessTick.seen target past ticks, HeadlessTick.summary subject start p = s := by
  obtain ⟨it, hit, hs⟩ := mem_headlessLoop h
  obtain ⟨p, hp, rfl⟩ := List.mem_map.mp hit
  exact ⟨p, hp, hs⟩

/-- The rows of a summary are those of the table. -/
lemma isSome_lookup_of_mem_files {subject : Subject} {around : Surroundings} {t : Tables}
    {row : FileSummary} (h : row ∈ (Summary.build subject around t).files) :
    (t.files.lookup (row.pid, row.fd)).isSome := by
  obtain ⟨entry, hentry, rfl⟩ := List.mem_map.mp ((perm_sortDescending _ _).mem_iff.mp h)
  obtain ⟨⟨key, stats⟩, hmem, rfl⟩ :=
    List.mem_map.mp ((around.order.files_rows t.files).mem_iff.mp hentry)
  exact AList.lookup_isSome.mpr (AList.mem_keys.mpr (List.mem_map_of_mem hmem))

/-! ## Processes of a cgroup -/

/-- The firing is truthful about the cgroup it comes from. -/
def Firing.InHost (host : Host) (f : Firing) : Prop :=
  ∃ c, host.placement f.ctx.tgid = some c ∧ f.helpers.currentCgroupId = host.id c

/-- The firing comes from a process in the cgroup. -/
def Firing.From (host : Host) (c : Cgroup) (f : Firing) : Prop :=
  host.placement f.ctx.tgid = some c

instance (host : Host) (c : Cgroup) (f : Firing) : Decidable (f.From host c) :=
  inferInstanceAs (Decidable (_ = _))

section Cgroup
variable {host : Host} {c : Cgroup} {target : Target}

/-- The filter accepts what comes from its cgroup. -/
lemma accepted_iff_from (hc : c ∈ host.cgroups)
    (hload : Kernel.load target = Kernel.load (.Container (host.id c))) {f : Firing}
    (hf : f.InHost host) : f.Accepted target ↔ f.From host c := by
  obtain ⟨c', hplaced, hid⟩ := hf
  have haccepts := accepts_iff hc [] hplaced hid
  rw [run_nil] at haccepts
  rw [Firing.Accepted, hload, haccepts, Firing.From, hplaced, Option.some.injEq]

/-- A `kmalloc` of the cgroup that is reported. -/
def Firing.AllocatesIn (host : Host) (c : Cgroup) (f : Firing) : Prop :=
  f.tracepoint = .kmalloc ∧ f.From host c ∧ f.ctx.readError 32 = none ∧
    f.helpers.memEventsError = none

/-- A `kfree` of the cgroup that is reported. -/
def Firing.FreesIn (host : Host) (c : Cgroup) (f : Firing) : Prop :=
  f.tracepoint = .kfree ∧ f.From host c ∧ f.helpers.memEventsError = none

instance (host : Host) (c : Cgroup) (f : Firing) : Decidable (f.AllocatesIn host c) :=
  inferInstanceAs (Decidable (_ ∧ _))

instance (host : Host) (c : Cgroup) (f : Firing) : Decidable (f.FreesIn host c) :=
  inferInstanceAs (Decidable (_ ∧ _))

/-- What tables say of a cgroup, if the programs have fired as in `l`: their rows are about its
processes, and the counters are those of a moment of `l`. -/
structure Tables.About (host : Host) (c : Cgroup) (l : List Firing) (t : Tables) : Prop where
  pending : ∀ key, (t.syscalls.pending.lookup key).isSome → host.placement key.1 = some c
  files : ∀ key, (t.files.lookup key).isSome → host.placement key.1 = some c
  memEvents : ∃ m, m <+: l ∧ t.memEvents.allocCount = m.countP (·.AllocatesIn host c) ∧
    t.memEvents.allocBytes.toNat =
      ((m.filter (·.AllocatesIn host c)).map fun f => f.allocSize.toNat).sum % 2 ^ 64 ∧
    t.memEvents.freeCount = m.countP (·.FreesIn host c)

/-- So does a summary. -/
structure Summary.About (host : Host) (c : Cgroup) (l : List Firing) (s : Summary) : Prop where
  files : ∀ row ∈ s.files, host.placement row.pid = some c
  memEvents : ∃ m, m <+: l ∧ s.kernelAllocs = UInt64.ofNat (m.countP (·.AllocatesIn host c)) ∧
    s.kernelAllocBytes.toNat =
      ((m.filter (·.AllocatesIn host c)).map fun f => f.allocSize.toNat).sum % 2 ^ 64 ∧
    s.kernelFrees = UInt64.ofNat (m.countP (·.FreesIn host c))

lemma Tables.About.mono {l l' : List Firing} {t : Tables} (h : t.About host c l)
    (hpre : l <+: l') : t.About host c l' := by
  obtain ⟨hpending, hfiles, m, hm, hcounts⟩ := h
  exact ⟨hpending, hfiles, m, hm.trans hpre, hcounts⟩

lemma Tables.About.build {l : List Firing} {t : Tables} (h : t.About host c l) (subject : Subject)
    (around : Surroundings) : (Summary.build subject around t).About host c l := by
  obtain ⟨-, hfiles, m, hm, hallocs, hbytes, hfrees⟩ := h
  refine ⟨fun row hrow => hfiles _ (isSome_lookup_of_mem_files hrow), m, hm, ?_, hbytes, ?_⟩
  · exact congrArg UInt64.ofNat hallocs
  · exact congrArg UInt64.ofNat hfrees

/-- What accounts for a run in which all firings are truthful. -/
lemma about_of_accounts (hc : c ∈ host.cgroups)
    (hload : Kernel.load target = Kernel.load (.Container (host.id c)))
    {before during : List Firing} {t : Tables} (hall : ∀ f ∈ before ++ during, f.InHost host)
    (h : Accounts target before during t) : t.About host c (before ++ during) := by
  obtain ⟨m₁, m₂, m₃, m₄, h₁₂, h₂₃, h₃₄, h₄, rfl⟩ := h
  have hpast : ∀ {m}, m <+: during → before ++ m <+: before ++ during := fun hm =>
    (List.prefix_append_right_inj before).mpr hm
  have hnames : ∀ {m}, m <+: during → (Tables.after target (before ++ m)).Names
      fun pid => host.placement pid = some c := fun hm =>
    (after_names target _).imp fun pid ⟨f, hf, haccepted, hpid⟩ => by
      rw [← hpid]
      exact (accepted_iff_from hc hload (hall f ((hpast hm).subset hf))).mp haccepted
  have hm₃ := h₃₄.trans h₄
  have hm₁ := h₁₂.trans (h₂₃.trans hm₃)
  have hfrom : ∀ f ∈ before ++ m₄, f.Accepted target ↔ f.From host c := fun f hf =>
    accepted_iff_from hc hload (hall f ((hpast h₄).subset hf))
  have hallocates : ∀ f ∈ before ++ m₄, f.Allocates target ↔ f.AllocatesIn host c := fun f hf =>
    ⟨fun ⟨h₁, h₂, h₃, h₄⟩ => ⟨h₁, (hfrom f hf).mp h₂, h₃, h₄⟩,
      fun ⟨h₁, h₂, h₃, h₄⟩ => ⟨h₁, (hfrom f hf).mpr h₂, h₃, h₄⟩⟩
  have hfrees : ∀ f ∈ before ++ m₄, f.Frees target ↔ f.FreesIn host c := fun f hf =>
    ⟨fun ⟨h₁, h₂, h₃⟩ => ⟨h₁, (hfrom f hf).mp h₂, h₃⟩,
      fun ⟨h₁, h₂, h₃⟩ => ⟨h₁, (hfrom f hf).mpr h₂, h₃⟩⟩
  obtain ⟨hallocs, hbytes, hfreed⟩ := memEvents_after target (before ++ m₄)
  refine ⟨(hnames hm₁).pending, (hnames hm₃).files, before ++ m₄, hpast h₄, ?_, ?_, ?_⟩
  · rw [hallocs]
    exact List.countP_congr fun f hf => by simpa using hallocates f hf
  · have hfilter : (before ++ m₄).filter (·.Allocates target) =
        (before ++ m₄).filter (·.AllocatesIn host c) :=
      List.filter_congr fun f hf => by simpa using hallocates f hf
    rw [hbytes, hfilter]
  · rw [hfreed]
    exact List.countP_congr fun f hf => by simpa using hfrees f hf

end Cgroup

/-! ## The tool as a whole -/

/-- What the tool shows: a summary, printed in one of the two formats, or a frame. -/
inductive Shown
  | printed (json : Bool) (s : Summary)
  | drawn (f : Frame)

def Shown.About (host : Host) (c : Cgroup) (l : List Firing) : Shown → Prop
  | .printed _ s => s.About host c l
  | .drawn f => f.2.About host c l

namespace Session

/-- An iteration of the loop. -/
def Tick : Session → Type
  | .headless _ _ => HeadlessTick
  | .tui => TuiTick

def activity : (session : Session) → session.Tick → Activity
  | .headless _ _ => HeadlessTick.activity
  | .tui => TuiTick.activity

/-- The loop, entered at `start`, if the programs fired as in `past` before. -/
def run (subject : Subject) (target : Target) (past : List Firing) (refresh start lastEmit : ℕ) :
    (session : Session) → List session.Tick → List Shown
  | .headless duration json, ticks =>
    (HeadlessTick.run subject target past duration refresh start lastEmit ticks).map
      (Shown.printed json)
  | .tui, ticks => (tuiLoop refresh (.start target past start refresh) ticks).1.map Shown.drawn

end Session

/-- **Container mode, end to end.**  Let the commands print a live process of the container, the
privileges suffice and the set-up not fail.  Then the tool starts, and while tasks stay in their
cgroups, whatever it prints or draws is about that process's cgroup: every row is of a process in
it, and the counters of the kernel's allocations are those of the allocations and frees in it whose
records were read and delivered, up to a moment of the run. -/
theorem container_end_to_end (debug : Text → Text) {m : Machine} {host : Host} (hm : m.Shows host)
    {args : Args} {pid : UInt32} {fullId : Text} {c : Cgroup} (hpid : pid ≠ 0)
    (hplaced : host.placement pid = some c) (hfull : IsWord fullId)
    (hprinted : args.target.Printed m pid fullId) (hprivileged : m.Privileged)
    {fails : Setup → Option Text} (hworks : ∀ op ∈ setups, fails op = none) {acts : List Act}
    (hacts : setups.length ≤ nexts acts) :
    ∃ target s, (startUp debug m fails args acts = .ok (target, s) ∧ s.remaining = []) ∧
      s.tracer = .started target.filter (handled acts) ∧
      target.memoryTarget = .Cgroup (cgroupPath c) ∧
      ∀ subject start lastEmit (ticks : List args.session.Tick),
        let l := handled acts ++ firedOver args.session.activity ticks
        (∀ f ∈ l, f.InHost host) →
          ∀ shown ∈ args.session.run subject target.filter (handled acts) args.refresh start
            lastEmit ticks, shown.About host c l := by
  obtain ⟨target, hnames, hmemory, hload⟩ := exists_names_of_printed hfull hprinted rfl
    (grounded_of_shows hm hpid hplaced fullId)
  have hc := host.placed pid c hplaced
  have hpart : ∀ {α : Type} {activity : α → Activity} {before after : List α} {a : α},
      handled acts ++ firedOver activity before ++ (activity a).idle ++ firedIn (activity a).acts
        <+: handled acts ++ firedOver activity (before ++ a :: after) := by
    intro α activity before after a
    refine ⟨firedOver activity after, ?_⟩
    simp [firedOver, Activity.fired]
  refine ⟨target, _, ⟨startUp_of_names hnames hprivileged hworks hacts, rfl⟩, rfl, hmemory, ?_⟩
  cases args.session with
  | headless duration json =>
    intro subject start lastEmit ticks l hall shown hshown
    obtain ⟨s, hs, rfl⟩ := List.mem_map.mp hshown
    obtain ⟨p, hp, rfl⟩ := mem_headless_run hs
    obtain ⟨before, after, rfl, haccounts⟩ := seenBy_of_mem_polled hp
    have habout := about_of_accounts hc hload (fun f hf => hall f (hpart.subset hf)) haccounts
    exact (habout.mono hpart).build subject (p.1.around start)
  | tui =>
    intro subject start lastEmit ticks l hall shown hshown
    obtain ⟨f, hf, rfl⟩ := List.mem_map.mp hshown
    obtain ⟨before, after, rfl, -, -, haccounts⟩ := of_mem_frames hf
    exact (about_of_accounts hc hload (fun f hf => hall f (hpart.subset hf)) haccounts).mono hpart

/-- Process 1 of the nested host frees memory. -/
def kfreeInDocker : Firing :=
  { kfreeBy 1 with helpers := { Helpers.plain 0 with currentCgroupId := nested.id docker } }

/-- An iteration in which it does. -/
def freeingTick : HeadlessTick :=
  { quietTick 0 with activity := { idle := [kfreeInDocker], acts := List.replicate 5 .next } }

/-- The arguments `--container web --json --duration 0`. -/
def webArgs : Args where
  container := some "web".toList
  json := true
  duration := some 0
  one := by decide

/-- Everything goes well. -/
def nothingFails : Setup → Option Text := fun _ => none

theorem container_end_to_end_web :
    ∃ target s, startUp id dockerMachine nothingFails webArgs (List.replicate 29 .next) =
        .ok (target, s) ∧
      ∀ subject, ∀ shown ∈ webArgs.session.run subject target.filter [] webArgs.refresh 0 0
        [freeingTick], shown.About nested docker [kfreeInDocker] := by
  have hprinted : webArgs.target.Printed dockerMachine 1 "4f66ad9a0b2e".toList :=
    .container ⟨⟨true, "1|4f66ad9a0b2e\n".toList, []⟩, by decide +kernel, rfl,
      by decide +kernel⟩
  have hword : IsWord "4f66ad9a0b2e".toList :=
    ⟨by decide, List.all_iff_forall_prop.mp (by decide)⟩
  have hworks : ∀ op ∈ setups, nothingFails op = none := fun _ _ => rfl
  have hacts : setups.length ≤ nexts (List.replicate 29 .next) := by decide
  obtain ⟨target, s, ⟨hstarts, -⟩, -, -, hshown⟩ := container_end_to_end id dockerMachine_shows
    (by decide) rfl hword hprinted (Or.inl rfl) hworks hacts
  refine ⟨target, s, hstarts, fun subject => ?_⟩
  refine hshown subject 0 0 [freeingTick] fun f hf => ?_
  obtain rfl : f = kfreeInDocker := List.mem_singleton.mp hf
  exact ⟨docker, rfl, rfl⟩

end Peekbeam
