import Peekbeam.Kernel.Run
import Peekbeam.MemStats

/-!
# Container membership

In `--container` and `--pod` mode a process belongs to the target if it is in the target's
cgroup.  The in-kernel programs compare the id of the cgroup a task is in with the one in
`CGROUP_FILTER`, and the memory panel without a memory controller sums over the target's
`cgroup.procs`; both look at the target cgroup itself.

Cgroups form a tree, and a container may create cgroups of its own below the one it was given
(systemd, nested containers).  `container_coverage_iff` compares both memberships with the
subtree: they cover it, and they agree with each other on it, exactly when no process lives in a
cgroup strictly below the target.
-/

namespace Peekbeam

open Str

/-- A cgroup, by the names on the way from the root. -/
abbrev Cgroup := List Text

/-- The path of a cgroup, as `/proc/<pid>/cgroup` shows it. -/
def cgroupPath (c : Cgroup) : Text := if c = [] then ['/'] else c.flatMap fun name => '/' :: name

/-- The cgroups of a host, with the inode number of each, and the cgroup each live process is
in. -/
structure Host where
  cgroups : Set Cgroup
  closed : ∀ c ∈ cgroups, ∀ parent, parent <+: c → parent ∈ cgroups
  id : Cgroup → UInt64
  id_inj : ∀ c ∈ cgroups, ∀ d ∈ cgroups, id c = id d → c = d
  placement : UInt32 → Option Cgroup
  placed : ∀ pid c, placement pid = some c → c ∈ cgroups

/-- What the file system shows of a host, to a reader interested in `target`: no memory
controller, the processes directly in `target` one to a line, in any order and with any
repetitions, and a status for every live process. -/
structure Host.Serves (host : Host) (fs : Files) (target : Cgroup) : Prop where
  no_controller : ∃ e, readCgroup fs (cgroupPath target) = .error e
  procs : ∃ pids : List UInt32,
    fs (cgroupProcsPath (cgroupPath target)) = some (decimals (pids.map UInt32.toNat)) ∧
      ∀ pid, pid ∈ pids ↔ host.placement pid = some target
  status : ∀ pid, (fs (statusPath pid)).isSome ↔ (host.placement pid).isSome

/-! ## The two memberships -/

/-- The programs accept a process, whatever they have done before, exactly if it lives in the
subtree of the target.  The helper is assumed to report the id of the task's own cgroup. -/
def Host.AcceptsSubtree (host : Host) (target : Cgroup) : Prop :=
  ∀ (l : List Firing) (h : Helpers) pid c, host.placement pid = some c →
    h.currentCgroupId = host.id c →
      (((Kernel.load (.Container (host.id target))).run l).matchesTarget h pid = true ↔
        target <+: c)

/-- The figures of the memory report are sums over status files, and the files are those of the
processes that live in the subtree of the target. -/
def Host.SumsSubtree (host : Host) (fs : Files) (target : Cgroup) : Prop :=
  readMemory fs (.Cgroup (cgroupPath target)) =
      reportOf (statusTexts fs (summedPids fs (cgroupPath target))) ∧
    ∀ pid, pid ∈ summedPids fs (cgroupPath target) ↔
      ∃ c, host.placement pid = some c ∧ target <+: c

/-- No process lives strictly below the target. -/
def Host.Flat (host : Host) (target : Cgroup) : Prop :=
  ∀ pid c, host.placement pid = some c → target <+: c → c = target

section Membership
variable {host : Host} {fs : Files} {target : Cgroup}

/-- The programs accept the processes of the target cgroup itself. -/
lemma accepts_iff (htarget : target ∈ host.cgroups) (l : List Firing) {h : Helpers} {pid : UInt32}
    {c : Cgroup} (hc : host.placement pid = some c) (hid : h.currentCgroupId = host.id c) :
    ((Kernel.load (.Container (host.id target))).run l).matchesTarget h pid = true ↔
      c = target := by
  have hroom : (BoundedMap.empty : BpfHashMap UInt64 UInt8 1).HasRoom (host.id target) :=
    Or.inr Nat.zero_lt_one
  have hmatch : (Kernel.load (.Container (host.id target))).matchesTarget h pid = true ↔
      host.id c = host.id target := by
    by_cases heq : host.id c = host.id target <;>
      simp [Kernel.matchesTarget, Kernel.load, BpfHashMap.get_tryInsert, hroom, hid, heq]
  rw [run_matchesTarget, hmatch]
  exact ⟨host.id_inj c (host.placed pid c hc) target htarget, fun heq => by rw [heq]⟩

/-- The memory report sums over the processes of the target cgroup itself. -/
lemma mem_summedPids_iff (hfs : host.Serves fs target) (pid : UInt32) :
    pid ∈ summedPids fs (cgroupPath target) ↔ host.placement pid = some target := by
  obtain ⟨pids, hprocs, hmem⟩ := hfs.procs
  rw [summedPids, readCgroupProcs_decimals hprocs]
  simp only [List.mem_filter, hmem, hfs.status, and_iff_left_iff_imp]
  intro hpid
  simp [hpid]

lemma acceptsSubtree_iff (htarget : target ∈ host.cgroups) :
    host.AcceptsSubtree target ↔ host.Flat target := by
  constructor
  · intro h pid c hc hprefix
    exact (accepts_iff htarget [] hc rfl).mp
      ((h [] { Helpers.plain 0 with currentCgroupId := host.id c } pid c hc rfl).mpr hprefix)
  · intro h l helpers pid c hc hid
    rw [accepts_iff htarget l hc hid]
    exact ⟨fun heq => heq ▸ List.prefix_rfl, h pid c hc⟩

lemma sumsSubtree_iff (hfs : host.Serves fs target) :
    host.SumsSubtree fs target ↔ host.Flat target := by
  obtain ⟨e, he⟩ := hfs.no_controller
  obtain ⟨pids, hprocs, -⟩ := hfs.procs
  have hread : readMemory fs (.Cgroup (cgroupPath target)) =
      reportOf (statusTexts fs (summedPids fs (cgroupPath target))) := by
    rw [readMemory_of_no_controller he (readCgroupProcs_decimals hprocs), readProcesses_eq]
  constructor
  · rintro ⟨-, h⟩ pid c hc hprefix
    have hpid := (mem_summedPids_iff hfs pid).mp ((h pid).mpr ⟨c, hc, hprefix⟩)
    exact Option.some.inj (hc.symm.trans hpid)
  · intro h
    refine ⟨hread, fun pid => ?_⟩
    rw [mem_summedPids_iff hfs]
    constructor
    · intro hpid
      exact ⟨target, hpid, List.prefix_rfl⟩
    · rintro ⟨c, hc, hprefix⟩
      rw [hc, h pid c hc hprefix]

end Membership

/-- **Container mode covers flat containers only.**  The programs accept, and the memory report
sums over, exactly the processes of the container if and only if none of them lives strictly
below the target cgroup. -/
theorem container_coverage_iff {host : Host} {fs : Files} {target : Cgroup}
    (htarget : target ∈ host.cgroups) (hfs : host.Serves fs target) :
    host.AcceptsSubtree target ∧ host.SumsSubtree fs target ↔ host.Flat target := by
  rw [acceptsSubtree_iff htarget, sumsSubtree_iff hfs, and_self]

/-! ## A nested container -/

/-- The cgroup of a container, and one the container created below it. -/
def docker : Cgroup := ["docker".toList]
def inner : Cgroup := docker ++ ["init.scope".toList]

/-- Process 1 lives in the container's own cgroup and process 2 in the one below. -/
def nested : Host where
  cgroups := { c | c <+: inner }
  closed _ hc _ hparent := hparent.trans hc
  id c := UInt64.ofNat c.length
  id_inj c hc d hd hid := by
    have hlen : ∀ c : Cgroup, c <+: inner → c.length < 2 ^ 64 := fun c hc =>
      lt_of_le_of_lt hc.length_le (by decide)
    have hid := congrArg UInt64.toNat hid
    rw [UInt64.toNat_ofNat_of_lt' (hlen c hc), UInt64.toNat_ofNat_of_lt' (hlen d hd)] at hid
    rw [List.prefix_iff_eq_take.mp hc, List.prefix_iff_eq_take.mp hd, hid]
  placement pid := if pid = 1 then some docker else if pid = 2 then some inner else none
  placed pid c h := by
    split at h
    · obtain rfl := Option.some.inj h
      exact List.prefix_append docker _
    · split at h
      · obtain rfl := Option.some.inj h
        exact List.prefix_rfl
      · simp at h

def nestedFiles : Files := fun path =>
  if path = cgroupProcsPath (cgroupPath docker) then some (decimals [1])
  else if path = statusPath 1 ∨ path = statusPath 2 then some []
  else none

lemma nested_serves : nested.Serves nestedFiles docker where
  no_controller := readCgroup_of_none (by decide +kernel)
  procs := by
    refine ⟨[1], if_pos rfl, fun pid => ?_⟩
    have hne : inner ≠ docker := by simp [inner]
    simp only [nested, List.mem_singleton]
    split
    · simp [*]
    · split <;> simp [*]
  status pid := by
    have hprocs := statusPath_ne_cgroupProcsPath pid (cgroupPath docker)
    simp only [nestedFiles, hprocs, if_false, statusPath_inj, nested]
    by_cases h1 : pid = 1
    · simp [h1]
    · by_cases h2 : pid = 2 <;> simp [h1, h2]

lemma nested_not_flat : ¬ nested.Flat docker := fun h => by
  have hinner : inner = docker := h 2 inner rfl (List.prefix_append docker _)
  simp [inner] at hinner

theorem container_coverage_iff_nested :
    ¬ (nested.AcceptsSubtree docker ∧ nested.SumsSubtree nestedFiles docker) := fun h =>
  nested_not_flat ((container_coverage_iff (List.prefix_append docker _) nested_serves).mp h)

/-- Process 2 of the container is neither traced nor summed over. -/
theorem nested_process_goes_untraced :
    (∃ c, nested.placement 2 = some c ∧ docker <+: c ∧
      (Kernel.load (.Container (nested.id docker))).matchesTarget
        { Helpers.plain 0 with currentCgroupId := nested.id c } 2 = false) ∧
    2 ∉ summedPids nestedFiles (cgroupPath docker) ∧
    ¬ nested.AcceptsSubtree docker ∧ ¬ nested.SumsSubtree nestedFiles docker := by
  have hdocker : docker ∈ nested.cgroups := List.prefix_append docker _
  refine ⟨⟨inner, rfl, List.prefix_append docker _, by decide +kernel⟩, ?_, ?_, ?_⟩
  · decide +kernel
  · exact fun h => nested_not_flat ((acceptsSubtree_iff hdocker).mp h)
  · exact fun h => nested_not_flat ((sumsSubtree_iff nested_serves).mp h)

end Peekbeam
