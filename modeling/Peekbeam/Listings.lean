import Mathlib.Data.List.Dedup
import Peekbeam.MemStats

/-!
# Listings with repetitions

`cgroup.procs` names the processes of a cgroup in no particular order, and may name one more than
once.  The loops over a listing add up what they read for each name, so their results do not
depend on the order (`readProcesses_perm`, `sumFaults_perm`), but a process that is named twice is
counted twice.

A listing is its names without repetitions and a `surplus`.  `totals_by_process_iff` says when two
listings of the same processes give the same totals with every process in them once: when nothing
is read for the surplus of either.
-/

namespace Peekbeam

open Accumulators Str

/-! ## Order -/

section Order
variable {fs : Files} {pids pids' : List UInt32}

lemma readProcesses_perm (h : pids.Perm pids') :
    readProcesses fs pids = readProcesses fs pids' := by
  have htexts : (statusTexts fs pids).Perm (statusTexts fs pids') := h.filterMap _
  have hkey : ∀ key, kilobytes key (statusTexts fs pids) = kilobytes key (statusTexts fs pids') :=
    fun key => ((htexts.flatMap_right _).map _).sum_eq
  rw [readProcesses_eq, readProcesses_eq, reportOf, reportOf, hkey, hkey, hkey, hkey,
    htexts.length_eq]
  simp only [eq_nil_iff_of_length_eq htexts.length_eq]

lemma sumFaults_perm (h : pids.Perm pids') : sumFaults fs pids = sumFaults fs pids' := by
  have hread : (faultsRead fs pids).Perm (faultsRead fs pids') := h.filterMap _
  rw [sumFaults_eq, sumFaults_eq, (hread.map _).sum_eq, (hread.map _).sum_eq]
  simp only [eq_nil_iff_of_length_eq hread.length_eq]

end Order

/-! ## Surplus -/

/-- The repetitions in a listing. -/
def surplus (pids : List UInt32) : List UInt32 := pids.diff pids.dedup

lemma perm_dedup_append_surplus (pids : List UInt32) :
    (pids.dedup ++ surplus pids).Perm pids :=
  List.subperm_append_diff_self_of_count_le fun pid _ =>
    (List.dedup_sublist pids).count_le pid

lemma mem_of_mem_surplus {pids : List UInt32} {pid : UInt32} (h : pid ∈ surplus pids) :
    pid ∈ pids :=
  (perm_dedup_append_surplus pids).subset (List.mem_append_right _ h)

/-- What is repeated is what is listed twice. -/
lemma mem_surplus_iff {pids : List UInt32} {pid : UInt32} :
    pid ∈ surplus pids ↔ 1 < pids.count pid := by
  have hcount : pids.dedup.count pid = if pid ∈ pids then 1 else 0 := List.count_dedup pids pid
  rw [← List.count_pos_iff, surplus, List.count_diff, hcount]
  by_cases hmem : pid ∈ pids
  · rw [if_pos hmem]
    omega
  · rw [if_neg hmem, List.count_eq_zero_of_not_mem hmem]
    omega

section Surplus
variable {fs : Files} {pids : List UInt32}

/-- The report counts each process once exactly if no repeated one has a status file. -/
lemma readProcesses_dedup_iff :
    readProcesses fs pids = readProcesses fs pids.dedup ↔
      ∀ pid ∈ surplus pids, fs (statusPath pid) = none := by
  have hnone : statusTexts fs (surplus pids) = [] ↔
      ∀ pid ∈ surplus pids, fs (statusPath pid) = none :=
    List.filterMap_eq_nil_iff
  have happend : statusTexts fs (pids.dedup ++ surplus pids) =
      statusTexts fs pids.dedup ++ statusTexts fs (surplus pids) :=
    List.filterMap_append
  rw [← readProcesses_perm (perm_dedup_append_surplus pids), ← hnone]
  constructor
  · intro h
    rw [readProcesses_eq, readProcesses_eq, happend, reportOf, reportOf] at h
    by_contra hsome
    have hlen : (statusTexts fs (surplus pids)).length ≠ 0 :=
      fun hzero => hsome (List.length_eq_zero_iff.mp hzero)
    rw [if_neg fun hnil => hsome (List.append_eq_nil_iff.mp hnil).2] at h
    split at h
    · simp at h
    · have hcount := (MemReport.Process.inj (Except.ok.inj h)).2.2.2.2
      rw [List.length_append] at hcount
      omega
  · intro h
    rw [readProcesses_eq, readProcesses_eq, happend, h, List.append_nil]

/-- The counts are those of each process once exactly if the repetitions have none. -/
lemma sumFaults_dedup_iff :
    sumFaults fs pids = sumFaults fs pids.dedup ↔
      ((faultsRead fs (surplus pids)).map FaultStats.minFlt).sum = 0 ∧
        ((faultsRead fs (surplus pids)).map FaultStats.majFlt).sum = 0 := by
  have happend : faultsRead fs (pids.dedup ++ surplus pids) =
      faultsRead fs pids.dedup ++ faultsRead fs (surplus pids) :=
    List.filterMap_append
  have hnil : faultsRead fs pids.dedup = [] → faultsRead fs (surplus pids) = [] := by
    intro h
    rw [faultsRead, List.filterMap_eq_nil_iff] at h ⊢
    exact fun pid hpid => h pid (List.mem_dedup.mpr (mem_of_mem_surplus hpid))
  rw [← sumFaults_perm (perm_dedup_append_surplus pids), sumFaults_eq, sumFaults_eq, happend]
  by_cases hempty : faultsRead fs pids.dedup = []
  · simp [hempty, hnil hempty]
  · rw [if_neg fun h => hempty (List.append_eq_nil_iff.mp h).1, if_neg hempty]
    simp

end Surplus

/-! ## Two listings -/

/-- The PIDs in the text of a listing. -/
def listedPids (contents : Text) : List UInt32 :=
  (lines contents).filterMap fun l => parseU32 (trim l)

/-- A file system in which the listing of a cgroup has a given text. -/
def withListing (fs : Files) (cgroupPath contents : Text) : Files :=
  Function.update fs (cgroupProcsPath cgroupPath) (some contents)

section Listings
variable {fs : Files} {cgroupPath contents contents' : Text}

lemma readCgroupProcs_withListing :
    readCgroupProcs (withListing fs cgroupPath contents) cgroupPath = .ok (listedPids contents) := by
  simp [readCgroupProcs, withListing, listedPids]

/-- The listing is none of the other files read. -/
lemma withListing_of_ne {path : Text} (h : path ≠ cgroupProcsPath cgroupPath) :
    withListing fs cgroupPath contents path = fs path :=
  Function.update_of_ne h _ _

lemma readCgroup_withListing :
    readCgroup (withListing fs cgroupPath contents) cgroupPath = readCgroup fs cgroupPath := by
  have hne : ∀ name, name ≠ "/cgroup.procs".toList →
      CGROUP_ROOT ++ cgroupPath ++ name ≠ cgroupProcsPath cgroupPath := fun name hname heq =>
    hname (List.append_cancel_left heq)
  simp only [readCgroup, withListing_of_ne (hne "/memory.current".toList (by decide)),
    withListing_of_ne (hne "/memory.stat".toList (by decide))]

/-- The fallback of `read` depends on the listed PIDs. -/
lemma readMemory_withListing {e : Text} (h : readCgroup fs cgroupPath = .error e) :
    readMemory (withListing fs cgroupPath contents) (.Cgroup cgroupPath) =
      readProcesses fs (listedPids contents) := by
  have htexts : statusTexts (withListing fs cgroupPath contents) (listedPids contents) =
      statusTexts fs (listedPids contents) :=
    List.filterMap_congr fun pid _ => withListing_of_ne (statusPath_ne_cgroupProcsPath pid _)
  simp only [readMemory, readCgroup_withListing, h, readCgroupProcs_withListing]
  rw [readProcesses_eq, readProcesses_eq, htexts]

lemma readFaults_withListing :
    readFaults (withListing fs cgroupPath contents) (.Cgroup cgroupPath) =
      sumFaults fs (listedPids contents) := by
  have hread : faultsRead (withListing fs cgroupPath contents) (listedPids contents) =
      faultsRead fs (listedPids contents) :=
    List.filterMap_congr fun pid _ => by
      rw [withListing_of_ne (statPath_ne_cgroupProcsPath pid _)]
  have hpids : targetPids (withListing fs cgroupPath contents) (.Cgroup cgroupPath) =
      .ok (listedPids contents) := readCgroupProcs_withListing
  simp only [readFaults, hpids]
  rw [sumFaults_eq, hread, ← sumFaults_eq]

/-- With this listing, the fallback's report and the fault counts are those of the processes
listed, with each of them once. -/
def CountsEachOnce (fs : Files) (cgroupPath contents : Text) : Prop :=
  readMemory (withListing fs cgroupPath contents) (.Cgroup cgroupPath) =
      readProcesses fs (listedPids contents).dedup ∧
    readFaults (withListing fs cgroupPath contents) (.Cgroup cgroupPath) =
      sumFaults fs (listedPids contents).dedup

/-- Nothing is read for the repetitions in a listing: no process with a status file is listed
twice, and the repeated stat files, if there are any, have no faults. -/
def UnreadSurplus (fs : Files) (contents : Text) : Prop :=
  (∀ pid, 1 < (listedPids contents).count pid → fs (statusPath pid) = none) ∧
    ((faultsRead fs (surplus (listedPids contents))).map FaultStats.minFlt).sum = 0 ∧
    ((faultsRead fs (surplus (listedPids contents))).map FaultStats.majFlt).sum = 0

/-- A process has a stat file only beside a status file; then nothing is read for repetitions if
no process that has them is listed twice. -/
lemma unreadSurplus_iff (hproc : ∀ pid, fs (statusPath pid) = none → fs (statPath pid) = none) :
    UnreadSurplus fs contents ↔
      ∀ pid, 1 < (listedPids contents).count pid → fs (statusPath pid) = none := by
  refine ⟨fun h => h.1, fun h => ⟨h, ?_⟩⟩
  have hnone : faultsRead fs (surplus (listedPids contents)) = [] := by
    rw [faultsRead, List.filterMap_eq_nil_iff]
    intro pid hpid
    rw [hproc pid (h pid (mem_surplus_iff.mp hpid)), Option.bind_none]
  simp [hnone]

lemma countsEachOnce_iff {e : Text} (h : readCgroup fs cgroupPath = .error e) :
    CountsEachOnce fs cgroupPath contents ↔ UnreadSurplus fs contents := by
  rw [CountsEachOnce, readMemory_withListing h, readFaults_withListing, readProcesses_dedup_iff,
    sumFaults_dedup_iff, UnreadSurplus]
  simp only [mem_surplus_iff]

/-- **When the totals depend only on which processes are listed.**  Two listings of the same PIDs
give the same report and the same counts, with each process once, exactly when nothing is read
for the repetitions in them. -/
theorem totals_by_process_iff {e : Text} (hcontroller : readCgroup fs cgroupPath = .error e)
    (hsame : ∀ pid, pid ∈ listedPids contents ↔ pid ∈ listedPids contents') :
    (readMemory (withListing fs cgroupPath contents) (.Cgroup cgroupPath) =
          readMemory (withListing fs cgroupPath contents') (.Cgroup cgroupPath) ∧
        readFaults (withListing fs cgroupPath contents) (.Cgroup cgroupPath) =
          readFaults (withListing fs cgroupPath contents') (.Cgroup cgroupPath) ∧
        CountsEachOnce fs cgroupPath contents ∧ CountsEachOnce fs cgroupPath contents') ↔
      UnreadSurplus fs contents ∧ UnreadSurplus fs contents' := by
  have hperm : (listedPids contents).dedup.Perm (listedPids contents').dedup := by
    rw [List.perm_ext_iff_of_nodup (List.nodup_dedup _) (List.nodup_dedup _)]
    intro pid
    rw [List.mem_dedup, List.mem_dedup, hsame]
  rw [countsEachOnce_iff hcontroller, countsEachOnce_iff hcontroller]
  refine ⟨fun h => h.2.2, fun h => ⟨?_, ?_, h⟩⟩
  · rw [((countsEachOnce_iff hcontroller).mpr h.1).1, ((countsEachOnce_iff hcontroller).mpr h.2).1,
      readProcesses_perm hperm]
  · rw [((countsEachOnce_iff hcontroller).mpr h.1).2, ((countsEachOnce_iff hcontroller).mpr h.2).2,
      sumFaults_perm hperm]

end Listings

/-- A cgroup without a memory controller, and process 1 with 4 KiB and 2 minor faults. -/
def filesOf1 : Files := fun path =>
  if path = statusPath 1 then some "Name:\tinit\nVmRSS:\t4 kB\n".toList
  else if path = statPath 1 then some "1 (init) S 0 0 0 0 0 0 2 0 0 0\n".toList
  else none

lemma readCgroup_filesOf1 : ∃ e, readCgroup filesOf1 "/c".toList = .error e :=
  readCgroup_of_none (by decide +kernel)

/-- Two orders of a listing, in one of which a process that has exited is repeated. -/
theorem totals_by_process_iff_exited :
    readMemory (withListing filesOf1 "/c".toList "1\n2\n2\n".toList) (.Cgroup "/c".toList) =
      readMemory (withListing filesOf1 "/c".toList "2\n1\n".toList) (.Cgroup "/c".toList) := by
  obtain ⟨e, he⟩ := readCgroup_filesOf1
  have hrepeated : listedPids "1\n2\n2\n".toList = [1, 2, 2] := by decide +kernel
  have hplain : listedPids "2\n1\n".toList = [2, 1] := by decide +kernel
  have hsame : ∀ pid, pid ∈ listedPids "1\n2\n2\n".toList ↔ pid ∈ listedPids "2\n1\n".toList := by
    intro pid
    simp only [hrepeated, hplain, List.mem_cons, List.not_mem_nil, or_false, or_self]
    exact or_comm
  refine ((totals_by_process_iff he hsame).mpr ⟨⟨fun pid hpid => ?_, ?_⟩, fun pid hpid => ?_, ?_⟩).1
  · have hmem : pid ∈ surplus [1, 2, 2] := mem_surplus_iff.mpr (hrepeated ▸ hpid)
    have hsurplus : surplus [1, 2, 2] = [2] := by decide
    obtain rfl : pid = 2 := by simpa [hsurplus] using hmem
    decide +kernel
  · decide +kernel
  · have hmem : pid ∈ surplus [2, 1] := mem_surplus_iff.mpr (hplain ▸ hpid)
    have hsurplus : surplus [2, 1] = [] := by decide
    simp [hsurplus] at hmem
  · decide +kernel

/-- A listing that repeats a process counts it twice. -/
theorem repeated_process_counted_twice :
    (∀ pid, pid ∈ listedPids "1\n".toList ↔ pid ∈ listedPids "1\n1\n".toList) ∧
      readMemory (withListing filesOf1 "/c".toList "1\n".toList) (.Cgroup "/c".toList) =
        .ok (.Process 4096 0 0 0 1) ∧
      readMemory (withListing filesOf1 "/c".toList "1\n1\n".toList) (.Cgroup "/c".toList) =
        .ok (.Process 8192 0 0 0 2) := by
  obtain ⟨e, he⟩ := readCgroup_filesOf1
  have honce : listedPids "1\n".toList = [1] := by decide +kernel
  have htwice : listedPids "1\n1\n".toList = [1, 1] := by decide +kernel
  rw [readMemory_withListing he, readMemory_withListing he, honce, htwice]
  refine ⟨by simp, ?_, ?_⟩
  · decide +kernel
  · decide +kernel

end Peekbeam
