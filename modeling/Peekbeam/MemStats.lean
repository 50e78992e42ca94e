import Mathlib.Algebra.Ring.Nat
import Peekbeam.FileTable
import Peekbeam.Foundation.Accumulators
import Peekbeam.Foundation.Text

/-!
# Memory statistics

`mem_stats::read` asks the memory controller of the target's cgroup first.  The controller is not
always delegated, and then the figures are summed over the processes listed in `cgroup.procs`,
from the text of their `/proc/<pid>/status`.

The file system is a function from paths to the text read there (`Files`), with `none` for a file
that does not exist, cannot be read or is not UTF-8.  `readMemory_of_no_controller` says which
processes the fallback sums over.  The counts of page faults are summed in the same way, from
`/proc/<pid>/stat`.

The results of the two loops over processes depend on the texts they could read only:
`readProcesses_eq`, `readFaults_eq`.
-/

namespace Peekbeam

open Accumulators Str

/-- `fs::read_to_string`. -/
abbrev Files := Text → Option Text

def CGROUP_ROOT : Text := "/sys/fs/cgroup".toList

inductive MemoryTarget
  /-- Path under `CGROUP_ROOT`. -/
  | Cgroup (path : Text)
  | Pid (pid : UInt32)

inductive MemReport
  | Cgroup (currentBytes anonBytes fileBytes activeAnonBytes inactiveAnonBytes : UInt64)
  | Process (rssBytes anonBytes fileBytes shmemBytes : UInt64) (numProcesses : ℕ)
  deriving DecidableEq

/-! ## Parsing -/

/-- `str::parse::<u64>`. -/
def parseU64 (s : Text) : Option UInt64 := (parseUnsigned (2 ^ 64) s).map UInt64.ofNat

/-- `str::parse::<u32>`. -/
def parseU32 (s : Text) : Option UInt32 := (parseUnsigned (2 ^ 32) s).map UInt32.ofNat

/-- The first two words of a line, the second as a number: the loops of `read_cgroup` and
`read_processes` skip every other line. -/
def keyValue (line : Text) : Option (Text × UInt64) :=
  match splitWhitespace line with
  | key :: val :: _ => (parseU64 val).map fun val => (key, val)
  | _ => none

/-! ## The memory controller -/

/-- The figures `read_cgroup` picks from `memory.stat`. -/
structure CgroupStat where
  anonBytes : UInt64 := 0
  fileBytes : UInt64 := 0
  activeAnonBytes : UInt64 := 0
  inactiveAnonBytes : UInt64 := 0
  deriving DecidableEq

/-- One line of `memory.stat`. -/
def CgroupStat.readLine (s : CgroupStat) (line : Text) : CgroupStat :=
  match keyValue line with
  | none => s
  | some (key, val) =>
    if key = "anon".toList then { s with anonBytes := val }
    else if key = "file".toList then { s with fileBytes := val }
    else if key = "active_anon".toList then { s with activeAnonBytes := val }
    else if key = "inactive_anon".toList then { s with inactiveAnonBytes := val }
    else s

/-- `read_cgroup`. -/
def readCgroup (fs : Files) (cgroupPath : Text) : Except Text MemReport :=
  let base := CGROUP_ROOT ++ cgroupPath
  match fs (base ++ "/memory.current".toList) with
  | none => .error ("reading ".toList ++ base ++ "/memory.current".toList)
  | some current =>
    match parseU64 (trim current) with
    | none => .error "parsing memory.current".toList
    | some currentBytes =>
      match fs (base ++ "/memory.stat".toList) with
      | none => .error ("reading ".toList ++ base ++ "/memory.stat".toList)
      | some stat =>
        let s := (lines stat).foldl CgroupStat.readLine {}
        .ok (.Cgroup currentBytes s.anonBytes s.fileBytes s.activeAnonBytes s.inactiveAnonBytes)

lemma readCgroup_of_none {fs : Files} {cgroupPath : Text}
    (h : fs (CGROUP_ROOT ++ cgroupPath ++ "/memory.current".toList) = none) :
    ∃ e, readCgroup fs cgroupPath = .error e := by
  refine ⟨"reading ".toList ++ (CGROUP_ROOT ++ cgroupPath) ++ "/memory.current".toList, ?_⟩
  simp only [readCgroup, h]

/-! ## Processes -/

/-- The path of a cgroup's list of processes. -/
def cgroupProcsPath (cgroupPath : Text) : Text :=
  CGROUP_ROOT ++ cgroupPath ++ "/cgroup.procs".toList

/-- `read_cgroup_procs`. -/
def readCgroupProcs (fs : Files) (cgroupPath : Text) : Except Text (List UInt32) :=
  match fs (cgroupProcsPath cgroupPath) with
  | none => .error ("reading ".toList ++ cgroupProcsPath cgroupPath)
  | some contents => .ok ((lines contents).filterMap fun l => parseU32 (trim l))

def statusPath (pid : UInt32) : Text :=
  "/proc/".toList ++ Nat.toDigits 10 pid.toNat ++ "/status".toList

/-- Two processes do not share a status file. -/
lemma statusPath_inj {pid pid' : UInt32} : statusPath pid = statusPath pid' ↔ pid = pid' := by
  constructor
  · intro h
    have hdigits : Nat.toDigits 10 pid.toNat = Nat.toDigits 10 pid'.toNat :=
      List.append_cancel_left (List.append_cancel_right h)
    have := congrArg (fun ds => Nat.ofDigitChars 10 ds 0) hdigits
    simpa [UInt32.toNat_inj] using this
  · exact fun h => by rw [h]

/-- Nor is one a list of processes. -/
lemma statusPath_ne_cgroupProcsPath (pid : UInt32) (path : Text) :
    statusPath pid ≠ cgroupProcsPath path := by
  unfold statusPath cgroupProcsPath CGROUP_ROOT
  simp

/-- The accumulators of `read_processes`. -/
structure ProcessTotals where
  rssBytes : UInt64 := 0
  anonBytes : UInt64 := 0
  fileBytes : UInt64 := 0
  shmemBytes : UInt64 := 0
  numProcesses : ℕ := 0
  deriving DecidableEq

/-- One line of a status file. -/
def ProcessTotals.readLine (t : ProcessTotals) (line : Text) : ProcessTotals :=
  match keyValue line with
  | none => t
  | some (key, kb) =>
    if key = "VmRSS:".toList then { t with rssBytes := t.rssBytes + kb * 1024 }
    else if key = "RssAnon:".toList then { t with anonBytes := t.anonBytes + kb * 1024 }
    else if key = "RssFile:".toList then { t with fileBytes := t.fileBytes + kb * 1024 }
    else if key = "RssShmem:".toList then { t with shmemBytes := t.shmemBytes + kb * 1024 }
    else t

/-- One process; it may have exited since it was listed. -/
def ProcessTotals.readProcess (fs : Files) (t : ProcessTotals) (pid : UInt32) : ProcessTotals :=
  match fs (statusPath pid) with
  | none => t
  | some status =>
    (lines status).foldl ProcessTotals.readLine { t with numProcesses := t.numProcesses + 1 }

/-- `read_processes`. -/
def readProcesses (fs : Files) (pids : List UInt32) : Except Text MemReport :=
  let t := pids.foldl (ProcessTotals.readProcess fs) {}
  if t.numProcesses = 0 then .error "no live processes found (target may have exited)".toList
  else .ok (.Process t.rssBytes t.anonBytes t.fileBytes t.shmemBytes t.numProcesses)

/-- `mem_stats::read`. -/
def readMemory (fs : Files) : MemoryTarget → Except Text MemReport
  | .Pid pid => readProcesses fs [pid]
  | .Cgroup path =>
    match readCgroup fs path with
    | .ok report => .ok report
    | .error _ =>
      match readCgroupProcs fs path with
      | .error e => .error e
      | .ok pids => readProcesses fs pids

/-! ## Page faults -/

/-- The stat file of a process. -/
def statPath (pid : UInt32) : Text :=
  "/proc/".toList ++ Nat.toDigits 10 pid.toNat ++ "/stat".toList

lemma statPath_ne_cgroupProcsPath (pid : UInt32) (path : Text) :
    statPath pid ≠ cgroupProcsPath path := by
  unfold statPath cgroupProcsPath CGROUP_ROOT
  simp

/-- FR5.2: minor/major page fault counts. -/
structure FaultStats where
  minFlt : UInt64 := 0
  majFlt : UInt64 := 0
  deriving DecidableEq

/-- The counts in one stat file.  `comm` may itself contain spaces and parentheses, so the fields
are counted from the last `)` on. -/
def statFaults (stat : Text) : Option FaultStats :=
  match afterLast ')' stat with
  | none => none
  | some afterComm =>
    let fields := splitWhitespace afterComm
    match fields[7]?, fields[9]? with
    | some minFlt, some majFlt =>
      some { minFlt := (parseU64 minFlt).getD 0, majFlt := (parseU64 majFlt).getD 0 }
    | _, _ => none

/-- What the loop of `read_faults` keeps. -/
structure FaultLoop where
  stats : FaultStats := {}
  foundAny : Bool := false
  deriving DecidableEq

/-- One process. -/
def FaultLoop.readProcess (fs : Files) (s : FaultLoop) (pid : UInt32) : FaultLoop :=
  match (fs (statPath pid)).bind statFaults with
  | none => s
  | some faults =>
    { stats :=
        { minFlt := s.stats.minFlt + faults.minFlt, majFlt := s.stats.majFlt + faults.majFlt }
      foundAny := true }

/-- The processes of a target. -/
def targetPids (fs : Files) : MemoryTarget → Except Text (List UInt32)
  | .Pid pid => .ok [pid]
  | .Cgroup path => readCgroupProcs fs path

/-- The loop of `read_faults`. -/
def sumFaults (fs : Files) (pids : List UInt32) : Except Text FaultStats :=
  let s := pids.foldl (FaultLoop.readProcess fs) {}
  if s.foundAny then .ok s.stats
  else .error "no live processes found (target may have exited)".toList

/-- `read_faults`. -/
def readFaults (fs : Files) (target : MemoryTarget) : Except Text FaultStats :=
  match targetPids fs target with
  | .error e => .error e
  | .ok pids => sumFaults fs pids

/-! ## The processes summed over -/

/-- The listed processes whose status can be read, in the order listed. -/
def summedPids (fs : Files) (cgroupPath : Text) : List UInt32 :=
  match readCgroupProcs fs cgroupPath with
  | .error _ => []
  | .ok pids => pids.filter fun pid => (fs (statusPath pid)).isSome

lemma foldl_readProcess_filter (fs : Files) (pids : List UInt32) (t : ProcessTotals) :
    pids.foldl (ProcessTotals.readProcess fs) t =
      (pids.filter fun pid => (fs (statusPath pid)).isSome).foldl
        (ProcessTotals.readProcess fs) t := by
  induction pids generalizing t with
  | nil => rfl
  | cons pid pids ih =>
    rw [List.foldl_cons, ih]
    cases hstatus : fs (statusPath pid) with
    | none => simp [ProcessTotals.readProcess, hstatus]
    | some status => simp [hstatus]

/-- Without a memory controller the report is the sum over `summedPids`. -/
lemma readMemory_of_no_controller {fs : Files} {path : Text} {e : Text} {pids : List UInt32}
    (h : readCgroup fs path = .error e) (hpids : readCgroupProcs fs path = .ok pids) :
    readMemory fs (.Cgroup path) = readProcesses fs (summedPids fs path) := by
  simp only [readMemory, h, hpids, summedPids, readProcesses]
  rw [← foldl_readProcess_filter]

/-- A list of decimal PIDs is read back. -/
lemma readCgroupProcs_decimals {fs : Files} {path : Text} {pids : List UInt32}
    (h : fs (cgroupProcsPath path) = some (decimals (pids.map UInt32.toNat))) :
    readCgroupProcs fs path = .ok pids := by
  have hread : (lines (decimals (pids.map UInt32.toNat))).filterMap
      (fun l => parseUnsigned (2 ^ 32) (trim l)) = pids.map UInt32.toNat :=
    filterMap_lines_decimals (by simpa using fun pid _ => pid.toNat_lt)
  have hparse : (lines (decimals (pids.map UInt32.toNat))).filterMap
      (fun l => parseU32 (trim l)) = pids := by
    simp only [parseU32]
    rw [← List.map_filterMap, hread, List.map_map]
    simp [Function.comp_def]
  simp only [readCgroupProcs, h, hparse]

/-! ## The figures, text by text -/

/-- The values of a key in a text. -/
def valueOf (key line : Text) : Option UInt64 :=
  match keyValue line with
  | none => none
  | some (k, val) => if k = key then some val else none

def valuesOf (key text : Text) : List UInt64 := (lines text).filterMap (valueOf key)

namespace CgroupStat

/-- The figures of `read_cgroup`, with the keys they are for. -/
def figures : List (Text × (CgroupStat → UInt64)) :=
  [("anon".toList, anonBytes), ("file".toList, fileBytes), ("active_anon".toList, activeAnonBytes),
    ("inactive_anon".toList, inactiveAnonBytes)]

lemma forall_mem_figures {P : Text × (CgroupStat → UInt64) → Prop} :
    (∀ p ∈ figures, P p) ↔ P ("anon".toList, anonBytes) ∧ P ("file".toList, fileBytes) ∧
      P ("active_anon".toList, activeAnonBytes) ∧
      P ("inactive_anon".toList, inactiveAnonBytes) := by
  simp only [figures, List.forall_mem_cons, List.not_mem_nil, false_imp_iff, implies_true, and_true]

/-- Each line overwrites the figure of its key. -/
lemma readLine_figure {key : Text} {figure : CgroupStat → UInt64} (h : (key, figure) ∈ figures)
    (s : CgroupStat) (line : Text) :
    figure (s.readLine line) = (valueOf key line).getD (figure s) := by
  unfold readLine valueOf
  cases hkv : keyValue line with
  | none => rfl
  | some kv =>
    obtain ⟨k, val⟩ := kv
    simp only [figures, List.mem_cons, Prod.mk.injEq, List.not_mem_nil, or_false] at h
    rcases h with ⟨rfl, rfl⟩ | ⟨rfl, rfl⟩ | ⟨rfl, rfl⟩ | ⟨rfl, rfl⟩
    all_goals
      dsimp only
      split_ifs <;> simp_all

end CgroupStat

/-- The value of a key in `memory.stat`: that of its last line, or 0. -/
def lastValue (key text : Text) : UInt64 := (valuesOf key text).getLast?.getD 0

/-- **The loop of `read_cgroup`.** -/
lemma readCgroup_eq {fs : Files} {cgroupPath current stat : Text} {currentBytes : UInt64}
    (hcurrent : fs (CGROUP_ROOT ++ cgroupPath ++ "/memory.current".toList) = some current)
    (hparse : parseU64 (trim current) = some currentBytes)
    (hstat : fs (CGROUP_ROOT ++ cgroupPath ++ "/memory.stat".toList) = some stat) :
    readCgroup fs cgroupPath =
      .ok (.Cgroup currentBytes (lastValue "anon".toList stat) (lastValue "file".toList stat)
        (lastValue "active_anon".toList stat) (lastValue "inactive_anon".toList stat)) := by
  have hzero : ∀ p ∈ CgroupStat.figures, p.2 {} = 0 :=
    CgroupStat.forall_mem_figures.mpr ⟨rfl, rfl, rfl, rfl⟩
  have hfigure : ∀ p ∈ CgroupStat.figures, p.2 ((lines stat).foldl CgroupStat.readLine {}) =
      lastValue p.1 stat := fun p hp => by
    rw [foldl_getLast p.2 (CgroupStat.readLine_figure hp), hzero p hp, lastValue, valuesOf]
  have hfigures := CgroupStat.forall_mem_figures.mp hfigure
  dsimp only at hfigures
  obtain ⟨hanon, hfile, hactive, hinactive⟩ := hfigures
  simp only [readCgroup, hcurrent, hparse, hstat, hanon, hfile, hactive, hinactive]

/-- The status files that could be read. -/
def statusTexts (fs : Files) (pids : List UInt32) : List Text :=
  pids.filterMap fun pid => fs (statusPath pid)

/-- The counts of the stat files that could be read. -/
def faultsRead (fs : Files) (pids : List UInt32) : List FaultStats :=
  pids.filterMap fun pid => (fs (statPath pid)).bind statFaults

namespace ProcessTotals

/-- The accumulators of `read_processes`, with the keys they are for. -/
def figures : List (Text × (ProcessTotals → UInt64)) :=
  [("VmRSS:".toList, rssBytes), ("RssAnon:".toList, anonBytes), ("RssFile:".toList, fileBytes),
    ("RssShmem:".toList, shmemBytes)]

lemma forall_mem_figures {P : Text × (ProcessTotals → UInt64) → Prop} :
    (∀ p ∈ figures, P p) ↔ P ("VmRSS:".toList, rssBytes) ∧ P ("RssAnon:".toList, anonBytes) ∧
      P ("RssFile:".toList, fileBytes) ∧ P ("RssShmem:".toList, shmemBytes) := by
  simp only [figures, List.forall_mem_cons, List.not_mem_nil, false_imp_iff, implies_true, and_true]

/-- Each line adds to the accumulator of its key. -/
lemma readLine_figure {key : Text} {figure : ProcessTotals → UInt64} (h : (key, figure) ∈ figures)
    (t : ProcessTotals) (line : Text) :
    figure (t.readLine line) = figure t + ((valueOf key line).toList.map (· * 1024)).sum := by
  unfold readLine valueOf
  cases hkv : keyValue line with
  | none => simp
  | some kv =>
    obtain ⟨k, kb⟩ := kv
    simp only [figures, List.mem_cons, Prod.mk.injEq, List.not_mem_nil, or_false] at h
    rcases h with ⟨rfl, rfl⟩ | ⟨rfl, rfl⟩ | ⟨rfl, rfl⟩ | ⟨rfl, rfl⟩
    all_goals
      dsimp only
      split_ifs <;> simp_all

@[simp] lemma readLine_numProcesses (t : ProcessTotals) (line : Text) :
    (t.readLine line).numProcesses = t.numProcesses := by
  unfold readLine
  split
  · rfl
  · split_ifs <;> rfl

/-- Each process adds what its status file has for the key. -/
lemma readProcess_figure {p : Text × (ProcessTotals → UInt64)} (hp : p ∈ figures) (fs : Files)
    (t : ProcessTotals) (pid : UInt32) :
    p.2 (t.readProcess fs pid) = p.2 t +
      (((fs (statusPath pid)).toList.flatMap (valuesOf p.1)).map (· * 1024)).sum := by
  unfold readProcess
  cases fs (statusPath pid) with
  | none => simp
  | some status =>
    have hnew : ∀ p ∈ figures, p.2 { t with numProcesses := t.numProcesses + 1 } = p.2 t :=
      forall_mem_figures.mpr ⟨rfl, rfl, rfl, rfl⟩
    simp only [foldl_sum p.2 (readLine_figure hp), hnew p hp, Option.toList_some,
      List.flatMap_singleton, valuesOf, List.filterMap_eq_flatMap_toList, List.map_flatMap]

lemma readProcess_numProcesses (fs : Files) (t : ProcessTotals) (pid : UInt32) :
    (t.readProcess fs pid).numProcesses =
      t.numProcesses + ((fs (statusPath pid)).toList.map fun _ => 1).sum := by
  unfold readProcess
  cases fs (statusPath pid) with
  | none => simp
  | some status =>
    have hlines : ∀ (ls : List Text) (t : ProcessTotals),
        (ls.foldl readLine t).numProcesses = t.numProcesses := by
      intro ls
      induction ls with
      | nil => exact fun _ => rfl
      | cons line ls ih =>
        intro t
        rw [List.foldl_cons, ih, readLine_numProcesses]
    simp [hlines]

end ProcessTotals

/-- The bytes a key stands for in some status files. -/
def kilobytes (key : Text) (texts : List Text) : UInt64 :=
  ((texts.flatMap (valuesOf key)).map (· * 1024)).sum

/-- What `read_processes` makes of the status files it could read. -/
def reportOf (texts : List Text) : Except Text MemReport :=
  if texts = [] then .error "no live processes found (target may have exited)".toList
  else
    .ok (.Process (kilobytes "VmRSS:".toList texts) (kilobytes "RssAnon:".toList texts)
      (kilobytes "RssFile:".toList texts) (kilobytes "RssShmem:".toList texts) texts.length)

/-- **The loop of `read_processes`.** -/
lemma readProcesses_eq (fs : Files) (pids : List UInt32) :
    readProcesses fs pids = reportOf (statusTexts fs pids) := by
  have hzero : ∀ p ∈ ProcessTotals.figures, p.2 {} = 0 :=
    ProcessTotals.forall_mem_figures.mpr ⟨rfl, rfl, rfl, rfl⟩
  have hfigure : ∀ p ∈ ProcessTotals.figures, p.2 (pids.foldl (ProcessTotals.readProcess fs) {}) =
      kilobytes p.1 (statusTexts fs pids) := fun p hp => by
    simp only [foldl_sum p.2 (ProcessTotals.readProcess_figure hp fs), hzero p hp, zero_add,
      kilobytes, statusTexts, List.filterMap_eq_flatMap_toList, List.flatMap_assoc,
      List.map_flatMap]
  have hcount : (pids.foldl (ProcessTotals.readProcess fs) {}).numProcesses =
      (statusTexts fs pids).length := by
    rw [foldl_sum _ (ProcessTotals.readProcess_numProcesses fs), statusTexts,
      List.filterMap_eq_flatMap_toList, ← List.map_flatMap]
    simp
  have hfigures := ProcessTotals.forall_mem_figures.mp hfigure
  dsimp only at hfigures
  obtain ⟨hrss, hanon, hfile, hshmem⟩ := hfigures
  simp only [readProcesses, reportOf, hcount, hrss, hanon, hfile, hshmem, List.length_eq_zero_iff]

lemma readProcesses_error_iff {fs : Files} {pids : List UInt32} :
    (∃ e, readProcesses fs pids = .error e) ↔ statusTexts fs pids = [] := by
  rw [readProcesses_eq, reportOf]
  split
  · rename_i hempty
    simp [hempty]
  · rename_i hsome
    simp [hsome]

/-- What a report says. -/
lemma of_readProcesses_ok {fs : Files} {pids : List UInt32}
    {rssBytes anonBytes fileBytes shmemBytes : UInt64} {numProcesses : ℕ}
    (h : readProcesses fs pids =
      .ok (.Process rssBytes anonBytes fileBytes shmemBytes numProcesses)) :
    rssBytes = kilobytes "VmRSS:".toList (statusTexts fs pids) ∧
      anonBytes = kilobytes "RssAnon:".toList (statusTexts fs pids) ∧
      fileBytes = kilobytes "RssFile:".toList (statusTexts fs pids) ∧
      shmemBytes = kilobytes "RssShmem:".toList (statusTexts fs pids) ∧
      numProcesses = (statusTexts fs pids).length := by
  rw [readProcesses_eq, reportOf] at h
  split at h
  · simp at h
  · obtain ⟨rfl, rfl, rfl, rfl, rfl⟩ := MemReport.Process.inj (Except.ok.inj h)
    exact ⟨rfl, rfl, rfl, rfl, rfl⟩

namespace FaultLoop

/-- Each process adds the counts of its stat file. -/
lemma readProcess_figure {figure : FaultStats → UInt64}
    (h : figure = FaultStats.minFlt ∨ figure = FaultStats.majFlt) (fs : Files) (s : FaultLoop)
    (pid : UInt32) :
    figure (s.readProcess fs pid).stats = figure s.stats +
      (((fs (statPath pid)).bind statFaults).toList.map figure).sum := by
  unfold readProcess
  cases (fs (statPath pid)).bind statFaults with
  | none => simp
  | some faults => rcases h with rfl | rfl <;> simp

lemma foundAny_foldl (fs : Files) (s : FaultLoop) (pids : List UInt32) :
    (pids.foldl (readProcess fs) s).foundAny = true ↔
      s.foundAny = true ∨ faultsRead fs pids ≠ [] := by
  induction pids generalizing s with
  | nil => simp [faultsRead]
  | cons pid pids ih =>
    rw [List.foldl_cons, ih]
    unfold readProcess faultsRead
    cases hread : (fs (statPath pid)).bind statFaults <;> simp [hread]

end FaultLoop

/-- **The loop of `read_faults`.** -/
lemma sumFaults_eq (fs : Files) (pids : List UInt32) :
    sumFaults fs pids =
      if faultsRead fs pids = [] then
        .error "no live processes found (target may have exited)".toList
      else
        .ok { minFlt := ((faultsRead fs pids).map FaultStats.minFlt).sum
              majFlt := ((faultsRead fs pids).map FaultStats.majFlt).sum } := by
  have hfigure : ∀ figure, figure = FaultStats.minFlt ∨ figure = FaultStats.majFlt →
      figure (pids.foldl (FaultLoop.readProcess fs) {}).stats =
        figure {} + ((faultsRead fs pids).map figure).sum := fun figure h => by
    rw [foldl_sum (fun s : FaultLoop => figure s.stats)
      (FaultLoop.readProcess_figure h fs), faultsRead, List.filterMap_eq_flatMap_toList,
      List.map_flatMap]
  have hstats : (pids.foldl (FaultLoop.readProcess fs) {}).stats =
      { minFlt := ((faultsRead fs pids).map FaultStats.minFlt).sum
        majFlt := ((faultsRead fs pids).map FaultStats.majFlt).sum } := by
    have hmin := hfigure _ (Or.inl rfl)
    have hmaj := hfigure _ (Or.inr rfl)
    simp only [zero_add] at hmin hmaj
    rw [← hmin, ← hmaj]
  have hfound := FaultLoop.foundAny_foldl fs {} pids
  simp only [Bool.false_eq_true, false_or] at hfound
  simp only [sumFaults, hstats, hfound, ite_not]

lemma sumFaults_error_iff {fs : Files} {pids : List UInt32} :
    (∃ e, sumFaults fs pids = .error e) ↔ faultsRead fs pids = [] := by
  rw [sumFaults_eq]
  split
  · rename_i hempty
    simp [hempty]
  · rename_i hsome
    simp [hsome]

lemma of_sumFaults_ok {fs : Files} {pids : List UInt32} {stats : FaultStats}
    (h : sumFaults fs pids = .ok stats) :
    stats.minFlt = ((faultsRead fs pids).map FaultStats.minFlt).sum ∧
      stats.majFlt = ((faultsRead fs pids).map FaultStats.majFlt).sum := by
  rw [sumFaults_eq] at h
  split at h
  · simp at h
  · obtain rfl := Except.ok.inj h
    exact ⟨rfl, rfl⟩

end Peekbeam
