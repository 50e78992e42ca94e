import Peekbeam.KernelMemory
import Peekbeam.MemStats
import Peekbeam.NetTable
import Peekbeam.Overflow
import Peekbeam.PlainText

/-!
# Building a summary

`Summary::build` turns the tables into lists: a row for each entry, with the names and texts a
reader wants, sorted by what matters most.  The tables are hash maps, which are iterated in an
order that is not specified; a `HashOrder` is one way of doing it.

`summary_lists_tables` says that the lists are the tables, whatever the order: each entry has
exactly one row, the rows are sorted, and two orders give lists that differ in the order of
rows with equal keys at most.
-/

namespace Peekbeam

open Floating

/-! ## The syscall table -/

structure SyscallInfo where
  name : Text
  category : Text
  annotation : Text

/-- The arms of `classify`: the names, their category and their annotation. -/
def syscallClasses : List (List String × String × String) :=
  [(["read", "pread64", "readv", "preadv", "preadv2"], "File I/O",
      "reading from a file descriptor"),
    (["write", "pwrite64", "writev", "pwritev", "pwritev2"], "File I/O",
      "writing to a file descriptor"),
    (["openat", "openat2", "open", "creat"], "File I/O", "opening a file"),
    (["close", "close_range"], "File I/O", "closing a file descriptor"),
    (["fstat", "newfstatat", "statx", "stat", "lstat"], "File I/O", "checking file metadata"),
    (["lseek"], "File I/O", "moving the read/write position in a file"),
    (["getdents64"], "File I/O", "reading directory entries"),
    (["ioctl"], "File I/O", "device-specific control operation"),
    (["fsync", "fdatasync"], "File I/O", "flushing file data to disk"),
    (["socket"], "Networking", "creating a network socket"),
    (["connect"], "Networking", "connecting to a remote address"),
    (["accept", "accept4"], "Networking", "accepting an incoming connection"),
    (["sendto", "sendmsg", "sendmmsg"], "Networking", "sending data on a socket"),
    (["recvfrom", "recvmsg", "recvmmsg"], "Networking", "receiving data on a socket"),
    (["bind"], "Networking", "binding a socket to an address"),
    (["listen"], "Networking", "listening for incoming connections"),
    (["epoll_wait", "epoll_pwait", "epoll_pwait2", "epoll_ctl", "epoll_create1"], "Networking",
      "waiting on / managing I/O readiness (often sockets)"),
    (["poll", "ppoll", "select", "pselect6"], "Networking",
      "waiting on multiple file descriptors for I/O readiness"),
    (["getsockopt", "setsockopt"], "Networking", "reading/setting socket options"),
    (["shutdown"], "Networking", "shutting down part of a socket connection"),
    (["clone", "clone3", "fork", "vfork"], "Process/Thread", "creating a new process/thread"),
    (["execve", "execveat"], "Process/Thread",
      "replacing the process image (running a new program)"),
    (["exit", "exit_group"], "Process/Thread", "terminating the process/thread"),
    (["wait4", "waitid"], "Process/Thread", "waiting for a child process to change state"),
    (["sched_yield"], "Process/Thread", "yielding the CPU to another thread"),
    (["sched_getaffinity", "sched_setaffinity"], "Process/Thread",
      "reading/setting which CPUs this thread may run on"),
    (["gettid", "getpid", "getppid"], "Process/Thread", "reading a process/thread ID"),
    (["set_tid_address", "set_robust_list", "prctl"], "Process/Thread",
      "thread/process bookkeeping for the kernel"),
    (["mmap"], "Memory", "mapping memory (file-backed or anonymous)"),
    (["munmap"], "Memory", "unmapping memory"),
    (["mprotect"], "Memory", "changing memory protection flags"),
    (["brk"], "Memory", "adjusting the heap break"),
    (["madvise"], "Memory", "giving the kernel a memory usage hint"),
    (["mremap"], "Memory", "resizing/moving an existing memory mapping"),
    (["futex"], "Synchronization", "waiting on or waking a lock"),
    (["rt_sigaction", "rt_sigprocmask", "rt_sigreturn", "rt_sigsuspend", "tgkill"],
      "Synchronization", "signal handling setup or delivery")]

/-- `classify`. -/
def classify (name : Text) : String × String :=
  match syscallClasses.find? fun arm => (arm.1.map String.toList).contains name with
  | some arm => arm.2
  | none => ("Other", "uncommon syscall, no plain-language annotation yet")

/-- The names of the traced host's syscalls: `Sysno::new(nr).map(|sysno| sysno.name())`. -/
abbrev SyscallNames := ℕ → Option Text

/-- `syscall_table::lookup`. -/
def lookupSyscall (names : SyscallNames) (nr : UInt64) : SyscallInfo :=
  let name := (names nr.toNat).getD "unknown".toList
  let (category, annotation) := classify name
  { name, category := category.toList, annotation := annotation.toList }

/-! ## Iterating over the tables -/

/-- The entries of a map. -/
def tableRows {κ ν : Type} (m : FinMap κ ν) : List (κ × ν) :=
  m.entries.map fun entry => (entry.1, entry.2)

/-- The entries in some order. -/
def RowsIn {κ ν : Type} (m : FinMap κ ν) (rows : List (κ × ν)) : Prop := rows.Perm (tableRows m)

/-- How the hash maps are iterated over, at one moment. -/
structure HashOrder where
  stats : FinMap UInt64 SyscallStats → List (UInt64 × SyscallStats)
  connections : ConnMap → List (ConnectionKey × ConnectionStats)
  files : FilesMap → List FileRow
  stats_rows : ∀ m, RowsIn m (stats m)
  connections_rows : ∀ m, RowsIn m (connections m)
  files_rows : ∀ m, RowsIn m (files m)

/-- Each map from its latest entry on. -/
def HashOrder.latestFirst : HashOrder where
  stats := tableRows
  connections := tableRows
  files := tableRows
  stats_rows _ := .refl _
  connections_rows _ := .refl _
  files_rows _ := .refl _

/-! ## The summary -/

/-- A row of the syscall list. -/
def syscallSummary (names : SyscallNames) (row : UInt64 × SyscallStats) : SyscallSummary :=
  let info := lookupSyscall names row.1
  { name := info.name
    category := info.category
    count := UInt64.ofNat row.2.count
    totalUs := row.2.totalNs.toFloat / 1000
    avgUs := row.2.avgNs.toFloat / 1000 }

/-- A row of the connection list. -/
def connectionSummary (row : ConnectionKey × ConnectionStats) : ConnectionSummary where
  localAddr := endpoint row.1.family row.1.saddr row.1.sport
  remote := endpoint row.1.family row.1.daddr row.1.dport
  state := stateName row.2.state
  retransmits := UInt64.ofNat row.2.retransmits

/-- `sort_by` with the comparison of `total_us`, descending: a row stays before another unless it
is known to be less. -/
def sortByTotal (rows : List SyscallSummary) : List SyscallSummary :=
  rows.mergeSort fun a b => !decide (a.totalUs < b.totalUs)

def memorySummary : MemReport → MemorySummary
  | .Cgroup currentBytes anonBytes fileBytes activeAnonBytes inactiveAnonBytes =>
    .Cgroup currentBytes anonBytes fileBytes activeAnonBytes inactiveAnonBytes
  | .Process rssBytes anonBytes fileBytes shmemBytes numProcesses =>
    .Proc rssBytes anonBytes fileBytes shmemBytes numProcesses

/-- What a summary takes from its surroundings: how long the tool has been running, the files of
`/proc` and of the cgroup, and how the tables are iterated over. -/
structure Surroundings where
  uptimeSecs : UInt64
  files : Files
  order : HashOrder

/-- What stays the same for all summaries of a run. -/
structure Subject where
  label : Text
  memoryTarget : MemoryTarget
  names : SyscallNames

/-- `Summary::build`. -/
def Summary.build (subject : Subject) (around : Surroundings) (t : Tables) : Summary where
  target := subject.label
  uptimeSecs := around.uptimeSecs
  syscalls := sortByTotal ((around.order.stats t.syscalls.stats).map
    (syscallSummary subject.names))
  connections := sortDescending ConnectionSummary.retransmits
    ((around.order.connections t.connections).map connectionSummary)
  files := summaryFiles (around.order.files t.files)
  kernelAllocs := UInt64.ofNat t.memEvents.allocCount
  kernelAllocBytes := t.memEvents.allocBytes
  kernelFrees := UInt64.ofNat t.memEvents.freeCount
  memory := (readMemory around.files subject.memoryTarget).toOption.map memorySummary
  pageFaults := (readFaults around.files subject.memoryTarget).toOption.map fun f =>
    { minor := f.minFlt, major := f.majFlt }

/-! ## The lists -/

lemma perm_sortDescending {α : Type} (key : α → UInt64) (rows : List α) :
    (sortDescending key rows).Perm rows := List.mergeSort_perm _ _

lemma sorted_sortDescending {α : Type} (key : α → UInt64) (rows : List α) :
    ((sortDescending key rows).map fun row => (key row).toNat).Pairwise (· ≥ ·) := by
  rw [List.pairwise_map]
  exact pairwise_sortDescending fun _ _ => rfl

/-- Sorting by a key leaves the order of equal keys open only. -/
lemma map_key_sortDescending {α : Type} {key : α → UInt64} {rows rows' : List α}
    (h : rows.Perm rows') :
    (sortDescending key rows).map key = (sortDescending key rows').map key := by
  have hperm : ((sortDescending key rows).map fun row => (key row).toNat).Perm
      ((sortDescending key rows').map fun row => (key row).toNat) :=
    (((perm_sortDescending key rows).trans h).trans (perm_sortDescending key rows').symm).map _
  have heq := hperm.eq_of_pairwise' (sorted_sortDescending key rows) (sorted_sortDescending key rows')
  have hofNat := congrArg (List.map UInt64.ofNat) heq
  simpa [Function.comp_def] using hofNat

/-! The total of a syscall is a number, so that `sort_by` puts the totals in order. -/

lemma isNumber_totalUs (names : SyscallNames) (row : UInt64 × SyscallStats) :
    IsNumber (syscallSummary names row).totalUs := by
  have hconst : (1000 : Float) = (1000 : UInt64).toFloat := by decide +kernel
  have hthousand : HasValue 1000 ((1000 : UInt64).toNat : ℚ) := by
    rw [hconst]
    exact hasValue_toFloat (by decide) (by decide)
  exact (isNumber_toFloat row.2.totalNs).div hthousand

section Totals
variable {rows rows' : List SyscallSummary}

lemma perm_sortByTotal (rows : List SyscallSummary) : (sortByTotal rows).Perm rows :=
  List.mergeSort_perm _ _

lemma map_rankOf_sortByTotal (h : ∀ row ∈ rows, IsNumber row.totalUs) :
    (sortByTotal rows).map (fun row => rankOf row.totalUs) =
      (rows.map fun row => rankOf row.totalUs).mergeSort (· ≥ ·) :=
  List.map_mergeSort fun row hrow row' hrow' => by
    rw [← decide_not, decide_eq_decide, (h row hrow).lt_iff (h row' hrow'), not_lt, ge_iff_le]

lemma sorted_rankOf_sortByTotal (h : ∀ row ∈ rows, IsNumber row.totalUs) :
    ((sortByTotal rows).map fun row => rankOf row.totalUs).Pairwise (· ≥ ·) := by
  rw [map_rankOf_sortByTotal h]
  exact List.pairwise_mergeSort' _ _

/-- The totals are in descending order. -/
lemma sorted_sortByTotal (h : ∀ row ∈ rows, IsNumber row.totalUs) :
    ((sortByTotal rows).map (·.totalUs)).Pairwise (· ≥ ·) := by
  have hnumber : ∀ row ∈ sortByTotal rows, IsNumber row.totalUs := fun row hrow =>
    h row ((perm_sortByTotal rows).subset hrow)
  rw [List.pairwise_map]
  refine (List.pairwise_map.mp (sorted_rankOf_sortByTotal h)).imp_of_mem ?_
  intro row row' hrow hrow' hle
  exact ((hnumber row' hrow').le_iff (hnumber row hrow)).mpr hle

/-- Sorting leaves the order of equal totals open only. -/
lemma beq_map_sortByTotal (hperm : rows.Perm rows') (h : ∀ row ∈ rows, IsNumber row.totalUs) :
    ((sortByTotal rows).map (·.totalUs) == (sortByTotal rows').map (·.totalUs)) = true := by
  have h' : ∀ row ∈ rows', IsNumber row.totalUs := fun row hrow => h row (hperm.symm.subset hrow)
  have hsorts : (sortByTotal rows).Perm (sortByTotal rows') :=
    ((perm_sortByTotal rows).trans hperm).trans (perm_sortByTotal rows').symm
  refine beq_of_map_rankOf ?_ ?_ ?_
  · exact List.forall_mem_map.mpr fun row hrow => h row ((perm_sortByTotal rows).subset hrow)
  · exact List.forall_mem_map.mpr fun row hrow => h' row ((perm_sortByTotal rows').subset hrow)
  · rw [List.map_map, List.map_map]
    exact (hsorts.map _).eq_of_pairwise' (sorted_rankOf_sortByTotal h)
      (sorted_rankOf_sortByTotal h')

end Totals

/-- **A summary lists the tables.**  Whatever the order of the hash maps, every entry of a table
has one row and there are no others; syscalls are sorted by total time, connections by retransmits
and files by volume.  And under another order those three columns are the same. -/
theorem summary_lists_tables (subject : Subject) (around : Surroundings) (t : Tables) :
    let s := Summary.build subject around t
    (s.syscalls.Perm ((tableRows t.syscalls.stats).map (syscallSummary subject.names)) ∧
      s.connections.Perm ((tableRows t.connections).map connectionSummary) ∧
      s.files.Perm ((tableRows t.files).map fileSummary)) ∧
    ((s.syscalls.map (·.totalUs)).Pairwise (· ≥ ·) ∧
      (s.connections.map fun c => c.retransmits.toNat).Pairwise (· ≥ ·) ∧
      (s.files.map fun f => (f.bytesRead + f.bytesWritten).toNat).Pairwise (· ≥ ·)) ∧
    ∀ order, let s' := Summary.build subject { around with order } t
      (s.syscalls.map (·.totalUs) == s'.syscalls.map (·.totalUs)) = true ∧
        s.connections.map (·.retransmits) = s'.connections.map (·.retransmits) ∧
        s.files.map (fun f => f.bytesRead + f.bytesWritten) =
          s'.files.map fun f => f.bytesRead + f.bytesWritten := by
  intro s
  have hnumbers : ∀ rows, ∀ row ∈ List.map (syscallSummary subject.names) rows,
      IsNumber row.totalUs := fun rows =>
    List.forall_mem_map.mpr fun row _ => isNumber_totalUs subject.names row
  refine ⟨⟨?_, ?_, ?_⟩, ⟨?_, ?_, ?_⟩, fun order => ⟨?_, ?_, ?_⟩⟩
  · exact (perm_sortByTotal _).trans ((around.order.stats_rows _).map _)
  · exact (perm_sortDescending _ _).trans ((around.order.connections_rows _).map _)
  · exact (perm_sortDescending _ _).trans ((around.order.files_rows _).map _)
  · exact sorted_sortByTotal (hnumbers _)
  · exact sorted_sortDescending _ _
  · exact sorted_sortDescending (fun f : FileSummary => f.bytesRead + f.bytesWritten) _
  · exact beq_map_sortByTotal
      (((around.order.stats_rows _).trans (order.stats_rows _).symm).map _) (hnumbers _)
  · exact map_key_sortDescending
      (((around.order.connections_rows _).trans (order.connections_rows _).symm).map _)
  · exact map_key_sortDescending
      (((around.order.files_rows _).trans (order.files_rows _).symm).map _)

end Peekbeam
