import Peekbeam.SummaryBuild
import Peekbeam.SyscallTotals

/-!
# The panels of the TUI

`draw_syscalls`, `draw_network`, `draw_memory` and `draw_files` turn a table into a panel: a
header with some totals, a table with a row for each entry, and a footer.  A `Panel` is what is
put on the screen, before the terminal library lays it out and clips it.

The rows come out of hash maps in an order that is not specified.  `panels_show_tables` says that
it does not matter: the header is a function of the table, each entry has its row, and the rows
are sorted by the column the panel is about.  `highlights_add_up` relates the numbers in the
headers to the rows that stand out.
-/

namespace Peekbeam

/-! ## Panels -/

/-- How a row is drawn: as it is, in bold yellow, or in green. -/
inductive Style
  | default
  | yellowBold
  | green
  deriving DecidableEq

structure PanelRow where
  cells : List Text
  style : Style := .default

structure Panel where
  title : Text
  header : Text
  columns : List Text
  rows : List PanelRow
  footer : Text

/-- A row of literals and values. -/
def cells (cells : List Text) : PanelRow := { cells }

/-- `sort_by` in descending order of a number. -/
def sortByCount {α : Type} (key : α → ℕ) (rows : List α) : List α :=
  rows.mergeSort fun a b => key b ≤ key a

inductive SortBy
  | Count
  | Time
  deriving DecidableEq

inductive View
  | Syscalls
  | Network
  | Memory
  | Files
  deriving DecidableEq

/-- What stands before the totals in a header. -/
def headerStart (target : Text) (uptime : UInt64) : Text :=
  target ++ "  |  uptime ".toList ++ decimal uptime.toNat ++ "s  |  ".toList

section Draw
variable (fixed : ℕ → Float → Text) (target : Text) (uptime : UInt64)

/-! ### Syscalls -/

def SortBy.label : SortBy → Text
  | .Count => "count".toList
  | .Time => "total time".toList

/-- The column a syscall panel is sorted by. -/
def SortBy.key : SortBy → UInt64 × SyscallStats → ℕ
  | .Count, row => row.2.count
  | .Time, row => row.2.totalNs.toNat

/-- Slow on average, or frequent. -/
def SyscallStats.notable (stats : SyscallStats) : Bool :=
  stats.avgNs > 10000000 ∨ stats.count > 10000

def syscallRow (names : SyscallNames) (row : UInt64 × SyscallStats) : PanelRow :=
  let info := lookupSyscall names row.1
  { cells :=
      [info.category, info.name, decimal row.2.count, fixed 2 (row.2.totalNs.toFloat / 1000),
        fixed 2 (row.2.avgNs.toFloat / 1000), info.annotation]
    style := if row.2.notable then .yellowBold else .default }

/-- The header, given the number of syscalls seen. -/
def syscallsHeader (sortBy : SortBy) (totalEvents : ℕ) : Text :=
  headerStart target uptime ++ decimal totalEvents ++ " syscalls seen  |  sorted by ".toList ++
    sortBy.label ++ " ('s' to toggle, Tab to cycle panels)".toList

/-- `draw_syscalls`. -/
def drawSyscalls (names : SyscallNames) (sortBy : SortBy) (rows : List (UInt64 × SyscallStats)) :
    Panel where
  title := "peekbeam — Syscalls".toList
  header := syscallsHeader target uptime sortBy (rows.map fun row => row.2.count).sum
  columns := ["Category", "Syscall", "Count", "Total (us)", "Avg (us)", "What it means"].map
    String.toList
  rows := (sortByCount sortBy.key rows).map (syscallRow fixed names)
  footer := "Ctrl+C or 'q' to quit — detaches all probes cleanly".toList

/-! ### Network -/

def ConnectionStats.retransmitting (stats : ConnectionStats) : Bool := stats.retransmits > 0

def connectionRow (row : ConnectionKey × ConnectionStats) : PanelRow where
  cells :=
    [endpoint row.1.family row.1.saddr row.1.sport, endpoint row.1.family row.1.daddr row.1.dport,
      stateName row.2.state, decimal row.2.retransmits, stateAnnotation row.2.state]
  style := if row.2.retransmitting then .yellowBold else .default

/-- The header, given the number of connections, and of those that retransmit. -/
def networkHeader (total retransmitting : ℕ) : Text :=
  headerStart target uptime ++ decimal total ++ " connections, ".toList ++
    decimal retransmitting ++ " retransmitting  |  (Tab to cycle panels)".toList

/-- `draw_network`. -/
def drawNetwork (rows : List (ConnectionKey × ConnectionStats)) : Panel where
  title := "peekbeam — Network".toList
  header := networkHeader target uptime rows.length
    (rows.filter fun row => row.2.retransmitting).length
  columns := ["Local", "Remote", "State", "Retransmits", "What it means"].map String.toList
  rows := (sortByCount (fun row => row.2.retransmits) rows).map connectionRow
  footer :=
    "Ctrl+C or 'q' to quit — detaches all probes cleanly. Bytes sent/received not available ".toList
      ++ "on this host (no kernel BTF for a CO-RE socket-stats read).".toList

/-! ### Memory -/

/-- The rows on the memory of the target, and the footer. -/
def memoryRows : Except Text MemReport → List PanelRow × Text
  | .error _ => ([], "unavailable: no live processes found for this target (may have exited)".toList)
  | .ok (.Cgroup currentBytes anonBytes fileBytes activeAnonBytes inactiveAnonBytes) =>
    ([cells ["Total (memory.current)".toList, formatBytes fixed currentBytes,
        "charged to this cgroup: anon + file cache + kernel structures".toList],
      cells ["Anonymous".toList, formatBytes fixed anonBytes,
        "heap/stack memory, not backed by a file".toList],
      cells ["File cache".toList, formatBytes fixed fileBytes,
        "file-backed memory, reclaimable under pressure".toList],
      cells ["Active anon".toList, formatBytes fixed activeAnonBytes,
        "anon memory used recently, unlikely to be reclaimed soon".toList],
      cells ["Inactive anon".toList, formatBytes fixed inactiveAnonBytes,
        "anon memory not used recently, first candidate if swap is needed".toList]],
      "Source: cgroup memory controller.".toList)
  | .ok (.Process rssBytes anonBytes fileBytes shmemBytes numProcesses) =>
    ([cells ["RSS (VmRSS)".toList, formatBytes fixed rssBytes,
        "resident memory summed across ".toList ++ decimal numProcesses ++ " process(es)".toList],
      cells ["Anonymous".toList, formatBytes fixed anonBytes,
        "heap/stack memory, not backed by a file".toList],
      cells ["File-backed".toList, formatBytes fixed fileBytes,
        "mapped/cached file pages, reclaimable under pressure".toList],
      cells ["Shared".toList, formatBytes fixed shmemBytes,
        "shared memory (tmpfs, shm segments)".toList]],
      "Source: /proc/<pid>/status (cgroup memory controller not delegated on this host).".toList)

def allocRows (memEvents : MemEventStats) : List PanelRow :=
  [cells ["Kernel allocs".toList,
      decimal memEvents.allocCount ++ " (".toList ++ formatBytes fixed memEvents.allocBytes ++
        ")".toList,
      "kmalloc calls attributed to this target, and their total requested size".toList],
    cells ["Kernel frees".toList, decimal memEvents.freeCount,
      "kfree calls attributed to this target".toList]]

def faultRows : Except Text FaultStats → List PanelRow
  | .error _ => []
  | .ok f =>
    [cells ["Minor faults".toList, decimal f.minFlt.toNat,
        "page already in memory, just needed a new mapping (cheap)".toList],
      cells ["Major faults".toList, decimal f.majFlt.toNat,
        "page had to be read from disk/swap (signals memory pressure)".toList]]

/-- `draw_memory`. -/
def drawMemory (fs : Files) (memoryTarget : MemoryTarget) (memEvents : MemEventStats) : Panel :=
  let (tableRows, footer) := memoryRows fixed (readMemory fs memoryTarget)
  { title := "peekbeam — Memory".toList
    header := headerStart target uptime ++ "(Tab to cycle panels)".toList
    columns := ["Metric", "Value", "What it means"].map String.toList
    rows := tableRows ++ allocRows fixed memEvents ++ faultRows (readFaults fs memoryTarget)
    footer }

/-! ### Files -/

/-- A path in the room there is for it.  `truncate_middle` does not panic (`pathCell_eq`). -/
def pathCell (path : Text) : Text := (truncateMiddle path 50).getD []

def fileRow (row : FileRow) : PanelRow where
  cells :=
    [pathCell row.2.path, decimal row.1.1.toNat ++ ':' :: decimalInt row.1.2.toInt,
      if row.2.closed then "closed".toList else "open".toList,
      formatBytes fixed row.2.bytesRead, formatBytes fixed row.2.bytesWritten]
  style := if row.2.closed then .default else .green

/-- The header, given the numbers of open files and of all. -/
def filesHeader (openCount total : ℕ) : Text :=
  headerStart target uptime ++ decimal openCount ++ " open, ".toList ++ decimal total ++
    " total  |  (Tab to cycle panels)".toList

/-- `draw_files`. -/
def drawFiles (rows : List FileRow) : Panel where
  title := "peekbeam — Files".toList
  header := filesHeader target uptime (rows.filter fun row => !row.2.closed).length rows.length
  columns := ["Path", "pid:fd", "Status", "Read", "Written"].map String.toList
  rows := (drawnFiles rows).map (fileRow fixed)
  footer := "Ctrl+C or 'q' to quit — detaches all probes cleanly. Green = currently open.".toList

end Draw

/-- What a redraw shows, for the chosen view and order. -/
def drawView (fixed : ℕ → Float → Text) (subject : Subject) (view : View) (sortBy : SortBy)
    (around : Surroundings) (t : Tables) : Panel :=
  match view with
  | .Syscalls =>
    drawSyscalls fixed subject.label around.uptimeSecs subject.names sortBy
      (around.order.stats t.syscalls.stats)
  | .Network =>
    drawNetwork subject.label around.uptimeSecs (around.order.connections t.connections)
  | .Memory =>
    drawMemory fixed subject.label around.uptimeSecs around.files subject.memoryTarget t.memEvents
  | .Files => drawFiles fixed subject.label around.uptimeSecs (around.order.files t.files)

/-! ## What the panels show -/

/-- A row for each entry of a map, and no others, in descending order of a number. -/
def Panel.Shows {κ ν : Type} (panel : Panel) (m : FinMap κ ν) (draw : κ × ν → PanelRow)
    (key : κ × ν → ℕ) : Prop :=
  ∃ rows : List (κ × ν), panel.rows = rows.map draw ∧ rows.Perm (tableRows m) ∧
    rows.Pairwise fun a b => key b ≤ key a

lemma pairwise_sortByCount {α : Type} (key : α → ℕ) (rows : List α) :
    (sortByCount key rows).Pairwise fun a b => key b ≤ key a := by
  have hsorted : (sortByCount key rows).Pairwise fun a b => decide (key b ≤ key a) = true :=
    List.pairwise_mergeSort
      (fun a b c hab hbc => by
        simp only [decide_eq_true_eq] at hab hbc ⊢
        exact hbc.trans hab)
      (fun a b => by simpa using Nat.le_total (key b) (key a)) rows
  exact hsorted.imp fun hab => by simpa using hab

/-- Rows that are sorted by a number before they are drawn. -/
lemma shows_sortByCount {κ ν : Type} {panel : Panel} {m : FinMap κ ν} {draw : κ × ν → PanelRow}
    {key : κ × ν → ℕ} {rows : List (κ × ν)} (hrows : RowsIn m rows)
    (h : panel.rows = (sortByCount key rows).map draw) : panel.Shows m draw key :=
  ⟨_, h, (List.mergeSort_perm _ _).trans hrows, pairwise_sortByCount key rows⟩

/-- A number of the rows that does not depend on their order. -/
lemma length_filter_rows {κ ν : Type} {m : FinMap κ ν} {rows : List (κ × ν)}
    (hrows : RowsIn m rows) (p : κ × ν → Bool) :
    (rows.filter p).length = ((tableRows m).filter p).length :=
  (hrows.filter p).length_eq

lemma seen_eq_sum (t : SyscallTable) :
    t.seen = ((tableRows t.stats).map fun row => row.2.count).sum := by
  rw [tableRows, List.map_map]
  rfl

/-- **The panels show the tables.**  Whatever the order of the hash maps, each of the three lists
has a row for every entry and no others, sorted by its column, and the totals in the headers are
those of the table. -/
theorem panels_show_tables (fixed : ℕ → Float → Text) (subject : Subject) (sortBy : SortBy)
    (around : Surroundings) (t : Tables) :
    let panel := fun view => drawView fixed subject view sortBy around t
    ((panel .Syscalls).Shows t.syscalls.stats (syscallRow fixed subject.names) sortBy.key ∧
      (panel .Syscalls).header =
        syscallsHeader subject.label around.uptimeSecs sortBy t.syscalls.seen) ∧
    ((panel .Network).Shows t.connections connectionRow (fun row => row.2.retransmits) ∧
      (panel .Network).header = networkHeader subject.label around.uptimeSecs
        (tableRows t.connections).length
        ((tableRows t.connections).filter fun row => row.2.retransmitting).length) ∧
    (panel .Files).Shows t.files (fileRow fixed)
        (fun row => (row.2.bytesRead + row.2.bytesWritten).toNat) ∧
      (panel .Files).header = filesHeader subject.label around.uptimeSecs
        ((tableRows t.files).filter fun row => !row.2.closed).length
        (tableRows t.files).length := by
  intro panel
  have hstats := around.order.stats_rows t.syscalls.stats
  have hconnections := around.order.connections_rows t.connections
  have hfiles := around.order.files_rows t.files
  refine ⟨⟨shows_sortByCount hstats rfl, ?_⟩, ⟨shows_sortByCount hconnections rfl, ?_⟩, ?_, ?_⟩
  · show syscallsHeader _ _ _ _ = _
    rw [seen_eq_sum, (hstats.map _).sum_eq]
  · show networkHeader _ _ _ _ = _
    rw [length_filter_rows hconnections, hconnections.length_eq]
  · exact ⟨_, rfl, (List.mergeSort_perm _ _).trans hfiles, pairwise_sortDescending fun _ _ => rfl⟩
  · show filesHeader _ _ _ _ = _
    rw [length_filter_rows hfiles, hfiles.length_eq]

/-- A sorted list begins with what is not zero. -/
lemma map_pos_of_pairwise {α : Type} {key : α → ℕ} {rows : List α}
    (h : rows.Pairwise fun a b => key b ≤ key a) :
    rows.map (fun row => decide (key row > 0)) =
      List.replicate (rows.filter fun row => key row > 0).length true ++
        List.replicate (rows.filter fun row => !decide (key row > 0)).length false := by
  induction rows with
  | nil => rfl
  | cons row rows ih =>
    obtain ⟨hrow, hrows⟩ := List.pairwise_cons.mp h
    by_cases hpos : key row > 0
    · simp [hpos, ih hrows, List.replicate_succ]
    · have hzero : ∀ row' ∈ rows, ¬ key row' > 0 := fun row' hrow' => by
        have := hrow row' hrow'
        omega
      have hnone : rows.filter (fun row => decide (key row > 0)) = [] :=
        List.filter_eq_nil_iff.mpr fun row' hrow' => by simpa using hzero row' hrow'
      simp [hpos, ih hrows, hnone, List.replicate_succ]

lemma pathCell_eq (path : Text) : truncateMiddle path 50 = some (pathCell path) := by
  have hsome : ∃ shown, truncateMiddle path 50 = some shown := by
    by_cases hfits : path.length ≤ 50
    · exact ⟨_, truncateMiddle_of_fits (Or.inl hfits)⟩
    · exact ⟨_, truncateMiddle_of_long (by omega) (by omega)⟩
  obtain ⟨shown, hshown⟩ := hsome
  rw [pathCell, hshown, Option.getD_some]

lemma length_pathCell (path : Text) : (pathCell path).length ≤ 50 := by
  by_cases hfits : path.length ≤ 50
  · rw [pathCell, truncateMiddle_of_fits (Or.inl hfits), Option.getD_some]
    exact hfits
  · have hlong : 50 < path.length := by omega
    rw [pathCell, truncateMiddle_of_long hlong (by omega), Option.getD_some,
      length_truncated hlong (by omega)]

lemma style_fileRow (fixed : ℕ → Float → Text) (row : FileRow) :
    (fileRow fixed row).style = .green ↔ row.2.closed = false := by
  show (if row.2.closed then Style.default else Style.green) = .green ↔ _
  cases row.2.closed <;> simp

/-- **The rows that stand out are those the header counts.**  In the network panel they are the
first ones, and as many as connections are said to retransmit; in the file panel there are as many
as files are said to be open. -/
theorem highlights_add_up (fixed : ℕ → Float → Text) (subject : Subject) (sortBy : SortBy)
    (around : Surroundings) (t : Tables) :
    let panel := fun view => drawView fixed subject view sortBy around t
    (∃ r rest, (panel .Network).header =
        networkHeader subject.label around.uptimeSecs (r + rest) r ∧
      (panel .Network).rows.map PanelRow.style =
        List.replicate r .yellowBold ++ List.replicate rest .default) ∧
    ∃ openCount total, (panel .Files).header =
        filesHeader subject.label around.uptimeSecs openCount total ∧
      (panel .Files).rows.length = total ∧
      ((panel .Files).rows.filter fun row => row.style = .green).length = openCount ∧
      ∀ row ∈ (panel .Files).rows, ∀ path ∈ row.cells.head?, path.length ≤ 50 := by
  intro panel
  constructor
  · set rows := around.order.connections t.connections with hrows
    set retransmits : ConnectionKey × ConnectionStats → ℕ := fun row => row.2.retransmits
    set sorted := sortByCount retransmits rows with hsorted
    have hperm : sorted.Perm rows := List.mergeSort_perm _ _
    refine ⟨(sorted.filter fun row => retransmits row > 0).length,
      (sorted.filter fun row => !decide (retransmits row > 0)).length, ?_, ?_⟩
    · show networkHeader _ _ rows.length _ = _
      have hsplit := List.length_eq_length_filter_add (l := sorted)
        fun row => decide (retransmits row > 0)
      rw [← hsplit, hperm.length_eq, (hperm.filter _).length_eq]
      rfl
    · have hstyle : PanelRow.style ∘ connectionRow =
          (fun b => if b then Style.yellowBold else Style.default) ∘
            fun row => decide (retransmits row > 0) := rfl
      show (sorted.map connectionRow).map PanelRow.style = _
      rw [List.map_map, hstyle, ← List.map_map,
        map_pos_of_pairwise (pairwise_sortByCount retransmits rows), List.map_append,
        List.map_replicate, List.map_replicate]
      rfl
  · set rows := around.order.files t.files with hrows
    have hperm : (drawnFiles rows).Perm rows := List.mergeSort_perm _ _
    refine ⟨_, _, rfl, ?_, ?_, fun row hrow path hpath => ?_⟩
    · show ((drawnFiles rows).map (fileRow fixed)).length = rows.length
      rw [List.length_map, hperm.length_eq]
    · show (((drawnFiles rows).map (fileRow fixed)).filter fun row => row.style = .green).length = _
      have hgreen : (fun row => decide ((fileRow fixed row).style = .green)) =
          fun row : FileRow => !row.2.closed := by
        funext row
        simp only [style_fileRow]
        cases row.2.closed <;> rfl
      rw [List.filter_map, List.length_map, ← (hperm.filter _).length_eq]
      exact congrArg (fun p => ((drawnFiles rows).filter p).length) hgreen
    · obtain ⟨file, -, rfl⟩ := List.mem_map.mp hrow
      obtain rfl : pathCell file.2.path = path := Option.some.inj hpath
      exact length_pathCell _

end Peekbeam
