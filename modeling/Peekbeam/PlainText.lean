import Peekbeam.Foundation.FixedPoint
import Peekbeam.Foundation.Floating
import Peekbeam.Foundation.Lines
import Peekbeam.Foundation.Text
import Peekbeam.PathCapture
import Peekbeam.Summary

/-!
# The plain-text summary

`to_plain_text` writes a summary for a human reader: a header, a line for each syscall, connection
and file, and a few fixed lines.  All texts are written as they are.

It is a list of lines, each ended by a line feed (`toPlainText_eq`), so it can be split back into
those lines exactly if none of them contains one (`plain_text_lines_iff`).  The path of a file is
under the control of the traced process; one that contains a line feed can make one row look like
two (`forged_row`).

How a `f64` is written with a number of decimals is a parameter, `fixed`; Rust's way is
`formatFixed`.
-/

namespace Peekbeam

open FixedPoint Framing
open Float.Model.UnpackedFloat (Sign)

/-! ## Formatting -/

/-- A decimal number. -/
def decimal (n : ℕ) : Text := Nat.toDigits 10 n

def decimalInt (i : ℤ) : Text := if i < 0 then '-' :: decimal i.natAbs else decimal i.natAbs

/-- `{:<width}`. -/
def padRight (width : ℕ) (s : Text) : Text := s ++ List.replicate (width - s.length) ' '

/-- The loop of `format_bytes`, with `more` units left above `unit`. -/
def scaleDown : ℕ → Float → ℕ → Float × ℕ
  | 0, value, unit => (value, unit)
  | more + 1, value, unit =>
    if value ≥ 1024 then scaleDown more (value / 1024) (unit + 1) else (value, unit)

def UNITS : List Text := ["B", "KiB", "MiB", "GiB", "TiB"].map String.toList

/-- `format_bytes`. -/
def formatBytes (fixed : ℕ → Float → Text) (bytes : UInt64) : Text :=
  let (value, unit) := scaleDown (UNITS.length - 1) bytes.toFloat 0
  if unit = 0 then decimal bytes.toNat ++ ' ' :: UNITS.getD unit []
  else fixed 1 value ++ ' ' :: UNITS.getD unit []

def signText : Sign → Text
  | .negative => ['-']
  | .positive => []

/-- `{:.digits}`: the decimals of the exact value, rounded half to even. -/
def formatFixed (digits : ℕ) (x : Float) : Text :=
  match x.toModel.unpack with
  | .notANumber => "NaN".toList
  | .infinity s => signText s ++ "inf".toList
  | .zero s => signText s ++ toFixed digits 0
  | .finite s m e _ => signText s ++ toFixed digits (m * 2 ^ e)

/-! ## The report -/

/-- `writeln!`. -/
def writeln (line : Text) : Text := line ++ ['\n']

variable (fixed : ℕ → Float → Text)

def SyscallSummary.row (s : SyscallSummary) : Text :=
  "  ".toList ++ padRight 20 s.name ++ " count=".toList ++ padRight 8 (decimal s.count.toNat) ++
    " total=".toList ++ fixed 2 s.totalUs ++ "us avg=".toList ++ fixed 2 s.avgUs ++
    "us  [".toList ++ s.category ++ "]".toList

def ConnectionSummary.row (c : ConnectionSummary) : Text :=
  "  ".toList ++ c.localAddr ++ " -> ".toList ++ c.remote ++ "  state=".toList ++ c.state ++
    "  retransmits=".toList ++ decimal c.retransmits.toNat

def FileSummary.row (f : FileSummary) : Text :=
  "  ".toList ++ f.path ++ " (pid=".toList ++ decimal f.pid.toNat ++ ",fd=".toList ++
    decimalInt f.fd.toInt ++ ")  ".toList ++ f.status ++ "  read=".toList ++
    decimal f.bytesRead.toNat ++ " written=".toList ++ decimal f.bytesWritten.toNat

def FaultSummary.row (f : FaultSummary) : Text :=
  "Page faults: minor=".toList ++ decimal f.minor.toNat ++ " major=".toList ++
    decimal f.major.toNat

/-- The line on memory. -/
def memoryRow : Option MemorySummary → Text
  | some (.Cgroup currentBytes _ _ _ _) =>
    "Memory (cgroup): ".toList ++ formatBytes fixed currentBytes
  | some (.Proc rssBytes _ _ _ numProcesses) =>
    "Memory (proc): ".toList ++ formatBytes fixed rssBytes ++ " RSS across ".toList ++
      decimal numProcesses ++ " process(es)".toList
  | none => "Memory: unavailable".toList

namespace Summary

def header (s : Summary) : Text :=
  "peekbeam summary — ".toList ++ s.target ++ "  (uptime ".toList ++
    decimal s.uptimeSecs.toNat ++ "s)".toList

def allocsRow (s : Summary) : Text :=
  "Kernel allocs: ".toList ++ decimal s.kernelAllocs.toNat ++ " (".toList ++
    formatBytes fixed s.kernelAllocBytes ++ ")".toList

def freesRow (s : Summary) : Text := "Kernel frees: ".toList ++ decimal s.kernelFrees.toNat

/-- `Summary::to_plain_text`. -/
def toPlainText (s : Summary) : Text :=
  writeln s.header ++
    writeln "\nSyscalls:".toList ++ (s.syscalls.flatMap fun x => writeln (x.row fixed)) ++
    (if s.connections.isEmpty then []
      else writeln "\nConnections:".toList ++ s.connections.flatMap fun c => writeln c.row) ++
    (if s.files.isEmpty then []
      else writeln "\nFiles:".toList ++ s.files.flatMap fun f => writeln f.row) ++
    writeln ('\n' :: s.allocsRow fixed ++ '\n' :: s.freesRow) ++
    writeln (memoryRow fixed s.memory) ++
    match s.pageFaults with
    | some f => writeln f.row
    | none => []

/-! ## The lines -/

/-- A list of rows under a title, with a blank line above it, if there are any. -/
def titled (title : Text) (rows : List Text) : List Text :=
  if rows.isEmpty then [] else [] :: title :: rows

/-- The lines that are written. -/
def rows (s : Summary) : List Text :=
  [s.header, [], "Syscalls:".toList] ++ s.syscalls.map (·.row fixed) ++
    titled "Connections:".toList (s.connections.map (·.row)) ++
    titled "Files:".toList (s.files.map (·.row)) ++
    [[], s.allocsRow fixed, s.freesRow, memoryRow fixed s.memory] ++
    s.pageFaults.toList.map (·.row)

/-- How many there are: one for each item, besides fixed lines. -/
def lineCount (s : Summary) : ℕ :=
  7 + s.syscalls.length + (if s.connections.isEmpty then 0 else 2 + s.connections.length) +
    (if s.files.isEmpty then 0 else 2 + s.files.length) +
    (if s.pageFaults.isSome then 1 else 0)

lemma length_rows (s : Summary) : (s.rows fixed).length = s.lineCount := by
  have htitled : ∀ {α : Type} (title : Text) (row : α → Text) (l : List α),
      (titled title (l.map row)).length = if l.isEmpty then 0 else 2 + l.length := by
    intro α title row l
    cases l with
    | nil => rfl
    | cons a l => simp [titled]; omega
  unfold rows lineCount
  rw [List.length_append, List.length_append, List.length_append, List.length_append,
    List.length_append, htitled, htitled]
  cases s.pageFaults <;> simp <;> omega

lemma unlines_map {α : Type} (row : α → Text) (l : List α) :
    unlines '\n' (l.map row) = l.flatMap fun a => writeln (row a) := by
  simp [unlines, writeln, List.flatMap_map]

lemma unlines_titled {α : Type} (title : Text) (row : α → Text) (l : List α) :
    unlines '\n' (titled title (l.map row)) =
      if l.isEmpty then []
      else writeln ('\n' :: title) ++ l.flatMap fun a => writeln (row a) := by
  cases l with
  | nil => rfl
  | cons a l =>
    rw [titled, if_neg (by simp), if_neg (by simp), unlines_cons, unlines_cons, unlines_map]
    simp [writeln]

/-- **The report is its lines.** -/
lemma toPlainText_eq (s : Summary) : s.toPlainText fixed = unlines '\n' (s.rows fixed) := by
  have hhead : unlines '\n' [s.header, [], "Syscalls:".toList] =
      writeln s.header ++ writeln "\nSyscalls:".toList := by
    simp [unlines, writeln]
  have htail : unlines '\n' [[], s.allocsRow fixed, s.freesRow, memoryRow fixed s.memory] =
      writeln ('\n' :: s.allocsRow fixed ++ '\n' :: s.freesRow) ++
        writeln (memoryRow fixed s.memory) := by
    simp [unlines, writeln]
  have hfaults : unlines '\n' (s.pageFaults.toList.map (·.row)) =
      match s.pageFaults with
      | some f => writeln f.row
      | none => [] := by
    cases s.pageFaults <;> simp [unlines, writeln]
  have hconnections : "\nConnections:".toList = '\n' :: "Connections:".toList := rfl
  have hfiles : "\nFiles:".toList = '\n' :: "Files:".toList := rfl
  simp only [rows, unlines_append, unlines_map, unlines_titled, hhead, htail, hfaults,
    toPlainText, hconnections, hfiles, List.append_assoc]

end Summary

/-! ## Line feeds -/

section LineFeeds
variable {fixed}

lemma newline_decimal (n : ℕ) : '\n' ∉ decimal n := fun h =>
  absurd rfl (Str.of_isDigit (Str.isDigit_of_mem h)).2.2.1

lemma newline_decimalInt (i : ℤ) : '\n' ∉ decimalInt i := by
  unfold decimalInt
  split
  · simp [newline_decimal]
  · exact newline_decimal _

/-- No number has a line feed in it. -/
lemma newline_formatFixed (digits : ℕ) (x : Float) : '\n' ∉ formatFixed digits x := by
  have hfixed : ∀ q, '\n' ∉ toFixed digits q := not_mem_toFixed (by decide) (by decide) digits
  have hsign : ∀ s, '\n' ∉ signText s := fun s => by cases s <;> decide
  unfold formatFixed
  split <;> simp [hsign, hfixed]

lemma newline_padRight (width : ℕ) (s : Text) : '\n' ∈ padRight width s ↔ '\n' ∈ s := by
  simp [padRight]

lemma newline_unit (unit : ℕ) : '\n' ∉ UNITS.getD unit [] := by
  have hunits : ∀ u ∈ UNITS, '\n' ∉ u := by decide
  rw [List.getD_eq_getElem?_getD]
  cases hunit : UNITS[unit]? with
  | none => simp
  | some u => exact hunits u (List.mem_of_getElem? hunit)

lemma newline_formatBytes (hfixed : ∀ digits x, '\n' ∉ fixed digits x) (bytes : UInt64) :
    '\n' ∉ formatBytes fixed bytes := by
  have hspace : '\n' ≠ ' ' := by decide
  unfold formatBytes
  dsimp only
  split
  · simp only [List.mem_append, List.mem_cons, newline_decimal, newline_unit, hspace, or_self,
      not_false_eq_true]
  · simp only [List.mem_append, List.mem_cons, hfixed, newline_unit, hspace, or_self,
      not_false_eq_true]

/-! Each row has the line feeds of the texts in it. -/

lemma SyscallSummary.newline_row (hfixed : ∀ digits x, '\n' ∉ fixed digits x)
    (s : SyscallSummary) : '\n' ∉ s.row fixed ↔ '\n' ∉ s.name ∧ '\n' ∉ s.category := by
  unfold SyscallSummary.row
  simp [newline_decimal, newline_padRight, hfixed]

lemma ConnectionSummary.newline_row (c : ConnectionSummary) :
    '\n' ∉ c.row ↔ '\n' ∉ c.localAddr ∧ '\n' ∉ c.remote ∧ '\n' ∉ c.state := by
  unfold ConnectionSummary.row
  simp [newline_decimal]

lemma FileSummary.newline_row (f : FileSummary) :
    '\n' ∉ f.row ↔ '\n' ∉ f.path ∧ '\n' ∉ f.status := by
  unfold FileSummary.row
  simp [newline_decimal, newline_decimalInt]

lemma FaultSummary.newline_row (f : FaultSummary) : '\n' ∉ f.row := by
  unfold FaultSummary.row
  simp [newline_decimal]

lemma newline_memoryRow (hfixed : ∀ digits x, '\n' ∉ fixed digits x)
    (memory : Option MemorySummary) : '\n' ∉ memoryRow fixed memory := by
  unfold memoryRow
  split
  · simp [newline_formatBytes hfixed]
  · simp [newline_formatBytes hfixed, newline_decimal]
  · simp

namespace Summary

lemma newline_header (s : Summary) : '\n' ∉ s.header ↔ '\n' ∉ s.target := by
  unfold header
  simp [newline_decimal]

lemma newline_titled {α : Type} {title : Text} (htitle : '\n' ∉ title) (row : α → Text)
    (l : List α) : (∀ r ∈ titled title (l.map row), '\n' ∉ r) ↔ ∀ a ∈ l, '\n' ∉ row a := by
  cases l with
  | nil => simp [titled]
  | cons a l => simp [titled, htitle]

/-- No text in the summary contains a line feed. -/
structure SingleLine (s : Summary) : Prop where
  target : '\n' ∉ s.target
  syscalls : ∀ x ∈ s.syscalls, '\n' ∉ x.name ∧ '\n' ∉ x.category
  connections : ∀ c ∈ s.connections, '\n' ∉ c.localAddr ∧ '\n' ∉ c.remote ∧ '\n' ∉ c.state
  files : ∀ f ∈ s.files, '\n' ∉ f.path ∧ '\n' ∉ f.status

lemma newline_rows (hfixed : ∀ digits x, '\n' ∉ fixed digits x) (s : Summary) :
    (∀ r ∈ s.rows fixed, '\n' ∉ r) ↔ s.SingleLine := by
  have hallocs : '\n' ∉ s.allocsRow fixed := by
    unfold allocsRow
    simp [newline_decimal, newline_formatBytes hfixed]
  have hfrees : '\n' ∉ s.freesRow := by
    unfold freesRow
    simp [newline_decimal]
  have hfaults : ∀ r ∈ s.pageFaults.toList.map (·.row), '\n' ∉ r := by
    simp [FaultSummary.newline_row]
  have htitle : '\n' ∉ "Syscalls:".toList := by decide
  simp only [rows, List.forall_mem_append, List.forall_mem_cons, List.not_mem_nil,
    false_imp_iff, implies_true, and_true, List.forall_mem_map, newline_header, htitle,
    not_false_eq_true, SyscallSummary.newline_row hfixed,
    newline_titled (by decide : '\n' ∉ "Connections:".toList), ConnectionSummary.newline_row,
    newline_titled (by decide : '\n' ∉ "Files:".toList), FileSummary.newline_row, hallocs, hfrees,
    newline_memoryRow hfixed, FaultSummary.newline_row]
  exact ⟨fun ⟨⟨⟨htarget, hsyscalls⟩, hconnections⟩, hfiles⟩ =>
      ⟨htarget, hsyscalls, hconnections, hfiles⟩,
    fun h => ⟨⟨⟨h.target, h.syscalls⟩, h.connections⟩, h.files⟩⟩

end Summary

/-- **When the plain text shows what it lists**: exactly when no text in the summary contains a
line feed, there are as many lines as items and fixed lines, and splitting the text gives back one
row for each item. -/
theorem plain_text_lines_iff (hfixed : ∀ digits x, '\n' ∉ fixed digits x) (s : Summary) :
    ((lines '\n' (s.toPlainText fixed)).length = s.lineCount ∧
      lines '\n' (s.toPlainText fixed) = s.rows fixed) ↔ s.SingleLine := by
  rw [Summary.toPlainText_eq, ← Summary.length_rows fixed, length_lines_unlines_iff,
    lines_unlines_iff, and_self, Summary.newline_rows hfixed]

end LineFeeds

/-- A summary of files only. -/
def summaryOf (files : List FileSummary) : Summary where
  target := "pid 1".toList
  uptimeSecs := 60
  syscalls := []
  connections := []
  files
  kernelAllocs := 0
  kernelAllocBytes := 0
  kernelFrees := 0
  memory := none
  pageFaults := none

/-- A file that process 1 opened as descriptor 3. -/
def openFile (path : Text) : FileSummary where
  path
  pid := 1
  fd := 3
  status := "open".toList
  bytesRead := 0
  bytesWritten := 0

theorem plain_text_lines_iff_openFile :
    lines '\n' ((summaryOf [openFile "/a b".toList]).toPlainText formatFixed) =
      (summaryOf [openFile "/a b".toList]).rows formatFixed := by
  refine ((plain_text_lines_iff newline_formatFixed _).mpr ⟨by decide, ?_, ?_, ?_⟩).2
  · simp [summaryOf]
  · simp [summaryOf]
  · simp only [summaryOf, List.mem_singleton, forall_eq]
    decide

/-- A path of two lines, the first of which ends like the row of a file. -/
def forgedPath : Text := "a (pid=1,fd=3)  open  read=0 written=0\n  b".toList

/-- A process opens a file under this path, and the path is stored.  The report of the one file is
then the report of two. -/
theorem forged_row :
    (∃ stats, (drainFileEvents
        (afterSyscalls (.Pid 1) [entering forgedPath, returning]).fileEvents ∅).lookup (1, 3) =
        some stats ∧ stats.path = forgedPath) ∧
      (summaryOf [openFile forgedPath]).toPlainText formatFixed =
        (summaryOf [openFile ['a'], openFile ['b']]).toPlainText formatFixed ∧
      (lines '\n' ((summaryOf [openFile forgedPath]).toPlainText formatFixed)).length ≠
        (summaryOf [openFile forgedPath]).lineCount := by
  refine ⟨?_, ?_, ?_⟩
  · obtain ⟨stats, hlookup, hpath⟩ := displayed_path (openCall_entering forgedPath)
    have hwhole : captured (toUtf8 forgedPath) = toUtf8 forgedPath := by decide +kernel
    rw [returning_key] at hlookup
    rw [hwhole, fromUtf8Lossy_toUtf8] at hpath
    exact ⟨stats, hlookup, hpath⟩
  · have hrow : writeln (openFile forgedPath).row =
        writeln (openFile ['a']).row ++ writeln (openFile ['b']).row := by
      decide +kernel
    have hheader : (summaryOf [openFile forgedPath]).header =
        (summaryOf [openFile ['a'], openFile ['b']]).header := rfl
    have hallocs : (summaryOf [openFile forgedPath]).allocsRow formatFixed =
        (summaryOf [openFile ['a'], openFile ['b']]).allocsRow formatFixed := rfl
    have hfrees : (summaryOf [openFile forgedPath]).freesRow =
        (summaryOf [openFile ['a'], openFile ['b']]).freesRow := rfl
    unfold Summary.toPlainText
    rw [hheader, hallocs, hfrees]
    simp [summaryOf, hrow]
  · rw [Summary.toPlainText_eq, ← Summary.length_rows formatFixed]
    intro hlength
    have hrow : (openFile forgedPath).row ∈ (summaryOf [openFile forgedPath]).rows formatFixed := by
      simp [Summary.rows, summaryOf, Summary.titled]
    have hfree := (length_lines_unlines_iff.mp hlength) _ hrow
    rw [FileSummary.newline_row] at hfree
    exact hfree.1 (by decide +kernel)

end Peekbeam
