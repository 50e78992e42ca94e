import Peekbeam.FileTable
import Peekbeam.Foundation.Json

/-!
# Summaries

A `Summary` is a point-in-time snapshot of everything that was seen (FR7.2/FR7.3).  `toValue` is
the JSON value its derived serializer describes: a field per field, in the order of the
declaration, an absent part as `null`, and the memory part tagged with its source.

`serde_json` itself is a parameter: a function from values to text that may fail.
-/

namespace Peekbeam

/-! ## The parts -/

structure SyscallSummary where
  name : Text
  category : Text
  count : UInt64
  totalUs : Float
  avgUs : Float

structure ConnectionSummary where
  localAddr : Text
  remote : Text
  state : Text
  retransmits : UInt64

structure FileSummary where
  path : Text
  pid : UInt32
  fd : Int32
  status : Text
  bytesRead : UInt64
  bytesWritten : UInt64

inductive MemorySummary
  | Cgroup (currentBytes anonBytes fileBytes activeAnonBytes inactiveAnonBytes : UInt64)
  | Proc (rssBytes anonBytes fileBytes shmemBytes : UInt64) (numProcesses : ℕ)

structure FaultSummary where
  minor : UInt64
  major : UInt64

structure Summary where
  target : Text
  uptimeSecs : UInt64
  syscalls : List SyscallSummary
  connections : List ConnectionSummary
  files : List FileSummary
  kernelAllocs : UInt64
  kernelAllocBytes : UInt64
  kernelFrees : UInt64
  memory : Option MemorySummary
  pageFaults : Option FaultSummary

/-! ## Serialization -/

/-- A value of the serialized data. -/
abbrev Value := Json Float

/-- An object with literal field names. -/
def object (fields : List (String × Value)) : Value :=
  .obj (fields.map fun field => (field.1.toList, field.2))

def u64 (n : UInt64) : Value := .nat n.toNat

def SyscallSummary.toValue (s : SyscallSummary) : Value :=
  object [("name", .str s.name), ("category", .str s.category), ("count", u64 s.count),
    ("total_us", .float s.totalUs), ("avg_us", .float s.avgUs)]

def ConnectionSummary.toValue (c : ConnectionSummary) : Value :=
  object [("local", .str c.localAddr), ("remote", .str c.remote), ("state", .str c.state),
    ("retransmits", u64 c.retransmits)]

def FileSummary.toValue (f : FileSummary) : Value :=
  object [("path", .str f.path), ("pid", .nat f.pid.toNat), ("fd", .int f.fd.toInt),
    ("status", .str f.status), ("bytes_read", u64 f.bytesRead),
    ("bytes_written", u64 f.bytesWritten)]

def MemorySummary.toValue : MemorySummary → Value
  | .Cgroup currentBytes anonBytes fileBytes activeAnonBytes inactiveAnonBytes =>
    object [("source", .str "cgroup".toList), ("current_bytes", u64 currentBytes),
      ("anon_bytes", u64 anonBytes), ("file_bytes", u64 fileBytes),
      ("active_anon_bytes", u64 activeAnonBytes), ("inactive_anon_bytes", u64 inactiveAnonBytes)]
  | .Proc rssBytes anonBytes fileBytes shmemBytes numProcesses =>
    object [("source", .str "proc".toList), ("rss_bytes", u64 rssBytes),
      ("anon_bytes", u64 anonBytes), ("file_bytes", u64 fileBytes),
      ("shmem_bytes", u64 shmemBytes), ("num_processes", .nat numProcesses)]

def FaultSummary.toValue (f : FaultSummary) : Value :=
  object [("minor", u64 f.minor), ("major", u64 f.major)]

def optional {α : Type} (toValue : α → Value) : Option α → Value
  | none => .null
  | some a => toValue a

def Summary.fields (s : Summary) : List (String × Value) :=
  [("target", .str s.target), ("uptime_secs", u64 s.uptimeSecs),
    ("syscalls", .arr (s.syscalls.map SyscallSummary.toValue)),
    ("connections", .arr (s.connections.map ConnectionSummary.toValue)),
    ("files", .arr (s.files.map FileSummary.toValue)), ("kernel_allocs", u64 s.kernelAllocs),
    ("kernel_alloc_bytes", u64 s.kernelAllocBytes), ("kernel_frees", u64 s.kernelFrees),
    ("memory", optional MemorySummary.toValue s.memory),
    ("page_faults", optional FaultSummary.toValue s.pageFaults)]

def Summary.toValue (s : Summary) : Value := object s.fields

/-- `Summary::to_json`, given `serde_json::to_string_pretty`. -/
def Summary.toJson {ε : Type} (toStringPretty : Value → Except ε Text) (s : Summary) : Text :=
  match toStringPretty s.toValue with
  | .ok text => text
  | .error _ => ['\x7b', '\x7d']

/-- A summary is printed over several lines. -/
lemma Summary.newline_mem_toJson {ε : Type} {toStringPretty : Value → Except ε Text}
    (h : Json.FieldPerLine toStringPretty) (s : Summary) : '\n' ∈ s.toJson toStringPretty := by
  have hne : s.fields.map (fun field => (field.1.toList, field.2)) ≠ [] := by
    simp [Summary.fields]
  obtain ⟨text, htext, hmem⟩ := h.newline_mem hne
  have htext : toStringPretty s.toValue = .ok text := htext
  simpa only [Summary.toJson, htext] using hmem

end Peekbeam
