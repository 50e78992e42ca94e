import Peekbeam.Foundation.JsonReader
import Peekbeam.HeadlessRuns

/-!
# Reading the stream back

With `--json` the summaries are documents of many lines, and a consumer that reads line by line is
lost (`Headless.lean`).  A consumer that reads JSON values is not: `readSummaries` finds the
documents by their brackets and looks every field up by its name, and gets back the summaries that
were printed (`json_stream_reads_back`).

What `serde_json` does with floating-point numbers is a parameter.
-/

namespace Peekbeam

open Json

/-! ## The consumer -/

/-- An unsigned integer that fits. -/
def asU64 (v : Value) : Option UInt64 :=
  v.asNat.bind fun n => if n < 2 ^ 64 then some (UInt64.ofNat n) else none

def asU32 (v : Value) : Option UInt32 :=
  v.asNat.bind fun n => if n < 2 ^ 32 then some (UInt32.ofNat n) else none

/-- A signed integer that fits. -/
def asI32 (v : Value) : Option Int32 :=
  v.asInt.bind fun i => if (Int32.ofInt i).toInt = i then some (Int32.ofInt i) else none

@[simp] lemma asU64_canonical (n : UInt64) : asU64 (u64 n).canonical = some n := by
  rw [u64, canonical, asU64, asNat, Option.bind_some, if_pos n.toNat_lt, UInt64.ofNat_toNat]

@[simp] lemma asU32_canonical (n : UInt32) : asU32 (canonical (.nat n.toNat)) = some n := by
  rw [canonical, asU32, asNat, Option.bind_some, if_pos n.toNat_lt, UInt32.ofNat_toNat]

@[simp] lemma asI32_canonical (i : Int32) : asI32 (canonical (.int i.toInt)) = some i := by
  rw [asI32, asInt_canonical_int, Option.bind_some, Int32.ofInt_toInt, if_pos rfl]

/-- A field of a written object is found by its name. -/
lemma field_object (name : String) (fields : List (String × Value)) :
    (object fields).canonical.field name =
      (fields.find? fun field => field.1 = name).map fun field => field.2.canonical := by
  rw [object, canonical, field]
  induction fields with
  | nil => rfl
  | cons f fields ih =>
    rw [List.map_cons, canonicalFields, List.find?_cons, List.find?_cons]
    by_cases h : f.1 = name
    · simp [h]
    · have hne : f.1.toList ≠ name.toList := fun heq => h (String.toList_injective heq)
      simpa [h, hne] using ih

def SyscallSummary.ofValue (v : Value) : Option SyscallSummary := do
  let name ← (← v.field "name").asStr
  let category ← (← v.field "category").asStr
  let count ← asU64 (← v.field "count")
  let totalUs ← (← v.field "total_us").asFloat
  let avgUs ← (← v.field "avg_us").asFloat
  some { name, category, count, totalUs, avgUs }

def ConnectionSummary.ofValue (v : Value) : Option ConnectionSummary := do
  let localAddr ← (← v.field "local").asStr
  let remote ← (← v.field "remote").asStr
  let state ← (← v.field "state").asStr
  let retransmits ← asU64 (← v.field "retransmits")
  some { localAddr, remote, state, retransmits }

def FileSummary.ofValue (v : Value) : Option FileSummary := do
  let path ← (← v.field "path").asStr
  let pid ← asU32 (← v.field "pid")
  let fd ← asI32 (← v.field "fd")
  let status ← (← v.field "status").asStr
  let bytesRead ← asU64 (← v.field "bytes_read")
  let bytesWritten ← asU64 (← v.field "bytes_written")
  some { path, pid, fd, status, bytesRead, bytesWritten }

/-- The source tells which fields there are. -/
def MemorySummary.ofValue (v : Value) : Option MemorySummary := do
  let source ← (← v.field "source").asStr
  let anonBytes ← asU64 (← v.field "anon_bytes")
  let fileBytes ← asU64 (← v.field "file_bytes")
  if source = "cgroup".toList then
    let currentBytes ← asU64 (← v.field "current_bytes")
    let activeAnonBytes ← asU64 (← v.field "active_anon_bytes")
    let inactiveAnonBytes ← asU64 (← v.field "inactive_anon_bytes")
    some (.Cgroup currentBytes anonBytes fileBytes activeAnonBytes inactiveAnonBytes)
  else
    let rssBytes ← asU64 (← v.field "rss_bytes")
    let shmemBytes ← asU64 (← v.field "shmem_bytes")
    let numProcesses ← (← v.field "num_processes").asNat
    some (.Proc rssBytes anonBytes fileBytes shmemBytes numProcesses)

def FaultSummary.ofValue (v : Value) : Option FaultSummary := do
  let minor ← asU64 (← v.field "minor")
  let major ← asU64 (← v.field "major")
  some { minor, major }

def Summary.ofValue (v : Value) : Option Summary := do
  let target ← (← v.field "target").asStr
  let uptimeSecs ← asU64 (← v.field "uptime_secs")
  let syscalls ← (← v.field "syscalls").asList SyscallSummary.ofValue
  let connections ← (← v.field "connections").asList ConnectionSummary.ofValue
  let files ← (← v.field "files").asList FileSummary.ofValue
  let kernelAllocs ← asU64 (← v.field "kernel_allocs")
  let kernelAllocBytes ← asU64 (← v.field "kernel_alloc_bytes")
  let kernelFrees ← asU64 (← v.field "kernel_frees")
  let memory ← (← v.field "memory").asOption MemorySummary.ofValue
  let pageFaults ← (← v.field "page_faults").asOption FaultSummary.ofValue
  some { target, uptimeSecs, syscalls, connections, files, kernelAllocs, kernelAllocBytes,
         kernelFrees, memory, pageFaults }

/-- The summaries of an output. -/
def readSummaries (readFloat : Text → Option Float) (text : Text) : Option (List Summary) :=
  (readStream readFloat text).bind fun vs => vs.mapM Summary.ofValue

/-! ## What was written is read -/

lemma SyscallSummary.ofValue_toValue (s : SyscallSummary) :
    ofValue s.toValue.canonical = some s := by
  simp [ofValue, toValue, field_object]

lemma ConnectionSummary.ofValue_toValue (c : ConnectionSummary) :
    ofValue c.toValue.canonical = some c := by
  simp [ofValue, toValue, field_object]

lemma FileSummary.ofValue_toValue (f : FileSummary) : ofValue f.toValue.canonical = some f := by
  simp [ofValue, toValue, field_object]

lemma MemorySummary.ofValue_toValue (m : MemorySummary) :
    ofValue m.toValue.canonical = some m := by
  cases m with
  | Cgroup => simp [ofValue, toValue, field_object, -String.reduceToList]
  | Proc =>
    have hsource : "proc".toList ≠ "cgroup".toList := by decide
    simp [ofValue, toValue, field_object, hsource, -String.reduceToList]

lemma FaultSummary.ofValue_toValue (f : FaultSummary) : ofValue f.toValue.canonical = some f := by
  simp [ofValue, toValue, field_object]

lemma asOption_canonical {α : Type} {write : α → Value} {part : Value → Option α}
    (h : ∀ a, part (write a).canonical = some a) (hnull : ∀ a, (write a).canonical ≠ .null)
    (o : Option α) : (optional write o).canonical.asOption part = some o := by
  cases o with
  | none => rfl
  | some a =>
    rw [optional, asOption]
    · rw [h]
      rfl
    · exact hnull a

lemma Summary.ofValue_toValue (s : Summary) : ofValue s.toValue.canonical = some s := by
  have hmemory : ∀ m : MemorySummary, m.toValue.canonical ≠ .null := fun m => by
    cases m <;> simp [MemorySummary.toValue, object, canonical]
  have hfaults : ∀ f : FaultSummary, f.toValue.canonical ≠ .null := fun f => by
    simp [FaultSummary.toValue, object, canonical]
  simp [ofValue, toValue, Summary.fields, field_object,
    asList_canonical_arr SyscallSummary.ofValue_toValue,
    asList_canonical_arr ConnectionSummary.ofValue_toValue,
    asList_canonical_arr FileSummary.ofValue_toValue,
    asOption_canonical MemorySummary.ofValue_toValue hmemory,
    asOption_canonical FaultSummary.ofValue_toValue hfaults]

lemma mem_floats_object {x : Float} {fields : List (String × Value)} :
    x ∈ (object fields).floats ↔ ∃ field ∈ fields, x ∈ field.2.floats := by
  rw [object, floats, mem_floatsFields]
  constructor
  · rintro ⟨_, hfield, hx⟩
    obtain ⟨field, hmem, rfl⟩ := List.mem_map.mp hfield
    exact ⟨field, hmem, hx⟩
  · rintro ⟨field, hmem, hx⟩
    exact ⟨_, List.mem_map_of_mem hmem, hx⟩

/-- The only floating-point numbers are the times of the syscalls. -/
lemma mem_floats_toValue {s : Summary} {x : Float} (h : x ∈ s.toValue.floats) :
    ∃ row ∈ s.syscalls, x = row.totalUs ∨ x = row.avgUs := by
  have hconnection : ∀ c : ConnectionSummary, x ∉ c.toValue.floats := fun c => by
    simp [ConnectionSummary.toValue, mem_floats_object, u64, floats]
  have hfile : ∀ f : FileSummary, x ∉ f.toValue.floats := fun f => by
    simp [FileSummary.toValue, mem_floats_object, u64, floats]
  have hmemory : x ∉ (optional MemorySummary.toValue s.memory).floats := by
    rcases s.memory with _ | m
    · simp [optional, floats]
    · cases m <;> simp [optional, MemorySummary.toValue, mem_floats_object, u64, floats]
  have hfaults : x ∉ (optional FaultSummary.toValue s.pageFaults).floats := by
    cases s.pageFaults <;>
      simp [optional, FaultSummary.toValue, mem_floats_object, u64, floats]
  have hsyscalls : x ∈ floats (.arr (s.syscalls.map SyscallSummary.toValue)) := by
    simpa [Summary.toValue, Summary.fields, mem_floats_object, u64, floats, mem_floatsItems,
      hconnection, hfile, hmemory, hfaults] using h
  rw [floats, mem_floatsItems] at hsyscalls
  obtain ⟨_, hmem, hx⟩ := hsyscalls
  obtain ⟨row, hrow, rfl⟩ := List.mem_map.mp hmem
  exact ⟨row, hrow, by simpa [SyscallSummary.toValue, mem_floats_object, u64, floats] using hx⟩

/-- **The output is read back.**  Let the pretty printer write numbers such that the consumer reads
the times back.  Then it gets the summaries that were printed, in their order, from whatever was
printed so far. -/
theorem json_stream_reads_back {ε : Type} {toStringPretty : Value → Except ε Text}
    {showFloat : Float → Text} (hpretty : ∀ v, toStringPretty v = .ok (v.pretty showFloat 0))
    {readFloat : Text → Option Float} (fixed : ℕ → Float → Text) {emitted : List Summary}
    (htimes : ∀ s ∈ emitted, ∀ row ∈ s.syscalls, ReadsBack readFloat showFloat row.totalUs ∧
      ReadsBack readFloat showFloat row.avgUs) :
    readSummaries readFloat
      (Framing.unlines '\n' (headlessOutput toStringPretty fixed true emitted)) =
        some emitted := by
  have htext : headlessOutput toStringPretty fixed true emitted =
      (emitted.map Summary.toValue).map (pretty showFloat 0) := by
    rw [headlessOutput, List.map_map]
    refine List.map_congr_left fun s _ => ?_
    rw [if_pos rfl, Summary.toJson, hpretty]
    rfl
  have hfloats : ∀ v ∈ emitted.map Summary.toValue, ∀ x ∈ v.floats,
      ReadsBack readFloat showFloat x := by
    intro v hv x hx
    obtain ⟨s, hs, rfl⟩ := List.mem_map.mp hv
    obtain ⟨row, hrow, rfl | rfl⟩ := mem_floats_toValue hx
    · exact (htimes s hs row hrow).1
    · exact (htimes s hs row hrow).2
  rw [readSummaries, htext, readStream_unlines hfloats, Option.bind_some, List.map_map]
  exact mapM_map_eq_some Summary.ofValue_toValue emitted

/-- Two summaries, the first with a syscall that took no time and a descriptor below zero. -/
def twoSummaries : List Summary :=
  let last : Summary :=
    { target := "PID 1".toList, uptimeSecs := 2, syscalls := [], connections := [], files := []
      kernelAllocs := 0, kernelAllocBytes := 0, kernelFrees := 0
      memory := none, pageFaults := some { minor := 3, major := 0 } }
  [{ last with
      uptimeSecs := 1
      syscalls := [{ name := "read".toList, category := "file".toList, count := 1, totalUs := 0,
                     avgUs := 0 }]
      files := [{ path := "a\"b\n".toList, pid := 1, fd := -1, status := "open".toList,
                  bytesRead := 0, bytesWritten := 0 }] }, last]

def showZero : Float → Text := fun _ => "0.0".toList

def readZero (text : Text) : Option Float := if text = "0.0".toList then some 0 else none

theorem json_stream_reads_back_twoSummaries :
    readSummaries readZero (Framing.unlines '\n'
      (headlessOutput (fun v => (.ok (v.pretty showZero 0) : Except Unit Text))
        (fun _ => showZero) true twoSummaries)) = some twoSummaries := by
  have hzero : ReadsBack readZero showZero 0 :=
    ⟨List.all_eq_true.mp (by decide), by decide, if_pos rfl⟩
  refine json_stream_reads_back (fun _ => rfl) (fun _ => showZero) fun s hs row hrow => ?_
  have hrow : row.totalUs = 0 ∧ row.avgUs = 0 := by
    simp only [twoSummaries, List.mem_cons, List.not_mem_nil, or_false] at hs
    rcases hs with rfl | rfl
    · rw [List.mem_singleton.mp hrow]
      exact ⟨rfl, rfl⟩
    · exact absurd hrow List.not_mem_nil
  rw [hrow.1, hrow.2]
  exact ⟨hzero, hzero⟩

end Peekbeam
