import Peekbeam.Common
import Peekbeam.Foundation.FinMap

/-!
# What an in-kernel program sees

A handler of `peekbeam-ebpf` runs once per firing of its tracepoint.  Its inputs are a
`TracePointContext` — the process it fired in and the tracepoint record — and the answers of
the BPF helpers and maps it calls (`Helpers`).  Both are arbitrary here: a run of the tracer is
a run under any record contents and any pattern of failures.

The record is a function from offsets to bytes, read in place by `TracePointContext.readAt`
at the type the handler asks for (`RecordField`, little-endian as on the traced host).
`Kernel` is the memory the handlers share: the BPF maps of the object file, each with the
capacity it is declared with, and the four ring buffers.
-/

namespace Peekbeam

/-! ## Records -/

/-- A type a record field can be read at; `decode` is given the bytes from the field's offset
on. -/
class RecordField (α : Type) where
  decode : (ℕ → UInt8) → α

/-- The little-endian value of the first `n` bytes. -/
def leNat : ℕ → (ℕ → UInt8) → ℕ
  | 0, _ => 0
  | n + 1, b => (b 0).toNat + 256 * leNat n (fun i => b (i + 1))

instance : RecordField UInt16 := ⟨fun b => UInt16.ofNat (leNat 2 b)⟩
instance : RecordField UInt64 := ⟨fun b => UInt64.ofNat (leNat 8 b)⟩
instance : RecordField Int32 := ⟨fun b => (UInt32.ofNat (leNat 4 b)).toInt32⟩
instance : RecordField Int64 := ⟨fun b => (UInt64.ofNat (leNat 8 b)).toInt64⟩
instance {n : ℕ} : RecordField (Vector UInt8 n) := ⟨fun b => Vector.ofFn fun i => b i⟩

/-- The two bytes of a port or of a small address. -/
lemma toNat_two_bytes (v : UInt16) :
    v.toUInt8.toNat + 256 * (v >>> 8).toUInt8.toNat = v.toNat := by
  have := v.toNat_lt
  simp [UInt16.toNat_shiftRight, Nat.shiftRight_eq_div_pow]
  omega

/-- The context of one firing: the process it fired in, the bytes of the tracepoint record, and
the offsets at which reading the record fails, with the error. -/
structure TracePointContext where
  tgid : UInt32
  record : ℕ → UInt8
  readError : ℕ → Option Int32

namespace TracePointContext

/-- The value of the field at `off`. -/
def field (ctx : TracePointContext) (α : Type) [RecordField α] (off : ℕ) : α :=
  RecordField.decode fun i => ctx.record (off + i)

/-- `ctx.read_at::<α>(off)`. -/
def readAt (ctx : TracePointContext) (α : Type) [RecordField α] (off : ℕ) : Except Int32 α :=
  match ctx.readError off with
  | some e => .error e
  | none => .ok (ctx.field α off)

/-- Every field of the record can be read. -/
def Readable (ctx : TracePointContext) : Prop := ∀ off, ctx.readError off = none

lemma readAt_of_readError_none {ctx : TracePointContext} {α : Type} [RecordField α] {off : ℕ}
    (h : ctx.readError off = none) : ctx.readAt α off = .ok (ctx.field α off) := by
  simp [readAt, h]

lemma readAt_of_readError {ctx : TracePointContext} {α : Type} [RecordField α] {off : ℕ}
    {e : Int32} (h : ctx.readError off = some e) : ctx.readAt α off = .error e := by
  simp [readAt, h]

lemma field_of_readAt_ok {ctx : TracePointContext} {α : Type} [RecordField α] {off : ℕ} {v : α}
    (h : ctx.readAt α off = .ok v) : v = ctx.field α off := by
  unfold readAt at h
  split at h
  · simp at h
  · exact (Except.ok.inj h).symm

/-- A computation that starts with a read and succeeds continues with the field. -/
lemma of_readAt_bind_ok {ctx : TracePointContext} {α β : Type} [RecordField α] {off : ℕ}
    {g : α → Except Int32 β} {b : β} (h : (ctx.readAt α off >>= g) = .ok b) :
    g (ctx.field α off) = .ok b := by
  unfold readAt at h
  split at h
  · simp [bind, Except.bind] at h
  · exact h

@[simp] lemma Readable.readAt {ctx : TracePointContext} (h : ctx.Readable) (α : Type)
    [RecordField α] (off : ℕ) : ctx.readAt α off = .ok (ctx.field α off) :=
  readAt_of_readError_none (h off)

end TracePointContext

/-! ## Helpers -/

/-- What the BPF helpers and maps answer during one firing.  A handler writes at most one map
and at most one record per ring, so one answer of each kind is enough. -/
structure Helpers where
  /-- `bpf_get_current_cgroup_id`. -/
  currentCgroupId : UInt64
  /-- `bpf_ktime_get_ns`, at its first call and at its second. -/
  ktimeNs : UInt64
  laterKtimeNs : UInt64
  /-- The NUL-free bytes of the user string at an address, or the error of reading it. -/
  userString : UInt64 → Except Int32 (List UInt8)
  /-- An error of a map insertion other than a full map. -/
  insertError : Option Int32
  /-- The outcome of `output` on each ring. -/
  eventsError : Option Int32
  netEventsError : Option Int32
  fileEventsError : Option Int32
  memEventsError : Option Int32

/-- Helpers that answer at `time` in cgroup 0, without failures and with empty user strings. -/
def Helpers.plain (time : UInt64) : Helpers where
  currentCgroupId := 0
  ktimeNs := time
  laterKtimeNs := time
  userString := fun _ => .ok []
  insertError := none
  eventsError := none
  netEventsError := none
  fileEventsError := none
  memEventsError := none

/-- `bpf_probe_read_user_str_bytes` into a zeroed buffer of `n` bytes: the buffer, and the
length of the string captured.  At most `n - 1` bytes are captured, the terminating NUL taking
the last place. -/
def Helpers.probeReadUserStrBytes (h : Helpers) (ptr : UInt64) (n : ℕ) :
    Except Int32 (Vector UInt8 n × ℕ) :=
  match h.userString ptr with
  | .error e => .error e
  | .ok text =>
    let captured := text.take (n - 1)
    .ok (Vector.ofFn fun i => captured.getD i 0, captured.length)

/-! ## Maps -/

/-- A BPF hash map with `cap` entries. -/
abbrev BpfHashMap (κ ν : Type) (cap : ℕ) := BoundedMap κ ν cap

/-- `-E2BIG`, the answer of a full map to a new key. -/
def E2BIG : Int32 := -7

/-- `HashMap::insert(key, value, 0)`: fails when the map is full and the key is new, and may
fail for a reason of its own. -/
def BpfHashMap.insert {κ ν : Type} [DecidableEq κ] {cap : ℕ} (m : BpfHashMap κ ν cap) (k : κ)
    (v : ν) (err : Option Int32) : Except Int32 (BpfHashMap κ ν cap) :=
  match err with
  | some e => .error e
  | none =>
    match BoundedMap.insert m k v with
    | some m' => .ok m'
    | none => .error E2BIG

/-- `let _ = map.insert(..)`: the map after an insertion whose result is discarded. -/
def BpfHashMap.tryInsert {κ ν : Type} [DecidableEq κ] {cap : ℕ} (m : BpfHashMap κ ν cap) (k : κ)
    (v : ν) (err : Option Int32) : BpfHashMap κ ν cap :=
  match BpfHashMap.insert m k v err with
  | .ok m' => m'
  | .error _ => m

section Maps
variable {κ ν : Type} [DecidableEq κ] {cap : ℕ}

lemma BpfHashMap.get_of_insert_ok {m m' : BpfHashMap κ ν cap} {k : κ} {v : ν}
    {err : Option Int32} (h : BpfHashMap.insert m k v err = .ok m') (k' : κ) :
    m'.get k' = if k' = k then some v else m.get k' := by
  unfold BpfHashMap.insert at h
  split at h
  · simp at h
  · split at h
    · rename_i hm
      obtain rfl := Except.ok.inj h
      exact BoundedMap.get_of_insert hm k'
    · simp at h

/-- An insertion succeeds when it meets no error of its own and the key can be written. -/
lemma BpfHashMap.insert_eq_ok_iff {m : BpfHashMap κ ν cap} {k : κ} {v : ν}
    {err : Option Int32} :
    (∃ m', BpfHashMap.insert m k v err = .ok m') ↔ err = none ∧ m.HasRoom k := by
  unfold BpfHashMap.insert
  cases err with
  | some e => simp
  | none =>
    have : BoundedMap.insert m k v = none ↔ ¬ m.HasRoom k := BoundedMap.insert_eq_none
    cases h : BoundedMap.insert m k v <;> simp_all

/-- A discarded insertion writes the key if it could be written, and else changes nothing. -/
lemma BpfHashMap.get_tryInsert (m : BpfHashMap κ ν cap) (k k' : κ) (v : ν)
    (err : Option Int32) :
    (BpfHashMap.tryInsert m k v err).get k' =
      if k' = k ∧ err = none ∧ m.HasRoom k then some v else m.get k' := by
  unfold BpfHashMap.tryInsert
  cases h : BpfHashMap.insert m k v err with
  | ok m' =>
    have hok := BpfHashMap.insert_eq_ok_iff.mp ⟨m', h⟩
    simp [BpfHashMap.get_of_insert_ok h, hok]
  | error e =>
    have hno : ¬ (err = none ∧ m.HasRoom k) := fun hok => by
      obtain ⟨m', hm'⟩ := BpfHashMap.insert_eq_ok_iff.mpr hok
      rw [h] at hm'
      simp at hm'
    rw [if_neg fun hk => hno hk.2]

/-- A discarded insertion of a new key that cannot fail adds the key. -/
lemma BpfHashMap.size_tryInsert {m : BpfHashMap κ ν cap} {k : κ} (v : ν) (hroom : m.HasRoom k)
    (hnew : m.get k = none) : (BpfHashMap.tryInsert m k v none).size = m.size + 1 := by
  unfold BpfHashMap.tryInsert BpfHashMap.insert
  cases hm : BoundedMap.insert m k v with
  | none => exact absurd hroom (BoundedMap.insert_eq_none.mp hm)
  | some m' => simpa [hnew] using BoundedMap.size_of_insert hm

end Maps

/-! ## The shared state -/

/-- A pending `openat`/`openat2` pathname, stashed at `sys_enter` and consumed at `sys_exit`. -/
structure PendingOpen where
  path : Vector UInt8 FILE_PATH_MAX
  pathLen : UInt16
  deriving DecidableEq

/-- The maps and ring buffers of `peekbeam-ebpf`. -/
structure Kernel where
  /-- `PID_FILTER`: the target PID, for `--pid` mode. -/
  pidFilter : BpfHashMap UInt32 UInt8 1
  /-- `CGROUP_FILTER`: the target's cgroup id, for `--container` mode. -/
  cgroupFilter : BpfHashMap UInt64 UInt8 1
  /-- `TRACKED_SOCKS`: sockets known to belong to the target, by `struct sock *` address. -/
  trackedSocks : BpfHashMap UInt64 UInt8 1024
  /-- `PENDING_OPEN_PATH`, keyed by tgid. -/
  pendingOpenPath : BpfHashMap UInt32 PendingOpen 128
  /-- `PENDING_FD`, keyed by tgid. -/
  pendingFd : BpfHashMap UInt32 Int32 128
  events : RingBuf SyscallEvent
  netEvents : RingBuf NetEvent
  fileEvents : RingBuf FileEvent
  memEvents : RingBuf MemEvent

/-- The target of a trace, as `main` resolves it: a process, a container or a pod, the latter
two by cgroup id. -/
inductive Target
  | Pid (pid : UInt32)
  | Container (cgroupId : UInt64)
  | Pod (cgroupId : UInt64)
  deriving DecidableEq

/-- The state the programs start from: `main` fills the filter of the target and nothing
else. -/
def Kernel.load (target : Target) : Kernel where
  pidFilter :=
    match target with
    | .Pid pid => BpfHashMap.tryInsert .empty pid 1 none
    | _ => .empty
  cgroupFilter :=
    match target with
    | .Pid _ => .empty
    | .Container cgroupId | .Pod cgroupId => BpfHashMap.tryInsert .empty cgroupId 1 none
  trackedSocks := .empty
  pendingOpenPath := .empty
  pendingFd := .empty
  events := []
  netEvents := []
  fileEvents := []
  memEvents := []

/-- `matches_target`: the firing process is the target PID, or its cgroup the target cgroup. -/
def Kernel.matchesTarget (k : Kernel) (h : Helpers) (pid : UInt32) : Bool :=
  if (k.pidFilter.get pid).isSome then true
  else (k.cgroupFilter.get h.currentCgroupId).isSome

/-- With a process as the target, a task matches when it is of that process. -/
lemma matchesTarget_load_pid_iff {h : Helpers} {pid current : UInt32} :
    (Kernel.load (.Pid pid)).matchesTarget h current = true ↔ current = pid := by
  have hroom : (BoundedMap.empty : BpfHashMap UInt32 UInt8 1).HasRoom pid :=
    Or.inr Nat.zero_lt_one
  simp [Kernel.matchesTarget, Kernel.load, BpfHashMap.get_tryInsert, hroom]

lemma matchesTarget_load_pid (h : Helpers) (pid : UInt32) :
    (Kernel.load (.Pid pid)).matchesTarget h pid = true :=
  matchesTarget_load_pid_iff.mpr rfl

end Peekbeam
