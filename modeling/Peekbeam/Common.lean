import Mathlib.Data.Nat.Notation
import Mathlib.Tactic.Lemma

/-!
# The shared event layout (`peekbeam-common`)

The four records the in-kernel programs write to their ring buffers and userspace reads back,
with the numeric constants both sides share.  Padding bytes carry no information and are left
out of the records; the size a record has in the ring (`WireSize`) is that of its `repr(C)`
layout, padding included.

A ring buffer is the list of the items in it, oldest first.  An item is a sized chunk of
memory: the consumer casts it to a record only after checking its length (`drain`).
-/

namespace Peekbeam

/-! ## Ring buffers -/

/-- The number of bytes a record type occupies in a ring buffer. -/
class WireSize (α : Type) where
  wireSize : ℕ

export WireSize (wireSize)

/-- One item of a ring buffer: its length, and what a cast of it to `α` reads. -/
structure RingBufItem (α : Type) where
  len : ℕ
  record : α
  deriving DecidableEq

/-- A ring buffer of records of type `α`, oldest item first. -/
abbrev RingBuf (α : Type) := List (RingBufItem α)

/-- The item a producer writes for a record. -/
def RingBufItem.of {α : Type} [WireSize α] (record : α) : RingBufItem α :=
  { len := wireSize α, record }

/-- `RingBuf::output`: append one record, or fail with `err` and leave the ring alone.  When
the ring has room is up to the consumer's pace, so failure is an input. -/
def RingBuf.output {α : Type} [WireSize α] (ring : RingBuf α) (record : α)
    (err : Option Int32) : Except Int32 (RingBuf α) :=
  match err with
  | some e => .error e
  | none => .ok (ring ++ [RingBufItem.of record])

/-- `while let Some(item) = ring_buf.next()`: items of the wrong length are skipped, the others
are read as records and folded into the state. -/
def drain {σ α : Type} [WireSize α] (step : σ → α → σ) (ring : RingBuf α) (s : σ) : σ :=
  ring.foldl (fun s item => if item.len ≠ wireSize α then s else step s item.record) s

/-- What a producer wrote is read back record by record. -/
@[simp] lemma drain_map_of {σ α : Type} [WireSize α] (step : σ → α → σ) (l : List α) (s : σ) :
    drain step (l.map RingBufItem.of) s = l.foldl step s := by
  simp [drain, List.foldl_map, RingBufItem.of]

/-- Draining in several goes is draining at once. -/
lemma drain_append {σ α : Type} [WireSize α] (step : σ → α → σ) (ring ring' : RingBuf α) (s : σ) :
    drain step (ring ++ ring') s = drain step ring' (drain step ring s) :=
  List.foldl_append

/-! ## Syscall events -/

inductive EventKind
  | Enter
  | Exit
  deriving DecidableEq, Repr

structure SyscallEvent where
  pid : UInt32
  kind : EventKind
  syscallNr : UInt64
  timestampNs : UInt64
  deriving DecidableEq

instance : WireSize SyscallEvent := ⟨24⟩

/-! ## Network events -/

inductive NetEventKind
  /-- Any TCP state transition; one to `TCP_CLOSE` marks the connection's end. -/
  | StateChange
  | Retransmit
  deriving DecidableEq, Repr

/-- A network event (FR3).  `state` and `family` are the kernel's own numeric constants. -/
structure NetEvent where
  kind : NetEventKind
  family : UInt16
  state : UInt16
  sport : UInt16
  dport : UInt16
  saddr : Vector UInt8 16
  daddr : Vector UInt8 16
  timestampNs : UInt64
  deriving DecidableEq

instance : WireSize NetEvent := ⟨56⟩

def AF_INET6 : UInt16 := 10
def TCP_CLOSE : UInt16 := 7

/-! ## File events -/

def FILE_PATH_MAX : ℕ := 64

inductive FileEventKind
  | Open
  | Close
  | Read
  | Write
  deriving DecidableEq, Repr

/-- A file access event (FR4); `path` and `pathLen` are only populated for `Open`. -/
structure FileEvent where
  pid : UInt32
  kind : FileEventKind
  fd : Int32
  bytes : Int64
  pathLen : UInt16
  path : Vector UInt8 FILE_PATH_MAX
  timestampNs : UInt64
  deriving DecidableEq

instance : WireSize FileEvent := ⟨104⟩

/-! ## Memory events -/

inductive MemEventKind
  | Alloc
  | Free
  deriving DecidableEq, Repr

structure MemEvent where
  pid : UInt32
  kind : MemEventKind
  bytes : UInt64
  timestampNs : UInt64
  deriving DecidableEq

instance : WireSize MemEvent := ⟨24⟩

end Peekbeam
