import Mathlib.Algebra.Ring.Nat
import Mathlib.Data.UInt
import Peekbeam.FileTable
import Peekbeam.Foundation.FinMap
import Peekbeam.Foundation.KeyedFold

/-!
# Draining file events

Userspace keeps one entry per descriptor of a process: the path it was opened with and the bytes
read and written through it.  `Open` starts a fresh entry and `Close` marks an existing one, while
`Read` and `Write` add to the entry whatever its state, making one with a placeholder path if
there is none.

`drain_file_events_meaning` reads the table of a whole stream off the events since the last open
of each descriptor.  `closed_row_frozen_iff` looks at an entry after its close: transfers are
still added to it, so it keeps its byte counts exactly while no byte is transferred under its
descriptor number.
-/

namespace Peekbeam

open History KeyedFold

/-! ## The file table -/

/-- One open (or previously-open) file descriptor for the target (FR4.1/4.2). -/
@[ext]
structure FileStats where
  path : Text
  bytesRead : UInt64
  bytesWritten : UInt64
  closed : Bool
  deriving DecidableEq

/-- `files`, by process and descriptor. -/
abbrev FilesMap := FinMap (UInt32 × Int32) FileStats

/-- The entry of a descriptor never seen opened. -/
def unknownFile : FileStats where
  path := "<unknown, opened before trace started>".toList
  bytesRead := 0
  bytesWritten := 0
  closed := false

@[simp] lemma unknownFile_bytesRead : unknownFile.bytesRead = 0 := rfl
@[simp] lemma unknownFile_bytesWritten : unknownFile.bytesWritten = 0 := rfl
@[simp] lemma unknownFile_closed : unknownFile.closed = false := rfl

/-- The entry a file event concerns. -/
def FileEvent.key (event : FileEvent) : UInt32 × Int32 := (event.pid, event.fd)

/-- The entry an `Open` starts. -/
def openedFile (event : FileEvent) : FileStats where
  path := formatPath event.path.toList event.pathLen
  bytesRead := 0
  bytesWritten := 0
  closed := false

/-- One iteration of `drain_file_events`. -/
def drainFileOne (files : FilesMap) (event : FileEvent) : FilesMap :=
  match event.kind with
  | .Open => files.insert event.key (openedFile event)
  | .Close =>
    match files.lookup event.key with
    | none => files
    | some entry => files.insert event.key { entry with closed := true }
  | .Read =>
    files.upsert event.key unknownFile fun entry =>
      { entry with bytesRead := entry.bytesRead + event.bytes.toUInt64 }
  | .Write =>
    files.upsert event.key unknownFile fun entry =>
      { entry with bytesWritten := entry.bytesWritten + event.bytes.toUInt64 }

/-- `drain_file_events`. -/
def drainFileEvents (ring : RingBuf FileEvent) (files : FilesMap) : FilesMap :=
  drain drainFileOne ring files

/-- Draining records written in full folds their events. -/
lemma drainFileEvents_map_of (es : List FileEvent) :
    drainFileEvents (es.map RingBufItem.of) ∅ = es.foldl drainFileOne ∅ := by
  rw [drainFileEvents, drain_map_of]

/-! ## One event -/

/-- The bytes an event adds to the counter of its kind. -/
def FileEvent.bytesOf (kind : FileEventKind) (event : FileEvent) : UInt64 :=
  if event.kind = kind then event.bytes.toUInt64 else 0

/-- An entry after an event of its descriptor other than an open. -/
def FileStats.account (entry : FileStats) (event : FileEvent) : FileStats where
  path := entry.path
  bytesRead := entry.bytesRead + event.bytesOf .Read
  bytesWritten := entry.bytesWritten + event.bytesOf .Write
  closed := entry.closed || event.kind = .Close

/-- What an event makes of the entry of its descriptor. -/
def FileEvent.update (entry : Option FileStats) (event : FileEvent) : Option FileStats :=
  match event.kind with
  | .Open => some (openedFile event)
  | .Close => entry.map fun entry => entry.account event
  | .Read | .Write => some ((entry.getD unknownFile).account event)

/-- **One event, one entry.** -/
lemma drainFileOne_local :
    Local (fun files : FilesMap => files.lookup) FileEvent.key FileEvent.update
      drainFileOne := by
  intro files event k
  unfold drainFileOne FileEvent.update FileStats.account FileEvent.bytesOf
  by_cases hk : event.key = k
  · subst hk
    cases hkind : event.kind with
    | Close => cases hentry : files.lookup event.key <;> simp [hentry]
    | Open | Read | Write => simp [FinMap.lookup_upsert]
  · cases hkind : event.kind with
    | Close =>
      cases hentry : files.lookup event.key <;>
        simp [hk, Ne.symm hk]
    | Open | Read | Write => simp [hk, FinMap.lookup_upsert, Ne.symm hk]

/-! ## Runs of events of one descriptor -/

/-- The event starts the entry of its descriptor afresh. -/
def FileEvent.opens (event : FileEvent) : Bool := event.kind = .Open

/-- The event reports a transfer. -/
def FileEvent.transfers (event : FileEvent) : Bool := event.kind = .Read ∨ event.kind = .Write

/-- Bytes transferred by the events of one kind. -/
def bytesIn (kind : FileEventKind) (es : List FileEvent) : ℕ :=
  ((es.filter fun e => e.kind = kind).map fun e => e.bytes.toNatClampNeg).sum

lemma bytesIn_cons (kind : FileEventKind) (e : FileEvent) (es : List FileEvent) :
    bytesIn kind (e :: es) = (if e.kind = kind then e.bytes.toNatClampNeg else 0) +
      bytesIn kind es := by
  by_cases h : e.kind = kind <;> simp [bytesIn, h]

/-- The counters of an entry add up the transfers, modulo `2 ^ 64`. -/
lemma toNat_foldl_bytesOf {es : List FileEvent} (h : ∀ e ∈ es, 0 ≤ e.bytes)
    (kind : FileEventKind) (n : UInt64) :
    (es.foldl (fun n e => n + e.bytesOf kind) n).toNat = (n.toNat + bytesIn kind es) % 2 ^ 64 := by
  induction es generalizing n with
  | nil => simp [bytesIn]
  | cons e es ih =>
    rw [List.foldl_cons, ih fun e' he' => h e' (List.mem_cons_of_mem _ he'), bytesIn_cons]
    by_cases hk : e.kind = kind
    · simp [FileEvent.bytesOf, hk, UInt64.toNat_add, Int64.toNat_toUInt64_of_le (h e (by simp)),
        Nat.add_assoc]
    · simp [FileEvent.bytesOf, hk]

lemma foldl_account (entry : FileStats) (es : List FileEvent) :
    es.foldl FileStats.account entry =
      { path := entry.path
        bytesRead := es.foldl (fun n e => n + e.bytesOf .Read) entry.bytesRead
        bytesWritten := es.foldl (fun n e => n + e.bytesOf .Write) entry.bytesWritten
        closed := entry.closed || es.any fun e => e.kind = .Close } := by
  induction es generalizing entry with
  | nil => simp
  | cons e es ih => simp [ih, FileStats.account, Bool.or_assoc]

lemma update_some {e : FileEvent} (h : e.opens = false) (entry : FileStats) :
    FileEvent.update (some entry) e = some (entry.account e) := by
  unfold FileEvent.update
  cases hkind : e.kind <;> simp_all [FileEvent.opens]

/-- An entry after events of its descriptor without an open among them. -/
lemma foldl_update_some {es : List FileEvent} (h : ∀ e ∈ es, e.opens = false)
    (entry : FileStats) :
    es.foldl FileEvent.update (some entry) = some (es.foldl FileStats.account entry) := by
  induction es generalizing entry with
  | nil => rfl
  | cons e es ih =>
    rw [List.foldl_cons, update_some (h e (by simp)),
      ih fun e' he' => h e' (List.mem_cons_of_mem _ he'), List.foldl_cons]

/-- A descriptor not seen opened has an entry from its first transfer on. -/
lemma foldl_update_none {es : List FileEvent} (h : ∀ e ∈ es, e.opens = false) :
    es.foldl FileEvent.update none =
      if es.any FileEvent.transfers then
        some ((es.dropWhile fun e => !e.transfers).foldl FileStats.account unknownFile)
      else none := by
  induction es with
  | nil => rfl
  | cons e es ih =>
    have hopens := h e (by simp)
    have hrest := fun e' he' => h e' (List.mem_cons_of_mem _ he')
    rw [List.foldl_cons]
    by_cases ht : e.transfers = true
    · have hupdate : FileEvent.update none e = some (unknownFile.account e) := by
        unfold FileEvent.update
        cases hkind : e.kind <;> simp_all [FileEvent.opens, FileEvent.transfers]
      rw [hupdate, foldl_update_some hrest]
      simp [ht]
    · have hupdate : FileEvent.update none e = none := by
        unfold FileEvent.update
        cases hkind : e.kind <;> simp_all [FileEvent.opens, FileEvent.transfers]
      rw [hupdate, ih hrest]
      simp [ht]

/-! ## Whole streams -/

/-- The last open of descriptor `k`. -/
def lastOpen (es : List FileEvent) (k : UInt32 × Int32) : Option FileEvent :=
  lastWhere FileEvent.opens (stream FileEvent.key k es)

/-- The events of descriptor `k` since its last open, or all of them if it was never opened. -/
def sinceOpen (es : List FileEvent) (k : UInt32 × Int32) : List FileEvent :=
  since FileEvent.opens (stream FileEvent.key k es)

/-- The events of descriptor `k` since its last open or, if it was never opened, from its first
transfer on. -/
def sinceEntry (es : List FileEvent) (k : UInt32 × Int32) : List FileEvent :=
  match lastOpen es k with
  | some _ => sinceOpen es k
  | none => (sinceOpen es k).dropWhile fun e => !e.transfers

/-- The entry of `k` is started by its last open, or else by its first transfer, and has seen
every event of `k` since. -/
lemma lookup_drainFileEvents (es : List FileEvent) (k : UInt32 × Int32) :
    (es.foldl drainFileOne ∅).lookup k =
      match lastOpen es k with
      | some o => some ((sinceEntry es k).foldl FileStats.account (openedFile o))
      | none =>
        if (sinceOpen es k).any FileEvent.transfers then
          some ((sinceEntry es k).foldl FileStats.account unknownFile)
        else none := by
  have hreset : ∀ e, FileEvent.opens e = true → ∀ v v',
      FileEvent.update v e = FileEvent.update v' e := fun e he v v' => by
    have hkind : e.kind = .Open := by simpa [FileEvent.opens] using he
    simp [FileEvent.update, hkind]
  have hopens : ∀ e ∈ sinceOpen es k, e.opens = false := fun e he => resets_of_mem_since he
  rw [drainFileOne_local.foldl, AList.lookup_empty, foldl_since hreset]
  change (sinceOpen es k).foldl FileEvent.update ((lastOpen es k).elim none _) = _
  cases hlast : lastOpen es k with
  | none => simpa [sinceEntry, hlast] using foldl_update_none hopens
  | some o =>
    have ho : FileEvent.update none o = some (openedFile o) := by
      have hkind : o.kind = .Open := by simpa [FileEvent.opens] using (mem_of_lastWhere hlast).2
      simp [FileEvent.update, hkind]
    simpa [sinceEntry, hlast, ho] using foldl_update_some hopens (openedFile o)

/-- What lies before the first transfer transfers nothing. -/
lemma bytesIn_sinceEntry {kind : FileEventKind} (hkind : kind = .Read ∨ kind = .Write)
    (es : List FileEvent) (k : UInt32 × Int32) :
    bytesIn kind (sinceEntry es k) = bytesIn kind (sinceOpen es k) := by
  have hdrop : ∀ es, bytesIn kind (es.dropWhile fun e => !e.transfers) = bytesIn kind es := by
    intro es
    induction es with
    | nil => rfl
    | cons e es ih =>
      rw [List.dropWhile_cons]
      split
      · rename_i ht
        have hne : e.kind ≠ kind := fun he => by
          simp [FileEvent.transfers, he, hkind] at ht
        rw [ih, bytesIn_cons, if_neg hne, Nat.zero_add]
      · rfl
  unfold sinceEntry
  split
  · rfl
  · exact hdrop _

/-- The counters of a fresh entry after its events. -/
lemma toNat_account {es : List FileEvent} {k : UInt32 × Int32} {kind : FileEventKind}
    (hkind : kind = .Read ∨ kind = .Write) (hbytes : ∀ e ∈ es, 0 ≤ e.bytes)
    (hsum : bytesIn kind (sinceOpen es k) < 2 ^ 64) :
    ((sinceEntry es k).foldl (fun n e => n + FileEvent.bytesOf kind e) 0).toNat =
      bytesIn kind (sinceOpen es k) := by
  have hmem : ∀ e ∈ sinceEntry es k, e ∈ es := by
    intro e he
    have : e ∈ sinceOpen es k := by
      unfold sinceEntry at he
      split at he
      · exact he
      · exact (List.dropWhile_suffix _).mem he
    exact List.mem_of_mem_filter ((List.rtakeWhile_suffix _ _).mem this)
  rw [toNat_foldl_bytesOf fun e he => hbytes e (hmem e he), bytesIn_sinceEntry hkind]
  simpa using Nat.mod_eq_of_lt hsum

/-- A descriptor has an entry once it was opened, read or written. -/
lemma isSome_drainFileEvents (es : List FileEvent) (k : UInt32 × Int32) :
    ((es.foldl drainFileOne ∅).lookup k).isSome ↔ ∃ e ∈ es, e.key = k ∧ e.kind ≠ .Close := by
  rw [lookup_drainFileEvents]
  cases hlast : lastOpen es k with
  | some o =>
    obtain ⟨hmem, ho⟩ := mem_of_lastWhere hlast
    obtain ⟨hmem, hkey⟩ := List.mem_filter.mp hmem
    simp only [Option.isSome_some, true_iff]
    exact ⟨o, hmem, by simpa using hkey, by simp_all [FileEvent.opens]⟩
  | none =>
    have hsince : sinceOpen es k = stream FileEvent.key k es := since_eq_self hlast
    have hopen : ∀ e ∈ es, e.kind = .Open → e.key ≠ k := by
      simpa [lastOpen, lastWhere, List.filter_eq_nil_iff, stream, FileEvent.opens] using hlast
    have : (sinceOpen es k).any FileEvent.transfers ↔
        ∃ e ∈ es, e.key = k ∧ e.kind ≠ .Close := by
      rw [hsince, List.any_eq_true]
      constructor
      · rintro ⟨e, he, ht⟩
        obtain ⟨he, hkey⟩ := List.mem_filter.mp he
        refine ⟨e, he, by simpa using hkey, fun hclose => ?_⟩
        simp [FileEvent.transfers, hclose] at ht
      · rintro ⟨e, he, hkey, hclose⟩
        refine ⟨e, List.mem_filter.mpr ⟨he, by simpa using hkey⟩, ?_⟩
        have hne : e.kind ≠ .Open := fun ho => hopen e he ho hkey
        cases hkind : e.kind <;> simp_all [FileEvent.transfers]
    rw [← this]
    split <;> simp_all

/-- **`drain_file_events` is its look-back definition.**  A descriptor has an entry once it was
opened, read or written.  The entry has the path of the last open, or the placeholder, and counts
exactly the bytes read and written since; and it is closed when a close came after that open or,
if there was none, after the first transfer.  The events of other descriptors do not matter. -/
theorem drain_file_events_meaning (es : List FileEvent) (k : UInt32 × Int32)
    (hbytes : ∀ e ∈ es, 0 ≤ e.bytes)
    (hread : bytesIn .Read (sinceOpen es k) < 2 ^ 64)
    (hwritten : bytesIn .Write (sinceOpen es k) < 2 ^ 64) :
    (((drainFileEvents (es.map RingBufItem.of) ∅).lookup k).isSome ↔
      ∃ e ∈ es, e.key = k ∧ e.kind ≠ .Close) ∧
    (∀ stats, (drainFileEvents (es.map RingBufItem.of) ∅).lookup k = some stats →
      stats.bytesRead.toNat = bytesIn .Read (sinceOpen es k) ∧
      stats.bytesWritten.toNat = bytesIn .Write (sinceOpen es k) ∧
      stats.path = (lastOpen es k).elim unknownFile.path
        (fun o => formatPath o.path.toList o.pathLen) ∧
      (stats.closed = true ↔ ∃ e ∈ sinceEntry es k, e.kind = .Close)) ∧
    ∀ es', stream FileEvent.key k es = stream FileEvent.key k es' →
      (drainFileEvents (es.map RingBufItem.of) ∅).lookup k =
        (drainFileEvents (es'.map RingBufItem.of) ∅).lookup k := by
  simp only [drainFileEvents_map_of]
  refine ⟨isSome_drainFileEvents es k, fun stats hstats => ?_,
    fun es' h => drainFileOne_local.foldl_congr ∅ h⟩
  have hread := toNat_account (Or.inl rfl) hbytes hread
  have hwritten := toNat_account (Or.inr rfl) hbytes hwritten
  rw [lookup_drainFileEvents] at hstats
  cases hlast : lastOpen es k with
  | some o =>
    rw [hlast] at hstats
    rw [← Option.some.inj hstats, foldl_account]
    exact ⟨hread, hwritten, rfl, by simp [openedFile]⟩
  | none =>
    rw [hlast] at hstats
    dsimp only at hstats
    split at hstats
    · rw [← Option.some.inj hstats, foldl_account]
      exact ⟨hread, hwritten, rfl, by simp⟩
    · simp at hstats

/-- An event of descriptor 3 of process 1. -/
def onFd3 (kind : FileEventKind) (bytes : Int64) : FileEvent where
  pid := 1
  kind
  fd := 3
  bytes
  pathLen := 0
  path := .replicate FILE_PATH_MAX 0
  timestampNs := 0

/-- A descriptor read from, closed, opened, read from twice and closed again, with a read of
descriptor 4 in between. -/
def reopened : List FileEvent :=
  [onFd3 .Read 5, onFd3 .Close 0, onFd3 .Open 0, onFd3 .Read 7, { onFd3 .Read 9 with fd := 4 },
    onFd3 .Read 4, onFd3 .Close 0]

theorem drain_file_events_meaning_reopened :
    (drainFileEvents (reopened.map RingBufItem.of) ∅).lookup (1, 3) = some ⟨[], 11, 0, true⟩ ∧
      (11 : UInt64).toNat = bytesIn .Read (sinceOpen reopened (1, 3)) ∧
      (drainFileEvents (reopened.map RingBufItem.of) ∅).lookup (1, 3) =
        (drainFileEvents ((stream FileEvent.key (1, 3) reopened).map RingBufItem.of) ∅).lookup
          (1, 3) := by
  have hlookup : (drainFileEvents (reopened.map RingBufItem.of) ∅).lookup (1, 3) =
      some ⟨[], 11, 0, true⟩ := by decide +kernel
  have hmeaning := drain_file_events_meaning reopened (1, 3) (by decide +kernel)
    (by decide +kernel) (by decide +kernel)
  exact ⟨hlookup, (hmeaning.2.1 _ hlookup).1, hmeaning.2.2 _ (by decide +kernel)⟩

/-! ## Rows of closed files -/

/-- The row of descriptor `k` after the stream `es`. -/
def row (es : List FileEvent) (k : UInt32 × Int32) : Option FileStats :=
  (drainFileEvents (es.map RingBufItem.of) ∅).lookup k

/-- Once the row of `k` is marked closed it keeps its path and its byte counts until the next
open of `k`. -/
def ClosedRowFrozen (es : List FileEvent) (k : UInt32 × Int32) : Prop :=
  ∀ pre mid, pre ++ mid <+: es → (∀ e ∈ mid, e.key = k → e.kind ≠ .Open) →
    ∀ entry, row pre k = some entry → entry.closed = true →
      ∃ entry', row (pre ++ mid) k = some entry' ∧ entry'.path = entry.path ∧
        entry'.bytesRead = entry.bytesRead ∧ entry'.bytesWritten = entry.bytesWritten

/-- No bytes are transferred under descriptor number `k` after a close that closed its row. -/
def NoTransferWhenClosed (es : List FileEvent) (k : UInt32 × Int32) : Prop :=
  Stepwise (fun pre e => e.key = k → e.transfers = true →
    (∃ c ∈ sinceEntry pre k, c.kind = .Close) → e.bytes = 0) es

lemma row_eq (es : List FileEvent) (k : UInt32 × Int32) :
    row es k = (es.foldl drainFileOne ∅).lookup k := by
  rw [row, drainFileEvents_map_of]

lemma row_concat (es : List FileEvent) (e : FileEvent) (k : UInt32 × Int32) :
    row (es ++ [e]) k = if e.key = k then FileEvent.update (row es k) e else row es k := by
  rw [row_eq, row_eq, List.foldl_append]
  exact drainFileOne_local _ _ _

/-- A row is closed by a close that finds it. -/
lemma closed_row_iff (es : List FileEvent) (k : UInt32 × Int32) :
    (∃ entry, row es k = some entry ∧ entry.closed = true) ↔
      ∃ c ∈ sinceEntry es k, c.kind = .Close := by
  have hclosed : ∀ entry : FileStats, entry.closed = false →
      (((sinceEntry es k).foldl FileStats.account entry).closed = true ↔
        ∃ c ∈ sinceEntry es k, c.kind = .Close) := fun entry h => by
    simp [foldl_account, h]
  rw [row_eq, lookup_drainFileEvents]
  cases hlast : lastOpen es k with
  | some o => simpa using hclosed (openedFile o) rfl
  | none =>
    dsimp only
    split
    · simpa using hclosed unknownFile rfl
    · rename_i hany
      have hnil : sinceEntry es k = [] := by
        simpa [sinceEntry, hlast, List.dropWhile_eq_nil_iff] using hany
      simp [hnil]

/-- An event leaves the byte counts of an entry alone when it transfers nothing. -/
lemma account_bytes_iff (entry : FileStats) (e : FileEvent) :
    (entry.account e).bytesRead = entry.bytesRead ∧
        (entry.account e).bytesWritten = entry.bytesWritten ↔
      (e.transfers = true → e.bytes = 0) := by
  have hzero : e.bytes.toUInt64 = 0 ↔ e.bytes = 0 :=
    ⟨fun h => by simpa using congrArg UInt64.toInt64 h, fun h => h ▸ rfl⟩
  cases hkind : e.kind <;>
    simp [FileStats.account, FileEvent.bytesOf, FileEvent.transfers, hkind, hzero]

/-- **A closed row stays as it is exactly while nothing is transferred under its number.** -/
theorem closed_row_frozen_iff (es : List FileEvent) (k : UInt32 × Int32) :
    ClosedRowFrozen es k ↔ NoTransferWhenClosed es k := by
  constructor
  · rintro h pre e post rfl rfl ht hclose
    obtain ⟨entry, hrow, hclosed⟩ := (closed_row_iff pre e.key).mpr hclose
    have hopens : e.kind ≠ .Open := fun ho => by simp [FileEvent.transfers, ho] at ht
    obtain ⟨entry', hrow', -, hbytes⟩ :=
      h pre [e] ⟨post, by simp⟩ (by simpa using hopens) entry hrow hclosed
    rw [row_concat, if_pos rfl, hrow,
      update_some (by simpa [FileEvent.opens] using hopens)] at hrow'
    obtain rfl := Option.some.inj hrow'
    exact (account_bytes_iff entry e).mp hbytes ht
  · intro h pre mid hprefix hopen entry hrow hclosed
    -- the row moreover stays closed
    suffices ∃ entry', row (pre ++ mid) k = some entry' ∧ entry'.path = entry.path ∧
        (entry'.bytesRead = entry.bytesRead ∧ entry'.bytesWritten = entry.bytesWritten) ∧
        entry'.closed = true by
      obtain ⟨entry', hrow', hpath, ⟨hread, hwritten⟩, -⟩ := this
      exact ⟨entry', hrow', hpath, hread, hwritten⟩
    induction mid using List.reverseRecOn with
    | nil => exact ⟨entry, by simpa using hrow, rfl, ⟨rfl, rfl⟩, hclosed⟩
    | append_singleton mid e ih =>
      rw [← List.append_assoc] at hprefix ⊢
      obtain ⟨post, hpost⟩ := hprefix
      obtain ⟨entry', hrow', hpath, hbytes, hclosed'⟩ :=
        ih ⟨e :: post, by simp [← hpost]⟩ fun e' he' => hopen e' (List.mem_append_left _ he')
      rw [row_concat]
      by_cases hk : e.key = k
      · have hopens : e.kind ≠ .Open := hopen e (by simp) hk
        rw [if_pos hk, hrow', update_some (by simpa [FileEvent.opens] using hopens)]
        have hzero := (account_bytes_iff entry' e).mpr fun ht =>
          h (pre ++ mid) e post (by simp [← hpost]) hk ht
            ((closed_row_iff (pre ++ mid) k).mp ⟨entry', hrow', hclosed'⟩)
        exact ⟨_, rfl, hpath, ⟨hzero.1.trans hbytes.1, hzero.2.trans hbytes.2⟩,
          by simp [FileStats.account, hclosed']⟩
      · rw [if_neg hk]
        exact ⟨entry', hrow', hpath, hbytes, hclosed'⟩

/-- A file is closed, and 7 bytes are read from whatever got its descriptor number next. -/
def reusedDescriptor : List FileEvent := [onFd3 .Open 0, onFd3 .Close 0, onFd3 .Read 7]

/-- The bytes are added to the row of the closed file. -/
theorem reused_descriptor_unfreezes : ¬ ClosedRowFrozen reusedDescriptor (1, 3) := by
  intro h
  have hopened : row [onFd3 .Open 0, onFd3 .Close 0] (1, 3) = some ⟨[], 0, 0, true⟩ := by
    decide +kernel
  obtain ⟨entry, hrow, -, hread, -⟩ :=
    h [onFd3 .Open 0, onFd3 .Close 0] [onFd3 .Read 7] List.prefix_rfl (by decide) _ hopened rfl
  have hread7 : row reusedDescriptor (1, 3) = some ⟨[], 7, 0, true⟩ := by decide +kernel
  obtain rfl := Option.some.inj (hread7.symm.trans hrow)
  simp at hread

end Peekbeam
