import Peekbeam.Drain.Files
import Peekbeam.Drain.Memory
import Peekbeam.ElapsedTime
import Peekbeam.Summary

/-!
# Overflow of the counters

The drains accumulate numbers that nothing checks: sizes of allocations, byte counts of reads and
writes, durations.  Both file lists, of the panel and of the summary, moreover sort their rows by
the sum of two such counters.  A `u64` addition that overflows panics in one build mode and wraps
in the other, so what matters is whether an addition that is performed fits (`AdditionsFit`).

`counters_sound_iff` — no addition overflows, and then both lists are sorted by true volume,
exactly when the true totals stay below `2 ^ 64`.  `huge_allocations_overflow` shows that nothing
enforces that.
-/

namespace Peekbeam

open History KeyedFold Accumulators SyscallTable

/-! ## The additions of the drains -/

/-- The addition of sizes one iteration of `drain_mem_events` performs. -/
def memAdditions (stats : MemEventStats) (event : MemEvent) : List (UInt64 × UInt64) :=
  match event.kind with
  | .Alloc => [(stats.allocBytes, event.bytes)]
  | .Free => []

/-- The addition of byte counts one iteration of `drain_file_events` performs. -/
def fileAdditions (files : FilesMap) (event : FileEvent) : List (UInt64 × UInt64) :=
  let entry := (files.lookup event.key).getD unknownFile
  match event.kind with
  | .Open | .Close => []
  | .Read => [(entry.bytesRead, event.bytes.toUInt64)]
  | .Write => [(entry.bytesWritten, event.bytes.toUInt64)]

/-! ## Allocations -/

lemma accumulates_allocated (es : List MemEvent) :
    Accumulates (fun (_ : Unit) pre => (memStatsOf pre).allocBytes) (fun _ pre => allocatedIn pre)
      (fun pre e => memAdditions (memStatsOf pre) e) es where
  nil _ := rfl
  value_eq pre _ _ := (memStatsOf_eq pre).2.1
  step pre e _ _ := by
    simp only [allocatedIn_concat, MemEvent.allocated, memAdditions]
    cases e.kind with
    | Alloc => exact Or.inr ⟨(), e.bytes, rfl, rfl, fun j hj => absurd rfl hj⟩
    | Free => exact Or.inl ⟨rfl, fun _ => le_rfl⟩

lemma memAdditionsFit_iff (es : List MemEvent) :
    AdditionsFit (fun pre e => memAdditions (memStatsOf pre) e) es ↔ allocatedIn es < 2 ^ 64 := by
  rw [(accumulates_allocated es).fits_iff]
  constructor
  · exact fun h => h es List.prefix_rfl ()
  · rintro h _ ⟨post, rfl⟩ -
    rw [allocatedIn, List.map_append, List.sum_append] at h
    exact (Nat.le_add_right _ _).trans_lt h

/-! ## Transfers -/

/-- `files` after a stream of events. -/
def filesOf (es : List FileEvent) : FilesMap := es.foldl drainFileOne ∅

/-- The two kinds of transfers. -/
abbrev TransferKind := {kind : FileEventKind // kind = .Read ∨ kind = .Write}

/-- The counter of a kind of transfer. -/
def FileStats.counter (s : FileStats) (kind : TransferKind) : UInt64 :=
  if kind.1 = .Read then s.bytesRead else s.bytesWritten

/-- The counter of descriptor `c.1` for transfers of kind `c.2`. -/
def counterOf (c : (UInt32 × Int32) × TransferKind) (es : List FileEvent) : UInt64 :=
  (((filesOf es).lookup c.1).getD unknownFile).counter c.2

/-- Its true value: the bytes transferred since the descriptor was last opened. -/
def bytesSinceOpen (c : (UInt32 × Int32) × TransferKind) (es : List FileEvent) : ℕ :=
  bytesIn c.2 (sinceOpen es c.1)

lemma bytesIn_concat (kind : FileEventKind) (es : List FileEvent) (e : FileEvent) :
    bytesIn kind (es ++ [e]) =
      bytesIn kind es + if e.kind = kind then e.bytes.toNatClampNeg else 0 := by
  by_cases h : e.kind = kind <;> simp [bytesIn, h]

lemma bytesSinceOpen_concat (c : (UInt32 × Int32) × TransferKind) (es : List FileEvent)
    (e : FileEvent) :
    bytesSinceOpen c (es ++ [e]) =
      if e.key = c.1 then
        if e.opens then 0
        else bytesSinceOpen c es + if e.kind = c.2 then e.bytes.toNatClampNeg else 0
      else bytesSinceOpen c es := by
  unfold bytesSinceOpen sinceOpen
  rw [stream_concat]
  by_cases hk : e.key = c.1
  · rw [if_pos hk, if_pos hk, since_concat]
    cases e.opens with
    | true => simp [bytesIn]
    | false => simp [bytesIn_concat]
  · simp [hk]

lemma counterOf_concat (c : (UInt32 × Int32) × TransferKind) (es : List FileEvent)
    (e : FileEvent) :
    counterOf c (es ++ [e]) =
      if e.key = c.1 then
        if e.opens then 0 else counterOf c es + e.bytesOf c.2
      else counterOf c es := by
  have hlookup : (filesOf (es ++ [e])).lookup c.1 =
      if e.key = c.1 then FileEvent.update ((filesOf es).lookup c.1) e
      else (filesOf es).lookup c.1 := by
    rw [filesOf, List.foldl_append]
    exact drainFileOne_local _ _ _
  obtain ⟨k, kind, hkind⟩ := c
  unfold counterOf
  rw [hlookup]
  by_cases hk : e.key = k
  · simp only [if_pos hk]
    rcases hkind with rfl | rfl <;> cases he : e.kind <;> cases (filesOf es).lookup k <;>
      simp [FileEvent.update, FileEvent.opens, he, FileStats.counter, FileStats.account,
        FileEvent.bytesOf, openedFile]
  · simp only [if_neg hk]

/-- A counter is its true value, modulo `2 ^ 64`. -/
lemma toNat_counterOf {es : List FileEvent} (hbytes : ∀ e ∈ es, 0 ≤ e.bytes)
    (c : (UInt32 × Int32) × TransferKind) :
    (counterOf c es).toNat = bytesSinceOpen c es % 2 ^ 64 := by
  induction es using List.reverseRecOn with
  | nil => simp [counterOf, filesOf, FileStats.counter, bytesSinceOpen, sinceOpen, stream, since, bytesIn]
  | append_singleton es e ih =>
    have ih := ih fun e' he' => hbytes e' (List.mem_append_left _ he')
    rw [counterOf_concat, bytesSinceOpen_concat]
    by_cases hk : e.key = c.1
    · rw [if_pos hk, if_pos hk]
      cases e.opens with
      | true => rfl
      | false =>
        by_cases hkind : e.kind = c.2
        · simp [FileEvent.bytesOf, hkind, UInt64.toNat_add, ih,
            Int64.toNat_toUInt64_of_le (hbytes e (by simp))]
        · simp [FileEvent.bytesOf, hkind, ih]
    · rw [if_neg hk, if_neg hk]
      exact ih

lemma accumulates_bytesSinceOpen {es : List FileEvent} (hbytes : ∀ e ∈ es, 0 ≤ e.bytes) :
    Accumulates counterOf bytesSinceOpen (fun pre e => fileAdditions (filesOf pre) e) es where
  nil _ := rfl
  value_eq pre hpre c := toNat_counterOf (fun e he => hbytes e (hpre.subset he)) c
  step pre e post hsplit := by
    have hpos : 0 ≤ e.bytes := hbytes e (by simp [hsplit])
    have htransfer : ∀ kind : TransferKind, e.kind = kind →
        ∀ c, c ≠ (e.key, kind) → bytesSinceOpen c (pre ++ [e]) = bytesSinceOpen c pre := by
      intro kind hkind c hc
      rw [bytesSinceOpen_concat]
      have hopens : e.opens = false := by
        rcases kind.2 with hk | hk <;> simp [FileEvent.opens, hkind, hk]
      by_cases hk : e.key = c.1
      · have hne : e.kind ≠ c.2 := fun he =>
          hc (Prod.ext hk.symm (Subtype.ext (he.symm.trans hkind)))
        simp [hk, hopens, hne]
      · simp [hk]
    have hadd : ∀ kind : TransferKind, e.kind = kind →
        bytesSinceOpen (e.key, kind) (pre ++ [e]) =
          bytesSinceOpen (e.key, kind) pre + e.bytes.toUInt64.toNat := by
      intro kind hkind
      have hopens : e.opens = false := by
        rcases kind.2 with hk | hk <;> simp [FileEvent.opens, hkind, hk]
      simp [bytesSinceOpen_concat, hopens, hkind, Int64.toNat_toUInt64_of_le hpos]
    have hrest : e.kind = .Open ∨ e.kind = .Close →
        ∀ c, bytesSinceOpen c (pre ++ [e]) ≤ bytesSinceOpen c pre := by
      intro hkind c
      have hne : e.kind ≠ c.2 := by
        rcases hkind with he | he <;> rcases c.2.2 with hc | hc <;> simp [he, hc]
      rw [bytesSinceOpen_concat]
      split
      · split
        · exact Nat.zero_le _
        · exact le_rfl
      · exact le_rfl
    cases hk : e.kind with
    | Open => exact Or.inl ⟨by simp [fileAdditions, hk], hrest (Or.inl hk)⟩
    | Close => exact Or.inl ⟨by simp [fileAdditions, hk], hrest (Or.inr hk)⟩
    | Read =>
      exact Or.inr ⟨(e.key, ⟨.Read, Or.inl rfl⟩), e.bytes.toUInt64,
        by simp [fileAdditions, hk, counterOf, FileStats.counter], hadd _ hk, htransfer _ hk⟩
    | Write =>
      exact Or.inr ⟨(e.key, ⟨.Write, Or.inr rfl⟩), e.bytes.toUInt64,
        by simp [fileAdditions, hk, counterOf, FileStats.counter], hadd _ hk, htransfer _ hk⟩

lemma fileAdditionsFit_iff {es : List FileEvent} (hbytes : ∀ e ∈ es, 0 ≤ e.bytes) :
    AdditionsFit (fun pre e => fileAdditions (filesOf pre) e) es ↔
      ∀ pre, pre <+: es → ∀ c, bytesSinceOpen c pre < 2 ^ 64 :=
  (accumulates_bytesSinceOpen hbytes).fits_iff

/-! ## The file lists -/

/-- A row of the file table. -/
abbrev FileRow := (UInt32 × Int32) × FileStats

/-- The rows of the table, in any order: that of a `HashMap` is not specified. -/
def RowsOf (files : FilesMap) (rows : List FileRow) : Prop :=
  rows.Perm (files.entries.map fun entry => (entry.1, entry.2))

/-- `sort_by` in descending order of a key. -/
def sortDescending {α : Type} (key : α → UInt64) (rows : List α) : List α :=
  rows.mergeSort fun a b => key b ≤ key a

/-- The rows as `draw_files` shows them. -/
def drawnFiles (rows : List FileRow) : List FileRow :=
  sortDescending (fun row => row.2.bytesRead + row.2.bytesWritten) rows

/-- A row as `Summary::build` lists it. -/
def fileSummary (row : FileRow) : FileSummary where
  path := row.2.path
  pid := row.1.1
  fd := row.1.2
  status := if row.2.closed then "closed".toList else "open".toList
  bytesRead := row.2.bytesRead
  bytesWritten := row.2.bytesWritten

/-- The file list of `Summary::build`. -/
def summaryFiles (rows : List FileRow) : List FileSummary :=
  sortDescending (fun f => f.bytesRead + f.bytesWritten) (rows.map fileSummary)

/-- The additions of the sort keys.  A single row is not compared with any. -/
def sortAdditions (rows : List FileRow) : List (UInt64 × UInt64) :=
  if rows.length < 2 then [] else rows.map fun row => (row.2.bytesRead, row.2.bytesWritten)

/-- The bytes read and written through a descriptor since it was last opened. -/
def trueVolume (es : List FileEvent) (k : UInt32 × Int32) : ℕ :=
  bytesIn .Read (sinceOpen es k) + bytesIn .Write (sinceOpen es k)

/-- A list sorted by a key that shows the true value is sorted by that. -/
lemma pairwise_sortDescending {α : Type} {key : α → UInt64} {value : α → ℕ} {rows : List α}
    (h : ∀ row ∈ rows, (key row).toNat = value row) :
    (sortDescending key rows).Pairwise fun a b => value b ≤ value a := by
  have hsorted : (sortDescending key rows).Pairwise fun a b => decide (key b ≤ key a) = true :=
    List.pairwise_mergeSort
      (fun a b c hab hbc => by
        simp only [decide_eq_true_eq] at hab hbc ⊢
        exact UInt64.le_trans hbc hab)
      (fun a b => by simpa using UInt64.le_total (key b) (key a)) rows
  refine hsorted.imp_of_mem fun {a b} ha hb hab => ?_
  rw [← h a (List.mem_mergeSort.mp ha), ← h b (List.mem_mergeSort.mp hb)]
  exact UInt64.le_iff_toNat_le.mp (by simpa using hab)

/-- The two lists are sorted by what the keys of the rows show. -/
lemma pairwise_fileLists {value : UInt32 × Int32 → ℕ} {rows : List FileRow}
    (h : ∀ row ∈ rows, (row.2.bytesRead + row.2.bytesWritten).toNat = value row.1) :
    ((drawnFiles rows).Pairwise fun a b => value b.1 ≤ value a.1) ∧
      (summaryFiles rows).Pairwise fun a b => value (b.pid, b.fd) ≤ value (a.pid, a.fd) := by
  constructor
  · exact pairwise_sortDescending h
  · have hkeys : ∀ f ∈ rows.map fileSummary,
        (f.bytesRead + f.bytesWritten).toNat = value (f.pid, f.fd) := by
      intro f hf
      obtain ⟨row, hrow, rfl⟩ := List.mem_map.mp hf
      exact h row hrow
    exact pairwise_sortDescending hkeys

/-- Short lists are sorted. -/
lemma pairwise_sortDescending_of_lt {α : Type} {key : α → UInt64} {rows : List α}
    (h : rows.length < 2) (r : α → α → Prop) : (sortDescending key rows).Pairwise r := by
  match rows, h with
  | [], _ => simp [sortDescending]
  | [row], _ => simp [sortDescending]

section Rows
variable {files : FilesMap} {rows : List FileRow} (h : RowsOf files rows)
include h

lemma mem_rows_iff {row : FileRow} : row ∈ rows ↔ files.lookup row.1 = some row.2 := by
  rw [h.mem_iff, ← Option.mem_def, AList.mem_lookup_iff]
  constructor
  · intro hmem
    obtain ⟨⟨k, s⟩, hentry, rfl⟩ := List.mem_map.mp hmem
    exact hentry
  · exact fun hmem => List.mem_map.mpr ⟨⟨row.1, row.2⟩, hmem, rfl⟩

lemma nodup_rows : (rows.map Prod.fst).Nodup := by
  have hkeys : (rows.map Prod.fst).Perm files.keys := by
    have := h.map Prod.fst
    rwa [List.map_map] at this
  exact hkeys.nodup_iff.mpr files.keys_nodup

/-- In a list of at least two rows, there is one beside any key. -/
lemma exists_other_row (hlen : ¬ rows.length < 2) (k : UInt32 × Int32) :
    ∃ other ∈ rows, other.1 ≠ k := by
  by_contra hall
  have hall : ∀ other ∈ rows, other.1 = k := by simpa using hall
  have hrep : rows.map Prod.fst = List.replicate rows.length k := by
    rw [← List.map_const']
    exact List.map_congr_left hall
  have hnodup := nodup_rows h
  rw [hrep, List.nodup_replicate] at hnodup
  omega

/-- Two rows of different keys make a list of at least two. -/
lemma two_le_length {row other : FileRow} (hrow : row ∈ rows) (hother : other ∈ rows)
    (hne : row.1 ≠ other.1) : ¬ rows.length < 2 := by
  intro hlt
  match rows, hlt with
  | [], _ => simp at hrow
  | [only], _ =>
    rw [List.mem_singleton.mp hrow, List.mem_singleton.mp hother] at hne
    exact hne rfl

end Rows

/-- A descriptor has a row once it was opened, read or written. -/
def HasRow (es : List FileEvent) (k : UInt32 × Int32) : Prop := ∃ e ∈ es, e.key = k ∧ e.kind ≠ .Close

section Tables
variable {es : List FileEvent} {rows : List FileRow} (h : RowsOf (filesOf es) rows)
include h

lemma exists_row_of_hasRow {k : UInt32 × Int32} (hk : HasRow es k) : ∃ row ∈ rows, row.1 = k := by
  obtain ⟨s, hs⟩ := Option.isSome_iff_exists.mp ((isSome_drainFileEvents es k).mpr hk)
  exact ⟨(k, s), (mem_rows_iff h).mpr hs, rfl⟩

lemma hasRow_of_mem {row : FileRow} (hrow : row ∈ rows) : HasRow es row.1 :=
  (isSome_drainFileEvents es row.1).mp (Option.isSome_iff_exists.mpr ⟨_, (mem_rows_iff h).mp hrow⟩)

/-- The counters of a row are exact while their true values fit. -/
lemma toNat_counters (hbytes : ∀ e ∈ es, 0 ≤ e.bytes) (hfit : ∀ c, bytesSinceOpen c es < 2 ^ 64)
    {row : FileRow} (hrow : row ∈ rows) :
    row.2.bytesRead.toNat = bytesIn .Read (sinceOpen es row.1) ∧
      row.2.bytesWritten.toNat = bytesIn .Write (sinceOpen es row.1) := by
  have hlookup : (filesOf es).lookup row.1 = some row.2 := (mem_rows_iff h).mp hrow
  have hcounter : ∀ kind : TransferKind,
      (row.2.counter kind).toNat = bytesIn kind (sinceOpen es row.1) := by
    intro kind
    have := toNat_counterOf hbytes (row.1, kind)
    rw [Nat.mod_eq_of_lt (hfit _)] at this
    simpa [counterOf, hlookup, bytesSinceOpen] using this
  exact ⟨hcounter ⟨.Read, Or.inl rfl⟩, hcounter ⟨.Write, Or.inr rfl⟩⟩

end Tables

/-! ## Soundness of the counters -/

/-- No addition overflows: neither in the drains, nor in the sort keys whenever one of the file
lists is made.  And both lists are sorted by true volume. -/
structure CountersSound (mem : List MemEvent) (files : List FileEvent)
    (syscalls : List SyscallEvent) : Prop where
  allocBytes : AdditionsFit (fun pre e => memAdditions (memStatsOf pre) e) mem
  fileBytes : AdditionsFit (fun pre e => fileAdditions (filesOf pre) e) files
  totalNs : AdditionsFit (fun pre e => additions (ofEvents pre) e) syscalls
  sortKeys : ∀ pre, pre <+: files → ∀ rows, RowsOf (filesOf pre) rows →
    ∀ p ∈ sortAdditions rows, Fits p
  drawn : ∀ pre, pre <+: files → ∀ rows, RowsOf (filesOf pre) rows →
    (drawnFiles rows).Pairwise fun a b => trueVolume pre b.1 ≤ trueVolume pre a.1
  listed : ∀ pre, pre <+: files → ∀ rows, RowsOf (filesOf pre) rows →
    (summaryFiles rows).Pairwise fun a b =>
      trueVolume pre (b.pid, b.fd) ≤ trueVolume pre (a.pid, a.fd)

/-- The true totals fit in 64 bits: the bytes allocated, the time in each syscall, the bytes read
and the bytes written through each descriptor since it was opened and, once there are two rows to
compare, the two together. -/
structure TotalsFit (mem : List MemEvent) (files : List FileEvent)
    (syscalls : List SyscallEvent) : Prop where
  allocated : allocatedIn mem < 2 ^ 64
  transferred : ∀ pre, pre <+: files → ∀ k, bytesIn .Read (sinceOpen pre k) < 2 ^ 64 ∧
    bytesIn .Write (sinceOpen pre k) < 2 ^ 64
  volumes : ∀ pre, pre <+: files → ∀ k k', k ≠ k' → HasRow pre k → HasRow pre k' →
    trueVolume pre k < 2 ^ 64
  durations : ∀ nr, (samples syscalls nr).sum < 2 ^ 64

/-- The condition on transfers, for the two counters of a descriptor at once. -/
lemma bytesSinceOpen_lt_iff {es : List FileEvent} :
    (∀ c, bytesSinceOpen c es < 2 ^ 64) ↔ ∀ k, bytesIn .Read (sinceOpen es k) < 2 ^ 64 ∧
      bytesIn .Write (sinceOpen es k) < 2 ^ 64 := by
  constructor
  · exact fun h k => ⟨h (k, ⟨.Read, Or.inl rfl⟩), h (k, ⟨.Write, Or.inr rfl⟩)⟩
  · rintro h ⟨k, kind, rfl | rfl⟩
    · exact (h k).1
    · exact (h k).2

/-- While the counters are exact, the sort keys fit exactly when the volumes do. -/
lemma sortAdditionsFit_iff {es : List FileEvent} (hbytes : ∀ e ∈ es, 0 ≤ e.bytes)
    (hfit : ∀ c, bytesSinceOpen c es < 2 ^ 64) :
    (∀ rows, RowsOf (filesOf es) rows → ∀ p ∈ sortAdditions rows, Fits p) ↔
      ∀ k k', k ≠ k' → HasRow es k → HasRow es k' → trueVolume es k < 2 ^ 64 := by
  constructor
  · intro h k k' hne hk hk'
    let rows : List FileRow := (filesOf es).entries.map fun entry => (entry.1, entry.2)
    have hrows : RowsOf (filesOf es) rows := List.Perm.refl _
    obtain ⟨row, hrow, rfl⟩ := exists_row_of_hasRow hrows hk
    obtain ⟨other, hother, rfl⟩ := exists_row_of_hasRow hrows hk'
    have hmem : (row.2.bytesRead, row.2.bytesWritten) ∈ sortAdditions rows := by
      rw [sortAdditions, if_neg (two_le_length hrows hrow hother hne)]
      exact List.mem_map_of_mem (f := fun row : FileRow => (row.2.bytesRead, row.2.bytesWritten)) hrow
    obtain ⟨hread, hwritten⟩ := toNat_counters hrows hbytes hfit hrow
    have := h rows hrows _ hmem
    rwa [Fits, hread, hwritten] at this
  · intro h rows hrows p hp
    unfold sortAdditions at hp
    split at hp
    · simp at hp
    · rename_i hlen
      obtain ⟨row, hrow, rfl⟩ := List.mem_map.mp hp
      obtain ⟨other, hother, hne⟩ := exists_other_row hrows hlen row.1
      obtain ⟨hread, hwritten⟩ := toNat_counters hrows hbytes hfit hrow
      rw [Fits, hread, hwritten]
      exact h row.1 other.1 hne.symm (hasRow_of_mem hrows hrow) (hasRow_of_mem hrows hother)

/-- A sort key that fits is the true volume. -/
lemma toNat_sortKey {es : List FileEvent} (hbytes : ∀ e ∈ es, 0 ≤ e.bytes)
    (hfit : ∀ c, bytesSinceOpen c es < 2 ^ 64) {rows : List FileRow}
    (hrows : RowsOf (filesOf es) rows) (hlen : ¬ rows.length < 2)
    (hkeys : ∀ p ∈ sortAdditions rows, Fits p) {row : FileRow} (hrow : row ∈ rows) :
    (row.2.bytesRead + row.2.bytesWritten).toNat = trueVolume es row.1 := by
  obtain ⟨hread, hwritten⟩ := toNat_counters hrows hbytes hfit hrow
  have hmem : (row.2.bytesRead, row.2.bytesWritten) ∈ sortAdditions rows := by
    rw [sortAdditions, if_neg hlen]
    exact List.mem_map_of_mem (f := fun row : FileRow => (row.2.bytesRead, row.2.bytesWritten)) hrow
  have : row.2.bytesRead.toNat + row.2.bytesWritten.toNat < 2 ^ 64 := hkeys _ hmem
  rw [UInt64.toNat_add, Nat.mod_eq_of_lt this, hread, hwritten, trueVolume]

/-- **When the counters can be trusted.**  For events as the programs output them, which report no
negative byte counts, no addition of the drains or of a sort key overflows, and both file lists
are sorted by true volume, exactly when the true totals fit in 64 bits. -/
theorem counters_sound_iff (mem : List MemEvent) {files : List FileEvent}
    (syscalls : List SyscallEvent) (hbytes : ∀ e ∈ files, 0 ≤ e.bytes) :
    CountersSound mem files syscalls ↔ TotalsFit mem files syscalls := by
  have hreads : ∀ {pre}, pre <+: files → ∀ e ∈ pre, 0 ≤ e.bytes :=
    fun hpre e he => hbytes e (hpre.subset he)
  constructor
  · intro h
    have hfit := (fileAdditionsFit_iff hbytes).mp h.fileBytes
    exact {
      allocated := (memAdditionsFit_iff mem).mp h.allocBytes
      transferred := fun pre hpre => bytesSinceOpen_lt_iff.mp (hfit pre hpre)
      volumes := fun pre hpre =>
        (sortAdditionsFit_iff (hreads hpre) (hfit pre hpre)).mp (h.sortKeys pre hpre)
      durations := (additionsFit_iff syscalls).mp h.totalNs }
  · intro h
    have hfit : ∀ pre, pre <+: files → ∀ c, bytesSinceOpen c pre < 2 ^ 64 :=
      fun pre hpre => bytesSinceOpen_lt_iff.mpr (h.transferred pre hpre)
    have hkeys : ∀ pre, pre <+: files → ∀ rows, RowsOf (filesOf pre) rows →
        ∀ p ∈ sortAdditions rows, Fits p := fun pre hpre =>
      (sortAdditionsFit_iff (hreads hpre) (hfit pre hpre)).mpr (h.volumes pre hpre)
    have hsorted : ∀ pre, pre <+: files → ∀ rows, RowsOf (filesOf pre) rows →
        ((drawnFiles rows).Pairwise fun a b => trueVolume pre b.1 ≤ trueVolume pre a.1) ∧
          (summaryFiles rows).Pairwise fun a b =>
            trueVolume pre (b.pid, b.fd) ≤ trueVolume pre (a.pid, a.fd) := by
      intro pre hpre rows hrows
      by_cases hlen : rows.length < 2
      · exact ⟨pairwise_sortDescending_of_lt hlen _,
          pairwise_sortDescending_of_lt (by rwa [List.length_map]) _⟩
      · exact pairwise_fileLists fun row hrow =>
          toNat_sortKey (hreads hpre) (hfit pre hpre) hrows hlen (hkeys pre hpre rows hrows) hrow
    exact {
      allocBytes := (memAdditionsFit_iff mem).mpr h.allocated
      fileBytes := (fileAdditionsFit_iff hbytes).mpr hfit
      totalNs := (additionsFit_iff syscalls).mpr h.durations
      sortKeys := hkeys
      drawn := fun pre hpre rows hrows => (hsorted pre hpre rows hrows).1
      listed := fun pre hpre rows hrows => (hsorted pre hpre rows hrows).2 }

/-- An allocation by process 1 of the size with eight bytes `b`. -/
def kmallocOf (b : UInt8) : Firing where
  tracepoint := .kmalloc
  helpers := .plain 0
  ctx :=
    { tgid := 1
      record := fun off => if 32 ≤ off ∧ off < 40 then b else 0
      readError := fun _ => none }

/-- The events of two allocations of the greatest size there is. -/
def hugeAllocations : List MemEvent :=
  [⟨1, .Alloc, 0xFFFFFFFFFFFFFFFF, 0⟩, ⟨1, .Alloc, 0xFFFFFFFFFFFFFFFF, 0⟩]

/-- They are output as they are, and their sum does not fit. -/
theorem huge_allocations_overflow :
    ((Kernel.load (.Pid 1)).run [kmallocOf 0xFF, kmallocOf 0xFF]).memEvents =
        hugeAllocations.map RingBufItem.of ∧
      ¬ CountersSound hugeAllocations [] [] := by
  refine ⟨by decide +kernel, fun h => ?_⟩
  have := (memAdditionsFit_iff hugeAllocations).mp h.allocBytes
  exact absurd this (by decide +kernel)

/-- Of the bytes of a stream, a descriptor has transferred some. -/
lemma trueVolume_le (es : List FileEvent) (k : UInt32 × Int32) :
    trueVolume es k ≤ (es.map fun e => e.bytes.toNatClampNeg).sum := by
  have hkinds : ∀ l : List FileEvent,
      bytesIn .Read l + bytesIn .Write l ≤ (l.map fun e => e.bytes.toNatClampNeg).sum := by
    intro l
    induction l with
    | nil => rfl
    | cons e l ih =>
      rw [bytesIn_cons, bytesIn_cons, List.map_cons, List.sum_cons]
      cases e.kind <;> simp <;> omega
  have hsub : (sinceOpen es k).Sublist es :=
    (List.rtakeWhile_suffix _ _).sublist.trans List.filter_sublist
  exact (hkinds _).trans ((hsub.map _).sum_le_sum fun _ _ => Nat.zero_le _)

/-- A file is opened, read and written: what is counted and listed is right. -/
theorem counters_sound_small :
    CountersSound [⟨1, .Alloc, 64, 0⟩] [onFd3 .Open 0, onFd3 .Read 3, onFd3 .Write 4]
      overlapping := by
  have htotal : ∀ pre, pre <+: [onFd3 .Open 0, onFd3 .Read 3, onFd3 .Write 4] →
      ∀ k, trueVolume pre k ≤ 7 := by
    intro pre hpre k
    calc trueVolume pre k ≤ (pre.map fun e => e.bytes.toNatClampNeg).sum := trueVolume_le pre k
      _ ≤ ([onFd3 .Open 0, onFd3 .Read 3, onFd3 .Write 4].map fun e =>
          e.bytes.toNatClampNeg).sum :=
        (hpre.sublist.map _).sum_le_sum fun _ _ => Nat.zero_le _
      _ = 7 := by decide
  refine (counters_sound_iff _ _ (by decide)).mpr {
    allocated := by decide
    transferred := fun pre hpre k => ?_
    volumes := fun pre hpre k k' _ _ _ => (htotal pre hpre k).trans_lt (by decide)
    durations := fun nr => ?_ }
  · have := htotal pre hpre k
    unfold trueVolume at this
    omega
  · have hchron : Chronological overlapping := by decide
    have hpid : ∀ e ∈ overlapping, e.pid = 1 := by decide
    exact (sum_samples_le_of_pid hchron hpid nr).trans_lt span_lt

end Peekbeam
