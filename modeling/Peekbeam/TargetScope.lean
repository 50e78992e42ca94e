import Peekbeam.Live

/-!
# Whose data is in the trace

Records carry the process they are about, the stashes are keyed by it, and userspace keys its
tables by what the records carry.  `only_accepted_named` is the invariant that ties these
together: in every state that a live trace reaches, each process that is named anywhere is one
that the filter accepted in some firing.  With a process as the target that leaves the target
itself, and then the two stashes never hold more than one entry: an insertion into them cannot
fail for want of room.
-/

namespace Peekbeam

/-- The firing is one of the target, as the filter sees it. -/
def Firing.Accepted (target : Target) (f : Firing) : Prop :=
  (Kernel.load target).matchesTarget f.helpers f.ctx.tgid = true

instance (target : Target) (f : Firing) : Decidable (f.Accepted target) :=
  inferInstanceAs (Decidable (_ = _))

/-- The processes of the accepted firings. -/
def AcceptedIn (target : Target) (l : List Firing) (pid : UInt32) : Prop :=
  ∃ f ∈ l, f.Accepted target ∧ f.ctx.tgid = pid

/-- The records in the rings are about processes in `P`. -/
structure Rings.Names (P : UInt32 → Prop) (r : Rings) : Prop where
  events : ∀ item ∈ r.events, P item.record.pid
  fileEvents : ∀ item ∈ r.fileEvents, P item.record.pid
  memEvents : ∀ item ∈ r.memEvents, P item.record.pid

/-- So are the stashes. -/
structure Kernel.Names (P : UInt32 → Prop) (k : Kernel) : Prop where
  rings : k.rings.Names P
  pendingOpenPath : ∀ pid, (k.pendingOpenPath.get pid).isSome → P pid
  pendingFd : ∀ pid, (k.pendingFd.get pid).isSome → P pid

/-- And the tables of userspace. -/
structure Tables.Names (P : UInt32 → Prop) (t : Tables) : Prop where
  pending : ∀ key, (t.syscalls.pending.lookup key).isSome → P key.1
  files : ∀ key, (t.files.lookup key).isSome → P key.1

variable {P : UInt32 → Prop}

lemma Rings.names_append {r r' : Rings} : (r ++ r').Names P ↔ r.Names P ∧ r'.Names P := by
  constructor
  · intro h
    exact ⟨⟨fun i hi => h.events i (List.mem_append_left _ hi),
        fun i hi => h.fileEvents i (List.mem_append_left _ hi),
        fun i hi => h.memEvents i (List.mem_append_left _ hi)⟩,
      ⟨fun i hi => h.events i (List.mem_append_right _ hi),
        fun i hi => h.fileEvents i (List.mem_append_right _ hi),
        fun i hi => h.memEvents i (List.mem_append_right _ hi)⟩⟩
  · rintro ⟨h, h'⟩
    exact ⟨fun i hi => (List.mem_append.mp hi).elim (h.events i) (h'.events i),
      fun i hi => (List.mem_append.mp hi).elim (h.fileEvents i) (h'.fileEvents i),
      fun i hi => (List.mem_append.mp hi).elim (h.memEvents i) (h'.memEvents i)⟩

lemma Kernel.Names.imp {Q : UInt32 → Prop} {k : Kernel} (h : k.Names P) (hPQ : ∀ pid, P pid → Q pid) :
    k.Names Q where
  rings := ⟨fun i hi => hPQ _ (h.rings.events i hi), fun i hi => hPQ _ (h.rings.fileEvents i hi),
    fun i hi => hPQ _ (h.rings.memEvents i hi)⟩
  pendingOpenPath pid hpid := hPQ _ (h.pendingOpenPath pid hpid)
  pendingFd pid hpid := hPQ _ (h.pendingFd pid hpid)

lemma Tables.Names.imp {Q : UInt32 → Prop} {t : Tables} (h : t.Names P)
    (hPQ : ∀ pid, P pid → Q pid) : t.Names Q where
  pending key hkey := hPQ _ (h.pending key hkey)
  files key hkey := hPQ _ (h.files key hkey)

/-! ## One firing -/

/-- A record is about the process of its call. -/
lemma callEvent_pid {h : Helpers} {pid : UInt32} {nr ret : Int64} {path : Option PendingOpen}
    {fd : Option Int32} {event : FileEvent} (hevent : callEvent h pid nr ret path fd = some event) :
    event.pid = pid := by
  unfold callEvent at hevent
  split at hevent
  · simp at hevent
  · split at hevent
    · simp at hevent
    · obtain ⟨_, -, rfl⟩ := Option.map_eq_some_iff.mp hevent
      rfl
  · split at hevent
    · simp at hevent
    · obtain ⟨_, -, rfl⟩ := Option.map_eq_some_iff.mp hevent
      rfl
  · split at hevent
    · simp at hevent
    · obtain ⟨_, -, rfl⟩ := Option.map_eq_some_iff.mp hevent
      rfl

lemma mem_recorded {h : Helpers} {event : Option FileEvent} {item : RingBufItem FileEvent}
    (hitem : item ∈ recorded h event) : ∃ e, event = some e ∧ item = RingBufItem.of e := by
  unfold recorded at hitem
  split at hitem
  · obtain ⟨e, he, rfl⟩ := List.mem_map.mp hitem
    exact ⟨e, Option.mem_toList.mp he, rfl⟩
  · simp at hitem

lemma fileSyscall_names {k : Kernel} (hk : k.Names P) (h : Helpers) (ctx : TracePointContext)
    (kind : EventKind) {pid : UInt32} (hpid : P pid) (nr : Int64) :
    (fileSyscall h ctx kind pid nr k).1.Names P := by
  have hframe := fileSyscall_frame h ctx kind pid nr k
  refine ⟨⟨?_, ?_, ?_⟩, ?_, ?_⟩
  · show ∀ item ∈ (fileSyscall h ctx kind pid nr k).1.events, _
    rw [hframe]
    exact hk.rings.events
  · show ∀ item ∈ (fileSyscall h ctx kind pid nr k).1.fileEvents, _
    rw [fileEvents_fileSyscall]
    intro item hitem
    rcases List.mem_append.mp hitem with hitem | hitem
    · exact hk.rings.fileEvents item hitem
    · cases kind with
      | Enter => simp at hitem
      | Exit =>
        obtain ⟨event, hevent, rfl⟩ := mem_recorded hitem
        obtain ⟨ret, -, hcall⟩ := Option.bind_eq_some_iff.mp hevent
        show P event.pid
        rw [callEvent_pid hcall]
        exact hpid
  · show ∀ item ∈ (fileSyscall h ctx kind pid nr k).1.memEvents, _
    rw [hframe]
    exact hk.rings.memEvents
  · intro p hp
    rw [get_pendingOpenPath_fileSyscall] at hp
    split at hp
    · rename_i hcond
      exact hcond.2 ▸ hpid
    · exact hk.pendingOpenPath p hp
  · intro p hp
    rw [get_pendingFd_fileSyscall] at hp
    split at hp
    · rename_i hcond
      exact hcond.2 ▸ hpid
    · exact hk.pendingFd p hp

/-- An output is the records before, and perhaps one more. -/
lemma mem_output {α : Type} [WireSize α] {ring ring' : RingBuf α} {record : α} {err : Option Int32}
    (h : ring.output record err = .ok ring') {item : RingBufItem α} (hitem : item ∈ ring') :
    item ∈ ring ∨ item.record = record := by
  cases err with
  | some e => simp [RingBuf.output] at h
  | none =>
    obtain rfl : ring ++ [RingBufItem.of record] = ring' := by simpa [RingBuf.output] using h
    rcases List.mem_append.mp hitem with hitem | hitem
    · exact Or.inl hitem
    · rw [List.mem_singleton.mp hitem]
      exact Or.inr rfl

lemma tryEmit_names {k : Kernel} (hk : k.Names P) {h : Helpers} {ctx : TracePointContext}
    (hpid : k.matchesTarget h ctx.tgid = true → P ctx.tgid) (kind : EventKind) :
    (tryEmit h ctx kind k).1.Names P := by
  unfold tryEmit
  dsimp only
  split
  · exact hk
  · rename_i hmatch
    have hpid := hpid (by simpa using hmatch)
    cases ctx.readAt Int64 SYSCALL_NR_OFFSET with
    | error e => exact hk
    | ok nr =>
      dsimp only
      split
      · exact hk
      · rename_i events hout
        have hevents : ({ k with events } : Kernel).Names P := by
          refine ⟨⟨fun item hitem => ?_, hk.rings.fileEvents, hk.rings.memEvents⟩,
            hk.pendingOpenPath, hk.pendingFd⟩
          rcases mem_output hout hitem with hitem | hrecord
          · exact hk.rings.events item hitem
          · rw [hrecord]
            exact hpid
        exact fileSyscall_names hevents h ctx kind hpid nr

lemma emitMem_names {k : Kernel} (hk : k.Names P) {h : Helpers} {ctx : TracePointContext}
    (hpid : k.matchesTarget h ctx.tgid = true → P ctx.tgid) (kind : MemEventKind)
    (bytes : Except Int32 UInt64) : (emitMem h ctx kind bytes k).1.Names P := by
  unfold emitMem
  dsimp only
  split
  · exact hk
  · rename_i hmatch
    have hpid := hpid (by simpa using hmatch)
    split
    · exact hk
    · split
      · exact hk
      · rename_i hout
        refine ⟨⟨hk.rings.events, hk.rings.fileEvents, fun item hitem => ?_⟩, hk.pendingOpenPath,
          hk.pendingFd⟩
        rcases mem_output hout hitem with hitem | hrecord
        · exact hk.rings.memEvents item hitem
        · rw [hrecord]
          exact hpid

/-- **One firing names its own process at most**, and only if the filter accepts it. -/
lemma fire_names {k : Kernel} (hk : k.Names P) {f : Firing}
    (hpid : k.matchesTarget f.helpers f.ctx.tgid = true → P f.ctx.tgid) : (k.fire f).Names P := by
  obtain ⟨t, h, ctx⟩ := f
  cases t
  · exact tryEmit_names hk hpid .Enter
  · exact tryEmit_names hk hpid .Exit
  · show (tryNetState h ctx k).1.Names P
    rw [tryNetState_frame]
    exact ⟨⟨hk.rings.events, hk.rings.fileEvents, hk.rings.memEvents⟩, hk.pendingOpenPath,
      hk.pendingFd⟩
  · show (tryNetRetransmit h ctx k).1.Names P
    rw [tryNetRetransmit_frame]
    exact ⟨⟨hk.rings.events, hk.rings.fileEvents, hk.rings.memEvents⟩, hk.pendingOpenPath,
      hk.pendingFd⟩
  · exact emitMem_names hk hpid .Alloc (ctx.readAt UInt64 32)
  · exact emitMem_names hk hpid .Free (.ok 0)

/-! ## Draining -/

/-- What each record preserves, draining preserves. -/
lemma drain_invariant {σ α : Type} [WireSize α] {step : σ → α → σ} {I : σ → Prop}
    {ring : RingBuf α} (hstep : ∀ item ∈ ring, ∀ s, I s → I (step s item.record)) {s : σ}
    (hs : I s) : I (drain step ring s) := by
  induction ring generalizing s with
  | nil => exact hs
  | cons item ring ih =>
    refine ih (fun item' hitem' => hstep item' (List.mem_cons_of_mem _ hitem')) ?_
    show I (if item.len ≠ wireSize α then s else step s item.record)
    split
    · exact hs
    · exact hstep item List.mem_cons_self s hs

lemma drain_names {t : Tables} {r : Rings} (ht : t.Names P) (hr : r.Names P) :
    (t.drain r).Names P := by
  constructor
  · refine drain_invariant (I := fun t : SyscallTable => ∀ key, (t.pending.lookup key).isSome → P key.1)
      (fun item hitem t ht key hkey => ?_) ht.pending
    rw [SyscallTable.lookup_pending_drainOne] at hkey
    split at hkey
    · rename_i heq
      exact heq ▸ hr.events item hitem
    · exact ht key hkey
  · refine drain_invariant (I := fun files : FilesMap => ∀ key, (files.lookup key).isSome → P key.1)
      (fun item hitem files ht key hkey => ?_) ht.files
    have hlocal := drainFileOne_local files item.record key
    dsimp only at hlocal
    rw [hlocal] at hkey
    split at hkey
    · rename_i heq
      exact heq ▸ hr.fileEvents item hitem
    · exact ht key hkey

/-! ## Runs -/

lemma load_names (target : Target) : (Kernel.load target).Names P where
  rings := ⟨fun _ hitem => absurd hitem List.not_mem_nil, fun _ hitem => absurd hitem List.not_mem_nil,
    fun _ hitem => absurd hitem List.not_mem_nil⟩
  pendingOpenPath pid hpid := by simp [Kernel.load] at hpid
  pendingFd pid hpid := by simp [Kernel.load] at hpid

lemma run_names (target : Target) (l : List Firing) :
    ((Kernel.load target).run l).Names (AcceptedIn target l) := by
  induction l using List.reverseRecOn with
  | nil => exact load_names target
  | append_singleton l f ih =>
    rw [run_concat]
    refine fire_names (ih.imp fun pid ⟨g, hg, hacc⟩ => ⟨g, List.mem_append_left _ hg, hacc⟩)
      fun hmatch => ⟨f, by simp, ?_, rfl⟩
    rwa [run_matchesTarget] at hmatch

lemma after_names (target : Target) (l : List Firing) :
    (Tables.after target l).Names (AcceptedIn target l) := by
  refine drain_names ⟨fun key hkey => ?_, fun key hkey => ?_⟩ (run_names target l).rings
  · simp at hkey
  · simp at hkey

/-- A stash of one process has at most one entry, and room for that process. -/
lemma hasRoom_of_keys {ν : Type} {cap : ℕ} {m : BpfHashMap UInt32 ν cap} {pid : UInt32}
    (hcap : 1 < cap) (h : ∀ p, (m.get p).isSome → p = pid) : m.size ≤ 1 ∧ m.HasRoom pid := by
  have hsize : m.size ≤ 1 := by
    have hkeys : ∀ p ∈ m.entries.keys, p = pid := fun p hp =>
      h p (BoundedMap.get_isSome_iff.mpr hp)
    have hrep := List.eq_replicate_of_mem hkeys
    have hnodup := m.entries.keys_nodup
    rw [hrep, List.nodup_replicate] at hnodup
    exact hnodup
  exact ⟨hsize, Or.inr (lt_of_le_of_lt hsize hcap)⟩

/-- **Only accepted processes are named.**  In every state a live trace reaches, the records in
the rings, the stashes, the pending syscalls and the file rows are all about processes that the
filter accepted in a firing of the trace.  If the target is a process, they are about that process,
and each stash has at most one entry and always room for it. -/
theorem only_accepted_named (target : Target) (steps : List LiveStep) :
    let t := (Tracer.attach target).exec steps
    (t.kernel.Names (AcceptedIn target (fired steps)) ∧
      t.tables.Names (AcceptedIn target (fired steps))) ∧
    ∀ pid, target = .Pid pid → (t.kernel.Names (· = pid) ∧ t.tables.Names (· = pid)) ∧
      (t.kernel.pendingOpenPath.size ≤ 1 ∧ t.kernel.pendingOpenPath.HasRoom pid) ∧
      t.kernel.pendingFd.size ≤ 1 ∧ t.kernel.pendingFd.HasRoom pid := by
  intro t
  obtain ⟨taken, h⟩ := exec_follows (.attach target) steps
  have hrun := run_names target (fired steps)
  have hrings : taken.Names (AcceptedIn target (fired steps)) ∧
      t.kernel.rings.Names (AcceptedIn target (fired steps)) := by
    rw [← Rings.names_append, ← h.rings_eq]
    exact hrun.rings
  have hkernel : t.kernel.Names (AcceptedIn target (fired steps)) := by
    have hk : t.kernel.prepend taken = (Kernel.load target).run (fired steps) := h.1.symm
    refine ⟨hrings.2, ?_, ?_⟩
    · show ∀ pid, ((t.kernel.prepend taken).pendingOpenPath.get pid).isSome → _
      rw [hk]
      exact hrun.pendingOpenPath
    · show ∀ pid, ((t.kernel.prepend taken).pendingFd.get pid).isSome → _
      rw [hk]
      exact hrun.pendingFd
  have htables : t.tables.Names (AcceptedIn target (fired steps)) := by
    rw [h.2]
    refine drain_names ⟨fun key hkey => ?_, fun key hkey => ?_⟩ hrings.1
    · simp [Tracer.attach] at hkey
    · simp [Tracer.attach] at hkey
  refine ⟨⟨hkernel, htables⟩, ?_⟩
  rintro pid rfl
  have hpid : ∀ p, AcceptedIn (.Pid pid) (fired steps) p → p = pid := by
    rintro p ⟨f, -, hacc, rfl⟩
    exact matchesTarget_load_pid_iff.mp hacc
  have hkernel := hkernel.imp hpid
  exact ⟨⟨hkernel, htables.imp hpid⟩, hasRoom_of_keys (by decide) hkernel.pendingOpenPath,
    hasRoom_of_keys (by decide) hkernel.pendingFd⟩

/-- A system call of process `pid`, with small numbers in its record. -/
def syscallBy (pid : UInt32) (tracepoint : Tracepoint) (nr arg : UInt8) : Firing where
  tracepoint
  helpers := .plain 0
  ctx :=
    { tgid := pid
      record := fun off => if off = 8 then nr else if off = 16 then arg else 0
      readError := fun _ => none }

/-- Process 1 opens (56) descriptor 3, then one of its threads reads (63) from it while another
opens a second file; process 2 does the same. -/
def openAndRead : List LiveStep :=
  [.fire (syscallBy 1 .sysEnter 56 0), .fire (syscallBy 2 .sysEnter 56 0),
    .fire (syscallBy 1 .sysExit 56 3), .fire (syscallBy 2 .sysExit 56 3), .next .events,
    .next .fileEvents, .fire (syscallBy 1 .sysEnter 63 3), .fire (syscallBy 2 .sysEnter 63 3),
    .fire (syscallBy 1 .sysEnter 56 0), .fire (syscallBy 2 .sysEnter 56 0)]

/-- Both stashes are in use then, and the tables have entries: all for process 1. -/
theorem only_accepted_named_openAndRead :
    let t := (Tracer.attach (.Pid 1)).exec openAndRead
    ((t.kernel.pendingOpenPath.get 1).isSome ∧ (t.kernel.pendingFd.get 1).isSome ∧
      (t.tables.syscalls.pending.lookup (1, 56)).isSome ∧ (t.tables.files.lookup (1, 3)).isSome) ∧
    (t.kernel.Names (· = 1) ∧ t.tables.Names (· = 1)) ∧
      (t.kernel.pendingOpenPath.size ≤ 1 ∧ t.kernel.pendingOpenPath.HasRoom 1) ∧
      t.kernel.pendingFd.size ≤ 1 ∧ t.kernel.pendingFd.HasRoom 1 := by
  intro t
  refine ⟨⟨?_, ?_, ?_, ?_⟩, (only_accepted_named (.Pid 1) openAndRead).2 1 rfl⟩
  · decide +kernel
  · decide +kernel
  · decide +kernel
  · decide +kernel

end Peekbeam
