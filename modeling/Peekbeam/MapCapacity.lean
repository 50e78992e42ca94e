import Peekbeam.Foundation.Slots
import Peekbeam.Isolation
import Peekbeam.SyscallTotals

/-!
# How long the maps of the kernel side suffice

The two stashes have room for 128 processes each, `TRACKED_SOCKS` for 1024 sockets.  What does not
fit is refused, and nobody is told.  Seen from outside each map is a pool of slots
(`Foundation/Slots.lean`): an enter claims the entry of its process and an exit releases it; a
transition in the target's context claims an entry for its socket, and its close releases it.

* `maps_suffice_iff` — nothing is refused exactly as long as no more processes are inside calls,
  and no more sockets open, than there are entries.
* `full_stash_starves` — an entry is released by an exit of its own process only.  Once 128
  processes have left theirs behind, by being killed inside a call, nothing that another process
  does with that stash is recorded.
-/

namespace Peekbeam

open History Slots

attribute [local irreducible] TracePointContext.field

/-! ## The keys of a map -/

section Keys
variable {κ ν : Type} [DecidableEq κ] {cap : ℕ} {m m' : BpfHashMap κ ν cap}

/-- An insertion claims an entry. -/
lemma keySet_of_inserted {k : κ} {v : ν}
    (hget : ∀ p, m'.get p = if p = k ∧ m.HasRoom k then some v else m.get p) :
    m'.keySet = grant cap m.keySet (.claim k) := by
  ext p
  rw [BoundedMap.mem_keySet, hget, grant]
  by_cases hroom : m.HasRoom k
  · rw [if_neg (mt BoundedMap.not_hasRoom_iff.mpr (not_not.mpr hroom)), hold, Finset.mem_insert,
      BoundedMap.mem_keySet]
    by_cases hp : p = k <;> simp [hp, hroom]
  · rw [if_pos (BoundedMap.not_hasRoom_iff.mp hroom), if_neg fun h => hroom h.2,
      BoundedMap.mem_keySet]

/-- A removal releases the entry. -/
lemma keySet_of_removed {k : κ} (hget : ∀ p, m'.get p = if p = k then none else m.get p) :
    m'.keySet = grant cap m.keySet (.release k) := by
  ext p
  rw [grant_release, Finset.mem_erase, BoundedMap.mem_keySet, BoundedMap.mem_keySet, hget]
  by_cases hp : p = k <;> simp [hp]

lemma keySet_of_get_eq (hget : ∀ p, m'.get p = m.get p) : m'.keySet = m.keySet := by
  ext p
  rw [BoundedMap.mem_keySet, BoundedMap.mem_keySet, hget]

end Keys

/-! ## The stashes -/

/-- The two stashes of syscall arguments. -/
inductive Stash
  | pendingOpenPath
  | pendingFd
  deriving DecidableEq

namespace Stash

/-- The processes that have an entry. -/
def keys : Stash → Kernel → Finset UInt32
  | .pendingOpenPath, k => k.pendingOpenPath.keySet
  | .pendingFd, k => k.pendingFd.keySet

/-- An entry for the process can be written. -/
def HasRoom : Stash → Kernel → UInt32 → Prop
  | .pendingOpenPath, k, pid => k.pendingOpenPath.HasRoom pid
  | .pendingFd, k, pid => k.pendingFd.HasRoom pid

/-- The syscalls that use the stash. -/
def uses : Stash → Int64 → Bool
  | .pendingOpenPath => usesPath
  | .pendingFd => usesFd

/-- The argument of the firing can be read, and writing it meets no error of its own. -/
def Captures : Stash → Firing → Prop
  | .pendingOpenPath, f =>
    (capturePath f.helpers f.ctx).toOption.isSome ∧ f.helpers.insertError = none
  | .pendingFd, f => (f.ctx.readAt Int64 16).toOption.isSome ∧ f.helpers.insertError = none

/-- The accesses that are reported with what is in the stash. -/
def reports : Stash → FileEventKind → Bool
  | .pendingOpenPath, kind => kind = .Open
  | .pendingFd, kind => kind ≠ .Open

instance (stash : Stash) (f : Firing) : Decidable (stash.Captures f) :=
  match stash with
  | .pendingOpenPath => inferInstanceAs (Decidable (_ ∧ _))
  | .pendingFd => inferInstanceAs (Decidable (_ ∧ _))

/-- The firing is recorded and is one of a syscall that uses the stash. -/
def Uses (stash : Stash) (target : Target) (f : Firing) : Prop :=
  f.Traces target ∧ stash.uses (f.ctx.field Int64 SYSCALL_NR_OFFSET) = true

instance (stash : Stash) (target : Target) (f : Firing) : Decidable (stash.Uses target f) :=
  inferInstanceAs (Decidable (_ ∧ _))

/-- What a firing does with the entry of its process. -/
def ops (stash : Stash) (target : Target) (f : Firing) : List (Op UInt32) :=
  match f.tracepoint with
  | .sysEnter => if stash.Uses target f ∧ stash.Captures f then [.claim f.ctx.tgid] else []
  | .sysExit => if stash.Uses target f then [.release f.ctx.tgid] else []
  | _ => []

lemma not_hasRoom_iff {stash : Stash} {k : Kernel} {pid : UInt32} :
    ¬ stash.HasRoom k pid ↔ Refused 128 (stash.keys k) (.claim pid) := by
  cases stash
  · exact BoundedMap.not_hasRoom_iff
  · exact BoundedMap.not_hasRoom_iff

/-- A firing does one thing at most. -/
lemma tail_ops (stash : Stash) (target : Target) (f : Firing) :
    (stash.ops target f).tail = [] := by
  unfold ops
  cases f.tracepoint with
  | sysEnter | sysExit => dsimp only; split <;> rfl
  | inetSockSetState | tcpRetransmitSkb | kmalloc | kfree => rfl

end Stash

/-! ### One firing -/

section Syscalls
variable {target : Target} {k : Kernel}

/-- What a syscall program does when it fires for the target and its record is written. -/
lemma tryEmit_of_traces (hk : k.matchesTarget = (Kernel.load target).matchesTarget) {f : Firing}
    (hf : f.Traces target) (kind : EventKind) :
    ∃ events, (tryEmit f.helpers f.ctx kind k).1 =
      (fileSyscall f.helpers f.ctx kind f.ctx.tgid (f.ctx.field Int64 SYSCALL_NR_OFFSET)
        { k with events }).1 := by
  have hmatch : k.matchesTarget f.helpers f.ctx.tgid = true := hk ▸ hf.accepted
  unfold tryEmit
  simp only [hmatch, TracePointContext.readAt_of_readError_none hf.readable, RingBuf.output,
    hf.delivered, Bool.not_true, Bool.false_eq_true, if_false]
  exact ⟨_, rfl⟩

/-- And when it does not, or its record is lost. -/
lemma tryEmit_of_not_traces (hk : k.matchesTarget = (Kernel.load target).matchesTarget)
    {f : Firing} (hf : ¬ f.Traces target) (kind : EventKind) :
    (tryEmit f.helpers f.ctx kind k).1 = k := by
  unfold tryEmit
  dsimp only
  split
  · rfl
  · rename_i hmatch
    cases hread : f.ctx.readError SYSCALL_NR_OFFSET with
    | some e => rw [TracePointContext.readAt_of_readError hread]
    | none =>
      rw [TracePointContext.readAt_of_readError_none hread]
      cases hout : f.helpers.eventsError with
      | some e => rfl
      | none =>
        have hacc : f.Accepted target := by
          rw [hk] at hmatch
          exact not_not.mp fun hno => hmatch (by simpa [Firing.Accepted] using hno)
        exact absurd ⟨hacc, hread, hout⟩ hf

/-- An attempted insertion that leaves the entry of its process alone leaves the stash alone. -/
lemma keySet_of_not_stashed {ν : Type} {cap : ℕ} {m m' : BpfHashMap UInt32 ν cap} {h : Helpers}
    {pid : UInt32} {captured : Except Int32 ν}
    (hget : ∀ p, m'.get p = if p = pid then stashedAt m h pid captured else m.get p)
    (hsame : stashedAt m h pid captured = m.get pid) : m'.keySet = m.keySet := by
  refine keySet_of_get_eq fun p => ?_
  rw [hget, hsame]
  split
  · rename_i hp
    rw [hp]
  · rfl

/-- An insertion of what was captured, if anything was. -/
lemma keySet_of_stashed {ν : Type} {cap : ℕ} {m m' : BpfHashMap UInt32 ν cap} {h : Helpers}
    {pid : UInt32} {captured : Except Int32 ν}
    (hget : ∀ p, m'.get p = if p = pid then stashedAt m h pid captured else m.get p) :
    m'.keySet = (if captured.toOption.isSome ∧ h.insertError = none then [Op.claim pid]
      else []).foldl (grant cap) m.keySet := by
  cases captured with
  | error e =>
    rw [keySet_of_not_stashed hget rfl]
    simp [Except.toOption]
  | ok v =>
    by_cases hins : h.insertError = none
    · have hget' : ∀ p, m'.get p = if p = pid ∧ m.HasRoom pid then some v else m.get p := by
        intro p
        rw [hget, stashedAt]
        by_cases hp : p = pid
        · subst hp
          simp [hins]
        · simp [hp]
      rw [keySet_of_inserted hget']
      simp [hins, Except.toOption]
    · rw [keySet_of_not_stashed hget (if_neg fun hor => hins hor.1)]
      simp [hins]

/-- The keys of a stash that a file access leaves alone. -/
lemma keys_fileSyscall_of_not_uses (stash : Stash) {h : Helpers} {ctx : TracePointContext}
    {kind : EventKind} {pid : UInt32} {nr : Int64} (hnr : ¬ stash.uses nr = true) :
    stash.keys (fileSyscall h ctx kind pid nr k).1 = stash.keys k := by
  cases stash
  · refine keySet_of_get_eq fun p => ?_
    rw [get_pendingOpenPath_fileSyscall, if_neg fun hor => hnr hor.1]
  · refine keySet_of_get_eq fun p => ?_
    rw [get_pendingFd_fileSyscall, if_neg fun hor => hnr hor.1]

lemma keys_fileSyscall_enter (stash : Stash) {f : Firing} {pid : UInt32} {nr : Int64}
    (hnr : stash.uses nr = true) :
    stash.keys (fileSyscall f.helpers f.ctx .Enter pid nr k).1 =
      (if stash.Captures f then [Op.claim pid] else []).foldl (grant 128) (stash.keys k) := by
  cases stash
  · refine keySet_of_stashed fun p => ?_
    rw [get_pendingOpenPath_fileSyscall]
    simp [show usesPath nr = true from hnr]
  · have hcaptured : ((f.ctx.readAt Int64 16).map Int64.toInt32).toOption.isSome =
        (f.ctx.readAt Int64 16).toOption.isSome := by
      cases f.ctx.readAt Int64 16 <;> rfl
    have hget : ∀ p, (fileSyscall f.helpers f.ctx .Enter pid nr k).1.pendingFd.get p =
        if p = pid then stashedAt k.pendingFd f.helpers pid
          ((f.ctx.readAt Int64 16).map Int64.toInt32)
        else k.pendingFd.get p := by
      intro p
      rw [get_pendingFd_fileSyscall]
      simp [show usesFd nr = true from hnr]
    have hkeys := keySet_of_stashed hget
    rw [hcaptured] at hkeys
    exact hkeys

lemma keys_fileSyscall_exit (stash : Stash) {h : Helpers} {ctx : TracePointContext} {pid : UInt32}
    {nr : Int64} (hnr : stash.uses nr = true) :
    stash.keys (fileSyscall h ctx .Exit pid nr k).1 =
      grant 128 (stash.keys k) (.release pid) := by
  cases stash
  · refine keySet_of_removed fun p => ?_
    rw [get_pendingOpenPath_fileSyscall]
    simp [show usesPath nr = true from hnr]
  · refine keySet_of_removed fun p => ?_
    rw [get_pendingFd_fileSyscall]
    simp [show usesFd nr = true from hnr]

lemma fire_of_sysEnter {f : Firing} (ht : f.tracepoint = .sysEnter) :
    k.fire f = (tryEmit f.helpers f.ctx .Enter k).1 := by
  simp [Kernel.fire, Kernel.exec, ht, sysEnter]

lemma fire_of_sysExit {f : Firing} (ht : f.tracepoint = .sysExit) :
    k.fire f = (tryEmit f.helpers f.ctx .Exit k).1 := by
  simp [Kernel.fire, Kernel.exec, ht, sysExit]

lemma keys_with_events (stash : Stash) (events : RingBuf SyscallEvent) :
    stash.keys { k with events } = stash.keys k := by
  cases stash <;> rfl

/-- The syscall programs use the stashes as `Stash.ops` says. -/
lemma keys_tryEmit (hk : k.matchesTarget = (Kernel.load target).matchesTarget) (stash : Stash)
    (f : Firing) :
    stash.keys (tryEmit f.helpers f.ctx .Enter k).1 =
        (if stash.Uses target f ∧ stash.Captures f then [Op.claim f.ctx.tgid] else []).foldl
          (grant 128) (stash.keys k) ∧
      stash.keys (tryEmit f.helpers f.ctx .Exit k).1 =
        (if stash.Uses target f then [Op.release f.ctx.tgid] else []).foldl
          (grant 128) (stash.keys k) := by
  by_cases hf : f.Traces target
  · obtain ⟨events, henter⟩ := tryEmit_of_traces hk hf .Enter
    obtain ⟨events', hexit⟩ := tryEmit_of_traces hk hf .Exit
    have hkeys := keys_with_events (k := k) stash
    rw [henter, hexit]
    by_cases hnr : stash.uses (f.ctx.field Int64 SYSCALL_NR_OFFSET) = true
    · rw [keys_fileSyscall_enter stash hnr, keys_fileSyscall_exit stash hnr, hkeys events,
        hkeys events']
      simp [Stash.Uses, hf, hnr]
    · rw [keys_fileSyscall_of_not_uses stash hnr, keys_fileSyscall_of_not_uses stash hnr,
        hkeys events, hkeys events']
      simp [Stash.Uses, hnr]
  · rw [tryEmit_of_not_traces hk hf, tryEmit_of_not_traces hk hf]
    simp [Stash.Uses, hf]

/-- **A stash is a pool**, one firing at a time. -/
lemma keys_fire (hk : k.matchesTarget = (Kernel.load target).matchesTarget) (stash : Stash)
    (f : Firing) :
    stash.keys (k.fire f) = (stash.ops target f).foldl (grant 128) (stash.keys k) := by
  obtain ⟨henter, hexit⟩ := keys_tryEmit hk stash f
  unfold Stash.ops
  cases ht : f.tracepoint with
  | sysEnter => rw [fire_of_sysEnter ht, henter]
  | sysExit => rw [fire_of_sysExit ht, hexit]
  | inetSockSetState | tcpRetransmitSkb | kmalloc | kfree =>
    rw [fire_frame, ht]
    cases stash <;> rfl

/-- A call is reported with what the stash of its syscall holds. -/
lemma uses_of_callEvent {h : Helpers} {pid : UInt32} {nr ret : Int64} {path : Option PendingOpen}
    {fd : Option Int32} {event : FileEvent} (hevent : callEvent h pid nr ret path fd = some event) :
    event.kind = .Open ∧ usesPath nr = true ∧ path.isSome = true ∨
      event.kind ≠ .Open ∧ usesFd nr = true ∧ fd.isSome = true := by
  unfold callEvent at hevent
  split at hevent
  · simp at hevent
  · rename_i hkind
    split at hevent
    · simp at hevent
    · obtain ⟨q, hq, rfl⟩ := Option.map_eq_some_iff.mp hevent
      exact Or.inl ⟨rfl, by simp [usesPath, hkind], by simp [hq]⟩
  · rename_i hkind
    split at hevent
    · simp at hevent
    · obtain ⟨q, hq, rfl⟩ := Option.map_eq_some_iff.mp hevent
      exact Or.inr ⟨by simp [fdEvent], by simp [usesFd, usesPath, hkind], by simp [hq]⟩
  · rename_i kind hopen hclose hkind
    split at hevent
    · simp at hevent
    · obtain ⟨q, hq, rfl⟩ := Option.map_eq_some_iff.mp hevent
      exact Or.inr ⟨hopen, by simpa [usesFd, usesPath, hkind] using hopen, by simp [hq]⟩

/-- What an exit reports, it reports for a process with an entry. -/
lemma mem_keys_of_recorded (stash : Stash) {f : Firing} {pid : UInt32} {nr : Int64}
    {item : RingBufItem FileEvent}
    (hitem : item ∈ recorded f.helpers ((f.ctx.readAt Int64 16).toOption.bind fun ret =>
      callEvent f.helpers pid nr ret (k.pendingOpenPath.get pid) (k.pendingFd.get pid)))
    (hreports : stash.reports item.record.kind = true) :
    stash.uses nr = true ∧ pid ∈ stash.keys k := by
  obtain ⟨event, hevent, rfl⟩ := mem_recorded hitem
  obtain ⟨ret, -, hcall⟩ := Option.bind_eq_some_iff.mp hevent
  have huses := uses_of_callEvent hcall
  have hkind : (RingBufItem.of event).record.kind = event.kind := rfl
  rw [hkind] at hreports
  cases stash with
  | pendingOpenPath =>
    have hopen : event.kind = .Open := by simpa [Stash.reports] using hreports
    obtain ⟨-, hnr, hpath⟩ := huses.resolve_right fun hor => hor.1 hopen
    exact ⟨hnr, BoundedMap.mem_keySet.mpr hpath⟩
  | pendingFd =>
    have hother : event.kind ≠ .Open := by simpa [Stash.reports] using hreports
    obtain ⟨-, hnr, hfd⟩ := huses.resolve_left fun hor => hother hor.1
    exact ⟨hnr, BoundedMap.mem_keySet.mpr hfd⟩

/-- What is reported is reported at an exit that releases an entry. -/
lemma mem_fileEvents_fire (hk : k.matchesTarget = (Kernel.load target).matchesTarget)
    (stash : Stash) (f : Firing) :
    ∃ new, (k.fire f).fileEvents = k.fileEvents ++ new ∧
      ∀ item ∈ new, stash.reports item.record.kind = true →
        .release f.ctx.tgid ∈ stash.ops target f ∧ f.ctx.tgid ∈ stash.keys k := by
  have hnone : ∀ {k' : Kernel}, k'.fileEvents = k.fileEvents →
      ∃ new, k'.fileEvents = k.fileEvents ++ new ∧
        ∀ item ∈ new, stash.reports item.record.kind = true →
          .release f.ctx.tgid ∈ stash.ops target f ∧ f.ctx.tgid ∈ stash.keys k :=
    fun heq => ⟨[], by rw [heq, List.append_nil], fun item hitem => absurd hitem List.not_mem_nil⟩
  cases ht : f.tracepoint with
  | sysEnter =>
    refine hnone ?_
    rw [fire_of_sysEnter ht]
    by_cases hf : f.Traces target
    · obtain ⟨events, henter⟩ := tryEmit_of_traces hk hf .Enter
      rw [henter, fileEvents_fileSyscall]
      exact List.append_nil _
    · rw [tryEmit_of_not_traces hk hf]
  | sysExit =>
    have hfire := fire_of_sysExit (k := k) ht
    by_cases hf : f.Traces target
    · obtain ⟨events, hexit⟩ := tryEmit_of_traces hk hf .Exit
      refine ⟨_, by rw [hfire, hexit, fileEvents_fileSyscall], fun item hitem hreports => ?_⟩
      obtain ⟨hnr, hkey⟩ := mem_keys_of_recorded stash hitem hreports
      refine ⟨?_, keys_with_events stash events ▸ hkey⟩
      rw [Stash.ops, ht]
      exact (if_pos (show stash.Uses target f from ⟨hf, hnr⟩)).symm ▸ List.mem_singleton_self _
    · refine hnone ?_
      rw [hfire, tryEmit_of_not_traces hk hf]
  | inetSockSetState | tcpRetransmitSkb | kmalloc | kfree =>
    refine hnone ?_
    rw [fire_frame, ht]
    rfl

end Syscalls

lemma keys_run (target : Target) (stash : Stash) (l : List Firing) :
    stash.keys ((Kernel.load target).run l) = pool 128 (l.flatMap (stash.ops target)) := by
  induction l using List.reverseRecOn with
  | nil => cases stash <;> rfl
  | append_singleton l f ih =>
    rw [run_concat, keys_fire (run_matchesTarget _ _), ih, List.flatMap_append, pool_append,
      List.flatMap_singleton]

/-! ## The tracked sockets -/

/-- The firing writes a record of a transition to `CLOSE`. -/
def Firing.closes (f : Firing) : Bool :=
  match readNetEvent .StateChange f.helpers f.ctx with
  | .ok event => event.state = TCP_CLOSE ∧ f.helpers.netEventsError = none
  | .error _ => false

/-- What a transition does with the entry of its socket. -/
def Firing.sockOps (target : Target) (f : Firing) : List (Op UInt64) :=
  match f.tracepoint with
  | .inetSockSetState =>
    f.socket.toList.flatMap fun skaddr =>
      (if f.Accepted target ∧ f.helpers.insertError = none then [Op.claim skaddr] else []) ++
        if f.closes then [Op.release skaddr] else []
  | _ => []

section Sockets
variable {target : Target} {k : Kernel}

/-- The insertion into `TRACKED_SOCKS`, of a socket that is tracked or is the target's. -/
lemma keySet_of_tracked (m : BpfHashMap UInt64 UInt8 1024) {skaddr : UInt64} {matched : Bool}
    (err : Option Int32) (h : (m.get skaddr).isSome = true ∨ matched = true) :
    (if (m.get skaddr).isSome = true then m else BpfHashMap.tryInsert m skaddr 1 err).keySet =
      (if matched = true ∧ err = none then [Op.claim skaddr] else []).foldl (grant 1024)
        m.keySet := by
  by_cases htracked : (m.get skaddr).isSome = true
  · rw [if_pos htracked]
    split
    · rw [List.foldl_cons, List.foldl_nil,
        grant_claim_of_mem (BoundedMap.mem_keySet.mpr htracked)]
    · rfl
  · rw [if_neg htracked]
    have hmatched := h.resolve_left htracked
    by_cases herr : err = none
    · rw [if_pos ⟨hmatched, herr⟩, List.foldl_cons, List.foldl_nil]
      refine keySet_of_inserted (v := 1) fun p => ?_
      rw [BpfHashMap.get_tryInsert]
      simp [herr]
    · rw [if_neg fun hor => herr hor.2, List.foldl_nil]
      refine keySet_of_get_eq fun p => ?_
      rw [BpfHashMap.get_tryInsert, if_neg fun hor => herr hor.2.1]

/-- `TRACKED_SOCKS` after a transition: the socket is added if it is one of the target's, and
dropped when its close is reported. -/
lemma trackedSocks_tryNetState {f : Firing} {skaddr : UInt64}
    (hread : f.ctx.readAt UInt64 inetSockSetStateLayout.skaddr = .ok skaddr) :
    (tryNetState f.helpers f.ctx k).1.trackedSocks =
      let added := if (k.trackedSocks.get skaddr).isSome = true then k.trackedSocks
        else BpfHashMap.tryInsert k.trackedSocks skaddr 1 f.helpers.insertError
      if (k.trackedSocks.get skaddr).isSome = true ∨
          k.matchesTarget f.helpers f.ctx.tgid = true then
        if f.closes then added.remove skaddr else added
      else k.trackedSocks := by
  unfold tryNetState Firing.closes
  rw [hread]
  dsimp only
  cases htracked : (k.trackedSocks.get skaddr).isSome <;>
    cases hmatch : k.matchesTarget f.helpers f.ctx.tgid <;>
    cases readNetEvent .StateChange f.helpers f.ctx with
    | error e => simp
    | ok event =>
      cases herr : f.helpers.netEventsError with
      | some e => simp [RingBuf.output]
      | none => by_cases hclose : event.state = TCP_CLOSE <;> simp [RingBuf.output, hclose]

/-- The program of `inet_sock_set_state` uses `TRACKED_SOCKS` as `Firing.sockOps` says. -/
lemma keySet_tryNetState (hk : k.matchesTarget = (Kernel.load target).matchesTarget) {f : Firing}
    (ht : f.tracepoint = .inetSockSetState) :
    (tryNetState f.helpers f.ctx k).1.trackedSocks.keySet =
      (f.sockOps target).foldl (grant 1024) k.trackedSocks.keySet := by
  rw [Firing.sockOps, ht]
  dsimp only
  rw [Firing.socket, ht]
  dsimp only
  cases hread : f.ctx.readAt UInt64 inetSockSetStateLayout.skaddr with
  | error e =>
    rw [tryNetState, hread]
    rfl
  | ok skaddr =>
    have hacc : f.Accepted target ↔ k.matchesTarget f.helpers f.ctx.tgid = true := by
      rw [hk]
      exact Iff.rfl
    have hremove : ∀ m : BpfHashMap UInt64 UInt8 1024,
        (m.remove skaddr).keySet = grant 1024 m.keySet (.release skaddr) := fun m =>
      keySet_of_removed fun p => BoundedMap.get_remove m skaddr p
    rw [trackedSocks_tryNetState hread, Except.toOption, Option.toList_some,
      List.flatMap_singleton, List.foldl_append]
    dsimp only
    by_cases hproc : (k.trackedSocks.get skaddr).isSome = true ∨
        k.matchesTarget f.helpers f.ctx.tgid = true
    · rw [if_pos hproc]
      have hadded := keySet_of_tracked k.trackedSocks f.helpers.insertError hproc
      simp only [hacc]
      rw [← hadded]
      split
      · rw [hremove]
        rfl
      · rfl
    · -- Neither tracked nor the target's: a release has nothing to release.
      rw [if_neg hproc]
      obtain ⟨hnot, hno⟩ := not_or.mp hproc
      have hmem : skaddr ∉ k.trackedSocks.keySet := fun hmem =>
        hnot (BoundedMap.mem_keySet.mp hmem)
      rw [if_neg fun hor => hno (hacc.mp hor.1), List.foldl_nil]
      split
      · exact (Finset.erase_eq_of_notMem hmem).symm
      · rfl

lemma keySet_trackedSocks_fire (hk : k.matchesTarget = (Kernel.load target).matchesTarget)
    (f : Firing) :
    (k.fire f).trackedSocks.keySet =
      (f.sockOps target).foldl (grant 1024) k.trackedSocks.keySet := by
  cases ht : f.tracepoint with
  | inetSockSetState =>
    rw [← keySet_tryNetState hk ht]
    simp [Kernel.fire, Kernel.exec, ht]
  | sysEnter | sysExit | tcpRetransmitSkb | kmalloc | kfree =>
    rw [fire_frame, Firing.sockOps, ht]
    rfl

end Sockets

lemma keySet_trackedSocks_run (target : Target) (l : List Firing) :
    ((Kernel.load target).run l).trackedSocks.keySet =
      pool 1024 (l.flatMap (Firing.sockOps target)) := by
  induction l using List.reverseRecOn with
  | nil => rfl
  | append_singleton l f ih =>
    rw [run_concat, keySet_trackedSocks_fire (run_matchesTarget _ _), ih, List.flatMap_append,
      pool_append, List.flatMap_singleton]

/-- A transition claims, if at all, before it releases. -/
lemma tail_sockOps (target : Target) (f : Firing) :
    ∀ op ∈ (f.sockOps target).tail, ∃ skaddr, op = .release skaddr := by
  unfold Firing.sockOps
  split
  · cases f.socket with
    | none => simp
    | some skaddr =>
      simp only [Option.toList_some, List.flatMap_singleton]
      split <;> split <;> simp
  · simp

/-! ## Main results -/

/-- **How long the maps suffice.**  In every run, no process is refused an entry of a stash exactly
if there are never more than 128 processes between an enter that stashes and an exit that takes
back, and no socket is refused an entry of `TRACKED_SOCKS` exactly if there are never more than
1024 sockets between a transition in the target's context and a reported close. -/
theorem maps_suffice_iff (target : Target) (l : List Firing) :
    (∀ stash : Stash,
      Stepwise (fun pre f => ∀ pid, .claim pid ∈ stash.ops target f →
        stash.HasRoom ((Kernel.load target).run pre) pid) l ↔
      ∀ ops, ops <+: l.flatMap (stash.ops target) → (holders ops).card ≤ 128) ∧
    (Stepwise (fun pre f => ∀ skaddr, .claim skaddr ∈ f.sockOps target →
        ((Kernel.load target).run pre).trackedSocks.HasRoom skaddr) l ↔
      ∀ ops, ops <+: l.flatMap (Firing.sockOps target) → (holders ops).card ≤ 1024) := by
  constructor
  · intro stash
    rw [← stepwise_hasSlot_iff (stash.ops target) fun f op hop => by
      rw [stash.tail_ops] at hop
      exact absurd hop List.not_mem_nil]
    refine stepwise_congr fun pre f _ => forall_congr' fun pid => imp_congr_right fun _ => ?_
    rw [← keys_run, ← Stash.not_hasRoom_iff, not_not]
  · rw [← stepwise_hasSlot_iff (Firing.sockOps target) (tail_sockOps target)]
    refine stepwise_congr fun pre f _ => forall_congr' fun skaddr => imp_congr_right fun _ => ?_
    rw [← keySet_trackedSocks_run, ← BoundedMap.not_hasRoom_iff, not_not]

/-- **A full stash starves everybody else.**  When all 128 entries of a stash are taken, by
processes none of which exits a call that uses it, they stay taken, and whatever fires from then on,
no call whose argument would be in that stash is reported. -/
theorem full_stash_starves (stash : Stash) (target : Target) (past l : List Firing)
    (hfull : (stash.keys ((Kernel.load target).run past)).card = 128)
    (hstuck : ∀ f ∈ l, ∀ pid, .release pid ∈ stash.ops target f →
      pid ∉ stash.keys ((Kernel.load target).run past)) :
    stash.keys ((Kernel.load target).run (past ++ l)) =
        stash.keys ((Kernel.load target).run past) ∧
      ∃ new, ((Kernel.load target).run (past ++ l)).fileEvents =
          ((Kernel.load target).run past).fileEvents ++ new ∧
        ∀ item ∈ new, stash.reports item.record.kind = false := by
  induction l using List.reverseRecOn with
  | nil => exact ⟨by rw [List.append_nil], [], by simp, by simp⟩
  | append_singleton l f ih =>
    obtain ⟨hkeys, new, hevents, hnew⟩ := ih fun g hg => hstuck g (List.mem_append_left _ hg)
    have hf := hstuck f (by simp)
    have hk := run_matchesTarget (Kernel.load target) (past ++ l)
    rw [← List.append_assoc, run_concat]
    constructor
    · rw [keys_fire hk, hkeys, foldl_grant_of_full hfull.ge hf]
    · obtain ⟨more, hmore, hreleases⟩ := mem_fileEvents_fire hk stash f
      refine ⟨new ++ more, by rw [hmore, hevents, List.append_assoc], fun item hitem => ?_⟩
      rcases List.mem_append.mp hitem with hitem | hitem
      · exact hnew item hitem
      · refine Bool.eq_false_iff.mpr fun hreports => ?_
        obtain ⟨hrelease, hkey⟩ := hreleases item hitem hreports
        rw [hkeys] at hkey
        exact hf _ hrelease hkey

/-- A process enters or leaves `read`. -/
def readBy (tracepoint : Tracepoint) (pid : UInt32) : Firing where
  tracepoint
  helpers := .plain 0
  ctx := { tgid := pid, record := fun i => if i = 8 then 63 else 0, readError := fun _ => none }

/-- 128 processes that never leave `read`. -/
def stuckReaders : List Firing :=
  (List.range 128).map fun i => readBy .sysEnter (UInt32.ofNat i)

/-- The reads of a process that comes after them are not reported. -/
theorem full_stash_starves_stuckReaders :
    ∃ new, ((Kernel.load (.Container 0)).run
        (stuckReaders ++ [readBy .sysEnter 200, readBy .sysExit 200])).fileEvents =
        ((Kernel.load (.Container 0)).run stuckReaders).fileEvents ++ new ∧
      ∀ item ∈ new, Stash.pendingFd.reports item.record.kind = false := by
  have hkeys : Stash.pendingFd.keys ((Kernel.load (.Container 0)).run stuckReaders) =
      pool 128 (stuckReaders.flatMap (Stash.pendingFd.ops (.Container 0))) := keys_run _ _ _
  refine (full_stash_starves .pendingFd (.Container 0) stuckReaders _ ?_ ?_).2
  · rw [hkeys]
    decide +kernel
  · have henter : Stash.pendingFd.ops (.Container 0) (readBy .sysEnter 200) = [.claim 200] := by
      decide +kernel
    have hexit : Stash.pendingFd.ops (.Container 0) (readBy .sysExit 200) = [.release 200] := by
      decide +kernel
    intro f hf pid hrelease
    have hpid : pid = 200 := by
      rcases List.mem_pair.mp hf with rfl | rfl
      · rw [henter] at hrelease
        simp at hrelease
      · rw [hexit] at hrelease
        simpa using hrelease
    rw [hkeys, hpid]
    decide +kernel

end Peekbeam
