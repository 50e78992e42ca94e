import Peekbeam.PollLoops
import Peekbeam.Targets

/-!
# Starting up

The first part of `main`.  The target is resolved and the privileges are checked, and then the
object file is set up: it is loaded, the filter is filled, the six programs are attached one after
another, and the rings are taken.  Any of this may fail, and then nothing is traced.

The tracepoints do not wait for that.  A program runs from the moment it is attached, while others
are still missing and before anybody reads what it reports.  `programs_run_filtered` says that none
runs before the filter is filled, and `starts_iff` when start-up completes and what the programs
have done by then: the state that `main` goes on with is one of a run from `Kernel.load`, so what
is proved about such runs holds of the tool.
-/

namespace Peekbeam

open Str History

/-! ## The arguments -/

/-- The arguments, as they are parsed.  The group `target` admits exactly one of its three. -/
structure Args where
  pid : Option UInt32 := none
  container : Option Text := none
  pod : Option Text := none
  ns : Text := "default".toList
  refreshMs : UInt64 := 1000
  json : Bool := false
  duration : Option UInt64 := none
  one : [pid.isSome, container.isSome, pod.isSome].count true = 1

/-- The target that `main` goes for. -/
def Args.target : Args → TargetArg
  | { pid := some pid, .. } => .Pid pid
  | { pid := none, container := some idOrName, .. } => .Container idOrName
  | { pid := none, container := none, pod := some name, ns, .. } => .Pod name ns
  | { pid := none, container := none, pod := none, one, .. } => absurd one (by decide)

/-- Which loop `main` ends in; the durations are in nanoseconds. -/
inductive Session
  | headless (duration : Option ℕ) (json : Bool)
  | tui
  deriving DecidableEq

def Args.session (args : Args) : Session :=
  if args.json || args.duration.isSome then
    .headless (args.duration.map fun secs => secs.toNat * 1000000000) args.json
  else .tui

def Args.refresh (args : Args) : ℕ := args.refreshMs.toNat * 1000000

/-! ## Privileges -/

/-- `check_privileges`. -/
def checkPrivileges (m : Machine) : Except Text Unit :=
  if m.effectiveUid = 0 then .ok ()
  else if m.hasCap "CAP_BPF".toList && m.hasCap "CAP_PERFMON".toList then .ok ()
  else
    .error ("peekbeam needs root, or CAP_BPF+CAP_PERFMON.\n".toList ++
      "Run with sudo, or grant the capabilities to the binary:\n".toList ++
      "  sudo setcap cap_bpf,cap_perfmon+ep <path-to-peekbeam>".toList)

/-- Root, or the two capabilities. -/
def Machine.Privileged (m : Machine) : Prop :=
  m.effectiveUid = 0 ∨ m.hasCap "CAP_BPF".toList = true ∧ m.hasCap "CAP_PERFMON".toList = true

lemma checkPrivileges_ok_iff {m : Machine} : checkPrivileges m = .ok () ↔ m.Privileged := by
  unfold checkPrivileges Machine.Privileged
  by_cases hroot : m.effectiveUid = 0
  · rw [if_pos hroot]
    exact ⟨fun _ => Or.inl hroot, fun _ => rfl⟩
  · rw [if_neg hroot]
    by_cases hcaps : (m.hasCap "CAP_BPF".toList && m.hasCap "CAP_PERFMON".toList) = true
    · rw [if_pos hcaps]
      exact ⟨fun _ => Or.inr (Bool.and_eq_true_iff.mp hcaps), fun _ => rfl⟩
    · rw [if_neg hcaps]
      refine ⟨fun h => (nomatch h), fun h => absurd ?_ hcaps⟩
      exact Bool.and_eq_true_iff.mpr (h.resolve_left hroot)

/-! ## Setting up -/

/-- The category and the name a program is attached by. -/
def Tracepoint.category : Tracepoint → Text
  | .sysEnter | .sysExit => "raw_syscalls".toList
  | .inetSockSetState => "sock".toList
  | .tcpRetransmitSkb => "tcp".toList
  | .kmalloc | .kfree => "kmem".toList

def Tracepoint.progName : Tracepoint → Text
  | .sysEnter => "sys_enter".toList
  | .sysExit => "sys_exit".toList
  | .inetSockSetState => "inet_sock_set_state".toList
  | .tcpRetransmitSkb => "tcp_retransmit_skb".toList
  | .kmalloc => "kmalloc".toList
  | .kfree => "kfree".toList

def Ring.mapName : Ring → Text
  | .events => "EVENTS".toList
  | .netEvents => "NET_EVENTS".toList
  | .fileEvents => "FILE_EVENTS".toList
  | .memEvents => "MEM_EVENTS".toList

def Target.mapName : Target → Text
  | .Pid _ => "PID_FILTER".toList
  | .Container _ | .Pod _ => "CGROUP_FILTER".toList

/-- What `main` does with the object file. -/
inductive Setup
  /-- `Ebpf::load`. -/
  | load
  /-- `map_mut`. -/
  | findMap
  /-- `BpfHashMap::try_from` and `insert`. -/
  | fillFilter
  /-- `program_mut`. -/
  | findProgram (tracepoint : Tracepoint)
  /-- `try_into` and `program.load`. -/
  | loadProgram (tracepoint : Tracepoint)
  /-- `program.attach`. -/
  | attach (tracepoint : Tracepoint)
  /-- `take_map`. -/
  | takeMap (ring : Ring)
  /-- `RingBuf::try_from`. -/
  | openRing (ring : Ring)
  deriving DecidableEq

/-- The message of a step that has failed: the context it is given, or the cause itself. -/
def Setup.error (target : Target) (cause : Text) : Setup → Text
  | .load => "loading eBPF bytecode".toList
  | .findMap => target.mapName ++ " map not found in eBPF object".toList
  | .findProgram t =>
    "program `".toList ++ t.progName ++ "` not found in eBPF object".toList
  | .attach t => "attaching ".toList ++ t.category ++ [':'] ++ t.progName
  | .takeMap ring => ring.mapName ++ " map not found in eBPF object".toList
  | .fillFilter | .loadProgram _ | .openRing _ => cause

/-- The programs, in the order they are attached. -/
def tracepoints : List Tracepoint :=
  [.sysEnter, .sysExit, .inetSockSetState, .tcpRetransmitSkb, .kmalloc, .kfree]

def setups : List Setup :=
  [.load, .findMap, .fillFilter] ++
    tracepoints.flatMap (fun t => [.findProgram t, .loadProgram t, .attach t]) ++
    [Ring.events, .netEvents, .fileEvents, .memEvents].flatMap fun ring =>
      [.takeMap ring, .openRing ring]

/-- The maps and rings of an object file that was just loaded. -/
def Kernel.empty : Kernel where
  pidFilter := .empty
  cgroupFilter := .empty
  trackedSocks := .empty
  pendingOpenPath := .empty
  pendingFd := .empty
  events := []
  netEvents := []
  fileEvents := []
  memEvents := []

/-- The insertion into the filter. -/
def Target.fill (target : Target) (k : Kernel) : Kernel :=
  match target with
  | .Pid pid => { k with pidFilter := BpfHashMap.tryInsert k.pidFilter pid 1 none }
  | .Container cgroupId | .Pod cgroupId =>
    { k with cgroupFilter := BpfHashMap.tryInsert k.cgroupFilter cgroupId 1 none }

/-- `main` while it sets up. -/
structure Loading where
  kernel : Kernel := .empty
  attached : List Tracepoint := []
  remaining : List Setup := setups

/-- The tracer of a start-up that is complete. -/
def Loading.tracer (s : Loading) : Tracer where
  kernel := s.kernel

section Loading
variable (target : Target) (fails : Setup → Option Text)

def Loading.perform (s : Loading) : Setup → Loading
  | .fillFilter => { s with kernel := target.fill s.kernel }
  | .attach t => { s with attached := s.attached ++ [t] }
  | _ => s

/-- A tracepoint fires, or `main` goes on; `fails` is what it meets with. -/
def Loading.step (s : Loading) : Act → Except Text Loading
  | .fire f =>
    .ok (if f.tracepoint ∈ s.attached then { s with kernel := s.kernel.fire f } else s)
  | .next =>
    match s.remaining with
    | [] => .ok s
    | op :: remaining =>
      match fails op with
      | some cause => .error (op.error target cause)
      | none => .ok { s.perform target op with remaining }

def Loading.run (s : Loading) (acts : List Act) : Except Text Loading :=
  acts.foldlM (Loading.step target fails) s

end Loading

/-- `main` until the rings are taken.  The arguments are parsed, and the limit on locked memory does
not matter to what follows.  Before its loops `main` still makes the label, which may panic, and
installs the signal handlers or sets up the terminal, which may fail: neither touches the trace. -/
def startUp (debug : Text → Text) (m : Machine) (fails : Setup → Option Text) (args : Args)
    (acts : List Act) : Except Text (ResolvedTarget × Loading) := do
  let target ← (resolveTarget debug m args.target).result m.output
  checkPrivileges m
  let loading ← ({} : Loading).run target.filter fails acts
  return (target, loading)

lemma Loading.run_concat_ok_iff {target : Target} {fails : Setup → Option Text} {s s' : Loading}
    {acts : List Act} {act : Act} :
    s.run target fails (acts ++ [act]) = .ok s' ↔
      ∃ t, s.run target fails acts = .ok t ∧ t.step target fails act = .ok s' := by
  unfold Loading.run
  simp only [List.foldlM_append, List.foldlM_cons, List.foldlM_nil, bind_pure]
  cases acts.foldlM (Loading.step target fails) s <;> simp [bind, Except.bind]

/-! ## What is done by when -/

/-- How often `main` has gone on. -/
def nexts (acts : List Act) : ℕ :=
  acts.countP fun
    | .fire _ => false
    | .next => true

/-- The firings that have run a program: those of a tracepoint whose program was attached. -/
def handled (acts : List Act) : List Firing :=
  collect (fun past act =>
    match act with
    | .fire f => if .attach f.tracepoint ∈ setups.take (nexts past) then [f] else []
    | .next => []) acts

lemma fill_empty (target : Target) : target.fill .empty = Kernel.load target := by
  cases target <;> rfl

/-- The filter is filled before any program is attached. -/
lemma fillFilter_mem_of_attach_mem {t : Tracepoint} {n : ℕ} (h : .attach t ∈ setups.take n) :
    .fillFilter ∈ setups.take n := by
  have hn : 3 ≤ n := by
    by_contra hlt
    have hearly : Setup.attach t ∈ setups.take 2 :=
      (List.take_subset_take_left setups (by omega)) h
    revert hearly
    cases t <;> decide
  exact (List.take_subset_take_left setups hn) (by decide)

/-- What holds as long as nothing has failed. -/
structure Loading.After (target : Target) (fails : Setup → Option Text) (acts : List Act)
    (s : Loading) : Prop where
  remaining : s.remaining = setups.drop (nexts acts)
  passed : ∀ op ∈ setups.take (nexts acts), fails op = none
  attached : s.attached = (setups.take (nexts acts)).filterMap fun
    | .attach t => some t
    | _ => none
  unfilled : .fillFilter ∉ setups.take (nexts acts) → s.kernel = .empty ∧ handled acts = []
  filled : .fillFilter ∈ setups.take (nexts acts) →
    s.kernel = (Kernel.load target).run (handled acts)

namespace Loading.After

variable {target : Target} {fails : Setup → Option Text} {acts : List Act} {s s' : Loading}

lemma mem_attached_iff (h : After target fails acts s) (t : Tracepoint) :
    t ∈ s.attached ↔ .attach t ∈ setups.take (nexts acts) := by
  rw [h.attached, List.mem_filterMap]
  constructor
  · rintro ⟨op, hop, heq⟩
    cases op with
    | attach t' =>
      obtain rfl := Option.some.inj heq
      exact hop
    | load | findMap | fillFilter | findProgram _ | loadProgram _ | takeMap _ | openRing _ =>
      exact nomatch heq
  · intro hop
    exact ⟨_, hop, rfl⟩

lemma start : After target fails [] {} where
  remaining := rfl
  passed _ hop := absurd hop List.not_mem_nil
  attached := rfl
  unfilled _ := ⟨rfl, rfl⟩
  filled hop := absurd hop List.not_mem_nil

/-- A firing is handled by an attached program, or by none. -/
lemma fire (h : After target fails acts s) (f : Firing) :
    After target fails (acts ++ [.fire f])
      (if f.tracepoint ∈ s.attached then { s with kernel := s.kernel.fire f } else s) := by
  have hnexts : nexts (acts ++ [.fire f]) = nexts acts := by simp [nexts]
  by_cases hf : f.tracepoint ∈ s.attached
  · have hattached := (h.mem_attached_iff f.tracepoint).mp hf
    have hfilled := fillFilter_mem_of_attach_mem hattached
    have hhandled : handled (acts ++ [.fire f]) = handled acts ++ [f] := by
      rw [handled, collect_concat]
      dsimp only
      rw [if_pos hattached]
      rfl
    rw [if_pos hf]
    refine ⟨?_, ?_, ?_, fun hun => ?_, fun _ => ?_⟩
    · rw [hnexts]
      exact h.remaining
    · rw [hnexts]
      exact h.passed
    · rw [hnexts]
      exact h.attached
    · exact absurd (hnexts ▸ hfilled) hun
    · rw [hhandled, run_concat, ← h.filled hfilled]
  · have hhandled : handled (acts ++ [.fire f]) = handled acts := by
      rw [handled, collect_concat]
      dsimp only
      rw [if_neg fun hop => hf ((h.mem_attached_iff f.tracepoint).mpr hop), List.append_nil]
      rfl
    rw [if_neg hf]
    refine ⟨?_, ?_, ?_, ?_, ?_⟩
    · rw [hnexts]
      exact h.remaining
    · rw [hnexts]
      exact h.passed
    · rw [hnexts]
      exact h.attached
    · rw [hnexts, hhandled]
      exact h.unfilled
    · rw [hnexts, hhandled]
      exact h.filled

/-- `main` does the next thing, or is done. -/
lemma next (h : After target fails acts s) (hstep : s.step target fails .next = .ok s') :
    After target fails (acts ++ [.next]) s' := by
  have hnexts : nexts (acts ++ [.next]) = nexts acts + 1 := by simp [nexts]
  have hhandled : handled (acts ++ [.next]) = handled acts := by
    rw [handled, collect_concat, List.append_nil]
    rfl
  unfold Loading.step at hstep
  cases hremaining : s.remaining with
  | nil =>
    -- nothing is left, so taking one more step takes the same steps
    rw [hremaining] at hstep
    obtain rfl := Except.ok.inj hstep
    have hlength : setups.length ≤ nexts acts := by
      rw [h.remaining, List.drop_eq_nil_iff] at hremaining
      exact hremaining
    have htake : setups.take (nexts acts + 1) = setups.take (nexts acts) := by
      rw [List.take_of_length_le hlength, List.take_of_length_le (by omega)]
    refine ⟨?_, ?_, ?_, ?_, ?_⟩
    · rw [hnexts, hremaining, eq_comm, List.drop_eq_nil_iff]
      omega
    · rw [hnexts, htake]
      exact h.passed
    · rw [hnexts, htake]
      exact h.attached
    · rw [hnexts, htake, hhandled]
      exact h.unfilled
    · rw [hnexts, htake, hhandled]
      exact h.filled
  | cons op remaining =>
    rw [hremaining] at hstep
    dsimp only at hstep
    cases hop : fails op with
    | some cause => simp [hop] at hstep
    | none =>
      rw [hop] at hstep
      obtain rfl := Except.ok.inj hstep
      have hdrop : setups.drop (nexts acts) = op :: remaining := h.remaining.symm.trans hremaining
      have hget : setups[nexts acts]? = some op := by
        rw [← List.head?_drop, hdrop]
        rfl
      have htake : setups.take (nexts acts + 1) = setups.take (nexts acts) ++ [op] := by
        rw [List.take_add_one, hget]
        rfl
      refine ⟨?_, ?_, ?_, ?_, ?_⟩
      · rw [hnexts, ← List.tail_drop, hdrop]
        rfl
      · rw [hnexts, htake]
        intro op' hop'
        rcases List.mem_append.mp hop' with hop' | hop'
        · exact h.passed op' hop'
        · rwa [List.mem_singleton.mp hop']
      · rw [hnexts, htake, List.filterMap_append, ← h.attached]
        cases op <;> simp [Loading.perform]
      · rw [hnexts, htake, hhandled]
        intro hun
        obtain ⟨hbefore, hne⟩ := not_or.mp fun hmem => hun (List.mem_append.mpr hmem)
        have hkernel : (s.perform target op).kernel = s.kernel := by
          cases op with
          | fillFilter => exact absurd List.mem_cons_self hne
          | load | findMap | findProgram _ | loadProgram _ | attach _ | takeMap _ | openRing _ => rfl
        exact ⟨hkernel.trans (h.unfilled hbefore).1, (h.unfilled hbefore).2⟩
      · rw [hnexts, htake, hhandled]
        intro hmem
        by_cases hbefore : Setup.fillFilter ∈ setups.take (nexts acts)
        · have hne : op ≠ .fillFilter := by
            rintro rfl
            have hnodup : (setups.take (nexts acts + 1)).Nodup :=
              (show setups.Nodup by decide).sublist (List.take_sublist _ _)
            rw [htake, List.nodup_append] at hnodup
            exact hnodup.2.2 _ hbefore _ List.mem_cons_self rfl
          have hkernel : (s.perform target op).kernel = s.kernel := by
            cases op with
            | fillFilter => exact absurd rfl hne
            | load | findMap | findProgram _ | loadProgram _ | attach _ | takeMap _ | openRing _ =>
              rfl
          exact hkernel.trans (h.filled hbefore)
        · obtain rfl : Setup.fillFilter = op := by
            simpa [hbefore] using hmem
          obtain ⟨hempty, hnone⟩ := h.unfilled hbefore
          show target.fill s.kernel = _
          rw [hempty, hnone, fill_empty, run_nil]

/-- Until something fails, `main` gets on. -/
lemma run (h : ({} : Loading).run target fails acts = .ok s) : After target fails acts s := by
  induction acts using List.reverseRecOn generalizing s with
  | nil =>
    obtain rfl := Except.ok.inj h
    exact start
  | append_singleton acts act ih =>
    rw [run_concat_ok_iff] at h
    obtain ⟨t, hbefore, hstep⟩ := h
    cases act with
    | fire f =>
      obtain rfl := Except.ok.inj hstep
      exact (ih hbefore).fire f
    | next => exact (ih hbefore).next hstep

/-- If nothing can fail, nothing does. -/
lemma exists_run (hall : ∀ op ∈ setups, fails op = none) (acts : List Act) :
    ∃ s, ({} : Loading).run target fails acts = .ok s := by
  induction acts using List.reverseRecOn with
  | nil => exact ⟨{}, rfl⟩
  | append_singleton acts act ih =>
    obtain ⟨t, hbefore⟩ := ih
    have hsteps : ∃ s, t.step target fails act = .ok s := by
      cases act with
      | fire f => exact ⟨_, rfl⟩
      | next =>
        unfold Loading.step
        cases hremaining : t.remaining with
        | nil => exact ⟨t, rfl⟩
        | cons op remaining =>
          have hop : op ∈ setups := by
            have hdrop := (run hbefore).remaining
            rw [hremaining] at hdrop
            exact List.drop_subset _ _ (hdrop ▸ List.mem_cons_self)
          dsimp only
          rw [hall op hop]
          exact ⟨_, rfl⟩
    obtain ⟨s, hstep⟩ := hsteps
    exact ⟨s, run_concat_ok_iff.mpr ⟨t, hbefore, hstep⟩⟩

/-- Everything was done once `main` has gone on often enough. -/
lemma remaining_eq_nil_iff (h : After target fails acts s) :
    s.remaining = [] ↔ setups.length ≤ nexts acts := by
  rw [h.remaining, List.drop_eq_nil_iff]

/-- The state of a start-up that is complete. -/
lemma eq_of_remaining (h : After target fails acts s) (hdone : s.remaining = []) :
    s = { kernel := (Kernel.load target).run (handled acts), attached := tracepoints,
          remaining := [] } := by
  have htake : setups.take (nexts acts) = setups :=
    List.take_of_length_le (h.remaining_eq_nil_iff.mp hdone)
  have hkernel := h.filled (by rw [htake]; decide)
  have hattached := h.attached
  rw [htake] at hattached
  obtain ⟨kernel, attached, remaining⟩ := s
  obtain rfl : kernel = _ := hkernel
  obtain rfl : attached = _ := hattached
  obtain rfl : remaining = [] := hdone
  rfl

end Loading.After

/-! ## Start-up as a whole -/

section StartUp
variable {debug : Text → Text} {m : Machine} {fails : Setup → Option Text} {args : Args}
  {acts : List Act} {target : ResolvedTarget} {s : Loading}

lemma startUp_ok_iff : startUp debug m fails args acts = .ok (target, s) ↔
    args.target.Names m target ∧ m.Privileged ∧
      ({} : Loading).run target.filter fails acts = .ok s := by
  unfold startUp
  rw [← @resolveTarget_ok_iff debug m args.target target, ← checkPrivileges_ok_iff]
  cases hresolve : (resolveTarget debug m args.target).result m.output with
  | error e => simp [bind, Except.bind]
  | ok found =>
    cases hprivileged : checkPrivileges m with
    | error e => simp [bind, Except.bind]
    | ok _ =>
      cases hrun : ({} : Loading).run found.filter fails acts with
      | error e =>
        simp only [bind, Except.bind, hrun, Except.ok.injEq, true_and]
        constructor
        · exact fun h => (nomatch h)
        · rintro ⟨rfl, h⟩
          exact nomatch hrun.symm.trans h
      | ok loading =>
        simp only [bind, Except.bind, hrun, pure, Except.pure, Except.ok.injEq, Prod.mk.injEq,
          true_and]
        constructor
        · rintro ⟨rfl, rfl⟩
          exact ⟨rfl, hrun⟩
        · rintro ⟨rfl, h⟩
          exact ⟨rfl, Except.ok.inj (hrun.symm.trans h)⟩

/-- Start-up completes if nothing is in its way. -/
lemma startUp_of_names (hnames : args.target.Names m target) (hprivileged : m.Privileged)
    (hall : ∀ op ∈ setups, fails op = none) (hlength : setups.length ≤ nexts acts) :
    startUp debug m fails args acts =
      .ok (target, { kernel := (Kernel.load target.filter).run (handled acts),
                     attached := tracepoints, remaining := [] }) := by
  obtain ⟨s, hrun⟩ : ∃ s, ({} : Loading).run target.filter fails acts = .ok s :=
    Loading.After.exists_run hall acts
  have hafter := Loading.After.run hrun
  have hs := hafter.eq_of_remaining (hafter.remaining_eq_nil_iff.mpr hlength)
  exact startUp_ok_iff.mpr ⟨hnames, hprivileged, hs ▸ hrun⟩

/-- **No program runs unfiltered.**  At every moment of the start-up, whatever fires, the kernel is
untouched, or it is what the programs that were attached have made of it since the filter was
filled. -/
theorem programs_run_filtered (h : startUp debug m fails args acts = .ok (target, s)) :
    s.kernel = .empty ∧ s.attached = [] ∧ handled acts = [] ∨
      s.kernel = (Kernel.load target.filter).run (handled acts) := by
  obtain ⟨-, -, hrun⟩ := startUp_ok_iff.mp h
  have hafter := Loading.After.run hrun
  by_cases hfilled : Setup.fillFilter ∈ setups.take (nexts acts)
  · exact Or.inr (hafter.filled hfilled)
  · obtain ⟨hempty, hnone⟩ := hafter.unfilled hfilled
    have hattached : s.attached = [] := List.eq_nil_iff_forall_not_mem.mpr fun t ht =>
      hfilled (fillFilter_mem_of_attach_mem ((hafter.mem_attached_iff t).mp ht))
    exact Or.inl ⟨hempty, hattached, hnone⟩

end StartUp

/-- Process 7 calls, frees memory and calls again, while one program after another is attached. -/
def earlyActs : List Act :=
  [.fire (kfreeBy 7), .next, .next, .next, .next, .next, .next, .fire (kfreeBy 7),
    .fire { kfreeBy 7 with tracepoint := .sysEnter }]

theorem programs_run_filtered_early :
    ∃ s : Loading, s.attached = [.sysEnter] ∧
      (s.kernel = .empty ∧ s.attached = [] ∧ handled earlyActs = [] ∨
        s.kernel = (Kernel.load (.Pid 7)).run (handled earlyActs)) := by
  obtain ⟨s, hs, hattached⟩ : ∃ s, startUp id { quietMachine with pathExists := fun _ => true }
      (fun _ => none) { pid := some 7, one := by decide } earlyActs = .ok (.Pid 7, s) ∧
        s.attached = [.sysEnter] := ⟨_, rfl, rfl⟩
  exact ⟨s, hattached, programs_run_filtered hs⟩

/-- **When start-up completes.**  That is when the arguments name a target, the privileges suffice,
nothing fails and `main` has got through; and then all six programs are attached, and the kernel is
that of a run from the filter of the target alone, of the firings that came after the attachment of
their program. -/
theorem starts_iff (debug : Text → Text) (m : Machine) (fails : Setup → Option Text) (args : Args)
    (acts : List Act) (target : ResolvedTarget) (s : Loading) :
    startUp debug m fails args acts = .ok (target, s) ∧ s.remaining = [] ↔
      args.target.Names m target ∧ m.Privileged ∧ (∀ op ∈ setups, fails op = none) ∧
        setups.length ≤ nexts acts ∧
        s = { kernel := (Kernel.load target.filter).run (handled acts), attached := tracepoints,
              remaining := [] } := by
  rw [startUp_ok_iff]
  constructor
  · rintro ⟨⟨hnames, hprivileged, hrun⟩, hdone⟩
    have hafter := Loading.After.run hrun
    have hlength := hafter.remaining_eq_nil_iff.mp hdone
    have hpassed := hafter.passed
    rw [List.take_of_length_le hlength] at hpassed
    exact ⟨hnames, hprivileged, hpassed, hlength, hafter.eq_of_remaining hdone⟩
  · rintro ⟨hnames, hprivileged, hall, hlength, rfl⟩
    have hstarts : startUp debug m fails args acts = .ok (target, _) :=
      startUp_of_names hnames hprivileged hall hlength
    exact ⟨startUp_ok_iff.mp hstarts, rfl⟩

end Peekbeam
