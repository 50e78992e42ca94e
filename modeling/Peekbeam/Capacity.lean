import Peekbeam.KernelMemory
import Peekbeam.PollLoops
import Peekbeam.SocketIdentity

/-!
# Rings that do not overflow

A record is lost when its ring has no room for it, and how much room there is depends on how fast
userspace drains.  Elsewhere the outcome of an output is an input.  Here it is taken from the ring:
an output fails only if the records that wait to be drained, the one that is being drained and the
new one do not fit (`OnlyWhenFull`).

A poll finds every ring empty once, so at any moment a ring holds at most what was written during
the current and the last iteration.  `nothing_is_lost` concludes that no output fails as long as no
iteration sees more firings than half of the ring can hold.
-/

namespace Peekbeam

/-! ## Room in a ring -/

/-- The size of each ring. -/
def RING_BYTES : ℕ := 256 * 1024

/-- The records in a ring. -/
def Rings.waiting (r : Rings) : Ring → ℕ
  | .events => r.events.length
  | .netEvents => r.netEvents.length
  | .fileEvents => r.fileEvents.length
  | .memEvents => r.memEvents.length

/-- The bytes a record takes, with its header of eight bytes. -/
def Ring.slot : Ring → ℕ
  | .events => wireSize SyscallEvent + 8
  | .netEvents => wireSize NetEvent + 8
  | .fileEvents => wireSize FileEvent + 8
  | .memEvents => wireSize MemEvent + 8

/-- The tracepoints whose programs write to a ring. -/
def Ring.writers : Ring → List Tracepoint
  | .events => [.sysEnter, .sysExit]
  | .netEvents => [.inetSockSetState, .tcpRetransmitSkb]
  | .fileEvents => [.sysExit]
  | .memEvents => [.kmalloc, .kfree]

/-- The outcome of the output of a firing. -/
def Firing.outputError (f : Firing) : Ring → Option Int32
  | .events => f.helpers.eventsError
  | .netEvents => f.helpers.netEventsError
  | .fileEvents => f.helpers.fileEventsError
  | .memEvents => f.helpers.memEventsError

/-- The firings that may write to a ring. -/
def writes (ring : Ring) (l : List Firing) : ℕ := l.countP fun f => f.tracepoint ∈ ring.writers

/-- The item that the consumer looks at still has its place. -/
def Rings.Full (r : Rings) (ring : Ring) : Prop := RING_BYTES ≤ (r.waiting ring + 2) * ring.slot

/-! ## A firing writes a record at most -/

lemma length_output {α : Type} [WireSize α] {ring ring' : RingBuf α} {record : α}
    {err : Option Int32} (h : ring.output record err = .ok ring') :
    ring'.length = ring.length + 1 := by
  cases err with
  | some e => simp [RingBuf.output] at h
  | none =>
    obtain rfl : ring ++ [RingBufItem.of record] = ring' := by simpa [RingBuf.output] using h
    simp

lemma length_recorded (h : Helpers) (event : Option FileEvent) : (recorded h event).length ≤ 1 := by
  unfold recorded
  split
  · cases event <;> simp
  · simp

lemma length_events_tryEmit (h : Helpers) (ctx : TracePointContext) (kind : EventKind) (k : Kernel) :
    (tryEmit h ctx kind k).1.events.length ≤ k.events.length + 1 := by
  unfold tryEmit
  dsimp only
  split
  · exact Nat.le_succ _
  · cases ctx.readAt Int64 SYSCALL_NR_OFFSET with
    | error e => exact Nat.le_succ _
    | ok nr =>
      dsimp only
      split
      · exact Nat.le_succ _
      · rename_i hout
        rw [handleFileSyscall, fileSyscall_frame]
        exact (length_output hout).le

lemma length_fileEvents_tryEmit (h : Helpers) (ctx : TracePointContext) (kind : EventKind)
    (k : Kernel) : (tryEmit h ctx kind k).1.fileEvents.length ≤
      k.fileEvents.length + if kind = .Exit then 1 else 0 := by
  unfold tryEmit
  dsimp only
  split
  · exact Nat.le_add_right _ _
  · cases ctx.readAt Int64 SYSCALL_NR_OFFSET with
    | error e => exact Nat.le_add_right _ _
    | ok nr =>
      dsimp only
      split
      · exact Nat.le_add_right _ _
      · rw [handleFileSyscall, fileEvents_fileSyscall, List.length_append]
        refine Nat.add_le_add_left ?_ _
        cases kind with
        | Enter => exact Nat.zero_le _
        | Exit => exact length_recorded _ _

lemma length_netEvents_le {before after : RingBuf NetEvent} {kind : NetEventKind} {h : Helpers}
    {ctx : TracePointContext} (hafter : after = before ∨ ∃ event,
      readNetEvent kind h ctx = .ok event ∧ after = before ++ [RingBufItem.of event]) :
    after.length ≤ before.length + 1 := by
  rcases hafter with rfl | ⟨event, -, rfl⟩
  · exact Nat.le_succ _
  · simp

lemma length_memEvents_emitMem (h : Helpers) (ctx : TracePointContext) (kind : MemEventKind)
    (bytes : Except Int32 UInt64) (k : Kernel) :
    (emitMem h ctx kind bytes k).1.memEvents.length ≤ k.memEvents.length + 1 := by
  rw [memEvents_emitMem, List.length_append]
  refine Nat.add_le_add_left ?_ _
  split
  · cases bytes <;> simp [Except.toOption]
  · exact Nat.zero_le 1

/-- **A firing writes a record at most**, and only to the rings of its program. -/
lemma waiting_fire (k : Kernel) (f : Firing) (ring : Ring) :
    (k.fire f).rings.waiting ring ≤ k.rings.waiting ring + writes ring [f] := by
  obtain ⟨t, h, ctx⟩ := f
  have hframe := fire_frame k ⟨t, h, ctx⟩
  cases ring with
  | events =>
    cases t with
    | sysEnter => exact length_events_tryEmit h ctx .Enter k
    | sysExit => exact length_events_tryEmit h ctx .Exit k
    | inetSockSetState | tcpRetransmitSkb | kmalloc | kfree =>
      rw [hframe]
      exact Nat.le_add_right _ _
  | netEvents =>
    cases t with
    | inetSockSetState => exact length_netEvents_le (netEvents_tryNetState h ctx k)
    | tcpRetransmitSkb => exact length_netEvents_le (netEvents_tryNetRetransmit h ctx k)
    | sysEnter | sysExit | kmalloc | kfree =>
      rw [hframe]
      exact Nat.le_add_right _ _
  | fileEvents =>
    cases t with
    | sysEnter => exact length_fileEvents_tryEmit h ctx .Enter k
    | sysExit => exact length_fileEvents_tryEmit h ctx .Exit k
    | inetSockSetState | tcpRetransmitSkb | kmalloc | kfree =>
      rw [hframe]
      exact Nat.le_add_right _ _
  | memEvents =>
    cases t with
    | kmalloc => exact length_memEvents_emitMem h ctx .Alloc (ctx.readAt UInt64 32) k
    | kfree => exact length_memEvents_emitMem h ctx .Free (.ok 0) k
    | sysEnter | sysExit | inetSockSetState | tcpRetransmitSkb =>
      rw [hframe]
      exact Nat.le_add_right _ _

lemma writes_append (ring : Ring) (l l' : List Firing) :
    writes ring (l ++ l') = writes ring l + writes ring l' := List.countP_append

lemma waiting_run (k : Kernel) (l : List Firing) (ring : Ring) :
    (k.run l).rings.waiting ring ≤ k.rings.waiting ring + writes ring l := by
  induction l using List.reverseRecOn with
  | nil => exact Nat.le_add_right _ _
  | append_singleton l f ih =>
    rw [run_concat, writes_append]
    have := waiting_fire (k.run l) f ring
    omega

/-! ## Firings whose outputs do not fail -/

/-- No output of the firing fails. -/
def Firing.Lossless (f : Firing) : Prop :=
  ∀ ring : Ring, f.tracepoint ∈ ring.writers → f.outputError ring = none

/-- The firing, with outputs that do not fail. -/
def Firing.lossless (f : Firing) : Firing :=
  { f with helpers := { f.helpers with
      eventsError := none, netEventsError := none, fileEventsError := none, memEventsError := none } }

/-- It makes no difference if they do not anyway. -/
lemma Firing.Lossless.fire_eq {f : Firing} (h : f.Lossless) (k : Kernel) :
    k.fire f.lossless = k.fire f := by
  obtain ⟨t, ⟨cgroup, time, later, string, insert, e₁, e₂, e₃, e₄⟩, ctx⟩ := f
  cases t with
  | sysEnter =>
    obtain rfl : e₁ = none := h .events List.mem_cons_self
    rfl
  | sysExit =>
    obtain rfl : e₁ = none := h .events (List.mem_cons_of_mem _ List.mem_cons_self)
    obtain rfl : e₃ = none := h .fileEvents List.mem_cons_self
    rfl
  | inetSockSetState =>
    obtain rfl : e₂ = none := h .netEvents List.mem_cons_self
    rfl
  | tcpRetransmitSkb =>
    obtain rfl : e₂ = none := h .netEvents (List.mem_cons_of_mem _ List.mem_cons_self)
    rfl
  | kmalloc =>
    obtain rfl : e₄ = none := h .memEvents List.mem_cons_self
    rfl
  | kfree =>
    obtain rfl : e₄ = none := h .memEvents (List.mem_cons_of_mem _ List.mem_cons_self)
    rfl

/-! ## What a poll leaves -/

lemma Rings.waiting_append (r r' : Rings) (ring : Ring) :
    (r ++ r').waiting ring = r.waiting ring + r'.waiting ring := by
  cases ring <;> exact List.length_append

lemma Rings.waiting_of_pop {r item rest : Rings} {ring : Ring} (h : r.pop ring = some (item, rest))
    (ring' : Ring) : rest.waiting ring' ≤ r.waiting ring' := by
  rw [← append_of_pop h, waiting_append]
  exact Nat.le_add_left _ _

lemma Rings.waiting_of_pop_eq_none {r : Rings} {ring : Ring} (h : r.pop ring = none) :
    r.waiting ring = 0 := by
  cases ring <;>
  · simp only [pop] at h
    split at h
    · rename_i hring
      exact List.length_eq_zero_iff.mpr hring
    · cases h

/-- During a poll that began in `t`, with the programs firing as in `l` so far: a ring holds no more
than what it held and what was written since, and if its closure has returned, no more than the
latter. -/
def Poll.Bounded (t : Tracer) (l : List Firing) (p : Poll) : Prop :=
  ∀ ring, p.tracer.kernel.rings.waiting ring ≤ t.kernel.rings.waiting ring + writes ring l ∧
    (ring ∉ p.remaining → p.tracer.kernel.rings.waiting ring ≤ writes ring l)

namespace Poll.Bounded

variable {t : Tracer} {l : List Firing} {p : Poll}

lemma start (t : Tracer) : (Poll.start t).Bounded t [] := fun ring =>
  ⟨Nat.le_add_right _ _, fun h => absurd (by cases ring <;> simp [Poll.start, Ring.all]) h⟩

lemma fire (h : p.Bounded t l) (f : Firing) : (p.step (.fire f)).Bounded t (l ++ [f]) := by
  intro ring
  obtain ⟨hall, hdone⟩ := h ring
  have hone := waiting_fire p.tracer.kernel f ring
  rw [writes_append]
  refine ⟨?_, fun hring => ?_⟩
  · show (p.tracer.kernel.fire f).rings.waiting ring ≤ _
    omega
  · have := hdone hring
    show (p.tracer.kernel.fire f).rings.waiting ring ≤ _
    omega

lemma next (h : p.Bounded t l) : (p.step .next).Bounded t l := by
  obtain ⟨tracer, remaining⟩ := p
  cases remaining with
  | nil => exact h
  | cons ring rest =>
    cases hnext : tracer.next ring with
    | some t' =>
      rw [poll_step_next_some hnext]
      obtain ⟨item, -, hpop⟩ := (Tracer.Follows.refl tracer).next hnext
      intro ring'
      obtain ⟨hall, hdone⟩ := h ring'
      have hless := Rings.waiting_of_pop hpop ring'
      exact ⟨hless.trans hall, fun hring' => hless.trans (hdone hring')⟩
    | none =>
      rw [poll_step_next_none hnext]
      intro ring'
      obtain ⟨hall, hdone⟩ := h ring'
      refine ⟨hall, fun hring' => ?_⟩
      by_cases heq : ring' = ring
      · -- the closure returns now, and has found its ring empty
        subst heq
        have hempty := Rings.waiting_of_pop_eq_none (Option.map_eq_none_iff.mp hnext)
        show tracer.kernel.rings.waiting ring' ≤ _
        omega
      · exact hdone fun hmem => (List.mem_cons.mp hmem).elim heq hring'

lemma run (t : Tracer) (acts : List Act) : ((Poll.start t).run acts).Bounded t (firedIn acts) := by
  induction acts using List.reverseRecOn with
  | nil => exact start t
  | append_singleton acts act ih =>
    rw [poll_run_concat]
    cases act with
    | fire f =>
      have hfired : firedIn (acts ++ [.fire f]) = firedIn acts ++ [f] := by simp [firedIn]
      rw [hfired]
      exact ih.fire f
    | next =>
      have hfired : firedIn (acts ++ [.next]) = firedIn acts := by simp [firedIn]
      rw [hfired]
      exact ih.next

end Poll.Bounded

/-! ## The outputs of a run -/

/-- The firings of a run, each with the rings it found. -/
def Kernel.outputs (k : Kernel) : List Firing → List (Rings × Firing)
  | [] => []
  | f :: l => (k.rings, f) :: (k.fire f).outputs l

/-- The firings during a poll. -/
def Poll.outputs (p : Poll) : List Act → List (Rings × Firing)
  | [] => []
  | .fire f :: acts => (p.tracer.kernel.rings, f) :: (p.step (.fire f)).outputs acts
  | .next :: acts => (p.step .next).outputs acts

lemma of_mem_outputs_run {k : Kernel} {l : List Firing} {p : Rings × Firing} (hp : p ∈ k.outputs l) :
    ∃ before after, l = before ++ p.2 :: after ∧ p.1 = (k.run before).rings := by
  induction l generalizing k with
  | nil => exact absurd hp List.not_mem_nil
  | cons f l ih =>
    rcases List.mem_cons.mp hp with rfl | hp
    · exact ⟨[], l, rfl, rfl⟩
    · obtain ⟨before, after, rfl, hrings⟩ := ih hp
      exact ⟨f :: before, after, rfl, hrings⟩

lemma of_mem_outputs_poll {poll : Poll} {acts : List Act} {p : Rings × Firing}
    (hp : p ∈ poll.outputs acts) : ∃ before after, acts = before ++ .fire p.2 :: after ∧
      p.1 = (poll.run before).tracer.kernel.rings := by
  induction acts generalizing poll with
  | nil => exact absurd hp List.not_mem_nil
  | cons act acts ih =>
    cases act with
    | fire f =>
      rcases List.mem_cons.mp hp with rfl | hp
      · exact ⟨[], acts, rfl, rfl⟩
      · obtain ⟨before, after, rfl, hrings⟩ := ih hp
        exact ⟨.fire f :: before, after, rfl, hrings⟩
    | next =>
      obtain ⟨before, after, rfl, hrings⟩ := ih hp
      exact ⟨.next :: before, after, rfl, hrings⟩

/-- An output fails only if its ring is full. -/
def OnlyWhenFull (outputs : List (Rings × Firing)) : Prop :=
  ∀ p ∈ outputs, ∀ ring, p.2.outputError ring ≠ none → p.1.Full ring

/-- No output fails. -/
def NoneFails (outputs : List (Rings × Firing)) : Prop := ∀ p ∈ outputs, p.2.Lossless

/-- How many firings that may write to a ring an iteration may see: half of what fits. -/
def Ring.pace : Ring → ℕ
  | .events => 4095
  | .netEvents => 2047
  | .fileEvents => 1169
  | .memEvents => 4095

lemma Ring.pace_spec (ring : Ring) : (2 * ring.pace + 1) * ring.slot < RING_BYTES := by
  cases ring <;> decide

/-- All rings hold little enough. -/
def Tracer.Paced (t : Tracer) : Prop := ∀ ring : Ring, t.kernel.rings.waiting ring ≤ ring.pace

/-- There is room for the output of a firing within the pace. -/
lemma lossless_of_waiting {p : Rings × Firing} (hfull : ∀ ring, p.2.outputError ring ≠ none → p.1.Full ring)
    (h : ∀ ring, p.1.waiting ring + writes ring [p.2] ≤ 2 * ring.pace) : p.2.Lossless := by
  intro ring hring
  by_contra herror
  have hroom := h ring
  have hone : writes ring [p.2] = 1 := by simp [writes, hring]
  have hle : (p.1.waiting ring + 2) * ring.slot ≤ (2 * ring.pace + 1) * ring.slot :=
    Nat.mul_le_mul_right _ (by omega)
  exact absurd (hfull ring herror) (Nat.not_le.mpr (hle.trans_lt ring.pace_spec))

section Iteration
variable {t : Tracer} {a : Activity} (ht : t.Paced) (hpace : ∀ ring, writes ring a.fired ≤ ring.pace)
include ht hpace

lemma noneFails_outputs_run (hfull : OnlyWhenFull (t.kernel.outputs a.idle)) :
    NoneFails (t.kernel.outputs a.idle) := by
  intro p hp
  refine lossless_of_waiting (hfull p hp) fun ring => ?_
  obtain ⟨before, after, hidle, hrings⟩ := of_mem_outputs_run hp
  have hwaiting := waiting_run t.kernel before ring
  have hwrites : writes ring a.fired =
      writes ring before + (writes ring [p.2] + writes ring after) + writes ring (firedIn a.acts) := by
    rw [Activity.fired, hidle, List.append_cons, writes_append, writes_append, writes_append,
      Nat.add_assoc (writes ring before)]
  have := ht ring
  have := hpace ring
  rw [hrings]
  omega

lemma noneFails_outputs_poll
    (hfull : OnlyWhenFull ((Poll.start (t.meanwhile a.idle)).outputs a.acts)) :
    NoneFails ((Poll.start (t.meanwhile a.idle)).outputs a.acts) := by
  intro p hp
  refine lossless_of_waiting (hfull p hp) fun ring => ?_
  obtain ⟨before, after, hacts, hrings⟩ := of_mem_outputs_poll hp
  have hidle := waiting_run t.kernel a.idle ring
  have hwaiting := (Poll.Bounded.run (t.meanwhile a.idle) before ring).1
  have hfired : firedIn a.acts = firedIn before ++ [p.2] ++ firedIn after := by
    rw [hacts]
    simp [firedIn]
  have hwrites : writes ring a.fired = writes ring a.idle +
      (writes ring (firedIn before) + writes ring [p.2] + writes ring (firedIn after)) := by
    rw [Activity.fired, hfired, writes_append, writes_append, writes_append]
  have := ht ring
  have := hpace ring
  have hrun : (t.meanwhile a.idle).kernel.rings.waiting ring =
      (t.kernel.run a.idle).rings.waiting ring := rfl
  rw [hrings]
  omega

omit ht in
lemma paced_of_pollOnce {t' : Tracer} (h : pollOnce (t.meanwhile a.idle) a.acts = some t') :
    t'.Paced := by
  intro ring
  obtain ⟨hdone, rfl⟩ := pollOnce_eq_some_iff.mp h
  have hwaiting := (Poll.Bounded.run (t.meanwhile a.idle) a.acts ring).2
    (by rw [hdone]; exact List.not_mem_nil)
  have hwrites : writes ring a.fired = writes ring a.idle + writes ring (firedIn a.acts) :=
    writes_append ring _ _
  have := hpace ring
  omega

end Iteration

section Loop
variable {α : Type} (activity : α → Activity)

/-- The firings of a loop, up to a poll that does not return. -/
def Tracer.outputs : Tracer → List α → List (Rings × Firing)
  | _, [] => []
  | t, tick :: ticks =>
    t.kernel.outputs (activity tick).idle ++
      (Poll.start (t.meanwhile (activity tick).idle)).outputs (activity tick).acts ++
        match pollOnce (t.meanwhile (activity tick).idle) (activity tick).acts with
        | none => []
        | some t' => t'.outputs ticks

variable {activity}

/-- **No output of a loop fails.** -/
lemma noneFails_outputs {t : Tracer} (ht : t.Paced) {ticks : List α}
    (hpace : ∀ tick ∈ ticks, ∀ ring, writes ring (activity tick).fired ≤ ring.pace)
    (hfull : OnlyWhenFull (t.outputs activity ticks)) : NoneFails (t.outputs activity ticks) := by
  induction ticks generalizing t with
  | nil => exact fun p hp => absurd hp List.not_mem_nil
  | cons tick ticks ih =>
    obtain ⟨htick, hticks⟩ := List.forall_mem_cons.mp hpace
    rw [Tracer.outputs] at hfull ⊢
    rw [OnlyWhenFull, List.forall_mem_append, List.forall_mem_append] at hfull
    rw [NoneFails, List.forall_mem_append, List.forall_mem_append]
    refine ⟨⟨noneFails_outputs_run ht htick hfull.1.1,
      noneFails_outputs_poll ht htick hfull.1.2⟩, ?_⟩
    cases hpoll : pollOnce (t.meanwhile (activity tick).idle) (activity tick).acts with
    | none => exact fun p hp => absurd hp List.not_mem_nil
    | some t' =>
      have hrest := hfull.2
      rw [hpoll] at hrest
      exact ih (paced_of_pollOnce htick hpoll) hticks hrest

/-! ## Runs without losses -/

def Act.lossless : Act → Act
  | .fire f => .fire f.lossless
  | .next => .next

def Activity.lossless (a : Activity) : Activity where
  idle := a.idle.map Firing.lossless
  acts := a.acts.map Act.lossless

lemma run_lossless {k : Kernel} {l : List Firing} (h : NoneFails (k.outputs l)) :
    k.run (l.map Firing.lossless) = k.run l := by
  induction l generalizing k with
  | nil => rfl
  | cons f l ih =>
    obtain ⟨hf, hl⟩ := List.forall_mem_cons.mp h
    show (k.fire f.lossless).run (l.map Firing.lossless) = (k.fire f).run l
    rw [hf.fire_eq, ih hl]

lemma poll_run_lossless {p : Poll} {acts : List Act} (h : NoneFails (p.outputs acts)) :
    p.run (acts.map Act.lossless) = p.run acts := by
  induction acts generalizing p with
  | nil => rfl
  | cons act acts ih =>
    cases act with
    | fire f =>
      obtain ⟨hf, hacts⟩ := List.forall_mem_cons.mp h
      have hstep : p.step (.fire f.lossless) = p.step (.fire f) := by
        rw [Poll.step, Poll.step, hf.fire_eq]
      show (p.step (.fire f.lossless)).run (acts.map Act.lossless) = (p.step (.fire f)).run acts
      rw [hstep, ih hacts]
    | next => exact ih h

lemma polled_lossless {t : Tracer} {ticks : List α}
    (h : NoneFails (t.outputs activity ticks)) :
    polled (fun tick => (activity tick).lossless) t ticks = polled activity t ticks := by
  induction ticks generalizing t with
  | nil => rfl
  | cons tick ticks ih =>
    rw [Tracer.outputs, NoneFails, List.forall_mem_append, List.forall_mem_append] at h
    obtain ⟨⟨hidle, hacts⟩, hrest⟩ := h
    have hmeanwhile : t.meanwhile (activity tick).lossless.idle =
        t.meanwhile (activity tick).idle := by
      rw [Tracer.meanwhile, Activity.lossless, run_lossless hidle]
      rfl
    have hpoll : pollOnce (t.meanwhile (activity tick).idle) (activity tick).lossless.acts =
        pollOnce (t.meanwhile (activity tick).idle) (activity tick).acts := by
      rw [pollOnce, pollOnce, Activity.lossless, poll_run_lossless hacts]
    rw [polled, polled, hmeanwhile, hpoll]
    cases hpolled : pollOnce (t.meanwhile (activity tick).idle) (activity tick).acts with
    | none => rfl
    | some t' =>
      rw [hpolled] at hrest
      dsimp only
      rw [ih hrest]

/-- **Nothing is lost.**  Let outputs fail only for want of room, and let neither the time before
the loop nor an iteration see more firings than half of a ring can hold.  Then no output fails,
before the loop or in it; what the loop sees, iteration by iteration, is what it would see if
outputs could not fail, and so accounts for all the records there can be. -/
theorem nothing_is_lost {target : Target} {past : List Firing} {ticks : List α}
    (hfull : OnlyWhenFull ((Kernel.load target).outputs past ++
      (Tracer.started target past).outputs activity ticks))
    (hpast : ∀ ring, writes ring past ≤ ring.pace)
    (hpace : ∀ tick ∈ ticks, ∀ ring, writes ring (activity tick).fired ≤ ring.pace) :
    NoneFails ((Kernel.load target).outputs past ++
      (Tracer.started target past).outputs activity ticks) ∧
    polled activity (.started target past) ticks =
      polled (fun tick => (activity tick).lossless) (.started target (past.map Firing.lossless))
        ticks ∧
    ∀ p ∈ polled activity (.started target past) ticks,
      SeenBy (fun tick => (activity tick).lossless) target (past.map Firing.lossless) ticks p := by
  rw [OnlyWhenFull, List.forall_mem_append] at hfull
  have hempty : ∀ ring, (Kernel.load target).rings.waiting ring = 0 := fun ring => by
    cases ring <;> rfl
  have hbefore : NoneFails ((Kernel.load target).outputs past) :=
    noneFails_outputs_run (t := .attach target) (a := { idle := past, acts := [] })
      (fun ring => (hempty ring).trans_le (Nat.zero_le _))
      (fun ring => by simpa [Activity.fired, firedIn] using hpast ring) hfull.1
  have hstarted : (Tracer.started target past).Paced := fun ring => by
    have hwaiting := waiting_run (Kernel.load target) past ring
    have := hempty ring
    have := hpast ring
    show ((Kernel.load target).run past).rings.waiting ring ≤ _
    omega
  have hloop := noneFails_outputs hstarted hpace hfull.2
  have hpast' : Tracer.started target (past.map Firing.lossless) = .started target past := by
    rw [Tracer.started, Tracer.started, Tracer.meanwhile, Tracer.meanwhile]
    exact congrArg (fun kernel => ({ Tracer.attach target with kernel } : Tracer)) (run_lossless hbefore)
  have hpolled : polled activity (.started target past) ticks =
      polled (fun tick => (activity tick).lossless) (.started target (past.map Firing.lossless))
        ticks := by
    rw [hpast', polled_lossless hloop]
  refine ⟨List.forall_mem_append.mpr ⟨hbefore, hloop⟩, hpolled, fun p hp => ?_⟩
  rw [hpolled] at hp
  exact seenBy_of_mem_polled hp

end Loop

/-- One iteration, with a firing before the poll and one during it. -/
def quietIteration : Activity where
  idle := [kfreeBy 1]
  acts := kfreeDuringPoll

theorem nothing_is_lost_quietIteration :
    NoneFails ((Kernel.load (.Pid 1)).outputs [kfreeBy 1] ++
      (Tracer.started (.Pid 1) [kfreeBy 1]).outputs id [quietIteration]) := by
  have hnone : (((Kernel.load (.Pid 1)).outputs [kfreeBy 1] ++
      (Tracer.started (.Pid 1) [kfreeBy 1]).outputs id [quietIteration]).all fun p =>
        Ring.all.all fun ring => p.2.outputError ring = none) = true := by
    decide +kernel
  refine (nothing_is_lost (fun p hp ring herror => absurd ?_ herror) (fun ring => ?_)
    fun tick htick ring => ?_).1
  · have hall := List.all_eq_true.mp (List.all_eq_true.mp hnone p hp) ring
      (by cases ring <;> simp [Ring.all])
    exact of_decide_eq_true hall
  · cases ring <;> decide
  · rw [List.mem_singleton.mp htick]
    cases ring <;> decide

end Peekbeam
