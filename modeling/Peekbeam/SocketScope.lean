import Peekbeam.SocketFirings

/-!
# Whose sockets are reported

A socket is taken for the target's when it changes state while the current task matches the
target, and is then recognised by its address until its transition to `TCP_CLOSE` is reported.
Both halves can go wrong, and this file says exactly when.

* The address is forgotten only after the record of the transition was written.
  `untracked_after_close_iff`: no closed socket stays tracked — and no later socket at its
  address is reported by mistake — exactly when no such record is lost.
* The current task owns the socket only in process context.
  `only_owned_sockets_reported_iff`: with no record lost, every event concerns a socket of the
  target exactly when no transition of a foreign socket interrupts the target.
-/

namespace Peekbeam

open History

/-! ## Closing -/

/-- The firing is not a transition in the target's own context. -/
def Outside (target : Target) (f : NetFiring) : Prop :=
  f.kind = .StateChange → ¬ f.Matches target

/-- A transition to `TCP_CLOSE` is reported, or there is nothing to forget. -/
def ForgottenAtClose (target : Target) (pre : List NetFiring) (c : NetFiring) : Prop :=
  c.closes = true → c.Written ∨
    ¬ Tracked target pre c.skaddr ∧ ¬ Discovers target pre c

instance (target : Target) (pre : List NetFiring) (c : NetFiring) :
    Decidable (ForgottenAtClose target pre c) :=
  inferInstanceAs (Decidable (_ → _))

section Closing
variable {target : Target} {l : List NetFiring}

lemma untracked_concat_iff {c : NetFiring} (hc : c.closes = true) :
    ¬ Tracked target (l ++ [c]) c.skaddr ↔ ForgottenAtClose target l c := by
  rw [tracked_concat, if_pos rfl, ForgottenAtClose]
  simp only [hc, true_and, forall_const]
  tauto

/-- A socket outside the target's context does not become tracked. -/
lemma untracked_append {s : UInt64} {mid : List NetFiring} (h : ¬ Tracked target l s)
    (hmid : ∀ g ∈ mid, g.skaddr = s → Outside target g) : ¬ Tracked target (l ++ mid) s := by
  induction mid using List.reverseRecOn with
  | nil => simpa using h
  | append_singleton mid g ih =>
    have ih := ih fun g' hg' => hmid g' (List.mem_append_left _ hg')
    rw [← List.append_assoc, tracked_concat]
    by_cases hs : s = g.skaddr
    · rw [if_pos hs]
      rintro ⟨ht | ⟨-, hk, hmatch, -⟩, -⟩
      · exact ih ht
      · exact hmid g (by simp) hs.symm hk hmatch
    · rwa [if_neg hs]

/-- **Closed sockets are forgotten, exactly when their last record is not lost.**  After every
transition to `TCP_CLOSE` the address is out of `TRACKED_SOCKS`, and a later socket at that
address leaves `NET_EVENTS` unchanged outside the target's context, if and only if at every such
transition nothing keeps the record from being written, or the socket neither is tracked nor
can be added. -/
theorem untracked_after_close_iff :
    (∀ pre c post, l = pre ++ c :: post → c.closes = true →
      ¬ Tracked target (pre ++ [c]) c.skaddr ∧
      ∀ mid f post', post = mid ++ f :: post' → f.skaddr = c.skaddr →
        (∀ g ∈ mid, g.skaddr = c.skaddr → Outside target g) → Outside target f →
        (afterNet target (pre ++ [c] ++ mid ++ [f])).netEvents =
          (afterNet target (pre ++ [c] ++ mid)).netEvents) ↔
    Stepwise (ForgottenAtClose target) l := by
  constructor
  · intro h pre c post hl hc
    exact (untracked_concat_iff hc).mp (h pre c post hl hc).1 hc
  · intro h pre c post hl hc
    have huntracked := (untracked_concat_iff hc).mpr (h pre c post hl)
    refine ⟨huntracked, fun mid f post' _ hf hmid hout => ?_⟩
    by_contra hchanged
    have hemits := (netEvents_concat_ne_iff target _ f).mp hchanged
    rcases hemits.1.2 with ht | ⟨hk, hmatch⟩
    · exact untracked_append huntracked hmid (hf ▸ ht)
    · exact hout hk hmatch

/-- Process 1 opens and closes the socket at address 8, and both records are written. -/
def openClose : List NetFiring :=
  [.plain .StateChange 1 8 80 1, .plain .StateChange 1 8 80 7]

/-- The address is free again, and its next socket is not reported. -/
theorem untracked_after_close_openClose :
    ¬ Tracked (.Pid 1) openClose 8 ∧
      (afterNet (.Pid 1) (openClose ++ [.plain .StateChange 2 8 90 1])).netEvents =
        (afterNet (.Pid 1) openClose).netEvents := by
  have hforgot : Stepwise (ForgottenAtClose (.Pid 1))
      (openClose ++ [.plain .StateChange 2 8 90 1]) := by
    decide +kernel
  obtain ⟨huntracked, hsilent⟩ := untracked_after_close_iff.mpr hforgot
    [.plain .StateChange 1 8 80 1] (.plain .StateChange 1 8 80 7)
    [.plain .StateChange 2 8 90 1] rfl (by decide +kernel)
  have haddr : (NetFiring.plain .StateChange 1 8 80 7).skaddr = 8 := by decide +kernel
  rw [haddr] at huntracked
  exact ⟨huntracked, hsilent [] (.plain .StateChange 2 8 90 1) [] rfl (by decide +kernel)
    (by simp) (by unfold Outside; decide +kernel)⟩

/-- When the ring is full at the close, the address stays tracked, and the next socket there is
reported although process 2 opens it. -/
theorem lost_close_stays_tracked :
    (∀ f ∈ openClose.drop 1, f.lost.closes = true) ∧
      Tracked (.Pid 1) (openClose.take 1 ++ (openClose.drop 1).map .lost) 8 ∧
      (afterNet (.Pid 1) (openClose.take 1 ++ (openClose.drop 1).map .lost ++
          [.plain .StateChange 2 8 90 1])).netEvents =
        (afterNet (.Pid 1) (openClose.take 1 ++ (openClose.drop 1).map .lost)).netEvents ++
          [RingBufItem.of (NetFiring.plain .StateChange 2 8 90 1).event] := by
  refine ⟨?_, ?_, ?_⟩
  · decide +kernel
  · decide +kernel
  · have hemits : Emits (.Pid 1) (openClose.take 1 ++ (openClose.drop 1).map .lost)
        (.plain .StateChange 2 8 90 1) := by
      decide +kernel
    rw [netEvents_concat, if_pos hemits]

end Closing

/-! ## Owners -/

/-- A task, as far as the target is concerned. -/
structure Task where
  tgid : UInt32
  cgroupId : UInt64
  deriving DecidableEq

/-- The task is the target process, or in the target's cgroup. -/
def Target.Owns (target : Target) (task : Task) : Prop :=
  match target with
  | .Pid pid => task.tgid = pid
  | .Container cgroupId | .Pod cgroupId => task.cgroupId = cgroupId

instance (target : Target) (task : Task) : Decidable (target.Owns task) := by
  cases target <;> exact inferInstanceAs (Decidable (_ = _))

/-- The task that is current during a firing. -/
def NetFiring.current (f : NetFiring) : Task := ⟨f.ctx.tgid, f.helpers.currentCgroupId⟩

/-- `matches_target` recognises the tasks of the target. -/
lemma matches_iff {target : Target} {f : NetFiring} :
    f.Matches target ↔ target.Owns f.current := by
  have hpid : ∀ pid, (BoundedMap.empty : BpfHashMap UInt32 UInt8 1).HasRoom pid :=
    fun _ => Or.inr Nat.zero_lt_one
  have hcgroup : ∀ cgroup, (BoundedMap.empty : BpfHashMap UInt64 UInt8 1).HasRoom cgroup :=
    fun _ => Or.inr Nat.zero_lt_one
  cases target <;>
    simp [NetFiring.Matches, Kernel.matchesTarget, Kernel.load, BpfHashMap.get_tryInsert, hpid,
      hcgroup, Target.Owns, NetFiring.current]

/-- A firing with the task that owns its socket.  In process context that task is the current
one; in softirq context any task may be. -/
structure OwnedFiring where
  firing : NetFiring
  owner : Task
  softirq : Bool
  inProcess : softirq = false → firing.current = owner

namespace OwnedFiring

/-- The last firing about the socket of `f`. -/
def previous (pre : List OwnedFiring) (f : OwnedFiring) : Option OwnedFiring :=
  lastWhere (fun g => g.firing.skaddr = f.firing.skaddr) pre

/-- A socket keeps its owner until it is closed. -/
def OwnerKept (pre : List OwnedFiring) (f : OwnedFiring) : Prop :=
  ∀ g ∈ previous pre f, g.firing.closes = false → f.owner = g.owner

instance (pre : List OwnedFiring) (f : OwnedFiring) : Decidable (OwnerKept pre f) :=
  inferInstanceAs (Decidable (∀ g ∈ previous pre f, _ → _))

/-- A firing that writes to `NET_EVENTS` is about a socket of the target. -/
def ReportsOwned (target : Target) (pre : List OwnedFiring) (f : OwnedFiring) : Prop :=
  (afterNet target (pre.map firing ++ [f.firing])).netEvents ≠
    (afterNet target (pre.map firing)).netEvents → target.Owns f.owner

lemma reportsOwned_iff {target : Target} {pre : List OwnedFiring} {f : OwnedFiring} :
    ReportsOwned target pre f ↔ (Emits target (pre.map firing) f.firing → target.Owns f.owner) := by
  rw [ReportsOwned, netEvents_concat_ne_iff]

instance (target : Target) (pre : List OwnedFiring) (f : OwnedFiring) :
    Decidable (ReportsOwned target pre f) :=
  decidable_of_iff' _ reportsOwned_iff

/-- The firing is not a transition of a foreign socket that interrupts the target. -/
def NotMistaken (target : Target) (f : OwnedFiring) : Prop :=
  f.softirq = true → f.firing.kind = .StateChange → target.Owns f.firing.current →
    target.Owns f.owner

instance (target : Target) (f : OwnedFiring) : Decidable (NotMistaken target f) :=
  inferInstanceAs (Decidable (_ → _))

end OwnedFiring

section Owners
open OwnedFiring
variable {target : Target} {l : List OwnedFiring}

lemma owns_of_matches {f : OwnedFiring} (h : NotMistaken target f)
    (hk : f.firing.kind = .StateChange) (hmatch : f.firing.Matches target) :
    target.Owns f.owner := by
  rw [matches_iff] at hmatch
  cases hsoftirq : f.softirq with
  | true => exact h hsoftirq hk hmatch
  | false => exact f.inProcess hsoftirq ▸ hmatch

/-- A tracked socket is open and of the target. -/
lemma owned_of_tracked (hkept : Stepwise OwnerKept l)
    (hok : Stepwise (fun pre f => NotMistaken target f ∧
      ForgottenAtClose target (pre.map firing) f.firing) l) {s : UInt64}
    (h : Tracked target (l.map firing) s) :
    ∃ g, lastWhere (fun g => g.firing.skaddr = s) l = some g ∧ g.firing.closes = false ∧
      target.Owns g.owner := by
  induction l using List.reverseRecOn with
  | nil => simp at h
  | append_singleton l f ih =>
    obtain ⟨hkeptl, hkeptf⟩ := stepwise_concat.mp hkept
    obtain ⟨hokl, hmistake, hforgot⟩ := stepwise_concat.mp hok
    rw [List.map_append, List.map_singleton] at h
    rw [lastWhere_concat]
    by_cases hs : s = f.firing.skaddr
    · subst hs
      refine ⟨f, by simp, ?_, ?_⟩
      · by_contra hc
        have hc : f.firing.closes = true := by simpa using hc
        exact (untracked_concat_iff hc).mpr hforgot h
      · rw [tracked_concat, if_pos rfl] at h
        rcases h.1 with ht | ⟨-, hk, hmatch, -⟩
        · obtain ⟨g, hlast, hopen, howns⟩ := ih hkeptl hokl ht
          rwa [hkeptf g hlast hopen]
        · exact owns_of_matches hmistake hk hmatch
    · rw [tracked_concat, if_neg hs] at h
      obtain ⟨g, hlast, hrest⟩ := ih hkeptl hokl h
      exact ⟨g, by simpa [Ne.symm hs] using hlast, hrest⟩

/-- **Network scoping.**  When no transition of a foreign socket interrupts the target, and no
record of a closing socket is lost, every event concerns a socket of the target.  And when no
record at all is lost the first condition is necessary. -/
theorem only_owned_sockets_reported_iff (hkept : Stepwise OwnerKept l) :
    (Stepwise (fun pre f => NotMistaken target f ∧
        ForgottenAtClose target (pre.map firing) f.firing) l →
      Stepwise (ReportsOwned target) l) ∧
    ((∀ f ∈ l, f.firing.Written) →
      (Stepwise (ReportsOwned target) l ↔ ∀ f ∈ l, NotMistaken target f)) := by
  have hsound : Stepwise (fun pre f => NotMistaken target f ∧
      ForgottenAtClose target (pre.map firing) f.firing) l →
      Stepwise (ReportsOwned target) l := by
    intro hok pre f post hl
    have hprefix : pre <+: l := ⟨f :: post, hl.symm⟩
    rw [reportsOwned_iff]
    intro hemits
    rcases hemits.1.2 with ht | ⟨hk, hmatch⟩
    · obtain ⟨g, hlast, hopen, howns⟩ :=
        owned_of_tracked (hkept.of_isPrefix hprefix) (hok.of_isPrefix hprefix) ht
      rwa [hkept pre f post hl g hlast hopen]
    · exact owns_of_matches (hok pre f post hl).1 hk hmatch
  refine ⟨hsound, fun hwritten => ⟨fun h => ?_, fun h => hsound ?_⟩⟩
  · intro f hf _ hk howns
    obtain ⟨pre, post, hl⟩ := List.append_of_mem hf
    exact reportsOwned_iff.mp (h pre f post hl)
      ⟨⟨(hwritten f hf).1, Or.inr ⟨hk, matches_iff.mpr howns⟩⟩, hwritten f hf⟩
  · intro pre f post hl
    have hf : f ∈ l := by simp [hl]
    exact ⟨h f hf, fun _ => Or.inl (hwritten f hf)⟩

/-- Process 1 opens a socket, whose next transition interrupts process 2; then a transition of
a socket of process 2 interrupts process 3. -/
def interrupted : List OwnedFiring :=
  [{ firing := .plain .StateChange 1 8 80 2, owner := ⟨1, 0⟩, softirq := false
     inProcess := fun _ => rfl },
   { firing := .plain .StateChange 2 8 80 1, owner := ⟨1, 0⟩, softirq := true
     inProcess := fun h => by simp at h },
   { firing := .plain .StateChange 3 9 90 1, owner := ⟨2, 0⟩, softirq := true
     inProcess := fun h => by simp at h }]

theorem only_owned_sockets_reported_interrupted :
    Stepwise (ReportsOwned (.Pid 1)) interrupted :=
  (only_owned_sockets_reported_iff (by decide +kernel)).1 (by decide +kernel)

/-- A transition of a socket of process 2 that interrupts process 1. -/
def mistaken : List OwnedFiring :=
  [{ firing := .plain .StateChange 1 9 90 1, owner := ⟨2, 0⟩, softirq := true
     inProcess := fun h => by simp at h }]

/-- When process 1 is the target, the socket of process 2 is reported. -/
theorem mistaken_reports_foreign_socket :
    Stepwise OwnerKept mistaken ∧ ¬ Stepwise (ReportsOwned (.Pid 1)) mistaken := by
  refine ⟨?_, ?_⟩
  · decide +kernel
  · decide +kernel

end Owners

end Peekbeam
