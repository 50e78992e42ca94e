import Peekbeam.Processes

/-!
# Rows and descriptors

A descriptor dies when it is closed, and also when its process does.  The file table hears of the
first only: there is no event for `exit_group`, and the next process with the same id finds the
entries of the previous one under its own key.

`rows_truthful_iff` says when the rows are true of the world nevertheless: an open row is that of a
descriptor open in a live process as long as no descriptor in use goes away without a successful
close, and bytes stay out of the rows of earlier processes as long as nothing is transferred on a
descriptor that an earlier process with the id opened last.  `exit_leaves_row_open` is a run with
neither.
-/

namespace Peekbeam

open History

/-! ## Open rows -/

/-- Descriptor `k` was opened, read or written, and not closed since: since its last open, or
since its first transfer if it was never opened. -/
def InUse (l : List Step) (k : UInt32 × Int32) : Prop :=
  (∃ e ∈ accessEvents l, e.key = k ∧ e.kind ≠ .Close) ∧
    ∀ c ∈ sinceEntry (accessEvents l) k, c.kind ≠ .Close

/-- Every row with `closed = false` is that of a descriptor open in a live process. -/
def OpenRowsOpen (target : Target) (l : List Step) : Prop :=
  ∀ k entry, (filesAfter target l).lookup k = some entry → entry.closed = false →
    (worldAfter l).IsOpen k

/-- The step `a` takes no descriptor in use from its process, unless by a successful close. -/
def SparesUsed (pre : List Step) (a : Step) : Prop :=
  ∀ p ∈ (worldAfter pre).proc a.pid, ∀ fd ∈ p.fds,
    ¬ ((worldAfter pre).next a).IsOpen (a.pid, fd) → a.closes = false → ¬ InUse pre (a.pid, fd)

/-- No descriptor in use goes away without a successful close. -/
def NoSilentRelease (l : List Step) : Prop := Stepwise SparesUsed l

section Rows
variable {target : Target} {l : List Step} {a : Step} {k : UInt32 × Int32}

/-- One step changes one row. -/
lemma lookup_filesAfter_concat (h : ProcessRun target (l ++ [a])) (k : UInt32 × Int32) :
    (filesAfter target (l ++ [a])).lookup k =
      match (worldAfter l).report a with
      | none => (filesAfter target l).lookup k
      | some access =>
        if access.2.key = k then FileEvent.update ((filesAfter target l).lookup k) access.2
        else (filesAfter target l).lookup k := by
  rw [lookup_filesAfter h, lookup_filesAfter h.of_concat]
  cases hreport : (worldAfter l).report a with
  | none => rw [accessEvents_concat_of_none hreport]
  | some access => rw [accessEvents_concat_of_some hreport, row_concat]

/-- A row is open exactly if its descriptor is in use. -/
lemma inUse_iff : InUse l k ↔ ∃ entry, row (accessEvents l) k = some entry ∧
    entry.closed = false := by
  have hclosed := closed_row_iff (accessEvents l) k
  rw [InUse, ← isSome_drainFileEvents, ← row_eq]
  cases hrow : row (accessEvents l) k with
  | none => simp
  | some entry =>
    have : entry.closed = true ↔ ∃ c ∈ sinceEntry (accessEvents l) k, c.kind = .Close := by
      rw [← hclosed]
      simp [hrow]
    cases h : entry.closed <;> simp_all

lemma openRowsOpen_iff (h : ProcessRun target l) :
    OpenRowsOpen target l ↔ ∀ k, InUse l k → (worldAfter l).IsOpen k := by
  unfold OpenRowsOpen
  simp only [lookup_filesAfter h, inUse_iff]
  exact ⟨fun h k ⟨entry, hrow, hopen⟩ => h k entry hrow hopen,
    fun h k entry hrow hopen => h k ⟨entry, hrow, hopen⟩⟩

/-- A descriptor in use was used by the last step, or was in use before and the step is not an
access to it. -/
lemma inUse_concat (h : InUse (l ++ [a]) k) :
    (∃ access, (worldAfter l).report a = some access ∧ access.2.key = k ∧
      access.2.kind ≠ .Close) ∨
    InUse l k ∧ ∀ access, (worldAfter l).report a = some access → access.2.key ≠ k := by
  cases hreport : (worldAfter l).report a with
  | none =>
    refine Or.inr ⟨?_, by simp⟩
    rwa [InUse, accessEvents_concat_of_none hreport] at h
  | some access =>
    obtain ⟨entry, hrow, hopen⟩ := inUse_iff.mp h
    rw [accessEvents_concat_of_some hreport, row_concat] at hrow
    by_cases hk : access.2.key = k
    · refine Or.inl ⟨access, rfl, hk, fun hclose => ?_⟩
      -- a close leaves no row open
      rw [if_pos hk] at hrow
      simp only [FileEvent.update, hclose, Option.map_eq_some_iff] at hrow
      obtain ⟨entry', -, rfl⟩ := hrow
      simp [FileStats.account, hclose] at hopen
    · rw [if_neg hk] at hrow
      exact Or.inr ⟨inUse_iff.mpr ⟨entry, hrow, hopen⟩, by simp [hk]⟩

/-- What holds of the descriptors in use as long as none goes away silently: they are open, and a
process still in a call from before the trace has none. -/
structure UseInv (l : List Step) : Prop where
  isOpen : ∀ k, InUse l k → (worldAfter l).IsOpen k
  early : ∀ k p nr fd, (worldAfter l).proc k.1 = some p → p.call = some (.early nr fd) →
    ¬ InUse l k

lemma UseInv.concat (hinv : UseInv l) (hallows : (worldAfter l).Allows a)
    (hrelease : SparesUsed l a) : UseInv (l ++ [a]) where
  isOpen k huse := by
    rw [worldAfter_concat]
    rcases inUse_concat huse with ⟨access, hreport, rfl, hkind⟩ | ⟨huse, hother⟩
    · exact isOpen_of_report hallows hreport hkind
    · by_contra hgone
      rcases released_cases hallows (hinv.isOpen k huse) hgone with ⟨hclose, -⟩ |
        ⟨-, ⟨access, hreport, hk, -⟩ | ⟨p, nr, fd, hp, hcall⟩⟩
      · have hopen := hinv.isOpen k huse
        have hk : (a.pid, k.2) = k := Prod.ext (pid_of_released hopen hgone).symm rfl
        obtain ⟨p, hp, hfd⟩ := hopen
        rw [← hk] at hp hgone huse
        exact hrelease p hp k.2 hfd hgone hclose huse
      · exact hother access hreport hk
      · exact hinv.early k p nr fd hp hcall huse
  early k p nr fd hp hcall huse := by
    rw [worldAfter_concat] at hp
    by_cases hpid : k.1 = a.pid
    swap
    · rw [proc_next_of_ne hpid] at hp
      rcases inUse_concat huse with ⟨access, hreport, rfl, -⟩ | ⟨huse, -⟩
      · exact hpid (pid_of_report hreport)
      · exact hinv.early k p nr fd hp hcall huse
    rw [hpid] at hp
    cases a with
    | spawn pid fds early =>
      -- the process is new, and nothing was in use under its id
      have hnew : (worldAfter l).proc pid = none := by simpa [World.Allows] using hallows
      have hpid : k.1 = pid := hpid
      rcases inUse_concat huse with ⟨access, hreport, -⟩ | ⟨huse, -⟩
      · simp [World.report] at hreport
      · obtain ⟨p', hp', -⟩ := hinv.isOpen k huse
        simp [hpid, hnew] at hp'
    | syscall f fds =>
      -- the process has just entered a call or left one
      obtain ⟨p', hp', ⟨-, ho⟩ | ⟨-, -, ho, -⟩⟩ := World.syscall_cases hallows
      · rw [Step.pid, proc_next_enter hp' ho] at hp
        split at hp
        · simp at hp
        · obtain rfl := Option.some.inj hp
          simp at hcall
      · rw [Step.pid, proc_next_exit hp' ho] at hp
        obtain rfl := Option.some.inj hp
        simp at hcall

lemma useInv_of_noSilentRelease (h : ProcessRun target l) (hrelease : NoSilentRelease l) :
    UseInv l := by
  refine Stepwise.invariant UseInv ⟨?_, ?_⟩ (fun l a _ hstep hinv => hinv.concat hstep.1 hstep.2)
    (h.allowed.and hrelease)
  · rintro k ⟨⟨e, he, -⟩, -⟩
    simp [accessEvents, accesses] at he
  · simp [worldAfter, World.init]

/-- **Open rows are true exactly while no descriptor in use goes away silently.** -/
lemma openRowsOpen_iff_noSilentRelease (h : ProcessRun target l) :
    (∀ p, p <+: l → OpenRowsOpen target p) ↔ NoSilentRelease l := by
  constructor
  · rintro hopen pre a post rfl p hp fd hfd hgone hclose huse
    have hlast : pre ++ [a] <+: pre ++ a :: post := ⟨post, by simp⟩
    have hrun := h.of_isPrefix hlast
    have hnone : (worldAfter pre).report a = none := by
      rcases released_cases hrun.allows ⟨p, hp, hfd⟩ hgone with ⟨-, hnone⟩ | ⟨hclosed, -⟩
      · exact hnone
      · simp [hclose] at hclosed
    refine hgone ?_
    rw [← worldAfter_concat]
    refine (openRowsOpen_iff hrun).mp (hopen _ hlast) (a.pid, fd) ?_
    rwa [InUse, accessEvents_concat_of_none hnone]
  · intro hrelease p hp
    have hrun := h.of_isPrefix hp
    exact (openRowsOpen_iff hrun).mpr
      (useInv_of_noSilentRelease hrun (hrelease.of_isPrefix hp)).isOpen

end Rows

/-! ## Bytes in the rows of earlier processes -/

/-- The process whose open gave the row of `k` its path. -/
def opener (l : List Step) (k : UInt32 × Int32) : Option ℕ :=
  (lastWhere (fun access => access.2.opens && access.2.key = k) (accesses l)).map Prod.fst

/-- The path of the row of `k` was opened by an earlier process than the one that has its id
now. -/
def OpenedEarlier (l : List Step) (k : UInt32 × Int32) : Prop :=
  ∃ n ∈ opener l k, ∃ p ∈ (worldAfter l).proc k.1, n < p.birth

/-- The step `a` changes the byte counts of the row of `k`. -/
def ChangesBytes (target : Target) (l : List Step) (a : Step) (k : UInt32 × Int32) : Prop :=
  ∃ entry entry', (filesAfter target l).lookup k = some entry ∧
    (filesAfter target (l ++ [a])).lookup k = some entry' ∧
    ¬ (entry'.bytesRead = entry.bytesRead ∧ entry'.bytesWritten = entry.bytesWritten)

/-- No bytes are added to a row whose path was opened by an earlier process. -/
def BytesOwn (target : Target) (l : List Step) : Prop :=
  Stepwise (fun pre a => ∀ k, ChangesBytes target pre a k → ¬ OpenedEarlier (pre ++ [a]) k) l

/-- Nothing is transferred on a descriptor that an earlier process of the same id opened last. -/
def NoInheritedTransfer (l : List Step) : Prop :=
  Stepwise (fun pre a => ∀ access ∈ (worldAfter pre).report a, access.2.transfers = true →
    access.2.bytes ≠ 0 → ¬ OpenedEarlier pre access.2.key) l

section Bytes
variable {target : Target} {l : List Step} {a : Step} {k : UInt32 × Int32}
  {access : ℕ × FileEvent}

/-- A row that was opened exists. -/
lemma row_of_opener {n : ℕ} (h : opener l k = some n) :
    ∃ entry, row (accessEvents l) k = some entry := by
  obtain ⟨access, hlast, -⟩ := Option.map_eq_some_iff.mp h
  obtain ⟨hmem, haccess⟩ := mem_of_lastWhere hlast
  obtain ⟨hopens, hk⟩ : access.2.opens = true ∧ access.2.key = k := by simpa using haccess
  refine Option.isSome_iff_exists.mp ?_
  rw [row_eq, isSome_drainFileEvents]
  refine ⟨access.2, List.mem_map_of_mem hmem, hk, fun hclose => ?_⟩
  simp [FileEvent.opens, hclose] at hopens

/-- An open makes the row its process' own. -/
lemma not_openedEarlier_of_opens (hreport : (worldAfter l).report a = some access)
    (hopens : access.2.opens = true) : ¬ OpenedEarlier (l ++ [a]) access.2.key := by
  rintro ⟨n, hn, p, hp, hlt⟩
  obtain ⟨-, p', -, hp', -, hbirth⟩ := proc_of_report hreport
  rw [worldAfter_concat] at hp
  obtain rfl := Option.some.inj (hp'.symm.trans hp)
  have hn : access.1 = n := by
    simpa [opener, hreport, lastWhere_concat, hopens] using hn
  omega

/-- Other accesses leave the opener of the row and its process as they are. -/
lemma openedEarlier_concat_iff (hreport : (worldAfter l).report a = some access)
    (hopens : access.2.opens = false) :
    OpenedEarlier (l ++ [a]) access.2.key ↔ OpenedEarlier l access.2.key := by
  obtain ⟨p, p', hp, hp', hbirth, hbirth'⟩ := proc_of_report hreport
  have hopener : opener (l ++ [a]) access.2.key = opener l access.2.key := by
    simp [opener, hreport, lastWhere_concat, hopens]
  simp [OpenedEarlier, hopener, hp, hp', hbirth, hbirth']

/-- A transfer changes the byte counts of the row of its descriptor, if there is one. -/
lemma changesBytes_of_transfer (h : ProcessRun target (l ++ [a]))
    (hreport : (worldAfter l).report a = some access) (hopens : access.2.opens = false)
    (ht : access.2.transfers = true) (hbytes : access.2.bytes ≠ 0) {entry : FileStats}
    (hrow : (filesAfter target l).lookup access.2.key = some entry) :
    ChangesBytes target l a access.2.key := by
  refine ⟨entry, entry.account access.2, hrow, ?_, ?_⟩
  · rw [lookup_filesAfter_concat h, hreport]
    simp [hrow, update_some hopens]
  · rw [account_bytes_iff]
    exact fun hzero => hbytes (hzero ht)

/-- The byte counts of a row change with an open of its descriptor, or with a transfer on it. -/
lemma access_of_changesBytes (h : ProcessRun target (l ++ [a]))
    (hchange : ChangesBytes target l a k) :
    ∃ access, (worldAfter l).report a = some access ∧ access.2.key = k ∧
      (access.2.opens = true ∨
        access.2.opens = false ∧ access.2.transfers = true ∧ access.2.bytes ≠ 0) := by
  obtain ⟨entry, entry', hentry, hentry', hne⟩ := hchange
  rw [lookup_filesAfter_concat h, hentry] at hentry'
  cases hreport : (worldAfter l).report a with
  | none =>
    obtain rfl : entry = entry' := by simpa [hreport] using hentry'
    exact absurd ⟨rfl, rfl⟩ hne
  | some access =>
    rw [hreport] at hentry'
    dsimp only at hentry'
    split at hentry'
    · rename_i hk
      refine ⟨access, rfl, hk, ?_⟩
      cases hopens : access.2.opens with
      | true => exact Or.inl rfl
      | false =>
        rw [update_some hopens] at hentry'
        obtain rfl := Option.some.inj hentry'
        rw [account_bytes_iff, Classical.not_imp] at hne
        exact Or.inr ⟨rfl, hne⟩
    · obtain rfl := Option.some.inj hentry'
      exact absurd ⟨rfl, rfl⟩ hne

/-- **A step leaves the rows of earlier processes alone exactly if it transfers nothing on a
descriptor of one.** -/
lemma bytesOwn_step_iff (h : ProcessRun target (l ++ [a])) :
    (∀ k, ChangesBytes target l a k → ¬ OpenedEarlier (l ++ [a]) k) ↔
      ∀ access ∈ (worldAfter l).report a, access.2.transfers = true → access.2.bytes ≠ 0 →
        ¬ OpenedEarlier l access.2.key := by
  constructor
  · intro hown access hreport ht hbytes hearlier
    have hopens : access.2.opens = false := by
      unfold FileEvent.transfers at ht
      cases hkind : access.2.kind <;> simp_all [FileEvent.opens]
    have hafter := (openedEarlier_concat_iff hreport hopens).mpr hearlier
    obtain ⟨n, hn, -⟩ := hearlier
    obtain ⟨entry, hentry⟩ := row_of_opener hn
    exact hown _ (changesBytes_of_transfer h hreport hopens ht hbytes
      ((lookup_filesAfter h.of_concat _).trans hentry)) hafter
  · intro htransfer k hchange hearlier
    obtain ⟨access, hreport, rfl, hopens | ⟨hopens, ht, hbytes⟩⟩ := access_of_changesBytes h hchange
    · exact not_openedEarlier_of_opens hreport hopens hearlier
    · exact htransfer access hreport ht hbytes
        ((openedEarlier_concat_iff hreport hopens).mp hearlier)

lemma bytesOwn_iff_noInheritedTransfer (h : ProcessRun target l) :
    BytesOwn target l ↔ NoInheritedTransfer l :=
  stepwise_congr fun _ _ hp => bytesOwn_step_iff (h.of_isPrefix hp)

/-- **The rows are true of the processes exactly while none leaves a trace behind.**  Whatever
processes appear, make calls and exit, and whatever ids they reuse: in every state the run goes
through an open row is that of a descriptor open in a live process, and no step adds bytes to a
row whose path was opened by an earlier process, exactly if no descriptor in use goes away
without a successful close, as it does in `exit_group`, and nothing is transferred on a
descriptor that an earlier process of the same id opened last. -/
theorem rows_truthful_iff (h : ProcessRun target l) :
    ((∀ p, p <+: l → OpenRowsOpen target p) ∧ BytesOwn target l) ↔
      NoSilentRelease l ∧ NoInheritedTransfer l :=
  and_congr (openRowsOpen_iff_noSilentRelease h) (bytesOwn_iff_noInheritedTransfer h)

end Bytes

instance (l : List Step) (k : UInt32 × Int32) : Decidable (InUse l k) :=
  inferInstanceAs (Decidable (_ ∧ _))

instance (pre : List Step) (a : Step) : Decidable (SparesUsed pre a) :=
  match h : (worldAfter pre).proc a.pid with
  | none => .isTrue (by simp [SparesUsed, h])
  | some p =>
    -- over the descriptors of the process, not over all of `Int32`
    @decidable_of_iff _ (∀ fd ∈ p.fds, ¬ ((worldAfter pre).next a).IsOpen (a.pid, fd) →
      a.closes = false → ¬ InUse pre (a.pid, fd)) (by simp [SparesUsed, h])
      Finset.decidableDforallFinset

instance (l : List Step) : Decidable (NoSilentRelease l) :=
  inferInstanceAs (Decidable (Stepwise SparesUsed l))

instance (l : List Step) (k : UInt32 × Int32) : Decidable (OpenedEarlier l k) :=
  inferInstanceAs (Decidable (∃ n ∈ opener l k, ∃ p ∈ (worldAfter l).proc k.1, n < p.birth))

instance (l : List Step) : Decidable (NoInheritedTransfer l) :=
  inferInstanceAs (Decidable (Stepwise _ l))

open SyscallFiring (plain plain_delivered)

/-- Process 1 opens descriptor 3 and closes it before it exits; the next process 1 opens 3 anew and
reads 7 bytes. -/
def closedBeforeExit : List Step :=
  [.spawn 1 {0} none,
    .syscall (plain () 1 .Enter 56 0 10) ∅, .syscall (plain () 1 .Exit 56 3 20) {0, 3},
    .syscall (plain () 1 .Enter 57 3 30) ∅, .syscall (plain () 1 .Exit 57 0 40) {0},
    .syscall (plain () 1 .Enter 94 0 50) ∅,
    .spawn 1 {0} none,
    .syscall (plain () 1 .Enter 56 0 60) ∅, .syscall (plain () 1 .Exit 56 3 70) {0, 3},
    .syscall (plain () 1 .Enter 63 3 80) ∅, .syscall (plain () 1 .Exit 63 7 90) {0, 3}]

theorem rows_truthful_iff_closedBeforeExit :
    (∀ p, p <+: closedBeforeExit → OpenRowsOpen (.Pid 1) p) ∧
      BytesOwn (.Pid 1) closedBeforeExit ∧
      (filesAfter (.Pid 1) closedBeforeExit).lookup (1, 3) = some ⟨[], 7, 0, false⟩ := by
  have hrun : ProcessRun (.Pid 1) closedBeforeExit :=
    { allowed := by decide +kernel
      delivered := by simp [closedBeforeExit, plain_delivered]
      unfailing := unfailing_of_room
        (by simp [closedBeforeExit, plain, Helpers.plain, TracePointContext.Readable])
        (by decide +kernel) }
  obtain ⟨hopen, hbytes⟩ := (rows_truthful_iff hrun).mpr ⟨by decide +kernel, by decide +kernel⟩
  exact ⟨hopen, hbytes, by decide +kernel⟩

/-- Process 1 opens descriptor 3 and exits; the next process 1 has a descriptor 3 from its parent,
and reads 7 bytes from it. -/
def outlived : List Step :=
  [.spawn 1 {0} none,
    .syscall (plain () 1 .Enter 56 0 10) ∅, .syscall (plain () 1 .Exit 56 3 20) {0, 3},
    .syscall (plain () 1 .Enter 94 0 30) ∅,
    .spawn 1 {3} none,
    .syscall (plain () 1 .Enter 63 3 40) ∅, .syscall (plain () 1 .Exit 63 7 50) {3}]

/-- The row of descriptor 3 is open while no process is alive, and the bytes the second process
reads are added to the file of the first. -/
theorem exit_leaves_row_open :
    ProcessRun (.Pid 1) outlived ∧ ¬ OpenRowsOpen (.Pid 1) (outlived.take 4) ∧
      ¬ BytesOwn (.Pid 1) outlived := by
  have hrun : ProcessRun (.Pid 1) outlived :=
    { allowed := by decide +kernel
      delivered := by simp [outlived, plain_delivered]
      unfailing := unfailing_of_room
        (by simp [outlived, plain, Helpers.plain, TracePointContext.Readable])
        (by decide +kernel) }
  refine ⟨hrun, fun hopen => ?_, fun hbytes => ?_⟩
  · have hrow : (filesAfter (.Pid 1) (outlived.take 4)).lookup (1, 3) =
        some ⟨[], 0, 0, false⟩ := by decide +kernel
    exact absurd (hopen (1, 3) _ hrow rfl) (by decide +kernel)
  · have hbefore : (filesAfter (.Pid 1) (outlived.take 6)).lookup (1, 3) =
        some ⟨[], 0, 0, false⟩ := by decide +kernel
    have hafter : (filesAfter (.Pid 1) outlived).lookup (1, 3) = some ⟨[], 7, 0, false⟩ := by
      decide +kernel
    exact hbytes (outlived.take 6) (.syscall (plain () 1 .Exit 63 7 50) {3}) [] rfl (1, 3)
      ⟨_, _, hbefore, hafter, by decide⟩ (by decide +kernel)

end Peekbeam
