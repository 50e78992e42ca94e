import Peekbeam.Drain.Net
import Peekbeam.Kernel.Run

/-!
# Firings of the socket programs

A run of the two socket programs is a list of `NetFiring`s.  This file reduces the programs to
the questions the statements about them ask of a run `l`:

* is the socket address `s` in `TRACKED_SOCKS` after `l` (`Tracked target l s`), and how does
  one firing change that (`tracked_concat`);
* does a firing after `l` write a record to `NET_EVENTS` (`Emits target l f`);
* what is in userspace's table once the records of `l` are drained (`connections target l`),
  and how does one firing change that (`connections_concat`).

Failures of the record reads, of the map insertion and of the ring are part of a firing and
arbitrary, unless a statement excludes them.
-/

namespace Peekbeam

open History

attribute [local irreducible] TracePointContext.field

/-- A firing of `inet_sock_set_state` (`StateChange`) or `tcp_retransmit_skb` (`Retransmit`). -/
structure NetFiring where
  kind : NetEventKind
  helpers : Helpers
  ctx : TracePointContext

namespace NetFiring

def toFiring (f : NetFiring) : Firing where
  tracepoint :=
    match f.kind with
    | .StateChange => .inetSockSetState
    | .Retransmit => .tcpRetransmitSkb
  helpers := f.helpers
  ctx := f.ctx

/-- The address of the socket. -/
def skaddr (f : NetFiring) : UInt64 := f.ctx.field UInt64 f.kind.layout.skaddr

/-- The record of the firing. -/
def event (f : NetFiring) : NetEvent :=
  let layout := f.kind.layout
  let family := f.ctx.field UInt16 layout.family
  { kind := f.kind
    family
    state := (f.ctx.field Int32 layout.state).toUInt32.toUInt16
    sport := f.ctx.field UInt16 layout.sport
    dport := f.ctx.field UInt16 layout.dport
    saddr := if family = AF_INET6 then f.ctx.field (Vector UInt8 16) layout.saddrV6
      else padV4 (f.ctx.field (Vector UInt8 4) layout.saddr)
    daddr := if family = AF_INET6 then f.ctx.field (Vector UInt8 16) layout.daddrV6
      else padV4 (f.ctx.field (Vector UInt8 4) layout.daddr)
    timestampNs := f.helpers.ktimeNs }

/-- The connection the record names. -/
def tuple (f : NetFiring) : ConnectionKey := f.event.key

/-- The state the record reports. -/
def state (f : NetFiring) : UInt16 := f.event.state

/-- The firing is a transition to `TCP_CLOSE`. -/
def closes (f : NetFiring) : Bool := f.event.closes

/-- The current task matches the target. -/
def Matches (target : Target) (f : NetFiring) : Prop :=
  (Kernel.load target).matchesTarget f.helpers f.ctx.tgid = true

instance (target : Target) (f : NetFiring) : Decidable (f.Matches target) :=
  inferInstanceAs (Decidable (_ = _))

/-- A firing in process `current`, during which nothing fails: the socket at `addr` with local
port `port` is in state `state`. -/
def plain (kind : NetEventKind) (current : UInt32) (addr port : UInt16) (state : UInt8) :
    NetFiring where
  kind
  helpers := .plain 0
  ctx :=
    { tgid := current
      record := fun off =>
        if off = kind.layout.skaddr then addr.toUInt8
        else if off = kind.layout.skaddr + 1 then (addr >>> 8).toUInt8
        else if off = kind.layout.state then state
        else if off = kind.layout.sport then port.toUInt8
        else if off = kind.layout.sport + 1 then (port >>> 8).toUInt8
        else 0
      readError := fun _ => none }

/-- The same firing, meeting a full ring. -/
def lost (f : NetFiring) : NetFiring :=
  { f with helpers := { f.helpers with netEventsError := some (-11) } }

/-- The address of the socket can be read. -/
def Addressed (f : NetFiring) : Prop := f.ctx.readError f.kind.layout.skaddr = none

/-- The whole record can be read and the ring has room, so that nothing keeps the event from
being written. -/
def Written (f : NetFiring) : Prop :=
  f.Addressed ∧ (readNetEvent f.kind f.helpers f.ctx).isOk = true ∧
    f.helpers.netEventsError = none

instance (f : NetFiring) : Decidable f.Addressed := inferInstanceAs (Decidable (_ = _))

instance (f : NetFiring) : Decidable f.Written := inferInstanceAs (Decidable (_ ∧ _))

/-- If the record can be read, what is read is the event of the firing. -/
lemma readNetEvent_eq {f : NetFiring}
    (h : (readNetEvent f.kind f.helpers f.ctx).isOk = true) :
    readNetEvent f.kind f.helpers f.ctx = .ok f.event := by
  cases hread : readNetEvent f.kind f.helpers f.ctx with
  | error e => simp [hread, Except.isOk, Except.toBool] at h
  | ok event =>
    unfold readNetEvent at hread
    have hread := TracePointContext.of_readAt_bind_ok hread
    have hread := TracePointContext.of_readAt_bind_ok hread
    have hread := TracePointContext.of_readAt_bind_ok hread
    have hread := TracePointContext.of_readAt_bind_ok hread
    by_cases hfamily : f.ctx.field UInt16 f.kind.layout.family = AF_INET6
    · simp only [hfamily, if_true] at hread
      have hread := TracePointContext.of_readAt_bind_ok hread
      have hread := TracePointContext.of_readAt_bind_ok hread
      rw [← Except.ok.inj hread, NetFiring.event]
      simp [hfamily]
    · simp only [hfamily, if_false] at hread
      have hread := TracePointContext.of_readAt_bind_ok hread
      have hread := TracePointContext.of_readAt_bind_ok hread
      rw [← Except.ok.inj hread, NetFiring.event]
      simp [hfamily]

/-- A record that is not written could not be read, or found the ring full. -/
lemma cases_of_not_written {f : NetFiring} (haddr : f.Addressed) (h : ¬ f.Written) :
    (∃ e, readNetEvent f.kind f.helpers f.ctx = .error e) ∨
      ∃ e, f.helpers.netEventsError = some e := by
  cases hread : readNetEvent f.kind f.helpers f.ctx with
  | error e => exact Or.inl ⟨e, rfl⟩
  | ok event =>
    refine Or.inr (Option.ne_none_iff_exists'.mp fun hout => h ⟨haddr, ?_, hout⟩)
    rw [hread]
    rfl

lemma kind_of_closes {f : NetFiring} (h : f.closes = true) : f.kind = .StateChange := by
  have : f.event.kind = .StateChange := by
    simp only [closes, NetEvent.closes, decide_eq_true_eq] at h
    exact h.1
  exact this

lemma closes_iff {f : NetFiring} (h : f.kind = .StateChange) :
    f.closes = true ↔ f.event.state = TCP_CLOSE := by
  simp [closes, NetEvent.closes, show f.event.kind = .StateChange from h]

lemma written_of_readable {f : NetFiring} (hread : f.ctx.Readable)
    (hout : f.helpers.netEventsError = none) : f.Written := by
  refine ⟨hread _, ?_, hout⟩
  unfold readNetEvent
  simp only [hread.readAt, bind, Except.bind, pure, Except.pure]
  by_cases hfamily : f.ctx.field UInt16 f.kind.layout.family = AF_INET6
  · rw [if_pos hfamily]
    rfl
  · rw [if_neg hfamily]
    rfl

section Plain
variable (kind : NetEventKind) (current : UInt32) (addr port : UInt16) (state : UInt8)

lemma written_plain : (plain kind current addr port state).Written :=
  written_of_readable (fun _ => rfl) rfl

lemma skaddr_plain : (plain kind current addr port state).skaddr = addr.toUInt64 := by
  have := toNat_two_bytes addr
  have := addr.toNat_lt
  apply UInt64.toNat_inj.mp
  cases kind <;>
    simp [skaddr, plain, TracePointContext.field, RecordField.decode, leNat, NetEventKind.layout,
      inetSockSetStateLayout, tcpRetransmitSkbLayout] <;> omega

lemma state_plain : (plain kind current addr port state).state = state.toUInt16 := by
  apply UInt16.toNat_inj.mp
  cases kind <;>
    simp [NetFiring.state, event, plain, TracePointContext.field, RecordField.decode, leNat,
      NetEventKind.layout, inetSockSetStateLayout, tcpRetransmitSkbLayout]

/-- Behind the local port the record is zero. -/
lemma field_plain_of_le {α : Type} [RecordField α] {off : ℕ} (h : kind.layout.sport + 2 ≤ off) :
    (plain kind current addr port state).ctx.field α off = RecordField.decode fun _ => 0 := by
  have hlayout : kind.layout.skaddr + 1 < kind.layout.state ∧
      kind.layout.state < kind.layout.sport := by
    cases kind <;> decide
  simp only [TracePointContext.field, plain]
  congr 1
  funext i
  repeat rw [if_neg (show _ ≠ _ by omega)]

lemma tuple_plain :
    (plain kind current addr port state).tuple =
      { family := 0, sport := port, dport := 0
        saddr := padV4 (RecordField.decode fun _ => 0)
        daddr := padV4 (RecordField.decode fun _ => 0) } := by
  have hsport :
      (plain kind current addr port state).ctx.field UInt16 kind.layout.sport = port := by
    have := toNat_two_bytes port
    have := port.toNat_lt
    apply UInt16.toNat_inj.mp
    cases kind <;>
      simp [plain, TracePointContext.field, RecordField.decode, leNat, NetEventKind.layout,
        inetSockSetStateLayout, tcpRetransmitSkbLayout] <;> omega
  have hfield : ∀ {α : Type} [RecordField α] {off : ℕ}, kind.layout.sport + 2 ≤ off →
      (plain kind current addr port state).ctx.field α off = RecordField.decode fun _ => 0 :=
    field_plain_of_le kind current addr port state
  have hlayout : kind.layout.sport + 2 ≤ kind.layout.dport ∧
      kind.layout.sport + 2 ≤ kind.layout.family ∧ kind.layout.sport + 2 ≤ kind.layout.saddr ∧
      kind.layout.sport + 2 ≤ kind.layout.daddr := by
    cases kind <;> decide
  have hzero : (RecordField.decode fun _ => 0 : UInt16) = 0 := rfl
  have hkind : (plain kind current addr port state).kind = kind := rfl
  simp only [tuple, event, NetEvent.key, hkind, hsport, hfield hlayout.1, hfield hlayout.2.1,
    hfield hlayout.2.2.1, hfield hlayout.2.2.2, hzero]
  rfl

end Plain

end NetFiring

/-! ## The state after a run -/

/-- The state of the programs after the firings `l`. -/
def afterNet (target : Target) (l : List NetFiring) : Kernel :=
  (Kernel.load target).run (l.map NetFiring.toFiring)

/-- `s` is in `TRACKED_SOCKS` after `l`. -/
def Tracked (target : Target) (l : List NetFiring) (s : UInt64) : Prop :=
  ((afterNet target l).trackedSocks.get s).isSome

/-- The firing is seen to be about a tracked socket, or to be a transition in the target's own
context. -/
def Processed (target : Target) (l : List NetFiring) (f : NetFiring) : Prop :=
  f.Addressed ∧ (Tracked target l f.skaddr ∨ f.kind = .StateChange ∧ f.Matches target)

/-- The firing writes a record. -/
def Emits (target : Target) (l : List NetFiring) (f : NetFiring) : Prop :=
  Processed target l f ∧ f.Written

/-- The socket of the firing could be added to `TRACKED_SOCKS`. -/
def Insertable (target : Target) (l : List NetFiring) (f : NetFiring) : Prop :=
  f.helpers.insertError = none ∧ (afterNet target l).trackedSocks.HasRoom f.skaddr

/-- The firing is seen to be a transition in the target's own context, and its socket can be
added. -/
def Discovers (target : Target) (l : List NetFiring) (f : NetFiring) : Prop :=
  f.Addressed ∧ f.kind = .StateChange ∧ f.Matches target ∧ Insertable target l f

section Decidable
variable (target : Target) (l : List NetFiring) (f : NetFiring)

instance (s : UInt64) : Decidable (Tracked target l s) := inferInstanceAs (Decidable (_ = _))

instance : Decidable (Processed target l f) := inferInstanceAs (Decidable (_ ∧ (_ ∨ _ ∧ _)))

instance : Decidable (Emits target l f) := inferInstanceAs (Decidable (_ ∧ _))

instance : Decidable (Insertable target l f) := inferInstanceAs (Decidable (_ ∧ _))

instance : Decidable (Discovers target l f) := inferInstanceAs (Decidable (_ ∧ _))

end Decidable

@[simp] lemma not_tracked_nil (target : Target) (s : UInt64) : ¬ Tracked target [] s := by
  simp [Tracked, afterNet, Kernel.load]

section Concat
variable (target : Target) (l : List NetFiring) (f : NetFiring)

lemma afterNet_concat :
    afterNet target (l ++ [f]) = (afterNet target l).fire f.toFiring := by
  simp [afterNet, run_concat]

/-- `TRACKED_SOCKS` after the insertion a transition may attempt. -/
def afterInsert : BpfHashMap UInt64 UInt8 1024 :=
  if f.kind = .StateChange ∧ ¬ Tracked target l f.skaddr then
    BpfHashMap.tryInsert (afterNet target l).trackedSocks f.skaddr 1 f.helpers.insertError
  else (afterNet target l).trackedSocks

lemma get_afterInsert (s : UInt64) :
    ((afterInsert target l f).get s).isSome ↔
      Tracked target l s ∨ s = f.skaddr ∧ f.kind = .StateChange ∧ Insertable target l f := by
  unfold afterInsert
  split
  · rename_i h
    rw [BpfHashMap.get_tryInsert]
    split
    · rename_i h'
      simp [h'.1, h.1, Insertable, h'.2]
    · rename_i h'
      refine ⟨Or.inl, ?_⟩
      rintro (ht | ⟨hs, -, hins⟩)
      · exact ht
      · exact absurd ⟨hs, hins⟩ h'
  · rename_i h
    refine ⟨Or.inl, ?_⟩
    rintro (ht | ⟨rfl, hk, -⟩)
    · exact ht
    · exact not_not.mp fun ht => h ⟨hk, ht⟩

variable {f} in
lemma fire_of_not_addressed {k : Kernel} (h : ¬ f.Addressed) : k.fire f.toFiring = k := by
  obtain ⟨e, he⟩ := Option.ne_none_iff_exists'.mp h
  cases hk : f.kind <;> rw [hk] at he
  · have hsk : f.ctx.readAt UInt64 inetSockSetStateLayout.skaddr = .error e :=
      TracePointContext.readAt_of_readError he
    simp [Kernel.fire, Kernel.exec, NetFiring.toFiring, hk, tryNetState, hsk]
  · have hsk : f.ctx.readAt UInt64 tcpRetransmitSkbLayout.skaddr = .error e :=
      TracePointContext.readAt_of_readError he
    simp [Kernel.fire, Kernel.exec, NetFiring.toFiring, hk, tryNetRetransmit, hsk]

/-- The state after a firing that is processed. -/
def afterProcessed : Kernel :=
  let m := afterInsert target l f
  if f.Written then
    { afterNet target l with
      trackedSocks := if f.closes then m.remove f.skaddr else m
      netEvents := (afterNet target l).netEvents ++ [RingBufItem.of f.event] }
  else { afterNet target l with trackedSocks := m }

section Programs
variable {target l f}

lemma fire_of_stateChange (haddr : f.Addressed) (hk : f.kind = .StateChange) :
    (afterNet target l).fire f.toFiring =
      if ¬ Processed target l f then afterNet target l else afterProcessed target l f := by
  have hfire : (afterNet target l).fire f.toFiring =
      (tryNetState f.helpers f.ctx (afterNet target l)).1 := by
    simp only [Kernel.fire, Kernel.exec, NetFiring.toFiring, hk, Prod.map_fst, id]
  have hmatch : (afterNet target l).matchesTarget f.helpers f.ctx.tgid =
      (Kernel.load target).matchesTarget f.helpers f.ctx.tgid := by
    rw [afterNet, run_matchesTarget]
  have hguard : (!((afterNet target l).trackedSocks.get f.skaddr).isSome &&
      !(Kernel.load target).matchesTarget f.helpers f.ctx.tgid) = true ↔
        ¬ Processed target l f := by
    simp [Processed, haddr, hk, Tracked, NetFiring.Matches]
  have hinsert : (if (!((afterNet target l).trackedSocks.get f.skaddr).isSome) = true then
        { afterNet target l with
          trackedSocks := BpfHashMap.tryInsert (afterNet target l).trackedSocks f.skaddr 1
            f.helpers.insertError }
      else afterNet target l) =
        { afterNet target l with trackedSocks := afterInsert target l f } := by
    unfold afterInsert Tracked
    split <;> simp_all
  have hclose := NetFiring.closes_iff hk
  have hread := fun hw : f.Written => NetFiring.readNetEvent_eq hw.2.1
  have hlost := NetFiring.cases_of_not_written haddr
  rw [hk] at hread hlost
  have hsk : f.ctx.readAt UInt64 inetSockSetStateLayout.skaddr = .ok f.skaddr := by
    have hread : f.ctx.readAt UInt64 f.kind.layout.skaddr = .ok f.skaddr :=
      TracePointContext.readAt_of_readError_none haddr
    rwa [hk] at hread
  rw [hfire]
  unfold tryNetState afterProcessed
  simp only [hsk, hmatch, hguard, hinsert]
  by_cases hp : Processed target l f
  · simp only [hp, not_true, if_false, RingBuf.output]
    by_cases hw : f.Written
    · by_cases hc : f.closes = true <;> simp [hw, hread hw, hw.2.2, ← hclose, hc]
    · rcases hlost hw with ⟨e, he⟩ | ⟨e, he⟩
      · simp [hw, he]
      · cases hr : readNetEvent .StateChange f.helpers f.ctx <;> simp [hw, he]
  · simp [hp]

lemma fire_of_retransmit (haddr : f.Addressed) (hk : f.kind = .Retransmit) :
    (afterNet target l).fire f.toFiring =
      if ¬ Processed target l f then afterNet target l else afterProcessed target l f := by
  have hfire : (afterNet target l).fire f.toFiring =
      (tryNetRetransmit f.helpers f.ctx (afterNet target l)).1 := by
    simp only [Kernel.fire, Kernel.exec, NetFiring.toFiring, hk, Prod.map_fst, id]
  have hguard : ((afterNet target l).trackedSocks.get f.skaddr).isNone = true ↔
      ¬ Processed target l f := by
    simp [Processed, haddr, hk, Tracked]
  have hclose : f.closes = false := by
    by_contra h
    simp [NetFiring.kind_of_closes (by simpa using h)] at hk
  have hinsert : afterInsert target l f = (afterNet target l).trackedSocks :=
    if_neg fun h => by simp [hk] at h
  have hread := fun hw : f.Written => NetFiring.readNetEvent_eq hw.2.1
  have hlost := NetFiring.cases_of_not_written haddr
  rw [hk] at hread hlost
  have hsk : f.ctx.readAt UInt64 tcpRetransmitSkbLayout.skaddr = .ok f.skaddr := by
    have hread : f.ctx.readAt UInt64 f.kind.layout.skaddr = .ok f.skaddr :=
      TracePointContext.readAt_of_readError_none haddr
    rwa [hk] at hread
  rw [hfire]
  unfold tryNetRetransmit afterProcessed
  simp only [hsk, hguard, hinsert]
  by_cases hp : Processed target l f
  · simp only [hp, not_true, if_false, RingBuf.output]
    by_cases hw : f.Written
    · simp [hw, hread hw, hw.2.2, hclose]
    · rcases hlost hw with ⟨e, he⟩ | ⟨e, he⟩
      · simp [hw, he]
      · cases hr : readNetEvent .Retransmit f.helpers f.ctx <;> simp [hw, he]
  · simp [hp]

end Programs

/-- **One firing.**  What is not processed changes nothing.  What is processed has its socket
added by a transition, writes its record if nothing fails, and only then has its socket removed
by a transition to `TCP_CLOSE`. -/
lemma afterNet_concat_eq :
    afterNet target (l ++ [f]) =
      if ¬ Processed target l f then afterNet target l else afterProcessed target l f := by
  rw [afterNet_concat]
  by_cases haddr : f.Addressed
  · cases hk : f.kind with
    | StateChange => exact fire_of_stateChange haddr hk
    | Retransmit => exact fire_of_retransmit haddr hk
  · rw [if_pos fun h => haddr h.1, fire_of_not_addressed haddr]

lemma tracked_concat (s : UInt64) :
    Tracked target (l ++ [f]) s ↔
      if s = f.skaddr then
        (Tracked target l s ∨ Discovers target l f) ∧
          ¬ (f.closes = true ∧ f.Written)
      else Tracked target l s := by
  rw [Tracked, afterNet_concat_eq, afterProcessed]
  by_cases hp : Processed target l f
  · -- a firing that is processed discovers its socket unless that is tracked already
    have hdiscovers : Tracked target l f.skaddr ∨
        (f.kind = .StateChange ∧ Insertable target l f ↔ Discovers target l f) := by
      obtain ⟨haddr, ht | ⟨hk, hmatch⟩⟩ := hp
      · exact Or.inl ht
      · exact Or.inr ⟨fun h => ⟨haddr, h.1, hmatch, h.2⟩, fun h => ⟨hk, h.2.2.2⟩⟩
    rw [if_neg (not_not.mpr hp)]
    dsimp only
    by_cases hs : s = f.skaddr
    · subst hs
      rw [if_pos rfl]
      by_cases ho : f.Written
      · rw [if_pos ho]
        by_cases hc : f.closes = true
        · simp [hc, ho, BoundedMap.get_remove]
        · rw [if_neg hc]
          simp only [get_afterInsert, hc, ho]
          tauto
      · rw [if_neg ho]
        simp only [get_afterInsert, ho]
        tauto
    · rw [if_neg hs]
      by_cases ho : f.Written
      · rw [if_pos ho]
        by_cases hc : f.closes = true
        · simp [hc, BoundedMap.get_remove, hs, get_afterInsert]
        · simp [hc, hs, get_afterInsert]
      · simp [ho, hs, get_afterInsert]
  · have hno : ¬ Discovers target l f := fun h => hp ⟨h.1, Or.inr ⟨h.2.1, h.2.2.1⟩⟩
    have hstays : Tracked target l f.skaddr → ¬ f.Written := fun ht hw => hp ⟨hw.1, Or.inl ht⟩
    rw [if_pos hp, ← Tracked]
    by_cases hs : s = f.skaddr
    · subst hs
      simp only [if_true, hno, or_false]
      tauto
    · simp [hs]

variable {target l f} in
/-- A reported firing of a tracked socket changes the number of tracked sockets only if it is a
close. -/
lemma size_of_tracked (ht : Tracked target l f.skaddr) (he : Emits target l f) :
    (afterNet target (l ++ [f])).trackedSocks.size =
      if f.closes then (afterNet target l).trackedSocks.size - 1
      else (afterNet target l).trackedSocks.size := by
  have hinsert : afterInsert target l f = (afterNet target l).trackedSocks :=
    if_neg fun h => h.2 ht
  rw [afterNet_concat_eq, if_neg (not_not.mpr he.1), afterProcessed]
  dsimp only
  rw [if_pos he.2, hinsert]
  by_cases hc : f.closes = true
  · simp only [hc, if_true, BoundedMap.size_remove]
    exact if_pos ht
  · simp [hc]

variable {target l f} in
/-- A discovery that is not a close adds one tracked socket. -/
lemma size_of_discovers (hnew : ¬ Tracked target l f.skaddr) (hd : Discovers target l f)
    (hopen : f.closes = false) :
    (afterNet target (l ++ [f])).trackedSocks.size =
      (afterNet target l).trackedSocks.size + 1 := by
  obtain ⟨haddr, hk, hmatch, herr, hroom⟩ := hd
  have hp : Processed target l f := ⟨haddr, Or.inr ⟨hk, hmatch⟩⟩
  have hinsert : (afterInsert target l f).size = (afterNet target l).trackedSocks.size + 1 := by
    rw [afterInsert, if_pos ⟨hk, hnew⟩, herr]
    exact BpfHashMap.size_tryInsert 1 hroom (Option.not_isSome_iff_eq_none.mp hnew)
  rw [afterNet_concat_eq, if_neg (not_not.mpr hp), afterProcessed, ← hinsert]
  by_cases ho : f.Written <;> simp [ho, hopen]

lemma netEvents_concat :
    (afterNet target (l ++ [f])).netEvents = (afterNet target l).netEvents ++
      if Emits target l f then [RingBufItem.of f.event] else [] := by
  rw [afterNet_concat_eq, afterProcessed]
  by_cases hp : Processed target l f
  · by_cases ho : f.Written <;> simp [Emits, hp, ho]
  · simp [Emits, hp]

/-- A firing writes a record exactly if it leaves `NET_EVENTS` changed. -/
lemma netEvents_concat_ne_iff :
    (afterNet target (l ++ [f])).netEvents ≠ (afterNet target l).netEvents ↔
      Emits target l f := by
  rw [netEvents_concat]
  by_cases he : Emits target l f <;> simp [he]

end Concat

/-! ## Userspace -/

/-- Userspace's table of connections after the run `l`, once every record is drained. -/
def connections (target : Target) (l : List NetFiring) : ConnMap :=
  drainNetEvents (afterNet target l).netEvents ∅

@[simp] lemma lookup_connections_nil (target : Target) (k : ConnectionKey) :
    (connections target []).lookup k = none :=
  AList.lookup_empty k

lemma connections_concat (target : Target) (l : List NetFiring) (f : NetFiring) :
    connections target (l ++ [f]) =
      if Emits target l f then drainNetOne (connections target l) f.event
      else connections target l := by
  unfold connections drainNetEvents
  rw [netEvents_concat, drain_append]
  split
  · exact drain_map_of drainNetOne [f.event] _
  · rfl

/-- A firing that writes a record rewrites or removes the entry of the tuple it reports. -/
lemma lookup_connections_concat (target : Target) (l : List NetFiring) (f : NetFiring)
    (k : ConnectionKey) :
    (connections target (l ++ [f])).lookup k =
      if Emits target l f ∧ k = f.tuple then
        if f.closes then none
        else some (f.event.account ((connections target l).lookup f.tuple))
      else (connections target l).lookup k := by
  rw [connections_concat]
  by_cases he : Emits target l f
  · have h : (drainNetOne (connections target l) f.event).lookup k =
        Function.update (fun k => (connections target l).lookup k) f.tuple
          (if f.closes then none
            else some (f.event.account ((connections target l).lookup f.tuple))) k :=
      congrFun (lookup_drainNetOne (connections target l) f.event) k
    rw [if_pos he, h]
    by_cases hk : k = f.tuple
    · subst hk
      simp [he]
    · rw [Function.update_of_ne hk, if_neg fun h' => hk h'.2]
  · rw [if_neg he, if_neg fun h' => he h'.1]

end Peekbeam
