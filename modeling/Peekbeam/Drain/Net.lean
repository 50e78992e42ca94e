import Mathlib.Logic.Function.Basic
import Peekbeam.Common
import Peekbeam.Foundation.FinMap
import Peekbeam.Foundation.KeyedFold

/-!
# Draining network events

Userspace keeps one entry per TCP connection, by the 4-tuple each event carries: its last state
and how often it retransmitted.  An event writes the entry of its tuple, except that a
transition to `TCP_CLOSE` removes it (`lookup_drainNetOne`).  Nothing else in the event says
which connection it is about.  `drain_net_events_meaning` reads the table of a whole stream off
the events since the last close of each tuple.
-/

namespace Peekbeam

open History KeyedFold

/-- Identifies one TCP connection by its 4-tuple (FR3.3). -/
structure ConnectionKey where
  family : UInt16
  sport : UInt16
  dport : UInt16
  saddr : Vector UInt8 16
  daddr : Vector UInt8 16
  deriving DecidableEq, Inhabited

/-- Aggregated state for one connection (FR3.3/FR3.4).  In the source `retransmits` is a `u64`;
each record adds at most one, and a run has fewer than `2 ^ 64` of them. -/
structure ConnectionStats where
  state : UInt16 := 0
  retransmits : ℕ := 0
  deriving DecidableEq

/-- `connections`. -/
abbrev ConnMap := FinMap ConnectionKey ConnectionStats

/-- The connection an event is accounted to. -/
def NetEvent.key (event : NetEvent) : ConnectionKey where
  family := event.family
  sport := event.sport
  dport := event.dport
  saddr := event.saddr
  daddr := event.daddr

/-- One iteration of `drain_net_events`. -/
def drainNetOne (connections : ConnMap) (event : NetEvent) : ConnMap :=
  match event.kind with
  | .StateChange =>
    if event.state = TCP_CLOSE then connections.erase event.key
    else connections.upsert event.key {} fun entry => { entry with state := event.state }
  | .Retransmit =>
    connections.upsert event.key {} fun entry =>
      { state := event.state, retransmits := entry.retransmits + 1 }

/-- `drain_net_events`. -/
def drainNetEvents (ring : RingBuf NetEvent) (connections : ConnMap) : ConnMap :=
  drain drainNetOne ring connections

/-- Draining records written in full folds their events. -/
lemma drainNetEvents_map_of (es : List NetEvent) :
    drainNetEvents (es.map RingBufItem.of) ∅ = es.foldl drainNetOne ∅ := by
  rw [drainNetEvents, drain_map_of]

/-! ## One event -/

/-- The event marks the end of its connection. -/
def NetEvent.closes (event : NetEvent) : Bool :=
  event.kind = .StateChange ∧ event.state = TCP_CLOSE

/-- The entry of a connection after an event that does not end it. -/
def NetEvent.account (event : NetEvent) (entry : Option ConnectionStats) : ConnectionStats where
  state := event.state
  retransmits := (entry.getD {}).retransmits + if event.kind = .Retransmit then 1 else 0

/-- **One event, one entry.**  An event rewrites or removes the entry of its own tuple. -/
lemma lookup_drainNetOne (connections : ConnMap) (event : NetEvent) :
    (fun k => (drainNetOne connections event).lookup k) =
      Function.update (fun k => connections.lookup k) event.key
        (if event.closes then none else some (event.account (connections.lookup event.key))) := by
  funext k
  unfold drainNetOne NetEvent.closes NetEvent.account
  by_cases hk : k = event.key
  · subst hk
    rw [Function.update_self]
    cases event.kind with
    | StateChange =>
      by_cases hclose : event.state = TCP_CLOSE <;>
        simp [hclose, FinMap.lookup_upsert]
    | Retransmit => simp [FinMap.lookup_upsert]
  · rw [Function.update_of_ne hk]
    cases event.kind with
    | StateChange =>
      by_cases hclose : event.state = TCP_CLOSE <;>
        simp [hclose, hk, FinMap.lookup_upsert]
    | Retransmit => simp [hk, FinMap.lookup_upsert]

/-- An event that ends no connection adds an entry if its tuple is new. -/
lemma length_keys_drainNetOne (connections : ConnMap) (event : NetEvent)
    (hclose : event.closes = false) :
    (drainNetOne connections event).keys.length =
      if event.key ∈ connections.keys then connections.keys.length
      else connections.keys.length + 1 := by
  unfold drainNetOne
  cases hk : event.kind with
  | StateChange =>
    have hstate : event.state ≠ TCP_CLOSE := by simpa [NetEvent.closes, hk] using hclose
    simp only [if_neg hstate, FinMap.upsert, FinMap.length_keys_insert]
  | Retransmit => simp only [FinMap.upsert, FinMap.length_keys_insert]

lemma drainNetOne_of_closes (connections : ConnMap) {event : NetEvent}
    (hclose : event.closes = true) :
    drainNetOne connections event = connections.erase event.key := by
  obtain ⟨hkind, hstate⟩ : event.kind = .StateChange ∧ event.state = TCP_CLOSE := by
    simpa [NetEvent.closes] using hclose
  simp [drainNetOne, hkind, hstate]

/-! ## Whole streams -/

/-- The events of connection `k` since it was last closed. -/
def sinceClose (es : List NetEvent) (k : ConnectionKey) : List NetEvent :=
  since NetEvent.closes (stream NetEvent.key k es)

/-- The entry of the connection an event belongs to, after the event. -/
def NetEvent.update (entry : Option ConnectionStats) (event : NetEvent) :
    Option ConnectionStats :=
  if event.closes then none else some (event.account entry)

lemma drainNetOne_local :
    Local (fun connections : ConnMap => connections.lookup) NetEvent.key NetEvent.update
      drainNetOne := by
  intro connections event k
  have := congrFun (lookup_drainNetOne connections event) k
  rw [Function.update_apply] at this
  by_cases hk : k = event.key
  · subst hk
    simpa [NetEvent.update] using this
  · simpa [hk, Ne.symm hk] using this

/-- The events of a connection that is not closed, folded from no entry. -/
lemma foldl_update {es : List NetEvent} (h : ∀ e ∈ es, e.closes = false) :
    es.foldl NetEvent.update none = es.getLast?.map fun last =>
      { state := last.state, retransmits := es.countP fun e => e.kind = .Retransmit } := by
  induction es using List.reverseRecOn with
  | nil => rfl
  | append_singleton es e ih =>
    simp only [List.mem_append, List.mem_singleton] at h
    rw [List.foldl_append, ih fun e' he' => h e' (Or.inl he')]
    cases hlast : es.getLast? with
    | none =>
      obtain rfl := List.getLast?_eq_none_iff.mp hlast
      simp [NetEvent.update, NetEvent.account, h e (Or.inr rfl), List.countP_singleton]
    | some last =>
      simp [NetEvent.update, NetEvent.account, h e (Or.inr rfl), List.countP_append,
        List.countP_singleton]

/-- **`drain_net_events` is its look-back definition.**  A tuple has an entry once it has an
event since its last close; the entry has the state of the last of these events and counts the
retransmits among them.  The events of other tuples do not matter, and a tuple that is reused
starts without retransmits. -/
theorem drain_net_events_meaning (es : List NetEvent) (k : ConnectionKey) :
    (drainNetEvents (es.map RingBufItem.of) ∅).lookup k =
      ((sinceClose es k).getLast?.map fun last =>
        { state := last.state
          retransmits := (sinceClose es k).countP fun e => e.kind = .Retransmit }) ∧
    (∀ es', stream NetEvent.key k es = stream NetEvent.key k es' →
      (drainNetEvents (es.map RingBufItem.of) ∅).lookup k =
        (drainNetEvents (es'.map RingBufItem.of) ∅).lookup k) ∧
    ∀ pre close post, es = pre ++ close :: post → close.key = k → close.closes = true →
      (∀ e ∈ post, e.key = k → e.kind ≠ .Retransmit) →
      ∀ stats, (drainNetEvents (es.map RingBufItem.of) ∅).lookup k = some stats →
        stats.retransmits = 0 := by
  have hreset : ∀ e, NetEvent.closes e = true → ∀ v v',
      NetEvent.update v e = NetEvent.update v' e := fun e he v v' => by
    simp [NetEvent.update, he]
  have hmeaning : (es.foldl drainNetOne ∅).lookup k =
      ((sinceClose es k).getLast?.map fun last =>
        { state := last.state
          retransmits := (sinceClose es k).countP fun e => e.kind = .Retransmit }) := by
    have hstart : (lastWhere NetEvent.closes (stream NetEvent.key k es)).elim none
        (NetEvent.update none) = none := by
      cases hr : lastWhere NetEvent.closes (stream NetEvent.key k es) with
      | none => rfl
      | some r => simp [NetEvent.update, (mem_of_lastWhere hr).2]
    rw [drainNetOne_local.foldl, AList.lookup_empty, foldl_since hreset, hstart]
    exact foldl_update fun e he => resets_of_mem_since he
  simp only [drainNetEvents_map_of]
  refine ⟨hmeaning, fun es' h => drainNetOne_local.foldl_congr ∅ h, ?_⟩
  rintro pre close post rfl rfl hclose hretransmit stats hstats
  have hsince : sinceClose (pre ++ close :: post) close.key = sinceClose post close.key := by
    simp [sinceClose, stream, since_append_cons hclose]
  rw [hmeaning, hsince] at hstats
  obtain ⟨last, -, rfl⟩ := Option.map_eq_some_iff.mp hstats
  refine List.countP_eq_zero.mpr fun e he => ?_
  have hmem := List.mem_filter.mp ((List.rtakeWhile_suffix _ _).mem he)
  simpa using hretransmit e hmem.1 (by simpa using hmem.2)

/-- An event on port `sport`, otherwise with zero addresses. -/
def onPort (sport : UInt16) (kind : NetEventKind) (state : UInt16) : NetEvent where
  kind
  family := 2
  state
  sport
  dport := 443
  saddr := .replicate 16 0
  daddr := .replicate 16 0
  timestampNs := 0

/-- A tuple that retransmitted is closed and established again, between events of another. -/
def reuse : List NetEvent :=
  [onPort 40000 .Retransmit 1, onPort 40001 .StateChange 1, onPort 40000 .StateChange TCP_CLOSE,
    onPort 40001 .Retransmit 1, onPort 40000 .StateChange 1]

theorem drain_net_events_meaning_reuse :
    (drainNetEvents (reuse.map RingBufItem.of) ∅).lookup (onPort 40000 .Retransmit 1).key =
        some ⟨1, 0⟩ ∧
      (⟨1, 0⟩ : ConnectionStats).retransmits = 0 ∧
      (drainNetEvents (reuse.map RingBufItem.of) ∅).lookup (onPort 40000 .Retransmit 1).key =
        (drainNetEvents ([onPort 40000 .Retransmit 1, onPort 40000 .StateChange TCP_CLOSE,
          onPort 40000 .StateChange 1].map RingBufItem.of) ∅).lookup
          (onPort 40000 .Retransmit 1).key := by
  have hlookup : (drainNetEvents (reuse.map RingBufItem.of) ∅).lookup
      (onPort 40000 .Retransmit 1).key = some ⟨1, 0⟩ := by decide +kernel
  have hmeaning := drain_net_events_meaning reuse (onPort 40000 .Retransmit 1).key
  exact ⟨hlookup,
    hmeaning.2.2 [onPort 40000 .Retransmit 1, onPort 40001 .StateChange 1]
      (onPort 40000 .StateChange TCP_CLOSE)
      [onPort 40001 .Retransmit 1, onPort 40000 .StateChange 1]
      rfl rfl rfl (by decide +kernel) _ hlookup,
    hmeaning.2.1 _ (by decide +kernel)⟩

end Peekbeam
