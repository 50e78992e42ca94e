import Mathlib.Data.Finset.Card
import Peekbeam.Foundation.FinMap
import Peekbeam.Foundation.History

/-!
# A pool of slots

A fixed number of slots is handed out to clients.  A client that claims a slot keeps it until it
releases it, and claiming again changes nothing; a claim by a client without a slot is refused
when all slots are taken, and a refused client is not told.

* `holders ops` — who would hold a slot after `ops` if there were enough for everybody.
* `pool cap ops` — who holds one of `cap` slots.
* `Refused` — what can happen to a claim.

`none_refused_iff` — `cap` slots are enough exactly when there are never more than `cap` holders.
`foldl_grant_of_full` — once the pool is full and its clients do not release their slots, nobody
else gets one again.  Where one step does several operations, `stepwise_hasSlot_iff` says the former
of the steps.

A bounded map is such a pool, its keys the clients (`BoundedMap.keySet`).
-/

namespace Slots

open History

variable {κ : Type*}

/-- What a client does. -/
inductive Op (κ : Type*)
  | claim (k : κ)
  | release (k : κ)
  deriving DecidableEq

variable [DecidableEq κ] {cap : ℕ}

/-- The effect of an operation that is not refused. -/
def hold (held : Finset κ) : Op κ → Finset κ
  | .claim k => insert k held
  | .release k => held.erase k

/-- There is no slot for the client. -/
def Refused (cap : ℕ) (held : Finset κ) : Op κ → Prop
  | .claim k => k ∉ held ∧ cap ≤ held.card
  | .release _ => False

instance (held : Finset κ) (op : Op κ) : Decidable (Refused cap held op) :=
  match op with
  | .claim _ => inferInstanceAs (Decidable (_ ∧ _))
  | .release _ => inferInstanceAs (Decidable False)

/-- The clients that hold a slot, if nobody is refused. -/
def holders (ops : List (Op κ)) : Finset κ := ops.foldl hold ∅

/-- The effect of an operation on a pool of `cap` slots. -/
def grant (cap : ℕ) (held : Finset κ) (op : Op κ) : Finset κ :=
  if Refused cap held op then held else hold held op

/-- The clients that hold one of `cap` slots. -/
def pool (cap : ℕ) (ops : List (Op κ)) : Finset κ := ops.foldl (grant cap) ∅

@[simp] lemma holders_nil : holders ([] : List (Op κ)) = ∅ := rfl

@[simp] lemma pool_nil : pool cap ([] : List (Op κ)) = ∅ := rfl

lemma holders_concat (ops : List (Op κ)) (op : Op κ) :
    holders (ops ++ [op]) = hold (holders ops) op := by
  simp [holders]

lemma pool_append (ops ops' : List (Op κ)) :
    pool cap (ops ++ ops') = ops'.foldl (grant cap) (pool cap ops) :=
  List.foldl_append

lemma pool_concat (ops : List (Op κ)) (op : Op κ) :
    pool cap (ops ++ [op]) = grant cap (pool cap ops) op :=
  pool_append ops [op]

@[simp] lemma grant_release (held : Finset κ) (k : κ) :
    grant cap held (.release k) = held.erase k := rfl

/-- Claiming again changes nothing. -/
lemma grant_claim_of_mem {held : Finset κ} {k : κ} (h : k ∈ held) :
    grant cap held (.claim k) = held := by
  rw [grant, if_neg fun hr : Refused cap held (.claim k) => hr.1 h]
  exact Finset.insert_eq_of_mem h

/-- There are never more clients than slots. -/
lemma card_grant_le {held : Finset κ} (h : held.card ≤ cap) (op : Op κ) :
    (grant cap held op).card ≤ cap := by
  unfold grant
  split
  · exact h
  · rename_i hop
    cases op with
    | claim k =>
      by_cases hk : k ∈ held
      · rwa [hold, Finset.insert_eq_of_mem hk]
      · have hlt : held.card < cap := not_le.mp fun hle => hop ⟨hk, hle⟩
        rwa [hold, Finset.card_insert_of_notMem hk]
    | release k => exact Finset.card_erase_le.trans h

lemma card_pool_le (ops : List (Op κ)) : (pool cap ops).card ≤ cap := by
  induction ops using List.reverseRecOn with
  | nil => simp
  | append_singleton ops op ih =>
    rw [pool_concat]
    exact card_grant_le ih op

/-! ## Enough slots -/

/-- Nobody is refused along `ops`. -/
def NoneRefused (cap : ℕ) (ops : List (Op κ)) : Prop :=
  Stepwise (fun pre op => ¬ Refused cap (pool cap pre) op) ops

lemma pool_eq_holders {ops : List (Op κ)} (h : NoneRefused cap ops) :
    pool cap ops = holders ops := by
  refine Stepwise.invariant (fun ops => pool cap ops = holders ops) rfl ?_ h
  intro ops op _ hop ih
  rw [pool_concat, holders_concat, grant, if_neg hop, ih]

/-- A claim is refused when it makes one holder too many. -/
lemma refused_iff {held : Finset κ} (h : held.card ≤ cap) (op : Op κ) :
    Refused cap held op ↔ cap < (hold held op).card := by
  cases op with
  | claim k =>
    by_cases hk : k ∈ held
    · rw [hold, Finset.insert_eq_of_mem hk]
      exact iff_of_false (fun hr => hr.1 hk) (not_lt.mpr h)
    · rw [hold, Finset.card_insert_of_notMem hk, Nat.lt_succ_iff]
      exact ⟨fun hr => hr.2, fun hle => ⟨hk, hle⟩⟩
  | release k => exact iff_of_false id (not_lt.mpr (Finset.card_erase_le.trans h))

/-- **Enough slots.**  Nobody is refused exactly when there are never more holders than slots. -/
theorem none_refused_iff {ops : List (Op κ)} :
    NoneRefused cap ops ↔ ∀ pre, pre <+: ops → (holders pre).card ≤ cap := by
  constructor
  · intro h pre hpre
    rw [← pool_eq_holders (h.of_isPrefix hpre)]
    exact card_pool_le pre
  · intro h
    induction ops using List.reverseRecOn with
    | nil => exact stepwise_nil _
    | append_singleton ops op ih =>
      obtain ⟨hops, hlast⟩ := forall_prefix_concat.mp h
      have hnone := ih hops
      refine stepwise_concat.mpr ⟨hnone, ?_⟩
      rw [refused_iff (card_pool_le ops), pool_eq_holders hnone, ← holders_concat]
      exact not_lt.mpr hlast

/-! ## A full pool -/

/-- Nobody gets a slot of a full pool whose clients keep theirs. -/
lemma grant_of_full {held : Finset κ} (hfull : cap ≤ held.card) {op : Op κ}
    (hkeep : ∀ k, op = .release k → k ∉ held) : grant cap held op = held := by
  unfold grant
  split
  · rfl
  · rename_i hop
    cases op with
    | claim k =>
      have hk : k ∈ held := not_not.mp fun hk => hop ⟨hk, hfull⟩
      exact Finset.insert_eq_of_mem hk
    | release k => exact Finset.erase_eq_of_notMem (hkeep k rfl)

/-- **A full pool stays as it is** until one of its clients releases its slot. -/
theorem foldl_grant_of_full {held : Finset κ} (hfull : cap ≤ held.card) {ops : List (Op κ)}
    (hkeep : ∀ k, .release k ∈ ops → k ∉ held) : ops.foldl (grant cap) held = held := by
  induction ops with
  | nil => rfl
  | cons op ops ih =>
    rw [List.foldl_cons,
      grant_of_full hfull fun k hk => hkeep k (hk ▸ List.mem_cons_self)]
    exact ih fun k hk => hkeep k (List.mem_cons_of_mem _ hk)

/-! ## Many operations in one step -/

section Steps
variable {α : Type*} (effect : α → List (Op κ))

/-- Nobody is refused along the operations of `l` exactly when nobody is in any step of it. -/
lemma none_refused_flatMap {l : List α} :
    NoneRefused cap (l.flatMap effect) ↔
      Stepwise (fun pre f => Stepwise (fun ops op =>
        ¬ Refused cap (pool cap (pre.flatMap effect ++ ops)) op) (effect f)) l := by
  induction l using List.reverseRecOn with
  | nil => simp [NoneRefused]
  | append_singleton l f ih =>
    have happend : ∀ ops, NoneRefused cap (l.flatMap effect ++ ops) ↔
        NoneRefused cap (l.flatMap effect) ∧ Stepwise (fun ops op =>
          ¬ Refused cap (pool cap (l.flatMap effect ++ ops)) op) ops := by
      intro ops
      induction ops using List.reverseRecOn with
      | nil => simp
      | append_singleton ops op ihops =>
        rw [← List.append_assoc, NoneRefused, stepwise_concat, stepwise_concat, ← and_assoc]
        exact and_congr_left fun _ => ihops
    rw [List.flatMap_append, List.flatMap_singleton, happend, ih, stepwise_concat]

/-- In a step that claims, if at all, before anything else, it is decided beforehand whether
somebody is refused. -/
lemma stepwise_refused_iff {ops past : List (Op κ)}
    (hfirst : ∀ op ∈ ops.tail, ∃ k, op = .release k) :
    Stepwise (fun pre op => ¬ Refused cap (pool cap (past ++ pre)) op) ops ↔
      ∀ k, .claim k ∈ ops → ¬ Refused cap (pool cap past) (.claim k) := by
  cases ops with
  | nil => simp
  | cons op ops =>
    constructor
    · intro h k hk
      rcases List.mem_cons.mp hk with rfl | hk
      · simpa using h [] (.claim k) ops rfl
      · obtain ⟨k', hk'⟩ := hfirst _ hk
        simp at hk'
    · intro h pre op' post heq
      cases pre with
      | nil =>
        obtain ⟨rfl, rfl⟩ := List.cons.inj heq
        cases op with
        | claim k => simpa using h k List.mem_cons_self
        | release k => exact id
      | cons a pre =>
        obtain ⟨rfl, rfl⟩ := List.cons.inj heq
        obtain ⟨k, rfl⟩ := hfirst op' (by simp)
        exact id

/-- **Enough slots**, for steps that claim before they release. -/
theorem stepwise_hasSlot_iff (hfirst : ∀ f, ∀ op ∈ (effect f).tail, ∃ k, op = .release k)
    {l : List α} :
    Stepwise (fun pre f => ∀ k, .claim k ∈ effect f →
        ¬ Refused cap (pool cap (pre.flatMap effect)) (.claim k)) l ↔
      ∀ ops, ops <+: l.flatMap effect → (holders ops).card ≤ cap := by
  rw [← none_refused_iff, none_refused_flatMap]
  exact stepwise_congr fun pre f _ => (stepwise_refused_iff (hfirst f)).symm

end Steps

end Slots

/-! ## Bounded maps -/

namespace BoundedMap

variable {κ ν : Type*} [DecidableEq κ] {cap : ℕ}

/-- The keys in use. -/
def keySet (m : BoundedMap κ ν cap) : Finset κ := m.entries.keys.toFinset

lemma mem_keySet {m : BoundedMap κ ν cap} {k : κ} : k ∈ m.keySet ↔ (m.get k).isSome := by
  rw [keySet, List.mem_toFinset, get_isSome_iff]

lemma card_keySet (m : BoundedMap κ ν cap) : m.keySet.card = m.size :=
  List.toFinset_card_of_nodup m.entries.keys_nodup

@[simp] lemma keySet_empty : (empty : BoundedMap κ ν cap).keySet = ∅ := rfl

/-- A key can be written unless its claim is refused. -/
lemma not_hasRoom_iff {m : BoundedMap κ ν cap} {k : κ} :
    ¬ m.HasRoom k ↔ Slots.Refused cap m.keySet (.claim k) := by
  rw [HasRoom, Slots.Refused, mem_keySet, card_keySet]
  simp

end BoundedMap
