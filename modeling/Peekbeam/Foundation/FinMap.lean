import Mathlib.Algebra.BigOperators.Group.List.Basic
import Mathlib.Algebra.Ring.Nat
import Mathlib.Data.List.AList
import Mathlib.Tactic.Lemma

/-!
# Finite maps

Two kinds of finite map over Mathlib's association lists.

* `FinMap κ ν` — a growable map.  It is `AList` itself; what is added is the read-modify-write
  of one entry (`upsert`), the lookup laws in the one spelling the rest of the development
  rewrites with, and sums over the entries (`total`).
* `BoundedMap κ ν cap` — a map with room for `cap` keys.  The bound is a field of the
  structure, so an overfull map cannot be built: inserting a new key into a full map has no
  result (`insert_eq_none`), while overwriting and removing always succeed.
-/

variable {κ ν : Type*} [DecidableEq κ]

/-! ## Growable maps -/

/-- A finite map from `κ` to `ν`. -/
abbrev FinMap (κ ν : Type*) := AList (fun _ : κ => ν)

namespace FinMap

lemma lookup_insert_ite (m : FinMap κ ν) (k k' : κ) (v : ν) :
    (m.insert k v).lookup k' = if k' = k then some v else m.lookup k' := by
  by_cases h : k' = k
  · rw [if_pos h, h]
    exact AList.lookup_insert m
  · rw [if_neg h]
    exact AList.lookup_insert_ne h

lemma lookup_erase_ite (m : FinMap κ ν) (k k' : κ) :
    (m.erase k).lookup k' = if k' = k then none else m.lookup k' := by
  by_cases h : k' = k
  · rw [if_pos h, h]
    exact AList.lookup_erase k m
  · rw [if_neg h]
    exact AList.lookup_erase_ne h

/-- A write adds a key if it is new. -/
lemma length_keys_insert (m : FinMap κ ν) (k : κ) (v : ν) :
    (m.insert k v).keys.length =
      if k ∈ m.keys then m.keys.length else m.keys.length + 1 := by
  rw [AList.keys_insert, List.length_cons]
  by_cases h : k ∈ m.keys
  · have := List.length_pos_of_mem h
    rw [if_pos h, List.length_erase_of_mem h]
    omega
  · rw [if_neg h, List.erase_of_not_mem h]

/-- Update the entry of `k` in place, starting from `d` when there is none. -/
def upsert (m : FinMap κ ν) (k : κ) (d : ν) (f : ν → ν) : FinMap κ ν :=
  m.insert k (f ((m.lookup k).getD d))

lemma lookup_upsert (m : FinMap κ ν) (k k' : κ) (d : ν) (f : ν → ν) :
    (m.upsert k d f).lookup k' =
      if k' = k then some (f ((m.lookup k).getD d)) else m.lookup k' :=
  lookup_insert_ite m k k' _

/-- The sum of a measure over the entries. -/
def total (f : ν → ℕ) (m : FinMap κ ν) : ℕ := (m.entries.map fun entry => f entry.2).sum

omit [DecidableEq κ] in
@[simp] lemma total_empty (f : ν → ℕ) : total f (∅ : FinMap κ ν) = 0 := rfl

/-- What an entry contributes, if it is there. -/
lemma total_erase (f : ν → ℕ) (m : FinMap κ ν) (k : κ) :
    total f (m.erase k) + ((m.lookup k).map f).getD 0 = total f m := by
  have hlist : ∀ l : List (Sigma fun _ : κ => ν),
      ((l.kerase k).map fun entry => f entry.2).sum + ((l.dlookup k).map f).getD 0 =
        (l.map fun entry => f entry.2).sum := by
    intro l
    induction l with
    | nil => simp
    | cons entry l ih =>
      obtain ⟨k', v⟩ := entry
      by_cases hk : k = k'
      · subst hk
        simp [Nat.add_comm]
      · rw [List.kerase_cons_ne hk, List.dlookup_cons_ne _ _ hk, List.map_cons, List.map_cons,
          List.sum_cons, List.sum_cons, Nat.add_assoc, ih]
  exact hlist m.entries

lemma total_insert (f : ν → ℕ) (m : FinMap κ ν) (k : κ) (v : ν) :
    total f (m.insert k v) + ((m.lookup k).map f).getD 0 = total f m + f v := by
  have herase := total_erase f m k
  have hinsert : total f (m.insert k v) = f v + total f (m.erase k) := by
    show ((⟨k, v⟩ :: m.entries.kerase k).map fun entry => f entry.2).sum = _
    rw [List.map_cons, List.sum_cons]
    rfl
  omega

lemma total_upsert (f : ν → ℕ) (m : FinMap κ ν) (k : κ) (d : ν) (g : ν → ν) :
    total f (m.upsert k d g) + ((m.lookup k).map f).getD 0 =
      total f m + f (g ((m.lookup k).getD d)) :=
  total_insert f m k _

end FinMap

/-! ## Maps with bounded capacity -/

/-- A finite map with at most `cap` keys. -/
structure BoundedMap (κ ν : Type*) (cap : ℕ) where
  entries : FinMap κ ν
  size_le : entries.keys.length ≤ cap

namespace BoundedMap

variable {cap : ℕ}

/-- The number of keys in use. -/
def size (m : BoundedMap κ ν cap) : ℕ := m.entries.keys.length

/-- The map without entries. -/
def empty : BoundedMap κ ν cap := ⟨∅, by simp⟩

/-- The value stored at `k`. -/
def get (m : BoundedMap κ ν cap) (k : κ) : Option ν := m.entries.lookup k

/-- `k` can be written: it is already a key, or there is room for a new one. -/
def HasRoom (m : BoundedMap κ ν cap) (k : κ) : Prop := (m.get k).isSome ∨ m.size < cap

instance (m : BoundedMap κ ν cap) (k : κ) : Decidable (m.HasRoom k) :=
  inferInstanceAs (Decidable (_ ∨ _))

lemma get_isSome_iff {m : BoundedMap κ ν cap} {k : κ} :
    (m.get k).isSome ↔ k ∈ m.entries.keys :=
  AList.lookup_isSome

/-- Write `v` at `k`; there is no result when `k` is new and the map is full. -/
def insert (m : BoundedMap κ ν cap) (k : κ) (v : ν) : Option (BoundedMap κ ν cap) :=
  if h : m.HasRoom k then
    some ⟨m.entries.insert k v, by
      rw [FinMap.length_keys_insert]
      have := m.size_le
      split
      · exact this
      · rename_i hk
        have hlt := h.resolve_left (fun hs => hk (get_isSome_iff.mp hs))
        exact hlt⟩
  else none

/-- Drop the entry of `k`. -/
def remove (m : BoundedMap κ ν cap) (k : κ) : BoundedMap κ ν cap :=
  ⟨m.entries.erase k, by
    have := m.size_le
    have : (m.entries.keys.erase k).length ≤ m.entries.keys.length := List.length_erase_le
    rw [AList.keys_erase]
    omega⟩

@[simp] lemma get_empty (k : κ) : (empty : BoundedMap κ ν cap).get k = none :=
  AList.lookup_empty k

omit [DecidableEq κ] in
@[simp] lemma size_empty : (empty : BoundedMap κ ν cap).size = 0 := rfl

lemma get_remove (m : BoundedMap κ ν cap) (k k' : κ) :
    (m.remove k).get k' = if k' = k then none else m.get k' :=
  FinMap.lookup_erase_ite m.entries k k'

lemma insert_eq_none {m : BoundedMap κ ν cap} {k : κ} {v : ν} :
    m.insert k v = none ↔ ¬ m.HasRoom k := by
  unfold insert
  split <;> simp_all

lemma get_of_insert {m m' : BoundedMap κ ν cap} {k : κ} {v : ν} (h : m.insert k v = some m')
    (k' : κ) : m'.get k' = if k' = k then some v else m.get k' := by
  unfold insert at h
  split at h
  · obtain rfl := Option.some.inj h
    exact FinMap.lookup_insert_ite m.entries k k' v
  · simp at h

lemma size_of_insert {m m' : BoundedMap κ ν cap} {k : κ} {v : ν} (h : m.insert k v = some m') :
    m'.size = if (m.get k).isSome then m.size else m.size + 1 := by
  unfold insert at h
  split at h
  · obtain rfl := Option.some.inj h
    simp only [size, FinMap.length_keys_insert, get_isSome_iff]
  · simp at h

lemma size_remove (m : BoundedMap κ ν cap) (k : κ) :
    (m.remove k).size = if (m.get k).isSome then m.size - 1 else m.size := by
  simp only [size, remove, AList.keys_erase, get_isSome_iff]
  split
  · rename_i h
    exact List.length_erase_of_mem h
  · rename_i h
    rw [List.erase_of_not_mem h]

end BoundedMap
