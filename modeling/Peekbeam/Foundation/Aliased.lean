import Mathlib.Data.Set.Function
import Mathlib.Data.List.Nodup
import Mathlib.Tactic.Lemma

/-!
# Tables keyed by an alias

Each owner in `σ` has at most one row, which carries an *alias* in `κ` and a value in `ν`
(`rows : σ → Option (κ × ν)`).  A table stores the values by alias alone
(`table : κ → Option ν`): whoever updates it knows the alias a row reports, not its owner.

`Aliased rows table` says that the table is nevertheless the set of rows, because no two rows
share an alias.  It is kept by an update of one row as long as the row keeps its alias and the
alias is nobody else's (`OwnAlias`, `Aliased.update`); the same side condition makes reading by
alias the same as reading by owner (`Aliased.read`).  Owners with a row and aliases in the table
then correspond one to one (`Aliased.bijOn`, `Aliased.length_eq`).
-/

variable {σ κ ν : Type*}

/-- The table holds exactly the rows, each under its alias, and no alias is shared. -/
structure Aliased (rows : σ → Option (κ × ν)) (table : κ → Option ν) : Prop where
  stored : ∀ {s k v}, rows s = some (k, v) → table k = some v
  owned : ∀ {k v}, table k = some v → ∃ s, rows s = some (k, v)
  distinct : ∀ {s s' k v v'}, rows s = some (k, v) → rows s' = some (k, v') → s = s'

/-- `k` can be the alias of `s`: it is the alias of its row, if it has one, and of no other
row. -/
structure OwnAlias (rows : σ → Option (κ × ν)) (s : σ) (k : κ) : Prop where
  kept : ∀ {k' v}, rows s = some (k', v) → k' = k
  free : ∀ {s' v}, rows s' = some (k, v) → s' = s

namespace Aliased

variable {rows : σ → Option (κ × ν)} {table : κ → Option ν} {s : σ} {k : κ}

lemma empty : Aliased (fun _ : σ => (none : Option (κ × ν))) fun _ => none where
  stored h := by simp at h
  owned h := by simp at h
  distinct h := by simp at h

/-- Reading by alias is reading by owner. -/
lemma read (h : Aliased rows table) (hk : OwnAlias rows s k) : table k = (rows s).map Prod.snd := by
  cases hrow : rows s with
  | some row =>
    obtain ⟨k', v⟩ := row
    obtain rfl := hk.kept hrow
    exact h.stored hrow
  | none =>
    cases hstored : table k with
    | none => rfl
    | some v =>
      obtain ⟨s', hrow'⟩ := h.owned hstored
      obtain rfl := hk.free hrow'
      simp [hrow] at hrow'

variable [DecidableEq σ] [DecidableEq κ]

/-- **Updating one row.**  Writing (`some v`) or removing (`none`) the row of `s` is writing or
removing the entry of its alias. -/
theorem update (h : Aliased rows table) (hk : OwnAlias rows s k) (value : Option ν) :
    Aliased (Function.update rows s (value.map fun v => (k, v)))
      (Function.update table k value) where
  stored {s' k' v} hrow := by
    by_cases hs : s' = s
    · subst hs
      obtain ⟨hv, rfl⟩ : value = some v ∧ k = k' := by simpa using hrow
      simpa using hv
    · rw [Function.update_of_ne hs] at hrow
      have hk' : k' ≠ k := by
        rintro rfl
        exact hs (hk.free hrow)
      rw [Function.update_of_ne hk']
      exact h.stored hrow
  owned {k' v} hstored := by
    by_cases hk' : k' = k
    · subst hk'
      exact ⟨s, by simp_all⟩
    · rw [Function.update_of_ne hk'] at hstored
      obtain ⟨s', hrow⟩ := h.owned hstored
      have hs : s' ≠ s := by
        rintro rfl
        exact hk' (hk.kept hrow)
      exact ⟨s', by rw [Function.update_of_ne hs, hrow]⟩
  distinct {s₁ s₂ k' v₁ v₂} h₁ h₂ := by
    -- an alias other than `k` is not that of `s`, and `k` is the alias of `s` only
    have key : ∀ {s' v}, Function.update rows s (value.map fun v => (k, v)) s' = some (k', v) →
        (s' = s ∧ k' = k) ∨ (s' ≠ s ∧ rows s' = some (k', v)) := by
      intro s' v hrow
      by_cases hs : s' = s
      · subst hs
        obtain ⟨-, rfl⟩ : value = some v ∧ k = k' := by simpa using hrow
        exact Or.inl ⟨rfl, rfl⟩
      · exact Or.inr ⟨hs, by rwa [Function.update_of_ne hs] at hrow⟩
    rcases key h₁ with ⟨rfl, rfl⟩ | ⟨hs₁, hr₁⟩ <;> rcases key h₂ with ⟨rfl, hk₂⟩ | ⟨hs₂, hr₂⟩
    · rfl
    · exact absurd (hk.free hr₂) hs₂
    · exact absurd (hk.free (hk₂ ▸ hr₁)) hs₁
    · exact h.distinct hr₁ hr₂

omit [DecidableEq σ] [DecidableEq κ]

/-- Owners with a row and aliases in the table correspond one to one. -/
theorem bijOn (h : Aliased rows table) {aliasOf : σ → κ}
    (halias : ∀ {s k v}, rows s = some (k, v) → aliasOf s = k) :
    Set.BijOn aliasOf {s | (rows s).isSome} {k | (table k).isSome} := by
  refine ⟨fun s hs => ?_, fun s hs s' hs' heq => ?_, fun k hk => ?_⟩
  · obtain ⟨⟨k, v⟩, hrow⟩ := Option.isSome_iff_exists.mp hs
    simp [halias hrow, h.stored hrow]
  · obtain ⟨⟨k, v⟩, hrow⟩ := Option.isSome_iff_exists.mp hs
    obtain ⟨⟨k', v'⟩, hrow'⟩ := Option.isSome_iff_exists.mp hs'
    rw [halias hrow, halias hrow'] at heq
    exact h.distinct hrow (heq ▸ hrow')
  · obtain ⟨v, hv⟩ := Option.isSome_iff_exists.mp hk
    obtain ⟨s, hrow⟩ := h.owned hv
    exact ⟨s, by simp [hrow], halias hrow⟩

/-- So there are as many of the one as of the other. -/
theorem length_eq (h : Aliased rows table) {aliasOf : σ → κ}
    (halias : ∀ {s k v}, rows s = some (k, v) → aliasOf s = k) {owners : List σ} {keys : List κ}
    (howners : owners.Nodup) (hkeys : keys.Nodup) (hmem : ∀ s, s ∈ owners ↔ (rows s).isSome)
    (hmem' : ∀ k, k ∈ keys ↔ (table k).isSome) : keys.length = owners.length := by
  have hbij := h.bijOn halias
  have hnodup : (owners.map aliasOf).Nodup :=
    List.Nodup.map_on (fun s hs s' hs' heq =>
      hbij.injOn ((hmem s).mp hs) ((hmem s').mp hs') heq) howners
  have hperm : keys.Perm (owners.map aliasOf) := by
    rw [List.perm_ext_iff_of_nodup hkeys hnodup]
    intro k
    rw [hmem', List.mem_map]
    constructor
    · intro hk
      obtain ⟨s, hs, rfl⟩ := hbij.surjOn hk
      exact ⟨s, (hmem s).mpr hs, rfl⟩
    · rintro ⟨s, hs, rfl⟩
      exact hbij.mapsTo ((hmem s).mp hs)
  rw [hperm.length_eq, List.length_map]

end Aliased
