import Mathlib.Data.Finmap

/-! Finite maps whose entries are visited in an unspecified order. A loop over
all entries is a function of the map alone when steps at different keys commute. -/

namespace Foundations

/-- A hash map, up to the order in which its entries would be visited. -/
abbrev HashMap (κ ν : Type) := Finmap fun _ : κ => ν

/-- One order of visiting the entries of a map. -/
abbrev Entries (κ ν : Type) := AList fun _ : κ => ν

namespace HashMap
variable {κ ν σ τ : Type} {step : σ → κ → ν → σ}

def Commuting (step : σ → κ → ν → σ) : Prop :=
  ∀ state first value second other, first ≠ second →
    step (step state first value) second other = step (step state second other) first value

/-- Loop over every entry. Any order gives the same state, so none is chosen. -/
def visit (map : HashMap κ ν) (step : σ → κ → ν → σ) (commuting : Commuting step) (start : σ) : σ :=
  map.liftOn
    (fun entries => entries.entries.foldl (fun state entry => step state entry.1 entry.2) start) (by
    intro first second permuted
    apply permuted.foldl_eq'
    intro entry member other inside state
    by_cases same : entry.1 = other.1
    · rw [first.nodupKeys.eq_of_fst_eq member inside same]
    · exact (commuting state entry.1 entry.2 other.1 other.2 same))

variable [DecidableEq κ]

/-- A loop whose step at a key changes what is read at that key only. -/
structure Local (step : σ → κ → ν → σ) (read : κ → σ → τ) (act : κ → ν → τ → τ) : Prop where
  here : ∀ state key value, read key (step state key value) = act key value (read key state)
  elsewhere : ∀ state key value other, other ≠ key → read other (step state key value) = read other state

theorem Local.foldl {read : κ → σ → τ} {act : κ → ν → τ → τ} (isLocal : Local step read act)
    (entries : List (Sigma fun _ : κ => ν)) (distinct : entries.NodupKeys) (start : σ) (key : κ) :
    read key (entries.foldl (fun state entry => step state entry.1 entry.2) start) =
      (entries.dlookup key).elim (read key start) (fun value => act key value (read key start)) := by
  induction entries generalizing start with
  | nil => rfl
  | cons entry entries ih =>
    obtain ⟨first, value⟩ := entry
    obtain ⟨absent, distinct⟩ := List.nodupKeys_cons.mp distinct
    rw [List.foldl_cons, ih distinct]
    by_cases same : key = first
    · subst first
      rw [List.dlookup_eq_none.mpr absent, List.dlookup_cons_eq]
      exact isLocal.here start key value
    · rw [List.dlookup_cons_ne entries (⟨first, value⟩ : Sigma fun _ : κ => ν) same,
        isLocal.elsewhere start first value key same]

theorem Local.visit {read : κ → σ → τ} {act : κ → ν → τ → τ} (isLocal : Local step read act)
    (map : HashMap κ ν) (commuting : Commuting step) (start : σ) (key : κ) :
    read key (map.visit step commuting start) =
      (map.lookup key).elim (read key start) (fun value => act key value (read key start)) := by
  induction map using Finmap.induction_on with
  | H entries => exact isLocal.foldl entries.entries entries.nodupKeys start key

def retain (map : HashMap κ ν) (keep : ν → Bool) : HashMap κ ν where
  entries := map.entries.filter fun entry => keep entry.2
  nodupKeys := by
    obtain ⟨entries, distinct⟩ := map
    induction entries using Quotient.inductionOn with
    | h entries => exact List.NodupKeys.sublist List.filter_sublist distinct

@[simp] theorem lookup_retain (map : HashMap κ ν) (keep : ν → Bool) (key : κ) :
    (map.retain keep).lookup key = (map.lookup key).filter keep := by
  ext value
  rw [Option.filter_eq_some_iff, Finmap.lookup_eq_some_iff, Finmap.lookup_eq_some_iff]
  exact Multiset.mem_filter

theorem lookup_insert_eq (map : HashMap κ ν) (key other : κ) (value : ν) :
    (map.insert key value).lookup other = if other = key then some value else map.lookup other := by
  split
  next same => rw [same, Finmap.lookup_insert]
  next different => rw [Finmap.lookup_insert_of_ne _ different]

theorem lookup_erase_eq (map : HashMap κ ν) (key other : κ) :
    (map.erase key).lookup other = if other = key then none else map.lookup other := by
  split
  next same => rw [same, Finmap.lookup_erase]
  next different => rw [Finmap.lookup_erase_ne different]

def Changed (permitted : κ → Option ν → Prop) (before after : HashMap κ ν) : Prop :=
  ∀ key, after.lookup key = before.lookup key ∨ permitted key (after.lookup key)

section
variable {permitted : κ → Option ν → Prop}

theorem Changed.refl (map : HashMap κ ν) : Changed permitted map map := fun _ => .inl rfl

theorem Changed.trans {first second third : HashMap κ ν} (before : Changed permitted first second)
    (after : Changed permitted second third) : Changed permitted first third := by
  intro key
  rcases after key with same | changed
  · rw [same]
    exact before key
  · exact .inr changed

theorem changed_insert (map : HashMap κ ν) {key : κ} {value : ν} (allowed : permitted key (some value)) :
    Changed permitted map (map.insert key value) := by
  intro other
  rw [lookup_insert_eq]
  split
  next same => exact .inr (same ▸ allowed)
  next => exact .inl rfl

theorem changed_erase (map : HashMap κ ν) {key : κ} (allowed : permitted key none) :
    Changed permitted map (map.erase key) := by
  intro other
  rw [lookup_erase_eq]
  split
  next same => exact .inr (same ▸ allowed)
  next => exact .inl rfl

end

end HashMap
end Foundations
