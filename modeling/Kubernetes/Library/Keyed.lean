import Mathlib.Data.List.AList

/-! Stores that hold each value under the key computed from it.

A cache or a queue indexed by a key function keeps a map from keys to values in which
every value sits under its own key. The invariant is a field of the store, so that a
value read back under a key always has that key. Membership, `put` and `erase` are
characterized key by key; the values, listed in the store's order, have distinct keys.
-/

set_option autoImplicit false

namespace Kubernetes.Library

/-- A finite map holding each value under `key` of it. -/
structure Keyed {κ : Type} [DecidableEq κ] (α : Type) (key : α → κ) where
  items : AList fun _ : κ => α
  lookup_key : ∀ {k : κ} {v : α}, items.lookup k = some v → key v = k

namespace Keyed

variable {κ α : Type} [DecidableEq κ] {key : α → κ}

instance : Membership κ (Keyed α key) := ⟨fun s k => k ∈ s.items⟩

instance (k : κ) (s : Keyed α key) : Decidable (k ∈ s) := inferInstanceAs (Decidable (k ∈ s.items))

def empty : Keyed α key := ⟨∅, by simp [AList.lookup_empty]⟩

def get (s : Keyed α key) (k : κ) : Option α := s.items.lookup k

/-- Store `v` under its key, replacing what was there. -/
def put (s : Keyed α key) (v : α) : Keyed α key where
  items := s.items.insert (key v) v
  lookup_key {k w} found := by
    by_cases same : k = key v
    · subst same
      rw [AList.lookup_insert, Option.some.injEq] at found
      rw [found]
    · rw [AList.lookup_insert_ne same] at found
      exact s.lookup_key found

def erase (s : Keyed α key) (k : κ) : Keyed α key where
  items := s.items.erase k
  lookup_key {k' w} found := by
    by_cases same : k' = k
    · subst same
      rw [AList.lookup_erase] at found
      cases found
    · rw [AList.lookup_erase_ne same] at found
      exact s.lookup_key found

/-- The values in the store's order. -/
def values (s : Keyed α key) : List α := s.items.entries.map Sigma.snd

def size (s : Keyed α key) : ℕ := s.items.entries.length

variable {s : Keyed α key} {k k' : κ} {v w : α}

theorem key_of_get (found : s.get k = some v) : key v = k := s.lookup_key found

theorem mem_iff_isSome : k ∈ s ↔ (s.get k).isSome := AList.lookup_isSome.symm

theorem get_eq_none : s.get k = none ↔ k ∉ s := AList.lookup_eq_none

theorem mem_of_get (found : s.get k = some v) : k ∈ s := by
  rw [mem_iff_isSome, found]
  rfl

@[simp] theorem notMem_empty : k ∉ (empty : Keyed α key) := AList.notMem_empty k

@[simp] theorem mem_put : k ∈ s.put v ↔ k = key v ∨ k ∈ s := AList.mem_insert _

@[simp] theorem mem_erase : k ∈ s.erase k' ↔ k ≠ k' ∧ k ∈ s := AList.mem_erase

@[simp] theorem get_put_self : (s.put v).get (key v) = some v := AList.lookup_insert _

@[simp] theorem get_erase_self : (s.erase k).get k = none := AList.lookup_erase _ _

theorem get_erase_of_ne (other : k ≠ k') : (s.erase k').get k = s.get k :=
  AList.lookup_erase_ne other

theorem get_of_mem_values (listed : v ∈ s.values) : s.get (key v) = some v := by
  obtain ⟨⟨k, w⟩, entry, rfl⟩ := List.mem_map.mp listed
  have found : s.get k = some w := AList.mem_lookup_iff.mpr entry
  rw [key_of_get found]
  exact found

theorem mem_values_iff : v ∈ s.values ↔ s.get (key v) = some v := by
  refine ⟨get_of_mem_values, fun found => ?_⟩
  exact List.mem_map.mpr ⟨⟨key v, v⟩, AList.mem_lookup_iff.mp found, rfl⟩

@[simp] theorem mem_values_erase : v ∈ (s.erase k).values ↔ v ∈ s.values ∧ key v ≠ k := by
  rw [mem_values_iff, mem_values_iff]
  by_cases same : key v = k
  · subst same
    simp
  · rw [get_erase_of_ne same]
    simp [same]

theorem mem_of_mem_values (listed : v ∈ s.values) : key v ∈ s :=
  mem_of_get (get_of_mem_values listed)

theorem nodup_keys_values : (s.values.map key).Nodup := by
  have keys : s.values.map key = s.items.keys := by
    simp only [values, List.map_map, AList.keys, List.keys]
    apply List.map_congr_left
    rintro ⟨k, w⟩ listed
    have found : s.get k = some w := AList.mem_lookup_iff.mpr listed
    show key w = k
    exact key_of_get found
  rw [keys]
  exact s.items.keys_nodup

theorem ext_items {t : Keyed α key} (same : s.items = t.items) : s = t := by
  cases s
  cases t
  cases same
  rfl

theorem erase_of_notMem (absent : k ∉ s) : s.erase k = s := by
  apply ext_items
  apply AList.ext
  exact List.kerase_of_notMem_keys fun listed => absent (AList.mem_keys.mpr listed)

@[simp] theorem length_values : s.values.length = s.size := List.length_map _

/-- One value of the store and the store without it, as a loop over a Go map that returns at its
first round picks one: the first in the store's order. -/
def popAny (s : Keyed α key) : Option (α × Keyed α key) :=
  match s.values with
  | [] => none
  | v :: _ => some (v, s.erase (key v))

theorem perm_values_erase (listed : v ∈ s.values) : s.values.Perm (v :: (s.erase (key v)).values) := by
  have present : key v ∈ s.items.entries.keys := AList.mem_keys.mp (mem_of_mem_values listed)
  obtain ⟨b, before, after, absent, split, erased⟩ := List.exists_of_kerase present
  have held : b = v := by
    have found : s.items.lookup (key v) = some b := by
      rw [AList.lookup, split, List.dlookup_append, List.dlookup_eq_none.mpr absent]
      simp
    exact Option.some.inj (found.symm.trans (get_of_mem_values listed))
  subst held
  have rest : (s.erase (key b)).values = (before ++ after).map Sigma.snd := by
    change (s.items.entries.kerase (key b)).map Sigma.snd = _
    rw [erased]
  rw [rest, values, split, List.map_append, List.map_cons, List.map_append]
  exact List.perm_middle

theorem values_popAny {t : Keyed α key} (popped : s.popAny = some (v, t)) : s.values = v :: t.values := by
  unfold popAny at popped
  split at popped
  · cases popped
  · rename_i first rest listed
    obtain ⟨rfl, rfl⟩ := Prod.mk.inj (Option.some.inj popped)
    obtain ⟨entry, tail, entries, rfl, rfl⟩ : ∃ entry tail, s.items.entries = entry :: tail ∧
        entry.2 = first ∧ tail.map Sigma.snd = rest := by
      unfold values at listed
      cases entries : s.items.entries with
      | nil => simp [entries] at listed
      | cons entry tail =>
        rw [entries, List.map_cons, List.cons.injEq] at listed
        exact ⟨entry, tail, rfl, listed.1, listed.2⟩
    have keyed : key entry.2 = entry.1 := by
      apply key_of_get
      exact AList.mem_lookup_iff.mpr (entries ▸ List.mem_cons_self)
    rw [listed]
    change _ = _ :: (s.items.entries.kerase _).map Sigma.snd
    rw [entries, List.kerase_cons_eq keyed]

theorem size_popAny {t : Keyed α key} (popped : s.popAny = some (v, t)) : t.size + 1 = s.size := by
  rw [← length_values, ← length_values, values_popAny popped, List.length_cons]

theorem popAny_eq_none : s.popAny = none ↔ s.size = 0 := by
  unfold popAny
  split
  · rename_i empty
    simp only [true_iff]
    rw [← length_values, empty, List.length_nil]
  · rename_i first rest listed
    simp only [reduceCtorEq, false_iff]
    rw [← length_values, listed, List.length_cons]
    omega

end Keyed

end Kubernetes.Library
