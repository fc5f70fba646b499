import Mathlib.Data.List.Nodup

/-
  Maps kept as lists of entries.

  An entry is a key with a value, and the first entry of a key
  counts. To put an entry drops the ones its key had before, so
  that a list whose keys differ keeps them different.

  Main declarations:
    * `drop`, `put`
    * `mem_of_lookup`, `lookup_of_mem`
    * `lookup_put`
    * `nodup_put`
-/

namespace KeyedList

variable {α β γ : Type} [DecidableEq α]

/- Every entry of another key. -/
def drop
    (key : α)
    (entries : List (α × β)) : List (α × β) :=
  entries.filter fun entry => entry.1 != key

/- An entry for the key, and no other one. -/
def put
    (key : α)
    (value : β)
    (entries : List (α × β)) : List (α × β) :=
  (key, value) :: drop key entries

----------------
-- Entries and Keys
----------------

/- Another entry is passed over. -/
theorem lookup_cons_of_ne
    {key : α}
    {entry : α × β}
    (hNe : key ≠ entry.1)
    (entries : List (α × β)) :
    (entry :: entries).lookup key = entries.lookup key := by
  rw [List.lookup_cons, beq_false_of_ne hNe]

/- What is read is an entry. -/
theorem mem_of_lookup
    {key : α}
    {value : β}
    {entries : List (α × β)}
    (hLookup : entries.lookup key = some value) :
    (key, value) ∈ entries := by
  induction entries with
  | nil => cases hLookup
  | cons entry entries ih =>
      by_cases hHere : key = entry.1
      · subst hHere
        rw [List.lookup_cons_self] at hLookup
        rw [← Option.some.inj hLookup]
        exact List.mem_cons_self
      · rw [lookup_cons_of_ne hHere] at hLookup
        exact List.mem_cons_of_mem entry (ih hLookup)

/- Without an entry nothing is read. -/
theorem lookup_eq_none_of_not_mem
    {key : α}
    {entries : List (α × β)}
    (hNot : key ∉ entries.map Prod.fst) :
    entries.lookup key = none := by
  cases hLookup : entries.lookup key with
  | none => rfl
  | some value =>
      exact
        absurd (List.mem_map_of_mem (mem_of_lookup hLookup)) hNot

/- Where the keys differ, every entry counts. -/
theorem lookup_of_mem
    {key : α}
    {value : β}
    {entries : List (α × β)}
    (hNodup : (entries.map Prod.fst).Nodup)
    (hMem : (key, value) ∈ entries) :
    entries.lookup key = some value := by
  induction entries with
  | nil => exact absurd hMem List.not_mem_nil
  | cons entry entries ih =>
      rw [List.map_cons, List.nodup_cons] at hNodup
      rcases List.mem_cons.mp hMem with hHere | hLater
      · rw [← hHere, List.lookup_cons_self]
      · have hOther : key ≠ entry.1 := by
          intro hSame
          exact hNodup.1 (hSame ▸ List.mem_map_of_mem hLater)
        rw [lookup_cons_of_ne hOther]
        exact ih hNodup.2 hLater

/- A key is there exactly when it is read. -/
theorem mem_keys_iff
    {entries : List (α × β)}
    (hNodup : (entries.map Prod.fst).Nodup)
    (key : α) :
    key ∈ entries.map Prod.fst ↔
      ∃ value, entries.lookup key = some value := by
  constructor
  · intro hMem
    rcases List.mem_map.mp hMem with ⟨⟨key', value⟩, hEntry, rfl⟩
    exact ⟨value, lookup_of_mem hNodup hEntry⟩
  · rintro ⟨value, hLookup⟩
    exact List.mem_map_of_mem (mem_of_lookup hLookup)

/- The values may be mapped. -/
theorem lookup_map_snd
    (f : β → γ)
    (key : α)
    (entries : List (α × β)) :
    (entries.map fun entry => (entry.1, f entry.2)).lookup key =
      (entries.lookup key).map f := by
  induction entries with
  | nil => rfl
  | cons entry entries ih =>
      rw [List.map_cons, List.lookup_cons, List.lookup_cons]
      cases key == entry.1 with
      | true => rfl
      | false => exact ih

----------------
-- Putting an Entry
----------------

/- Dropping a key leaves the others. -/
theorem lookup_drop_of_ne
    {key other : α}
    (hNe : other ≠ key)
    (entries : List (α × β)) :
    (drop key entries).lookup other = entries.lookup other := by
  induction entries with
  | nil => rfl
  | cons entry entries ih =>
      rw [drop, List.filter_cons]
      by_cases hKey : entry.1 = key
      · rw [if_neg (by simpa using hKey),
          lookup_cons_of_ne (hKey.symm ▸ hNe)]
        exact ih
      · rw [if_pos (by simpa using hKey), List.lookup_cons,
          List.lookup_cons]
        cases other == entry.1 with
        | true => rfl
        | false => exact ih

/- What was put is read. -/
theorem lookup_put_self
    (key : α)
    (value : β)
    (entries : List (α × β)) :
    (put key value entries).lookup key = some value :=
  List.lookup_cons_self

/- The other keys stay. -/
theorem lookup_put_of_ne
    {key other : α}
    (hNe : other ≠ key)
    (value : β)
    (entries : List (α × β)) :
    (put key value entries).lookup other =
      entries.lookup other := by
  rw [put, lookup_cons_of_ne hNe]
  exact lookup_drop_of_ne hNe entries

/- A read after a put. -/
theorem lookup_put
    (key other : α)
    (value : β)
    (entries : List (α × β)) :
    (put key value entries).lookup other =
      if other = key then some value else entries.lookup other := by
  split_ifs with hKey
  · subst hKey
    exact lookup_put_self other value entries
  · exact lookup_put_of_ne hKey value entries

/- Its key appears once, and the others as before. -/
theorem nodup_put
    (key : α)
    (value : β)
    {entries : List (α × β)}
    (hNodup : (entries.map Prod.fst).Nodup) :
    ((put key value entries).map Prod.fst).Nodup := by
  rw [put, List.map_cons, List.nodup_cons]
  constructor
  · intro hMem
    rcases List.mem_map.mp hMem with ⟨entry, hEntry, hSame⟩
    have hNe := (List.mem_filter.mp hEntry).2
    rw [bne_iff_ne] at hNe
    exact hNe hSame
  · exact hNodup.sublist (List.filter_sublist.map Prod.fst)

end KeyedList
