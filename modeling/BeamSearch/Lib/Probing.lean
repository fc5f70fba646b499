import Mathlib.Data.List.Basic
import Mathlib.Logic.ExistsUnique
import Mathlib.Logic.Function.Basic
import Mathlib.Tactic.Common

/-
  Tables with a few slots for every key.

  A slot holds a tag and a key; one tag means that the slot is
  empty. A key goes to the first empty slot of its probes, and
  is looked up in all of them. As long as no key is placed twice,
  the table holds every placed key in exactly one slot.

  Main declarations:
    * `Slots`, `place`, `placeAll`, `contains`
    * `Holds`
    * `placeAll_holds`
    * `Holds.contains_iff`
    * `Holds.existsUnique`
-/

namespace Probing

variable {K T : Type}

----------------
-- Tables
----------------

/- The slots of a table: a tag and a key in each. -/
structure Slots (K T : Type) where
  tags : Nat → T
  keys : Nat → K

/- How a table tags its keys and where it looks for them. -/
structure Scheme (K T : Type) where
  empty : T
  tag : K → T
  probes : K → List Nat
  tag_ne : ∀ key, tag key ≠ empty

/- The table holds the listed keys and nothing else. -/
structure Holds
    (scheme : Scheme K T)
    (slots : Slots K T)
    (stored : List K) : Prop where
  found : ∀ key ∈ stored, ∃ slot ∈ scheme.probes key,
    slots.tags slot = scheme.tag key ∧ slots.keys slot = key
  occupied : ∀ slot, slots.tags slot ≠ scheme.empty →
    slots.keys slot ∈ stored ∧
      slot ∈ scheme.probes (slots.keys slot)
  once : ∀ slot other, slots.tags slot ≠ scheme.empty →
    slots.tags other ≠ scheme.empty →
      slots.keys slot = slots.keys other → slot = other

variable {scheme : Scheme K T} {slots placed : Slots K T}
variable {stored : List K} {key : K}

/- An empty table holds nothing. -/
theorem holds_nil
    (hEmpty : ∀ slot, slots.tags slot = scheme.empty) :
    Holds scheme slots [] where
  found := fun _ hMem => absurd hMem List.not_mem_nil
  occupied := fun slot hUsed => absurd (hEmpty slot) hUsed
  once := fun slot _ hUsed => absurd (hEmpty slot) hUsed

/- A stored key has one slot. -/
theorem Holds.existsUnique
    (hHolds : Holds scheme slots stored)
    (hMem : key ∈ stored) :
    ∃! slot, slots.tags slot ≠ scheme.empty ∧
      slots.keys slot = key := by
  rcases hHolds.found key hMem with ⟨slot, -, hTag, hKey⟩
  have hUsed : slots.tags slot ≠ scheme.empty := by
    rw [hTag]
    exact scheme.tag_ne key
  refine ⟨slot, ⟨hUsed, hKey⟩, ?_⟩
  rintro other ⟨hOther, hSame⟩
  exact hHolds.once other slot hOther hUsed (hSame.trans hKey.symm)

----------------
-- Placing And Looking Up
----------------

variable [DecidableEq T]

/- A key goes to its first empty slot. -/
def place
    (scheme : Scheme K T)
    (slots : Slots K T)
    (key : K) : Option (Slots K T) :=
  ((scheme.probes key).find?
      fun slot => slots.tags slot = scheme.empty).map
    fun slot =>
      { tags := Function.update slots.tags slot (scheme.tag key)
        keys := Function.update slots.keys slot key }

/- The keys, one after the other. -/
def placeAll
    (scheme : Scheme K T)
    (slots : Slots K T)
    (keys : List K) : Option (Slots K T) :=
  keys.foldlM (place scheme) slots

/-
  Some slot has the tag and the key. All probes are looked at.
-/
def contains
    [DecidableEq K]
    (scheme : Scheme K T)
    (slots : Slots K T)
    (key : K) : Bool :=
  (scheme.probes key).any fun slot =>
    slots.tags slot == scheme.tag key && slots.keys slot == key

/- A key is placed in an empty slot that it probes. -/
theorem place_eq_some
    (hPlace : place scheme slots key = some placed) :
    ∃ slot ∈ scheme.probes key,
      slots.tags slot = scheme.empty ∧
        placed =
          { tags :=
              Function.update slots.tags slot (scheme.tag key)
            keys := Function.update slots.keys slot key } := by
  rcases Option.map_eq_some_iff.mp hPlace with
    ⟨slot, hFind, hPlaced⟩
  have hFree := List.find?_some hFind
  exact
    ⟨slot, List.mem_of_find?_eq_some hFind,
      of_decide_eq_true hFree, hPlaced.symm⟩

/- A new key takes an empty slot and leaves the others alone. -/
theorem place_holds
    (hHolds : Holds scheme slots stored)
    (hNew : key ∉ stored)
    (hPlace : place scheme slots key = some placed) :
    Holds scheme placed (stored ++ [key]) := by
  rcases place_eq_some hPlace with ⟨free, hProbe, hFree, rfl⟩
  have hTag : ∀ slot, slot ≠ free →
      Function.update slots.tags free (scheme.tag key) slot =
        slots.tags slot :=
    fun slot hNe => Function.update_of_ne hNe _ _
  have hKey : ∀ slot, slot ≠ free →
      Function.update slots.keys free key slot =
        slots.keys slot :=
    fun slot hNe => Function.update_of_ne hNe _ _
  refine ⟨?_, ?_, ?_⟩
  · intro other hMem
    rcases List.mem_append.mp hMem with hOld | hSame
    · rcases hHolds.found other hOld with
        ⟨slot, hIn, hTagged, hSlot⟩
      have hNe : slot ≠ free := by
        rintro rfl
        exact scheme.tag_ne other (hTagged.symm.trans hFree)
      refine ⟨slot, hIn, ?_, ?_⟩
      · rw [← hTagged]
        exact hTag slot hNe
      · rw [← hSlot]
        exact hKey slot hNe
    · rw [List.mem_singleton] at hSame
      subst hSame
      exact
        ⟨free, hProbe, Function.update_self _ _ _,
          Function.update_self _ _ _⟩
  · intro slot hUsed
    by_cases hSame : slot = free
    · subst hSame
      dsimp only
      rw [Function.update_self]
      exact
        ⟨List.mem_append_right _ (List.mem_singleton_self _),
          hProbe⟩
    · dsimp only at hUsed ⊢
      rw [hTag slot hSame] at hUsed
      rw [hKey slot hSame]
      exact (hHolds.occupied slot hUsed).imp
        (List.mem_append_left _) id
  · intro slot other hUsed hOther hSame
    dsimp only at hUsed hOther hSame
    -- the new key is not the key of an old slot
    by_cases hSlot : slot = free
    · by_cases hFreeOther : other = free
      · exact hSlot.trans hFreeOther.symm
      · rw [hTag other hFreeOther] at hOther
        rw [hSlot, Function.update_self, hKey other hFreeOther]
          at hSame
        exact
          absurd (hSame ▸ (hHolds.occupied other hOther).1) hNew
    · rw [hTag slot hSlot] at hUsed
      rw [hKey slot hSlot] at hSame
      by_cases hFreeOther : other = free
      · rw [hFreeOther, Function.update_self] at hSame
        exact absurd (hSame ▸ (hHolds.occupied slot hUsed).1) hNew
      · rw [hTag other hFreeOther] at hOther
        rw [hKey other hFreeOther] at hSame
        exact hHolds.once slot other hUsed hOther hSame

/-
  Placing new keys keeps the table; the induction is on the
  keys.
-/
theorem placeAll_holds_append
    {keys : List K}
    (hHolds : Holds scheme slots stored)
    (hNodup : (stored ++ keys).Nodup)
    (hPlace : placeAll scheme slots keys = some placed) :
    Holds scheme placed (stored ++ keys) := by
  induction keys generalizing slots stored with
  | nil =>
      cases hPlace
      rw [List.append_nil]
      exact hHolds
  | cons key keys ih =>
      rw [placeAll, List.foldlM_cons] at hPlace
      rcases Option.bind_eq_some_iff.mp hPlace with
        ⟨next, hNext, hRest⟩
      have hSplit : stored ++ key :: keys =
          (stored ++ [key]) ++ keys := by
        rw [List.append_assoc, List.singleton_append]
      rw [hSplit] at hNodup ⊢
      have hNew : key ∉ stored := by
        have hHead := (List.nodup_append.mp hNodup).1
        intro hMem
        exact (List.nodup_append.mp hHead).2.2 key hMem key
          (List.mem_singleton_self _) rfl
      exact ih (place_holds hHolds hNew hNext) hNodup hRest

/- From an empty table on. -/
theorem placeAll_holds
    {keys : List K}
    (hEmpty : ∀ slot, slots.tags slot = scheme.empty)
    (hNodup : keys.Nodup)
    (hPlace : placeAll scheme slots keys = some placed) :
    Holds scheme placed keys :=
  placeAll_holds_append (holds_nil hEmpty) hNodup hPlace

/- A lookup finds what was stored and nothing else. -/
theorem Holds.contains_iff
    [DecidableEq K]
    (hHolds : Holds scheme slots stored) :
    contains scheme slots key = true ↔ key ∈ stored := by
  rw [contains, List.any_eq_true]
  constructor
  · rintro ⟨slot, -, hMatch⟩
    rw [Bool.and_eq_true, beq_iff_eq, beq_iff_eq] at hMatch
    rw [← hMatch.2]
    refine (hHolds.occupied slot ?_).1
    rw [hMatch.1]
    exact scheme.tag_ne key
  · intro hMem
    rcases hHolds.found key hMem with ⟨slot, hIn, hTag, hKey⟩
    exact ⟨slot, hIn, by rw [hTag, hKey]; simp⟩

end Probing
