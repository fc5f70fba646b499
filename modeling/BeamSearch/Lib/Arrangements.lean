import Mathlib.Data.Nat.Choose.Multinomial
import Mathlib.GroupTheory.Perm.DomMulAct
import Mathlib.GroupTheory.GroupAction.Quotient
import Mathlib.Data.Set.Card

/-
  The arrangements of a row of labels.

  Two rows are arrangements of each other when a permutation
  of the places carries one to the other. There are as many
  of them as the multinomial coefficient of the labels, and
  this coefficient is a product of binomial coefficients,
  one for each label.

  Main declarations:
    * `arrangements`
    * `ncard_rearranged`
    * `length_le_arrangements`
    * `orderings`, `orderings_eq_multinomial`
-/

namespace Arrangements

open Nat

----------------
-- Rearranged Functions
----------------

variable {ι α : Type}

/- The functions a permutation of the places leads to. -/
def Rearranged (f : ι → α) : Set (ι → α) :=
  Set.range fun σ : Equiv.Perm ι => f ∘ σ

/- The rearrangements are an orbit, so they can be counted. -/
theorem rearranged_eq_orbit (f : ι → α) :
    Rearranged f = MulAction.orbit (Equiv.Perm ι)ᵈᵐᵃ f := by
  ext g
  constructor
  · rintro ⟨σ, rfl⟩
    exact ⟨DomMulAct.mk σ, rfl⟩
  · rintro ⟨σ, rfl⟩
    exact ⟨DomMulAct.mk.symm σ, rfl⟩

variable [Fintype ι] [DecidableEq ι] [DecidableEq α]

/- Each arrangement is reached as often as the labels can be
exchanged among equal ones. -/
theorem ncard_rearranged_mul (f : ι → α) :
    (Rearranged f).ncard *
        ∏ a ∈ Finset.univ.image f,
          (Fintype.card {i // f i = a})! =
      (Fintype.card ι)! := by
  have hFixed :
      Nat.card (MulAction.stabilizer (Equiv.Perm ι)ᵈᵐᵃ f) =
        Fintype.card {σ : Equiv.Perm ι // f ∘ σ = f} := by
    rw [← Nat.card_eq_fintype_card]
    refine Nat.card_congr
      (Equiv.subtypeEquiv DomMulAct.mk.symm fun σ => ?_)
    exact DomMulAct.mem_stabilizer_iff
  have hGroup :
      Nat.card (Equiv.Perm ι)ᵈᵐᵃ = (Fintype.card ι)! := by
    rw [← Fintype.card_perm, ← Nat.card_eq_fintype_card]
    exact Nat.card_congr DomMulAct.mk.symm
  have hOrbit :=
    Nat.card_congr
      (MulAction.orbitProdStabilizerEquivGroup
        (Equiv.Perm ι)ᵈᵐᵃ f)
  rw [Nat.card_prod, hFixed, hGroup,
    DomMulAct.stabilizer_card'] at hOrbit
  rw [rearranged_eq_orbit, ← Nat.card_coe_set_eq]
  exact hOrbit

/- How many there are, by the sizes of the fibres. -/
theorem ncard_rearranged (f : ι → α) :
    (Rearranged f).ncard =
      Nat.multinomial (Finset.univ.image f)
        fun a => Fintype.card {i // f i = a} := by
  have hSum :
      ∑ a ∈ Finset.univ.image f, Fintype.card {i // f i = a} =
        Fintype.card ι := by
    rw [← Finset.card_univ,
      Finset.card_eq_sum_card_image f Finset.univ]
    refine Finset.sum_congr rfl fun a _ => ?_
    rw [Fintype.card_subtype]
  have hSpec := Nat.multinomial_spec (Finset.univ.image f)
    fun a => Fintype.card {i // f i = a}
  rw [hSum, ← ncard_rearranged_mul f, Nat.mul_comm] at hSpec
  exact
    (Nat.eq_of_mul_eq_mul_right
      (Finset.prod_pos fun a _ => Nat.factorial_pos _)
      hSpec).symm

----------------
-- Rearranged Rows
----------------

/- The multinomial coefficient of the labels of a row. -/
def arrangements (row : List α) : Nat :=
  Nat.multinomial row.toFinset fun a => row.count a

/- The places of a value are its count. -/
theorem card_places_eq_count
    (row : List α)
    (a : α) :
    Fintype.card {i : Fin row.length // row.get i = a} =
      row.count a := by
  have hRow : (Finset.univ.val.map row.get : Multiset α) = row := by
    rw [Fin.univ_val_map, List.ofFn_get]
  rw [Fintype.card_subtype, ← Multiset.coe_count, ← hRow,
    Multiset.count_map, Finset.card_def, Finset.filter_val]
  simp only [eq_comm]

/- The values of a row, as a finite set. -/
theorem image_get_eq_toFinset (row : List α) :
    Finset.univ.image row.get = row.toFinset := by
  ext a
  rw [Finset.mem_image, List.mem_toFinset, List.mem_iff_get]
  simp

/-
  The rearrangements of a row are as many as the arrangements.
-/
theorem ncard_rearranged_get (row : List α) :
    (Rearranged row.get).ncard = arrangements row := by
  rw [ncard_rearranged, image_get_eq_toFinset, arrangements]
  exact Nat.multinomial_congr fun a _ => card_places_eq_count row a

/- Different rearrangements of a row are at most so many. -/
theorem length_le_arrangements
    {row : List α}
    {rows : List (List α)}
    (hNodup : rows.Nodup)
    (hEach : ∀ other ∈ rows,
      ∃ σ : Equiv.Perm (Fin row.length),
        other = List.ofFn (row.get ∘ σ)) :
    rows.length ≤ arrangements row := by
  have hFinite : (Rearranged row.get).Finite :=
    Set.finite_range _
  have hInto :
      (rows.toFinset : Set (List α)) ⊆
        List.ofFn '' Rearranged row.get := by
    intro other hMem
    rcases hEach other (List.mem_toFinset.mp hMem) with ⟨σ, rfl⟩
    exact ⟨_, ⟨σ, rfl⟩, rfl⟩
  calc rows.length
      = (rows.toFinset : Set (List α)).ncard := by
        rw [Set.ncard_coe_finset,
          List.toFinset_card_of_nodup hNodup]
    _ ≤ (List.ofFn '' Rearranged row.get).ncard :=
        Set.ncard_le_ncard hInto (hFinite.image _)
    _ ≤ (Rearranged row.get).ncard :=
        Set.ncard_image_le hFinite
    _ = arrangements row := ncard_rearranged_get row

----------------
-- Label By Label
----------------

/- The places of each label among the places so far. -/
def orderings : (previous : Nat) → (counts : List Nat) → Nat
  | _, [] => 1
  | previous, count :: counts =>
      (previous + count).choose count *
        orderings (previous + count) counts

/- There is always one ordering. -/
theorem orderings_pos
    (previous : Nat)
    (counts : List Nat) :
    0 < orderings previous counts := by
  induction counts generalizing previous with
  | nil => exact Nat.one_pos
  | cons count counts ih =>
      exact Nat.mul_pos (Nat.choose_pos (Nat.le_add_left ..)) (ih _)

/-
  The product of the remaining choices completes the
  multinomial; the induction is on the labels.
-/
theorem multinomial_mul_orderings
    {labels : List α}
    {done : Finset α}
    (f : α → Nat)
    (hNodup : labels.Nodup)
    (hNew : ∀ a ∈ labels, a ∉ done) :
    Nat.multinomial done f *
        orderings (done.sum f) (labels.map f) =
      Nat.multinomial (done ∪ labels.toFinset) f := by
  induction labels generalizing done with
  | nil => simp [orderings]
  | cons a labels ih =>
      rcases List.nodup_cons.mp hNodup with ⟨hFirst, hNodup⟩
      have hOut : a ∉ done := hNew a (List.mem_cons_self ..)
      have hNext := @ih (insert a done) hNodup <| by
        intro b hMem hIn
        rcases Finset.mem_insert.mp hIn with rfl | hIn
        · exact hFirst hMem
        · exact hNew b (List.mem_cons_of_mem _ hMem) hIn
      rw [Nat.multinomial_insert hOut, Finset.sum_insert hOut]
        at hNext
      rw [List.map_cons, orderings, List.toFinset_cons,
        Finset.union_insert, ← Finset.insert_union, ← hNext,
        Nat.add_comm (f a)]
      ring

/- So all choices together are the multinomial. -/
theorem orderings_eq_multinomial
    {labels : List α}
    (f : α → Nat)
    (hNodup : labels.Nodup) :
    orderings 0 (labels.map f) =
      Nat.multinomial labels.toFinset f := by
  have hAll :=
    multinomial_mul_orderings f hNodup
      fun a _ => Finset.notMem_empty a
  rwa [Nat.multinomial_empty, Nat.one_mul, Finset.sum_empty,
    Finset.empty_union] at hAll

----------------
-- Factor By Factor
----------------

/- A step of the binomial product divides without a rest. -/
theorem choose_mul_add
    (previous i : Nat) :
    (previous + i).choose i * (previous + (i + 1)) =
      (previous + (i + 1)).choose (i + 1) * (i + 1) := by
  rw [Nat.mul_comm, ← Nat.add_assoc]
  exact Nat.add_one_mul_choose_eq (previous + i) i

/- A choice grows with the part that is chosen. -/
theorem choose_le_of_le
    {previous i count : Nat}
    (hLe : i ≤ count) :
    (previous + i).choose i ≤ (previous + count).choose count := by
  rw [← Nat.choose_symm_add, ← Nat.choose_symm_add]
  exact Nat.choose_le_choose previous (by omega)

end Arrangements
