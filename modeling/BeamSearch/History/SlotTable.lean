import BeamSearch.Lib.Hoare

/-
  The slots of the native history, and its runs.

  The source has one class for all modes. The mode that prunes
  and the modes that do not are modelled apart: what a slot, a
  writer and a poll hold differs between them. How a slot is
  found and acquired, and what a run of calls adds up to, is the
  same and stated here.

  Main declarations:
    * `firstFree`, `acquire`
    * `acquire_spec`
    * `forEach_adds`
-/

namespace BeamSearch

open Hoare

namespace History

----------------
-- Free Slots
----------------

section FreeSlots

variable {α : Type}
variable {isFree : α → Bool}
variable {slotCount : Nat}
variable {slots : Nat → α}

/- The first slot that is free, from the front. -/
def firstFree
    (isFree : α → Bool)
    (slotCount : Nat)
    (slots : Nat → α) : Option Nat :=
  (List.range slotCount).find? fun i => isFree (slots i)

theorem firstFree_eq_some
    {i : Nat}
    (hFound : firstFree isFree slotCount slots = some i) :
    i < slotCount ∧ isFree (slots i) = true :=
  ⟨List.mem_range.mp (List.mem_of_find?_eq_some hFound),
    @List.find?_some _ (fun j => isFree (slots j)) _ _ hFound⟩

theorem firstFree_ne_none
    {i : Nat}
    (hInside : i < slotCount)
    (hFree : isFree (slots i) = true) :
    firstFree isFree slotCount slots ≠ none := fun hNone =>
  List.find?_eq_none.mp hNone i (List.mem_range.mpr hInside)
    hFree

end FreeSlots

----------------
-- Programs
----------------

section Programs

variable {ε σ : Type}
variable {E : ε → σ → Prop}

/-
  Poll and take a free slot. Where there is none, wait for the
  slots and look once more.
-/
def acquire
    (find : σ → Option Nat)
    (take : σ → Nat → σ)
    (poll wait : EStateM ε σ PUnit)
    (full : ε) : EStateM ε σ Nat := do
  poll
  let h ← get
  match find h with
  | some i => do
      set (take h i)
      pure i
  | none => do
      wait
      let h ← get
      match find h with
      | some i => do
          set (take h i)
          pure i
      | none => throw full

/- What is taken is free in a state that polling leaves. -/
theorem acquire_spec
    {find : σ → Option Nat}
    {take : σ → Nat → σ}
    {poll wait : EStateM ε σ PUnit}
    {full : ε}
    {P : σ → Prop}
    {Q : Nat → σ → Prop}
    (hPoll : Triple P poll (fun _ => P) E)
    (hWait :
      Triple P wait
        (fun _ h => P h ∧ (find h = none → E full h)) E)
    (hTake : ∀ h i, P h → find h = some i → Q i (take h i)) :
    Triple P (acquire find take poll wait full) Q E := by
  apply Triple.seq hPoll
  intro _
  apply Triple.read
  intro h hHeld
  cases hFound : find h with
  | some i =>
      apply Triple.write
      apply Triple.value
      rintro t rfl
      exact hTake h i hHeld hFound
  | none =>
      have hStart :
          Triple (fun t => t = h) wait
            (fun _ t => P t ∧ (find t = none → E full t)) E :=
        hWait.pre fun t hSame => hSame ▸ hHeld
      apply Triple.seq hStart
      intro _
      apply Triple.read
      rintro t ⟨hNext, hFull⟩
      cases hAgain : find t with
      | some i =>
          apply Triple.write
          apply Triple.value
          rintro u rfl
          exact hTake t i hNext hAgain
      | none =>
          apply Triple.stop
          rintro u rfl
          exact hFull hAgain

/- A run adds up what its calls add, in their order. -/
theorem forEach_adds
    {α β : Type}
    {J : List β → σ → Prop}
    {added : α → List β}
    {body : α → EStateM ε σ PUnit}
    (hBody :
      ∀ seen call,
        Triple (J seen) (body call)
          (fun _ => J (seen ++ added call)) E)
    (seen : List β)
    (calls : List α) :
    Triple (J seen) (forEach calls body)
      (fun _ => J (seen ++ calls.flatMap added)) E := by
  induction calls generalizing seen with
  | nil =>
      apply Triple.value
      intro h hHeld
      exact (List.append_nil seen).symm ▸ hHeld
  | cons call calls ih =>
      apply Triple.seq (hBody seen call)
      intro _
      apply (ih (seen ++ added call)).post
      intro _ h hHeld
      rw [List.append_assoc] at hHeld
      exact hHeld

end Programs

end History

end BeamSearch
