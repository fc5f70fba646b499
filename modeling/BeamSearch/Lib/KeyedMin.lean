import Mathlib.Data.List.Induction
import Mathlib.Data.List.Pairwise
import Mathlib.Data.List.Sort

/-
  Keyed minima of finite lists.

  Every row carries a key and a rank. A list is reduced when
  rows are dropped that are either outside a downward closed
  predicate or matched by a surviving row with the same key
  and no larger rank. Reductions compose in any order and
  keep the least row of every key.

  Main declarations:
    * `Reduces`
    * `Reduces.isWinner_iff`
    * `firstOfRuns_reduces`
    * `mem_iff_isWinner_of_pairwise`
-/

namespace KeyedMin

universe u v w

variable {α : Type u} {κ : Type v} {ρ : Type w}

----------------
-- Winners And Reductions
----------------

section Reduction

variable [LinearOrder ρ]
variable (key : α → κ) (rank : α → ρ)

/- The least rows of their keys among the rows satisfying `P`. -/
def IsWinner
    (P : α → Prop)
    (xs : List α)
    (a : α) : Prop :=
  a ∈ xs ∧ P a ∧
    ∀ b ∈ xs, key b = key a → rank a ≤ rank b

/- `P` holds of everything ranked no higher than a row it holds of. -/
def DownClosed (P : α → Prop) : Prop :=
  ∀ a b, rank b ≤ rank a → P a → P b

/- Rows of one key are told apart by their ranks. -/
def RankSeparates : Prop :=
  ∀ a b, key a = key b → rank a = rank b → a = b

/-
  `xs` keeps, for every row of `ys` inside `P`, a row with the
  same key and no larger rank, and adds nothing.
-/
structure Reduces
    (P : α → Prop)
    (xs ys : List α) : Prop where
  subset : xs ⊆ ys
  cover :
    ∀ a ∈ ys, P a →
      ∃ b ∈ xs, key b = key a ∧ rank b ≤ rank a

variable {key rank}
variable {P Q : α → Prop}
variable {xs ys zs ws : List α}

/- A list stands for itself. -/
theorem Reduces.refl (xs : List α) :
    Reduces key rank P xs xs :=
  ⟨fun _ hMem => hMem,
    fun a hMem _ => ⟨a, hMem, rfl, le_rfl⟩⟩

/- One reduction after the other. -/
theorem Reduces.trans
    (hDown : DownClosed rank P)
    (hFirst : Reduces key rank P xs ys)
    (hSecond : Reduces key rank P ys zs) :
    Reduces key rank P xs zs := by
  refine ⟨fun _ hMem => hSecond.subset (hFirst.subset hMem), ?_⟩
  intro a hMem hP
  rcases hSecond.cover a hMem hP with
    ⟨b, hB, hKeyB, hRankB⟩
  rcases hFirst.cover b hB (hDown a b hRankB hP) with
    ⟨c, hC, hKeyC, hRankC⟩
  exact ⟨c, hC, hKeyC.trans hKeyB, hRankC.trans hRankB⟩

/- A reduction within more is one within less. -/
theorem Reduces.mono
    (hImp : ∀ a, P a → Q a)
    (hReduces : Reduces key rank Q xs ys) :
    Reduces key rank P xs ys :=
  ⟨hReduces.subset,
    fun a hMem hP => hReduces.cover a hMem (hImp a hP)⟩

/- The order and the repetitions do not matter. -/
theorem Reduces.of_mem_iff
    (hMem : ∀ a, a ∈ xs ↔ a ∈ ys) :
    Reduces key rank P xs ys :=
  ⟨fun a => (hMem a).mp,
    fun a hA _ => ⟨a, (hMem a).mpr hA, rfl, le_rfl⟩⟩

/- Two lists may be reduced apart. -/
theorem Reduces.append
    (hLeft : Reduces key rank P xs ys)
    (hRight : Reduces key rank P zs ws) :
    Reduces key rank P (xs ++ zs) (ys ++ ws) := by
  constructor
  · intro a hMem
    rcases List.mem_append.mp hMem with hXs | hZs
    · exact List.mem_append_left _ (hLeft.subset hXs)
    · exact List.mem_append_right _ (hRight.subset hZs)
  · intro a hMem hP
    rcases List.mem_append.mp hMem with hYs | hWs
    · rcases hLeft.cover a hYs hP with ⟨b, hB, hRest⟩
      exact ⟨b, List.mem_append_left _ hB, hRest⟩
    · rcases hRight.cover a hWs hP with ⟨b, hB, hRest⟩
      exact ⟨b, List.mem_append_right _ hB, hRest⟩

/- What is not within may be filtered out. -/
theorem Reduces.filter
    [DecidablePred Q]
    (hImp : ∀ a, P a → Q a)
    (xs : List α) :
    Reduces key rank P (xs.filter (Q ·)) xs := by
  refine ⟨fun _ hMem => List.mem_of_mem_filter hMem, ?_⟩
  intro a hMem hP
  refine ⟨a, ?_, rfl, le_rfl⟩
  simpa using And.intro hMem (hImp a hP)

/- A reduction has exactly the winners of the list it reduces. -/
theorem Reduces.isWinner_iff
    (hDown : DownClosed rank P)
    (hSeparates : RankSeparates key rank)
    (hReduces : Reduces key rank P xs ys)
    (a : α) :
    IsWinner key rank P xs a ↔ IsWinner key rank P ys a := by
  constructor
  · rintro ⟨hMem, hP, hLeast⟩
    refine ⟨hReduces.subset hMem, hP, ?_⟩
    intro b hB hKey
    by_contra hNot
    have hLt : rank b < rank a := not_le.mp hNot
    rcases hReduces.cover b hB (hDown a b hLt.le hP) with
      ⟨c, hC, hKeyC, hRankC⟩
    exact absurd (hLeast c hC (hKeyC.trans hKey))
      (not_le.mpr (hRankC.trans_lt hLt))
  · rintro ⟨hMem, hP, hLeast⟩
    rcases hReduces.cover a hMem hP with
      ⟨b, hB, hKeyB, hRankB⟩
    have hRank : rank b = rank a :=
      le_antisymm hRankB
        (hLeast b (hReduces.subset hB) hKeyB)
    have hEq : b = a := hSeparates b a hKeyB hRank
    subst hEq
    exact ⟨hB, hP,
      fun c hC hKey => hLeast c (hReduces.subset hC) hKey⟩

/- The rows a reduction covers have exactly the keys it keeps inside `P`. -/
theorem Reduces.exists_key_iff
    (hDown : DownClosed rank P)
    (hReduces : Reduces key rank P xs ys)
    (k : κ) :
    (∃ a ∈ xs, P a ∧ key a = k) ↔
      ∃ a ∈ ys, P a ∧ key a = k := by
  constructor
  · rintro ⟨a, hMem, hP, hKey⟩
    exact ⟨a, hReduces.subset hMem, hP, hKey⟩
  · rintro ⟨a, hMem, hP, hKey⟩
    rcases hReduces.cover a hMem hP with
      ⟨b, hB, hKeyB, hRankB⟩
    exact ⟨b, hB, hDown a b hRankB hP, hKeyB.trans hKey⟩

end Reduction

----------------
-- First Row Of Every Run
----------------

section Runs

variable [DecidableEq κ]
variable (key : α → κ)

/- Append a row unless the last row kept already has its key. -/
def pushNewKey (output : List α) (a : α) : List α :=
  match output.getLast? with
  | none => output ++ [a]
  | some b =>
      if key b = key a then output else output ++ [a]

/- Of each run of equal keys, the first. -/
def firstOfRuns (xs : List α) : List α :=
  xs.foldl (pushNewKey key) []

/- One row more. -/
theorem firstOfRuns_concat (xs : List α) (a : α) :
    firstOfRuns key (xs ++ [a]) =
      pushNewKey key (firstOfRuns key xs) a := by
  simp [firstOfRuns]

/- What was taken stays. -/
theorem mem_pushNewKey_of_mem
    {output : List α}
    {a b : α}
    (hMem : b ∈ output) :
    b ∈ pushNewKey key output a := by
  unfold pushNewKey
  split
  · exact List.mem_append_left _ hMem
  · split
    · exact hMem
    · exact List.mem_append_left _ hMem

/- A row is dropped or it is the last. -/
theorem pushNewKey_eq_or (output : List α) (a : α) :
    (∃ b ∈ output.getLast?, key b = key a ∧
        pushNewKey key output a = output) ∨
      (∀ b ∈ output.getLast?, key b ≠ key a) ∧
        pushNewKey key output a = output ++ [a] := by
  unfold pushNewKey
  cases hLast : output.getLast? with
  | none => simp
  | some b =>
      by_cases hKey : key b = key a
      · simp [hKey]
      · simp [hKey]

/- Nothing is invented. -/
theorem firstOfRuns_subset (xs : List α) :
    firstOfRuns key xs ⊆ xs := by
  induction xs using List.reverseRecOn with
  | nil => simp [firstOfRuns]
  | append_singleton xs a ih =>
      rw [firstOfRuns_concat]
      rcases pushNewKey_eq_or key (firstOfRuns key xs) a with
        ⟨_, _, _, hEq⟩ | ⟨_, hEq⟩
      · rw [hEq]
        exact fun b hMem => List.mem_append_left _ (ih hMem)
      · rw [hEq]
        intro b hMem
        rcases List.mem_append.mp hMem with hOld | hNew
        · exact List.mem_append_left _ (ih hOld)
        · exact List.mem_append_right _ hNew

/- The rows may be mapped first. -/
theorem firstOfRuns_map
    {β : Type u}
    (f : β → α)
    (xs : List β) :
    firstOfRuns key (xs.map f) =
      (firstOfRuns (fun b => key (f b)) xs).map f := by
  induction xs using List.reverseRecOn with
  | nil => rfl
  | append_singleton xs b ih =>
      rw [List.map_append, List.map_singleton,
        firstOfRuns_concat, firstOfRuns_concat, ih]
      unfold pushNewKey
      rw [List.getLast?_map]
      cases (firstOfRuns (fun b => key (f b)) xs).getLast? with
      | none =>
          dsimp only [Option.map_none]
          rw [List.map_append, List.map_singleton]
      | some last =>
          dsimp only [Option.map_some]
          split_ifs
          · rfl
          · rw [List.map_append, List.map_singleton]

variable {key}
variable [LinearOrder ρ]
variable {rank : α → ρ}

/- On a list sorted by rank inside each run nothing better is dropped. -/
theorem firstOfRuns_reduces
    {xs : List α}
    (hSorted :
      xs.Pairwise fun a b => key a = key b → rank a ≤ rank b) :
    Reduces key rank (fun _ => True)
      (firstOfRuns key xs) xs := by
  refine ⟨firstOfRuns_subset key xs, ?_⟩
  induction xs using List.reverseRecOn with
  | nil => simp
  | append_singleton xs a ih =>
      rw [List.pairwise_append] at hSorted
      rcases hSorted with ⟨hInit, -, hLast⟩
      intro b hMem _
      rw [firstOfRuns_concat]
      rcases List.mem_append.mp hMem with hOld | hNew
      · rcases ih hInit b hOld trivial with ⟨c, hC, hRest⟩
        exact ⟨c, mem_pushNewKey_of_mem key hC, hRest⟩
      · rcases List.mem_singleton.mp hNew with rfl
        rcases pushNewKey_eq_or key (firstOfRuns key xs) b with
          ⟨c, hC, hKey, hEq⟩ | ⟨-, hEq⟩
        · have hOut : c ∈ firstOfRuns key xs :=
            List.mem_of_getLast? hC
          refine ⟨c, by rw [hEq]; exact hOut, hKey, ?_⟩
          exact hLast c (firstOfRuns_subset key xs hOut) b
            (List.mem_singleton_self b) hKey
        · rw [hEq]
          exact ⟨b, List.mem_append_right _ hNew, rfl, le_rfl⟩

end Runs

----------------
-- Strictly Sorted Outputs
----------------

section Sorted

variable [LinearOrder κ] [LinearOrder ρ]
variable {key : α → κ} {rank : α → ρ}

/- The first rows of the runs of a key-sorted list have increasing keys. -/
theorem firstOfRuns_pairwise
    {xs : List α}
    (hSorted : xs.Pairwise fun a b => key a ≤ key b) :
    (firstOfRuns key xs).Pairwise
      fun a b => key a < key b := by
  induction xs using List.reverseRecOn with
  | nil => simp [firstOfRuns]
  | append_singleton xs a ih =>
      rw [List.pairwise_append] at hSorted
      rcases hSorted with ⟨hInit, -, hLast⟩
      have hOut := ih hInit
      rw [firstOfRuns_concat]
      rcases pushNewKey_eq_or key (firstOfRuns key xs) a with
        ⟨_, _, _, hEq⟩ | ⟨hNew, hEq⟩
      · rw [hEq]
        exact hOut
      · rw [hEq, List.pairwise_append]
        refine ⟨hOut, List.pairwise_singleton _ _, ?_⟩
        intro b hB c hC
        rcases List.mem_singleton.mp hC with rfl
        have hLe : key b ≤ key c :=
          hLast b (firstOfRuns_subset key xs hB) c hC
        refine lt_of_le_of_ne hLe fun hKey => ?_
        -- the last kept row lies between `b` and the new row
        have hNonempty : firstOfRuns key xs ≠ [] :=
          List.ne_nil_of_mem hB
        have hGet :=
          List.getLast?_eq_some_getLast hNonempty
        have hLastMem :
            (firstOfRuns key xs).getLast hNonempty ∈
              firstOfRuns key xs :=
          List.getLast_mem hNonempty
        have hUpper :=
          hLast _ (firstOfRuns_subset key xs hLastMem) c hC
        have hLower :
            key b ≤ key ((firstOfRuns key xs).getLast hNonempty) := by
          have hRefl :
              (firstOfRuns key xs).Pairwise
                fun a b => key a ≤ key b :=
            hOut.imp fun hLt => hLt.le
          exact hRefl.rel_getLast hB
        exact hNew _ hGet
          (le_antisymm hUpper (hKey ▸ hLower))

/- In a list of increasing keys a key says the row. -/
theorem eq_of_key_eq_of_pairwise
    {xs : List α}
    (hSorted : xs.Pairwise fun a b => key a < key b)
    {a b : α}
    (hA : a ∈ xs)
    (hB : b ∈ xs)
    (hKey : key a = key b) :
    a = b := by
  have hApart :
      xs.Pairwise fun a b => key a = key b → a = b :=
    hSorted.imp fun hLt hEq => absurd hEq hLt.ne
  have hSymm :
      Std.Symm fun a b : α => key a = key b → a = b :=
    ⟨fun _ _ hImp hEq => (hImp hEq.symm).symm⟩
  exact hApart.forall_of_forall (fun _ _ _ => rfl) hA hB hKey

/- A strictly sorted list inside `P` is the list of its own winners. -/
theorem mem_iff_isWinner_of_pairwise
    (rank : α → ρ)
    {P : α → Prop}
    {xs : List α}
    (hSorted : xs.Pairwise fun a b => key a < key b)
    (hAll : ∀ a ∈ xs, P a)
    (a : α) :
    a ∈ xs ↔ IsWinner key rank P xs a := by
  constructor
  · intro hMem
    refine ⟨hMem, hAll a hMem, ?_⟩
    intro b hB hKey
    rw [eq_of_key_eq_of_pairwise hSorted hB hMem hKey]
  · exact fun hWinner => hWinner.1

end Sorted

end KeyedMin
