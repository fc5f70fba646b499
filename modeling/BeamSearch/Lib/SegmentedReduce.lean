import Mathlib.Algebra.GroupWithZero.Nat
import Mathlib.Data.List.Induction
import Mathlib.Data.List.Sort
import Mathlib.Data.List.Pairwise
import Mathlib.Algebra.Order.Group.Nat
import Mathlib.Algebra.BigOperators.Group.List.Basic

/-
  Sorting pairs and reducing runs of equal keys.

  The two device primitives are given by what they promise: a
  sort returns a key-sorted permutation, and a reduction folds
  every maximal run of equal adjacent keys with an operator in
  any association. On key-sorted input the runs are exactly the
  rows of one key.

  Main declarations:
    * `AssocFold`
    * `ReducesRuns`
    * `SortPairs`
    * `ReduceByKey`
    * `ReducesRuns.of_sorted`
-/

namespace SegmentedReduce

universe u v

variable {κ : Type u} {ν : Type v}

----------------
-- Folding In Any Association
----------------

/- `r` is the operator applied to the entries of a list, bracketed somehow. -/
inductive AssocFold (op : ν → ν → ν) : List ν → ν → Prop where
  | single (a : ν) : AssocFold op [a] a
  | node
      {xs ys : List ν}
      {a b : ν}
      (hLeft : AssocFold op xs a)
      (hRight : AssocFold op ys b) :
      AssocFold op (xs ++ ys) (op a b)

/- Every bracketing of a selecting operator returns a least entry. -/
theorem AssocFold.least
    {op : ν → ν → ν}
    {rank : ν → Nat}
    (hOp :
      ∀ a b, (op a b = a ∧ rank a ≤ rank b) ∨
        (op a b = b ∧ rank b ≤ rank a))
    {xs : List ν}
    {r : ν}
    (hFold : AssocFold op xs r) :
    r ∈ xs ∧ ∀ a ∈ xs, rank r ≤ rank a := by
  induction hFold with
  | single a => simp
  | @node xs ys a b _ _ ihLeft ihRight =>
      rcases ihLeft with ⟨hMemA, hLeastA⟩
      rcases ihRight with ⟨hMemB, hLeastB⟩
      rcases hOp a b with ⟨hEq, hRank⟩ | ⟨hEq, hRank⟩
      · rw [hEq]
        refine ⟨List.mem_append_left _ hMemA, ?_⟩
        intro c hC
        rcases List.mem_append.mp hC with hXs | hYs
        · exact hLeastA c hXs
        · exact hRank.trans (hLeastB c hYs)
      · rw [hEq]
        refine ⟨List.mem_append_right _ hMemB, ?_⟩
        intro c hC
        rcases List.mem_append.mp hC with hXs | hYs
        · exact hRank.trans (hLeastA c hXs)
        · exact hLeastB c hYs

/- Every bracketing of a sum is the sum. -/
theorem AssocFold.sum_eq
    {xs : List Nat}
    {r : Nat}
    (hFold : AssocFold (· + ·) xs r) :
    r = xs.sum := by
  induction hFold with
  | single a => simp
  | node _ _ ihLeft ihRight =>
      rw [List.sum_append, ihLeft, ihRight]

----------------
-- Runs Of Equal Adjacent Keys
----------------

/- Every maximal run of equal adjacent keys becomes one row. -/
inductive ReducesRuns
    (op : ν → ν → ν) :
    List (κ × ν) → List (κ × ν) → Prop where
  | nil : ReducesRuns op [] []
  | run
      {key : κ}
      {group rest output : List (κ × ν)}
      {value : ν}
      (hKey : ∀ p ∈ group, p.1 = key)
      (hMaximal : ∀ p ∈ rest.head?, p.1 ≠ key)
      (hFold : AssocFold op (group.map Prod.snd) value)
      (hRest : ReducesRuns op rest output) :
      ReducesRuns op (group ++ rest) ((key, value) :: output)

/- A fold of nothing has no value. -/
theorem AssocFold.ne_nil
    {op : ν → ν → ν}
    {xs : List ν}
    {r : ν}
    (hFold : AssocFold op xs r) :
    xs ≠ [] := by
  induction hFold with
  | single a => exact List.cons_ne_nil a []
  | node _ _ ihLeft _ =>
      exact fun hNil => ihLeft (List.append_eq_nil_iff.mp hNil).1

/- The rows of one key, in order. -/
def valuesOf [DecidableEq κ] (xs : List (κ × ν)) (key : κ) : List ν :=
  (xs.filter fun p => p.1 = key).map Prod.snd

/- The values of a key are those it was paired with. -/
theorem mem_valuesOf_iff
    [DecidableEq κ]
    {xs : List (κ × ν)}
    {key : κ}
    {a : ν} :
    a ∈ valuesOf xs key ↔ (key, a) ∈ xs := by
  unfold valuesOf
  rw [List.mem_map]
  constructor
  · intro hMem
    rcases hMem with ⟨p, hP, rfl⟩
    rcases List.mem_filter.mp hP with ⟨hIn, hKey⟩
    rw [← of_decide_eq_true hKey]
    exact hIn
  · intro hMem
    exact ⟨(key, a),
      List.mem_filter.mpr ⟨hMem, decide_eq_true rfl⟩, rfl⟩

/- A reduction never has more runs than there are pairs. -/
theorem ReducesRuns.length_le
    {op : ν → ν → ν}
    {xs out : List (κ × ν)}
    (hReduces : ReducesRuns op xs out) :
    out.length ≤ xs.length := by
  induction hReduces with
  | nil => exact le_rfl
  | @run key group rest output value _ _ hFold _ ih =>
      have hNonempty := hFold.ne_nil
      rw [ne_eq, List.map_eq_nil_iff] at hNonempty
      have hPos := List.length_pos_of_ne_nil hNonempty
      rw [List.length_append, List.length_cons]
      omega

/- Summing runs keeps the total. -/
theorem ReducesRuns.sum_eq
    {xs out : List (κ × Nat)}
    (hReduces : ReducesRuns (· + ·) xs out) :
    (out.map Prod.snd).sum = (xs.map Prod.snd).sum := by
  induction hReduces with
  | nil => rfl
  | @run key group rest output value _ _ hFold _ ih =>
      rw [List.map_cons, List.sum_cons, List.map_append,
        List.sum_append, ih, hFold.sum_eq]

variable [LinearOrder κ]

/-
  On key-sorted input the output keys increase, every output
  folds all rows of its key, and every key has an output.
-/
theorem ReducesRuns.of_sorted
    {op : ν → ν → ν}
    {xs out : List (κ × ν)}
    (hReduces : ReducesRuns op xs out)
    (hSorted : xs.Pairwise fun p q => p.1 ≤ q.1) :
    (out.Pairwise fun p q => p.1 < q.1) ∧
      (∀ p ∈ out, AssocFold op (valuesOf xs p.1) p.2) ∧
      ∀ p ∈ xs, ∃ value, (p.1, value) ∈ out := by
  induction hReduces with
  | nil => simp
  | @run key group rest output value hKey hMaximal hFold _ ih =>
      rw [List.pairwise_append] at hSorted
      rcases hSorted with ⟨-, hSortedRest, hAcross⟩
      rcases ih hSortedRest with ⟨hStrict, hFolds, hCovers⟩
      have hNonempty := hFold.ne_nil
      rw [ne_eq, List.map_eq_nil_iff] at hNonempty
      rcases List.exists_mem_of_ne_nil group hNonempty with
        ⟨first, hFirst⟩
      -- keys after a maximal run of a sorted list are larger
      have hAbove : ∀ p ∈ rest, key < p.1 := by
        intro p hP
        cases rest with
        | nil => exact absurd hP List.not_mem_nil
        | cons head tail =>
            have hLe : key ≤ head.1 := by
              rw [← hKey first hFirst]
              exact hAcross first hFirst head List.mem_cons_self
            have hLt : key < head.1 :=
              lt_of_le_of_ne hLe
                (hMaximal head rfl).symm
            rcases List.mem_cons.mp hP with rfl | hTail
            · exact hLt
            · exact hLt.trans_le
                (List.rel_of_pairwise_cons hSortedRest hTail)
      have hOutKeys :
          ∀ p ∈ output, ∃ q ∈ rest, q.1 = p.1 := by
        intro p hP
        have hNonemptyP := (hFolds p hP).ne_nil
        rcases List.exists_mem_of_ne_nil _ hNonemptyP with
          ⟨a, hA⟩
        exact ⟨(p.1, a), mem_valuesOf_iff.mp hA, rfl⟩
      have hGroup :
          valuesOf (group ++ rest) key =
            group.map Prod.snd := by
        unfold valuesOf
        rw [List.filter_append]
        have hAll : group.filter (fun p => p.1 = key) = group :=
          List.filter_eq_self.mpr fun p hP =>
            decide_eq_true (hKey p hP)
        have hNone : rest.filter (fun p => p.1 = key) = [] :=
          List.filter_eq_nil_iff.mpr fun p hP hDec =>
            (hAbove p hP).ne (of_decide_eq_true hDec).symm
        rw [hAll, hNone, List.append_nil]
      have hOthers :
          ∀ p ∈ output,
            valuesOf (group ++ rest) p.1 =
              valuesOf rest p.1 := by
        intro p hP
        rcases hOutKeys p hP with ⟨q, hQ, hEq⟩
        have hLt : key < p.1 := hEq ▸ hAbove q hQ
        unfold valuesOf
        rw [List.filter_append]
        have hNone : group.filter (fun r => r.1 = p.1) = [] :=
          List.filter_eq_nil_iff.mpr fun r hR hDec =>
            hLt.ne ((hKey r hR).symm.trans (of_decide_eq_true hDec))
        rw [hNone, List.nil_append]
      refine ⟨?_, ?_, ?_⟩
      · refine List.pairwise_cons.mpr ⟨?_, hStrict⟩
        intro p hP
        rcases hOutKeys p hP with ⟨q, hQ, hEq⟩
        exact hEq ▸ hAbove q hQ
      · intro p hP
        rcases List.mem_cons.mp hP with rfl | hOutput
        · rw [hGroup]
          exact hFold
        · rw [hOthers p hOutput]
          exact hFolds p hOutput
      · intro p hP
        rcases List.mem_append.mp hP with hIn | hRest
        · exact ⟨value, by simp [hKey p hIn]⟩
        · rcases hCovers p hRest with ⟨other, hOther⟩
          exact ⟨other, List.mem_cons_of_mem _ hOther⟩

----------------
-- The Device Primitives
----------------

/- A sort of pairs that promises a key-sorted permutation. -/
structure SortPairs (κ : Type u) (ν : Type v) [LinearOrder κ] where
  run : List (κ × ν) → List (κ × ν)
  perm : ∀ xs, (run xs).Perm xs
  sorted : ∀ xs, (run xs).Pairwise fun p q => p.1 ≤ q.1

/- A reduction that promises one fold for every maximal run. -/
structure ReduceByKey
    (κ : Type u)
    (ν : Type v)
    (op : ν → ν → ν) where
  run : List (κ × ν) → List (κ × ν)
  reduces : ∀ xs, ReducesRuns op xs (run xs)

/- A sort keeps the length. -/
theorem SortPairs.length_run
    (sort : SortPairs κ ν)
    (xs : List (κ × ν)) :
    (sort.run xs).length = xs.length :=
  (sort.perm xs).length_eq

/- Insertion sort keeps the promise of a sort. -/
def insertionSortPairs : SortPairs κ ν where
  run xs := xs.insertionSort fun p q => p.1 ≤ q.1
  perm xs := List.perm_insertionSort _ xs
  sorted xs := by
    have hTotal :
        Std.Total fun p q : κ × ν => p.1 ≤ q.1 :=
      ⟨fun p q => le_total p.1 q.1⟩
    have hTrans :
        IsTrans (κ × ν) fun p q => p.1 ≤ q.1 :=
      ⟨fun _ _ _ hFirst hSecond => hFirst.trans hSecond⟩
    exact List.pairwise_insertionSort _ xs

/- Fold a run into the row in front of it, from the right. -/
def foldRuns (op : ν → ν → ν) : List (κ × ν) → List (κ × ν)
  | [] => []
  | (key, value) :: rest =>
      match foldRuns op rest with
      | [] => [(key, value)]
      | (next, folded) :: output =>
          if key = next then (key, op value folded) :: output
          else (key, value) :: (next, folded) :: output

/- The fold by hand is a reduction. -/
theorem foldRuns_reduces
    (op : ν → ν → ν)
    (xs : List (κ × ν)) :
    ReducesRuns op xs (foldRuns op xs) := by
  induction xs with
  | nil => exact ReducesRuns.nil
  | cons p rest ih =>
      rcases p with ⟨key, value⟩
      have hSingle :
          AssocFold op ([(key, value)].map Prod.snd) value :=
        AssocFold.single value
      have hOnly :
          ∀ q ∈ [(key, value)], q.1 = key := by
        simp
      rw [foldRuns]
      generalize foldRuns op rest = output at ih
      cases ih with
      | nil =>
          have hRun :
              ReducesRuns op ([(key, value)] ++ [])
                [(key, value)] :=
            ReducesRuns.run hOnly (by simp) hSingle
              ReducesRuns.nil
          exact hRun
      | @run next group tail output folded hKey hMaximal hFold
          hRest =>
          simp only
          by_cases hSame : key = next
          · subst hSame
            rw [if_pos rfl]
            have hAll : ∀ q ∈ (key, value) :: group, q.1 = key := by
              intro q hQ
              rcases List.mem_cons.mp hQ with rfl | hIn
              · rfl
              · exact hKey q hIn
            have hJoined :
                AssocFold op
                  (((key, value) :: group).map Prod.snd)
                  (op value folded) :=
              AssocFold.node (AssocFold.single value) hFold
            exact ReducesRuns.run hAll hMaximal hJoined hRest
          · rw [if_neg hSame]
            have hNonempty := hFold.ne_nil
            rw [ne_eq, List.map_eq_nil_iff] at hNonempty
            have hNext :
                ∀ q ∈ (group ++ tail).head?, q.1 ≠ key := by
              intro q hQ
              cases group with
              | nil => exact absurd rfl hNonempty
              | cons head group =>
                  rcases Option.mem_some_iff.mp hQ with rfl
                  rw [hKey head List.mem_cons_self]
                  exact fun hEq => hSame hEq.symm
            have hRun :
                ReducesRuns op ([(key, value)] ++ (group ++ tail))
                  ((key, value) :: (next, folded) :: output) :=
              ReducesRuns.run hOnly hNext hSingle
                (ReducesRuns.run hKey hMaximal hFold hRest)
            exact hRun

/- Folding runs from the right keeps the promise of a reduction. -/
def foldRunsByKey (op : ν → ν → ν) : ReduceByKey κ ν op where
  run := foldRuns op
  reduces := foldRuns_reduces op

end SegmentedReduce
