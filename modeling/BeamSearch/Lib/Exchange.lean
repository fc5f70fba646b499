import Mathlib.Data.List.Perm.Basic
import Mathlib.Data.Multiset.Bind
import BeamSearch.Lib.Compaction

/-
  Exchanging contiguous parts of buffers between ranks.

  Every rank sends each peer one segment of its buffer and
  receives the segments of all senders in sender order. On a
  buffer sorted by destination the segments are exactly the rows
  of each destination.

  Main declarations:
    * `ExchangePlan`
    * `exchange`
    * `lowerBound`
    * `sendPart_eq_filter`
    * `applyWrites`
-/

namespace Exchange

open Cdf Compaction

universe u v

variable {α : Type u} {β : Type v}

----------------
-- Plans And Exchanges
----------------

/- What is sent to each receiver, and from where. -/
structure ExchangePlan where
  count : Nat → Nat
  offset : Nat → Nat
  total : Nat

/- More than a buffer holds. -/
inductive ExchangeFault where
  | sendExceedsCapacity
  | recvExceedsCapacity
deriving DecidableEq, Repr

/- The segment a plan sends to one peer. -/
def sendPart
    (plan : ExchangePlan)
    (buffer : List α)
    (peer : Nat) : List α :=
  (buffer.drop (plan.offset peer)).take (plan.count peer)

/- What a rank receives: the senders' segments in sender order. -/
def recvBuffer
    (worldSize : Nat)
    (plans : Nat → ExchangePlan)
    (buffers : Nat → List α)
    (rank : Nat) : List α :=
  (List.range worldSize).flatMap fun sender =>
    sendPart (plans sender) (buffers sender) rank

/- What a rank receives from all. -/
def recvTotal
    (worldSize : Nat)
    (plans : Nat → ExchangePlan)
    (rank : Nat) : Nat :=
  below (fun sender => (plans sender).count rank) worldSize

/- One exchange over all ranks, with every rank's capacity checks. -/
def exchange
    (worldSize sendCapacity recvCapacity : Nat)
    (plans : Nat → ExchangePlan)
    (buffers : Nat → List α) :
    Except ExchangeFault (Nat → List α) :=
  if (List.range worldSize).any fun rank =>
      decide ((plans rank).total > sendCapacity) then
    .error .sendExceedsCapacity
  else if (List.range worldSize).any fun rank =>
      decide (recvTotal worldSize plans rank > recvCapacity) then
    .error .recvExceedsCapacity
  else
    .ok (recvBuffer worldSize plans buffers)

/- An exchange that went through passed both checks. -/
theorem exchange_eq_ok
    {worldSize sendCapacity recvCapacity : Nat}
    {plans : Nat → ExchangePlan}
    {buffers received : Nat → List α}
    (hExchange :
      exchange worldSize sendCapacity recvCapacity plans
          buffers =
        .ok received) :
    received = recvBuffer worldSize plans buffers := by
  unfold exchange at hExchange
  split_ifs at hExchange
  injection hExchange with hEq
  exact hEq.symm

/- An exchange that fits goes through. -/
theorem exchange_of_fits
    {worldSize sendCapacity recvCapacity : Nat}
    {plans : Nat → ExchangePlan}
    (buffers : Nat → List α)
    (hSend : ∀ rank < worldSize, (plans rank).total ≤ sendCapacity)
    (hRecv :
      ∀ rank < worldSize,
        recvTotal worldSize plans rank ≤ recvCapacity) :
    exchange worldSize sendCapacity recvCapacity plans buffers =
      .ok (recvBuffer worldSize plans buffers) := by
  have hNoSend :
      ((List.range worldSize).any fun rank =>
        decide ((plans rank).total > sendCapacity)) = false := by
    rw [List.any_eq_false]
    intro rank hMem
    have hLe := hSend rank (List.mem_range.mp hMem)
    simp [hLe]
  have hNoRecv :
      ((List.range worldSize).any fun rank =>
        decide (recvTotal worldSize plans rank > recvCapacity)) =
        false := by
    rw [List.any_eq_false]
    intro rank hMem
    have hLe := hRecv rank (List.mem_range.mp hMem)
    simp [hLe]
  unfold exchange
  rw [hNoSend, hNoRecv]
  simp

/- A part of images is the images of a part. -/
theorem sendPart_map
    (f : α → β)
    (plan : ExchangePlan)
    (buffer : List α)
    (peer : Nat) :
    sendPart plan (buffer.map f) peer =
      (sendPart plan buffer peer).map f := by
  simp [sendPart, List.map_take, List.map_drop]

----------------
-- Segments Of Sorted Buffers
----------------

/- A sorted list is its rows below a key and its other rows. -/
theorem filter_lt_append_filter_le
    {key : α → Nat}
    {xs : List α}
    (hSorted : xs.Pairwise fun a b => key a ≤ key b)
    (pivot : Nat) :
    (xs.filter fun a => key a < pivot) ++
        (xs.filter fun a => pivot ≤ key a) =
      xs := by
  induction xs with
  | nil => rfl
  | cons a xs ih =>
      rcases List.pairwise_cons.mp hSorted with ⟨hHead, hTail⟩
      by_cases hLt : key a < pivot
      · have hNotLe : ¬ pivot ≤ key a := by omega
        simp only [List.filter_cons, hLt, hNotLe,
          decide_true, decide_false, if_true, List.cons_append,
          Bool.false_eq_true, if_false, ih hTail]
      · have hNone :
            (xs.filter fun b => key b < pivot) = [] := by
          rw [List.filter_eq_nil_iff]
          intro b hB
          have hLe := hHead b hB
          simp only [decide_eq_true_eq]
          omega
        have hAll :
            (xs.filter fun b => pivot ≤ key b) = xs := by
          rw [List.filter_eq_self]
          intro b hB
          have hLe := hHead b hB
          simp only [decide_eq_true_eq]
          omega
        have hLe : pivot ≤ key a := by omega
        simp only [List.filter_cons, hLt, hLe, decide_true,
          decide_false, if_true, Bool.false_eq_true, if_false,
          hNone, hAll, List.nil_append]

/- The rows of one key form the segment behind the smaller keys. -/
theorem drop_take_eq_filter
    {key : α → Nat}
    {xs : List α}
    (hSorted : xs.Pairwise fun a b => key a ≤ key b)
    (pivot : Nat) :
    (xs.drop (xs.countP fun a => key a < pivot)).take
        (xs.countP fun a => key a = pivot) =
      xs.filter fun a => key a = pivot := by
  have hSplit := filter_lt_append_filter_le hSorted pivot
  have hRest :
      xs.drop (xs.countP fun a => key a < pivot) =
        xs.filter fun a => pivot ≤ key a := by
    conv_lhs => rw [← hSplit]
    rw [List.countP_append, List.countP_filter,
      List.countP_filter]
    have hFirst :
        (xs.countP fun a =>
          decide (key a < pivot) && decide (key a < pivot)) =
          (xs.filter fun a => key a < pivot).length := by
      simp [List.countP_eq_length_filter]
    have hSecond :
        (xs.countP fun a =>
          decide (key a < pivot) && decide (pivot ≤ key a)) =
          0 := by
      rw [List.countP_eq_zero]
      intro a _
      simp only [Bool.and_eq_true, decide_eq_true_eq]
      omega
    rw [hFirst, hSecond, Nat.add_zero, List.drop_left]
  have hSortedRest :
      (xs.filter fun a => pivot ≤ key a).Pairwise
        fun a b => key a ≤ key b :=
    hSorted.filter _
  have hSame :
      ((xs.filter fun a => pivot ≤ key a).filter
        fun a => key a < pivot + 1) =
        xs.filter fun a => key a = pivot := by
    rw [List.filter_filter]
    apply List.filter_congr
    intro a _
    rw [Bool.eq_iff_iff]
    simp only [Bool.and_eq_true, decide_eq_true_eq]
    omega
  have hRestSplit :=
    filter_lt_append_filter_le hSortedRest (pivot + 1)
  rw [hRest, ← hRestSplit, hSame, List.countP_eq_length_filter,
    List.take_left]

/-
  A plan whose counts are the destinations' and whose offsets
  are the counts of the smaller destinations sends every peer
  exactly its rows.
-/
theorem sendPart_eq_filter
    {key : α → Nat}
    {xs : List α}
    {plan : ExchangePlan}
    {peer : Nat}
    (hSorted : xs.Pairwise fun a b => key a ≤ key b)
    (hCount : plan.count peer = xs.countP fun a => key a = peer)
    (hOffset :
      plan.offset peer = xs.countP fun a => key a < peer) :
    sendPart plan xs peer = xs.filter fun a => key a = peer := by
  rw [sendPart, hCount, hOffset]
  exact drop_take_eq_filter hSorted peer

/- Counts of all destinations below a bound add up. -/
theorem below_countP
    (key : α → Nat)
    (xs : List α)
    (n : Nat) :
    below (fun k => xs.countP fun a => key a = k) n =
      xs.countP fun a => key a < n := by
  induction n with
  | zero => simp
  | succ n ih =>
      rw [below_succ, ih, countP_lt_succ key xs n]

----------------
-- Binary Search
----------------

/- The search keeps `count` positions behind `first` open. -/
def lowerBoundLoop
    (keys : Nat → Nat)
    (key : Nat) :
    Nat → Nat → Nat → Nat
  | 0, first, _ => first
  | fuel + 1, first, count =>
      if count = 0 then
        first
      else
        let step := count / 2
        let mid := first + step
        if keys mid < key then
          lowerBoundLoop keys key fuel (mid + 1)
            (count - (step + 1))
        else
          lowerBoundLoop keys key fuel first step

/-
  The first index whose key is not below the given one, for
  sorted keys.
-/
def lowerBound
    (keys : Nat → Nat)
    (itemCount key : Nat) : Nat :=
  lowerBoundLoop keys key itemCount 0 itemCount

/- The found position separates the smaller keys from the others. -/
theorem lowerBoundLoop_spec
    {keys : Nat → Nat}
    {itemCount : Nat}
    (key fuel first count : Nat)
    (hSorted :
      ∀ i j, i ≤ j → j < itemCount → keys i ≤ keys j)
    (hFuel : count ≤ fuel)
    (hInside : first + count ≤ itemCount)
    (hBefore : ∀ i < first, keys i < key)
    (hAfter :
      ∀ i, first + count ≤ i → i < itemCount → key ≤ keys i) :
    let result := lowerBoundLoop keys key fuel first count
    result ≤ itemCount ∧
      (∀ i < result, keys i < key) ∧
      ∀ i, result ≤ i → i < itemCount → key ≤ keys i := by
  induction fuel generalizing first count with
  | zero =>
      have hZero : count = 0 := by omega
      subst hZero
      exact ⟨by simpa [lowerBoundLoop] using hInside, hBefore,
        hAfter⟩
  | succ fuel ih =>
      rw [lowerBoundLoop]
      by_cases hZero : count = 0
      · subst hZero
        rw [if_pos rfl]
        exact ⟨hInside, hBefore, hAfter⟩
      · rw [if_neg hZero]
        by_cases hMid : keys (first + count / 2) < key
        · simp only [if_pos hMid]
          apply ih
          · omega
          · omega
          · intro i hI
            have hLe : keys i ≤ keys (first + count / 2) :=
              hSorted i _ (by omega) (by omega)
            omega
          · intro i hI hLt
            exact hAfter i (by omega) hLt
        · simp only [if_neg hMid]
          apply ih
          · omega
          · omega
          · exact hBefore
          · intro i hI hLt
            have hLe : keys (first + count / 2) ≤ keys i :=
              hSorted _ i hI hLt
            omega

/- On a sorted list the search counts the smaller keys. -/
theorem lowerBound_eq_countP
    {key : α → Nat}
    {xs : List α}
    (hSorted : xs.Pairwise fun a b => key a ≤ key b)
    (bound : Nat) :
    lowerBound (fun i => (xs.map key).getD i 0) xs.length bound =
      xs.countP fun a => key a < bound := by
  let keys := fun i => (xs.map key).getD i 0
  have hKeys : ∀ (i : Nat) (hLt : i < xs.length),
      keys i = key xs[i] := by
    intro i hLt
    simp [keys, hLt]
  have hMono :
      ∀ i j, i ≤ j → j < xs.length → keys i ≤ keys j := by
    intro i j hLe hLt
    rw [hKeys i (by omega), hKeys j hLt]
    rcases Nat.lt_or_eq_of_le hLe with hStrict | hEq
    · exact List.pairwise_iff_getElem.mp hSorted i j (by omega)
        hLt hStrict
    · subst hEq
      exact le_rfl
  rcases lowerBoundLoop_spec bound xs.length 0 xs.length hMono
      le_rfl (by omega) (by omega) (by omega) with
    ⟨hLe, hBelow, hAbove⟩
  let found := lowerBoundLoop keys bound xs.length 0 xs.length
  change found = _
  have hTake :
      (xs.take found).countP (fun a => key a < bound) =
        found := by
    have hAll :
        (xs.take found).countP (fun a => key a < bound) =
          (xs.take found).length := by
      rw [List.countP_eq_length]
      intro a hMem
      rcases List.mem_take_iff_getElem.mp hMem with
        ⟨i, hI, rfl⟩
      have hAt := hBelow i (by omega)
      rw [hKeys i (by omega)] at hAt
      exact decide_eq_true hAt
    rw [hAll, List.length_take]
    exact min_eq_left hLe
  have hDrop :
      (xs.drop found).countP (fun a => key a < bound) = 0 := by
    rw [List.countP_eq_zero]
    intro a hMem
    rcases List.mem_drop_iff_getElem.mp hMem with ⟨i, hI, rfl⟩
    have hAt := hAbove (found + i) (by omega) (by omega)
    rw [hKeys (found + i) (by omega)] at hAt
    rw [decide_eq_true_eq]
    omega
  rw [← List.take_append_drop found xs, List.countP_append, hTake,
    hDrop, Nat.add_zero]

----------------
-- Walks Over Parts
----------------

/- The rows of every key below a bound, one key after the other. -/
theorem flatMap_filter_perm
    (key : α → Nat)
    (xs : List α)
    (n : Nat) :
    ((List.range n).flatMap fun k =>
        xs.filter fun a => key a = k).Perm
      (xs.filter fun a => key a < n) := by
  induction n with
  | zero => simp
  | succ n ih =>
      have hSplit :=
        List.filter_append_perm (fun a => decide (key a < n))
          (xs.filter fun a => key a < n + 1)
      rw [List.filter_filter, List.filter_filter] at hSplit
      have hBelow :
          (xs.filter fun a =>
            decide (key a < n) && decide (key a < n + 1)) =
            xs.filter fun a => key a < n := by
        apply List.filter_congr
        intro a _
        rw [Bool.eq_iff_iff]
        simp only [Bool.and_eq_true, decide_eq_true_eq]
        omega
      have hEqual :
          (xs.filter fun a =>
            !decide (key a < n) && decide (key a < n + 1)) =
            xs.filter fun a => key a = n := by
        apply List.filter_congr
        intro a _
        rw [Bool.eq_iff_iff]
        simp only [Bool.and_eq_true, Bool.not_eq_true',
          decide_eq_true_eq, decide_eq_false_iff_not]
        omega
      rw [hBelow, hEqual] at hSplit
      rw [List.range_succ, List.flatMap_append,
        List.flatMap_singleton]
      exact (ih.append_right _).trans hSplit

/- Two nested walks visit the same parts in either order. -/
theorem flatMap_comm_perm
    (xs : Nat → Nat → List α)
    (m n : Nat) :
    ((List.range m).flatMap fun i =>
        (List.range n).flatMap fun j => xs i j).Perm
      ((List.range n).flatMap fun j =>
        (List.range m).flatMap fun i => xs i j) := by
  rw [← Multiset.coe_eq_coe]
  simp only [← Multiset.coe_bind]
  exact Multiset.bind_bind _ _

/- A rank's own part in front of the parts of the other ranks. -/
theorem own_append_others_perm
    (xs : Nat → List α)
    {own n : Nat}
    (hOwn : own < n) :
    (xs own ++
        (List.range n).flatMap fun i =>
          if i = own then [] else xs i).Perm
      ((List.range n).flatMap xs) := by
  induction n with
  | zero => omega
  | succ n ih =>
      rw [List.range_succ, List.flatMap_append,
        List.flatMap_append, List.flatMap_singleton,
        List.flatMap_singleton, ← List.append_assoc]
      by_cases hLast : own = n
      · subst hLast
        have hOthers :
            ((List.range own).flatMap fun i =>
              if i = own then [] else xs i) =
              (List.range own).flatMap xs := by
          apply List.flatMap_congr
          intro i hI
          rw [if_neg (Nat.ne_of_lt (List.mem_range.mp hI))]
        rw [hOthers, if_pos rfl, List.append_nil]
        exact List.perm_append_comm
      · rw [if_neg (Ne.symm hLast)]
        exact (ih (by omega)).append_right _

----------------
-- Chunks And Running Indices
----------------

/- The items behind some place keep their indices. -/
theorem drop_zipIdx
    (xs : List α)
    (base n : Nat) :
    (xs.zipIdx base).drop n = (xs.drop n).zipIdx (base + n) := by
  induction xs generalizing base n with
  | nil => simp
  | cons a xs ih =>
      cases n with
      | zero => simp
      | succ n =>
          rw [List.zipIdx_cons, List.drop_succ_cons, ih,
            List.drop_succ_cons]
          congr 1
          omega

/- So do the items before it. -/
theorem take_zipIdx
    (xs : List α)
    (base n : Nat) :
    (xs.zipIdx base).take n = (xs.take n).zipIdx base := by
  induction xs generalizing base n with
  | nil => simp
  | cons a xs ih =>
      cases n with
      | zero => simp
      | succ n =>
          rw [List.zipIdx_cons, List.take_succ_cons, ih,
            List.take_succ_cons, List.zipIdx_cons]

/- Enough chunks of a list give the list. -/
theorem flatMap_chunks
    (xs : List α)
    (capacity rounds : Nat) :
    ((List.range rounds).flatMap fun round =>
        (xs.drop (round * capacity)).take capacity) =
      xs.take (rounds * capacity) := by
  induction rounds with
  | zero => simp
  | succ rounds ih =>
      rw [List.range_succ, List.flatMap_append, ih, Nat.add_mul,
        Nat.one_mul, List.take_add]
      simp

/- Numbering the parts behind each other numbers the concatenation. -/
theorem flatMap_zipIdx_range
    (xs : Nat → List α)
    (base n : Nat) :
    ((List.range n).flatMap fun i =>
        (xs i).zipIdx (base + below (fun j => (xs j).length) i)) =
      ((List.range n).flatMap xs).zipIdx base := by
  induction n with
  | zero => simp
  | succ n ih =>
      rw [List.range_succ, List.flatMap_append, ih,
        List.flatMap_append, List.zipIdx_append,
        length_flatMap_range]
      simp

/- How many of a numbered list's indices lie in an interval. -/
theorem countP_zipIdx
    (xs : List α)
    (base lower upper : Nat) :
    ((xs.zipIdx base).countP fun p =>
        decide (lower ≤ p.2) && decide (p.2 < upper)) =
      min upper (base + xs.length) - max lower base := by
  induction xs generalizing base with
  | nil =>
      simp only [List.zipIdx_nil, List.countP_nil,
        List.length_nil]
      omega
  | cons a xs ih =>
      rw [List.zipIdx_cons, List.countP_cons, ih,
        List.length_cons]
      split_ifs with hIn
      · simp only [Bool.and_eq_true, decide_eq_true_eq] at hIn
        omega
      · simp only [Bool.and_eq_true, decide_eq_true_eq] at hIn
        omega

----------------
-- Scattered Writes
----------------

/- Writes to an array, one after the other. -/
def applyWrites
    (writes : List (Nat × α))
    (array : Nat → α) : Nat → α :=
  writes.foldl
    (fun array write =>
      Function.update array write.1 write.2)
    array

/- An index written once holds what was written. -/
theorem applyWrites_of_mem
    {writes : List (Nat × α)}
    (array : Nat → α)
    {write : Nat × α}
    (hNodup : (writes.map Prod.fst).Nodup)
    (hMem : write ∈ writes) :
    applyWrites writes array write.1 = write.2 := by
  induction writes using List.reverseRecOn with
  | nil => exact absurd hMem List.not_mem_nil
  | append_singleton writes last ih =>
      rw [List.map_append, List.map_singleton,
        List.nodup_append] at hNodup
      rcases hNodup with ⟨hInit, -, hLast⟩
      rw [applyWrites, List.foldl_append, List.foldl_cons,
        List.foldl_nil]
      rcases List.mem_append.mp hMem with hOld | hNew
      · have hNe : write.1 ≠ last.1 :=
          hLast write.1 (List.mem_map_of_mem hOld) last.1
            (List.mem_singleton_self _)
        rw [Function.update_of_ne hNe]
        exact ih hInit hOld
      · rw [List.mem_singleton.mp hNew, Function.update_self]

end Exchange
