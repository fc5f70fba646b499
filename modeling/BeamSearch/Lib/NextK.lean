import Mathlib.Data.Finset.Sort
import Mathlib.Data.Finset.Card
import Mathlib.Order.Interval.Finset.Nat

/-
  The first elements of an order, kept while they arrive.

  A bounded ordered set inserts every element that no kept one
  is equivalent to, and drops its last element beyond the limit.
  In the end it holds the first elements of all that arrived.
  The first elements of a union are among the first elements of
  its parts, so parts may be cut before they are joined.

  Main declarations:
    * `firstK`, `firstK_between`
    * `sort_eq_append`
    * `nextK`, `map_nextK`
-/

namespace NextK

universe u v

variable {α : Type u} {κ : Type v} [LinearOrder κ]

----------------
-- The First Elements Of A Set
----------------

/- The elements with fewer than `limit` elements before them. -/
def firstK (limit : Nat) (s : Finset κ) : Finset κ :=
  s.filter fun x => (s.filter (· < x)).card < limit

/- An item is among the first where few are below it. -/
theorem mem_firstK
    {limit : Nat}
    {s : Finset κ}
    {x : κ} :
    x ∈ firstK limit s ↔
      x ∈ s ∧ (s.filter (· < x)).card < limit := by
  rw [firstK, Finset.mem_filter]

/- The first ones are items. -/
theorem firstK_subset (limit : Nat) (s : Finset κ) :
    firstK limit s ⊆ s :=
  Finset.filter_subset _ _

/- A small set is its own first ones. -/
theorem firstK_eq_self
    {limit : Nat}
    {s : Finset κ}
    (hCard : s.card ≤ limit) :
    firstK limit s = s := by
  refine Finset.Subset.antisymm (firstK_subset limit s) ?_
  intro x hx
  refine mem_firstK.mpr ⟨hx, ?_⟩
  have hProper : s.filter (· < x) ⊂ s :=
    Finset.filter_ssubset.mpr ⟨x, hx, lt_irrefl x⟩
  exact (Finset.card_lt_card hProper).trans_le hCard

/- Below an element of the set only smaller ones count. -/
theorem firstK_of_lower
    {limit : Nat}
    {s t : Finset κ}
    (hSubset : t ⊆ s)
    (hLower : ∀ x ∈ t, ∀ y ∈ s, y < x → y ∈ t) :
    firstK limit t ⊆ firstK limit s := by
  intro x hx
  rcases mem_firstK.mp hx with ⟨hxt, hCard⟩
  refine mem_firstK.mpr ⟨hSubset hxt, ?_⟩
  have hSame : s.filter (· < x) = t.filter (· < x) := by
    ext y
    rw [Finset.mem_filter, Finset.mem_filter]
    exact
      ⟨fun hy => ⟨hLower x hxt y hy.1 hy.2, hy.2⟩,
        fun hy => ⟨hSubset hy.1, hy.2⟩⟩
  rwa [hSame]

/- The first ones are enough. -/
theorem le_card_firstK
    {limit : Nat}
    (s : Finset κ)
    (hCard : limit ≤ s.card) :
    limit ≤ (firstK limit s).card := by
  induction s using Finset.induction_on_max with
  | empty =>
      rw [Finset.card_empty] at hCard
      exact hCard.trans (Nat.zero_le _)
  | insert m s hMax ih =>
      have hNew : m ∉ s := fun hIn => lt_irrefl m (hMax m hIn)
      rw [Finset.card_insert_of_notMem hNew] at hCard
      by_cases hEnough : limit ≤ s.card
      · refine (ih hEnough).trans (Finset.card_le_card ?_)
        refine firstK_of_lower (Finset.subset_insert m s) ?_
        intro x hx y hy hLt
        refine (Finset.mem_insert.mp hy).resolve_left ?_
        rintro rfl
        exact lt_asymm hLt (hMax x hx)
      · have hAll : (insert m s).card ≤ limit := by
          rw [Finset.card_insert_of_notMem hNew]
          omega
        rw [firstK_eq_self hAll,
          Finset.card_insert_of_notMem hNew]
        omega

/- How many first ones there are. -/
theorem card_firstK (limit : Nat) (s : Finset κ) :
    (firstK limit s).card = min limit s.card := by
  by_cases hCard : s.card ≤ limit
  · rw [firstK_eq_self hCard, Nat.min_eq_right hCard]
  · have hLower := le_card_firstK s (Nat.le_of_not_le hCard)
    rw [Nat.min_eq_left (Nat.le_of_not_le hCard)]
    refine Nat.le_antisymm ?_ hLower
    by_contra hMore
    -- The largest of too many would have `limit` before it.
    have hPos : (firstK limit s).Nonempty := by
      rw [← Finset.card_pos]
      omega
    have hMax := (firstK limit s).max'_mem hPos
    have hBelow :
        (firstK limit s).erase ((firstK limit s).max' hPos) ⊆
          s.filter (· < (firstK limit s).max' hPos) := by
      intro y hy
      rw [Finset.mem_erase] at hy
      refine
        Finset.mem_filter.mpr ⟨firstK_subset _ _ hy.2, ?_⟩
      exact lt_of_le_of_ne (Finset.le_max' _ _ hy.2) hy.1
    have hCount := Finset.card_le_card hBelow
    rw [Finset.card_erase_of_mem hMax] at hCount
    have hFew := (mem_firstK.mp hMax).2
    omega

/- Dropping others than the first leaves the first. -/
theorem firstK_between
    {limit : Nat}
    {s t : Finset κ}
    (hFirst : firstK limit s ⊆ t)
    (hSubset : t ⊆ s) :
    firstK limit t = firstK limit s := by
  ext x
  constructor
  · intro hx
    rcases mem_firstK.mp hx with ⟨hxt, hCard⟩
    refine mem_firstK.mpr ⟨hSubset hxt, ?_⟩
    by_contra hMany
    have hLower :
        firstK limit (s.filter (· < x)) ⊆ firstK limit s :=
      firstK_of_lower (Finset.filter_subset _ _)
        fun y hy z hz hLt =>
          Finset.mem_filter.mpr
            ⟨hz, hLt.trans (Finset.mem_filter.mp hy).2⟩
    have hInside :
        firstK limit (s.filter (· < x)) ⊆ t.filter (· < x) :=
      fun y hy =>
        Finset.mem_filter.mpr
          ⟨hFirst (hLower hy),
            (Finset.mem_filter.mp (firstK_subset _ _ hy)).2⟩
    have hCount :=
      (le_card_firstK (s.filter (· < x))
          (Nat.le_of_not_lt hMany)).trans
        (Finset.card_le_card hInside)
    exact absurd hCard (Nat.not_lt.mpr hCount)
  · intro hx
    refine mem_firstK.mpr ⟨hFirst hx, ?_⟩
    exact
      (Finset.card_le_card
        (Finset.filter_subset_filter _ hSubset)).trans_lt
        (mem_firstK.mp hx).2

/- A strictly sorted list is the sorted set of its elements. -/
theorem eq_sort_of_pairwise
    {ks : List κ}
    {s : Finset κ}
    (hSorted : ks.Pairwise (· < ·))
    (hMem : ∀ k, k ∈ ks ↔ k ∈ s) :
    ks = s.sort := by
  have hSet : ks.toFinset = s := by
    ext k
    rw [List.mem_toFinset, hMem]
  have hNodup : ks.Nodup := hSorted.imp ne_of_lt
  rw [← hSet]
  exact
    ((List.toFinset_sort (· ≤ ·) hNodup).mpr
      (hSorted.imp le_of_lt)).symm

/- A set is listed from the front. -/
theorem sort_eq_append
    {s t : Finset κ}
    (hSubset : t ⊆ s)
    (hLower : ∀ x ∈ t, ∀ y ∈ s, y < x → y ∈ t) :
    s.sort = t.sort ++ (s \ t).sort := by
  refine (eq_sort_of_pairwise ?_ fun k => ?_).symm
  · refine
      List.pairwise_append.mpr
        ⟨t.sortedLT_sort.pairwise,
          (s \ t).sortedLT_sort.pairwise, ?_⟩
    intro x hx y hy
    rw [Finset.mem_sort] at hx
    rw [Finset.mem_sort, Finset.mem_sdiff] at hy
    rcases lt_trichotomy x y with hLt | rfl | hLt
    · exact hLt
    · exact absurd hx hy.2
    · exact absurd (hLower x hx y hy.1 hLt) hy.2
  · rw [List.mem_append, Finset.mem_sort, Finset.mem_sort,
      Finset.mem_sdiff]
    constructor
    · rintro (hk | hk)
      · exact hSubset hk
      · exact hk.1
    · intro hk
      by_cases hIn : k ∈ t
      · exact Or.inl hIn
      · exact Or.inr ⟨hk, hIn⟩

/- What is below a first one is a first one. -/
theorem firstK_lower
    (limit : Nat)
    (s : Finset κ) :
    ∀ x ∈ firstK limit s, ∀ y ∈ s, y < x →
      y ∈ firstK limit s := by
  intro x hx y hy hLt
  refine mem_firstK.mpr ⟨hy, lt_of_le_of_lt ?_ (mem_firstK.mp hx).2⟩
  refine Finset.card_le_card fun z hz => ?_
  rw [Finset.mem_filter] at hz ⊢
  exact ⟨hz.1, hz.2.trans hLt⟩

/- The sorted first ones are a prefix of the sorted set. -/
theorem take_sort (limit : Nat) (s : Finset κ) :
    s.sort.take limit = (firstK limit s).sort := by
  have hLength :
      (firstK limit s).sort.length = min limit s.card := by
    rw [Finset.length_sort, card_firstK]
  rw [sort_eq_append (firstK_subset limit s)
    (firstK_lower limit s), List.take_append, hLength]
  by_cases hCard : s.card ≤ limit
  · rw [firstK_eq_self hCard, Finset.sdiff_self,
      Finset.sort_empty, List.take_nil, List.append_nil]
    exact List.take_of_length_le (by rwa [Finset.length_sort])
  · rw [Nat.min_eq_left (Nat.le_of_not_le hCard), Nat.sub_self,
      List.take_zero, List.append_nil]
    refine List.take_of_length_le ?_
    rw [hLength]
    exact Nat.min_le_left _ _

----------------
-- Bounded Ordered Sets
----------------

/- Insert in order, unless an equivalent one is there. -/
def insertOrdered (less : α → α → Bool) (x : α) :
    List α → List α
  | [] => [x]
  | y :: ys =>
      if less x y then x :: y :: ys
      else if less y x then y :: insertOrdered less x ys
      else y :: ys

/- Insert, and drop the last one beyond the limit. -/
def insertBounded
    (less : α → α → Bool)
    (limit : Nat)
    (kept : List α)
    (x : α) : List α :=
  let inserted := insertOrdered less x kept
  if inserted.length > limit then inserted.dropLast
  else inserted

/- The first rows in the order, at most `limit` of them. -/
def nextK
    (less : α → α → Bool)
    (limit : Nat)
    (rows : List α) : List α :=
  rows.foldl (insertBounded less limit) []

/- The comparison is the order of a key. -/
def OrdersBy (less : α → α → Bool) (key : α → κ) : Prop :=
  ∀ a b, less a b = true ↔ key a < key b

variable {less : α → α → Bool} {key : α → κ}

/- An insert adds one item. -/
theorem mem_insertOrdered
    {x y : α}
    {ys : List α}
    (hMember : y ∈ insertOrdered less x ys) :
    y = x ∨ y ∈ ys := by
  induction ys with
  | nil => exact Or.inl (List.mem_singleton.mp hMember)
  | cons z zs ih =>
      rw [insertOrdered] at hMember
      split_ifs at hMember
      · exact List.mem_cons.mp hMember
      · rcases List.mem_cons.mp hMember with rfl | hRest
        · exact Or.inr List.mem_cons_self
        · exact
            (ih hRest).imp_right (List.mem_cons_of_mem z)
      · exact Or.inr hMember

/- The keys after an insert. -/
theorem mem_keys_insertOrdered
    (hOrders : OrdersBy less key)
    (x : α)
    (ys : List α)
    (k : κ) :
    k ∈ (insertOrdered less x ys).map key ↔
      k = key x ∨ k ∈ ys.map key := by
  induction ys with
  | nil => simp [insertOrdered]
  | cons y ys ih =>
      rw [insertOrdered]
      split_ifs with hBefore hAfter
      · simp
      · rw [List.map_cons, List.mem_cons, ih, List.map_cons,
          List.mem_cons]
        tauto
      · rw [hOrders] at hBefore hAfter
        have hSame : key x = key y :=
          le_antisymm (not_lt.mp hAfter) (not_lt.mp hBefore)
        rw [hSame, List.map_cons, List.mem_cons]
        tauto

/- An insert keeps the order. -/
theorem pairwise_insertOrdered
    (hOrders : OrdersBy less key)
    (x : α)
    {ys : List α}
    (hSorted : (ys.map key).Pairwise (· < ·)) :
    ((insertOrdered less x ys).map key).Pairwise (· < ·) := by
  induction ys with
  | nil => exact List.pairwise_singleton _ _
  | cons y ys ih =>
      rw [List.map_cons, List.pairwise_cons] at hSorted
      rw [insertOrdered]
      split_ifs with hBefore hAfter
      · rw [hOrders] at hBefore
        rw [List.map_cons, List.map_cons, List.pairwise_cons,
          List.pairwise_cons]
        refine ⟨fun k hk => ?_, hSorted⟩
        rcases List.mem_cons.mp hk with rfl | hk
        · exact hBefore
        · exact hBefore.trans (hSorted.1 k hk)
      · rw [hOrders] at hAfter
        rw [List.map_cons, List.pairwise_cons]
        refine ⟨fun k hk => ?_, ih hSorted.2⟩
        rcases (mem_keys_insertOrdered hOrders x ys k).mp hk with
          rfl | hk
        · exact hAfter
        · exact hSorted.1 k hk
      · exact List.pairwise_cons.mpr hSorted

/- One more element, cut to the limit. -/
theorem map_insertBounded
    (hOrders : OrdersBy less key)
    {limit : Nat}
    {kept : List α}
    {s : Finset κ}
    (hKept : kept.map key = (firstK limit s).sort)
    (x : α) :
    (insertBounded less limit kept x).map key =
      (firstK limit (insert (key x) s)).sort := by
  have hSorted : (kept.map key).Pairwise (· < ·) := by
    rw [hKept]
    exact (firstK limit s).sortedLT_sort.pairwise
  have hInserted :
      (insertOrdered less x kept).map key =
        (insert (key x) (firstK limit s)).sort :=
    eq_sort_of_pairwise (pairwise_insertOrdered hOrders x hSorted)
      fun k => by
        rw [mem_keys_insertOrdered hOrders, hKept,
          Finset.mem_sort, Finset.mem_insert]
  have hBetween :
      firstK limit (insert (key x) (firstK limit s)) =
        firstK limit (insert (key x) s) := by
    refine firstK_between (fun k hk => ?_)
      (Finset.insert_subset_insert _ (firstK_subset limit s))
    rcases mem_firstK.mp hk with ⟨hIn, hCard⟩
    rcases Finset.mem_insert.mp hIn with rfl | hIn
    · exact Finset.mem_insert_self _ _
    · refine
        Finset.mem_insert_of_mem (mem_firstK.mpr ⟨hIn, ?_⟩)
      exact
        (Finset.card_le_card
          (Finset.filter_subset_filter _
            (Finset.subset_insert _ s))).trans_lt hCard
  have hLength :
      (insertOrdered less x kept).length =
        (insert (key x) (firstK limit s)).card := by
    rw [← List.length_map (f := key), hInserted,
      Finset.length_sort]
  rw [insertBounded, ← hBetween]
  split_ifs with hOver
  · have hCard : (firstK limit s).card ≤ limit := by
      rw [card_firstK]
      exact Nat.min_le_left _ _
    have hExact :
        (insertOrdered less x kept).length = limit + 1 := by
      have hInsert := Finset.card_insert_le (key x) (firstK limit s)
      omega
    rw [List.dropLast_eq_take, hExact, Nat.add_sub_cancel,
      List.map_take, hInserted, take_sort]
  · rw [hLength] at hOver
    rw [firstK_eq_self (Nat.le_of_not_lt hOver)]
    exact hInserted

/-
  The kept rows are the first ones of all rows seen; the
  induction is on the rows.
-/
theorem map_foldl_insertBounded
    (hOrders : OrdersBy less key)
    {limit : Nat}
    (rows : List α)
    {kept : List α}
    {s : Finset κ}
    (hKept : kept.map key = (firstK limit s).sort) :
    (rows.foldl (insertBounded less limit) kept).map key =
      (firstK limit (s ∪ (rows.map key).toFinset)).sort := by
  induction rows generalizing kept s with
  | nil => simpa using hKept
  | cons x rows ih =>
      rw [List.foldl_cons,
        ih (map_insertBounded hOrders hKept x), List.map_cons,
        List.toFinset_cons, Finset.insert_union,
        Finset.union_insert]

/- The set holds the first of all that arrived. -/
theorem map_nextK
    (hOrders : OrdersBy less key)
    (limit : Nat)
    (rows : List α) :
    (nextK less limit rows).map key =
      (firstK limit (rows.map key).toFinset).sort := by
  have hEmpty :
      ([] : List α).map key = (firstK limit (∅ : Finset κ)).sort := by
    rw [firstK_eq_self (Nat.zero_le limit), Finset.sort_empty,
      List.map_nil]
  rw [nextK, map_foldl_insertBounded hOrders rows hEmpty,
    Finset.empty_union]

/- A kept row was there or came. -/
theorem mem_foldl_insertBounded
    {limit : Nat}
    (rows : List α)
    {kept : List α}
    {x : α}
    (hMember : x ∈ rows.foldl (insertBounded less limit) kept) :
    x ∈ kept ∨ x ∈ rows := by
  induction rows generalizing kept with
  | nil => exact Or.inl hMember
  | cons y rows ih =>
      rcases ih hMember with hKept | hRest
      · rw [insertBounded] at hKept
        have hInserted : x ∈ insertOrdered less y kept := by
          split_ifs at hKept
          · exact List.mem_of_mem_dropLast hKept
          · exact hKept
        rcases mem_insertOrdered hInserted with rfl | hOld
        · exact Or.inr List.mem_cons_self
        · exact Or.inl hOld
      · exact Or.inr (List.mem_cons_of_mem y hRest)

/- What is kept was a row. -/
theorem mem_of_mem_nextK
    {limit : Nat}
    {rows : List α}
    {x : α}
    (hMember : x ∈ nextK less limit rows) :
    x ∈ rows :=
  (mem_foldl_insertBounded rows hMember).resolve_left
    List.not_mem_nil

end NextK
