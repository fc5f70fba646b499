import Mathlib.Data.List.Basic
import Mathlib.Data.List.Nodup
import Mathlib.Data.List.Perm.Subperm
import Mathlib.Logic.Function.Basic

/-
  Layers of linked entries and the pruning of dead ones.

  Every entry of a layer names an entry of the layer below as
  its parent. Pruning a pair of layers drops the entries of the
  lower one that nobody names, and renumbers the parents of the
  upper one. Rows that carry their original index turn any
  sequence of prunings into one statement: a layer is what the
  surviving rows say.

  Main declarations:
    * `prunePair`
    * `Tracks`
    * `prunePair_layer`
    * `Tracks.eq_of_clean`
    * `Tracks.descend_row`
    * `Tracks.exists_descend`
-/

namespace Layers

----------------
-- Linked Entries
----------------

/- An entry is a parent index and a rest that relinking keeps. -/
class Linked (α : Type) where
  parent : α → Nat
  relink : α → Nat → α
  parent_relink : ∀ a n, parent (relink a n) = n
  relink_relink : ∀ a m n, relink (relink a m) n = relink a n
  relink_parent : ∀ a, relink a (parent a) = a

attribute [simp] Linked.parent_relink Linked.relink_relink
  Linked.relink_parent

open Linked

variable {α β : Type}

/- The items that are kept, in their order. -/
def compact (keep : Nat → Bool) (xs : List β) : List β :=
  (xs.zipIdx.filter fun p => keep p.2).map Prod.fst

/- How many before the index are kept. -/
def rankBelow (keep : Nat → Bool) (i : Nat) : Nat :=
  (List.range i).countP keep

/- Keep what is named, and name it by its new position. -/
def prunePair
    [Linked α]
    (previous current : List α) :
    List α × List α :=
  let keep i := decide (i ∈ current.map parent)
  (compact keep previous,
    current.map fun a => relink a (rankBelow keep (parent a)))

/-
  Keeping by index is a filter where the index says the
  property.
-/
theorem compact_zipIdx_eq_filter
    {keep : Nat → Bool}
    {q : β → Bool}
    (xs : List β)
    (start : Nat)
    (hKeep :
      ∀ i (hi : i < xs.length), keep (start + i) = q xs[i]) :
    ((xs.zipIdx start).filter fun p => keep p.2).map Prod.fst =
      xs.filter q := by
  induction xs generalizing start with
  | nil => rfl
  | cons x xs ih =>
      have hHead : keep start = q x :=
        hKeep 0 (Nat.zero_lt_succ _)
      have hTail := ih (start + 1) fun i hi => by
        rw [Nat.add_assoc, Nat.add_comm 1]
        exact hKeep (i + 1) (Nat.succ_lt_succ hi)
      rw [List.zipIdx_cons, List.filter_cons, List.filter_cons]
      dsimp only
      rw [hHead]
      cases q x with
      | true => simpa using hTail
      | false => simpa using hTail

/- The same from the front. -/
theorem compact_eq_filter
    {keep : Nat → Bool}
    {q : β → Bool}
    {xs : List β}
    (hKeep : ∀ i (hi : i < xs.length), keep i = q xs[i]) :
    compact keep xs = xs.filter q :=
  compact_zipIdx_eq_filter xs 0 fun i hi => by
    rw [Nat.zero_add]
    exact hKeep i hi

/- What is kept may be mapped. -/
theorem compact_map
    {γ : Type}
    (keep : Nat → Bool)
    (f : β → γ)
    (xs : List β) :
    compact keep (xs.map f) = (compact keep xs).map f := by
  rw [compact, compact, List.zipIdx_map, List.filter_map,
    List.map_map, List.map_map]
  rfl

/- The count below one place more. -/
theorem rankBelow_succ
    (keep : Nat → Bool)
    (i : Nat) :
    rankBelow keep (i + 1) =
      rankBelow (fun j => keep (j + 1)) i +
        if keep 0 then 1 else 0 := by
  rw [rankBelow, List.range_succ_eq_map, List.countP_cons,
    List.countP_map]
  rfl

/- The rank of a kept element is its position among the kept. -/
theorem rankBelow_idxOf
    [DecidableEq β]
    {keep : Nat → Bool}
    {q : β → Bool}
    {x : β}
    (xs : List β)
    (hKeep : ∀ i (hi : i < xs.length), keep i = q xs[i])
    (hMem : x ∈ xs)
    (hq : q x = true) :
    rankBelow keep (xs.idxOf x) = (xs.filter q).idxOf x := by
  induction xs generalizing keep with
  | nil => cases hMem
  | cons y xs ih =>
      by_cases hEq : y = x
      · subst hEq
        rw [List.filter_cons, if_pos hq, List.idxOf_cons_self,
          List.idxOf_cons_self]
        rfl
      · have hIn : x ∈ xs :=
          (List.mem_cons.mp hMem).resolve_left
            fun hSame => hEq hSame.symm
        have hHead : keep 0 = q y :=
          hKeep 0 (Nat.zero_lt_succ _)
        have hTail := ih
          (fun i hi => hKeep (i + 1) (Nat.succ_lt_succ hi)) hIn
        rw [List.idxOf_cons_ne _ hEq, rankBelow_succ, hTail,
          hHead, List.filter_cons]
        cases q y with
        | true =>
            rw [if_pos rfl, if_pos rfl, List.idxOf_cons_ne _ hEq]
        | false => rfl

----------------
-- Rows
----------------

/- Entries of a batch with their indices there. -/
abbrev Rows (α : Type) : Type :=
  List (α × Nat)

/- The original indices of the rows. -/
def indices (rows : Rows α) : List Nat :=
  rows.map Prod.snd

/- Where an original index of the layer below is now. -/
def slot (below : Option (Rows α)) (i : Nat) : Nat :=
  match below with
  | none => i
  | some rows => (indices rows).idxOf i

variable [Linked α]

/- The original parents of the rows. -/
def parentsOf (rows : Rows α) : List Nat :=
  rows.map fun p => parent p.1

/-
  The items of a layer, with their parents counted in the
  layer below.
-/
def layer
    (below : Option (Rows α))
    (own : Rows α) : List α :=
  own.map fun p => relink p.1 (slot below (parent p.1))

/-
  A layer may be cut before or after its parents are counted.
-/
theorem compact_layer
    (keep : Nat → Bool)
    (base : Option (Rows α))
    (rows : Rows α) :
    compact keep (layer base rows) =
      layer base (compact keep rows) :=
  compact_map keep _ rows

/- The rows below that are some row's parent. -/
def used (own below : Rows α) : Rows α :=
  below.filter fun p => decide (p.2 ∈ parentsOf own)

/- A whole batch has all indices. -/
@[simp] theorem indices_zipIdx (batch : List β) :
    indices batch.zipIdx = List.range batch.length := by
  rw [indices, List.zipIdx_map_snd, List.range_eq_range']

/- The indices of what is used. -/
theorem indices_used (own below : Rows α) :
    indices (used own below) =
      (indices below).filter
        fun i => decide (i ∈ parentsOf own) := by
  rw [indices, indices, used, List.filter_map]
  rfl

/- In a whole batch an index is its own place. -/
theorem slot_range
    (batch : List α)
    {i : Nat}
    (hi : i < batch.length) :
    slot (some batch.zipIdx) i = i := by
  have hIdx :=
    List.nodup_range (n := batch.length).idxOf_getElem i
      (by simpa using hi)
  rw [slot, indices_zipIdx]
  simpa using hIdx

/- What is named in a layer is where the named row stands. -/
theorem mem_map_parent_layer
    {own below : Rows α}
    (hNodup : (indices below).Nodup)
    (hLinked : ∀ p ∈ own, parent p.1 ∈ indices below)
    {i : Nat}
    (hi : i < (indices below).length) :
    i ∈ (layer (some below) own).map parent ↔
      (indices below)[i] ∈ parentsOf own := by
  simp only [layer, parentsOf, List.map_map, List.mem_map,
    Function.comp, parent_relink, slot]
  constructor
  · rintro ⟨p, hp, hEq⟩
    refine ⟨p, hp, ?_⟩
    subst hEq
    exact (List.getElem_idxOf hi).symm
  · rintro ⟨p, hp, hEq⟩
    refine ⟨p, hp, ?_⟩
    rw [hEq]
    exact hNodup.idxOf_getElem i hi

/- One prune of two layers, on the rows. -/
theorem prunePair_layer
    {own below : Rows α}
    (base : Option (Rows α))
    (hNodup : (indices below).Nodup)
    (hLinked : ∀ p ∈ own, parent p.1 ∈ indices below) :
    prunePair (layer base below) (layer (some below) own) =
      (layer base (used own below),
        layer (some (used own below)) own) := by
  have hKeep :
      ∀ i (hi : i < (indices below).length),
        decide
            (i ∈ (layer (some below) own).map parent) =
          decide ((indices below)[i] ∈ parentsOf own) :=
    fun i hi =>
      decide_eq_decide.mpr
        (mem_map_parent_layer hNodup hLinked hi)
  rw [prunePair]
  refine Prod.ext ?_ ?_
  · dsimp only
    rw [compact_layer]
    refine congrArg _ (compact_eq_filter ?_)
    intro i hi
    have hAt := hKeep i (by simpa [indices] using hi)
    rw [hAt]
    simp [indices]
  · dsimp only
    rw [layer, layer, List.map_map]
    apply List.map_congr_left
    intro p hp
    have hUsed : parent p.1 ∈ parentsOf own :=
      List.mem_map_of_mem hp
    have hRank :=
      rankBelow_idxOf (indices below)
        (q := fun i => decide (i ∈ parentsOf own)) hKeep
        (hLinked p hp) (decide_eq_true hUsed)
    rw [Function.comp_apply, relink_relink, parent_relink,
      slot, slot, indices_used]
    exact congrArg (relink p.1) hRank

----------------
-- Layers Of All Depths
----------------

/- The rows a layer's parents point into. -/
def belowOf
    (rows : Nat → Option (Rows α)) :
    Nat → Option (Rows α)
  | 0 => none
  | d + 1 => rows d

/- The layers that can be read. -/
def view
    (rows : Nat → Option (Rows α))
    (d : Nat) : Option (List α) :=
  (rows d).map (layer (belowOf rows d))

/- Parents are indices of the batch below, where it exists. -/
def ValidParents (batches : Nat → Option (List α)) : Prop :=
  ∀ d previous current,
    batches d = some previous →
    batches (d + 1) = some current →
    ∀ a ∈ current, parent a < previous.length

/-
  Rows of every batch: in batch order, closed under parents,
  and complete where no layer stands above.
-/
structure Tracks
    (batches : Nat → Option (List α))
    (rows : Nat → Option (Rows α)) : Prop where
  present : ∀ d, rows d = none ↔ batches d = none
  sublist :
    ∀ d own batch,
      rows d = some own →
      batches d = some batch →
      own.Sublist batch.zipIdx
  linked :
    ∀ d below own,
      rows d = some below →
      rows (d + 1) = some own →
      ∀ p ∈ own, parent p.1 ∈ indices below
  top :
    ∀ d own batch,
      rows d = some own →
      batches d = some batch →
      batches (d + 1) = none →
      own = batch.zipIdx

variable {batches : Nat → Option (List α)}
variable {rows : Nat → Option (Rows α)}

/- Without layers there is nothing to track. -/
theorem tracks_empty :
    Tracks (fun _ => none) (fun _ => (none : Option (Rows α))) where
  present _ := iff_of_true rfl rfl
  sublist _ _ _ hRows := nomatch hRows
  linked _ _ _ hRows := nomatch hRows
  top _ _ _ hRows := nomatch hRows

/- A layer that is there was a batch. -/
theorem Tracks.batch_of_rows
    (hTracks : Tracks batches rows)
    {d : Nat}
    {own : Rows α}
    (hRows : rows d = some own) :
    ∃ batch, batches d = some batch := by
  cases hBatch : batches d with
  | none =>
      rw [(hTracks.present d).mpr hBatch] at hRows
      cases hRows
  | some batch => exact ⟨batch, rfl⟩

/- A layer has no row twice. -/
theorem Tracks.nodup
    (hTracks : Tracks batches rows)
    {d : Nat}
    {own : Rows α}
    (hRows : rows d = some own) :
    (indices own).Nodup := by
  rcases hTracks.batch_of_rows hRows with ⟨batch, hBatch⟩
  have hSub := (hTracks.sublist d own batch hRows hBatch).map
    Prod.snd
  have hRange : (indices batch.zipIdx).Nodup := by
    rw [indices_zipIdx]
    exact List.nodup_range
  exact hRange.sublist hSub

/- A layer without one above shows its batch. -/
theorem Tracks.zipIdx_of_rows
    (hTracks : Tracks batches rows)
    {d : Nat}
    {own : Rows α}
    (hRows : rows d = some own)
    (hNone : batches (d + 1) = none) :
    ∃ batch, batches d = some batch ∧ own = batch.zipIdx := by
  rcases hTracks.batch_of_rows hRows with ⟨batch, hBatch⟩
  exact
    ⟨batch, hBatch, hTracks.top d own batch hRows hBatch hNone⟩

/- A row of a layer is a row of its batch. -/
theorem mem_batch_of_mem_rows
    (hTracks : Tracks batches rows)
    {d : Nat}
    {own : Rows α}
    {batch : List α}
    (hRows : rows d = some own)
    (hBatch : batches d = some batch)
    {p : α × Nat}
    (hp : p ∈ own) :
    batch[p.2]? = some p.1 := by
  have hMem :=
    (hTracks.sublist d own batch hRows hBatch).mem hp
  exact List.mem_zipIdx_iff_getElem?.mp hMem

/- A layer reads the places of its own parents only. -/
theorem layer_congr
    {below below' : Option (Rows α)}
    {own : Rows α}
    (hSlot :
      ∀ p ∈ own, slot below (parent p.1) =
        slot below' (parent p.1)) :
    layer below own = layer below' own :=
  List.map_congr_left fun p hp =>
    congrArg (relink p.1) (hSlot p hp)

/- A whole batch whose parents stay is itself. -/
theorem layer_zipIdx
    (below : Option (Rows α))
    (batch : List α)
    (hSlot : ∀ a ∈ batch, slot below (parent a) = parent a) :
    layer below batch.zipIdx = batch := by
  have hSame : layer below batch.zipIdx =
      layer none batch.zipIdx :=
    layer_congr fun p hp =>
      hSlot p.1 (List.fst_mem_of_mem_zipIdx hp)
  rw [hSame, layer]
  simp only [slot, relink_parent]
  exact List.zipIdx_map_fst 0 batch

----------------
-- Whole Batches
----------------

/- Nothing pruned yet. -/
def wholeRows
    (batches : Nat → Option (List α))
    (d : Nat) : Option (Rows α) :=
  (batches d).map List.zipIdx

/- The rows of a batch that was not pruned. -/
omit [Linked α] in
theorem wholeRows_eq_some
    {d : Nat}
    {own : Rows α}
    (hRows : wholeRows batches d = some own) :
    ∃ batch, batches d = some batch ∧ own = batch.zipIdx := by
  rcases Option.map_eq_some_iff.mp hRows with
    ⟨batch, hBatch, hEq⟩
  exact ⟨batch, hBatch, hEq.symm⟩

/- Batches that were not pruned track themselves. -/
theorem tracks_wholeRows
    (hValid : ValidParents batches) :
    Tracks batches (wholeRows batches) where
  present _ := Option.map_eq_none_iff
  sublist d own batch hRows hBatch := by
    rcases wholeRows_eq_some hRows with ⟨other, hOther, rfl⟩
    rw [hBatch] at hOther
    cases hOther
    exact List.Sublist.refl _
  linked d below own hBelow hOwn p hp := by
    rcases wholeRows_eq_some hBelow with ⟨lower, hLower, rfl⟩
    rcases wholeRows_eq_some hOwn with ⟨upper, hUpper, rfl⟩
    rw [indices_zipIdx]
    exact
      List.mem_range.mpr
        (hValid d lower upper hLower hUpper p.1
          (List.fst_mem_of_mem_zipIdx hp))
  top d own batch hRows hBatch _ := by
    rcases wholeRows_eq_some hRows with ⟨other, hOther, rfl⟩
    rw [hBatch] at hOther
    cases hOther
    rfl

/- And they can be read as they are. -/
theorem view_wholeRows
    (hValid : ValidParents batches) :
    view (wholeRows batches) = batches := by
  funext d
  rw [view, wholeRows]
  cases hBatch : batches d with
  | none => rfl
  | some batch =>
      rw [Option.map_some, Option.map_some]
      refine congrArg some (layer_zipIdx _ _ fun a ha => ?_)
      cases d with
      | zero => rfl
      | succ d =>
          change slot (wholeRows batches d) _ = _
          rw [wholeRows]
          cases hLower : batches d with
          | none => rfl
          | some lower =>
              exact
                slot_range lower
                  (hValid d lower batch hLower hBatch a ha)

----------------
-- A New Layer
----------------

/- A new layer is tracked. -/
theorem Tracks.insert
    (hTracks : Tracks batches rows)
    {d : Nat}
    {batch : List α}
    (hNew : batches d = none)
    (hValid :
      ValidParents (Function.update batches d (some batch))) :
    Tracks (Function.update batches d (some batch))
      (Function.update rows d (some batch.zipIdx)) where
  present e := by
    by_cases hEq : e = d
    · subst hEq
      simp
    · rw [Function.update_of_ne hEq, Function.update_of_ne hEq]
      exact hTracks.present e
  sublist e own other hRows hBatch := by
    by_cases hEq : e = d
    · subst hEq
      rw [Function.update_self] at hRows hBatch
      cases hRows
      cases hBatch
      exact List.Sublist.refl _
    · rw [Function.update_of_ne hEq] at hRows hBatch
      exact hTracks.sublist e own other hRows hBatch
  linked e below own hBelow hOwn p hp := by
    by_cases hEq : e = d
    · subst hEq
      rw [Function.update_self] at hBelow
      rw [Function.update_of_ne (Nat.succ_ne_self e)] at hOwn
      cases hBelow
      rcases hTracks.batch_of_rows hOwn with ⟨upper, hUpper⟩
      have hIn :=
        List.mem_of_getElem?
          (mem_batch_of_mem_rows hTracks hOwn hUpper hp)
      have hLt :=
        hValid e batch upper (Function.update_self ..)
          (by rwa [Function.update_of_ne (Nat.succ_ne_self e)])
          p.1 hIn
      rw [indices_zipIdx]
      exact List.mem_range.mpr hLt
    · rw [Function.update_of_ne hEq] at hBelow
      by_cases hNext : e + 1 = d
      · subst hNext
        rw [Function.update_self] at hOwn
        cases hOwn
        rcases hTracks.zipIdx_of_rows hBelow hNew with
          ⟨lower, hLower, rfl⟩
        have hLt :=
          hValid e lower batch
            (by rwa [Function.update_of_ne hEq])
            (Function.update_self ..) p.1
            (List.fst_mem_of_mem_zipIdx hp)
        rw [indices_zipIdx]
        exact List.mem_range.mpr hLt
      · rw [Function.update_of_ne hNext] at hOwn
        exact hTracks.linked e below own hBelow hOwn p hp
  top e own other hRows hBatch hNone := by
    by_cases hEq : e = d
    · subst hEq
      rw [Function.update_self] at hRows hBatch
      cases hRows
      cases hBatch
      rfl
    · rw [Function.update_of_ne hEq] at hRows hBatch
      by_cases hNext : e + 1 = d
      · subst hNext
        rw [Function.update_self] at hNone
        cases hNone
      · rw [Function.update_of_ne hNext] at hNone
        exact hTracks.top e own other hRows hBatch hNone

/- Nothing but the new layer changes to the eye. -/
theorem Tracks.view_insert
    (hTracks : Tracks batches rows)
    {d : Nat}
    {batch : List α}
    (hNew : batches d = none)
    (hValid :
      ValidParents (Function.update batches d (some batch))) :
    view (Function.update rows d (some batch.zipIdx)) =
      Function.update (view rows) d (some batch) := by
  have hRowsNone := (hTracks.present d).mpr hNew
  funext e
  by_cases hEq : e = d
  · subst hEq
    rw [Function.update_self, view, Function.update_self,
      Option.map_some]
    refine congrArg some (layer_zipIdx _ _ fun a ha => ?_)
    cases e with
    | zero => rfl
    | succ e =>
        have hNe : e ≠ e + 1 := (Nat.succ_ne_self e).symm
        change slot (Function.update rows (e + 1) _ e) _ = _
        rw [Function.update_of_ne hNe]
        cases hLower : rows e with
        | none => rfl
        | some below =>
            rcases hTracks.zipIdx_of_rows hLower hNew with
              ⟨lower, hLowerBatch, rfl⟩
            exact slot_range lower
              (hValid e lower batch
                (by rwa [Function.update_of_ne hNe])
                (Function.update_self ..) a ha)
  · rw [Function.update_of_ne hEq, view, view,
      Function.update_of_ne hEq]
    cases hOwn : rows e with
    | none => rfl
    | some own =>
        rw [Option.map_some, Option.map_some]
        refine congrArg some (layer_congr fun p hp => ?_)
        cases e with
        | zero => rfl
        | succ e =>
            change slot (Function.update rows d _ e) _ =
              slot (rows e) _
            by_cases hBelow : e = d
            · subst hBelow
              rcases hTracks.batch_of_rows hOwn with
                ⟨upper, hUpper⟩
              rw [Function.update_self, hRowsNone]
              exact slot_range batch
                (hValid e batch upper (Function.update_self ..)
                  (by rwa [Function.update_of_ne hEq]) p.1
                  (List.mem_of_getElem?
                    (mem_batch_of_mem_rows hTracks hOwn hUpper
                      hp)))
            · rw [Function.update_of_ne hBelow]

----------------
-- A Pruned Pair
----------------

/- Every row of a layer is the parent of a row above. -/
def Clean (rows : Nat → Option (Rows α)) (d : Nat) : Prop :=
  ∀ below own,
    rows d = some below →
    rows (d + 1) = some own →
    ∀ p ∈ below, p.2 ∈ parentsOf own

/- One layer is cut to what the next one uses. -/
def prunedRows
    (rows : Nat → Option (Rows α))
    (d : Nat)
    (own below : Rows α) :
    Nat → Option (Rows α) :=
  Function.update rows d (some (used own below))

/-
  A pruned layer is tracked; the cases are the pruned depth,
  the one above and the others.
-/
theorem Tracks.prune
    (hTracks : Tracks batches rows)
    {d : Nat}
    {own below : Rows α}
    (hBelow : rows d = some below)
    (hOwn : rows (d + 1) = some own) :
    Tracks batches (prunedRows rows d own below) where
  present e := by
    rw [prunedRows, ← hTracks.present e]
    by_cases hEq : e = d
    · subst hEq
      simp [hBelow]
    · rw [Function.update_of_ne hEq]
  sublist e rows' batch hRows hBatch := by
    rw [prunedRows] at hRows
    by_cases hEq : e = d
    · subst hEq
      rw [Function.update_self] at hRows
      cases hRows
      exact List.filter_sublist.trans
        (hTracks.sublist e below batch hBelow hBatch)
    · rw [Function.update_of_ne hEq] at hRows
      exact hTracks.sublist e rows' batch hRows hBatch
  linked e lower upper hLower hUpper p hp := by
    rw [prunedRows] at hLower hUpper
    by_cases hEq : e = d
    · subst hEq
      rw [Function.update_self] at hLower
      rw [Function.update_of_ne (Nat.succ_ne_self e), hOwn]
        at hUpper
      cases hLower
      cases hUpper
      rw [indices_used, List.mem_filter, decide_eq_true_iff]
      exact
        ⟨hTracks.linked e below own hBelow hOwn p hp,
          List.mem_map_of_mem hp⟩
    · rw [Function.update_of_ne hEq] at hLower
      by_cases hNext : e + 1 = d
      · subst hNext
        rw [Function.update_self] at hUpper
        cases hUpper
        exact hTracks.linked e lower below hLower hBelow p
          (List.mem_of_mem_filter hp)
      · rw [Function.update_of_ne hNext] at hUpper
        exact hTracks.linked e lower upper hLower hUpper p hp
  top e rows' batch hRows hBatch hNone := by
    rw [prunedRows] at hRows
    by_cases hEq : e = d
    · subst hEq
      rw [(hTracks.present (e + 1)).mpr hNone] at hOwn
      cases hOwn
    · rw [Function.update_of_ne hEq] at hRows
      exact hTracks.top e rows' batch hRows hBatch hNone

/- The two layers change as the code changes them, no other. -/
theorem Tracks.view_prune
    (hTracks : Tracks batches rows)
    {d : Nat}
    {own below : Rows α}
    {previous current : List α}
    (hBelow : rows d = some below)
    (hOwn : rows (d + 1) = some own)
    (hPrevious : view rows d = some previous)
    (hCurrent : view rows (d + 1) = some current) :
    view (prunedRows rows d own below) =
      Function.update
        (Function.update (view rows) d
          (some (prunePair previous current).1))
        (d + 1) (some (prunePair previous current).2) := by
  rw [view, hBelow, Option.map_some] at hPrevious
  rw [view, hOwn, Option.map_some] at hCurrent
  cases hPrevious
  cases hCurrent
  have hPair :=
    prunePair_layer (belowOf rows d) (hTracks.nodup hBelow)
      (hTracks.linked d below own hBelow hOwn)
  have hBase : belowOf rows (d + 1) = some below := hBelow
  rw [hBase, hPair]
  funext e
  by_cases hUpper : e = d + 1
  · subst hUpper
    rw [Function.update_self, view, prunedRows,
      Function.update_of_ne (Nat.succ_ne_self d), hOwn]
    change some (layer (Function.update rows d _ d) own) = _
    rw [Function.update_self]
  rw [Function.update_of_ne hUpper]
  by_cases hLower : e = d
  · subst hLower
    rw [Function.update_self, view, prunedRows,
      Function.update_self, Option.map_some]
    cases e with
    | zero => rfl
    | succ e =>
        change some (layer (Function.update rows _ _ e) _) = _
        rw [Function.update_of_ne (Nat.succ_ne_self e).symm]
        rfl
  · rw [Function.update_of_ne hLower, view, view, prunedRows,
      Function.update_of_ne hLower]
    cases e with
    | zero => rfl
    | succ e =>
        have hNe : e ≠ d := fun hEq => hUpper (hEq ▸ rfl)
        change
          (rows (e + 1)).map
              (layer (Function.update rows d _ e)) =
            (rows (e + 1)).map (layer (rows e))
        rw [Function.update_of_ne hNe]

/- After a prune the layer is clean. -/
theorem clean_prunedRows
    {d : Nat}
    {own below : Rows α}
    (hOwn : rows (d + 1) = some own) :
    Clean (prunedRows rows d own below) d := by
  intro lower upper hLower hUpper p hp
  rw [prunedRows, Function.update_self] at hLower
  rw [prunedRows, Function.update_of_ne (Nat.succ_ne_self d),
    hOwn] at hUpper
  cases hLower
  cases hUpper
  exact of_decide_eq_true (List.mem_filter.mp hp).2

/- A prune further up leaves it clean. -/
theorem Clean.prune_other
    {d e : Nat}
    {own below : Rows α}
    (hClean : Clean rows e)
    (hBelow : rows d = some below)
    (hNe : e + 1 ≠ d) :
    e ≠ d → Clean (prunedRows rows d own below) e := by
  intro hDiff lower upper hLower hUpper
  rw [prunedRows, Function.update_of_ne hDiff] at hLower
  rw [prunedRows, Function.update_of_ne hNe] at hUpper
  exact hClean lower upper hLower hUpper

/- A clean layer is the part of its batch the layer above names. -/
theorem Tracks.eq_filter_of_clean
    (hTracks : Tracks batches rows)
    {d : Nat}
    {own below : Rows α}
    {batch : List α}
    (hClean : Clean rows d)
    (hBelow : rows d = some below)
    (hOwn : rows (d + 1) = some own)
    (hBatch : batches d = some batch) :
    below =
      batch.zipIdx.filter
        fun p => decide (p.2 ∈ parentsOf own) := by
  have hSub := hTracks.sublist d below batch hBelow hBatch
  have hAll :
      below.filter (fun p => decide (p.2 ∈ parentsOf own)) =
        below :=
    List.filter_eq_self.mpr fun p hp =>
      decide_eq_true (hClean below own hBelow hOwn p hp)
  have hFiltered :=
    hSub.filter fun p => decide (p.2 ∈ parentsOf own)
  rw [hAll] at hFiltered
  have hNodup : (indices batch.zipIdx).Nodup := by
    rw [indices_zipIdx]
    exact List.nodup_range
  apply hFiltered.eq_of_length_le
  -- A named index is a parent, so its row survived.
  have hSubset :
      batch.zipIdx.filter
          (fun p => decide (p.2 ∈ parentsOf own)) ⊆
        below := by
    intro p hp
    rcases List.mem_filter.mp hp with ⟨hIn, hNamed⟩
    rcases List.mem_map.mp (of_decide_eq_true hNamed) with
      ⟨q, hq, hParent⟩
    have hLinked :=
      hTracks.linked d below own hBelow hOwn q hq
    rw [hParent] at hLinked
    rcases List.mem_map.mp hLinked with ⟨r, hr, hIdx⟩
    have hEq : r = p :=
      List.inj_on_of_nodup_map hNodup (hSub.mem hr) hIn hIdx
    exact hEq ▸ hr
  exact
    (List.subperm_of_subset
      ((List.Nodup.of_map Prod.snd hNodup).filter _)
      hSubset).length_le

/- Clean rows are determined by the batches alone. -/
theorem Tracks.eq_of_clean
    {rows' : Nat → Option (Rows α)}
    {bound : Nat}
    (hTracks : Tracks batches rows)
    (hTracks' : Tracks batches rows')
    (hClean : ∀ d, Clean rows d)
    (hClean' : ∀ d, Clean rows' d)
    (hBound : ∀ d, bound ≤ d → batches d = none) :
    rows = rows' := by
  -- From the top down: the layer above fixes what survives.
  have hAll : ∀ k d, bound ≤ d + k → rows d = rows' d := by
    intro k
    induction k with
    | zero =>
        intro d hd
        have hNone := hBound d hd
        rw [(hTracks.present d).mpr hNone,
          (hTracks'.present d).mpr hNone]
    | succ k ih =>
        intro d hd
        have hAbove := ih (d + 1) (by omega)
        cases hRows : rows d with
        | none =>
            have hNone := (hTracks.present d).mp hRows
            exact ((hTracks'.present d).mpr hNone).symm
        | some own =>
            rcases hTracks.batch_of_rows hRows with
              ⟨batch, hBatch⟩
            cases hRows' : rows' d with
            | none =>
                rw [(hTracks'.present d).mp hRows'] at hBatch
                cases hBatch
            | some own' =>
                cases hUpper : rows (d + 1) with
                | none =>
                    have hNone :=
                      (hTracks.present (d + 1)).mp hUpper
                    rw [hTracks.top d own batch hRows hBatch
                        hNone,
                      hTracks'.top d own' batch hRows' hBatch
                        hNone]
                | some upper =>
                    rw [hTracks.eq_filter_of_clean (hClean d)
                        hRows hUpper hBatch,
                      hTracks'.eq_filter_of_clean (hClean' d)
                        hRows' (hAbove ▸ hUpper) hBatch]
  exact funext fun d => hAll bound d (by omega)

----------------
-- Paths
----------------

/- The index reached `steps` layers further down, at `lo`. -/
def descend
    (entry : Nat → Nat → Option α)
    (lo : Nat) :
    Nat → Nat → Option Nat
  | 0, i => some i
  | steps + 1, i =>
      (entry (lo + steps + 1) i).bind
        fun a => descend entry lo steps (parent a)

/- The item at a depth and index. -/
def entryOf
    (layers : Nat → Option (List α))
    (d i : Nat) : Option α :=
  (layers d).bind fun xs => xs[i]?

/- One step down. -/
theorem descend_succ
    (entry : Nat → Nat → Option α)
    (lo steps i : Nat) :
    descend entry lo (steps + 1) i =
      (descend entry (lo + 1) steps i).bind
        fun j => (entry (lo + 1) j).map parent := by
  induction steps generalizing i with
  | zero =>
      rw [descend]
      change (entry (lo + 1) i).bind (fun a => some (parent a)) =
        (entry (lo + 1) i).map parent
      exact Option.map_eq_bind.symm
  | succ steps ih =>
      have hDepth : lo + (steps + 1) + 1 = lo + 1 + steps + 1 := by
        omega
      rw [descend, hDepth]
      rw [descend, Option.bind_assoc]
      exact congrArg _ (funext fun a => ih (parent a))

/- The entry of a row, as it is read. -/
theorem entryOf_view
    {d j : Nat}
    {own : Rows α}
    {p : α × Nat}
    (hRows : rows d = some own)
    (hAt : own[j]? = some p) :
    entryOf (view rows) d j =
      some (relink p.1 (slot (belowOf rows d) (parent p.1))) := by
  rw [entryOf, view, hRows, Option.map_some, Option.bind_some,
    layer, List.getElem?_map, hAt, Option.map_some]

/- The entry of a row, as it was written. -/
theorem Tracks.entryOf_batches
    (hTracks : Tracks batches rows)
    {d j : Nat}
    {own : Rows α}
    {p : α × Nat}
    (hRows : rows d = some own)
    (hAt : own[j]? = some p) :
    entryOf batches d p.2 = some p.1 := by
  rcases hTracks.batch_of_rows hRows with ⟨batch, hBatch⟩
  rw [entryOf, hBatch, Option.bind_some]
  exact mem_batch_of_mem_rows hTracks hRows hBatch
    (List.mem_of_getElem? hAt)

/- The parent of a row stands where the view points. -/
theorem Tracks.parent_row
    (hTracks : Tracks batches rows)
    {d : Nat}
    {own below : Rows α}
    {p : α × Nat}
    (hBelow : rows d = some below)
    (hOwn : rows (d + 1) = some own)
    (hp : p ∈ own) :
    ∃ q, below[slot (rows d) (parent p.1)]? = some q ∧
      q.2 = parent p.1 := by
  have hLinked := hTracks.linked d below own hBelow hOwn p hp
  have hLt := List.idxOf_lt_length_of_mem hLinked
  have hAt := List.getElem_idxOf hLt
  rw [hBelow, slot]
  have hRow : (indices below).idxOf (parent p.1) < below.length := by
    simpa [indices] using hLt
  exact
    ⟨_, List.getElem?_eq_getElem hRow,
      (List.getElem_map Prod.snd).symm.trans hAt⟩

/- A path in the view and its path in the batches keep step. -/
theorem Tracks.descend_row
    (hTracks : Tracks batches rows)
    (lo : Nat) :
    ∀ (steps j : Nat) (own : Rows α) (p : α × Nat),
      (∀ d, lo ≤ d → d ≤ lo + steps → rows d ≠ none) →
      rows (lo + steps) = some own →
      own[j]? = some p →
      ∃ k below q,
        rows lo = some below ∧
        below[k]? = some q ∧
        descend (entryOf (view rows)) lo steps j = some k ∧
        descend (entryOf batches) lo steps p.2 = some q.2 := by
  intro steps
  induction steps with
  | zero =>
      intro j own p _ hRows hAt
      exact ⟨j, own, p, hRows, hAt, rfl, rfl⟩
  | succ steps ih =>
      intro j own p hPresent hRows hAt
      rcases Option.ne_none_iff_exists'.mp
          (hPresent (lo + steps) (by omega) (by omega)) with
        ⟨below, hBelow⟩
      rcases hTracks.parent_row hBelow hRows
          (List.mem_of_getElem? hAt) with
        ⟨q, hq, hParent⟩
      rcases ih _ below q
          (fun d hLow hHigh => hPresent d hLow (by omega))
          hBelow hq with
        ⟨k, lower, r, hLower, hr, hView, hBatch⟩
      refine ⟨k, lower, r, hLower, hr, ?_, ?_⟩
      · rw [descend, Nat.add_assoc, entryOf_view hRows hAt,
          Option.bind_some, parent_relink]
        exact hView
      · rw [descend, Nat.add_assoc,
          hTracks.entryOf_batches hRows hAt, Option.bind_some,
          ← hParent]
        exact hBatch

/- Below clean layers every row is on the path of a top row. -/
theorem Tracks.exists_descend
    (hTracks : Tracks batches rows) :
    ∀ (steps lo k : Nat) (below : Rows α),
      (∀ d, lo ≤ d → d ≤ lo + steps → rows d ≠ none) →
      (∀ d, lo ≤ d → d < lo + steps → Clean rows d) →
      rows lo = some below →
      k < below.length →
      ∃ i own,
        rows (lo + steps) = some own ∧
        i < own.length ∧
        descend (entryOf (view rows)) lo steps i = some k := by
  intro steps
  induction steps with
  | zero =>
      intro lo k below _ _ hRows hk
      exact ⟨k, below, hRows, hk, rfl⟩
  | succ steps ih =>
      intro lo k below hPresent hClean hRows hk
      rcases Option.ne_none_iff_exists'.mp
          (hPresent (lo + 1) (by omega) (by omega)) with
        ⟨upper, hUpper⟩
      have hNamed :=
        hClean lo (Nat.le_refl lo) (by omega) below upper hRows
          hUpper below[k] (List.getElem_mem hk)
      rcases List.mem_map.mp hNamed with ⟨p, hp, hParent⟩
      rcases List.getElem_of_mem hp with ⟨j, hj, hAt⟩
      have hDepth : lo + 1 + steps = lo + (steps + 1) := by omega
      rcases ih (lo + 1) j upper
          (fun d hLow hHigh =>
            hPresent d (by omega) (by omega))
          (fun d hLow hHigh => hClean d (by omega) (by omega))
          hUpper hj with
        ⟨i, own, hOwn, hi, hDescend⟩
      refine ⟨i, own, hDepth ▸ hOwn, hi, ?_⟩
      have hAt? : upper[j]? = some p := by
        rw [List.getElem?_eq_getElem hj, hAt]
      have hSlot : slot (some below) (parent p.1) = k := by
        have hIdx := (hTracks.nodup hRows).idxOf_getElem k
          (by simpa [indices] using hk)
        rw [slot, hParent]
        simpa [indices] using hIdx
      rw [descend_succ, hDescend, Option.bind_some,
        entryOf_view hUpper hAt?, Option.map_some,
        parent_relink]
      change some (slot (rows lo) _) = some k
      rw [hRows, hSlot]

end Layers
