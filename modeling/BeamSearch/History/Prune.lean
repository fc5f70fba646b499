import BeamSearch.History.Store
import BeamSearch.Lib.Layers

/-
  Pruning in the memory mode keeps every path.

  After each write the store prunes all pairs of neighbours from
  the deepest down. The rows that survive account for all of
  them: the layers are the view of the rows, and after a pass
  every row is the parent of a row above.

  Main declarations:
    * `pruneLayers_eq`
    * `Pruned`
    * `write_pruned`
    * `prune_preserves_paths`
-/

namespace BeamSearch

open Hoare Layers

namespace History

variable {previous : List Entry} {store : HistoryStore} {depth : Nat}
    {batches : Nat → Option (List Entry)} {rows : Nat → Option (Rows Entry)}
    {calls : List WriteCall}

----------------
-- One Pair
----------------

/- An entry links to its parent by an index. -/
instance : Linked Entry where
  parent e := e.parentIdx
  relink e n := { e with parentIdx := n }
  parent_relink _ _ := rfl
  relink_relink _ _ _ := rfl
  relink_parent _ := rfl

/- The parent of an entry. -/
theorem parent_entry (e : Entry) :
    Linked.parent e = e.parentIdx :=
  rfl

/- The marks after the parents of `items` were seen. -/
theorem markParents_eq
    {ε : Type}
    (outOfRange : ε)
    (items : List Entry)
    (remap : List (Option Nat))
    (hParents :
      ∀ item ∈ items, item.parentIdx < remap.length) :
    ∃ marked,
      markParents outOfRange items remap = .ok marked ∧
      marked.length = remap.length ∧
      ∀ i < remap.length,
        marked[i]? =
          if i ∈ items.map Linked.parent then some (some 0)
          else remap[i]? := by
  induction items generalizing remap with
  | nil =>
      exact ⟨remap, rfl, rfl, fun i _ => by simp⟩
  | cons item items ih =>
      have hHead := hParents item List.mem_cons_self
      rcases ih (remap.set item.parentIdx (some 0))
          (fun other hOther => by
            rw [List.length_set]
            exact hParents other
              (List.mem_cons_of_mem _ hOther)) with
        ⟨marked, hRun, hLength, hMarked⟩
      rw [List.length_set] at hLength hMarked
      refine ⟨marked, ?_, hLength, fun i hi => ?_⟩
      · rw [markParents, if_pos hHead]
        exact hRun
      · rw [hMarked i hi, List.getElem?_set, List.map_cons]
        by_cases hIn : i ∈ items.map Linked.parent
        · rw [if_pos hIn, if_pos (List.mem_cons_of_mem _ hIn)]
        rw [if_neg hIn, parent_entry]
        by_cases hEq : item.parentIdx = i
        · subst hEq
          rw [if_pos rfl, if_pos hi, if_pos List.mem_cons_self]
        · rw [if_neg hEq, if_neg fun hMem =>
            (List.mem_cons.mp hMem).elim
              (fun hSame => hEq hSame.symm) hIn]

/-
  After `n` entries: the kept ones stand in front, their new
  places are in the table, and the rest is untouched.
-/
structure Compacted
    (keep : Nat → Bool)
    (previous : List Entry)
    (n : Nat)
    (s : CompactState) : Prop where
  kept : s.kept = rankBelow keep n
  front : s.entries.take s.kept = compact keep (previous.take n)
  rest : ∀ i, n ≤ i → s.entries[i]? = previous[i]?
  length : s.entries.length = previous.length
  placed :
    ∀ i < n, keep i = true →
      s.remap[i]? = some (some (rankBelow keep i))
  marks :
    ∀ i, n ≤ i → i < previous.length →
      s.remap[i]? = some (if keep i then some 0 else none)
  remapLength : s.remap.length = previous.length

/- One index more. -/
theorem rankBelow_add_one (keep : Nat → Bool) (n : Nat) :
    rankBelow keep (n + 1) =
      rankBelow keep n + if keep n then 1 else 0 := by
  rw [rankBelow, List.range_succ, List.countP_append,
    List.countP_singleton, rankBelow]

/- No more are kept than there are. -/
theorem rankBelow_le (keep : Nat → Bool) (n : Nat) :
    rankBelow keep n ≤ n :=
  (List.countP_le_length).trans (by simp)

/- One item more. -/
theorem compact_concat
    (keep : Nat → Bool)
    (xs : List Entry)
    (x : Entry) :
    compact keep (xs ++ [x]) =
      compact keep xs ++ if keep xs.length then [x] else [] := by
  rw [compact, List.zipIdx_append, List.filter_append,
    List.map_append, compact]
  congr 1
  rw [Nat.zero_add, List.zipIdx_singleton, List.filter_cons]
  cases keep xs.length <;> rfl

/- One step of the compaction. -/
theorem Compacted.step
    {keep : Nat → Bool}
    {n : Nat}
    {s : CompactState}
    (hState : Compacted keep previous n s)
    (hn : n < previous.length) :
    Compacted keep previous (n + 1) (compactStep s n) := by
  have hMark := hState.marks n (Nat.le_refl n) hn
  have hRead : s.entries[n]? = some previous[n] := by
    rw [hState.rest n (Nat.le_refl n),
      List.getElem?_eq_getElem hn]
  have hTake :
      previous.take (n + 1) = previous.take n ++ [previous[n]] :=
    (List.take_concat_get' previous n hn).symm
  have hLength : (previous.take n).length = n := by
    rw [List.length_take]
    omega
  have hKept := hState.kept
  have hLe := rankBelow_le keep n
  have hEntries := hState.length
  have hRemap := hState.remapLength
  cases hKeep : keep n with
  | true =>
      rw [hKeep, if_pos rfl] at hMark
      have hStep :
          compactStep s n =
            { remap := s.remap.set n (some s.kept)
              entries := s.entries.set s.kept previous[n]
              kept := s.kept + 1 } := by
        rw [compactStep, hMark, hRead]
      rw [hStep]
      exact
        { kept := by
            rw [rankBelow_add_one, hKeep, if_pos rfl, hKept]
          front := by
            dsimp only
            rw [hTake, compact_concat, hLength, hKeep,
              if_pos rfl, ← hState.front, List.take_add_one,
              List.take_set_of_le (Nat.le_refl _),
              List.getElem?_set_self (by omega)]
            rfl
          rest := fun i hi => by
            dsimp only
            rw [List.getElem?_set_ne (by omega)]
            exact hState.rest i (by omega)
          length := by
            rw [List.length_set, hEntries]
          placed := fun i hi hKeepI => by
            dsimp only
            by_cases hEq : n = i
            · subst hEq
              rw [List.getElem?_set_self (by omega), hKept]
            · rw [List.getElem?_set_ne hEq]
              exact hState.placed i (by omega) hKeepI
          marks := fun i hi hLt => by
            dsimp only
            rw [List.getElem?_set_ne (by omega)]
            exact hState.marks i (by omega) hLt
          remapLength := by
            rw [List.length_set, hRemap] }
  | false =>
      rw [hKeep] at hMark
      have hStep : compactStep s n = s := by
        rw [compactStep, hMark]
        rfl
      rw [hStep]
      exact
        { kept := by
            rw [rankBelow_add_one, hKeep, hKept]
            rfl
          front := by
            rw [hTake, compact_concat, hLength, hKeep,
              hState.front]
            exact (List.append_nil _).symm
          rest := fun i hi => hState.rest i (by omega)
          length := hEntries
          placed := fun i hi hKeepI => by
            by_cases hEq : n = i
            · subst hEq
              rw [hKeep] at hKeepI
              cases hKeepI
            · exact hState.placed i (by omega) hKeepI
          marks := fun i hi hLt =>
            hState.marks i (by omega) hLt
          remapLength := hRemap }

/- All steps of it. -/
theorem Compacted.run
    {keep : Nat → Bool}
    {s : CompactState}
    (hState : Compacted keep previous 0 s)
    (n : Nat)
    (hn : n ≤ previous.length) :
    Compacted keep previous n
      ((List.range n).foldl compactStep s) := by
  induction n with
  | zero => exact hState
  | succ n ih =>
      rw [List.range_succ, List.foldl_append, List.foldl_cons,
        List.foldl_nil]
      exact (ih (by omega)).step (by omega)

/- The loops of the store prune the pair. -/
theorem pruneLayers_eq
    {current : List Entry}
    (hParents :
      ∀ item ∈ current, item.parentIdx < previous.length) :
    pruneLayers previous current =
      .ok (prunePair previous current) := by
  rcases markParents_eq
      (StoreError.message "history prune parent out of range")
      current
      (List.replicate previous.length none)
      (by simpa using hParents) with
    ⟨marked, hRun, hLength, hMarked⟩
  rw [List.length_replicate] at hLength hMarked
  have hStart :
      Compacted
        (fun i => decide (i ∈ current.map Linked.parent))
        previous 0
        { remap := marked, entries := previous, kept := 0 } :=
    { kept := rfl
      front := rfl
      rest := fun _ _ => rfl
      length := rfl
      placed := fun i hi => absurd hi (Nat.not_lt_zero i)
      marks := fun i _ hi => by
        dsimp only
        rw [hMarked i hi, List.getElem?_replicate, if_pos hi]
        by_cases hIn : i ∈ current.map Linked.parent
        · rw [if_pos hIn, if_pos (decide_eq_true hIn)]
        · rw [if_neg hIn, if_neg (by simpa using hIn)]
      remapLength := hLength }
  have hEnd := hStart.run previous.length (Nat.le_refl _)
  have hFront := hEnd.front
  rw [List.take_length] at hFront
  rw [pruneLayers, hRun]
  change Except.ok _ = Except.ok _
  refine congrArg Except.ok (Prod.ext hFront ?_)
  dsimp only [prunePair]
  apply List.map_congr_left
  intro item hItem
  have hPlaced :=
    hEnd.placed item.parentIdx (hParents item hItem)
      (decide_eq_true (List.mem_map_of_mem hItem))
  rw [remapParent, hPlaced]
  rfl

----------------
-- The Store And Its Rows
----------------

/- The layers of the store, without their counts. -/
def layersOf
    (store : HistoryStore)
    (depth : Nat) : Option (List Entry) :=
  (ramLayer store depth).map Prod.snd

/- All layers are in memory and counted by their length. -/
structure RamStore (store : HistoryStore) : Prop where
  mode : store.config.mode = .ram
  prune : store.config.prune = true
  layers :
    ∀ (depth count : Nat) (storage : Storage),
      store.depths[depth]? = some (some ⟨count, storage⟩) →
      ∃ data, storage = .ram data ∧ count = data.length

/- A layer that can be read is in the store. -/
theorem RamStore.ramLayer_eq
    (hStore : RamStore store)
    {data : List Entry}
    (hLayer : layersOf store depth = some data) :
    store.depths[depth]? =
        some (some ⟨data.length, .ram data⟩) ∧
      ramLayer store depth = some (data.length, data) := by
  rw [layersOf] at hLayer
  rcases Option.map_eq_some_iff.mp hLayer with
    ⟨⟨count, data'⟩, hRam, rfl⟩
  rw [ramLayer] at hRam
  split at hRam
  case h_1 count' data'' hDepth =>
    cases hRam
    rcases hStore.layers depth count (.ram data') hDepth with
      ⟨_, hSame, rfl⟩
    cases hSame
    refine ⟨hDepth, ?_⟩
    rw [ramLayer, hDepth]
  case h_2 => cases hRam

/- A layer that cannot be read is not. -/
theorem RamStore.depth_eq_none
    (hStore : RamStore store)
    (hLayer : layersOf store depth = none) :
    ramLayer store depth = none ∧
      ∀ record, store.depths[depth]? ≠ some (some record) := by
  have hRam := Option.map_eq_none_iff.mp hLayer
  refine ⟨hRam, fun ⟨count, storage⟩ hDepth => ?_⟩
  rcases hStore.layers depth count storage hDepth with
    ⟨data, rfl, -⟩
  rw [ramLayer, hDepth] at hRam
  cases hRam

/- A read gives the entry of its layer. -/
theorem RamStore.read_eq_ok_iff
    (hStore : RamStore store)
    (depth index : Nat)
    (e : Entry) :
    read store depth index = .ok e ↔
      entryOf (layersOf store) depth index = some e := by
  rw [entryOf]
  cases hLayer : layersOf store depth with
  | none =>
      have hDepth := (hStore.depth_eq_none hLayer).2
      have hCount :
          count store depth =
            .error
              (.message "history depth not materialized") := by
        rw [count]
        split
        case h_1 record hRecord =>
          exact absurd hRecord (hDepth record)
        case h_2 => rfl
      rw [read, hCount]
      exact iff_of_false (fun h => by cases h) (fun h => by cases h)
  | some data =>
      have hDepth := (hStore.ramLayer_eq hLayer).1
      have hCount :
          count store depth =
            .ok ⟨data.length, .ram data⟩ := by
        rw [count, hDepth]
      rw [read, hCount]
      change
        (if index ≥ data.length then _
          else readStorage store (.ram data) index) = _ ↔ _
      rw [Option.bind_some, readStorage]
      by_cases hIndex : index < data.length
      · rw [if_neg (by omega), List.getElem?_eq_getElem hIndex]
        exact
          ⟨fun h => congrArg some (Except.ok.inj h),
            fun h => congrArg Except.ok (Option.some.inj h)⟩
      · rw [if_pos (by omega),
          List.getElem?_eq_none (by omega)]
        exact
          iff_of_false (fun h => by cases h) (fun h => by cases h)

/- The layers are the view of rows of the written batches. -/
structure Viewed
    (batches : Nat → Option (List Entry))
    (rows : Nat → Option (Rows Entry))
    (store : HistoryStore) : Prop where
  inRam : RamStore store
  tracks : Tracks batches rows
  shown : layersOf store = view rows

/- A depth's layer replaced; the others stay. -/
theorem layersOf_set
    (store : HistoryStore)
    (data : List Entry)
    (count : Nat)
    (hDepth : depth < store.depths.length)
    (stats : Stats) :
    layersOf
        { store with
          depths :=
            store.depths.set depth (some ⟨count, .ram data⟩)
          stats := stats } =
      Function.update (layersOf store) depth (some data) := by
  funext e
  by_cases hEq : e = depth
  · subst hEq
    rw [Function.update_self, layersOf, ramLayer]
    dsimp only
    rw [List.getElem?_set_self hDepth]
    rfl
  · rw [Function.update_of_ne hEq, layersOf, ramLayer, layersOf,
      ramLayer]
    dsimp only
    rw [List.getElem?_set_ne (Ne.symm hEq)]

/- A layer is replaced. -/
theorem RamStore.set
    (hStore : RamStore store)
    (depth : Nat)
    (data : List Entry)
    (stats : Stats) :
    RamStore
      { store with
        depths :=
          store.depths.set depth
            (some ⟨data.length, .ram data⟩)
        stats := stats } where
  mode := hStore.mode
  prune := hStore.prune
  layers other count storage hOther := by
    dsimp only at hOther
    rw [List.getElem?_set] at hOther
    split_ifs at hOther with hEq hLt
    · cases hOther
      exact ⟨data, rfl, rfl⟩
    · exact hStore.layers other count storage hOther

/- The upper layer keeps its length. -/
theorem prunePair_snd_length
    (previous current : List Entry) :
    (prunePair previous current).2.length = current.length :=
  List.length_map _

/-
  One prune: the layers that are read are those of the pruned
  rows.
-/
theorem pruneAt_spec
    {s₀ : HistoryStore}
    (d : Nat)
    (hViewed : Viewed batches rows s₀)
    (hClean : ∀ e, d < e → Clean rows e) :
    Triple (fun s => s = s₀) (pruneAt (d + 1))
      (fun _ s =>
        ∃ rows', Viewed batches rows' s ∧
          ∀ e, d ≤ e → Clean rows' e)
      (fun _ _ => False) := by
  apply Triple.read
  rintro s rfl
  have hStore := hViewed.inRam
  have hTracks := hViewed.tracks
  rw [Nat.add_sub_cancel]
  -- A missing layer makes the pair clean.
  have hMissing :
      view rows d = none ∨ view rows (d + 1) = none →
      ∀ e, d ≤ e → Clean rows e := by
    intro hNone e he below own hBelow hOwn
    rcases Nat.eq_or_lt_of_le he with rfl | hLt
    · rw [view, view, hBelow, hOwn] at hNone
      rcases hNone with hNone | hNone <;> cases hNone
    · exact hClean e hLt below own hBelow hOwn
  cases hLower : layersOf s d with
  | none =>
      rw [(hStore.depth_eq_none hLower).1]
      rw [hViewed.shown] at hLower
      exact Triple.value fun t ht =>
        ⟨rows, ht ▸ hViewed, hMissing (Or.inl hLower)⟩
  | some previous =>
      rcases hStore.ramLayer_eq hLower with ⟨hDepth, hRam⟩
      rw [hRam]
      cases hUpper : layersOf s (d + 1) with
      | none =>
          rw [(hStore.depth_eq_none hUpper).1]
          rw [hViewed.shown] at hUpper
          exact Triple.value fun t ht =>
            ⟨rows, ht ▸ hViewed, hMissing (Or.inr hUpper)⟩
      | some current =>
          rcases hStore.ramLayer_eq hUpper with
            ⟨hDepth', hRam'⟩
          rw [hRam']
          have hPrevious := hLower
          have hCurrent := hUpper
          rw [hViewed.shown] at hPrevious hCurrent
          rcases Option.map_eq_some_iff.mp hPrevious with
            ⟨below, hBelow, hBelowEq⟩
          rcases Option.map_eq_some_iff.mp hCurrent with
            ⟨own, hOwn, hOwnEq⟩
          have hParents :
              ∀ item ∈ current,
                item.parentIdx < previous.length := by
            intro item hItem
            rw [← hOwnEq] at hItem
            rcases List.mem_map.mp hItem with ⟨p, hp, rfl⟩
            have hLinked :=
              hTracks.linked d below own hBelow hOwn p hp
            have hLt := List.idxOf_lt_length_of_mem hLinked
            rw [← hBelowEq, layer, List.length_map]
            change slot (rows d) (Linked.parent p.1) < _
            rw [hBelow, slot]
            simpa [indices] using hLt
          dsimp only
          rw [pruneLayers_eq hParents]
          apply Triple.update
          rintro t rfl
          refine
            ⟨prunedRows rows d own below,
              ⟨?_, hTracks.prune hBelow hOwn, ?_⟩, ?_⟩
          · have hSet :=
              (hStore.set d (prunePair previous current).1
                t.stats).set (d + 1)
                  (prunePair previous current).2 t.stats
            rw [prunePair_snd_length] at hSet
            exact { hSet with }
          · have hLt := (List.getElem?_eq_some_iff.mp hDepth).1
            have hLt' := (List.getElem?_eq_some_iff.mp hDepth').1
            have hFirst :=
              layersOf_set t (prunePair previous current).1
                (prunePair previous current).1.length hLt t.stats
            refine
              (layersOf_set
                { t with
                  depths :=
                    t.depths.set d
                      (some
                        ⟨(prunePair previous current).1.length,
                          .ram (prunePair previous current).1⟩)
                  stats := t.stats }
                (prunePair previous current).2 current.length
                (by rw [List.length_set]; exact hLt') _).trans ?_
            rw [hFirst, hViewed.shown,
              hTracks.view_prune hBelow hOwn hPrevious hCurrent]
          · intro e he
            rcases Nat.eq_or_lt_of_le he with rfl | hLt
            · exact clean_prunedRows hOwn
            · exact
                (hClean e hLt).prune_other hBelow (by omega)
                  (by omega)

----------------
-- One Write
----------------

/- All prunes from an index down; what is above stays clean. -/
theorem pruneFrom_spec
    (n : Nat)
    {s₀ : HistoryStore}
    (hViewed : Viewed batches rows s₀)
    (hClean : ∀ e, n ≤ e → Clean rows e) :
    Triple (fun s => s = s₀) (pruneFrom n)
      (fun _ s =>
        ∃ rows', Viewed batches rows' s ∧ ∀ e, Clean rows' e)
      (fun _ _ => False) := by
  induction n generalizing rows s₀ with
  | zero =>
      exact Triple.value fun s hs =>
        ⟨rows, hs ▸ hViewed, fun e => hClean e (Nat.zero_le e)⟩
  | succ n ih =>
      apply Triple.seq (pruneAt_spec n hViewed hClean)
      intro _
      apply Triple.of_state
      rintro s ⟨rows', hViewed', hClean'⟩
      exact ih hViewed' hClean'

/- The layers of a store of whole, clean rows. -/
def Pruned
    (batches : Nat → Option (List Entry))
    (store : HistoryStore) : Prop :=
  ∃ rows, Viewed batches rows store ∧ ∀ e, Clean rows e

/- An unwritten depth has no batch. -/
theorem Viewed.batches_eq_none
    (hViewed : Viewed batches rows store)
    (hFree :
      ∀ record, store.depths[depth]? ≠ some (some record)) :
    batches depth = none := by
  rw [← hViewed.tracks.present]
  have hLayer := congrFun hViewed.shown depth
  cases hRows : rows depth with
  | none => rfl
  | some own =>
      rw [view, hRows, Option.map_some] at hLayer
      exact absurd (hViewed.inRam.ramLayer_eq hLayer).1 (hFree _)

/- A pair whose layers are not both there is clean. -/
theorem clean_of_ge_length
    (hViewed : Viewed batches rows store)
    {d : Nat}
    (hd : store.depths.length - 1 ≤ d) :
    Clean rows d := by
  intro below own _ hOwn
  have hLayer := congrFun hViewed.shown (d + 1)
  rw [view, hOwn, Option.map_some] at hLayer
  have hDepth := (hViewed.inRam.ramLayer_eq hLayer).1
  have hLt := (List.getElem?_eq_some_iff.mp hDepth).1
  omega

/- A write into the pruned store, in any order of depths. -/
theorem write_pruned
    {s₀ : HistoryStore}
    (depth : Nat)
    (batch : List CandidateMeta)
    (io : IoOutcome)
    (hPruned : Pruned batches s₀)
    (hParents :
      batches depth = none →
      ValidParents
        (Function.update batches depth
          (some (batch.map entry)))) :
    Triple (fun s => s = s₀) (write depth batch io)
      (fun _ s =>
        batches depth = none ∧
          Pruned
            (Function.update batches depth
              (some (batch.map entry)))
            s)
      (fun _ _ => True) := by
  rcases hPruned with ⟨rows, hViewed, hClean⟩
  apply Triple.read
  rintro s rfl
  cases hDepth : s.depths[depth]? with
  | none => exact Triple.stop fun _ _ => trivial
  | some slot =>
      cases slot with
      | some taken => exact Triple.stop fun _ _ => trivial
      | none =>
          have hFree :
              ∀ record, s.depths[depth]? ≠ some (some record) :=
            fun record hTaken => by
              rw [hDepth] at hTaken
              cases hTaken
          have hNew := hViewed.batches_eq_none hFree
          have hValid := hParents hNew
          have hLt := (List.getElem?_eq_some_iff.mp hDepth).1
          dsimp only
          apply Triple.seq
            ((orThrow_spec s _).stop_mono fun _ _ _ => trivial)
          intro _
          apply Triple.pre _ (fun _ ht => ht.2)
          rw [hViewed.inRam.mode]
          apply Triple.seq
            (R := fun storage t =>
              storage = .ram (batch.map entry) ∧ t = s)
          · exact Triple.value fun t ht => ⟨rfl, ht⟩
          intro storage
          apply Triple.of_state
          rintro t ⟨rfl, rfl⟩
          apply Triple.seq
            ((record_spec t depth batch.length _).stop_mono
              fun _ _ _ => trivial)
          intro _
          rw [if_pos ⟨rfl, hViewed.inRam.prune⟩]
          apply Triple.of_state
          rintro u ⟨stats, rfl⟩
          have hInRam :=
            hViewed.inRam.set depth (batch.map entry) stats
          have hShown :=
            layersOf_set t (batch.map entry)
              (batch.map entry).length hLt stats
          rw [hViewed.shown,
            ← hViewed.tracks.view_insert hNew hValid] at hShown
          rw [List.length_map] at hInRam hShown
          have hViewed' :
              Viewed
                (Function.update batches depth
                  (some (batch.map entry)))
                (Function.update rows depth
                  (some (batch.map entry).zipIdx))
                { t with
                  stats := stats
                  depths :=
                    t.depths.set depth
                      (some
                        ⟨batch.length,
                          .ram (batch.map entry)⟩) } :=
            { inRam := hInRam
              tracks := hViewed.tracks.insert hNew hValid
              shown := hShown }
          apply Triple.read
          rintro v rfl
          refine
            ((pruneFrom_spec _ hViewed' fun e he =>
              clean_of_ge_length hViewed' he).post ?_).stop_mono
                fun _ _ hFalse => hFalse.elim
          rintro _ w ⟨rows', hViewed'', hClean'⟩
          exact ⟨hNew, rows', hViewed'', hClean'⟩

----------------
-- Runs
----------------

/- What the successful calls stored, by depth. -/
def batchesOf
    (calls : List WriteCall)
    (depth : Nat) : Option (List Entry) :=
  (calls.find? fun call => call.depth = depth).map
    fun call => call.batch.map entry

/- A batch is some call's. -/
theorem batchesOf_eq_some
    {batch : List Entry}
    (hBatch : batchesOf calls depth = some batch) :
    ∃ call ∈ calls,
      call.depth = depth ∧ batch = call.batch.map entry := by
  rcases Option.map_eq_some_iff.mp hBatch with
    ⟨call, hFind, rfl⟩
  have hDepth := List.find?_some hFind
  exact
    ⟨call, List.mem_of_find?_eq_some hFind,
      of_decide_eq_true hDepth, rfl⟩

/- A depth without a call has none. -/
theorem batchesOf_eq_none_iff :
    batchesOf calls depth = none ↔
      ∀ call ∈ calls, call.depth ≠ depth := by
  rw [batchesOf, Option.map_eq_none_iff, List.find?_eq_none]
  simp

/- One call more. -/
theorem batchesOf_concat
    {call : WriteCall}
    (hNew : batchesOf calls call.depth = none) :
    batchesOf (calls ++ [call]) =
      Function.update (batchesOf calls) call.depth
        (some (call.batch.map entry)) := by
  have hNone := Option.map_eq_none_iff.mp hNew
  funext d
  rw [batchesOf, List.find?_append]
  by_cases hEq : d = call.depth
  · subst hEq
    rw [Function.update_self, hNone]
    simp
  · rw [Function.update_of_ne hEq, batchesOf]
    have hMiss :
        [call].find? (fun c => decide (c.depth = d)) = none := by
      simp [Ne.symm hEq]
    rw [hMiss, Option.or_none]

/- A parent of a layer is an index of the batch below. -/
def ParentsBelow (calls : List WriteCall) : Prop :=
  ∀ lower ∈ calls, ∀ upper ∈ calls,
    upper.depth = lower.depth + 1 →
    ∀ candidate ∈ upper.batch,
      candidate.parentIdx.toNat < lower.batch.length

/- The parents of some of the calls. -/
theorem ParentsBelow.validParents
    {calls' : List WriteCall}
    (hParents : ParentsBelow calls)
    (hSubset : calls' ⊆ calls) :
    ValidParents (batchesOf calls') := by
  intro d previous current hPrevious hCurrent e he
  rcases batchesOf_eq_some hPrevious with
    ⟨lower, hLower, hDepth, rfl⟩
  rcases batchesOf_eq_some hCurrent with
    ⟨upper, hUpper, hDepth', rfl⟩
  rcases List.mem_map.mp he with ⟨candidate, hCandidate, rfl⟩
  rw [List.length_map]
  exact
    hParents lower (hSubset hLower) upper (hSubset hUpper)
      (by rw [hDepth', hDepth]) candidate hCandidate

/- Not more calls succeed than are made. -/
theorem length_runWrites_le
    (calls : List WriteCall)
    (store : HistoryStore) :
    (runWrites calls store).1.length ≤ calls.length := by
  induction calls generalizing store with
  | nil => exact Nat.le_refl _
  | cons call calls ih =>
      rw [runWrites]
      cases write call.depth call.batch call.io store with
      | ok done store' => exact Nat.succ_le_succ (ih store')
      | error error store' =>
          exact (ih store').trans (Nat.le_succ _)

/- All writes, by the step. -/
theorem runWrites_pruned
    (calls : List WriteCall)
    {written : List WriteCall}
    (hPruned : Pruned (batchesOf written) store)
    (hDepths : (written.map WriteCall.depth).Nodup)
    (hAll : (runWrites calls store).1 = calls)
    (hParents : ParentsBelow (written ++ calls)) :
    Pruned (batchesOf (written ++ calls))
        (runWrites calls store).2 ∧
      ((written ++ calls).map WriteCall.depth).Nodup := by
  induction calls generalizing written store with
  | nil =>
      rw [List.append_nil]
      exact ⟨hPruned, hDepths⟩
  | cons call calls ih =>
      have hMove :
          written ++ call :: calls = written ++ [call] ++ calls := by
        simp
      rw [runWrites] at hAll ⊢
      cases hRun : write call.depth call.batch call.io store with
      | error error store' =>
          rw [hRun] at hAll
          have hLength := length_runWrites_le calls store'
          dsimp only at hAll
          rw [hAll] at hLength
          exact absurd hLength (Nat.not_succ_le_self _)
      | ok done store' =>
          rw [hRun] at hAll
          have hRest := (List.cons.inj hAll).2
          have hWrite :=
            write_pruned call.depth call.batch call.io hPruned
              (fun hNew => by
                rw [← batchesOf_concat hNew]
                exact hParents.validParents fun c hc => by
                  rw [hMove]
                  exact List.mem_append_left _ hc)
              store rfl
          rw [hRun] at hWrite
          rcases hWrite with ⟨hNew, hPruned'⟩
          rw [← batchesOf_concat hNew] at hPruned'
          have hFresh := batchesOf_eq_none_iff.mp hNew
          have hDepths' :
              ((written ++ [call]).map WriteCall.depth).Nodup := by
            rw [List.map_append, List.map_singleton,
              ← List.concat_eq_append]
            refine hDepths.concat fun hMem => ?_
            rcases List.mem_map.mp hMem with ⟨c, hc, hEq⟩
            exact hFresh c hc hEq
          rw [hMove]
          exact ih hPruned' hDepths' hRest (hMove ▸ hParents)

/- A new store is pruned. -/
theorem new_pruned
    {config : HistoryConfig}
    (hMode : config.mode = .ram)
    (hPrune : config.prune = true)
    (hNew : HistoryStore.new config = .ok store) :
    Pruned (batchesOf []) store := by
  rw [HistoryStore.new] at hNew
  split_ifs at hNew with hZero hHybrid
  · rw [hMode] at hHybrid
    cases hHybrid
  rcases except_bind_eq_ok hNew with ⟨_, -, hNew⟩
  rcases except_bind_eq_ok hNew with ⟨pinned, -, hNew⟩
  rcases except_bind_eq_ok hNew with ⟨_, -, hNew⟩
  rcases except_bind_eq_ok hNew with ⟨staging, -, hNew⟩
  cases hNew
  have hEmpty :
      ∀ (d : Nat) (record : Depth),
        (emptyStore config pinned staging).depths[d]? ≠
          some (some record) := by
    intro d record hDepth
    change (List.replicate _ none)[d]? = _ at hDepth
    rw [List.getElem?_replicate] at hDepth
    split_ifs at hDepth
    cases hDepth
  refine
    ⟨fun _ => none,
      ⟨⟨hMode, hPrune, fun d count storage hDepth =>
        absurd hDepth (hEmpty d _)⟩, tracks_empty, ?_⟩,
      fun _ _ _ hRows => nomatch hRows⟩
  funext d
  rw [layersOf, ramLayer]
  split
  case h_1 hDepth => exact absurd hDepth (hEmpty d _)
  case h_2 => rfl

----------------
-- Paths
----------------

/- The rows keep the order of their batch. -/
theorem Tracks.indices_sorted
    (hTracks : Tracks batches rows)
    {d : Nat}
    {own : Rows Entry}
    (hRows : rows d = some own) :
    (indices own).Pairwise (· < ·) := by
  rcases hTracks.batch_of_rows hRows with ⟨batch, hBatch⟩
  have hSub :=
    (hTracks.sublist d own batch hRows hBatch).map Prod.snd
  have hRange : (indices batch.zipIdx).Pairwise (· < ·) := by
    rw [indices_zipIdx]
    exact List.pairwise_lt_range
  exact hRange.sublist hSub

/- What the store still reads. -/
def kept
    (store : HistoryStore)
    (depth index : Nat) : Option Entry :=
  (read store depth index).toOption

/- What is kept is what can be read. -/
theorem RamStore.kept_eq
    (hStore : RamStore store) :
    kept store = entryOf (layersOf store) := by
  funext d i
  apply Option.ext
  intro e
  rw [← hStore.read_eq_ok_iff, kept]
  cases read store d i with
  | ok e' =>
      exact
        ⟨fun h => congrArg Except.ok (Option.some.inj h),
          fun h => congrArg some (Except.ok.inj h)⟩
  | error error =>
      exact
        iff_of_false (fun h => nomatch h) (fun h => nomatch h)

/-
  On a maximal run of written depths every path from the top
  reads the routes it was written with, down to the parent at
  the bottom. The entries of a layer are those on such paths,
  in the order of the batch.
-/
theorem prune_preserves_paths
    (config : HistoryConfig)
    (store : HistoryStore)
    (calls : List WriteCall)
    (hMode : config.mode = .ram)
    (hPrune : config.prune = true)
    (hNew : HistoryStore.new config = .ok store)
    (hAll : (runWrites calls store).1 = calls)
    (hParents : ParentsBelow calls)
    (lo steps : Nat)
    (hRun :
      ∀ d, lo ≤ d → d ≤ lo + steps →
        ∃ call ∈ calls, call.depth = d)
    (hBelow : ∀ call ∈ calls, call.depth + 1 ≠ lo)
    (hAbove : ∀ call ∈ calls, call.depth ≠ lo + steps + 1)
    (top : WriteCall)
    (hTop : top ∈ calls)
    (hDepth : top.depth = lo + steps) :
    ∀ d, lo ≤ d → d ≤ lo + steps →
      ∃ origins : List Nat,
        origins.Pairwise (· < ·) ∧
        (∀ i < top.batch.length, ∃ j origin e e₀,
          descend (kept (runWrites calls store).2) d
              (lo + steps - d) i =
            some j ∧
          origins[j]? = some origin ∧
          descend (entryOf (batchesOf calls)) d
              (lo + steps - d) i =
            some origin ∧
          kept (runWrites calls store).2 d j = some e ∧
          entryOf (batchesOf calls) d origin = some e₀ ∧
          e.route = e₀.route ∧
          (d = lo → e.parentIdx = e₀.parentIdx)) ∧
        ∀ j, kept (runWrites calls store).2 d j ≠ none →
          ∃ i < top.batch.length,
            descend (kept (runWrites calls store).2) d
                (lo + steps - d) i =
              some j := by
  have hPruned :=
    runWrites_pruned calls (new_pruned hMode hPrune hNew)
      List.nodup_nil hAll (by simpa using hParents)
  rw [List.nil_append] at hPruned
  rcases hPruned with ⟨⟨rows, hViewed, hClean⟩, hNodup⟩
  have hTracks := hViewed.tracks
  rw [hViewed.inRam.kept_eq, hViewed.shown]
  have hPresent :
      ∀ d, lo ≤ d → d ≤ lo + steps → rows d ≠ none := by
    intro d hLow hHigh hNone
    rcases hRun d hLow hHigh with ⟨call, hCall, hAt⟩
    exact
      batchesOf_eq_none_iff.mp ((hTracks.present d).mp hNone)
        call hCall hAt
  -- No layer stands above, so the top shows its whole batch.
  rcases Option.ne_none_iff_exists'.mp
      (hPresent (lo + steps) (by omega) (Nat.le_refl _)) with
    ⟨own, hOwn⟩
  rcases hTracks.zipIdx_of_rows hOwn
      (batchesOf_eq_none_iff.mpr hAbove) with
    ⟨batch, hBatch, rfl⟩
  have hBase : belowOf rows lo = none := by
    cases lo with
    | zero => rfl
    | succ m =>
        refine (hTracks.present m).mpr
          (batchesOf_eq_none_iff.mpr fun call hCall hAt => ?_)
        exact hBelow call hCall (by rw [hAt])
  have hBatchLength : batch.length = top.batch.length := by
    rcases batchesOf_eq_some hBatch with
      ⟨call, hCall, hAt, rfl⟩
    have hSame : call = top :=
      List.inj_on_of_nodup_map hNodup hCall hTop
        (hAt.trans hDepth.symm)
    rw [List.length_map, hSame]
  intro d hLow hHigh
  have hSteps : d + (lo + steps - d) = lo + steps := by omega
  rcases Option.ne_none_iff_exists'.mp
      (hPresent d hLow hHigh) with
    ⟨layerRows, hRows⟩
  refine
    ⟨indices layerRows, Tracks.indices_sorted hTracks hRows,
      ?_, ?_⟩
  · intro i hi
    have hAt : batch.zipIdx[i]? = some (batch[i], i) := by
      rw [List.getElem?_zipIdx,
        List.getElem?_eq_getElem (by omega)]
      simp
    rcases hTracks.descend_row d (lo + steps - d) i batch.zipIdx
        (batch[i], i)
        (fun e hLow' hHigh' =>
          hPresent e (by omega) (by omega))
        (by rw [hSteps]; exact hOwn) hAt with
      ⟨k, below, q, hBelowRows, hq, hView, hOrigin⟩
    rw [hRows] at hBelowRows
    cases hBelowRows
    refine
      ⟨k, q.2, _, q.1, hView, ?_, hOrigin,
        entryOf_view hRows hq,
        hTracks.entryOf_batches hRows hq, rfl, ?_⟩
    · rw [indices, List.getElem?_map, hq, Option.map_some]
    · rintro rfl
      rw [hBase]
      rfl
  · intro j hj
    have hLt : j < layerRows.length := by
      by_contra hNot
      apply hj
      rw [entryOf, view, hRows, Option.map_some,
        Option.bind_some]
      apply List.getElem?_eq_none
      rw [layer, List.length_map]
      omega
    rcases hTracks.exists_descend (lo + steps - d) d j layerRows
        (fun e hLow' hHigh' =>
          hPresent e (by omega) (by omega))
        (fun e _ _ => hClean e) hRows hLt with
      ⟨i, own, hOwn', hi, hDescend⟩
    rw [hSteps, hOwn] at hOwn'
    cases hOwn'
    rw [List.length_zipIdx, hBatchLength] at hi
    exact ⟨i, hi, hDescend⟩

/- Two layers that arrive the upper one first. -/
def lateConfig : HistoryConfig where
  mode := .ram
  capacity := 4
  slots := 1
  workers := 1
  maxDepth := 2
  moves := 2
  ramBudgetBytes := 0
  diskBudgetBytes := 0
  prune := true

/-
  A row that differs from others by its parent and route only.
-/
def lateCandidate
    (parentIdx : UInt64)
    (route : UInt32) : CandidateMeta :=
  ⟨⟨0, 0⟩, parentIdx, 0, route⟩

/- A layer that arrives before the one below it. -/
def upperCall : WriteCall where
  depth := 1
  batch := [lateCandidate 2 5, lateCandidate 0 6]
  io := .completed

/- The lower layer, arriving late. -/
def lowerCall : WriteCall where
  depth := 0
  batch :=
    [lateCandidate 0 7, lateCandidate 0 8, lateCandidate 0 9]
  io := .completed

/- The upper layer arrives first, and its path is found. -/
theorem prune_preserves_paths_late :
    ∃ store,
      HistoryStore.new lateConfig = .ok store ∧
      ∃ j e,
        descend
            (kept (runWrites [upperCall, lowerCall] store).2) 0 1
            0 =
          some j ∧
        kept (runWrites [upperCall, lowerCall] store).2 0 j =
          some e ∧
        e.route = 9 := by
  refine ⟨_, rfl, ?_⟩
  have hParents : ParentsBelow [upperCall, lowerCall] := by
    unfold ParentsBelow
    decide
  have hRun :
      ∀ d, 0 ≤ d → d ≤ 0 + 1 →
        ∃ call ∈ [upperCall, lowerCall], call.depth = d := by
    intro d _ hHigh
    rcases Nat.eq_zero_or_pos d with rfl | hPos
    · exact ⟨lowerCall, by simp, rfl⟩
    · exact ⟨upperCall, by simp, by change 1 = d; omega⟩
  rcases prune_preserves_paths lateConfig _
      [upperCall, lowerCall] rfl rfl rfl rfl hParents 0 1 hRun
      (by decide) (by decide) upperCall (by simp) rfl 0
      (Nat.le_refl 0) (Nat.zero_le _) with
    ⟨origins, -, hPaths, -⟩
  rcases hPaths 0 (by decide) with
    ⟨j, origin, e, e₀, hDescend, -, hOrigin, hKept, hEntry,
      hRoute, -⟩
  have hTwo : origin = 2 := (Option.some.inj hOrigin).symm
  subst hTwo
  cases hEntry
  exact ⟨j, e, hDescend, hKept, hRoute⟩

end History

end BeamSearch
