import BeamSearch.History.Prune
import BeamSearch.History.StaticHybrid

/-
  What a rejected write of the history store leaves.

  Every refusal comes before the layer is recorded, but one:
  pruning starts at the top, and a parent out of range stops it
  when the layer is recorded and the pairs above are compacted.
  Which entries it looks at is said without running it: those
  that some chain of layers above still names.

  Main declarations:
    * `Live`, `ParentsFit`
    * `pruneFrom_live`
    * `Sound`
    * `write_cases`
    * `rejected_write_unchanged_iff`
-/

namespace BeamSearch

open ByteFile Hoare Layers

namespace History

variable {previous current : List Entry} {store store' : HistoryStore} {d depth : Nat}
    {layers : Nat → Option (List Entry)} {config : HistoryConfig}

----------------
-- Live Entries
----------------

/- No layer above names its entries, or a live entry does. -/
inductive Live (layers : Nat → Option (List Entry)) :
    Nat → Nat → Prop where
  | top
      (d i : Nat)
      (hTop : layers (d + 1) = none) :
      Live layers d i
  | named
      (d i j : Nat)
      (above : List Entry)
      (e : Entry)
      (hAbove : layers (d + 1) = some above)
      (hEntry : above[j]? = some e)
      (hLive : Live layers (d + 1) j)
      (hParent : e.parentIdx = i) :
      Live layers d i

/- Live entries name entries of the layer below. -/
def FitsAt
    (layers : Nat → Option (List Entry))
    (d : Nat) : Prop :=
  ∀ below above,
    layers d = some below →
    layers (d + 1) = some above →
    ∀ (j : Nat) (e : Entry),
      above[j]? = some e →
      Live layers (d + 1) j →
      e.parentIdx < below.length

/- Every parent is an entry of the layer above. -/
def ParentsFit (layers : Nat → Option (List Entry)) : Prop :=
  ∀ d, FitsAt layers d

/- An index beyond the layer is found. -/
theorem markParents_out_of_range
    {ε : Type}
    (outOfRange : ε)
    (items : List Entry)
    (remap : List (Option Nat))
    (hOut : ∃ item ∈ items, remap.length ≤ item.parentIdx) :
    markParents outOfRange items remap = .error outOfRange := by
  induction items generalizing remap with
  | nil =>
      rcases hOut with ⟨item, hMember, -⟩
      exact absurd hMember List.not_mem_nil
  | cons first items ih =>
      rw [markParents]
      by_cases hFirst : first.parentIdx < remap.length
      · rw [if_pos hFirst]
        apply ih
        rcases hOut with ⟨item, hMember, hLe⟩
        rcases List.mem_cons.mp hMember with rfl | hRest
        · omega
        · refine ⟨item, hRest, ?_⟩
          rw [List.length_set]
          exact hLe
      · rw [if_neg hFirst]

/- So the prune is refused. -/
theorem pruneLayers_out_of_range
    (hOut :
      ¬ ∀ item ∈ current, item.parentIdx < previous.length) :
    pruneLayers previous current =
      .error
        (.message "history prune parent out of range") := by
  push Not at hOut
  rw [pruneLayers, markParents_out_of_range]
  · rfl
  · rw [List.length_replicate]
    exact hOut

/- An entry that is kept. -/
theorem mem_compact
    {keep : Nat → Bool}
    {xs : List Entry}
    {e : Entry} :
    e ∈ compact keep xs ↔
      ∃ i, xs[i]? = some e ∧ keep i = true := by
  rw [compact, List.mem_map]
  constructor
  · rintro ⟨⟨x, i⟩, hMember, rfl⟩
    rw [List.mem_filter] at hMember
    exact
      ⟨i, List.mem_zipIdx_iff_getElem?.mp hMember.1, hMember.2⟩
  · rintro ⟨i, hEntry, hKeep⟩
    refine ⟨(e, i), List.mem_filter.mpr ⟨?_, hKeep⟩, rfl⟩
    exact List.mem_zipIdx_iff_getElem?.mpr hEntry

----------------
-- Pruning From The Top
----------------

/- The layers below `n` are as they were, and layer `n` has
kept its live entries. -/
structure PrunedDown
    (layers : Nat → Option (List Entry))
    (n : Nat)
    (store : HistoryStore) : Prop where
  below : ∀ d < n, layersOf store d = layers d
  missing : layers n = none → layersOf store n = none
  own :
    ∀ data, layers n = some data →
      ∃ kept,
        layersOf store n = some kept ∧
        ∀ e,
          e ∈ kept ↔ ∃ j, data[j]? = some e ∧ Live layers n j

/- The depth was stored. -/
def Materialized (store : HistoryStore) (d : Nat) : Prop :=
  ∃ record : Depth, store.depths[d]? = some (some record)

/- What was stored stays stored. -/
theorem materialized_set
    {depths : List (Option Depth)}
    {e : Nat}
    (d : Nat)
    (record : Depth)
    (hThere : ∃ old : Depth, depths[e]? = some (some old)) :
    ∃ kept : Depth,
      (depths.set d (some record))[e]? = some (some kept) := by
  rcases hThere with ⟨old, hOld⟩
  by_cases hSame : d = e
  · subst hSame
    have hLt := (List.getElem?_eq_some_iff.mp hOld).1
    exact ⟨record, List.getElem?_set_self hLt⟩
  · exact ⟨old, (List.getElem?_set_ne hSame).trans hOld⟩

/- What pruning leaves of the rest of the store. -/
structure PruneFrame (store store' : HistoryStore) : Prop where
  config : store'.config = store.config
  materialized :
    ∀ d, Materialized store d → Materialized store' d
  files :
    ∀ (d count path : Nat),
      store'.depths[d]? = some (some ⟨count, .disk path⟩) →
      store.depths[d]? = some (some ⟨count, .disk path⟩)
  stats :
    2 * store.stats.bytesStored ≤ store.stats.bytesReceived →
    2 * store'.stats.bytesStored ≤ store'.stats.bytesReceived

/- Nothing was pruned. -/
theorem PruneFrame.refl (store : HistoryStore) :
    PruneFrame store store :=
  ⟨rfl, fun _ => id, fun _ _ _ => id, id⟩

/- One prune after the other. -/
theorem PruneFrame.trans
    {a b c : HistoryStore}
    (hFirst : PruneFrame a b)
    (hSecond : PruneFrame b c) :
    PruneFrame a c :=
  ⟨hSecond.config.trans hFirst.config,
    fun d hThere =>
      hSecond.materialized d (hFirst.materialized d hThere),
    fun d count path hDisk =>
      hFirst.files d count path
        (hSecond.files d count path hDisk),
    fun hStats => hSecond.stats (hFirst.stats hStats)⟩

/- A layer that can be read is in the store. -/
theorem ramLayer_of_layersOf
    {data : List Entry}
    (hLayer : layersOf store d = some data) :
    ∃ count,
      ramLayer store d = some (count, data) ∧
        store.depths[d]? = some (some ⟨count, .ram data⟩) := by
  rw [layersOf] at hLayer
  rcases Option.map_eq_some_iff.mp hLayer with
    ⟨⟨count, own⟩, hRam, rfl⟩
  refine ⟨count, hRam, ?_⟩
  rw [ramLayer] at hRam
  split at hRam
  · cases hRam
    assumption
  · cases hRam

/- The state a pair leaves when its parents fit. -/
def prunedPair
    (store : HistoryStore)
    (d count : Nat)
    (previous current : List Entry) : HistoryStore :=
  let pair := prunePair previous current
  let removed := (previous.length - pair.1.length) * 16
  { store with
    depths :=
      (store.depths.set d
          (some ⟨pair.1.length, .ram pair.1⟩)).set
        (d + 1) (some ⟨count, .ram pair.2⟩)
    stats :=
      { store.stats with
        bytesStored := store.stats.bytesStored - removed
        bytesStoredRam := store.stats.bytesStoredRam - removed
        bytesPruned := store.stats.bytesPruned + removed } }

/- What a prune of one pair leaves alone. -/
theorem pruneFrame_prunedPair
    (store : HistoryStore)
    (d count : Nat)
    (previous current : List Entry) :
    PruneFrame store
      (prunedPair store d count previous current) where
  config := rfl
  materialized e hThere :=
    materialized_set (d + 1) _ (materialized_set d _ hThere)
  files e total path hDisk := by
    dsimp only [prunedPair] at hDisk
    rw [List.getElem?_set, List.getElem?_set] at hDisk
    split_ifs at hDisk
    · cases hDisk
    · cases hDisk
    · exact hDisk
  stats hStats := by
    dsimp only [prunedPair]
    omega

/- The layers after a prune of one pair. -/
theorem layersOf_prunedPair
    (count : Nat)
    (hPrevious : layersOf store d = some previous)
    (hCurrent : layersOf store (d + 1) = some current) :
    layersOf (prunedPair store d count previous current) =
      Function.update
        (Function.update (layersOf store) d
          (some (prunePair previous current).1))
        (d + 1) (some (prunePair previous current).2) := by
  rcases ramLayer_of_layersOf hPrevious with ⟨_, -, hDepth⟩
  rcases ramLayer_of_layersOf hCurrent with ⟨_, -, hDepth'⟩
  have hLt := (List.getElem?_eq_some_iff.mp hDepth).1
  have hLt' := (List.getElem?_eq_some_iff.mp hDepth').1
  have hFirst :=
    layersOf_set store (prunePair previous current).1
      (prunePair previous current).1.length hLt store.stats
  refine
    (layersOf_set
      { store with
        depths :=
          store.depths.set d
            (some
              ⟨(prunePair previous current).1.length,
                .ram (prunePair previous current).1⟩)
        stats := store.stats }
      (prunePair previous current).2 count
      (by rw [List.length_set]; exact hLt') _).trans ?_
  rw [hFirst]

/- Reading the store. -/
theorem get_bind_apply
    {α : Type}
    (next : HistoryStore → StoreM α)
    (store : HistoryStore) :
    (get >>= next) store = next store store :=
  rfl

/- A pair that is not complete is passed over. -/
theorem pruneAt_skips
    (hMissing :
      layersOf store d = none ∨ layersOf store (d + 1) = none) :
    pruneAt (d + 1) store = .ok ⟨⟩ store := by
  have hNone :
      ramLayer store d = none ∨ ramLayer store (d + 1) = none :=
    hMissing.imp Option.map_eq_none_iff.mp
      Option.map_eq_none_iff.mp
  rw [pruneAt, get_bind_apply, Nat.add_sub_cancel]
  rcases hNone with hLower | hUpper
  · rw [hLower]
    rfl
  · rw [hUpper]
    cases ramLayer store d <;> rfl

/- A pair whose parents fit is pruned. -/
theorem pruneAt_fits
    (hPrevious : layersOf store d = some previous)
    (hCurrent : layersOf store (d + 1) = some current)
    (hFits :
      ∀ item ∈ current, item.parentIdx < previous.length) :
    ∃ count,
      pruneAt (d + 1) store =
        .ok ⟨⟩ (prunedPair store d count previous current) := by
  rcases ramLayer_of_layersOf hPrevious with ⟨lower, hRam, -⟩
  rcases ramLayer_of_layersOf hCurrent with ⟨count, hRam', -⟩
  refine ⟨count, ?_⟩
  rw [pruneAt, get_bind_apply, Nat.add_sub_cancel, hRam, hRam']
  dsimp only
  rw [pruneLayers_eq hFits]
  rfl

/- A pair whose parents do not fit stops the prune. -/
theorem pruneAt_out_of_range
    (hPrevious : layersOf store d = some previous)
    (hCurrent : layersOf store (d + 1) = some current)
    (hOut :
      ¬ ∀ item ∈ current, item.parentIdx < previous.length) :
    pruneAt (d + 1) store =
      .error
        (.message "history prune parent out of range") store := by
  rcases ramLayer_of_layersOf hPrevious with ⟨lower, hRam, -⟩
  rcases ramLayer_of_layersOf hCurrent with ⟨count, hRam', -⟩
  rw [pruneAt, get_bind_apply, Nat.add_sub_cancel, hRam, hRam']
  dsimp only
  rw [pruneLayers_out_of_range hOut]
  rfl

/- The live entries of the lower layer are those that the kept
entries of the upper one name. -/
theorem live_iff_named
    {i : Nat}
    {above kept : List Entry}
    (hAbove : layers (d + 1) = some above)
    (hKept :
      ∀ e,
        e ∈ kept ↔
          ∃ j, above[j]? = some e ∧ Live layers (d + 1) j) :
    Live layers d i ↔ i ∈ kept.map Linked.parent := by
  rw [List.mem_map]
  constructor
  · intro hLive
    cases hLive with
    | top _ _ hTop =>
        rw [hAbove] at hTop
        cases hTop
    | named _ _ j data e hData hEntry hUpper hParent =>
        rw [hAbove] at hData
        cases hData
        exact ⟨e, (hKept e).mpr ⟨j, hEntry, hUpper⟩, hParent⟩
  · rintro ⟨e, hMember, hParent⟩
    rcases (hKept e).mp hMember with ⟨j, hEntry, hUpper⟩
    exact Live.named d i j above e hAbove hEntry hUpper hParent

/- A missing layer ends the run of pairs. -/
theorem PrunedDown.of_missing
    {n : Nat}
    (hDown : PrunedDown layers (n + 1) store)
    (hTop : layers n = none ∨ layers (n + 1) = none) :
    PrunedDown layers n store := by
  have hSame := hDown.below n (Nat.lt_succ_self n)
  refine
    ⟨fun d hd => hDown.below d (Nat.lt_succ_of_lt hd),
      fun hNone => hSame.trans hNone, fun data hData => ?_⟩
  refine ⟨data, hSame.trans hData, fun e => ?_⟩
  rw [List.mem_iff_getElem?]
  constructor
  · rintro ⟨j, hEntry⟩
    refine ⟨j, hEntry, Live.top n j (hTop.resolve_left ?_)⟩
    rw [hData]
    exact Option.some_ne_none data
  · rintro ⟨j, hEntry, -⟩
    exact ⟨j, hEntry⟩

/- One pair of the run. -/
theorem PrunedDown.pruned
    {n : Nat}
    {below above kept : List Entry}
    (count : Nat)
    (hDown : PrunedDown layers (n + 1) store)
    (hBelow : layers n = some below)
    (hAbove : layers (n + 1) = some above)
    (hLayer : layersOf store (n + 1) = some kept)
    (hKept :
      ∀ e,
        e ∈ kept ↔
          ∃ j, above[j]? = some e ∧ Live layers (n + 1) j) :
    PrunedDown layers n (prunedPair store n count below kept) := by
  have hSame := hDown.below n (Nat.lt_succ_self n)
  have hLayers :=
    layersOf_prunedPair count (hSame.trans hBelow) hLayer
  refine ⟨fun d hd => ?_, fun hNone => ?_, fun data hData => ?_⟩
  · rw [hLayers, Function.update_of_ne (by omega),
      Function.update_of_ne (by omega)]
    exact hDown.below d (Nat.lt_succ_of_lt hd)
  · rw [hBelow] at hNone
    cases hNone
  · rw [hBelow] at hData
    cases hData
    refine ⟨(prunePair below kept).1, ?_, fun e => ?_⟩
    · rw [hLayers, Function.update_of_ne (by omega),
        Function.update_self]
    · rw [prunePair, mem_compact]
      apply exists_congr
      intro i
      rw [decide_eq_true_iff,
        live_iff_named hAbove hKept]

/- A pair is pruned, or its live parents do not fit. -/
theorem PrunedDown.step
    {n : Nat}
    (hDown : PrunedDown layers (n + 1) store) :
    (FitsAt layers n ∧
        ∃ store',
          pruneAt (n + 1) store = .ok ⟨⟩ store' ∧
            PrunedDown layers n store' ∧
            PruneFrame store store') ∨
      ¬ FitsAt layers n ∧
        ∃ error, pruneAt (n + 1) store = .error error store := by
  have hSame := hDown.below n (Nat.lt_succ_self n)
  cases hBelow : layers n with
  | none =>
      refine Or.inl ⟨fun below above hSome => ?_, store, ?_⟩
      · rw [hBelow] at hSome
        cases hSome
      · exact
          ⟨pruneAt_skips (Or.inl (hSame.trans hBelow)),
            hDown.of_missing (Or.inl hBelow),
            PruneFrame.refl store⟩
  | some below =>
      cases hAbove : layers (n + 1) with
      | none =>
          refine Or.inl ⟨fun _ above _ hSome => ?_, store, ?_⟩
          · rw [hAbove] at hSome
            cases hSome
          · exact
              ⟨pruneAt_skips (Or.inr (hDown.missing hAbove)),
                hDown.of_missing (Or.inr hAbove),
                PruneFrame.refl store⟩
      | some above =>
          rcases hDown.own above hAbove with
            ⟨kept, hLayer, hKept⟩
          have hFitsIff :
              FitsAt layers n ↔
                ∀ item ∈ kept,
                  item.parentIdx < below.length := by
            constructor
            · intro hFits item hItem
              rcases (hKept item).mp hItem with
                ⟨j, hEntry, hLive⟩
              exact
                hFits below above hBelow hAbove j item hEntry
                  hLive
            · intro hAll lower upper hLower hUpper j e hEntry
                hLive
              rw [hBelow] at hLower
              rw [hAbove] at hUpper
              cases hLower
              cases hUpper
              exact hAll e ((hKept e).mpr ⟨j, hEntry, hLive⟩)
          by_cases hFits :
              ∀ item ∈ kept, item.parentIdx < below.length
          · rcases pruneAt_fits (hSame.trans hBelow) hLayer hFits
              with ⟨count, hRun⟩
            exact
              Or.inl
                ⟨hFitsIff.mpr hFits, _, hRun,
                  hDown.pruned count hBelow hAbove hLayer hKept,
                  pruneFrame_prunedPair store n count below kept⟩
          · exact
              Or.inr
                ⟨fun hAll => hFits (hFitsIff.mp hAll), _,
                  pruneAt_out_of_range (hSame.trans hBelow)
                    hLayer hFits⟩

/- Pruning runs through exactly when all live parents fit. -/
theorem pruneFrom_live
    (n : Nat)
    (hDown : PrunedDown layers n store) :
    ((∀ d < n, FitsAt layers d) ∧
        ∃ store',
          pruneFrom n store = .ok ⟨⟩ store' ∧
            PruneFrame store store') ∨
      (¬ ∀ d < n, FitsAt layers d) ∧
        ∃ error store',
          pruneFrom n store = .error error store' ∧
            PruneFrame store store' := by
  induction n generalizing store with
  | zero =>
      exact
        Or.inl
          ⟨fun d hd => absurd hd (Nat.not_lt_zero d), store, rfl,
            PruneFrame.refl store⟩
  | succ n ih =>
      rcases hDown.step with
        ⟨hFits, next, hOk, hNext, hFrame⟩ | ⟨hNot, error, hError⟩
      · have hRun :
            pruneFrom (n + 1) store = pruneFrom n next := by
          change EStateM.bind (pruneAt (n + 1)) _ store = _
          rw [EStateM.bind, hOk]
        rw [hRun]
        have hSplit :
            (∀ d < n + 1, FitsAt layers d) ↔
              ∀ d < n, FitsAt layers d := by
          constructor
          · exact fun hAll d hd => hAll d (Nat.lt_succ_of_lt hd)
          · intro hAll d hd
            rcases Nat.lt_succ_iff_lt_or_eq.mp hd with hLt | rfl
            · exact hAll d hLt
            · exact hFits
        rw [hSplit]
        rcases ih hNext with
          ⟨hAll, last, hLast, hRest⟩ |
            ⟨hNot, error, last, hLast, hRest⟩
        · exact Or.inl ⟨hAll, last, hLast, hFrame.trans hRest⟩
        · exact
            Or.inr
              ⟨hNot, error, last, hLast, hFrame.trans hRest⟩
      · have hRun :
            pruneFrom (n + 1) store = .error error store := by
          change EStateM.bind (pruneAt (n + 1)) _ store = _
          rw [EStateM.bind, hError]
        refine Or.inr ⟨fun hAll => ?_, error, store, hRun,
          PruneFrame.refl store⟩
        exact hNot (hAll n (Nat.lt_succ_self n))

/- Beyond the depths there is no layer. -/
theorem layersOf_eq_none
    (hd : store.depths.length ≤ d) :
    layersOf store d = none := by
  rw [layersOf, ramLayer, List.getElem?_eq_none hd]
  rfl

/- A prune succeeds exactly where all parents fit. -/
theorem prune_live (store : HistoryStore) :
    (ParentsFit (layersOf store) ∧
        ∃ store',
          prune store = .ok ⟨⟩ store' ∧
            PruneFrame store store') ∨
      ¬ ParentsFit (layersOf store) ∧
        ∃ error store',
          prune store = .error error store' ∧
            PruneFrame store store' := by
  have hTop :
      ∀ d, store.depths.length - 1 ≤ d →
        layersOf store (d + 1) = none :=
    fun d hd => layersOf_eq_none (by omega)
  have hStart :
      PrunedDown (layersOf store) (store.depths.length - 1)
        store := by
    refine ⟨fun d _ => rfl, id, fun data hData => ?_⟩
    refine ⟨data, hData, fun e => ?_⟩
    rw [List.mem_iff_getElem?]
    apply exists_congr
    intro j
    exact
      (and_iff_left
        (Live.top _ j (hTop _ (Nat.le_refl _)))).symm
  have hBelow :
      (∀ d < store.depths.length - 1,
          FitsAt (layersOf store) d) ↔
        ParentsFit (layersOf store) := by
    constructor
    · intro hAll d
      by_cases hd : d < store.depths.length - 1
      · exact hAll d hd
      · intro below above _ hAbove
        rw [hTop d (by omega)] at hAbove
        cases hAbove
    · exact fun hAll d _ => hAll d
  rw [← hBelow]
  exact pruneFrom_live (store.depths.length - 1) hStart

----------------
-- Storing And Recording
----------------

/- What storing a batch leaves of the rest of the store. -/
structure StoreFrame
    (depth : Nat)
    (store store' : HistoryStore) : Prop where
  config : store'.config = store.config
  stats : store'.stats = store.stats
  depths : store'.depths = store.depths
  files : ∀ d, d ≠ depth → store'.files d = store.files d

/- Nothing was stored. -/
theorem StoreFrame.refl
    (depth : Nat)
    (store : HistoryStore) :
    StoreFrame depth store store :=
  ⟨rfl, rfl, rfl, fun _ _ => rfl⟩

/- The fallback writes behind what is there. -/
theorem storeFallback_frame
    (depth : Nat)
    (plan : Plan)
    (batch : List CandidateMeta)
    (diskError : StoreError)
    (store : HistoryStore) :
    Triple (fun s => s = store)
      (storeFallback plan batch diskError)
      (fun storage s =>
        StoreFrame depth store s ∧ storage.inRam = true)
      (fun _ s => StoreFrame depth store s) := by
  apply Triple.update_bind
  cases plan.reserveFallback batch.length with
  | error error =>
      apply Triple.stop
      rintro s rfl
      exact ⟨rfl, rfl, rfl, fun _ _ => rfl⟩
  | ok reserved =>
      rcases reserved with ⟨offset, next⟩
      dsimp only
      apply Triple.update_bind
      apply Triple.seq ((writeRam_spec _ _ _).stop_mono ?_)
      · intro _
        apply Triple.value
        rintro s rfl
        exact ⟨⟨rfl, rfl, rfl, fun _ _ => rfl⟩, rfl⟩
      · rintro _ s rfl
        exact ⟨rfl, rfl, rfl, fun _ _ => rfl⟩

/- The hybrid mode writes to the reserved place. -/
theorem storeStaticHybrid_frame
    (depth : Nat)
    (batch : List CandidateMeta)
    (io : IoOutcome)
    (store : HistoryStore) :
    Triple (fun s => s = store)
      (storeStaticHybrid depth batch io)
      (fun storage s =>
        StoreFrame depth store s ∧
          ∀ path, storage ≠ .disk path)
      (fun _ s => StoreFrame depth store s) := by
  have hRefl := StoreFrame.refl depth store
  apply Triple.read
  rintro s rfl
  cases s.plan with
  | none => exact Triple.stop fun t ht => ht ▸ hRefl
  | some plan =>
      apply Triple.seq
        ((orThrow_spec s _).stop_mono fun _ t ht => ht ▸ hRefl)
      rintro ⟨bound, offset, location⟩
      apply Triple.pre _ (fun _ ht => ht.2)
      cases location with
      | ram =>
          apply Triple.seq
            ((writeRam_spec s offset batch).stop_mono
              fun _ t ht => ht ▸ hRefl)
          intro _
          apply Triple.value
          rintro t rfl
          exact
            ⟨⟨rfl, rfl, rfl, fun _ _ => rfl⟩,
              fun path hSame => nomatch hSame⟩
      | disk =>
          dsimp only
          cases s.diskFailed with
          | true =>
              refine
                (storeFallback_frame depth plan batch _ s).post ?_
              rintro storage t ⟨hFrame, hInRam⟩
              refine ⟨hFrame, ?_⟩
              rintro path rfl
              cases hInRam
          | false =>
              cases s.disk with
              | none => exact Triple.stop fun t ht => ht ▸ hRefl
              | some file =>
                  apply Triple.update_bind
                  cases (writeFile s.stagingBytes file offset
                      batch io).1 with
                  | ok _ =>
                      apply Triple.value
                      rintro t rfl
                      exact
                        ⟨⟨rfl, rfl, rfl, fun _ _ => rfl⟩,
                          fun path hSame => nomatch hSame⟩
                  | error error =>
                      refine
                        (storeFallback_frame depth plan batch
                          error _).conseq (fun _ ht => ht) ?_ ?_
                      · rintro storage t ⟨hFrame, hInRam⟩
                        refine
                          ⟨⟨hFrame.config, hFrame.stats,
                            hFrame.depths, hFrame.files⟩, ?_⟩
                        rintro path rfl
                        cases hInRam
                      · rintro _ t hFrame
                        exact
                          ⟨hFrame.config, hFrame.stats,
                            hFrame.depths, hFrame.files⟩

/- The disk mode writes its own file. -/
theorem storeDisk_spec
    (depth : Nat)
    (batch : List CandidateMeta)
    (io : IoOutcome)
    (store : HistoryStore) :
    Triple (fun s => s = store) (storeDisk depth batch io)
      (fun storage s =>
        (∃ file,
            s =
              { store with
                files :=
                  Function.update store.files depth file }) ∧
          storage = .disk depth)
      (fun _ s =>
        ∃ file,
          s =
            { store with
              files :=
                Function.update store.files depth file }) := by
  apply Triple.read
  rintro s rfl
  apply Triple.update_bind
  apply Triple.seq
    ((orThrow_spec _ _).stop_mono fun _ t ht => ⟨_, ht⟩)
  intro _
  apply Triple.value
  rintro t ⟨-, rfl⟩
  exact ⟨⟨_, rfl⟩, rfl⟩

/- Memory is not touched before the layer is recorded, and a
layer of its own file touches no other file. -/
structure BatchFrame
    (depth : Nat)
    (store store' : HistoryStore) : Prop extends
    StoreFrame depth store store' where
  ram : store.config.mode = .ram → store' = store
  disk :
    store.config.mode = .disk →
    ∃ files, store' = { store with files := files }

/- A file of its own touches no layer. -/
theorem BatchFrame.of_file
    (hMode : store.config.mode = .disk)
    (file : File) :
    BatchFrame depth store
      { store with
        files := Function.update store.files depth file } where
  config := rfl
  stats := rfl
  depths := rfl
  files _ hd := Function.update_of_ne hd _ _
  ram hRam := by
    rw [hMode] at hRam
    cases hRam
  disk _ := ⟨_, rfl⟩

/- An arena's free part touches no layer. -/
theorem BatchFrame.of_arenas
    (hMode : store.config.mode = .staticHybrid)
    (hFrame : StoreFrame depth store store') :
    BatchFrame depth store store' where
  toStoreFrame := hFrame
  ram hRam := by
    rw [hMode] at hRam
    cases hRam
  disk hDisk := by
    rw [hMode] at hDisk
    cases hDisk

/- Where a batch was stored. -/
structure BatchStored
    (depth : Nat)
    (batch : List CandidateMeta)
    (store : HistoryStore)
    (storage : Storage) : Prop where
  path : ∀ path, storage = .disk path → path = depth
  ram :
    store.config.mode = .ram → storage = .ram (batch.map entry)

/- Every mode stores apart from the layers that are there. -/
theorem storeBatch_frame
    (depth : Nat)
    (batch : List CandidateMeta)
    (io : IoOutcome)
    (store : HistoryStore) :
    Triple (fun s => s = store)
      (storeBatch store.config.mode depth batch io)
      (fun storage s =>
        BatchFrame depth store s ∧
          BatchStored depth batch store storage)
      (fun _ s =>
        store.config.mode ≠ .ram ∧
          BatchFrame depth store s) := by
  cases hMode : store.config.mode with
  | ram =>
      apply Triple.value
      rintro s rfl
      exact
        ⟨⟨StoreFrame.refl depth s, fun _ => rfl,
            fun _ => ⟨_, rfl⟩⟩,
          (fun path hSame => nomatch hSame), fun _ => rfl⟩
  | disk =>
      refine
        (storeDisk_spec depth batch io store).conseq
          (fun _ hs => hs) ?_ ?_
      · rintro storage s ⟨⟨file, rfl⟩, rfl⟩
        refine
          ⟨BatchFrame.of_file hMode file,
            fun path hSame => by cases hSame; rfl,
            fun hRam => ?_⟩
        rw [hMode] at hRam
        cases hRam
      · rintro _ s ⟨file, rfl⟩
        exact
          ⟨(fun hRam => nomatch hRam),
            BatchFrame.of_file hMode file⟩
  | staticHybrid =>
      refine
        (storeStaticHybrid_frame depth batch io store).conseq
          (fun _ hs => hs) ?_ ?_
      · rintro storage s ⟨hFrame, hNot⟩
        refine
          ⟨BatchFrame.of_arenas hMode hFrame,
            fun path hSame => absurd hSame (hNot path),
            fun hRam => ?_⟩
        rw [hMode] at hRam
        cases hRam
      · intro _ s hFrame
        exact
          ⟨(fun hRam => nomatch hRam),
            BatchFrame.of_arenas hMode hFrame⟩

/- The record of a layer, or nothing at all: the stored bytes
are at most half of the received ones. -/
theorem record_cases
    {count : Nat}
    (depth : Nat)
    (storage : Storage)
    (hStats :
      2 * store.stats.bytesStored ≤ store.stats.bytesReceived)
    (hCount : count < 2 ^ 32) :
    (2 ^ 64 ≤ store.stats.bytesReceived + count * 32 ∧
        ∃ error,
          record depth count storage store =
            .error error store) ∨
      store.stats.bytesReceived + count * 32 < 2 ^ 64 ∧
        ∃ stats : Stats,
          2 * stats.bytesStored ≤ stats.bytesReceived ∧
          record depth count storage store =
            .ok ⟨⟩
              { store with
                stats := stats
                depths :=
                  store.depths.set depth
                    (some ⟨count, storage⟩) } := by
  have hStored : mul count 16 = .ok (count * 16) :=
    mul_of_fits (by omega)
  have hCandidates : mul count 32 = .ok (count * 32) :=
    mul_of_fits (by omega)
  have hRun :
      record depth count storage store =
        (do
          let received ←
            orThrow
              (addBytes store.stats.bytesReceived (count * 32)
                "history received bytes")
          modify fun s =>
            { s with
              stats := { s.stats with bytesReceived := received } }
          let total ←
            orThrow
              (addBytes store.stats.bytesStored (count * 16)
                "history stored bytes")
          modify fun s =>
            { s with
              stats :=
                if storage.inRam then
                  { s.stats with
                    bytesStored := total
                    bytesStoredRam :=
                      s.stats.bytesStoredRam + count * 16 }
                else
                  { s.stats with
                    bytesStored := total
                    bytesStoredDisk :=
                      s.stats.bytesStoredDisk + count * 16 }
              depths :=
                s.depths.set depth (some ⟨count, storage⟩) } :
          StoreM PUnit) store := by
    rw [record, hStored, hCandidates]
    rfl
  rw [hRun]
  by_cases hFits :
      store.stats.bytesReceived + count * 32 < 2 ^ 64
  · refine Or.inr ⟨hFits, ?_⟩
    have hReceived :
        addBytes store.stats.bytesReceived (count * 32)
            "history received bytes" =
          .ok (store.stats.bytesReceived + count * 32) := by
      rw [addBytes, checkedAdd, if_pos hFits]
    have hTotal :
        addBytes store.stats.bytesStored (count * 16)
            "history stored bytes" =
          .ok (store.stats.bytesStored + count * 16) := by
      rw [addBytes, checkedAdd, if_pos (by omega)]
    rw [hReceived, hTotal]
    refine ⟨_, ?_, rfl⟩
    dsimp only
    split_ifs
    · dsimp only
      omega
    · dsimp only
      omega
  · refine Or.inl
      ⟨Nat.not_lt.mp hFits,
        .contract (.overflow "history received bytes"), ?_⟩
    rw [addBytes, checkedAdd, if_neg hFits]
    rfl

----------------
-- Sound Stores
----------------

/- Every materialized layer of the arenas was written. -/
def ArenaSound (store : HistoryStore) : Prop :=
  ∃ layout written,
    Stored layout written store ∧
      ∀ d, Materialized store d →
        ∃ call ∈ written, call.depth = d

/- What holds of a store after any calls. -/
structure Sound (store : HistoryStore) : Prop where
  stats :
    2 * store.stats.bytesStored ≤ store.stats.bytesReceived
  files :
    ∀ (d count path : Nat),
      store.depths[d]? = some (some ⟨count, .disk path⟩) →
      path = d
  arenas :
    store.config.mode = .staticHybrid → ArenaSound store

/- How a call ends: refused at once, while the batch is stored
or recorded, or with the layer recorded and perhaps pruned. -/
inductive WriteOf
    (depth : Nat)
    (batch : List CandidateMeta)
    (store : HistoryStore) :
    EStateM.Result StoreError HistoryStore PUnit → Prop where
  | refused
      (error : StoreError)
      (hRefused :
        store.depths[depth]? ≠ some none ∨
          store.config.capacity.toNat < batch.length) :
      WriteOf depth batch store (.error error store)
  | failed
      (error : StoreError)
      (last : HistoryStore)
      (hFree : store.depths[depth]? = some none)
      (hFrame : BatchFrame depth store last)
      (hRam :
        store.config.mode = .ram →
        2 ^ 64 ≤
          store.stats.bytesReceived + batch.length * 32) :
      WriteOf depth batch store (.error error last)
  | recorded
      (stored : HistoryStore)
      (storage : Storage)
      (stats : Stats)
      (hFree : store.depths[depth]? = some none)
      (hCapacity :
        batch.length ≤ store.config.capacity.toNat)
      (hReceived :
        store.stats.bytesReceived + batch.length * 32 < 2 ^ 64)
      (hFrame : BatchFrame depth store stored)
      (hStored : BatchStored depth batch store storage)
      (hStats : 2 * stats.bytesStored ≤ stats.bytesReceived) :
      WriteOf depth batch store
        ((if store.config.mode = .ram ∧ store.config.prune then
            prune
          else pure ⟨⟩ : StoreM PUnit)
          { stored with
            stats := stats
            depths :=
              stored.depths.set depth
                (some ⟨batch.length, storage⟩) })

/- The cases of a write, one for each place it may stop at. -/
theorem write_cases
    (depth : Nat)
    (batch : List CandidateMeta)
    (io : IoOutcome)
    (hStats :
      2 * store.stats.bytesStored ≤ store.stats.bytesReceived) :
    WriteOf depth batch store (write depth batch io store) := by
  rw [write, get_bind_apply]
  cases hDepth : store.depths[depth]? with
  | none =>
      refine WriteOf.refused _ (Or.inl ?_)
      rw [hDepth]
      exact fun hSame => nomatch hSame
  | some slot =>
      cases slot with
      | some taken =>
          refine WriteOf.refused _ (Or.inl ?_)
          rw [hDepth]
          exact fun hSame => nomatch hSame
      | none =>
          dsimp only
          by_cases hCapacity :
              batch.length ≤ store.config.capacity.toNat
          · have hRoom :
                requireCapacity "history batch" batch.length
                    store.config.capacity.toNat =
                  .ok () :=
              requireCapacity_eq_ok_iff.mpr hCapacity
            rw [hRoom]
            change
              WriteOf depth batch store
                (EStateM.bind
                  (storeBatch store.config.mode depth batch io)
                  _ store)
            have hBatch :=
              storeBatch_frame depth batch io store store rfl
            rw [EStateM.bind]
            cases hStore :
                storeBatch store.config.mode depth batch io store
              with
            | error error last =>
                rw [hStore] at hBatch
                exact
                  WriteOf.failed error last hDepth hBatch.2
                    fun hRam => absurd hRam hBatch.1
            | ok storage stored =>
                rw [hStore] at hBatch
                rcases hBatch with ⟨hFrame, hStored⟩
                change
                  WriteOf depth batch store
                    (EStateM.bind
                      (record depth batch.length storage) _
                      stored)
                have hCount : batch.length < 2 ^ 32 :=
                  hCapacity.trans_lt
                    store.config.capacity.toNat_lt
                rw [EStateM.bind]
                rcases record_cases depth storage
                    (hFrame.stats.symm ▸ hStats) hCount with
                  ⟨hFull, error, hRun⟩ |
                    ⟨hReceived, stats, hHalf, hRun⟩
                · rw [hRun]
                  rw [hFrame.stats] at hFull
                  exact
                    WriteOf.failed error stored hDepth hFrame
                      fun _ => hFull
                · rw [hRun]
                  rw [hFrame.stats] at hReceived
                  exact
                    WriteOf.recorded stored storage stats hDepth
                      hCapacity hReceived hFrame hStored hHalf
          · have hFull :
                requireCapacity "history batch" batch.length
                    store.config.capacity.toNat =
                  .error
                    (.capacity "history batch" batch.length
                      store.config.capacity.toNat) :=
              if_pos (Nat.not_le.mp hCapacity)
            rw [hFull]
            exact
              WriteOf.refused _ (Or.inr (Nat.not_le.mp hCapacity))

/- A read of a layer that is there. -/
theorem read_of_depth
    {count : Nat}
    {storage : Storage}
    (hDepth : store.depths[d]? = some (some ⟨count, storage⟩))
    (i : Nat) :
    read store d i =
      if i ≥ count then
        .error
          (.message
            ("history index out of range: index=" ++
              toString i ++ " count=" ++ toString count))
      else readStorage store storage i := by
  rw [read, History.count, hDepth]
  rfl

/- The count of a layer. -/
theorem count_eq_of_depths
    (hDepths : store'.depths = store.depths)
    (d : Nat) :
    History.count store' d = History.count store d := by
  rw [History.count, History.count, hDepths]

/- The reads agree when those of materialized layers do. -/
theorem read_congr
    (hDepths : store'.depths = store.depths)
    (hStorage :
      ∀ (d count : Nat) (storage : Storage) (i : Nat),
        store.depths[d]? = some (some ⟨count, storage⟩) →
        i < count →
        readStorage store' storage i =
          readStorage store storage i)
    (d i : Nat) :
    read store' d i = read store d i := by
  cases hDepth : store.depths[d]? with
  | none =>
      rw [read, read, count_eq_of_depths hDepths d,
        History.count, hDepth]
      rfl
  | some slot =>
      cases slot with
      | none =>
          rw [read, read, count_eq_of_depths hDepths d,
            History.count, hDepth]
          rfl
      | some record =>
          rcases record with ⟨count, storage⟩
          have hDepth' :
              store'.depths[d]? = some (some ⟨count, storage⟩) :=
            hDepths ▸ hDepth
          rw [read_of_depth hDepth, read_of_depth hDepth']
          split_ifs with hOut
          · rfl
          · exact
              hStorage d count storage i hDepth
                (Nat.not_le.mp hOut)

/- Files of other depths are not read for a layer. -/
theorem read_of_files
    {files : Nat → File}
    (hSound : Sound store)
    (hFree : store.depths[depth]? = some none)
    (hFiles : ∀ d, d ≠ depth → files d = store.files d)
    (d i : Nat) :
    read { store with files := files } d i = read store d i := by
  have hDepths :
      ({ store with files := files } : HistoryStore).depths =
        store.depths :=
    rfl
  refine read_congr hDepths ?_ d i
  intro e count storage j hDepth _
  cases storage with
  | ram data => rfl
  | arenaRam offset => rfl
  | arenaDisk offset => rfl
  | disk path =>
      have hPath := hSound.files e count path hDepth
      have hNe : path ≠ depth := by
        rintro rfl
        rw [← hPath, hFree] at hDepth
        cases hDepth
      change readFile (files path) j = readFile (store.files path) j
      rw [hFiles path hNe]

/- Both stores still hold what was written. -/
theorem read_of_stored
    {layout : Plan}
    {written : List WriteCall}
    (hStored : Stored layout written store)
    (hStored' : Stored layout written store')
    (hDepths : store'.depths = store.depths)
    (hWritten :
      ∀ d, Materialized store d →
        ∃ call ∈ written, call.depth = d)
    (d i : Nat) :
    read store' d i = read store d i := by
  refine read_congr hDepths ?_ d i
  intro e count storage j hDepth hj
  rcases hWritten e ⟨_, hDepth⟩ with ⟨call, hCall, rfl⟩
  rcases hStored.layers call hCall with ⟨kept, hKept, -⟩
  rw [hDepth] at hKept
  cases hKept
  have hRead := hStored.read_eq hCall hj
  have hRead' := hStored'.read_eq hCall hj
  have hDepth' := hDepths ▸ hDepth
  rw [read_of_depth hDepth, if_neg (Nat.not_le.mpr hj)] at hRead
  rw [read_of_depth hDepth', if_neg (Nat.not_le.mpr hj)]
    at hRead'
  exact hRead'.trans hRead.symm

----------------
-- Rejected Writes
----------------

/- Nothing to see of the call, and its depth is as free as it
was. -/
structure Unchanged
    (depth : Nat)
    (store store' : HistoryStore) : Prop where
  count :
    ∀ d,
      (History.count store' d).map Depth.count =
        (History.count store d).map Depth.count
  read : ∀ d i, History.read store' d i = History.read store d i
  stats : store'.stats = store.stats
  slot : store'.depths[depth]? = store.depths[depth]?

/- A write that is refused changes nothing that can be read. -/
def RejectedUnchanged
    (store : HistoryStore)
    (depth : Nat)
    (batch : List CandidateMeta)
    (io : IoOutcome) : Prop :=
  ∀ error store',
    write depth batch io store = .error error store' →
    Unchanged depth store store'

/- The checks before the record of a layer in memory. -/
structure Accepted
    (store : HistoryStore)
    (depth : Nat)
    (batch : List CandidateMeta) : Prop where
  free : store.depths[depth]? = some none
  capacity : batch.length ≤ store.config.capacity.toNat
  received :
    store.stats.bytesReceived + batch.length * 32 < 2 ^ 64

/- When the batch gets in and the store prunes, the parents of
all live entries are in range. -/
def PruneFits
    (store : HistoryStore)
    (depth : Nat)
    (batch : List CandidateMeta) : Prop :=
  store.config.mode = .ram →
    store.config.prune = true →
    Accepted store depth batch →
    ParentsFit
      (Function.update (layersOf store) depth
        (some (batch.map entry)))

/- Nothing changed. -/
theorem Unchanged.refl
    (depth : Nat)
    (store : HistoryStore) :
    Unchanged depth store store :=
  ⟨fun _ => rfl, fun _ _ => rfl, rfl, rfl⟩

/- Nothing of a batch that was not recorded is seen. -/
theorem Sound.unchanged_of_frame
    {batch : List CandidateMeta}
    {io : IoOutcome}
    {last : HistoryStore}
    {error : StoreError}
    (hSound : Sound store)
    (hFree : store.depths[depth]? = some none)
    (hFrame : BatchFrame depth store last)
    (hWrite : write depth batch io store = .error error last) :
    Unchanged depth store last := by
  refine
    { count := fun d => by
        rw [count_eq_of_depths hFrame.depths d]
      read := ?_
      stats := hFrame.stats
      slot := by rw [hFrame.depths] }
  cases hMode : store.config.mode with
  | ram =>
      rw [hFrame.ram hMode]
      exact fun _ _ => rfl
  | disk =>
      rcases hFrame.disk hMode with ⟨files, hLast⟩
      have hFiles := hFrame.files
      rw [hLast] at hFiles ⊢
      exact read_of_files hSound hFree hFiles
  | staticHybrid =>
      rcases hSound.arenas hMode with
        ⟨layout, written, hStored, hWritten⟩
      have hRun :=
        write_spec ⟨depth, batch, io⟩ hStored store rfl
      rw [hWrite] at hRun
      exact
        read_of_stored hStored hRun hFrame.depths hWritten

/- The layers after one more. -/
theorem layersOf_recorded
    (stats : Stats)
    (batch : List CandidateMeta)
    (hFree : store.depths[depth]? = some none) :
    layersOf
        { store with
          stats := stats
          depths :=
            store.depths.set depth
              (some ⟨batch.length, .ram (batch.map entry)⟩) } =
      Function.update (layersOf store) depth
        (some (batch.map entry)) := by
  have hLt := (List.getElem?_eq_some_iff.mp hFree).1
  exact layersOf_set store (batch.map entry) batch.length hLt stats

/- A rejected write is not seen exactly when pruning, if it
comes to that, finds the live parents in range. -/
theorem Sound.rejected_iff
    (hSound : Sound store)
    (depth : Nat)
    (batch : List CandidateMeta)
    (io : IoOutcome) :
    RejectedUnchanged store depth batch io ↔
      PruneFits store depth batch := by
  have hCases := write_cases depth batch io hSound.stats
  constructor
  · intro hUnchanged hMode hPrune hAccepted
    by_contra hNot
    generalize hRun : write depth batch io store = result
      at hCases
    cases hCases with
    | refused error hRefused =>
        rcases hRefused with hTaken | hLarge
        · exact hTaken hAccepted.free
        · exact absurd hAccepted.capacity (Nat.not_le.mpr hLarge)
    | failed error last hFree hFrame hFull =>
        exact
          absurd hAccepted.received
            (Nat.not_lt.mpr (hFull hMode))
    | recorded stored storage stats hFree hCapacity hReceived
        hFrame hStored hStats =>
        rw [if_pos ⟨hMode, hPrune⟩, hFrame.ram hMode,
          hStored.ram hMode] at hRun
        rcases prune_live
            { store with
              stats := stats
              depths :=
                store.depths.set depth
                  (some
                    ⟨batch.length, .ram (batch.map entry)⟩) }
          with
          ⟨hFits, -⟩ | ⟨-, error, last, hPruned, hPruneFrame⟩
        · rw [layersOf_recorded stats batch hFree] at hFits
          exact hNot hFits
        · rw [hPruned] at hRun
          have hSlot := (hUnchanged error last hRun).slot
          have hLt := (List.getElem?_eq_some_iff.mp hFree).1
          rcases hPruneFrame.materialized depth
              ⟨_, List.getElem?_set_self hLt⟩ with
            ⟨record, hRecord⟩
          rw [hRecord, hFree] at hSlot
          cases hSlot
  · intro hFits error last hRun
    have hError := hRun
    rw [hRun] at hCases
    generalize hResult :
      (EStateM.Result.error error last :
        EStateM.Result StoreError HistoryStore PUnit) = result
      at hCases
    cases hCases with
    | refused other hRefused =>
        cases hResult
        exact Unchanged.refl depth store
    | failed other left hFree hFrame hFull =>
        cases hResult
        exact hSound.unchanged_of_frame hFree hFrame hError
    | recorded stored storage stats hFree hCapacity hReceived
        hFrame hStored hStats =>
        split_ifs at hResult with hPrunes
        · rw [hFrame.ram hPrunes.1, hStored.ram hPrunes.1]
            at hResult
          have hParents :=
            hFits hPrunes.1 hPrunes.2
              ⟨hFree, hCapacity, hReceived⟩
          rw [← layersOf_recorded stats batch hFree] at hParents
          rcases prune_live
              { store with
                stats := stats
                depths :=
                  store.depths.set depth
                    (some
                      ⟨batch.length, .ram (batch.map entry)⟩) }
            with
            ⟨-, pruned, hPruned, -⟩ | ⟨hNot, -⟩
          · rw [hPruned] at hResult
            cases hResult
          · exact absurd hParents hNot
        · cases hResult

----------------
-- Reachable Stores
----------------

/- A prune keeps the store sound. -/
theorem Sound.prune
    (hSound : Sound store)
    (hMode : store.config.mode = .ram)
    (hFrame : PruneFrame store store') :
    Sound store' where
  stats := hFrame.stats hSound.stats
  files d count path hDisk :=
    hSound.files d count path (hFrame.files d count path hDisk)
  arenas hStatic := by
    rw [hFrame.config, hMode] at hStatic
    cases hStatic

/- The record of a layer keeps the store sound; what it says of
the arenas comes from the write as a whole. -/
theorem Sound.recorded
    {count : Nat}
    {stored : HistoryStore}
    {storage : Storage}
    {stats : Stats}
    (hSound : Sound store)
    (hFrame : StoreFrame depth store stored)
    (hPath : ∀ path, storage = .disk path → path = depth)
    (hStats : 2 * stats.bytesStored ≤ stats.bytesReceived)
    (hArenas :
      store.config.mode = .staticHybrid →
      ArenaSound
        { stored with
          stats := stats
          depths :=
            stored.depths.set depth (some ⟨count, storage⟩) }) :
    Sound
      { stored with
        stats := stats
        depths :=
          stored.depths.set depth (some ⟨count, storage⟩) } where
  stats := hStats
  files d total path hDisk := by
    dsimp only at hDisk
    rw [hFrame.depths, List.getElem?_set] at hDisk
    split_ifs at hDisk with hSame
    · cases hDisk
      rw [hPath path rfl, hSame]
    · exact hSound.files d total path hDisk
  arenas hStatic := hArenas (hFrame.config ▸ hStatic)

/- A stored depth is the new one or an old one. -/
theorem materialized_of_set
    {depths : List (Option Depth)}
    {record : Depth}
    (hThere :
      ∃ kept : Depth,
        (depths.set depth (some record))[d]? =
          some (some kept)) :
    depth = d ∨ ∃ kept : Depth, depths[d]? = some (some kept) := by
  rcases hThere with ⟨kept, hKept⟩
  by_cases hSame : depth = d
  · exact Or.inl hSame
  · rw [List.getElem?_set_ne hSame] at hKept
    exact Or.inr ⟨kept, hKept⟩

/- Any call leaves a sound store, whatever it returns. -/
theorem Sound.write
    (hSound : Sound store)
    (call : WriteCall) :
    match write call.depth call.batch call.io store with
    | .ok _ last => Sound last
    | .error _ last => Sound last := by
  have hCases :=
    write_cases call.depth call.batch call.io hSound.stats
  have hSpec :
      ∀ (layout : Plan) (written : List WriteCall),
        Stored layout written store →
        match History.write call.depth call.batch call.io store
        with
        | .ok _ last => Stored layout (written ++ [call]) last
        | .error _ last => Stored layout written last := by
    intro layout written hStored
    have hRun := write_spec call hStored store rfl
    cases hResult :
        History.write call.depth call.batch call.io store with
    | ok _ last =>
        rw [hResult] at hRun
        exact hRun
    | error _ last =>
        rw [hResult] at hRun
        exact hRun
  generalize
    History.write call.depth call.batch call.io store = result
    at hCases hSpec
  cases hCases with
  | refused error hRefused => exact hSound
  | failed error last hFree hFrame hFull =>
      refine
        { stats := by
            rw [hFrame.stats]
            exact hSound.stats
          files := by
            rw [hFrame.depths]
            exact hSound.files
          arenas := fun hStatic => ?_ }
      rcases hSound.arenas (hFrame.config ▸ hStatic) with
        ⟨layout, written, hStored, hWritten⟩
      refine ⟨layout, written, hSpec layout written hStored, ?_⟩
      rintro d ⟨record, hRecord⟩
      exact hWritten d ⟨record, hFrame.depths ▸ hRecord⟩
  | recorded stored storage stats hFree hCapacity hReceived
      hFrame hStored hStats =>
      by_cases hPrunes :
          store.config.mode = .ram ∧ store.config.prune = true
      · rw [if_pos hPrunes]
        have hRecorded :
            Sound
              { stored with
                stats := stats
                depths :=
                  stored.depths.set call.depth
                    (some ⟨call.batch.length, storage⟩) } := by
          apply hSound.recorded hFrame.toStoreFrame hStored.path
            hStats
          intro hStatic
          rw [hPrunes.1] at hStatic
          cases hStatic
        have hMode : stored.config.mode = .ram := by
          rw [hFrame.config]
          exact hPrunes.1
        rcases prune_live
            { stored with
              stats := stats
              depths :=
                stored.depths.set call.depth
                  (some ⟨call.batch.length, storage⟩) } with
          ⟨-, last, hRun, hPruned⟩ | ⟨-, error, last, hRun, hPruned⟩
        · rw [hRun]
          exact hRecorded.prune hMode hPruned
        · rw [hRun]
          exact hRecorded.prune hMode hPruned
      · rw [if_neg hPrunes] at hSpec ⊢
        apply hSound.recorded hFrame.toStoreFrame hStored.path
          hStats
        intro hStatic
        rcases hSound.arenas hStatic with
          ⟨layout, written, hOld, hWritten⟩
        refine
          ⟨layout, written ++ [call],
            hSpec layout written hOld, ?_⟩
        intro d hThere
        rcases materialized_of_set hThere with rfl | hOldThere
        · exact
            ⟨call, List.mem_append_right _ List.mem_cons_self, rfl⟩
        · rw [hFrame.depths] at hOldThere
          rcases hWritten d hOldThere with ⟨other, hOther, hSame⟩
          exact ⟨other, List.mem_append_left _ hOther, hSame⟩

/- A run keeps the store sound. -/
theorem Sound.runWrites
    (hSound : Sound store)
    (calls : List WriteCall) :
    Sound (History.runWrites calls store).2 := by
  induction calls generalizing store with
  | nil => exact hSound
  | cons call calls ih =>
      have hNext := hSound.write call
      rw [History.runWrites]
      cases hRun :
          History.write call.depth call.batch call.io store with
      | ok _ last =>
          rw [hRun] at hNext
          exact ih hNext
      | error error last =>
          rw [hRun] at hNext
          exact ih hNext

/- A new store holds no layer. -/
structure Fresh
    (config : HistoryConfig)
    (store : HistoryStore) : Prop where
  config : store.config = config
  stored : store.stats.bytesStored = 0
  depths : ∀ d, ¬ Materialized store d

/- The first store is fresh. -/
theorem fresh_empty
    (config : HistoryConfig)
    (pinned staging : Nat) :
    Fresh config (emptyStore config pinned staging) where
  config := rfl
  stored := rfl
  depths d hThere := by
    rcases hThere with ⟨record, hRecord⟩
    rw [emptyStore, List.getElem?_replicate] at hRecord
    split_ifs at hRecord
    cases hRecord

/- So is one with arenas. -/
theorem fresh_withArenas
    {pinned staging : Nat}
    (hFresh : Fresh config store)
    (hNew : withArenas store pinned staging = .ok store') :
    Fresh config store' := by
  rw [withArenas] at hNew
  rcases except_bind_eq_ok hNew with ⟨overhead, -, hNew⟩
  rcases except_bind_eq_ok hNew with ⟨_, -, hNew⟩
  rcases except_bind_eq_ok hNew with ⟨layout, -, hNew⟩
  rcases except_bind_eq_ok hNew with ⟨estimated, -, hNew⟩
  rcases except_bind_eq_ok hNew with ⟨_, -, hNew⟩
  rcases except_bind_eq_ok hNew with ⟨ramArena, -, hNew⟩
  rcases except_bind_eq_ok hNew with ⟨diskArena, -, hNew⟩
  cases hNew
  exact ⟨hFresh.config, hFresh.stored, hFresh.depths⟩

theorem fresh_new
    (hNew : HistoryStore.new config = .ok store) :
    Fresh config store := by
  rw [HistoryStore.new] at hNew
  split_ifs at hNew with hZero hMode
  · rcases except_bind_eq_ok hNew with ⟨pinnedSlots, -, hNew⟩
    rcases except_bind_eq_ok hNew with ⟨pinned, -, hNew⟩
    rcases except_bind_eq_ok hNew with ⟨stagingSlots, -, hNew⟩
    rcases except_bind_eq_ok hNew with ⟨staging, -, hNew⟩
    exact fresh_withArenas (fresh_empty config pinned staging) hNew
  · rcases except_bind_eq_ok hNew with ⟨pinnedSlots, -, hNew⟩
    rcases except_bind_eq_ok hNew with ⟨pinned, -, hNew⟩
    rcases except_bind_eq_ok hNew with ⟨stagingSlots, -, hNew⟩
    rcases except_bind_eq_ok hNew with ⟨staging, -, hNew⟩
    cases hNew
    exact fresh_empty config pinned staging

theorem sound_new
    (hNew : HistoryStore.new config = .ok store) :
    Sound store := by
  have hFresh := fresh_new hNew
  refine
    { stats := by
        rw [hFresh.stored]
        exact Nat.zero_le _
      files := fun d count path hDisk =>
        absurd ⟨_, hDisk⟩ (hFresh.depths d)
      arenas := fun hStatic => ?_ }
  rw [hFresh.config] at hStatic
  rcases new_stored hStatic hNew with ⟨layout, hStored⟩
  exact
    ⟨layout, [], hStored, fun d hThere =>
      absurd hThere (hFresh.depths d)⟩

/- In any store that calls can lead to, a rejected write is not
seen exactly when pruning does not stop half-way. -/
theorem rejected_write_unchanged_iff
    (config : HistoryConfig)
    (store : HistoryStore)
    (calls : List WriteCall)
    (depth : Nat)
    (batch : List CandidateMeta)
    (io : IoOutcome)
    (hNew : HistoryStore.new config = .ok store) :
    RejectedUnchanged (runWrites calls store).2 depth batch io ↔
      PruneFits (runWrites calls store).2 depth batch :=
  ((sound_new hNew).runWrites calls).rejected_iff depth batch io

/- One candidate at the root; the next names a third one. -/
def rootCall : WriteCall where
  depth := 0
  batch := [lateCandidate 0 1]
  io := .completed

/- The root layer is there already: a second one is rejected,
and nothing of it is seen. -/
theorem rejected_write_unchanged_iff_late :
    ∃ store,
      HistoryStore.new lateConfig = .ok store ∧
        (∃ error store',
          write 0 [lateCandidate 0 2] .completed
              (runWrites [rootCall] store).2 =
            .error error store') ∧
        PruneFits (runWrites [rootCall] store).2 0
          [lateCandidate 0 2] ∧
        RejectedUnchanged (runWrites [rootCall] store).2 0
          [lateCandidate 0 2] .completed := by
  refine
    ⟨_, rfl, ⟨_, _, rfl⟩, ?fits,
      (rejected_write_unchanged_iff lateConfig _ [rootCall] 0
        [lateCandidate 0 2] .completed rfl).mpr ?fits⟩
  intro _ _ hAccepted
  cases hAccepted.free

/- The rejected layer is there, and its depth is taken. -/
theorem rejected_write_seen :
    ∃ store,
      HistoryStore.new lateConfig = .ok store ∧
      ¬ RejectedUnchanged (runWrites [rootCall] store).2 1
        [lateCandidate 2 2] .completed := by
  refine ⟨_, rfl, fun hUnchanged => ?_⟩
  have hSlot := (hUnchanged _ _ rfl).slot
  cases hSlot

end History

end BeamSearch
