import BeamSearch.History.Store

/-
  Layers of the static hybrid store keep out of each other's way.

  Planned extents lie apart, and a fallback goes behind every
  planned extent of the memory arena and every earlier fallback.
  So a write touches nothing that an earlier one stored, whether
  or not the disk fails.

  Main declarations:
    * `Laid`
    * `Placed`
    * `storeStaticHybrid_spec`
    * `staticHybrid_reads_written`
-/

namespace BeamSearch

open ByteFile Hoare Word

namespace History

variable {ram disk offset depth : Nat} {p layout : Plan} {batch : List CandidateMeta}
    {store s : HistoryStore} {written : List WriteCall}

----------------
-- The Layout
----------------

/- What a plan reserves at a place. -/
def Plan.reserved (p : Plan) : Location → Nat
  | .ram => p.ramReserved
  | .disk => p.diskReserved

/- Extents of one arena follow each other inside its reservation. -/
structure Laid (ram disk : Nat) (p : Plan) : Prop where
  inside :
    ∀ r ∈ p.depths, r.offset + r.bound ≤ p.reserved r.location
  apart :
    p.depths.Pairwise fun r r' =>
      r.location = r'.location → r.offset + r.bound ≤ r'.offset
  ramFits : p.ramReserved ≤ ram
  diskFits : p.diskReserved ≤ disk

/- A layer that fits on the disk is laid out there. -/
theorem Laid.push_disk
    {bound : Nat}
    (hLaid : Laid ram disk p)
    (hFree : bound ≤ disk - p.diskReserved) :
    Laid ram disk
      { p with
        depths := p.depths ++ [⟨bound, p.diskReserved, .disk⟩]
        diskReserved := p.diskReserved + bound } where
  inside r hr := by
    rcases List.mem_append.mp hr with hOld | hNew
    · have hInside := hLaid.inside r hOld
      cases hLocation : r.location with
      | ram =>
          rw [hLocation] at hInside
          exact hInside
      | disk =>
          rw [hLocation] at hInside
          exact hInside.trans (Nat.le_add_right _ _)
    · rw [List.mem_singleton.mp hNew]
      exact Nat.le_refl _
  apart := by
    refine List.pairwise_append.mpr
      ⟨hLaid.apart, List.pairwise_singleton _ _, ?_⟩
    intro r hr r' hr' hSame
    rw [List.mem_singleton.mp hr'] at hSame ⊢
    have hInside := hLaid.inside r hr
    rw [hSame] at hInside
    exact hInside
  ramFits := hLaid.ramFits
  diskFits := by
    have hFits := hLaid.diskFits
    dsimp only
    omega

/- A layer that fits in the memory is laid out there. -/
theorem Laid.push_ram
    {bound : Nat}
    (hLaid : Laid ram disk p)
    (hFree : bound ≤ ram - p.ramReserved) :
    Laid ram disk
      { p with
        depths := p.depths ++ [⟨bound, p.ramReserved, .ram⟩]
        ramReserved := p.ramReserved + bound } where
  inside r hr := by
    rcases List.mem_append.mp hr with hOld | hNew
    · have hInside := hLaid.inside r hOld
      cases hLocation : r.location with
      | ram =>
          rw [hLocation] at hInside
          exact hInside.trans (Nat.le_add_right _ _)
      | disk =>
          rw [hLocation] at hInside
          exact hInside
    · rw [List.mem_singleton.mp hNew]
      exact Nat.le_refl _
  apart := by
    refine List.pairwise_append.mpr
      ⟨hLaid.apart, List.pairwise_singleton _ _, ?_⟩
    intro r hr r' hr' hSame
    rw [List.mem_singleton.mp hr'] at hSame ⊢
    have hInside := hLaid.inside r hr
    rw [hSame] at hInside
    exact hInside
  ramFits := by
    have hFits := hLaid.ramFits
    dsimp only
    omega
  diskFits := hLaid.diskFits

/- The layers are placed one behind the other. -/
theorem placeLayers_laid
    {beam moves : Nat} :
    ∀ (todo bound : Nat) (p p' : Plan),
      Laid ram disk p →
      placeLayers beam moves ram disk todo bound p = .ok p' →
      Laid ram disk p' ∧ p'.ramCapacity = p.ramCapacity := by
  intro todo
  induction todo with
  | zero =>
      intro bound p p' hLaid hRun
      cases hRun
      exact ⟨hLaid, rfl⟩
  | succ todo ih =>
      intro previous p p' hLaid hRun
      rw [placeLayers] at hRun
      rcases bind_eq_ok hRun with ⟨bound, -, hRun⟩
      rcases bind_eq_ok hRun with ⟨diskFree, hDisk, hRun⟩
      rcases eq_of_sub_eq_ok hDisk with ⟨-, rfl⟩
      split_ifs at hRun with hOnDisk
      · rcases bind_eq_ok hRun with ⟨reserved, hAdd, hRun⟩
        rw [eq_of_add_eq_ok hAdd] at hRun
        have hNext := ih _ _ _ (hLaid.push_disk hOnDisk) hRun
        exact hNext
      · rcases bind_eq_ok hRun with ⟨ramFree, hRam, hRun⟩
        rcases eq_of_sub_eq_ok hRam with ⟨-, rfl⟩
        split_ifs at hRun with hInRam
        · rcases bind_eq_ok hRun with ⟨reserved, hAdd, hRun⟩
          rw [eq_of_add_eq_ok hAdd] at hRun
          have hNext := ih _ _ _ (hLaid.push_ram hInRam) hRun
          exact hNext
        · cases hRun

/- The plan of a store lays out all its layers. -/
theorem plan_laid
    {depths beam moves : Nat}
    (hPlan : plan depths beam moves ram disk = .ok p) :
    Laid ram disk p ∧
      p.ramCapacity = ram ∧
      p.fallbackEnd = p.ramReserved := by
  rw [plan] at hPlan
  rcases bind_eq_ok hPlan with ⟨budget, -, hPlan⟩
  rcases bind_eq_ok hPlan with ⟨_, -, hPlan⟩
  rcases bind_eq_ok hPlan with ⟨placed, hPlaced, hPlan⟩
  cases hPlan
  have hStart :
      Laid ram disk
        { depths := []
          required := budget.requiredEntries
          ramReserved := 0
          diskReserved := 0
          ramCapacity := ram
          fallbackEnd := 0 } :=
    { inside := fun r hr => absurd hr List.not_mem_nil
      apart := List.Pairwise.nil
      ramFits := Nat.zero_le _
      diskFits := Nat.zero_le _ }
  rcases placeLayers_laid _ _ _ _ hStart hPlaced with
    ⟨hLaid, hCapacity⟩
  exact
    ⟨⟨hLaid.inside, hLaid.apart, hLaid.ramFits,
        hLaid.diskFits⟩,
      hCapacity, rfl⟩

/- Two depths of one arena have disjoint extents. -/
theorem Laid.disjoint
    (hLaid : Laid ram disk p)
    {d e : Nat}
    {r r' : Reservation}
    (hNe : d ≠ e)
    (hd : p.depths[d]? = some r)
    (he : p.depths[e]? = some r')
    (hSame : r.location = r'.location) :
    r.offset + r.bound ≤ r'.offset ∨
      r'.offset + r'.bound ≤ r.offset := by
  rcases List.getElem?_eq_some_iff.mp hd with ⟨hdLt, rfl⟩
  rcases List.getElem?_eq_some_iff.mp he with ⟨heLt, rfl⟩
  have hApart := List.pairwise_iff_getElem.mp hLaid.apart
  rcases Nat.lt_or_gt_of_ne hNe with hLt | hGt
  · exact Or.inl (hApart d e hdLt heLt hLt hSame)
  · exact Or.inr (hApart e d heLt hdLt hGt hSame.symm)

----------------
-- File Writes
----------------

/- The bytes of a row. -/
def encodeEntry (candidate : CandidateMeta) : List UInt8 :=
  encode (entry candidate)

theorem length_encodeEntry (candidate : CandidateMeta) :
    (encodeEntry candidate).length = 16 :=
  length_encode _

theorem writeAll_nil
    {file : File}
    {position : Nat}
    (hInside : position ≤ file.size) :
    writeAll file position [] = file := by
  have hBytes : overwrite file.bytes position [] = file.bytes := by
    funext i
    rw [overwrite]
    split_ifs <;> rfl
  rw [writeAll, hBytes, List.length_nil, Nat.add_zero,
    Nat.max_eq_left hInside]

/- Part after part is the whole batch at once. -/
theorem writeParts_eq
    (file : File)
    (position : Nat)
    (parts : List (List CandidateMeta))
    (hInside : position ≤ file.size) :
    writeParts file position parts =
      writeAll file position
        (parts.flatten.flatMap encodeEntry) := by
  induction parts generalizing file position with
  | nil => exact (writeAll_nil hInside).symm
  | cons part parts ih =>
      change
        writeParts
            (writeAll file position (part.flatMap encodeEntry))
            (position + (part.flatMap encodeEntry).length)
            parts =
          _
      rw [ih _ _ (Nat.le_max_right _ _), List.flatten_cons,
        List.flatMap_append]
      exact writeAll_append file position _ _

/- The chunks of a batch make up the batch. -/
theorem flatten_chunks
    {size : Nat}
    (batch : List CandidateMeta)
    (hSize : 0 < size) :
    (chunks size batch).flatten = batch := by
  have hRounds :
      batch.length ≤
        (batch.length + size - 1) / size * size := by
    have hMod :=
      Nat.div_add_mod (batch.length + size - 1) size
    have hLt := Nat.mod_lt (batch.length + size - 1) hSize
    rw [Nat.mul_comm] at hMod
    omega
  rw [chunks, ← List.flatMap_def, Exchange.flatMap_chunks,
    List.take_of_length_le hRounds]

/- What a write leaves of a file, whether or not it succeeds. -/
structure WriteEffect
    (position : Nat)
    (batch : List CandidateMeta)
    (file file' : File) : Prop where
  size : file.size ≤ file'.size
  outside :
    ∀ i,
      i < position ∨ position + batch.length * 16 ≤ i →
      file'.bytes i = file.bytes i

theorem WriteEffect.writeAll
    {position : Nat}
    (file : File)
    {data : List UInt8}
    (hLength : data.length = batch.length * 16) :
    WriteEffect position batch file
      (writeAll file position data) where
  size := Nat.le_max_left _ _
  outside i hOutside := by
    rcases hOutside with hBefore | hAfter
    · exact overwrite_of_lt _ _ hBefore
    · exact overwrite_of_ge _ (by omega)

theorem mul_eq_ok
    {a b c : Nat}
    (hMul : mul a b = .ok c) :
    c = a * b := by
  rw [mul, checkedMul] at hMul
  split_ifs at hMul with hFits
  exact (Except.ok.inj hMul).symm

theorem mul_of_fits
    {a b : Nat}
    (hFits : a * b < 2 ^ 64) :
    mul a b = .ok (a * b) := by
  rw [mul, checkedMul, if_pos hFits]

/- Writing a batch in chunks has the effect of one write. -/
theorem writeFile_effect
    {stagingBytes : Nat}
    {file : File}
    (batch : List CandidateMeta)
    (io : IoOutcome)
    (hStaging : 16 ≤ stagingBytes)
    (hInside : offset * 16 ≤ file.size) :
    WriteEffect (offset * 16) batch file
      (writeFile stagingBytes file offset batch io).2 := by
  rw [writeFile]
  cases hMul : mul offset 16 with
  | error error =>
      exact ⟨Nat.le_refl _, fun _ _ => rfl⟩
  | ok position =>
      rw [mul_eq_ok hMul]
      cases io with
      | completed =>
          dsimp only
          rw [writeParts_eq _ _ _ hInside,
            flatten_chunks _ (by omega)]
          exact WriteEffect.writeAll file
            (length_flatMap_of_width length_encodeEntry batch)
      | failed text residue =>
          exact WriteEffect.writeAll file (by simp)

/- A successful write can be read back record by record. -/
theorem writeFile_ok
    {stagingBytes : Nat}
    {file : File}
    {io : IoOutcome}
    (hStaging : 16 ≤ stagingBytes)
    (hInside : offset * 16 ≤ file.size)
    (hOk :
      (writeFile stagingBytes file offset batch io).1 = .ok ())
    {i : Nat}
    (hi : i < batch.length) :
    readExact
        (writeFile stagingBytes file offset batch io).2
        ((offset + i) * 16) 16 =
      some (encodeEntry batch[i]) := by
  rw [writeFile] at hOk ⊢
  cases hMul : mul offset 16 with
  | error error =>
      rw [hMul] at hOk
      cases hOk
  | ok position =>
      rw [hMul] at hOk
      rw [mul_eq_ok hMul]
      cases io with
      | completed =>
          dsimp only
          rw [writeParts_eq _ _ _ hInside,
            flatten_chunks _ (by omega), Nat.add_mul]
          exact readExact_records length_encodeEntry file
            (offset * 16) hi
      | failed text residue => cases hOk

----------------
-- One Write
----------------

/- A store whose arenas follow a layout. -/
structure Arenas (layout : Plan) (store : HistoryStore) : Prop where
  laid :
    Laid layout.ramCapacity layout.diskReserved layout
  mode : store.config.mode = .staticHybrid
  plan :
    ∃ fallbackEnd,
      store.plan = some { layout with fallbackEnd := fallbackEnd } ∧
      layout.ramReserved ≤ fallbackEnd ∧
      fallbackEnd ≤ layout.ramCapacity
  ramLen : store.ramLen = layout.ramCapacity
  disk :
    ∀ file, store.disk = some file →
      layout.diskReserved * 16 ≤ file.size
  diskWords : layout.diskReserved * 16 < 2 ^ 64
  staging : 16 ≤ store.stagingBytes

/- The fallback end of a store; zero without a plan. -/
def fallbackEnd (store : HistoryStore) : Nat :=
  match store.plan with
  | some p => p.fallbackEnd
  | none => 0

/-
  Where a layer may lie: in the planned extent of its depth, or
  in the memory behind all planned extents.
-/
def Owns
    (layout : Plan)
    (store : HistoryStore)
    (depth count : Nat) : Storage → Prop
  | .arenaDisk offset =>
      ∃ bound,
        layout.depths[depth]? = some ⟨bound, offset, .disk⟩ ∧
        count ≤ bound
  | .arenaRam offset =>
      (∃ bound,
        layout.depths[depth]? = some ⟨bound, offset, .ram⟩ ∧
        count ≤ bound) ∨
      layout.ramReserved ≤ offset ∧
        offset + count ≤ fallbackEnd store
  | _ => False

/- The bytes or entries of a batch are where the storage says. -/
def Holds
    (store : HistoryStore)
    (batch : List CandidateMeta) : Storage → Prop
  | .arenaDisk offset =>
      ∃ file, store.disk = some file ∧
        ∀ i (hi : i < batch.length),
          readExact file ((offset + i) * 16) 16 =
            some (encodeEntry batch[i])
  | .arenaRam offset =>
      ∀ i (hi : i < batch.length),
        store.ram (offset + i) = entry batch[i]
  | _ => False

/- The layer has its own place, and the place holds it. -/
def Placed
    (layout : Plan)
    (store : HistoryStore)
    (depth : Nat)
    (batch : List CandidateMeta)
    (storage : Storage) : Prop :=
  Owns layout store depth batch.length storage ∧
    Holds store batch storage

/-
  What a write for one depth leaves alone: all but the planned
  extent of that depth and new fallback memory.
-/
structure Frame
    (layout : Plan)
    (depth : Nat)
    (store store' : HistoryStore) : Prop where
  arenas : Arenas layout store'
  config : store'.config = store.config
  depths : store'.depths = store.depths
  grows : fallbackEnd store ≤ fallbackEnd store'
  ram :
    ∀ i,
      (∀ bound offset,
        layout.depths[depth]? = some ⟨bound, offset, .ram⟩ →
        i < offset ∨ offset + bound ≤ i) →
      i < layout.ramReserved ∨ i < fallbackEnd store →
      store'.ram i = store.ram i
  disk :
    ∀ file, store.disk = some file →
      ∃ file', store'.disk = some file' ∧
        file.size ≤ file'.size ∧
        ∀ i,
          (∀ bound offset,
            layout.depths[depth]? = some ⟨bound, offset, .disk⟩ →
            i < offset * 16 ∨ (offset + bound) * 16 ≤ i) →
          file'.bytes i = file.bytes i

theorem Frame.refl
    (depth : Nat)
    (hArenas : Arenas layout store) :
    Frame layout depth store store where
  arenas := hArenas
  config := rfl
  depths := rfl
  grows := Nat.le_refl _
  ram _ _ _ := rfl
  disk file hFile := ⟨file, hFile, Nat.le_refl _, fun _ _ => rfl⟩

theorem Frame.trans
    {a b c : HistoryStore}
    (hFirst : Frame layout depth a b)
    (hSecond : Frame layout depth b c) :
    Frame layout depth a c where
  arenas := hSecond.arenas
  config := hSecond.config.trans hFirst.config
  depths := hSecond.depths.trans hFirst.depths
  grows := hFirst.grows.trans hSecond.grows
  ram i hPlanned hBelow := by
    have hGrows := hFirst.grows
    rw [hSecond.ram i hPlanned (by omega),
      hFirst.ram i hPlanned hBelow]
  disk file hFile := by
    rcases hFirst.disk file hFile with
      ⟨file', hFile', hSize, hBytes⟩
    rcases hSecond.disk file' hFile' with
      ⟨file'', hFile'', hSize', hBytes'⟩
    exact
      ⟨file'', hFile'', hSize.trans hSize', fun i hOutside =>
        (hBytes' i hOutside).trans (hBytes i hOutside)⟩

/- Another depth's layer survives a write. -/
theorem Placed.frame
    {other : Nat}
    {store' : HistoryStore}
    {storage : Storage}
    (hPlaced : Placed layout store other batch storage)
    (hArenas : Arenas layout store)
    (hFrame : Frame layout depth store store')
    (hNe : other ≠ depth) :
    Placed layout store' other batch storage := by
  rcases hPlaced with ⟨hOwns, hHolds⟩
  have hLaid := hArenas.laid
  have hGrows := hFrame.grows
  cases storage with
  | ram data => exact hOwns.elim
  | disk path => exact hOwns.elim
  | arenaDisk offset =>
      refine ⟨hOwns, ?_⟩
      rcases hOwns with ⟨bound, hExtent, hBound⟩
      rcases hHolds with ⟨file, hFile, hRead⟩
      rcases hFrame.disk file hFile with
        ⟨file', hFile', hSize, hBytes⟩
      have hInside :=
        hLaid.inside _ (List.mem_of_getElem? hExtent)
      have hRoom := hArenas.disk file hFile
      dsimp only [Plan.reserved] at hInside
      refine ⟨file', hFile', fun i hi => ?_⟩
      rw [← hRead i hi]
      refine readExact_congr (by omega) (by omega) ?_
      intro j hLow hHigh
      apply hBytes
      intro bound' offset' hOther
      have hApart := hLaid.disjoint hNe hExtent hOther rfl
      dsimp only at hApart
      omega
  | arenaRam offset =>
      refine ⟨?_, fun i hi => ?_⟩
      · rcases hOwns with hPlanned | ⟨hLow, hHigh⟩
        · exact Or.inl hPlanned
        · exact Or.inr ⟨hLow, hHigh.trans hGrows⟩
      · rw [← hHolds i hi]
        rcases hOwns with ⟨bound, hExtent, hBound⟩ | ⟨hLow, hHigh⟩
        · have hInside :=
            hLaid.inside _ (List.mem_of_getElem? hExtent)
          dsimp only [Plan.reserved] at hInside
          refine hFrame.ram _ ?_ (Or.inl (by omega))
          intro bound' offset' hOther
          have hApart := hLaid.disjoint hNe hExtent hOther rfl
          dsimp only at hApart
          omega
        · refine hFrame.ram _ ?_ (Or.inr (by omega))
          intro bound' offset' hOther
          have hInside :=
            hLaid.inside _ (List.mem_of_getElem? hOther)
          dsimp only [Plan.reserved] at hInside
          omega

----------------
-- Specifications Of The Steps
----------------

/- A batch written to the memory overwrites its place. -/
theorem writeRam_spec
    (s₀ : HistoryStore)
    (offset : Nat)
    (batch : List CandidateMeta) :
    Triple (fun s => s = s₀) (writeRam offset batch)
      (fun _ s =>
        s =
          { s₀ with
            ram := overwrite s₀.ram offset (batch.map entry) })
      (fun _ s => s = s₀) := by
  apply Triple.read
  rintro s rfl
  cases checkedAdd offset batch.length with
  | none => exact Triple.stop fun t ht => ht
  | some last =>
      apply Triple.seq (orThrow_spec s _)
      intro _
      apply Triple.update
      rintro t ⟨-, rfl⟩
      rfl

/- A reservation is the one of its depth, and large enough. -/
theorem reservation_eq_ok
    {actual : Nat}
    {r : Reservation}
    (hOk :
      liftContract (p.reservation depth actual) = .ok r) :
    p.depths[depth]? = some r ∧ actual ≤ r.bound := by
  rw [Plan.reservation] at hOk
  cases hDepth : p.depths[depth]? with
  | none =>
      rw [hDepth] at hOk
      cases hOk
  | some r' =>
      rw [hDepth] at hOk
      by_cases hRoom : actual ≤ r'.bound
      · have hCapacity :
            requireCapacity "history layer" actual r'.bound =
              .ok () :=
          requireCapacity_eq_ok_iff.mpr hRoom
        dsimp only at hOk
        rw [hCapacity] at hOk
        cases hOk
        exact ⟨rfl, hRoom⟩
      · have hCapacity :
            requireCapacity "history layer" actual r'.bound =
              .error
                (.capacity "history layer" actual r'.bound) :=
          if_pos (by omega)
        dsimp only at hOk
        rw [hCapacity] at hOk
        cases hOk

/- The fallback area grows by what is reserved. -/
theorem reserveFallback_eq_ok
    {p' : Plan}
    {count : Nat}
    (hOk : p.reserveFallback count = .ok (offset, p')) :
    offset = p.fallbackEnd ∧
      p' = { p with fallbackEnd := p.fallbackEnd + count } ∧
      p.fallbackEnd + count ≤ p.ramCapacity := by
  rw [Plan.reserveFallback, checkedAdd] at hOk
  split_ifs at hOk with hFits
  · by_cases hRoom : p.fallbackEnd + count ≤ p.ramCapacity
    · have hCapacity :
          requireCapacity "history RAM fallback"
              (p.fallbackEnd + count) p.ramCapacity =
            .ok () :=
        requireCapacity_eq_ok_iff.mpr hRoom
      dsimp only at hOk
      rw [hCapacity] at hOk
      cases hOk
      exact ⟨rfl, rfl, hRoom⟩
    · have hCapacity :
          requireCapacity "history RAM fallback"
              (p.fallbackEnd + count) p.ramCapacity =
            .error
              (.capacity "history RAM fallback"
                (p.fallbackEnd + count) p.ramCapacity) :=
        if_pos (by omega)
      dsimp only at hOk
      rw [hCapacity] at hOk
      cases hOk

/- Memory changed only from the fallback end on. -/
theorem Frame.fallback
    {e e' : Nat}
    {ram' : Nat → Entry}
    (depth : Nat)
    (hArenas : Arenas layout s)
    (hPlan : s.plan = some { layout with fallbackEnd := e })
    (hGrows : e ≤ e')
    (hRoom : e' ≤ layout.ramCapacity)
    (hRam : ∀ i < e, ram' i = s.ram i) :
    Frame layout depth s
      { s with
        diskFailed := true
        plan := some { layout with fallbackEnd := e' }
        ram := ram' } := by
  rcases hArenas.plan with ⟨e₀, hPlan₀, hLow, -⟩
  have hEnd : e₀ = e := by
    rw [hPlan] at hPlan₀
    exact (congrArg Plan.fallbackEnd
      (Option.some.inj hPlan₀)).symm
  subst hEnd
  have hStart : fallbackEnd s = e₀ := by
    rw [fallbackEnd, hPlan]
  exact
    { arenas :=
        { hArenas with
          plan := ⟨e', rfl, hLow.trans hGrows, hRoom⟩ }
      config := rfl
      depths := rfl
      grows := by
        rw [hStart]
        exact hGrows
      ram := fun i _ hBelow => hRam i (by omega)
      disk := fun file hFile =>
        ⟨file, hFile, Nat.le_refl _, fun _ _ => rfl⟩ }

/- The fallback stores a batch behind the earlier ones. -/
theorem storeFallback_spec
    {s₀ : HistoryStore}
    {e : Nat}
    (depth : Nat)
    (batch : List CandidateMeta)
    (diskError : StoreError)
    (hArenas : Arenas layout s₀)
    (hPlan : s₀.plan = some { layout with fallbackEnd := e }) :
    Triple (fun s => s = s₀)
      (storeFallback { layout with fallbackEnd := e } batch
        diskError)
      (fun storage s =>
        Frame layout depth s₀ s ∧
          Placed layout s depth batch storage)
      (fun _ s => Frame layout depth s₀ s) := by
  have hRoom : e ≤ layout.ramCapacity ∧ layout.ramReserved ≤ e := by
    rcases hArenas.plan with ⟨e₀, hPlan₀, hLow, hHigh⟩
    rw [hPlan] at hPlan₀
    have hEnd := congrArg Plan.fallbackEnd
      (Option.some.inj hPlan₀)
    dsimp only at hEnd
    omega
  apply Triple.update_bind
  cases hReserve :
      Plan.reserveFallback { layout with fallbackEnd := e }
        batch.length with
  | error error =>
      apply Triple.stop
      rintro s rfl
      have hFrame :=
        Frame.fallback depth hArenas hPlan (Nat.le_refl e)
          hRoom.1 fun _ _ => rfl
      rw [← hPlan] at hFrame
      exact hFrame
  | ok reserved =>
      rcases reserved with ⟨offset, p'⟩
      rcases reserveFallback_eq_ok hReserve with
        ⟨rfl, rfl, hFits⟩
      dsimp only at hFits ⊢
      apply Triple.update_bind
      apply Triple.seq
        ((writeRam_spec _ _ _).stop_mono ?_)
      · intro _
        apply Triple.value
        rintro s rfl
        refine ⟨Frame.fallback depth hArenas hPlan
          (Nat.le_add_right _ _) hFits
          fun i hi => overwrite_of_lt _ _ hi, ?_, ?_⟩
        · exact Or.inr ⟨hRoom.2, Nat.le_refl _⟩
        · intro i hi
          exact
            (overwrite_at s₀.ram _ (by simpa using hi)).trans
              (List.getElem_map entry)
      · rintro _ s rfl
        exact Frame.fallback depth hArenas hPlan
          (Nat.le_add_right _ _) hFits fun _ _ => rfl

/- Memory changed only in the planned extent of the depth. -/
theorem Frame.planned_ram
    {bound : Nat}
    (hArenas : Arenas layout s)
    (hExtent :
      layout.depths[depth]? = some ⟨bound, offset, .ram⟩)
    {ram' : Nat → Entry}
    (hRam :
      ∀ i, i < offset ∨ offset + bound ≤ i →
        ram' i = s.ram i) :
    Frame layout depth s { s with ram := ram' } where
  arenas := { hArenas with }
  config := rfl
  depths := rfl
  grows := Nat.le_refl _
  ram i hPlanned _ := hRam i (hPlanned bound offset hExtent)
  disk file hFile := ⟨file, hFile, Nat.le_refl _, fun _ _ => rfl⟩

/- The disk changed only in the planned extent of the depth. -/
theorem Frame.planned_disk
    {bound : Nat}
    {file file' : File}
    (hArenas : Arenas layout s)
    (hExtent :
      layout.depths[depth]? = some ⟨bound, offset, .disk⟩)
    (hFile : s.disk = some file)
    (hCount : batch.length ≤ bound)
    (hEffect : WriteEffect (offset * 16) batch file file') :
    Frame layout depth s { s with disk := some file' } where
  arenas :=
    { hArenas with
      disk := fun other hOther => by
        cases hOther
        exact (hArenas.disk file hFile).trans hEffect.size }
  config := rfl
  depths := rfl
  grows := Nat.le_refl _
  ram _ _ _ := rfl
  disk other hOther := by
    rw [hFile] at hOther
    cases hOther
    refine ⟨file', rfl, hEffect.size, fun i hOutside => ?_⟩
    apply hEffect.outside
    have hApart := hOutside bound offset hExtent
    omega

/- A batch lands in its own reservation or in the fallback. -/
theorem storeStaticHybrid_spec
    {s₀ : HistoryStore}
    (depth : Nat)
    (batch : List CandidateMeta)
    (io : IoOutcome)
    (hArenas : Arenas layout s₀) :
    Triple (fun s => s = s₀) (storeStaticHybrid depth batch io)
      (fun storage s =>
        Frame layout depth s₀ s ∧
          Placed layout s depth batch storage)
      (fun _ s => Frame layout depth s₀ s) := by
  have hRefl := Frame.refl depth hArenas
  rcases hArenas.plan with ⟨e, hPlan, -⟩
  apply Triple.read
  rintro s rfl
  rw [hPlan]
  dsimp only
  apply Triple.seq
    ((orThrow_spec s _).stop_mono fun _ t ht => ht ▸ hRefl)
  rintro ⟨bound, offset, location⟩
  apply Triple.of_state
  rintro t ⟨hReservation, rfl⟩
  rcases reservation_eq_ok hReservation with ⟨hExtent, hCount⟩
  cases location with
  | ram =>
      apply Triple.seq
        ((writeRam_spec t offset batch).stop_mono
          fun _ u hu => hu ▸ hRefl)
      intro _
      apply Triple.value
      rintro u rfl
      refine ⟨Frame.planned_ram hArenas hExtent ?_, ?_, ?_⟩
      · rintro i (hBefore | hAfter)
        · exact overwrite_of_lt _ _ hBefore
        · refine overwrite_of_ge _ ?_
          rw [List.length_map]
          exact (Nat.add_le_add_left hCount offset).trans hAfter
      · exact Or.inl ⟨bound, hExtent, hCount⟩
      · intro i hi
        exact
          (overwrite_at t.ram offset (by simpa using hi)).trans
            (List.getElem_map entry)
  | disk =>
      dsimp only
      cases t.diskFailed with
      | true =>
          exact storeFallback_spec depth batch _ hArenas hPlan
      | false =>
          cases hFile : t.disk with
          | none => exact Triple.stop fun u hu => hu ▸ hRefl
          | some file =>
              have hInside :=
                hArenas.laid.inside _
                  (List.mem_of_getElem? hExtent)
              have hRoom := hArenas.disk file hFile
              dsimp only [Plan.reserved] at hInside
              have hPosition : offset * 16 ≤ file.size := by
                omega
              have hEffect :=
                writeFile_effect batch io hArenas.staging
                  hPosition
              have hFrame :=
                Frame.planned_disk hArenas hExtent hFile hCount
                  hEffect
              apply Triple.update_bind
              cases hWritten :
                  (writeFile t.stagingBytes file offset batch
                    io).1 with
              | ok unit =>
                  apply Triple.value
                  rintro u rfl
                  refine
                    ⟨hFrame, ⟨bound, hExtent, hCount⟩, _, rfl,
                      fun i hi => ?_⟩
                  exact writeFile_ok hArenas.staging hPosition
                    hWritten hi
              | error error =>
                  refine
                    (storeFallback_spec depth batch error
                      hFrame.arenas hPlan).conseq
                      (fun _ hu => hu) ?_ ?_
                  · rintro storage u ⟨hNext, hPlaced⟩
                    exact ⟨hFrame.trans hNext, hPlaced⟩
                  · intro _ u hNext
                    exact hFrame.trans hNext

----------------
-- Runs
----------------

/- Every written layer is recorded and where it should be. -/
structure Stored
    (layout : Plan)
    (written : List WriteCall)
    (store : HistoryStore) : Prop where
  arenas : Arenas layout store
  layers :
    ∀ call ∈ written, ∃ storage,
      store.depths[call.depth]? =
        some (some ⟨call.batch.length, storage⟩) ∧
      Placed layout store call.depth call.batch storage

theorem Arenas.with_stats
    (hArenas : Arenas layout s)
    (stats : Stats)
    (depths : List (Option Depth)) :
    Arenas layout { s with stats := stats, depths := depths } :=
  { hArenas with }

theorem Stored.with_stats
    (hStored : Stored layout written s)
    (stats : Stats) :
    Stored layout written { s with stats := stats } where
  arenas := { hStored.arenas with }
  layers := hStored.layers

/- A free depth is none of the written ones. -/
theorem Stored.depth_ne
    (hStored : Stored layout written s)
    (hFree : s.depths[depth]? = some none)
    {call : WriteCall}
    (hCall : call ∈ written) :
    call.depth ≠ depth := by
  rcases hStored.layers call hCall with ⟨storage, hDepth, -⟩
  intro hEq
  rw [hEq, hFree] at hDepth
  cases hDepth

/- A write elsewhere leaves the stored layers. -/
theorem Stored.frame
    {s' : HistoryStore}
    (hStored : Stored layout written s)
    (hFree : s.depths[depth]? = some none)
    (hFrame : Frame layout depth s s') :
    Stored layout written s' where
  arenas := hFrame.arenas
  layers call hCall := by
    rcases hStored.layers call hCall with
      ⟨storage, hDepth, hPlaced⟩
    refine ⟨storage, hFrame.depths ▸ hDepth, ?_⟩
    exact hPlaced.frame hStored.arenas hFrame
      (hStored.depth_ne hFree hCall)

/- A layer that was placed joins the ones stored. -/
theorem Stored.push
    {call : WriteCall}
    {storage : Storage}
    (hStored : Stored layout written s)
    (hFree : s.depths[call.depth]? = some none)
    (hPlaced : Placed layout s call.depth call.batch storage)
    (stats : Stats) :
    Stored layout (written ++ [call])
      { s with
        stats := stats
        depths :=
          s.depths.set call.depth
            (some ⟨call.batch.length, storage⟩) } where
  arenas := hStored.arenas.with_stats _ _
  layers other hOther := by
    have hLt := (List.getElem?_eq_some_iff.mp hFree).1
    rcases List.mem_append.mp hOther with hOld | hNew
    · rcases hStored.layers other hOld with
        ⟨storage', hDepth, hPlaced'⟩
      refine ⟨storage', ?_, hPlaced'⟩
      exact
        (List.getElem?_set_ne
          (hStored.depth_ne hFree hOld).symm).trans hDepth
    · rw [List.mem_singleton.mp hNew]
      exact ⟨storage, List.getElem?_set_self hLt, hPlaced⟩

/-
  A write that is taken stores its layer, a refused one none.
-/
theorem write_spec
    {s₀ : HistoryStore}
    (call : WriteCall)
    (hStored : Stored layout written s₀) :
    Triple (fun s => s = s₀)
      (write call.depth call.batch call.io)
      (fun _ s => Stored layout (written ++ [call]) s)
      (fun _ s => Stored layout written s) := by
  apply Triple.read
  rintro s rfl
  cases hDepth : s.depths[call.depth]? with
  | none => exact Triple.stop fun t ht => ht ▸ hStored
  | some slot =>
      cases slot with
      | some taken => exact Triple.stop fun t ht => ht ▸ hStored
      | none =>
          dsimp only
          apply Triple.seq
            ((orThrow_spec s _).stop_mono
              fun _ t ht => ht ▸ hStored)
          intro _
          apply Triple.pre _ (fun _ ht => ht.2)
          rw [hStored.arenas.mode]
          apply Triple.seq
            ((storeStaticHybrid_spec call.depth call.batch
              call.io hStored.arenas).stop_mono
                fun _ t hFrame => hStored.frame hDepth hFrame)
          intro storage
          apply Triple.of_state
          rintro t ⟨hFrame, hPlaced⟩
          have hStored' := hStored.frame hDepth hFrame
          have hFree : t.depths[call.depth]? = some none :=
            hFrame.depths ▸ hDepth
          apply Triple.seq
            (R := fun _ u =>
              Stored layout (written ++ [call]) u)
          · refine
              (record_spec t call.depth call.batch.length
                storage).conseq (fun _ hu => hu) ?_ ?_
            · rintro _ u ⟨stats, rfl⟩
              exact hStored'.push hFree hPlaced stats
            · rintro _ u ⟨stats, rfl⟩
              exact hStored'.with_stats stats
          · intro _
            rw [if_neg fun hMode => nomatch hMode.1]
            exact Triple.value fun u hu => hu

/- The layers stored are those of the writes taken. -/
theorem runWrites_stored
    (calls : List WriteCall)
    (hStored : Stored layout written store) :
    Stored layout (written ++ (runWrites calls store).1)
      (runWrites calls store).2 := by
  induction calls generalizing written store with
  | nil =>
      rw [runWrites, List.append_nil]
      exact hStored
  | cons call calls ih =>
      have hWrite := write_spec call hStored store rfl
      rw [runWrites]
      cases hRun : write call.depth call.batch call.io store with
      | ok unit store' =>
          rw [hRun] at hWrite
          have hRest := ih hWrite
          rw [List.append_assoc] at hRest
          exact hRest
      | error error store' =>
          rw [hRun] at hWrite
          exact ih hWrite

/- A stored layer reads back entry by entry. -/
theorem Stored.read_eq
    (hStored : Stored layout written store)
    {call : WriteCall}
    (hCall : call ∈ written)
    {i : Nat}
    (hi : i < call.batch.length) :
    read store call.depth i = .ok (entry call.batch[i]) := by
  have hLaid := hStored.arenas.laid
  rcases hStored.layers call hCall with
    ⟨storage, hDepth, hOwns, hHolds⟩
  have hCount :
      count store call.depth =
        .ok ⟨call.batch.length, storage⟩ := by
    rw [count, hDepth]
  rw [read, hCount]
  change (if _ then _ else readStorage store storage i) = _
  rw [if_neg (not_le.mpr hi)]
  cases storage with
  | ram data => exact hOwns.elim
  | disk path => exact hOwns.elim
  | arenaRam offset =>
      have hRoom : offset + i < store.ramLen := by
        rw [hStored.arenas.ramLen]
        rcases hStored.arenas.plan with ⟨e, hPlan, -, hEnd⟩
        rcases hOwns with ⟨bound, hExtent, hBound⟩ | ⟨-, hHigh⟩
        · have hInside :=
            hLaid.inside _ (List.mem_of_getElem? hExtent)
          have hFits := hLaid.ramFits
          dsimp only [Plan.reserved] at hInside
          omega
        · rw [fallbackEnd, hPlan] at hHigh
          dsimp only at hHigh
          omega
      rw [readStorage, if_pos hRoom, hHolds i hi]
  | arenaDisk offset =>
      rcases hOwns with ⟨bound, hExtent, hBound⟩
      rcases hHolds with ⟨file, hFile, hRead⟩
      have hInside :=
        hLaid.inside _ (List.mem_of_getElem? hExtent)
      have hWords := hStored.arenas.diskWords
      dsimp only [Plan.reserved] at hInside
      rw [readStorage, hFile]
      dsimp only
      rw [readFile, mul_of_fits (by omega), except_ok_bind,
        hRead i hi]
      exact congrArg Except.ok (decode_encode_entry _)

----------------
-- A New Store
----------------

theorem lt_of_mul_eq_ok
    {a b c : Nat}
    (hMul : mul a b = .ok c) :
    a * b < 2 ^ 64 := by
  rw [mul, checkedMul] at hMul
  split_ifs at hMul with hFits
  exact hFits

theorem fromPlanner_eq_ok
    {α : Type}
    {result : Checked ContractError α}
    {a : α}
    (hOk : fromPlanner result = .ok a) :
    result = .ok a := by
  cases result with
  | ok b =>
      cases hOk
      rfl
  | error fault => cases fault <;> cases hOk

/- A store with its areas allocated has stored nothing yet. -/
theorem withArenas_stored
    {store' : HistoryStore}
    {pinned staging : Nat}
    (hMode : store.config.mode = .staticHybrid)
    (hStaging : 16 ≤ store.stagingBytes)
    (hNew : withArenas store pinned staging = .ok store') :
    ∃ layout, Stored layout [] store' := by
  rw [withArenas] at hNew
  rcases except_bind_eq_ok hNew with ⟨overhead, -, hNew⟩
  rcases except_bind_eq_ok hNew with ⟨_, -, hNew⟩
  rcases except_bind_eq_ok hNew with ⟨layout, hLayout, hNew⟩
  rcases except_bind_eq_ok hNew with ⟨estimated, -, hNew⟩
  rcases except_bind_eq_ok hNew with ⟨_, -, hNew⟩
  rcases except_bind_eq_ok hNew with ⟨ramArena, -, hNew⟩
  rcases except_bind_eq_ok hNew with ⟨diskArena, hDisk, hNew⟩
  rcases plan_laid (fromPlanner_eq_ok hLayout) with
    ⟨hLaid, hCapacity, hFallback⟩
  have hWords := lt_of_mul_eq_ok hDisk
  have hDiskArena := mul_eq_ok hDisk
  have hDiskFits := hLaid.diskFits
  cases hNew
  refine ⟨layout, ?_, fun call hCall => nomatch hCall⟩
  exact
    { laid :=
        { hLaid with
          ramFits := hCapacity ▸ hLaid.ramFits
          diskFits := Nat.le_refl _ }
      mode := hMode
      plan :=
        ⟨layout.fallbackEnd, rfl, Nat.le_of_eq hFallback.symm,
          by rw [hFallback, hCapacity]; exact hLaid.ramFits⟩
      ramLen := hCapacity.symm
      disk := fun file hFile => by
        dsimp only at hFile
        split_ifs at hFile
        cases hFile
        change _ ≤ diskArena
        omega
      diskWords := by omega
      staging := hStaging }

/- The staging buffer holds an entry at least. -/
theorem staging_pos
    {capacity slots stagingSlots staging : Nat}
    (hCapacity : 0 < capacity)
    (hSlots : 0 < slots)
    (hProduct : mul (min capacity (2 ^ 20)) slots = .ok stagingSlots)
    (hStaging : mul stagingSlots 16 = .ok staging) :
    16 ≤ staging := by
  have hChunk : 0 < min capacity (2 ^ 20) :=
    lt_min hCapacity (Nat.two_pow_pos 20)
  have hPos := Nat.mul_pos hChunk hSlots
  rw [mul_eq_ok hStaging, mul_eq_ok hProduct]
  omega

/- A new store has stored nothing yet. -/
theorem new_stored
    {config : HistoryConfig}
    (hMode : config.mode = .staticHybrid)
    (hNew : HistoryStore.new config = .ok store) :
    ∃ layout, Stored layout [] store := by
  rw [HistoryStore.new] at hNew
  split_ifs at hNew with hZero
  have hCapacity : config.capacity ≠ 0 := fun h =>
    hZero (Or.inl h)
  have hSlots : config.slots ≠ 0 := fun h =>
    hZero (Or.inr (Or.inl h))
  rcases except_bind_eq_ok hNew with ⟨pinnedSlots, -, hNew⟩
  rcases except_bind_eq_ok hNew with ⟨pinned, -, hNew⟩
  rcases except_bind_eq_ok hNew with ⟨stagingSlots, hSlot, hNew⟩
  rcases except_bind_eq_ok hNew with ⟨staging, hStaging, hNew⟩
  have hLeast :=
    staging_pos
      (Nat.pos_of_ne_zero fun h =>
        hCapacity (UInt32.toNat_inj.mp h))
      (Nat.pos_of_ne_zero fun h =>
        hSlots (UInt32.toNat_inj.mp h))
      hSlot hStaging
  exact withArenas_stored hMode hLeast hNew

/-
  Whatever is written, in whatever order, and whichever disk
  writes fail: the store reads back every layer it accepted.
-/
theorem staticHybrid_reads_written
    (config : HistoryConfig)
    (store : HistoryStore)
    (calls : List WriteCall)
    (hMode : config.mode = .staticHybrid)
    (hNew : HistoryStore.new config = .ok store) :
    ∀ call ∈ (runWrites calls store).1,
      ∀ i (hi : i < call.batch.length),
        read (runWrites calls store).2 call.depth i =
          .ok (entry call.batch[i]) := by
  intro call hCall i hi
  rcases new_stored hMode hNew with ⟨layout, hStored⟩
  have hRun := runWrites_stored calls hStored
  exact hRun.read_eq (by simpa using hCall) hi

/- A small store on a disk that always fails. -/
def fallbackConfig : HistoryConfig where
  mode := .staticHybrid
  capacity := 8
  slots := 2
  workers := 2
  maxDepth := 4
  moves := 2
  ramBudgetBytes := 928
  diskBudgetBytes := 224
  prune := false

/- A layer whose disk write is refused. -/
def fallbackCall (depth length : Nat) (route : UInt32) : WriteCall where
  depth := depth
  batch := List.replicate length ⟨⟨0, 0⟩, 0, 0, route⟩
  io := .failed "bad file descriptor" fun _ => 255

theorem staticHybrid_reads_written_fallback :
    ∃ store,
      HistoryStore.new fallbackConfig = .ok store ∧
      (runWrites
          [fallbackCall 0 2 77, fallbackCall 3 8 88,
            fallbackCall 1 1 77]
          store).1.map WriteCall.depth =
        [0, 3] ∧
      ∀ call ∈
        (runWrites
          [fallbackCall 0 2 77, fallbackCall 3 8 88,
            fallbackCall 1 1 77]
          store).1,
        ∀ i (hi : i < call.batch.length),
          read
              (runWrites
                [fallbackCall 0 2 77, fallbackCall 3 8 88,
                  fallbackCall 1 1 77]
                store).2
              call.depth i =
            .ok (entry call.batch[i]) :=
  ⟨_, rfl, rfl,
    staticHybrid_reads_written fallbackConfig _ _ rfl rfl⟩

end History

end BeamSearch
