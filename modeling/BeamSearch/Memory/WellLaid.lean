import BeamSearch.Memory.LayoutAgrees

/-
  Where the arrays of the device memory lie.

  Every cursor carves its arrays in order. The offsets of the
  carving are the exact ones of the plan, so every array lies in
  the allocation, no two arrays of a phase share a byte, and the
  final phases end in front of the survivors.

  Main declarations:
    * `WellLaid`
    * `carveArrays_spec`
    * `CarvesPlan`, `laidParts`
    * `allocateStaticDeviceMemory_planned`
-/

namespace BeamSearch

open Arena

namespace Memory

----------------
-- Carved Pointers
----------------

/-
  The pointers of one cursor follow one another between its
  first offset and its extent, aligned for their elements.
-/
theorem carveArrays_spec
    {build : BuildConstants}
    {word : Nat → Nat}
    {bound : Nat}
    (hWord : Fixes word bound)
    (base : Nat)
    {offset : Nat}
    {arrays : List (NamedTake build)}
    {takes : List (Take build)}
    (hTakes : arrays.map Prod.snd = takes)
    (hFits :
      extent id offset (requests build takes) < bound) :
    (∀ pointer ∈ carveArrays word base offset arrays,
      base + offset ≤ pointer.span.start ∧
        pointer.span.stop ≤
          base + extent id offset (requests build takes) ∧
        ∀ origin, 256 ∣ origin + base →
          build.alignof pointer.element ∣
            origin + pointer.span.start) ∧
      (carveArrays word base offset arrays).Pairwise
        fun a b => a.span.stop ≤ b.span.start := by
  let labelled :=
    arrays.map fun named => (named, named.2.request)
  have hRequests :
      labelled.map Prod.snd = requests build takes := by
    rw [← hTakes, requests, List.map_map, List.map_map]
    rfl
  have hCarve :
      carve word offset labelled = carve id offset labelled :=
    carve_word hWord (by rw [hRequests]; exact hFits)
  constructor
  · intro pointer hMem
    rcases List.mem_map.mp hMem with
      ⟨⟨named, span⟩, hPlaced, rfl⟩
    change (named, span) ∈ carve word offset labelled at hPlaced
    rw [hCarve] at hPlaced
    rcases mem_carve hPlaced with
      ⟨request, hRequest, -, hAligned, hFrom, hTo⟩
    rcases List.mem_map.mp hRequest with ⟨found, -, hSame⟩
    rcases Prod.ext_iff.mp hSame with ⟨hNamed, hFound⟩
    have hNamed : found = named := hNamed
    subst hNamed
    have hFound : found.2.request = request := hFound
    subst hFound
    rw [hRequests] at hTo
    refine ⟨?_, ?_, ?_⟩
    · exact Nat.add_le_add_left hFrom base
    · rw [Span.shift_stop]
      exact Nat.add_le_add_left hTo base
    · intro origin hOrigin
      rw [Span.shift_start, ← Nat.add_assoc]
      exact Nat.dvd_add
        (Nat.dvd_trans (build.alignof_dvd _) hOrigin)
        (Nat.dvd_trans found.2.covers hAligned)
  · unfold carveArrays
    change
      ((carve word offset labelled).map _).Pairwise _
    rw [hCarve, List.pairwise_map]
    refine (carve_pairwise offset labelled).imp ?_
    intro a b hOrder
    rw [Span.shift_stop, Span.shift_start]
    exact Nat.add_le_add_left hOrder base

/- The end of arrays that are carved as planned. -/
theorem arraysEnd_eq
    {build : BuildConstants}
    {word : Nat → Nat}
    {bound : Nat}
    (hWord : Fixes word bound)
    {offset : Nat}
    {arrays : List (NamedTake build)}
    {takes : List (Take build)}
    (hTakes : arrays.map Prod.snd = takes)
    (hFits :
      extent id offset (requests build takes) < bound) :
    arraysEnd word offset arrays =
      extent id offset (requests build takes) := by
  unfold arraysEnd
  rw [hTakes]
  exact extent_word hWord hFits

/- Two cursors, the second behind the first one's extent. -/
theorem pairwise_append_of_le
    {first second : List DevicePointer}
    (middle : Nat)
    (hFirst :
      first.Pairwise fun a b => a.span.stop ≤ b.span.start)
    (hSecond :
      second.Pairwise fun a b => a.span.stop ≤ b.span.start)
    (hBefore : ∀ a ∈ first, a.span.stop ≤ middle)
    (hBehind : ∀ b ∈ second, middle ≤ b.span.start) :
    (first ++ second).Pairwise fun a b =>
      a.span.Disjoint b.span := by
  rw [List.pairwise_append]
  refine ⟨hFirst.imp Or.inl, hSecond.imp Or.inl, ?_⟩
  intro a hA b hB
  exact .inl ((hBefore a hA).trans (hBehind b hB))

/- What a pointer holds: its array, its element and its bytes. -/
def DevicePointer.holding
    (pointer : DevicePointer) :
    DeviceArray × ElementType × Nat :=
  (pointer.name, pointer.element, pointer.span.bytes)

/- What was taken for an array. -/
def asked
    {build : BuildConstants}
    (named : NamedTake build) :
    DeviceArray × ElementType × Nat :=
  (named.1, named.2.element,
    named.2.count * build.sizeof named.2.element)

/- The pointers hold the arrays, each with all it asked for. -/
def Holds
    {build : BuildConstants}
    (pointers : List DevicePointer)
    (arrays : List (NamedTake build)) : Prop :=
  pointers.map DevicePointer.holding = arrays.map asked

/-
  What is carved has the names, counts and bytes that were
  asked for.
-/
theorem carveArrays_holds
    {build : BuildConstants}
    (word : Nat → Nat)
    (base offset : Nat)
    (arrays : List (NamedTake build)) :
    Holds (carveArrays word base offset arrays) arrays := by
  have hBytes :=
    congrArg
      (List.map fun placed : NamedTake build × Nat =>
        (placed.1.1, placed.1.2.element, placed.2))
      (carve_bytes word offset
        (arrays.map fun named => (named, named.2.request)))
  rw [List.map_map, List.map_map, List.map_map] at hBytes
  rw [Holds, carveArrays, List.map_map]
  exact hBytes

/- Two lists behind each other. -/
theorem Holds.append
    {build : BuildConstants}
    {first second : List DevicePointer}
    {arrays others : List (NamedTake build)}
    (hFirst : Holds first arrays)
    (hSecond : Holds second others) :
    Holds (first ++ second) (arrays ++ others) := by
  rw [Holds, List.map_append, List.map_append, hFirst, hSecond]

----------------
-- The Allocation
----------------

namespace StaticDeviceMemory

/- Every array of the allocation. -/
def arrays (memory : StaticDeviceMemory) : List DevicePointer :=
  memory.root ++ memory.finalUnion ++ memory.transient ++
    memory.persistent ++ memory.finalCommon ++
    memory.finalSelect ++ memory.finalMaterialize

/- The arrays that overlay the transient ones. -/
def overlays (memory : StaticDeviceMemory) :
    List DevicePointer :=
  memory.finalUnion ++ memory.finalCommon ++
    memory.finalSelect ++ memory.finalMaterialize

end StaticDeviceMemory

/- The arrays are inside, aligned and apart where they must be. -/
structure WellLaid
    (build : BuildConstants)
    (allocation totalBytes : Nat)
    (memory : StaticDeviceMemory) : Prop where
  inside :
    ∀ pointer ∈ memory.arrays,
      pointer.span.stop ≤ totalBytes
  aligned :
    ∀ pointer ∈ memory.arrays,
      build.alignof pointer.element ∣
        allocation + pointer.span.start
  rootApart :
    memory.root.Pairwise fun a b => a.span.Disjoint b.span
  unionApart :
    memory.finalUnion.Pairwise
      fun a b => a.span.Disjoint b.span
  streamsApart :
    (memory.transient ++ memory.persistent).Pairwise
      fun a b => a.span.Disjoint b.span
  selectApart :
    (memory.finalCommon ++ memory.finalSelect).Pairwise
      fun a b => a.span.Disjoint b.span
  materializeApart :
    (memory.finalCommon ++ memory.finalMaterialize).Pairwise
      fun a b => a.span.Disjoint b.span
  persistentKept :
    ∀ overlay ∈ memory.overlays,
      ∀ kept ∈ memory.persistent,
        overlay.span.Disjoint kept.span

/- Arrays of one cursor between two offsets, aligned and in order. -/
structure Carved
    (build : BuildConstants)
    (allocation first last : Nat)
    (pointers : List DevicePointer) : Prop where
  from_le : ∀ p ∈ pointers, first ≤ p.span.start
  stop_le : ∀ p ∈ pointers, p.span.stop ≤ last
  aligned :
    ∀ p ∈ pointers,
      build.alignof p.element ∣ allocation + p.span.start
  ordered :
    pointers.Pairwise fun a b => a.span.stop ≤ b.span.start

section Allocation

variable {build : BuildConstants}
variable {word : Nat → Nat}
variable {bound : Nat}
variable {cub : CubQueries}
variable {config : RuntimeConfig}
variable {derived : DerivedConfig}

/- Nothing was carved. -/
theorem Carved.nil
    {allocation first last : Nat} :
    Carved build allocation first last [] :=
  { from_le := fun _ hMem => absurd hMem List.not_mem_nil
    stop_le := fun _ hMem => absurd hMem List.not_mem_nil
    aligned := fun _ hMem => absurd hMem List.not_mem_nil
    ordered := List.Pairwise.nil }

/- A later end. -/
theorem Carved.weaken
    {allocation first last last' : Nat}
    {pointers : List DevicePointer}
    (hCarved : Carved build allocation first last pointers)
    (hLast : last ≤ last') :
    Carved build allocation first last' pointers :=
  { hCarved with
    stop_le := fun p hMem =>
      (hCarved.stop_le p hMem).trans hLast }

/- What is carved where it fits lies in its span, in order. -/
theorem carved_of_takes
    (hWord : Fixes word bound)
    {allocation base offset last : Nat}
    {arrays : List (NamedTake build)}
    {takes : List (Take build)}
    (hTakes : arrays.map Prod.snd = takes)
    (hFits :
      extent id offset (requests build takes) < bound)
    (hBase : 256 ∣ allocation + base)
    (hLast :
      base + extent id offset (requests build takes) ≤ last) :
    Carved build allocation (base + offset) last
      (carveArrays word base offset arrays) := by
  rcases carveArrays_spec hWord base hTakes hFits with
    ⟨hPlaced, hOrdered⟩
  exact
    { from_le := fun p hMem => (hPlaced p hMem).1
      stop_le := fun p hMem =>
        (hPlaced p hMem).2.1.trans hLast
      aligned := fun p hMem =>
        (hPlaced p hMem).2.2 allocation hBase
      ordered := hOrdered }

/- Two parts behind each other do not overlap. -/
theorem Carved.apart_append
    {allocation first middle next last : Nat}
    {before behind : List DevicePointer}
    (hBefore : Carved build allocation first middle before)
    (hBehind : Carved build allocation next last behind)
    (hLe : middle ≤ next) :
    (before ++ behind).Pairwise fun a b =>
      a.span.Disjoint b.span :=
  pairwise_append_of_le middle hBefore.ordered hBehind.ordered
    hBefore.stop_le
    fun p hMem => hLe.trans (hBehind.from_le p hMem)

/- A request's alignment divides what 256 divides. -/
theorem alignment_dvd
    {base : Nat}
    (takes : List (Take build))
    (hBase : 256 ∣ base) :
    ∀ request ∈ requests build takes,
      request.alignment ∣ base := by
  intro request hMem
  rcases List.mem_map.mp hMem with ⟨take, -, rfl⟩
  exact Nat.dvd_trans take.divides hBase

/- The bytes in front of the scratch pool. -/
def scratchStart
    (build : BuildConstants)
    (config : RuntimeConfig)
    (derived : DerivedConfig) : Nat :=
  alignUp id (currentFrontierBytes build id config derived) 256 +
    alignUp id (bytesSolved build id config) 256

/- The first byte behind the frontier. -/
def frontierStop
    (build : BuildConstants)
    (config : RuntimeConfig)
    (derived : DerivedConfig) : Nat :=
  alignUp id (currentFrontierBytes build id config derived) 256

/- The scratch starts at a multiple of 256. -/
theorem dvd_scratchStart :
    256 ∣ scratchStart build config derived :=
  Nat.dvd_add (dvd_alignUp _ _) (dvd_alignUp _ _)

/- The pool ends where the allocation does. -/
theorem scratchStart_add_le
    {bytes : Nat}
    (hBytes :
      bytes ≤ scratchPoolBytes build id cub config derived) :
    scratchStart build config derived + bytes ≤
      totalDeviceBytes build id cub config derived := by
  have hPool :=
    le_alignUp (scratchPoolBytes build id cub config derived)
      (show 0 < 256 by omega)
  rw [totalDeviceBytes_id]
  unfold scratchStart
  omega

/- The frontier's bytes. -/
theorem frontier_extent :
    extent id 0
        (requests build
          [take256 .state128
            (planFrontierStates config derived)]) =
      currentFrontierBytes build id config derived := by
  have hZero : ∀ a : Nat, id (alignUp id 0 256 + id a) = id a :=
    fun _ => Nat.zero_add _
  exact hZero _

/- The frontier ends where it was planned. -/
theorem frontierEnd_eq
    (hWord : Fixes word bound)
    (hFits :
      totalDeviceBytes build id cub config derived < bound) :
    alignUp word
        (arraysEnd word 0
          [(frontierArray
            (planned build word cub config derived) :
            NamedTake build)])
        256 =
      frontierStop build config derived := by
  have hParts := totalFits_of_lt hFits
  have hStop : frontierStop build config derived < bound := by
    rw [totalDeviceBytes_id] at hFits
    unfold frontierStop
    omega
  have hExtent := hParts.frontier
  rw [← frontier_extent] at hExtent
  rw [arraysEnd_eq hWord frontierArrays_takes hExtent,
    frontier_extent]
  exact alignUp_word hWord hStop

/- The bytes of the solved results. -/
theorem solved_extent :
    extent id (frontierStop build config derived)
        (requests build (solvedLayout config)) =
      frontierStop build config derived +
        bytesSolved build id config := by
  have hShift :=
    extent_add 0
      (@alignment_dvd build _ (solvedLayout config)
        (dvd_alignUp
          (currentFrontierBytes build id config derived) 256))
  rw [Nat.add_zero] at hShift
  exact hShift

/- The scratch starts where it was planned. -/
theorem scratchPool_eq
    (hWord : Fixes word bound)
    (hFits :
      totalDeviceBytes build id cub config derived < bound) :
    alignUp word
        (arraysEnd word (frontierStop build config derived)
          (solvedArrays
            (planned build word cub config derived) :
            List (NamedTake build)))
        256 =
      scratchStart build config derived := by
  have hStart : scratchStart build config derived < bound := by
    rw [totalDeviceBytes_id] at hFits
    unfold scratchStart
    omega
  have hShift :
      alignUp id
          (frontierStop build config derived +
            bytesSolved build id config)
          256 =
        scratchStart build config derived :=
    alignUp_add _ (dvd_alignUp _ _)
  have hExtent :
      extent id (frontierStop build config derived)
          (requests build (solvedLayout config)) <
        bound := by
    have hLe :=
      le_alignUp
        (frontierStop build config derived +
          bytesSolved build id config)
        (show 0 < 256 by omega)
    rw [solved_extent]
    omega
  rw [arraysEnd_eq hWord solvedArrays_takes hExtent,
    solved_extent,
    alignUp_word hWord (hShift.trans_lt hStart), hShift]

/- The streams' arrays end where it was planned. -/
theorem transientEnd_eq
    (hWord : Fixes word bound)
    (hFits :
      bytesStreams build id cub config derived < bound) :
    max
        (arraysEnd word 0
          (transientArrays word
            (planned build word cub config derived) :
            List (NamedTake build)))
        (planned build word cub config
          derived).layoutFinalBudgetBytes =
      persistentOffset build id cub config derived := by
  rw [← persistentOffset_word hWord hFits]
  unfold arraysEnd persistentOffset
  rw [transientArrays_takes]
  rfl

/- So do the survivors. -/
theorem streamsEnd_eq
    (hWord : Fixes word bound)
    (hFits :
      bytesStreams build id cub config derived < bound) :
    arraysEnd word
        (persistentOffset build id cub config derived)
        (persistentArrays
          (planned build word cub config derived) :
          List (NamedTake build)) =
      extent id (persistentOffset build id cub config derived)
        (requests build (persistentLayout config)) :=
  arraysEnd_eq hWord persistentArrays_takes
    (streamsEnd_le_bytesStreams.trans_lt hFits)

/- So does what the final phases share. -/
theorem commonEnd_eq
    (hWord : Fixes word bound)
    (hFits :
      bytesFinalSelect build id config derived < bound) :
    alignUp word
        (arraysEnd word 0
          (finalCommonArrays
            (planned build word cub config derived) :
            List (NamedTake build)))
        256 =
      finalCommonBytes build id
        (finalCommonLayout config
          (makeFinalLayoutShape config derived)) := by
  have hCommon := finalCommonBytes_word hWord hFits
  rw [← hCommon]
  unfold arraysEnd finalCommonBytes
  rw [finalCommonArrays_takes]

/- The union arrays, when there are two banks. -/
def unionPart
    (plan : DevicePlan) : List (NamedTake build) :=
  if plan.layoutUnionBytes ≠ 0 then unionArrays plan else []

/- A union with bytes has rows. -/
theorem capacity_ne_zero_of_union
    (hUnion : bytesUnion build word cub config ≠ 0) :
    unionCapacity config ≠ 0 :=
  fun hZero => hUnion (if_pos hZero)

/- The union is carved as it was planned. -/
theorem unionPart_takes
    (hWord : Fixes word bound)
    (hFits : bytesUnion build id cub config < bound)
    (hUnion : bytesUnion build word cub config ≠ 0) :
    (unionPart (planned build word cub config derived) :
        List (NamedTake build)).map Prod.snd =
      unionLayout (unionCapacity config)
        (stream4CubTempBytes id cub (unionCapacity config)) := by
  have hCapacity := capacity_ne_zero_of_union hUnion
  have hPart :
      (unionPart (planned build word cub config derived) :
          List (NamedTake build)) =
        unionArrays (planned build word cub config derived) :=
    if_pos hUnion
  rw [hPart, unionArrays_takes hCapacity,
    unionCub_word hWord hCapacity hFits]

/- The union ends inside its bytes. -/
theorem unionEnd_le
    (hWord : Fixes word bound)
    (hFits : bytesUnion build id cub config < bound)
    (hUnion : bytesUnion build word cub config ≠ 0) :
    arraysEnd word 0
        (unionPart (planned build word cub config derived) :
          List (NamedTake build)) ≤
      bytesUnion build word cub config := by
  have hCapacity := capacity_ne_zero_of_union hUnion
  have hLe :=
    @unionExtent_le_bytesUnion build cub config hCapacity
  have hTakes :=
    @unionPart_takes build word bound cub config derived hWord
      hFits hUnion
  rw [arraysEnd_eq hWord hTakes (hLe.trans_lt hFits),
    bytesUnion_word hWord hFits]
  exact hLe

/- The arrays at the exact offsets of the plan. -/
def laidOut
    (build : BuildConstants)
    (word : Nat → Nat)
    (cub : CubQueries)
    (config : RuntimeConfig)
    (derived : DerivedConfig) : StaticDeviceMemory :=
  let plan := planned build word cub config derived
  let pool := scratchStart build config derived
  let commonBytes :=
    finalCommonBytes build id
      (finalCommonLayout config
        (makeFinalLayoutShape config derived))
  let frontier : List (NamedTake build) := [frontierArray plan]
  let solved : List (NamedTake build) := solvedArrays plan
  let union : List (NamedTake build) := unionPart plan
  let transient : List (NamedTake build) :=
    transientArrays word plan
  let persistent : List (NamedTake build) :=
    persistentArrays plan
  let common : List (NamedTake build) := finalCommonArrays plan
  let select : List (NamedTake build) := finalSelectArrays plan
  let materialize : List (NamedTake build) :=
    finalMaterializeArrays plan
  { allocationBytes := plan.totalDeviceBytes
    scratchPool := pool
    scratchPoolBytes := plan.scratchPoolBytes
    root :=
      carveArrays word 0 0 frontier ++
        carveArrays word 0
          (frontierStop build config derived) solved
    finalUnion := carveArrays word pool 0 union
    transient := carveArrays word pool 0 transient
    persistent :=
      carveArrays word pool
        (persistentOffset build id cub config derived)
        persistent
    finalCommon := carveArrays word pool 0 common
    finalSelect := carveArrays word pool commonBytes select
    finalMaterialize :=
      carveArrays word pool commonBytes materialize }

/-
  Every group holds the arrays of the plan, under their names. The
  takes behind them are the planner's: `transientArrays_takes` and
  the like say so for each group.
-/
structure CarvesPlan
    (build : BuildConstants)
    (word : Nat → Nat)
    (plan : DevicePlan)
    (memory : StaticDeviceMemory) : Prop where
  root :
    Holds memory.root
      ([frontierArray plan] ++ solvedArrays plan :
        List (NamedTake build))
  finalUnion :
    Holds memory.finalUnion
      (unionPart plan : List (NamedTake build))
  transient :
    Holds memory.transient
      (transientArrays word plan : List (NamedTake build))
  persistent :
    Holds memory.persistent
      (persistentArrays plan : List (NamedTake build))
  finalCommon :
    Holds memory.finalCommon
      (finalCommonArrays plan : List (NamedTake build))
  finalSelect :
    Holds memory.finalSelect
      (finalSelectArrays plan : List (NamedTake build))
  finalMaterialize :
    Holds memory.finalMaterialize
      (finalMaterializeArrays plan : List (NamedTake build))

/- The allocation carves what the plan says. -/
theorem laidOut_carvesPlan :
    CarvesPlan build word (planned build word cub config derived)
      (laidOut build word cub config derived) where
  root := (carveArrays_holds ..).append (carveArrays_holds ..)
  finalUnion := carveArrays_holds ..
  transient := carveArrays_holds ..
  persistent := carveArrays_holds ..
  finalCommon := carveArrays_holds ..
  finalSelect := carveArrays_holds ..
  finalMaterialize := carveArrays_holds ..

/- Both layout checks pass. -/
theorem allocateStaticDeviceMemory_eq
    (hWord : Fixes word bound)
    (hFits :
      totalDeviceBytes build id cub config derived < bound) :
    allocateStaticDeviceMemory build word
        (planned build word cub config derived) =
      .ok (laidOut build word cub config derived) := by
  have hParts := totalFits_of_lt hFits
  have hUnion :
      ¬ ((planned build word cub config
            derived).layoutUnionBytes ≠ 0 ∧
          arraysEnd word 0
              (unionPart
                (planned build word cub config derived) :
                List (NamedTake build)) >
            (planned build word cub config
              derived).layoutUnionBytes) := by
    rintro ⟨hUsed, hOver⟩
    exact absurd (unionEnd_le hWord hParts.union hUsed)
      (Nat.not_le.mpr hOver)
  have hStreams :
      extent id (persistentOffset build id cub config derived)
          (requests build (persistentLayout config)) ≤
        (planned build word cub config
          derived).layoutPhase1StreamsBytes := by
    change _ ≤ bytesStreams build word cub config derived
    rw [bytesStreams_word hWord hParts.streams]
    exact streamsEnd_le_bytesStreams
  have hPool :
      extent id (persistentOffset build id cub config derived)
          (requests build (persistentLayout config)) ≤
        (planned build word cub config
          derived).scratchPoolBytes := by
    change _ ≤ scratchPoolBytes build word cub config derived
    rw [scratchPoolBytes_word hWord hParts.scratch]
    exact streamsEnd_le_bytesStreams.trans
      streams_le_scratchPool
  unfold allocateStaticDeviceMemory
  dsimp only
  rw [frontierEnd_eq hWord hFits, scratchPool_eq hWord hFits,
    transientEnd_eq hWord hParts.streams,
    streamsEnd_eq hWord hParts.streams,
    commonEnd_eq hWord hParts.select]
  refine (if_neg hUnion).trans ?_
  refine (if_neg ?_).trans rfl
  exact not_or.mpr
    ⟨Nat.not_lt.mpr hStreams, Nat.not_lt.mpr hPool⟩

/- The pointers lie in the allocation and are aligned. -/
def Sound
    (build : BuildConstants)
    (allocation totalBytes : Nat)
    (pointers : List DevicePointer) : Prop :=
  ∀ pointer ∈ pointers,
    pointer.span.stop ≤ totalBytes ∧
      build.alignof pointer.element ∣
        allocation + pointer.span.start

/- Two sound parts. -/
theorem Sound.append
    {allocation totalBytes : Nat}
    {before behind : List DevicePointer}
    (hBefore : Sound build allocation totalBytes before)
    (hBehind : Sound build allocation totalBytes behind) :
    Sound build allocation totalBytes (before ++ behind) :=
  fun pointer hMem =>
    (List.mem_append.mp hMem).elim (hBefore pointer)
      (hBehind pointer)

/- A part that ends inside the allocation. -/
theorem Carved.sound
    {allocation first last totalBytes : Nat}
    {pointers : List DevicePointer}
    (hCarved : Carved build allocation first last pointers)
    (hLast : last ≤ totalBytes) :
    Sound build allocation totalBytes pointers :=
  fun pointer hMem =>
    ⟨(hCarved.stop_le pointer hMem).trans hLast,
      hCarved.aligned pointer hMem⟩

/- What the cursors of the allocation carve. -/
structure LaidParts
    (build : BuildConstants)
    (allocation : Nat)
    (cub : CubQueries)
    (config : RuntimeConfig)
    (derived : DerivedConfig)
    (commonBytes : Nat)
    (frontier solved : List DevicePointer)
    (memory : StaticDeviceMemory) : Prop where
  root : memory.root = frontier ++ solved
  frontier :
    Carved build allocation 0
      (frontierStop build config derived) frontier
  solved :
    Carved build allocation
      (frontierStop build config derived)
      (scratchStart build config derived) solved
  finalUnion :
    Carved build allocation
      (scratchStart build config derived)
      (scratchStart build config derived +
        bytesUnion build id cub config)
      memory.finalUnion
  transient :
    Carved build allocation
      (scratchStart build config derived)
      (scratchStart build config derived +
        persistentOffset build id cub config derived)
      memory.transient
  persistent :
    Carved build allocation
      (scratchStart build config derived +
        persistentOffset build id cub config derived)
      (scratchStart build config derived +
        bytesStreams build id cub config derived)
      memory.persistent
  finalCommon :
    Carved build allocation
      (scratchStart build config derived)
      (scratchStart build config derived + commonBytes)
      memory.finalCommon
  finalSelect :
    Carved build allocation
      (scratchStart build config derived + commonBytes)
      (scratchStart build config derived +
        bytesFinalSelect build id config derived)
      memory.finalSelect
  finalMaterialize :
    Carved build allocation
      (scratchStart build config derived + commonBytes)
      (scratchStart build config derived +
        bytesFinalMaterialize build id cub config derived)
      memory.finalMaterialize

/- The parts make up a well laid allocation. -/
theorem LaidParts.wellLaid
    {allocation commonBytes : Nat}
    {frontier solved : List DevicePointer}
    {memory : StaticDeviceMemory}
    (hParts :
      LaidParts build allocation cub config derived commonBytes
        frontier solved memory)
    (hCommon :
      commonBytes ≤ bytesFinalSelect build id config derived) :
    WellLaid build allocation
      (totalDeviceBytes build id cub config derived) memory := by
  have hSelectBudget :
      bytesFinalSelect build id config derived ≤
        persistentOffset build id cub config derived :=
    ((le_max_left _ _).trans (le_max_left _ _)).trans
      (le_max_right _ _)
  have hMaterializeBudget :
      bytesFinalMaterialize build id cub config derived ≤
        persistentOffset build id cub config derived :=
    ((le_max_right _ _).trans (le_max_left _ _)).trans
      (le_max_right _ _)
  have hUnionBudget :
      bytesUnion build id cub config ≤
        persistentOffset build id cub config derived :=
    (le_max_right _ _).trans (le_max_right _ _)
  have hCommonBudget := hCommon.trans hSelectBudget
  have hOffset :
      persistentOffset build id cub config derived ≤
        scratchPoolBytes build id cub config derived :=
    persistentOffset_le_bytesStreams.trans
      streams_le_scratchPool
  have hEnd :
      scratchStart build config derived +
          persistentOffset build id cub config derived ≤
        totalDeviceBytes build id cub config derived :=
    scratchStart_add_le hOffset
  have hStart :
      scratchStart build config derived ≤
        totalDeviceBytes build id cub config derived :=
    (Nat.le_add_right _ _).trans hEnd
  have hFrontierStop :
      frontierStop build config derived ≤
        scratchStart build config derived :=
    Nat.le_add_right _ _
  -- Every overlay ends where the survivors start.
  have hKept : ∀ {bytes first : Nat} {pointers},
      Carved build allocation first
          (scratchStart build config derived + bytes)
          pointers →
        bytes ≤
            persistentOffset build id cub config derived →
          Carved build allocation first
            (scratchStart build config derived +
              persistentOffset build id cub config derived)
            pointers :=
    fun hCarved hLe =>
      hCarved.weaken (Nat.add_le_add_left hLe _)
  have hUnion := hKept hParts.finalUnion hUnionBudget
  have hFinalCommon := hKept hParts.finalCommon hCommonBudget
  have hSelect := hKept hParts.finalSelect hSelectBudget
  have hMaterialize :=
    hKept hParts.finalMaterialize hMaterializeBudget
  have hSound :
      Sound build allocation
        (totalDeviceBytes build id cub config derived)
        memory.arrays := by
    unfold StaticDeviceMemory.arrays
    rw [hParts.root]
    refine .append (.append (.append (.append (.append (.append
      (.append ?_ ?_) ?_) ?_) ?_) ?_) ?_) ?_
    · exact hParts.frontier.sound (hFrontierStop.trans hStart)
    · exact hParts.solved.sound hStart
    · exact hUnion.sound hEnd
    · exact hParts.transient.sound hEnd
    · exact hParts.persistent.sound
        (scratchStart_add_le streams_le_scratchPool)
    · exact hFinalCommon.sound hEnd
    · exact hSelect.sound hEnd
    · exact hMaterialize.sound hEnd
  exact
    { inside := fun pointer hMem => (hSound pointer hMem).1
      aligned := fun pointer hMem => (hSound pointer hMem).2
      rootApart := by
        rw [hParts.root]
        exact hParts.frontier.apart_append hParts.solved
          le_rfl
      unionApart := hParts.finalUnion.ordered.imp Or.inl
      streamsApart :=
        hParts.transient.apart_append hParts.persistent le_rfl
      selectApart :=
        hParts.finalCommon.apart_append hParts.finalSelect
          le_rfl
      materializeApart :=
        hParts.finalCommon.apart_append
          hParts.finalMaterialize le_rfl
      persistentKept := by
        intro overlay hOverlay kept hMem
        have hFrom := hParts.persistent.from_le kept hMem
        left
        simp only [StaticDeviceMemory.overlays,
          List.mem_append] at hOverlay
        rcases hOverlay with ((h | h) | h) | h
        · exact (hUnion.stop_le overlay h).trans hFrom
        · exact (hFinalCommon.stop_le overlay h).trans hFrom
        · exact (hSelect.stop_le overlay h).trans hFrom
        · exact (hMaterialize.stop_le overlay h).trans hFrom }

/- The parts of the planned allocation. -/
theorem laidParts
    (hWord : Fixes word bound)
    (hFits :
      totalDeviceBytes build id cub config derived < bound)
    {allocation : Nat}
    (hAllocation : 256 ∣ allocation) :
    LaidParts build allocation cub config derived
      (finalCommonBytes build id
        (finalCommonLayout config
          (makeFinalLayoutShape config derived)))
      (carveArrays word 0 0
        [(frontierArray
            (planned build word cub config derived) :
            NamedTake build)])
      (carveArrays word 0 (frontierStop build config derived)
        (solvedArrays
          (planned build word cub config derived) :
          List (NamedTake build)))
      (laidOut build word cub config derived) := by
  have hParts := totalFits_of_lt hFits
  have hBase : 256 ∣ allocation + 0 := hAllocation
  have hPool :
      256 ∣ allocation + scratchStart build config derived :=
    Nat.dvd_add hAllocation dvd_scratchStart
  have hScratchLe :
      scratchStart build config derived ≤
        totalDeviceBytes build id cub config derived :=
    (Nat.le_add_right _ 0).trans
      (scratchStart_add_le (Nat.zero_le _))
  have hStop :
      frontierStop build config derived +
          bytesSolved build id config ≤
        scratchStart build config derived :=
    Nat.add_le_add_left (le_alignUp _ (by omega)) _
  have hTransient :
      extent id 0
          (requests build
            (transientLayout id cub config derived)) ≤
        persistentOffset build id cub config derived :=
    le_max_left _ _
  have hTransientFits :=
    hTransient.trans_lt
      (persistentOffset_le_bytesStreams.trans_lt
        hParts.streams)
  have hTransientTakes :
      (transientArrays word
            (planned build word cub config derived) :
          List (NamedTake build)).map Prod.snd =
        transientLayout id cub config derived := by
    rw [transientArrays_takes,
      transientLayout_word hWord hTransientFits]
  have hCommonFits :=
    (extent_le_bytesFinal _ _).trans_lt hParts.select
  have hMaterializeFits :=
    (extent_le_bytesFinal _ _).trans_lt hParts.materialize
  have hMaterializeTakes :
      (finalMaterializeArrays
            (planned build word cub config derived) :
          List (NamedTake build)).map Prod.snd =
        finalMaterializeLayout id cub config
          (makeFinalLayoutShape config derived) := by
    rw [finalMaterializeArrays_takes,
      finalMaterializeLayout_word hWord _ hMaterializeFits]
  refine
    { root := rfl
      frontier := ?frontier
      solved := ?solved
      finalUnion := ?finalUnion
      transient := ?transient
      persistent := ?persistent
      finalCommon := ?finalCommon
      finalSelect := ?finalSelect
      finalMaterialize := ?finalMaterialize }
  case frontier =>
    have hExtent := hParts.frontier
    rw [← frontier_extent] at hExtent
    refine carved_of_takes hWord frontierArrays_takes hExtent
      hBase ?_
    rw [frontier_extent, Nat.zero_add]
    exact le_alignUp _ (by omega)
  case solved =>
    have hExtent := hStop.trans hScratchLe
    rw [← solved_extent] at hExtent hStop
    have hCarved :=
      carved_of_takes hWord
        (@solvedArrays_takes build word cub config derived)
        (hExtent.trans_lt hFits) hBase
        ((Nat.zero_add _).trans_le hStop)
    rw [Nat.zero_add] at hCarved
    exact hCarved
  case finalUnion =>
    by_cases hUnion : bytesUnion build word cub config = 0
    · have hNone :
          (laidOut build word cub config derived).finalUnion =
            [] :=
        congrArg (carveArrays word _ 0)
          (if_neg (not_not.mpr hUnion))
      rw [hNone]
      exact Carved.nil
    · have hLe :=
        @unionExtent_le_bytesUnion build cub config
          (capacity_ne_zero_of_union hUnion)
      exact carved_of_takes hWord
        (unionPart_takes hWord hParts.union hUnion)
        (hLe.trans_lt hParts.union) hPool
        (Nat.add_le_add_left hLe _)
  case transient =>
    exact carved_of_takes hWord hTransientTakes hTransientFits
      hPool (Nat.add_le_add_left hTransient _)
  case persistent =>
    exact carved_of_takes hWord persistentArrays_takes
      (streamsEnd_le_bytesStreams.trans_lt hParts.streams)
      hPool
      (Nat.add_le_add_left streamsEnd_le_bytesStreams _)
  case finalCommon =>
    have hLe :=
      extent_le_finalCommonBytes
        (finalCommonLayout config
          (makeFinalLayoutShape config derived) :
          List (Take build))
    exact carved_of_takes hWord finalCommonArrays_takes
      (hLe.trans_lt ((le_extent _ _).trans_lt hCommonFits))
      hPool (Nat.add_le_add_left hLe _)
  case finalSelect =>
    exact carved_of_takes hWord finalSelectArrays_takes
      hCommonFits hPool
      (Nat.add_le_add_left (extent_le_bytesFinal _ _) _)
  case finalMaterialize =>
    exact carved_of_takes hWord hMaterializeTakes
      hMaterializeFits hPool
      (Nat.add_le_add_left (extent_le_bytesFinal _ _) _)

theorem planned_totalDeviceBytes :
    (planned build word cub config
        derived).totalDeviceBytes =
      totalDeviceBytes build word cub config derived :=
  rfl

/- A plan whose bytes fit is allocated well laid. -/
theorem allocateStaticDeviceMemory_wellLaid
    (hWord : Fixes word bound)
    (hFits :
      totalDeviceBytes build id cub config derived < bound)
    {allocation : Nat}
    (hAllocation : 256 ∣ allocation) :
    ∃ memory,
      allocateStaticDeviceMemory build word
          (planned build word cub config derived) =
          .ok memory ∧
        memory.allocationBytes =
          totalDeviceBytes build word cub config derived ∧
        CarvesPlan build word
          (planned build word cub config derived) memory ∧
        WellLaid build allocation
          (totalDeviceBytes build id cub config derived)
          memory := by
  have hCommon :
      finalCommonBytes build id
          (finalCommonLayout config
            (makeFinalLayoutShape config derived)) ≤
        bytesFinalSelect build id config derived :=
    (le_extent _ _).trans (extent_le_bytesFinal _ _)
  exact ⟨laidOut build word cub config derived,
    allocateStaticDeviceMemory_eq hWord hFits, rfl,
    laidOut_carvesPlan,
    (laidParts hWord hFits hAllocation).wellLaid hCommon⟩

/-
  Device pages start at multiples of 256 bytes. While the exact
  total fits a word, the allocation succeeds, carves every array
  the plan took, and its arrays are inside it, aligned, and apart
  wherever they live together.
-/
theorem allocateStaticDeviceMemory_planned
    {allocation : Nat}
    {plan : DevicePlan}
    (hPlan :
      planDeviceMemory build (· % 2 ^ 64) cub config = .ok plan)
    (hFits : exactDeviceBytes build cub config < 2 ^ 64)
    (hAllocation : 256 ∣ allocation) :
    ∃ memory,
      allocateStaticDeviceMemory build (· % 2 ^ 64) plan =
          .ok memory ∧
        memory.allocationBytes = plan.totalDeviceBytes ∧
        plan.totalDeviceBytes =
          exactDeviceBytes build cub config ∧
        CarvesPlan build (· % 2 ^ 64) plan memory ∧
        WellLaid build allocation plan.totalDeviceBytes
          memory := by
  rcases planDeviceMemory_eq_ok hPlan with
    ⟨derived, hDerived, hExact⟩
  change
    plan = planned build (· % 2 ^ 64) cub config derived
    at hDerived
  rw [hExact] at hFits
  have hWord := fixes_mod (2 ^ 64)
  have hTotal :
      plan.totalDeviceBytes =
        totalDeviceBytes build id cub config derived := by
    rw [hDerived, planned_totalDeviceBytes]
    exact totalDeviceBytes_word hWord hFits
  rcases allocateStaticDeviceMemory_wellLaid hWord hFits
      hAllocation with
    ⟨memory, hMemory, hBytes, hCarves, hLaid⟩
  rw [← hDerived] at hMemory hCarves
  refine ⟨memory, hMemory, ?_, ?_, hCarves, ?_⟩
  · rw [hBytes, hDerived, planned_totalDeviceBytes]
  · rw [hTotal, hExact]
  · rw [hTotal]
    exact hLaid

end Allocation

/- A build with three moves. -/
def twoBankBuild : BuildConstants :=
  { moveCount := 3
    stateStorageLen := 32
    stateAlignment := 32
    depthFlowTrace := false
    movePos := by decide
    alignment_eq := by decide }

/- A configuration with two banks a shard. -/
def twoBankConfig : RuntimeConfig :=
  { bMicro := 2
    inferenceParallelism := 1
    stream3BatchCandidates := 12
    stream4BatchCandidates := 8
    stream4TriggerCandidates := 8
    stream4BatchAlignment := 1
    stream4ActiveSortSlots := 2
    ringCount := 2
    worldSize := 2
    localRank := 0
    shardCount := 2
    shardBufferCount := 2
    shardCapacityCandidates := 16
    shardCapacityScalePpm := 1000000
    globalSpillCapacity := 4
    globalSpillScalePpm := 1000000
    stream5RecvCapacityScalePpm := 1500000
    finalMaterializeChunkCandidates := 0
    finalMaterializeExchangeScalePpm := 1250000
    userGlobalBeamWidth := 20
    globalThresholdUpdatePeriodShards := 1
    solvedResultCapacity := 4
    solveBucketGatherScratchBytes := 0 }

/- Temporary bytes that grow with the sorted items. -/
def linearCub : CubQueries :=
  { hashSortValues := fun items => 24 * items + 1
    reduceMinValues := fun items => 24 * items + 1
    exclusiveSum := fun items => 4 * items + 1
    scoreSort := fun items => 12 * items + 1
    scoreReduce := fun items => 12 * items + 1
    partitionSort := fun items _ => 36 * items + 1
    partitionReduce := fun items => 8 * items + 1
    hashSortCandidates := fun items => 48 * items + 1
    reduceBestCandidates := fun items => 48 * items + 1
    stream4Scan := fun items => 4 * items + 1
    requestSort := fun items => 20 * items + 1 }

/- An allocation with a union. -/
theorem allocateStaticDeviceMemory_planned_twoBanks :
    ∃ plan memory,
      planDeviceMemory twoBankBuild (· % 2 ^ 64) linearCub
          twoBankConfig =
          .ok plan ∧
        allocateStaticDeviceMemory twoBankBuild (· % 2 ^ 64)
            plan =
          .ok memory ∧
        CarvesPlan twoBankBuild (· % 2 ^ 64) plan memory ∧
        WellLaid twoBankBuild 512 plan.totalDeviceBytes
          memory := by
  let derived : DerivedConfig :=
    { ringSlotCount := 2
      beamWidthAlignment := 4
      globalBeamWidthEffective := 20 }
  have hStatic :
      makeStaticMemoryPlan twoBankBuild.moveCount
          twoBankConfig =
        .ok (staticPlanOf twoBankConfig derived) := by
    decide
  have hPlan :
      planDeviceMemory twoBankBuild (· % 2 ^ 64) linearCub
          twoBankConfig =
        .ok
          (withDeviceBytes twoBankBuild (· % 2 ^ 64) linearCub
            twoBankConfig
            (staticPlanOf twoBankConfig derived)) := by
    unfold planDeviceMemory
    rw [hStatic]
  have hFits :
      exactDeviceBytes twoBankBuild linearCub twoBankConfig <
        2 ^ 64 := by
    unfold exactDeviceBytes planDeviceMemory
    rw [hStatic]
    change
      totalDeviceBytes twoBankBuild id linearCub twoBankConfig
          derived <
        2 ^ 64
    unfold totalDeviceBytes scratchPoolBytes bytesStreams
      transientLayout stream3Layout persistentLayout
    rw [scoreBinCount_eq]
    decide +kernel
  rcases allocateStaticDeviceMemory_planned hPlan hFits
      (show 256 ∣ 512 by decide) with
    ⟨memory, hMemory, -, -, hCarves, hLaid⟩
  exact ⟨_, memory, hPlan, hMemory, hCarves, hLaid⟩

end Memory

end BeamSearch
