import BeamSearch.Solve.UndoneMoves

/-
  The suffixes that stream 2 tries on every child.

  The host lists all move sequences up to a radius, shortest
  first, and for one of two backends the permutation that each
  of them composes to. A thread asks where a position of the
  final state comes from; both backends give the same source.

  Main declarations:
    * `buildStream2SuffixList`
    * `buildStream2ComposedPermutations`
    * `stream2SuffixSourceIndex`
    * `words`, `wordsUpTo`
    * `buildStream2SuffixList_words`
    * `stream2SuffixSourceIndex_eq`
-/

namespace BeamSearch

open Final Solve

namespace Stream2

variable {word : List Nat} {suffix : PackedSuffix} {heads : List (List Nat)}

----------------
-- The List Of Suffixes
----------------

/- All suffixes so far and those of the last length. -/
structure SuffixLayer where
  suffixes : List PackedSuffix
  next : List PackedSuffix

/- A suffix with one move more; the count may be bounded. -/
def appendChild
    (moveCount maxCount : Nat)
    (suffix : PackedSuffix)
    (layer : SuffixLayer)
    (move : Nat) : Except Exception SuffixLayer := do
  let child ← appendSuffixMove moveCount suffix move
  if maxCount ≠ 0 ∧ layer.suffixes.length ≥ maxCount then
    .error
      (.runtimeError
        "stream2 suffix table exceeded BEAM_STREAM2_SUFFIX_MAX_COUNT")
  else
    .ok ⟨layer.suffixes ++ [child], layer.next ++ [child]⟩

/- The suffixes that one has grown to. -/
def appendChildren
    (moveCount maxCount : Nat)
    (layer : SuffixLayer)
    (suffix : PackedSuffix) : Except Exception SuffixLayer :=
  (List.range moveCount).foldlM
    (appendChild moveCount maxCount suffix) layer

/- Length by length, up to the radius. -/
def growSuffixes
    (moveCount maxCount : Nat) :
    (radius : Nat) → (suffixes frontier : List PackedSuffix) →
      Except Exception (List PackedSuffix)
  | 0, suffixes, _ => .ok suffixes
  | radius + 1, suffixes, frontier => do
      let layer ←
        frontier.foldlM (appendChildren moveCount maxCount)
          ⟨suffixes, []⟩
      growSuffixes moveCount maxCount radius layer.suffixes
        layer.next

/- The list starts with the suffix of no moves. -/
def buildStream2SuffixList
    (moveCount maxCount radius : Nat) :
    Except Exception (List PackedSuffix) :=
  growSuffixes moveCount maxCount radius [⟨0, 0⟩] [⟨0, 0⟩]

----------------
-- Composed Permutations
----------------

/- The move is applied before those that come after it. -/
def composeMove
    (puzzle : Puzzle)
    (perm : Nat → UInt8)
    (move : Nat) : Nat → UInt8 :=
  fun p => perm (puzzle.generators move p)

/- The moves of a suffix as one permutation. -/
def composedRow
    (puzzle : Puzzle)
    (suffix : PackedSuffix) : Nat → UInt8 :=
  ((List.range suffix.len.toNat).map (packedMove suffix)).foldl
    (composeMove puzzle) UInt8.ofNat

/- One row of storage positions for every suffix. -/
def buildStream2ComposedPermutations
    (puzzle : Puzzle)
    (suffixes : List PackedSuffix) : Nat → UInt8 :=
  fun i =>
    composedRow puzzle
      (suffixes.getD (i / puzzle.layout.storageLen) ⟨0, 0⟩)
      (i % puzzle.layout.storageLen)

----------------
-- The Runtime Tables
----------------

/- The two ways of applying a suffix. -/
inductive SuffixBackend where
  | baseGenerators
  | composedPermutations
deriving DecidableEq, Repr

/- The suffixes on the host. -/
structure Stream2SuffixRuntime where
  radius : Nat
  backend : SuffixBackend
  suffixes : List PackedSuffix
  composedPermutations : Option (Nat → UInt8)

/- What the device is given of them. -/
structure Stream2SuffixDeviceTable where
  packedMoves : Nat → UInt64
  lengths : Nat → UInt8
  composedPermutations : Option (Nat → UInt8)
  suffixCount : UInt32
  backend : SuffixBackend
  enabled : Bool

namespace Stream2SuffixRuntime

/- There are suffixes to try. -/
def enabled (runtime : Stream2SuffixRuntime) : Bool :=
  runtime.radius != 0 && !runtime.suffixes.isEmpty

/- The arrays of the device, and their length. -/
def deviceTable
    (runtime : Stream2SuffixRuntime) :
    Stream2SuffixDeviceTable where
  packedMoves id := (runtime.suffixes.getD id ⟨0, 0⟩).moves
  lengths id := (runtime.suffixes.getD id ⟨0, 0⟩).len
  composedPermutations := runtime.composedPermutations
  suffixCount := UInt32.ofNat runtime.suffixes.length
  backend := runtime.backend
  enabled := runtime.enabled

/- What the host reads suffixes from. -/
def table (runtime : Stream2SuffixRuntime) : Stream2Suffix where
  suffixes := runtime.suffixes

end Stream2SuffixRuntime

/- The tables of a radius that is searched at all. -/
def makeStream2SuffixTables
    (puzzle : Puzzle)
    (radius maxCount : Nat)
    (backend : SuffixBackend) :
    Except Exception Stream2SuffixRuntime := do
  let suffixes ←
    buildStream2SuffixList puzzle.moveCount maxCount radius
  if suffixes.length > 2 ^ 32 - 1 then
    .error
      (.runtimeError "stream2 suffix table exceeds uint32 range")
  else
    .ok
      { radius := radius
        backend := backend
        suffixes := suffixes
        composedPermutations :=
          match backend with
          | .baseGenerators => none
          | .composedPermutations =>
              some
                (buildStream2ComposedPermutations puzzle
                  suffixes) }

/- No suffixes were asked for. -/
def disabledSuffixes (backend : SuffixBackend) :
    Stream2SuffixRuntime where
  radius := 0
  backend := backend
  suffixes := []
  composedPermutations := none

/- The suffixes, as far as they are asked for. -/
def stream2SuffixTables
    (puzzle : Puzzle)
    (radius maxCount : Nat)
    (backend : SuffixBackend) :
    Except Exception Stream2SuffixRuntime :=
  if radius = 0 then .ok (disabledSuffixes backend)
  else makeStream2SuffixTables puzzle radius maxCount backend

/- Where a position comes from before the suffix is applied. -/
def stream2SuffixSourceIndex
    (puzzle : Puzzle)
    (table : Stream2SuffixDeviceTable)
    (suffixId position : Nat) : Nat :=
  match table.backend, table.composedPermutations with
  | .composedPermutations, some permutations =>
      (permutations
        (suffixId * puzzle.layout.storageLen + position)).toNat
  | _, _ =>
      let suffix : PackedSuffix :=
        ⟨table.packedMoves suffixId, table.lengths suffixId⟩
      (List.range suffix.len.toNat).reverse.foldl
        (fun source step =>
          puzzle.generators (packedMove suffix step) source)
        position

----------------
-- Words
----------------

/- The move sequences of one length, in the order they are made. -/
def words (moveCount : Nat) : Nat → List (List Nat)
  | 0 => [[]]
  | n + 1 =>
      (words moveCount n).flatMap fun word =>
        (List.range moveCount).map fun move => word ++ [move]

/- The words of no more than so many moves. -/
def wordsUpTo (moveCount : Nat) : Nat → List (List Nat)
  | 0 => words moveCount 0
  | n + 1 => wordsUpTo moveCount n ++ words moveCount (n + 1)

variable {moveCount maxCount : Nat}

theorem mem_words
    {n : Nat} :
    word ∈ words moveCount n ↔
      word.length = n ∧ ∀ move ∈ word, move < moveCount := by
  induction n generalizing word with
  | zero =>
      rw [words, List.mem_singleton, List.length_eq_zero_iff]
      exact
        ⟨fun hNil => ⟨hNil, by simp [hNil]⟩, fun hWord => hWord.1⟩
  | succ n ih =>
      rw [words, List.mem_flatMap]
      constructor
      · rintro ⟨before, hBefore, hWord⟩
        rcases List.mem_map.mp hWord with ⟨move, hMove, rfl⟩
        rcases ih.mp hBefore with ⟨hLength, hSmall⟩
        refine ⟨by simp [hLength], fun other hOther => ?_⟩
        rcases List.mem_append.mp hOther with hOld | hLast
        · exact hSmall other hOld
        · rw [List.mem_singleton.mp hLast]
          exact List.mem_range.mp hMove
      · rintro ⟨hLength, hSmall⟩
        have hNe : word ≠ [] := by
          rintro rfl
          cases hLength
        refine ⟨word.dropLast, ih.mpr ⟨?_, fun move hMove =>
          hSmall move (List.mem_of_mem_dropLast hMove)⟩, ?_⟩
        · rw [List.length_dropLast]
          omega
        · refine List.mem_map.mpr ⟨word.getLast hNe, ?_, ?_⟩
          · exact List.mem_range.mpr
              (hSmall _ (List.getLast_mem hNe))
          · exact List.dropLast_append_getLast hNe

theorem mem_wordsUpTo
    {n : Nat} :
    word ∈ wordsUpTo moveCount n ↔
      word.length ≤ n ∧ ∀ move ∈ word, move < moveCount := by
  induction n with
  | zero => rw [wordsUpTo, mem_words, Nat.le_zero]
  | succ n ih =>
      rw [wordsUpTo, List.mem_append, ih, mem_words,
        ← or_and_right]
      refine and_congr_left' ?_
      omega

/- Shorter words come first. -/
theorem wordsUpTo_sorted
    (n : Nat) :
    (wordsUpTo moveCount n).Pairwise
      fun a b => a.length ≤ b.length := by
  have hFlat : ∀ k, (words moveCount k).Pairwise
      fun a b => a.length ≤ b.length := by
    intro k
    refine List.pairwise_of_forall_mem_list fun a ha b hb => ?_
    rw [(mem_words.mp ha).1, (mem_words.mp hb).1]
  induction n with
  | zero => exact hFlat 0
  | succ n ih =>
      refine List.pairwise_append.mpr
        ⟨ih, hFlat _, fun a ha b hb => ?_⟩
      have hA := (mem_wordsUpTo.mp ha).1
      have hB := (mem_words.mp hb).1
      omega

theorem wordsUpTo_head
    (n : Nat) :
    (wordsUpTo moveCount n)[0]? = some [] := by
  induction n with
  | zero => rfl
  | succ n ih =>
      have hLength := (List.getElem?_eq_some_iff.mp ih).1
      rw [wordsUpTo, List.getElem?_append_left hLength]
      exact ih

----------------
-- The List Packs The Words
----------------

theorem appendChild_run
    {moves : List Nat}
    {layer last : SuffixLayer}
    (hCount : moveCount ≤ 32)
    (hPacks : Packs suffix word)
    (hRun :
      moves.foldlM (appendChild moveCount maxCount suffix) layer =
        .ok last) :
    ∃ added,
      last = ⟨layer.suffixes ++ added, layer.next ++ added⟩ ∧
        List.Forall₂ Packs added
          (moves.map fun move => word ++ [move]) := by
  induction moves generalizing layer with
  | nil =>
      cases hRun
      exact ⟨[], by simp, List.Forall₂.nil⟩
  | cons move moves ih =>
      rw [List.foldlM_cons] at hRun
      rcases except_bind_eq_ok hRun with ⟨next, hStep, hRest⟩
      rcases except_bind_eq_ok hStep with ⟨child, hChild, hAdd⟩
      split_ifs at hAdd
      cases hAdd
      rcases ih hRest with ⟨added, rfl, hAdded⟩
      exact
        ⟨child :: added, by simp,
          List.Forall₂.cons (hPacks.append hCount hChild) hAdded⟩

theorem appendChildren_run
    {frontier : List PackedSuffix}
    {layer last : SuffixLayer}
    (hCount : moveCount ≤ 32)
    (hFrontier : List.Forall₂ Packs frontier heads)
    (hRun :
      frontier.foldlM (appendChildren moveCount maxCount) layer =
        .ok last) :
    ∃ added,
      last = ⟨layer.suffixes ++ added, layer.next ++ added⟩ ∧
        List.Forall₂ Packs added
          (heads.flatMap fun word =>
            (List.range moveCount).map fun move =>
              word ++ [move]) := by
  induction hFrontier generalizing layer with
  | nil =>
      cases hRun
      exact ⟨[], by simp, List.Forall₂.nil⟩
  | cons hPacks _ ih =>
      rw [List.foldlM_cons] at hRun
      rcases except_bind_eq_ok hRun with ⟨next, hStep, hRest⟩
      rcases appendChild_run hCount hPacks hStep with
        ⟨children, rfl, hChildren⟩
      rcases ih hRest with ⟨added, rfl, hAdded⟩
      exact
        ⟨children ++ added, by simp, List.rel_append hChildren hAdded⟩

theorem growSuffixes_words
    {radius n : Nat}
    {suffixes frontier result : List PackedSuffix}
    (hCount : moveCount ≤ 32)
    (hSuffixes :
      List.Forall₂ Packs suffixes (wordsUpTo moveCount n))
    (hFrontier : List.Forall₂ Packs frontier (words moveCount n))
    (hRun :
      growSuffixes moveCount maxCount radius suffixes frontier =
        .ok result) :
    List.Forall₂ Packs result
      (wordsUpTo moveCount (n + radius)) := by
  induction radius generalizing n suffixes frontier with
  | zero =>
      cases hRun
      exact hSuffixes
  | succ radius ih =>
      rcases except_bind_eq_ok hRun with ⟨layer, hLayer, hRest⟩
      rcases appendChildren_run hCount hFrontier hLayer with
        ⟨added, rfl, hAdded⟩
      rw [← Nat.add_assoc, Nat.add_right_comm]
      exact ih (List.rel_append hSuffixes hAdded) hAdded hRest

/- The list holds every word once, shorter words first. -/
theorem buildStream2SuffixList_words
    {radius : Nat}
    {suffixes : List PackedSuffix}
    (hCount : moveCount ≤ 32)
    (hBuild :
      buildStream2SuffixList moveCount maxCount radius =
        .ok suffixes) :
    List.Forall₂ Packs suffixes (wordsUpTo moveCount radius) := by
  have hStart :
      List.Forall₂ Packs [⟨0, 0⟩] (words moveCount 0) :=
    List.Forall₂.cons packs_nil List.Forall₂.nil
  have hAll := growSuffixes_words hCount hStart hStart hBuild
  rwa [Nat.zero_add] at hAll

----------------
-- Both Backends
----------------

/- Where a position comes from before a word is applied. -/
def wordSource
    (puzzle : Puzzle)
    (word : List Nat)
    (position : Nat) : Nat :=
  word.foldr puzzle.generators position

variable {puzzle : Puzzle}

theorem wordSource_lt
    (hPermutes : puzzle.Permutes)
    {p : Nat}
    (hWord : ∀ move ∈ word, move < puzzle.moveCount)
    (hp : p < puzzle.layout.storageLen) :
    wordSource puzzle word p < puzzle.layout.storageLen := by
  induction word with
  | nil => exact hp
  | cons move word ih =>
      exact hPermutes.range move (hWord move List.mem_cons_self) _
        (ih fun other hOther =>
          hWord other (List.mem_cons_of_mem _ hOther))

theorem packedMoves_eq
    (hPacks : Packs suffix word) :
    (List.range suffix.len.toNat).map (packedMove suffix) =
      word := by
  have hAll := hPacks.append_packed []
  rw [appendPackedSuffix, List.nil_append, List.nil_append] at hAll
  exact hAll

/- A composed row reads the position the word comes from. -/
theorem composedRow_apply
    (hPermutes : puzzle.Permutes)
    {p : Nat}
    (hPacks : Packs suffix word)
    (hWord : ∀ move ∈ word, move < puzzle.moveCount)
    (hp : p < puzzle.layout.storageLen) :
    (composedRow puzzle suffix p).toNat =
      wordSource puzzle word p := by
  have hFold : ∀ (later : List Nat) (q : Nat),
      later.foldl (composeMove puzzle) UInt8.ofNat q =
        UInt8.ofNat (wordSource puzzle later q) := by
    intro later
    induction later using List.reverseRecOn with
    | nil => exact fun _ => rfl
    | append_singleton later move ih =>
        intro q
        rw [List.foldl_append, wordSource, List.foldr_append]
        exact ih (puzzle.generators move q)
  rw [composedRow, packedMoves_eq hPacks, hFold]
  have hLt := wordSource_lt hPermutes hWord hp
  have hBytes := hPermutes.bytes
  rw [UInt8.toNat_ofNat']
  omega

/- The tables of a search of these words with this backend. -/
structure TablesOf
    (puzzle : Puzzle)
    (runtime : Stream2SuffixRuntime)
    (heads : List (List Nat)) : Prop where
  packs : List.Forall₂ Packs runtime.suffixes heads
  fits : runtime.suffixes.length < 2 ^ 32
  composed : runtime.composedPermutations =
    match runtime.backend with
    | .baseGenerators => none
    | .composedPermutations =>
        some
          (buildStream2ComposedPermutations puzzle
            runtime.suffixes)

variable {runtime : Stream2SuffixRuntime}

theorem makeStream2SuffixTables_tables
    {radius : Nat}
    {backend : SuffixBackend}
    (hCount : puzzle.moveCount ≤ 32)
    (hMake :
      makeStream2SuffixTables puzzle radius maxCount backend =
        .ok runtime) :
    TablesOf puzzle runtime (wordsUpTo puzzle.moveCount radius) ∧
      runtime.radius = radius ∧ runtime.backend = backend := by
  rcases except_bind_eq_ok hMake with ⟨suffixes, hBuild, hRest⟩
  split_ifs at hRest with hLong
  cases hRest
  exact
    ⟨⟨buildStream2SuffixList_words hCount hBuild,
      by dsimp only; omega, rfl⟩, rfl, rfl⟩

theorem TablesOf.packs_getElem
    (hTables : TablesOf puzzle runtime heads)
    {id : Nat}
    (hId : id < heads.length) :
    Packs (runtime.suffixes.getD id ⟨0, 0⟩) heads[id] := by
  have hLength := hTables.packs.length_eq
  have hLt : id < runtime.suffixes.length := by omega
  rw [List.getD_eq_getElem?_getD, List.getElem?_eq_getElem hLt,
    Option.getD_some]
  exact (List.forall₂_iff_get.mp hTables.packs).2 id hLt hId

/- Both backends give the source of the word. -/
theorem stream2SuffixSourceIndex_eq
    (hPermutes : puzzle.Permutes)
    {id p : Nat}
    (hTables : TablesOf puzzle runtime heads)
    (hId : id < heads.length)
    (hWord : ∀ move ∈ heads[id], move < puzzle.moveCount)
    (hp : p < puzzle.layout.storageLen) :
    stream2SuffixSourceIndex puzzle runtime.deviceTable id p =
      wordSource puzzle heads[id] p := by
  have hPacks := hTables.packs_getElem hId
  have hComposed := hTables.composed
  rw [stream2SuffixSourceIndex, Stream2SuffixRuntime.deviceTable]
  cases hBackend : runtime.backend with
  | baseGenerators =>
      rw [hBackend] at hComposed
      rw [hComposed]
      dsimp only
      rw [List.foldl_reverse, wordSource,
        ← packedMoves_eq hPacks, List.foldr_map]
  | composedPermutations =>
      rw [hBackend] at hComposed
      rw [hComposed]
      dsimp only
      have hDiv : (id * puzzle.layout.storageLen + p) /
          puzzle.layout.storageLen = id := by
        rw [Nat.mul_comm, Nat.mul_add_div (by omega),
          Nat.div_eq_of_lt hp, Nat.add_zero]
      have hMod : (id * puzzle.layout.storageLen + p) %
          puzzle.layout.storageLen = p := by
        rw [Nat.mul_comm, Nat.mul_add_mod, Nat.mod_eq_of_lt hp]
      rw [buildStream2ComposedPermutations, hDiv, hMod]
      exact composedRow_apply hPermutes hPacks hWord hp

end Stream2

end BeamSearch
