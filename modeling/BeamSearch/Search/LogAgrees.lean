import BeamSearch.Search.LogLines
import Mathlib.Algebra.BigOperators.Group.Finset.Basic

/-
  The log of a run and the parser of the log agree.

  The lines of all ranks, in any order that keeps each rank's
  own, tell what rank zero's lines tell in their order, and as
  many answers as there are.

  Main declarations:
    * `merged_collected`, `merged_records`
    * `RankTells`, `rankTells`
    * `runnerLog_agrees`
-/

namespace BeamSearch

open Text

namespace Search

namespace TerminalParser

variable {names : List Text} {moveCount : Nat} {first : TerminalParser}
    {answer : Option (List Nat)} {config : Solve.BucketConfig}
    {rows : List Solve.SolveRow} {labels : Solve.TaskLabels} {items : List Collected}

----------------
-- Merged Logs
----------------

/- A path in the synthetic names is written with dots. -/
theorem path_of_names
    {moves : List Nat}
    {path : Text}
    (hNames : names = Solve.syntheticNames moveCount)
    (hPath : Solve.movesToPathText names moves = .ok path) :
    path = ['.'].intercalate (moves.map Solve.syntheticName) := by
  subst hNames
  exact path_of_syntheticNames hPath

/- What only the first rank says keeps its order. -/
theorem flatMap_of_filter
    {α β : Type}
    {f : α → List β}
    {p : α → Bool}
    {xs : List α}
    (hSilent : ∀ x ∈ xs, p x = false → f x = []) :
    xs.flatMap f = (xs.filter p).flatMap f := by
  induction xs with
  | nil => rfl
  | cons x xs ih =>
      have hRest :=
        ih fun y hy => hSilent y (List.mem_cons_of_mem x hy)
      cases hx : p x with
      | true =>
          rw [List.filter_cons, if_pos hx, List.flatMap_cons,
            List.flatMap_cons, hRest]
      | false =>
          rw [List.filter_cons, if_neg (by simp [hx]),
            List.flatMap_cons, hSilent x List.mem_cons_self hx,
            hRest]
          rfl

/- A sum over the log is a sum over the ranks. -/
theorem sum_by_rank
    {worldSize : Nat}
    {log : List (Nat × Text)}
    (f : Text → Nat)
    (hRanks : ∀ entry ∈ log, entry.1 < worldSize)
    (hSilent : ∀ entry ∈ log, '=' ∉ entry.2 → f entry.2 = 0) :
    (log.map fun entry => f entry.2).sum =
      ∑ rank ∈ Finset.range worldSize,
        (((log.filter fun entry =>
              entry.1 == rank && entry.2.contains '=').map
            Prod.snd).map f).sum := by
  induction log with
  | nil => simp
  | cons entry log ih =>
      have hRest :=
        ih (fun e hE => hRanks e (List.mem_cons_of_mem entry hE))
          fun e hE => hSilent e (List.mem_cons_of_mem entry hE)
      have hEach :
          ∀ rank,
            ((((entry :: log).filter fun e =>
                    e.1 == rank && e.2.contains '=').map
                  Prod.snd).map f).sum =
              (if rank = entry.1 then f entry.2 else 0) +
                (((log.filter fun e =>
                      e.1 == rank && e.2.contains '=').map
                    Prod.snd).map f).sum := by
        intro rank
        by_cases hEquals : '=' ∈ entry.2
        · by_cases hRank : rank = entry.1
          · simp [hRank, hEquals]
          · have hOther : entry.1 ≠ rank := Ne.symm hRank
            simp [hRank, hOther]
        · have hZero := hSilent entry List.mem_cons_self hEquals
          simp [hEquals, hZero]
      rw [List.map_cons, List.sum_cons, hRest,
        Finset.sum_congr rfl fun rank _ => hEach rank,
        Finset.sum_add_distrib, Finset.sum_ite_eq',
        if_pos
          (Finset.mem_range.mpr
            (hRanks entry List.mem_cons_self))]

/- What several lines tell together. -/
structure Told
    (first : TerminalParser)
    (answer : Option (List Nat))
    (lines : List Text)
    (said : Said) : Prop where
  each :
    ∀ line ∈ lines, ∃ said : Said,
      said.records < 2 ^ 64 ∧ Tells first answer line said
  total : Said.total (lines.map first.heard) = said

theorem told_nil
    (first : TerminalParser)
    (answer : Option (List Nat)) :
    Told first answer [] Said.nothing :=
  ⟨fun _ hLine => (nomatch hLine), rfl⟩

theorem Said.total_append (a b : List Said) :
    total (a ++ b) = (total a).add (total b) := by
  induction a with
  | nil =>
      change total b = _
      rw [Said.add]
      change _ = (⟨[] ++ _, [] ++ _, 0 + _⟩ : Said)
      rw [List.nil_append, List.nil_append, Nat.zero_add]
  | cons said a ih =>
      change said.add (total (a ++ b)) = _
      rw [ih]
      change
        said.add ((total a).add (total b)) =
          (said.add (total a)).add (total b)
      simp only [Said.add, List.append_assoc, Nat.add_assoc]

/- What two parts of a log tell. -/
theorem Told.append
    {as bs : List Text}
    {a b : Said}
    (hA : Told first answer as a)
    (hB : Told first answer bs b) :
    Told first answer (as ++ bs) (a.add b) where
  each line hLine := by
    rcases List.mem_append.mp hLine with hLine | hLine
    · exact hA.each line hLine
    · exact hB.each line hLine
  total := by
    rw [List.map_append, Said.total_append, hA.total, hB.total]

/- What one line tells. -/
theorem Tells.told
    {line : Text}
    {said : Said}
    (hBlank : first.Blank)
    (hTells : Tells first answer line said)
    (hFits : said.records < 2 ^ 64) :
    Told first answer [line] said where
  each other hOther :=
    ⟨said, hFits, List.mem_singleton.mp hOther ▸ hTells⟩
  total := by
    rw [List.map_singleton, hTells.heard_eq hBlank hFits]
    change
      (⟨said.collected ++ [], said.counts ++ [],
        said.records + 0⟩ : Said) = said
    rw [List.append_nil, List.append_nil, Nat.add_zero]

/- Lines that tell nothing. -/
theorem told_quiet
    {lines : List Text}
    (hBlank : first.Blank)
    (hQuiet :
      ∀ line ∈ lines, Tells first answer line Said.nothing) :
    Told first answer lines Said.nothing := by
  induction lines with
  | nil => exact told_nil first answer
  | cons line lines ih =>
      have hFirst :=
        (hQuiet line List.mem_cons_self).told hBlank
          (by decide)
      exact
        hFirst.append
          (ih fun other hOther =>
            hQuiet other (List.mem_cons_of_mem line hOther))

----------------
-- Ranks
----------------

/- An accepted row and the item the parser makes of it. -/
structure CollectsRow
    (names : List Text)
    (row : Solve.SolveRow)
    (item : Collected) : Prop where
  path : Solve.movesToPathText names item.path = .ok row.path
  solvedDepth : item.solvedDepth = row.foundDepth.toNat
  touchDepth :
    item.solvedDepth + item.touchDepth = item.path.length
  ownerRank : item.ownerRank = row.ownerRank.toNat

/- The collected item of a reported row. -/
structure ItemOf
    (first : TerminalParser)
    (names : List Text)
    (row : Solve.SolveRow)
    (item : Collected) : Prop where
  built : item = itemOf row item.path
  named : Names row item.path
  playable : Playable first item.path
  path : Solve.movesToPathText names item.path = .ok row.path

theorem ItemOf.collectsRow
    {row : Solve.SolveRow}
    {item : Collected}
    (hItem : ItemOf first names row item) :
    CollectsRow names row item where
  path := hItem.path
  solvedDepth := by
    rw [hItem.built]
    rfl
  touchDepth := by
    have hFound := hItem.named.found
    rw [hItem.built]
    change
      row.foundDepth.toNat +
          (item.path.length - row.foundDepth.toNat) =
        item.path.length
    omega
  ownerRank := by
    rw [hItem.built]
    rfl

/- Every row of a bucket is an item. -/
theorem exists_items
    (hNames :
      config.puzzle.names = Solve.syntheticNames moveCount)
    (hSolved : ∀ row ∈ rows, Solve.SolvedRow config row)
    (hPlayable :
      ∀ row ∈ rows, ∀ moves,
        Solve.movesToPathText config.puzzle.names moves =
            .ok row.path →
          Playable first moves) :
    ∃ items,
      List.Forall₂ (ItemOf first config.puzzle.names) rows
        items := by
  induction rows with
  | nil => exact ⟨[], List.Forall₂.nil⟩
  | cons row rows ih =>
      rcases ih
          (fun other hOther =>
            hSolved other (List.mem_cons_of_mem row hOther))
          fun other hOther =>
            hPlayable other (List.mem_cons_of_mem row hOther) with
        ⟨items, hItems⟩
      rcases hSolved row List.mem_cons_self with
        ⟨moves, hPath, hLength, hFound⟩
      have hMoves :=
        hPlayable row List.mem_cons_self moves hPath
      have hText :
          row.path =
            ['.'].intercalate
              (moves.map Solve.syntheticName) :=
        path_of_names hNames hPath
      have hWord : row.totalDepth.toNat = moves.length := by
        rw [hLength]
        exact UInt32.toNat_ofNat_of_lt hMoves.fits
      exact
        ⟨itemOf row moves :: items,
          List.Forall₂.cons
            ⟨rfl, ⟨hText, hWord, hFound⟩, hMoves, hPath⟩ hItems⟩

/- The rows of a solution tell their items. -/
theorem told_rows
    (answer : Option (List Nat))
    (hBlank : first.Blank)
    (hPuzzle : labels.puzzleId = 0)
    (hItems :
      List.Forall₂ (ItemOf first names) rows items) :
    Told first answer (rows.map (Solve.solutionLine labels))
      ⟨items, [], 0⟩ := by
  induction hItems with
  | nil => exact told_nil first answer
  | cons hItem _ ih =>
      rename_i row item rows items
      have hLine :=
        (tells_solution answer hPuzzle hItem.named
          hItem.playable).told hBlank (Nat.two_pow_pos 64)
      rw [← hItem.built] at hLine
      exact hLine.append ih

/- The lines of a bucket tell its rows. -/
theorem told_bucketLines
    {world : Solve.World}
    (seconds : Double)
    (answer : Option (List Nat))
    (records : Nat)
    (stop : Option Solve.BucketStop)
    (hBlank : first.Blank)
    (hPuzzle : labels.puzzleId = 0)
    (hPath : '=' ∉ labels.resultPath)
    (hFits : world.controller.recordCount < 2 ^ 64)
    (hItems :
      List.Forall₂ (ItemOf first names) world.controller.rows
        items)
    (hBest :
      Told first answer
        (Solve.bestLines labels seconds world.controller)
        ⟨[], [], records⟩) :
    Told first answer
      (Solve.bucketLines labels seconds world stop)
      ⟨items, [world.controller.recordCount], records⟩ := by
  have hRows := told_rows answer hBlank hPuzzle hItems
  have hStop :
      Told first answer
        (Solve.stopLines labels (world.ranks 0) stop)
        Said.nothing :=
    told_quiet hBlank fun line hLine =>
      tells_stopLines first answer hLine
  have hSummary :=
    (tells_summary first answer hPuzzle hPath hFits).told hBlank
      (Nat.two_pow_pos 64)
  have hLengths :
      Told first answer
        ((Solve.countedLengths world.controller).map
          (Solve.lengthLine labels world.controller))
        Said.nothing :=
    told_quiet hBlank fun line hLine => by
      rcases List.mem_map.mp hLine with ⟨length, -, rfl⟩
      exact tells_lengthLine first answer _ _ _
  have hAll :=
    (((hRows.append hStop).append hSummary).append
      hLengths).append hBest
  simpa [Said.add, Said.nothing, Solve.bucketLines] using hAll

/- A run whose reported paths can be played. -/
structure Reported
    {config : Solve.BucketConfig}
    (first : TerminalParser)
    (labels : Solve.TaskLabels)
    (seconds : Nat → Double)
    (ending : Solve.TaskEnd config) : Prop where
  puzzle : labels.puzzleId = 0
  resultPath : '=' ∉ labels.resultPath
  times : ∀ rank < config.worldSize.toNat, IsTime (seconds rank)
  rows :
    ∀ row ∈ ending.rows, ∀ moves,
      Solve.movesToPathText config.puzzle.names moves =
          .ok row.path →
        Playable first moves
  single :
    ∀ solution, ending = .single (some solution) →
      Playable first solution.moves
  fits : ending.rows.length < 2 ^ 64

/- What a rank tells: the rows if it is the first, and an answer
if it has one. -/
def rankSaid
    {config : Solve.BucketConfig}
    (ending : Solve.TaskEnd config)
    (items : List Collected)
    (rank : Nat) : Said where
  collected := if rank = 0 then items else []
  counts :=
    if rank = 0 ∧ ending.isBucket = true then [items.length]
    else []
  records :=
    if rank = 0 ∨ ending.printedPath = none then 1 else 0

/- The answer all ranks agree on. -/
structure AnswerOf
    {config : Solve.BucketConfig}
    (ending : Solve.TaskEnd config)
    (items : List Collected)
    (answer : Option (List Nat)) : Prop where
  path :
    Option.Rel
      (fun text moves =>
        Solve.movesToPathText config.puzzle.names moves =
          .ok text)
      ending.printedPath answer
  collected :
    ending.isBucket = true →
      ∀ moves, answer = some moves →
        moves ∈ items.map Collected.path
  solved :
    ending.isBucket = true →
      (answer = none ↔ items = [])

/- A bucket's report tells what the bucket holds. -/
theorem bucket_told
    {seconds : Nat → Double}
    {world : Solve.World}
    {hReached : Solve.Reached config world}
    {stop : Option Solve.BucketStop}
    (hWorld : 0 < config.worldSize.toNat)
    (hBlank : first.Blank)
    (hNames :
      config.puzzle.names = Solve.syntheticNames moveCount)
    (hReported :
      Reported first labels seconds
        (.bucket world hReached stop)) :
    ∃ items answer,
      List.Forall₂ (ItemOf first config.puzzle.names)
          world.controller.rows items ∧
        AnswerOf (.bucket world hReached stop) items answer ∧
        ∀ rank < config.worldSize.toNat,
          Told first answer
            (Solve.rankLines labels seconds
              (.bucket world hReached stop) rank)
            (rankSaid (.bucket world hReached stop) items
              rank) := by
  have hKnown := hReached.reports hWorld
  have hKept := hKnown.kept
  rcases exists_items hNames hKept.solved hReported.rows with
    ⟨items, hItems⟩
  have hCount : world.controller.recordCount = items.length :=
    hKept.count.trans hItems.length_eq
  have hFits : world.controller.recordCount < 2 ^ 64 := by
    rw [hKept.count]
    exact hReported.fits
  have hEmpty : world.controller.rows = [] ↔ items = [] := by
    rw [← List.length_eq_zero_iff, hItems.length_eq,
      List.length_eq_zero_iff]
  have hFound :
      ∀ rank < config.worldSize.toNat,
        ((world.ranks rank).foundAny = true ↔
          world.controller.rows ≠ []) := by
    intro rank hRank
    rw [hKnown.uniform rank hRank]
    exact hKnown.found
  cases hLength : world.controller.solutionLength with
  | none =>
      -- No row: every rank prints that it knows no solution.
      have hRows := hKept.unsolved hLength
      refine ⟨items, none, hItems, ⟨?_, ?_, ?_⟩, ?_⟩
      · change Option.Rel _ (world.controller.solutionLength.map
          fun _ => world.controller.solutionPath) _
        rw [hLength]
        exact Option.Rel.none
      · exact fun _ _ hSome => nomatch hSome
      · exact fun _ => iff_of_true rfl (hEmpty.mp hRows)
      · intro rank hRank
        have hUnsolved :
            Told first none
              [Solve.unsolvedLine labels (seconds rank)]
              ⟨[], [], 1⟩ :=
          (tells_unsolved first hReported.puzzle
            (hReported.times rank hRank)).told hBlank
            (by decide)
        have hSilent :
            (world.ranks rank).foundAny = false :=
          Bool.eq_false_iff.mpr fun hAny =>
            (hFound rank hRank).mp hAny hRows
        have hNone :
            (Solve.TaskEnd.bucket world hReached
                stop).printedPath =
              none := by
          change world.controller.solutionLength.map _ = none
          rw [hLength]
          rfl
        rw [Solve.rankLines, hSilent, rankSaid, hNone]
        by_cases hZero : rank = 0
        · have hBucket :=
            told_bucketLines (seconds rank) none 0 stop hBlank
              hReported.puzzle
              hReported.resultPath hFits hItems (by
                rw [Solve.bestLines, hLength]
                exact told_nil first none)
          have hBoth := hBucket.append hUnsolved
          rw [hCount] at hBoth
          simpa [hZero, Said.add, Solve.TaskEnd.isBucket]
            using hBoth
        · have hNothing := told_nil first none
          simpa [hZero, Said.add, Said.nothing,
            Solve.TaskEnd.isBucket] using
            hNothing.append hUnsolved
  | some length =>
      rcases hKept.best length hLength with
        ⟨row, hRow, hDepth, hPath⟩
      rcases List.getElem_of_mem hRow with ⟨i, hi, rfl⟩
      have hj : i < items.length := by
        rw [← hItems.length_eq]
        exact hi
      have hItem := hItems.get hi hj
      rw [List.get_eq_getElem, List.get_eq_getElem] at hItem
      have hIn :
          items[i].path ∈ items.map Collected.path :=
        List.mem_map_of_mem (List.getElem_mem hj)
      have hNonempty : world.controller.rows ≠ [] :=
        List.ne_nil_of_mem hRow
      refine
        ⟨items, some items[i].path, hItems, ⟨?_, ?_, ?_⟩, ?_⟩
      · change Option.Rel _ (world.controller.solutionLength.map
          fun _ => world.controller.solutionPath) _
        rw [hLength]
        refine Option.Rel.some ?_
        rw [← hPath]
        exact hItem.path
      · rintro - moves hSome
        cases hSome
        exact hIn
      · refine fun _ =>
          iff_of_false (fun hNone => nomatch hNone) ?_
        intro hNil
        exact hNonempty (hEmpty.mpr hNil)
      · intro rank hRank
        have hAny : (world.ranks rank).foundAny = true :=
          (hFound rank hRank).mpr hNonempty
        have hSolved :
            (Solve.TaskEnd.bucket world hReached
                stop).printedPath ≠
              none := by
          change world.controller.solutionLength.map _ ≠ none
          rw [hLength]
          exact Option.some_ne_none _
        rw [Solve.rankLines, hAny, rankSaid]
        by_cases hZero : rank = 0
        · have hBest :
              Told first (some items[i].path)
                (Solve.bestLines labels (seconds rank)
                  world.controller)
                ⟨[], [], 1⟩ := by
            rw [Solve.bestLines, hLength]
            exact
              (tells_best hReported.puzzle
                (hReported.times rank hRank)
                (hPath.symm.trans hItem.named.path)
                (by rw [← hDepth, hItem.named.length])
                hItem.playable).told hBlank (by decide)
          have hBucket :=
            told_bucketLines _ _ _ stop hBlank hReported.puzzle
              hReported.resultPath hFits hItems hBest
          rw [hCount] at hBucket
          simpa [hZero, Solve.TaskEnd.isBucket] using hBucket
        · have hNothing :=
            told_nil first (some items[i].path)
          simpa [hZero, hSolved, Said.nothing] using hNothing

/- The report of one solution tells that solution. -/
theorem single_told
    {seconds : Nat → Double}
    {solution :
      Option (Solve.SingleSolution config.puzzle.names)}
    (hBlank : first.Blank)
    (hNames :
      config.puzzle.names = Solve.syntheticNames moveCount)
    (hReported :
      Reported first labels seconds (.single solution)) :
    ∃ answer,
      AnswerOf (.single solution) [] answer ∧
        ∀ rank < config.worldSize.toNat,
          Told first answer
            (Solve.rankLines labels seconds (.single solution)
              rank)
            (rankSaid (.single solution) [] rank) := by
  cases solution with
  | none =>
      refine ⟨none, ⟨Option.Rel.none, ?_, ?_⟩, ?_⟩
      · exact fun hBucket => nomatch hBucket
      · exact fun hBucket => nomatch hBucket
      · intro rank hRank
        have hUnsolved :=
          (tells_unsolved first hReported.puzzle
            (hReported.times rank hRank)).told hBlank
            (by decide)
        simpa [rankSaid, Solve.rankLines,
          Solve.TaskEnd.printedPath, Solve.TaskEnd.isBucket]
          using hUnsolved
  | some solution =>
      refine
        ⟨some solution.moves,
          ⟨Option.Rel.some solution.named, ?_, ?_⟩, ?_⟩
      · exact fun hBucket => nomatch hBucket
      · exact fun hBucket => nomatch hBucket
      · intro rank hRank
        by_cases hZero : rank = 0
        · have hText :
              solution.path =
                ['.'].intercalate
                  (solution.moves.map Solve.syntheticName) :=
            path_of_names hNames solution.named
          have hSolved :=
            (tells_solved hReported.puzzle
              (hReported.times rank hRank) hText
              (hReported.single solution rfl)).told hBlank
              (by decide)
          simpa [rankSaid, Solve.rankLines, hZero,
            Solve.TaskEnd.isBucket] using hSolved
        · have hNothing := told_nil first (some solution.moves)
          simpa [rankSaid, Solve.rankLines, hZero, Said.nothing,
            Solve.TaskEnd.printedPath] using hNothing

----------------
-- The Whole Log
----------------

/- In any merge of the ranks' lines. -/
theorem merged_told
    {worldSize : Nat}
    {lines : Nat → List Text}
    {log : List (Nat × Text)}
    {saids : Nat → Said}
    (hBlank : first.Blank)
    (hWorld : 0 < worldSize)
    (hLog : Solve.MergedLog worldSize lines log)
    (hTold :
      ∀ rank < worldSize,
        Told first answer (lines rank) (saids rank))
    (hFirst :
      ∀ rank < worldSize, rank ≠ 0 →
        (saids rank).collected = [] ∧ (saids rank).counts = []) :
    Told first answer (log.map Prod.snd)
      ⟨(saids 0).collected, (saids 0).counts,
        ∑ rank ∈ Finset.range worldSize,
          (saids rank).records⟩ := by
  have hOther :
      ∀ entry ∈ log, '=' ∉ entry.2 →
        first.heard entry.2 = Said.nothing :=
    fun entry _ hAbsent =>
      (tells_other first answer hAbsent).heard_eq hBlank
        (Nat.two_pow_pos 64)
  have hOwn :
      ∀ entry ∈ log, '=' ∈ entry.2 →
        entry.2 ∈ lines entry.1 := by
    intro entry hEntry hEquals
    rw [← hLog.order entry.1 (hLog.ranks entry hEntry)]
    refine List.mem_map_of_mem (List.mem_filter.mpr ⟨hEntry, ?_⟩)
    simpa using hEquals
  have hSilent :
      ∀ entry ∈ log,
        (entry.1 == 0 && entry.2.contains '=') = false →
          (first.heard entry.2).collected = [] ∧
            (first.heard entry.2).counts = [] := by
    intro entry hEntry hNot
    by_cases hEquals : '=' ∈ entry.2
    · have hRank : entry.1 ≠ 0 := by
        intro hZero
        simp [hZero, hEquals] at hNot
      have hLt := hLog.ranks entry hEntry
      have hTotal := (hTold entry.1 hLt).total
      rcases hFirst entry.1 hLt hRank with
        ⟨hCollected, hCounts⟩
      rw [← hTotal, Said.collected_total,
        List.flatMap_eq_nil_iff] at hCollected
      rw [← hTotal, Said.counts_total,
        List.flatMap_eq_nil_iff] at hCounts
      have hMem :
          first.heard entry.2 ∈
            (lines entry.1).map first.heard :=
        List.mem_map_of_mem (hOwn entry hEntry hEquals)
      exact ⟨hCollected _ hMem, hCounts _ hMem⟩
    · rw [hOther entry hEntry hEquals]
      exact ⟨rfl, rfl⟩
  refine ⟨fun line hLine => ?_, ?_⟩
  · rcases List.mem_map.mp hLine with ⟨entry, hEntry, rfl⟩
    by_cases hEquals : '=' ∈ entry.2
    · exact
        (hTold entry.1 (hLog.ranks entry hEntry)).each entry.2
          (hOwn entry hEntry hEquals)
    · exact
        ⟨Said.nothing, Nat.two_pow_pos 64,
          tells_other first answer hEquals⟩
  · have hZero := (hTold 0 hWorld).total
    have hLines := hLog.order 0 hWorld
    have hCollected :
        (Said.total
            ((log.map Prod.snd).map first.heard)).collected =
          (saids 0).collected := by
      rw [← hZero, Said.collected_total, Said.collected_total,
        ← hLines, List.map_map, List.map_map, List.flatMap_map,
        List.flatMap_map]
      exact
        flatMap_of_filter fun entry hEntry hNot =>
          (hSilent entry hEntry hNot).1
    have hCounts :
        (Said.total
            ((log.map Prod.snd).map first.heard)).counts =
          (saids 0).counts := by
      rw [← hZero, Said.counts_total, Said.counts_total,
        ← hLines, List.map_map, List.map_map, List.flatMap_map,
        List.flatMap_map]
      exact
        flatMap_of_filter fun entry hEntry hNot =>
          (hSilent entry hEntry hNot).2
    have hRecords :
        (Said.total
            ((log.map Prod.snd).map first.heard)).records =
          ∑ rank ∈ Finset.range worldSize,
            (saids rank).records := by
      rw [Said.records_total, List.map_map, List.map_map]
      refine
        (sum_by_rank
          (fun line => (first.heard line).records) hLog.ranks
          fun entry hEntry hAbsent => by
            rw [hOther entry hEntry hAbsent]
            rfl).trans ?_
      refine Finset.sum_congr rfl fun rank hRank => ?_
      rw [Finset.mem_range] at hRank
      rw [hLog.order rank hRank, ← (hTold rank hRank).total,
        Said.records_total, List.map_map]
      rfl
    rw [← hCollected, ← hCounts, ← hRecords]

/- One answer of the first rank, or one of every rank. -/
def terminalRecords
    {config : Solve.BucketConfig}
    (ending : Solve.TaskEnd config) : Nat :=
  if ending.printedPath.isSome then 1
  else config.worldSize.toNat

/- The ranks together report the records once. -/
theorem sum_rankSaid
    (ending : Solve.TaskEnd config)
    (items : List Collected)
    (hWorld : 0 < config.worldSize.toNat) :
    ∑ rank ∈ Finset.range config.worldSize.toNat,
        (rankSaid ending items rank).records =
      terminalRecords ending := by
  rw [terminalRecords]
  cases hPath : ending.printedPath with
  | none =>
      have hEach :
          ∀ rank, (rankSaid ending items rank).records = 1 := by
        intro rank
        simp [rankSaid, hPath]
      simp [hEach]
  | some path =>
      have hEach :
          ∀ rank,
            (rankSaid ending items rank).records =
              if rank = 0 then 1 else 0 := by
        intro rank
        simp [rankSaid, hPath]
      rw [Finset.sum_congr rfl fun rank _ => hEach rank,
        Finset.sum_ite_eq', if_pos (Finset.mem_range.mpr hWorld)]
      rfl

theorem adjacentEqual_of_nodup
    {paths : List (List Nat)}
    (hDistinct : paths.Nodup) :
    adjacentEqual paths = false := by
  induction paths with
  | nil => rfl
  | cons a paths ih =>
      cases paths with
      | nil => rfl
      | cons b paths =>
          rw [List.nodup_cons] at hDistinct
          have hNe : a ≠ b := by
            rintro rfl
            exact hDistinct.1 List.mem_cons_self
          rw [adjacentEqual, ih hDistinct.2, Bool.or_false]
          exact beq_false_of_ne hNe

theorem hasDuplicate_of_nodup
    {paths : List (List Nat)}
    (hDistinct : paths.Nodup) :
    hasDuplicate paths = false :=
  adjacentEqual_of_nodup
    ((List.perm_insertionSort _ paths).nodup_iff.mpr hDistinct)

/- Items with different paths are different. -/
theorem nodup_items
    (hItems : List.Forall₂ (ItemOf first names) rows items)
    (hDistinct : (rows.map Solve.SolveRow.path).Nodup) :
    (items.map Collected.path).Nodup := by
  refine List.Nodup.of_map
    (fun moves =>
      ['.'].intercalate (moves.map Solve.syntheticName)) ?_
  have hSame :
      ((items.map Collected.path).map fun moves =>
          ['.'].intercalate (moves.map Solve.syntheticName)) =
        rows.map Solve.SolveRow.path := by
    clear hDistinct
    induction hItems with
    | nil => rfl
    | cons hItem _ ih =>
        rw [List.map_cons, List.map_cons, List.map_cons, ih,
          hItem.named.path]
  rw [hSame]
  exact hDistinct

/- The fields of a bucket's collection. -/
theorem collectionFields_bucket
    {parser : TerminalParser}
    (metadata : Json.Fields)
    (hCounts : parser.counts = [items.length])
    (hCollected : parser.collected = items)
    (hDistinct : (items.map Collected.path).Nodup)
    (hSolved : answer = none ↔ items = [])
    (hIn :
      ∀ moves, answer = some moves →
        moves ∈ items.map Collected.path) :
    ∃ status,
      parser.collectionFields answer metadata =
        .ok
          (Json.insert "collection_status" status
            (Json.insert "collected_solutions"
              (.array (items.map collectedJson)) metadata)) := by
  subst hCollected
  have hSome :
      ¬ (parser.counts = [] ∧ parser.collected = []) := by
    rw [hCounts]
    exact fun hBoth => nomatch hBoth.1
  have hAgree :
      ¬ ((!parser.collected.isEmpty) ≠ answer.isSome ∨
        (answer.any fun p =>
            !(parser.collected.map Collected.path).contains p) =
          true) := by
    cases answer with
    | none =>
        rw [hSolved.mp rfl]
        simp
    | some moves =>
        have hNonempty : parser.collected ≠ [] := fun hNil =>
          nomatch hSolved.mpr hNil
        have hMem := List.mem_map.mp (hIn moves rfl)
        simpa [hNonempty] using hMem
  rw [collectionFields, if_neg hSome, if_neg (not_not.mpr hCounts),
    hasDuplicate_of_nodup hDistinct,
    if_neg Bool.false_ne_true, if_neg hAgree]
  exact ⟨_, rfl⟩

/- What the reader of a run's log returns. -/
structure LogResult
    {config : Solve.BucketConfig}
    (ending : Solve.TaskEnd config)
    (result : TerminalResult) : Prop where
  path :
    Option.Rel
      (fun text moves =>
        Solve.movesToPathText config.puzzle.names moves =
          .ok text)
      ending.printedPath result.path
  records :
    result.metadata.lookup "terminal_records" =
      some (.integer (terminalRecords ending))
  collected :
    ∃ items,
      List.Forall₂ (CollectsRow config.puzzle.names) ending.rows
          items ∧
        result.metadata.lookup "collected_solutions" =
          if ending.isBucket then
            some (.array (items.map collectedJson))
          else none

theorem lookup_of_batches
    {parser : TerminalParser}
    {metadata : Json.Fields}
    {key : String}
    (hKey :
      key = "terminal_records" ∨ key = "collected_solutions") :
    (BatchKey.all.foldl parser.batchFields metadata).lookup
        key =
      metadata.lookup key := by
  refine lookup_batches parser metadata fun batch => ?_
  rcases hKey with rfl | rfl <;> cases batch <;> decide

/- The parser ends with what it was told. -/
theorem finish_told
    {ending : Solve.TaskEnd config}
    {final : TerminalParser}
    {said : Said}
    (items : List Collected)
    (hBlank : first.Blank)
    (hFinal : Extends answer first final said)
    (hCollected : said.collected = items)
    (hCounts :
      said.counts =
        if ending.isBucket = true then [items.length] else [])
    (hRecords :
      said.records = terminalRecords ending)
    (hPositive : said.records ≠ 0)
    (hAnswer : AnswerOf ending items answer)
    (hItems :
      List.Forall₂ (ItemOf first config.puzzle.names)
        ending.rows items)
    (hDistinct :
      (ending.rows.map Solve.SolveRow.path).Nodup) :
    ∃ result,
      final.finish = .ok result ∧ LogResult ending result := by
  have hPath : final.path = some answer := by
    rw [hFinal.path, if_neg hPositive]
  have hWidths : ¬ final.effective.length > 1 := by
    rw [hFinal.effective, hBlank.effective]
    decide
  have hRows : final.collected = items := by
    rw [hFinal.collected, hBlank.collected, hCollected,
      List.nil_append]
  have hNumbers :
      final.counts =
        if ending.isBucket = true then [items.length]
        else [] := by
    rw [hFinal.counts, hBlank.counts, hCounts, List.nil_append]
  have hTotal :
      final.records = terminalRecords ending := by
    rw [hFinal.records, hBlank.records, hRecords, Nat.zero_add]
  let basic : Json.Fields :=
    [("native_seconds", .double final.seconds),
      ("terminal_records", .integer final.records)]
  have hRun :
      ∀ fields, final.collectionFields answer basic = .ok fields →
        final.finish =
          .ok
            { path := answer
              effectiveBeamWidth := final.effective.head?
              metadata :=
                BatchKey.all.foldl final.batchFields fields } := by
    intro fields hFields
    rw [finish, hPath]
    dsimp only
    rw [if_neg hWidths, hFields, except_ok_bind]
  have hCollects :
      List.Forall₂ (CollectsRow config.puzzle.names) ending.rows
        items :=
    hItems.imp fun row item hItem => hItem.collectsRow
  cases hBucket : ending.isBucket with
  | true =>
      rw [hBucket, if_pos rfl] at hNumbers
      rcases collectionFields_bucket basic hNumbers hRows
          (nodup_items hItems hDistinct)
          (hAnswer.solved hBucket)
          (hAnswer.collected hBucket) with
        ⟨status, hFields⟩
      refine ⟨_, hRun _ hFields, hAnswer.path, ?_, items,
        hCollects, ?_⟩
      · rw [lookup_of_batches (Or.inl rfl),
          Json.lookup_insert_of_ne (by decide),
          Json.lookup_insert_of_ne (by decide), ← hTotal]
        rfl
      · rw [lookup_of_batches (Or.inr rfl),
          Json.lookup_insert_of_ne (by decide),
          Json.lookup_insert_self, hBucket]
        rfl
  | false =>
      rw [hBucket, if_neg Bool.false_ne_true] at hNumbers
      have hNone : items = [] := by
        cases ending with
        | bucket world hReached stop => cases hBucket
        | single solution => cases hItems; rfl
      have hFields :
          final.collectionFields answer basic = .ok basic :=
        if_pos ⟨hNumbers, hRows.trans hNone⟩
      refine ⟨_, hRun _ hFields, hAnswer.path, ?_, items,
        hCollects, ?_⟩
      · rw [lookup_of_batches (Or.inl rfl), ← hTotal]
        rfl
      · rw [lookup_of_batches (Or.inr rfl), hBucket]
        rfl

end TerminalParser

open TerminalParser

/- Within the steps allowed, and within the width of a depth. -/
def Within (maxSteps : Option UInt32) (moves : List Nat) : Prop :=
  moves.length < 2 ^ 32 ∧
    ∀ n, maxSteps = some n → moves.length ≤ n.toNat

/-
  All ranks' lines, merged in any order that keeps each rank's
  own and with lines without an equals sign between them, are
  accepted. The answer is the printed path, every accepted row
  is collected in its order, and one rank answers if there is a
  solution and all ranks if there is none.
-/
theorem runnerLog_agrees
    (config : Solve.BucketConfig)
    (ending : Solve.TaskEnd config)
    (labels : Solve.TaskLabels)
    (seconds : Nat → Double)
    (graph : PermutationGraph)
    (start : List UInt8)
    (maxSteps : Option UInt32)
    (moveCount : Nat)
    (log : List (Nat × Text))
    (hWorld : 0 < config.worldSize.toNat)
    (hStart : graph.validateStart start = .ok ())
    (hNames :
      config.puzzle.names = Solve.syntheticNames moveCount)
    (hPuzzle : labels.puzzleId = 0)
    (hResult : '=' ∉ labels.resultPath)
    (hSeconds :
      ∀ rank < config.worldSize.toNat, IsTime (seconds rank))
    (hRows :
      ∀ row ∈ ending.rows, ∀ moves,
        Solve.movesToPathText config.puzzle.names moves =
            .ok row.path →
          graph.replay start moves = .ok true ∧
            Within maxSteps moves)
    (hSingle :
      ∀ solution, ending = .single (some solution) →
        graph.replay start solution.moves = .ok true ∧
          Within maxSteps solution.moves)
    (hFits : ending.rows.length < 2 ^ 64)
    (hLog :
      Solve.MergedLog config.worldSize.toNat
        (Solve.rankLines labels seconds ending) log) :
    ∃ result,
      parseLog graph start (maxSteps.map UInt32.toNat)
          (log.map Prod.snd) =
        .ok result ∧
      LogResult ending result := by
  rcases blank_new (maxSteps.map UInt32.toNat) hStart with
    ⟨first, hNew, hBlank, hGraph, hBegin, hSteps⟩
  have hPlayable :
      ∀ moves,
        graph.replay start moves = .ok true ∧
            Within maxSteps moves →
          Playable first moves := by
    rintro moves ⟨hReplay, hLt, hLe⟩
    refine ⟨?_, hLt, fun n hSome => ?_⟩
    · rw [hGraph, hBegin]
      exact hReplay
    · rw [hSteps] at hSome
      rcases Option.map_eq_some_iff.mp hSome with
        ⟨limit, hLimit, rfl⟩
      exact hLe limit hLimit
  have hReported : Reported first labels seconds ending :=
    ⟨hPuzzle, hResult, hSeconds,
      fun row hRow moves hPath =>
        hPlayable moves (hRows row hRow moves hPath),
      fun solution hEnd =>
        hPlayable solution.moves (hSingle solution hEnd),
      hFits⟩
  have hRanks :
      ∃ items answer,
        List.Forall₂ (ItemOf first config.puzzle.names)
            ending.rows items ∧
          (ending.rows.map Solve.SolveRow.path).Nodup ∧
          AnswerOf ending items answer ∧
          ∀ rank < config.worldSize.toNat,
            Told first answer
              (Solve.rankLines labels seconds ending rank)
              (rankSaid ending items rank) := by
    cases ending with
    | bucket world hReached stop =>
        rcases bucket_told hWorld hBlank hNames hReported with
          ⟨items, answer, hItems, hAnswer, hTold⟩
        have hKept := (hReached.reports hWorld).kept
        exact
          ⟨items, answer, hItems,
            hKept.distinct.sublist hKept.listed, hAnswer, hTold⟩
    | single solution =>
        rcases single_told hBlank hNames hReported with
          ⟨answer, hAnswer, hTold⟩
        exact
          ⟨[], answer, List.Forall₂.nil, List.nodup_nil, hAnswer,
            hTold⟩
  rcases hRanks with
    ⟨items, answer, hItems, hDistinct, hAnswer, hTold⟩
  have hAll :=
    merged_told hBlank hWorld hLog hTold fun rank _ hRank => by
      simp [rankSaid, hRank]
  have hRecords := sum_rankSaid ending items hWorld
  have hBound :
      ∑ rank ∈ Finset.range config.worldSize.toNat,
          (rankSaid ending items rank).records <
        2 ^ 64 := by
    have hSize := config.worldSize.toNat_lt
    rw [hRecords, terminalRecords]
    split_ifs <;> omega
  have hPositive :
      ∑ rank ∈ Finset.range config.worldSize.toNat,
          (rankSaid ending items rank).records ≠
        0 := by
    rw [hRecords, terminalRecords]
    split_ifs <;> omega
  rcases lines_tell hBlank hAll.each ⟨rfl, rfl, rfl⟩
      (Or.inl hBlank.path)
      (by
        rw [hAll.total, hBlank.records, Nat.zero_add]
        exact hBound) with
    ⟨final, hFinal, hExtends⟩
  rw [hAll.total] at hExtends
  rcases finish_told items hBlank hExtends
      (by simp [rankSaid]) (by simp [rankSaid]) hRecords hPositive
      hAnswer hItems hDistinct with
    ⟨result, hFinish, hGood⟩
  refine ⟨result, ?_, hGood⟩
  rw [parseLog, hNew, except_ok_bind, hFinal, except_ok_bind,
    hFinish]

/- A printed path has one list of moves. -/
theorem moveIds_of_path
    {moveCount : Nat}
    {moves : List Nat}
    {path : Text}
    (hSmall : moveCount ≤ 2 ^ 32)
    (hPath :
      Solve.movesToPathText (Solve.syntheticNames moveCount)
          moves =
        .ok path) :
    moveIds path = .ok moves := by
  have hText := path_of_syntheticNames hPath
  rw [Solve.movesToPathText] at hPath
  rcases except_bind_eq_ok hPath with ⟨words, hWords, -⟩
  have hEach := mapM_eq_ok hWords
  have hBound : ∀ move ∈ moves, move < 2 ^ 32 := by
    clear hWords hPath hText
    induction hEach with
    | nil => exact fun _ hMem => absurd hMem List.not_mem_nil
    | cons hName _ ih =>
        rename_i move word moves words
        intro other hOther
        rcases List.mem_cons.mp hOther with rfl | hOther
        · by_contra hLarge
          rw [Solve.moveName, List.getElem?_eq_none (by
            simp only [Solve.syntheticNames, List.length_map,
              List.length_range]
            omega)] at hName
          cases hName
        · exact ih other hOther
  rw [hText]
  exact moveIds_path hBound

/- Two ranks collect the two names of one swap. -/
def namedConfig : Solve.BucketConfig :=
  { Solve.swapConfig with
    puzzle :=
      { Solve.swapPuzzle with names := Solve.syntheticNames 2 } }

/- Two generators that both swap. -/
def namedGraph : PermutationGraph where
  center := [0, 1]
  generators := [[1, 0], [1, 0]]

/- The world after one depth. -/
def namedWorld : Solve.World :=
  (Solve.collectDepth namedConfig 6 Solve.swapDepth
    Solve.World.new).toOption.getD Solve.World.new

/- The labels of a task whose result path has a space. -/
def namedLabels : Solve.TaskLabels where
  puzzleId := 0
  knownLength := 3
  stopDepth := 0
  extraDepths := 0
  resultPath := "results of today.tsv".toList

/- A stop by capacity. -/
def namedStop : Solve.BucketStop where
  reason := Solve.capacityReached
  depthIndex := 0
  depthSeconds := .finite false oneUnits

theorem namedWorld_reached :
    Solve.Reached namedConfig namedWorld := by
  have hSome :
      (Solve.collectDepth namedConfig 6 Solve.swapDepth
          Solve.World.new).toOption.isSome =
        true := by
    decide
  have hRun :
      Solve.collectDepth namedConfig 6 Solve.swapDepth
          Solve.World.new =
        .ok namedWorld := by
    rw [namedWorld]
    cases hRun :
        Solve.collectDepth namedConfig 6 Solve.swapDepth
          Solve.World.new with
    | error fault =>
        rw [hRun] at hSome
        cases hSome
    | ok world => rfl
  exact Solve.Reached.depth Solve.Reached.start hRun

/- The end of that task. -/
def namedEnd : Solve.TaskEnd namedConfig :=
  .bucket namedWorld namedWorld_reached (some namedStop)

/- Each rank has its own time. -/
def namedSeconds (rank : Nat) : Double :=
  .finite false (rank * oneUnits)

/- The log: a line of another rank, then those of the first. -/
def namedLog : List (Nat × Text) :=
  (1, "ready".toList) ::
    (Solve.rankLines namedLabels namedSeconds namedEnd 0).map
      (Prod.mk 0)

theorem runnerLog_agrees_twoRanks :
    ∃ result,
      parseLog namedGraph [1, 0] (some 1)
          (namedLog.map Prod.snd) =
        .ok result ∧
      result.path = some [0] ∧ LogResult namedEnd result := by
  have hPaths :
      namedEnd.rows.map Solve.SolveRow.path =
        ["m0".toList, "m1".toList] := by
    decide
  have hMoves :
      ∀ row ∈ namedEnd.rows, ∀ moves,
        Solve.movesToPathText namedConfig.puzzle.names moves =
            .ok row.path →
          moves = [0] ∨ moves = [1] := by
    intro row hRow moves hPath
    have hIds := moveIds_of_path (by decide) hPath
    have hIn : row.path ∈ ["m0".toList, "m1".toList] := by
      rw [← hPaths]
      exact List.mem_map_of_mem hRow
    rw [List.mem_cons, List.mem_singleton] at hIn
    rcases hIn with hName | hName
    · rw [hName] at hIds
      exact Or.inl (Except.ok.inj hIds).symm
    · rw [hName] at hIds
      exact Or.inr (Except.ok.inj hIds).symm
  rcases runnerLog_agrees namedConfig namedEnd namedLabels
      namedSeconds namedGraph [1, 0] (some 1) 2 namedLog
      (by decide) (by decide) rfl rfl (by decide)
      (fun rank hRank => by
        have hSmall : rank < 2 := hRank
        refine ⟨?_, rfl, rfl⟩
        change rank * oneUnits < overflowUnits
        calc rank * oneUnits ≤ 1 * oneUnits :=
              Nat.mul_le_mul_right _ (Nat.le_of_lt_succ hSmall)
          _ < overflowUnits := by decide +kernel)
      (fun row hRow moves hPath => by
        rcases hMoves row hRow moves hPath with rfl | rfl
        · exact ⟨by decide, by decide, fun n hSome => by
            cases hSome; decide⟩
        · exact ⟨by decide, by decide, fun n hSome => by
            cases hSome; decide⟩)
      (fun solution hEnd => nomatch hEnd)
      (by
        have hLength := congrArg List.length hPaths
        rw [List.length_map] at hLength
        rw [hLength]
        decide)
      ⟨by decide +kernel, by decide +kernel⟩ with
    ⟨result, hRun, hResult⟩
  refine ⟨result, hRun, ?_, hResult⟩
  have hAnswer :
      (parseLog namedGraph [1, 0] (some 1)
            (namedLog.map Prod.snd)).toOption.map
          TerminalResult.path =
        some (some [0]) := by
    decide +kernel
  change
    parseLog namedGraph [1, 0] (some 1) _ = .ok result at hRun
  rw [hRun] at hAnswer
  exact Option.some.inj hAnswer

end Search

end BeamSearch
