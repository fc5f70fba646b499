import BeamSearch.Solve.Reconstruct

/-
  Reading the text of a path back.

  The writer turns a trailing apostrophe of a name into a leading
  minus and joins the names with dots. The reader splits at dots
  and looks a token up among the rewritten names, where the first
  of two equal ones wins. The loader lets any distinct nonempty
  names through.

  Main declarations:
    * `checkMoveNames`
    * `parseSolutionPathText`
    * `WrittenApart`
    * `parseSolutionPathText_movesToPathText`
-/

namespace BeamSearch

open Text

namespace Solve

----------------
-- Names And Tokens
----------------

/- What the loader asks of the names of the moves. -/
def checkMoveNames
    (moveCount : Nat)
    (names : List Text) : Except Exception Unit :=
  if names.length ≠ moveCount then
    .error (.runtimeError "missing move names")
  else if names.any (fun name => name = []) ∨ ¬ names.Nodup then
    .error (.runtimeError "empty/duplicate move name")
  else
    .ok ()

/- The table of rewritten names keeps the first of two equal ones. -/
def parseMoveToken
    (names : List Text)
    (token : Text) : Except Exception Nat :=
  match (names.map submitMoveName).findIdx? (· = token) with
  | none =>
      .error
        (.runtimeError
          ("tracked solution path contains unknown move token: " ++
            String.ofList token))
  | some move => .ok (move % 256)

/- The moves between the dots. -/
def parseSolutionPathText
    (pathText : Text)
    (names : List Text) : Except Exception (List Nat) :=
  (pathText.splitOn '.').mapM (parseMoveToken names)

----------------
-- Splitting A Joined Text
----------------

theorem splitOn_join
    (separator : Char)
    {words : List Text}
    (hWords : words ≠ []) :
    ([separator].intercalate words).splitOn separator =
      words.flatMap (List.splitOn separator) := by
  induction words with
  | nil => exact absurd rfl hWords
  | cons word words ih =>
      cases words with
      | nil => simp
      | cons next words =>
          rw [List.intercalate_cons_cons, List.append_assoc,
            List.singleton_append,
            List.splitOn_append_cons_self,
            ih (List.cons_ne_nil _ _)]
          rfl

theorem one_le_length_splitOn
    (separator : Char)
    (word : Text) :
    1 ≤ (word.splitOn separator).length :=
  List.length_pos_of_ne_nil (List.splitOn_ne_nil separator word)

/- A word with the separator is split. -/
theorem two_le_length_splitOn
    {separator : Char}
    {word : Text}
    (hMem : separator ∈ word) :
    2 ≤ (word.splitOn separator).length := by
  rcases List.append_of_mem hMem with ⟨before, behind, hWord⟩
  have hBefore := one_le_length_splitOn separator before
  have hBehind := one_le_length_splitOn separator behind
  rw [hWord, List.splitOn_append_cons_self, List.length_append]
  omega

theorem length_le_flatMap_splitOn
    (separator : Char)
    (words : List Text) :
    words.length ≤
      (words.flatMap (List.splitOn separator)).length := by
  induction words with
  | nil => exact Nat.zero_le _
  | cons word words ih =>
      have hWord := one_le_length_splitOn separator word
      rw [List.flatMap_cons, List.length_append,
        List.length_cons]
      omega

/- As many tokens as words means that no word was split. -/
theorem not_mem_of_length_splitOn
    {separator : Char}
    {words : List Text}
    (hLength :
      (words.flatMap (List.splitOn separator)).length ≤
        words.length) :
    ∀ word ∈ words, separator ∉ word := by
  induction words with
  | nil => exact fun _ hMem => absurd hMem List.not_mem_nil
  | cons first words ih =>
      have hFirst := one_le_length_splitOn separator first
      have hRest := length_le_flatMap_splitOn separator words
      rw [List.flatMap_cons, List.length_append,
        List.length_cons] at hLength
      intro word hMem hSeparator
      rcases List.mem_cons.mp hMem with rfl | hWord
      · have hSplit := two_le_length_splitOn hSeparator
        omega
      · exact ih (by omega) word hWord hSeparator

----------------
-- One Move
----------------

theorem dot_mem_submitMoveName
    (name : Text) :
    '.' ∈ submitMoveName name ↔ '.' ∈ name := by
  unfold submitMoveName
  split_ifs with hQuote
  · have hName : name = name.dropLast ++ ['\''] := by
      rcases List.eq_nil_or_concat name with rfl | ⟨body, c, rfl⟩
      · simp at hQuote
      · simp at hQuote
        simp [hQuote]
    constructor
    · intro hMem
      rcases List.mem_cons.mp hMem with hMinus | hBody
      · exact absurd hMinus (by decide)
      · exact List.mem_of_mem_dropLast hBody
    · intro hMem
      rw [hName, List.mem_append] at hMem
      rcases hMem with hBody | hLast
      · exact List.mem_cons_of_mem _ hBody
      · rw [List.mem_singleton] at hLast
        exact absurd hLast (by decide)
  · exact Iff.rfl

/-
  The move's name has no dot, and no earlier name is rewritten to
  the same text.
-/
def WrittenApart (names : List Text) (move : Nat) : Prop :=
  ∃ name,
    names[move]? = some name ∧ '.' ∉ name ∧
      ∀ earlier < move, ∀ other,
        names[earlier]? = some other →
          submitMoveName other ≠ submitMoveName name

theorem parseMoveToken_eq_ok_iff
    {names : List Text}
    {move : Nat}
    {name : Text}
    (hCount : names.length ≤ 255)
    (hName : names[move]? = some name) :
    parseMoveToken names (submitMoveName name) = .ok move ↔
      ∀ earlier < move, ∀ other,
        names[earlier]? = some other →
          submitMoveName other ≠ submitMoveName name := by
  rcases List.getElem?_eq_some_iff.mp hName with ⟨hMove, hGet⟩
  have hFound :
      parseMoveToken names (submitMoveName name) = .ok move ↔
        (names.map submitMoveName).findIdx?
            (· = submitMoveName name) =
          some move := by
    unfold parseMoveToken
    cases hFind :
        (names.map submitMoveName).findIdx?
          (· = submitMoveName name) with
    | none => simp
    | some found =>
        have hLt :=
          (List.findIdx?_eq_some_iff_findIdx_eq.mp hFind).1
        rw [List.length_map] at hLt
        dsimp only
        rw [Nat.mod_eq_of_lt (by omega), Except.ok.injEq,
          Option.some.injEq]
  rw [hFound, List.findIdx?_eq_some_iff_getElem]
  constructor
  · rintro ⟨_, _, hEarlier⟩ earlier hLt other hOther hSame
    rcases List.getElem?_eq_some_iff.mp hOther with ⟨_, hGetOther⟩
    apply hEarlier earlier hLt
    rw [List.getElem_map, hGetOther, hSame]
    exact decide_eq_true rfl
  · intro hFirst
    refine ⟨by rwa [List.length_map], ?_, ?_⟩
    · rw [List.getElem_map, hGet]
      exact decide_eq_true rfl
    · intro earlier hLt hSame
      rw [List.getElem_map] at hSame
      exact hFirst earlier hLt names[earlier]
        (List.getElem?_eq_getElem _) (of_decide_eq_true hSame)

----------------
-- Whole Paths
----------------

/- What the writer puts between the dots. -/
def writtenNames
    (names : List Text)
    (moves : List Nat) : List Text :=
  moves.map fun move => submitMoveName (names.getD move [])

theorem getElem?_eq_getD
    {names : List Text}
    {move : Nat}
    (hMove : move < names.length) :
    names[move]? = some (names.getD move []) := by
  rw [List.getD_eq_getElem?_getD, List.getElem?_eq_getElem hMove]
  rfl

theorem movesToPathText_eq
    {names : List Text}
    {moves : List Nat}
    (hRange : ∀ move ∈ moves, move < names.length) :
    movesToPathText names moves =
      .ok (['.'].intercalate (writtenNames names moves)) := by
  have hWords :
      moves.mapM (moveName names) =
        .ok (writtenNames names moves) := by
    apply mapM_of_forall_ok
    intro move hMem
    unfold moveName
    rw [getElem?_eq_getD (hRange move hMem)]
  unfold movesToPathText
  rw [hWords, except_ok_bind]

theorem mapM_parseMoveToken_eq_ok_iff
    {names : List Text}
    {moves : List Nat} :
    (writtenNames names moves).mapM (parseMoveToken names) =
        .ok moves ↔
      ∀ move ∈ moves,
        parseMoveToken names
            (submitMoveName (names.getD move [])) =
          .ok move := by
  induction moves with
  | nil => exact iff_of_true rfl nofun
  | cons move moves ih =>
      unfold writtenNames at ih ⊢
      rw [List.map_cons, List.mapM_cons, List.forall_mem_cons,
        ← ih]
      constructor
      · intro hRun
        rcases except_bind_eq_ok hRun with ⟨first, hFirst, hNext⟩
        rcases except_bind_eq_ok hNext with ⟨rest, hTail, hLast⟩
        cases hLast
        exact ⟨hFirst, hTail⟩
      · rintro ⟨hFirst, hTail⟩
        rw [hFirst, hTail]
        rfl

theorem length_of_mapM_eq_ok
    {ε α β : Type}
    {f : α → Except ε β}
    {xs : List α}
    {ys : List β}
    (hRun : xs.mapM f = .ok ys) :
    ys.length = xs.length :=
  (mapM_eq_ok hRun).length_eq.symm

/- Reading what was written, move by move. -/
theorem parseSolutionPathText_join_iff
    {names : List Text}
    {moves : List Nat}
    (hCount : names.length ≤ 255)
    (hMoves : moves ≠ [])
    (hRange : ∀ move ∈ moves, move < names.length) :
    parseSolutionPathText
          (['.'].intercalate (writtenNames names moves)) names =
        .ok moves ↔
      ∀ move ∈ moves, WrittenApart names move := by
  have hNe : writtenNames names moves ≠ [] := by
    unfold writtenNames
    rwa [Ne, List.map_eq_nil_iff]
  have hLength :
      (writtenNames names moves).length = moves.length :=
    List.length_map _
  have hMove : ∀ move ∈ moves,
      (WrittenApart names move ↔
        '.' ∉ submitMoveName (names.getD move []) ∧
          parseMoveToken names
              (submitMoveName (names.getD move [])) =
            .ok move) := by
    intro move hMem
    have hLt := hRange move hMem
    have hName := getElem?_eq_getD hLt
    rw [dot_mem_submitMoveName,
      parseMoveToken_eq_ok_iff hCount hName]
    unfold WrittenApart
    rw [hName]
    simp
  have hAll :
      (∀ move ∈ moves, WrittenApart names move) ↔
        (∀ word ∈ writtenNames names moves, '.' ∉ word) ∧
          (writtenNames names moves).mapM
              (parseMoveToken names) =
            .ok moves := by
    rw [mapM_parseMoveToken_eq_ok_iff]
    unfold writtenNames
    rw [List.forall_mem_map, ← forall₂_and]
    exact forall₂_congr hMove
  rw [hAll]
  unfold parseSolutionPathText
  constructor
  · intro hRun
    have hTokens := length_of_mapM_eq_ok hRun
    rw [splitOn_join '.' hNe] at hTokens
    have hPlain :=
      not_mem_of_length_splitOn
        (show
          ((writtenNames names moves).flatMap
              (List.splitOn '.')).length ≤
            (writtenNames names moves).length by omega)
    rw [List.splitOn_intercalate '.' hPlain hNe] at hRun
    exact ⟨hPlain, hRun⟩
  · rintro ⟨hPlain, hRun⟩
    rwa [List.splitOn_intercalate '.' hPlain hNe]

theorem checkMoveNames_length
    {moveCount : Nat}
    {names : List Text}
    (hNames : checkMoveNames moveCount names = .ok ()) :
    names.length = moveCount := by
  unfold checkMoveNames at hNames
  split_ifs at hNames with hLength
  exact not_not.mp hLength

/-
  A nonempty path over an accepted table is read back exactly if
  each of its moves is written apart from the others.
-/
theorem parseSolutionPathText_movesToPathText
    {moveCount : Nat}
    {names : List Text}
    {moves : List Nat}
    (hNames : checkMoveNames moveCount names = .ok ())
    (hCount : moveCount ≤ 255)
    (hMoves : moves ≠ [])
    (hRange : ∀ move ∈ moves, move < moveCount) :
    (movesToPathText names moves >>= fun pathText =>
          parseSolutionPathText pathText names) =
        .ok moves ↔
      ∀ move ∈ moves, WrittenApart names move := by
  have hLength := checkMoveNames_length hNames
  subst hLength
  rw [movesToPathText_eq hRange, except_ok_bind]
  exact parseSolutionPathText_join_iff hCount hMoves hRange

/- A turn and its inverse. -/
def quarterTurns : List Text :=
  [['r'], ['r', '\'']]

theorem quarterTurns_apart
    {move : Nat}
    (hMove : move < 2) :
    WrittenApart quarterTurns move := by
  match move with
  | 0 =>
      exact ⟨['r'], rfl, by decide, fun earlier hLt =>
        absurd hLt (Nat.not_lt_zero earlier)⟩
  | 1 =>
      refine ⟨['r', '\''], rfl, by decide, ?_⟩
      intro earlier hLt other hOther
      have hZero : earlier = 0 := by omega
      subst hZero
      cases hOther
      decide

theorem quarterTurns_readBack :
    (movesToPathText quarterTurns [1, 0, 1] >>= fun pathText =>
        parseSolutionPathText pathText quarterTurns) =
      .ok [1, 0, 1] := by
  have hRange : ∀ move ∈ [1, 0, 1], move < 2 := by decide
  exact (@parseSolutionPathText_movesToPathText 2 quarterTurns
    [1, 0, 1] (by decide) (by decide) (by decide)
    hRange).mpr fun move hMem =>
      quarterTurns_apart (hRange move hMem)

/- A minus in front is read as the apostrophe behind. -/
theorem parseSolutionPathText_collision :
    checkMoveNames 2 [['a', '\''], ['-', 'a']] = .ok () ∧
      (movesToPathText [['a', '\''], ['-', 'a']] [1] >>=
          fun pathText =>
            parseSolutionPathText pathText
              [['a', '\''], ['-', 'a']]) =
        .ok [0] ∧
      (movesToPathText [['a', '\''], ['-', 'a']] [1] >>=
          fun pathText =>
            parseSolutionPathText pathText
              [['a', '\''], ['-', 'a']]) ≠
        .ok [1] := by
  decide

end Solve

end BeamSearch
