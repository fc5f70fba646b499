import BeamSearch.Search.Terminal

/-
  What an accepted log says.

  Every line is read into the state of the parser at once, so
  the state after some lines is described by those lines, in
  any number and order. A result is only given for a state
  whose records agree.

  Main declarations:
    * `Answers`, `Carries`, `CollectedFrom`
    * `ReadFrom`
    * `ReadFrom.line`
    * `terminalParser_replayable`
-/

namespace BeamSearch

open Text

namespace Search

variable {graph : PermutationGraph} {start : List UInt8} {maxSteps : Option Nat}
    {lines : List Text} {parser : TerminalParser}

----------------
-- Statements About Lines
----------------

/- The path leads to the center in the steps allowed. -/
structure Answers
    (graph : PermutationGraph)
    (start : List UInt8)
    (maxSteps : Option Nat)
    (path : List Nat) : Prop where
  replays : graph.Replays start path
  generators : ∀ id ∈ path, id < graph.generators.length
  steps : ∀ n, maxSteps = some n → path.length ≤ n

/- The token names the generator. -/
def SpelledMove (token : Text) (id : Nat) : Prop :=
  ∃ digits,
    token = 'm' :: digits ∧
    allDigits digits = true ∧
    spelled digits = id

/- Moves joined by dots; no text is no move. -/
def SpelledPath (text : Text) (path : List Nat) : Prop :=
  (text = [] ∧ path = []) ∨
    text ≠ [] ∧
      List.Forall₂ SpelledMove (text.splitOn '.') path

/- The row has the path and reports its length. -/
structure CarriesPath (row : Row) (path : List Nat) : Prop where
  spelled :
    ∃ text,
      value row "solution" = .ok text ∧ SpelledPath text path
  length : numberU64 row "solution_length" = .ok path.length

/- The fields of a terminal record say the answer. -/
def CarriesAnswer (row : Row) : Option (List Nat) → Prop
  | none =>
      numberU32 row "puzzle_solved" = .ok 0 ∧
        value row "solution_length" = .ok "-1".toList ∧
        value row "solution" = .ok []
  | some path =>
      numberU32 row "puzzle_solved" = .ok 1 ∧
        CarriesPath row path

/- The terminal record of the line has this answer. -/
def Carries (line : Text) (answer : Option (List Nat)) : Prop :=
  ∃ text row,
    TerminalParser.recordText line = some text ∧
    fields text = .ok row ∧
    CarriesAnswer row answer

/- The item comes from the line, field by field. -/
structure CollectedFrom (line : Text) (item : Collected) :
    Prop where
  row :
    ∃ row,
      fields line = .ok row ∧
      CarriesPath row item.path ∧
      numberU32 row "found_depth" = .ok item.solvedDepth ∧
      numberU32 row "owner_rank" = .ok item.ownerRank
  depths :
    item.solvedDepth + item.touchDepth = item.path.length

/- A token reports this width. -/
def WidthToken (token : Text) (width : Nat) : Prop :=
  ∃ name text,
    splitOnce '=' token = some (name, text) ∧
    TerminalParser.isWidthKey name = true ∧
    parseUnsigned 64 text = some width

/- A token reports a batch size under this key. -/
def SizeToken (key : BatchKey) (token : Text) (size : Nat) :
    Prop :=
  ∃ name text,
    splitOnce '=' token = some (name, text) ∧
    BatchKey.ofText name = some key ∧
    parseUnsigned 64 text = some size

/- Some token of some line told the width. -/
def Observed (lines : List Text) (width : Nat) : Prop :=
  ∃ line ∈ lines, ∃ token ∈ splitWhitespace line,
    WidthToken token width

/- Some token of some line told the size. -/
def Sized
    (lines : List Text)
    (key : BatchKey)
    (size : Nat) : Prop :=
  ∃ line ∈ lines, ∃ token ∈ splitWhitespace line,
    SizeToken key token size

----------------
-- Paths
----------------

namespace TerminalParser

/- A move that was read is spelled. -/
theorem moveId_eq_ok
    {token : Text}
    {id : Nat}
    (hMove : moveId token = .ok id) :
    SpelledMove token id := by
  rw [moveId] at hMove
  cases hStrip : stripPrefix ['m'] token with
  | none =>
      rw [hStrip] at hMove
      cases hMove
  | some digits =>
      rw [hStrip] at hMove
      change (if _ then _ else _) = _ at hMove
      split_ifs at hMove with hDigits
      rw [parseUnsigned_of_digits 32 hDigits] at hMove
      by_cases hLt : spelled digits < 2 ^ 32
      · rw [if_pos hLt] at hMove
        exact
          ⟨digits, stripPrefix_eq_some hStrip, hDigits,
            Except.ok.inj hMove⟩
      · rw [if_neg hLt] at hMove
        cases hMove

/- So is a path. -/
theorem moveIds_eq_ok
    {text : Text}
    {moves : List Nat}
    (hMoves : moveIds text = .ok moves) :
    SpelledPath text moves := by
  rw [moveIds] at hMoves
  split_ifs at hMoves with hEmpty
  · exact Or.inl ⟨hEmpty, (Except.ok.inj hMoves).symm⟩
  · refine Or.inr ⟨hEmpty, ?_⟩
    exact (mapM_eq_ok hMoves).imp fun _ _ hMove =>
      moveId_eq_ok hMove

/- A path that is read was spelled, fits and was replayed. -/
theorem solution_eq_ok
    {parser : TerminalParser}
    {row : Row}
    {path : List Nat}
    (hSolution : parser.solution row = .ok path) :
    CarriesPath row path ∧
      Answers parser.graph parser.start parser.maxSteps path := by
  rw [solution] at hSolution
  rcases except_bind_eq_ok hSolution with
    ⟨text, hText, hSolution⟩
  rcases except_bind_eq_ok hSolution with
    ⟨moves, hMoves, hSolution⟩
  rcases except_bind_eq_ok hSolution with
    ⟨length, hLength, hSolution⟩
  split_ifs at hSolution with hSame hSteps
  rcases except_bind_eq_ok hSolution with
    ⟨replayed, hReplay, hSolution⟩
  cases replayed with
  | false => cases hSolution
  | true =>
      cases hSolution
      rw [not_not] at hSame
      subst hSame
      have hReplays := PermutationGraph.replay_eq_true hReplay
      refine
        ⟨⟨⟨text, hText, moveIds_eq_ok hMoves⟩, hLength⟩,
          hReplays, hReplays.generator_lt, fun n hn => ?_⟩
      rw [hn] at hSteps
      simpa using hSteps

----------------
-- Widths
----------------

end TerminalParser

/- The set has what was inserted. -/
theorem mem_insertNumber
    (n m : Nat)
    (numbers : List Nat) :
    m ∈ insertNumber n numbers ↔ m = n ∨ m ∈ numbers := by
  induction numbers with
  | nil => simp [insertNumber]
  | cons k numbers ih =>
      rw [insertNumber]
      split_ifs with hLt hEq
      · rw [List.mem_cons]
      · subst hEq
        simp
      · rw [List.mem_cons, ih, List.mem_cons]
        tauto

/- The set stays sorted. -/
theorem pairwise_insertNumber
    (n : Nat)
    {numbers : List Nat}
    (hSorted : numbers.Pairwise (· < ·)) :
    (insertNumber n numbers).Pairwise (· < ·) := by
  induction numbers with
  | nil => exact List.pairwise_singleton _ _
  | cons k numbers ih =>
      have hTail := List.pairwise_cons.mp hSorted
      rw [insertNumber]
      split_ifs with hLt hEq
      · refine List.pairwise_cons.mpr ⟨fun m hm => ?_, hSorted⟩
        rcases List.mem_cons.mp hm with rfl | hm
        · exact hLt
        · exact hLt.trans (hTail.1 m hm)
      · exact hSorted
      · refine
          List.pairwise_cons.mpr ⟨fun m hm => ?_, ih hTail.2⟩
        rcases (mem_insertNumber n m numbers).mp hm with rfl | hm
        · omega
        · exact hTail.1 m hm

/- A width is not reported under the key of a batch. -/
theorem ofText_eq_none_of_width
    {name : Text}
    (hWidth : TerminalParser.isWidthKey name = true) :
    BatchKey.ofText name = none := by
  rw [TerminalParser.isWidthKey, Bool.or_eq_true, beq_iff_eq,
    beq_iff_eq] at hWidth
  rcases hWidth with rfl | rfl
  · decide
  · decide

namespace TerminalParser

/- A token changes the widths and the batches, nothing else. -/
structure ObservedBy
    (tokens : List Text)
    (parser next : TerminalParser) : Prop where
  frame :
    next =
      { parser with
        effective := next.effective
        batches := next.batches }
  widths :
    ∀ width, width ∈ next.effective ↔
      width ∈ parser.effective ∨
        ∃ token ∈ tokens, WidthToken token width
  positive :
    ∀ token ∈ tokens, ∀ width,
      WidthToken token width → width ≠ 0
  sizes :
    ∀ key size, size ∈ next.batches key ↔
      size ∈ parser.batches key ∨
        ∃ token ∈ tokens, SizeToken key token size
  ordered :
    (∀ key, (parser.batches key).Pairwise (· < ·)) →
      ∀ key, (next.batches key).Pairwise (· < ·)

/- A silent token. -/
theorem observedBy_nothing
    {token : Text}
    (hWidth : ∀ width, ¬ WidthToken token width)
    (hSize : ∀ key size, ¬ SizeToken key token size) :
    ObservedBy [token] parser parser where
  frame := rfl
  widths width := by
    simp [hWidth]
  positive other hOther width hToken := by
    rw [List.mem_singleton] at hOther
    exact absurd (hOther ▸ hToken) (hWidth width)
  sizes key size := by
    simp [hSize]
  ordered hOrdered := hOrdered

/- A token of a width. -/
theorem observedBy_width
    {token : Text}
    {width : Nat}
    (hWidth : ∀ w, WidthToken token w ↔ w = width)
    (hZero : width ≠ 0)
    (hSize : ∀ key size, ¬ SizeToken key token size) :
    ObservedBy [token] parser
      { parser with
        effective := insertNumber width parser.effective } where
  frame := rfl
  widths w := by
    simp [mem_insertNumber, hWidth, or_comm]
  positive other hOther w hToken := by
    rw [List.mem_singleton] at hOther
    subst hOther
    rw [(hWidth w).mp hToken]
    exact hZero
  sizes key size := by
    simp [hSize]
  ordered hOrdered := hOrdered

/- A token of a batch size. -/
theorem observedBy_size
    {token : Text}
    {key : BatchKey}
    {size : Nat}
    (hWidth : ∀ width, ¬ WidthToken token width)
    (hSize :
      ∀ other n, SizeToken other token n ↔
        other = key ∧ n = size) :
    ObservedBy [token] parser
      { parser with
        batches :=
          Function.update parser.batches key
            (insertNumber size (parser.batches key)) } where
  frame := rfl
  widths width := by
    simp [hWidth]
  positive other hOther width hToken := by
    rw [List.mem_singleton] at hOther
    exact absurd (hOther ▸ hToken) (hWidth width)
  sizes other n := by
    by_cases hKey : other = key
    · subst hKey
      simp [mem_insertNumber, hSize, or_comm]
    · simp [Function.update_of_ne hKey, hSize, hKey]
  ordered hOrdered other := by
    by_cases hKey : other = key
    · subst hKey
      simpa using pairwise_insertNumber size (hOrdered other)
    · simpa [Function.update_of_ne hKey] using hOrdered other

/- One token leaves what it tells. -/
theorem observe_eq_ok
    {next : TerminalParser}
    {token : Text}
    (hObserve : parser.observe token = .ok next) :
    ObservedBy [token] parser next := by
  rw [observe] at hObserve
  cases hSplit : splitOnce '=' token with
  | none =>
      rw [hSplit] at hObserve
      cases hObserve
      refine
        observedBy_nothing (fun width hWidth => ?_)
          fun key size hSize => ?_
      · rcases hWidth with ⟨name, text, hParts, -⟩
        rw [hSplit] at hParts
        cases hParts
      · rcases hSize with ⟨name, text, hParts, -⟩
        rw [hSplit] at hParts
        cases hParts
  | some parts =>
      rcases parts with ⟨name, text⟩
      rw [hSplit] at hObserve
      change (if _ then _ else _) = _ at hObserve
      have hWidth :
          ∀ width, WidthToken token width ↔
            isWidthKey name = true ∧
              parseUnsigned 64 text = some width := by
        intro width
        simp [WidthToken, hSplit]
      have hSize :
          ∀ key size, SizeToken key token size ↔
            BatchKey.ofText name = some key ∧
              parseUnsigned 64 text = some size := by
        intro key size
        simp [SizeToken, hSplit]
      split_ifs at hObserve with hKey
      · cases hParse : parseUnsigned 64 text with
        | none =>
            rw [hParse] at hObserve
            cases hObserve
        | some width =>
            rw [hParse] at hObserve
            change (if _ then _ else _) = _ at hObserve
            split_ifs at hObserve with hZero
            cases hObserve
            refine observedBy_width (fun w => ?_) hZero ?_
            · rw [hWidth, hParse]
              simp [hKey, eq_comm]
            · intro key size hToken
              rw [hSize, ofText_eq_none_of_width hKey] at hToken
              cases hToken.1
      · have hNone : ∀ width, ¬ WidthToken token width := by
          intro width hToken
          exact hKey ((hWidth width).mp hToken).1
        cases hBatch : BatchKey.ofText name with
        | none =>
            rw [hBatch] at hObserve
            cases hObserve
            refine observedBy_nothing hNone fun key size => ?_
            rw [hSize, hBatch]
            simp
        | some key =>
            rw [hBatch] at hObserve
            cases hParse : parseUnsigned 64 text with
            | none =>
                rw [hParse] at hObserve
                cases hObserve
            | some size =>
                rw [hParse] at hObserve
                cases hObserve
                refine observedBy_size hNone fun other n => ?_
                rw [hSize, hBatch, hParse]
                simp [eq_comm]

/- All tokens of a line. -/
theorem observeAll_eq_ok
    {next : TerminalParser}
    {tokens : List Text}
    (hObserve : tokens.foldlM observe parser = .ok next) :
    ObservedBy tokens parser next := by
  have hStart : ObservedBy [] parser parser :=
    { frame := rfl
      widths := fun width => by simp
      positive := fun _ hToken => nomatch hToken
      sizes := fun key size => by simp
      ordered := fun hOrdered => hOrdered }
  have hEnd :=
    foldlM_eq_ok (J := fun seen => ObservedBy seen parser)
      (fun seen mid token last hSeen hStep => by
        have hToken := observe_eq_ok hStep
        exact
          { frame := by
              rw [hToken.frame, hSeen.frame]
            widths := fun width => by
              rw [hToken.widths, hSeen.widths]
              simp [or_assoc, or_and_right, exists_or]
            positive := fun other hOther => by
              rcases List.mem_append.mp hOther with hOld | hNew
              · exact hSeen.positive other hOld
              · exact hToken.positive other hNew
            sizes := fun key size => by
              rw [hToken.sizes, hSeen.sizes]
              simp [or_assoc, or_and_right, exists_or]
            ordered := fun hOrdered =>
              hToken.ordered (hSeen.ordered hOrdered) })
      hStart hObserve
  rwa [List.nil_append] at hEnd

end TerminalParser

namespace TerminalParser

variable {next : TerminalParser}

----------------
-- Records
----------------

/- A row that was taken answers the search. -/
theorem collectedRow_eq_ok
    {line : Text}
    {item : Collected}
    (hRow : parser.collectedRow line = .ok item) :
    CollectedFrom line item ∧
      Answers parser.graph parser.start parser.maxSteps
        item.path := by
  rw [collectedRow] at hRow
  rcases except_bind_eq_ok hRow with ⟨row, hFields, hRow⟩
  rcases except_bind_eq_ok hRow with ⟨_, -, hRow⟩
  rcases except_bind_eq_ok hRow with ⟨path, hPath, hRow⟩
  rcases except_bind_eq_ok hRow with ⟨depth, hDepth, hRow⟩
  split_ifs at hRow with hFound
  rcases except_bind_eq_ok hRow with ⟨rank, hRank, hRow⟩
  cases hRow
  rcases solution_eq_ok hPath with ⟨hCarries, hAnswers⟩
  rw [not_or, not_lt] at hFound
  exact
    ⟨⟨⟨row, hFields, hCarries, hDepth, hRank⟩,
      Nat.add_sub_cancel' hFound.2⟩, hAnswers⟩

/- The rows of a line. -/
theorem readCollection_eq_ok
    {line : Text}
    (hRead : parser.readCollection line = .ok next) :
    ∃ items,
      next =
        { parser with collected := parser.collected ++ items } ∧
      List.Forall₂ CollectedFrom ([line].filter isCollection)
        items ∧
      ∀ item ∈ items,
        Answers parser.graph parser.start parser.maxSteps
          item.path := by
  rw [readCollection] at hRead
  split_ifs at hRead with hLine
  · rcases except_bind_eq_ok hRead with ⟨item, hItem, hRead⟩
    cases hRead
    rcases collectedRow_eq_ok hItem with ⟨hFrom, hAnswers⟩
    refine ⟨[item], rfl, ?_, ?_⟩
    · rw [List.filter_cons, if_pos hLine, List.filter_nil]
      exact List.Forall₂.cons hFrom List.Forall₂.nil
    · intro other hOther
      rw [List.mem_singleton] at hOther
      exact hOther ▸ hAnswers
  · cases hRead
    refine ⟨[], ?_, ?_, fun _ hItem => nomatch hItem⟩
    · rw [List.append_nil]
    · rw [List.filter_cons, if_neg hLine, List.filter_nil]
      exact List.Forall₂.nil

/- The line told the count. -/
def CountedFrom (line : Text) (count : Nat) : Prop :=
  summaryCount line = .ok count

/- The counts of a line. -/
theorem readSummary_eq_ok
    {line : Text}
    (hRead : parser.readSummary line = .ok next) :
    ∃ counts,
      next = { parser with counts := parser.counts ++ counts } ∧
      List.Forall₂ CountedFrom ([line].filter isSummary)
        counts := by
  rw [readSummary] at hRead
  split_ifs at hRead with hLine
  · rcases except_bind_eq_ok hRead with ⟨count, hCount, hRead⟩
    cases hRead
    refine ⟨[count], rfl, ?_⟩
    rw [List.filter_cons, if_pos hLine, List.filter_nil]
    exact List.Forall₂.cons hCount List.Forall₂.nil
  · cases hRead
    refine ⟨[], ?_, ?_⟩
    · rw [List.append_nil]
    · rw [List.filter_cons, if_neg hLine, List.filter_nil]
      exact List.Forall₂.nil

/- Only the status changes. -/
theorem readStatus_eq
    (parser : TerminalParser)
    (line : Text) :
    ∃ status,
      parser.readStatus line =
        { parser with status := status } := by
  rw [readStatus]
  cases stripPrefix "collection_status=".toList line with
  | none => exact ⟨parser.status, rfl⟩
  | some status => exact ⟨some (trim status), rfl⟩

/- An answer that was taken answers the search. -/
theorem answer_eq_ok
    {solved : Nat}
    {row : Row}
    {found : Option (List Nat)}
    (hSolved : numberU32 row "puzzle_solved" = .ok solved)
    (hBound : solved ≤ 1)
    (hAnswer : parser.answer solved row = .ok found) :
    CarriesAnswer row found ∧
      ∀ path, found = some path →
        Answers parser.graph parser.start parser.maxSteps
          path := by
  rw [answer] at hAnswer
  split_ifs at hAnswer with hZero
  · rcases except_bind_eq_ok hAnswer with
      ⟨length, hLength, hAnswer⟩
    split_ifs at hAnswer with hMinus
    rcases except_bind_eq_ok hAnswer with ⟨text, hText, hAnswer⟩
    split_ifs at hAnswer with hEmpty
    cases hAnswer
    rw [not_not] at hMinus hEmpty
    subst hZero hMinus hEmpty
    exact
      ⟨⟨hSolved, hLength, hText⟩, fun _ hSome => nomatch hSome⟩
  · rcases except_bind_eq_ok hAnswer with ⟨path, hPath, hAnswer⟩
    cases hAnswer
    rcases solution_eq_ok hPath with ⟨hCarries, hAnswers⟩
    have hOne : solved = 1 := by omega
    subst hOne
    refine ⟨⟨hSolved, hCarries⟩, fun other hSome => ?_⟩
    cases hSome
    exact hAnswers

/- So does a terminal record. -/
theorem terminalRecord_eq_ok
    {text : Text}
    {record : Double × Option (List Nat)}
    (hRecord : parser.terminalRecord text = .ok record) :
    ∃ row,
      fields text = .ok row ∧
      CarriesAnswer row record.2 ∧
      ∀ path, record.2 = some path →
        Answers parser.graph parser.start parser.maxSteps
          path := by
  rw [terminalRecord] at hRecord
  rcases except_bind_eq_ok hRecord with ⟨row, hFields, hRecord⟩
  rcases except_bind_eq_ok hRecord with
    ⟨solved, hSolved, hRecord⟩
  rcases except_bind_eq_ok hRecord with ⟨seconds, -, hRecord⟩
  rcases except_bind_eq_ok hRecord with ⟨puzzle, -, hRecord⟩
  split_ifs at hRecord with hWrong
  rcases except_bind_eq_ok hRecord with ⟨found, hFound, hRecord⟩
  cases hRecord
  rw [not_or, not_or, not_or] at hWrong
  exact
    ⟨row, hFields,
      answer_eq_ok hSolved (Nat.le_of_not_gt hWrong.2.2.2)
        hFound⟩

/- A record fixes the answer or agrees with it. -/
theorem readTerminal_eq_ok
    {line : Text}
    (hRead : parser.readTerminal line = .ok next) :
    next =
        { parser with
          path := next.path
          seconds := next.seconds
          records := next.records } ∧
      (recordText line = none → next.path = parser.path) ∧
      (recordText line ≠ none →
        ∃ found,
          next.path = some found ∧
          Carries line found ∧
          (∀ previous, parser.path = some previous →
            previous = found) ∧
          ∀ path, found = some path →
            Answers parser.graph parser.start parser.maxSteps
              path) := by
  rw [readTerminal] at hRead
  cases hText : recordText line with
  | none =>
      rw [hText] at hRead
      cases hRead
      exact ⟨rfl, fun _ => rfl, fun hNot => absurd rfl hNot⟩
  | some text =>
      rw [hText] at hRead
      rcases except_bind_eq_ok hRead with
        ⟨record, hRecord, hRead⟩
      split_ifs at hRead with hOther hCount
      cases hRead
      rcases terminalRecord_eq_ok hRecord with
        ⟨row, hFields, hCarries, hAnswers⟩
      refine
        ⟨rfl, fun hNone => (nomatch hNone), fun _ =>
          ⟨record.2, rfl, ⟨text, row, hText, hFields, hCarries⟩,
            fun previous hPrevious => ?_, hAnswers⟩⟩
      rw [hPrevious] at hOther
      simpa using hOther

/- One line, as it is read after what came before. -/
structure LineRead
    (line : Text)
    (parser next : TerminalParser) : Prop where
  given :
    next.graph = parser.graph ∧ next.start = parser.start ∧
      next.maxSteps = parser.maxSteps
  widths :
    ∀ width, width ∈ next.effective ↔
      width ∈ parser.effective ∨
        ∃ token ∈ splitWhitespace line, WidthToken token width
  positive :
    ∀ token ∈ splitWhitespace line, ∀ width,
      WidthToken token width → width ≠ 0
  sizes :
    ∀ key size, size ∈ next.batches key ↔
      size ∈ parser.batches key ∨
        ∃ token ∈ splitWhitespace line, SizeToken key token size
  ordered :
    (∀ key, (parser.batches key).Pairwise (· < ·)) →
      ∀ key, (next.batches key).Pairwise (· < ·)
  collected :
    ∃ items,
      next.collected = parser.collected ++ items ∧
      List.Forall₂ CollectedFrom ([line].filter isCollection)
        items ∧
      ∀ item ∈ items,
        Answers parser.graph parser.start parser.maxSteps
          item.path
  counts :
    ∃ counts,
      next.counts = parser.counts ++ counts ∧
      List.Forall₂ CountedFrom ([line].filter isSummary) counts
  silent : recordText line = none → next.path = parser.path
  record :
    recordText line ≠ none →
      ∃ found,
        next.path = some found ∧
        Carries line found ∧
        (∀ previous, parser.path = some previous →
          previous = found) ∧
        ∀ path, found = some path →
          Answers parser.graph parser.start parser.maxSteps path

/- One line leaves what it tells. -/
theorem line_eq_ok
    {text : Text}
    (hLine : parser.line text = .ok next) :
    LineRead text parser next := by
  rw [line] at hLine
  split_ifs at hLine
  rcases except_bind_eq_ok hLine with ⟨p₁, hObserve, hLine⟩
  rcases except_bind_eq_ok hLine with ⟨p₂, hCollect, hLine⟩
  rcases except_bind_eq_ok hLine with ⟨p₃, hSummary, hLine⟩
  have hObserved := observeAll_eq_ok hObserve
  rcases readCollection_eq_ok hCollect with
    ⟨items, rfl, hItems, hAnswers⟩
  rcases readSummary_eq_ok hSummary with ⟨counts, rfl, hCounts⟩
  rcases readStatus_eq
      { p₁ with
        collected := p₁.collected ++ items
        counts := p₁.counts ++ counts } text with
    ⟨status, hStatus⟩
  rw [hStatus] at hLine
  rcases readTerminal_eq_ok hLine with
    ⟨hNext, hSilent, hRecord⟩
  rw [hObserved.frame] at hAnswers hSilent hRecord
  exact
    { given := by
        rw [hNext, hObserved.frame]
        exact ⟨rfl, rfl, rfl⟩
      widths := by
        rw [hNext]
        exact hObserved.widths
      positive := hObserved.positive
      sizes := by
        rw [hNext]
        exact hObserved.sizes
      ordered := by
        rw [hNext]
        exact hObserved.ordered
      collected := by
        rw [hNext, hObserved.frame]
        exact ⟨items, rfl, hItems, hAnswers⟩
      counts := by
        rw [hNext, hObserved.frame]
        exact ⟨counts, rfl, hCounts⟩
      silent := hSilent
      record := hRecord }

end TerminalParser

----------------
-- All Lines
----------------

/- What the state says is what the lines say. -/
structure ReadFrom
    (graph : PermutationGraph)
    (start : List UInt8)
    (maxSteps : Option Nat)
    (lines : List Text)
    (parser : TerminalParser) : Prop where
  given :
    parser.graph = graph ∧ parser.start = start ∧
      parser.maxSteps = maxSteps
  widths :
    ∀ width, width ∈ parser.effective ↔ Observed lines width
  positive : ∀ width, Observed lines width → width ≠ 0
  sizes :
    ∀ key size,
      size ∈ parser.batches key ↔ Sized lines key size
  ordered : ∀ key, (parser.batches key).Pairwise (· < ·)
  collected :
    List.Forall₂ CollectedFrom
      (lines.filter TerminalParser.isCollection)
      parser.collected
  replayed :
    ∀ item ∈ parser.collected,
      Answers graph start maxSteps item.path
  counts :
    List.Forall₂ TerminalParser.CountedFrom
      (lines.filter TerminalParser.isSummary) parser.counts
  carried :
    ∀ line ∈ lines, TerminalParser.recordText line ≠ none →
      ∃ found, parser.path = some found ∧ Carries line found
  seen :
    parser.path ≠ none →
      ∃ line ∈ lines, TerminalParser.recordText line ≠ none
  path :
    ∀ path, parser.path = some (some path) →
      Answers graph start maxSteps path

/- A width was told before or in the last line. -/
theorem observed_concat
    (lines : List Text)
    (line : Text)
    (width : Nat) :
    Observed (lines ++ [line]) width ↔
      Observed lines width ∨
        ∃ token ∈ splitWhitespace line,
          WidthToken token width := by
  unfold Observed
  simp [or_and_right, exists_or]

/- So was a size. -/
theorem sized_concat
    (lines : List Text)
    (line : Text)
    (key : BatchKey)
    (size : Nat) :
    Sized (lines ++ [line]) key size ↔
      Sized lines key size ∨
        ∃ token ∈ splitWhitespace line,
          SizeToken key token size := by
  unfold Sized
  simp [or_and_right, exists_or]

/- One line more was read. -/
theorem ReadFrom.line
    {next : TerminalParser}
    {text : Text}
    (hRead : ReadFrom graph start maxSteps lines parser)
    (hLine : parser.line text = .ok next) :
    ReadFrom graph start maxSteps (lines ++ [text]) next := by
  have hNew := TerminalParser.line_eq_ok hLine
  rcases hRead.given with ⟨rfl, rfl, rfl⟩
  rcases hNew.collected with ⟨items, hItems, hFrom, hAnswers⟩
  rcases hNew.counts with ⟨counts, hCounts, hCounted⟩
  refine
    { given := hNew.given
      widths := fun width => ?_
      positive := fun width hWidth => ?_
      sizes := fun key size => ?_
      ordered := hNew.ordered hRead.ordered
      collected := ?_
      replayed := fun item hItem => ?_
      counts := ?_
      carried := fun line hMem hText => ?_
      seen := fun hPath => ?_
      path := fun path hPath => ?_ }
  · rw [hNew.widths, hRead.widths, observed_concat]
  · rcases (observed_concat lines text width).mp hWidth with
      hOld | ⟨token, hToken, hWidth⟩
    · exact hRead.positive width hOld
    · exact hNew.positive token hToken width hWidth
  · rw [hNew.sizes, hRead.sizes, sized_concat]
  · rw [List.filter_append, hItems]
    exact List.rel_append hRead.collected hFrom
  · rw [hItems] at hItem
    rcases List.mem_append.mp hItem with hOld | hAdded
    · exact hRead.replayed item hOld
    · exact hAnswers item hAdded
  · rw [List.filter_append, hCounts]
    exact List.rel_append hRead.counts hCounted
  · rcases List.mem_append.mp hMem with hOld | hLast
    · rcases hRead.carried line hOld hText with
        ⟨found, hPath, hCarries⟩
      by_cases hRecord : TerminalParser.recordText text = none
      · exact
          ⟨found, (hNew.silent hRecord).trans hPath, hCarries⟩
      · rcases hNew.record hRecord with
          ⟨other, hNext, -, hSame, -⟩
        exact ⟨found, hSame found hPath ▸ hNext, hCarries⟩
    · rw [List.mem_singleton] at hLast
      subst hLast
      rcases hNew.record hText with ⟨found, hNext, hCarries, -⟩
      exact ⟨found, hNext, hCarries⟩
  · by_cases hRecord : TerminalParser.recordText text = none
    · rw [hNew.silent hRecord] at hPath
      rcases hRead.seen hPath with ⟨line, hMem, hText⟩
      exact ⟨line, List.mem_append_left _ hMem, hText⟩
    · exact
        ⟨text, List.mem_append_right _ List.mem_cons_self,
          hRecord⟩
  · by_cases hRecord : TerminalParser.recordText text = none
    · rw [hNew.silent hRecord] at hPath
      exact hRead.path path hPath
    · rcases hNew.record hRecord with
        ⟨found, hNext, -, -, hFound⟩
      rw [hPath] at hNext
      exact hFound path (Option.some.inj hNext).symm

/- All lines of a log. -/
theorem lines_readFrom
    {final : TerminalParser}
    (hNew : TerminalParser.new graph start maxSteps = .ok parser)
    (hLines : parser.lines lines = .ok final) :
    ReadFrom graph start maxSteps lines final := by
  rw [TerminalParser.new] at hNew
  rcases except_bind_eq_ok hNew with ⟨_, -, hNew⟩
  cases hNew
  have hStart : ReadFrom graph start maxSteps []
      { graph := graph
        start := start
        maxSteps := maxSteps
        path := none
        seconds := .finite false 0
        records := 0
        effective := []
        batches := fun _ => []
        collected := []
        counts := []
        status := none } :=
    { given := ⟨rfl, rfl, rfl⟩
      widths := fun width => by simp [Observed]
      positive := fun width hWidth => by
        rcases hWidth with ⟨_, hMem, -⟩
        cases hMem
      sizes := fun key size => by simp [Sized]
      ordered := fun _ => List.Pairwise.nil
      collected := List.Forall₂.nil
      replayed := fun _ hItem => nomatch hItem
      counts := List.Forall₂.nil
      carried := fun _ hMem => nomatch hMem
      seen := fun hPath => absurd rfl hPath
      path := fun _ hPath => nomatch hPath }
  have hEnd :=
    foldlM_eq_ok (J := ReadFrom graph start maxSteps)
      (fun _ _ _ _ hRead hLine => hRead.line hLine) hStart
      hLines
  rwa [List.nil_append] at hEnd

----------------
-- The Collection
----------------

namespace TerminalParser

/- Sorted paths without equal neighbours increase. -/
theorem pairwise_lt_of_adjacent
    {paths : List (List Nat)}
    (hSorted : paths.Pairwise (· ≤ ·))
    (hAdjacent : adjacentEqual paths = false) :
    paths.Pairwise (· < ·) := by
  induction paths with
  | nil => exact List.Pairwise.nil
  | cons a rest ih =>
      cases rest with
      | nil => exact List.pairwise_singleton _ _
      | cons b rest =>
          rw [adjacentEqual, Bool.or_eq_false_iff,
            beq_eq_false_iff_ne] at hAdjacent
          rw [List.pairwise_cons] at hSorted
          have hRest := ih hSorted.2 hAdjacent.2
          have hLt : a < b :=
            lt_of_le_of_ne (hSorted.1 b List.mem_cons_self)
              hAdjacent.1
          refine List.pairwise_cons.mpr ⟨fun c hc => ?_, hRest⟩
          rcases List.mem_cons.mp hc with rfl | hc
          · exact hLt
          · exact hLt.trans ((List.pairwise_cons.mp hRest).1 c hc)

/- So no path is there twice. -/
theorem nodup_of_hasDuplicate
    {paths : List (List Nat)}
    (hNone : hasDuplicate paths = false) :
    paths.Nodup := by
  have hStrict :=
    pairwise_lt_of_adjacent
      (List.pairwise_insertionSort (· ≤ ·) paths) hNone
  have hNodup : (paths.insertionSort (· ≤ ·)).Nodup :=
    hStrict.imp fun hLt => ne_of_lt hLt
  exact (List.perm_insertionSort (· ≤ ·) paths).nodup_iff.mp hNodup

/- A collection that was read and agrees with the answer. -/
structure Agreed
    (parser : TerminalParser)
    (path : Option (List Nat)) : Prop where
  counts : parser.counts = [parser.collected.length]
  nodup : (parser.collected.map Collected.path).Nodup
  solved : parser.collected ≠ [] ↔ path ≠ none
  contains :
    ∀ p, path = some p →
      p ∈ parser.collected.map Collected.path

/- The fields of a collection, or none. -/
theorem collectionFields_eq_ok
    {parser : TerminalParser}
    {path : Option (List Nat)}
    {metadata fields : Json.Fields}
    (hFields :
      parser.collectionFields path metadata = .ok fields) :
    (parser.counts = [] ∧ parser.collected = [] ∧
        fields = metadata) ∨
      (Agreed parser path ∧
        ∃ status,
          fields =
            Json.insert "collection_status" status
              (Json.insert "collected_solutions"
                (.array (parser.collected.map collectedJson))
                metadata)) := by
  rw [collectionFields] at hFields
  split_ifs at hFields with hNothing hCounts hTwice hAgree
  · cases hFields
    exact Or.inl ⟨hNothing.1, hNothing.2, rfl⟩
  · cases hFields
    rw [not_not] at hCounts
    rw [Bool.not_eq_true] at hTwice
    rw [not_or, not_not] at hAgree
    refine
      Or.inr
        ⟨{ counts := hCounts
           nodup := nodup_of_hasDuplicate hTwice
           solved := ?_
           contains := fun p hPath => ?_ }, _, rfl⟩
    · rw [← Option.isSome_iff_ne_none, ← hAgree.1,
        Bool.not_eq_true', List.isEmpty_eq_false_iff]
    · have hIn := hAgree.2
      rw [hPath] at hIn
      simpa using hIn

/- The other fields stay. -/
theorem lookup_batchFields
    (parser : TerminalParser)
    (metadata : Json.Fields)
    {key : BatchKey}
    {other : String}
    (hName : other ≠ key.name)
    (hByRank : other ≠ byRankKey key) :
    (parser.batchFields metadata key).lookup other =
      metadata.lookup other := by
  rw [batchFields]
  split_ifs
  · rw [Json.lookup_insert_of_ne hByRank,
      Json.lookup_insert_of_ne hName]
  · rw [Json.lookup_insert_of_ne hName]

/- The batch keys stay out of the way of the others. -/
theorem lookup_batches
    (parser : TerminalParser)
    (metadata : Json.Fields)
    {other : String}
    (hNames :
      ∀ key : BatchKey,
        other ≠ key.name ∧ other ≠ byRankKey key) :
    (BatchKey.all.foldl parser.batchFields metadata).lookup
        other =
      metadata.lookup other := by
  have hAll :
      ∀ (keys : List BatchKey) (fields : Json.Fields),
        (keys.foldl parser.batchFields fields).lookup other =
          fields.lookup other := by
    intro keys
    induction keys with
    | nil => exact fun _ => rfl
    | cons key keys ih =>
        intro fields
        rw [List.foldl_cons, ih]
        exact
          lookup_batchFields parser fields (hNames key).1
            (hNames key).2
  exact hAll BatchKey.all metadata

/- A result has its parts from the parser. -/
theorem finish_eq_ok
    {parser : TerminalParser}
    {result : TerminalResult}
    (hFinish : parser.finish = .ok result) :
    parser.path = some result.path ∧
      parser.effective.length ≤ 1 ∧
      result.effectiveBeamWidth = parser.effective.head? ∧
      ∃ fields,
        parser.collectionFields result.path
            [("native_seconds", .double parser.seconds),
              ("terminal_records", .integer parser.records)] =
          .ok fields ∧
        result.metadata =
          BatchKey.all.foldl parser.batchFields fields := by
  rw [finish] at hFinish
  cases hPath : parser.path with
  | none =>
      rw [hPath] at hFinish
      cases hFinish
  | some path =>
      rw [hPath] at hFinish
      change (if _ then _ else _) = _ at hFinish
      split_ifs at hFinish with hWidths
      rcases except_bind_eq_ok hFinish with
        ⟨fields, hFields, hFinish⟩
      cases hFinish
      exact ⟨rfl, by omega, rfl, fields, hFields, rfl⟩

end TerminalParser

/- The line belongs to a collection. -/
def isCollecting (line : Text) : Bool :=
  TerminalParser.isCollection line ||
    TerminalParser.isSummary line

/- The collection of an accepted log with its one summary. -/
structure Collection
    (lines : List Text)
    (items : List Collected)
    (result : TerminalResult) : Prop where
  summary :
    ∃ line,
      lines.filter TerminalParser.isSummary = [line] ∧
      TerminalParser.summaryCount line = .ok items.length
  nodup : (items.map Collected.path).Nodup
  solved : items ≠ [] ↔ result.path ≠ none
  contains :
    ∀ path, result.path = some path →
      path ∈ items.map Collected.path
  told :
    result.metadata.lookup "collected_solutions" =
      some (.array (items.map TerminalParser.collectedJson))

/- Some line does. -/
def Collects (lines : List Text) : Prop :=
  ∃ line ∈ lines, isCollecting line = true

/- Without a collection line nothing is collected. -/
theorem ReadFrom.not_collects
    (hRead : ReadFrom graph start maxSteps lines parser)
    (hCounts : parser.counts = [])
    (hNone : parser.collected = []) :
    ¬ Collects lines := by
  have hCollected := hRead.collected
  have hSummaries := hRead.counts
  rw [hNone, List.forall₂_nil_right_iff,
    List.filter_eq_nil_iff] at hCollected
  rw [hCounts, List.forall₂_nil_right_iff,
    List.filter_eq_nil_iff] at hSummaries
  rintro ⟨line, hMem, hLine⟩
  rw [isCollecting, Bool.or_eq_true] at hLine
  rcases hLine with hLine | hLine
  · exact hCollected line hMem hLine
  · exact hSummaries line hMem hLine

/- A collection has all its rows. -/
theorem ReadFrom.collection
    {result : TerminalResult}
    (hRead : ReadFrom graph start maxSteps lines parser)
    (hFinish : parser.finish = .ok result)
    (hSome : Collects lines) :
    Collection lines parser.collected result := by
  rcases TerminalParser.finish_eq_ok hFinish with
    ⟨-, -, -, fields, hFields, hMetadata⟩
  rcases TerminalParser.collectionFields_eq_ok hFields with
    ⟨hCounts, hNone, -⟩ | ⟨hAgreed, status, rfl⟩
  · exact absurd hSome (hRead.not_collects hCounts hNone)
  · have hSummaries := hRead.counts
    rw [hAgreed.counts] at hSummaries
    rcases List.forall₂_cons_right_iff.mp hSummaries with
      ⟨line, rest, hCount, hRest, hLines⟩
    rw [List.forall₂_nil_right_iff] at hRest
    subst hRest
    refine
      { summary := ⟨line, hLines, hCount⟩
        nodup := hAgreed.nodup
        solved := hAgreed.solved
        contains := hAgreed.contains
        told := ?_ }
    rw [hMetadata, TerminalParser.lookup_batches]
    · rw [Json.lookup_insert_of_ne (by decide),
        Json.lookup_insert_self]
    · intro key
      cases key <;> decide

/-
  A log that is read to the end has one answer. A path in it,
  the answer's or a collected one, was spelled in the log and
  leads from the start to the center in the steps allowed.
-/
theorem terminalParser_replayable
    (graph : PermutationGraph)
    (start : List UInt8)
    (maxSteps : Option Nat)
    (lines : List Text)
    (parser final : TerminalParser)
    (result : TerminalResult)
    (hNew : TerminalParser.new graph start maxSteps = .ok parser)
    (hLines : parser.lines lines = .ok final)
    (hFinish : final.finish = .ok result) :
    (∃ line ∈ lines,
        TerminalParser.recordText line ≠ none) ∧
      (∀ line ∈ lines,
        TerminalParser.recordText line ≠ none →
          Carries line result.path) ∧
      (∀ path, result.path = some path →
        Answers graph start maxSteps path) ∧
      List.Forall₂ CollectedFrom
        (lines.filter TerminalParser.isCollection)
        final.collected ∧
      (∀ item ∈ final.collected,
        Answers graph start maxSteps item.path ∧
          item.solvedDepth + item.touchDepth =
            item.path.length) ∧
      (Collects lines →
        Collection lines final.collected result) ∧
      (∀ width, Observed lines width →
        width ≠ 0 ∧ result.effectiveBeamWidth = some width) ∧
      ∀ width, result.effectiveBeamWidth = some width →
        Observed lines width := by
  have hRead := lines_readFrom hNew hLines
  rcases TerminalParser.finish_eq_ok hFinish with
    ⟨hPath, hOne, hWidth, -, -, -⟩
  refine
    ⟨hRead.seen (by rw [hPath]; exact Option.some_ne_none _),
      fun line hMem hText => ?_, fun path hSome => ?_,
      hRead.collected, fun item hItem => ⟨?_, ?_⟩,
      hRead.collection hFinish, fun width hSeen => ⟨?_, ?_⟩,
      fun width hTold => ?_⟩
  · rcases hRead.carried line hMem hText with
      ⟨found, hFound, hCarries⟩
    rw [hPath] at hFound
    exact Option.some.inj hFound ▸ hCarries
  · exact hRead.path path (by rw [hPath, hSome])
  · exact hRead.replayed item hItem
  · rcases List.getElem_of_mem hItem with ⟨i, hi, rfl⟩
    exact (hRead.collected.get
      (by rw [hRead.collected.length_eq]; exact hi) hi).depths
  · exact hRead.positive width hSeen
  · have hIn := (hRead.widths width).mpr hSeen
    rw [hWidth]
    rcases List.getElem_of_mem hIn with ⟨i, hi, rfl⟩
    have hFirst : i = 0 := by omega
    subst hFirst
    exact List.head?_eq_getElem? ▸ List.getElem?_eq_getElem hi
  · rw [hWidth] at hTold
    exact
      (hRead.widths width).mp (List.mem_of_mem_head? hTold)

/- One swap, collected and then told as the answer. -/
def swapGraph : PermutationGraph where
  center := [0, 1]
  generators := [[0, 1], [1, 0]]

/- A log with a row, its count and its answer. -/
def swapLog : List Text :=
  ["GLOBAL_BEAM_WIDTH_EFFECTIVE=65".toList,
    ("solve_bucket_solution=1 puzzle_id=0 found_depth=1 " ++
      "solution_length=1 owner_rank=0 solution=m1").toList,
    "solve_bucket_summary=1 puzzle_id=0 records=1".toList,
    ("puzzle_solved=1 puzzle_id=0 seconds=1 " ++
      "solution_length=1 solution=m1").toList]

theorem terminalParser_replayable_swap :
    ∃ result,
      parseLog swapGraph [1, 0] (some 3) swapLog = .ok result ∧
      result.path = some [1] ∧
      Answers swapGraph [1, 0] (some 3) [1] ∧
      result.effectiveBeamWidth = some 65 := by
  have hPath :
      (parseLog swapGraph [1, 0] (some 3) swapLog).toOption.map
          TerminalResult.path =
        some (some [1]) := by
    decide +kernel
  rcases Option.map_eq_some_iff.mp hPath with
    ⟨result, hResult, hAnswer⟩
  cases hRun : parseLog swapGraph [1, 0] (some 3) swapLog with
  | error error =>
      rw [hRun] at hResult
      cases hResult
  | ok other =>
      rw [hRun] at hResult
      cases hResult
      rcases except_bind_eq_ok hRun with ⟨parser, hNew, hRest⟩
      rcases except_bind_eq_ok hRest with ⟨final, hLines, hFinish⟩
      rcases terminalParser_replayable swapGraph [1, 0] (some 3)
          swapLog parser final result hNew hLines hFinish with
        ⟨-, -, hAnswers, -, -, -, hWidth, -⟩
      have hSeen : Observed swapLog 65 := by
        refine
          ⟨_, List.mem_cons_self, _, List.mem_cons_self,
            "GLOBAL_BEAM_WIDTH_EFFECTIVE".toList, "65".toList, ?_⟩
        decide
      exact
        ⟨result, rfl, hAnswer, hAnswers [1] hAnswer,
          (hWidth 65 hSeen).2⟩

end Search

end BeamSearch
