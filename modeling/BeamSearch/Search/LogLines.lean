import BeamSearch.Search.Replayable
import BeamSearch.Solve.Writers

/-
  What the lines of a run tell the parser of the log.

  A line tells rows, counts and answers, and what it tells does
  not depend on when it is read. A line without a key the
  parser looks for tells nothing.

  Main declarations:
    * `Said`, `Tells`
    * `lines_tell`
    * `tells_quiet`, `tells_solution`, `tells_summary`,
      `tells_answer`
-/

namespace BeamSearch

open Text

namespace Search

namespace TerminalParser

variable {first parser : TerminalParser} {answer : Option (List Nat)} {line : Text}
    {row : List (String × Text)} {moves : List Nat} {labels : Solve.TaskLabels}
    {seconds : Double}

----------------
-- What A Line Tells
----------------

/- Rows, counts and the number of answers. -/
structure Said where
  collected : List Collected
  counts : List Nat
  records : Nat

namespace Said

/- A line that says nothing. -/
def nothing : Said :=
  ⟨[], [], 0⟩

/- What two lines say together. -/
def add (a b : Said) : Said :=
  ⟨a.collected ++ b.collected, a.counts ++ b.counts,
    a.records + b.records⟩

/- What all lines say. -/
def total (saids : List Said) : Said :=
  saids.foldr add nothing

/- The items of all lines. -/
theorem collected_total (saids : List Said) :
    (total saids).collected = saids.flatMap Said.collected := by
  induction saids with
  | nil => rfl
  | cons said saids ih =>
      rw [List.flatMap_cons, ← ih]
      rfl

/- The counts of all lines. -/
theorem counts_total (saids : List Said) :
    (total saids).counts = saids.flatMap Said.counts := by
  induction saids with
  | nil => rfl
  | cons said saids ih =>
      rw [List.flatMap_cons, ← ih]
      rfl

/- The answers of all lines. -/
theorem records_total (saids : List Said) :
    (total saids).records = (saids.map Said.records).sum := by
  induction saids with
  | nil => rfl
  | cons said saids ih =>
      rw [List.map_cons, List.sum_cons, ← ih]
      rfl

end Said

/- Two states of one reading. -/
structure SameStart (parser other : TerminalParser) : Prop where
  graph : parser.graph = other.graph
  start : parser.start = other.start
  maxSteps : parser.maxSteps = other.maxSteps

/- The state after more was said. -/
structure Extends
    (answer : Option (List Nat))
    (parser next : TerminalParser)
    (said : Said) : Prop where
  same : SameStart next parser
  effective : next.effective = parser.effective
  batches : next.batches = parser.batches
  collected : next.collected = parser.collected ++ said.collected
  counts : next.counts = parser.counts ++ said.counts
  records : next.records = parser.records + said.records
  path :
    next.path =
      if said.records = 0 then parser.path else some answer

/- What is said to any state with no other answer. -/
def Tells
    (first : TerminalParser)
    (answer : Option (List Nat))
    (line : Text)
    (said : Said) : Prop :=
  ∀ parser : TerminalParser,
    SameStart parser first →
    (parser.path = none ∨ parser.path = some answer) →
    parser.records + said.records < 2 ^ 64 →
      ∃ next, parser.line line = .ok next ∧
        Extends answer parser next said

/- A state in which nothing was said. -/
structure Blank (parser : TerminalParser) : Prop where
  path : parser.path = none
  records : parser.records = 0
  effective : parser.effective = []
  batches : parser.batches = fun _ => []
  collected : parser.collected = []
  counts : parser.counts = []

/- A parser with a valid start exists, and has read nothing. -/
theorem blank_new
    {graph : PermutationGraph}
    {start : List UInt8}
    (maxSteps : Option Nat)
    (hStart : graph.validateStart start = .ok ()) :
    ∃ first,
      TerminalParser.new graph start maxSteps = .ok first ∧
        first.Blank ∧ first.graph = graph ∧
        first.start = start ∧ first.maxSteps = maxSteps := by
  rw [TerminalParser.new, hStart]
  exact ⟨_, rfl, ⟨rfl, rfl, rfl, rfl, rfl, rfl⟩, rfl, rfl, rfl⟩

/- What a first line tells. -/
def heard (first : TerminalParser) (line : Text) : Said :=
  match first.line line with
  | .ok next => ⟨next.collected, next.counts, next.records⟩
  | .error _ => .nothing

/- A line that tells something is heard so. -/
theorem Tells.heard_eq
    {said : Said}
    (hTells : Tells first answer line said)
    (hBlank : first.Blank)
    (hFits : said.records < 2 ^ 64) :
    first.heard line = said := by
  rcases hTells first ⟨rfl, rfl, rfl⟩ (Or.inl hBlank.path)
      (by rw [hBlank.records, Nat.zero_add]; exact hFits) with
    ⟨next, hLine, hNext⟩
  rw [heard, hLine]
  change
    (⟨next.collected, next.counts, next.records⟩ : Said) = said
  rw [hNext.collected, hNext.counts, hNext.records,
    hBlank.collected, hBlank.counts, hBlank.records,
    Nat.zero_add, List.nil_append, List.nil_append]

/- A silent line extends nothing. -/
theorem Extends.nothing
    (answer : Option (List Nat))
    (parser : TerminalParser) :
    Extends answer parser parser Said.nothing where
  same := ⟨rfl, rfl, rfl⟩
  effective := rfl
  batches := rfl
  collected := (List.append_nil _).symm
  counts := (List.append_nil _).symm
  records := rfl
  path := (if_pos rfl).symm

/- Two lines extend one after the other. -/
theorem Extends.add
    {next last : TerminalParser}
    {a b : Said}
    (hFirst : Extends answer parser next a)
    (hSecond : Extends answer next last b) :
    Extends answer parser last (a.add b) where
  same :=
    ⟨hSecond.same.graph.trans hFirst.same.graph,
      hSecond.same.start.trans hFirst.same.start,
      hSecond.same.maxSteps.trans hFirst.same.maxSteps⟩
  effective := hSecond.effective.trans hFirst.effective
  batches := hSecond.batches.trans hFirst.batches
  collected := by
    rw [hSecond.collected, hFirst.collected, List.append_assoc]
    rfl
  counts := by
    rw [hSecond.counts, hFirst.counts, List.append_assoc]
    rfl
  records := by
    rw [hSecond.records, hFirst.records, Nat.add_assoc]
    rfl
  path := by
    rw [hSecond.path, hFirst.path]
    have hSum : (a.add b).records = a.records + b.records := rfl
    rw [hSum]
    split_ifs <;> first | rfl | omega

/- A log of telling lines is accepted. -/
theorem lines_tell
    {log : List Text}
    (hBlank : first.Blank)
    (hTells :
      ∀ line ∈ log, ∃ said : Said,
        said.records < 2 ^ 64 ∧ Tells first answer line said)
    (hSame : SameStart parser first)
    (hPath : parser.path = none ∨ parser.path = some answer)
    (hFits :
      parser.records +
          (Said.total (log.map first.heard)).records <
        2 ^ 64) :
    ∃ final, parser.lines log = .ok final ∧
      Extends answer parser final
        (Said.total (log.map first.heard)) := by
  induction log generalizing parser with
  | nil => exact ⟨parser, rfl, Extends.nothing answer parser⟩
  | cons line log ih =>
      rcases hTells line List.mem_cons_self with
        ⟨said, hSmall, hLine⟩
      have hHeard := hLine.heard_eq hBlank hSmall
      have hTotal :
          Said.total ((line :: log).map first.heard) =
            said.add (Said.total (log.map first.heard)) := by
        rw [List.map_cons, hHeard]
        rfl
      rw [hTotal] at hFits ⊢
      have hSum :
          (said.add (Said.total (log.map first.heard))).records =
            said.records +
              (Said.total (log.map first.heard)).records := rfl
      rw [hSum] at hFits
      rcases hLine parser hSame hPath (by omega) with
        ⟨next, hNext, hExtends⟩
      have hNextPath :
          next.path = none ∨ next.path = some answer := by
        rw [hExtends.path]
        split_ifs
        · exact hPath
        · exact Or.inr rfl
      rcases ih (fun other hOther =>
            hTells other (List.mem_cons_of_mem line hOther))
          ⟨hExtends.same.graph.trans hSame.graph,
            hExtends.same.start.trans hSame.start,
            hExtends.same.maxSteps.trans hSame.maxSteps⟩
          hNextPath (by rw [hExtends.records]; omega) with
        ⟨final, hFinal, hRest⟩
      refine ⟨final, ?_, hExtends.add hRest⟩
      rw [lines, List.foldlM_cons, hNext]
      exact hFinal

----------------
-- Quiet Keys
----------------

/- Keys that make a reader of every line act. -/
def isReserved (key : Text) : Bool :=
  "production_runner_error".toList.isSuffixOf key ||
    isWidthKey key || (BatchKey.ofText key).isSome

/- A key that the terminal record may start at. -/
def isTerminalKey (key : Text) : Bool :=
  "puzzle_solved".toList.isSuffixOf key

/- Keys that make no reader act. -/
def isQuiet (key : Text) : Bool :=
  !isReserved key && !isTerminalKey key &&
    key != "solve_bucket_solution".toList &&
    key != "solve_bucket_summary".toList

/- A plain word before an equal sign is the end of a key. -/
theorem contains_of_keys
    {p : Text}
    (hPlain : p.all isPlain = true)
    (hKeys : ∀ key ∈ keysOf line, p.isSuffixOf key = false) :
    ¬ p ++ ['='] <:+: line := by
  intro hInfix
  rcases exists_key_of_infix hPlain hInfix with
    ⟨key, hKey, hSuffix⟩
  have hQuiet := hKeys key hKey
  rw [List.isSuffixOf_iff_suffix.mpr hSuffix] at hQuiet
  cases hQuiet

/- A token without a reserved key is silent. -/
theorem observe_quiet
    {token : Text}
    (hKeys : ∀ key ∈ keysOf line, isReserved key = false)
    (hToken : token ∈ splitWhitespace line) :
    parser.observe token = .ok parser := by
  rw [observe]
  cases hSplit : splitOnce '=' token with
  | none => rfl
  | some field =>
      rcases field with ⟨key, value⟩
      have hQuiet := hKeys key (mem_keysOf_of_token hToken hSplit)
      rw [isReserved, Bool.or_eq_false_iff,
        Bool.or_eq_false_iff] at hQuiet
      dsimp only
      rw [if_neg (by rw [hQuiet.1.2]; exact Bool.false_ne_true)]
      cases hBatch : BatchKey.ofText key with
      | none => rfl
      | some batch =>
          rw [hBatch] at hQuiet
          cases hQuiet.2

/- Steps that change nothing. -/
theorem foldlM_fixed
    {ε α β : Type}
    {step : β → α → Except ε β}
    {b : β}
    {xs : List α}
    (hFixed : ∀ x ∈ xs, step b x = .ok b) :
    xs.foldlM step b = .ok b := by
  induction xs with
  | nil => rfl
  | cons x xs ih =>
      rw [List.foldlM_cons, hFixed x List.mem_cons_self]
      exact ih fun y hy => hFixed y (List.mem_cons_of_mem x hy)

/- A line without reserved keys only goes to its readers. -/
theorem line_of_keys
    (parser : TerminalParser)
    (hKeys : ∀ key ∈ keysOf line, isReserved key = false) :
    parser.line line =
      (do
        let parser ← parser.readCollection line
        let parser ← parser.readSummary line
        (parser.readStatus line).readTerminal line) := by
  have hError :
      contains "production_runner_error=".toList line = false := by
    have hAbsent :=
      contains_of_keys
        (p := "production_runner_error".toList) (by decide)
        fun key hKey => by
          have hQuiet := hKeys key hKey
          rw [isReserved, Bool.or_eq_false_iff,
            Bool.or_eq_false_iff] at hQuiet
          exact hQuiet.1.1
    have hNone :
        fromFirst "production_runner_error=".toList line = none :=
      fromFirst_of_absent hAbsent
    rw [contains, hNone]
    rfl
  have hObserve :
      (splitWhitespace line).foldlM observe parser = .ok parser :=
    foldlM_fixed fun token hToken => observe_quiet hKeys hToken
  rw [TerminalParser.line, hError, if_neg Bool.false_ne_true,
    hObserve]
  rfl

/- A line without the key is no collection line. -/
theorem isCollection_of_keys
    (hKeys :
      "solve_bucket_solution".toList ∉ keysOf line) :
    isCollection line = false := by
  refine Bool.eq_false_iff.mpr fun hFront => hKeys ?_
  exact
    mem_keysOf_of_front ['1', ' '] (by decide)
      (List.isPrefixOf_iff_prefix.mp hFront)

/- Nor a summary line. -/
theorem isSummary_of_keys
    (hKeys : "solve_bucket_summary".toList ∉ keysOf line) :
    isSummary line = false := by
  refine Bool.eq_false_iff.mpr fun hFront => hKeys ?_
  exact
    mem_keysOf_of_front ['1', ' '] (by decide)
      (List.isPrefixOf_iff_prefix.mp hFront)

/- Nor a terminal one. -/
theorem recordText_of_keys
    (hKeys : ∀ key ∈ keysOf line, isTerminalKey key = false) :
    recordText line = none :=
  fromFirst_of_absent
    (contains_of_keys (p := "puzzle_solved".toList) (by decide)
      hKeys)

/- So it adds no row. -/
theorem readCollection_of_keys
    (parser : TerminalParser)
    (hKeys :
      "solve_bucket_solution".toList ∉ keysOf line) :
    parser.readCollection line = .ok parser := by
  rw [readCollection, isCollection_of_keys hKeys]
  rfl

/- And no count. -/
theorem readSummary_of_keys
    (parser : TerminalParser)
    (hKeys : "solve_bucket_summary".toList ∉ keysOf line) :
    parser.readSummary line = .ok parser := by
  rw [readSummary, isSummary_of_keys hKeys]
  rfl

/- And no answer. -/
theorem readTerminal_of_keys
    (parser : TerminalParser)
    (hKeys : ∀ key ∈ keysOf line, isTerminalKey key = false) :
    parser.readTerminal line = .ok parser := by
  rw [readTerminal, recordText_of_keys hKeys]

/- The status is all a status line changes. -/
theorem Extends.status
    {next : TerminalParser}
    {said : Said}
    (line : Text)
    (hExtends : Extends answer parser next said) :
    Extends answer parser (next.readStatus line) said := by
  rw [readStatus]
  split
  · exact hExtends
  · exact
      { hExtends with
        same :=
          ⟨hExtends.same.graph, hExtends.same.start,
            hExtends.same.maxSteps⟩ }

/- A line of quiet keys says nothing. -/
theorem tells_quiet
    (first : TerminalParser)
    (answer : Option (List Nat))
    (hKeys : ∀ key ∈ keysOf line, isQuiet key = true) :
    Tells first answer line Said.nothing := by
  have hEach :
      ∀ key ∈ keysOf line,
        isReserved key = false ∧ isTerminalKey key = false ∧
          key ≠ "solve_bucket_solution".toList ∧
          key ≠ "solve_bucket_summary".toList := by
    intro key hKey
    have hQuiet := hKeys key hKey
    simp only [isQuiet, Bool.and_eq_true, Bool.not_eq_true',
      bne_iff_ne] at hQuiet
    exact ⟨hQuiet.1.1.1, hQuiet.1.1.2, hQuiet.1.2, hQuiet.2⟩
  intro parser _ _ _
  refine
    ⟨parser.readStatus line, ?_,
      (Extends.nothing answer parser).status line⟩
  rw [line_of_keys parser fun key hKey => (hEach key hKey).1,
    readCollection_of_keys parser fun hKey =>
      (hEach _ hKey).2.2.1 rfl]
  change
    (do
      let parser ← parser.readSummary line
      (parser.readStatus line).readTerminal line) = _
  rw [readSummary_of_keys parser fun hKey =>
      (hEach _ hKey).2.2.2 rfl]
  exact
    readTerminal_of_keys _ fun key hKey => (hEach key hKey).2.1

/- A line without an equals sign tells nothing. -/
theorem tells_other
    (first : TerminalParser)
    (answer : Option (List Nat))
    (hOther : '=' ∉ line) :
    Tells first answer line Said.nothing :=
  tells_quiet first answer fun key hKey => by
    rw [keysOf_of_not_mem hOther] at hKey
    cases hKey

----------------
-- Records
----------------

/- Rows that can be read back. -/
structure PlainRow (row : List (String × Text)) : Prop where
  keys :
    ((row.map Prod.fst).all fun key =>
        key.toList.all isPlain) =
      true
  distinct : (row.map fun field => field.1.toList).Nodup
  values :
    ∀ value ∈ row.map Prod.snd, List.all value isPlain = true

/- The fields as texts of characters. -/
def rowOf (row : List (String × Text)) : Row :=
  row.map fun field => (field.1.toList, field.2)

/- A plain row has plain keys. -/
theorem PlainRow.key
    {field : String × Text}
    (hRow : PlainRow row)
    (hField : field ∈ row) :
    field.1.toList.all isPlain = true :=
  List.all_eq_true.mp hRow.keys field.1
    (List.mem_map_of_mem hField)

/- And plain values. -/
theorem PlainRow.value
    {field : String × Text}
    (hRow : PlainRow row)
    (hField : field ∈ row) :
    field.2.all isPlain = true :=
  hRow.values field.2 (List.mem_map_of_mem hField)

/- The keys of a written row are its own. -/
theorem keysOf_record
    (hRow : PlainRow row) :
    keysOf (Solve.record row) =
      row.map fun field => field.1.toList := by
  rw [Solve.record, keysOf_spaced, List.flatMap_map,
    List.map_eq_flatMap]
  refine List.flatMap_congr fun field hField => ?_
  exact
    keysOf_pair (hRow.key hField)
      (not_mem_equals (hRow.value hField))

/- The words of a written row are its pairs. -/
theorem splitWhitespace_record
    (hRow : PlainRow row) :
    splitWhitespace (Solve.record row) =
      row.map fun field => pair field.1.toList field.2 := by
  rw [Solve.record, splitWhitespace_spaced, List.flatMap_map,
    List.map_eq_flatMap]
  refine List.flatMap_congr fun field hField => ?_
  exact
    splitWhitespace_pair (hRow.key hField) (hRow.value hField)

/- The pairs are read one by one. -/
theorem fieldsFrom_pairs
    {fields : Row}
    (seen : Row)
    (hKeys :
      ∀ field ∈ fields, field.1.all isPlain = true)
    (hDistinct : ((seen ++ fields).map Prod.fst).Nodup) :
    fieldsFrom seen
        (fields.map fun field => pair field.1 field.2) =
      .ok (seen ++ fields) := by
  induction fields generalizing seen with
  | nil => rw [List.append_nil]; rfl
  | cons field fields ih =>
      have hNew : seen.lookup field.1 = none := by
        refine List.lookup_eq_none_iff.mpr fun other hOther => ?_
        rw [bne_iff_ne]
        intro hSame
        rw [List.map_append, List.nodup_append] at hDistinct
        exact
          hDistinct.2.2 _ (List.mem_map_of_mem hOther) _
            (List.mem_map_of_mem List.mem_cons_self) hSame.symm
      rw [List.map_cons, fieldsFrom,
        splitOnce_pair _ (hKeys field List.mem_cons_self)]
      dsimp only
      rw [hNew, Option.isSome_none, if_neg Bool.false_ne_true,
        ih (seen ++ [(field.1, field.2)])
          (fun other hOther =>
            hKeys other (List.mem_cons_of_mem field hOther))
          (by simpa using hDistinct)]
      rw [List.append_assoc]
      rfl

/- What was written is read. -/
theorem fields_record
    (hRow : PlainRow row) :
    fields (Solve.record row) = .ok (rowOf row) := by
  have hTokens :
      splitWhitespace (Solve.record row) =
        (rowOf row).map fun field => pair field.1 field.2 := by
    rw [splitWhitespace_record hRow, rowOf, List.map_map]
    rfl
  rw [fields, hTokens]
  refine fieldsFrom_pairs [] (fun field hField => ?_) ?_
  · rcases List.mem_map.mp hField with ⟨named, hNamed, rfl⟩
    exact hRow.key hNamed
  · rw [List.nil_append, rowOf, List.map_map]
    exact hRow.distinct

/- A field that is parsed. -/
theorem parsed_of_value
    {α : Type}
    {parse : Text → Option α}
    {row : Row}
    {key : String}
    {text : Text}
    {number : α}
    (hValue : value row key = .ok text)
    (hParse : parse text = some number) :
    parsed parse row key = .ok number := by
  rw [parsed, hValue, except_ok_bind, hParse]

/- The puzzle of the line is the one that is searched. -/
theorem requirePuzzle_zero
    {row : Row}
    (hValue : value row "puzzle_id" = .ok (decimal 0)) :
    requirePuzzle row = .ok () := by
  rw [requirePuzzle, numberU32,
    parsed_of_value hValue
      (parseUnsigned_decimal (by decide : 0 < 2 ^ 32))]
  rfl

----------------
-- Reported Paths
----------------

/- A synthetic name has no prime. -/
theorem submitMoveName_syntheticName (move : Nat) :
    Solve.submitMoveName (Solve.syntheticName move) =
      Solve.syntheticName move := by
  refine if_neg fun hLast => ?_
  have hMem := List.mem_of_getLast? hLast
  rw [Solve.syntheticName, List.mem_cons] at hMem
  rcases hMem with hQuote | hMem
  · exact absurd hQuote (by decide)
  · exact
      not_mem_of_digits (all_isDigit_decimal move) (by decide)
        hMem

/- The name of a move, where names are synthetic. -/
theorem moveName_syntheticNames
    {moveCount move : Nat}
    {name : Text}
    (hName :
      Solve.moveName (Solve.syntheticNames moveCount) move =
        .ok name) :
    name = Solve.syntheticName move := by
  rw [Solve.moveName, Solve.syntheticNames, List.getElem?_map]
    at hName
  cases hMove : (List.range moveCount)[move]? with
  | none =>
      rw [hMove] at hName
      cases hName
  | some other =>
      rw [hMove] at hName
      cases hName
      have hSame : other = move := by
        rcases List.getElem?_eq_some_iff.mp hMove with
          ⟨hLt, hGet⟩
        rw [← hGet, List.getElem_range]
      rw [hSame, submitMoveName_syntheticName]

/- The text of a path under synthetic names. -/
theorem path_of_syntheticNames
    {moveCount : Nat}
    {path : Text}
    (hPath :
      Solve.movesToPathText (Solve.syntheticNames moveCount)
          moves =
        .ok path) :
    path = ['.'].intercalate (moves.map Solve.syntheticName) := by
  rw [Solve.movesToPathText] at hPath
  rcases except_bind_eq_ok hPath with ⟨words, hWords, hLast⟩
  cases hLast
  have hNames : words = moves.map Solve.syntheticName := by
    have hEach := mapM_eq_ok hWords
    clear hWords hPath
    induction hEach with
    | nil => rfl
    | cons hName _ ih =>
        rw [List.map_cons, moveName_syntheticNames hName, ih]
  rw [hNames]

/- It has no other letters. -/
theorem not_mem_syntheticName
    {c : Char}
    (move : Nat)
    (hLetter : c ≠ 'm')
    (hDigit : c.isDigit = false) :
    c ∉ Solve.syntheticName move := by
  rw [Solve.syntheticName, List.mem_cons, not_or]
  exact
    ⟨hLetter,
      not_mem_of_digits (all_isDigit_decimal move) hDigit⟩

/- It is read as its move. -/
theorem moveId_syntheticName
    {move : Nat}
    (hFits : move < 2 ^ 32) :
    moveId (Solve.syntheticName move) = .ok move := by
  have hStrip :
      stripPrefix ['m'] (Solve.syntheticName move) =
        some (decimal move) := by
    rw [stripPrefix, Solve.syntheticName]
    exact if_pos (List.isPrefixOf_iff_prefix.mpr ⟨_, rfl⟩)
  rw [moveId, hStrip]
  dsimp only
  rw [if_pos (allDigits_decimal move), parseUnsigned_decimal hFits]

/- The parser finds the moves of a printed path again. -/
theorem moveIds_path
    (hFits : ∀ move ∈ moves, move < 2 ^ 32) :
    moveIds (['.'].intercalate (moves.map Solve.syntheticName)) =
      .ok moves := by
  cases moves with
  | nil => rfl
  | cons move moves =>
      have hNonempty :
          ['.'].intercalate
              ((move :: moves).map Solve.syntheticName) ≠
            [] := by
        cases moves with
        | nil => simp [Solve.syntheticName]
        | cons next moves =>
            simp [List.intercalate_cons_cons, Solve.syntheticName]
      rw [moveIds, if_neg hNonempty,
        List.splitOn_intercalate '.'
          (fun name hName => by
            rcases List.mem_map.mp hName with ⟨other, -, rfl⟩
            exact
              not_mem_syntheticName other (by decide) (by decide))
          (by simp),
        List.mapM_map]
      have hEach :=
        mapM_of_forall_ok (f := moveId ∘ Solve.syntheticName)
          (g := id) fun other hOther =>
            moveId_syntheticName (hFits other hOther)
      rwa [List.map_id] at hEach

/- A path of such names is plain. -/
theorem all_isPlain_path (moves : List Nat) :
    (['.'].intercalate
        (moves.map Solve.syntheticName)).all isPlain =
      true := by
  have hName :
      ∀ move, (Solve.syntheticName move).all isPlain = true := by
    intro move
    rw [Solve.syntheticName, List.all_cons, all_isPlain_decimal]
    decide
  induction moves with
  | nil => rfl
  | cons move moves ih =>
      cases moves with
      | nil => simpa using hName move
      | cons next moves =>
          rw [List.map_cons, List.map_cons,
            List.intercalate_cons_cons, List.all_append,
            List.all_append, hName, ← List.map_cons, ih]
          decide

/- What the reader of a path needs of a row. -/
theorem solution_of_row
    {row : Row}
    (hPath :
      value row "solution" =
        .ok (['.'].intercalate (moves.map Solve.syntheticName)))
    (hLength :
      value row "solution_length" = .ok (decimal moves.length))
    (hReplay :
      parser.graph.replay parser.start moves = .ok true)
    (hFits : moves.length < 2 ^ 64)
    (hWithin : ∀ n, parser.maxSteps = some n → moves.length ≤ n) :
    parser.solution row = .ok moves := by
  have hMoves :=
    moveIds_path fun move hMove =>
      (PermutationGraph.lt_of_replay hReplay move hMove).trans
        (by decide)
  have hLong :
      (parser.maxSteps.any fun n => decide (moves.length > n)) =
        false := by
    cases hSteps : parser.maxSteps with
    | none => rfl
    | some n =>
        exact
          decide_eq_false (Nat.not_lt.mpr (hWithin n hSteps))
  rw [solution, hPath, except_ok_bind, hMoves, except_ok_bind,
    numberU64,
    parsed_of_value hLength (parseUnsigned_decimal hFits),
    except_ok_bind, if_neg (not_not.mpr rfl), hLong,
    if_neg Bool.false_ne_true, hReplay, except_ok_bind]
  rfl

----------------
-- The Lines Of A Run
----------------

/- A row with these keys is plain. -/
theorem plainRow_of_keys
    (keys : List String)
    (hKeys : row.map Prod.fst = keys)
    (hPlain :
      (keys.all fun key => key.toList.all isPlain) = true)
    (hDistinct : (keys.map String.toList).Nodup)
    (hValues :
      ∀ value ∈ row.map Prod.snd,
        List.all value isPlain = true) :
    PlainRow row := by
  subst hKeys
  refine ⟨hPlain, ?_, hValues⟩
  rw [List.map_map] at hDistinct
  exact hDistinct

/- The line of a row is plain. -/
theorem plainRow_solution
    (labels : Solve.TaskLabels)
    {row : Solve.SolveRow}
    (hPath : row.path.all isPlain = true) :
    PlainRow (Solve.solutionFields labels row) := by
  refine
    plainRow_of_keys
      ["solve_bucket_solution", "puzzle_id", "depth_index",
        "found_depth", "solution_length", "owner_rank",
        "solution"]
      rfl (by decide) (by decide) ?_
  simp only [Solve.solutionFields, List.map_cons, List.map_nil,
    List.forall_mem_cons, all_isPlain_decimal, hPath]
  exact
    ⟨by decide, trivial, trivial, trivial, trivial, trivial,
      trivial, fun _ hMem => nomatch hMem⟩

/- Moves the parser accepts as a path. -/
structure Playable
    (parser : TerminalParser)
    (moves : List Nat) : Prop where
  replays : parser.graph.replay parser.start moves = .ok true
  fits : moves.length < 2 ^ 32
  within : ∀ n, parser.maxSteps = some n → moves.length ≤ n

/- The same start plays the same moves. -/
theorem Playable.of_same
    (hSame : SameStart parser first)
    (hMoves : Playable first moves) :
    Playable parser moves where
  replays := by
    rw [hSame.graph, hSame.start]
    exact hMoves.replays
  fits := hMoves.fits
  within n hSteps :=
    hMoves.within n (hSame.maxSteps ▸ hSteps)

/- The item that a row is parsed to. -/
def itemOf
    (row : Solve.SolveRow)
    (moves : List Nat) : Collected where
  path := moves
  solvedDepth := row.foundDepth.toNat
  touchDepth := moves.length - row.foundDepth.toNat
  ownerRank := row.ownerRank.toNat

/- The row and the moves it names. -/
structure Names
    (row : Solve.SolveRow)
    (moves : List Nat) : Prop where
  path :
    row.path =
      ['.'].intercalate (moves.map Solve.syntheticName)
  length : row.totalDepth.toNat = moves.length
  found : row.foundDepth.toNat ≤ moves.length

/- The line of a row is read as its item. -/
theorem collectedRow_solution
    {row : Solve.SolveRow}
    (hPuzzle : labels.puzzleId = 0)
    (hNames : Names row moves)
    (hMoves : Playable parser moves) :
    parser.collectedRow (Solve.solutionLine labels row) =
      .ok (itemOf row moves) := by
  have hPlain :
      PlainRow (Solve.solutionFields labels row) :=
    plainRow_solution labels (by
      rw [hNames.path]
      exact all_isPlain_path moves)
  let fields := rowOf (Solve.solutionFields labels row)
  have hId : value fields "puzzle_id" = .ok (decimal 0) := by
    have hValue :
        value fields "puzzle_id" =
          .ok (decimal labels.puzzleId.toNat) := by
      dsimp only [fields, rowOf, Solve.solutionFields, List.map]
      rfl
    rw [hValue, hPuzzle]
    rfl
  have hPath :
      value fields "solution" =
        .ok (['.'].intercalate
          (moves.map Solve.syntheticName)) := by
    rw [← hNames.path]
    dsimp only [fields, rowOf, Solve.solutionFields, List.map]
    rfl
  have hLength :
      value fields "solution_length" =
        .ok (decimal moves.length) := by
    rw [← hNames.length]
    dsimp only [fields, rowOf, Solve.solutionFields, List.map]
    rfl
  have hFound :
      value fields "found_depth" =
        .ok (decimal row.foundDepth.toNat) := by
    dsimp only [fields, rowOf, Solve.solutionFields, List.map]
    rfl
  have hOwner :
      value fields "owner_rank" =
        .ok (decimal row.ownerRank.toNat) := by
    dsimp only [fields, rowOf, Solve.solutionFields, List.map]
    rfl
  have hFits := hMoves.fits
  rw [collectedRow, Solve.solutionLine, fields_record hPlain,
    except_ok_bind, requirePuzzle_zero hId, except_ok_bind,
    solution_of_row hPath hLength hMoves.replays
      (hFits.trans (by decide)) hMoves.within,
    except_ok_bind, numberU32,
    parsed_of_value hFound
      (parseUnsigned_decimal row.foundDepth.toNat_lt),
    except_ok_bind,
    if_neg (by
      have hDepth := hNames.found
      omega),
    parsed_of_value hOwner
      (parseUnsigned_decimal row.ownerRank.toNat_lt)]
  rfl

/- So it tells that item. -/
theorem tells_solution
    {row : Solve.SolveRow}
    (answer : Option (List Nat))
    (hPuzzle : labels.puzzleId = 0)
    (hNames : Names row moves)
    (hMoves : Playable first moves) :
    Tells first answer (Solve.solutionLine labels row)
      ⟨[itemOf row moves], [], 0⟩ := by
  have hPlain :
      PlainRow (Solve.solutionFields labels row) :=
    plainRow_solution labels (by
      rw [hNames.path]
      exact all_isPlain_path moves)
  have hKeys :
      keysOf (Solve.solutionLine labels row) =
        ["solve_bucket_solution".toList, "puzzle_id".toList,
          "depth_index".toList, "found_depth".toList,
          "solution_length".toList, "owner_rank".toList,
          "solution".toList] :=
    keysOf_record hPlain
  intro parser hSame _ _
  let next :=
    { parser with
      collected := parser.collected ++ [itemOf row moves] }
  have hRow :=
    collectedRow_solution hPuzzle hNames
      (hMoves.of_same hSame)
  have hCollect :
      parser.readCollection (Solve.solutionLine labels row) =
        .ok next := by
    have hFront :
        isCollection (Solve.solutionLine labels row) = true := by
      rfl
    rw [readCollection, if_pos hFront, hRow]
    rfl
  have hNext :
      Extends answer parser next ⟨[itemOf row moves], [], 0⟩ :=
    { Extends.nothing answer parser with
      same := ⟨rfl, rfl, rfl⟩
      collected := rfl }
  refine
    ⟨next.readStatus (Solve.solutionLine labels row), ?_,
      hNext.status _⟩
  rw [line_of_keys parser (by rw [hKeys]; decide), hCollect,
    except_ok_bind,
    readSummary_of_keys next (by rw [hKeys]; decide),
    except_ok_bind]
  exact readTerminal_of_keys _ (by rw [hKeys]; decide)

/- The length of the best path is plain. -/
theorem all_isPlain_bestLength (length : Option UInt32) :
    (Solve.bestLength length).all isPlain = true := by
  cases length with
  | none => decide
  | some length => exact all_isPlain_decimal _

/- The summary is plain up to its path. -/
theorem plainRow_summary
    (labels : Solve.TaskLabels)
    (controller : Solve.Controller) :
    PlainRow (Solve.summaryFields labels controller) := by
  refine
    plainRow_of_keys
      ["solve_bucket_summary", "puzzle_id", "records",
        "best_length", "known_length"]
      rfl (by decide) (by decide) ?_
  simp only [Solve.summaryFields, List.map_cons, List.map_nil,
    List.forall_mem_cons, all_isPlain_decimal,
    all_isPlain_bestLength]
  exact
    ⟨by decide, trivial, trivial, trivial, trivial,
      fun _ hMem => nomatch hMem⟩

/- Its keys are its own where the path has no equal sign. -/
theorem keysOf_summaryLine
    (controller : Solve.Controller)
    (hPath : '=' ∉ labels.resultPath) :
    keysOf (Solve.summaryLine labels controller) =
      ["solve_bucket_summary".toList, "puzzle_id".toList,
        "records".toList, "best_length".toList,
        "known_length".toList, "result_tsv".toList] := by
  rw [Solve.summaryLine, keysOf,
    keysFrom_append_break [] _ _ (by decide),
    keysOf_pair (by decide) hPath]
  change keysOf (Solve.record _) ++ _ = _
  rw [keysOf_record (plainRow_summary labels controller)]
  rfl

/- Its count is read. -/
theorem summaryCount_summaryLine
    {controller : Solve.Controller}
    (hPuzzle : labels.puzzleId = 0)
    (hFits : controller.recordCount < 2 ^ 64) :
    summaryCount (Solve.summaryLine labels controller) =
      .ok controller.recordCount := by
  have hPlain := plainRow_summary labels controller
  have hBefore :
      beforeFirst " result_tsv=".toList
          (Solve.summaryLine labels controller) =
        Solve.record (Solve.summaryFields labels controller) := by
    refine
      beforeFirst_append "result_tsv".toList
        labels.resultPath (by decide) fun hInfix => ?_
    rcases exists_key_of_infix (by decide) hInfix with
      ⟨key, hKey, hSuffix⟩
    have hNone :
        ∀ key ∈
            ["solve_bucket_summary".toList, "puzzle_id".toList,
              "records".toList, "best_length".toList,
              "known_length".toList],
          "result_tsv".toList.isSuffixOf key = false := by
      decide
    rw [keysOf_record hPlain] at hKey
    have hQuiet := hNone key hKey
    rw [List.isSuffixOf_iff_suffix.mpr hSuffix] at hQuiet
    cases hQuiet
  let fields := rowOf (Solve.summaryFields labels controller)
  have hId : value fields "puzzle_id" = .ok (decimal 0) := by
    have hValue :
        value fields "puzzle_id" =
          .ok (decimal labels.puzzleId.toNat) := by
      dsimp only [fields, rowOf, Solve.summaryFields, List.map]
      rfl
    rw [hValue, hPuzzle]
    rfl
  have hRecords :
      value fields "records" =
        .ok (decimal controller.recordCount) := by
    dsimp only [fields, rowOf, Solve.summaryFields, List.map]
    rfl
  rw [summaryCount, hBefore, fields_record hPlain,
    except_ok_bind, requirePuzzle_zero hId, except_ok_bind,
    numberU64,
    parsed_of_value hRecords (parseUnsigned_decimal hFits)]

/- So it tells that count. -/
theorem tells_summary
    {controller : Solve.Controller}
    (first : TerminalParser)
    (answer : Option (List Nat))
    (hPuzzle : labels.puzzleId = 0)
    (hPath : '=' ∉ labels.resultPath)
    (hFits : controller.recordCount < 2 ^ 64) :
    Tells first answer (Solve.summaryLine labels controller)
      ⟨[], [controller.recordCount], 0⟩ := by
  have hKeys := keysOf_summaryLine controller hPath
  intro parser _ _ _
  let next :=
    { parser with
      counts := parser.counts ++ [controller.recordCount] }
  have hCount :
      parser.readSummary (Solve.summaryLine labels controller) =
        .ok next := by
    have hFront :
        isSummary (Solve.summaryLine labels controller) =
          true := by
      rfl
    rw [readSummary, if_pos hFront,
      summaryCount_summaryLine hPuzzle hFits]
    rfl
  have hNext :
      Extends answer parser next
        ⟨[], [controller.recordCount], 0⟩ :=
    { Extends.nothing answer parser with
      same := ⟨rfl, rfl, rfl⟩
      counts := rfl }
  refine
    ⟨next.readStatus (Solve.summaryLine labels controller), ?_,
      hNext.status _⟩
  rw [line_of_keys parser (by rw [hKeys]; decide),
    readCollection_of_keys parser (by rw [hKeys]; decide),
    except_ok_bind, hCount, except_ok_bind]
  exact readTerminal_of_keys _ (by rw [hKeys]; decide)

/- A time the stream prints as one. -/
def IsTime (seconds : Double) : Prop :=
  seconds.InRange ∧ seconds.isFinite = true ∧
    seconds.isNegative = false

/- A line that starts with the status of the puzzle. -/
theorem tells_answer
    (solved : Nat)
    (first : TerminalParser)
    (hPlain : PlainRow row)
    (hFront :
      "puzzle_solved=".toList.isPrefixOf (Solve.record row) =
        true)
    (hKeys :
      ∀ key ∈ row.map fun field => field.1.toList,
        isReserved key = false)
    (hCollection :
      "solve_bucket_solution".toList ∉
        row.map fun field => field.1.toList)
    (hSummary :
      "solve_bucket_summary".toList ∉
        row.map fun field => field.1.toList)
    (hSolved :
      value (rowOf row) "puzzle_solved" = .ok (decimal solved))
    (hSeconds :
      value (rowOf row) "seconds" = .ok (printDouble seconds))
    (hId : value (rowOf row) "puzzle_id" = .ok (decimal 0))
    (hTime : IsTime seconds)
    (hOne : solved ≤ 1)
    (hAnswer :
      ∀ parser : TerminalParser, SameStart parser first →
        parser.answer solved (rowOf row) = .ok answer) :
    Tells first answer (Solve.record row) ⟨[], [], 1⟩ := by
  rw [← keysOf_record hPlain] at hKeys hCollection hSummary
  intro parser hSame hPath hFits
  rcases parseDouble_printDouble hTime.1 hTime.2.1 hTime.2.2 with
    ⟨read, hRead, hFinite, hSign⟩
  let quiet := parser.readStatus (Solve.record row)
  have hQuiet :
      quiet.path = parser.path ∧
        quiet.records = parser.records ∧
        quiet.seconds = parser.seconds := by
    dsimp only [quiet]
    rw [readStatus]
    split <;> exact ⟨rfl, rfl, rfl⟩
  have hExtends :
      Extends answer parser quiet Said.nothing :=
    (Extends.nothing answer parser).status _
  have hRecord :
      quiet.terminalRecord (Solve.record row) =
        .ok (read, answer) := by
    have hStart : SameStart quiet first :=
      ⟨hExtends.same.graph.trans hSame.graph,
        hExtends.same.start.trans hSame.start,
        hExtends.same.maxSteps.trans hSame.maxSteps⟩
    rw [terminalRecord, fields_record hPlain, except_ok_bind,
      numberU32,
      parsed_of_value hSolved
        (parseUnsigned_decimal
          (hOne.trans_lt (by decide : 1 < 2 ^ 32))),
      except_ok_bind, numberF64, parsed_of_value hSeconds hRead,
      except_ok_bind,
      parsed_of_value hId
        (parseUnsigned_decimal (by decide : 0 < 2 ^ 32)),
      except_ok_bind,
      if_neg (by
        rw [hFinite, hSign]
        simp only [not_or]
        exact
          ⟨fun hNe => hNe rfl, Bool.noConfusion,
            Bool.noConfusion, by omega⟩),
      hAnswer quiet hStart]
    rfl
  let next :=
    { quiet with
      path := some answer
      seconds := quiet.seconds.max read
      records := quiet.records + 1 }
  refine ⟨next, ?_, ?_⟩
  · rw [line_of_keys parser hKeys,
      readCollection_of_keys parser hCollection, except_ok_bind,
      readSummary_of_keys parser hSummary, except_ok_bind]
    have hText :
        recordText (Solve.record row) =
          some (Solve.record row) :=
      fromFirst_front (List.isPrefixOf_iff_prefix.mp hFront)
    have hSameAnswer :
        (quiet.path.any fun previous =>
            decide (previous ≠ answer)) =
          false := by
      rw [hQuiet.1]
      rcases hPath with hNone | hSome
      · rw [hNone]
        rfl
      · rw [hSome]
        exact decide_eq_false (not_not.mpr rfl)
    change quiet.readTerminal (Solve.record row) = .ok next
    rw [readTerminal, hText]
    dsimp only
    rw [hRecord, except_ok_bind, hSameAnswer,
      if_neg Bool.false_ne_true,
      if_neg (by
        rw [hQuiet.2.1]
        change parser.records + 1 < 2 ^ 64 at hFits
        omega)]
  · exact
      { hExtends with
        same := ⟨hExtends.same.graph, hExtends.same.start,
          hExtends.same.maxSteps⟩
        records := by
          change quiet.records + 1 = _
          rw [hQuiet.2.1]
        path := rfl }

/- The puzzle is number zero. -/
theorem puzzleId_decimal
    (hPuzzle : labels.puzzleId = 0) :
    decimal labels.puzzleId.toNat = decimal 0 := by
  rw [hPuzzle]
  rfl

/- The line of an unsolved search is plain. -/
theorem plainRow_unsolved
    (labels : Solve.TaskLabels)
    (seconds : Double) :
    PlainRow (Solve.unsolvedFields labels seconds) := by
  refine
    plainRow_of_keys
      ["puzzle_solved", "puzzle_id", "seconds",
        "solution_length", "solution"]
      rfl (by decide) (by decide) ?_
  simp only [Solve.unsolvedFields, List.map_cons, List.map_nil,
    List.forall_mem_cons, all_isPlain_decimal,
    all_isPlain_printDouble]
  exact
    ⟨by decide, trivial, trivial, by decide, by decide,
      fun _ hMem => nomatch hMem⟩

/- So it tells that nothing was found. -/
theorem tells_unsolved
    (first : TerminalParser)
    (hPuzzle : labels.puzzleId = 0)
    (hTime : IsTime seconds) :
    Tells first none (Solve.unsolvedLine labels seconds)
      ⟨[], [], 1⟩ := by
  refine
    tells_answer 0 first
      (plainRow_unsolved labels seconds) (by rfl)
      (by dsimp only [Solve.unsolvedFields, List.map]; decide)
      (by dsimp only [Solve.unsolvedFields, List.map]; decide)
      (by dsimp only [Solve.unsolvedFields, List.map]; decide)
      (by
        dsimp only [rowOf, Solve.unsolvedFields, List.map]
        rfl)
      (by
        dsimp only [rowOf, Solve.unsolvedFields, List.map]
        rfl)
      (by
        rw [← puzzleId_decimal hPuzzle]
        dsimp only [rowOf, Solve.unsolvedFields, List.map]
        rfl)
      hTime (by decide) fun parser _ => ?_
  have hLength :
      value (rowOf (Solve.unsolvedFields labels seconds))
          "solution_length" =
        .ok "-1".toList := by
    dsimp only [rowOf, Solve.unsolvedFields, List.map]
    rfl
  have hPath :
      value (rowOf (Solve.unsolvedFields labels seconds))
          "solution" =
        .ok [] := by
    dsimp only [rowOf, Solve.unsolvedFields, List.map]
    rfl
  rw [TerminalParser.answer, if_pos rfl, hLength,
    except_ok_bind, if_neg (not_not.mpr rfl), hPath,
    except_ok_bind]
  rfl

/- The answer of a row that carries a path. -/
theorem answer_of_path
    {row : Row}
    (hPath :
      value row "solution" =
        .ok (['.'].intercalate (moves.map Solve.syntheticName)))
    (hLength :
      value row "solution_length" = .ok (decimal moves.length))
    (hMoves : Playable first moves)
    (hSame : SameStart parser first) :
    parser.answer 1 row = .ok (some moves) := by
  have hHere := hMoves.of_same hSame
  rw [TerminalParser.answer, if_neg (by decide),
    solution_of_row hPath hLength hHere.replays
      (hHere.fits.trans (by decide)) hHere.within]
  rfl

/- The line of the best path is plain. -/
theorem plainRow_best
    {path : Text}
    (labels : Solve.TaskLabels)
    (seconds : Double)
    (length : UInt32)
    (hPath : path.all isPlain = true) :
    PlainRow (Solve.bestFields labels seconds length path) := by
  refine
    plainRow_of_keys
      ["puzzle_solved", "puzzle_id", "seconds",
        "solution_length", "solution"]
      rfl (by decide) (by decide) ?_
  simp only [Solve.bestFields, List.map_cons, List.map_nil,
    List.forall_mem_cons, all_isPlain_decimal,
    all_isPlain_printDouble, hPath]
  exact
    ⟨by decide, trivial, trivial, trivial, trivial,
      fun _ hMem => nomatch hMem⟩

/- So it tells that path. -/
theorem tells_best
    {length : UInt32}
    {path : Text}
    (hPuzzle : labels.puzzleId = 0)
    (hTime : IsTime seconds)
    (hPath :
      path = ['.'].intercalate (moves.map Solve.syntheticName))
    (hLength : length.toNat = moves.length)
    (hMoves : Playable first moves) :
    Tells first (some moves)
      (Solve.bestLine labels seconds length path)
      ⟨[], [], 1⟩ := by
  have hPlain :
      PlainRow (Solve.bestFields labels seconds length path) :=
    plainRow_best labels seconds length (by
      rw [hPath]
      exact all_isPlain_path moves)
  refine
    tells_answer 1 first hPlain (by rfl)
      (by dsimp only [Solve.bestFields, List.map]; decide)
      (by dsimp only [Solve.bestFields, List.map]; decide)
      (by dsimp only [Solve.bestFields, List.map]; decide)
      (by
        dsimp only [rowOf, Solve.bestFields, List.map]
        rfl)
      (by
        dsimp only [rowOf, Solve.bestFields, List.map]
        rfl)
      (by
        rw [← puzzleId_decimal hPuzzle]
        dsimp only [rowOf, Solve.bestFields, List.map]
        rfl)
      hTime (by decide) fun parser hSame => ?_
  refine answer_of_path ?_ ?_ hMoves hSame
  · rw [← hPath]
    dsimp only [rowOf, Solve.bestFields, List.map]
    rfl
  · rw [← hLength]
    dsimp only [rowOf, Solve.bestFields, List.map]
    rfl

/- The line of a single solution is plain. -/
theorem plainRow_solved
    {names : List Text}
    (labels : Solve.TaskLabels)
    (seconds : Double)
    {solution : Solve.SingleSolution names}
    (hPath : solution.path.all isPlain = true) :
    PlainRow (Solve.solvedFields labels seconds solution) := by
  refine
    plainRow_of_keys
      ["puzzle_solved", "puzzle_id", "seconds",
        "solution_length", "found_depth", "touch_depth",
        "solution"]
      rfl (by decide) (by decide) ?_
  simp only [Solve.solvedFields, List.map_cons, List.map_nil,
    List.forall_mem_cons, all_isPlain_decimal,
    all_isPlain_printDouble, hPath]
  exact
    ⟨by decide, trivial, trivial, trivial, trivial, trivial,
      trivial, fun _ hMem => nomatch hMem⟩

/- So it tells its path. -/
theorem tells_solved
    {names : List Text}
    {solution : Solve.SingleSolution names}
    (hPuzzle : labels.puzzleId = 0)
    (hTime : IsTime seconds)
    (hPath :
      solution.path =
        ['.'].intercalate
          (solution.moves.map Solve.syntheticName))
    (hMoves : Playable first solution.moves) :
    Tells first (some solution.moves)
      (Solve.solvedLine labels seconds solution)
      ⟨[], [], 1⟩ := by
  have hPlain :
      PlainRow (Solve.solvedFields labels seconds solution) :=
    plainRow_solved labels seconds (by
      rw [hPath]
      exact all_isPlain_path solution.moves)
  refine
    tells_answer 1 first hPlain (by rfl)
      (by dsimp only [Solve.solvedFields, List.map]; decide)
      (by dsimp only [Solve.solvedFields, List.map]; decide)
      (by dsimp only [Solve.solvedFields, List.map]; decide)
      (by
        dsimp only [rowOf, Solve.solvedFields, List.map]
        rfl)
      (by
        dsimp only [rowOf, Solve.solvedFields, List.map]
        rfl)
      (by
        rw [← puzzleId_decimal hPuzzle]
        dsimp only [rowOf, Solve.solvedFields, List.map]
        rfl)
      hTime (by decide) fun parser hSame => ?_
  refine answer_of_path ?_ ?_ hMoves hSame
  · rw [← hPath]
    dsimp only [rowOf, Solve.solvedFields, List.map]
    rfl
  · dsimp only [rowOf, Solve.solvedFields, List.map]
    rfl

/- The reason a bucket stopped is not an answer. -/
theorem tells_stopLines
    {scan : Solve.RankScan}
    {stop : Option Solve.BucketStop}
    (first : TerminalParser)
    (answer : Option (List Nat))
    (hLine : line ∈ Solve.stopLines labels scan stop) :
    Tells first answer line Said.nothing := by
  cases stop with
  | none => cases hLine
  | some stop =>
      rw [Solve.stopLines, List.mem_append,
        List.mem_singleton] at hLine
      rcases hLine with hStatus | rfl
      · refine tells_quiet first answer ?_
        rw [Solve.statusLines] at hStatus
        split_ifs at hStatus
        · rw [List.mem_singleton.mp hStatus]
          decide
        · rw [List.mem_singleton.mp hStatus]
          decide
        · cases hStatus
      · have hPlain :
            PlainRow (Solve.stopFields labels scan stop) := by
          refine
            plainRow_of_keys
              ["solve_bucket_stop", "puzzle_id", "depth_index",
                "first_found_depth_index", "extra_depths",
                "records", "depth_sec"]
              rfl (by decide) (by decide) ?_
          simp only [Solve.stopFields, List.map_cons,
            List.map_nil, List.forall_mem_cons,
            all_isPlain_decimal, all_isPlain_printDouble]
          exact
            ⟨by decide, trivial, trivial, trivial, trivial,
              trivial, trivial, fun _ hMem => nomatch hMem⟩
        refine tells_quiet first answer ?_
        rw [Solve.stopLine, keysOf_record hPlain]
        dsimp only [Solve.stopFields, List.map]
        decide

/- The line of a length is plain. -/
theorem plainRow_length
    (labels : Solve.TaskLabels)
    (controller : Solve.Controller)
    (length : UInt32) :
    PlainRow (Solve.lengthFields labels controller length) := by
  refine
    plainRow_of_keys ["puzzle_id", "length", "count"] rfl
      (by decide) (by decide) ?_
  simp only [Solve.lengthFields, List.map_cons, List.map_nil,
    List.forall_mem_cons, all_isPlain_decimal]
  exact ⟨trivial, trivial, trivial, fun _ hMem => nomatch hMem⟩

/- Its keys are its own. -/
theorem keysOf_lengthLine
    (labels : Solve.TaskLabels)
    (controller : Solve.Controller)
    (length : UInt32) :
    keysOf (Solve.lengthLine labels controller length) =
      ["puzzle_id".toList, "length".toList, "count".toList] := by
  let row :=
    Solve.record (Solve.lengthFields labels controller length)
  have hRow :
      keysOf row =
        ["puzzle_id".toList, "length".toList,
          "count".toList] :=
    keysOf_record (plainRow_length labels controller length)
  have hHead :
      keysOf "solve_bucket_length_count".toList = [] :=
    keysOf_of_not_mem (by decide)
  calc keysOf (Solve.lengthLine labels controller length)
      = keysOf "solve_bucket_length_count".toList ++
          keysOf row :=
        keysFrom_append_break [] "solve_bucket_length_count".toList
          row (by decide)
    _ = ["puzzle_id".toList, "length".toList,
          "count".toList] := by
        rw [hHead, hRow, List.nil_append]

/- So it tells nothing. -/
theorem tells_lengthLine
    (first : TerminalParser)
    (answer : Option (List Nat))
    (labels : Solve.TaskLabels)
    (controller : Solve.Controller)
    (length : UInt32) :
    Tells first answer
      (Solve.lengthLine labels controller length)
      Said.nothing := by
  refine tells_quiet first answer ?_
  rw [keysOf_lengthLine]
  decide

end TerminalParser

end Search

end BeamSearch
