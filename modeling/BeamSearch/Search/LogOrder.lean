import BeamSearch.Search.LogAgrees

/-
  The order of the lines of a log.

  Reading a line and taking it in are two steps. What a line
  holds depends on the line alone, and a log is accepted or
  refused for reasons that do not mention an order. The order
  decides one thing only: of several different statuses of a
  collection the last is told.

  Main declarations:
    * `Note`, `noteOf`, `absorb`
    * `Accepted`, `parseLog_isOk_iff`
    * `SameOutcome`
    * `orderless_iff`
-/

namespace BeamSearch

open Text

namespace Search

variable {first parser : TerminalParser} {log : List Text} {graph : PermutationGraph}
    {maxSteps : Option Nat} {a b : Json.Fields}

namespace TerminalParser

variable {final : TerminalParser}

----------------
-- What A Line Holds
----------------

/- What one token of a line says to the parser. -/
inductive Observation where
  | nothing
  | width (n : Nat)
  | size (key : BatchKey) (n : Nat)
deriving DecidableEq, Repr

/-
  The token alone says it, or is refused: the state of the
  parser is not asked.
-/
def observation (token : Text) : Result Observation :=
  match splitOnce '=' token with
  | none => .ok .nothing
  | some (name, value) =>
      if isWidthKey name then
        match parseUnsigned 64 value with
        | none => .error (.invalid "effective beam width")
        | some width =>
            if width = 0 then
              .error (.invalid "effective beam width")
            else .ok (.width width)
      else
        match BatchKey.ofText name with
        | none => .ok .nothing
        | some key =>
            match parseUnsigned 64 value with
            | none => .error (.invalid "observed native batch")
            | some size => .ok (.size key size)

/- The records of a line, each of them at most once. -/
structure Note where
  seen : List Observation
  row : Option Collected
  count : Option Nat
  status : Option Text
  record : Option (Double × Option (List Nat))

/- The status that a line tells. -/
def statusOf (line : Text) : Option Text :=
  (stripPrefix "collection_status=".toList line).map trim

/-
  The row that a line tells. Only what the parser had at its
  start is read.
-/
def rowOfLine
    (first : TerminalParser)
    (line : Text) : Result (Option Collected) :=
  if isCollection line then do
    let row ← first.collectedRow line
    .ok (some row)
  else .ok none

/- The count that a summary line tells. -/
def countOfLine (line : Text) : Result (Option Nat) :=
  if isSummary line then do
    let count ← summaryCount line
    .ok (some count)
  else .ok none

/- The answer that a terminal line tells. -/
def recordOfLine
    (first : TerminalParser)
    (line : Text) :
    Result (Option (Double × Option (List Nat))) :=
  match recordText line with
  | none => .ok none
  | some text => do
      let record ← first.terminalRecord text
      .ok (some record)

/-
  All that a line tells, or what it is refused for. The order
  of the checks is that of the parser.
-/
def noteOf
    (first : TerminalParser)
    (line : Text) : Result Note :=
  if contains "production_runner_error=".toList line then
    .error (.invalid "native error record")
  else do
    let seen ← (splitWhitespace line).mapM observation
    let row ← first.rowOfLine line
    let count ← countOfLine line
    let record ← first.recordOfLine line
    .ok { seen, row, count, status := statusOf line, record }

----------------
-- Taking A Line In
----------------

/- The parser after a token. -/
def see (parser : TerminalParser) : Observation → TerminalParser
  | .nothing => parser
  | .width n =>
      { parser with effective := insertNumber n parser.effective }
  | .size key n =>
      { parser with
        batches :=
          Function.update parser.batches key
            (insertNumber n (parser.batches key)) }

/- The rows are kept in the order of the lines. -/
def addRow
    (parser : TerminalParser)
    (row : Option Collected) : TerminalParser :=
  { parser with collected := parser.collected ++ row.toList }

/- So are the counts. -/
def addCount
    (parser : TerminalParser)
    (count : Option Nat) : TerminalParser :=
  { parser with counts := parser.counts ++ count.toList }

/- The latest status counts. -/
def setStatus
    (parser : TerminalParser)
    (status : Option Text) : TerminalParser :=
  { parser with status := status.or parser.status }

/- All of a line but its record. -/
def hold
    (parser : TerminalParser)
    (note : Note) : TerminalParser :=
  (((note.seen.foldl see parser).addRow note.row).addCount
    note.count).setStatus note.status

/- The record of a line, or none. -/
def settle
    (parser : TerminalParser) :
    Option (Double × Option (List Nat)) → Result TerminalParser
  | none => .ok parser
  | some record =>
      if parser.path.any fun previous =>
          decide (previous ≠ record.2) then
        .error (.invalid "contradictory terminal paths")
      else if parser.records + 1 ≥ 2 ^ 64 then
        .error (.overflow "terminal count")
      else
        .ok
          { parser with
            path := some record.2
            seconds := parser.seconds.max record.1
            records := parser.records + 1 }

/- The parser after a line whose note it has. -/
def absorb
    (parser : TerminalParser)
    (note : Note) : Result TerminalParser :=
  (parser.hold note).settle note.record

/- Reading a token is hearing what it says. -/
theorem observe_eq
    (parser : TerminalParser)
    (token : Text) :
    parser.observe token =
      observation token >>= fun seen => .ok (parser.see seen) := by
  rw [observe, observation]
  cases splitOnce '=' token with
  | none => rfl
  | some field =>
      rcases field with ⟨name, value⟩
      dsimp only
      by_cases hWidth : isWidthKey name = true
      · rw [if_pos hWidth, if_pos hWidth]
        cases parseUnsigned 64 value with
        | none => rfl
        | some width =>
            dsimp only
            by_cases hZero : width = 0
            · rw [if_pos hZero, if_pos hZero]
              rfl
            · rw [if_neg hZero, if_neg hZero]
              rfl
      · rw [if_neg hWidth, if_neg hWidth]
        cases BatchKey.ofText name with
        | none => rfl
        | some key =>
            dsimp only
            cases parseUnsigned 64 value with
            | none => rfl
            | some size => rfl

/- The tokens of a line, one after the other. -/
theorem foldlM_observe
    (parser : TerminalParser)
    (tokens : List Text) :
    tokens.foldlM observe parser =
      tokens.mapM observation >>= fun seen =>
        .ok (seen.foldl see parser) := by
  induction tokens generalizing parser with
  | nil => rfl
  | cons token tokens ih =>
      rw [List.foldlM_cons, List.mapM_cons, observe_eq]
      cases observation token with
      | error error => rfl
      | ok seen =>
          rw [except_ok_bind, except_ok_bind, except_ok_bind, ih]
          cases tokens.mapM observation with
          | error error => rfl
          | ok rest => rfl

/- A token leaves the start alone. -/
theorem SameStart.see
    (hSame : SameStart parser first)
    (seen : Observation) :
    SameStart (parser.see seen) first := by
  cases seen with
  | nothing => exact hSame
  | width n => exact ⟨hSame.graph, hSame.start, hSame.maxSteps⟩
  | size key n => exact ⟨hSame.graph, hSame.start, hSame.maxSteps⟩

/- So do all tokens of a line. -/
theorem SameStart.foldl_see
    (hSame : SameStart parser first)
    (seen : List Observation) :
    SameStart (seen.foldl TerminalParser.see parser) first := by
  induction seen generalizing parser with
  | nil => exact hSame
  | cons one seen ih => exact ih (hSame.see one)

/- The check of a solution depends on the start only. -/
theorem SameStart.solution
    (hSame : SameStart parser first)
    (row : Row) :
    parser.solution row = first.solution row := by
  rw [TerminalParser.solution, TerminalParser.solution,
    hSame.graph, hSame.start, hSame.maxSteps]

/- So does a collected row. -/
theorem SameStart.collectedRow
    (hSame : SameStart parser first)
    (line : Text) :
    parser.collectedRow line = first.collectedRow line := by
  simp only [TerminalParser.collectedRow, hSame.solution]

/- So does an answer. -/
theorem SameStart.terminalRecord
    (hSame : SameStart parser first)
    (text : Text) :
    parser.terminalRecord text = first.terminalRecord text := by
  simp only [TerminalParser.terminalRecord,
    TerminalParser.answer, hSame.solution]

/- A collection line adds its row. -/
theorem readCollection_held
    (hSame : SameStart parser first)
    (line : Text) :
    parser.readCollection line =
      first.rowOfLine line >>= fun row =>
        .ok (parser.addRow row) := by
  rw [readCollection, rowOfLine, hSame.collectedRow]
  by_cases hLine : isCollection line = true
  · rw [if_pos hLine, if_pos hLine]
    cases first.collectedRow line with
    | error error => rfl
    | ok row => rfl
  · rw [if_neg hLine, if_neg hLine, except_ok_bind, addRow,
      Option.toList_none, List.append_nil]

/- A summary line adds its count. -/
theorem readSummary_held
    (parser : TerminalParser)
    (line : Text) :
    parser.readSummary line =
      countOfLine line >>= fun count =>
        .ok (parser.addCount count) := by
  rw [readSummary, countOfLine]
  by_cases hLine : isSummary line = true
  · rw [if_pos hLine, if_pos hLine]
    cases summaryCount line with
    | error error => rfl
    | ok count => rfl
  · rw [if_neg hLine, if_neg hLine, except_ok_bind, addCount,
      Option.toList_none, List.append_nil]

/- A status line sets the status. -/
theorem readStatus_held
    (parser : TerminalParser)
    (line : Text) :
    parser.readStatus line =
      parser.setStatus (statusOf line) := by
  rw [readStatus, statusOf]
  cases stripPrefix "collection_status=".toList line with
  | none => rfl
  | some status => rfl

/- A terminal line settles its answer. -/
theorem readTerminal_held
    (hSame : SameStart parser first)
    (line : Text) :
    parser.readTerminal line =
      first.recordOfLine line >>= parser.settle := by
  rw [readTerminal, recordOfLine]
  cases recordText line with
  | none => rfl
  | some text =>
      dsimp only
      rw [hSame.terminalRecord]
      cases first.terminalRecord text with
      | error error => rfl
      | ok record => rfl

/- Reading a line is noting what it holds and taking it in. -/
theorem line_eq
    (hSame : SameStart parser first)
    (line : Text) :
    parser.line line = first.noteOf line >>= parser.absorb := by
  rw [TerminalParser.line, noteOf]
  by_cases hError :
      contains "production_runner_error=".toList line = true
  · rw [if_pos hError, if_pos hError]
    rfl
  · rw [if_neg hError, if_neg hError, foldlM_observe]
    cases (splitWhitespace line).mapM observation with
    | error error => rfl
    | ok seen =>
        have hSeen := hSame.foldl_see seen
        rw [except_ok_bind, except_ok_bind, except_ok_bind,
          readCollection_held hSeen]
        cases first.rowOfLine line with
        | error error => rfl
        | ok row =>
            rw [except_ok_bind, except_ok_bind, except_ok_bind,
              readSummary_held]
            cases countOfLine line with
            | error error => rfl
            | ok count =>
                have hHeld :
                    SameStart
                      ((((seen.foldl see parser).addRow row).addCount
                        count).setStatus (statusOf line)) first :=
                  ⟨hSeen.graph, hSeen.start, hSeen.maxSteps⟩
                rw [except_ok_bind, except_ok_bind,
                  except_ok_bind, readStatus_held,
                  readTerminal_held hHeld]
                cases first.recordOfLine line with
                | error error => rfl
                | ok record => rfl

----------------
-- A Whole Log
----------------

/- The seconds and the path of an answer. -/
abbrev Answered : Type :=
  Double × Option (List Nat)

/- The beam widths among what was said. -/
def widthsOf (seen : List Observation) : List Nat :=
  seen.filterMap fun
    | .width n => some n
    | _ => none

/- The batch sizes of a key among what was said. -/
def sizesOf
    (key : BatchKey)
    (seen : List Observation) : List Nat :=
  seen.filterMap fun
    | .size other n => if other = key then some n else none
    | _ => none

/- The numbers go into a sorted set, one by one. -/
def insertNumbers (numbers start : List Nat) : List Nat :=
  numbers.foldl (fun set n => insertNumber n set) start

/- The greatest time of all answers. -/
def latest (seconds : Double) (records : List Answered) : Double :=
  records.foldl (fun most record => most.max record.1) seconds

/- All that the notes say, in order. -/
def seenOf (notes : List Note) : List Observation :=
  notes.flatMap Note.seen

/- The answers of the notes, in order. -/
def recordsOf (notes : List Note) : List Answered :=
  notes.filterMap Note.record

/- The state after all notes were taken in. -/
def gather
    (first : TerminalParser)
    (notes : List Note) : TerminalParser :=
  { first with
    path := (recordsOf notes).head?.map Prod.snd
    seconds := latest first.seconds (recordsOf notes)
    records := (recordsOf notes).length
    effective := insertNumbers (widthsOf (seenOf notes)) []
    batches := fun key =>
      insertNumbers (sizesOf key (seenOf notes)) []
    collected := notes.filterMap Note.row
    counts := notes.filterMap Note.count
    status := (notes.filterMap Note.status).getLast?.or first.status }

/- The answers of a log agree, and are not too many. -/
structure Settled (records : List Answered) : Prop where
  agree : ∀ a ∈ records, ∀ b ∈ records, a.2 = b.2
  few : records.length < 2 ^ 64

/-
  What a line leaves are two sets: what was said is added, and
  the order is lost there.
-/
theorem foldl_see
    (parser : TerminalParser)
    (seen : List Observation) :
    seen.foldl see parser =
      { parser with
        effective := insertNumbers (widthsOf seen) parser.effective
        batches := fun key =>
          insertNumbers (sizesOf key seen) (parser.batches key) } := by
  induction seen generalizing parser with
  | nil => rfl
  | cons one seen ih =>
      rw [List.foldl_cons, ih]
      cases one with
      | nothing => rfl
      | width n => rfl
      | size key n =>
          have hBatches :
              (fun other =>
                insertNumbers (sizesOf other seen)
                  ((parser.see (.size key n)).batches other)) =
                fun other =>
                  insertNumbers (sizesOf other (.size key n :: seen))
                    (parser.batches other) := by
            funext other
            by_cases hKey : key = other
            · subst hKey
              simp [sizesOf, see, insertNumbers]
            · simp [sizesOf, see, hKey, Ne.symm hKey]
          rw [hBatches]
          rfl

/- The sets are filled in two parts. -/
theorem insertNumbers_append
    (a b start : List Nat) :
    insertNumbers (a ++ b) start =
      insertNumbers b (insertNumbers a start) :=
  List.foldl_append ..

/- A note at the end. -/
theorem seenOf_concat
    (notes : List Note)
    (note : Note) :
    seenOf (notes ++ [note]) = seenOf notes ++ note.seen := by
  simp [seenOf]

/- The last of a list that may have got one more. -/
theorem getLast?_concat_or
    {α : Type}
    (xs : List α)
    (last start : Option α) :
    (xs ++ last.toList).getLast?.or start =
      last.or (xs.getLast?.or start) := by
  cases last with
  | none => simp
  | some x => simp

/- No notes leave the parser as it started. -/
theorem gather_nil
    (hBlank : first.Blank) :
    first.gather [] = first := by
  rcases hBlank with
    ⟨hPath, hRecords, hEffective, hBatches, hCollected, hCounts⟩
  cases first
  dsimp only at *
  subst hPath hRecords hEffective hBatches hCollected hCounts
  rfl

/- The list with one more item. -/
theorem filterMap_concat
    {α β : Type}
    (f : α → Option β)
    (xs : List α)
    (x : α) :
    (xs ++ [x]).filterMap f = xs.filterMap f ++ (f x).toList := by
  rw [List.filterMap_append, List.filterMap_cons,
    List.filterMap_nil]
  cases f x with
  | none => rfl
  | some y => rfl

/- The widths of two parts. -/
theorem widthsOf_append (a b : List Observation) :
    widthsOf (a ++ b) = widthsOf a ++ widthsOf b :=
  List.filterMap_append

/- The sizes of two parts. -/
theorem sizesOf_append
    (key : BatchKey)
    (a b : List Observation) :
    sizesOf key (a ++ b) = sizesOf key a ++ sizesOf key b :=
  List.filterMap_append

/- Holding one more note leaves the records behind. -/
theorem hold_gather
    (first : TerminalParser)
    (notes : List Note)
    (note : Note) :
    (first.gather notes).hold note =
      { first.gather (notes ++ [note]) with
        path := (first.gather notes).path
        seconds := (first.gather notes).seconds
        records := (first.gather notes).records } := by
  rw [hold, foldl_see]
  simp only [gather, addRow, addCount, setStatus, seenOf_concat,
    filterMap_concat, widthsOf_append, sizesOf_append,
    insertNumbers_append, getLast?_concat_or]

variable {record : Answered}

/- A record that agrees with the earlier ones is taken in. -/
theorem settle_iff :
    parser.settle (some record) = .ok final ↔
      (∀ previous, parser.path = some previous →
        previous = record.2) ∧
      parser.records + 1 < 2 ^ 64 ∧
      final =
        { parser with
          path := some record.2
          seconds := parser.seconds.max record.1
          records := parser.records + 1 } := by
  have hAny :
      (parser.path.any fun previous =>
          decide (previous ≠ record.2)) = true ↔
        ¬ ∀ previous, parser.path = some previous →
          previous = record.2 := by
    cases parser.path with
    | none => simp
    | some previous => simp
  rw [settle]
  split_ifs with hOther hMany
  · exact iff_of_false nofun fun hAll => hAny.mp hOther hAll.1
  · exact iff_of_false nofun fun hAll => by omega
  · have hSame := not_not.mp (hAny.not.mp hOther)
    rw [Except.ok.injEq, eq_comm]
    exact ⟨fun hFinal => ⟨hSame, by omega, hFinal⟩,
      fun hAll => hAll.2.2⟩

/- Without answers there is no conflict. -/
theorem Settled.nil : Settled [] :=
  ⟨fun _ hMem => (nomatch hMem), Nat.two_pow_pos 64⟩

variable {records : List Answered}

/-
  One more answer is settled when it agrees with the first and
  the counter does not run over.
-/
theorem settled_concat_iff :
    Settled (records ++ [record]) ↔
      Settled records ∧
        (∀ previous,
          records.head?.map Prod.snd = some previous →
            previous = record.2) ∧
        records.length + 1 < 2 ^ 64 := by
  constructor
  · rintro ⟨hAgree, hFew⟩
    rw [List.length_append, List.length_singleton] at hFew
    refine ⟨⟨fun a hA b hB =>
      hAgree a (List.mem_append_left _ hA) b
        (List.mem_append_left _ hB), by omega⟩, ?_, hFew⟩
    intro previous hHead
    rcases Option.map_eq_some_iff.mp hHead with ⟨a, hFirst, rfl⟩
    exact hAgree a
      (List.mem_append_left _ (List.mem_of_mem_head? hFirst))
      record (by simp)
  · rintro ⟨hSettled, hHead, hFew⟩
    have hLast : ∀ a ∈ records, a.2 = record.2 := by
      intro a hA
      cases records with
      | nil => cases hA
      | cons b records =>
          rw [hSettled.agree a hA b List.mem_cons_self]
          exact hHead b.2 rfl
    refine ⟨fun a hA b hB => ?_, by
      rw [List.length_append, List.length_singleton]
      exact hFew⟩
    have hEach : ∀ c ∈ records ++ [record], c.2 = record.2 := by
      intro c hC
      rcases List.mem_append.mp hC with hC | hC
      · exact hLast c hC
      · rw [List.mem_singleton.mp hC]
    rw [hEach a hA, hEach b hB]

/- The first answer of an agreeing list is the answer. -/
theorem head?_concat_of_agree
    (hHead : ∀ previous,
      records.head?.map Prod.snd = some previous →
        previous = record.2) :
    (records ++ [record]).head?.map Prod.snd = some record.2 := by
  cases records with
  | nil => rfl
  | cons a records => exact congrArg some (hHead a.2 rfl)

/-
  The step of the walk: a note is taken exactly when the
  answers stay settled, and the parser is then the one
  gathered from all notes.
-/
theorem absorb_gather_iff
    {notes : List Note}
    {note : Note}
    (hSettled : Settled (recordsOf notes)) :
    (first.gather notes).absorb note = .ok final ↔
      Settled (recordsOf (notes ++ [note])) ∧
        final = first.gather (notes ++ [note]) := by
  rw [absorb, hold_gather]
  cases hRecord : note.record with
  | none =>
      have hRecords :
          recordsOf (notes ++ [note]) = recordsOf notes := by
        rw [recordsOf, filterMap_concat, hRecord,
          Option.toList_none, List.append_nil]
        rfl
      rw [hRecords]
      have hSame :
          first.gather (notes ++ [note]) =
            { first.gather (notes ++ [note]) with
              path := (first.gather notes).path
              seconds := (first.gather notes).seconds
              records := (first.gather notes).records } := by
        simp only [gather, hRecords]
      rw [← hSame, settle, Except.ok.injEq, eq_comm,
        and_iff_right hSettled]
  | some record =>
      have hRecords :
          recordsOf (notes ++ [note]) =
            recordsOf notes ++ [record] := by
        rw [recordsOf, filterMap_concat, hRecord,
          Option.toList_some]
        rfl
      rw [settle_iff, hRecords, settled_concat_iff,
        and_iff_right hSettled, and_assoc]
      refine and_congr_right fun hHead => and_congr_right fun _ => ?_
      have hFirst := head?_concat_of_agree hHead
      have hGather :
          first.gather (notes ++ [note]) =
            { first.gather (notes ++ [note]) with
              path := some record.2
              seconds := (first.gather notes).seconds.max record.1
              records := (first.gather notes).records + 1 } := by
        simp only [gather, hRecords, hFirst, latest,
          List.foldl_append, List.foldl_cons, List.foldl_nil,
          List.length_append, List.length_singleton]
      rw [← hGather]

/-
  The walk, by the step: the parser is a function of its
  notes.
-/
theorem foldlM_absorb_iff
    {notes : List Note}
    (hBlank : first.Blank) :
    notes.foldlM absorb first = .ok final ↔
      Settled (recordsOf notes) ∧ final = first.gather notes := by
  induction notes using List.reverseRecOn generalizing final with
  | nil =>
      rw [gather_nil hBlank]
      refine Iff.trans ?_ (and_iff_right Settled.nil).symm
      constructor
      · rintro hRun
        cases hRun
        rfl
      · rintro rfl
        rfl
  | append_singleton notes note ih =>
      rw [List.foldlM_append]
      constructor
      · intro hRun
        rcases except_bind_eq_ok hRun with ⟨middle, hFirst, hLast⟩
        rcases ih.mp hFirst with ⟨hSettled, rfl⟩
        rw [List.foldlM_cons] at hLast
        rcases except_bind_eq_ok hLast with ⟨last, hLast, hEnd⟩
        cases hEnd
        exact (absorb_gather_iff hSettled).mp hLast
      · rintro ⟨hSettled, rfl⟩
        have hBefore : Settled (recordsOf notes) := by
          refine ⟨fun a hA b hB => hSettled.agree a ?_ b ?_, ?_⟩
          · rw [recordsOf, List.filterMap_append]
            exact List.mem_append_left _ hA
          · rw [recordsOf, List.filterMap_append]
            exact List.mem_append_left _ hB
          · refine lt_of_le_of_lt ?_ hSettled.few
            rw [recordsOf, recordsOf, List.filterMap_append,
              List.length_append]
            exact Nat.le_add_right _ _
        rw [ih.mpr ⟨hBefore, rfl⟩, except_ok_bind,
          List.foldlM_cons,
          (absorb_gather_iff hBefore).mpr ⟨hSettled, rfl⟩]
        rfl

----------------
-- Lines In Any Order
----------------

/- An answer leaves the start alone. -/
theorem SameStart.settle
    {next : TerminalParser}
    (hSame : SameStart parser first)
    {record : Option Answered}
    (hRun : parser.settle record = .ok next) :
    SameStart next first := by
  cases record with
  | none =>
      cases hRun
      exact hSame
  | some record =>
      rcases settle_iff.mp hRun with ⟨_, _, rfl⟩
      exact ⟨hSame.graph, hSame.start, hSame.maxSteps⟩

/- A note leaves the start alone. -/
theorem SameStart.absorb
    {next : TerminalParser}
    (hSame : SameStart parser first)
    {note : Note}
    (hRun : parser.absorb note = .ok next) :
    SameStart next first := by
  have hSeen := hSame.foldl_see note.seen
  refine SameStart.settle ?_ hRun
  exact ⟨hSeen.graph, hSeen.start, hSeen.maxSteps⟩

/- Every line has its note. -/
def Readable (first : TerminalParser) (log : List Text) : Prop :=
  ∀ line ∈ log, ∃ note, first.noteOf line = .ok note

/- The notes of the lines that have one. -/
def notesOf
    (first : TerminalParser)
    (log : List Text) : List Note :=
  log.filterMap fun line => (first.noteOf line).toOption

/-
  A log is read when its lines can be and their notes are
  taken in order.
-/
theorem lines_iff_foldlM
    (hSame : SameStart parser first) :
    parser.lines log = .ok final ↔
      Readable first log ∧
        (first.notesOf log).foldlM absorb parser = .ok final := by
  induction log generalizing parser with
  | nil =>
      exact
        (and_iff_right fun _ hMem =>
          absurd hMem List.not_mem_nil).symm
  | cons line log ih =>
      rw [lines, List.foldlM_cons, line_eq hSame]
      cases hNote : first.noteOf line with
      | error error =>
          refine iff_of_false (fun hOk => by cases hOk) fun hAll => ?_
          rcases hAll.1 line List.mem_cons_self with ⟨note, hOk⟩
          rw [hNote] at hOk
          cases hOk
      | ok note =>
          have hReadable :
              Readable first (line :: log) ↔ Readable first log :=
            ⟨fun hAll other hMem =>
                hAll other (List.mem_cons_of_mem _ hMem),
              fun hRest => List.forall_mem_cons.mpr
                ⟨⟨note, hNote⟩, hRest⟩⟩
          have hNotes :
              first.notesOf (line :: log) =
                note :: first.notesOf log := by
            rw [notesOf, List.filterMap_cons, hNote]
            rfl
          rw [hReadable, hNotes, except_ok_bind, List.foldlM_cons]
          cases hAbsorb : parser.absorb note with
          | error error =>
              exact
                iff_of_false (fun hOk => by cases hOk) fun hAll => by
                  cases hAll.2
          | ok next => exact ih (hSame.absorb hAbsorb)

/- A log is read when its lines are and its answers agree. -/
theorem lines_iff
    (hBlank : first.Blank) :
    first.lines log = .ok final ↔
      Readable first log ∧
        Settled (recordsOf (first.notesOf log)) ∧
        final = first.gather (first.notesOf log) := by
  rw [lines_iff_foldlM ⟨rfl, rfl, rfl⟩, foldlM_absorb_iff hBlank]

----------------
-- Sets And The Latest Time
----------------

/- The set has the numbers that went in. -/
theorem mem_insertNumbers
    (numbers start : List Nat)
    (n : Nat) :
    n ∈ insertNumbers numbers start ↔ n ∈ numbers ∨ n ∈ start := by
  induction numbers generalizing start with
  | nil => simp [insertNumbers]
  | cons m numbers ih =>
      refine (ih (insertNumber m start)).trans ?_
      rw [mem_insertNumber, List.mem_cons]
      tauto

/- The set stays sorted. -/
theorem pairwise_insertNumbers
    (numbers : List Nat)
    {start : List Nat}
    (hSorted : start.Pairwise (· < ·)) :
    (insertNumbers numbers start).Pairwise (· < ·) := by
  induction numbers generalizing start with
  | nil => exact hSorted
  | cons m numbers ih => exact ih (pairwise_insertNumber m hSorted)

/- A set of numbers has one ascending list. -/
theorem insertNumbers_congr
    {a b : List Nat}
    (hSame : ∀ n, n ∈ a ↔ n ∈ b) :
    insertNumbers a [] = insertNumbers b [] := by
  have hA := pairwise_insertNumbers a List.Pairwise.nil
  have hB := pairwise_insertNumbers b List.Pairwise.nil
  refine List.Perm.eq_of_pairwise
    (fun m n _ _ hmn hnm => (Nat.lt_asymm hmn hnm).elim) hA hB ?_
  refine (List.perm_ext_iff_of_nodup ?_ ?_).mpr fun n => ?_
  · exact hA.imp fun hLt => Nat.ne_of_lt hLt
  · exact hB.imp fun hLt => Nat.ne_of_lt hLt
  · rw [mem_insertNumbers, mem_insertNumbers, hSame n]

/-
  At most one number in the set: all that went in are the
  same.
-/
theorem length_insertNumbers_le_one_iff (numbers : List Nat) :
    (insertNumbers numbers []).length ≤ 1 ↔
      ∀ a ∈ numbers, ∀ b ∈ numbers, a = b := by
  have hMem (n : Nat) : n ∈ insertNumbers numbers [] ↔
      n ∈ numbers := by
    rw [mem_insertNumbers]
    simp
  have hSorted :=
    pairwise_insertNumbers numbers List.Pairwise.nil
  constructor
  · intro hLength a hA b hB
    rw [← hMem] at hA hB
    cases hSet : insertNumbers numbers [] with
    | nil =>
        rw [hSet] at hA
        cases hA
    | cons c set =>
        rw [hSet, List.length_cons] at hLength
        have hNone := List.eq_nil_of_length_eq_zero
          (Nat.le_zero.mp (Nat.le_of_succ_le_succ hLength))
        rw [hSet, hNone, List.mem_singleton] at hA hB
        rw [hA, hB]
  · intro hEqual
    cases hSet : insertNumbers numbers [] with
    | nil => exact Nat.zero_le _
    | cons a set =>
        cases set with
        | nil => exact Nat.le_refl _
        | cons b set =>
            rw [hSet] at hSorted
            have hLt := (List.pairwise_cons.mp hSorted).1 b
              List.mem_cons_self
            have hSame := hEqual a
              ((hMem a).mp (by rw [hSet]; simp)) b
              ((hMem b).mp (by rw [hSet]; simp))
            omega

/- A time that the parser keeps: finite, not negative. -/
def Elapsed (seconds : Double) : Prop :=
  seconds.isFinite = true ∧ seconds.isNegative = false

/- The units of a finite number. -/
def unitsOf : Double → Nat
  | .finite _ units => units
  | _ => 0

/- The greater of two times is that of their units. -/
theorem max_elapsed
    (most : Nat)
    {seconds : Double}
    (hElapsed : Elapsed seconds) :
    (Double.finite false most).max seconds =
      .finite false (max most (unitsOf seconds)) := by
  rcases hElapsed with ⟨hFinite, hSign⟩
  cases seconds with
  | nan => cases hFinite
  | infinite negative => cases hFinite
  | finite negative units =>
      cases negative with
      | false =>
          simp only [Double.max, Double.signedUnits, unitsOf]
          by_cases hLt : most < units
          · simp [hLt, Nat.le_of_lt hLt]
          · simp [hLt, Nat.le_of_not_gt hLt]
      | true =>
          have hZero : units = 0 := by
            simpa [Double.isNegative] using hSign
          subst hZero
          simp [Double.max, Double.signedUnits, unitsOf]

/- The latest time is a maximum of natural numbers. -/
theorem latest_eq
    (hTimes : ∀ record ∈ records, Elapsed record.1)
    (most : Nat) :
    latest (.finite false most) records =
      .finite false
        ((records.map fun record => unitsOf record.1).foldl
          max most) := by
  induction records generalizing most with
  | nil => rfl
  | cons record records ih =>
      rw [latest, List.foldl_cons,
        max_elapsed most (hTimes record List.mem_cons_self)]
      exact ih
        (fun other hMem => hTimes other (List.mem_cons_of_mem _ hMem))
        _

/- A maximum does not depend on the order. -/
theorem latest_perm
    {a b : List Answered}
    (hPerm : a.Perm b)
    (hTimes : ∀ record ∈ a, Elapsed record.1) :
    latest (.finite false 0) a = latest (.finite false 0) b := by
  rw [latest_eq hTimes,
    latest_eq fun record hMem =>
      hTimes record (hPerm.mem_iff.mpr hMem)]
  refine congrArg _ ?_
  exact (hPerm.map _).foldl_eq'
    (fun m _ n _ most => Nat.max_right_comm most m n) 0

/- The parser refuses every other time. -/
theorem elapsed_of_terminalRecord
    {text : Text}
    (hRecord : parser.terminalRecord text = .ok record) :
    Elapsed record.1 := by
  rw [terminalRecord] at hRecord
  rcases except_bind_eq_ok hRecord with ⟨row, -, hRecord⟩
  rcases except_bind_eq_ok hRecord with ⟨solved, -, hRecord⟩
  rcases except_bind_eq_ok hRecord with ⟨seconds, -, hRecord⟩
  rcases except_bind_eq_ok hRecord with ⟨puzzle, -, hRecord⟩
  split_ifs at hRecord with hWrong
  rcases except_bind_eq_ok hRecord with ⟨path, -, hRecord⟩
  cases hRecord
  rw [not_or, not_or, not_or] at hWrong
  exact
    ⟨(Bool.not_eq_false _).mp hWrong.2.1,
      (Bool.not_eq_true _).mp hWrong.2.2.1⟩

/- The parts of a note, read back from its line. -/
theorem noteOf_eq_ok
    {line : Text}
    {note : Note}
    (hNote : first.noteOf line = .ok note) :
    first.rowOfLine line = .ok note.row ∧
      countOfLine line = .ok note.count ∧
      first.recordOfLine line = .ok note.record ∧
      note.status = statusOf line := by
  rw [noteOf] at hNote
  split_ifs at hNote with hError
  rcases except_bind_eq_ok hNote with ⟨seen, -, hNote⟩
  rcases except_bind_eq_ok hNote with ⟨row, hRow, hNote⟩
  rcases except_bind_eq_ok hNote with ⟨count, hCount, hNote⟩
  rcases except_bind_eq_ok hNote with ⟨record, hRecord, hNote⟩
  cases hNote
  exact ⟨hRow, hCount, hRecord, rfl⟩

/- A note is some line's. -/
theorem mem_notesOf
    {note : Note} :
    note ∈ first.notesOf log ↔
      ∃ line ∈ log, first.noteOf line = .ok note := by
  rw [notesOf, List.mem_filterMap]
  refine exists_congr fun line => and_congr_right fun _ => ?_
  cases first.noteOf line with
  | error error => simp [Except.toOption]
  | ok other => simp [Except.toOption]

/- So every time in the notes is one the parser keeps. -/
theorem elapsed_of_mem_recordsOf :
    ∀ record ∈ recordsOf (first.notesOf log),
      Elapsed record.1 := by
  intro record hMem
  rcases List.mem_filterMap.mp hMem with ⟨note, hNote, hRecord⟩
  rcases mem_notesOf.mp hNote with ⟨line, -, hOk⟩
  have hLine := (noteOf_eq_ok hOk).2.2.1
  rw [hRecord, recordOfLine] at hLine
  cases hText : recordText line with
  | none =>
      rw [hText] at hLine
      cases hLine
  | some text =>
      rw [hText] at hLine
      rcases except_bind_eq_ok hLine with ⟨other, hOther, hSame⟩
      cases hSame
      exact elapsed_of_terminalRecord hOther

----------------
-- The Result Of A Read Log
----------------

/- What the collection adds to the metadata. -/
def collectedFields
    (parser : TerminalParser)
    (metadata : Json.Fields) : Json.Fields :=
  Json.insert "collection_status"
    (.string
      (String.ofList
        (parser.status.getD "depth_reached".toList)))
    (Json.insert "collected_solutions"
      (.array (parser.collected.map collectedJson)) metadata)

/- Where the counts agree the collected fields are there. -/
theorem collectionFields_of_agreed
    {path : Option (List Nat)}
    (hAgreed : Agreed parser path)
    (metadata : Json.Fields) :
    parser.collectionFields path metadata =
      .ok (parser.collectedFields metadata) := by
  have hSome : ¬ (parser.counts = [] ∧ parser.collected = []) := by
    rintro ⟨hCounts, -⟩
    rw [hAgreed.counts] at hCounts
    cases hCounts
  have hAgree :
      ¬ ((!parser.collected.isEmpty) ≠ path.isSome ∨
        path.any fun p =>
          !(parser.collected.map Collected.path).contains p) := by
    rw [not_or, not_not]
    constructor
    · rw [Bool.eq_iff_iff, Bool.not_eq_true',
        List.isEmpty_eq_false_iff, Option.isSome_iff_ne_none]
      exact hAgreed.solved
    · cases path with
      | none => simp
      | some p => simpa using hAgreed.contains p rfl
  rw [collectionFields, if_neg hSome,
    if_neg (not_not_intro hAgreed.counts),
    if_neg (by rw [hasDuplicate_of_nodup hAgreed.nodup]; decide),
    if_neg hAgree]
  rfl

/- The collected fields, or none where nothing was collected. -/
theorem collectionFields_iff
    {path : Option (List Nat)}
    {metadata fields : Json.Fields} :
    parser.collectionFields path metadata = .ok fields ↔
      (parser.counts = [] ∧ parser.collected = [] ∧
        fields = metadata) ∨
      (Agreed parser path ∧
        fields = parser.collectedFields metadata) := by
  constructor
  · intro hFields
    rcases collectionFields_eq_ok hFields with
      hNothing | ⟨hAgreed, -⟩
    · exact Or.inl hNothing
    · rw [collectionFields_of_agreed hAgreed] at hFields
      exact Or.inr ⟨hAgreed, (Except.ok.inj hFields).symm⟩
  · rintro (⟨hCounts, hCollected, rfl⟩ | ⟨hAgreed, rfl⟩)
    · rw [collectionFields, if_pos ⟨hCounts, hCollected⟩]
    · exact collectionFields_of_agreed hAgreed metadata

/- The two fields that every result has. -/
def timesOf (parser : TerminalParser) : Json.Fields :=
  [("native_seconds", .double parser.seconds),
    ("terminal_records", .integer parser.records)]

/- The result of a parser that finishes, and when it does. -/
theorem finish_iff
    {result : TerminalResult} :
    parser.finish = .ok result ↔
      ∃ path fields,
        parser.path = some path ∧
        parser.effective.length ≤ 1 ∧
        parser.collectionFields path parser.timesOf = .ok fields ∧
        result =
          { path := path
            effectiveBeamWidth := parser.effective.head?
            metadata :=
              BatchKey.all.foldl parser.batchFields fields } := by
  constructor
  · intro hFinish
    rcases finish_eq_ok hFinish with
      ⟨hPath, hWidths, hWidth, fields, hFields, hMetadata⟩
    refine ⟨result.path, fields, hPath, hWidths, hFields, ?_⟩
    cases result
    dsimp only at *
    rw [hWidth, hMetadata]
  · rintro ⟨path, fields, hPath, hWidths, hFields, rfl⟩
    rw [timesOf] at hFields
    rw [finish, hPath]
    dsimp only
    rw [if_neg (Nat.not_lt.mpr hWidths), hFields]
    rfl

end TerminalParser

open TerminalParser

----------------
-- Accepted Logs
----------------

/- The parser before the first line. -/
def fresh
    (graph : PermutationGraph)
    (start : List UInt8)
    (maxSteps : Option Nat) : TerminalParser :=
  { graph := graph
    start := start
    maxSteps := maxSteps
    path := none
    seconds := .finite false 0
    records := 0
    effective := []
    batches := fun _ => []
    collected := []
    counts := []
    status := none }

/- Nothing was read at the start. -/
theorem blank_fresh
    (graph : PermutationGraph)
    (start : List UInt8)
    (maxSteps : Option Nat) :
    (fresh graph start maxSteps).Blank :=
  ⟨rfl, rfl, rfl, rfl, rfl, rfl⟩

/- Rows, their one summary and the answer fit together. -/
structure CollectionAgrees
    (notes : List Note)
    (answer : Option (List Nat)) : Prop where
  counts :
    notes.filterMap Note.count =
      [(notes.filterMap Note.row).length]
  nodup :
    ((notes.filterMap Note.row).map Collected.path).Nodup
  solved : notes.filterMap Note.row ≠ [] ↔ answer ≠ none
  contains :
    ∀ p, answer = some p →
      p ∈ (notes.filterMap Note.row).map Collected.path

/- Reasons to accept a log; none of them is an order. -/
structure Accepted
    (graph : PermutationGraph)
    (start : List UInt8)
    (maxSteps : Option Nat)
    (log : List Text) : Prop where
  started : graph.validateStart start = .ok ()
  readable : Readable (fresh graph start maxSteps) log
  settled :
    Settled
      (recordsOf ((fresh graph start maxSteps).notesOf log))
  answered :
    recordsOf ((fresh graph start maxSteps).notesOf log) ≠ []
  widths :
    ∀ a ∈ widthsOf
        (seenOf ((fresh graph start maxSteps).notesOf log)),
      ∀ b ∈ widthsOf
          (seenOf ((fresh graph start maxSteps).notesOf log)),
        a = b
  collection :
    Collects log →
      ∀ record ∈ recordsOf
          ((fresh graph start maxSteps).notesOf log),
        CollectionAgrees
          ((fresh graph start maxSteps).notesOf log) record.2

/- The agreement of the parser, told by its notes. -/
theorem agreed_gather_iff
    {notes : List Note}
    {answer : Option (List Nat)} :
    Agreed (first.gather notes) answer ↔
      CollectionAgrees notes answer :=
  ⟨fun hAgreed => ⟨hAgreed.counts, hAgreed.nodup,
      hAgreed.solved, hAgreed.contains⟩,
    fun hAgrees => ⟨hAgrees.counts, hAgrees.nodup,
      hAgrees.solved, hAgrees.contains⟩⟩

/- A readable log collects when it leaves a row or a count. -/
theorem collects_iff
    (hReadable : Readable first log) :
    Collects log ↔
      ¬ ((first.notesOf log).filterMap Note.count = [] ∧
        (first.notesOf log).filterMap Note.row = []) := by
  have hLine : ∀ line note, first.noteOf line = .ok note →
      (isCollecting line = true ↔
        ¬ (note.count = none ∧ note.row = none)) := by
    intro line note hNote
    rcases noteOf_eq_ok hNote with ⟨hRow, hCount, -⟩
    rw [rowOfLine] at hRow
    rw [countOfLine] at hCount
    rw [isCollecting, Bool.or_eq_true]
    by_cases hSolution : isCollection line = true
    · rw [if_pos hSolution] at hRow
      rcases except_bind_eq_ok hRow with ⟨row, -, hRow⟩
      simp [hSolution, ← Except.ok.inj hRow]
    · rw [if_neg hSolution] at hRow
      rw [← Except.ok.inj hRow]
      by_cases hSummary : isSummary line = true
      · rw [if_pos hSummary] at hCount
        rcases except_bind_eq_ok hCount with ⟨count, -, hCount⟩
        simp [hSummary, ← Except.ok.inj hCount]
      · rw [if_neg hSummary] at hCount
        simp [hSolution, hSummary, ← Except.ok.inj hCount]
  rw [Collects, List.filterMap_eq_nil_iff,
    List.filterMap_eq_nil_iff]
  constructor
  · rintro ⟨line, hMem, hCollecting⟩ ⟨hCounts, hRows⟩
    rcases hReadable line hMem with ⟨note, hNote⟩
    have hNoteMem := mem_notesOf.mpr ⟨line, hMem, hNote⟩
    exact (hLine line note hNote).mp hCollecting
      ⟨hCounts note hNoteMem, hRows note hNoteMem⟩
  · intro hSome
    by_contra hNone
    refine hSome ⟨fun note hMem => ?_, fun note hMem => ?_⟩
    · rcases mem_notesOf.mp hMem with ⟨line, hIn, hNote⟩
      by_contra hCount
      exact hNone ⟨line, hIn, (hLine line note hNote).mpr
        fun hBoth => hCount hBoth.1⟩
    · rcases mem_notesOf.mp hMem with ⟨line, hIn, hNote⟩
      by_contra hRow
      exact hNone ⟨line, hIn, (hLine line note hNote).mpr
        fun hBoth => hRow hBoth.2⟩

namespace TerminalParser

/- What is told besides the batch sizes. -/
def fieldsOf (parser : TerminalParser) : Json.Fields :=
  if parser.counts = [] ∧ parser.collected = [] then
    parser.timesOf
  else parser.collectedFields parser.timesOf

/- The result that a parser holds. -/
def resultOf
    (parser : TerminalParser)
    (path : Option (List Nat)) : TerminalResult :=
  { path := path
    effectiveBeamWidth := parser.effective.head?
    metadata :=
      BatchKey.all.foldl parser.batchFields parser.fieldsOf }

end TerminalParser

/- The first answer is one of them. -/
theorem head?_of_answered
    {records : List Answered}
    (hSome : records ≠ []) :
    ∃ record ∈ records,
      records.head?.map Prod.snd = some record.2 := by
  cases records with
  | nil => exact absurd rfl hSome
  | cons record records =>
      exact ⟨record, List.mem_cons_self, rfl⟩

/- A log has a result exactly when it is accepted. -/
theorem parseLog_iff
    {start : List UInt8}
    {result : TerminalResult} :
    let first := fresh graph start maxSteps
    parseLog graph start maxSteps log = .ok result ↔
      Accepted graph start maxSteps log ∧
        ∃ record ∈ recordsOf (first.notesOf log),
          result =
            (first.gather (first.notesOf log)).resultOf
              record.2 := by
  intro first
  have hBlank : first.Blank := blank_fresh graph start maxSteps
  constructor
  · intro hRun
    rw [parseLog, TerminalParser.new] at hRun
    rcases except_bind_eq_ok hRun with ⟨parser, hNew, hRun⟩
    rcases except_bind_eq_ok hNew with ⟨checked, hStart, hNew⟩
    cases hNew
    rcases except_bind_eq_ok hRun with ⟨final, hLines, hFinish⟩
    rcases (lines_iff hBlank).mp hLines with
      ⟨hReadable, hSettled, rfl⟩
    rcases finish_iff.mp hFinish with
      ⟨path, fields, hPath, hWidths, hFields, rfl⟩
    have hAnswered :
        recordsOf (first.notesOf log) ≠ [] := by
      intro hNone
      rw [gather, hNone] at hPath
      cases hPath
    rcases head?_of_answered hAnswered with
      ⟨record, hMem, hHead⟩
    have hSame : record.2 = path :=
      Option.some.inj (hHead.symm.trans hPath)
    subst hSame
    rcases collectionFields_iff.mp hFields with
      ⟨hCounts, hCollected, rfl⟩ | ⟨hAgreed, rfl⟩
    · refine ⟨⟨hStart, hReadable, hSettled, hAnswered,
        (length_insertNumbers_le_one_iff _).mp hWidths,
        fun hCollects => ?_⟩, record, hMem, ?_⟩
      · exact absurd ⟨hCounts, hCollected⟩
          ((collects_iff hReadable).mp hCollects)
      · rw [resultOf, fieldsOf, if_pos ⟨hCounts, hCollected⟩]
    · refine ⟨⟨hStart, hReadable, hSettled, hAnswered,
        (length_insertNumbers_le_one_iff _).mp hWidths,
        fun _ other hOther => ?_⟩, record, hMem, ?_⟩
      · rw [hSettled.agree other hOther record hMem]
        exact agreed_gather_iff.mp hAgreed
      · have hSome :
            ¬ ((first.gather (first.notesOf log)).counts = [] ∧
              (first.gather (first.notesOf log)).collected =
                []) := by
          rintro ⟨hCounts, -⟩
          rw [hAgreed.counts] at hCounts
          cases hCounts
        rw [resultOf, fieldsOf, if_neg hSome]
  · rintro ⟨hAccepted, record, hMem, rfl⟩
    have hNew :
        TerminalParser.new graph start maxSteps = .ok first := by
      rw [TerminalParser.new, hAccepted.started]
      rfl
    have hLines :=
      (lines_iff hBlank).mpr
        ⟨hAccepted.readable, hAccepted.settled, rfl⟩
    rw [parseLog, hNew, except_ok_bind, hLines, except_ok_bind,
      finish_iff]
    rcases head?_of_answered hAccepted.answered with
      ⟨other, hOther, hHead⟩
    rw [hAccepted.settled.agree other hOther record hMem] at hHead
    refine ⟨record.2, _, hHead,
      (length_insertNumbers_le_one_iff _).mpr hAccepted.widths,
      ?_, rfl⟩
    rw [collectionFields_iff, fieldsOf]
    by_cases hCollects : Collects log
    · have hSome :
          ¬ ((first.gather (first.notesOf log)).counts = [] ∧
            (first.gather (first.notesOf log)).collected = []) :=
        (collects_iff hAccepted.readable).mp hCollects
      rw [if_neg hSome]
      exact Or.inr ⟨agreed_gather_iff.mpr
        (hAccepted.collection hCollects record hMem), rfl⟩
    · have hNothing :
          (first.gather (first.notesOf log)).counts = [] ∧
            (first.gather (first.notesOf log)).collected = [] :=
        not_not.mp
          ((collects_iff hAccepted.readable).not.mp hCollects)
      rw [if_pos hNothing]
      exact Or.inl ⟨hNothing.1, hNothing.2, rfl⟩

----------------
-- Orders Of A Log
----------------

section Orders

variable {start : List UInt8}
/- The notes of the lines in another order. -/
theorem notesOf_perm
    {first : TerminalParser}
    {a b : List Text}
    (hPerm : a.Perm b) :
    (first.notesOf a).Perm (first.notesOf b) :=
  hPerm.filterMap _

/- Their answers. -/
theorem recordsOf_perm
    {a b : List Note}
    (hPerm : a.Perm b) :
    (recordsOf a).Perm (recordsOf b) :=
  hPerm.filterMap _

/- What they say. -/
theorem seenOf_perm
    {a b : List Note}
    (hPerm : a.Perm b) :
    (seenOf a).Perm (seenOf b) :=
  hPerm.flatMap_right _

/- An agreement of all rows with all counts knows no order. -/
theorem CollectionAgrees.perm
    {a b : List Note}
    (hPerm : a.Perm b)
    {answer : Option (List Nat)}
    (hAgrees : CollectionAgrees a answer) :
    CollectionAgrees b answer := by
  have hRows := hPerm.filterMap Note.row
  have hCounts := hPerm.filterMap Note.count
  have hPaths := hRows.map Collected.path
  refine ⟨?_, hPaths.nodup_iff.mp hAgrees.nodup, ?_, ?_⟩
  · rw [hAgrees.counts, hRows.length_eq] at hCounts
    exact List.perm_singleton.mp hCounts.symm
  · rw [← hAgrees.solved, ne_eq, ne_eq,
      ← List.isEmpty_iff, ← List.isEmpty_iff, hRows.isEmpty_eq]
  · exact fun p hAnswer =>
      hPaths.mem_iff.mp (hAgrees.contains p hAnswer)

/- Neither does whether anything was collected. -/
theorem collects_perm
    {a b : List Text}
    (hPerm : a.Perm b) :
    Collects a ↔ Collects b :=
  exists_congr fun _ => and_congr_left fun _ => hPerm.mem_iff

/- Nor whether the log is accepted. -/
theorem Accepted.perm
    {a b : List Text}
    (hPerm : a.Perm b)
    (hAccepted : Accepted graph start maxSteps a) :
    Accepted graph start maxSteps b := by
  have hNotes :
      ((fresh graph start maxSteps).notesOf a).Perm
        ((fresh graph start maxSteps).notesOf b) :=
    notesOf_perm hPerm
  have hRecords := recordsOf_perm hNotes
  have hWidths := (seenOf_perm hNotes).filterMap
    (fun seen : Observation =>
      match seen with
      | .width n => some n
      | _ => none)
  refine ⟨hAccepted.started, ?_, ⟨?_, ?_⟩, ?_, ?_, ?_⟩
  · exact fun line hMem =>
      hAccepted.readable line (hPerm.mem_iff.mpr hMem)
  · exact fun x hX y hY => hAccepted.settled.agree
      x (hRecords.mem_iff.mpr hX) y (hRecords.mem_iff.mpr hY)
  · exact hRecords.length_eq ▸ hAccepted.settled.few
  · intro hNone
    rw [hNone] at hRecords
    exact hAccepted.answered hRecords.eq_nil
  · exact fun x hX y hY => hAccepted.widths
      x (hWidths.mem_iff.mpr hX) y (hWidths.mem_iff.mpr hY)
  · intro hCollects record hMem
    exact (hAccepted.collection
      ((collects_perm hPerm).mpr hCollects) record
      (hRecords.mem_iff.mpr hMem)).perm hNotes

end Orders

----------------
-- The Same Outcome
----------------

/- The same rows of a collection, in any order. -/
def SameRows : Option Json → Option Json → Prop
  | some (.array rows), some (.array others) => rows.Perm others
  | none, none => True
  | _, _ => False

/-
  The same fields; the collected rows may be in another order.
-/
structure SameMetadata (a b : Json.Fields) : Prop where
  told :
    ∀ key, key ≠ "collected_solutions" →
      a.lookup key = b.lookup key
  rows :
    SameRows (a.lookup "collected_solutions")
      (b.lookup "collected_solutions")

/- The same path and width, and the same fields. -/
structure SameResult (a b : TerminalResult) : Prop where
  path : a.path = b.path
  effectiveBeamWidth :
    a.effectiveBeamWidth = b.effectiveBeamWidth
  metadata : SameMetadata a.metadata b.metadata

/- Both fail, or both tell the same. -/
def SameOutcome :
    Result TerminalResult → Result TerminalResult → Prop
  | .ok a, .ok b => SameResult a b
  | .error _, .error _ => True
  | _, _ => False

/-
  Without collected rows the fields are the same as
  themselves.
-/
theorem SameMetadata.refl_of_absent
    {fields : Json.Fields}
    (hAbsent : fields.lookup "collected_solutions" = none) :
    SameMetadata fields fields :=
  ⟨fun _ _ => rfl, by rw [hAbsent]; exact trivial⟩

/- A field that is set in both. -/
theorem SameMetadata.insert
    (hSame : SameMetadata a b)
    {key : String}
    (hKey : key ≠ "collected_solutions")
    (told : Json) :
    SameMetadata (Json.insert key told a)
      (Json.insert key told b) := by
  constructor
  · intro other hOther
    by_cases hSelf : other = key
    · subst hSelf
      rw [Json.lookup_insert_self, Json.lookup_insert_self]
    · rw [Json.lookup_insert_of_ne hSelf,
        Json.lookup_insert_of_ne hSelf]
      exact hSame.told other hOther
  · rw [Json.lookup_insert_of_ne hKey.symm,
      Json.lookup_insert_of_ne hKey.symm]
    exact hSame.rows

/- The rows, set in both. -/
theorem SameMetadata.insert_rows
    (hSame : SameMetadata a b)
    {rows others : List Json}
    (hPerm : rows.Perm others) :
    SameMetadata
      (Json.insert "collected_solutions" (.array rows) a)
      (Json.insert "collected_solutions" (.array others) b) := by
  constructor
  · intro other hOther
    rw [Json.lookup_insert_of_ne hOther,
      Json.lookup_insert_of_ne hOther]
    exact hSame.told other hOther
  · rw [Json.lookup_insert_self, Json.lookup_insert_self]
    exact hPerm

/- The keys of the batches are other keys. -/
theorem name_ne_collected (key : BatchKey) :
    key.name ≠ "collected_solutions" ∧
      byRankKey key ≠ "collected_solutions" := by
  cases key <;> decide

/- The fields of one batch. -/
theorem SameMetadata.batchFields
    {other : TerminalParser}
    (hBatches : parser.batches = other.batches)
    (hSame : SameMetadata a b)
    (key : BatchKey) :
    SameMetadata (parser.batchFields a key)
      (other.batchFields b key) := by
  rw [TerminalParser.batchFields, TerminalParser.batchFields,
    hBatches]
  have hFirst := hSame.insert (name_ne_collected key).1
  split_ifs
  · exact (hFirst _).insert (name_ne_collected key).2 _
  · exact hFirst _

/- The fields of all batches. -/
theorem SameMetadata.batches
    {other : TerminalParser}
    (hBatches : parser.batches = other.batches)
    (hSame : SameMetadata a b)
    (keys : List BatchKey) :
    SameMetadata (keys.foldl parser.batchFields a)
      (keys.foldl other.batchFields b) := by
  induction keys generalizing a b with
  | nil => exact hSame
  | cons key keys ih => exact ih (hSame.batchFields hBatches key)

/- The last of a list whose items are all the same. -/
theorem getLast?_of_agree
    {α : Type}
    {xs ys : List α}
    (hPerm : xs.Perm ys)
    (hAgree : ∀ x ∈ xs, ∀ y ∈ xs, x = y) :
    xs.getLast? = ys.getLast? := by
  cases hX : xs.getLast? with
  | none =>
      rw [List.getLast?_eq_none_iff.mp hX] at hPerm
      rw [hPerm.symm.eq_nil]
      rfl
  | some x =>
      cases hY : ys.getLast? with
      | none =>
          rw [List.getLast?_eq_none_iff.mp hY] at hPerm
          rw [hPerm.eq_nil] at hX
          cases hX
      | some y =>
          rw [hAgree x (List.mem_of_getLast? hX) y
            (hPerm.mem_iff.mpr (List.mem_of_getLast? hY))]

/- Every status of a log is the same text. -/
def StatusesAgree (log : List Text) : Prop :=
  ∀ a ∈ log, ∀ b ∈ log, ∀ s t,
    statusOf a = some s → statusOf b = some t → s = t

/- A status of the notes is some line's. -/
theorem mem_statuses
    {status : Text}
    (hMem :
      status ∈ (first.notesOf log).filterMap Note.status) :
    ∃ line ∈ log, statusOf line = some status := by
  rcases List.mem_filterMap.mp hMem with ⟨note, hNote, hStatus⟩
  rcases mem_notesOf.mp hNote with ⟨line, hLine, hOk⟩
  exact ⟨line, hLine,
    (noteOf_eq_ok hOk).2.2.2.symm.trans hStatus⟩

section Outcomes

variable {start : List UInt8}
/-
  The fields before the batches: only the status looks at the
  order, and it is settled by the condition.
-/
theorem sameMetadata_fieldsOf
    {a b : List Text}
    (hPerm : a.Perm b)
    (hAccepted : Accepted graph start maxSteps a)
    (hStatus : StatusesAgree a ∨ ¬ Collects a) :
    let first := fresh graph start maxSteps
    SameMetadata (first.gather (first.notesOf a)).fieldsOf
      (first.gather (first.notesOf b)).fieldsOf := by
  intro first
  have hNotes : (first.notesOf a).Perm (first.notesOf b) :=
    notesOf_perm hPerm
  have hTimes :
      (first.gather (first.notesOf a)).timesOf =
        (first.gather (first.notesOf b)).timesOf := by
    have hLatest :
        latest first.seconds (recordsOf (first.notesOf a)) =
          latest first.seconds (recordsOf (first.notesOf b)) :=
      latest_perm (recordsOf_perm hNotes) elapsed_of_mem_recordsOf
    simp only [timesOf, gather, hLatest,
      (recordsOf_perm hNotes).length_eq]
  have hCollectsA : Collects a ↔
      ¬ ((first.gather (first.notesOf a)).counts = [] ∧
        (first.gather (first.notesOf a)).collected = []) :=
    collects_iff hAccepted.readable
  have hCollectsB : Collects b ↔
      ¬ ((first.gather (first.notesOf b)).counts = [] ∧
        (first.gather (first.notesOf b)).collected = []) :=
    collects_iff (hAccepted.perm hPerm).readable
  have hPlain : SameMetadata
      (first.gather (first.notesOf a)).timesOf
      (first.gather (first.notesOf a)).timesOf :=
    SameMetadata.refl_of_absent rfl
  rw [fieldsOf, fieldsOf]
  by_cases hCollects : Collects a
  · have hStatuses :
        (first.gather (first.notesOf a)).status =
          (first.gather (first.notesOf b)).status := by
      have hAgree := hStatus.resolve_right (not_not_intro hCollects)
      refine congrArg (·.or first.status)
        (getLast?_of_agree (hNotes.filterMap _) ?_)
      intro s hS t hT
      rcases mem_statuses hS with ⟨x, hX, hXs⟩
      rcases mem_statuses hT with ⟨y, hY, hYt⟩
      exact hAgree x hX y hY s t hXs hYt
    rw [if_neg (hCollectsA.mp hCollects),
      if_neg (hCollectsB.mp ((collects_perm hPerm).mp hCollects)),
      collectedFields, collectedFields, ← hTimes, ← hStatuses]
    exact (hPlain.insert_rows
      ((hNotes.filterMap Note.row).map collectedJson)).insert
        (by decide) _
  · rw [if_pos (not_not.mp (hCollectsA.not.mp hCollects)),
      if_pos (not_not.mp (hCollectsB.not.mp
        ((collects_perm hPerm).not.mp hCollects))), ← hTimes]
    exact hPlain

/- Two orders tell the same but for the status. -/
theorem sameResult_of_perm
    {a b : List Text}
    (hPerm : a.Perm b)
    (hAccepted : Accepted graph start maxSteps a)
    (hStatus : StatusesAgree a ∨ ¬ Collects a)
    (path : Option (List Nat)) :
    let first := fresh graph start maxSteps
    SameResult
      ((first.gather (first.notesOf a)).resultOf path)
      ((first.gather (first.notesOf b)).resultOf path) := by
  intro first
  have hSeen := seenOf_perm (@notesOf_perm first _ _ hPerm)
  have hWidths :
      (first.gather (first.notesOf a)).effective =
        (first.gather (first.notesOf b)).effective :=
    insertNumbers_congr fun n => (hSeen.filterMap _).mem_iff
  have hBatches :
      (first.gather (first.notesOf a)).batches =
        (first.gather (first.notesOf b)).batches := by
    funext key
    exact insertNumbers_congr fun n =>
      (hSeen.filterMap _).mem_iff
  exact
    ⟨rfl, congrArg List.head? hWidths,
      (sameMetadata_fieldsOf hPerm hAccepted hStatus).batches
        hBatches _⟩

/-
  One direction: under the condition the order does not
  matter.
-/
theorem sameOutcome_of_perm
    {a b : List Text}
    (hPerm : a.Perm b)
    (hOrderless : StatusesAgree a ∨ ¬ Collects a ∨
      ¬ Accepted graph start maxSteps a) :
    SameOutcome (parseLog graph start maxSteps a)
      (parseLog graph start maxSteps b) := by
  cases hA : parseLog graph start maxSteps a with
  | error error =>
      cases hB : parseLog graph start maxSteps b with
      | error other => exact trivial
      | ok result =>
          rcases parseLog_iff.mp hB with ⟨hAccepted, _⟩
          rcases (hAccepted.perm hPerm.symm).answered |>
              head?_of_answered with ⟨record, hMem, _⟩
          have hOk := parseLog_iff.mpr
            ⟨hAccepted.perm hPerm.symm, record, hMem, rfl⟩
          rw [hA] at hOk
          cases hOk
  | ok result =>
      rcases parseLog_iff.mp hA with
        ⟨hAccepted, record, hMem, rfl⟩
      have hRecord :=
        (recordsOf_perm (notesOf_perm hPerm)).mem_iff.mp hMem
      rw [parseLog_iff.mpr
        ⟨hAccepted.perm hPerm, record, hRecord, rfl⟩]
      refine sameResult_of_perm hPerm hAccepted ?_ record.2
      rcases hOrderless with hAgree | hNone | hRefused
      · exact Or.inl hAgree
      · exact Or.inr hNone
      · exact absurd hAccepted hRefused

end Outcomes

----------------
-- Orders Change The Status Only
----------------

/-
  The field of the status. Without a status line it has its
  default.
-/
theorem lookup_status
    (hSome : ¬ (parser.counts = [] ∧ parser.collected = []))
    (path : Option (List Nat)) :
    (parser.resultOf path).metadata.lookup "collection_status" =
      some
        (.string
          (String.ofList
            (parser.status.getD "depth_reached".toList))) := by
  rw [resultOf, lookup_batches, fieldsOf, if_neg hSome,
    collectedFields, Json.lookup_insert_self]
  intro key
  cases key <;> decide

/- The status of the last line is the one told. -/
theorem status_of_last
    {start : List UInt8}
    {line status : Text}
    (hAccepted : Accepted graph start maxSteps (log ++ [line]))
    (hCollects : Collects (log ++ [line]))
    (hStatus : statusOf line = some status) :
    ∃ result,
      parseLog graph start maxSteps (log ++ [line]) =
        .ok result ∧
      result.metadata.lookup "collection_status" =
        some (.string (String.ofList status)) := by
  rcases head?_of_answered hAccepted.answered with
    ⟨record, hMem, -⟩
  refine ⟨_, parseLog_iff.mpr ⟨hAccepted, record, hMem, rfl⟩, ?_⟩
  have hSome :
      ¬ (((fresh graph start maxSteps).gather
            ((fresh graph start maxSteps).notesOf
              (log ++ [line]))).counts = [] ∧
        ((fresh graph start maxSteps).gather
            ((fresh graph start maxSteps).notesOf
              (log ++ [line]))).collected = []) :=
    (collects_iff hAccepted.readable).mp hCollects
  rcases hAccepted.readable line (by simp) with ⟨note, hNote⟩
  have hNotes :
      (fresh graph start maxSteps).notesOf (log ++ [line]) =
        (fresh graph start maxSteps).notesOf log ++ [note] := by
    rw [notesOf, filterMap_concat, hNote]
    rfl
  rw [lookup_status hSome, hNotes]
  simp only [gather, filterMap_concat,
    (noteOf_eq_ok hNote).2.2.2, hStatus, Option.toList_some,
    List.getLast?_append, List.getLast?_singleton, Option.some_or,
    Option.getD_some]

/- A log tells the same in every order, unless it is accepted
and collects under different statuses. -/
theorem orderless_iff
    (graph : PermutationGraph)
    (start : List UInt8)
    (maxSteps : Option Nat)
    (log : List Text) :
    (∀ a b : List Text, a.Perm log → b.Perm log →
      SameOutcome (parseLog graph start maxSteps a)
        (parseLog graph start maxSteps b)) ↔
    (StatusesAgree log ∨ ¬ Collects log ∨
      ¬ Accepted graph start maxSteps log) := by
  constructor
  · intro hSame
    by_contra hNot
    rw [not_or, not_or, not_not, not_not] at hNot
    rcases hNot with ⟨hDiffer, hCollects, hAccepted⟩
    have hLast : ∀ line ∈ log, ∀ status,
        statusOf line = some status →
        ∃ result,
          parseLog graph start maxSteps
              (log.erase line ++ [line]) = .ok result ∧
          result.metadata.lookup "collection_status" =
            some (.string (String.ofList status)) := by
      intro line hMem status hStatus
      have hPerm : log.Perm (log.erase line ++ [line]) :=
        (List.perm_cons_erase hMem).trans
          (@List.perm_append_comm _ [line] _)
      exact status_of_last (hAccepted.perm hPerm)
        ((collects_perm hPerm).mp hCollects) hStatus
    refine hDiffer fun x hX y hY s t hS hT => ?_
    rcases hLast x hX s hS with ⟨first, hFirst, hFirstStatus⟩
    rcases hLast y hY t hT with ⟨other, hOther, hOtherStatus⟩
    have hBack : ∀ line ∈ log,
        (log.erase line ++ [line]).Perm log := fun line hMem =>
      List.perm_append_comm.trans
        (List.perm_cons_erase hMem).symm
    have hResult := hSame _ _ (hBack x hX) (hBack y hY)
    rw [hFirst, hOther] at hResult
    have hTold :=
      hResult.metadata.told "collection_status" (by decide)
    rw [hFirstStatus, hOtherStatus] at hTold
    have hText := Json.string.inj (Option.some.inj hTold)
    exact String.ofList_injective hText
  · intro hOrderless a b hA hB
    refine sameOutcome_of_perm (hA.trans hB.symm) ?_
    rcases hOrderless with hAgree | hNone | hRefused
    · refine Or.inl fun x hX y hY => ?_
      exact hAgree x (hA.mem_iff.mp hX) y (hA.mem_iff.mp hY)
    · exact Or.inr (Or.inl ((collects_perm hA).not.mpr hNone))
    · exact Or.inr (Or.inr fun hAccepted =>
        hRefused (hAccepted.perm hA))

----------------
-- Two Statuses
----------------

/- Two elements and their swap. -/
def statusGraph : PermutationGraph where
  center := [0, 1]
  generators := [[0, 1], [1, 0]]

/- A log that is accepted and collects a row. -/
def collectedLines : List Text :=
  ["solve_bucket_solution=1 puzzle_id=0 found_depth=1 solution_length=1 owner_rank=0 solution=m1".toList,
    "solve_bucket_summary=1 puzzle_id=0 records=1".toList,
    "puzzle_solved=1 puzzle_id=0 seconds=0 solution_length=1 solution=m1".toList]

/- One status. -/
def depthStatus : Text :=
  "collection_status=depth_reached".toList

/- Another one. -/
def capacityStatus : Text :=
  "collection_status=capacity_reached".toList

/- The status in a result. -/
def toldStatus (result : Result TerminalResult) : Option Json :=
  match result with
  | .ok result => result.metadata.lookup "collection_status"
  | .error _ => none

/- The same results have the same status. -/
theorem toldStatus_of_same
    {a b : Result TerminalResult}
    (hSame : SameOutcome a b) :
    toldStatus a = toldStatus b := by
  cases a with
  | error error =>
      cases b with
      | error other => rfl
      | ok b => exact hSame.elim
  | ok a =>
      cases b with
      | error error => exact hSame.elim
      | ok b => exact hSame.metadata.told _ (by decide)

/- The other direction: two orders that tell two statuses. -/
theorem ordered_of_status
    {start : List UInt8}
    {a b : List Text}
    (hA : a.Perm log)
    (hB : b.Perm log)
    (hDiffer :
      toldStatus (parseLog graph start maxSteps a) ≠
        toldStatus (parseLog graph start maxSteps b)) :
    ¬ ∀ a b : List Text, a.Perm log → b.Perm log →
      SameOutcome (parseLog graph start maxSteps a)
        (parseLog graph start maxSteps b) :=
  fun hSame => hDiffer (toldStatus_of_same (hSame a b hA hB))

/- The status that comes last is told, whichever it is. -/
theorem orderless_two_statuses :
    toldStatus
        (parseLog statusGraph [1, 0] (some 3)
          (collectedLines ++ [depthStatus, capacityStatus])) =
      some (.string "capacity_reached") ∧
    toldStatus
        (parseLog statusGraph [1, 0] (some 3)
          (collectedLines ++ [capacityStatus, depthStatus])) =
      some (.string "depth_reached") ∧
    ¬ ∀ a b : List Text,
      a.Perm
          (collectedLines ++ [depthStatus, capacityStatus]) →
      b.Perm
          (collectedLines ++ [depthStatus, capacityStatus]) →
        SameOutcome (parseLog statusGraph [1, 0] (some 3) a)
          (parseLog statusGraph [1, 0] (some 3) b) := by
  have hFirst :
      toldStatus
          (parseLog statusGraph [1, 0] (some 3)
            (collectedLines ++ [depthStatus, capacityStatus])) =
        some (.string "capacity_reached") := by
    decide +kernel
  have hSecond :
      toldStatus
          (parseLog statusGraph [1, 0] (some 3)
            (collectedLines ++ [capacityStatus, depthStatus])) =
        some (.string "depth_reached") := by
    decide +kernel
  refine ⟨hFirst, hSecond,
    ordered_of_status (List.Perm.refl _)
      (List.Perm.append_left collectedLines
        (List.Perm.swap depthStatus capacityStatus [])) ?_⟩
  rw [hFirst, hSecond]
  decide

end Search

end BeamSearch
