import Mathlib.Data.List.Chain
import BeamSearch.Core.Errors
import BeamSearch.Lib.Text

/-
  The table of initial states.

  A scanner reads fields in quotes or plain, and ends a row at
  a line feed, a carriage return or both. Reading inverts
  writing, in whatever style each field and each line end is
  written, as long as every row can be seen.

  Main declarations:
    * `csv`
    * `Document`, `render`
    * `Readable`
    * `csv_render`
-/

namespace BeamSearch

namespace Native

open Text (Text)

----------------
-- The Scanner
----------------

/- The state of the scanner between two characters. -/
structure Scanner where
  rows : List (List Text)
  row : List Text
  field : Text
  quoted : Bool
  closed : Bool
  started : Bool
deriving DecidableEq, Repr

namespace Scanner

/- A character of the field. -/
def push (scanner : Scanner) (c : Char) : Scanner :=
  { scanner with field := scanner.field ++ [c] }

/- The field is over. -/
def endField (scanner : Scanner) : Scanner :=
  { scanner with
    row := scanner.row ++ [scanner.field]
    field := []
    closed := false
    started := false }

/- The row is over. -/
def endRow (scanner : Scanner) : Scanner :=
  { scanner.endField with
    rows := scanner.rows ++ [scanner.endField.row]
    row := [] }

/- What is read when the text ends. -/
def finish
    (scanner : Scanner) : Except Exception (List (List Text)) :=
  if scanner.quoted then
    .error (.runtimeError "unterminated CSV quote")
  else if scanner.started || scanner.closed ||
      !scanner.row.isEmpty then
    .ok scanner.endRow.rows
  else
    .ok scanner.rows

end Scanner

/-
  One character after the other. Behind a closing quote only a
  comma or the end of the row may come.
-/
def csvFrom :
    Scanner → Text → Except Exception (List (List Text))
  | scanner, [] => scanner.finish
  | scanner, c :: rest =>
      if scanner.quoted then
        if c = '"' then
          match rest with
          | '"' :: rest => csvFrom (scanner.push '"') rest
          | rest =>
              csvFrom
                { scanner with quoted := false, closed := true }
                rest
        else
          csvFrom (scanner.push c) rest
      else if c = ',' then
        csvFrom scanner.endField rest
      else if c = '\n' then
        csvFrom scanner.endRow rest
      else if c = '\r' then
        match rest with
        | '\n' :: rest => csvFrom scanner.endRow rest
        | rest => csvFrom scanner.endRow rest
      else if c = '"' && !scanner.started && !scanner.closed then
        csvFrom { scanner with quoted := true, started := true } rest
      else if scanner.closed || c = '"' then
        .error (.runtimeError "malformed CSV quoting")
      else
        csvFrom { scanner.push c with started := true } rest

/- Before a field, with the fields of its row so far. -/
def Scanner.between
    (rows : List (List Text))
    (row : List Text) : Scanner :=
  { rows := rows
    row := row
    field := []
    quoted := false
    closed := false
    started := false }

/- The rows of a text. -/
def csv (text : Text) : Except Exception (List (List Text)) :=
  csvFrom (Scanner.between [] []) text

----------------
-- Documents
----------------

/- The characters that only a quoted cell may have. -/
def special (c : Char) : Bool :=
  c = '"' || c = ',' || c = '\n' || c = '\r'

/- A field in quotes, or one that needs none. -/
structure Cell where
  text : Text
  quoted : Bool
  plain : quoted = false → ∀ c ∈ text, special c = false

/- Inner quotes are doubled. -/
def doubled (text : Text) : Text :=
  text.flatMap fun c => if c = '"' then ['"', '"'] else [c]

/- The text of a cell; its quotes are doubled. -/
def Cell.render (cell : Cell) : Text :=
  if cell.quoted then '"' :: (doubled cell.text ++ ['"'])
  else cell.text

/- A row has at least one field. -/
structure Line where
  first : Cell
  others : List Cell

namespace Line

/- The texts of a line's cells. -/
def fields (line : Line) : List Text :=
  line.first.text :: line.others.map Cell.text

/- The text of a line. -/
def render (line : Line) : Text :=
  line.first.render ++
    line.others.flatMap fun cell => ',' :: cell.render

/- A single empty field without quotes cannot be seen. -/
def Blank (line : Line) : Prop :=
  line.first.quoted = false ∧ line.first.text = [] ∧
    line.others = []

/- Whether a line is blank can be computed. -/
instance (line : Line) : Decidable line.Blank :=
  inferInstanceAs (Decidable (_ ∧ _ = [] ∧ line.others = []))

end Line

/- The ends of a line. -/
inductive Terminator where
  | lf
  | cr
  | crlf
deriving DecidableEq, Repr

/- Their text. -/
def Terminator.render : Terminator → Text
  | .lf => ['\n']
  | .cr => ['\r']
  | .crlf => ['\r', '\n']

/- Ended rows, and perhaps one whose end is the text's. -/
structure Document where
  ended : List (Line × Terminator)
  last : Option Line

/- The text of the ended lines. -/
def renderEnded (ended : List (Line × Terminator)) : Text :=
  ended.flatMap fun line => line.1.render ++ line.2.render

/- The text of a last line without its end. -/
def renderLast (last : Option Line) : Text :=
  (last.map Line.render).getD []

namespace Document

/- The text of a document. -/
def render (document : Document) : Text :=
  renderEnded document.ended ++ renderLast document.last

/- The rows that a document says. -/
def rows (document : Document) : List (List Text) :=
  (document.ended.map fun line => line.1.fields) ++
    (document.last.map Line.fields).toList

/-
  Every row can be seen: the last one is not blank, and no blank
  row between a bare carriage return and a line feed takes the
  two for one line end.
-/
structure Readable (document : Document) : Prop where
  last : ∀ line ∈ document.last, ¬line.Blank
  ended :
    document.ended.IsChain fun a b =>
      ¬(a.2 = .cr ∧ b.1.Blank ∧ b.2 = .lf)

end Document

----------------
-- Reading a Field
----------------

/- After a field, which is still to be added to its row. -/
def Scanner.after
    (rows : List (List Text))
    (row : List Text)
    (cell : Cell) : Scanner :=
  { rows := rows
    row := row
    field := cell.text
    quoted := false
    closed := cell.quoted
    started := cell.quoted || !cell.text.isEmpty }

/- What one character does. -/
theorem csvFrom_cons
    (scanner : Scanner)
    (c : Char)
    (rest : Text) :
    csvFrom scanner (c :: rest) =
      if scanner.quoted then
        if c = '"' then
          match rest with
          | '"' :: rest => csvFrom (scanner.push '"') rest
          | rest =>
              csvFrom
                { scanner with quoted := false, closed := true }
                rest
        else
          csvFrom (scanner.push c) rest
      else if c = ',' then
        csvFrom scanner.endField rest
      else if c = '\n' then
        csvFrom scanner.endRow rest
      else if c = '\r' then
        match rest with
        | '\n' :: rest => csvFrom scanner.endRow rest
        | rest => csvFrom scanner.endRow rest
      else if c = '"' && !scanner.started && !scanner.closed then
        csvFrom { scanner with quoted := true, started := true }
          rest
      else if scanner.closed || c = '"' then
        .error (.runtimeError "malformed CSV quoting")
      else
        csvFrom { scanner.push c with started := true } rest :=
  csvFrom.eq_def scanner (c :: rest)

theorem csvFrom_quote
    {scanner : Scanner}
    (hQuoted : scanner.quoted = true)
    {rest : Text}
    (hRest : rest.head? ≠ some '"') :
    csvFrom scanner ('"' :: rest) =
      csvFrom { scanner with quoted := false, closed := true }
        rest := by
  rw [csvFrom_cons]
  dsimp only
  rw [if_pos hQuoted, if_pos rfl]
  cases rest with
  | nil => rfl
  | cons d rest =>
      have hOther : d ≠ '"' := fun hSame => hRest (hSame ▸ rfl)
      split
      · rename_i hSplit
        exact absurd (List.cons.inj hSplit).1 hOther
      · rfl

theorem csvFrom_quotedText
    {scanner : Scanner}
    (hQuoted : scanner.quoted = true)
    (text rest : Text) :
    csvFrom scanner (doubled text ++ rest) =
      csvFrom { scanner with field := scanner.field ++ text }
        rest := by
  induction text generalizing scanner with
  | nil => rw [List.append_nil, doubled, List.flatMap_nil]; rfl
  | cons c text ih =>
      have hNext := @ih (scanner.push c) hQuoted
      rw [Scanner.push, List.append_assoc] at hNext
      rw [doubled, List.flatMap_cons, List.append_assoc]
      split_ifs with hQuote
      · subst hQuote
        rw [List.cons_append, List.cons_append, List.nil_append]
        rw [csvFrom_cons]
        dsimp only
        rw [if_pos hQuoted, if_pos rfl]
        exact hNext
      · rw [List.cons_append, List.nil_append]
        rw [csvFrom_cons]
        dsimp only
        rw [if_pos hQuoted, if_neg hQuote]
        exact hNext

theorem csvFrom_plainText
    {scanner : Scanner}
    (hQuoted : scanner.quoted = false)
    (hClosed : scanner.closed = false)
    {text : Text}
    (hPlain : ∀ c ∈ text, special c = false)
    (rest : Text) :
    csvFrom scanner (text ++ rest) =
      csvFrom
        { scanner with
          field := scanner.field ++ text
          started := scanner.started || !text.isEmpty }
        rest := by
  induction text generalizing scanner with
  | nil =>
      rw [List.append_nil, List.nil_append, List.isEmpty_nil,
        Bool.not_true, Bool.or_false]
  | cons c text ih =>
      rw [List.forall_mem_cons] at hPlain
      have hChar := hPlain.1
      simp only [special, Bool.or_eq_false_iff,
        decide_eq_false_iff_not] at hChar
      rcases hChar with ⟨⟨⟨hQuote, hComma⟩, hLf⟩, hCr⟩
      have hNext :=
        @ih { scanner.push c with started := true } hQuoted
          hClosed hPlain.2
      rw [List.cons_append]
      rw [csvFrom_cons]
      dsimp only
      rw [hQuoted, if_neg Bool.false_ne_true, if_neg hComma, if_neg hLf,
        if_neg hCr, decide_eq_false hQuote, Bool.false_and,
        Bool.false_and, if_neg Bool.false_ne_true, hClosed,
        Bool.false_or, if_neg Bool.false_ne_true, hNext,
        Scanner.push]
      simp only [List.append_assoc, List.singleton_append,
        Bool.true_or, List.isEmpty_cons, Bool.not_false,
        Bool.or_true, hQuoted, hClosed]

/- One field, before anything but a quote. -/
theorem csvFrom_cell
    (rows : List (List Text))
    (row : List Text)
    (cell : Cell)
    {rest : Text}
    (hRest : rest.head? ≠ some '"') :
    csvFrom (Scanner.between rows row) (cell.render ++ rest) =
      csvFrom (Scanner.after rows row cell) rest := by
  cases hQuoted : cell.quoted with
  | true =>
      rw [Cell.render, if_pos hQuoted, List.cons_append,
        List.append_assoc]
      rw [csvFrom_cons]
      dsimp only
      simp only [Scanner.between, Bool.false_eq_true, if_false,
        Char.reduceEq, decide_true, Bool.not_false,
        Bool.and_true, if_true]
      rw [csvFrom_quotedText rfl, List.singleton_append,
        csvFrom_quote rfl hRest, Scanner.after, hQuoted]
      rfl
  | false =>
      rw [Cell.render, hQuoted, if_neg Bool.false_ne_true,
        csvFrom_plainText rfl rfl (cell.plain hQuoted),
        Scanner.after, hQuoted]
      rfl

theorem csvFrom_comma
    (rows : List (List Text))
    (row : List Text)
    (cell : Cell)
    (rest : Text) :
    csvFrom (Scanner.after rows row cell) (',' :: rest) =
      csvFrom (Scanner.between rows (row ++ [cell.text]))
        rest := by
  rw [csvFrom_cons]
  dsimp only
  rw [Scanner.after, if_neg Bool.false_ne_true, if_pos rfl]
  rfl

----------------
-- Reading a Row
----------------

theorem head_others
    {others : List Cell}
    {rest : Text}
    (hRest : rest.head? ≠ some '"') :
    ((others.flatMap fun cell => ',' :: cell.render) ++
        rest).head? ≠ some '"' := by
  cases others with
  | nil => exact hRest
  | cons cell others =>
      rw [List.flatMap_cons, List.cons_append, List.cons_append,
        List.head?_cons]
      decide

/-
  The fields of a row, up to the last one, which is still to be
  added. The row is blank only if its one field is.
-/
theorem csvFrom_line
    (rows : List (List Text))
    (row : List Text)
    (line : Line)
    {rest : Text}
    (hRest : rest.head? ≠ some '"') :
    ∃ init cell,
      line.fields = init ++ [cell.text] ∧
        (init = [] → line.first = cell ∧ line.others = []) ∧
          csvFrom (Scanner.between rows row) (line.render ++ rest) =
            csvFrom (Scanner.after rows (row ++ init) cell)
              rest := by
  rcases line with ⟨first, others⟩
  rw [Line.render, Line.fields, List.append_assoc]
  dsimp only
  induction others generalizing row first with
  | nil =>
      refine ⟨[], first, rfl, fun _ => ⟨rfl, rfl⟩, ?_⟩
      rw [List.flatMap_nil, List.nil_append, List.append_nil]
      exact csvFrom_cell rows row first hRest
  | cons next others ih =>
      rcases ih (row ++ [first.text]) next with
        ⟨init, cell, hFields, -, hRun⟩
      refine ⟨first.text :: init, cell, ?_, nofun, ?_⟩
      · rw [List.map_cons, hFields]
        rfl
      · rw [csvFrom_cell rows row first (head_others hRest),
          List.flatMap_cons, List.cons_append, List.cons_append,
          csvFrom_comma, List.append_assoc, hRun,
          List.append_assoc, List.singleton_append]

/- A row is ended, unless its end is half of another. -/
theorem csvFrom_terminator
    (rows : List (List Text))
    (row : List Text)
    (cell : Cell)
    (terminator : Terminator)
    {rest : Text}
    (hRest : terminator = .cr → rest.head? ≠ some '\n') :
    csvFrom (Scanner.after rows row cell)
        (terminator.render ++ rest) =
      csvFrom (Scanner.between (rows ++ [row ++ [cell.text]]) [])
        rest := by
  cases terminator with
  | lf =>
      rw [Terminator.render, List.singleton_append,
        csvFrom_cons]
      dsimp only
      rw [Scanner.after, if_neg Bool.false_ne_true,
        if_neg (by decide), if_pos rfl]
      rfl
  | crlf =>
      rw [Terminator.render, List.cons_append,
        List.singleton_append, csvFrom_cons]
      dsimp only
      rw [Scanner.after, if_neg Bool.false_ne_true,
        if_neg (by decide), if_neg (by decide), if_pos rfl]
      rfl
  | cr =>
      rw [Terminator.render, List.singleton_append,
        csvFrom_cons]
      dsimp only
      rw [Scanner.after, if_neg Bool.false_ne_true,
        if_neg (by decide), if_neg (by decide), if_pos rfl]
      cases rest with
      | nil => rfl
      | cons d rest =>
          have hOther : d ≠ '\n' := fun hSame =>
            hRest rfl (hSame ▸ rfl)
          split
          · rename_i hSplit
            exact absurd (List.cons.inj hSplit).1 hOther
          · rfl

theorem head_terminator
    (terminator : Terminator)
    (rest : Text) :
    (terminator.render ++ rest).head? ≠ some '"' := by
  cases terminator with
  | lf => exact (by decide : some '\n' ≠ some '"')
  | cr => exact (by decide : some '\r' ≠ some '"')
  | crlf => exact (by decide : some '\r' ≠ some '"')

/- A row starts with a line feed only if it is blank. -/
theorem head_line
    {line : Line}
    {rest : Text}
    (hHead : (line.render ++ rest).head? = some '\n') :
    line.Blank ∧ rest.head? = some '\n' := by
  rcases line with ⟨⟨text, quoted, hPlain⟩, others⟩
  cases quoted with
  | true =>
      rw [Line.render, Cell.render, if_pos rfl, List.cons_append,
        List.cons_append, List.head?_cons] at hHead
      exact absurd hHead (by decide)
  | false =>
      rw [Line.render, Cell.render,
        if_neg Bool.false_ne_true] at hHead
      cases text with
      | cons c text =>
          rw [List.cons_append, List.cons_append,
            List.head?_cons] at hHead
          have hChar := hPlain rfl c List.mem_cons_self
          rw [Option.some.inj hHead] at hChar
          exact absurd hChar (by decide)
      | nil =>
          cases others with
          | cons cell others =>
              rw [List.nil_append, List.flatMap_cons,
                List.cons_append, List.cons_append,
                List.head?_cons] at hHead
              exact absurd hHead (by decide)
          | nil => exact ⟨⟨rfl, rfl, rfl⟩, hHead⟩

/- The last row needs no terminator if it is not blank. -/
theorem finish_after
    (rows : List (List Text))
    {row : List Text}
    {cell : Cell}
    (hSeen :
      row = [] → cell.quoted = true ∨ cell.text ≠ []) :
    (Scanner.after rows row cell).finish =
      .ok (rows ++ [row ++ [cell.text]]) := by
  have hMore :
      ((cell.quoted || !cell.text.isEmpty) || cell.quoted ||
          !row.isEmpty) = true := by
    simp only [Bool.or_eq_true, Bool.not_eq_true',
      List.isEmpty_eq_false_iff]
    by_cases hRow : row = []
    · rcases hSeen hRow with hQuoted | hText
      · exact Or.inl (Or.inr hQuoted)
      · exact Or.inl (Or.inl (Or.inr hText))
    · exact Or.inr hRow
  unfold Scanner.finish Scanner.after
  rw [if_neg Bool.false_ne_true, if_pos hMore]
  rfl

----------------
-- Reading a Document
----------------

/- The rows with terminators, one after another. -/
theorem csvFrom_ended
    {ended : List (Line × Terminator)}
    (hApart :
      ended.IsChain fun a b =>
        ¬(a.2 = .cr ∧ b.1.Blank ∧ b.2 = .lf))
    {rest : Text}
    (hRest : rest.head? ≠ some '\n')
    (rows : List (List Text)) :
    csvFrom (Scanner.between rows [])
        (renderEnded ended ++ rest) =
      csvFrom
        (Scanner.between
          (rows ++ ended.map fun line => line.1.fields) [])
        rest := by
  induction ended generalizing rows with
  | nil => rw [List.map_nil, List.append_nil]; rfl
  | cons line ended ih =>
      rw [renderEnded, List.flatMap_cons, ← renderEnded,
        List.append_assoc, List.append_assoc]
      rcases
        csvFrom_line rows [] line.1
          (head_terminator line.2 (renderEnded ended ++ rest)) with
        ⟨init, cell, hFields, -, hRun⟩
      -- a bare carriage return is not followed by a line feed
      have hNext :
          line.2 = .cr →
            (renderEnded ended ++ rest).head? ≠ some '\n' := by
        intro hCr hHead
        cases ended with
        | nil => exact hRest hHead
        | cons next ended =>
            rw [renderEnded, List.flatMap_cons,
              List.append_assoc, List.append_assoc] at hHead
            rcases head_line hHead with ⟨hBlank, hEnd⟩
            rw [List.isChain_cons_cons] at hApart
            refine hApart.1 ⟨hCr, hBlank, ?_⟩
            cases hLf : next.2 with
            | lf => rfl
            | cr =>
                rw [hLf, Terminator.render, List.singleton_append,
                  List.head?_cons] at hEnd
                exact absurd hEnd (by decide)
            | crlf =>
                rw [hLf, Terminator.render, List.cons_append,
                  List.head?_cons] at hEnd
                exact absurd hEnd (by decide)
      rw [hRun, List.nil_append,
        csvFrom_terminator rows init cell line.2 hNext, ← hFields,
        ih hApart.tail, List.append_assoc, List.singleton_append,
        List.map_cons]

/- Reading inverts writing where every row can be seen. -/
theorem csv_render
    (document : Document)
    (hReadable : document.Readable) :
    csv document.render = .ok document.rows := by
  rcases document with ⟨ended, last⟩
  rw [csv, Document.render, Document.rows]
  have hLast :
      (renderLast last).head? ≠ some '\n' := by
    cases last with
    | none => exact nofun
    | some line =>
        intro hHead
        rw [renderLast, Option.map_some, Option.getD_some,
          ← List.append_nil line.render] at hHead
        exact hReadable.last line rfl (head_line hHead).1
  rw [csvFrom_ended hReadable.ended hLast, List.nil_append]
  cases last with
  | none =>
      rw [Option.map_none, Option.toList_none, List.append_nil]
      rfl
  | some line =>
      have hEnd : ([] : Text).head? ≠ some '"' := nofun
      rcases
        csvFrom_line (ended.map fun line => line.1.fields) [] line
          hEnd with
        ⟨init, cell, hFields, hOne, hRun⟩
      rw [List.append_nil, List.nil_append] at hRun
      have hSeen :
          init = [] → cell.quoted = true ∨ cell.text ≠ [] := by
        intro hInit
        rcases hOne hInit with ⟨hFirst, hOthers⟩
        by_contra hNeither
        push Not at hNeither
        refine hReadable.last line rfl ⟨?_, ?_, hOthers⟩
        · rw [hFirst]
          exact Bool.eq_false_iff.mpr hNeither.1
        · rw [hFirst]
          exact hNeither.2
      rw [renderLast, Option.map_some, Option.getD_some, hRun,
        csvFrom, finish_after _ hSeen, ← hFields]
      rfl

/- A field without quotes, of plain characters. -/
def plainCell
    (text : Text)
    (hPlain : text.all (fun c => !special c) = true) : Cell where
  text := text
  quoted := false
  plain := fun _ c hMem => by
    simpa using List.all_eq_true.mp hPlain c hMem

/- A quoted cell may have any text. -/
def quotedCell (text : Text) : Cell where
  text := text
  quoted := true
  plain := nofun

/- A quoted field with a quote and a line end, and a blank row. -/
def mixedDocument : Document where
  ended :=
    [(⟨quotedCell ['a', '"', '\n'], [plainCell [] rfl]⟩, .cr),
      (⟨plainCell [] rfl, []⟩, .crlf)]
  last := some ⟨quotedCell [], []⟩

theorem csv_render_mixed :
    csv ['"', 'a', '"', '"', '\n', '"', ',', '\r', '\r', '\n',
        '"', '"'] =
      .ok [[['a', '"', '\n'], []], [[]], [[]]] :=
  csv_render mixedDocument
    ⟨fun line hLast => by
      cases hLast
      decide, by
      rw [mixedDocument, List.isChain_cons_cons]
      exact ⟨by decide, List.isChain_singleton _⟩⟩

/- A blank row between a carriage return and a line feed. -/
def hiddenDocument : Document where
  ended :=
    [(⟨plainCell ['a'] rfl, []⟩, .cr),
      (⟨plainCell [] rfl, []⟩, .lf),
      (⟨plainCell ['b'] rfl, []⟩, .lf)]
  last := none

/- The two are read as one line end, and the row is lost. -/
theorem csv_render_hidden :
    hiddenDocument.last = none ∧
      hiddenDocument.rows = [[['a']], [[]], [['b']]] ∧
      csv hiddenDocument.render = .ok [[['a']], [['b']]] := by
  decide

end Native

end BeamSearch
