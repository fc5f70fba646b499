import BeamSearch.Solve.PathText

/-
  The rows of a repair file.

  A file that starts with a brace is an object from puzzle ids to
  arrays of paths; any other file has a header line and a row a
  line. A cursor is the text that is still to be read.

  Main declarations:
    * `splitCsvLineSimple`
    * `trimAscii`
    * `parseJsonStringAt`
    * `readSolutionRows`
-/

namespace BeamSearch

open Text

namespace Solve

----------------
-- Pieces Of Text
----------------

/- A quote inside quotes is doubled. -/
def splitCsvFrom : Text → Text → Bool → List Text
  | [], current, _ => [current]
  | '"' :: '"' :: rest, current, true =>
      splitCsvFrom rest (current ++ ['"']) true
  | '"' :: rest, current, quoted =>
      splitCsvFrom rest current (!quoted)
  | c :: rest, current, quoted =>
      if c = ',' ∧ quoted = false then
        current :: splitCsvFrom rest [] quoted
      else
        splitCsvFrom rest (current ++ [c]) quoted

/- The fields of a line; a quote in a field is doubled. -/
def splitCsvLineSimple (line : Text) : List Text :=
  splitCsvFrom line [] false

/- The text without the space around it. -/
def trimAscii (text : Text) : Text :=
  (text.rdropWhile fun c =>
      c = '\r' || c = '\n' || c = ' ' || c = '\t').dropWhile
    fun c => c = ' ' || c = '\t'

/- The text behind the space. -/
def skipJsonWs (text : Text) : Text :=
  text.dropWhile fun c =>
    c = ' ' || c = '\n' || c = '\r' || c = '\t'

/- A decimal number of 64 bits, up to the first zero byte. -/
def parseU64
    (text : Text)
    (context : String) : Except Exception Nat :=
  let digits := text.takeWhile fun c => c.toNat != 0
  if digits = [] then
    .error (.runtimeError (context ++ ": empty integer"))
  else if digits.all Char.isDigit = false then
    .error
      (.runtimeError (context ++ ": invalid unsigned integer"))
  else if spelled digits ≥ 2 ^ 64 then
    .error (.runtimeError (context ++ ": integer overflow"))
  else
    .ok (spelled digits)

/-
  The character that an escape stands for; unicode escapes are
  not read.
-/
def unescape (escaped : Char) : Option Char :=
  if escaped = '"' ∨ escaped = '\\' ∨ escaped = '/' then
    some escaped
  else if escaped = 'n' then some '\n'
  else if escaped = 'r' then some '\r'
  else if escaped = 't' then some '\t'
  else none

/- The rest of a string behind its first quote. -/
def jsonStringFrom
    (context : String) :
    Text → Text → Except Exception (Text × Text)
  | [], _ =>
      .error
        (.runtimeError ("unterminated JSON string: " ++ context))
  | '"' :: rest, out => .ok (out, rest)
  | ['\\'], _ =>
      .error
        (.runtimeError ("unterminated JSON escape: " ++ context))
  | '\\' :: escaped :: rest, out =>
      match unescape escaped with
      | none =>
          .error
            (.runtimeError
              ("unsupported JSON escape in " ++ context))
      | some c => jsonStringFrom context rest (out ++ [c])
  | c :: rest, out => jsonStringFrom context rest (out ++ [c])

/- A string, and the text behind it. -/
def parseJsonStringAt
    (text : Text)
    (context : String) : Except Exception (Text × Text) :=
  match text with
  | '"' :: rest => jsonStringFrom context rest []
  | _ =>
      .error
        (.runtimeError ("expected JSON string: " ++ context))

theorem jsonStringFrom_length
    {context : String}
    {text out found rest : Text}
    (hRun : jsonStringFrom context text out = .ok (found, rest)) :
    rest.length < text.length := by
  fun_induction jsonStringFrom context text out with
  | case1 out => cases hRun
  | case2 text out =>
      cases hRun
      exact Nat.lt_succ_self _
  | case3 out => cases hRun
  | case4 escaped text out hEscape => cases hRun
  | case5 escaped text out c hEscape ih =>
      have hLt := ih hRun
      rw [List.length_cons, List.length_cons]
      omega
  | case6 c text out hQuote hEscape hSlash ih =>
      have hLt := ih hRun
      rw [List.length_cons]
      omega

theorem parseJsonStringAt_length
    {context : String}
    {text found rest : Text}
    (hRun : parseJsonStringAt text context = .ok (found, rest)) :
    rest.length < text.length := by
  unfold parseJsonStringAt at hRun
  split at hRun
  · have hLt := jsonStringFrom_length hRun
    rw [List.length_cons]
    omega
  · cases hRun

theorem skipJsonWs_length (text : Text) :
    (skipJsonWs text).length ≤ text.length :=
  (List.dropWhile_sublist _).length_le

----------------
-- The JSON Form
----------------

/- A puzzle and its path. -/
abbrev SolutionRow : Type :=
  Nat × Text

/- The paths of one puzzle, and the text behind the array. -/
def jsonPaths
    (puzzleId : Nat)
    (text : Text)
    (rows : List SolutionRow) :
    Except Exception (List SolutionRow × Text) :=
  match _hText : skipJsonWs text with
  | [] =>
      .error
        (.runtimeError
          "unterminated repair JSON solution array")
  | ']' :: rest => .ok (rows, rest)
  | c :: cursor =>
      match _hPath :
          parseJsonStringAt (c :: cursor)
            "repair solution path" with
      | .error error => .error error
      | .ok (path, behind) =>
          match _hBehind : skipJsonWs behind with
          | ',' :: rest =>
              jsonPaths puzzleId rest
                (rows ++ [(puzzleId, path)])
          | ']' :: rest =>
              jsonPaths puzzleId (']' :: rest)
                (rows ++ [(puzzleId, path)])
          | _ =>
              .error
                (.runtimeError
                  "expected ',' or ']' in repair JSON solution array")
termination_by text.length
decreasing_by
  all_goals
    have hStart := skipJsonWs_length text
    have hString := parseJsonStringAt_length _hPath
    have hRest := skipJsonWs_length behind
    rw [_hText] at hStart
    rw [_hBehind] at hRest
    simp only [List.length_cons] at hStart hString hRest ⊢
    omega

theorem jsonPaths_length
    {puzzleId : Nat}
    {text rest : Text}
    {rows found : List SolutionRow}
    (hRun : jsonPaths puzzleId text rows = .ok (found, rest)) :
    rest.length < text.length := by
  fun_induction jsonPaths puzzleId text rows with
  | case1 text rows hText => cases hRun
  | case2 text rows behind hText =>
      cases hRun
      have hStart := skipJsonWs_length text
      rw [hText] at hStart
      exact hStart
  | case3 text rows c cursor hBracket hText error hPath =>
      cases hRun
  | case4 text rows c cursor hBracket hText path behind hPath
      more hBehind ih =>
      have hLt := ih hRun
      have hStart := skipJsonWs_length text
      have hString := parseJsonStringAt_length hPath
      have hRest := skipJsonWs_length behind
      rw [hText] at hStart
      rw [hBehind] at hRest
      simp only [List.length_cons] at hStart hString hRest
      omega
  | case5 text rows c cursor hBracket hText path behind hPath
      more hBehind ih =>
      have hLt := ih hRun
      have hStart := skipJsonWs_length text
      have hString := parseJsonStringAt_length hPath
      have hRest := skipJsonWs_length behind
      rw [hText] at hStart
      rw [hBehind] at hRest
      simp only [List.length_cons] at hStart hString hRest hLt
      omega
  | case6 text rows c cursor hBracket hText path behind hPath
      hComma hEnd =>
      cases hRun

/- A comma behind an array may be left out. -/
def skipComma : Text → Text
  | ',' :: rest => rest
  | text => text

theorem skipComma_length (text : Text) :
    (skipComma text).length ≤ text.length := by
  unfold skipComma
  split
  · exact Nat.le_succ _
  · exact le_rfl

/- The rows of an object, pair by pair. -/
def jsonRows
    (text : Text)
    (rows : List SolutionRow) :
    Except Exception (List SolutionRow) :=
  match _hText : skipJsonWs text with
  | [] =>
      .error
        (.runtimeError "unterminated repair solutions JSON object")
  | '}' :: _ => .ok rows
  | c :: cursor =>
      match _hKey :
          parseJsonStringAt (c :: cursor) "repair puzzle_id" with
      | .error error => .error error
      | .ok (key, behind) =>
          match parseU64 (trimAscii key) "repair puzzle_id" with
          | .error error => .error error
          | .ok puzzleId =>
              match _hBehind : skipJsonWs behind with
              | ':' :: value =>
                  match _hValue : skipJsonWs value with
                  | '[' :: items =>
                      match _hItems :
                          jsonPaths puzzleId items rows with
                      | .error error => .error error
                      | .ok (rows, rest) =>
                          jsonRows (skipComma (skipJsonWs rest))
                            rows
                  | _ =>
                      .error
                        (.runtimeError
                          "expected solution array in repair JSON")
              | _ =>
                  .error
                    (.runtimeError
                      "expected ':' after repair JSON puzzle id")
termination_by text.length
decreasing_by
  have hStart := skipJsonWs_length text
  have hString := parseJsonStringAt_length _hKey
  have hColon := skipJsonWs_length behind
  have hBracket := skipJsonWs_length value
  have hArray := jsonPaths_length _hItems
  have hRest := skipJsonWs_length rest
  have hComma := skipComma_length (skipJsonWs rest)
  rw [_hText] at hStart
  rw [_hBehind] at hColon
  rw [_hValue] at hBracket
  simp only [List.length_cons] at hStart hString hColon hBracket
  omega

----------------
-- The Line Form
----------------

/- The lines of a stream; a last line break ends the last line. -/
def getLines (text : Text) : List Text :=
  let lines := text.splitOn '\n'
  if lines.getLast? = some [] then lines.dropLast else lines

/- Where a file has its two columns. -/
structure Columns where
  id : Nat
  path : Nat
deriving DecidableEq, Repr

/- A column by its name; a later one wins. -/
def chooseColumn (columns : Columns) (column : Text × Nat) :
    Columns :=
  let name := String.ofList (trimAscii column.1)
  if name = "initial_state_id" ∨ name = "id" ∨
      name = "puzzle_id" then
    { columns with id := column.2 }
  else if name = "path" ∨ name = "solution" then
    { columns with path := column.2 }
  else
    columns

/- Without names the first and the last column are read. -/
def readColumns (header : Text) : Columns :=
  let names := splitCsvLineSimple header
  names.zipIdx.foldl chooseColumn
    { id := 0
      path := names.length - 1 }

/- Empty lines and short ones say nothing. -/
def readCsvLine
    (columns : Columns)
    (line : Text) : Except Exception (Option SolutionRow) :=
  let fields := splitCsvLineSimple line
  match fields[columns.id]?, fields[columns.path]? with
  | some id, some path =>
      if line = [] then .ok none
      else
        match parseU64 (trimAscii id) "repair puzzle_id" with
        | .error error => .error error
        | .ok puzzleId =>
            .ok (some (puzzleId, trimAscii path))
  | _, _ => .ok none

/- The rows of a file of lines. -/
def csvRows (text : Text) : Except Exception (List SolutionRow) :=
  match getLines text with
  | [] =>
      .error
        (.runtimeError "repair solutions csv is empty")
  | header :: lines => do
      let rows ← lines.mapM (readCsvLine (readColumns header))
      pure (rows.filterMap id)

/- The first character tells the two kinds of file apart. -/
def readSolutionRows
    (text : Text) : Except Exception (List SolutionRow) :=
  if text = [] then
    .error (.runtimeError "repair solutions csv is empty")
  else
    match skipJsonWs text with
    | '{' :: rest => jsonRows rest []
    | _ => csvRows text

end Solve

end BeamSearch
