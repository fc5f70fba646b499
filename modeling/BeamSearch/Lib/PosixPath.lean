import Mathlib.Data.List.Basic
import Mathlib.Tactic.Common

/-
  Paths of a file system, without looking at any file.

  A path has a root directory or not, and a list of names. An
  empty last name stands for a separator at the end. The normal
  form drops dots and lets a name cancel the two dots after it.

  Main declarations:
    * `Path`, `parse`, `append`, `parent`
    * `lexicallyNormal`
    * `IsNormal`
    * `lexicallyNormal_append`
-/

namespace PosixPath

/- A name between two slashes. -/
abbrev Name : Type :=
  List Char

/-
  A path by its names; a slash at the end is an empty last
  name.
-/
structure Path where
  rooted : Bool
  names : List Name
deriving DecidableEq, Repr

/- The name of the directory itself. -/
def dot : Name :=
  ['.']

/- The name of the directory above. -/
def dotDot : Name :=
  ['.', '.']

namespace Path

----------------
-- Operations
----------------

/- The path of a text. -/
def parse (text : List Char) : Path :=
  let names := (text.splitOn '/').filter fun name => name != []
  { rooted := text.head? == some '/'
    names :=
      if names != [] && text.getLast? == some '/' then
        names ++ [[]]
      else
        names }

/- Whether the path ends in a name. -/
def hasFilename (path : Path) : Bool :=
  match path.names.getLast? with
  | none => false
  | some name => name != []

/- The names without the separator at the end. -/
def stripped (path : Path) : List Name :=
  if path.names.getLast? = some [] then path.names.dropLast
  else path.names

/- A path below another one; a rooted path stands for itself. -/
def append (path other : Path) : Path :=
  if other.rooted then other
  else if other.names = [] then
    if path.hasFilename then
      { path with names := path.names ++ [[]] }
    else path
  else
    { path with names := path.stripped ++ other.names }

/- One name further down. -/
def child (path : Path) (name : Name) : Path :=
  path.append { rooted := false, names := [name] }

/- The path without its last name. -/
def parent (path : Path) : Path :=
  { path with names := path.names.dropLast }

/- One more name on the names so far, the last one first. -/
def pushName
    (rooted : Bool)
    (stack : List Name)
    (name : Name) : List Name :=
  if name = [] ∨ name = dot then stack
  else if name = dotDot then
    match stack with
    | [] => if rooted then [] else [dotDot]
    | top :: rest =>
        if top = dotDot then dotDot :: top :: rest else rest
  else name :: stack

/- Names that leave a separator where they end a path. -/
def vanishes (name : Name) : Bool :=
  name = [] || name = dot || name = dotDot

/-
  The path with its dots resolved by the text alone. An empty
  result is the dot.
-/
def lexicallyNormal (path : Path) : Path :=
  if path.names = [] then path
  else
    let stack := path.names.foldl (pushName path.rooted) []
    let separated := path.names.getLast?.any vanishes
    { rooted := path.rooted
      names :=
        match stack with
        | [] => if path.rooted then [] else [dot]
        | top :: _ =>
            if separated && top != dotDot then stack.reverse ++ [[]]
            else stack.reverse }

/- The path as text. -/
def text (path : Path) : List Char :=
  (if path.rooted then ['/'] else []) ++
    ['/'].intercalate path.names

----------------
-- Normal Paths
----------------

/- A normal path without a separator at the end, not the dot. -/
structure IsNormal (path : Path) : Prop where
  normal : path.lexicallyNormal = path
  closed : path.names.getLast? ≠ some []
  named : path ≠ { rooted := false, names := [dot] }

/- A name that stands for itself. -/
def Plain (name : Name) : Prop :=
  name ≠ [] ∧ name ≠ dot ∧ name ≠ dotDot

/- Without a slash at the end there is nothing to strip. -/
theorem stripped_of_closed
    {path : Path}
    (hClosed : path.names.getLast? ≠ some []) :
    path.stripped = path.names :=
  if_neg hClosed

/- A plain name goes on the stack. -/
theorem pushName_plain
    (rooted : Bool)
    (stack : List Name)
    {name : Name}
    (hPlain : Plain name) :
    pushName rooted stack name = name :: stack := by
  have hKept : ¬(name = [] ∨ name = dot) := by
    rintro (hEmpty | hDot)
    · exact hPlain.1 hEmpty
    · exact hPlain.2.1 hDot
  rw [pushName.eq_def, if_neg hKept, if_neg hPlain.2.2]

/- So do several. -/
theorem foldl_pushName_plain
    (rooted : Bool)
    (stack : List Name)
    {names : List Name}
    (hPlain : ∀ name ∈ names, Plain name) :
    names.foldl (pushName rooted) stack =
      names.reverse ++ stack := by
  induction names generalizing stack with
  | nil => rfl
  | cons name names ih =>
      rw [List.forall_mem_cons] at hPlain
      rw [List.foldl_cons, pushName_plain rooted stack hPlain.1,
        ih _ hPlain.2, List.reverse_cons, List.append_assoc]
      rfl

/- The names of a normal path are already a stack. -/
theorem IsNormal.foldl_eq
    {path : Path}
    (hNormal : path.IsNormal) :
    path.names.foldl (pushName path.rooted) [] =
      path.names.reverse := by
  rcases path with ⟨rooted, names⟩
  by_cases hEmpty : names = []
  · subst hEmpty
    rfl
  have hNames := congrArg Path.names hNormal.normal
  have hClosed := hNormal.closed
  rw [lexicallyNormal, if_neg hEmpty] at hNames
  dsimp only at hNames hClosed ⊢
  cases hStack : names.foldl (pushName rooted) [] with
  | nil =>
      rw [hStack] at hNames
      dsimp only at hNames
      split_ifs at hNames with hRooted
      · exact absurd hNames.symm hEmpty
      · have hUnrooted : rooted = false :=
          Bool.eq_false_iff.mpr hRooted
        exact
          absurd (by rw [← hNames, hUnrooted]) hNormal.named
  | cons top rest =>
      rw [hStack] at hNames
      dsimp only at hNames
      split_ifs at hNames with hOpen
      · rw [← hNames, List.getLast?_append] at hClosed
        exact absurd rfl hClosed
      · rw [← hNames, List.reverse_reverse]

/- The child of a normal path. -/
theorem IsNormal.child
    {path : Path}
    (hNormal : path.IsNormal)
    (name : Name) :
    path.child name =
      { path with names := path.names ++ [name] } := by
  rw [Path.child, append, if_neg Bool.false_ne_true,
    if_neg (List.cons_ne_nil _ _),
    stripped_of_closed hNormal.closed]

/- A nonempty stack is kept, perhaps with a separator. -/
theorem lexicallyNormal_of_stack
    {rooted : Bool}
    {names kept : List Name}
    (hStack :
      names.foldl (pushName rooted) [] = kept.reverse)
    (hKept : kept ≠ []) :
    ∃ last, (last = [] ∨ last = [[]]) ∧
      ({ rooted := rooted, names := names } : Path).lexicallyNormal =
        { rooted := rooted, names := kept ++ last } := by
  have hNames : names ≠ [] := by
    rintro rfl
    exact hKept (List.reverse_eq_nil_iff.mp hStack.symm)
  rw [lexicallyNormal, if_neg hNames]
  dsimp only
  cases hReverse : kept.reverse with
  | nil => exact absurd (List.reverse_eq_nil_iff.mp hReverse) hKept
  | cons top rest =>
      rw [hStack, hReverse]
      dsimp only
      rw [← hReverse, List.reverse_reverse]
      split_ifs
      · exact ⟨[[]], Or.inr rfl, rfl⟩
      · exact ⟨[], Or.inl rfl, by rw [List.append_nil]⟩

/-
  Plain names below a path whose own names are a stack are kept
  as they are, with or without a separator at the end.
-/
theorem lexicallyNormal_append
    {path : Path}
    (hStack :
      path.names.foldl (pushName path.rooted) [] =
        path.names.reverse)
    (hClosed : path.names.getLast? ≠ some [])
    {names : List Name}
    (hPlain : ∀ name ∈ names, Plain name)
    {last : List Name}
    (hLast : last = [] ∨ last = [[]] ∧ names ≠ []) :
    ∃ last',
      (last' = [] ∨ last' = [[]]) ∧
        (path.append
            { rooted := false
              names := names ++ last }).lexicallyNormal =
          { path with names := path.names ++ names ++ last' } := by
  rcases path with ⟨rooted, own⟩
  dsimp only at hStack hClosed ⊢
  have hAll :
      (own ++ names).foldl (pushName rooted) [] =
        (own ++ names).reverse := by
    rw [List.foldl_append, hStack,
      foldl_pushName_plain rooted _ hPlain, List.reverse_append]
  have hSeparated :
      (own ++ names ++ [[]]).foldl (pushName rooted) [] =
        (own ++ names).reverse := by
    rw [List.foldl_append, hAll, List.foldl_cons, List.foldl_nil,
      pushName.eq_def, if_pos (Or.inl rfl)]
  rw [append, if_neg Bool.false_ne_true]
  by_cases hNone : names ++ last = []
  · rcases List.append_eq_nil_iff.mp hNone with ⟨rfl, rfl⟩
    simp only [List.append_nil, if_true] at hSeparated ⊢
    split_ifs with hFile
    · refine lexicallyNormal_of_stack hSeparated ?_
      rintro rfl
      exact absurd hFile Bool.false_ne_true
    · have hOwn : own = [] := by
        by_contra hSome
        rw [hasFilename,
          List.getLast?_eq_some_getLast hSome] at hFile
        rw [List.getLast?_eq_some_getLast hSome] at hClosed
        simp only [bne_iff_ne, ne_eq, not_not] at hFile
        exact hClosed (congrArg some hFile)
      subst hOwn
      exact ⟨[], Or.inl rfl, rfl⟩
  · rw [if_neg hNone, stripped_of_closed hClosed]
    rcases hLast with rfl | ⟨rfl, hNames⟩
    · rw [List.append_nil] at hNone ⊢
      refine lexicallyNormal_of_stack hAll fun hEmpty => ?_
      exact hNone (List.append_eq_nil_iff.mp hEmpty).2
    · dsimp only
      rw [← List.append_assoc]
      refine lexicallyNormal_of_stack hSeparated fun hEmpty => ?_
      exact hNames (List.append_eq_nil_iff.mp hEmpty).2

----------------
-- Ancestors
----------------

/- The parent has a name less. -/
theorem length_parent_lt
    {path : Path}
    (hNames : path.names ≠ []) :
    path.parent.names.length < path.names.length := by
  have hPos := List.length_pos_iff.mpr hNames
  rw [parent, List.length_dropLast]
  omega

end Path

end PosixPath
