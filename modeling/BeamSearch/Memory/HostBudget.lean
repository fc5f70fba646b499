import Mathlib.Order.Bounds.Basic
import Mathlib.Order.MinMax
import BeamSearch.Core.Errors
import BeamSearch.Lib.PosixPath
import BeamSearch.Lib.Text
import BeamSearch.Memory.RuntimeConfig

/-
  The bytes of host memory a run may ask for.

  The kernel's estimate is cut by the limits of the memory
  control groups: the controller root, and for each group of the
  process every directory up to the root. In the first hierarchy
  the controller has a directory of its own.

  Main declarations:
    * `availableBytes`
    * `Reads`, `Encloses`
    * `availableBytes_eq_ok_iff`
-/

namespace BeamSearch

open PosixPath
open Text (Text allDigits spelled splitOnce)

namespace Memory

namespace HostBudget

----------------
-- Files
----------------

/- A file that is missing, cannot be read, or has a text. -/
inductive File where
  | missing
  | unreadable
  | text (content : Text)
deriving DecidableEq, Repr

/- The files of the host. -/
abbrev Files : Type :=
  Path → File

/- The space of the C locale. -/
def isSpace (c : Char) : Bool :=
  (9 ≤ c.toNat && c.toNat ≤ 13) || c.toNat == 32

/- The words of an input stream. -/
def tokens (text : Text) : List Text :=
  (text.splitOnP isSpace).filter fun token => token != []

/- The lines; nothing follows a line end at the end. -/
def getlines (text : Text) : List Text :=
  let rows := text.splitOn '\n'
  if rows.getLast? = some [] then rows.dropLast else rows

/- A file that cannot be read has no rows. -/
def rowsOf : File → List Text
  | .text content => getlines content
  | _ => []

/- A count of bytes: digits only, and a 64-bit word. -/
def decimal (text : Text) : Except Exception Nat :=
  if allDigits text && decide (spelled text < 2 ^ 64) then
    .ok (spelled text)
  else
    .error (.runtimeError "malformed host memory byte count")

/- What the source throws for a file it cannot parse. -/
def unparsed (path : Path) : Exception :=
  .runtimeError
    ("cannot parse host memory file: " ++
      String.ofList path.text)

/- A file with one token in it. -/
def tokenFile
    (files : Files)
    (path : Path) : Except Exception Text :=
  match files path with
  | .text content =>
      match tokens content with
      | [token] => .ok token
      | _ => .error (unparsed path)
  | _ => .error (unparsed path)

----------------
-- The Estimate of the Kernel
----------------

/- The key of the row that is looked for. -/
def memKey : Text :=
  "MemAvailable:".toList

/- What the source throws for a row it cannot parse. -/
def malformedEstimate : Exception :=
  .runtimeError "malformed MemAvailable"

/- The bytes of the first row with the key. -/
def memAvailable : List Text → Except Exception Nat
  | [] =>
      .error
        (.runtimeError
          "MemAvailable unavailable for native host preflight")
  | row :: rows =>
      match tokens row with
      | [] => memAvailable rows
      | key :: fields =>
          if key ≠ memKey then memAvailable rows
          else
            match fields with
            | [value, unit] =>
                if unit ≠ ['k', 'B'] then .error malformedEstimate
                else do
                  let kib ← decimal value
                  if kib > uint64Limit / 1024 then
                    .error
                      (.overflowError
                        "MemAvailable byte count overflow")
                  else
                    .ok (kib * 1024)
            | _ => .error malformedEstimate

----------------
-- Control Groups
----------------

/- A directory of the second hierarchy, or of the first. -/
structure Location where
  path : Path
  v2 : Bool
deriving DecidableEq, Repr

/- The name of the memory controller. -/
def memoryName : Name :=
  "memory".toList

/- Where the groups of a version start. -/
def baseOf (root : Path) (v2 : Bool) : Path :=
  if v2 then root else root.child memoryName

/- What the source throws for a path that leaves the root. -/
def invalidGroup : Exception :=
  .runtimeError "invalid native memory cgroup path"

/- The hierarchy and the group of a row about memory. -/
def memoryRow (row : Text) : Option (Bool × Text) := do
  let first ← splitOnce ':' row
  let second ← splitOnce ':' first.2
  if second.1 = [] then
    some (true, second.2)
  else if
      Text.contains ",memory,".toList
        ([','] ++ second.1 ++ [',']) then
    some (false, second.2)
  else
    none

/-
  The path of a group, relative to its root. Dots are refused,
  not resolved.
-/
def memberPath (member : Text) : Except Exception Path :=
  if member.head? ≠ some '/' then
    .error invalidGroup
  else
    let relative := Path.parse member.tail
    if relative.names.any fun part =>
        part = dotDot || part = dot then
      .error invalidGroup
    else
      .ok relative

/- The directories from a group up to its base. -/
def walk (base current : Path) : Except Exception (List Path) :=
  if current = base then
    .ok []
  else if _ : current.names = [] then
    .error
      (.runtimeError "native cgroup path escaped controller root")
  else do
    let rest ← walk base current.parent
    .ok (current :: rest)
termination_by current.names.length
decreasing_by exact Path.length_parent_lt ‹current.names ≠ []›

/- The group and all groups above it. -/
def memberLocations
    (root : Path)
    (group : Bool × Text) : Except Exception (List Location) := do
  let relative ← memberPath group.2
  let base := baseOf root group.1
  let paths ← walk base (base.append relative).lexicallyNormal
  .ok (paths.map fun path => { path := path, v2 := group.1 })

/-
  The places that are read: without memberships the two roots.
-/
def locations
    (files : Files)
    (root membership : Path) : Except Exception (List Location) :=
  let roots : List Location :=
    [{ path := root, v2 := true },
      { path := root.child memoryName, v2 := false }]
  match files membership with
  | .missing => .ok roots
  | .unreadable =>
      .error
        (.runtimeError "cannot read native cgroup membership")
  | .text content => do
      let groups ←
        ((getlines content).filterMap memoryRow).mapM
          (memberLocations root)
      .ok (roots ++ groups.flatten)

----------------
-- Limits
----------------

/- The file of the limit. -/
def limitName (v2 : Bool) : Name :=
  if v2 then "memory.max".toList
  else "memory.limit_in_bytes".toList

/- The file of the usage. -/
def usageName (v2 : Bool) : Name :=
  if v2 then "memory.current".toList
  else "memory.usage_in_bytes".toList

/- What one directory leaves, if it has a limit. -/
def reading
    (files : Files)
    (location : Location) : Except Exception (Option Nat) :=
  let limitPath := location.path.child (limitName location.v2)
  let usagePath := location.path.child (usageName location.v2)
  if files limitPath = .missing ∧ files usagePath = .missing then
    .ok none
  else do
    let text ← tokenFile files limitPath
    if location.v2 ∧ text = "max".toList then
      .ok none
    else do
      let limit ← decimal text
      let used ← tokenFile files usagePath
      let usage ← decimal used
      if ¬location.v2 ∧ 2 ^ 60 ≤ limit then
        .ok none
      else
        .ok (some (if limit ≤ usage then 0 else limit - usage))

/- A bound only lowers what is available. -/
def lowered (available : Nat) : Option Nat → Nat
  | none => available
  | some bytes => min available bytes

/- One place more. -/
def cut
    (files : Files)
    (available : Nat)
    (location : Location) : Except Exception Nat := do
  let bound ← reading files location
  .ok (lowered available bound)

/- What the host has available, lowered by every group. -/
def availableBytes
    (files : Files)
    (meminfo cgroupRoot membership : Path) :
    Except Exception Nat := do
  let available ← memAvailable (rowsOf (files meminfo))
  let found ← locations files cgroupRoot.lexicallyNormal membership
  found.foldlM (cut files) available

----------------
-- What the Files Say
----------------

/- A file with one word, a number of 64 bits. -/
def Holds (files : Files) (path : Path) (n : Nat) : Prop :=
  ∃ content digits,
    files path = .text content ∧ tokens content = [digits] ∧
      allDigits digits = true ∧ spelled digits = n ∧ n < 2 ^ 64

/- A file with one word, which says there is no limit. -/
def Unlimited (files : Files) (path : Path) : Prop :=
  ∃ content,
    files path = .text content ∧
      tokens content = ["max".toList]

/- What a directory leaves, if it has a finite limit. -/
inductive Reads
    (files : Files)
    (v2 : Bool)
    (path : Path) : Option Nat → Prop where
  | absent
      (hLimit : files (path.child (limitName v2)) = .missing)
      (hUsage : files (path.child (usageName v2)) = .missing) :
      Reads files v2 path none
  | unlimited
      (hVersion : v2 = true)
      (hLimit : Unlimited files (path.child (limitName v2))) :
      Reads files v2 path none
  | huge
      {limit usage : Nat}
      (hVersion : v2 = false)
      (hLimit : Holds files (path.child (limitName v2)) limit)
      (hUsage : Holds files (path.child (usageName v2)) usage)
      (hHuge : 2 ^ 60 ≤ limit) :
      Reads files v2 path none
  | finite
      {limit usage : Nat}
      (hLimit : Holds files (path.child (limitName v2)) limit)
      (hUsage : Holds files (path.child (usageName v2)) usage)
      (hFinite : v2 = true ∨ limit < 2 ^ 60) :
      Reads files v2 path (some (limit - usage))

/- A count is read exactly where it is digits and a word. -/
theorem decimal_eq_ok_iff
    (text : Text)
    (n : Nat) :
    decimal text = .ok n ↔
      allDigits text = true ∧ spelled text = n ∧ n < 2 ^ 64 := by
  rw [decimal]
  split_ifs with hDigits
  · rw [Bool.and_eq_true, decide_eq_true_eq] at hDigits
    constructor
    · intro hRun
      cases hRun
      exact ⟨hDigits.1, rfl, hDigits.2⟩
    · rintro ⟨-, rfl, -⟩
      rfl
  · refine iff_of_false (fun hRun => nomatch hRun) ?_
    rintro ⟨hAll, rfl, hFits⟩
    exact hDigits (by rw [hAll, decide_eq_true hFits]; rfl)

/- A file is read exactly where it has one token. -/
theorem tokenFile_eq_ok_iff
    (files : Files)
    (path : Path)
    (token : Text) :
    tokenFile files path = .ok token ↔
      ∃ content, files path = .text content ∧
        tokens content = [token] := by
  unfold tokenFile
  split
  · rename_i content hFile
    split
    · rename_i single hTokens
      constructor
      · intro hRun
        cases hRun
        exact ⟨content, hFile, hTokens⟩
      · rintro ⟨other, hOther, hSame⟩
        rw [hFile] at hOther
        cases hOther
        rw [hTokens] at hSame
        cases hSame
        rfl
    · rename_i hMany
      refine iff_of_false (fun hRun => nomatch hRun) ?_
      rintro ⟨other, hOther, hSame⟩
      rw [hFile] at hOther
      cases hOther
      exact hMany token hSame
  · rename_i hNone
    refine iff_of_false (fun hRun => nomatch hRun) ?_
    rintro ⟨other, hOther, -⟩
    exact hNone other hOther

/- A number is read where the file holds it. -/
theorem holds_iff
    (files : Files)
    (path : Path)
    (n : Nat) :
    Holds files path n ↔
      ∃ token, tokenFile files path = .ok token ∧
        decimal token = .ok n := by
  simp only [tokenFile_eq_ok_iff, decimal_eq_ok_iff]
  constructor
  · rintro ⟨content, digits, hFile, hTokens, hNumber⟩
    exact ⟨digits, ⟨content, hFile, hTokens⟩, hNumber⟩
  · rintro ⟨digits, ⟨content, hFile, hTokens⟩, hNumber⟩
    exact ⟨content, digits, hFile, hTokens, hNumber⟩

/- The word for no limit is no count. -/
theorem decimal_max (n : Nat) : decimal "max".toList ≠ .ok n :=
  fun hRun =>
    absurd ((decimal_eq_ok_iff _ n).mp hRun).1 (by decide)

/- One directory is read as the files say. -/
theorem reading_eq_ok_iff
    (files : Files)
    (location : Location)
    (bound : Option Nat) :
    reading files location = .ok bound ↔
      Reads files location.v2 location.path bound := by
  rcases location with ⟨path, v2⟩
  unfold reading
  dsimp only
  by_cases hAbsent :
      files (path.child (limitName v2)) = .missing ∧
        files (path.child (usageName v2)) = .missing
  · rw [if_pos hAbsent]
    constructor
    · intro hRun
      cases hRun
      exact Reads.absent hAbsent.1 hAbsent.2
    · intro hReads
      cases hReads with
      | absent => rfl
      | unlimited _ hLimit =>
          rcases hLimit with ⟨content, hFile, -⟩
          exact absurd (hAbsent.1.symm.trans hFile) nofun
      | huge _ hLimit =>
          rcases hLimit with ⟨content, digits, hFile, -⟩
          exact absurd (hAbsent.1.symm.trans hFile) nofun
      | finite hLimit =>
          rcases hLimit with ⟨content, digits, hFile, -⟩
          exact absurd (hAbsent.1.symm.trans hFile) nofun
  · rw [if_neg hAbsent]
    constructor
    · intro hRun
      rcases except_bind_eq_ok hRun with ⟨text, hText, hRun⟩
      split_ifs at hRun with hMax
      · cases hRun
        rcases (tokenFile_eq_ok_iff ..).mp hText with
          ⟨content, hFile, hTokens⟩
        rw [hMax.2] at hTokens
        exact Reads.unlimited hMax.1 ⟨content, hFile, hTokens⟩
      · rcases except_bind_eq_ok hRun with ⟨limit, hLimit, hRun⟩
        rcases except_bind_eq_ok hRun with ⟨used, hUsed, hRun⟩
        rcases except_bind_eq_ok hRun with ⟨usage, hUsage, hRun⟩
        have hHoldsLimit := (holds_iff ..).mpr ⟨_, hText, hLimit⟩
        have hHoldsUsage := (holds_iff ..).mpr ⟨_, hUsed, hUsage⟩
        split_ifs at hRun with hHuge hUsed
        · cases hRun
          exact
            Reads.huge (Bool.eq_false_iff.mpr hHuge.1) hHoldsLimit
              hHoldsUsage hHuge.2
        · cases hRun
          have hLeft : 0 = limit - usage := by omega
          rw [hLeft]
          refine Reads.finite hHoldsLimit hHoldsUsage ?_
          by_contra hOver
          push Not at hOver
          exact hHuge hOver
        · cases hRun
          refine Reads.finite hHoldsLimit hHoldsUsage ?_
          by_contra hOver
          push Not at hOver
          exact hHuge hOver
    · intro hReads
      cases hReads with
      | absent hLimit hUsage => exact absurd ⟨hLimit, hUsage⟩ hAbsent
      | unlimited hVersion hLimit =>
          rw [(tokenFile_eq_ok_iff ..).mpr hLimit, except_ok_bind,
            if_pos ⟨hVersion, rfl⟩]
      | @huge limit usage hVersion hLimit hUsage hHuge =>
          rcases (holds_iff ..).mp hLimit with
            ⟨text, hText, hLimit⟩
          rcases (holds_iff ..).mp hUsage with
            ⟨used, hUsed, hUsage⟩
          have hNotV2 : ¬v2 = true := by rw [hVersion]; decide
          rw [hText, except_ok_bind,
            if_neg (fun hMax => hNotV2 hMax.1), hLimit,
            except_ok_bind, hUsed, except_ok_bind, hUsage,
            except_ok_bind, if_pos ⟨hNotV2, hHuge⟩]
      | @finite limit usage hLimit hUsage hFinite =>
          rcases (holds_iff ..).mp hLimit with
            ⟨text, hText, hLimit⟩
          rcases (holds_iff ..).mp hUsage with
            ⟨used, hUsed, hUsage⟩
          have hNumber : ¬(v2 = true ∧ text = "max".toList) := by
            rintro ⟨-, rfl⟩
            exact decimal_max limit hLimit
          have hSmall : ¬(¬v2 = true ∧ 2 ^ 60 ≤ limit) := by
            rintro ⟨hV1, hHuge⟩
            rcases hFinite with hV2 | hLess
            · exact hV1 hV2
            · omega
          rw [hText, except_ok_bind, if_neg hNumber, hLimit,
            except_ok_bind, hUsed, except_ok_bind, hUsage,
            except_ok_bind, if_neg hSmall]
          split_ifs with hLess
          · rw [Nat.sub_eq_zero_of_le hLess]
          · rfl

----------------
-- The Minimum
----------------

/- What the directories with a limit leave. -/
def bounds (files : Files) (found : List Location) : Set Nat :=
  { b | ∃ location ∈ found,
    Reads files location.v2 location.path (some b) }

/- The least of a union, one bound taken out. -/
theorem isLeast_min_union
    (a b r : Nat)
    (S : Set Nat) :
    IsLeast ({min a b} ∪ S) r ↔ IsLeast ({a} ∪ ({b} ∪ S)) r := by
  simp only [IsLeast, mem_lowerBounds, Set.mem_union,
    Set.mem_singleton_iff, forall_eq_or_imp, Nat.le_min]
  constructor
  · rintro ⟨hMem, ⟨hA, hB⟩, hS⟩
    refine ⟨?_, hA, hB, hS⟩
    rcases hMem with rfl | hMem
    · rcases min_choice a b with hMin | hMin
      · exact Or.inl hMin
      · exact Or.inr (Or.inl hMin)
    · exact Or.inr (Or.inr hMem)
  · rintro ⟨hMem, hA, hB, hS⟩
    refine ⟨?_, ⟨hA, hB⟩, hS⟩
    rcases hMem with rfl | rfl | hMem
    · exact Or.inl (min_eq_left hB).symm
    · exact Or.inl (min_eq_right hA).symm
    · exact Or.inr hMem

/- A place reads one bound. -/
theorem Reads.unique
    {files : Files}
    {location : Location}
    {bound bound' : Option Nat}
    (hReads : Reads files location.v2 location.path bound)
    (hReads' : Reads files location.v2 location.path bound') :
    bound = bound' := by
  rw [← reading_eq_ok_iff] at hReads hReads'
  rw [hReads] at hReads'
  exact Except.ok.inj hReads'

/- The bounds of one directory more. -/
theorem isLeast_bounds_cons
    {files : Files}
    {location : Location}
    {bound : Option Nat}
    (hReads : Reads files location.v2 location.path bound)
    (found : List Location)
    (available result : Nat) :
    IsLeast ({lowered available bound} ∪ bounds files found)
        result ↔
      IsLeast ({available} ∪ bounds files (location :: found))
        result := by
  have hCons :
      ∀ b, b ∈ bounds files (location :: found) ↔
        bound = some b ∨ b ∈ bounds files found := by
    intro b
    simp only [bounds, Set.mem_ofPred_eq, List.mem_cons,
      or_and_right, exists_or, exists_eq_left]
    refine or_congr_left ⟨hReads.unique, fun hBound => ?_⟩
    rw [← hBound]
    exact hReads
  cases bound with
  | none =>
      have hSame :
          bounds files (location :: found) = bounds files found :=
        Set.ext fun b =>
          (hCons b).trans (or_iff_right nofun)
      rw [hSame]
      exact Iff.rfl
  | some bytes =>
      have hSame :
          bounds files (location :: found) =
            {bytes} ∪ bounds files found :=
        Set.ext fun b => by
          rw [hCons b, Option.some_inj, Set.mem_union,
            Set.mem_singleton_iff, eq_comm]
      rw [hSame]
      exact isLeast_min_union ..

/- Every directory is read, and the least bound is returned. -/
theorem foldlM_cut_eq_ok_iff
    (files : Files)
    (found : List Location)
    (available result : Nat) :
    found.foldlM (cut files) available = .ok result ↔
      (∀ location ∈ found,
          ∃ bound, Reads files location.v2 location.path bound) ∧
        IsLeast ({available} ∪ bounds files found) result := by
  induction found generalizing available with
  | nil =>
      have hNone : bounds files [] = ∅ :=
        Set.eq_empty_iff_forall_notMem.mpr fun b hMem => by
          rcases hMem with ⟨location, hMem, -⟩
          exact List.not_mem_nil hMem
      rw [hNone, Set.union_empty, List.foldlM_nil]
      constructor
      · intro hRun
        cases hRun
        exact ⟨nofun, isLeast_singleton⟩
      · rintro ⟨-, hLeast⟩
        rw [Set.mem_singleton_iff.mp hLeast.1]
        rfl
  | cons location found ih =>
      rw [List.foldlM_cons, List.forall_mem_cons]
      constructor
      · intro hRun
        rcases except_bind_eq_ok hRun with ⟨next, hCut, hRest⟩
        rcases except_bind_eq_ok hCut with ⟨bound, hBound, hNext⟩
        have hReads := (reading_eq_ok_iff ..).mp hBound
        rcases (ih next).mp hRest with ⟨hAll, hLeast⟩
        rw [← Except.ok.inj hNext] at hLeast
        exact
          ⟨⟨⟨bound, hReads⟩, hAll⟩,
            (isLeast_bounds_cons hReads found available result).mp
              hLeast⟩
      · rintro ⟨⟨⟨bound, hReads⟩, hAll⟩, hLeast⟩
        have hBound := (reading_eq_ok_iff ..).mpr hReads
        rw [cut, hBound, except_ok_bind, except_ok_bind, ih]
        exact
          ⟨hAll,
            (isLeast_bounds_cons hReads found available result).mpr
              hLeast⟩

----------------
-- The Groups of the Process
----------------

/- The names of a group below the controller. -/
def groupNames (tail : Text) : List Name :=
  (tail.splitOn '/').filter fun name => name != []

/- A group starts with a slash, and no name of it is a dot or two. -/
def WellFormedGroup (member : Text) : Prop :=
  ∃ tail, member = '/' :: tail ∧
    ∀ name ∈ groupNames tail, name ≠ dot ∧ name ≠ dotDot

/- A second slash would make the group a path of its own. -/
def Slashed (member : Text) : Prop :=
  ∃ tail, member = '/' :: '/' :: tail

/- A directory of the controller, from the root down to a group. -/
def Encloses
    (rows : List Text)
    (v2 : Bool)
    (names : List Name) : Prop :=
  names = [] ∨
    ∃ row ∈ rows, ∃ tail,
      memoryRow row = some (v2, '/' :: tail) ∧
        names <+: groupNames tail

/- The directory of a group. -/
def groupDir
    (root : Path)
    (v2 : Bool)
    (names : List Name) : Path :=
  { baseOf root v2 with names := (baseOf root v2).names ++ names }

/- The walk up from a directory below its base ends at the base. -/
theorem walk_of_below
    (base : Path)
    (names : List Name) :
    ∃ paths,
      walk base { base with names := base.names ++ names } =
          .ok paths ∧
        ∀ path, path ∈ paths ↔
          ∃ part, part ≠ [] ∧ part <+: names ∧
            path = { base with names := base.names ++ part } := by
  induction names using List.reverseRecOn with
  | nil =>
      refine ⟨[], ?_, fun path => ?_⟩
      · rw [walk, if_pos]
        rw [List.append_nil]
      · refine iff_of_false List.not_mem_nil ?_
        rintro ⟨part, hSome, hPrefix, -⟩
        exact hSome (List.prefix_nil.mp hPrefix)
  | append_singleton names name ih =>
      rcases ih with ⟨paths, hWalk, hPaths⟩
      have hHere :
          ({ base with names := base.names ++ (names ++ [name]) } :
            Path) ≠ base := by
        intro hSame
        have hLength :=
          congrArg (fun path => path.names.length) hSame
        simp at hLength
      have hNames : base.names ++ (names ++ [name]) ≠ [] := by
        simp
      have hParent :
          ({ base with names := base.names ++ (names ++ [name]) } :
            Path).parent =
            { base with names := base.names ++ names } := by
        rw [Path.parent]
        dsimp only
        rw [← List.append_assoc, List.dropLast_concat]
      refine
        ⟨{ base with names := base.names ++ (names ++ [name]) } ::
          paths, ?_, fun path => ?_⟩
      · rw [walk, if_neg hHere, dif_neg hNames, hParent, hWalk]
        rfl
      · rw [List.mem_cons, hPaths]
        constructor
        · rintro (rfl | ⟨part, hSome, hPrefix, rfl⟩)
          · exact ⟨_, by simp, List.prefix_rfl, rfl⟩
          · exact
              ⟨part, hSome,
                hPrefix.trans (List.prefix_append _ _), rfl⟩
        · rintro ⟨part, hSome, hPrefix, rfl⟩
          rcases List.prefix_concat_iff.mp hPrefix with
            rfl | hShort
          · exact Or.inl rfl
          · exact Or.inr ⟨part, hSome, hShort, rfl⟩

/-
  The names of a parsed path; a slash at the end adds an empty
  one.
-/
theorem names_parse (tail : Text) :
    ∃ last,
      (last = [] ∨ last = [[]] ∧ groupNames tail ≠ []) ∧
        (Path.parse tail).names = groupNames tail ++ last := by
  unfold Path.parse
  dsimp only
  rw [← groupNames]
  split_ifs with hOpen
  · rw [Bool.and_eq_true, bne_iff_ne] at hOpen
    exact ⟨[[]], Or.inr ⟨rfl, hOpen.1⟩, rfl⟩
  · exact ⟨[], Or.inl rfl, (List.append_nil _).symm⟩

/- A group is taken exactly where it is well formed. -/
theorem memberPath_eq_ok_iff
    (member : Text)
    (relative : Path) :
    memberPath member = .ok relative ↔
      WellFormedGroup member ∧
        relative = Path.parse member.tail := by
  rw [memberPath, WellFormedGroup]
  cases member with
  | nil =>
      rw [if_pos nofun]
      refine iff_of_false (fun hRun => nomatch hRun) ?_
      rintro ⟨⟨tail, hTail, -⟩, -⟩
      cases hTail
  | cons c tail =>
      by_cases hSlash : c = '/'
      · subst hSlash
        rw [List.head?_cons, if_neg (fun hNe => hNe rfl)]
        dsimp only [List.tail_cons]
        rcases names_parse tail with ⟨last, hLast, hNames⟩
        have hDots :
            ((Path.parse tail).names.any fun part =>
                part = dotDot || part = dot) = false ↔
              ∀ name ∈ groupNames tail,
                name ≠ dot ∧ name ≠ dotDot := by
          have hClean :
              ∀ name ∈ last, name ≠ dotDot ∧ name ≠ dot := by
            rcases hLast with rfl | ⟨rfl, -⟩
            · exact nofun
            · exact List.forall_mem_singleton.mpr (by decide)
          simp only [hNames, List.any_eq_false, List.mem_append,
            Bool.or_eq_true, decide_eq_true_eq, not_or]
          constructor
          · intro hAll name hMem
            exact (hAll name (Or.inl hMem)).symm
          · rintro hAll name (hMem | hMem)
            · exact (hAll name hMem).symm
            · exact hClean name hMem
        split_ifs with hAny
        · refine iff_of_false (fun hRun => nomatch hRun) ?_
          rintro ⟨⟨other, hOther, hNamed⟩, -⟩
          cases hOther
          rw [hDots.mpr hNamed] at hAny
          cases hAny
        · have hNamed := hDots.mp (Bool.eq_false_iff.mpr hAny)
          constructor
          · intro hRun
            exact
              ⟨⟨tail, rfl, hNamed⟩, (Except.ok.inj hRun).symm⟩
          · rintro ⟨-, rfl⟩
            rfl
      · have hHead : (c :: tail).head? ≠ some '/' :=
          fun hHead => hSlash (Option.some.inj hHead)
        rw [if_pos hHead]
        refine iff_of_false (fun hRun => nomatch hRun) ?_
        rintro ⟨⟨other, hOther, -⟩, -⟩
        exact hSlash (List.cons.inj hOther).1

/- The base of a hierarchy is a stack of names too. -/
theorem base_stack
    {root : Path}
    (hRoot : root.IsNormal)
    (v2 : Bool) :
    (baseOf root v2).names.foldl
          (Path.pushName (baseOf root v2).rooted) [] =
        (baseOf root v2).names.reverse ∧
      (baseOf root v2).names.getLast? ≠ some [] := by
  cases v2 with
  | true => exact ⟨hRoot.foldl_eq, hRoot.closed⟩
  | false =>
      have hPlain : Path.Plain memoryName := by
        unfold Path.Plain
        decide
      rw [baseOf, if_neg Bool.false_ne_true,
        hRoot.child memoryName]
      dsimp only
      rw [List.foldl_append, hRoot.foldl_eq, List.foldl_cons,
        List.foldl_nil, Path.pushName_plain _ _ hPlain,
        List.reverse_append, List.getLast?_concat]
      exact ⟨rfl, by decide⟩

/- A separator at the end of a directory changes no file of it. -/
theorem child_open
    (path : Path)
    {name : Name}
    (hFile : path.names.getLast? ≠ some []) :
    ({ path with names := path.names ++ [[]] } : Path).child name =
      path.child name := by
  simp only [Path.child, Path.append, Bool.false_eq_true, if_false,
    List.cons_ne_nil, Path.stripped, List.getLast?_concat, if_true,
    List.dropLast_concat, if_neg hFile]

/- The empty name at the end reads the same files. -/
theorem reads_open
    (files : Files)
    (v2 : Bool)
    (path : Path)
    (hFile : path.names.getLast? ≠ some [])
    (bound : Option Nat) :
    Reads files v2 { path with names := path.names ++ [[]] }
        bound ↔
      Reads files v2 path bound := by
  rw [← reading_eq_ok_iff files
    { path := { path with names := path.names ++ [[]] }, v2 := v2 },
    ← reading_eq_ok_iff files { path := path, v2 := v2 }]
  unfold reading
  dsimp only
  rw [child_open path hFile, child_open path hFile]

/- Every directory found reads like one that encloses. -/
def Within
    (files : Files)
    (root : Path)
    (encloses : Bool → List Name → Prop)
    (found : List Location) : Prop :=
  ∀ location ∈ found, ∃ names,
    encloses location.v2 names ∧
      ∀ bound,
        Reads files location.v2 location.path bound ↔
          Reads files location.v2
            (groupDir root location.v2 names) bound

/- Every directory that encloses is found. -/
def Covered
    (root : Path)
    (encloses : Bool → List Name → Prop)
    (found : List Location) : Prop :=
  ∀ v2 names, encloses v2 names →
    { path := groupDir root v2 names, v2 := v2 } ∈ found

theorem groupDir_nil (root : Path) (v2 : Bool) :
    groupDir root v2 [] = baseOf root v2 := by
  rw [groupDir, List.append_nil]

/- No directory of a group ends in a separator. -/
theorem groupDir_closed
    {root : Path}
    (hRoot : root.IsNormal)
    (v2 : Bool)
    {names : List Name}
    (hNames : ∀ name ∈ names, name ≠ []) :
    (groupDir root v2 names).names.getLast? ≠ some [] := by
  rw [groupDir]
  dsimp only
  by_cases hNone : names = []
  · rw [hNone, List.append_nil]
    exact (base_stack hRoot v2).2
  · rw [List.getLast?_append_of_ne_nil _ hNone,
      List.getLast?_eq_some_getLast hNone]
    intro hLast
    exact
      hNames _ (List.getLast_mem hNone) (Option.some.inj hLast)

/- A group's names are not empty. -/
theorem groupNames_ne_nil
    (tail : Text) :
    ∀ name ∈ groupNames tail, name ≠ [] := by
  intro name hMem
  exact bne_iff_ne.mp (List.mem_filter.mp hMem).2

/- A path without a slash in front has no root. -/
theorem unrooted_parse
    {tail : Text}
    (hSlash : tail.head? ≠ some '/') :
    (Path.parse tail).rooted = false :=
  beq_false_of_ne hSlash

/- One group of the process, from its directory to the base. -/
theorem memberLocations_spec
    (files : Files)
    {root : Path}
    (hRoot : root.IsNormal)
    (v2 : Bool)
    {tail : Text}
    (hNamed :
      ∀ name ∈ groupNames tail, name ≠ dot ∧ name ≠ dotDot)
    (hSlash : tail.head? ≠ some '/') :
    ∃ found,
      memberLocations root (v2, '/' :: tail) = .ok found ∧
        Within files root
          (fun version names =>
            version = v2 ∧ names <+: groupNames tail)
          found ∧
        Covered root
          (fun version names =>
            version = v2 ∧ names ≠ [] ∧ names <+: groupNames tail)
          found := by
  have hMember :
      memberPath ('/' :: tail) = .ok (Path.parse tail) :=
    (memberPath_eq_ok_iff _ _).mpr ⟨⟨tail, rfl, hNamed⟩, rfl⟩
  have hPlain : ∀ name ∈ groupNames tail, Path.Plain name :=
    fun name hMem =>
      ⟨groupNames_ne_nil tail name hMem, hNamed name hMem⟩
  rcases names_parse tail with ⟨last, hLast, hNames⟩
  have hParse :
      Path.parse tail =
        { rooted := false, names := groupNames tail ++ last } := by
    rw [← hNames, ← unrooted_parse hSlash]
  rcases base_stack hRoot v2 with ⟨hStack, hClosed⟩
  rcases
    Path.lexicallyNormal_append hStack hClosed hPlain hLast with
    ⟨last', hLast', hNormal⟩
  rw [← hParse, List.append_assoc] at hNormal
  rcases
    walk_of_below (baseOf root v2) (groupNames tail ++ last') with
    ⟨paths, hWalk, hPaths⟩
  refine
    ⟨paths.map fun path => { path := path, v2 := v2 }, ?_, ?_, ?_⟩
  · rw [memberLocations, hMember, except_ok_bind]
    dsimp only
    rw [hNormal, hWalk, except_ok_bind]
  · intro location hMem
    rcases List.mem_map.mp hMem with ⟨path, hPath, rfl⟩
    rcases (hPaths path).mp hPath with ⟨part, -, hPrefix, rfl⟩
    dsimp only
    rcases hLast' with rfl | rfl
    · rw [List.append_nil] at hPrefix
      exact ⟨part, ⟨rfl, hPrefix⟩, fun bound => Iff.rfl⟩
    · rcases List.prefix_concat_iff.mp hPrefix with rfl | hShort
      · refine ⟨groupNames tail, ⟨rfl, List.prefix_rfl⟩, ?_⟩
        have hOpen :=
          groupDir_closed hRoot v2 (groupNames_ne_nil tail)
        intro bound
        rw [← List.append_assoc]
        exact reads_open files v2 _ hOpen bound
      · exact ⟨part, ⟨rfl, hShort⟩, fun bound => Iff.rfl⟩
  · rintro version names ⟨rfl, hSome, hPrefix⟩
    refine List.mem_map_of_mem ((hPaths _).mpr ?_)
    exact
      ⟨names, hSome, hPrefix.trans (List.prefix_append _ _), rfl⟩

/- Every row about memory names a group that can be walked. -/
def WellFormedRows (rows : List Text) : Prop :=
  ∀ row ∈ rows, ∀ v2 member,
    memoryRow row = some (v2, member) → WellFormedGroup member

/- A run over the rows found each of them well formed. -/
theorem wellFormed_of_mapM
    {root : Path}
    {rows : List Text}
    {groups : List (List Location)}
    (hRun :
      (rows.filterMap memoryRow).mapM (memberLocations root) =
        .ok groups) :
    WellFormedRows rows := by
  intro row hRow v2 member hGroup
  have hMem : (v2, member) ∈ rows.filterMap memoryRow :=
    List.mem_filterMap.mpr ⟨row, hRow, hGroup⟩
  rcases mapM_cases (memberLocations root) _ with
    ⟨_, -, error, -, hFail⟩ | hAll
  · rw [hFail] at hRun
    cases hRun
  · rcases hAll (v2, member) hMem with ⟨found, hOk⟩
    rcases except_bind_eq_ok hOk with ⟨relative, hMember, -⟩
    exact ((memberPath_eq_ok_iff _ _).mp hMember).1

/- All groups of the process. -/
theorem groups_spec
    (files : Files)
    {root : Path}
    (hRoot : root.IsNormal)
    {rows : List Text}
    (hRows : WellFormedRows rows)
    (hSlashes :
      ∀ row ∈ rows, ∀ v2 member,
        memoryRow row = some (v2, member) → ¬Slashed member) :
    ∃ groups,
      (rows.filterMap memoryRow).mapM (memberLocations root) =
          .ok groups ∧
        Within files root (Encloses rows) groups.flatten ∧
        Covered root
          (fun v2 names => names ≠ [] ∧ Encloses rows v2 names)
          groups.flatten := by
  induction rows with
  | nil =>
      refine ⟨[], rfl, nofun, ?_⟩
      rintro v2 names ⟨hSome, hNone | ⟨row, hRow, -⟩⟩
      · exact absurd hNone hSome
      · exact absurd hRow List.not_mem_nil
  | cons row rows ih =>
      rw [WellFormedRows, List.forall_mem_cons] at hRows
      rw [List.forall_mem_cons] at hSlashes
      rcases ih hRows.2 hSlashes.2 with
        ⟨groups, hRun, hWithin, hCovered⟩
      have hMore :
          ∀ v2 names, Encloses rows v2 names →
            Encloses (row :: rows) v2 names := by
        rintro v2 names (rfl | ⟨other, hOther, hTail⟩)
        · exact Or.inl rfl
        · exact
            Or.inr ⟨other, List.mem_cons_of_mem _ hOther, hTail⟩
      have hWithin' :
          Within files root (Encloses (row :: rows))
            groups.flatten := by
        intro location hMem
        rcases hWithin location hMem with ⟨names, hNames, hReads⟩
        exact ⟨names, hMore _ _ hNames, hReads⟩
      cases hGroup : memoryRow row with
      | none =>
          refine ⟨groups, ?_, hWithin', ?_⟩
          · rw [List.filterMap_cons_none hGroup, hRun]
          · rintro v2 names
              ⟨hSome, hNone | ⟨other, hOther, tail, hTail⟩⟩
            · exact absurd hNone hSome
            · rcases List.mem_cons.mp hOther with rfl | hOther
              · rw [hGroup] at hTail
                exact absurd hTail.1 nofun
              · exact
                  hCovered v2 names
                    ⟨hSome, Or.inr ⟨other, hOther, tail, hTail⟩⟩
      | some group =>
          rcases group with ⟨version, member⟩
          rcases hRows.1 version member hGroup with
            ⟨tail, rfl, hNamed⟩
          have hSlash : tail.head? ≠ some '/' := by
            intro hHead
            rcases List.head?_eq_some_iff.mp hHead with
              ⟨rest, rfl⟩
            exact hSlashes.1 version _ hGroup ⟨rest, rfl⟩
          rcases
            memberLocations_spec files hRoot version hNamed
              hSlash with
            ⟨found, hFound, hFoundWithin, hFoundCovered⟩
          refine ⟨found :: groups, ?_, ?_, ?_⟩
          · rw [List.filterMap_cons_some hGroup, List.mapM_cons,
              hFound, except_ok_bind, hRun]
            rfl
          · intro location hMem
            rw [List.flatten_cons, List.mem_append] at hMem
            rcases hMem with hMem | hMem
            · rcases hFoundWithin location hMem with
                ⟨names, ⟨hVersion, hPrefix⟩, hReads⟩
              refine ⟨names, Or.inr ⟨row, ?_⟩, hReads⟩
              rw [hVersion]
              exact
                ⟨List.mem_cons_self, tail, hGroup, hPrefix⟩
            · exact hWithin' location hMem
          · rintro v2 names
              ⟨hSome, hNone | ⟨other, hOther, tail', hTail⟩⟩
            · exact absurd hNone hSome
            · rw [List.flatten_cons, List.mem_append]
              rcases List.mem_cons.mp hOther with rfl | hOther
              · rw [hGroup] at hTail
                rcases hTail with ⟨hSame, hPrefix⟩
                cases hSame
                exact
                  Or.inl (hFoundCovered _ names ⟨rfl, hSome, hPrefix⟩)
              · exact
                  Or.inr
                    (hCovered v2 names
                      ⟨hSome, Or.inr ⟨other, hOther, tail', hTail⟩⟩)

----------------
-- The Budget
----------------

/- The rows before the first one with the key are passed over. -/
def MemAvailable (rows : List Text) (bytes : Nat) : Prop :=
  ∃ before row after digits kib,
    rows = before ++ row :: after ∧
      (∀ other ∈ before, (tokens other).head? ≠ some memKey) ∧
      tokens row = [memKey, digits, ['k', 'B']] ∧
      allDigits digits = true ∧ spelled digits = kib ∧
      bytes = kib * 1024 ∧ bytes < 2 ^ 64

/-
  The row is read exactly where it is as the kernel writes it.
-/
theorem memAvailable_eq_ok_iff
    (rows : List Text)
    (bytes : Nat) :
    memAvailable rows = .ok bytes ↔ MemAvailable rows bytes := by
  have hLimit : uint64Limit = 2 ^ 64 - 1 := rfl
  induction rows with
  | nil =>
      refine iff_of_false (fun hRun => nomatch hRun) ?_
      rintro ⟨before, row, after, _, _, hSplit, -⟩
      exact absurd hSplit.symm (List.append_ne_nil_of_right_ne_nil _
        (List.cons_ne_nil row after))
  | cons row rows ih =>
      -- a row without the key is passed over on both sides
      have hSkip :
          (tokens row).head? ≠ some memKey →
            (MemAvailable (row :: rows) bytes ↔
              MemAvailable rows bytes) := by
        intro hOther
        constructor
        · rintro ⟨before, found, after, digits, kib, hSplit,
            hBefore, hTokens, hRest⟩
          cases before with
          | nil =>
              cases hSplit
              rw [hTokens] at hOther
              exact absurd rfl hOther
          | cons first before =>
              cases hSplit
              exact
                ⟨before, found, after, digits, kib, rfl,
                  (List.forall_mem_cons.mp hBefore).2, hTokens,
                  hRest⟩
        · rintro ⟨before, found, after, digits, kib, rfl,
            hBefore, hRest⟩
          exact
            ⟨row :: before, found, after, digits, kib, rfl,
              List.forall_mem_cons.mpr ⟨hOther, hBefore⟩, hRest⟩
      unfold memAvailable
      cases hTokens : tokens row with
      | nil =>
          exact ih.trans (hSkip (by rw [hTokens]; nofun)).symm
      | cons key fields =>
          dsimp only
          by_cases hKey : key = memKey
          · subst hKey
            rw [if_neg (fun hNe => hNe rfl)]
            have hHere :
                MemAvailable (row :: rows) bytes ↔
                  ∃ digits kib,
                    fields = [digits, ['k', 'B']] ∧
                      allDigits digits = true ∧
                      spelled digits = kib ∧ bytes = kib * 1024 ∧
                      bytes < 2 ^ 64 := by
              constructor
              · rintro ⟨before, found, after, digits, kib, hSplit,
                  hBefore, hFound, hRest⟩
                cases before with
                | nil =>
                    cases hSplit
                    rw [hTokens] at hFound
                    exact
                      ⟨digits, kib, (List.cons.inj hFound).2, hRest⟩
                | cons first before =>
                    cases hSplit
                    have hFirst :=
                      (List.forall_mem_cons.mp hBefore).1
                    rw [hTokens] at hFirst
                    exact absurd rfl hFirst
              · rintro ⟨digits, kib, rfl, hRest⟩
                exact
                  ⟨[], row, rows, digits, kib, rfl, nofun, hTokens,
                    hRest⟩
            rw [hHere]
            split
            · rename_i value unit
              split_ifs with hUnit
              · refine iff_of_false (fun hRun => nomatch hRun) ?_
                rintro ⟨digits, kib, hFields, -⟩
                cases hFields
                exact hUnit rfl
              · constructor
                · intro hRun
                  rcases except_bind_eq_ok hRun with
                    ⟨kib, hKib, hRun⟩
                  rcases (decimal_eq_ok_iff ..).mp hKib with
                    ⟨hDigits, hSpelled, -⟩
                  split_ifs at hRun with hOver
                  cases hRun
                  refine
                    ⟨value, kib, ?_, hDigits, hSpelled, rfl, ?_⟩
                  · rw [not_not.mp hUnit]
                  · omega
                · rintro ⟨digits, kib, hFields, hDigits, hSpelled,
                    hBytes, hFits⟩
                  cases hFields
                  have hKib : decimal value = .ok kib :=
                    (decimal_eq_ok_iff ..).mpr
                      ⟨hDigits, hSpelled, by omega⟩
                  rw [hKib, except_ok_bind, if_neg (by omega),
                    hBytes]
            · rename_i hShape
              refine iff_of_false (fun hRun => nomatch hRun) ?_
              rintro ⟨digits, kib, hFields, -⟩
              exact hShape _ _ hFields
          · have hHead : (tokens row).head? ≠ some memKey := by
              rw [hTokens]
              exact fun hHead => hKey (Option.some.inj hHead)
            rw [if_pos hKey]
            exact ih.trans (hSkip hHead).symm

/- Every enclosing directory says what it leaves. -/
def AllRead
    (files : Files)
    (root : Path)
    (rows : List Text) : Prop :=
  ∀ v2 names, Encloses rows v2 names →
    ∃ bound, Reads files v2 (groupDir root v2 names) bound

/- What the enclosing directories with a finite limit leave. -/
def enclosingBounds
    (files : Files)
    (root : Path)
    (rows : List Text) : Set Nat :=
  { b | ∃ v2 names, Encloses rows v2 names ∧
    Reads files v2 (groupDir root v2 names) (some b) }

/- The directories found leave what the enclosing ones leave. -/
theorem foldlM_cut_of_covered
    {files : Files}
    {root : Path}
    {rows : List Text}
    {found : List Location}
    (hWithin : Within files root (Encloses rows) found)
    (hCovered : Covered root (Encloses rows) found)
    (available result : Nat) :
    found.foldlM (cut files) available = .ok result ↔
      AllRead files root rows ∧
        IsLeast ({available} ∪ enclosingBounds files root rows)
          result := by
  have hBounds :
      bounds files found = enclosingBounds files root rows := by
    ext b
    constructor
    · rintro ⟨location, hMem, hReads⟩
      rcases hWithin location hMem with ⟨names, hNames, hSame⟩
      exact ⟨_, names, hNames, (hSame _).mp hReads⟩
    · rintro ⟨v2, names, hNames, hReads⟩
      exact ⟨_, hCovered v2 names hNames, hReads⟩
  rw [foldlM_cut_eq_ok_iff, hBounds]
  refine and_congr_left fun _ => ⟨?_, ?_⟩
  · intro hAll v2 names hNames
    exact hAll _ (hCovered v2 names hNames)
  · intro hAll location hMem
    rcases hWithin location hMem with ⟨names, hNames, hSame⟩
    rcases hAll _ names hNames with ⟨bound, hBound⟩
    exact ⟨bound, (hSame bound).mpr hBound⟩

/- Only a readable list of well-formed groups is taken. -/
theorem wellFormed_of_locations
    {files : Files}
    {root membership : Path}
    {found : List Location}
    (hRun : locations files root membership = .ok found) :
    files membership ≠ .unreadable ∧
      WellFormedRows (rowsOf (files membership)) := by
  unfold locations at hRun
  split at hRun
  · rename_i hFile
    rw [hFile]
    exact ⟨nofun, fun _ hMem => absurd hMem List.not_mem_nil⟩
  · cases hRun
  · rename_i content hFile
    rw [hFile]
    rcases except_bind_eq_ok hRun with ⟨groups, hGroups, -⟩
    exact ⟨nofun, wellFormed_of_mapM hGroups⟩

/- The roots are found first, and then the groups. -/
theorem locations_spec
    {files : Files}
    {root membership : Path}
    (hRoot : root.IsNormal)
    (hReadable : files membership ≠ .unreadable)
    (hRows : WellFormedRows (rowsOf (files membership)))
    (hSlashes :
      ∀ row ∈ rowsOf (files membership), ∀ v2 member,
        memoryRow row = some (v2, member) → ¬Slashed member) :
    ∃ found,
      locations files root membership = .ok found ∧
        Within files root (Encloses (rowsOf (files membership)))
          found ∧
        Covered root (Encloses (rowsOf (files membership)))
          found := by
  rcases groups_spec files hRoot hRows hSlashes with
    ⟨groups, hRun, hWithin, hCovered⟩
  have hRoots :
      ∀ v2,
        { path := groupDir root v2 [], v2 := v2 } ∈
          ([{ path := root, v2 := true },
            { path := root.child memoryName, v2 := false }] :
            List Location) := by
    intro v2
    rw [groupDir_nil]
    cases v2 with
    | true => exact List.mem_cons_self
    | false => exact List.mem_cons_of_mem _ List.mem_cons_self
  have hFound :
      locations files root membership =
        .ok
          ([{ path := root, v2 := true },
            { path := root.child memoryName, v2 := false }] ++
            groups.flatten) := by
    unfold locations
    cases hFile : files membership with
    | missing =>
        rw [hFile] at hRun
        cases hRun
        rfl
    | unreadable => exact absurd hFile hReadable
    | text content =>
        rw [hFile, rowsOf] at hRun
        dsimp only
        rw [hRun]
        rfl
  refine ⟨_, hFound, ?_, ?_⟩
  · intro location hMem
    rcases List.mem_append.mp hMem with hMem | hMem
    · refine ⟨[], Or.inl rfl, fun bound => ?_⟩
      rw [groupDir_nil]
      rcases List.mem_cons.mp hMem with rfl | hMem
      · exact Iff.rfl
      · rw [List.mem_singleton.mp hMem]
        exact Iff.rfl
    · exact hWithin location hMem
  · intro v2 names hNames
    by_cases hNone : names = []
    · subst hNone
      exact List.mem_append_left _ (hRoots v2)
    · exact
        List.mem_append_right _ (hCovered v2 names ⟨hNone, hNames⟩)

/-
  Under a normal controller root the budget is the least of the
  estimate and of what the enclosing groups leave. Nothing is
  returned if the estimate, the path of a group or the files of
  an enclosing directory cannot be read.
-/
theorem availableBytes_eq_ok_iff
    (files : Files)
    (meminfo membership : Path)
    {cgroupRoot : Path}
    (hRoot : cgroupRoot.IsNormal)
    (hSlashes :
      ∀ row ∈ rowsOf (files membership), ∀ v2 member,
        memoryRow row = some (v2, member) → ¬Slashed member)
    (result : Nat) :
    availableBytes files meminfo cgroupRoot membership =
        .ok result ↔
      ∃ available,
        MemAvailable (rowsOf (files meminfo)) available ∧
          files membership ≠ .unreadable ∧
          WellFormedRows (rowsOf (files membership)) ∧
          AllRead files cgroupRoot (rowsOf (files membership)) ∧
          IsLeast
            ({available} ∪
              enclosingBounds files cgroupRoot
                (rowsOf (files membership)))
            result := by
  rw [availableBytes, hRoot.normal]
  constructor
  · intro hRun
    rcases except_bind_eq_ok hRun with ⟨available, hInfo, hRun⟩
    rcases except_bind_eq_ok hRun with ⟨found, hFound, hRun⟩
    rcases wellFormed_of_locations hFound with ⟨hReadable, hRows⟩
    rcases locations_spec hRoot hReadable hRows hSlashes with
      ⟨found', hFound', hWithin, hCovered⟩
    rw [hFound] at hFound'
    cases hFound'
    exact
      ⟨available, (memAvailable_eq_ok_iff ..).mp hInfo, hReadable,
        hRows, (foldlM_cut_of_covered hWithin hCovered ..).mp hRun⟩
  · rintro ⟨available, hInfo, hReadable, hRows, hRest⟩
    rcases locations_spec hRoot hReadable hRows hSlashes with
      ⟨found, hFound, hWithin, hCovered⟩
    rw [(memAvailable_eq_ok_iff ..).mpr hInfo, except_ok_bind,
      hFound, except_ok_bind]
    exact (foldlM_cut_of_covered hWithin hCovered ..).mpr hRest

/- A few files; all others are missing. -/
def filesOf (entries : List (String × String)) : Files :=
  fun path =>
    match
      entries.find? fun entry =>
        Path.parse entry.1.toList = path
    with
    | some entry => .text entry.2.toList
    | none => .missing

/- The path of a text. -/
def pathOf (text : String) : Path :=
  Path.parse text.toList

/- A group below a group with a limit. -/
def nestedFiles : Files :=
  filesOf
    [("/m", "MemTotal: 9 kB\nMemAvailable: 8 kB\n"),
      ("/g", "1:cpu,memory:/x\n0::/a/b\n"),
      ("/c/a/memory.max", "100\n"),
      ("/c/a/memory.current", "60\n")]

/-
  Two groups inside each other, the outer one with the lower
  bound.
-/
theorem availableBytes_eq_ok_iff_nested :
    IsLeast
      ({8192} ∪
        enclosingBounds nestedFiles (pathOf "/c")
          ["1:cpu,memory:/x".toList, "0::/a/b".toList])
      40 := by
  have hRun :
      availableBytes nestedFiles (pathOf "/m") (pathOf "/c")
        (pathOf "/g") = .ok 40 := by
    decide +kernel
  have hRows :
      rowsOf (nestedFiles (pathOf "/g")) =
        ["1:cpu,memory:/x".toList, "0::/a/b".toList] := by
    decide
  have hGroups :
      (rowsOf (nestedFiles (pathOf "/g"))).filterMap memoryRow =
        [(false, ['/', 'x']), (true, ['/', 'a', '/', 'b'])] := by
    decide
  have hRoot : (pathOf "/c").IsNormal :=
    ⟨by decide, by decide, by decide⟩
  have hSlashes :
      ∀ row ∈ rowsOf (nestedFiles (pathOf "/g")), ∀ v2 member,
        memoryRow row = some (v2, member) → ¬Slashed member := by
    intro row hRow v2 member hGroup
    have hMem := List.mem_filterMap.mpr ⟨row, hRow, hGroup⟩
    rw [hGroups] at hMem
    rintro ⟨tail, rfl⟩
    simp at hMem
  rcases
    (availableBytes_eq_ok_iff nestedFiles (pathOf "/m")
      (pathOf "/g") hRoot hSlashes 40).mp hRun with
    ⟨available, hInfo, -, -, -, hLeast⟩
  have hEstimate :
      memAvailable (rowsOf (nestedFiles (pathOf "/m"))) =
        .ok 8192 := by
    decide
  rw [(memAvailable_eq_ok_iff ..).mpr hInfo] at hEstimate
  rw [Except.ok.inj hEstimate, hRows] at hLeast
  exact hLeast

/- Only the usage of the root is known. -/
def halfFiles : Files :=
  filesOf
    [("/m", "MemAvailable: 8 kB\n"), ("/c/memory.current", "5\n")]

/- The root is not limited, and its usage is no number. -/
def oddFiles : Files :=
  filesOf
    [("/m", "MemAvailable: 8 kB\n"), ("/c/memory.max", "max\n"),
      ("/c/memory.current", "x\n")]

/- A group of the process, and no limits. -/
def freeFiles : Files :=
  filesOf [("/m", "MemAvailable: 8 kB\n"), ("/g", "0::/a\n")]

/- A group that is a path of its own, and no limits. -/
def slashedFiles : Files :=
  filesOf
    [("/m", "MemAvailable: 8 kB\n"), ("/g", "0:://a\n")]

/-
  A usage without a limit is an error, the usage of an unlimited
  directory is not read, and the walk misses a root that is a dot.
  A group with two slashes in front lies outside every root, so
  that the walk misses that one too.
-/
theorem availableBytes_exceptions :
    availableBytes halfFiles (pathOf "/m") (pathOf "/c")
        (pathOf "/g") =
      .error (unparsed (pathOf "/c/memory.max")) ∧
    availableBytes oddFiles (pathOf "/m") (pathOf "/c")
        (pathOf "/g") = .ok 8192 ∧
    (pathOf ".").lexicallyNormal = pathOf "." ∧
    availableBytes freeFiles (pathOf "/m") (pathOf ".")
        (pathOf "/g") =
      .error
        (.runtimeError
          "native cgroup path escaped controller root") ∧
    availableBytes slashedFiles (pathOf "/m") (pathOf "/c")
        (pathOf "/g") =
      .error
        (.runtimeError
          "native cgroup path escaped controller root") := by
  refine ⟨?_, ?_, ?_, ?_, ?_⟩
  · decide
  · decide
  · decide
  · decide +kernel
  · decide +kernel

end HostBudget

end Memory

end BeamSearch
