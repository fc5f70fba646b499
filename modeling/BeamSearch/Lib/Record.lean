import BeamSearch.Lib.Text

/-
  Lines of `key=value` fields.

  A line is a row of words with a blank between two of them. A
  reader looks for keys: in the tokens of a line, at its front,
  and anywhere in it. Where a key is found in this way it is one
  of the names that stand before an equals sign of the line.

  Main declarations:
    * `pair`, `spaced`
    * `keysOf`, `keysOf_spaced`
    * `splitWhitespace_spaced`
    * `exists_key_of_infix`, `beforeFirst_append`
-/

namespace Text

/- A key and its value. -/
def pair (key value : Text) : Text :=
  key ++ '=' :: value

/- Words with one blank between them. -/
def spaced (words : List Text) : Text :=
  [' '].intercalate words

/- The names before the equals signs of a text. -/
def keysFrom (word : Text) : Text → List Text
  | [] => []
  | c :: text =>
      if c = '=' then word :: keysFrom [] text
      else if isWhitespace c then keysFrom [] text
      else keysFrom (word ++ [c]) text

/- The keys of a text, in their order. -/
def keysOf (text : Text) : List Text :=
  keysFrom [] text

----------------
-- Keys
----------------

/- The two kinds of character that end a word or a key. -/
theorem isPlain_iff {c : Char} :
    isPlain c = true ↔ isWhitespace c = false ∧ c ≠ '=' := by
  simp [isPlain]

/- A break is no equal sign. -/
theorem not_isPlain_of_isWhitespace
    {c : Char}
    (hBreak : isWhitespace c = true) :
    c ≠ '=' := by
  rintro rfl
  exact absurd hBreak (by decide)

/- A text without an equal sign has no key. -/
theorem keysFrom_of_not_mem
    {text : Text}
    (word : Text)
    (hAbsent : '=' ∉ text) :
    keysFrom word text = [] := by
  induction text generalizing word with
  | nil => rfl
  | cons c text ih =>
      rw [List.mem_cons, not_or] at hAbsent
      rw [keysFrom, if_neg (Ne.symm hAbsent.1)]
      split
      · exact ih [] hAbsent.2
      · exact ih _ hAbsent.2

/- Behind a break the names start anew. -/
theorem keysFrom_append_break
    {c : Char}
    (word a b : Text)
    (hBreak : isWhitespace c = true) :
    keysFrom word (a ++ c :: b) =
      keysFrom word a ++ keysOf b := by
  induction a generalizing word with
  | nil =>
      rw [List.nil_append, keysFrom.eq_2,
        if_neg (not_isPlain_of_isWhitespace hBreak),
        if_pos hBreak]
      rfl
  | cons d a ih =>
      rw [List.cons_append, keysFrom, keysFrom]
      split
      · rw [ih, List.cons_append]
      · split
        · exact ih []
        · exact ih _

/- The key before an equal sign. -/
theorem keysFrom_append_equals
    {a : Text}
    (word b : Text)
    (hPlain : a.all isPlain = true) :
    keysFrom word (a ++ '=' :: b) = (word ++ a) :: keysOf b := by
  induction a generalizing word with
  | nil =>
      rw [List.nil_append, keysFrom, if_pos rfl, List.append_nil]
      rfl
  | cons c a ih =>
      rw [List.all_cons, Bool.and_eq_true, isPlain_iff] at hPlain
      rw [List.cons_append, keysFrom, if_neg hPlain.1.2,
        if_neg (by simp [hPlain.1.1]), ih _ hPlain.2,
        List.append_assoc]
      rfl

/- What stands in front only adds names and a first part. -/
theorem keysFrom_append (word a : Text) :
    ∃ keys word',
      ∀ b, keysFrom word (a ++ b) = keys ++ keysFrom word' b := by
  induction a generalizing word with
  | nil => exact ⟨[], word, fun b => rfl⟩
  | cons c a ih =>
      by_cases hEquals : c = '='
      · rcases ih [] with ⟨keys, word', hKeys⟩
        refine ⟨word :: keys, word', fun b => ?_⟩
        rw [List.cons_append, keysFrom, if_pos hEquals, hKeys]
        rfl
      · by_cases hBreak : isWhitespace c = true
        · rcases ih [] with ⟨keys, word', hKeys⟩
          refine ⟨keys, word', fun b => ?_⟩
          rw [List.cons_append, keysFrom, if_neg hEquals,
            if_pos hBreak, hKeys]
        · rcases ih (word ++ [c]) with ⟨keys, word', hKeys⟩
          refine ⟨keys, word', fun b => ?_⟩
          rw [List.cons_append, keysFrom, if_neg hEquals,
            if_neg hBreak, hKeys]

/- The same from the front. -/
theorem keysOf_of_not_mem
    {text : Text}
    (hAbsent : '=' ∉ text) :
    keysOf text = [] :=
  keysFrom_of_not_mem [] hAbsent

/- A pair has one key. -/
theorem keysOf_pair
    {key value : Text}
    (hKey : key.all isPlain = true)
    (hValue : '=' ∉ value) :
    keysOf (pair key value) = [key] := by
  rw [keysOf, pair, keysFrom_append_equals [] value hKey,
    keysOf_of_not_mem hValue]
  rfl

/- Words with spaces between them. -/
theorem spaced_cons_cons
    (word next : Text)
    (words : List Text) :
    spaced (word :: next :: words) =
      word ++ ' ' :: spaced (next :: words) := by
  simp [spaced, List.intercalate_cons_cons]

/- The keys of words, one after the other. -/
theorem keysOf_spaced (words : List Text) :
    keysOf (spaced words) = words.flatMap keysOf := by
  induction words with
  | nil => rfl
  | cons word words ih =>
      cases words with
      | nil => simp [spaced]
      | cons next words =>
          rw [spaced_cons_cons, keysOf,
            keysFrom_append_break [] _ _ (by decide), ih]
          rfl

/- A key is found only where a name ends in it. -/
theorem exists_key_of_infix
    {p text : Text}
    (hPlain : p.all isPlain = true)
    (hInfix : p ++ ['='] <:+: text) :
    ∃ key ∈ keysOf text, p <:+ key := by
  rcases hInfix with ⟨before, after, rfl⟩
  rcases keysFrom_append [] before with ⟨keys, word, hKeys⟩
  have hSplit :
      keysOf (before ++ (p ++ ['=']) ++ after) =
        keys ++ (word ++ p) :: keysOf after := by
    rw [keysOf, List.append_assoc, List.append_assoc, hKeys,
      List.singleton_append,
      keysFrom_append_equals word after hPlain]
  refine ⟨word ++ p, ?_, List.suffix_append word p⟩
  rw [hSplit]
  exact List.mem_append_right _ List.mem_cons_self

/- A key at the front of a line is its first name. -/
theorem mem_keysOf_of_front
    {key text : Text}
    (value : Text)
    (hPlain : key.all isPlain = true)
    (hFront : pair key value <+: text) :
    key ∈ keysOf text := by
  rcases hFront with ⟨rest, rfl⟩
  rw [pair, List.append_assoc, List.cons_append, keysOf,
    keysFrom_append_equals [] _ hPlain]
  exact List.mem_cons_self

----------------
-- Tokens
----------------

/- A break ends a word. -/
theorem splitWhitespace_append_break
    {c : Char}
    (a b : Text)
    (hBreak : isWhitespace c = true) :
    splitWhitespace (a ++ c :: b) =
      splitWhitespace a ++ splitWhitespace b := by
  rw [splitWhitespace, List.splitOnP_append_cons a b hBreak,
    List.filter_append]
  rfl

/- A word without a break is one word. -/
theorem splitWhitespace_of_plain
    {word : Text}
    (hNonempty : word ≠ [])
    (hUnbroken : ∀ c ∈ word, isWhitespace c = false) :
    splitWhitespace word = [word] := by
  rw [splitWhitespace, List.splitOnP_eq_singleton hUnbroken]
  simp [hNonempty]

/- The words of words with spaces between them. -/
theorem splitWhitespace_spaced (words : List Text) :
    splitWhitespace (spaced words) =
      words.flatMap splitWhitespace := by
  induction words with
  | nil => rfl
  | cons word words ih =>
      cases words with
      | nil => simp [spaced]
      | cons next words =>
          rw [spaced_cons_cons,
            splitWhitespace_append_break _ _ (by decide), ih]
          rfl

/- A plain pair is one word. -/
theorem splitWhitespace_pair
    {key value : Text}
    (hKey : key.all isPlain = true)
    (hValue : value.all isPlain = true) :
    splitWhitespace (pair key value) = [pair key value] := by
  refine splitWhitespace_of_plain (by simp [pair]) ?_
  intro c hMem
  rw [pair, List.mem_append, List.mem_cons] at hMem
  rcases hMem with hMem | rfl | hMem
  · exact (isPlain_iff.mp (List.all_eq_true.mp hKey c hMem)).1
  · decide
  · exact (isPlain_iff.mp (List.all_eq_true.mp hValue c hMem)).1

/- A plain text has no equal sign. -/
theorem not_mem_equals
    {text : Text}
    (hPlain : text.all isPlain = true) :
    '=' ∉ text := fun hMem =>
  absurd (List.all_eq_true.mp hPlain '=' hMem) (by decide)

/- A pair is split at its own equal sign. -/
theorem splitOnce_pair
    {key : Text}
    (value : Text)
    (hKey : key.all isPlain = true) :
    splitOnce '=' (pair key value) = some (key, value) :=
  splitOnce_append value (not_mem_equals hKey)

/- A split text, put together again. -/
theorem splitOnce_eq_some
    {separator : Char}
    {text before after : Text}
    (hSplit : splitOnce separator text = some (before, after)) :
    text = before ++ separator :: after ∧ separator ∉ before := by
  induction text generalizing before with
  | nil => cases hSplit
  | cons c text ih =>
      rw [splitOnce] at hSplit
      split_ifs at hSplit with hSeparator
      · cases hSplit
        exact ⟨by rw [hSeparator]; rfl, List.not_mem_nil⟩
      · rcases Option.map_eq_some_iff.mp hSplit with
          ⟨⟨first, rest⟩, hRest, hParts⟩
        cases hParts
        rcases ih hRest with ⟨hText, hAbsent⟩
        refine ⟨by rw [hText]; rfl, ?_⟩
        rw [List.mem_cons, not_or]
        exact ⟨Ne.symm hSeparator, hAbsent⟩

/- The key of a token is a name of the line. -/
theorem mem_keysOf_of_token
    {text token key value : Text}
    (hToken : token ∈ splitWhitespace text)
    (hSplit : splitOnce '=' token = some (key, value)) :
    key ∈ keysOf text := by
  induction hLength : text.length using Nat.strong_induction_on
    generalizing text with
  | _ n ih =>
      cases hRest : text.dropWhile fun c => !isWhitespace c with
      | nil =>
          have hUnbroken : ∀ c ∈ text, isWhitespace c = false := by
            intro c hMem
            simpa using
              List.dropWhile_eq_nil_iff.mp hRest c hMem
          by_cases hEmpty : text = []
          · rw [hEmpty] at hToken
            cases hToken
          · rw [splitWhitespace_of_plain hEmpty hUnbroken,
              List.mem_singleton] at hToken
            subst hToken
            rcases splitOnce_eq_some hSplit with
              ⟨hText, hAbsent⟩
            have hPlain : key.all isPlain = true := by
              refine List.all_eq_true.mpr fun c hMem => ?_
              refine isPlain_iff.mpr ⟨hUnbroken c ?_, ?_⟩
              · rw [hText]
                exact List.mem_append_left _ hMem
              · rintro rfl
                exact hAbsent hMem
            exact
              mem_keysOf_of_front value hPlain
                (hText ▸ List.prefix_refl _)
      | cons c rest =>
          let front := text.takeWhile fun c => !isWhitespace c
          have hText : text = front ++ c :: rest := by
            rw [← hRest]
            exact List.takeWhile_append_dropWhile.symm
          have hBreak : isWhitespace c = true := by
            have hHead :=
              List.head_dropWhile_not (fun c => !isWhitespace c)
                (l := text)
                (by rw [hRest]; exact List.cons_ne_nil _ _)
            simpa [hRest] using hHead
          have hShort :
              front.length < n ∧ rest.length < n := by
            have hSame := congrArg List.length hText
            rw [List.length_append, List.length_cons] at hSame
            omega
          rw [hText, splitWhitespace_append_break _ _ hBreak,
            List.mem_append] at hToken
          rw [hText, keysOf, keysFrom_append_break _ _ _ hBreak,
            List.mem_append]
          rcases hToken with hFront | hBehind
          · exact Or.inl (ih _ hShort.1 hFront rfl)
          · exact Or.inr (ih _ hShort.2 hBehind rfl)

----------------
-- Patterns
----------------

/- A pattern that is absent is not found. -/
theorem fromFirst_of_absent
    {pattern text : Text}
    (hAbsent : ¬ pattern <:+: text) :
    fromFirst pattern text = none := by
  induction text with
  | nil =>
      refine if_neg fun hEmpty => hAbsent ?_
      subst hEmpty
      exact List.infix_refl _
  | cons c text ih =>
      have hFront :
          ¬ pattern.isPrefixOf (c :: text) = true := fun hPrefix =>
        hAbsent (List.isPrefixOf_iff_prefix.mp hPrefix).isInfix
      rw [fromFirst, if_neg hFront]
      exact
        ih fun hInfix =>
          hAbsent (hInfix.trans (List.suffix_cons c text).isInfix)

/- A pattern at the front is found there. -/
theorem fromFirst_front
    {pattern text : Text}
    (hFront : pattern <+: text) :
    fromFirst pattern text = some text := by
  cases text with
  | nil => exact if_pos (List.prefix_nil.mp hFront)
  | cons c text =>
      rw [fromFirst,
        if_pos (List.isPrefixOf_iff_prefix.mpr hFront)]

/- A key behind a break that occurs nowhere before. -/
theorem beforeFirst_append
    {text : Text}
    (key rest : Text)
    (hPlain : key.all isPlain = true)
    (hAbsent : ¬ key ++ ['='] <:+: text) :
    beforeFirst (' ' :: key ++ ['='])
        (text ++ ' ' :: pair key rest) = text := by
  have hBlank : '=' ∉ ' ' :: key := by
    rw [List.mem_cons, not_or]
    exact ⟨by decide, not_mem_equals hPlain⟩
  induction text with
  | nil =>
      have hFront :
          (' ' :: key ++ ['=']).isPrefixOf
              (' ' :: pair key rest) = true :=
        List.isPrefixOf_iff_prefix.mpr
          ⟨rest, by simp [pair]⟩
      rw [List.nil_append, beforeFirst, if_pos hFront]
  | cons c text ih =>
      have hFront :
          ¬ (' ' :: key ++ ['=']).isPrefixOf
              (c :: (text ++ ' ' :: pair key rest)) = true := by
        intro hPrefix
        rcases List.isPrefixOf_iff_prefix.mp hPrefix with
          ⟨after, hAfter⟩
        have hFirst :
            splitOnce '=' ((' ' :: key) ++ '=' :: after) =
              some (' ' :: key, after) :=
          splitOnce_append after hBlank
        have hText :
            (' ' :: key) ++ '=' :: after =
              (c :: text) ++ (' ' :: key) ++ '=' :: rest := by
          simpa [pair] using hAfter
        rw [hText] at hFirst
        by_cases hEquals : '=' ∈ c :: text
        · rcases List.eq_append_cons_of_mem hEquals with
            ⟨x, y, hSplit, hFree⟩
          rw [hSplit, List.append_assoc, List.append_assoc,
            List.cons_append, splitOnce_append _ hFree] at hFirst
          have hKey : x = ' ' :: key :=
            congrArg Prod.fst (Option.some.inj hFirst)
          refine hAbsent ⟨[' '], y, ?_⟩
          rw [hSplit, hKey]
          simp
        · have hFree : '=' ∉ (c :: text) ++ (' ' :: key) := by
            rw [List.mem_append, not_or]
            exact ⟨hEquals, hBlank⟩
          rw [splitOnce_append rest hFree] at hFirst
          have hKey : (c :: text) ++ (' ' :: key) = ' ' :: key :=
            congrArg Prod.fst (Option.some.inj hFirst)
          have hSame := congrArg List.length hKey
          rw [List.length_append, List.length_cons] at hSame
          omega
      have hRest :=
        ih fun hInfix =>
          hAbsent (hInfix.trans (List.suffix_cons c text).isInfix)
      calc beforeFirst (' ' :: key ++ ['='])
            (c :: (text ++ ' ' :: pair key rest))
          = c :: beforeFirst (' ' :: key ++ ['='])
              (text ++ ' ' :: pair key rest) := if_neg hFront
        _ = c :: text := by rw [hRest]

end Text
