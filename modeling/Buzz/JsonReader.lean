import Buzz.JsonGrammar

/-! A reader of JSON texts that keeps the entries of an object as they are written. -/

namespace Buzz.JsonReader

open Buzz.JsonGrammar List

/-- Entries in written order, numbers as their tokens. -/
abbrev Written := Json (List Char)

def numberToken (token : List Char) : Bool :=
  let unsigned := if token.head? = some '-' then token.tail else token
  integerPart (unsigned.takeWhile Char.isDigit) && fractionPart (unsigned.dropWhile Char.isDigit)

def readString : ℕ → List Char → Option (List Char × List Char)
  | 0, _ => none
  | _ + 1, [] => none
  | fuel + 1, c :: rest =>
    if c = '"' then some ([], rest)
    else do
      let (first, middle) ← readChar (c :: rest)
      let (more, rest) ← readString fuel middle
      some (first :: more, rest)

mutual
/-- The grammar of RFC 8259, with what follows the value. -/
def readValue : ℕ → List Char → Option (Written × List Char)
  | 0, _ => none
  | fuel + 1, text =>
    match skip text with
    | [] => none
    | c :: rest =>
      if c = '"' then do
        let (chars, rest) ← readString fuel rest
        some (.string (String.ofList chars), rest)
      else if c = '[' then
        if (skip rest).head? = some ']' then some (.array [], (skip rest).tail)
        else do
          let (first, middle) ← readValue fuel rest
          let (more, rest) ← readItems fuel middle
          some (.array (first :: more), rest)
      else if c = '\x7b' then
        if (skip rest).head? = some '\x7d' then some (.object [], (skip rest).tail)
        else do
          let (first, middle) ← readEntry fuel rest
          let (more, rest) ← readEntries fuel middle
          some (.object (first :: more), rest)
      else if ['n', 'u', 'l', 'l'].isPrefixOf (c :: rest) then some (.null, rest.drop 3)
      else if ['t', 'r', 'u', 'e'].isPrefixOf (c :: rest) then some (.bool true, rest.drop 3)
      else if ['f', 'a', 'l', 's', 'e'].isPrefixOf (c :: rest) then
        some (.bool false, rest.drop 4)
      else if numberToken ((c :: rest).takeWhile tokenChar) then
        some (.number ((c :: rest).takeWhile tokenChar), (c :: rest).dropWhile tokenChar)
      else none

def readItems : ℕ → List Char → Option (List Written × List Char)
  | 0, _ => none
  | fuel + 1, text =>
    match skip text with
    | [] => none
    | c :: rest =>
      if c = ']' then some ([], rest)
      else if c = ',' then do
        let (first, middle) ← readValue fuel rest
        let (more, rest) ← readItems fuel middle
        some (first :: more, rest)
      else none

def readEntry : ℕ → List Char → Option ((String × Written) × List Char)
  | 0, _ => none
  | fuel + 1, text =>
    match skip text with
    | [] => none
    | c :: rest =>
      if c = '"' then do
        let (name, middle) ← readString fuel rest
        if (skip middle).head? = some ':' then do
          let (value, rest) ← readValue fuel (skip middle).tail
          some ((String.ofList name, value), rest)
        else none
      else none

def readEntries : ℕ → List Char → Option (List (String × Written) × List Char)
  | 0, _ => none
  | fuel + 1, text =>
    match skip text with
    | [] => none
    | c :: rest =>
      if c = '\x7d' then some ([], rest)
      else if c = ',' then do
        let (first, middle) ← readEntry fuel rest
        let (more, rest) ← readEntries fuel middle
        some (first :: more, rest)
      else none
end

def document (text : String) : Option Written :=
  match readValue (text.toList.length + 1) text.toList with
  | some (value, rest) => if skip rest = [] then some value else none
  | none => none

theorem readString_escaped {chars : List Char} {fuel : ℕ} (enough : chars.length < fuel)
    (rest : List Char) :
    readString fuel (chars.flatMap escapeChar ++ '"' :: rest) = some (chars, rest) := by
  induction chars generalizing fuel with
  | nil =>
    cases fuel with
    | zero => cases enough
    | succ fuel => rfl
  | cons c chars ih =>
    cases fuel with
    | zero => cases enough
    | succ fuel =>
      have first := readChar_escapeChar c (chars.flatMap escapeChar ++ '"' :: rest)
      rw [flatMap_cons, append_assoc]
      cases shape : escapeChar c ++ (chars.flatMap escapeChar ++ '"' :: rest) with
      | nil => simp [shape, readChar] at first
      | cons head tail =>
        have notQuote : head ≠ '"' := by
          rintro rfl
          exact escapeChar_not_quote c _ _ shape
        rw [shape] at first
        have more := ih (by simpa using enough : chars.length < fuel)
        simp [readString, notQuote, first, more]

theorem readValue_string {text : String} {fuel : ℕ} (enough : text.toList.length < fuel)
    (rest : List Char) :
    readValue (fuel + 1) ((stringText text).toList ++ rest) = some (.string text, rest) := by
  have inside := readString_escaped enough rest
  simp [readValue, stringText_toList, skip, Blank, inside]

theorem stringText_length (text : String) :
    text.toList.length + 2 ≤ (stringText text).toList.length := by
  have filled (c : Char) : 1 ≤ (escapeChar c).length := by
    unfold escapeChar
    split_ifs <;> simp
  have inside (chars : List Char) : chars.length ≤ (chars.flatMap escapeChar).length := by
    induction chars with
    | nil => simp
    | cons c chars ih =>
      have first := filled c
      simp only [flatMap_cons, length_cons, length_append]
      omega
  have body := inside text.toList
  simp only [stringText_toList, length_cons, length_append, length_nil]
  omega

mutual
/-- The text of a value, without blanks. -/
def shown : Written → List Char
  | .null => ['n', 'u', 'l', 'l']
  | .bool value => if value then ['t', 'r', 'u', 'e'] else ['f', 'a', 'l', 's', 'e']
  | .number token => token
  | .string text => (stringText text).toList
  | .array items => '[' :: ((shownItems items).tail ++ [']'])
  | .object entries => '\x7b' :: ((shownEntries entries).tail ++ ['\x7d'])

def shownItems : List Written → List Char
  | [] => []
  | item :: items => ',' :: (shown item ++ shownItems items)

def shownEntries : List (String × Written) → List Char
  | [] => []
  | (name, value) :: entries =>
    ',' :: ((stringText name).toList ++ ':' :: (shown value ++ shownEntries entries))
end

structure Token (token : List Char) : Prop where
  filled : token ≠ []
  chars : ∀ c ∈ token, tokenChar c
  valid : numberToken token

abbrev Printable (value : Written) : Prop := value.Each Token fun _ => True

variable {token : List Char}

theorem token_starts (written : Token token) (rest : List Char) :
    ∃ c tail, token ++ rest = c :: tail ∧ Blank c = false ∧ tokenChar c := by
  rcases exists_cons_of_ne_nil written.filled with ⟨c, tail, rfl⟩
  have first := written.chars c mem_cons_self
  exact ⟨c, tail ++ rest, rfl, tokenChar_blank first, first⟩

theorem shown_starts (value : Written) (printable : Printable value) (rest : List Char) :
    ∃ c tail, shown value ++ rest = c :: tail ∧ Blank c = false ∧ c ≠ ']' := by
  cases value with
  | null => exact ⟨_, _, rfl, rfl, by decide⟩
  | bool value =>
    cases value with
    | false | true => exact ⟨_, _, rfl, rfl, by decide⟩
  | number token =>
    rcases token_starts printable rest with ⟨c, tail, shape, blank, first⟩
    refine ⟨c, tail, shape, blank, ?_⟩
    rintro rfl
    cases first
  | string text =>
    refine ⟨'"', text.toList.flatMap escapeChar ++ ('"' :: rest), ?_, rfl, by decide⟩
    simp [shown, stringText_toList]
  | array items | object entries => exact ⟨_, _, rfl, rfl, by decide⟩

variable {rest : List Char}

theorem readValue_token (written : Token token) (fuel : ℕ)
    (ends : EndsToken rest) : readValue (fuel + 1) (token ++ rest) = some (.number token, rest) := by
  rcases token_starts written rest with ⟨c, tail, shape, blank, first⟩
  have other (d : Char) (not : tokenChar d = false) : c ≠ d := by
    rintro rfl
    rw [first] at not
    cases not
  have token_ : (c :: tail).takeWhile tokenChar = token := by
    rw [← shape, takeWhile_token _ ends, takeWhile_eq_self_iff.mpr written.chars]
  have after : (c :: tail).dropWhile tokenChar = rest := by
    rw [← shape, dropWhile_token _ ends, dropWhile_eq_nil_iff.mpr written.chars,
      nil_append]
  rw [readValue, shape, skip_cons blank]
  simp only [token_, after, written.valid]
  simp [isPrefixOf, other '"' rfl, other '[' rfl, other '\x7b' rfl, (other 'n' rfl).symm,
    (other 't' rfl).symm, (other 'f' rfl).symm]

variable {value : Written}

theorem readEntry_shown (name : String) (fuel : ℕ)
    (enough : (stringText name).toList.length + (shown value).length + 1 < fuel)
    (read : ∀ inner, (shown value).length < inner →
      readValue inner (shown value ++ rest) = some (value, rest)) :
    readEntry fuel ((stringText name).toList ++ ':' :: (shown value ++ rest)) =
      some ((name, value), rest) := by
  cases fuel with
  | zero => cases enough
  | succ fuel =>
    have size := stringText_length name
    have inside := readString_escaped (by omega : name.toList.length < fuel)
      (':' :: (shown value ++ rest))
    simp [readEntry, stringText_toList, skip, Blank, inside, read fuel (by omega)]

theorem skip_starts {text tail : List Char} {c : Char} (shape : text = c :: tail)
    (plain : Blank c = false) : skip text = c :: tail := by
  rw [shape, skip_cons plain]

theorem endsToken_items (items : List Written) (rest : List Char) :
    EndsToken (shownItems items ++ ']' :: rest) := by
  intro c head
  cases items <;> cases head <;> rfl

theorem endsToken_entries (entries : List (String × Written)) (rest : List Char) :
    EndsToken (shownEntries entries ++ '\x7d' :: rest) := by
  intro c head
  cases entries <;> cases head <;> rfl

mutual
theorem readValue_shown : ∀ value : Written, Printable value → ∀ (fuel : ℕ) (rest : List Char),
    (shown value).length < fuel → EndsToken rest →
      readValue fuel (shown value ++ rest) = some (value, rest)
  | value, printable, 0, rest, enough, ends => by cases enough
  | .null, printable, fuel + 1, rest, enough, ends => by
    simp [readValue, shown, skip, Blank]
  | .bool value, printable, fuel + 1, rest, enough, ends => by
    cases value <;> simp [readValue, shown, skip, Blank]
  | .number token, printable, fuel + 1, rest, enough, ends => by
    exact readValue_token printable fuel ends
  | .string text, printable, fuel + 1, rest, enough, ends => by
    have size := stringText_length text
    exact readValue_string (by simp only [shown] at enough; omega) rest
  | .array [], printable, fuel + 1, rest, enough, ends => by
    simp [readValue, shown, shownItems, skip, Blank]
  | .array (item :: items), printable, fuel + 1, rest, enough, ends => by
    have size := enough
    simp only [shown, shownItems, tail_cons, length_cons, length_append] at size
    rcases shown_starts item printable.1 (shownItems items ++ ']' :: rest) with
      ⟨c, tail, shape, blank, other⟩
    have first := readValue_shown item printable.1 fuel (shownItems items ++ ']' :: rest)
      (by omega) (endsToken_items items rest)
    have more := readItems_shown items printable.2 fuel rest (by omega)
    have opened : skip ('[' :: (shown item ++ (shownItems items ++ ']' :: rest))) =
      '[' :: (shown item ++ (shownItems items ++ ']' :: rest)) := skip_cons rfl
    simp [readValue, shown, shownItems, opened, first, more, skip_starts shape blank, other]
  | .object [], printable, fuel + 1, rest, enough, ends => by
    simp [readValue, shown, shownEntries, skip, Blank]
  | .object ((name, value) :: entries), printable, fuel + 1, rest, enough, ends => by
    have size := enough
    simp only [shown, shownEntries, tail_cons, length_cons, length_append] at size
    have first := readEntry_shown name fuel (by omega) fun inner enough =>
      readValue_shown value printable.2.1 inner (shownEntries entries ++ '\x7d' :: rest) enough
        (endsToken_entries entries rest)
    have more := readEntries_shown entries printable.2.2 fuel rest (by omega)
    have opened (tail : List Char) : skip ('\x7b' :: tail) = '\x7b' :: tail := skip_cons rfl
    have quote (tail : List Char) : (skip ((stringText name).toList ++ tail)).head? = some '"' := by
      simp [stringText_toList, skip, Blank]
    simp [readValue, shown, shownEntries, opened, quote, first, more]

theorem readItems_shown : ∀ items : List Written, Json.EachItem Token (fun _ => True) items →
    ∀ (fuel : ℕ) (rest : List Char), (shownItems items).length < fuel →
      readItems fuel (shownItems items ++ ']' :: rest) = some (items, rest)
  | items, printable, 0, rest, enough => by cases enough
  | [], printable, fuel + 1, rest, enough => rfl
  | item :: items, printable, fuel + 1, rest, enough => by
    have size := enough
    simp only [shownItems, length_cons, length_append] at size
    have first := readValue_shown item printable.1 fuel (shownItems items ++ ']' :: rest)
      (by omega) (endsToken_items items rest)
    have more := readItems_shown items printable.2 fuel rest (by omega)
    simp [readItems, shownItems, skip, Blank, first, more]

theorem readEntries_shown : ∀ entries : List (String × Written),
    Json.EachEntry Token (fun _ => True) entries → ∀ (fuel : ℕ) (rest : List Char),
      (shownEntries entries).length < fuel →
        readEntries fuel (shownEntries entries ++ '\x7d' :: rest) = some (entries, rest)
  | entries, printable, 0, rest, enough => by cases enough
  | [], printable, fuel + 1, rest, enough => rfl
  | (name, value) :: entries, printable, fuel + 1, rest, enough => by
    have size := enough
    simp only [shownEntries, length_cons, length_append] at size
    have first := readEntry_shown name fuel (by omega) fun inner enough =>
      readValue_shown value printable.1 inner (shownEntries entries ++ '\x7d' :: rest) enough
        (endsToken_entries entries rest)
    have more := readEntries_shown entries printable.2 fuel rest (by omega)
    simp [readEntries, shownEntries, skip, Blank, first, more]
end

theorem document_shown (printable : Printable value) :
    document (String.ofList (shown value)) = some value := by
  have read := readValue_shown value printable ((shown value).length + 1) [] (by omega)
    (by intro c head; cases head)
  rw [append_nil] at read
  rw [document, String.toList_ofList, read]
  rfl

end Buzz.JsonReader
