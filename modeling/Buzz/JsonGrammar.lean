import Buzz.JsonText
import Buzz.Nostr.Event
import Mathlib.Data.List.TakeWhile

/-! What is read from a JSON text: the grammar as a relation between a text, the value that
stands at its start and the rest of the text. -/

namespace Buzz.JsonGrammar

open Library.UniqueReading List Option

section characters

variable {text rest : List Char} {c : Char}

def Blank (c : Char) : Bool := c = ' ' || c = '\n' || c = '\t' || c = '\r'

/-- The text from its first character that is not blank. -/
def skip (text : List Char) : List Char := text.dropWhile Blank

theorem skip_cons (plain : Blank c = false) : skip (c :: rest) = c :: rest := by
  simp [skip, plain]

theorem skip_append (shape : skip text = c :: rest) (more : List Char) :
    skip (text ++ more) = c :: (rest ++ more) := by
  unfold skip at shape ⊢
  rw [dropWhile_append, shape]
  rfl

theorem skip_append_of_nil (blank : skip text = []) (more : List Char) :
    skip (text ++ more) = skip more := by
  unfold skip at blank ⊢
  rw [dropWhile_append, blank]
  rfl

def Shown (c : Char) : Prop := c ≠ '"' ∧ c ≠ '\\' ∧ 32 ≤ c.toNat

instance : DecidablePred Shown := fun _ => inferInstanceAs (Decidable (_ ∧ _))

def readHex4 : List Char → Option (ℕ × List Char)
  | first :: second :: third :: fourth :: rest =>
    match Nostr.hexValue first, Nostr.hexValue second, Nostr.hexValue third,
        Nostr.hexValue fourth with
    | some first, some second, some third, some fourth =>
      some (((first * 16 + second) * 16 + third) * 16 + fourth, rest)
    | _, _, _, _ => none
  | _ => none

def highSurrogate (unit : ℕ) : Bool := 0xd800 ≤ unit && unit < 0xdc00

def lowSurrogate (unit : ℕ) : Bool := 0xdc00 ≤ unit && unit < 0xe000

/-- Two units for a character outside the basic plane. -/
def readUnicode (text : List Char) : Option (Char × List Char) :=
  match readHex4 text with
  | none => none
  | some (unit, rest) =>
    if highSurrogate unit then
      match rest with
      | '\\' :: 'u' :: more =>
        match readHex4 more with
        | none => none
        | some (low, rest) =>
          if lowSurrogate low then
            some (Char.ofNat (0x10000 + (unit - 0xd800) * 0x400 + (low - 0xdc00)), rest)
          else none
      | _ => none
    else if lowSurrogate unit then none
    else some (Char.ofNat unit, rest)

def readEscape : List Char → Option (Char × List Char)
  | '"' :: rest => some ('"', rest)
  | '\\' :: rest => some ('\\', rest)
  | '/' :: rest => some ('/', rest)
  | 'b' :: rest => some ('\x08', rest)
  | 'f' :: rest => some ('\x0c', rest)
  | 'n' :: rest => some ('\n', rest)
  | 'r' :: rest => some ('\r', rest)
  | 't' :: rest => some ('\t', rest)
  | 'u' :: rest => readUnicode rest
  | _ => none

/-- One character of a string; none at its closing quote. -/
def readChar : List Char → Option (Char × List Char)
  | [] => none
  | c :: rest =>
    if c = '\\' then readEscape rest
    else if Shown c then some (c, rest)
    else none

theorem readHex4_shape {unit : ℕ} (read : readHex4 text = some (unit, rest)) :
    ∃ digits, text = digits ++ rest ∧ '"' ∉ digits ∧
      ∀ more, readHex4 (digits ++ more) = some (unit, more) := by
  unfold readHex4 at read
  split at read
  next first second third fourth tail =>
    split at read
    next a b c d one two three four =>
      simp only [Option.some.injEq, Prod.mk.injEq] at read
      have hexDigit (c : Char) (value : ℕ) (digit : Nostr.hexValue c = some value) : '"' ≠ c := by
        rintro rfl
        cases digit
      refine ⟨[first, second, third, fourth], by simp [read.2], ?_, ?_⟩
      · simp [hexDigit _ _ one, hexDigit _ _ two, hexDigit _ _ three, hexDigit _ _ four]
      · intro more
        simp [readHex4, one, two, three, four, read.1]
    · cases read
  · cases read

theorem readUnicode_shape (read : readUnicode text = some (c, rest)) :
    ∃ escape, text = escape ++ rest ∧ '"' ∉ escape ∧
      ∀ more, readUnicode (escape ++ more) = some (c, more) := by
  unfold readUnicode at read
  split at read
  · cases read
  next unit after first =>
    rcases readHex4_shape first with ⟨digits, shape, noQuote, again⟩
    split_ifs at read with high low
    · split at read
      next more =>
        split at read
        · cases read
        next second tail next =>
          rcases readHex4_shape next with ⟨digits', shape', noQuote', again'⟩
          split_ifs at read with low
          simp only [Option.some.injEq, Prod.mk.injEq] at read
          refine ⟨digits ++ '\\' :: 'u' :: digits', ?_, ?_, ?_⟩
          · simp [shape, shape', read.2]
          · simp [noQuote, noQuote']
          · intro more
            simp [readUnicode, again, again', high, low, read.1]
      · cases read
    · simp only [Option.some.injEq, Prod.mk.injEq] at read
      refine ⟨digits, by rw [shape, read.2], noQuote, ?_⟩
      intro more
      simp [readUnicode, again, high, low, read.1]

theorem readEscape_shape (read : readEscape text = some (c, rest)) :
    ∃ escape, text = escape ++ rest ∧ ('"' ∈ escape → escape = ['"'] ∧ c = '"') ∧ escape ≠ [] ∧
      ∀ more, readEscape (escape ++ more) = some (c, more) := by
  have short (letter : Char) (tail : List Char) (shape : text = letter :: tail)
      (value : ∀ more, readEscape (letter :: more) = some (c, more))
      (quote : letter = '"' → c = '"') :
      ∃ escape, text = escape ++ rest ∧ ('"' ∈ escape → escape = ['"'] ∧ c = '"') ∧
        escape ≠ [] ∧ ∀ more, readEscape (escape ++ more) = some (c, more) := by
    rw [shape, value tail] at read
    simp only [Option.some.injEq, Prod.mk.injEq, true_and] at read
    refine ⟨[letter], by simp [shape, read], ?_, by simp, value⟩
    intro member
    have same := (mem_singleton.mp member).symm
    exact ⟨by rw [same], quote same⟩
  unfold readEscape at read
  split at read
  case h_9 tail =>
    rcases readUnicode_shape read with ⟨escape, shape, noQuote, again⟩
    refine ⟨'u' :: escape, by simp [shape], ?_, by simp, ?_⟩
    · intro member
      rcases mem_cons.mp member with letter | inside
      · cases letter
      · exact absurd inside noQuote
    · intro more
      exact again more
  case h_10 => cases read
  all_goals
    simp only [Option.some.injEq, Prod.mk.injEq] at read
    rcases read with ⟨rfl, rfl⟩
    exact short _ _ rfl (fun _ => rfl) (by decide)

theorem readChar_shape (read : readChar text = some (c, rest)) :
    text = c :: rest ∧ Shown c ∨
      ∃ escape, text = '\\' :: (escape ++ rest) ∧ escape ≠ [] ∧
        ('"' ∈ escape → escape = ['"'] ∧ c = '"') := by
  cases text with
  | nil => cases read
  | cons first tail =>
    simp only [readChar] at read
    split_ifs at read with backslash shown
    · rcases readEscape_shape read with ⟨escape, shape, quote, filled, -⟩
      exact .inr ⟨escape, by rw [backslash, shape], filled, quote⟩
    · simp only [Option.some.injEq, Prod.mk.injEq] at read
      rcases read with ⟨rfl, rfl⟩
      exact .inl ⟨rfl, shown⟩

theorem readChar_append (read : readChar text = some (c, rest)) (more : List Char) :
    readChar (text ++ more) = some (c, rest ++ more) := by
  cases text with
  | nil => cases read
  | cons first tail =>
    simp only [cons_append, readChar] at read ⊢
    split_ifs at read ⊢ with backslash shown
    · rcases readEscape_shape read with ⟨escape, shape, -, -, again⟩
      rw [shape, append_assoc]
      exact again (rest ++ more)
    · simp only [Option.some.injEq, Prod.mk.injEq] at read
      simp [read]

theorem readChar_shown (shown : Shown c) (rest : List Char) :
    readChar (c :: rest) = some (c, rest) := by
  simp [readChar, shown, shown.2.1]

theorem readEscape_control :
    ∀ n < 32, readEscape ['u', '0', '0', Nat.digitChar (n / 16), Nat.digitChar (n % 16)] =
      some (Char.ofNat n, []) := by
  decide

theorem readChar_escapeChar (c : Char) (rest : List Char) :
    readChar (escapeChar c ++ rest) = some (c, rest) := by
  have escaped (letters : List Char) (read : readEscape letters = some (c, [])) :
      readChar ('\\' :: letters ++ rest) = some (c, rest) := by
    have whole : readChar ('\\' :: letters) = some (c, []) := read
    exact readChar_append whole rest
  unfold escapeChar
  split_ifs with quote backslash backspace feed newline return_ tab control
  · exact escaped ['"'] (by rw [quote]; rfl)
  · exact escaped ['\\'] (by rw [backslash]; rfl)
  · exact escaped ['b'] (by rw [backspace]; rfl)
  · exact escaped ['f'] (by rw [feed]; rfl)
  · exact escaped ['n'] (by rw [newline]; rfl)
  · exact escaped ['r'] (by rw [return_]; rfl)
  · exact escaped ['t'] (by rw [tab]; rfl)
  · have read := readEscape_control c.toNat control
    rw [Char.ofNat_toNat] at read
    exact escaped _ read
  · exact readChar_shown ⟨quote, backslash, by omega⟩ rest

inductive ReadsString : List Char → List Char → List Char → Prop
  | close {rest : List Char} : ReadsString ('"' :: rest) [] rest
  | char {text middle chars rest : List Char} {c : Char} (read : readChar text = some (c, middle))
      (further : ReadsString middle chars rest) : ReadsString text (c :: chars) rest

variable {chars : List Char}

theorem ReadsString.unique {chars' rest' : List Char} (read : ReadsString text chars rest)
    (other : ReadsString text chars' rest') : chars = chars' ∧ rest = rest' := by
  induction read generalizing chars' with
  | close =>
    cases other with
    | close => exact ⟨rfl, rfl⟩
    | char first further => cases first
  | char first further ih =>
    cases other with
    | close => cases first
    | char first' further' =>
      rw [first] at first'
      simp only [Option.some.injEq, Prod.mk.injEq] at first'
      rcases first' with ⟨rfl, rfl⟩
      rcases ih further' with ⟨rfl, rfl⟩
      exact ⟨rfl, rfl⟩

theorem ReadsString.append (read : ReadsString text chars rest)
    (more : List Char) : ReadsString (text ++ more) chars (rest ++ more) := by
  induction read with
  | close => exact .close
  | char first further ih => exact .char (readChar_append first more) ih

theorem ReadsString.of_shown (shown : ∀ c ∈ chars, Shown c)
    (rest : List Char) : ReadsString (chars ++ '"' :: rest) chars rest := by
  induction chars with
  | nil => exact .close
  | cons c chars ih =>
    rw [forall_mem_cons] at shown
    exact .char (readChar_shown shown.1 _) (ih shown.2)

theorem ReadsString.of_escaped (chars rest : List Char) :
    ReadsString (chars.flatMap escapeChar ++ '"' :: rest) chars rest := by
  induction chars with
  | nil => exact .close
  | cons c chars ih =>
    rw [flatMap_cons, append_assoc]
    exact .char (readChar_escapeChar c _) ih

end characters

variable {readFloat : List Char → Option F64} {formatFloat : F64 → String}

def tokenChar (c : Char) : Bool := numberChar c || c = 'E'

def integerPart (digits : List Char) : Bool := digits.length = 1 || digits.head?.any (· ≠ '0')

def exponentPart : List Char → Bool
  | '+' :: digits => digits ≠ [] && digits.all Char.isDigit
  | '-' :: digits => digits ≠ [] && digits.all Char.isDigit
  | digits => digits ≠ [] && digits.all Char.isDigit

def fractionPart : List Char → Bool
  | [] => true
  | '.' :: digits =>
    digits.takeWhile Char.isDigit ≠ [] &&
      match digits.dropWhile Char.isDigit with
      | [] => true
      | letter :: exponent => (letter = 'e' || letter = 'E') && exponentPart exponent
  | letter :: exponent => (letter = 'e' || letter = 'E') && exponentPart exponent

/-- The number of a token: digits alone are an integer when 64 bits hold them. -/
def numberOf (readFloat : List Char → Option F64) (token : List Char) : Option Number :=
  let negative := token.head? = some '-'
  let unsigned := if negative then token.tail else token
  let digits := unsigned.takeWhile Char.isDigit
  let value := Nat.ofDigitChars 10 digits 0
  if integerPart digits && fractionPart (unsigned.dropWhile Char.isDigit) then
    if unsigned.dropWhile Char.isDigit ≠ [] then (readFloat token).map .float
    else if negative then
      if fits : 0 < value ∧ value ≤ 2 ^ 63 then some (.negInt value fits)
      else (readFloat token).map .float
    else if fits : value < 2 ^ 64 then some (.posInt value fits)
    else (readFloat token).map .float
  else none

theorem token_filled {token : List Char} {number : Number}
    (read : numberOf readFloat token = some number) : token ≠ [] := by
  rintro rfl
  cases read

theorem tokenChar_blank {c : Char} (token : tokenChar c) : Blank c = false := by
  by_contra blank
  simp only [Blank, Bool.not_eq_false, Bool.or_eq_true, decide_eq_true_eq] at blank
  rcases blank with ((rfl | rfl) | rfl) | rfl <;> cases token

def ReadsNumber (readFloat : List Char → Option F64) (formatFloat : F64 → String)
    (number : Number) : Prop :=
  numberOf readFloat (number.text formatFloat).toList = some number ∧
    ∀ c ∈ (number.text formatFloat).toList, tokenChar c

theorem toDigits_head {value : ℕ} (positive : 0 < value) :
    ∃ c ∈ (Nat.toDigits 10 value).head?, c ≠ '0' := by
  induction value using Nat.strongRecOn with
  | ind value ih =>
    by_cases small : value < 10
    · rw [Nat.toDigits_of_lt_base small]
      have digit : ∀ n < 10, 0 < n → Nat.digitChar n ≠ '0' := by decide
      exact ⟨_, rfl, digit value small positive⟩
    · rw [Nat.toDigits_of_base_le (by decide) (by omega)]
      rcases ih (value / 10) (by omega) (by omega) with ⟨c, head, other⟩
      exact ⟨c, by simp [head?_append, mem_def.mp head], other⟩

theorem integerPart_repr (value : ℕ) : integerPart value.repr.toList := by
  rw [Nat.toList_repr]
  rcases Nat.eq_zero_or_pos value with rfl | positive
  · rfl
  · rcases toDigits_head positive with ⟨c, head, other⟩
    simp [integerPart, mem_def.mp head, other]

theorem numberOf_digits {digits : List Char} {value : ℕ} (all : ∀ c ∈ digits, c.isDigit)
    (leading : integerPart digits) (same : Nat.ofDigitChars 10 digits 0 = value)
    (fits : value < 2 ^ 64) : numberOf readFloat digits = some (.posInt value fits) := by
  have whole : digits.takeWhile Char.isDigit = digits := takeWhile_eq_self_iff.mpr all
  have rest : digits.dropWhile Char.isDigit = [] := dropWhile_eq_nil_iff.mpr all
  have unsigned : digits.head? ≠ some '-' := by
    intro sign
    have digit := all '-' (mem_of_mem_head? sign)
    cases digit
  subst same
  simp only [numberOf, unsigned, whole, rest, leading, fractionPart, Bool.and_self, if_false,
    if_true, ne_eq, not_true, dif_pos fits]

theorem readsNumber_posInt (value : ℕ) (fits : value < 2 ^ 64) :
    ReadsNumber readFloat formatFloat (.posInt value fits) := by
  constructor
  · exact numberOf_digits (repr_chars value) (integerPart_repr value)
      (by simp [Nat.toList_repr]) fits
  · intro c member
    simp [tokenChar, numberChar, repr_chars value c member]

/-- What a reading is of: a value, or the rest of an array or of an object. -/
inductive Part
  | value (json : Json Number)
  | items (more : List (Json Number))
  | entry (key : String) (json : Json Number)
  | entries (more : List (String × Json Number))

def Part.sort : Part → ℕ
  | .value _ => 0
  | .items _ => 1
  | .entry _ _ => 2
  | .entries _ => 3

/-- The kind of a value; nothing for the other parts. -/
def Part.kind : Part → Option JsonKind
  | .value json => some json.kind
  | _ => none

def lastOfEach {α : Type} : List (String × α) → List (String × α)
  | [] => []
  | entry :: entries =>
    if entry.1 ∈ entries.map Prod.fst then lastOfEach entries else entry :: lastOfEach entries

def objectOf (entries : List (String × Json Number)) : Json Number :=
  .object (Json.sortByKey (· ≤ ·) (lastOfEach entries))

section grammar

inductive Reads (readFloat : List Char → Option F64) : List Char → Part → List Char → Prop
  | null {text rest : List Char} (shape : skip text = 'n' :: 'u' :: 'l' :: 'l' :: rest) :
      Reads readFloat text (.value .null) rest
  | true {text rest : List Char} (shape : skip text = 't' :: 'r' :: 'u' :: 'e' :: rest) :
      Reads readFloat text (.value (.bool true)) rest
  | false {text rest : List Char} (shape : skip text = 'f' :: 'a' :: 'l' :: 's' :: 'e' :: rest) :
      Reads readFloat text (.value (.bool false)) rest
  | number {text rest : List Char} {number : Number}
      (token : numberOf readFloat ((skip text).takeWhile tokenChar) = some number)
      (after : (skip text).dropWhile tokenChar = rest) :
      Reads readFloat text (.value (.number number)) rest
  | string {text inside chars rest : List Char} (shape : skip text = '"' :: inside)
      (read : ReadsString inside chars rest) :
      Reads readFloat text (.value (.string (String.ofList chars))) rest
  | emptyArray {text inside rest : List Char} (shape : skip text = '[' :: inside)
      (close : skip inside = ']' :: rest) : Reads readFloat text (.value (.array [])) rest
  | array {text inside middle rest : List Char} {item : Json Number} {more : List (Json Number)}
      (shape : skip text = '[' :: inside) (first : Reads readFloat inside (.value item) middle)
      (further : Reads readFloat middle (.items more) rest) :
      Reads readFloat text (.value (.array (item :: more))) rest
  | emptyObject {text inside rest : List Char} (shape : skip text = '\x7b' :: inside)
      (close : skip inside = '\x7d' :: rest) : Reads readFloat text (.value (objectOf [])) rest
  | object {text inside middle rest : List Char} {key : String} {json : Json Number}
      {more : List (String × Json Number)} (shape : skip text = '\x7b' :: inside)
      (first : Reads readFloat inside (.entry key json) middle)
      (further : Reads readFloat middle (.entries more) rest) :
      Reads readFloat text (.value (objectOf ((key, json) :: more))) rest
  | itemsEnd {text rest : List Char} (shape : skip text = ']' :: rest) :
      Reads readFloat text (.items []) rest
  | itemsMore {text inside middle rest : List Char} {item : Json Number}
      {more : List (Json Number)} (shape : skip text = ',' :: inside)
      (first : Reads readFloat inside (.value item) middle)
      (further : Reads readFloat middle (.items more) rest) :
      Reads readFloat text (.items (item :: more)) rest
  | entry {text inside middle inner key rest : List Char} {json : Json Number}
      (shape : skip text = '"' :: inside) (name : ReadsString inside key middle)
      (colon : skip middle = ':' :: inner) (read : Reads readFloat inner (.value json) rest) :
      Reads readFloat text (.entry (String.ofList key) json) rest
  | entriesEnd {text rest : List Char} (shape : skip text = '\x7d' :: rest) :
      Reads readFloat text (.entries []) rest
  | entriesMore {text inside middle rest : List Char} {key : String} {json : Json Number}
      {more : List (String × Json Number)} (shape : skip text = ',' :: inside)
      (first : Reads readFloat inside (.entry key json) middle)
      (further : Reads readFloat middle (.entries more) rest) :
      Reads readFloat text (.entries ((key, json) :: more)) rest

def Parses (readFloat : List Char → Option F64) (text : String) (json : Json Number) : Prop :=
  ∃ rest, Reads readFloat text.toList (.value json) rest ∧ skip rest = []

variable {text rest : List Char}

theorem token_start {c : Char} {number : Number}
    (token : numberOf readFloat ((skip text).takeWhile tokenChar) = some number)
    (shape : skip text = c :: rest) : tokenChar c := by
  by_contra other
  exact token_filled token (by rw [shape, takeWhile_cons_of_neg other])

theorem tokenChar_opens {c : Char} (token : tokenChar c) : opens c = .number := by
  rcases Bool.or_eq_true_iff.mp token with number | letter
  · exact numberChar_opens number
  · rw [of_decide_eq_true letter]
    rfl

variable {json : Json Number}

theorem Reads.kind (read : Reads readFloat text (.value json) rest) :
    ∃ c tail, skip text = c :: tail ∧ opens c = json.kind ∧ c ≠ ']' := by
  generalize part : Part.value json = reading at read
  cases read with
  | null shape | true shape | false shape | string shape read | emptyArray shape close
  | array shape first further | emptyObject shape close | object shape first further =>
    cases part
    exact ⟨_, _, shape, rfl, by decide⟩
  | number token after =>
    cases part
    cases shape : skip text with
    | nil => exact absurd (by rw [shape, takeWhile_nil]) (token_filled token)
    | cons c tail =>
      have numeric := token_start token shape
      refine ⟨c, tail, rfl, tokenChar_opens numeric, ?_⟩
      rintro rfl
      cases numeric
  | _ => cases part

theorem Reads.entry_quote {key : String}
    (read : Reads readFloat text (.entry key json) rest) : ∃ tail, skip text = '"' :: tail := by
  generalize part : Part.entry key json = reading at read
  cases read with
  | entry shape name colon read => exact ⟨_, shape⟩
  | _ => cases part

variable {inside : List Char}

theorem Reads.string_inside
    (read : Reads readFloat text (.value json) rest) (shape : skip text = '"' :: inside) :
    ∃ chars, json = .string (String.ofList chars) ∧ ReadsString inside chars rest := by
  rcases read.kind with ⟨c, tail, start, kind, -⟩
  cases shape.symm.trans start
  generalize part : Part.value json = reading at read
  cases read with
  | string shape' read =>
    cases shape.symm.trans shape'
    cases part
    exact ⟨_, rfl, read⟩
  | _ => cases part <;> cases kind

theorem reads_shown (chars rest : List Char) (shown : ∀ c ∈ chars, Shown c) :
    Reads readFloat ('"' :: (chars ++ '"' :: rest)) (.value (.string (String.ofList chars))) rest :=
  .string (skip_cons rfl) (.of_shown shown rest)

theorem Reads.array_inside
    (read : Reads readFloat text (.value json) rest) (shape : skip text = '[' :: inside)
    (filled : ∀ tail, skip inside ≠ ']' :: tail) :
    ∃ item more middle, json = .array (item :: more) ∧
      Reads readFloat inside (.value item) middle ∧ Reads readFloat middle (.items more) rest := by
  rcases read.kind with ⟨c, tail, start, kind, -⟩
  cases shape.symm.trans start
  generalize part : Part.value json = reading at read
  cases read with
  | emptyArray shape' close =>
    cases shape.symm.trans shape'
    exact absurd close (filled _)
  | array shape' first further =>
    cases shape.symm.trans shape'
    cases part
    exact ⟨_, _, _, rfl, first, further⟩
  | _ => cases part <;> cases kind

theorem Reads.items_inside {items : List (Json Number)}
    (read : Reads readFloat text (.items items) rest) (shape : skip text = ',' :: inside) :
    ∃ item more middle, items = item :: more ∧
      Reads readFloat inside (.value item) middle ∧ Reads readFloat middle (.items more) rest := by
  generalize part : Part.items items = reading at read
  cases read with
  | itemsEnd shape' =>
    cases shape.symm.trans shape'
  | itemsMore shape' first further =>
    cases shape.symm.trans shape'
    cases part
    exact ⟨_, _, _, rfl, first, further⟩
  | _ => cases part

theorem Reads.object_opening {entry : String × Json Number} {entries : List (String × Json Number)}
    (read : Reads readFloat text (.value (.object (entry :: entries))) rest) :
    ∃ opening after, text = opening ++ '"' :: after ∧
      ∀ c ∈ opening, c = '\x7b' ∨ Blank c := by
  generalize part : Part.value (.object (entry :: entries)) = reading at read
  cases read with
  | emptyObject shape close => cases part
  | @object _ inside _ _ _ _ _ shape first further =>
    rcases first.entry_quote with ⟨after, quote⟩
    refine ⟨text.takeWhile Blank ++ '\x7b' :: inside.takeWhile Blank, after, ?_, ?_⟩
    · calc
        text = text.takeWhile Blank ++ skip text := takeWhile_append_dropWhile.symm
        _ = text.takeWhile Blank ++ '\x7b' :: (inside.takeWhile Blank ++ skip inside) := by
          rw [shape, skip, takeWhile_append_dropWhile]
        _ = _ := by rw [quote, append_assoc, cons_append]
    · intro c member
      rcases mem_append.mp member with before | later
      · exact .inr (mem_takeWhile_imp before)
      · rcases mem_cons.mp later with brace | between
        · exact .inl brace
        · exact .inr (mem_takeWhile_imp between)
  | _ => cases part

variable {part : Part} {rest' : List Char}

theorem Reads.same_kind {part' : Part}
    (other : Reads readFloat text part' rest') (read : Reads readFloat text part rest)
    (same : part.sort = part'.sort) : part.kind = part'.kind := by
  cases part with
  | value json =>
    cases part' with
    | value json' =>
      rcases read.kind with ⟨c, tail, shape, opened, -⟩
      rcases other.kind with ⟨c', tail', shape', opened', -⟩
      rw [shape, List.cons.injEq] at shape'
      simp [Part.kind, ← opened, ← opened', shape'.1]
    | _ => cases same
  | _ =>
    cases part' with
    | value json' => cases same
    | _ => rfl

theorem Reads.unique {part' : Part}
    (read : Reads readFloat text part rest) (other : Reads readFloat text part' rest')
    (same : part.sort = part'.sort) : part = part' ∧ rest = rest' := by
  induction read generalizing part' rest' with
  | null shape =>
    have kinds := other.same_kind (.null shape) same
    cases other with
    | null shape' =>
      cases shape.symm.trans shape'
      exact ⟨rfl, rfl⟩
    | _ => cases kinds
  | true shape =>
    have kinds := other.same_kind (.true shape) same
    cases other with
    | true shape' =>
      cases shape.symm.trans shape'
      exact ⟨rfl, rfl⟩
    | false shape' =>
      cases shape.symm.trans shape'
    | _ => cases kinds
  | false shape =>
    have kinds := other.same_kind (.false shape) same
    cases other with
    | false shape' =>
      cases shape.symm.trans shape'
      exact ⟨rfl, rfl⟩
    | true shape' =>
      cases shape.symm.trans shape'
    | _ => cases kinds
  | number token after =>
    have kinds := other.same_kind (.number token after) same
    cases other with
    | number token' after' =>
      cases token.symm.trans token'
      exact ⟨rfl, after.symm.trans after'⟩
    | _ => cases kinds
  | string shape read =>
    have kinds := other.same_kind (.string shape read) same
    cases other with
    | string shape' read' =>
      cases shape.symm.trans shape'
      rcases read.unique read' with ⟨rfl, rfl⟩
      exact ⟨rfl, rfl⟩
    | _ => cases kinds
  | emptyArray shape close =>
    have kinds := other.same_kind (.emptyArray shape close) same
    cases other with
    | emptyArray shape' close' =>
      cases shape.symm.trans shape'
      cases close.symm.trans close'
      exact ⟨rfl, rfl⟩
    | array shape' first' further' =>
      cases shape.symm.trans shape'
      rcases first'.kind with ⟨c, tail, start, -, other⟩
      cases close.symm.trans start
      exact absurd rfl other
    | _ => cases kinds
  | array shape first further ihFirst ihFurther =>
    have kinds := other.same_kind (.array shape first further) same
    cases other with
    | emptyArray shape' close' =>
      cases shape.symm.trans shape'
      rcases first.kind with ⟨c, tail, start, -, other⟩
      cases close'.symm.trans start
      exact absurd rfl other
    | array shape' first' further' =>
      cases shape.symm.trans shape'
      rcases ihFirst first' rfl with ⟨item, rfl⟩
      rcases ihFurther further' rfl with ⟨more, rfl⟩
      cases item
      cases more
      exact ⟨rfl, rfl⟩
    | _ => cases kinds
  | emptyObject shape close =>
    have kinds := other.same_kind (.emptyObject shape close) same
    cases other with
    | emptyObject shape' close' =>
      cases shape.symm.trans shape'
      cases close.symm.trans close'
      exact ⟨rfl, rfl⟩
    | object shape' first' further' =>
      cases shape.symm.trans shape'
      rcases first'.entry_quote with ⟨tail, start⟩
      cases close.symm.trans start
    | _ => cases kinds
  | object shape first further ihFirst ihFurther =>
    have kinds := other.same_kind (.object shape first further) same
    cases other with
    | emptyObject shape' close' =>
      cases shape.symm.trans shape'
      rcases first.entry_quote with ⟨tail, start⟩
      cases close'.symm.trans start
    | object shape' first' further' =>
      cases shape.symm.trans shape'
      rcases ihFirst first' rfl with ⟨entry, rfl⟩
      rcases ihFurther further' rfl with ⟨more, rfl⟩
      cases entry
      cases more
      exact ⟨rfl, rfl⟩
    | _ => cases kinds
  | itemsEnd shape =>
    cases other with
    | itemsEnd shape' =>
      cases shape.symm.trans shape'
      exact ⟨rfl, rfl⟩
    | itemsMore shape' first' further' =>
      cases shape.symm.trans shape'
    | _ => cases same
  | itemsMore shape first further ihFirst ihFurther =>
    cases other with
    | itemsEnd shape' =>
      cases shape.symm.trans shape'
    | itemsMore shape' first' further' =>
      cases shape.symm.trans shape'
      rcases ihFirst first' rfl with ⟨item, rfl⟩
      rcases ihFurther further' rfl with ⟨more, rfl⟩
      cases item
      cases more
      exact ⟨rfl, rfl⟩
    | _ => cases same
  | entry shape name colon read ih =>
    cases other with
    | entry shape' name' colon' read' =>
      cases shape.symm.trans shape'
      rcases name.unique name' with ⟨rfl, rfl⟩
      cases colon.symm.trans colon'
      rcases ih read' rfl with ⟨json, rfl⟩
      cases json
      exact ⟨rfl, rfl⟩
    | _ => cases same
  | entriesEnd shape =>
    cases other with
    | entriesEnd shape' =>
      cases shape.symm.trans shape'
      exact ⟨rfl, rfl⟩
    | entriesMore shape' first' further' =>
      cases shape.symm.trans shape'
    | _ => cases same
  | entriesMore shape first further ihFirst ihFurther =>
    cases other with
    | entriesEnd shape' =>
      cases shape.symm.trans shape'
    | entriesMore shape' first' further' =>
      cases shape.symm.trans shape'
      rcases ihFirst first' rfl with ⟨entry, rfl⟩
      rcases ihFurther further' rfl with ⟨more, rfl⟩
      cases entry
      cases more
      exact ⟨rfl, rfl⟩
    | _ => cases same

def EndsToken (more : List Char) : Prop := ∀ c ∈ more.head?, tokenChar c = false

variable {more : List Char}

theorem dropWhile_endsToken (ends : EndsToken more) :
    more.dropWhile tokenChar = more := by
  cases more with
  | nil => rfl
  | cons c tail => exact dropWhile_cons_of_neg (by simp [ends c rfl])

theorem takeWhile_endsToken (ends : EndsToken more) :
    more.takeWhile tokenChar = [] := by
  cases more with
  | nil => rfl
  | cons c tail => exact takeWhile_cons_of_neg (by simp [ends c rfl])

theorem takeWhile_token (text : List Char) (ends : EndsToken more) :
    (text ++ more).takeWhile tokenChar = text.takeWhile tokenChar := by
  rw [takeWhile_append]
  split_ifs with whole
  · rw [takeWhile_endsToken ends, append_nil]
    exact (( takeWhile_prefix tokenChar).eq_of_length whole).symm
  · rfl

theorem dropWhile_token (text : List Char) (ends : EndsToken more) :
    (text ++ more).dropWhile tokenChar = text.dropWhile tokenChar ++ more := by
  rw [dropWhile_append]
  split_ifs with whole
  · rw [dropWhile_endsToken ends, List.isEmpty_iff.mp whole, nil_append]
  · rfl

theorem Reads.append (read : Reads readFloat text part rest) (ends : EndsToken more) :
    Reads readFloat (text ++ more) part (rest ++ more) := by
  induction read with
  | null shape => exact .null (skip_append shape more)
  | true shape => exact .true (skip_append shape more)
  | false shape => exact .false (skip_append shape more)
  | number token after =>
    rename_i text rest number
    cases shape : skip text with
    | nil => exact absurd (by rw [shape, takeWhile_nil]) (token_filled token)
    | cons c tail =>
      rw [shape] at token after
      have longer := skip_append shape more
      rw [← cons_append] at longer
      apply Reads.number
      · rw [longer, takeWhile_token _ ends]
        exact token
      · rw [longer, dropWhile_token _ ends, after]
  | string shape read => exact .string (skip_append shape more) (read.append more)
  | emptyArray shape close => exact .emptyArray (skip_append shape more) (skip_append close more)
  | array shape first further ihFirst ihFurther =>
    exact .array (skip_append shape more) ihFirst ihFurther
  | emptyObject shape close => exact .emptyObject (skip_append shape more) (skip_append close more)
  | object shape first further ihFirst ihFurther =>
    exact .object (skip_append shape more) ihFirst ihFurther
  | itemsEnd shape => exact .itemsEnd (skip_append shape more)
  | itemsMore shape first further ihFirst ihFurther =>
    exact .itemsMore (skip_append shape more) ihFirst ihFurther
  | entry shape name colon read ih =>
    exact .entry (skip_append shape more) (name.append more) (skip_append colon more) ih
  | entriesEnd shape => exact .entriesEnd (skip_append shape more)
  | entriesMore shape first further ihFirst ihFurther =>
    exact .entriesMore (skip_append shape more) ihFirst ihFurther

end grammar

section printed

theorem endsToken_of_follows {rest : List Char} (follows : Follows rest) : EndsToken rest := by
  intro c head
  rcases follows c head with rfl | rfl | rfl
  · rfl
  · rfl
  · rfl

def ReadsPrinted (readFloat : List Char → Option F64) (formatFloat : F64 → String)
    (json : Json Number) : Prop :=
  ∀ rest, Follows rest → Reads readFloat (jsonChars formatFloat json ++ rest) (.value json) rest

theorem follows_further {Item : Type} (print : Item → List Char) (items : List Item)
    {close : Char} (closes : ∀ tail, Follows (close :: tail)) (rest : List Char) :
    Follows (further ',' print items ++ close :: rest) := by
  rcases further_starts ',' close print items rest with ⟨c, tail, shape, rfl | rfl⟩
  · rw [shape]
    exact follows_comma tail
  · rw [shape]
    exact closes tail

theorem reads_stringText (text : String) (rest : List Char) :
    Reads readFloat ((stringText text).toList ++ rest) (.value (.string text)) rest := by
  have whole : Reads readFloat _ _ _ :=
    .string (skip_cons rfl) (ReadsString.of_escaped text.toList rest)
  rw [String.ofList_toList] at whole
  simpa [stringText_toList] using whole

theorem reads_entryChars {entry : String × Json Number}
    (read : ReadsPrinted readFloat formatFloat entry.2) {rest : List Char}
    (follows : Follows rest) :
    Reads readFloat (entryChars formatFloat entry ++ rest) (.entry entry.1 entry.2) rest := by
  have name := ReadsString.of_escaped entry.1.toList
    (':' :: (jsonChars formatFloat entry.2 ++ rest))
  have whole := Reads.entry (skip_cons rfl) name (skip_cons rfl) (read rest follows)
  rw [String.ofList_toList] at whole
  simpa [entryChars, stringText_toList] using whole

variable {items : List (Json Number)}

theorem reads_items
    (each : ∀ item ∈ items, ReadsPrinted readFloat formatFloat item) (rest : List Char) :
    Reads readFloat (further ',' (jsonChars formatFloat) items ++ ']' :: rest) (.items items)
      rest := by
  induction items with
  | nil => exact .itemsEnd (skip_cons rfl)
  | cons item items ih =>
    rw [forall_mem_cons] at each
    have follows := follows_further (jsonChars formatFloat) items follows_bracket rest
    have whole := Reads.itemsMore (skip_cons rfl) (each.1 _ follows) (ih each.2)
    simpa [further] using whole

variable {entries : List (String × Json Number)}

theorem reads_entries
    (each : ∀ entry ∈ entries, ReadsPrinted readFloat formatFloat entry.2) (rest : List Char) :
    Reads readFloat (further ',' (entryChars formatFloat) entries ++ '\x7d' :: rest)
      (.entries entries) rest := by
  induction entries with
  | nil => exact .entriesEnd (skip_cons rfl)
  | cons entry entries ih =>
    rw [forall_mem_cons] at each
    have follows := follows_further (entryChars formatFloat) entries follows_brace rest
    have whole := Reads.entriesMore (skip_cons rfl) (reads_entryChars each.1 follows) (ih each.2)
    simpa [further] using whole

theorem reads_array (each : ∀ item ∈ items, ReadsPrinted readFloat formatFloat item) :
    ReadsPrinted readFloat formatFloat (.array items) := by
  intro rest follows
  rw [array_chars]
  cases items with
  | nil => exact .emptyArray (skip_cons rfl) (skip_cons rfl)
  | cons item items =>
    rw [forall_mem_cons] at each
    have follows := follows_further (jsonChars formatFloat) items follows_bracket rest
    have whole := Reads.array (skip_cons rfl) (each.1 _ follows) (reads_items each.2 rest)
    simpa [separated] using whole

theorem reads_object
    (each : ∀ entry ∈ entries, ReadsPrinted readFloat formatFloat entry.2) (rest : List Char) :
    Reads readFloat ('\x7b' :: (separated ',' (entryChars formatFloat) entries ++ '\x7d' :: rest))
      (.value (objectOf entries)) rest := by
  cases entries with
  | nil => exact .emptyObject (skip_cons rfl) (skip_cons rfl)
  | cons entry entries =>
    rw [forall_mem_cons] at each
    have follows := follows_further (entryChars formatFloat) entries follows_brace rest
    have whole := Reads.object (skip_cons rfl) (reads_entryChars each.1 follows)
      (reads_entries each.2 rest)
    simpa [separated] using whole

variable {α : Type}

theorem lastOfEach_eq {entries : List (String × α)}
    (unique : (entries.map Prod.fst).Nodup) : lastOfEach entries = entries := by
  induction entries with
  | nil => rfl
  | cons entry entries ih =>
    rw [map_cons, nodup_cons] at unique
    rw [lastOfEach, if_neg unique.1, ih unique.2]

theorem objectOf_perm {sorted : List (String × Json Number)}
    (same : entries.Perm sorted) (ordered : Json.KeysSorted (sorted.map Prod.fst)) :
    objectOf entries = .object sorted := by
  have unique : (entries.map Prod.fst).Nodup :=
    (same.map Prod.fst).nodup_iff.mpr (ordered.imp ne_of_lt)
  rw [objectOf, lastOfEach_eq unique, Json.sortByKey_eq_of_perm same ordered]

theorem lastOfEach_sublist (entries : List (String × α)) :
    (lastOfEach entries).Sublist entries := by
  induction entries with
  | nil => exact .slnil
  | cons entry entries ih =>
    rw [lastOfEach]
    split_ifs with again
    · exact ih.cons entry
    · exact ih.cons_cons entry

theorem lastOfEach_unique (entries : List (String × α)) :
    ((lastOfEach entries).map Prod.fst).Nodup := by
  induction entries with
  | nil => exact nodup_nil
  | cons entry entries ih =>
    rw [lastOfEach]
    split_ifs with again
    · exact ih
    · rw [map_cons, nodup_cons]
      exact ⟨fun member => again (((lastOfEach_sublist entries).map Prod.fst).mem member), ih⟩

theorem objectOf_each {numbers : Number → Prop}
    (each : ∀ entry ∈ entries, entry.2.Each numbers Json.KeysSorted) :
    (objectOf entries).Each numbers Json.KeysSorted := by
  constructor
  · exact Json.sortByKey_sorted (lastOfEach_unique entries)
  · apply Json.eachEntry_iff.mpr
    intro entry member
    have kept := (perm_insertionSort _ _).mem_iff.mp member
    exact each entry ((lastOfEach_sublist entries).mem kept)

theorem lastOfEach_filled (entry : String × α) (entries : List (String × α)) :
    lastOfEach (entry :: entries) ≠ [] := by
  induction entries generalizing entry with
  | nil => simp [lastOfEach]
  | cons next entries ih =>
    rw [lastOfEach]
    split_ifs with again
    · exact ih next
    · exact cons_ne_nil _ _

theorem objectOf_filled (entry : String × Json Number) (entries : List (String × Json Number)) :
    ∃ first more, objectOf (entry :: entries) = .object (first :: more) := by
  have filled : Json.sortByKey (· ≤ ·) (lastOfEach (entry :: entries)) ≠ [] := by
    intro nothing
    have same := perm_insertionSort (fun first second : String × Json Number =>
      first.1 ≤ second.1) (lastOfEach (entry :: entries))
    rw [Json.sortByKey] at nothing
    rw [nothing] at same
    exact lastOfEach_filled entry entries same.symm.eq_nil
  rcases exists_cons_of_ne_nil filled with ⟨first, more, shape⟩
  exact ⟨first, more, by rw [objectOf, shape]⟩

theorem reads_number {number : Number} (read : ReadsNumber readFloat formatFloat number) :
    ReadsPrinted readFloat formatFloat (.number number) := by
  intro rest follows
  rw [number_chars_eq]
  have filled : skip ((number.text formatFloat).toList ++ rest) =
      (number.text formatFloat).toList ++ rest := by
    rcases exists_cons_of_ne_nil (token_filled read.1) with ⟨c, tail, shape⟩
    rw [shape]
    apply skip_cons
    apply tokenChar_blank
    apply read.2
    rw [shape]
    exact mem_cons_self
  apply Reads.number
  · rw [filled, takeWhile_token _ (endsToken_of_follows follows), takeWhile_eq_self_iff.mpr read.2]
    exact read.1
  · rw [filled, dropWhile_token _ (endsToken_of_follows follows), dropWhile_eq_nil_iff.mpr read.2]
    rfl

mutual
theorem reads_canonicalJson : ∀ json : Json Number,
    json.Each (ReadsNumber readFloat formatFloat) Json.KeysSorted →
      ReadsPrinted readFloat formatFloat json
  | .null, _ => by
    intro rest follows
    rw [null_chars]
    exact .null (skip_cons rfl)
  | .bool value, _ => by
    intro rest follows
    rw [bool_chars]
    cases value with
    | false => exact .false (skip_cons rfl)
    | true => exact .true (skip_cons rfl)
  | .number value, read => reads_number read
  | .string value, _ => by
    intro rest follows
    rw [string_chars]
    exact reads_stringText value rest
  | .array items, each => reads_array (reads_canonicalItems items each)
  | .object entries, each => by
    intro rest follows
    have whole := reads_object (reads_canonicalEntries entries each.2) rest
    rw [objectOf_perm (List.Perm.refl entries) each.1] at whole
    simpa [object_chars each.1] using whole

theorem reads_canonicalItems : ∀ items : List (Json Number),
    Json.EachItem (ReadsNumber readFloat formatFloat) Json.KeysSorted items →
      ∀ item ∈ items, ReadsPrinted readFloat formatFloat item
  | [], _ => fun item member => by cases member
  | head :: tail, each =>
    forall_mem_cons.mpr ⟨reads_canonicalJson head each.1, reads_canonicalItems tail each.2⟩

theorem reads_canonicalEntries : ∀ entries : List (String × Json Number),
    Json.EachEntry (ReadsNumber readFloat formatFloat) Json.KeysSorted entries →
      ∀ entry ∈ entries, ReadsPrinted readFloat formatFloat entry.2
  | [], _ => fun entry member => by cases member
  | (_, value) :: tail, each =>
    forall_mem_cons.mpr ⟨reads_canonicalJson value each.1, reads_canonicalEntries tail each.2⟩
end

variable {json : Json Number}

theorem parses_canonicalJson
    (each : json.Each (ReadsNumber readFloat formatFloat) Json.KeysSorted) :
    Parses readFloat (canonicalJson formatFloat json) json := by
  have ended : Follows [] := by
    intro c head
    cases head
  have read := reads_canonicalJson json each [] ended
  rw [append_nil] at read
  exact ⟨[], read, rfl⟩

theorem Parses.unique {text : String} {json' : Json Number}
    (read : Parses readFloat text json) (other : Parses readFloat text json') : json = json' := by
  rcases read with ⟨rest, read, -⟩
  rcases other with ⟨rest', other, -⟩
  rcases read.unique other rfl with ⟨same, -⟩
  cases same
  rfl

end printed

end Buzz.JsonGrammar
