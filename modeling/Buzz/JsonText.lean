import Buzz.Json
import Buzz.Library.UniqueReading

/-! Canonical JSON text has one reading: the value and what follows it are known from the text. -/

namespace Buzz

open Library.UniqueReading List

def numberChar (c : Char) : Bool := c.isDigit || ['-', '+', '.', 'e'].contains c

/-- Floats round-trip, and they are not integers. -/
structure FloatText (formatFloat : F64 → String) : Prop where
  injective : Function.Injective formatFloat
  characters : ∀ value, ∀ c ∈ (formatFloat value).toList, numberChar c
  fractional : ∀ value, ∃ c ∈ (formatFloat value).toList, c = '.' ∨ c = 'e'

def hexDigitValue (c : Char) : ℕ := if c.isDigit then c.toNat - 48 else c.toNat - 87

def escaped : List Char → Option Char
  | 'b' :: _ => some '\x08'
  | 'f' :: _ => some '\x0c'
  | 'n' :: _ => some '\n'
  | 'r' :: _ => some '\r'
  | 't' :: _ => some '\t'
  | 'u' :: '0' :: '0' :: high :: low :: _ =>
    some (Char.ofNat (16 * hexDigitValue high + hexDigitValue low))
  | c :: _ => some c
  | [] => none

def unescape : List Char → Option Char
  | c :: rest => if c = '\\' then escaped rest else some c
  | [] => none

theorem hexDigitValue_control :
    ∀ n < 32, 16 * hexDigitValue (Nat.digitChar (n / 16)) +
      hexDigitValue (Nat.digitChar (n % 16)) = n := by
  decide

theorem unescape_escapeChar (c : Char) (rest : List Char) :
    unescape (escapeChar c ++ rest) = some c := by
  unfold escapeChar
  split_ifs with quote backslash backspace feed newline return_ tab control
  · simp [unescape, escaped, quote]
  · simp [unescape, escaped, backslash]
  · simp [unescape, escaped, backspace]
  · simp [unescape, escaped, feed]
  · simp [unescape, escaped, newline]
  · simp [unescape, escaped, return_]
  · simp [unescape, escaped, tab]
  · simp [unescape, escaped, hexDigitValue_control c.toNat control]
  · simp [unescape, backslash]

theorem escapeChar_code : PrefixCode escapeChar := by
  intro first second before after same
  have read : some first = some second := by
    calc
      some first = unescape (escapeChar first ++ before) := (unescape_escapeChar first before).symm
      _ = unescape (escapeChar second ++ after) := by rw [same]
      _ = some second := unescape_escapeChar second after
  exact Option.some.inj read

theorem escapeChar_not_quote (c : Char) (before after : List Char) :
    escapeChar c ++ before ≠ '"' :: after := by
  unfold escapeChar
  split_ifs with quote
  all_goals simp [quote]

theorem stringText_toList (text : String) :
    (stringText text).toList = '"' :: (text.toList.flatMap escapeChar ++ ['"']) := by
  simp [stringText]

theorem stringText_reads {first second : String} {before after : List Char}
    (same : (stringText first).toList ++ before = (stringText second).toList ++ after) :
    first = second ∧ before = after := by
  simp only [stringText_toList, cons_append, append_assoc, nil_append,
    List.cons.injEq, true_and] at same
  rcases escapeChar_code.read_until escapeChar_not_quote same with ⟨chars, rests⟩
  exact ⟨String.toList_inj.mp chars, rests⟩

variable {formatFloat : F64 → String}

section numbers

theorem repr_chars (value : ℕ) : ∀ c ∈ value.repr.toList, c.isDigit := by
  intro c member
  rw [Nat.toList_repr] at member
  exact Nat.isDigit_of_mem_toDigits (by decide) (by decide) member

theorem repr_injective {first second : ℕ} (same : first.repr.toList = second.repr.toList) :
    first = second := by
  calc
    first = Nat.ofDigitChars 10 first.repr.toList 0 := by simp [Nat.toList_repr]
    _ = Nat.ofDigitChars 10 second.repr.toList 0 := by rw [same]
    _ = second := by simp [Nat.toList_repr]

theorem negative_toList (value : ℕ) :
    ("-" ++ value.repr).toList = '-' :: value.repr.toList := by
  rw [String.toList_append]
  rfl

theorem number_chars (printed : FloatText formatFloat) (number : Number) :
    ∀ c ∈ (number.text formatFloat).toList, numberChar c := by
  intro c member
  cases number with
  | posInt value fits => simp [numberChar, repr_chars value c member]
  | negInt value fits =>
    rw [Number.text, negative_toList] at member
    rcases mem_cons.mp member with rfl | digit
    · decide
    · simp [numberChar, repr_chars value c digit]
  | float value => exact printed.characters value c member

theorem number_filled (printed : FloatText formatFloat) (number : Number) :
    (number.text formatFloat).toList ≠ [] := by
  cases number with
  | posInt value fits => simp [Number.text, Nat.toList_repr, Nat.toDigits_ne_nil]
  | negInt value fits => simp [Number.text]
  | float value =>
    rcases printed.fractional value with ⟨c, member, -⟩
    exact ne_nil_of_mem member

theorem float_not_digits (printed : FloatText formatFloat) (value : F64) {text : List Char}
    (integer : ∀ c ∈ text, c = '-' ∨ c.isDigit) : (formatFloat value).toList ≠ text := by
  intro same
  rcases printed.fractional value with ⟨c, member, point⟩
  rw [same] at member
  rcases integer c member with rfl | digit
  · simp at point
  · rcases point with rfl | rfl
    · cases digit
    · cases digit

variable {first second : Number}

theorem number_text_injective (printed : FloatText formatFloat)
    (same : (first.text formatFloat).toList = (second.text formatFloat).toList) :
    first = second := by
  have digits (value : ℕ) : ∀ c ∈ value.repr.toList, c = '-' ∨ c.isDigit :=
    fun c member => .inr (repr_chars value c member)
  have signed (value : ℕ) : ∀ c ∈ ("-" ++ value.repr).toList, c = '-' ∨ c.isDigit := by
    intro c member
    rw [negative_toList] at member
    rcases mem_cons.mp member with sign | digit
    · exact .inl sign
    · exact digits value c digit
  have unsigned (first second : ℕ) : ("-" ++ first.repr).toList ≠ second.repr.toList := by
    intro equal
    have sign : '-' ∈ second.repr.toList := by
      rw [← equal, negative_toList]
      exact mem_cons_self
    have digit := repr_chars second '-' sign
    cases digit
  cases first with
  | posInt first fits =>
    cases second with
    | posInt second fits => simp [repr_injective same]
    | negInt second fits => exact absurd same.symm (unsigned second first)
    | float second => exact absurd same.symm (float_not_digits printed second (digits first))
  | negInt first fits =>
    cases second with
    | posInt second fits => exact absurd same (unsigned first second)
    | negInt second fits =>
      simp only [Number.text, String.toList_append] at same
      simp [repr_injective (append_cancel_left same)]
    | float second => exact absurd same.symm (float_not_digits printed second (signed first))
  | float first =>
    cases second with
    | posInt second fits => exact absurd same (float_not_digits printed first (digits second))
    | negInt second fits => exact absurd same (float_not_digits printed first (signed second))
    | float second =>
      have equal := printed.injective (String.toList_inj.mp same)
      rw [equal]

def Follows (rest : List Char) : Prop := ∀ c ∈ rest.head?, c = ',' ∨ c = ']' ∨ c = '\x7d'

theorem takeWhile_number (printed : FloatText formatFloat) (number : Number) {rest : List Char}
    (follows : Follows rest) :
    ((number.text formatFloat).toList ++ rest).takeWhile numberChar =
      (number.text formatFloat).toList := by
  have ended : rest.takeWhile numberChar = [] := by
    cases rest with
    | nil => rfl
    | cons c tail =>
      apply takeWhile_cons_of_neg
      rcases follows c rfl with rfl | rfl | rfl
      · decide
      · decide
      · decide
  rw [takeWhile_append_of_pos (number_chars printed number), ended, append_nil]

theorem number_reads (printed : FloatText formatFloat)
    {before after : List Char} (follows : Follows before) (follows' : Follows after)
    (same : (first.text formatFloat).toList ++ before =
      (second.text formatFloat).toList ++ after) :
    first = second ∧ before = after := by
  have text : (first.text formatFloat).toList = (second.text formatFloat).toList := by
    calc
      _ = ((first.text formatFloat).toList ++ before).takeWhile numberChar :=
        (takeWhile_number printed first follows).symm
      _ = ((second.text formatFloat).toList ++ after).takeWhile numberChar := by rw [same]
      _ = _ := takeWhile_number printed second follows'
  rw [text] at same
  exact ⟨number_text_injective printed text, append_cancel_left same⟩

end numbers

inductive JsonKind
  | null
  | bool
  | number
  | string
  | array
  | object
  deriving DecidableEq

def Json.kind {ν : Type} : Json ν → JsonKind
  | .null => .null
  | .bool _ => .bool
  | .number _ => .number
  | .string _ => .string
  | .array _ => .array
  | .object _ => .object

def opens (c : Char) : JsonKind :=
  if c = 'n' then .null
  else if c = 't' ∨ c = 'f' then .bool
  else if c = '"' then .string
  else if c = '[' then .array
  else if c = '\x7b' then .object
  else .number

theorem numberChar_opens {c : Char} (number : numberChar c) : opens c = .number := by
  have other (d : Char) (not : numberChar d = false) : c ≠ d := by
    intro same
    rw [same, not] at number
    cases number
  simp [opens, other 'n' (by decide), other 't' (by decide), other 'f' (by decide),
    other '"' (by decide), other '[' (by decide), other '\x7b' (by decide)]

section canonical

def jsonChars (formatFloat : F64 → String) (json : Json Number) : List Char :=
  (canonicalJson formatFloat json).toList

def entryChars (formatFloat : F64 → String) (entry : String × Json Number) : List Char :=
  (stringText entry.1).toList ++ ':' :: jsonChars formatFloat entry.2

theorem canonicalItems_eq_map (items : List (Json Number)) :
    canonicalItems formatFloat items = items.map (canonicalJson formatFloat) := by
  induction items with
  | nil => rfl
  | cons item items ih => simp [canonicalItems, ih]

theorem canonicalEntries_eq_map (entries : List (String × Json Number)) :
    canonicalEntries formatFloat entries =
      entries.map fun entry => (entry.1, canonicalJson formatFloat entry.2) := by
  induction entries with
  | nil => rfl
  | cons entry entries ih => simp [canonicalEntries, ih]

theorem jsonChars_eq (json : Json Number) : jsonChars formatFloat json =
    match json with
    | .null => "null".toList
    | .bool value => (if value then "true" else "false").toList
    | .number value => (value.text formatFloat).toList
    | .string value => (stringText value).toList
    | .array items => ("[" ++ String.intercalate "," (canonicalItems formatFloat items) ++ "]").toList
    | .object entries =>
      ("\x7b" ++ String.intercalate ","
        ((Json.sortByKey (· ≤ ·) (canonicalEntries formatFloat entries)).map fun entry =>
          stringText entry.1 ++ ":" ++ entry.2) ++ "\x7d").toList := by
  cases json <;> rw [jsonChars, canonicalJson]

theorem null_chars : jsonChars formatFloat .null = ['n', 'u', 'l', 'l'] := by
  rw [jsonChars_eq]
  rfl

theorem bool_chars (value : Bool) : jsonChars formatFloat (.bool value) =
    if value then ['t', 'r', 'u', 'e'] else ['f', 'a', 'l', 's', 'e'] := by
  rw [jsonChars_eq]
  cases value with
  | false | true => rfl

theorem number_chars_eq (value : Number) :
    jsonChars formatFloat (.number value) = (value.text formatFloat).toList :=
  jsonChars_eq (.number value)

theorem string_chars (value : String) :
    jsonChars formatFloat (.string value) = (stringText value).toList :=
  jsonChars_eq (.string value)

theorem array_chars (items : List (Json Number)) :
    jsonChars formatFloat (.array items) =
      '[' :: (separated ',' (jsonChars formatFloat) items ++ [']']) := by
  rw [← intercalate_eq_separated, jsonChars_eq]
  simp only [canonicalItems_eq_map, String.toList_append, String.toList_intercalate, map_map]
  rfl

variable {entries : List (String × Json Number)}

theorem object_chars (sorted : Json.KeysSorted (entries.map Prod.fst)) :
    jsonChars formatFloat (.object entries) =
      '\x7b' :: (separated ',' (entryChars formatFloat) entries ++ ['\x7d']) := by
  have keys : Json.KeysSorted
      ((entries.map fun entry => (entry.1, canonicalJson formatFloat entry.2)).map Prod.fst) := by
    rw [map_map]
    exact sorted
  have kept := Json.sortByKey_eq_of_perm (List.Perm.refl _) keys
  rw [← intercalate_eq_separated, jsonChars_eq]
  simp only [canonicalEntries_eq_map, kept, String.toList_append,
    String.toList_intercalate, map_map, Function.comp_def]
  simp only [append_assoc]
  rfl

theorem jsonChars_opens (printed : FloatText formatFloat) (json : Json Number)
    (sorted : json.Each (fun _ => True) Json.KeysSorted) :
    ∃ c tail, jsonChars formatFloat json = c :: tail ∧ opens c = json.kind ∧ c ≠ ']' := by
  cases json with
  | null => exact ⟨'n', _, null_chars, rfl, by decide⟩
  | bool value =>
    cases value with
    | false => exact ⟨'f', _, bool_chars false, rfl, by decide⟩
    | true => exact ⟨'t', _, bool_chars true, rfl, by decide⟩
  | number value =>
    rcases exists_cons_of_ne_nil (number_filled printed value) with ⟨c, tail, shape⟩
    have numeric : numberChar c := by
      apply number_chars printed value
      rw [shape]
      exact mem_cons_self
    refine ⟨c, tail, (number_chars_eq value).trans shape, numberChar_opens numeric, ?_⟩
    intro bracket
    rw [bracket] at numeric
    cases numeric
  | string value =>
    exact ⟨'"', _, (string_chars value).trans (stringText_toList value), rfl, by decide⟩
  | array items => exact ⟨'[', _, array_chars items, rfl, by decide⟩
  | object entries => exact ⟨'\x7b', _, object_chars sorted.1, rfl, by decide⟩

abbrev SortedJson (json : Json Number) : Prop := json.Each (fun _ => True) Json.KeysSorted

abbrev Read (formatFloat : F64 → String) : Json Number → Prop :=
  ReadsBack (jsonChars formatFloat) SortedJson Follows

variable {before : List Char} {after : List Char}

theorem same_kind (printed : FloatText formatFloat) {first second : Json Number}
    (sorted : SortedJson first) (sorted' : SortedJson second)
    (same : jsonChars formatFloat first ++ before = jsonChars formatFloat second ++ after) :
    first.kind = second.kind := by
  rcases jsonChars_opens printed first sorted with ⟨c, tail, shape, kind, -⟩
  rcases jsonChars_opens printed second sorted' with ⟨c', tail', shape', kind', -⟩
  rw [shape, shape', cons_append, cons_append, List.cons.injEq] at same
  rw [← kind, ← kind', same.1]

theorem follows_comma (tail : List Char) : Follows (',' :: tail) := by
  intro c head
  exact .inl (Option.some.inj head).symm

theorem follows_bracket (tail : List Char) : Follows (']' :: tail) := by
  intro c head
  exact .inr (.inl (Option.some.inj head).symm)

theorem follows_brace (tail : List Char) : Follows ('\x7d' :: tail) := by
  intro c head
  exact .inr (.inr (Option.some.inj head).symm)

theorem entry_reads {entry : String × Json Number} (read : Read formatFloat entry.2) :
    ReadsBack (entryChars formatFloat) (fun other => SortedJson other.2) Follows entry := by
  intro other before after sorted follows follows' same
  simp only [entryChars, append_assoc, cons_append] at same
  rcases stringText_reads same with ⟨key, values⟩
  rw [List.cons.injEq] at values
  rcases read other.2 before after sorted follows follows' values.2 with ⟨value, rests⟩
  exact ⟨Prod.ext key value, rests⟩

theorem array_reads (printed : FloatText formatFloat) {items others : List (Json Number)}
    (sorted : ∀ item ∈ items, SortedJson item)
    (sorted' : ∀ item ∈ others, SortedJson item) (each : ∀ item ∈ items, Read formatFloat item)
    (same : jsonChars formatFloat (.array items) ++ before =
      jsonChars formatFloat (.array others) ++ after) : items = others ∧ before = after := by
  rw [array_chars, array_chars] at same
  simp only [cons_append, append_assoc, nil_append, List.cons.injEq, true_and]
    at same
  have opened (item : Json Number) (rest tail : List Char) (sorted : SortedJson item) :
      jsonChars formatFloat item ++ rest ≠ ']' :: tail := by
    intro equal
    rcases jsonChars_opens printed item sorted with ⟨c, chars, shape, -, other⟩
    rw [shape, cons_append, List.cons.injEq] at equal
    exact other equal.1
  exact separated_reads_back (by decide) follows_comma follows_bracket opened sorted each sorted'
    same

theorem object_reads {others : List (String × Json Number)}
    (sorted : Json.KeysSorted (entries.map Prod.fst))
    (sorted' : Json.KeysSorted (others.map Prod.fst))
    (inside : ∀ entry ∈ entries, SortedJson entry.2)
    (inside' : ∀ entry ∈ others, SortedJson entry.2)
    (each : ∀ entry ∈ entries, Read formatFloat entry.2)
    (same : jsonChars formatFloat (.object entries) ++ before =
      jsonChars formatFloat (.object others) ++ after) : entries = others ∧ before = after := by
  rw [object_chars sorted, object_chars sorted'] at same
  simp only [cons_append, append_assoc, nil_append, List.cons.injEq, true_and]
    at same
  have opened (entry : String × Json Number) (rest tail : List Char) (_ : SortedJson entry.2) :
      entryChars formatFloat entry ++ rest ≠ '\x7d' :: tail := by
    simp [entryChars, stringText_toList]
  exact separated_reads_back (by decide) follows_comma follows_brace opened inside
    (fun entry member => entry_reads (each entry member)) inside' same

mutual
theorem canonicalJson_reads (printed : FloatText formatFloat) :
    ∀ json : Json Number, SortedJson json → Read formatFloat json
  | .null, sorted => by
    intro other before after sorted' follows follows' same
    have kinds := same_kind printed sorted sorted' same
    cases other with
    | null => exact ⟨rfl, append_cancel_left same⟩
    | _ => cases kinds
  | .bool value, sorted => by
    intro other before after sorted' follows follows' same
    have kinds := same_kind printed sorted sorted' same
    cases other with
    | bool value' =>
      rw [bool_chars, bool_chars] at same
      cases value <;> cases value' <;> simp_all
    | _ => cases kinds
  | .number value, sorted => by
    intro other before after sorted' follows follows' same
    have kinds := same_kind printed sorted sorted' same
    cases other with
    | number value' =>
      rw [number_chars_eq, number_chars_eq] at same
      rcases number_reads printed follows follows' same with ⟨rfl, rests⟩
      exact ⟨rfl, rests⟩
    | _ => cases kinds
  | .string value, sorted => by
    intro other before after sorted' follows follows' same
    have kinds := same_kind printed sorted sorted' same
    cases other with
    | string value' =>
      rw [string_chars, string_chars] at same
      rcases stringText_reads same with ⟨rfl, rests⟩
      exact ⟨rfl, rests⟩
    | _ => cases kinds
  | .array items, sorted => by
    intro other before after sorted' follows follows' same
    have kinds := same_kind printed sorted sorted' same
    cases other with
    | array others =>
      rcases array_reads printed (Json.eachItem_iff.mp sorted) (Json.eachItem_iff.mp sorted')
        (items_read printed items sorted) same with ⟨rfl, rests⟩
      exact ⟨rfl, rests⟩
    | _ => cases kinds
  | .object entries, sorted => by
    intro other before after sorted' follows follows' same
    have kinds := same_kind printed sorted sorted' same
    cases other with
    | object others =>
      rcases object_reads sorted.1 sorted'.1 (Json.eachEntry_iff.mp sorted.2)
        (Json.eachEntry_iff.mp sorted'.2) (entries_read printed entries sorted.2) same with
        ⟨rfl, rests⟩
      exact ⟨rfl, rests⟩
    | _ => cases kinds

theorem items_read (printed : FloatText formatFloat) :
    ∀ items : List (Json Number), Json.EachItem (fun _ => True) Json.KeysSorted items →
      ∀ item ∈ items, Read formatFloat item
  | [], _ => fun item member => by cases member
  | head :: tail, sorted => by
    intro item member
    rcases mem_cons.mp member with same | further
    · rw [same]
      exact canonicalJson_reads printed head sorted.1
    · exact items_read printed tail sorted.2 item further

theorem entries_read (printed : FloatText formatFloat) :
    ∀ entries : List (String × Json Number),
      Json.EachEntry (fun _ => True) Json.KeysSorted entries →
      ∀ entry ∈ entries, Read formatFloat entry.2
  | [], _ => fun entry member => by cases member
  | (key, value) :: tail, sorted => by
    intro entry member
    rcases mem_cons.mp member with same | further
    · rw [same]
      exact canonicalJson_reads printed value sorted.1
    · exact entries_read printed tail sorted.2 entry further
end

theorem canonicalJson_injective (printed : FloatText formatFloat) {first second : Value}
    (same : canonicalJson formatFloat first.json = canonicalJson formatFloat second.json) :
    first = second := by
  have ended : Follows [] := by
    intro c head
    cases head
  have texts : jsonChars formatFloat first.json ++ [] = jsonChars formatFloat second.json ++ [] := by
    simp only [jsonChars, same]
  have read := canonicalJson_reads printed first.json first.sorted second.json [] []
    second.sorted ended ended texts
  cases first
  cases second
  rw [Value.mk.injEq]
  exact read.1

end canonical

end Buzz
