import Buzz.GitPerms.Pattern

/-! The documented pattern grammar over the text of a pattern, and what a parsed pattern
matches in terms of the `/`-segments of that text. -/

namespace Buzz.GitPerms

open List

def segmentsOf (text : String) : List (List Char) := text.toList.splitOn '/'

def isWildcardPart (part : List Char) : Bool := part == ['*'] || part == ['*', '*']

/-- One segment of the grammar: `*`, `**` or a literal `[a-zA-Z0-9._-]+`. -/
def GrammarSegment (part : List Char) : Prop :=
  isWildcardPart part ∨ (part ≠ [] ∧ part.all isLiteralChar)

@[simp] theorem isWildcardPart_wildcard : isWildcardPart ['*'] := rfl

@[simp] theorem isWildcardPart_recursive : isWildcardPart ['*', '*'] := rfl

@[simp] theorem grammarSegment_wildcard : GrammarSegment ['*'] := Or.inl rfl

@[simp] theorem grammarSegment_recursive : GrammarSegment ['*', '*'] := Or.inl rfl

structure Grammar (text : String) : Prop where
  refs : "refs/".toList <+: text.toList
  length : text.utf8ByteSize ≤ maxPatternLength
  segments : ∀ part ∈ segmentsOf text, GrammarSegment part
  recursive_last : ['*', '*'] ∉ (segmentsOf text).dropLast
  wildcards : (segmentsOf text).countP isWildcardPart ≤ maxWildcardsPerPattern

/-- `*` stands for one segment, a final `**` for one or more. -/
inductive SegmentsMatch : List (List Char) → List (List Char) → Prop
  | nil : SegmentsMatch [] []
  | wildcard {parts segments : List (List Char)} (segment : List Char) :
      SegmentsMatch parts segments → SegmentsMatch (['*'] :: parts) (segment :: segments)
  | recursive (segment : List Char) (segments : List (List Char)) :
      SegmentsMatch [['*', '*']] (segment :: segments)
  | literal {part : List Char} {parts segments : List (List Char)} :
      isWildcardPart part = false → SegmentsMatch parts segments →
        SegmentsMatch (part :: parts) (part :: segments)

def segmentOf (part : List Char) : PatternSegment :=
  if part = ['*', '*'] then .recursiveWildcard
  else if part = ['*'] then .wildcard
  else .literal part

@[simp] theorem segmentOf_recursive : segmentOf ['*', '*'] = .recursiveWildcard := by
  simp [segmentOf]

variable {part : List Char}

@[simp] theorem segmentOf_wildcard : segmentOf ['*'] = .wildcard := by simp [segmentOf]

theorem segmentOf_literal (plain : isWildcardPart part = false) :
    segmentOf part = .literal part := by
  simp only [isWildcardPart, Bool.or_eq_false_iff, beq_eq_false_iff_ne] at plain
  simp [segmentOf, plain.1, plain.2]

theorem segmentOf_eq_recursive :
    segmentOf part = .recursiveWildcard ↔ part = ['*', '*'] := by
  simp only [segmentOf]
  split <;> simp_all
  split <;> simp

/-! ## What the parser accepts -/

theorem not_partialGlob (literal : part.all isLiteralChar) :
    isPartialGlob part = false := by
  have absent : ∀ c : Char, isLiteralChar c = false → part.contains c = false := by
    intro c notLiteral
    cases found : part.contains c with
    | false => rfl
    | true =>
      have allowed := all_eq_true.mp literal c (by simpa using found)
      simp [notLiteral] at allowed
  simp only [isPartialGlob, absent '*' (by decide), absent '?' (by decide),
    absent '[' (by decide), absent ']' (by decide), Bool.or_self]

variable {α : Type}

theorem map_eq_ok {ε β : Type} {x : Except ε α} {f : α → β} {b : β} :
    x.map f = .ok b ↔ ∃ a, x = .ok a ∧ b = f a := by
  cases x <;> simp [Except.map, eq_comm]

theorem parseSegments_wildcard (rest : List (List Char)) (count : ℕ) :
    parseSegments (['*'] :: rest) count
      = if count + 1 > maxWildcardsPerPattern then .error .tooManyWildcards
        else (parseSegments rest (count + 1)).map (.wildcard :: ·) := by
  simp [parseSegments]

theorem parseSegments_recursive (rest : List (List Char)) (count : ℕ) :
    parseSegments (['*', '*'] :: rest) count
      = if rest ≠ [] then .error (.invalidSegment "** must be the last segment")
        else if count + 1 > maxWildcardsPerPattern then .error .tooManyWildcards
        else .ok [.recursiveWildcard] := by
  cases rest <;> simp [parseSegments, Except.map]

theorem parseSegments_literal (plain : isWildcardPart part = false)
    (rest : List (List Char)) (count : ℕ) (segments : List PatternSegment) :
    parseSegments (part :: rest) count = .ok segments
      ↔ (part ≠ [] ∧ part.all isLiteralChar) ∧
          ∃ tail, parseSegments rest count = .ok tail ∧ segments = .literal part :: tail := by
  simp only [isWildcardPart, Bool.or_eq_false_iff, beq_eq_false_iff_ne] at plain
  rw [parseSegments, if_neg plain.2, if_neg plain.1]
  by_cases isEmpty : part = []
  · simp [isEmpty]
  · cases literal : part.all isLiteralChar with
    | false => cases isPartialGlob part <;> simp [isEmpty]
    | true => simp [isEmpty, not_partialGlob literal, map_eq_ok]

theorem notMem_dropLast_cons (x part : List Char) (rest : List (List Char)) :
    x ∉ (part :: rest).dropLast ↔ (rest ≠ [] → part ≠ x) ∧ x ∉ rest.dropLast := by
  cases rest with
  | nil => simp
  | cons next more => simp [eq_comm]

/-- Each part is read as its own segment. -/
theorem parseSegments_eq_ok_iff (parts : List (List Char)) (count : ℕ)
    (segments : List PatternSegment) (within : count ≤ maxWildcardsPerPattern) :
    parseSegments parts count = .ok segments
      ↔ (∀ part ∈ parts, GrammarSegment part) ∧ ['*', '*'] ∉ parts.dropLast ∧
          count + parts.countP isWildcardPart ≤ maxWildcardsPerPattern ∧
          segments = parts.map segmentOf := by
  induction parts generalizing count segments with
  | nil => simp [parseSegments, within, eq_comm]
  | cons part rest ih =>
    rw [notMem_dropLast_cons]
    cases wild : isWildcardPart part with
    | false =>
      have notRecursive : part ≠ ['*', '*'] := by
        intro same
        simp [isWildcardPart, same] at wild
      rw [parseSegments_literal wild]
      simp only [ih count _ within]
      simp [GrammarSegment, wild, segmentOf_literal wild, notRecursive, and_assoc]
    | true =>
      simp only [isWildcardPart, Bool.or_eq_true, beq_iff_eq] at wild
      rcases wild with rfl | rfl
      · rw [parseSegments_wildcard]
        by_cases room : count + 1 ≤ maxWildcardsPerPattern
        · rw [if_neg (by omega), map_eq_ok]
          simp only [ih (count + 1) _ room]
          have shift : count + 1 + rest.countP isWildcardPart
              = count + (rest.countP isWildcardPart + 1) := by omega
          simp [countP_cons, and_assoc, shift]
        · rw [if_pos (by omega)]
          simp [countP_cons]
          omega
      · rw [parseSegments_recursive]
        cases rest with
        | cons next more => simp
        | nil =>
          by_cases room : count + 1 ≤ maxWildcardsPerPattern
          · rw [if_neg (by simp), if_neg (by omega)]
            simp [room, countP_cons, eq_comm]
          · rw [if_neg (by simp), if_pos (by omega)]
            simp [room]

namespace RefPattern

theorem parse_eq_ok_iff (text : String) (pattern : RefPattern) :
    parse text = .ok pattern
      ↔ Grammar text ∧ pattern.raw = text ∧ pattern.segments = (segmentsOf text).map segmentOf := by
  have reads := parseSegments_eq_ok_iff (segmentsOf text) 0
  constructor
  · intro parsed
    unfold parse at parsed
    split at parsed
    · cases parsed
    · split at parsed
      · cases parsed
      next notLong =>
        split at parsed
        · cases parsed
        next refs =>
          split at parsed
          · cases parsed
          next segments found =>
            cases parsed
            rcases (reads segments (by decide)).mp found with ⟨each, last, bounded, rfl⟩
            refine ⟨⟨by simpa using refs, by omega, each, last, by omega⟩, rfl, rfl⟩
  · rintro ⟨grammar, rfl, segments⟩
    have found : parseSegments (pattern.raw.toList.splitOn '/') 0 = .ok pattern.segments :=
      (reads pattern.segments (by decide)).mpr ⟨grammar.segments, grammar.recursive_last,
        by simpa using grammar.wildcards, segments⟩
    have notEmpty : pattern.raw ≠ "" := by
      intro empty
      have refs := grammar.refs
      simp [empty] at refs
    unfold parse
    rw [if_neg notEmpty, if_neg (by have := grammar.length; omega),
      if_neg (by simpa using grammar.refs)]
    split
    next failed => simp [found] at failed
    next segments' found' =>
      simp only [found, Except.ok.injEq] at found'
      cases found'
      rfl

end RefPattern

/-! ## What a parsed pattern matches -/

theorem notMem_of_dropLast {x : α} {xs : List α} (before : x ∉ xs.dropLast)
    (last : xs.getLast? ≠ some x) : x ∉ xs := by
  intro member
  rcases eq_nil_or_concat xs with rfl | ⟨init, final, rfl⟩
  · simp at member
  · simp_all

theorem allM_some (p : α → Bool) (check : α → Option Bool) (xs : List α)
    (agree : ∀ x ∈ xs, check x = some (p x)) : xs.allM check = some (xs.all p) := by
  induction xs with
  | nil => rfl
  | cons x rest ih =>
    have tail := ih fun y member => agree y (mem_cons_of_mem x member)
    rw [List.allM, agree x mem_cons_self]
    cases first : p x with
    | true => simpa [first] using tail
    | false => simp [first]

namespace RefPattern

def segmentMatchesChecked : PatternSegment → List Char → Option Bool
  | .wildcard, _ => some true
  | .literal text, segment => some (text == segment)
  | .recursiveWildcard, _ => none

/-- `none` is a panic: a slice out of bounds or an `unreachable!` arm. -/
def matchesChecked (self : RefPattern) (refName : String) : Option Bool :=
  let refSegments := segmentsOf refName
  if self.segments.getLast? = some .recursiveWildcard then
    let prefixLen := self.segments.length - 1
    if refSegments.length ≤ prefixLen then some false
    else if self.segments.length < prefixLen ∨ refSegments.length < prefixLen then none
    else ((self.segments.take prefixLen).zip (refSegments.take prefixLen)).allM
      fun pair => segmentMatchesChecked pair.1 pair.2
  else if refSegments.length ≠ self.segments.length then some false
  else (self.segments.zip refSegments).allM fun pair => segmentMatchesChecked pair.1 pair.2

theorem segmentMatchesChecked_eq {segment : PatternSegment}
    (plain : segment ≠ .recursiveWildcard) (text : List Char) :
    segmentMatchesChecked segment text = some (segmentMatches segment text) := by
  cases segment with
  | literal expected | wildcard => rfl
  | recursiveWildcard => exact absurd rfl plain

theorem zip_allM {segments : List PatternSegment}
    (plain : PatternSegment.recursiveWildcard ∉ segments) (texts : List (List Char)) :
    (segments.zip texts).allM (fun pair => segmentMatchesChecked pair.1 pair.2)
      = some ((segments.zip texts).all fun pair => segmentMatches pair.1 pair.2) := by
  apply allM_some
  intro pair member
  apply segmentMatchesChecked_eq
  intro isRecursive
  exact plain (isRecursive ▸ (of_mem_zip member).1)

theorem matchesChecked_eq (self : RefPattern) (refName : String) :
    self.matchesChecked refName = some (self.matchesRef refName) := by
  have plain := self.recursive_last
  unfold matchesChecked matchesRef segmentsOf
  simp only
  split
  · split
    · rfl
    · rw [if_neg (by omega)]
      apply zip_allM
      rwa [← dropLast_eq_take]
  next notRecursive =>
    split
    · rfl
    · apply zip_allM
      intro member
      rcases eq_nil_or_concat self.segments with isNil | ⟨init, last, isConcat⟩
      · simp [isNil] at member
      · simp only [isConcat, concat_eq_append] at plain notRecursive member
        simp_all

end RefPattern

theorem segmentsMatch_nil_left (texts : List (List Char)) :
    SegmentsMatch [] texts ↔ texts = [] := by
  constructor
  · intro matched
    cases matched
    rfl
  · intro isNil
    exact isNil ▸ .nil

theorem not_segmentsMatch_nil (part : List Char) (parts : List (List Char)) :
    ¬SegmentsMatch (part :: parts) [] := by
  intro matched
  cases matched

theorem segmentsMatch_cons (notRecursive : part ≠ ['*', '*'])
    (parts : List (List Char)) (text : List Char) (texts : List (List Char)) :
    SegmentsMatch (part :: parts) (text :: texts)
      ↔ RefPattern.segmentMatches (segmentOf part) text ∧ SegmentsMatch parts texts := by
  by_cases star : part = ['*']
  · subst star
    constructor
    · intro matched
      cases matched with
      | wildcard segment tail => exact ⟨by simp [RefPattern.segmentMatches], tail⟩
      | literal notWild tail => simp at notWild
    · intro both
      exact .wildcard text both.2
  · have notWild : isWildcardPart part = false := by
      simp [isWildcardPart, star, notRecursive]
    rw [segmentOf_literal notWild]
    constructor
    · intro matched
      cases matched with
      | wildcard segment tail => exact absurd rfl star
      | recursive segment segments => exact absurd rfl notRecursive
      | literal _ tail => exact ⟨by simp [RefPattern.segmentMatches], tail⟩
    · rintro ⟨same, tail⟩
      simp only [RefPattern.segmentMatches, beq_iff_eq] at same
      subst same
      exact .literal notWild tail

variable {parts : List (List Char)}

theorem segmentsMatch_iff_zip (plain : ['*', '*'] ∉ parts) (texts : List (List Char)) :
    SegmentsMatch parts texts
      ↔ texts.length = parts.length ∧
          ((parts.map segmentOf).zip texts).all
            (fun pair => RefPattern.segmentMatches pair.1 pair.2) := by
  induction parts generalizing texts with
  | nil => simp [segmentsMatch_nil_left]
  | cons part rest ih =>
    simp only [mem_cons, not_or] at plain
    cases texts with
    | nil => simp [not_segmentsMatch_nil]
    | cons text more =>
      rw [segmentsMatch_cons (Ne.symm plain.1), ih plain.2]
      simp [and_left_comm]

theorem segmentsMatch_append_recursive (plain : ['*', '*'] ∉ parts) (texts : List (List Char)) :
    SegmentsMatch (parts ++ [['*', '*']]) texts
      ↔ parts.length < texts.length ∧ SegmentsMatch parts (texts.take parts.length) := by
  induction parts generalizing texts with
  | nil =>
    cases texts with
    | nil => simp [not_segmentsMatch_nil]
    | cons text more => simp [segmentsMatch_nil_left, SegmentsMatch.recursive]
  | cons part rest ih =>
    simp only [mem_cons, not_or] at plain
    cases texts with
    | nil => simp [not_segmentsMatch_nil]
    | cons text more =>
      rw [cons_append, segmentsMatch_cons (Ne.symm plain.1), ih plain.2]
      simp [segmentsMatch_cons (Ne.symm plain.1), and_left_comm]

namespace RefPattern

theorem getLast?_segments {parts : List (List Char)} :
    (parts.map segmentOf).getLast? = some .recursiveWildcard
      ↔ ∃ init, parts = init ++ [['*', '*']] := by
  rcases eq_nil_or_concat parts with rfl | ⟨init, last, rfl⟩
  · simp
  · simp [segmentOf_eq_recursive]

theorem matchesRef_iff {text : String} {pattern : RefPattern} (parsed : parse text = .ok pattern)
    (refName : String) :
    pattern.matchesRef refName ↔ SegmentsMatch (segmentsOf text) (segmentsOf refName) := by
  rcases (parse_eq_ok_iff text pattern).mp parsed with ⟨grammar, -, segments⟩
  have notBefore := grammar.recursive_last
  unfold matchesRef
  simp only [segments, length_map]
  change _ ↔ SegmentsMatch (segmentsOf text) (segmentsOf refName)
  rw [← segmentsOf]
  by_cases final : ∃ init, segmentsOf text = init ++ [['*', '*']]
  · rw [if_pos (getLast?_segments.mpr final)]
    rcases final with ⟨init, isAppend⟩
    rw [isAppend] at notBefore ⊢
    simp only [dropLast_concat] at notBefore
    rw [segmentsMatch_append_recursive notBefore, segmentsMatch_iff_zip notBefore]
    by_cases long : init.length < (segmentsOf refName).length
    · simp [long, Nat.not_le.mpr long, Nat.le_of_lt long]
    · simp [long, Nat.le_of_not_lt long]
  · rw [if_neg (mt getLast?_segments.mp final)]
    have plain : ['*', '*'] ∉ segmentsOf text := by
      apply notMem_of_dropLast notBefore
      intro last
      exact final (getLast?_eq_some_iff.mp last)
    rw [segmentsMatch_iff_zip plain]
    by_cases same : (segmentsOf refName).length = (segmentsOf text).length
    · simp [same]
    · simp [same]

/-- The matcher never panics and follows the grammar. -/
theorem parse_matches (text : String) :
    ((∃ pattern, parse text = .ok pattern) ↔ Grammar text) ∧
      ∀ pattern, parse text = .ok pattern → ∀ refName, ∃ matched,
        pattern.matchesChecked refName = some matched ∧
          (matched ↔ SegmentsMatch (segmentsOf text) (segmentsOf refName)) := by
  constructor
  · constructor
    · rintro ⟨pattern, parsed⟩
      exact ((parse_eq_ok_iff text pattern).mp parsed).1
    · intro grammar
      have last : PatternSegment.recursiveWildcard ∉ ((segmentsOf text).map segmentOf).dropLast := by
        intro member
        rw [← map_dropLast, mem_map] at member
        rcases member with ⟨part, inside, isRecursive⟩
        exact grammar.recursive_last (segmentOf_eq_recursive.mp isRecursive ▸ inside)
      exact ⟨⟨text, (segmentsOf text).map segmentOf, last⟩,
        (parse_eq_ok_iff text _).mpr ⟨grammar, rfl, rfl⟩⟩
  · intro pattern parsed refName
    exact ⟨_, matchesChecked_eq pattern refName, matchesRef_iff parsed refName⟩

theorem parse_matches_tags :
    ∃ pattern, parse "refs/tags/**" = .ok pattern ∧
      pattern.matchesChecked "refs/tags/v1/rc" = some true := by
  have segments : segmentsOf "refs/tags/**"
      = [['r', 'e', 'f', 's'], ['t', 'a', 'g', 's'], ['*', '*']] := by decide +kernel
  have refSegments : segmentsOf "refs/tags/v1/rc"
      = [['r', 'e', 'f', 's'], ['t', 'a', 'g', 's'], ['v', '1'], ['r', 'c']] := by decide +kernel
  have grammar : Grammar "refs/tags/**" := by
    refine ⟨by decide +kernel, by decide +kernel, ?_, ?_, ?_⟩
    · simp [segments, GrammarSegment, isWildcardPart, isLiteralChar]
    · simp [segments]
    · simp [segments, isWildcardPart, maxWildcardsPerPattern]
  rcases (parse_matches "refs/tags/**").1.mpr grammar with ⟨pattern, parsed⟩
  rcases (parse_matches "refs/tags/**").2 pattern parsed "refs/tags/v1/rc"
    with ⟨matched, checked, isMatch⟩
  have holds : matched := by
    rw [isMatch, segments, refSegments]
    exact .literal (by decide) (.literal (by decide) (.recursive _ _))
  exact ⟨pattern, parsed, holds ▸ checked⟩

end RefPattern

end Buzz.GitPerms
