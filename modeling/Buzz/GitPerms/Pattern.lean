import Buzz.Channel

/-! Ref patterns: the grammar that a protection tag may use and segment-wise matching. -/

namespace Buzz.GitPerms

def maxPatternLength : ℕ := 256
def maxWildcardsPerPattern : ℕ := 3

inductive PatternSegment
  | literal (text : List Char)
  | wildcard
  | recursiveWildcard
  deriving DecidableEq, Repr

inductive PatternError
  | empty
  | tooLong
  | missingRefsPrefix
  | invalidSegment (text : String)
  | tooManyWildcards
  deriving DecidableEq, Repr

/-- A recursive wildcard can only stand at the end. -/
structure RefPattern where
  raw : String
  segments : List PatternSegment
  recursive_last : PatternSegment.recursiveWildcard ∉ segments.dropLast

def isLiteralChar (c : Char) : Bool :=
  c.isAlphanum || c == '.' || c == '_' || c == '-'

def isPartialGlob (part : List Char) : Bool :=
  part.contains '*' || part.contains '?' || part.contains '[' || part.contains ']'

/-- With the number of wildcards seen so far. -/
def parseSegments : List (List Char) → ℕ → Except PatternError (List PatternSegment)
  | [], _ => .ok []
  | part :: rest, wildcardCount =>
    if part = ['*', '*'] then
      if rest ≠ [] then .error (.invalidSegment "** must be the last segment")
      else if wildcardCount + 1 > maxWildcardsPerPattern then .error .tooManyWildcards
      else (parseSegments rest (wildcardCount + 1)).map (.recursiveWildcard :: ·)
    else if part = ['*'] then
      if wildcardCount + 1 > maxWildcardsPerPattern then .error .tooManyWildcards
      else (parseSegments rest (wildcardCount + 1)).map (.wildcard :: ·)
    else if part = [] then .error (.invalidSegment "")
    else if isPartialGlob part then .error (.invalidSegment (String.ofList part))
    else if !part.all isLiteralChar then .error (.invalidSegment (String.ofList part))
    else (parseSegments rest wildcardCount).map (.literal part :: ·)

theorem parseSegments_recursive_last (parts : List (List Char)) (count : ℕ)
    (segments : List PatternSegment) (parsed : parseSegments parts count = .ok segments) :
    PatternSegment.recursiveWildcard ∉ segments.dropLast := by
  induction parts generalizing count segments with
  | nil =>
    cases parsed
    simp
  | cons part rest ih =>
    have step : ∀ (head : PatternSegment) (count' : ℕ), head ≠ .recursiveWildcard →
        (parseSegments rest count').map (head :: ·) = .ok segments →
        PatternSegment.recursiveWildcard ∉ segments.dropLast := by
      intro head count' notRecursive mapped
      cases tail : parseSegments rest count' with
      | error e => simp [tail, Except.map] at mapped
      | ok found =>
        simp only [tail, Except.map, Except.ok.injEq] at mapped
        subst mapped
        cases found with
        | nil => simp
        | cons next more =>
          simp only [List.dropLast_cons_of_ne_nil (List.cons_ne_nil next more),
            List.mem_cons, not_or]
          exact ⟨notRecursive.symm, ih count' (next :: more) tail⟩
    unfold parseSegments at parsed
    split at parsed
    · split at parsed
      · cases parsed
      next isLast =>
        split at parsed
        · cases parsed
        · simp only [ne_eq, Decidable.not_not] at isLast
          subst isLast
          cases parsed
          simp
    · split at parsed
      · split at parsed
        · cases parsed
        · exact step .wildcard _ (by simp) parsed
      · split at parsed
        · cases parsed
        · split at parsed
          · cases parsed
          · split at parsed
            · cases parsed
            · exact step (.literal part) _ (by simp) parsed

namespace RefPattern

def parse (pattern : String) : Except PatternError RefPattern :=
  if pattern = "" then .error .empty
  else if pattern.utf8ByteSize > maxPatternLength then .error .tooLong
  else if !("refs/".toList.isPrefixOf pattern.toList) then .error .missingRefsPrefix
  else match parsed : parseSegments (pattern.toList.splitOn '/') 0 with
    | .error e => .error e
    | .ok segments =>
      .ok ⟨pattern, segments, parseSegments_recursive_last _ _ _ parsed⟩

/-- The last arm is `unreachable!`. -/
def segmentMatches : PatternSegment → List Char → Bool
  | .wildcard, _ => true
  | .literal text, segment => text == segment
  | .recursiveWildcard, _ => false

def matchesRef (self : RefPattern) (refName : String) : Bool :=
  let refSegments := refName.toList.splitOn '/'
  if self.segments.getLast? = some .recursiveWildcard then
    let prefixLen := self.segments.length - 1
    if refSegments.length ≤ prefixLen then false
    else ((self.segments.take prefixLen).zip (refSegments.take prefixLen)).all
      fun pair => segmentMatches pair.1 pair.2
  else if refSegments.length ≠ self.segments.length then false
  else (self.segments.zip refSegments).all fun pair => segmentMatches pair.1 pair.2

end RefPattern

end Buzz.GitPerms
