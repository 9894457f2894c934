import Buzz.Engram.Body

/-! The `[[slug]]` references in the text of an engram. -/

namespace Buzz.Engram

open Nostr List Option
open Buzz.Audit (utf8 utf8EncodeChar_ascii utf8_append utf8_injective)
open Buzz.Git (stripPrefix startsWith)

def splitAtByte : ℕ → List Char → Option (List Char × List Char)
  | 0, chars => some ([], chars)
  | _ + 1, [] => none
  | index + 1, c :: rest =>
    if c.utf8Size ≤ index + 1 then
      (splitAtByte (index + 1 - c.utf8Size) rest).map fun parts => (c :: parts.1, parts.2)
    else none

/-- `&text[start..start + length]`, nothing where the slice panics. -/
def slice (text : String) (start length : ℕ) : Option String :=
  (splitAtByte start text.toList).bind fun behind =>
    (splitAtByte length behind.2).map fun inside => String.ofList inside.1

/-- How far the next `]]` is, unless a `[[` comes first. -/
def closing : Bytes → Option ℕ
  | first :: second :: rest =>
    if first = 91 ∧ second = 91 then none
    else if first = 93 ∧ second = 93 then some 0
    else (closing (second :: rest)).map (· + 1)
  | _ => none

def keep (out : List String) (candidate : String) : List String :=
  if validateSlug candidate = .ok () ∧ candidate ∉ out then out ++ [candidate] else out

/-- The loop at byte `i`, with the bytes from there on. -/
def scan (body : String) (i : ℕ) (rest : Bytes) (out : List String) : Option (List String) :=
  if 3 < rest.length then
    match rest with
    | 91 :: 91 :: inner =>
      match closing inner with
      | some length => (slice body (i + 2) length).bind fun candidate =>
        scan body (i + 2 + length + 2) (inner.drop (length + 2)) (keep out candidate)
      | none => scan body (i + 2) inner out
    | _ :: rest => scan body (i + 1) rest out
    | [] => some out
  else some out
termination_by rest.length

def extractRefs (body : String) : Option (List String) := scan body 0 (utf8 body) []

section boundaries

variable {chars before after : List Char} {pre post : Bytes} {b : UInt8} {c : Char}

theorem splitAtByte_append : splitAtByte (before.flatMap String.utf8EncodeChar).length
    (before ++ after) = some (before, after) := by
  induction before with
  | nil => simp [splitAtByte]
  | cons c rest ih =>
    have size : ((c :: rest).flatMap String.utf8EncodeChar).length =
        (c.utf8Size - 1 + (rest.flatMap String.utf8EncodeChar).length) + 1 := by
      have positive := c.utf8Size_pos
      simp only [flatMap_cons, length_append, String.length_utf8EncodeChar]
      omega
    have positive := c.utf8Size_pos
    rw [size, cons_append, splitAtByte, if_pos (by omega), show c.utf8Size - 1 +
      (rest.flatMap String.utf8EncodeChar).length + 1 - c.utf8Size =
        (rest.flatMap String.utf8EncodeChar).length by omega, ih]
    rfl

theorem encoded_ascii (member : b ∈ String.utf8EncodeChar c) (small : b.toNat < 128) :
    String.utf8EncodeChar c = [b] ∧ c.toNat = b.toNat := by
  have ascii : c.toNat < 128 := by
    change c.val.toNat < 128
    by_contra large
    simp only [String.utf8EncodeChar] at member
    split at member
    · omega
    · split at member
      · simp only [mem_cons, not_mem_nil, or_false] at member
        rcases member with rfl | rfl <;> simp only [UInt8.toNat_ofNat'] at small <;> omega
      · split at member
        · simp only [mem_cons, not_mem_nil, or_false] at member
          rcases member with rfl | rfl | rfl <;> simp only [UInt8.toNat_ofNat'] at small <;> omega
        · simp only [mem_cons, not_mem_nil, or_false] at member
          rcases member with rfl | rfl | rfl | rfl <;> simp only [UInt8.toNat_ofNat'] at small <;>
            omega
  rw [utf8EncodeChar_ascii ascii, mem_singleton] at member
  rw [utf8EncodeChar_ascii ascii, member, UInt8.toNat_ofNat']
  exact ⟨rfl, (Nat.mod_eq_of_lt (by omega)).symm⟩

/-- It has character boundaries on its two sides. -/
theorem split_ascii (same : chars.flatMap String.utf8EncodeChar = pre ++ b :: post)
    (small : b.toNat < 128) : ∃ before c after, chars = before ++ c :: after ∧
      String.utf8EncodeChar c = [b] ∧ before.flatMap String.utf8EncodeChar = pre ∧
        after.flatMap String.utf8EncodeChar = post := by
  induction chars generalizing pre with
  | nil => simp at same
  | cons c rest ih =>
    have later {more : Bytes} (isPre : pre = String.utf8EncodeChar c ++ more)
        (isRest : rest.flatMap String.utf8EncodeChar = more ++ b :: post) :
        ∃ before d after, c :: rest = before ++ d :: after ∧ String.utf8EncodeChar d = [b] ∧
          before.flatMap String.utf8EncodeChar = pre ∧
            after.flatMap String.utf8EncodeChar = post := by
      rcases ih isRest with ⟨before, d, after, rfl, isByte, isMore, isPost⟩
      exact ⟨c :: before, d, after, rfl, isByte, by rw [flatMap_cons, isMore, isPre], isPost⟩
    rw [flatMap_cons] at same
    rcases append_eq_append_iff.mp same with ⟨more, isPre, isRest⟩ | ⟨more, isChar, isRest⟩
    · exact later isPre isRest
    · cases more with
      | nil =>
        have isPre : pre = String.utf8EncodeChar c ++ [] := by simpa using isChar.symm
        exact later isPre isRest.symm
      | cons first more =>
        rw [cons_append, List.cons.injEq] at isRest
        have member : b ∈ String.utf8EncodeChar c := by simp [isChar, isRest.1]
        have single := (encoded_ascii member small).1
        rw [single] at isChar
        have sizes := congrArg List.length isChar
        simp only [length_append, length_cons, length_nil] at sizes
        have none : pre = [] := eq_nil_of_length_eq_zero (by omega)
        have noMore : more = [] := eq_nil_of_length_eq_zero (by omega)
        subst none noMore
        exact ⟨[], c, rest, rfl, single, rfl, by simpa using isRest.2.symm⟩

end boundaries

def brackets (before : Bytes) : ℕ := (before.reverse.takeWhile (· == 91)).length

def Counted (i : ℕ) (rest : Bytes) (place : ℕ) (slug : String) : Prop :=
  ∃ before after, rest = before ++ 91 :: 91 :: utf8 slug ++ 93 :: 93 :: after ∧
    place = i + before.length ∧ Even (brackets before)

section occurrences

variable {before after rest inner : Bytes} {first : UInt8} {i place length : ℕ} {slug : String}

theorem brackets_append (before : Bytes) (other : first ≠ 91) :
    brackets (before ++ first :: after) = brackets after := by
  unfold brackets
  rw [reverse_append, reverse_cons, append_assoc, takeWhile_append]
  split
  next all => simpa [other] using all.symm
  · rfl

theorem brackets_pair : Even (brackets (91 :: 91 :: before)) ↔ Even (brackets before) := by
  unfold brackets
  rw [reverse_cons, reverse_cons, append_assoc, takeWhile_append]
  split
  next all =>
    rw [length_append, length_reverse, all, length_reverse]
    simp [Nat.even_add]
  · rfl

theorem brackets_cons (other : ∀ more, first :: before ++ 91 :: 91 :: rest ≠ 91 :: 91 :: more) :
    brackets (first :: before) = brackets before := by
  by_cases isOpen : first = 91
  · subst isOpen
    cases before with
    | nil => exact absurd rfl (other _)
    | cons second before =>
      have notOpen : second ≠ 91 := by
        rintro rfl
        exact other _ rfl
      exact (brackets_append [91] notOpen).trans (brackets_append [] notOpen).symm
  · exact brackets_append [] isOpen

def Plain (bytes : Bytes) : Prop := ∀ b ∈ bytes, b ≠ 91 ∧ b ≠ 93

theorem plain_segment {segment : String} (valid : validateSegment segment = .ok ()) :
    Plain (utf8 segment) := by
  intro b member
  unfold validateSegment at valid
  split at valid
  · cases valid
  next head more same =>
    rw [same] at member
    split at valid
    · cases valid
    · split at valid
      · cases valid
      next isFirst =>
        split at valid
        next others =>
          rcases mem_cons.mp member with rfl | member
          · constructor <;> rintro rfl <;> exact isFirst rfl
          · have isOther := all_eq_true.mp others b member
            constructor <;> rintro rfl <;> cases isOther
        · cases valid

theorem plain_segments {number : ℕ} {segments : List (List Char)}
    (valid : validateSegments number segments = .ok ()) :
    ∀ segment ∈ segments, Plain (utf8 (String.ofList segment)) := by
  induction segments generalizing number with
  | nil => simp
  | cons segment more ih =>
    rw [validateSegments] at valid
    split at valid
    · cases valid
    next isSegment => exact forall_mem_cons.mpr ⟨plain_segment isSegment, ih valid⟩

theorem mem_splitOn {chars : List Char} {c : Char} (member : c ∈ chars) :
    c = '/' ∨ ∃ segment ∈ chars.splitOn '/', c ∈ segment := by
  rw [← splitOnP_spec (p := (· == '/')) chars, ← map_uncurry_zip_eq_zipWith] at member
  rcases mem_flatten.mp member with ⟨part, isPart, inside⟩
  rcases mem_map.mp isPart with ⟨⟨segment, stop⟩, isPair, rfl⟩
  rcases of_mem_zip isPair with ⟨isSegment, isStop⟩
  rcases mem_append.mp inside with inside | inside
  · exact .inr ⟨segment, isSegment, inside⟩
  · rcases mem_append.mp isStop with isSlash | isLast
    · rcases mem_map.mp isSlash with ⟨slash, kept, rfl⟩
      cases mem_singleton.mp inside
      exact Or.inl (by simpa using (mem_filter.mp kept).2)
    · cases mem_singleton.mp isLast
      cases inside

theorem plain_slug (valid : validateSlug slug = .ok ()) : Plain (utf8 slug) := by
  unfold validateSlug at valid
  split at valid
  next isCore =>
    subst isCore
    unfold Plain
    decide +kernel
  · split at valid
    · cases valid
    · split at valid
      · cases valid
      next rest isRest =>
        split at valid
        · cases valid
        · unfold stripPrefix at isRest
          split at isRest
          next leads =>
            rcases isPrefixOf_iff_prefix.mp leads with ⟨chars, same⟩
            have isChars : rest.toList = chars := by
              rw [← Option.some.inj isRest, String.toList_ofList, ← same, drop_left]
            intro b member
            unfold utf8 at member
            rw [← same, flatMap_append] at member
            rcases mem_append.mp member with lead | member
            · have plain : ∀ b ∈ memPrefix.toList.flatMap String.utf8EncodeChar,
                  b ≠ 91 ∧ b ≠ 93 := by decide +kernel
              exact plain b lead
            · rcases mem_flatMap.mp member with ⟨c, inside, encoded⟩
              rw [← isChars] at inside
              rcases mem_splitOn inside with rfl | ⟨segment, isSegment, has⟩
              · have plain : ∀ b ∈ String.utf8EncodeChar '/', b ≠ 91 ∧ b ≠ 93 := by decide +kernel
                exact plain b encoded
              · exact plain_segments valid segment isSegment b (mem_flatMap.mpr
                  ⟨c, by simpa using has, encoded⟩)
          · cases isRest

variable {content : Bytes}

theorem closing_plain (plain : Plain content) :
    closing (content ++ 93 :: 93 :: after) = some content.length := by
  induction content with
  | nil => simp [closing]
  | cons first more ih =>
    rcases forall_mem_cons.mp plain with ⟨isPlain, others⟩
    cases more with
    | nil => simp [closing, isPlain.1, isPlain.2]
    | cons second more =>
      rw [cons_append, cons_append, closing, if_neg (fun both => isPlain.1 both.1),
        if_neg (fun both => isPlain.2 both.1), ← cons_append, ih others]
      rfl

theorem closing_split (isClosing : closing inner = some length) :
    ∃ content after, inner = content ++ 93 :: 93 :: after ∧ content.length = length := by
  induction inner generalizing length with
  | nil => cases isClosing
  | cons first rest ih =>
    cases rest with
    | nil => cases isClosing
    | cons second rest =>
      rw [closing] at isClosing
      split at isClosing
      · cases isClosing
      · split at isClosing
        next both =>
          cases isClosing
          exact ⟨[], rest, by rw [both.1, both.2]; rfl, rfl⟩
        · rcases map_eq_some_iff.mp isClosing with ⟨shorter, isShorter, rfl⟩
          rcases ih isShorter with ⟨content, after, same, rfl⟩
          exact ⟨first :: content, after, by rw [same]; rfl, rfl⟩

theorem closing_le (isClosing : closing (before ++ 91 :: 91 :: rest) = some length) :
    length + 2 ≤ before.length := by
  induction before generalizing length with
  | nil => simp [closing] at isClosing
  | cons first before ih =>
    cases before with
    | nil =>
      rw [cons_append, nil_append, closing, closing] at isClosing
      simp at isClosing
    | cons second before =>
      rw [cons_append, cons_append, closing] at isClosing
      split at isClosing
      · cases isClosing
      · split at isClosing
        · cases isClosing
          simp
        · rcases map_eq_some_iff.mp isClosing with ⟨shorter, isShorter, rfl⟩
          have longer := ih isShorter
          simp only [length_cons] at longer ⊢
          omega

theorem counted_short (short : ¬ 3 < rest.length) : ¬ Counted i rest place slug := by
  rintro ⟨before, after, rfl, -, -⟩
  simp at short
  omega

theorem counted_step (other : ∀ more, first :: rest ≠ 91 :: 91 :: more) :
    Counted i (first :: rest) place slug ↔ Counted (i + 1) rest place slug := by
  constructor
  · rintro ⟨before, after, same, isPlace, even⟩
    cases before with
    | nil => exact absurd same (other _)
    | cons head before =>
      rw [cons_append, cons_append, List.cons.injEq] at same
      rcases same with ⟨rfl, rfl⟩
      have same : brackets (first :: before) = brackets before :=
        brackets_cons fun more => by simpa using other more
      refine ⟨before, after, rfl, by simpa [Nat.add_assoc, Nat.add_comm 1] using isPlace, ?_⟩
      rw [← same]
      exact even
  · rintro ⟨before, after, rfl, isPlace, even⟩
    refine ⟨first :: before, after, rfl, by simp [isPlace]; omega, ?_⟩
    have same : brackets (first :: before) = brackets before :=
      brackets_cons fun more => by simpa using other more
    rw [same]
    exact even

theorem counted_open :
    Counted i (91 :: 91 :: inner) place slug ↔
      (place = i ∧ ∃ after, inner = utf8 slug ++ 93 :: 93 :: after) ∨
        Counted (i + 2) inner place slug := by
  constructor
  · rintro ⟨before, after, same, isPlace, even⟩
    cases before with
    | nil => exact Or.inl ⟨isPlace, after, by simpa using same⟩
    | cons first before =>
      cases before with
      | nil =>
        simp only [cons_append, List.cons.injEq] at same
        rw [← same.1] at even
        cases (show ¬ Even (brackets [91]) by decide) even
      | cons second before =>
        simp only [cons_append, List.cons.injEq] at same
        rcases same with ⟨rfl, rfl, rfl⟩
        refine .inr ⟨before, after, by simp, ?_, brackets_pair.mp even⟩
        simp only [length_cons] at isPlace
        omega
  · rintro (⟨rfl, after, rfl⟩ | ⟨before, after, rfl, rfl, even⟩)
    · exact ⟨[], after, by simp, rfl, by decide⟩
    · refine ⟨91 :: 91 :: before, after, by simp, ?_, brackets_pair.mpr even⟩
      simp only [length_cons]
      omega

theorem counted_closed (isClosing : closing (content ++ 93 :: 93 :: rest) = some content.length) :
    Counted i (content ++ 93 :: 93 :: rest) place slug ↔
      Counted (i + content.length + 2) rest place slug := by
  constructor
  · rintro ⟨before, after, same, isPlace, even⟩
    rw [same, append_assoc] at isClosing
    have far : content.length + 2 ≤ before.length := closing_le isClosing
    have apart : content ++ [93, 93] ++ rest = before ++ (91 :: 91 :: utf8 slug ++ 93 :: 93 :: after) := by
      rw [← append_assoc, ← same]
      simp
    rcases append_eq_append_iff.mp apart with ⟨more, isBefore, isRest⟩ | ⟨more, isLong, isRest⟩
    · refine ⟨more, after, by rw [isRest, append_assoc], ?_, ?_⟩
      · rw [isPlace, isBefore]
        simp
        omega
      · rw [isBefore, show content ++ [93, 93] ++ more = (content ++ [93]) ++ 93 :: more by simp,
          brackets_append _ (by decide)] at even
        exact even
    · have sizes := congrArg List.length isLong
      simp only [length_append, length_cons, length_nil] at sizes
      have none : more = [] := eq_nil_of_length_eq_zero (by omega)
      subst none
      refine ⟨[], after, by simpa using isRest.symm, ?_, by decide⟩
      simp only [length_nil]
      omega
  · rintro ⟨before, after, rfl, rfl, even⟩
    refine ⟨(content ++ [93]) ++ 93 :: before, after, by simp, by simp; omega, ?_⟩
    rw [brackets_append _ (by decide)]
    exact even

end occurrences

section scans

variable {body : String} {i : ℕ} {gone rest : Bytes} {out : List String}

theorem slice_content {content after : Bytes} (whole : utf8 body = gone ++ 91 :: content ++ 93 :: after)
    (isStart : gone.length + 1 = i) : ∃ candidate, slice body i content.length = some candidate ∧
      utf8 candidate = content := by
  unfold utf8 at whole
  rw [append_assoc] at whole
  rcases split_ascii whole (by decide) with ⟨before, c, behind, isBody, isOpen, rfl, isBehind⟩
  rcases split_ascii isBehind (by decide) with ⟨inside, d, later, rfl, -, rfl, -⟩
  have start : i = ((before ++ [c]).flatMap String.utf8EncodeChar).length := by
    simp [← isStart, isOpen]
  have chars : body.toList = (before ++ [c]) ++ (inside ++ d :: later) := by simpa using isBody
  refine ⟨String.ofList inside, ?_, by rw [utf8, String.toList_ofList]⟩
  rw [slice, chars, start, splitAtByte_append, bind_some, splitAtByte_append]
  rfl

def Found (i : ℕ) (rest : Bytes) (found : List (ℕ × String)) : Prop :=
  found.Pairwise (fun first second => first.1 < second.1) ∧ (∀ entry ∈ found, i ≤ entry.1) ∧
    ∀ place slug, validateSlug slug = .ok () → ((place, slug) ∈ found ↔ Counted i rest place slug)

theorem scan_found (whole : ∃ gone, utf8 body = gone ++ rest ∧ gone.length = i) :
    ∃ found, Found i rest found ∧
      scan body i rest out = some ((found.map Prod.snd).foldl keep out) := by
  fun_induction scan body i rest out with
  | case1 i out inner length isClosing long ih =>
    rcases whole with ⟨gone, whole, rfl⟩
    rcases closing_split isClosing with ⟨content, after, rfl, rfl⟩
    have shape : utf8 body = gone ++ [91] ++ 91 :: content ++ 93 :: 93 :: after := by simp [whole]
    have start : (gone ++ [91]).length + 1 = gone.length + 2 := by simp
    rcases slice_content shape start with ⟨candidate, isSlice, isContent⟩
    have remains : (content ++ 93 :: 93 :: after).drop (content.length + 2) = after := by
      rw [← drop_drop, drop_left]
      rfl
    rw [isSlice, bind_some, remains]
    rw [remains] at ih
    have further : utf8 body = gone ++ 91 :: 91 :: content ++ [93, 93] ++ after := by simp [whole]
    rcases ih candidate ⟨_, further, by simp; omega⟩ with ⟨found, ⟨sorted, later, agrees⟩, isScan⟩
    rw [isScan]
    refine ⟨(gone.length, candidate) :: found, ⟨pairwise_cons.mpr ⟨?_, sorted⟩, ?_, ?_⟩, rfl⟩
    · intro entry member
      have behind := later entry member
      dsimp only
      omega
    · intro entry member
      rcases mem_cons.mp member with rfl | member
      · exact Nat.le_refl _
      · have behind := later entry member
        omega
    · intro place slug valid
      rw [mem_cons, agrees place slug valid, counted_open, counted_closed isClosing,
        Prod.mk.injEq]
      refine or_congr (and_congr_right fun _ => ?_) Iff.rfl
      constructor
      · rintro rfl
        exact ⟨after, by rw [isContent]⟩
      · rintro ⟨others, same⟩
        have plain : closing (utf8 slug ++ 93 :: 93 :: others) = some (utf8 slug).length :=
          closing_plain (plain_slug valid)
        rw [← same, isClosing] at plain
        have texts := (append_inj same (Option.some.inj plain)).1
        exact (utf8_injective (isContent.trans texts)).symm
  | case2 i out inner isClosing long ih =>
    rcases whole with ⟨gone, whole, rfl⟩
    have further : utf8 body = gone ++ [91, 91] ++ inner := by simp [whole]
    rcases ih ⟨_, further, by simp⟩ with ⟨found, ⟨sorted, later, agrees⟩, isScan⟩
    refine ⟨found, ⟨sorted, fun entry member => ?_, fun place slug valid => ?_⟩, isScan⟩
    · have behind := later entry member
      omega
    · rw [agrees place slug valid, counted_open]
      refine ⟨.inr, fun either => either.resolve_left ?_⟩
      rintro ⟨-, after, rfl⟩
      cases isClosing.symm.trans (closing_plain (plain_slug valid))
  | case3 i out first rest other long ih =>
    rcases whole with ⟨gone, whole, rfl⟩
    have further : utf8 body = gone ++ [first] ++ rest := by simp [whole]
    rcases ih ⟨_, further, by simp⟩ with ⟨found, ⟨sorted, later, agrees⟩, isScan⟩
    refine ⟨found, ⟨sorted, fun entry member => ?_, fun place slug valid => ?_⟩, isScan⟩
    · have behind := later entry member
      omega
    · rw [agrees place slug valid, counted_step]
      rintro more same
      rw [List.cons.injEq] at same
      exact other more same.1 same.2
  | case4 _ _ long => cases long
  | case5 i rest out short =>
    refine ⟨[], ⟨List.Pairwise.nil, by simp, fun place slug _ => ?_⟩, rfl⟩
    simp [counted_short short]

theorem kept {found : List (ℕ × String)}
    (sorted : found.Pairwise fun first second => first.1 < second.1) :
    (∀ slug, slug ∈ (found.map Prod.snd).foldl keep [] ↔
      validateSlug slug = .ok () ∧ ∃ place, (place, slug) ∈ found) ∧
    ((found.map Prod.snd).foldl keep []).Pairwise fun first second =>
      ∃ place, (place, first) ∈ found ∧ ∀ other, (other, second) ∈ found → place < other := by
  induction found using reverseRecOn with
  | nil => simp
  | append_singleton found entry ih =>
    rcases entry with ⟨last, candidate⟩
    rcases pairwise_append.mp sorted with ⟨earlier, -, behind⟩
    rcases ih earlier with ⟨members, ordered⟩
    have before {place : ℕ} {slug : String} (member : (place, slug) ∈ found) : place < last :=
      behind _ member _ (mem_singleton.mpr rfl)
    have still : ((found.map Prod.snd).foldl keep []).Pairwise fun first second =>
        ∃ place, (place, first) ∈ found ++ [(last, candidate)] ∧
          ∀ other, (other, second) ∈ found ++ [(last, candidate)] → place < other := by
      refine ordered.imp ?_
      rintro first second ⟨place, member, ahead⟩
      refine ⟨place, mem_append_left _ member, fun other isOther => ?_⟩
      rcases mem_append.mp isOther with old | new
      · exact ahead other old
      · cases mem_singleton.mp new
        exact before member
    rw [map_append, foldl_append]
    simp only [map_cons, map_nil, foldl_cons, foldl_nil, keep]
    split
    next isNew =>
      refine ⟨fun slug => ?_, pairwise_append.mpr ⟨still, pairwise_singleton _ _, ?_⟩⟩
      · simp only [mem_append, members, mem_singleton, Prod.mk.injEq]
        constructor
        · rintro (⟨valid, place, member⟩ | rfl)
          · exact ⟨valid, place, .inl member⟩
          · exact ⟨isNew.1, last, .inr ⟨rfl, rfl⟩⟩
        · rintro ⟨valid, place, member | ⟨-, rfl⟩⟩
          · exact .inl ⟨valid, place, member⟩
          · exact .inr rfl
      · intro first isFirst second isSecond
        cases mem_singleton.mp isSecond
        rcases (members first).mp isFirst with ⟨-, place, member⟩
        refine ⟨place, mem_append_left _ member, fun other isOther => ?_⟩
        rcases mem_append.mp isOther with old | new
        · exact absurd ((members candidate).mpr ⟨isNew.1, other, old⟩) isNew.2
        · cases mem_singleton.mp new
          exact before member
    next isOld =>
      refine ⟨fun slug => ?_, still⟩
      simp only [members, mem_append, mem_singleton, Prod.mk.injEq]
      refine and_congr_right fun valid => ⟨?_, ?_⟩
      · rintro ⟨place, member⟩
        exact ⟨place, .inl member⟩
      · rintro ⟨place, member | ⟨-, rfl⟩⟩
        · exact ⟨place, member⟩
        · by_contra absent
          exact isOld ⟨valid, fun has => absent ((members slug).mp has).2⟩

/-- The valid slugs with an even number of brackets ahead, once and in order. -/
theorem extractRefs_counted (body : String) : ∃ refs, extractRefs body = some refs ∧ refs.Nodup ∧
    (∀ slug, slug ∈ refs ↔
      validateSlug slug = .ok () ∧ ∃ place, Counted 0 (utf8 body) place slug) ∧
    (refs.Pairwise fun first second => ∃ place, Counted 0 (utf8 body) place first ∧
      ∀ other, Counted 0 (utf8 body) other second → place < other) ∧
    ∀ slug before after, validateSlug slug = .ok () →
      utf8 body = before ++ 91 :: 91 :: utf8 slug ++ 93 :: 93 :: after →
        before.getLast? ≠ some 91 → slug ∈ refs := by
  rcases @scan_found _ _ _ [] ⟨[], rfl, rfl⟩ with ⟨found, ⟨sorted, -, agrees⟩, isScan⟩
  rcases kept sorted with ⟨members, ordered⟩
  have counts (slug : String) : slug ∈ (found.map Prod.snd).foldl keep [] ↔
      validateSlug slug = .ok () ∧ ∃ place, Counted 0 (utf8 body) place slug := by
    rw [members]
    exact and_congr_right fun valid => exists_congr fun place => agrees place slug valid
  refine ⟨_, isScan, ?_, counts, ?_, ?_⟩
  · refine ordered.imp ?_
    rintro first second ⟨place, member, ahead⟩ rfl
    exact Nat.lt_irrefl _ (ahead place member)
  · refine ordered.imp_of_mem ?_
    rintro first second isFirst isSecond ⟨place, member, ahead⟩
    have firstValid := ((members first).mp isFirst).1
    have secondValid := ((members second).mp isSecond).1
    exact ⟨place, (agrees place first firstValid).mp member,
      fun other isOther => ahead other ((agrees other second secondValid).mpr isOther)⟩
  · intro slug before after valid same alone
    refine (counts slug).mpr ⟨valid, before.length, before, after, same, (Nat.zero_add _).symm, ?_⟩
    have none : brackets before = 0 := by
      unfold brackets
      rw [getLast?_eq_head?_reverse] at alone
      cases shape : before.reverse with
      | nil => rfl
      | cons last more =>
        rw [shape] at alone
        have other : last ≠ 91 := by simpa using alone
        simp [other]
    rw [none]
    exact Even.zero

end scans

/-- An invalid candidate hides the first occurrence of its slug. -/
theorem not_extractRefs_occurring : ¬ ∀ body : String, ∃ refs, extractRefs body = some refs ∧
    refs.Pairwise fun first second =>
      ∃ before after, utf8 body = before ++ 91 :: 91 :: utf8 first ++ 93 :: 93 :: after ∧
        ∀ other more, utf8 body = other ++ 91 :: 91 :: utf8 second ++ 93 :: 93 :: more →
          before.length < other.length := by
  intro all
  rcases all "[[[mem/a]] [[mem/b]] [[mem/a]]" with ⟨refs, isRefs, ordered⟩
  have result : extractRefs "[[[mem/a]] [[mem/b]] [[mem/a]]" = some ["mem/b", "mem/a"] := by
    decide +kernel
  cases isRefs.symm.trans result
  rcases (pairwise_cons.mp ordered).1 "mem/a" (by simp) with ⟨before, after, same, ahead⟩
  have first := ahead [91] (utf8 " [[mem/b]] [[mem/a]]") (by decide +kernel)
  cases before with
  | nil =>
    have heads : ([91, 91, 91] : Bytes) = [91, 91, 109] := congrArg (List.take 3) same
    cases heads
  | cons head more => simp at first

end Buzz.Engram
