import Mathlib.Data.List.Basic

/-! Texts that can be read in one way only: prefix codes, and separated lists of items that are
read one after the other. -/

namespace Buzz.Library.UniqueReading


open List

variable {Symbol Item : Type}

def PrefixCode (code : Item → List Symbol) : Prop :=
  ∀ first second before after, code first ++ before = code second ++ after → first = second

theorem read_to {stop : Symbol} {first second before after : List Symbol} (outside : stop ∉ first)
    (outside' : stop ∉ second) (same : first ++ stop :: before = second ++ stop :: after) :
    first = second ∧ before = after := by
  induction first generalizing second with
  | nil =>
    cases second with
    | nil => exact ⟨rfl, (List.cons.inj same).2⟩
    | cons symbol rest => exact absurd (List.cons.inj same).1 (ne_of_not_mem_cons outside')
  | cons symbol rest ih =>
    rw [mem_cons, not_or] at outside
    cases second with
    | nil => exact absurd (List.cons.inj same).1.symm outside.1
    | cons other more =>
      obtain ⟨rfl, tails⟩ := List.cons.inj same
      obtain ⟨rfl, rests⟩ := ih outside.2 (not_mem_of_not_mem_cons outside') tails
      exact ⟨rfl, rests⟩

namespace PrefixCode

variable {code : Item → List Symbol}

theorem read (isCode : PrefixCode code) {first second : Item} {before after : List Symbol}
    (same : code first ++ before = code second ++ after) : first = second ∧ before = after := by
  have sameItem := isCode first second before after same
  subst sameItem
  exact ⟨rfl, append_cancel_left same⟩

variable {second : List Item} {first : List Item}

section

variable (isCode : PrefixCode code)

include isCode

theorem prefix_of_flatMap {before after : List Symbol}
    (same : first.flatMap code ++ before = second.flatMap code ++ after) :
    first <+: second ∨ second <+: first := by
  induction first generalizing second with
  | nil => exact .inl nil_prefix
  | cons item items ih =>
    cases second with
    | nil => exact .inr nil_prefix
    | cons other others =>
      simp only [flatMap_cons, append_assoc] at same
      rcases isCode.read same with ⟨rfl, tails⟩
      rcases ih tails with left | right
      · exact .inl (cons_prefix_cons.mpr ⟨rfl, left⟩)
      · exact .inr (cons_prefix_cons.mpr ⟨rfl, right⟩)

theorem flatMap_injective (filled : ∀ item, code item ≠ []) :
    Function.Injective fun items : List Item => items.flatMap code := by
  intro first
  induction first with
  | nil =>
    intro second same
    cases second with
    | nil => rfl
    | cons other others =>
      simp only [flatMap_nil, flatMap_cons] at same
      exact absurd (append_eq_nil_iff.mp same.symm).1 (filled other)
  | cons item items ih =>
    intro second same
    cases second with
    | nil =>
      simp only [flatMap_nil, flatMap_cons] at same
      exact absurd (append_eq_nil_iff.mp same).1 (filled item)
    | cons other others =>
      simp only [flatMap_cons] at same
      rcases isCode.read same with ⟨rfl, tails⟩
      rw [ih tails]

theorem read_until {stop : Symbol}
    (never : ∀ item before after, code item ++ before ≠ stop :: after) {before after : List Symbol}
    (same : first.flatMap code ++ stop :: before = second.flatMap code ++ stop :: after) :
    first = second ∧ before = after := by
  induction first generalizing second with
  | nil =>
    cases second with
    | nil =>
      rw [flatMap_nil, nil_append, nil_append, List.cons.injEq] at same
      exact ⟨rfl, same.2⟩
    | cons other others =>
      simp only [flatMap_nil, nil_append, flatMap_cons, append_assoc]
        at same
      exact absurd same.symm (never other _ _)
  | cons item items ih =>
    cases second with
    | nil =>
      simp only [flatMap_nil, nil_append, flatMap_cons, append_assoc]
        at same
      exact absurd same (never item _ _)
    | cons other others =>
      simp only [flatMap_cons, append_assoc] at same
      rcases isCode.read same with ⟨rfl, tails⟩
      rcases ih tails with ⟨rfl, rests⟩
      exact ⟨rfl, rests⟩

end

end PrefixCode

variable {print : Item → List Symbol} {among : Item → Prop} {follows : List Symbol → Prop}

def ReadsBack (print : Item → List Symbol) (among : Item → Prop)
    (follows : List Symbol → Prop) (item : Item) : Prop :=
  ∀ other before after, among other → follows before → follows after →
    print item ++ before = print other ++ after → item = other ∧ before = after

def further (separator : Symbol) (print : Item → List Symbol) (items : List Item) : List Symbol :=
  items.flatMap fun item => separator :: print item

def separated (separator : Symbol) (print : Item → List Symbol) : List Item → List Symbol
  | [] => []
  | item :: items => print item ++ further separator print items

theorem intercalate_eq_separated (separator : Symbol) (print : Item → List Symbol)
    (items : List Item) :
    [separator].intercalate (items.map print) = separated separator print items := by
  cases items with
  | nil => rfl
  | cons item items =>
    induction items generalizing item with
    | nil => simp [separated, further]
    | cons next items ih =>
      simp only [map_cons] at ih ⊢
      rw [intercalate_cons_cons, ih next]
      simp [separated, further]

theorem further_starts (separator close : Symbol) (print : Item → List Symbol)
    (items : List Item) (rest : List Symbol) :
    ∃ symbol tail, further separator print items ++ close :: rest = symbol :: tail ∧
      (symbol = separator ∨ symbol = close) := by
  cases items with
  | nil => exact ⟨close, rest, rfl, .inr rfl⟩
  | cons item items => exact ⟨separator, _, rfl, .inl rfl⟩

section separated

variable {separator close : Symbol} {items others : List Item} {before after : List Symbol}

theorem further_reads_back (different : separator ≠ close)
    (separates : ∀ tail, follows (separator :: tail)) (closes : ∀ tail, follows (close :: tail))
    (each : ∀ item ∈ items, ReadsBack print among follows item)
    (inside : ∀ other ∈ others, among other)
    (same : further separator print items ++ close :: before =
      further separator print others ++ close :: after) :
    items = others ∧ before = after := by
  have may (list : List Item) (rest : List Symbol) :
      follows (further separator print list ++ close :: rest) := by
    rcases further_starts separator close print list rest with ⟨symbol, tail, shape, rfl | rfl⟩
    · rw [shape]
      exact separates tail
    · rw [shape]
      exact closes tail
  induction items generalizing others with
  | nil =>
    cases others with
    | nil =>
      simp only [further, flatMap_nil, nil_append, List.cons.injEq] at same
      exact ⟨rfl, same.2⟩
    | cons other others =>
      simp only [further, flatMap_nil, flatMap_cons, nil_append,
        cons_append, List.cons.injEq] at same
      exact absurd same.1.symm different
  | cons item items ih =>
    cases others with
    | nil =>
      simp only [further, flatMap_nil, flatMap_cons, nil_append,
        cons_append, List.cons.injEq] at same
      exact absurd same.1 different
    | cons other others =>
      simp only [further, flatMap_cons, cons_append, append_assoc,
        List.cons.injEq, true_and] at same
      rcases each item mem_cons_self other _ _ (inside other mem_cons_self)
        (may items before) (may others after) same with ⟨rfl, tails⟩
      rcases ih (fun next member => each next (mem_cons_of_mem _ member))
        (fun next member => inside next (mem_cons_of_mem _ member)) tails with
        ⟨rfl, rests⟩
      exact ⟨rfl, rests⟩

theorem separated_reads_back (different : separator ≠ close)
    (separates : ∀ tail, follows (separator :: tail)) (closes : ∀ tail, follows (close :: tail))
    (opens : ∀ item rest tail, among item → print item ++ rest ≠ close :: tail)
    (known : ∀ item ∈ items, among item)
    (each : ∀ item ∈ items, ReadsBack print among follows item)
    (inside : ∀ other ∈ others, among other)
    (same : separated separator print items ++ close :: before =
      separated separator print others ++ close :: after) :
    items = others ∧ before = after := by
  cases items with
  | nil =>
    cases others with
    | nil =>
      simp only [separated, nil_append, List.cons.injEq, true_and] at same
      exact ⟨rfl, same⟩
    | cons other others =>
      simp only [separated, nil_append, append_assoc] at same
      exact absurd same.symm (opens other _ _ (inside other mem_cons_self))
  | cons item items =>
    cases others with
    | nil =>
      simp only [separated, nil_append, append_assoc] at same
      exact absurd same (opens item _ _ (known item mem_cons_self))
    | cons other others =>
      -- With a separator in front, both are lists of further items.
      apply further_reads_back different separates closes each inside
      simp only [separated, append_assoc] at same
      simp only [further, flatMap_cons, cons_append, append_assoc] at same ⊢
      rw [same]

end separated

end Buzz.Library.UniqueReading
