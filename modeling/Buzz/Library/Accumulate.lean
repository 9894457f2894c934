import Mathlib.Data.List.Nodup

/-! Lists built up by a loop: pushing what is not there yet, and fallible folds whose
accumulator only grows. -/

namespace Buzz.Library.Accumulate

open List

variable {α β : Type*}

section pushNew

variable [DecidableEq α]

/-- `if seen.insert(x) { out.push(x) }`. -/
def pushNew (out : List α) (x : α) : List α :=
  if x ∈ out then out else out ++ [x]

variable {out : List α}

theorem mem_pushNew {x y : α} :
    y ∈ pushNew out x ↔ y ∈ out ∨ y = x := by
  unfold pushNew
  split
  next present =>
    constructor
    · exact Or.inl
    · rintro (member | rfl)
      · exact member
      · exact present
  · simp

theorem pushNew_nodup (distinct : out.Nodup) (x : α) :
    (pushNew out x).Nodup := by
  unfold pushNew
  split
  · exact distinct
  next absent =>
    exact nodup_append.mpr ⟨distinct, nodup_singleton x, by
      intro y member z single same
      rw [mem_singleton] at single
      exact absent (single ▸ same ▸ member)⟩

theorem foldl_pushNew_nodup (distinct : out.Nodup) (items : List α) :
    (items.foldl pushNew out).Nodup := by
  induction items generalizing out with
  | nil => exact distinct
  | cons head tail ih => exact ih (pushNew_nodup distinct head)

theorem mem_foldl_pushNew (out items : List α) (y : α) :
    y ∈ items.foldl pushNew out ↔ y ∈ out ∨ y ∈ items := by
  induction items generalizing out with
  | nil => simp
  | cons head tail ih =>
    rw [foldl_cons, ih, mem_pushNew, mem_cons, or_assoc]

end pushNew

variable {step : List β → α → Option (List β)}

theorem foldlM_mono (grows : ∀ seen item next, step seen item = some next → ∀ x ∈ seen, x ∈ next) :
    ∀ {items : List α} {seen final : List β}, items.foldlM step seen = some final →
      ∀ x ∈ seen, x ∈ final := by
  intro items
  induction items with
  | nil =>
    intro seen final folded x member
    rw [foldlM_nil, Option.pure_def, Option.some.injEq] at folded
    exact folded ▸ member
  | cons head tail ih =>
    intro seen final folded x member
    rw [foldlM_cons, Option.bind_eq_bind, Option.bind_eq_some_iff] at folded
    obtain ⟨next, first, rest⟩ := folded
    exact ih rest x (grows seen head next first x member)

theorem foldlM_nodup
    (keeps : ∀ seen item next, step seen item = some next → seen.Nodup → next.Nodup) :
    ∀ {items : List α} {seen final : List β}, items.foldlM step seen = some final →
      seen.Nodup → final.Nodup := by
  intro items
  induction items with
  | nil =>
    intro seen final folded distinct
    rw [foldlM_nil, Option.pure_def, Option.some.injEq] at folded
    exact folded ▸ distinct
  | cons head tail ih =>
    intro seen final folded distinct
    rw [foldlM_cons, Option.bind_eq_bind, Option.bind_eq_some_iff] at folded
    obtain ⟨next, first, rest⟩ := folded
    exact ih rest (keeps seen head next first distinct)

theorem foldlM_item (grows : ∀ seen item next, step seen item = some next → ∀ x ∈ seen, x ∈ next) :
    ∀ {items : List α} {seen final : List β}, items.foldlM step seen = some final →
      ∀ item ∈ items, ∃ before next, step before item = some next ∧ ∀ x ∈ next, x ∈ final := by
  intro items
  induction items with
  | nil =>
    intro seen final folded item member
    cases member
  | cons head tail ih =>
    intro seen final folded item member
    rw [foldlM_cons, Option.bind_eq_bind, Option.bind_eq_some_iff] at folded
    obtain ⟨next, first, rest⟩ := folded
    rcases mem_cons.mp member with rfl | later
    · exact ⟨seen, next, first, foldlM_mono grows rest⟩
    · exact ih rest item later

section maps

variable {K V ι : Type*} [DecidableEq K] {key : ι → K} {value : ι → V} {items : List ι} {item : ι}
  {map : K → Option V} {k : K}

/-- A loop of `insert` over the rows of a result. -/
def insertAll (key : ι → K) (value : ι → V) : List ι → (K → Option V) → K → Option V
  | [], map => map
  | item :: items, map =>
    insertAll key value items (Function.update map (key item) (some (value item)))

/-- A loop of `entry(..).or_insert(..)`. -/
def orInsertAll (key : ι → K) (value : ι → V) : List ι → (K → Option V) → K → Option V
  | [], map => map
  | item :: items, map =>
    orInsertAll key value items
      (if (map (key item)).isSome then map else Function.update map (key item) (some (value item)))

theorem insertAll_of_not_mem (absent : k ∉ items.map key) : insertAll key value items map k = map k := by
  induction items generalizing map with
  | nil => rfl
  | cons head rest ih =>
    simp only [map_cons, mem_cons, not_or] at absent
    rw [insertAll, ih absent.2, Function.update_of_ne absent.1]

theorem insertAll_of_mem (distinct : (items.map key).Nodup) (member : item ∈ items) :
    insertAll key value items map (key item) = some (value item) := by
  induction items generalizing map with
  | nil => cases member
  | cons head rest ih =>
    rw [map_cons, nodup_cons] at distinct
    rw [insertAll]
    rcases mem_cons.mp member with rfl | later
    · rw [insertAll_of_not_mem distinct.1, Function.update_self]
    · exact ih distinct.2 later

theorem insertAll_eq_some (distinct : (items.map key).Nodup) {v : V} :
    insertAll key value items (fun _ => none) k = some v ↔
      ∃ item ∈ items, key item = k ∧ value item = v := by
  constructor
  · intro found
    by_cases member : k ∈ items.map key
    · rcases mem_map.mp member with ⟨item, inside, rfl⟩
      rw [insertAll_of_mem distinct inside] at found
      exact ⟨item, inside, rfl, Option.some.inj found⟩
    · rw [insertAll_of_not_mem member] at found
      cases found
  · rintro ⟨item, inside, rfl, rfl⟩
    exact insertAll_of_mem distinct inside

theorem orInsertAll_of_some {v : V} (present : map k = some v) :
    orInsertAll key value items map k = some v := by
  induction items generalizing map with
  | nil => exact present
  | cons head rest ih =>
    rw [orInsertAll]
    apply ih
    split
    · exact present
    next vacant =>
      rw [Function.update_of_ne, present]
      rintro rfl
      simp [present] at vacant

theorem orInsertAll_of_mem (vacant : map (key item) = none) (member : item ∈ items)
    (same : ∀ other ∈ items, key other = key item → value other = value item) :
    orInsertAll key value items map (key item) = some (value item) := by
  induction items generalizing map with
  | nil => cases member
  | cons head rest ih =>
    rw [orInsertAll]
    by_cases first : key head = key item
    · apply orInsertAll_of_some
      simp [first, vacant, same head mem_cons_self first]
    · rcases mem_cons.mp member with rfl | later
      · exact absurd rfl first
      · apply ih _ later fun other inside => same other (mem_cons_of_mem _ inside)
        split
        · exact vacant
        · rw [Function.update_of_ne (Ne.symm first), vacant]

end maps

end Buzz.Library.Accumulate
