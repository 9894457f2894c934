import Mathlib.Tactic.Common

/-! Computations that fail with an error. -/

namespace Buzz.Library.Results

variable {Failure Value Result : Type} {first : Except Failure Value}
  {rest : Value → Except Failure Result} {result : Result}

theorem bind_ok (ok : first >>= rest = .ok result) :
    ∃ value, first = .ok value ∧ rest value = .ok result := by
  cases first with
  | error error => cases ok
  | ok value => exact ⟨value, rfl, ok⟩

variable {failure : Failure}

theorem bind_error (failed : first >>= rest = .error failure) :
    first = .error failure ∨ ∃ value, first = .ok value ∧ rest value = .error failure := by
  cases first with
  | error error =>
    cases failed
    exact .inl rfl
  | ok value => exact .inr ⟨value, rfl, failed⟩

theorem map_ok {change : Value → Result}
    (ok : change <$> first = .ok result) : ∃ value, first = .ok value ∧ change value = result := by
  cases first with
  | error error => cases ok
  | ok value => exact ⟨value, rfl, Except.ok.inj ok⟩

@[simp] theorem ok_bind {value : Value} {rest : Value → Except Failure Result} :
    (Except.ok value >>= rest) = rest value := rfl

@[simp] theorem error_bind {failure : Failure} {rest : Value → Except Failure Result} :
    (Except.error failure >>= rest) = .error failure := rfl

/-- `ok_or`. -/
def okOr (value : Option Value) (failure : Failure) : Except Failure Value :=
  value.elim (.error failure) .ok

@[simp] theorem okOr_some {value : Value} {failure : Failure} :
    okOr (some value) failure = .ok value := rfl

variable {value : Option Value}

theorem okOr_ok {result : Value} :
    okOr value failure = .ok result ↔ value = some result := by
  cases value <;> simp [okOr]

variable {error : Failure}

theorem okOr_error :
    okOr value failure = .error error ↔ value = none ∧ failure = error := by
  cases value <;> simp [okOr]

def require (condition : Prop) [Decidable condition] (failure : Failure) : Except Failure Unit :=
  if condition then .ok () else .error failure

variable {condition : Prop}

theorem require_pos [Decidable condition] (holds : condition) : require condition failure = .ok () := if_pos holds

theorem require_neg [Decidable condition]
    (fails : ¬condition) : require condition failure = .error failure := if_neg fails

theorem require_ok [Decidable condition] {value : Unit} :
    require condition failure = .ok value ↔ condition := by
  simp [require]

theorem require_error [Decidable condition] :
    require condition failure = .error error ↔ ¬condition ∧ failure = error := by
  by_cases holds : condition <;> simp [require, holds]

/-- It stops at the first error. -/
def collect {Item : Type} (step : Item → Except Failure (Option Value)) :
    List Value → List Item → Except Failure (List Value)
  | values, [] => .ok values
  | values, item :: items => do
    let value ← step item
    collect step (values ++ value.toList) items

theorem collect_ok {Item : Type} {step : Item → Except Failure (Option Value)}
    {chosen : Item → Option Value} {items : List Item} {values result : List Value}
    (agree : ∀ item ∈ items, ∀ value, step item = .ok value → value = chosen item)
    (ok : collect step values items = .ok result) : result = values ++ items.filterMap chosen := by
  induction items generalizing values with
  | nil => simpa [collect] using (Except.ok.inj ok).symm
  | cons item items ih =>
    rw [List.forall_mem_cons] at agree
    rcases bind_ok ok with ⟨value, first, rest⟩
    have same := agree.1 value first
    rw [ih agree.2 rest, same]
    cases shape : chosen item with
    | none | some wake => simp [shape]

theorem collect_total {Item : Type} {step : Item → Except Failure (Option Value)}
    {items : List Item} (total : ∀ item ∈ items, ∃ value, step item = .ok value)
    (values : List Value) : ∃ result, collect step values items = .ok result := by
  induction items generalizing values with
  | nil => exact ⟨values, rfl⟩
  | cons item items ih =>
    rw [List.forall_mem_cons] at total
    rcases total.1 with ⟨value, first⟩
    rcases ih total.2 (values ++ value.toList) with ⟨result, rest⟩
    exact ⟨result, by rw [collect, first, ok_bind, rest]⟩

end Buzz.Library.Results
