import Mathlib.Data.List.Basic

/-! Walks through a list by index, and what holds after one that ends: it reads nothing out of range
and does not run forever. -/

namespace Buzz.Library.Cursor

open List

/-- A walk rejects its input, reads out of range, or has no steps left. -/
inductive Fault (Error : Type)
  | rejected (error : Error)
  | outOfRange
  | exhausted
  deriving DecidableEq

abbrev Walk (Error : Type) := Except (Fault Error)

variable {Error Symbol Value Result : Type}

def Meets (walk : Walk Error Value) (holds : Value → Prop) : Prop :=
  match walk with
  | .ok value => holds value
  | .error (.rejected _) => True
  | .error .outOfRange => False
  | .error .exhausted => False

def reject (error : Error) : Walk Error Value := .error (.rejected error)

def check (condition : Prop) [Decidable condition] (error : Error) : Walk Error Unit :=
  if condition then .ok () else reject error

def index (symbols : List Symbol) (i : ℕ) : Walk Error Symbol :=
  match symbols[i]? with
  | some symbol => .ok symbol
  | none => .error .outOfRange

def slice (symbols : List Symbol) (first last : ℕ) : Walk Error (List Symbol) :=
  if first ≤ last ∧ last ≤ symbols.length then .ok ((symbols.take last).drop first)
  else .error .outOfRange

section rules

variable {walk : Walk Error Value} {rest : Value → Walk Error Result} {holds asked : Value → Prop}
  {value : Value}

theorem meets_ok (isAsked : asked value) : Meets (.ok value : Walk Error Value) asked := isAsked

theorem meets_pure (isAsked : asked value) : Meets (pure value : Walk Error Value) asked := isAsked

theorem meets_reject {error : Error} : Meets (reject error : Walk Error Value) asked := trivial

theorem Meets.bind {final : Result → Prop} (first : Meets walk holds)
    (next : ∀ value, holds value → Meets (rest value) final) : Meets (walk >>= rest) final := by
  cases walk with
  | ok value => exact next value first
  | error fault => cases fault <;> exact first

theorem Meets.mono (met : Meets walk holds) (weaker : ∀ value, holds value → asked value) :
    Meets walk asked := by
  cases walk with
  | ok value => exact weaker value met
  | error fault => cases fault <;> exact met

theorem Meets.of_ok (met : Meets walk asked) (ended : walk = .ok value) : asked value := by
  rw [ended] at met
  exact met

theorem Meets.ends (met : Meets walk asked) :
    walk ≠ .error .outOfRange ∧ walk ≠ .error .exhausted := by
  constructor
  · rintro rfl
    exact met
  · rintro rfl
    exact met

theorem meets_check {condition : Prop} [Decidable condition] {error : Error} :
    Meets (check condition error) fun _ => condition := by
  unfold check
  split
  next met => exact met
  · trivial

end rules

section reads

variable {symbols : List Symbol} {i first last : ℕ}

theorem meets_index (inside : i < symbols.length) : Meets (index symbols i : Walk Error Symbol)
    fun symbol => symbols[i]? = some symbol ∧ symbols.drop i = symbol :: symbols.drop (i + 1) := by
  unfold index
  rw [getElem?_eq_getElem inside]
  exact ⟨rfl, drop_eq_getElem_cons inside⟩

theorem drop_split (ordered : first ≤ last) (inside : last ≤ symbols.length) :
    ((symbols.take last).drop first).length = last - first ∧
      symbols.drop first = (symbols.take last).drop first ++ symbols.drop last := by
  constructor
  · simp [inside]
  · have split : symbols.take last ++ symbols.drop last = symbols := take_append_drop last symbols
    calc
      symbols.drop first = (symbols.take last ++ symbols.drop last).drop first := by rw [split]
      _ = (symbols.take last).drop first ++ symbols.drop last := by
        rw [drop_append_of_le_length]
        simp [ordered, inside]

theorem meets_slice (ordered : first ≤ last) (inside : last ≤ symbols.length) :
    Meets (slice symbols first last : Walk Error (List Symbol))
      fun piece => piece.length = last - first ∧ symbols.drop first = piece ++ symbols.drop last := by
  unfold slice
  rw [if_pos ⟨ordered, inside⟩]
  exact drop_split ordered inside

variable {piece : List Symbol}

theorem take_eq_of_piece (sized : piece.length = last)
    (split : symbols.drop 0 = piece ++ symbols.drop last) : symbols.take last = piece := by
  rw [drop_zero] at split
  rw [split, ← sized, take_left']
  rfl

structure Between (symbols : List Symbol) (first last : ℕ) (piece : List Symbol) : Prop where
  inside : last ≤ symbols.length
  length : first + piece.length = last
  split : symbols.drop first = piece ++ symbols.drop last

theorem Between.append {middle : ℕ} {more : List Symbol}
    (one : Between symbols first middle piece) (two : Between symbols middle last more) :
    Between symbols first last (piece ++ more) := by
  refine ⟨two.inside, ?_, ?_⟩
  · rw [length_append, ← two.length, ← one.length]
    omega
  · rw [one.split, two.split, append_assoc]

theorem between_one {symbol : Symbol} (found : symbols[i]? = some symbol) :
    Between symbols i (i + 1) [symbol] := by
  obtain ⟨inside, rfl⟩ := List.getElem?_eq_some_iff.mp found
  exact ⟨inside, rfl, drop_eq_getElem_cons inside⟩

theorem exists_between (inside : first + last ≤ symbols.length) :
    ∃ piece, piece.length = last ∧ Between symbols first (first + last) piece := by
  obtain ⟨sized, split⟩ := drop_split (Nat.le_add_right first last) inside
  refine ⟨_, sized.trans (Nat.add_sub_cancel_left first last), inside, ?_, split⟩
  rw [sized, Nat.add_sub_cancel_left]

end reads

end Buzz.Library.Cursor
