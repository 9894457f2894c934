import Mathlib.Data.List.Basic

/-! Sequences in which what an item asks for is answered by the items right after it, in order. -/

namespace Buzz.Library.Exchange

open List Option

variable {Item Id : Type}

structure Roles (Item Id : Type) where
  asks : Item → List Id
  answers : Item → Option Id

variable {roles : Roles Item Id}

inductive Answered (roles : Roles Item Id) : List Item → Prop
  | nil : Answered roles []
  | item (item : Item) (replies rest : List Item) (plain : roles.answers item = none)
      (matching : replies.map roles.answers = (roles.asks item).map some)
      (answered : Answered roles rest) : Answered roles (item :: (replies ++ rest))

variable [DecidableEq Id]

/-- `none` when one of them was out of place. -/
def scan (roles : Roles Item Id) : List Id → List Item → Option (List Id)
  | awaited, [] => some awaited
  | awaited, item :: rest =>
    match roles.answers item, awaited with
    | some id, next :: later => if id = next then scan roles later rest else none
    | none, [] => scan roles (roles.asks item) rest
    | _, _ => none

theorem scan_cons (awaited : List Id) (item : Item) (rest : List Item) :
    scan roles awaited (item :: rest) =
      match roles.answers item, awaited with
      | some id, next :: later => if id = next then scan roles later rest else none
      | none, [] => scan roles (roles.asks item) rest
      | _, _ => none := rfl

theorem scan_append (awaited : List Id) (first second : List Item) :
    scan roles awaited (first ++ second) =
      (scan roles awaited first).bind fun left => scan roles left second := by
  induction first generalizing awaited with
  | nil => rfl
  | cons item rest ih =>
    cases isAnswer : roles.answers item with
    | none =>
      cases awaited with
      | nil => simp only [cons_append, scan_cons, isAnswer, ih]
      | cons next later => simp only [cons_append, scan_cons, isAnswer, bind_none]
    | some id =>
      cases awaited with
      | nil => simp only [cons_append, scan_cons, isAnswer, bind_none]
      | cons next later =>
        by_cases same : id = next
        · simp only [cons_append, scan_cons, isAnswer, same, if_true, ih]
        · simp only [cons_append, scan_cons, isAnswer, same, if_false, bind_none]

variable {items : List Item} {left : List Id}

theorem scan_extend {more : List Item}
    (settled : scan roles [] items = some []) (next : scan roles [] more = some left) :
    scan roles [] (items ++ more) = some left := by
  rw [scan_append, settled]
  exact next

theorem scan_suffix {dropped rest : List Item} {item : Item} (plain : roles.answers item = none)
    (whole : scan roles [] (dropped ++ item :: rest) = some left) :
    scan roles [] (item :: rest) = some left := by
  rw [scan_append] at whole
  obtain ⟨awaited, _, suffix⟩ := bind_eq_some_iff.mp whole
  cases awaited with
  | nil => exact suffix
  | cons next later =>
    simp only [scan_cons, plain] at suffix
    cases suffix

theorem scan_answers (replies : List Item) (awaited : List Id)
    (matching : replies.map roles.answers = awaited.map some) :
    scan roles awaited replies = some [] := by
  induction replies generalizing awaited with
  | nil =>
    cases awaited with
    | nil => rfl
    | cons next later => cases matching
  | cons reply rest ih =>
    cases awaited with
    | nil => cases matching
    | cons next later =>
      simp only [map_cons, List.cons.injEq] at matching
      simp only [scan, matching.1, if_true]
      exact ih later matching.2

theorem answers_of_scan {awaited : List Id} (settled : scan roles awaited items = some []) :
    ∃ replies rest, items = replies ++ rest ∧
      replies.map roles.answers = awaited.map some ∧ scan roles [] rest = some [] := by
  induction awaited generalizing items with
  | nil => exact ⟨[], items, rfl, rfl, settled⟩
  | cons next later ih =>
    cases items with
    | nil => cases settled
    | cons item rest =>
      cases isAnswer : roles.answers item with
      | none =>
        simp only [scan_cons, isAnswer] at settled
        cases settled
      | some id =>
        by_cases same : id = next
        · simp only [scan_cons, isAnswer, same, if_true] at settled
          obtain ⟨replies, others, rfl, matching, final⟩ := ih settled
          refine ⟨item :: replies, others, rfl, ?_, final⟩
          rw [map_cons, map_cons, isAnswer, matching, same]
        · simp only [scan_cons, isAnswer, same, if_false] at settled
          cases settled

theorem answered_of_scan (settled : scan roles [] items = some []) :
    Answered roles items := by
  induction size : items.length using Nat.strongRecOn generalizing items with
  | _ n ih =>
    cases items with
    | nil => exact .nil
    | cons item rest =>
      cases isAnswer : roles.answers item with
      | some id =>
        simp only [scan_cons, isAnswer] at settled
        cases settled
      | none =>
        simp only [scan_cons, isAnswer] at settled
        obtain ⟨replies, others, rfl, matching, final⟩ := answers_of_scan settled
        have shorter : others.length < n := by
          simp only [length_cons, length_append] at size
          omega
        exact .item item replies others isAnswer matching (ih _ shorter final rfl)

end Buzz.Library.Exchange
