import Mathlib.Data.List.Basic

/-! A log whose entries owe and settle debts. Some entries close the book, and with it every debt
that is still open. -/

namespace Buzz.Library.Debts

open List

structure Book (Entry Debt : Type) where
  owes : Entry → List Debt
  settles : Entry → Debt → Bool
  closes : Entry → Bool

variable {Entry Debt : Type} {book : Book Entry Debt}

def enter (book : Book Entry Debt) (outstanding : List Debt) (entry : Entry) : List Debt :=
  if book.closes entry then []
  else (outstanding.filter fun debt => !book.settles entry debt) ++ book.owes entry

/-- The debts since the last closing that nothing has settled. -/
def outstanding (book : Book Entry Debt) (log : List Entry) : List Debt :=
  log.foldl (enter book) []

theorem outstanding_append (log : List Entry) (entry : Entry) :
    outstanding book (log ++ [entry]) = enter book (outstanding book log) entry := by
  rw [outstanding, foldl_append]
  rfl

variable {between : List Entry}

theorem mem_foldl_of_unsettled {debt : Debt} {before : List Debt}
    (owed : debt ∈ before) (unclosed : ∀ entry ∈ between, book.closes entry = false)
    (unsettled : ∀ entry ∈ between, book.settles entry debt = false) :
    debt ∈ between.foldl (enter book) before := by
  induction between generalizing before with
  | nil => exact owed
  | cons entry rest ih =>
    apply ih
    · rw [enter, unclosed entry mem_cons_self]
      apply mem_append_left
      apply mem_filter.mpr
      exact ⟨owed, by rw [unsettled entry mem_cons_self]; rfl⟩
    · exact fun later member => unclosed later (mem_cons_of_mem _ member)
    · exact fun later member => unsettled later (mem_cons_of_mem _ member)

theorem settled_of_not_outstanding {before : List Entry} {entry : Entry} {debt : Debt}
    (owed : debt ∈ book.owes entry) (unclosedEntry : book.closes entry = false)
    (unclosed : ∀ later ∈ between, book.closes later = false)
    (gone : debt ∉ outstanding book (before ++ entry :: between)) :
    ∃ later ∈ between, book.settles later debt := by
  by_contra never
  apply gone
  rw [outstanding, foldl_append, foldl_cons]
  apply mem_foldl_of_unsettled
  · rw [enter, unclosedEntry]
    exact mem_append_right _ owed
  · exact unclosed
  · intro later member
    cases settles : book.settles later debt with
    | false => rfl
    | true => exact absurd ⟨later, member, settles⟩ never

end Buzz.Library.Debts
