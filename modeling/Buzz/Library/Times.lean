import Mathlib.Tactic.Linarith
import Mathlib.Tactic.Ring

/-! What a log, newest entry first, says of the past of its entries. -/

namespace Buzz.Library.PastTime

variable {Entry : Type}

def Since (such : Entry → Prop) (before : List Entry → Prop) : List Entry → Prop
  | [] => False
  | entry :: earlier => such entry ∧ before earlier ∨ Since such before earlier

abbrev Once (such : Entry → Prop) : List Entry → Prop := Since such fun _ => True

def Explained (justified : Entry → List Entry → Prop) : List Entry → Prop
  | [] => True
  | entry :: earlier => justified entry earlier ∧ Explained justified earlier

variable {such : Entry → Prop} {before : List Entry → Prop} {log : List Entry}

theorem Since.split (since : Since such before log) :
    ∃ later entry earlier, log = later ++ entry :: earlier ∧ such entry ∧ before earlier := by
  induction log with
  | nil => cases since
  | cons newest older ih =>
    rcases since with here | further
    · exact ⟨[], newest, older, rfl, here⟩
    · rcases ih further with ⟨later, entry, earlier, shape, found⟩
      exact ⟨newest :: later, entry, earlier, congrArg (newest :: ·) shape, found⟩

theorem Since.append (since : Since such before log) (later : List Entry) :
    Since such before (later ++ log) := by
  induction later with
  | nil => exact since
  | cons newest later ih => exact Or.inr ih

theorem once_iff : Once such log ↔ ∃ entry ∈ log, such entry := by
  constructor
  · intro once
    rcases once.split with ⟨later, entry, earlier, shape, found, -⟩
    refine ⟨entry, ?_, found⟩
    rw [shape]
    exact List.mem_append_right _ List.mem_cons_self
  · rintro ⟨entry, member, found⟩
    rcases List.append_of_mem member with ⟨later, earlier, shape⟩
    have here : Once such (entry :: earlier) := Or.inl ⟨found, trivial⟩
    rw [shape]
    exact here.append later

theorem Explained.split {justified : Entry → List Entry → Prop} {later earlier : List Entry}
    {entry : Entry} (explained : Explained justified (later ++ entry :: earlier)) :
    justified entry earlier := by
  induction later with
  | nil => exact explained.1
  | cons newest later ih => exact ih explained.2

end Buzz.Library.PastTime

/-! Times in buckets of one width. -/

namespace Buzz.Library.Buckets

variable {width first second : ℤ}

end Buzz.Library.Buckets
