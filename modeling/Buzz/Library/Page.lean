import Mathlib.Data.List.Nodup
import Mathlib.Data.List.Pairwise
import Mathlib.Data.List.Perm.Subperm
import Mathlib.Order.Defs.LinearOrder
import Mathlib.Order.Lattice

/-! Pages of a table: the first rows, in a total order, of those that a test keeps. -/

namespace Buzz.Library.Page

open List

variable {Row : Type}

def page (le : Row → Row → Bool) (kept : Row → Bool) (size : ℕ) (rows : List Row) : List Row :=
  ((rows.filter kept).mergeSort le).take size

structure TotalOrder (le : Row → Row → Bool) : Prop where
  trans : ∀ first second third, le first second → le second third →
    le first third
  total : ∀ first second, (le first second || le second first)

def Ranked (le : Row → Row → Bool) (rows : List Row) : Prop :=
  ∀ first ∈ rows, ∀ second ∈ rows, le first second → le second first → first = second

variable {le : Row → Row → Bool} {kept wanted : Row → Bool} {size : ℕ} {rows : List Row} {row : Row}

theorem mem_of_mem_page (member : row ∈ page le kept size rows) : row ∈ rows ∧ kept row := by
  have sorted := mem_of_mem_take member
  exact mem_filter.mp ((mergeSort_perm _ _).mem_iff.mp sorted)

theorem page_nodup (nodup : rows.Nodup) : (page le kept size rows).Nodup := by
  have sorted : ((rows.filter kept).mergeSort le).Nodup :=
    (mergeSort_perm _ _).nodup_iff.mpr (nodup.filter _)
  exact sorted.sublist (take_sublist _ _)

theorem page_sorted (order : TotalOrder le) :
    (page le kept size rows).Pairwise fun first second => le first second :=
  (pairwise_mergeSort order.trans order.total _).sublist (take_sublist _ _)

theorem length_page_le : (page le kept size rows).length ≤ size := by
  rw [page, length_take]
  exact Nat.min_le_left _ _

theorem mem_take_iff (order : TotalOrder le) {sorted : List Row}
    (strict : sorted.Pairwise fun first second => le second first = false) (size : ℕ) :
    row ∈ sorted.take size ↔ row ∈ sorted ∧ (sorted.countP fun other => !le row other) < size := by
  induction sorted generalizing size with
  | nil => simp
  | cons head tail ih =>
    obtain ⟨later, strict⟩ := pairwise_cons.mp strict
    cases size with
    | zero => simp
    | succ size =>
      rw [take_succ_cons, mem_cons, mem_cons, ih strict, countP_cons]
      have reflexive : le head head := by simpa using order.total head head
      by_cases first : row = head
      · have none : (tail.countP fun other => !le row other) = 0 := by
          rw [countP_eq_zero]
          intro other member
          have total := order.total head other
          rw [later other member, Bool.or_false] at total
          simp [first, total]
        simp [first, reflexive, first ▸ none]
      · simp only [first, false_or]
        by_cases member : row ∈ tail
        · simp [member, later row member]
        · simp [member]

theorem strict_of_ranked (nodup : rows.Nodup) (ranked : Ranked le rows)
    (sorted : rows.Pairwise fun first second => le first second) :
    rows.Pairwise fun first second => le second first = false := by
  have both := sorted.and (nodup_iff_pairwise_ne.mp nodup)
  apply both.imp_of_mem
  intro first second firstIn secondIn pair
  by_contra tied
  exact pair.2 (ranked first firstIn second secondIn pair.1 (eq_true_of_ne_false tied))

theorem mem_page_iff (order : TotalOrder le) (nodup : rows.Nodup)
    (ranked : Ranked le (rows.filter kept)) :
    row ∈ page le kept size rows ↔ row ∈ rows ∧ kept row ∧
      (rows.countP fun other => kept other && !le row other) < size := by
  have perm := mergeSort_perm (rows.filter kept) le
  have strict := strict_of_ranked (perm.nodup_iff.mpr (nodup.filter _))
    (fun first firstIn second secondIn =>
      ranked first (perm.mem_iff.mp firstIn) second (perm.mem_iff.mp secondIn))
    (pairwise_mergeSort order.trans order.total _)
  have counted : (((rows.filter kept).mergeSort le).countP fun other => !le row other) =
      rows.countP fun other => kept other && !le row other := by
    rw [perm.countP_eq, countP_filter]
    exact countP_congr fun other _ => by simp only [Bool.and_comm]
  rw [page, mem_take_iff order strict, perm.mem_iff, mem_filter, counted, and_assoc]

theorem mem_page_of_filtered {smaller : ℕ} (nodup : rows.Nodup) (fits : smaller ≤ size)
    (present : ∀ row ∈ page le wanted size rows, row ∈ page le kept smaller rows)
    (member : row ∈ page le kept smaller rows) (wants : wanted row) :
    row ∈ page le wanted size rows := by
  by_contra missing
  have inside : row ∈ (rows.filter wanted).mergeSort le :=
    (mergeSort_perm _ _).mem_iff.mpr
      (mem_filter.mpr ⟨(mem_of_mem_page member).1, wants⟩)
  have full : (page le wanted size rows).length = size := by
    rw [page, length_take, Nat.min_eq_left]
    by_contra short
    rw [page, take_of_length_le (by omega)] at missing
    exact missing inside
  have extended : (row :: page le wanted size rows).Nodup :=
    nodup_cons.mpr ⟨missing, page_nodup nodup⟩
  have subset : row :: page le wanted size rows ⊆ page le kept smaller rows :=
    cons_subset.mpr ⟨member, present⟩
  have longer := (subperm_of_subset extended subset).length_le
  have bound := @length_page_le _ le kept smaller rows
  rw [length_cons, full] at longer
  omega

theorem filter_page_eq_iff (order : TotalOrder le) {smaller : ℕ} (nodup : rows.Nodup)
    (ranked : Ranked le (rows.filter wanted)) (fits : smaller ≤ size) :
    (page le kept smaller rows).filter wanted = page le wanted size rows ↔
      ∀ row ∈ page le wanted size rows, row ∈ page le kept smaller rows := by
  constructor
  · intro same row member
    rw [← same] at member
    exact mem_of_mem_filter member
  · intro present
    have members (row : Row) :
        row ∈ (page le kept smaller rows).filter wanted ↔ row ∈ page le wanted size rows := by
      rw [mem_filter]
      constructor
      · intro both
        exact mem_page_of_filtered nodup fits present both.1 both.2
      · intro member
        exact ⟨present row member, (mem_of_mem_page member).2⟩
    have perm : ((page le kept smaller rows).filter wanted).Perm (page le wanted size rows) :=
      (perm_ext_iff_of_nodup ((page_nodup nodup).filter _) (page_nodup nodup)).mpr members
    apply List.Perm.eq_of_pairwise _ ((page_sorted order).filter _) (page_sorted order) perm
    intro first second firstIn secondIn
    exact ranked first (mem_filter.mpr (mem_of_mem_page ((members first).mp firstIn)))
      second (mem_filter.mpr (mem_of_mem_page secondIn))

end Buzz.Library.Page

/-! Scrolling through a table that changes: pages of a fixed size, each past the key of the last row
so far, until one is short. -/

namespace Buzz.Library.Scroll

open Library.Page List

variable {Key Row : Type} [LinearOrder Key] {key : Row → Key} {kept : Row → Prop} {size : ℕ}
  {cursor : Option Key} {rows page : List Row} {pages : List (List Row)} {row : Row}

def Past (key : Row → Key) (cursor : Option Key) (row : Row) : Prop :=
  ∀ last, cursor = some last → last < key row

def InOrder (key : Row → Key) (rows : List Row) : Prop :=
  rows.Pairwise fun first second => key first < key second

def Beyond (key : Row → Key) (size : ℕ) (page : List Row) (row : Row) : Prop :=
  page.length = size ∧ ∀ other ∈ page, key other < key row

/-- In order, past the cursor and without a gap. -/
structure Leg (key : Row → Key) (kept : Row → Prop) (size : ℕ) (cursor : Option Key)
    (page : List Row) : Prop where
  sorted : InOrder key page
  past : ∀ row ∈ page, Past key cursor row
  complete : ∀ row, kept row → Past key cursor row → row ∈ page ∨ Beyond key size page row

/-- All pages together are without a gap. -/
structure Scrolled (key : Row → Key) (kept : Row → Prop) (size : ℕ) (pages : List (List Row)) :
    Prop where
  sorted : InOrder key pages.flatten
  complete : ∀ row, kept row → row ∈ pages.flatten ∨ ∀ page ∈ pages, Beyond key size page row

def nextCursor (key : Row → Key) (pages : List (List Row)) : Option Key :=
  pages.flatten.getLast?.map key

theorem InOrder.le_last (sorted : InOrder key rows) (member : row ∈ rows) :
    ∃ last, rows.getLast? = some last ∧ key row ≤ key last := by
  induction rows generalizing row with
  | nil => exact absurd member not_mem_nil
  | cons head tail ih =>
    obtain ⟨later, rest⟩ := pairwise_cons.mp sorted
    cases tail with
    | nil =>
      rw [mem_singleton] at member
      exact ⟨head, rfl, le_of_eq (congrArg key member)⟩
    | cons second tail =>
      rw [getLast?_cons_cons]
      cases mem_cons.mp member with
      | inl first =>
        obtain ⟨last, isLast, bound⟩ := ih rest mem_cons_self
        have before := later second mem_cons_self
        rw [first]
        exact ⟨last, isLast, le_of_lt (lt_of_lt_of_le before bound)⟩
      | inr further => exact ih rest further

theorem filter_past {taken rest : List Row} {test : Row → Bool} (sorted : InOrder key (taken ++ rest))
    (decides : ∀ row, test row ↔ Past key (taken.getLast?.map key) row) :
    (taken ++ rest).filter test = rest := by
  obtain ⟨first, -, apart⟩ := pairwise_append.mp sorted
  have dropped : taken.filter test = [] := by
    apply filter_eq_nil_iff.mpr
    intro row member passes
    obtain ⟨last, isLast, bound⟩ := InOrder.le_last first member
    have past := (decides row).mp passes (key last) (by rw [isLast, Option.map_some])
    exact absurd past (not_lt_of_ge bound)
  have kept : rest.filter test = rest := by
    apply filter_eq_self.mpr
    intro row member
    apply (decides row).mpr
    intro last isLast
    obtain ⟨other, found, same⟩ := Option.map_eq_some_iff.mp isLast
    exact same ▸ apart other (mem_of_getLast? found) row member
  rw [filter_append, dropped, kept, nil_append]

theorem scrolled_nil : Scrolled key kept size [] where
  sorted := List.Pairwise.nil
  complete := fun _ _ => .inr fun _ member => absurd member not_mem_nil

theorem Scrolled.mono (scrolled : Scrolled key kept size pages) {fewer : Row → Prop}
    (subset : ∀ row, fewer row → kept row) : Scrolled key fewer size pages where
  sorted := scrolled.sorted
  complete := fun row member => scrolled.complete row (subset row member)

theorem Scrolled.concat (scrolled : Scrolled key kept size pages)
    (leg : Leg key kept size (nextCursor key pages) page) :
    Scrolled key kept size (pages ++ [page]) where
  sorted := by
    rw [flatten_concat]
    apply pairwise_append.mpr
    refine ⟨scrolled.sorted, leg.sorted, ?_⟩
    intro earlier before row member
    obtain ⟨last, isLast, bound⟩ := scrolled.sorted.le_last before
    have past := leg.past row member (key last) (by rw [nextCursor, isLast, Option.map_some])
    exact lt_of_le_of_lt bound past
  complete := by
    intro row isKept
    rw [flatten_concat]
    cases scrolled.complete row isKept with
    | inl returned => exact .inl (mem_append_left page returned)
    | inr beyond =>
      have past : Past key (nextCursor key pages) row := by
        intro last isLast
        obtain ⟨other, found, same⟩ := Option.map_eq_some_iff.mp isLast
        obtain ⟨earlier, within, member⟩ := mem_flatten.mp (mem_of_getLast? found)
        exact same ▸ (beyond earlier within).2 other member
      cases leg.complete row isKept past with
      | inl member => exact Or.inl (mem_append_right _ member)
      | inr further =>
        apply Or.inr
        intro other member
        cases mem_append.mp member with
        | inl earlier => exact beyond other earlier
        | inr last =>
          rw [mem_singleton.mp last]
          exact further

section pages

variable {le : Row → Row → Bool} {wanted : Row → Bool}

theorem mem_page_or_later (order : TotalOrder le) (member : row ∈ rows)
    (wants : wanted row) :
    row ∈ Page.page le wanted size rows ∨ (Page.page le wanted size rows).length = size ∧
      ∀ other ∈ Page.page le wanted size rows, le other row := by
  have inside : row ∈ (rows.filter wanted).mergeSort le :=
    (mergeSort_perm _ _).mem_iff.mpr (mem_filter.mpr ⟨member, wants⟩)
  have sorted := pairwise_mergeSort order.trans order.total (rows.filter wanted)
  rw [← take_append_drop size ((rows.filter wanted).mergeSort le)] at inside sorted
  cases mem_append.mp inside with
  | inl taken => exact Or.inl taken
  | inr dropped =>
    apply Or.inr
    constructor
    · have remaining := length_pos_of_mem dropped
      rw [length_drop] at remaining
      rw [Page.page, length_take]
      omega
    · intro other taken
      exact (pairwise_append.mp sorted).2.2 other taken row dropped

theorem inOrder_page (distinct : (rows.map key).Nodup)
    (byKey : ∀ first second, le first second ↔ key first ≤ key second)
    (order : TotalOrder le) : InOrder key (Page.page le wanted size rows) := by
  have kept : (((rows.filter wanted).mergeSort le).map key).Nodup := by
    have perm := (mergeSort_perm (rows.filter wanted) le).map key
    exact perm.nodup_iff.mpr (distinct.sublist (filter_sublist.map key))
  have differ : ((Page.page le wanted size rows).map key).Nodup :=
    kept.sublist ((take_sublist _ _).map key)
  have both := (page_sorted order).and (pairwise_map.mp differ)
  apply both.imp
  intro first second pair
  exact lt_of_le_of_ne ((byKey first second).mp pair.1) pair.2

theorem inOrder_mergeSort (distinct : (rows.map key).Nodup)
    (byKey : ∀ first second, le first second ↔ key first ≤ key second)
    (order : TotalOrder le) : InOrder key ((rows.filter wanted).mergeSort le) := by
  have whole : InOrder key (Page.page le wanted (rows.filter wanted).length rows) :=
    inOrder_page distinct byKey order
  rw [Page.page, take_of_length_le (Nat.le_of_eq (length_mergeSort _))] at whole
  exact whole

theorem mergeSort_filter {test : Row → Bool} (distinct : (rows.map key).Nodup)
    (byKey : ∀ first second, le first second ↔ key first ≤ key second)
    (order : TotalOrder le) :
    (rows.filter fun row => wanted row && test row).mergeSort le =
      ((rows.filter wanted).mergeSort le).filter test := by
  have perm : ((rows.filter fun row => wanted row && test row).mergeSort le).Perm
      (((rows.filter wanted).mergeSort le).filter test) := by
    have sorted := (mergeSort_perm (rows.filter wanted) le).filter test
    rw [filter_filter] at sorted
    apply (mergeSort_perm _ _).trans
    simpa only [Bool.and_comm] using sorted.symm
  apply List.Perm.eq_of_pairwise _ (pairwise_mergeSort order.trans order.total _)
    ((pairwise_mergeSort order.trans order.total _).filter _) perm
  intro first second firstIn secondIn before after
  have inside {row : Row}
      (member : row ∈ (rows.filter fun row => wanted row && test row).mergeSort le) : row ∈ rows :=
    mem_of_mem_filter ((mergeSort_perm _ _).mem_iff.mp member)
  exact inj_on_of_nodup_map distinct (inside firstIn) (inside (perm.mem_iff.mpr secondIn))
    (le_antisymm ((byKey first second).mp before) ((byKey second first).mp after))

theorem totalOrder_of_key
    (byKey : ∀ first second, le first second ↔ key first ≤ key second) : TotalOrder le where
  trans := by
    intro first second third before after
    rw [byKey] at before after ⊢
    exact le_trans before after
  total := by
    intro first second
    rw [Bool.or_eq_true, byKey, byKey]
    exact le_total (key first) (key second)

end pages

end Buzz.Library.Scroll
