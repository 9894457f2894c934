import Buzz.ReadState.Manager
import Mathlib.Data.List.Basic

/-! Split read-state blobs keep within their budget and lose no channel. -/

namespace Buzz.ReadState

open Library List

def isChannel (entry : String × ℕ) : Bool := !(isMsgKey entry.1 || isThreadKey entry.1)

section sizes

def entryText (entry : String × ℕ) : String := stringText entry.1 ++ ":" ++ Nat.repr entry.2

def textBytes (entry : String × ℕ) : ℕ := (entryText entry).utf8ByteSize

def contribution (entry : String × ℕ) : ℕ :=
  utf16Length entry.1 + 3 + utf16Length (Nat.repr entry.2) + 1

theorem intercalate_bytes (entries : List (String × ℕ)) :
    (String.intercalate "," (entries.map entryText)).utf8ByteSize =
      (entries.map textBytes).sum + (entries.length - 1) := by
  induction entries with
  | nil => rfl
  | cons first rest ih =>
    cases rest with
    | nil => simp [textBytes]
    | cons second rest =>
      have comma : (",".utf8ByteSize) = 1 := rfl
      simp only [map_cons, String.intercalate_cons_cons, String.utf8ByteSize_append, comma, sum_cons,
        length_cons] at ih ⊢
      simp only [textBytes] at ih ⊢
      omega

theorem blobBytes_eq (clientId : String) : ∃ frame, ∀ contexts, blobBytes clientId contexts =
    frame + ((contexts.entries.map textBytes).sum + (contexts.entries.length - 1)) := by
  refine ⟨("\x7b\"v\":1,\"client_id\":" ++ stringText clientId ++ ",\"contexts\":\x7b").utf8ByteSize +
    "\x7d\x7d".utf8ByteSize, fun contexts => ?_⟩
  rw [← intercalate_bytes, Nat.add_right_comm, ← String.utf8ByteSize_append, ← String.utf8ByteSize_append]
  rfl

theorem utf16Length_append (first second : String) :
    utf16Length (first ++ second) = utf16Length first + utf16Length second := by
  simp [utf16Length]

theorem utf16Length_le (chars : List Char) :
    utf16Length (String.ofList chars) ≤ (String.ofList chars).utf8ByteSize := by
  induction chars with
  | nil => simp [utf16Length]
  | cons c rest ih =>
    have head : utf16Length (String.singleton c) ≤ (String.singleton c).utf8ByteSize := by
      rw [String.utf8ByteSize_singleton]
      by_cases wide : 0x10000 ≤ c.toNat
      · have size : c.utf8Size = 4 := Char.utf8Size_eq_four_iff.mpr (UInt32.lt_iff_toNat_lt.mpr wide)
        simp [utf16Length, wide, size]
      · have size : 1 ≤ c.utf8Size := c.utf8Size_pos
        simpa [utf16Length, wide] using size
    rw [← singleton_append, String.ofList_append, ← String.singleton_eq_ofList, utf16Length_append,
      String.utf8ByteSize_append]
    exact Nat.add_le_add head ih

theorem utf16Length_escapeChar (c : Char) :
    utf16Length (String.singleton c) ≤ utf16Length (String.ofList (escapeChar c)) := by
  unfold escapeChar
  split_ifs with quote backslash backspace feed newline carriage tab control
  all_goals simp [utf16Length, *]
  split <;> omega

theorem utf16Length_stringText (text : String) :
    utf16Length text + 2 ≤ utf16Length (stringText text) := by
  have chars : ∀ chars : List Char, utf16Length (String.ofList chars) ≤
      utf16Length (String.ofList (chars.flatMap escapeChar)) := by
    intro chars
    induction chars with
    | nil => exact Nat.le_refl _
    | cons c rest ih =>
      rw [← singleton_append, String.ofList_append, ← String.singleton_eq_ofList, flatMap_append,
        flatMap_singleton, String.ofList_append, utf16Length_append, utf16Length_append]
      exact Nat.add_le_add (utf16Length_escapeChar c) ih
  have quote : utf16Length (String.ofList ['"']) = 1 := rfl
  have inside := chars text.toList
  rw [String.ofList_toList] at inside
  rw [stringText, cons_append, ← singleton_append, String.ofList_append, String.ofList_append,
    utf16Length_append, utf16Length_append, quote]
  omega

theorem contribution_le (entry : String × ℕ) : contribution entry ≤ textBytes entry + 1 := by
  have escaped := utf16Length_stringText entry.1
  have key := utf16Length_le (stringText entry.1).toList
  have value := utf16Length_le (Nat.repr entry.2).toList
  rw [String.ofList_toList] at key value
  have colon : (":".utf8ByteSize) = 1 := rfl
  simp only [contribution, textBytes, entryText, String.utf8ByteSize_append, colon]
  omega

theorem contributions_le (entries : List (String × ℕ)) :
    (entries.map contribution).sum ≤ (entries.map textBytes).sum + entries.length := by
  induction entries with
  | nil => exact Nat.le_refl _
  | cons entry rest ih =>
    have head := contribution_le entry
    simp only [map_cons, sum_cons, length_cons]
    omega

end sizes

theorem evictions_split (maxBytes : ℕ) (currentBytes : ℤ) (entries : List (String × ℕ)) :
    ∃ evicted kept, entries = evicted ++ kept ∧
      evictions maxBytes currentBytes entries = evicted.map Prod.fst ∧
      (kept = [] ∨ currentBytes - (evicted.map contribution).sum ≤ maxBytes) := by
  induction entries generalizing currentBytes with
  | nil => exact ⟨[], [], rfl, rfl, .inl rfl⟩
  | cons entry rest ih =>
    by_cases enough : currentBytes ≤ maxBytes
    · exact ⟨[], entry :: rest, rfl, if_pos enough, .inr (by simpa using enough)⟩
    · rcases ih (currentBytes - contribution entry) with ⟨evicted, kept, rfl, isEvicted, last⟩
      refine ⟨entry :: evicted, kept, rfl, ?_, ?_⟩
      · rw [evictions, if_neg enough, map_cons, ← isEvicted]
        rfl
      · refine last.imp id fun enough => ?_
        rw [map_cons, sum_cons]
        omega

section trim

variable (contexts : Contexts) (clientId : String) (maxBytes : ℕ)

theorem trimmed {evicted : List (String × ℕ)} (distinct : evicted.Nodup)
    (inside : ∀ entry ∈ evicted, entry ∈ contexts.entries) : contexts.entries ~
      evicted ++ contexts.entries.filter fun entry => !(evicted.map Prod.fst).contains entry.1 := by
  refine (filter_append_perm _ _).symm.trans (Perm.append_right _ ?_)
  refine (perm_ext_iff_of_nodup (contexts.distinct.of_map.filter _) distinct).mpr fun entry => ?_
  rw [List.mem_filter, List.contains_iff_mem, mem_map]
  constructor
  · rintro ⟨member, other, isEvicted, same⟩
    rwa [← inj_on_of_nodup_map contexts.distinct (inside other isEvicted) member same]
  · exact fun isEvicted => ⟨inside entry isEvicted, entry, isEvicted, rfl⟩

theorem prunable_perm : oldestFirst (contexts.entries.filter fun entry => isMsgKey entry.1) ++
    oldestFirst (contexts.entries.filter fun entry => !isMsgKey entry.1 && isThreadKey entry.1) ~
      contexts.entries.filter (!isChannel ·) := by
  refine ((mergeSort_perm _ _).append (mergeSort_perm _ _)).trans ?_
  have parts := filter_append_perm (fun entry => isMsgKey entry.1) (contexts.entries.filter (!isChannel ·))
  rw [filter_filter, filter_filter] at parts
  refine Eq.subst (motive := (· ~ _)) ?_ parts
  congr 2 <;> funext entry <;> cases isMsg : isMsgKey entry.1 <;> simp [isChannel, isMsg]

theorem trimContextsToBudget_cases :
    blobBytes clientId contexts ≤ maxBytes ∧
      (trimContextsToBudget contexts clientId maxBytes).contexts = contexts ∨
    ∃ evicted kept, evicted ++ kept ~ contexts.entries.filter (!isChannel ·) ∧
      (trimContextsToBudget contexts clientId maxBytes).contexts =
        contexts.filter (fun entry => !(evicted.map Prod.fst).contains entry.1) ∧
      (kept = [] ∨ blobBytes clientId contexts - ((evicted.map contribution).sum : ℤ) ≤ maxBytes) := by
  unfold trimContextsToBudget
  by_cases fits : blobBytes clientId contexts ≤ maxBytes
  · exact .inl ⟨fits, by rw [if_pos fits]⟩
  · rcases evictions_split maxBytes (blobBytes clientId contexts)
      (oldestFirst (contexts.entries.filter fun entry => isMsgKey entry.1) ++
        oldestFirst (contexts.entries.filter fun entry => !isMsgKey entry.1 && isThreadKey entry.1))
      with ⟨evicted, kept, isSplit, isEvicted, enough⟩
    refine .inr ⟨evicted, kept, ?_, ?_, enough⟩
    · rw [← isSplit]
      exact prunable_perm contexts
    · simp only [if_neg fits, isEvicted]

theorem contains_prunable {evicted : List (String × ℕ)}
    (prunable : ∀ entry ∈ evicted, isChannel entry = false) {entry : String × ℕ}
    (isKey : (evicted.map Prod.fst).contains entry.1 = true) : isChannel entry = false := by
  rcases mem_map.mp (List.contains_iff_mem.mp isKey) with ⟨other, isEvicted, same⟩
  have old := prunable other isEvicted
  rwa [isChannel, same] at old

variable {contexts} in
theorem evicted_prunable {evicted kept : List (String × ℕ)}
    (whole : evicted ++ kept ~ contexts.entries.filter (!isChannel ·)) :
    ∀ entry ∈ evicted, entry ∈ contexts.entries ∧ isChannel entry = false := by
  intro entry isEvicted
  simpa using whole.subset (mem_append_left _ isEvicted)

theorem trimContextsToBudget_channels :
    (trimContextsToBudget contexts clientId maxBytes).contexts.entries.filter isChannel =
      contexts.entries.filter isChannel := by
  rcases trimContextsToBudget_cases contexts clientId maxBytes with
    ⟨-, same⟩ | ⟨evicted, kept, whole, same, -⟩
  · rw [same]
  · rw [same, Ordered.filter, filter_filter]
    refine filter_congr fun entry _ => ?_
    cases isKey : (evicted.map Prod.fst).contains entry.1 with
    | false => simp
    | true =>
      simp [contains_prunable (fun entry isEvicted => (evicted_prunable whole entry isEvicted).2) isKey]

variable {contexts clientId maxBytes} in
/-- The estimate is at most what the entries take, unless nothing is left. -/
theorem trimContextsToBudget_fits (channels : blobBytes clientId (contexts.filter isChannel) ≤ maxBytes) :
    blobBytes clientId (trimContextsToBudget contexts clientId maxBytes).contexts ≤ maxBytes := by
  rcases trimContextsToBudget_cases contexts clientId maxBytes with
    ⟨fits, same⟩ | ⟨evicted, kept, whole, same, enough⟩
  · rwa [same]
  · have inside := evicted_prunable whole
    have distinct : (evicted ++ kept).Nodup := whole.symm.nodup (contexts.distinct.of_map.filter _)
    have parts := trimmed contexts (nodup_append.mp distinct).1 fun entry isEvicted => (inside entry isEvicted).1
    rcases blobBytes_eq clientId with ⟨frame, bytes⟩
    rw [same]
    rw [bytes] at channels ⊢
    rcases enough with rfl | enough
    · have every : contexts.entries.filter (fun entry => !(evicted.map Prod.fst).contains entry.1) =
          contexts.entries.filter isChannel := by
        refine filter_congr fun entry member => ?_
        cases isKey : (evicted.map Prod.fst).contains entry.1 with
        | true => simp [contains_prunable (fun entry isEvicted => (inside entry isEvicted).2) isKey]
        | false =>
          by_contra prunable
          rw [append_nil] at whole
          have isEvicted := whole.symm.subset (List.mem_filter.mpr ⟨member, by simpa using prunable⟩)
          rw [List.contains_iff_mem.mpr (mem_map_of_mem isEvicted)] at isKey
          cases isKey
      simp only [Ordered.filter, every]
      exact channels
    · have sum := (parts.map textBytes).sum_nat
      have count := parts.length_eq
      have least := contributions_le evicted
      rw [map_append, sum_append] at sum
      rw [length_append] at count
      rw [bytes] at enough
      simp only [Ordered.filter] at channels ⊢
      generalize (contexts.entries.filter fun entry => !(evicted.map Prod.fst).contains entry.1) =
        remaining at sum count ⊢
      cases remaining with
      | nil =>
        simp only [map_nil, sum_nil, length_nil]
        omega
      | cons first rest =>
        simp only [length_cons] at count ⊢
        omega

end trim

section shares

variable {channelEntries : List (String × ℕ)} {count : ℕ}

def share (channelEntries : List (String × ℕ)) (count slot : ℕ) : List (String × ℕ) :=
  (channelEntries.zipIdx.filter (·.2 % count == slot)).map Prod.fst

theorem setEntry_absent {entries : List (String × ℕ)} {key : String} {ts : ℕ}
    (absent : key ∉ entries.map Prod.fst) :
    Ordered.setEntry entries key ts = entries ++ [(key, ts)] := by
  induction entries with
  | nil => rfl
  | cons entry rest ih =>
    rw [map_cons, mem_cons, not_or] at absent
    rw [Ordered.setEntry, if_neg (Ne.symm absent.1), ih absent.2]
    rfl

theorem setAll_entries {contexts : Contexts} {entries : List (String × ℕ)}
    (distinct : ((contexts.entries ++ entries).map Prod.fst).Nodup) :
    (setAll contexts entries).entries = contexts.entries ++ entries := by
  induction entries generalizing contexts with
  | nil => exact (append_nil _).symm
  | cons entry rest ih =>
    have absent : entry.1 ∉ contexts.entries.map Prod.fst := by
      rw [map_append, map_cons] at distinct
      exact fun member => (nodup_append.mp distinct).2.2 _ member _ mem_cons_self rfl
    have appended : (contexts.set entry.1 entry.2).entries = contexts.entries ++ [entry] :=
      setEntry_absent absent
    rw [append_cons, ← appended] at distinct
    rw [append_cons, ← appended]
    exact ih distinct

theorem share_sublist (slot : ℕ) : (share channelEntries count slot).Sublist channelEntries := by
  have parts := (@filter_sublist _ (·.2 % count == slot) channelEntries.zipIdx).map Prod.fst
  rwa [zipIdx_map_fst] at parts

theorem mem_share {entry : String × ℕ} {slot : ℕ} : entry ∈ share channelEntries count slot ↔
    ∃ index, channelEntries[index]? = some entry ∧ index % count = slot := by
  simp [share, mk_mem_zipIdx_iff_getElem?]

theorem distribute_get {slot : ℕ} {contexts : Contexts}
    (distinct : (channelEntries.map Prod.fst).Nodup)
    (found : (distribute channelEntries count)[slot]? = some contexts) :
    contexts.entries = share channelEntries count slot := by
  rw [distribute, getElem?_map] at found
  rcases Option.map_eq_some_iff.mp found with ⟨place, isPlace, rfl⟩
  rcases List.getElem?_eq_some_iff.mp isPlace with ⟨inside, isPlace⟩
  rw [getElem_range] at isPlace
  subst isPlace
  exact setAll_entries (distinct.sublist ((share_sublist slot).map _))

theorem share_once {entry other : String × ℕ} {index slot : ℕ}
    (distinct : (channelEntries.map Prod.fst).Nodup) (found : channelEntries[index]? = some entry)
    (member : other ∈ share channelEntries count slot) (same : other.1 = entry.1) :
    slot = index % count := by
  rcases mem_share.mp member with ⟨place, isPlace, rfl⟩
  have keys : (channelEntries.map Prod.fst)[place]? = (channelEntries.map Prod.fst)[index]? := by
    rw [getElem?_map, getElem?_map, isPlace, found, Option.map_some, Option.map_some, same]
  have inside : place < (channelEntries.map Prod.fst).length := by
    rw [length_map]
    exact (List.getElem?_eq_some_iff.mp isPlace).1
  rw [(getElem?_inj inside distinct).mp keys]

theorem slotsNeeded_bounds (clientId : String) (maxBytes more : ℕ) :
    count ≤ slotsNeeded channelEntries clientId maxBytes more count ∧
      slotsNeeded channelEntries clientId maxBytes more count ≤ count + more := by
  induction more generalizing count with
  | zero => exact ⟨Nat.le_refl _, Nat.le_refl _⟩
  | succ more ih =>
    rw [slotsNeeded]
    split
    · have bounds := @ih (count + 1)
      omega
    · omega

end shares

section slots

variable {clientId : String} {initialSlotCount maxSlots maxBytes : ℕ} {slots : List Contexts}
  {channels threads : List (String × ℕ)} (distinct : ((channels ++ threads).map Prod.fst).Nodup)
  (kept : ∀ entry ∈ channels, isChannel entry = true)
  (prunable : ∀ entry ∈ threads, isChannel entry = false)

include distinct kept prunable

theorem primary_filter {first : Contexts} {count : ℕ} (isFirst : first.entries = share channels count 0) :
    (setAll first threads).entries.filter isChannel = share channels count 0 := by
  have keys : ((first.entries ++ threads).map Prod.fst).Nodup := by
    rw [isFirst]
    exact distinct.sublist (((share_sublist 0).append_right _).map _)
  have stay : (share channels count 0).filter isChannel = share channels count 0 :=
    filter_eq_self.mpr fun entry member => by simp [kept entry ((share_sublist 0).subset member)]
  have go : threads.filter isChannel = [] :=
    filter_eq_nil_iff.mpr fun entry member => by simp [prunable entry member]
  rw [setAll_entries keys, isFirst, filter_append, stay, go, append_nil]

theorem splitContextsIntoBudgetedSlots_slots (succeeded : splitContextsIntoBudgetedSlots channels threads
    clientId initialSlotCount maxSlots maxBytes = some slots) :
    initialSlotCount ≤ slots.length ∧ slots.length ≤ max initialSlotCount maxSlots ∧
    ∀ index slot, slots[index]? = some slot → blobBytes clientId slot ≤ maxBytes ∧
      slot.entries.filter isChannel = share channels slots.length index := by
  have keys : (channels.map Prod.fst).Nodup := by
    rw [map_append] at distinct
    exact (nodup_append.mp distinct).1
  have bounds := @slotsNeeded_bounds channels initialSlotCount clientId maxBytes
    (maxSlots - initialSlotCount)
  simp only [splitContextsIntoBudgetedSlots] at succeeded
  generalize slotsNeeded channels clientId maxBytes (maxSlots - initialSlotCount) initialSlotCount =
    count at bounds succeeded
  have long : (distribute channels count).length = count := by simp [distribute]
  have shares := fun slot contexts => @distribute_get channels count slot contexts keys
  generalize distribute channels count = parts at succeeded long shares
  cases fit : overflows clientId maxBytes parts with
  | true => simp [fit] at succeeded
  | false =>
    have fits : ∀ slot ∈ parts, blobBytes clientId slot ≤ maxBytes := by
      simpa [overflows] using fit
    simp only [fit, Bool.false_eq_true, if_false] at succeeded
    cases parts with
    | nil =>
      cases succeeded
      refine ⟨by simp at long; omega, by simp, nofun⟩
    | cons first others =>
      cases succeeded
      rw [length_cons] at long
      refine ⟨by rw [length_cons]; omega, by rw [length_cons]; omega, fun index slot found => ?_⟩
      rw [length_cons, long]
      cases index with
      | zero =>
        cases found
        have isFirst := shares 0 first rfl
        have primary := primary_filter distinct kept prunable isFirst
        refine ⟨trimContextsToBudget_fits ?_, (trimContextsToBudget_channels _ _ _).trans primary⟩
        rcases blobBytes_eq clientId with ⟨frame, bytes⟩
        have fit := fits first mem_cons_self
        rw [bytes, isFirst] at fit
        rw [bytes]
        simp only [Ordered.filter, primary]
        exact fit
      | succ index =>
        have other := shares (index + 1) slot found
        refine ⟨fits slot (mem_cons_of_mem _ (mem_of_getElem? found)), ?_⟩
        rw [other]
        exact filter_eq_self.mpr fun entry member => by
          simp [kept entry ((share_sublist _).subset member)]

end slots

structure SplitExact (contexts : Contexts) (clientId : String) (maxBytes most : ℕ)
    (slots : List Contexts) : Prop where
  fits : ∀ slot ∈ slots, blobBytes clientId slot ≤ maxBytes
  once : ∀ entry ∈ contexts.entries.filter isChannel, ∃ index < slots.length,
    ∀ other slot, slots[other]? = some slot →
      if other = index then entry ∈ slot.entries.filter isChannel
      else entry.1 ∉ (slot.entries.filter isChannel).map Prod.fst
  few : slots.length ≤ most

def splitContexts (contexts : Contexts) (clientId : String) (initialSlotCount maxSlots maxBytes : ℕ) :
    Option (List Contexts) :=
  splitContextsIntoBudgetedSlots (contexts.entries.filter isChannel)
    (contexts.entries.filter (!isChannel ·)) clientId initialSlotCount maxSlots maxBytes

def sampleContexts : Contexts where
  entries := [("one", 1), ("two", 2), ("msg:3", 3), ("thread:4", 4)]
  distinct := by decide

/-- Slots that are there already are kept even beyond the maximum. -/
theorem splitContexts_exact :
    (∀ contexts clientId initialSlotCount maxSlots maxBytes slots, 0 < initialSlotCount →
      splitContexts contexts clientId initialSlotCount maxSlots maxBytes = some slots →
        SplitExact contexts clientId maxBytes (max initialSlotCount maxSlots) slots) ∧
    ∀ contexts clientId maxBytes,
      ((trimContextsToBudget contexts clientId maxBytes).fitsAfterTrim = true →
        blobBytes clientId (trimContextsToBudget contexts clientId maxBytes).contexts ≤ maxBytes) ∧
      (trimContextsToBudget contexts clientId maxBytes).contexts.entries.filter isChannel =
        contexts.entries.filter isChannel := by
  constructor
  · intro contexts clientId initialSlotCount maxSlots maxBytes slots started succeeded
    have parts := filter_append_perm isChannel contexts.entries
    rcases splitContextsIntoBudgetedSlots_slots ((parts.map Prod.fst).symm.nodup contexts.distinct)
      (fun entry member => (List.mem_filter.mp member).2)
      (fun entry member => by simpa using (List.mem_filter.mp member).2) succeeded with ⟨more, few, shares⟩
    refine ⟨fun slot member => ?_, fun entry member => ?_, few⟩
    · rcases getElem?_of_mem member with ⟨index, found⟩
      exact (shares index slot found).1
    · rcases getElem?_of_mem member with ⟨index, isIndex⟩
      refine ⟨index % slots.length, Nat.mod_lt _ (Nat.lt_of_lt_of_le started more), fun other slot found => ?_⟩
      rw [(shares other slot found).2]
      split
      next same => exact mem_share.mpr ⟨index, isIndex, same.symm⟩
      next differs =>
        intro isKey
        rcases mem_map.mp isKey with ⟨again, shared, same⟩
        exact differs (share_once (contexts.distinct.sublist (filter_sublist.map _)) isIndex shared same)
  · refine fun contexts clientId maxBytes => ⟨?_, trimContextsToBudget_channels _ _ _⟩
    by_cases fits : blobBytes clientId contexts ≤ maxBytes
    · simp only [trimContextsToBudget, if_pos fits]
      exact fun _ => fits
    · simp only [trimContextsToBudget, if_neg fits]
      exact of_decide_eq_true

theorem splitContexts_exact_sample : ∃ slots, splitContexts sampleContexts "c" 1 2 75 = some slots ∧
    SplitExact sampleContexts "c" 75 2 slots := by
  have isSome : (splitContexts sampleContexts "c" 1 2 75).isSome := by decide +kernel
  have succeeded := (Option.some_get isSome).symm
  exact ⟨_, succeeded, splitContexts_exact.1 _ _ _ _ _ _ (by decide) succeeded⟩

theorem not_split_few : ¬ ∀ contexts clientId initialSlotCount maxSlots maxBytes, 0 < initialSlotCount →
    ∀ slots ∈ splitContexts contexts clientId initialSlotCount maxSlots maxBytes,
      slots.length ≤ maxSlots := by
  intro always
  have counted : (splitContexts .empty "" 2 1 64).map List.length = some 2 := by decide +kernel
  rcases Option.map_eq_some_iff.mp counted with ⟨slots, isSlots, two⟩
  have few := always .empty "" 2 1 64 (by decide) slots isSlots
  omega

end Buzz.ReadState
