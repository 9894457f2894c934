import Buzz.Req.Query

/-! What the SQL predicate of a filter and the matching of the same filter read of a row, constraint by
constraint, and where the two part. -/

namespace Buzz.Req

open Nostr Buzz.Subscription List

variable {T : Type}

theorem oneOrMany_clause [BEq T] [LawfulBEq T] [DecidableEq T] (values : Option (List T))
    (item : T) :
    ((oneOrMany values).1.all (fun single => item = single) &&
        (oneOrMany values).2.all (·.contains item)) ↔
      ∀ list, values = some list → list ≠ [] → item ∈ list := by
  cases values with
  | none => simp [oneOrMany]
  | some list =>
    match list with
    | [] => simp [oneOrMany]
    | [single] => simp [oneOrMany]
    | first :: second :: rest => simp [oneOrMany]

theorem nonempty_clause (values : Option (List T)) (kept : List T → Bool) :
    (nonempty values).all kept ↔
      ∀ list, values = some list → list ≠ [] → kept list := by
  cases values with
  | none => simp [nonempty]
  | some list =>
    match list with
    | [] => simp [nonempty]
    | first :: rest => simp [nonempty]

theorem oneOrMany_fst (values : Option (List T)) (kept : T → Bool) :
    (oneOrMany values).1.all kept ↔ ∀ single, values = some [single] → kept single := by
  cases values with
  | none => simp [oneOrMany]
  | some list =>
    match list with
    | [] => simp [oneOrMany]
    | [single] => simp [oneOrMany]
    | first :: second :: rest => simp [oneOrMany]

theorem date_clause (time : Option ℕ) (kept : ℤ → Bool) :
    (time.bind fun t => dateFromTimestamp (asI64 t)).all kept ↔
      ∀ t bound, time = some t → dateFromTimestamp (asI64 t) = some bound → kept bound := by
  cases time with
  | none => simp
  | some t =>
    rw [Option.bind_some]
    constructor
    · intro all other bound same found
      cases same
      rw [found] at all
      exact all
    · intro every
      cases found : dateFromTimestamp (asI64 t) with
      | none => rfl
      | some bound => exact every t bound rfl found

theorem asI64_of_lt {value : ℕ} (small : (value : ℤ) < 9223372036854775808) :
    asI64 value = value := by
  have word : (value : ℤ) % 18446744073709551616 = value := by omega
  unfold asI64
  rw [word]
  exact if_pos small

theorem dateFromTimestamp_eq {secs bound : ℤ} (found : dateFromTimestamp secs = some bound) :
    bound = secs := by
  unfold dateFromTimestamp at found
  split at found
  · exact (Option.some.inj found).symm
  · cases found

theorem dateFromTimestamp_asI64 {value : ℕ} (dated : (value : ℤ) ≤ dateMax) :
    dateFromTimestamp (asI64 value) = some (value : ℤ) := by
  have small : (value : ℤ) < 9223372036854775808 := by
    unfold dateMax at dated
    omega
  have late : dateMin ≤ (value : ℤ) := by
    unfold dateMin
    omega
  rw [asI64_of_lt small, dateFromTimestamp, if_pos ⟨late, dated⟩]

theorem toHex_prefix_iff {first second : EventId} :
    first.toHex.toList.isPrefixOf second.toHex.toList ↔ first = second := by
  have length (id : EventId) : id.toHex.toList.length = 64 := by
    rw [FixedBytes.toHex, String.toList_ofList, hexEncode_length, id.property]
  constructor
  · intro isPrefix
    have same := ( isPrefixOf_iff_prefix.mp isPrefix).eq_of_length
      ((length first).trans (length second).symm)
    exact toHex_injective (String.toList_inj.mp same)
  · rintro rfl
    exact isPrefixOf_iff_prefix.mpr (prefix_refl _)

structure Matched (filter : Filter) (stored : StoredEvent) : Prop where
  kinds : ∀ kinds, filter.kinds = some kinds → stored.event.kind ∈ kinds
  authors : ∀ authors, filter.authors = some authors → stored.event.pubkey ∈ authors
  since : ∀ since, filter.since = some since → since ≤ stored.event.createdAt
  «until» : ∀ latest, filter.until = some latest → stored.event.createdAt ≤ latest
  ids : ∀ ids, filter.ids = some ids → stored.event.id ∈ ids
  tags : ∀ entry ∈ filter.genericTags.entries, genericTagMatches entry.1 entry.2 stored

theorem all_option_iff (values : Option T) (kept : T → Bool) :
    values.all kept ↔ ∀ value, values = some value → kept value := by
  cases values <;> simp

theorem filtersMatch_iff {filter : Filter} {stored : StoredEvent} :
    filtersMatch [filter] stored ↔ Matched filter stored := by
  have ids (list : List EventId) :
      (list.any (·.toHex.toList.isPrefixOf stored.event.id.toHex.toList)) ↔
        stored.event.id ∈ list := by
    simp only [any_eq_true, toHex_prefix_iff, exists_eq_right]
  simp only [filtersMatch, any_cons, any_nil, Bool.or_false, filterMatchOne,
    Bool.and_eq_true, all_option_iff, ids, contains_iff_mem, Bool.not_eq_true',
    decide_eq_false_iff_not, Nat.not_lt, all_eq_true]
  constructor
  · rintro ⟨⟨⟨⟨⟨kinds, authors⟩, since⟩, latest⟩, ids⟩, tags⟩
    exact ⟨kinds, authors, since, latest, ids, tags⟩
  · intro matched
    exact ⟨⟨⟨⟨⟨matched.kinds, matched.authors⟩, matched.since⟩, matched.until⟩, matched.ids⟩,
      matched.tags⟩

structure Selected (filter : Filter) (channelId : Option Uuid) (channelIds : Option (List Uuid))
    (community : CommunityId) (row : EventRow) : Prop where
  community : row.communityId = community
  live : row.deleted = false
  mentioned : ∀ value, filter.genericTags.lookup pTag = some [value] →
    toAsciiLowercase value ∈ row.mentions
  inChannel : ∀ channel, channelId = some channel → row.stored.channelId = some channel
  accessible : ∀ ids, channelIds = some ids → ∀ channel, row.stored.channelId = some channel →
    channel ∈ ids
  kinds : ∀ kinds, filter.kinds = some kinds → row.stored.event.kind ∈ kinds
  authors : ∀ authors, filter.authors = some authors → authors ≠ [] →
    row.stored.event.pubkey ∈ authors
  ids : ∀ ids, filter.ids = some ids → ids ≠ [] → row.stored.event.id ∈ ids
  referenced : ∀ values, filter.genericTags.lookup eTag = some values → values ≠ [] →
    ∃ value ∈ values, tagsContain row.stored.event.tags ["e", value]
  since : ∀ since bound, filter.since = some since → dateFromTimestamp (asI64 since) = some bound →
    bound ≤ row.stored.event.createdAt
  «until» : ∀ latest bound, filter.until = some latest →
    dateFromTimestamp (asI64 latest) = some bound → (row.stored.event.createdAt : ℤ) ≤ bound
  addressed : isNip33Only filter → ∀ values, filter.genericTags.lookup dTag = some values →
    values ≠ [] → ∃ address ∈ values, extractDTag row.stored.event = some address

theorem dTagClause_iff (filter : Filter) (channelId : Option Uuid) (community : CommunityId)
    (column : Option String) :
    (filterToQueryParams filter channelId community).dTagClause column ↔
      (isNip33Only filter → ∀ values, filter.genericTags.lookup dTag = some values →
        values ≠ [] → ∃ address ∈ values, column = some address) := by
  unfold EventQuery.dTagClause filterToQueryParams
  cases isNip33Only filter with
  | false => simp
  | true =>
    cases filter.genericTags.lookup dTag with
    | none => simp [oneOrMany]
    | some values =>
      match values with
      | [] => simp [oneOrMany]
      | [single] => simp [oneOrMany]
      | first :: second :: rest =>
        cases column with
        | none | some address => simp [oneOrMany]

theorem kind_mem_iff (kinds : List Kind) (kind : Kind) :
    (kinds.map UInt16.toNat).contains kind.toNat ↔ kind ∈ kinds := by
  rw [contains_iff_mem]
  constructor
  · intro member
    obtain ⟨other, present, same⟩ := mem_map.mp member
    exact UInt16.toNat_inj.mp same ▸ present
  · exact mem_map_of_mem

/-- With the handler's channels and reader. -/
def scopedQuery (filter : Filter) (channelId : Option Uuid) (channelIds : Option (List Uuid))
    (community : CommunityId) : EventQuery :=
  { filterToQueryParams filter channelId community with channelIds }

theorem selects_iff {filter : Filter} {channelId : Option Uuid} {channelIds : Option (List Uuid)}
    {community : CommunityId} {row : EventRow} :
    (scopedQuery filter channelId channelIds community).selects row ↔
      Selected filter channelId channelIds community row := by
  have address := dTagClause_iff filter channelId community (extractDTag row.stored.event)
  have authors := oneOrMany_clause filter.authors row.stored.event.pubkey
  rw [Bool.and_eq_true] at authors
  have mentions := oneOrMany_fst (filter.genericTags.lookup pTag) fun p =>
    row.mentions.contains (toAsciiLowercase p)
  have ids := nonempty_clause filter.ids (·.contains row.stored.event.id)
  have references := nonempty_clause (filter.genericTags.lookup eTag) fun values =>
    values.any fun value => tagsContain row.stored.event.tags ["e", value]
  have since := date_clause filter.since fun s => s ≤ (row.stored.event.createdAt : ℤ)
  have latest := date_clause filter.until fun u => (row.stored.event.createdAt : ℤ) ≤ u
  have kinds : ((filter.kinds.map (·.map UInt16.toNat)).all fun kinds =>
      kinds.contains (eventKindU32 row.stored.event)) ↔
        ∀ kinds, filter.kinds = some kinds → row.stored.event.kind ∈ kinds := by
    rw [Option.all_map, all_option_iff]
    simp only [eventKindU32, kind_mem_iff]
  have scope : (scopedQuery filter channelId channelIds community).channelIdsClause
      row.stored.channelId ↔
        ∀ ids, channelIds = some ids → ∀ channel, row.stored.channelId = some channel →
          channel ∈ ids := by
    unfold EventQuery.channelIdsClause scopedQuery
    simp only [all_option_iff, contains_iff_mem]
  have channel : channelId.all (fun channel =>
      row.stored.channelId = some channel) ↔
        ∀ channel, channelId = some channel → row.stored.channelId = some channel := by
    simp only [all_option_iff, decide_eq_true_eq]
  unfold EventQuery.selects
  simp only [Bool.and_eq_true]
  constructor
  · rintro ⟨⟨⟨⟨⟨⟨⟨⟨⟨⟨⟨⟨community, live⟩, byMention⟩, byChannel⟩, byScope⟩, byKind⟩, single⟩, many⟩,
      byId⟩, byReference⟩, bySince⟩, byUntil⟩, byAddress⟩
    exact
      { community := of_decide_eq_true community
        live := by simpa using live
        mentioned := fun value present => contains_iff_mem.mp (mentions.mp byMention value present)
        inChannel := channel.mp byChannel
        accessible := scope.mp byScope
        kinds := kinds.mp byKind
        authors := authors.mp ⟨single, many⟩
        ids := fun list present some => contains_iff_mem.mp (ids.mp byId list present some)
        referenced := fun values present some =>
          any_eq_true.mp (references.mp byReference values present some)
        since := fun t bound present found => of_decide_eq_true (since.mp bySince t bound present found)
        «until» := fun t bound present found =>
          of_decide_eq_true (latest.mp byUntil t bound present found)
        addressed := address.mp byAddress }
  · intro selected
    have both := authors.mpr selected.authors
    have byMention := mentions.mpr fun value present =>
      contains_iff_mem.mpr (selected.mentioned value present)
    have byId := ids.mpr fun list present some =>
      contains_iff_mem.mpr (selected.ids list present some)
    have byReference := references.mpr fun values present some =>
      any_eq_true.mpr (selected.referenced values present some)
    have bySince := since.mpr fun t bound present found =>
      decide_eq_true (selected.since t bound present found)
    have byUntil := latest.mpr fun t bound present found =>
      decide_eq_true (selected.until t bound present found)
    exact ⟨⟨⟨⟨⟨⟨⟨⟨⟨⟨⟨⟨decide_eq_true selected.community, by simpa using selected.live⟩, byMention⟩,
      channel.mpr selected.inChannel⟩, scope.mpr selected.accessible⟩, kinds.mpr selected.kinds⟩,
      both.1⟩, both.2⟩, byId⟩, byReference⟩, bySince⟩, byUntil⟩, address.mpr selected.addressed⟩

section partings

variable {filter : Filter} {row : EventRow}

inductive Unmet (filter : Filter) (row : EventRow) : Prop
  | noAuthors (empty : filter.authors = some [])
  | noIds (empty : filter.ids = some [])
  | early (since : ℕ) (present : filter.since = some since)
      (before : row.stored.event.createdAt < since)
  | untagged (key : SingleLetterTag) (values : List String)
      (present : filter.genericTags.lookup key = some values)
      (refused : genericTagMatches key values row.stored = false)

/-- The SQL predicate has a clause that a row of the filter does not pass. -/
inductive Unread (filter : Filter) (channelId : Option Uuid) (channelIds : Option (List Uuid))
    (row : EventRow) : Prop
  | wrapped (latest : ℕ) (bound : ℤ) (present : filter.until = some latest)
      (found : dateFromTimestamp (asI64 latest) = some bound)
      (after : bound < row.stored.event.createdAt)
  | elsewhere (channel : Uuid) (named : channelId = some channel)
      (other : row.stored.channelId ≠ some channel)
  | unlisted (ids : List Uuid) (listed : channelIds = some ids) (channel : Uuid)
      (inChannel : row.stored.channelId = some channel) (missing : channel ∉ ids)
  | unmentioned (value : String) (present : filter.genericTags.lookup pTag = some [value])
      (missing : toAsciiLowercase value ∉ row.mentions)
  | misaddressed (addressable : isNip33Only filter) (values : List String)
      (present : filter.genericTags.lookup dTag = some values)
      (other : ∀ address ∈ values, extractDTag row.stored.event ≠ some address)

variable {channelId : Option Uuid} {channelIds : Option (List Uuid)} {community : CommunityId}

theorem Selected.matched_iff (selected : Selected filter channelId channelIds community row) :
    Matched filter row.stored ↔ ¬ Unmet filter row := by
  constructor
  · intro matched unmet
    cases unmet with
    | noAuthors empty => exact not_mem_nil (matched.authors [] empty)
    | noIds empty => exact not_mem_nil (matched.ids [] empty)
    | early since present before =>
      have late := matched.since since present
      omega
    | untagged key values present refused =>
      have accepted := matched.tags ⟨key, values⟩ (AList.mem_lookup_iff.mp present)
      rw [refused] at accepted
      cases accepted
  · intro met
    refine ⟨selected.kinds, ?_, ?_, ?_, ?_, ?_⟩
    · intro authors present
      apply selected.authors authors present
      rintro rfl
      exact met (.noAuthors present)
    · intro since present
      by_contra before
      exact met (.early since present (by omega))
    · intro latest present
      by_contra after
      have dated : (latest : ℤ) ≤ dateMax := by
        have := row.dated
        omega
      have bound := selected.until latest latest present (dateFromTimestamp_asI64 dated)
      omega
    · intro ids present
      apply selected.ids ids present
      rintro rfl
      exact met (.noIds present)
    · intro entry member
      by_contra refused
      exact met (.untagged entry.1 entry.2 (AList.mem_lookup_iff.mpr member)
        (Bool.eq_false_iff.mpr refused))

variable {key : SingleLetterTag} {values : List String} {stored : StoredEvent}

theorem genericTagMatches_iff (notChannel : key.toString ≠ "h") :
    genericTagMatches key values stored ↔
      ∃ value ∈ values, value ∈ tagContents key.toString stored.event.tags := by
  simp [genericTagMatches, notChannel]

variable {value : String} {tags : List Tag}

theorem mem_tagContents {kind : String} (tagged : value ∈ tagContents kind tags) :
    ∃ tag ∈ tags, tag.kind = kind ∧ tag.content = some value := by
  simpa [tagContents, and_assoc] using tagged

theorem tagsContain_of_content {kind : String}
    (tagged : value ∈ tagContents kind tags) : tagsContain tags [kind, value] := by
  obtain ⟨tag, member, isKind, content⟩ := mem_tagContents tagged
  have letter : kind ∈ tag.buf := isKind ▸ head_mem tag.nonempty
  have second : value ∈ tag.buf := mem_of_getElem? content
  rw [tagsContain, any_eq_true]
  exact ⟨tag, member, by simp [letter, second]⟩

theorem Matched.tagged (matched : Matched filter stored)
    (present : filter.genericTags.lookup key = some values) (notChannel : key.toString ≠ "h") :
    ∃ value ∈ values, value ∈ tagContents key.toString stored.event.tags :=
  (genericTagMatches_iff notChannel).mp
    (matched.tags ⟨key, values⟩ (AList.mem_lookup_iff.mp present))

theorem Matched.selected_iff (matched : Matched filter row.stored)
    (inCommunity : row.communityId = community) (live : row.deleted = false) :
    Selected filter channelId channelIds community row ↔
      ¬ Unread filter channelId channelIds row := by
  constructor
  · intro selected unread
    cases unread with
    | wrapped latest bound present found after =>
      have before := selected.until latest bound present found
      omega
    | elsewhere channel named other => exact other (selected.inChannel channel named)
    | unlisted ids listed channel inChannel missing =>
      exact missing (selected.accessible ids listed channel inChannel)
    | unmentioned value present missing => exact missing (selected.mentioned value present)
    | misaddressed addressable values present other =>
      obtain ⟨value, member, -⟩ := matched.tagged present (by decide)
      obtain ⟨address, named, column⟩ :=
        selected.addressed addressable values present (ne_nil_of_mem member)
      exact other address named column
  · intro read
    refine ⟨inCommunity, live, ?_, ?_, ?_, matched.kinds, ?_, ?_, ?_, ?_, ?_, ?_⟩
    · intro value present
      by_contra missing
      exact read (.unmentioned value present missing)
    · intro channel named
      by_contra other
      exact read (.elsewhere channel named other)
    · intro ids listed channel inChannel
      by_contra missing
      exact read (.unlisted ids listed channel inChannel missing)
    · intro authors present _
      exact matched.authors authors present
    · intro ids present _
      exact matched.ids ids present
    · intro values present _
      obtain ⟨value, member, tagged⟩ := matched.tagged present (by decide)
      exact ⟨value, member, tagsContain_of_content tagged⟩
    · intro since bound present found
      have early := matched.since since present
      have dated : (since : ℤ) ≤ dateMax := by
        have := row.dated
        omega
      rw [dateFromTimestamp_asI64 dated, Option.some.injEq] at found
      omega
    · intro latest bound present found
      by_contra after
      exact read (.wrapped latest bound present found (by omega))
    · intro addressable values present _
      by_contra other
      push Not at other
      exact read (.misaddressed addressable values present other)

end partings

end Buzz.Req
