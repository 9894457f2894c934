import Buzz.Nostr.Event

/-! The channel that a request's filters name together. -/

namespace Buzz.Req

open Nostr List

def hTag : SingleLetterTag := ⟨'h', by decide⟩

def hValues (filter : Filter) : List String := (filter.genericTags.lookup hTag).getD []

variable (parseUuid : String → Option Uuid)

/-- The channel found so far; nothing once two differ. -/
def scanValues (foundId : Option Uuid) (filterHasChannel : Bool) :
    List String → Option (Option Uuid × Bool)
  | [] => some (foundId, filterHasChannel)
  | value :: values =>
    match parseUuid value with
    | none => scanValues foundId filterHasChannel values
    | some id =>
      if foundId.any fun existing => decide (existing ≠ id) then none
      else scanValues (some id) true values

def scanFilters (foundId : Option Uuid) : List Filter → Option Uuid
  | [] => foundId
  | filter :: filters =>
    match scanValues parseUuid foundId false (hValues filter) with
    | none => none
    | some (found, filterHasChannel) =>
      if filterHasChannel then scanFilters found filters else none

def extractChannelIdFromFilters (filters : List Filter) : Option Uuid :=
  scanFilters parseUuid none filters

/-- The channels that a filter names. -/
def namedChannels (filter : Filter) : List Uuid := (hValues filter).filterMap parseUuid

variable {parseUuid} {found : Option Uuid} {channel : Uuid}

theorem scanValues_eq (has : Bool) (values : List String) :
    scanValues parseUuid found has values = match values.filterMap parseUuid with
      | [] => some (found, has)
      | id :: rest =>
        if (∀ existing ∈ found, existing = id) ∧ ∀ other ∈ rest, other = id then some (some id, true)
        else none := by
  induction values generalizing found has with
  | nil => rfl
  | cons value values ih =>
    cases parsed : parseUuid value with
    | none => simp [scanValues, parsed, ih]
    | some id =>
      rw [scanValues, parsed, filterMap_cons_some parsed]
      dsimp only
      rw [ih]
      cases found <;> cases values.filterMap parseUuid <;> simp [-Subtype.forall]
      all_goals grind

theorem scanFilters_eq_some {filters : List Filter} :
    scanFilters parseUuid found filters = some channel ↔
      (∀ existing ∈ found, existing = channel) ∧ (filters = [] → found = some channel) ∧
        ∀ filter ∈ filters, namedChannels parseUuid filter ≠ [] ∧
          ∀ id ∈ namedChannels parseUuid filter, id = channel := by
  induction filters generalizing found with
  | nil => simp_all [scanFilters]
  | cons filter rest ih =>
    rw [scanFilters, scanValues_eq, ← namedChannels, forall_mem_cons]
    cases namedChannels parseUuid filter with
    | nil => simp
    | cons id more =>
      dsimp only
      split_ifs with same
      · refine Iff.trans ih ?_
        constructor
        · rintro ⟨first, -, others⟩
          obtain rfl := first id rfl
          exact ⟨same.1, nofun, ⟨nofun, forall_mem_cons.mpr ⟨rfl, same.2⟩⟩, others⟩
        · rintro ⟨-, -, every, others⟩
          obtain rfl := every.2 id mem_cons_self
          exact ⟨fun _ isId => (Option.some.inj isId).symm, fun _ => rfl, others⟩
      · refine iff_of_false nofun fun ⟨before, _, every, _⟩ => ?_
        obtain rfl := every.2 id mem_cons_self
        exact same ⟨before, fun other member => every.2 other (mem_cons_of_mem _ member)⟩

/-- A subscription is bound to a channel only when every filter names it and no other. -/
theorem extractChannelId_exact (parseUuid : String → Option Uuid) (filters : List Filter)
    (channel : Uuid) : extractChannelIdFromFilters parseUuid filters = some channel ↔
      filters ≠ [] ∧ ∀ filter ∈ filters, namedChannels parseUuid filter ≠ [] ∧
        ∀ id ∈ namedChannels parseUuid filter, id = channel := by
  rw [extractChannelIdFromFilters, scanFilters_eq_some]
  simp

end Buzz.Req
