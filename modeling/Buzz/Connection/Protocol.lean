import Buzz.JsonGrammar

/-! The messages of a connection as JSON text. -/

namespace Buzz.Protocol

open Buzz.JsonGrammar Library.UniqueReading List Option

def maxSubIdLength : ℕ := 256

def maxFiltersPerReq : ℕ := 10

inductive RelayError
  | invalidMessage (message : String)
  deriving DecidableEq

inductive ClientMessage (Event Filter : Type)
  | event (event : Event)
  | req (subId : String) (filters : List Filter)
  | close (subId : String)
  | count (subId : String) (filters : List Filter)
  | auth (event : Event)

section parse

variable {Event Filter : Type}
variable (eventFromValue : Json Number → Except String Event)
variable (filterFromValue : Json Number → Except String Filter)

def eventArgument (requires invalid : String) : List (Json Number) → Except RelayError Event
  | [] => .error (.invalidMessage requires)
  | value :: _ =>
    match eventFromValue value with
    | .ok event => .ok event
    | .error reason => .error (.invalidMessage (invalid ++ ": " ++ reason))

def subIdArgument (name : String) : List (Json Number) → Except RelayError String
  | [] => .error (.invalidMessage (name ++ " requires sub_id"))
  | value :: _ =>
    match value.asStr with
    | some subId => .ok subId
    | none => .error (.invalidMessage (name ++ " sub_id must be a string"))

def filterArguments : List (Json Number) → Except RelayError (List Filter)
  | [] => .ok []
  | value :: values =>
    match filterFromValue value with
    | .ok filter => do
      let filters ← filterArguments values
      return filter :: filters
    | .error reason => .error (.invalidMessage ("invalid filter: " ++ reason))

def subscriptionArguments (name : String) (values : List (Json Number)) :
    Except RelayError (String × List Filter) := do
  let subId ← subIdArgument name values
  if subId.isEmpty then
    throw (.invalidMessage (name ++ " sub_id must not be empty"))
  if maxSubIdLength < subId.utf8ByteSize then
    throw (.invalidMessage
      (name ++ " sub_id exceeds maximum length of " ++ maxSubIdLength.repr ++ " bytes"))
  let filterValues := values.drop 1
  if maxFiltersPerReq < filterValues.length then
    throw (.invalidMessage (name ++ " contains " ++ filterValues.length.repr ++
      " filters, maximum is " ++ maxFiltersPerReq.repr))
  let filters ← filterArguments filterFromValue filterValues
  return (subId, filters)

/-- `ClientMessage::parse`, from the value that the raw text parses to. -/
def ClientMessage.ofValue (value : Json Number) :
    Except RelayError (ClientMessage Event Filter) :=
  match value.asArray with
  | none => .error (.invalidMessage "expected JSON array")
  | some [] => .error (.invalidMessage "empty array")
  | some (first :: values) =>
    match first.asStr with
    | none => .error (.invalidMessage "first element must be a string")
    | some msgType =>
      if msgType = "EVENT" then do
        let event ← eventArgument eventFromValue "EVENT requires event object" "invalid event"
          values
        return .event event
      else if msgType = "REQ" then do
        let (subId, filters) ← subscriptionArguments filterFromValue "REQ" values
        return .req subId filters
      else if msgType = "COUNT" then do
        let (subId, filters) ← subscriptionArguments filterFromValue "COUNT" values
        return .count subId filters
      else if msgType = "CLOSE" then do
        let subId ← subIdArgument "CLOSE" values
        return .close subId
      else if msgType = "AUTH" then do
        let event ← eventArgument eventFromValue "AUTH requires event object" "invalid auth event"
          values
        return .auth event
      else .error (.invalidMessage ("unknown message type: " ++ msgType))

variable (readFloat : List Char → Option F64)

/-- `ClientMessage::parse` gives the message for the raw text. -/
def ClientMessage.Accepts (raw : String) (message : ClientMessage Event Filter) : Prop :=
  ∃ value, Parses readFloat raw value ∧
    ClientMessage.ofValue eventFromValue filterFromValue value = .ok message

end parse

/-- A value of sorted entries whose text reads back the same. -/
structure EventSerializer (Event : Type) (readFloat : List Char → Option F64)
    (formatFloat : F64 → String) where
  toString : Event → String
  toValue : Event → Json Number
  parses : ∀ event, Parses readFloat (toString event) (toValue event)
  printed : ∀ event, (toValue event).Each (ReadsNumber readFloat formatFloat) Json.KeysSorted
  object : ∀ event, ∃ entry entries, toValue event = .object (entry :: entries)

/-- `event_frame_for_sub`. -/
def eventFrameForSub (subId eventJson : String) : String :=
  "[\"EVENT\",\"" ++ subId ++ "\"," ++ eventJson ++ "]"

section frames

variable {Event : Type} {readFloat : List Char → Option F64} {formatFloat : F64 → String}

def eventValue (subId : String) (event : Json Number) : Json Number :=
  .array [.string "EVENT", .string subId, event]

/-- `RelayMessage::event`. -/
def RelayMessage.event (serializer : EventSerializer Event readFloat formatFloat)
    (subId : String) (event : Event) : String :=
  canonicalJson formatFloat (eventValue subId (serializer.toValue event))

def Verbatim (subId : String) : Prop := ∀ c ∈ subId.toList, Shown c

instance : DecidablePred Verbatim := fun subId => decidableBAll Shown subId.toList

theorem frame_toList (subId eventJson : String) : (eventFrameForSub subId eventJson).toList =
    '[' :: '"' :: (['E', 'V', 'E', 'N', 'T'] ++ '"' :: ',' :: '"' ::
      (subId.toList ++ '"' :: ',' :: (eventJson.toList ++ [']']))) := by
  simp [eventFrameForSub]

theorem event_parses (serializer : EventSerializer Event readFloat formatFloat) (subId : String)
    (event : Event) : Parses readFloat (RelayMessage.event serializer subId event)
      (eventValue subId (serializer.toValue event)) := by
  apply parses_canonicalJson
  exact ⟨trivial, trivial, serializer.printed event, trivial⟩

variable {subId eventJson : String} {value : Json Number}

theorem frame_reads (parses : Parses readFloat (eventFrameForSub subId eventJson) value) :
    ∃ chars rest items, value = .array (.string "EVENT" :: .string (String.ofList chars) :: items) ∧
      ReadsString (subId.toList ++ '"' :: ',' :: (eventJson.toList ++ [']'])) chars rest := by
  rcases parses with ⟨rest, read, -⟩
  rw [frame_toList] at read
  rcases read.array_inside (skip_cons rfl) (by simp [skip_cons (c := '"') rfl]) with
    ⟨item, items, middle, rfl, first, further⟩
  rcases first.unique (reads_shown ['E', 'V', 'E', 'N', 'T'] _ (by simp [Shown])) rfl with
    ⟨same, rfl⟩
  cases same
  rcases further.items_inside (skip_cons rfl) with ⟨second, more, after, rfl, subscription, -⟩
  rcases subscription.string_inside (skip_cons rfl) with ⟨chars, rfl, spliced⟩
  exact ⟨chars, after, more, rfl, spliced⟩

theorem frame_parses (verbatim : Verbatim subId) (parses : Parses readFloat eventJson value) :
    Parses readFloat (eventFrameForSub subId eventJson) (eventValue subId value) := by
  rcases parses with ⟨rest, read, blank⟩
  have ends : EndsToken [']'] := endsToken_of_follows (follows_bracket [])
  have close : skip (rest ++ [']']) = [']'] := skip_append_of_nil blank [']']
  have event := read.append ends
  have subscription : Reads readFloat _ _ _ :=
    reads_shown subId.toList (',' :: (eventJson.toList ++ [']'])) verbatim
  rw [String.ofList_toList] at subscription
  refine ⟨[], ?_, rfl⟩
  rw [frame_toList]
  exact .array (skip_cons rfl) (reads_shown ['E', 'V', 'E', 'N', 'T'] _ (by simp [Shown]))
    (.itemsMore (skip_cons rfl) subscription (.itemsMore (skip_cons rfl) event (.itemsEnd close)))

variable {opening after : List Char} {chars rest : List Char}

theorem readsString_until (plain : ∀ c ∈ opening, c ≠ '"' ∧ c ≠ '\\')
    (read : ReadsString (opening ++ '"' :: after) chars rest) : chars = opening := by
  induction opening generalizing chars with
  | nil => exact (read.unique .close).1
  | cons c opening ih =>
    rw [forall_mem_cons] at plain
    generalize text : (c :: opening) ++ '"' :: after = whole at read
    cases read with
    | close => exact absurd (List.cons.inj text).1 plain.1.1
    | char first further =>
      rcases readChar_shape first with ⟨rfl, -⟩ | ⟨escape, rfl, -⟩
      · rcases List.cons.inj text with ⟨rfl, rfl⟩
        rw [ih plain.2 further]
      · exact absurd (List.cons.inj text).1 plain.1.2

theorem splice_cases {escape middle tail : List Char} {c : Char}
    (quote : '"' ∈ escape → escape = ['"'] ∧ c = '"')
    (same : escape ++ middle = tail ++ '"' :: after) :
    (∃ later, tail = escape ++ later ∧ middle = later ++ '"' :: after) ∨
      tail = [] ∧ c = '"' ∧ middle = after := by
  rcases append_eq_append_iff.mp same with ⟨later, inside, outside⟩ | ⟨later, inside, outside⟩
  · exact .inl ⟨later, inside, outside⟩
  · cases later with
    | nil => exact Or.inl ⟨[], by simpa using inside.symm, by simpa using outside.symm⟩
    | cons d later =>
      rcases List.cons.inj outside with ⟨rfl, rests⟩
      rcases quote (by simp [inside]) with ⟨alone, letter⟩
      rw [alone] at inside
      cases tail with
      | nil =>
        rcases List.cons.inj inside with ⟨-, nothing⟩
        exact Or.inr ⟨rfl, letter, by simpa [← nothing] using rests.symm⟩
      | cons e tail => simp at inside

theorem readsString_spliced {spliced text : List Char}
    (plain : ∀ c ∈ opening, c ≠ '"' ∧ c ≠ '\\') (read : ReadsString text chars rest)
    (shape : text = spliced ++ '"' :: ',' :: (opening ++ '"' :: after)) :
    (chars = spliced ∧ ∀ c ∈ spliced, Shown c) ∨ chars.length < spliced.length ∨
      spliced.getLast? = some '\\' ∧ ∃ c ∈ chars.getLast?, c ≠ '\\' := by
  induction read generalizing spliced with
  | close =>
    cases spliced with
    | nil => exact .inl ⟨rfl, by simp⟩
    | cons c spliced => exact .inr (.inl (by simp))
  | char first further ih =>
    rcases readChar_shape first with ⟨same, shown⟩ | ⟨escape, same, filled, quote⟩
    · rw [same] at shape
      cases spliced with
      | nil => exact absurd (List.cons.inj shape).1 shown.1
      | cons head tail =>
        rcases List.cons.inj shape with ⟨rfl, tails⟩
        rcases ih tails with ⟨rfl, all⟩ | shorter | ⟨last, d, final, other⟩
        · exact .inl ⟨rfl, forall_mem_cons.mpr ⟨shown, all⟩⟩
        · exact .inr (.inl (Nat.succ_lt_succ shorter))
        · refine .inr (.inr ⟨by simp [getLast?_cons, last], d, ?_, other⟩)
          simp [getLast?_cons, mem_def.mp final]
    · rw [same] at shape
      cases spliced with
      | nil => cases shape
      | cons head tail =>
        rcases List.cons.inj shape with ⟨rfl, tails⟩
        rcases splice_cases quote tails with ⟨later, rfl, middle⟩ | ⟨rfl, rfl, middle⟩
        · -- The escape is within the spliced characters, which are two or more for one.
          have escaped := length_pos_iff.mpr filled
          rcases ih middle with ⟨rfl, -⟩ | shorter | ⟨last, d, final, other⟩
          · exact .inr (.inl (by simp; omega))
          · exact .inr (.inl (by simp; omega))
          · refine .inr (.inr ⟨by simp [getLast?_cons, last], d, ?_, other⟩)
            simp [getLast?_cons, mem_def.mp final]
        · -- The last spliced character is a backslash, and it escapes the closing quote.
          have comma : ∀ c ∈ ',' :: opening, c ≠ '"' ∧ c ≠ '\\' :=
            forall_mem_cons.mpr ⟨by decide, plain⟩
          rw [middle] at further
          rw [← cons_append] at further
          rcases readsString_until comma further with rfl
          refine .inr (.inr ⟨rfl, (',' :: opening).getLast (by simp), ?_, ?_⟩)
          · rw [getLast?_cons_cons]
            exact getLast?_eq_some_getLast _
          · exact (comma _ (getLast_mem _)).2

def Agree (serializer : EventSerializer Event readFloat formatFloat) (subId : String)
    (event : Event) : Prop :=
  ∃ value, Parses readFloat (eventFrameForSub subId (serializer.toString event)) value ∧
    Parses readFloat (RelayMessage.event serializer subId event) value

theorem verbatim_of_agree {serializer : EventSerializer Event readFloat formatFloat}
    {event : Event} (agree : Agree serializer subId event) : Verbatim subId := by
  rcases agree with ⟨value, live, historical⟩
  rcases frame_reads live with ⟨chars, rest, items, rfl, spliced⟩
  have same := historical.unique (event_parses serializer subId event)
  simp only [eventValue, Json.array.injEq, List.cons.injEq, Json.string.injEq] at same
  have whole : chars = subId.toList := by
    rw [← same.2.1, String.toList_ofList]
  rcases serializer.parses event with ⟨rest', read, -⟩
  rcases serializer.object event with ⟨entry, entries, object⟩
  rw [object] at read
  rcases read.object_opening with ⟨opening, after, text, blank⟩
  have plain : ∀ c ∈ opening, c ≠ '"' ∧ c ≠ '\\' := by
    intro c member
    constructor
    · rintro rfl
      exact absurd (blank '"' member) (by decide)
    · rintro rfl
      exact absurd (blank '\\' member) (by decide)
  rw [text, append_assoc, cons_append] at spliced
  rcases readsString_spliced plain spliced rfl with ⟨-, shown⟩ | shorter | ⟨last, d, final, other⟩
  · exact shown
  · rw [whole] at shorter
    exact absurd shorter (lt_irrefl _)
  · rw [whole, last] at final
    exact absurd (Option.some.inj final).symm other

/-- Exactly for ids without quote, backslash or control character. -/
theorem frames_agree_iff (serializer : EventSerializer Event readFloat formatFloat)
    (subId : String) (event : Event) : Agree serializer subId event ↔ Verbatim subId := by
  constructor
  · exact verbatim_of_agree
  · intro verbatim
    exact ⟨_, frame_parses verbatim (serializer.parses event), event_parses serializer subId event⟩

end frames

section nostr

variable (readFloat : List Char → Option F64) (formatFloat : F64 → String)

def tagsValue (tags : List Nostr.Tag) : Json Number :=
  .array (tags.map fun tag => .array (tag.buf.map .string))

/-- Timestamps have 64 bits. -/
def eventFields (event : Nostr.Event) : List (String × Json Number) :=
  [("id", .string event.id.toHex), ("pubkey", .string event.pubkey.toHex),
    ("created_at", .number (.posInt (event.createdAt % 2 ^ 64) (Nat.mod_lt _ (by decide)))),
    ("kind", .number (.posInt event.kind.toNat (by have := event.kind.toNat_lt; omega))),
    ("tags", tagsValue event.tags), ("content", .string event.content),
    ("sig", .string (String.ofList (Nostr.hexEncode event.sig)))]

theorem tagsValue_printed (tags : List Nostr.Tag) :
    (tagsValue tags).Each (ReadsNumber readFloat formatFloat) Json.KeysSorted := by
  apply Json.eachItem_iff.mpr
  intro item member
  rcases mem_map.mp member with ⟨tag, -, rfl⟩
  apply Json.eachItem_iff.mpr
  intro text inside
  rcases mem_map.mp inside with ⟨part, -, rfl⟩
  trivial

theorem eventFields_printed (event : Nostr.Event) : ∀ entry ∈ eventFields event,
    entry.2.Each (ReadsNumber readFloat formatFloat) Json.KeysSorted := by
  simp only [eventFields, forall_mem_cons]
  exact ⟨trivial, trivial, readsNumber_posInt _ _, readsNumber_posInt _ _,
    tagsValue_printed readFloat formatFloat event.tags, trivial, trivial, by simp⟩

def nostrSerializer : EventSerializer Nostr.Event readFloat formatFloat where
  toString event := String.ofList
    ('\x7b' :: (separated ',' (entryChars formatFloat) (eventFields event) ++ ['\x7d']))
  toValue event := objectOf (eventFields event)
  parses event := by
    refine ⟨[], ?_, rfl⟩
    rw [String.toList_ofList]
    apply reads_object
    intro entry member
    exact reads_canonicalJson entry.2 (eventFields_printed readFloat formatFloat event entry member)
  printed event := objectOf_each (eventFields_printed readFloat formatFloat event)
  object event := objectOf_filled _ _

end nostr

def sampleEvent : Nostr.Event where
  id := .fill 1
  pubkey := .fill 2
  createdAt := 1700000000
  kind := 1
  tags := [⟨["p", "target"], by decide⟩]
  content := "hello"
  sig := replicate 64 3

theorem frames_agree_iff_plain :
    Agree (nostrSerializer (fun _ => none) (fun _ => "")) "sub-id" sampleEvent :=
  (frames_agree_iff _ _ _).mpr (by decide)

def quotingRequest : String := "[\"REQ\",\"a\\\"b\"]"

def quotingId : String := "a\"b"

theorem quotingRequest_parses (readFloat : List Char → Option F64) :
    Parses readFloat quotingRequest (.array [.string "REQ", .string quotingId]) := by
  have name : Reads readFloat _ _ _ :=
    reads_shown ['R', 'E', 'Q'] (',' :: ((stringText quotingId).toList ++ [']'])) (by simp [Shown])
  have subscription : Reads readFloat _ _ _ := reads_stringText quotingId [']']
  refine ⟨[], ?_, rfl⟩
  exact .array (skip_cons rfl) name (.itemsMore (skip_cons rfl) subscription
    (.itemsEnd (skip_cons rfl)))

/-- A subscription id with a quote is accepted. -/
theorem not_framesAgree : ¬ ∀ (readFloat : List Char → Option F64) (formatFloat : F64 → String)
    (serializer : EventSerializer Nostr.Event readFloat formatFloat)
    (eventFromValue filterFromValue : Json Number → Except String (Json Number))
    (raw subId : String) (filters : List (Json Number)) (event : Nostr.Event),
    ClientMessage.Accepts eventFromValue filterFromValue readFloat raw (.req subId filters) →
      Agree serializer subId event := by
  intro agree
  have accepted : ClientMessage.Accepts .ok .ok (fun _ => none) quotingRequest
      (.req quotingId ([] : List (Json Number)) : ClientMessage (Json Number) (Json Number)) :=
    ⟨_, quotingRequest_parses _, rfl⟩
  have claimed := agree (fun _ => none) (fun _ => "") (nostrSerializer _ _) .ok .ok quotingRequest
    quotingId [] sampleEvent accepted
  exact absurd (verbatim_of_agree claimed) (by decide)

end Buzz.Protocol
