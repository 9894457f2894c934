import Buzz.Audit.Entry
import Buzz.JsonReader
import Buzz.Library.Results

/-! The strict reading of a JSON text: the visitor refuses the second entry of a name. -/

namespace Buzz.Engram

open Nostr Buzz.JsonGrammar Buzz.JsonReader List
open Buzz.Audit (utf8)
open Library.Results

inductive Visits
  | unit
  | bool (value : Bool)
  | number (value : Number)
  | str (value : String)
  | seq (elements : List Visits) (failure : Option String)
  | map (entries : List (String × Visits)) (failure : Option String)
  | failure (message : String)

def ended {α : Type} (failure : Option String) (value : α) : Except String α :=
  match failure with
  | some message => .error message
  | none => .ok value

mutual
def strictValue : Visits → Except String (Json Number)
  | .unit => .ok .null
  | .bool value => .ok (.bool value)
  | .number value => .ok (.number value)
  | .str value => .ok (.string value)
  | .seq elements failure => do
    let out ← strictSeq elements
    ended failure (.array out)
  | .map entries failure => do
    let out ← strictMap [] entries
    ended failure (.object (Json.sortByKey (· ≤ ·) out))
  | .failure message => .error message

def strictSeq : List Visits → Except String (List (Json Number))
  | [] => .ok []
  | element :: more => do
    let value ← strictValue element
    let out ← strictSeq more
    .ok (value :: out)

def strictMap (seen : List String) :
    List (String × Visits) → Except String (List (String × Json Number))
  | [] => .ok []
  | (key, visits) :: more =>
    if key ∈ seen then .error ("duplicate object member name: " ++ key)
    else do
      let value ← strictValue visits
      let out ← strictMap (key :: seen) more
      .ok ((key, value) :: out)
end

section deserializer

/-- `serde_json::Deserializer` over the bytes of a text. -/
structure Deserializer where
  visits : Bytes → Visits
  /-- What `end` reports after a value. -/
  trailing : Bytes → Option String
  /-- The text of an error: its message and the place in the input. -/
  display : Bytes → String → String

mutual
/-- `depth` more arrays and objects may be opened. -/
def visitsOf (readFloat : List Char → Option F64) (depth : ℕ) : Written → Visits
  | .null => .unit
  | .bool value => .bool value
  | .number token =>
    match numberOf readFloat token with
    | some value => .number value
    | none => .failure "number out of range"
  | .string value => .str value
  | .array items =>
    if depth = 0 then .failure "recursion limit exceeded"
    else .seq (visitsOfItems readFloat (depth - 1) items) none
  | .object entries =>
    if depth = 0 then .failure "recursion limit exceeded"
    else .map (visitsOfEntries readFloat (depth - 1) entries) none

def visitsOfItems (readFloat : List Char → Option F64) (depth : ℕ) : List Written → List Visits
  | [] => []
  | item :: items => visitsOf readFloat depth item :: visitsOfItems readFloat depth items

def visitsOfEntries (readFloat : List Char → Option F64) (depth : ℕ) :
    List (String × Written) → List (String × Visits)
  | [] => []
  | (key, value) :: entries =>
    (key, visitsOf readFloat depth value) :: visitsOfEntries readFloat depth entries
end

/-- Arrays and objects inside each other that `serde_json` reads. -/
def maxDepth : ℕ := 127

/-- It shows what the grammar reads, and nothing is left over. -/
structure Deserializer.Rfc8259 (readFloat : List Char → Option F64)
    (deserializer : Deserializer) : Prop where
  visits : ∀ text value, document text = some value →
    deserializer.visits (utf8 text) = visitsOf readFloat maxDepth value
  trailing : ∀ text value, document text = some value →
    deserializer.trailing (utf8 text) = none

variable {readFloat : List Char → Option F64}

abbrev UniqueNames (value : Written) : Prop := value.Each (fun _ => True) List.Nodup

mutual
theorem unique_of_strictValue {depth : ℕ} : ∀ (value : Written) {json : Json Number},
    strictValue (visitsOf readFloat depth value) = .ok json → UniqueNames value
  | .null, _, _ => trivial
  | .bool _, _, _ => trivial
  | .number _, _, _ => trivial
  | .string _, _, _ => trivial
  | .array items, json, accepted => by
    rw [visitsOf] at accepted
    split_ifs at accepted with deep
    · cases accepted
    · rcases bind_ok accepted with ⟨out, read, -⟩
      exact unique_of_strictSeq items read
  | .object entries, json, accepted => by
    rw [visitsOf] at accepted
    split_ifs at accepted with deep
    · cases accepted
    · rcases bind_ok accepted with ⟨out, read, -⟩
      rcases unique_of_strictMap entries read with ⟨names, -, inside⟩
      exact ⟨names, inside⟩

theorem unique_of_strictSeq {depth : ℕ} : ∀ (items : List Written) {out : List (Json Number)},
    strictSeq (visitsOfItems readFloat depth items) = .ok out →
      Json.EachItem (fun _ => True) List.Nodup items
  | [], _, _ => trivial
  | item :: items, out, accepted => by
    rcases bind_ok accepted with ⟨value, first, rest⟩
    rcases bind_ok rest with ⟨more, further, -⟩
    exact ⟨unique_of_strictValue item first, unique_of_strictSeq items further⟩

theorem unique_of_strictMap {depth : ℕ} {seen : List String} :
    ∀ (entries : List (String × Written)) {out : List (String × Json Number)},
      strictMap seen (visitsOfEntries readFloat depth entries) = .ok out →
        (entries.map Prod.fst).Nodup ∧ (∀ name ∈ entries.map Prod.fst, name ∉ seen) ∧
          Json.EachEntry (fun _ => True) List.Nodup entries
  | [], _, _ => ⟨nodup_nil, by simp, trivial⟩
  | (key, value) :: entries, out, accepted => by
    rw [visitsOfEntries, strictMap] at accepted
    split_ifs at accepted with again
    rcases bind_ok accepted with ⟨json, first, rest⟩
    rcases bind_ok rest with ⟨more, further, -⟩
    rcases unique_of_strictMap entries further with ⟨names, fresh, inside⟩
    have other : key ∉ entries.map Prod.fst := by
      intro member
      exact fresh key member mem_cons_self
    refine ⟨nodup_cons.mpr ⟨other, names⟩, ?_, ?_⟩
    · intro name member
      rcases mem_cons.mp member with rfl | later
      · exact again
      · exact fun found => fresh name later (mem_cons_of_mem _ found)
    · exact ⟨unique_of_strictValue value first, inside⟩
end

end deserializer

end Buzz.Engram
