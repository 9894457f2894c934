import Buzz.Audit.Preimage
import Buzz.Git.Manifest
import Buzz.JsonReader

/-! The bytes of a manifest stand for its published state. -/

namespace Buzz.Git

open Nostr List
open Buzz.Audit (utf8 utf8_injective fromUTF8_utf8)
open Buzz.JsonGrammar Buzz.JsonReader

def Manifest.written (self : Manifest) : Written :=
  .object [("version", .number self.version.repr.toList), ("head", .string self.head),
    ("refs", .object (self.refs.entries.map fun entry => (entry.1, .string entry.2))),
    ("packs", .array (self.packs.map .string)), ("parent", self.parent.elim .null .string)]

def asText : Written → Option String
  | .string text => some text
  | _ => none

def asU32 : Written → Option ℕ
  | .number token =>
    match numberOf (fun _ => none) token with
    | some (.posInt value _) => if value < 2 ^ 32 then some value else none
    | _ => none
  | _ => none

def insertAll (refs : Refs) : List (String × Written) → Option Refs
  | [] => some refs
  | (name, value) :: entries => do
    let oid ← asText value
    insertAll (refs.insert name oid) entries

def asRefs : Written → Option Refs
  | .object entries => insertAll .empty entries
  | _ => none

def asTexts : Written → Option (List String)
  | .array items => items.mapM asText
  | _ => none

def asParent : Option Written → Option (Option String)
  | none => some none
  | some .null => some none
  | some value => (asText value).map some

def fieldOf (entries : List (String × Written)) (name : String) : Option (Option Written) :=
  match entries.filter fun entry => entry.1 == name with
  | [] => some none
  | [(_, value)] => some (some value)
  | _ => none

/-- What `derive(Deserialize)` makes of an object; other members are ignored. -/
def manifestOf (entries : List (String × Written)) : Option Manifest := do
  let version ← (← fieldOf entries "version").bind asU32
  let head ← (← fieldOf entries "head").bind asText
  let refs ← (← fieldOf entries "refs").bind asRefs
  let packs ← (← fieldOf entries "packs").bind asTexts
  let parent ← asParent (← fieldOf entries "parent")
  some ⟨version, head, refs, packs, parent⟩

/-- The derived code over an encoder without blanks and a reader of RFC 8259. -/
structure Serde.Derived (serde : Serde) : Prop where
  writes : ∀ manifest, serde.toVec manifest = utf8 (String.ofList (shown manifest.written))
  reads : ∀ text entries, document text = some (.object entries) →
    serde.fromSlice (utf8 text) = manifestOf entries

theorem sortDedup_eq_iff {first second : List String} :
    sortDedup first = sortDedup second ↔ ∀ pack, pack ∈ first ↔ pack ∈ second := by
  constructor
  · intro same pack
    rw [← mem_sortDedup, same, mem_sortDedup]
  · intro same
    have sorted (packs : List String) : (sortDedup packs).Pairwise (· ≤ ·) :=
      (pairwise_insertionSort (· ≤ ·) packs).sublist (destutter_sublist _ _)
    have nodup (packs : List String) : (sortDedup packs).Nodup := by
      rw [sortDedup_eq_dedup]
      exact nodup_dedup _
    have perm : (sortDedup first).Perm (sortDedup second) := by
      rw [perm_ext_iff_of_nodup (nodup first) (nodup second)]
      intro pack
      rw [mem_sortDedup, mem_sortDedup, same]
    exact perm.eq_of_pairwise (fun _ _ _ _ => le_antisymm) (sorted first) (sorted second)

variable {serde : Serde}

section bytes

theorem token_repr (value : ℕ) : Token value.repr.toList := by
  have digits := repr_chars value
  have whole : value.repr.toList.takeWhile Char.isDigit = value.repr.toList :=
    takeWhile_eq_self_iff.mpr digits
  have rest : value.repr.toList.dropWhile Char.isDigit = [] := dropWhile_eq_nil_iff.mpr digits
  have unsigned : value.repr.toList.head? ≠ some '-' := by
    intro sign
    have digit := digits '-' (mem_of_mem_head? sign)
    cases digit
  constructor
  · simp [Nat.toList_repr, Nat.toDigits_ne_nil]
  · intro c member
    simp [tokenChar, numberChar, digits c member]
  · simp only [numberToken, unsigned, whole, rest, integerPart_repr, fractionPart, if_false,
      Bool.and_self]

theorem printable_written (self : Manifest) : Printable self.written := by
  refine ⟨trivial, token_repr _, trivial, ⟨trivial, ?_⟩, ?_, ?_, trivial⟩
  · apply Json.eachEntry_iff.mpr
    intro entry member
    rcases mem_map.mp member with ⟨ref, -, rfl⟩
    trivial
  · apply Json.eachItem_iff.mpr
    intro item member
    rcases mem_map.mp member with ⟨pack, -, rfl⟩
    trivial
  · cases self.parent <;> trivial

variable {first second : Manifest}

theorem written_injective (same : first.written = second.written) :
    first = second := by
  simp only [Manifest.written, Json.object.injEq, List.cons.injEq, Prod.mk.injEq, true_and,
    Json.number.injEq, Json.string.injEq, Json.array.injEq, and_true] at same
  rcases same with ⟨version, head, refs, packs, parent⟩
  have refs := map_injective_iff.mpr (fun _ _ same => by simpa [Prod.ext_iff] using same) refs
  have packs := map_injective_iff.mpr (fun _ _ same => by simpa using same) packs
  have version := repr_injective version
  have parent : first.parent = second.parent := by
    cases isFirst : first.parent <;> cases isSecond : second.parent <;> simp_all
  cases first with
  | mk _ _ refs' _ _ =>
    cases second with
    | mk _ _ others _ _ =>
      cases refs'
      cases others
      simp_all

theorem insertEntry_last {name oid : String} {entries : List (String × String)}
    (below : ∀ entry ∈ entries, entry.1 < name) :
    insertEntry name oid entries = entries ++ [(name, oid)] := by
  induction entries with
  | nil => rfl
  | cons head rest ih =>
    rw [forall_mem_cons] at below
    simp [insertEntry, not_lt_of_gt below.1, ne_of_gt below.1, ih below.2]

theorem insertAll_written (entries : List (String × String)) (refs : Refs)
    (sorted : (refs.entries ++ entries).Pairwise fun first second => first.1 < second.1) :
    insertAll refs (entries.map fun entry => (entry.1, .string entry.2)) =
      some ⟨refs.entries ++ entries, sorted⟩ := by
  induction entries generalizing refs with
  | nil => simp [insertAll]
  | cons entry entries ih =>
    have below : ∀ other ∈ refs.entries, other.1 < entry.1 := by
      intro other member
      exact (pairwise_append.mp sorted).2.2 other member entry mem_cons_self
    have next : (refs.insert entry.1 entry.2).entries = refs.entries ++ [entry] :=
      insertEntry_last below
    have rest := ih (refs.insert entry.1 entry.2) (by rw [next, append_assoc]; exact sorted)
    simp only [next, append_assoc] at rest
    simpa [insertAll, asText] using rest

theorem mapM_asText (texts : List String) : (texts.map Json.string).mapM asText = some texts := by
  induction texts with
  | nil => rfl
  | cons text texts ih => simp [mapM_cons, asText, ih]

theorem manifestOf_written (self : Manifest) (fits : self.version < 2 ^ 32) :
    ∃ entries, self.written = .object entries ∧ manifestOf entries = some self := by
  refine ⟨_, rfl, ?_⟩
  have packs := mapM_asText self.packs
  have refs : insertAll .empty (self.refs.entries.map fun entry => (entry.1, .string entry.2)) =
      some self.refs := insertAll_written self.refs.entries .empty self.refs.sorted
  have parent : asParent (some (self.parent.elim .null .string)) = some self.parent := by
    cases self.parent <;> rfl
  have version : asU32 (.number self.version.repr.toList) = some self.version := by
    have small : self.version < 2 ^ 64 := by omega
    have digits : numberOf (fun _ => none) self.version.repr.toList =
        some (.posInt self.version small) :=
      numberOf_digits (repr_chars _) (integerPart_repr _) (by simp [Nat.toList_repr]) small
    simp only [asU32, digits, fits, if_true]
  simp [manifestOf, fieldOf, version, asText, asRefs, asTexts, packs, refs, parent,
    -Nat.toList_repr]

theorem fromSlice_canonicalBytes (derived : serde.Derived) (self : Manifest)
    (fits : self.version < 2 ^ 32) : serde.fromSlice (self.canonicalBytes serde) =
      some { self with packs := sortDedup self.packs } := by
  rcases manifestOf_written { self with packs := sortDedup self.packs } fits with
    ⟨entries, shape, read⟩
  have written := document_shown (printable_written { self with packs := sortDedup self.packs })
  rw [Manifest.canonicalBytes, derived.writes]
  rw [shape] at written ⊢
  rw [derived.reads _ entries written, read]

theorem canonicalBytes_injective (derived : serde.Derived)
    (same : first.canonicalBytes serde = second.canonicalBytes serde) :
    { first with packs := sortDedup first.packs } =
      { second with packs := sortDedup second.packs } := by
  rw [Manifest.canonicalBytes, Manifest.canonicalBytes, derived.writes, derived.writes] at same
  have read := document_shown (printable_written { first with packs := sortDedup first.packs })
  rw [utf8_injective same, document_shown (printable_written _)] at read
  exact written_injective (Option.some.inj read).symm

end bytes

structure Manifest.Same (first second : Manifest) : Prop where
  version : first.version = second.version
  head : first.head = second.head
  refs : first.refs = second.refs
  packs : ∀ pack, pack ∈ first.packs ↔ pack ∈ second.packs
  parent : first.parent = second.parent

theorem canonicalBytes_eq_iff (derived : serde.Derived) {first second : Manifest} :
    first.canonicalBytes serde = second.canonicalBytes serde ↔ first.Same second := by
  constructor
  · intro same
    have equal := canonicalBytes_injective derived same
    rw [Manifest.mk.injEq] at equal
    rcases equal with ⟨version, head, refs, packs, parent⟩
    exact ⟨version, head, refs, sortDedup_eq_iff.mp packs, parent⟩
  · intro same
    rw [Manifest.canonicalBytes, Manifest.canonicalBytes, same.version, same.head, same.refs,
      same.parent, sortDedup_eq_iff.mpr same.packs]

theorem canonical_bytes (derived : serde.Derived) :
    (∀ manifest : Manifest, manifest.validate = .ok () → manifest.version = manifestVersion →
      Manifest.fromBytes serde (manifest.canonicalBytes serde) =
        .ok { manifest with packs := sortDedup manifest.packs }) ∧
    (∀ first second : Manifest, first.validate = .ok () → second.validate = .ok () →
      (first.canonicalBytes serde = second.canonicalBytes serde ↔ first.Same second)) ∧
    ∀ digest : Bytes → Bytes, Function.Injective digest → ∀ first second : Manifest,
      digest (first.canonicalBytes serde) = digest (second.canonicalBytes serde) →
        first.Same second := by
  refine ⟨?_, fun _ _ _ _ => canonicalBytes_eq_iff derived, ?_⟩
  · intro manifest _ version
    rw [Manifest.fromBytes, fromSlice_canonicalBytes derived manifest (by rw [version]; decide)]
    simp [version]
  · intro digest injective first second same
    exact (canonicalBytes_eq_iff derived).mp (injective same)

/-- The derived code where the text is an object, and no value where it is not. -/
def derivedSerde : Serde where
  toVec manifest := utf8 (String.ofList (shown manifest.written))
  fromSlice bytes :=
    match (String.fromUTF8? bytes.toByteArray).bind document with
    | some (.object entries) => manifestOf entries
    | _ => none

theorem derivedSerde_derived : derivedSerde.Derived where
  writes := by
    intro manifest
    rw [derivedSerde]
  reads := by
    intro text entries written
    simp only [derivedSerde, fromUTF8_utf8, Option.bind_some, written]

def emptyManifest (version : ℕ) : Manifest :=
  ⟨version, "refs/heads/main", .empty, [], none⟩

theorem validate_emptyManifest (version : ℕ) : (emptyManifest version).validate = .ok () := by
  have head : isSafeRefname "refs/heads/main" := by decide +kernel
  rw [Manifest.validate, emptyManifest, head]
  rfl

theorem canonical_bytes_empty :
    Manifest.fromBytes derivedSerde ((emptyManifest 1).canonicalBytes derivedSerde) =
        .ok { emptyManifest 1 with packs := sortDedup [] } ∧
      (emptyManifest 1).canonicalBytes derivedSerde ≠
        (emptyManifest 2).canonicalBytes derivedSerde := by
  have holds := canonical_bytes derivedSerde_derived
  constructor
  · exact holds.1 (emptyManifest 1) (validate_emptyManifest 1) rfl
  · intro same
    have version := (holds.2.1 _ _ (validate_emptyManifest 1) (validate_emptyManifest 2)).mp same
    cases version.version

/-- The version is looked at when a manifest is read only. -/
theorem not_readsValid : ¬ ∀ serde : Serde, serde.Derived → ∀ manifest : Manifest,
    manifest.validate = .ok () → Manifest.fromBytes serde (manifest.canonicalBytes serde) =
      .ok { manifest with packs := sortDedup manifest.packs } := by
  intro holds
  have read := holds derivedSerde derivedSerde_derived (emptyManifest 2) (validate_emptyManifest 2)
  rw [Manifest.fromBytes,
    fromSlice_canonicalBytes derivedSerde_derived _ (by simp [emptyManifest])] at read
  simp [emptyManifest, manifestVersion] at read

end Buzz.Git
