import Mathlib.Data.List.Sort
import Mathlib.Data.String.Basic
import Mathlib.Tactic.Positivity

/-! JSON values in memory and in a JSONB column. -/

namespace Buzz

open List

inductive Json (ν : Type)
  | null
  | bool (value : Bool)
  | number (value : ν)
  | string (value : String)
  | array (items : List (Json ν))
  | object (entries : List (String × Json ν))

namespace Json

variable {ν μ : Type}

abbrev sortByKey {α : Type} (keyLe : String → String → Prop) [DecidableRel keyLe]
    (entries : List (String × α)) : List (String × α) :=
  entries.insertionSort fun first second => keyLe first.1 second.1

mutual
def convert (number : ν → μ) (keyLe : String → String → Prop) [DecidableRel keyLe] :
    Json ν → Json μ
  | .null => .null
  | .bool value => .bool value
  | .number value => .number (number value)
  | .string value => .string value
  | .array items => .array (convertItems number keyLe items)
  | .object entries => .object (sortByKey keyLe (convertEntries number keyLe entries))

def convertItems (number : ν → μ) (keyLe : String → String → Prop) [DecidableRel keyLe] :
    List (Json ν) → List (Json μ)
  | [] => []
  | item :: items => item.convert number keyLe :: convertItems number keyLe items

def convertEntries (number : ν → μ) (keyLe : String → String → Prop) [DecidableRel keyLe] :
    List (String × Json ν) → List (String × Json μ)
  | [] => []
  | (key, value) :: entries =>
    (key, value.convert number keyLe) :: convertEntries number keyLe entries
end

mutual
/-- Every number satisfies `numbers` and the key list of every object `keys`. -/
def Each (numbers : ν → Prop) (keys : List String → Prop) : Json ν → Prop
  | .number value => numbers value
  | .array items => EachItem numbers keys items
  | .object entries => keys (entries.map Prod.fst) ∧ EachEntry numbers keys entries
  | _ => True

def EachItem (numbers : ν → Prop) (keys : List String → Prop) : List (Json ν) → Prop
  | [] => True
  | item :: items => item.Each numbers keys ∧ EachItem numbers keys items

def EachEntry (numbers : ν → Prop) (keys : List String → Prop) : List (String × Json ν) → Prop
  | [] => True
  | (_, value) :: entries => value.Each numbers keys ∧ EachEntry numbers keys entries
end

/-- The keys of a `BTreeMap`: strictly increasing in byte order. -/
abbrev KeysSorted (keys : List String) : Prop := keys.Pairwise (· < ·)

variable {numbers : ν → Prop} {keys : List String → Prop}

theorem eachEntry_iff {entries : List (String × Json ν)} :
    EachEntry numbers keys entries ↔ ∀ entry ∈ entries, entry.2.Each numbers keys := by
  induction entries with
  | nil => simp [EachEntry]
  | cons head tail ih => simp [EachEntry, ih]

theorem eachItem_iff {items : List (Json ν)} :
    EachItem numbers keys items ↔ ∀ item ∈ items, item.Each numbers keys := by
  induction items with
  | nil => simp [EachItem]
  | cons head tail ih => simp [EachItem, ih]

mutual
variable {numbers : ν → Prop} {keys : List String → Prop}

theorem each_of_both :
    ∀ json : Json ν, json.Each numbers (fun _ => True) → json.Each (fun _ => True) keys →
      json.Each numbers keys
  | .null, _, _ => trivial
  | .bool _, _, _ => trivial
  | .string _, _, _ => trivial
  | .number _, kept, _ => kept
  | .array items, kept, shaped => eachItem_of_both items kept shaped
  | .object entries, kept, shaped => ⟨shaped.1, eachEntry_of_both entries kept.2 shaped.2⟩

theorem eachItem_of_both : ∀ items : List (Json ν), EachItem numbers (fun _ => True) items →
      EachItem (fun _ => True) keys items → EachItem numbers keys items
  | [], _, _ => trivial
  | item :: items, kept, shaped =>
    ⟨each_of_both item kept.1 shaped.1, eachItem_of_both items kept.2 shaped.2⟩

theorem eachEntry_of_both :
    ∀ entries : List (String × Json ν), EachEntry numbers (fun _ => True) entries →
      EachEntry (fun _ => True) keys entries → EachEntry numbers keys entries
  | [], _, _ => trivial
  | (_, value) :: entries, kept, shaped =>
    ⟨each_of_both value kept.1 shaped.1, eachEntry_of_both entries kept.2 shaped.2⟩
end

theorem convertEntries_keys (number : ν → μ) (keyLe : String → String → Prop)
    [DecidableRel keyLe] (entries : List (String × Json ν)) :
    (convertEntries number keyLe entries).map Prod.fst = entries.map Prod.fst := by
  induction entries with
  | nil => rfl
  | cons head tail ih => simp [convertEntries, ih]

theorem convertEntries_eq_map (number : ν → μ) (keyLe : String → String → Prop)
    [DecidableRel keyLe] (entries : List (String × Json ν)) :
    convertEntries number keyLe entries =
      entries.map fun entry => (entry.1, entry.2.convert number keyLe) := by
  induction entries with
  | nil => rfl
  | cons head tail ih => simp [convertEntries, ih]

end Json

/-- The shortest decimal `± digits * 10 ^ exponent`. -/
structure F64 where
  negative : Bool
  digits : ℕ
  exponent : ℤ
  short : digits < 10 ^ 17
  shortest : digits % 10 ≠ 0 ∨ digits = 0 ∧ exponent = 0
  deriving DecidableEq

def F64.zero : F64 := ⟨false, 0, 0, by decide, by decide⟩

/-- `serde_json::Number`: `negInt` holds the absolute value. -/
inductive Number
  | posInt (value : ℕ) (fits : value < 2 ^ 64)
  | negInt (value : ℕ) (fits : 0 < value ∧ value ≤ 2 ^ 63)
  | float (value : F64)
  deriving DecidableEq

/-- `± coefficient / 10 ^ scale`; there is no negative zero. -/
structure Numeric where
  negative : Bool
  coefficient : ℕ
  scale : ℕ
  deriving DecidableEq

namespace F64

def decimalLength (n : ℕ) : ℕ := (Nat.toDigits 10 n).length

def point (self : F64) : ℤ := decimalLength self.digits + self.exponent

/-- Printed without an exponent, with `.0` after an integral value. -/
def fixedNotation (self : F64) : Bool := -5 < self.point && self.point ≤ 16

/-- The scale is the number of fraction digits written. -/
def toNumeric (self : F64) : Numeric :=
  let scale := if self.fixedNotation && decide (0 ≤ self.exponent) then 1
    else (-self.exponent).toNat
  ⟨self.negative && decide (self.digits ≠ 0),
    self.digits * 10 ^ (self.exponent + scale).toNat, scale⟩

end F64

namespace Number

def toNumeric : Number → Numeric
  | .posInt value _ => ⟨false, value, 0⟩
  | .negInt value _ => ⟨true, value, 0⟩
  | .float value => value.toNumeric

end Number

namespace Numeric

def read (readFloat : Numeric → F64) (self : Numeric) : Number :=
  if self.scale = 0 then
    if self.negative then
      if fits : 0 < self.coefficient ∧ self.coefficient ≤ 2 ^ 63 then
        .negInt self.coefficient fits
      else .float (readFloat self)
    else if fits : self.coefficient < 2 ^ 64 then .posInt self.coefficient fits
      else .float (readFloat self)
  else .float (readFloat self)

end Numeric

def F64.readsAsInteger (self : F64) : Bool :=
  !self.fixedNotation && 0 ≤ self.exponent &&
    (if self.negative then decide (self.digits * 10 ^ self.exponent.toNat ≤ 2 ^ 63)
      else decide (self.digits * 10 ^ self.exponent.toNat < 2 ^ 64))

def Number.Kept (readFloat : Numeric → F64) : Number → Prop
  | .float value => value.readsAsInteger = false ∧ readFloat value.toNumeric = value
  | _ => True

theorem F64.digits_pos_of_exponent (self : F64) (outside : self.fixedNotation = false) :
    self.digits ≠ 0 := by
  intro zero
  have exponentZero : self.exponent = 0 := by
    rcases self.shortest with odd | zeroForm
    · omega
    · exact zeroForm.2
  have pointOne : self.point = 1 := by
    unfold F64.point
    rw [zero, exponentZero]
    decide
  simp [F64.fixedNotation, pointOne] at outside

theorem F64.toNumeric_fractional (self : F64)
    (fraction : self.fixedNotation ∨ self.exponent < 0) : self.toNumeric.scale ≠ 0 := by
  unfold F64.toNumeric
  by_cases integral : 0 ≤ self.exponent
  · have fixed : self.fixedNotation := by
      rcases fraction with fixed | below
      · exact fixed
      · omega
    simp [fixed, integral]
  · simp only [integral, decide_false, Bool.and_false]
    change (-self.exponent).toNat ≠ 0
    omega

theorem F64.toNumeric_integral (self : F64) (outside : self.fixedNotation = false)
    (integral : 0 ≤ self.exponent) :
    self.toNumeric = ⟨self.negative, self.digits * 10 ^ self.exponent.toNat, 0⟩ := by
  have digits := self.digits_pos_of_exponent outside
  have noFraction : (-self.exponent).toNat = 0 := by omega
  simp [F64.toNumeric, outside, digits, noFraction]

theorem F64.read_toNumeric_iff (readFloat : Numeric → F64) (self : F64) :
    self.toNumeric.read readFloat = .float self ↔
      self.readsAsInteger = false ∧ readFloat self.toNumeric = self := by
  by_cases fraction : self.fixedNotation ∨ self.exponent < 0
  · have scale := self.toNumeric_fractional fraction
    have notInteger : self.readsAsInteger = false := by
      rcases fraction with fixed | below
      · simp [F64.readsAsInteger, fixed]
      · simp [F64.readsAsInteger, below]
    simp [Numeric.read, scale, notInteger]
  · rw [not_or, Bool.not_eq_true, not_lt] at fraction
    have positive : 0 < self.digits * 10 ^ self.exponent.toNat := by
      have digits := self.digits_pos_of_exponent fraction.1
      positivity
    have shape := self.toNumeric_integral fraction.1 fraction.2
    cases sign : self.negative with
    | true =>
      by_cases fits : self.digits * 10 ^ self.exponent.toNat ≤ 2 ^ 63
      · simp only [Numeric.read, shape, sign, positive, fits, F64.readsAsInteger]
        simp [fraction]
      · simp only [Numeric.read, shape, sign, positive, fits, F64.readsAsInteger]
        simp
    | false =>
      by_cases fits : self.digits * 10 ^ self.exponent.toNat < 2 ^ 64
      · simp only [Numeric.read, shape, sign, fits, F64.readsAsInteger]
        simp [fraction]
      · simp only [Numeric.read, shape, sign, fits, F64.readsAsInteger]
        simp

theorem Number.read_toNumeric_iff (readFloat : Numeric → F64) (number : Number) :
    number.toNumeric.read readFloat = number ↔ number.Kept readFloat := by
  cases number with
  | posInt value fits | negInt value fits => exact iff_of_true (dif_pos fits) trivial
  | float value => exact value.read_toNumeric_iff readFloat

namespace Json

variable {ν μ : Type} {α : Type}

theorem sortByKey_keys_perm (keyLe : String → String → Prop) [DecidableRel keyLe]
    (entries : List (String × α)) :
    ((sortByKey keyLe entries).map Prod.fst).Perm (entries.map Prod.fst) :=
  (perm_insertionSort _ entries).map Prod.fst

theorem sortByKey_ordered (entries : List (String × α)) :
    (sortByKey (· ≤ ·) entries).Pairwise fun first second => first.1 ≤ second.1 := by
  have total : Std.Total fun first second : String × α => first.1 ≤ second.1 :=
    ⟨fun first second => le_total first.1 second.1⟩
  have transitive : IsTrans (String × α) fun first second => first.1 ≤ second.1 :=
    ⟨fun _ _ _ => le_trans⟩
  exact pairwise_insertionSort _ entries

variable {entries : List (String × α)}

theorem sortByKey_sorted (unique : (entries.map Prod.fst).Nodup) :
    KeysSorted ((sortByKey (· ≤ ·) entries).map Prod.fst) := by
  have distinct : ((sortByKey (· ≤ ·) entries).map Prod.fst).Nodup :=
    (sortByKey_keys_perm (· ≤ ·) entries).nodup_iff.mpr unique
  have ordered : ((sortByKey (· ≤ ·) entries).map Prod.fst).Pairwise (· ≤ ·) :=
    pairwise_map.mpr (sortByKey_ordered entries)
  exact ordered.imp₂ (fun _ _ less different => lt_of_le_of_ne less different) distinct

theorem sortByKey_eq_of_perm {sorted : List (String × α)}
    (same : entries.Perm sorted) (ordered : KeysSorted (sorted.map Prod.fst)) :
    sortByKey (· ≤ ·) entries = sorted := by
  have permuted : (sortByKey (· ≤ ·) entries).Perm sorted :=
    (perm_insertionSort _ entries).trans same
  have increasing : sorted.Pairwise fun first second => first.1 ≤ second.1 :=
    (pairwise_map.mp ordered).imp le_of_lt
  apply permuted.eq_of_pairwise _ (sortByKey_ordered entries) increasing
  intro first second left right below above
  exact inj_on_of_nodup_map (ordered.imp ne_of_lt) (permuted.mem_iff.mp left) right
    (le_antisymm below above)

section convert

variable {numbers : ν → Prop} {keys : List String → Prop}
variable {numbers' : μ → Prop} {keys' : List String → Prop}
variable {number : ν → μ} {keyLe : String → String → Prop} [DecidableRel keyLe]

mutual
theorem each_convert (kept : ∀ value, numbers value → numbers' (number value))
    (reordered : ∀ entries : List (String × Json μ), keys (entries.map Prod.fst) →
      keys' ((sortByKey keyLe entries).map Prod.fst)) :
    ∀ json : Json ν, json.Each numbers keys → (json.convert number keyLe).Each numbers' keys'
  | .null, _ => trivial
  | .bool _, _ => trivial
  | .string _, _ => trivial
  | .number value, each => kept value each
  | .array items, each => eachItem_convert kept reordered items each
  | .object entries, each => by
    constructor
    · apply reordered
      rw [convertEntries_keys]
      exact each.1
    · rw [eachEntry_iff]
      intro entry member
      have converted := eachEntry_convert kept reordered entries each.2
      rw [eachEntry_iff] at converted
      exact converted entry ((perm_insertionSort _ _).mem_iff.mp member)

theorem eachItem_convert (kept : ∀ value, numbers value → numbers' (number value))
    (reordered : ∀ entries : List (String × Json μ), keys (entries.map Prod.fst) →
      keys' ((sortByKey keyLe entries).map Prod.fst)) :
    ∀ items : List (Json ν), EachItem numbers keys items →
      EachItem numbers' keys' (convertItems number keyLe items)
  | [], _ => trivial
  | item :: items, each =>
    ⟨each_convert kept reordered item each.1, eachItem_convert kept reordered items each.2⟩

theorem eachEntry_convert (kept : ∀ value, numbers value → numbers' (number value))
    (reordered : ∀ entries : List (String × Json μ), keys (entries.map Prod.fst) →
      keys' ((sortByKey keyLe entries).map Prod.fst)) :
    ∀ entries : List (String × Json ν), EachEntry numbers keys entries →
      EachEntry numbers' keys' (convertEntries number keyLe entries)
  | [], _ => trivial
  | (_, value) :: entries, each =>
    ⟨each_convert kept reordered value each.1, eachEntry_convert kept reordered entries each.2⟩
end

variable {back : μ → ν}

mutual
theorem convert_convert (restored : ∀ value, numbers value → back (number value) = value) :
    ∀ json : Json ν, json.Each numbers KeysSorted →
      (json.convert number keyLe).convert back (· ≤ ·) = json
  | .null, _ => rfl
  | .bool _, _ => rfl
  | .string _, _ => rfl
  | .number value, each => congrArg Json.number (restored value each)
  | .array items, each => congrArg Json.array (convertItems_convertItems restored items each)
  | .object entries, each => by
    apply congrArg Json.object
    apply sortByKey_eq_of_perm _ each.1
    calc
      (convertEntries back (· ≤ ·)
          (sortByKey keyLe (convertEntries number keyLe entries))).Perm
          (convertEntries back (· ≤ ·) (convertEntries number keyLe entries)) := by
        rw [convertEntries_eq_map back, convertEntries_eq_map back]
        exact (perm_insertionSort _ _).map _
      _ = entries := convertEntries_convertEntries restored entries each.2

theorem convertItems_convertItems
    (restored : ∀ value, numbers value → back (number value) = value) :
    ∀ items : List (Json ν), EachItem numbers KeysSorted items →
      convertItems back (· ≤ ·) (convertItems number keyLe items) = items
  | [], _ => rfl
  | item :: items, each => by
    simp only [convertItems]
    rw [convert_convert restored item each.1, convertItems_convertItems restored items each.2]

theorem convertEntries_convertEntries
    (restored : ∀ value, numbers value → back (number value) = value) :
    ∀ entries : List (String × Json ν), EachEntry numbers KeysSorted entries →
      convertEntries back (· ≤ ·) (convertEntries number keyLe entries) = entries
  | [], _ => rfl
  | (key, value) :: entries, each => by
    simp only [convertEntries]
    rw [convert_convert restored value each.1,
      convertEntries_convertEntries restored entries each.2]
end

end convert

end Json

def jsonbKeyLe (first second : String) : Prop :=
  first.utf8ByteSize < second.utf8ByteSize ∨
    first.utf8ByteSize = second.utf8ByteSize ∧ first ≤ second

instance : DecidableRel jsonbKeyLe := fun _ _ => inferInstanceAs (Decidable (_ ∨ _))

/-- `serde_json::Value`; its maps are `BTreeMap`s. -/
structure Value where
  json : Json Number
  sorted : json.Each (fun _ => True) Json.KeysSorted

structure Jsonb where
  json : Json Numeric
  unique : json.Each (fun _ => True) List.Nodup

def Value.toJsonb (self : Value) : Jsonb where
  json := self.json.convert Number.toNumeric jsonbKeyLe
  unique := by
    apply Json.each_convert (fun _ _ => trivial) _ self.json self.sorted
    intro entries sorted
    have distinct : (entries.map Prod.fst).Nodup := sorted.imp ne_of_lt
    exact (Json.sortByKey_keys_perm _ entries).nodup_iff.mpr distinct

def Jsonb.toValue (readFloat : Numeric → F64) (self : Jsonb) : Value where
  json := self.json.convert (Numeric.read readFloat) (· ≤ ·)
  sorted := Json.each_convert (fun _ _ => trivial) (fun _ => Json.sortByKey_sorted)
    self.json self.unique

def Value.Kept (readFloat : Numeric → F64) (self : Value) : Prop :=
  self.json.Each (Number.Kept readFloat) fun _ => True

theorem Value.toValue_toJsonb (readFloat : Numeric → F64) (self : Value)
    (kept : self.Kept readFloat) : self.toJsonb.toValue readFloat = self := by
  have restored : (self.json.convert Number.toNumeric jsonbKeyLe).convert
      (Numeric.read readFloat) (· ≤ ·) = self.json :=
    Json.convert_convert (fun number kept => (number.read_toNumeric_iff readFloat).mpr kept)
      self.json (Json.each_of_both self.json kept self.sorted)
  cases self
  simp only [Jsonb.toValue, Value.toJsonb, restored]

/-- Other control characters are `\u00xx`. -/
def escapeChar (c : Char) : List Char :=
  if c = '"' then ['\\', '"']
  else if c = '\\' then ['\\', '\\']
  else if c = '\x08' then ['\\', 'b']
  else if c = '\x0c' then ['\\', 'f']
  else if c = '\n' then ['\\', 'n']
  else if c = '\r' then ['\\', 'r']
  else if c = '\t' then ['\\', 't']
  else if c.toNat < 32 then
    ['\\', 'u', '0', '0', Nat.digitChar (c.toNat / 16), Nat.digitChar (c.toNat % 16)]
  else [c]

def stringText (text : String) : String :=
  String.ofList ('"' :: text.toList.flatMap escapeChar ++ ['"'])

def Number.text (formatFloat : F64 → String) : Number → String
  | .posInt value _ => Nat.repr value
  | .negInt value _ => "-" ++ Nat.repr value
  | .float value => formatFloat value

mutual
/-- `canonical_json`: the entries of an object are written in key order. -/
def canonicalJson (formatFloat : F64 → String) : Json Number → String
  | .null => "null"
  | .bool value => if value then "true" else "false"
  | .number value => value.text formatFloat
  | .string value => stringText value
  | .array items => "[" ++ String.intercalate "," (canonicalItems formatFloat items) ++ "]"
  | .object entries =>
    let sorted := Json.sortByKey (· ≤ ·) (canonicalEntries formatFloat entries)
    "\x7b" ++ String.intercalate ","
      (sorted.map fun entry => stringText entry.1 ++ ":" ++ entry.2) ++ "\x7d"

def canonicalItems (formatFloat : F64 → String) : List (Json Number) → List String
  | [] => []
  | item :: items => canonicalJson formatFloat item :: canonicalItems formatFloat items

def canonicalEntries (formatFloat : F64 → String) :
    List (String × Json Number) → List (String × String)
  | [] => []
  | (key, value) :: entries =>
    (key, canonicalJson formatFloat value) :: canonicalEntries formatFloat entries
end

end Buzz

/-! How code reads a parsed JSON value. -/

namespace Buzz.Json

def asStr : Json Number → Option String
  | .string value => some value
  | _ => none

def asArray : Json Number → Option (List (Json Number))
  | .array items => some items
  | _ => none

def asObject : Json Number → Option (List (String × Json Number))
  | .object entries => some entries
  | _ => none

def asU64 : Json Number → Option ℕ
  | .number (.posInt value _) => some value
  | _ => none

def asI64 : Json Number → Option ℤ
  | .number (.posInt value _) => if value < 2 ^ 63 then some value else none
  | .number (.negInt value _) => some (-value)
  | _ => none

def isF64 : Json Number → Bool
  | .number (.float _) => true
  | _ => false

/-- The `Number` of an `i64`. -/
def fromI64 (value : ℤ) : Number :=
  if negative : -2 ^ 63 ≤ value ∧ value < 0 then .negInt (-value).toNat (by omega)
  else if fits : value.toNat < 2 ^ 64 then .posInt value.toNat fits
  else .posInt 0 (by omega)

def field (object : List (String × Json Number)) (key : String) : Option (Json Number) :=
  object.lookup key

theorem asI64_range {json : Json Number} {value : ℤ} (read : asI64 json = some value) :
    -2 ^ 63 ≤ value ∧ value < 2 ^ 63 := by
  unfold asI64 at read
  split at read
  · split at read
    · cases read
      omega
    · cases read
  next magnitude fits =>
    cases read
    omega
  · cases read

theorem asI64_fromI64 {value : ℤ} (range : -2 ^ 63 ≤ value ∧ value < 2 ^ 63) :
    asI64 (.number (fromI64 value)) = some value := by
  unfold fromI64
  split
  next negative =>
    have magnitude : -((-value).toNat : ℤ) = value := by omega
    exact congrArg some magnitude
  next positive =>
    have small : value.toNat < 2 ^ 63 := by omega
    have magnitude : (value.toNat : ℤ) = value := by omega
    rw [dif_pos (by omega)]
    exact (if_pos small).trans (congrArg some magnitude)

end Buzz.Json
