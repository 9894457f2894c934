import Buzz.GitPerms.Matching
import Buzz.Library.Results
import Mathlib.Data.List.Basic

/-! Protection rules and the push policy. -/

namespace Buzz.GitPerms

open Buzz.Channel List Library.Results

def maxProtectionRules : ℕ := 50

def zeroOid : String := "0000000000000000000000000000000000000000"

inductive UpdateKind
  | create
  | fastForward
  | nonFastForward
  | delete
  deriving DecidableEq, Repr

def UpdateKind.classify (oldOid newOid : String) (isAncestor : Bool) : UpdateKind :=
  if oldOid = zeroOid then .create
  else if newOid = zeroOid then .delete
  else if isAncestor then .fastForward
  else .nonFastForward

structure RefUpdate where
  refName : String
  kind : UpdateKind
  oldOid : String
  newOid : String
  deriving DecidableEq, Repr

structure ProtectionRule where
  pattern : RefPattern
  pushRole : Option MemberRole
  noForcePush : Bool
  noDelete : Bool
  requirePatch : Bool

inductive RuleParseError
  | tooFewValues
  | tooManyRules
  | invalidPattern (error : PatternError)
  | unknownRule (text : String)
  | invalidRole (text : String)
  deriving DecidableEq, Repr

/-- The higher level wins and the earlier role is kept on a tie. -/
def strictestRole (current : Option MemberRole) (role : MemberRole) : MemberRole :=
  match current with
  | none => role
  | some existing =>
    if role.permissionLevel > existing.permissionLevel then role else existing

def stripPush (rule : String) : Option String :=
  if "push:".toList.isPrefixOf rule.toList then some (String.ofList (rule.toList.drop 5)) else none

/-- One step of the loop over the rule strings of a `buzz-protect` tag. -/
def parseRule (found : ProtectionRule × List String) (rule : String) :
    Except RuleParseError (ProtectionRule × List String) :=
  let (parsed, unknown) := found
  match stripPush rule with
  | some roleStr =>
    match MemberRole.fromStr roleStr with
    | .error _ => .error (.invalidRole roleStr)
    | .ok role =>
      if role = .bot ∨ role = .guest then .error (.invalidRole roleStr)
      else .ok ({ parsed with pushRole := some (strictestRole parsed.pushRole role) }, unknown)
  | none =>
    if rule = "no-force-push" then .ok ({ parsed with noForcePush := true }, unknown)
    else if rule = "no-delete" then .ok ({ parsed with noDelete := true }, unknown)
    else if rule = "require-patch" then .ok ({ parsed with requirePatch := true }, unknown)
    else .ok (parsed, unknown ++ [rule])

def parseProtectionTagWithWarnings (values : List String) :
    Except RuleParseError (ProtectionRule × List String) :=
  match values with
  | pattern :: rule :: rules =>
    match RefPattern.parse pattern with
    | .error e => .error (.invalidPattern e)
    | .ok parsed => (rule :: rules).foldlM parseRule (⟨parsed, none, false, false, false⟩, [])
  | _ => .error .tooFewValues

structure ParsedProtection where
  rules : List ProtectionRule
  unknownRules : List String

def parseProtectionTag (found : ParsedProtection) (tag : List String) :
    Except RuleParseError ParsedProtection :=
  if tag.head? ≠ some "buzz-protect" then .ok found
  else if found.rules.length ≥ maxProtectionRules then .error .tooManyRules
  else (parseProtectionTagWithWarnings tag.tail).map fun parsed =>
    ⟨found.rules ++ [parsed.1], found.unknownRules ++ parsed.2⟩

def parseProtectionTags (tags : List (List String)) : Except RuleParseError ParsedProtection :=
  tags.foldlM parseProtectionTag ⟨[], []⟩

def isBranch (refName : String) : Bool := "refs/heads/".toList.isPrefixOf refName.toList
def isTag (refName : String) : Bool := "refs/tags/".toList.isPrefixOf refName.toList

def defaultMinRole (refName : String) : UpdateKind → MemberRole
  | .create => if isBranch refName || isTag refName then .member else .admin
  | .fastForward =>
    if isBranch refName then .member else if isTag refName then .admin else .admin
  | .nonFastForward => .admin
  | .delete => .admin

structure EffectiveRules where
  pushRole : Option MemberRole
  noForcePush : Bool
  noDelete : Bool
  requirePatch : Bool
  hasExplicitMatch : Bool
  deriving DecidableEq, Repr

namespace EffectiveRules

def empty : EffectiveRules := ⟨none, false, false, false, false⟩

def union (refName : String) (acc : EffectiveRules) (rule : ProtectionRule) : EffectiveRules :=
  if !rule.pattern.matchesRef refName then acc
  else
    { pushRole := match rule.pushRole with
        | some role => some (strictestRole acc.pushRole role)
        | none => acc.pushRole
      noForcePush := acc.noForcePush || rule.noForcePush
      noDelete := acc.noDelete || rule.noDelete
      requirePatch := acc.requirePatch || rule.requirePatch
      hasExplicitMatch := true }

def forRef (refName : String) (rules : List ProtectionRule) : EffectiveRules :=
  rules.foldl (union refName) empty

end EffectiveRules

structure Denial where
  refName : String
  reason : String
  deriving DecidableEq, Repr

/-- The default is never weakened. -/
def minRole (default : MemberRole) : Option MemberRole → MemberRole
  | some explicit =>
    if explicit.permissionLevel ≥ default.permissionLevel then explicit else default
  | none => default

def evaluateRefUpdate (update : RefUpdate) (role : MemberRole) (rules : List ProtectionRule) :
    Except Denial Unit :=
  let effective := EffectiveRules.forRef update.refName rules
  let defaultRole := defaultMinRole update.refName update.kind
  if !effective.hasExplicitMatch then
    if !role.hasAtLeast defaultRole then
      .error ⟨update.refName, "requires " ++ defaultRole.asStr ++ " role (you have " ++
        role.asStr ++ "), using built-in defaults"⟩
    else .ok ()
  else if effective.requirePatch then
    .error ⟨update.refName,
      "direct push denied: require-patch is set, submit a NIP-34 patch"⟩
  else if !role.hasAtLeast (minRole defaultRole effective.pushRole) then
    .error ⟨update.refName, "requires " ++ (minRole defaultRole effective.pushRole).asStr ++
      " role (you have " ++ role.asStr ++ ")"⟩
  else if effective.noForcePush && update.kind = .nonFastForward then
    .error ⟨update.refName, "non-fast-forward update denied: no-force-push is set"⟩
  else if effective.noDelete && update.kind = .delete then
    .error ⟨update.refName, "ref deletion denied: no-delete is set"⟩
  else .ok ()

def evaluatePush (updates : List RefUpdate) (role : MemberRole) (rules : List ProtectionRule) :
    Except (List Denial) Unit :=
  let denials := updates.filterMap fun update =>
    match evaluateRefUpdate update role rules with
    | .error denial => some denial
    | .ok _ => none
  if denials.isEmpty then .ok () else .error denials

/-! The policy as a conjunction over the matching rules. -/

def AllowedBy (update : RefUpdate) (role : MemberRole) (rules : List ProtectionRule) : Prop :=
  evaluateRefUpdate update role rules = .ok ()

structure ProtectionRule.Admits (rule : ProtectionRule) (role : MemberRole)
    (kind : UpdateKind) : Prop where
  direct : rule.requirePatch = false
  level : ∀ required ∈ rule.pushRole, required.permissionLevel ≤ role.permissionLevel
  force : rule.noForcePush → kind ≠ .nonFastForward
  delete : rule.noDelete → kind ≠ .delete

structure EffectiveRules.Admits (effective : EffectiveRules) (role : MemberRole)
    (kind : UpdateKind) : Prop where
  direct : effective.requirePatch = false
  level : ∀ required ∈ effective.pushRole, required.permissionLevel ≤ role.permissionLevel
  force : effective.noForcePush → kind ≠ .nonFastForward
  delete : effective.noDelete → kind ≠ .delete

theorem strictestRole_le_iff (current : Option MemberRole) (role : MemberRole) (bound : ℕ) :
    (strictestRole current role).permissionLevel ≤ bound ↔
      (∀ existing ∈ current, existing.permissionLevel ≤ bound) ∧ role.permissionLevel ≤ bound := by
  cases current with
  | none => simp [strictestRole]
  | some existing =>
    simp only [strictestRole, Option.mem_def, Option.some.injEq, forall_eq']
    split <;> omega

theorem union_admits_iff (refName : String) (acc : EffectiveRules) (rule : ProtectionRule)
    (role : MemberRole) (kind : UpdateKind) :
    (acc.union refName rule).Admits role kind ↔
      acc.Admits role kind ∧
        (rule.pattern.matchesRef refName → rule.Admits role kind) := by
  by_cases applies : rule.pattern.matchesRef refName
  · have level : (∀ required ∈ (acc.union refName rule).pushRole,
          required.permissionLevel ≤ role.permissionLevel) ↔
        (∀ required ∈ acc.pushRole, required.permissionLevel ≤ role.permissionLevel) ∧
          ∀ required ∈ rule.pushRole, required.permissionLevel ≤ role.permissionLevel := by
      cases explicit : rule.pushRole with
      | none => simp [EffectiveRules.union, applies, explicit]
      | some required =>
        simpa [EffectiveRules.union, applies, explicit] using
          strictestRole_le_iff acc.pushRole required role.permissionLevel
    constructor
    · intro admitted
      have levels := level.mp admitted.level
      obtain ⟨direct, _, force, delete⟩ := admitted
      simp only [EffectiveRules.union, applies, Bool.not_true, Bool.false_eq_true, if_false,
        Bool.or_eq_false_iff, Bool.or_eq_true] at direct force delete
      exact ⟨⟨direct.1, levels.1, fun set => force (.inl set), fun set => delete (.inl set)⟩,
        fun _ => ⟨direct.2, levels.2, fun set => force (.inr set), fun set => delete (.inr set)⟩⟩
    · rintro ⟨before, asked⟩
      have demand := asked applies
      refine ⟨?_, level.mpr ⟨before.level, demand.level⟩, ?_, ?_⟩
      · simp [EffectiveRules.union, applies, before.direct, demand.direct]
      · intro set
        simp only [EffectiveRules.union, applies, Bool.not_true, Bool.false_eq_true, if_false,
          Bool.or_eq_true] at set
        exact set.elim before.force demand.force
      · intro set
        simp only [EffectiveRules.union, applies, Bool.not_true, Bool.false_eq_true, if_false,
          Bool.or_eq_true] at set
        exact set.elim before.delete demand.delete
  · simp [EffectiveRules.union, applies]

theorem forRef_admits_iff (refName : String) (rules : List ProtectionRule) (role : MemberRole)
    (kind : UpdateKind) :
    (EffectiveRules.forRef refName rules).Admits role kind ↔
      ∀ rule ∈ rules, rule.pattern.matchesRef refName → rule.Admits role kind := by
  have fold : ∀ acc : EffectiveRules,
      (rules.foldl (EffectiveRules.union refName) acc).Admits role kind ↔
        acc.Admits role kind ∧
          ∀ rule ∈ rules, rule.pattern.matchesRef refName → rule.Admits role kind := by
    induction rules with
    | nil => simp
    | cons rule rest ih =>
      intro acc
      simp only [foldl_cons, ih, union_admits_iff, forall_mem_cons, and_assoc]
  have start : EffectiveRules.empty.Admits role kind := by
    constructor <;> simp [EffectiveRules.empty]
  exact (fold .empty).trans (and_iff_right start)

theorem forRef_hasExplicitMatch_iff (refName : String) (rules : List ProtectionRule) :
    (EffectiveRules.forRef refName rules).hasExplicitMatch ↔
      ∃ rule ∈ rules, rule.pattern.matchesRef refName := by
  have fold : ∀ acc : EffectiveRules,
      (rules.foldl (EffectiveRules.union refName) acc).hasExplicitMatch ↔
        acc.hasExplicitMatch ∨ ∃ rule ∈ rules, rule.pattern.matchesRef refName := by
    induction rules with
    | nil => simp
    | cons rule rest ih =>
      intro acc
      rw [foldl_cons, ih, exists_mem_cons_iff, ← or_assoc]
      by_cases applies : rule.pattern.matchesRef refName = true <;>
        simp [EffectiveRules.union, applies]
  exact (fold .empty).trans (by simp [EffectiveRules.empty])

theorem minRole_le_iff (default : MemberRole) (explicit : Option MemberRole) (bound : ℕ) :
    (minRole default explicit).permissionLevel ≤ bound ↔
      default.permissionLevel ≤ bound ∧ ∀ role ∈ explicit, role.permissionLevel ≤ bound := by
  cases explicit with
  | none => simp [minRole]
  | some role =>
    simp only [minRole, Option.mem_def, Option.some.injEq, forall_eq']
    split <;> omega

theorem allowedBy_iff (update : RefUpdate) (role : MemberRole) (rules : List ProtectionRule) :
    AllowedBy update role rules ↔
      (defaultMinRole update.refName update.kind).permissionLevel ≤ role.permissionLevel ∧
        ∀ rule ∈ rules, rule.pattern.matchesRef update.refName →
          rule.Admits role update.kind := by
  rw [← forRef_admits_iff update.refName rules role update.kind]
  unfold AllowedBy evaluateRefUpdate
  generalize same : EffectiveRules.forRef update.refName rules = effective
  have explicit := forRef_hasExplicitMatch_iff update.refName rules
  rw [same] at explicit
  by_cases found : effective.hasExplicitMatch
  · simp only [found, Bool.not_true, Bool.false_eq_true, if_false]
    constructor
    · intro allowed
      split at allowed
      · cases allowed
      next direct =>
        split at allowed
        · cases allowed
        next level =>
          split at allowed
          · cases allowed
          next force =>
            split at allowed
            · cases allowed
            next delete =>
              simp only [Bool.not_eq_true', Bool.not_eq_false, MemberRole.hasAtLeast_iff,
                minRole_le_iff] at level
              exact ⟨level.1, by simpa using direct, level.2, by simpa using force,
                by simpa using delete⟩
    · rintro ⟨default, direct, level, force, delete⟩
      have atLeast : role.hasAtLeast
          (minRole (defaultMinRole update.refName update.kind) effective.pushRole) := by
        rw [MemberRole.hasAtLeast_iff, minRole_le_iff]
        exact ⟨default, level⟩
      have notForced : ¬ (effective.noForcePush ∧ update.kind = .nonFastForward) :=
        fun both => force both.1 both.2
      have notDeleted : ¬ (effective.noDelete ∧ update.kind = .delete) :=
        fun both => delete both.1 both.2
      simp [direct, atLeast, notForced, notDeleted]
  · have unmatched : ∀ rule ∈ rules, ¬ rule.pattern.matchesRef update.refName := by
      intro rule member applies
      exact found (explicit.mpr ⟨rule, member, applies⟩)
    have vacuous : effective.Admits role update.kind := by
      rw [← same, forRef_admits_iff]
      intro rule member applies
      exact absurd applies (unmatched rule member)
    simp [found, vacuous]

variable {update : RefUpdate} {rules : List ProtectionRule} {role : MemberRole}

theorem allowedBy_anti {more : List ProtectionRule} (included : ∀ rule ∈ rules, rule ∈ more)
    (allowed : AllowedBy update role more) : AllowedBy update role rules := by
  rw [allowedBy_iff] at allowed ⊢
  exact ⟨allowed.1, fun rule member => allowed.2 rule (included rule member)⟩

theorem allowedBy_mono_role {higher : MemberRole}
    (level : role.permissionLevel ≤ higher.permissionLevel)
    (allowed : AllowedBy update role rules) : AllowedBy update higher rules := by
  rw [allowedBy_iff] at allowed ⊢
  refine ⟨Nat.le_trans allowed.1 level, fun rule member applies => ?_⟩
  have demand := allowed.2 rule member applies
  exact ⟨demand.direct, fun required present => Nat.le_trans (demand.level required present) level,
    demand.force, demand.delete⟩

theorem evaluatePush_ok_iff (updates : List RefUpdate) (role : MemberRole)
    (rules : List ProtectionRule) :
    evaluatePush updates role rules = .ok () ↔
      ∀ update ∈ updates, AllowedBy update role rules := by
  unfold evaluatePush AllowedBy
  generalize split : (updates.filterMap fun update =>
    match evaluateRefUpdate update role rules with
    | .error denial => some denial
    | .ok _ => none) = denials
  have none_iff : denials = [] ↔
      ∀ update ∈ updates, evaluateRefUpdate update role rules = .ok () := by
    rw [← split, filterMap_eq_nil_iff]
    refine forall₂_congr fun update _ => ?_
    cases evaluateRefUpdate update role rules with
    | error denial | ok done => simp
  rw [← none_iff]
  cases denials <;> simp

theorem policy_monotone :
    (∀ (update : RefUpdate) (role : MemberRole) (rules more : List ProtectionRule),
      (∀ rule ∈ rules, rule ∈ more) →
        AllowedBy update role more → AllowedBy update role rules) ∧
    (∀ (update : RefUpdate) (role : MemberRole) (rules permuted : List ProtectionRule),
      rules.Perm permuted → (AllowedBy update role permuted ↔ AllowedBy update role rules)) ∧
    (∀ (update : RefUpdate) (role : MemberRole) (rules : List ProtectionRule),
      AllowedBy update role rules →
        role.hasAtLeast (defaultMinRole update.refName update.kind)) ∧
    (∀ (update : RefUpdate) (role higher : MemberRole) (rules : List ProtectionRule),
      role.permissionLevel ≤ higher.permissionLevel →
        AllowedBy update role rules → AllowedBy update higher rules) ∧
    (∀ (updates : List RefUpdate) (role : MemberRole) (rules : List ProtectionRule),
      evaluatePush updates role rules = .ok () ↔
        ∀ update ∈ updates, evaluateRefUpdate update role rules = .ok ()) := by
  refine ⟨fun _ _ _ _ included => allowedBy_anti included, ?_, ?_, ?_, ?_⟩
  · intro update role rules permuted perm
    exact ⟨allowedBy_anti fun _ => perm.mem_iff.mp, allowedBy_anti fun _ => perm.mem_iff.mpr⟩
  · intro update role rules allowed
    exact (MemberRole.hasAtLeast_iff _ _).mpr ((allowedBy_iff _ _ _).mp allowed).1
  · intro update role higher rules level
    exact allowedBy_mono_role level
  · exact evaluatePush_ok_iff

/-- What one rule of a tag asks of an update. -/
@[mk_iff] structure TextAdmits (role : MemberRole) (kind : UpdateKind) (text : String) : Prop where
  direct : text ≠ "require-patch"
  level : ∀ required : MemberRole, text = "push:" ++ required.asStr →
    required.permissionLevel ≤ role.permissionLevel
  force : text = "no-force-push" → kind ≠ .nonFastForward
  delete : text = "no-delete" → kind ≠ .delete

def TagAdmits (update : RefUpdate) (role : MemberRole) (tag : List String) : Prop :=
  ∀ pattern rules, tag = "buzz-protect" :: pattern :: rules →
    SegmentsMatch (segmentsOf pattern) (segmentsOf update.refName) →
      ∀ text ∈ rules, TextAdmits role update.kind text

section tags

attribute [mk_iff] ProtectionRule.Admits

variable {role : MemberRole} {kind : UpdateKind}

theorem stripPush_some {text rest : String} :
    stripPush text = some rest ↔ text = "push:" ++ rest := by
  constructor
  · intro found
    unfold stripPush at found
    split at found
    next isPush =>
      rcases List.isPrefixOf_iff_prefix.mp isPush with ⟨tail, same⟩
      cases found
      apply String.toList_inj.mp
      simp [← same]
    · cases found
  · rintro rfl
    simp [stripPush]

theorem fromStr_ok {text : String} {found : MemberRole} (parsed : MemberRole.fromStr text = .ok found) :
    text = found.asStr := by
  unfold MemberRole.fromStr at parsed
  split_ifs at parsed <;> cases parsed <;> assumption

theorem parseRule_admits {found next : ProtectionRule × List String} {text : String}
    (parsed : parseRule found text = .ok next) :
    next.1.pattern = found.1.pattern ∧
      (next.1.Admits role kind ↔ found.1.Admits role kind ∧ TextAdmits role kind text) := by
  rw [ProtectionRule.admits_iff, ProtectionRule.admits_iff, textAdmits_iff]
  unfold parseRule at parsed
  dsimp only at parsed
  split at parsed
  next rest isPush =>
    have other (rule : String) (plain : stripPush rule = none) : text ≠ rule := by
      rintro rfl
      rw [isPush] at plain
      cases plain
    split at parsed
    · cases parsed
    next required isRole =>
      split at parsed
      · cases parsed
      cases parsed
      have named (level : MemberRole) : text = "push:" ++ level.asStr ↔ required = level := by
        rw [← stripPush_some, isPush, Option.some.injEq]
        refine ⟨?_, fun same => same ▸ fromStr_ok isRole⟩
        rintro rfl
        rw [MemberRole.fromStr_asStr] at isRole
        exact (Except.ok.inj isRole).symm
      have levels := strictestRole_le_iff found.1.pushRole required role.permissionLevel
      simp [named, levels, other "require-patch" (by decide), other "no-delete" (by decide),
        other "no-force-push" (by decide)]
      tauto
  next notPush =>
    have notNamed (level : MemberRole) : text ≠ "push:" ++ level.asStr := by
      rw [ne_eq, ← stripPush_some, notPush]
      nofun
    split_ifs at parsed with force delete direct
    all_goals
      cases parsed
      simp_all
      try tauto

theorem parseRules_admits {rules : List String} {found next : ProtectionRule × List String}
    (parsed : rules.foldlM parseRule found = .ok next) :
    next.1.pattern = found.1.pattern ∧
      (next.1.Admits role kind ↔
        found.1.Admits role kind ∧ ∀ text ∈ rules, TextAdmits role kind text) := by
  induction rules generalizing found with
  | nil =>
    cases parsed
    simp
  | cons text rest ih =>
    rcases bind_ok parsed with ⟨between, first, others⟩
    rcases @parseRule_admits role kind _ _ _ first with ⟨pattern, step⟩
    rcases ih others with ⟨pattern', admits⟩
    exact ⟨pattern'.trans pattern, by rw [admits, step, forall_mem_cons, and_assoc]⟩

variable {update : RefUpdate}

def RuleAdmits (update : RefUpdate) (role : MemberRole) (rule : ProtectionRule) : Prop :=
  rule.pattern.matchesRef update.refName → rule.Admits role update.kind

theorem parseProtectionTag_admits {found next : ParsedProtection} {tag : List String}
    (parsed : parseProtectionTag found tag = .ok next) :
    (∀ rule ∈ next.rules, RuleAdmits update role rule) ↔
      (∀ rule ∈ found.rules, RuleAdmits update role rule) ∧ TagAdmits update role tag := by
  unfold parseProtectionTag at parsed
  split_ifs at parsed with other
  · cases parsed
    refine (and_iff_left ?_).symm
    rintro pattern rules rfl
    exact absurd rfl other
  · rcases map_ok parsed with ⟨⟨rule, unknown⟩, read, rfl⟩
    unfold parseProtectionTagWithWarnings at read
    split at read
    next pattern first rest isTail =>
      split at read
      · cases read
      next start isPattern =>
        rcases @parseRules_admits role update.kind _ _ _ read with ⟨same, admits⟩
        have whole : tag = "buzz-protect" :: pattern :: first :: rest := by
          cases tag <;> simp_all
        have base : (⟨start, none, false, false, false⟩ : ProtectionRule).Admits role update.kind := by
          constructor <;> simp
        have applies := RefPattern.matchesRef_iff isPattern update.refName
        rw [← show rule.pattern = start from same] at applies
        simp only [forall_mem_append, forall_mem_singleton, RuleAdmits, admits, whole, TagAdmits,
          base, applies]
        simp
    · cases read

theorem parseProtectionTags_admits {tags : List (List String)} {found next : ParsedProtection}
    (parsed : tags.foldlM parseProtectionTag found = .ok next) :
    (∀ rule ∈ next.rules, RuleAdmits update role rule) ↔
      (∀ rule ∈ found.rules, RuleAdmits update role rule) ∧ ∀ tag ∈ tags, TagAdmits update role tag := by
  induction tags generalizing found with
  | nil =>
    cases parsed
    simp
  | cons tag rest ih =>
    rcases bind_ok parsed with ⟨between, first, others⟩
    rw [ih others, parseProtectionTag_admits first, forall_mem_cons, and_assoc]

/-- The built-in default and every rule of every tag whose pattern covers the ref. -/
theorem push_follows_tags (tags : List (List String)) (updates : List RefUpdate) (role : MemberRole) :
    (∃ parsed, parseProtectionTags tags = .ok parsed ∧
        evaluatePush updates role parsed.rules = .ok ()) ↔
      (∃ parsed, parseProtectionTags tags = .ok parsed) ∧ ∀ update ∈ updates,
        role.hasAtLeast (defaultMinRole update.refName update.kind) ∧
          ∀ tag ∈ tags, TagAdmits update role tag := by
  have each {parsed : ParsedProtection} (ok : parseProtectionTags tags = .ok parsed) :
      evaluatePush updates role parsed.rules = .ok () ↔ ∀ update ∈ updates,
        role.hasAtLeast (defaultMinRole update.refName update.kind) ∧
          ∀ tag ∈ tags, TagAdmits update role tag := by
    rw [evaluatePush_ok_iff]
    refine forall₂_congr fun update _ => ?_
    rw [allowedBy_iff, MemberRole.hasAtLeast_iff]
    exact and_congr_right fun _ => (parseProtectionTags_admits ok).trans (by simp)
  exact ⟨fun ⟨parsed, ok, allowed⟩ => ⟨⟨parsed, ok⟩, (each ok).mp allowed⟩,
    fun ⟨⟨parsed, ok⟩, allowed⟩ => ⟨parsed, ok, (each ok).mpr allowed⟩⟩

end tags

end Buzz.GitPerms
