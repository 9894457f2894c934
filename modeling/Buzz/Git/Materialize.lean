import Buzz.Git.Manifest
import Buzz.Library.Keyed
import Buzz.Library.Results
import Mathlib.Data.List.Infix

/-! The refs of a manifest as the files of a bare repository, and which manifests the files hold. -/

namespace Buzz.Git

open Library List
open Buzz.Library.Results (bind_ok ok_bind)

abbrev RefPath := List (List Char)

def components (name : String) : RefPath := name.toList.splitOn '/'

def resolved (name : String) : RefPath := (components name).filter (· ≠ ['.'])

structure BareRepo where
  dirs : List RefPath
  files : Keyed RefPath String
  head : String

def initBareRepo : BareRepo where
  dirs := [[], ["refs".toList], ["refs".toList, "heads".toList], ["refs".toList, "tags".toList]]
  files := .empty
  head := "ref: refs/heads/main\n"

inductive HydrateError
  | unsafeRefname (name : String)
  | malformedOid (name : String)
  | mkdir (name : String)
  | writeRef (name : String)
  | unsafeHead (name : String)

/-- The file system's lengths, and what git reads of a file. -/
structure Platform where
  fits : String → Bool
  readRef : RefPath → String → Option String
  readHead : String → Option String

def BareRepo.createDirAll (self : BareRepo) (path : RefPath) : BareRepo :=
  { self with dirs := self.dirs ++ path.inits }

namespace Platform

variable (platform : Platform)

def writeRef (refname oid : String) (repo : BareRepo) : Except HydrateError BareRepo :=
  let path := resolved refname
  -- A directory cannot be made where a file is.
  if ∃ dir ∈ path.dropLast.inits, (repo.files.get dir).isSome then .error (.mkdir refname)
  else
    let made := repo.createDirAll path.dropLast
    if !platform.fits refname ∨ (components refname).getLast? = some ['.'] ∨ path ∈ made.dirs then
      .error (.writeRef refname)
    else .ok { made with files := made.files.insert path (oid ++ "\n") }

def installRefs : List (String × String) → BareRepo → Except HydrateError BareRepo
  | [], repo => .ok repo
  | (refname, oid) :: rest, repo =>
    if !isSafeRefname refname then .error (.unsafeRefname refname)
    else if !isHexOid oid then .error (.malformedOid refname)
    else platform.writeRef refname oid repo >>= installRefs rest

def materialize (manifest : Manifest) : Except HydrateError BareRepo := do
  let repo ← platform.installRefs manifest.refs.entries initBareRepo
  if !isSafeRefname manifest.head then .error (.unsafeHead manifest.head)
  else .ok { repo with head := "ref: " ++ manifest.head ++ "\n" }

def refs (repo : BareRepo) : List (RefPath × String) :=
  repo.files.entries.filterMap fun file => (platform.readRef file.1 file.2).map (file.1, ·)

def Restores (manifest : Manifest) : Prop :=
  ∃ repo, platform.materialize manifest = .ok repo ∧
    (∀ path oid, (path, oid) ∈ platform.refs repo ↔
      ∃ entry ∈ manifest.refs.entries, components entry.1 = path ∧ entry.2 = oid) ∧
    platform.readHead repo.head = some manifest.head

structure Holds (manifest : Manifest) : Prop where
  fits : ∀ entry ∈ manifest.refs.entries, platform.fits entry.1
  undotted : ∀ entry ∈ manifest.refs.entries, ['.'] ∉ components entry.1
  unreserved : ∀ entry ∈ manifest.refs.entries, components entry.1 ∉ initBareRepo.dirs
  apart : ∀ entry ∈ manifest.refs.entries, ∀ other ∈ manifest.refs.entries,
    components entry.1 <+: components other.1 → entry = other
  read : ∀ entry ∈ manifest.refs.entries,
    platform.readRef (components entry.1) (entry.2 ++ "\n") = some entry.2
  head : platform.readHead ("ref: " ++ manifest.head ++ "\n") = some manifest.head

end Platform

theorem components_injective : Function.Injective components := by
  intro first second same
  have joined := congrArg (intercalate ['/']) same
  simpa [components, intercalate_splitOn, String.toList_inj] using joined

theorem resolved_eq {name : String} (undotted : ['.'] ∉ components name) :
    resolved name = components name := by
  apply filter_eq_self.mpr
  intro component member
  apply decide_eq_true
  rintro rfl
  exact undotted member

variable {path : RefPath}

theorem prefix_dropLast {other : RefPath} (leads : path <+: other) (different : path ≠ other) :
    path <+: other.dropLast := by
  rcases eq_nil_or_concat' other with rfl | ⟨parent, last, rfl⟩
  · exact leads
  · rw [dropLast_concat]
    exact (prefix_concat_iff.mp leads).resolve_left different

theorem not_prefix_dropLast (nonempty : path ≠ []) : ¬path <+: path.dropLast := by
  intro leads
  have shorter := leads.length_le
  have positive := length_pos_iff.mpr nonempty
  rw [length_dropLast] at shorter
  omega

variable {platform : Platform} {repo : BareRepo}

section install

variable {next : BareRepo} {refname oid : String} {rest : List (String × String)}
  {done : List (String × String)}

theorem new_of_nodup {entry : String × String}
    (distinct : ((done ++ entry :: rest).map Prod.fst).Nodup) :
    ∀ other ∈ done, other.1 ≠ entry.1 := by
  rw [map_append, nodup_append] at distinct
  intro other member
  exact distinct.2.2 _ (mem_map_of_mem member) _ mem_cons_self

/-- No file stands at a directory, and the name of none has a dot. -/
structure BareRepo.Tidy (repo : BareRepo) : Prop where
  apart : ∀ path text, repo.files.get path = some text → path ∉ repo.dirs
  undotted : ∀ path text, repo.files.get path = some text → ['.'] ∉ path
  initial : ∀ path ∈ initBareRepo.dirs, path ∈ repo.dirs

structure BareRepo.Laid (repo : BareRepo) (done : List (String × String)) : Prop where
  files : ∀ path text, repo.files.get path = some text ↔
    ∃ entry ∈ done, components entry.1 = path ∧ entry.2 ++ "\n" = text
  dirs : ∀ path, path ∈ repo.dirs ↔ path ∈ initBareRepo.dirs ∨
    ∃ entry ∈ done, path <+: (components entry.1).dropLast

theorem writeRef_ok : platform.writeRef refname oid repo = .ok next ↔
    (∀ dir, dir <+: (resolved refname).dropLast → repo.files.get dir = none) ∧
      platform.fits refname ∧ (components refname).getLast? ≠ some ['.'] ∧
      resolved refname ∉ (repo.createDirAll (resolved refname).dropLast).dirs ∧
      { repo.createDirAll (resolved refname).dropLast with
        files := repo.files.insert (resolved refname) (oid ++ "\n") } = next := by
  simp only [Platform.writeRef]
  split
  next blocked =>
    rcases blocked with ⟨dir, leads, isFile⟩
    constructor
    · nofun
    · intro written
      rw [written.1 dir ((mem_inits _ _).mp leads)] at isFile
      cases isFile
  next clear =>
    have free : ∀ dir, dir <+: (resolved refname).dropLast → repo.files.get dir = none := by
      simpa [mem_inits] using clear
    split
    next refused =>
      constructor
      · nofun
      · rintro ⟨-, fits, last, file, -⟩
        simp [fits, last, file] at refused
    next taken =>
      simp only [not_or, Bool.not_eq_true', Bool.not_eq_false] at taken
      constructor
      · intro written
        exact ⟨free, taken.1, taken.2.1, taken.2.2, Except.ok.inj written⟩
      · rintro ⟨-, -, -, -, rfl⟩
        rfl

theorem BareRepo.Tidy.write (tidy : repo.Tidy)
    (written : platform.writeRef refname oid repo = .ok next) : next.Tidy := by
  rcases writeRef_ok.mp written with ⟨free, -, -, file, rfl⟩
  constructor
  · intro path text isFile
    rw [Keyed.get_insert] at isFile
    split at isFile
    next same =>
      rw [same]
      exact file
    · simp only [createDirAll, mem_append, mem_inits, not_or]
      refine ⟨tidy.apart path text isFile, ?_⟩
      intro leads
      cases (free path leads).symm.trans isFile
  · intro path text isFile
    rw [Keyed.get_insert] at isFile
    split at isFile
    next same =>
      rw [same]
      simp [resolved]
    · exact tidy.undotted path text isFile
  · intro path member
    exact mem_append_left _ (tidy.initial path member)

theorem BareRepo.Laid.write (laid : repo.Laid done)
    (undotted : ['.'] ∉ components refname) (new : ∀ entry ∈ done, entry.1 ≠ refname)
    (written : platform.writeRef refname oid repo = .ok next) :
    next.Laid (done ++ [(refname, oid)]) := by
  rcases writeRef_ok.mp written with ⟨-, -, -, -, rfl⟩
  rw [resolved_eq undotted]
  constructor
  · intro path text
    simp only [Keyed.get_insert, mem_append, mem_singleton, or_and_right, exists_or,
      exists_eq_left, ← laid.files]
    split
    next same =>
      have absent : repo.files.get path ≠ some text := by
        intro isFile
        rcases (laid.files path text).mp isFile with ⟨entry, member, isPath, -⟩
        exact new entry member (components_injective (isPath.trans same))
      rw [same] at absent
      simp [absent, same]
    next other => simp [Ne.symm other]
  · intro path
    simp only [createDirAll, mem_append, mem_inits, laid.dirs, mem_singleton,
      or_and_right, exists_or, exists_eq_left, or_assoc]

theorem installRefs_cons (safe : isSafeRefname refname)
    (hex : isHexOid oid) : platform.installRefs ((refname, oid) :: rest) repo =
      platform.writeRef refname oid repo >>= platform.installRefs rest := by
  simp [Platform.installRefs, safe, hex]

variable {entries done : List (String × String)} {last : BareRepo}

theorem BareRepo.Tidy.install (tidy : repo.Tidy)
    (checked : ∀ entry ∈ entries, isSafeRefname entry.1 ∧ isHexOid entry.2)
    (installed : platform.installRefs entries repo = .ok last) :
    last.Tidy ∧ ∀ entry ∈ entries, platform.fits entry.1 := by
  induction entries generalizing repo with
  | nil =>
    cases installed
    exact ⟨tidy, nofun⟩
  | cons entry rest ih =>
    rw [forall_mem_cons] at checked ⊢
    rw [installRefs_cons checked.1.1 checked.1.2] at installed
    rcases bind_ok installed with ⟨next, written, more⟩
    have later := ih (tidy.write written) checked.2 more
    exact ⟨later.1, (writeRef_ok.mp written).2.1, later.2⟩

theorem BareRepo.Laid.install (laid : repo.Laid done)
    (checked : ∀ entry ∈ entries, isSafeRefname entry.1 ∧ isHexOid entry.2)
    (undotted : ∀ entry ∈ entries, ['.'] ∉ components entry.1)
    (distinct : ((done ++ entries).map Prod.fst).Nodup)
    (installed : platform.installRefs entries repo = .ok last) : last.Laid (done ++ entries) := by
  induction entries generalizing repo done with
  | nil =>
    cases installed
    rw [append_nil]
    exact laid
  | cons entry rest ih =>
    rw [forall_mem_cons] at checked undotted
    rw [installRefs_cons checked.1.1 checked.1.2] at installed
    rcases bind_ok installed with ⟨next, written, more⟩
    have new := new_of_nodup distinct
    rw [append_cons] at distinct ⊢
    exact ih (laid.write undotted.1 new written) checked.2 undotted.2 distinct more

theorem BareRepo.Laid.installs (laid : repo.Laid done)
    (checked : ∀ entry ∈ entries, isSafeRefname entry.1 ∧ isHexOid entry.2)
    (distinct : ((done ++ entries).map Prod.fst).Nodup)
    (fits : ∀ entry ∈ entries, platform.fits entry.1)
    (undotted : ∀ entry ∈ entries, ['.'] ∉ components entry.1)
    (unreserved : ∀ entry ∈ entries, components entry.1 ∉ initBareRepo.dirs)
    (apart : ∀ entry ∈ done ++ entries, ∀ other ∈ done ++ entries,
      components entry.1 <+: components other.1 → entry = other) :
    ∃ last, platform.installRefs entries repo = .ok last := by
  induction entries generalizing repo done with
  | nil => exact ⟨repo, rfl⟩
  | cons entry rest ih =>
    rw [forall_mem_cons] at checked fits undotted unreserved
    have here : entry ∈ done ++ entry :: rest := by simp
    have before : ∀ other ∈ done, other ∈ done ++ entry :: rest :=
      fun other member => mem_append_left _ member
    have own : ¬components entry.1 <+: (components entry.1).dropLast := by
      apply not_prefix_dropLast
      intro empty
      rw [empty] at unreserved
      exact unreserved.1 mem_cons_self
    have written : ∃ next, platform.writeRef entry.1 entry.2 repo = .ok next := by
      refine ⟨_, writeRef_ok.mpr ⟨?_, fits.1, ?_, ?_, rfl⟩⟩
      · intro dir leads
        rw [resolved_eq undotted.1] at leads
        cases isFile : repo.files.get dir with
        | none => rfl
        | some text =>
          rcases (laid.files dir text).mp isFile with ⟨other, member, rfl, -⟩
          have same := apart other (before other member) entry here
            (leads.trans ( dropLast_prefix _))
          rw [same] at leads
          exact absurd leads own
      · intro dotted
        exact undotted.1 (mem_of_getLast? dotted)
      · rw [resolved_eq undotted.1]
        simp only [createDirAll, mem_append, mem_inits, laid.dirs, not_or, not_exists]
        refine ⟨⟨unreserved.1, ?_⟩, own⟩
        rintro other ⟨member, leads⟩
        have same := apart entry here other (before other member)
          (leads.trans ( dropLast_prefix _))
        rw [← same] at leads
        exact own leads
    rcases written with ⟨next, written⟩
    rw [installRefs_cons checked.1.1 checked.1.2, written, ok_bind]
    have new := new_of_nodup distinct
    rw [append_cons] at distinct apart
    exact ih (laid.write undotted.1 new written) checked.2 distinct fits.2 undotted.2 unreserved.2
      apart

theorem tidy_init : initBareRepo.Tidy := ⟨nofun, nofun, fun _ member => member⟩

theorem laid_init : initBareRepo.Laid [] := by
  constructor <;> simp [initBareRepo, Keyed.empty, Keyed.get]

end install

theorem validateRefs_ok {entries : List (String × String)}
    (valid : validateRefs entries = .ok ()) :
    ∀ entry ∈ entries, isSafeRefname entry.1 ∧ isHexOid entry.2 := by
  induction entries with
  | nil => nofun
  | cons entry rest ih =>
    rw [validateRefs] at valid
    split at valid
    · cases valid
    · split at valid
      · cases valid
      next safe hex =>
        rw [forall_mem_cons]
        exact ⟨⟨by simpa using safe, by simpa using hex⟩, ih valid⟩

theorem validate_ok {manifest : Manifest} (valid : manifest.validate = .ok ()) :
    isSafeRefname manifest.head ∧
      ∀ entry ∈ manifest.refs.entries, isSafeRefname entry.1 ∧ isHexOid entry.2 := by
  simp only [Manifest.validate] at valid
  split at valid
  · cases valid
  · split at valid
    · cases valid
    · split at valid
      · cases valid
      · split at valid
        · cases valid
        next safe =>
          rcases bind_ok valid with ⟨⟨⟩, checked, -⟩
          exact ⟨by simpa using safe, validateRefs_ok checked⟩

theorem Refs.nodup (refs : Refs) : (refs.entries.map Prod.fst).Nodup :=
  pairwise_map.mpr (refs.sorted.imp ne_of_lt)

theorem mem_refs {path : RefPath} {oid : String} : (path, oid) ∈ platform.refs repo ↔
    ∃ text, repo.files.get path = some text ∧ platform.readRef path text = some oid := by
  simp [Platform.refs, Keyed.get_eq_some]

/-- A manifest comes back from the files just if the files can hold it. -/
theorem restores_iff_holds (platform : Platform) {manifest : Manifest}
    (valid : manifest.validate = .ok ()) :
    platform.Restores manifest ↔ platform.Holds manifest := by
  rcases validate_ok valid with ⟨safe, checked⟩
  have distinct : (([] ++ manifest.refs.entries).map Prod.fst).Nodup := manifest.refs.nodup
  have unique : ∀ entry ∈ manifest.refs.entries, ∀ other ∈ manifest.refs.entries,
      components entry.1 = components other.1 → entry = other :=
    fun _ member _ member' same =>
      inj_on_of_nodup_map manifest.refs.nodup member member' (components_injective same)
  constructor
  · rintro ⟨repo, materialized, exact_, head⟩
    rcases bind_ok materialized with ⟨last, installed, rest⟩
    rw [safe] at rest
    cases rest
    rcases tidy_init.install checked installed with ⟨tidy, fits⟩
    have stored : ∀ entry ∈ manifest.refs.entries, ∃ text,
        last.files.get (components entry.1) = some text ∧
          platform.readRef (components entry.1) text = some entry.2 :=
      fun entry member => mem_refs.mp ((exact_ _ _).mpr ⟨entry, member, rfl, rfl⟩)
    have undotted : ∀ entry ∈ manifest.refs.entries, ['.'] ∉ components entry.1 := by
      intro entry member
      rcases stored entry member with ⟨text, isFile, -⟩
      exact tidy.undotted _ text isFile
    have laid := laid_init.install checked undotted distinct installed
    refine ⟨fits, undotted, ?_, ?_, ?_, head⟩
    · intro entry member reserved
      rcases stored entry member with ⟨text, isFile, -⟩
      exact tidy.apart _ text isFile (tidy.initial _ reserved)
    · intro entry member other member' leads
      apply unique entry member other member'
      by_contra different
      rcases stored entry member with ⟨text, isFile, -⟩
      exact tidy.apart _ text isFile
        ((laid.dirs _).mpr (.inr ⟨other, member', prefix_dropLast leads different⟩))
    · intro entry member
      rcases stored entry member with ⟨text, isFile, isRead⟩
      rcases (laid.files _ text).mp isFile with ⟨other, member', same, rfl⟩
      rw [unique other member' entry member same] at isRead
      exact isRead
  · intro holds
    have apart := holds.apart
    rcases laid_init.installs checked distinct holds.fits holds.undotted holds.unreserved apart with
      ⟨last, installed⟩
    have laid := laid_init.install checked holds.undotted distinct installed
    refine ⟨{ last with head := "ref: " ++ manifest.head ++ "\n" }, ?_, ?_, holds.head⟩
    · rw [Platform.materialize, installed, ok_bind, safe]
      rfl
    · intro path oid
      rw [mem_refs]
      constructor
      · rintro ⟨text, isFile, isRead⟩
        rcases (laid.files path text).mp isFile with ⟨entry, member, rfl, rfl⟩
        exact ⟨entry, member, rfl, Option.some.inj ((holds.read entry member).symm.trans isRead)⟩
      · rintro ⟨entry, member, rfl, rfl⟩
        exact ⟨_, (laid.files _ _).mpr ⟨entry, member, rfl, rfl⟩, holds.read entry member⟩

def linePlatform : Platform where
  fits _ := true
  readRef _ text := some (String.ofList text.toList.dropLast)
  readHead text := some (String.ofList (text.toList.drop 5).dropLast)

def branch (names : List String) : Manifest where
  version := 1
  head := "refs/heads/a"
  refs := names.foldl (fun refs name => refs.insert name (String.ofList (replicate 40 'a'))) .empty
  packs := []
  parent := none

theorem restores_branch : linePlatform.Restores (branch ["refs/heads/a"]) := by
  apply (restores_iff_holds linePlatform (by decide +kernel)).mpr
  constructor <;> decide +kernel

/-- A ref whose name leads to that of another. -/
theorem not_restores : ¬ ∀ manifest : Manifest, manifest.validate = .ok () →
    linePlatform.Restores manifest := by
  intro always
  rcases always (branch ["refs/heads/a", "refs/heads/a/b"]) (by decide +kernel) with
    ⟨repo, materialized, -⟩
  rcases bind_ok materialized with ⟨last, installed, -⟩
  have failed : (linePlatform.installRefs (branch ["refs/heads/a", "refs/heads/a/b"]).refs.entries
      initBareRepo).isOk = false := by
    decide +kernel
  rw [installed] at failed
  cases failed

end Buzz.Git
