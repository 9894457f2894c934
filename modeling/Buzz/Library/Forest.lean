import Mathlib.Data.List.Chain
import Mathlib.Data.Set.Insert

/-! Chains of content-addressed entries, newest first: each entry names the address of the one
before it. -/

namespace Buzz.Library.ParentChain

open List Option

variable {Entry Address : Type} (address : Entry → Address) (parent : Entry → Option Address)

def Linked : List Entry → Prop
  | [] => True
  | entry :: earlier => parent entry = earlier.head?.map address ∧ Linked earlier

variable {address parent}

theorem Linked.drop {chain : List Entry} (linked : Linked address parent chain) (n : Nat) :
    Linked address parent (chain.drop n) := by
  induction n generalizing chain with
  | zero => exact linked
  | succ n ih =>
    cases chain with
    | nil => exact trivial
    | cons entry earlier => exact ih linked.2

/-- Equal addresses would have equal ones before them, down to the first entry. -/
theorem Linked.nodup {chain : List Entry} (linked : Linked address parent chain)
    (addressed : ∀ first ∈ chain, ∀ second ∈ chain,
      address first = address second → parent first = parent second) :
    (chain.map address).Nodup := by
  induction chain with
  | nil => exact nodup_nil
  | cons entry earlier ih =>
    have distinct := ih linked.2 fun first known second member =>
      addressed first (mem_cons_of_mem entry known) second
        (mem_cons_of_mem entry member)
    rw [map_cons]
    apply nodup_cons.mpr
    refine ⟨?_, distinct⟩
    intro repeated
    rcases mem_map.mp repeated with ⟨other, member, same⟩
    rcases append_of_mem member with ⟨newer, older, split⟩
    have otherParent : parent other = older.head?.map address := by
      have tail := linked.2.drop newer.length
      rw [split, drop_left] at tail
      exact tail.1
    have equal := addressed entry mem_cons_self other
      (mem_cons_of_mem entry member) same.symm
    rw [linked.1, otherParent, split] at equal
    rw [split] at distinct
    cases newer with
    | nil =>
      cases older with
      | nil => cases equal
      | cons next rest =>
        simp only [nil_append, head?_cons, map_some,
          Option.some.injEq] at equal
        simp only [nil_append, map_cons, nodup_cons] at distinct
        apply distinct.1
        rw [equal]
        exact mem_cons_self
    | cons newest between =>
      cases older with
      | nil => cases equal
      | cons next rest =>
        simp only [cons_append, head?_cons, map_some,
          Option.some.injEq] at equal
        simp only [cons_append, map_cons, map_append,
          nodup_cons] at distinct
        apply distinct.1
        rw [equal]
        apply mem_append_right
        exact mem_cons_of_mem _ mem_cons_self

end Buzz.Library.ParentChain

/-! Contiguous segments of a list whose links determine the successor: a list of its members
in which neighbours are linked is one of its segments. -/

namespace Buzz.Library.LinkedSegment

open List

variable {α : Type*}

def segment (start length : ℕ) (chain : List α) : List α := (chain.drop start).take length

variable {chain : List α} {start length : ℕ}

theorem segment_members {x : α} (member : x ∈ segment start length chain) : x ∈ chain :=
  mem_of_mem_drop (mem_of_mem_take member)

variable {link : α → α → Prop}

theorem segment_isChain (linked : chain.IsChain link)
    (start length : ℕ) : (segment start length chain).IsChain link :=
  (linked.drop start).take length

theorem segment_length (within : start + length ≤ chain.length) :
    (segment start length chain).length = length := by
  simp only [segment, length_take, length_drop]
  omega

theorem segment_succ (bound : start < chain.length) :
    segment start (length + 1) chain = chain[start] :: segment (start + 1) length chain := by
  unfold segment
  rw [drop_eq_getElem_cons bound, take_succ_cons]

theorem segment_of_linked (successor : ∀ i j (first : i < chain.length) (second : j < chain.length),
      link chain[i] chain[j] → j = i + 1) {found : List α} (members : ∀ x ∈ found, x ∈ chain)
    (linked : found.IsChain link) (nonempty : found ≠ []) :
    ∃ start, start + found.length ≤ chain.length ∧ found = segment start found.length chain := by
  induction found with
  | nil => exact absurd rfl nonempty
  | cons head tail ih =>
    obtain ⟨index, bound, here⟩ := getElem_of_mem (members head mem_cons_self)
    cases tail with
    | nil =>
      refine ⟨index, bound, ?_⟩
      rw [length_singleton, segment_succ bound, here]
      simp [segment]
    | cons next rest =>
      obtain ⟨start, within, shape⟩ := ih
        (fun x member => members x (mem_cons_of_mem head member)) linked.tail (by simp)
      have startBound : start < chain.length := by
        rw [length_cons] at within
        omega
      have nextHere : next = chain[start] := by
        rw [length_cons, segment_succ startBound, List.cons.injEq] at shape
        exact shape.1
      have follows : start = index + 1 := by
        apply successor index start bound startBound
        rw [here, ← nextHere]
        exact (isChain_cons.mp linked).1 next rfl
      subst follows
      refine ⟨index, ?_, ?_⟩
      · rw [length_cons]
        omega
      · rw [length_cons, segment_succ bound, here, ← shape]

theorem filter_numbered {key : α → ℤ}
    (numbered : ∀ i (bound : i < chain.length), key chain[i] = i + 1) {first last : ℕ}
    (positive : 1 ≤ first) (within : last ≤ chain.length) :
    chain.filter (fun x => (first : ℤ) ≤ key x && key x ≤ (last : ℤ)) =
      segment (first - 1) (last + 1 - first) chain := by
  let keep (x : α) := (first : ℤ) ≤ key x && key x ≤ (last : ℤ)
  have before : (chain.take (first - 1)).filter keep = [] := by
    rw [filter_eq_nil_iff]
    intro x member
    obtain ⟨i, bound, rfl⟩ := getElem_of_mem member
    rw [length_take] at bound
    simp only [keep, getElem_take, numbered i (by omega)]
    simp only [Bool.and_eq_true, decide_eq_true_eq]
    omega
  have inside : (segment (first - 1) (last + 1 - first) chain).filter keep =
      segment (first - 1) (last + 1 - first) chain := by
    rw [filter_eq_self]
    intro x member
    obtain ⟨i, bound, rfl⟩ := getElem_of_mem member
    simp only [segment, length_take, length_drop] at bound
    simp only [keep, segment, getElem_take, getElem_drop]
    rw [numbered (first - 1 + i) (by omega)]
    simp only [Bool.and_eq_true, decide_eq_true_eq]
    omega
  have after : ((chain.drop (first - 1)).drop (last + 1 - first)).filter keep = [] := by
    rw [filter_eq_nil_iff]
    intro x member
    obtain ⟨i, bound, rfl⟩ := getElem_of_mem member
    simp only [length_drop] at bound
    simp only [keep, getElem_drop]
    rw [numbered _ (by omega)]
    simp only [Bool.and_eq_true, decide_eq_true_eq]
    omega
  calc
    chain.filter keep =
        (chain.take (first - 1) ++ (segment (first - 1) (last + 1 - first) chain ++
          (chain.drop (first - 1)).drop (last + 1 - first))).filter keep := by
      rw [segment, take_append_drop, take_append_drop]
    _ = segment (first - 1) (last + 1 - first) chain := by
      rw [filter_append, filter_append, before, inside, after, nil_append,
        append_nil]

end Buzz.Library.LinkedSegment

/-! Forests of nodes that carry the root and the depth of their tree beside the parent. -/

namespace Buzz.Library.Forest

structure Node (Id : Type) where
  id : Id
  parent : Option Id
  root : Option Id
  depth : ℤ
  deriving DecidableEq

def Node.top {Id : Type} (id : Id) : Node Id := ⟨id, none, none, 0⟩

variable {Id Scope : Type}

structure Node.ChildOf (node parentNode : Node Id) : Prop where
  parent : node.parent = some parentNode.id
  root : node.root = some (parentNode.root.getD parentNode.id)
  depth : node.depth = parentNode.depth + 1

structure Sound (scope : Id → Option Scope) (limit : ℤ) (nodes : Set (Node Id)) : Prop where
  agree : ∀ node ∈ nodes, ∀ other ∈ nodes, node.id = other.id → node = other
  top : ∀ node ∈ nodes, node.parent = none → node = Node.top node.id
  placed : ∀ node ∈ nodes, scope node.id ≠ none
  child : ∀ node ∈ nodes, node.parent ≠ none →
    ∃ parentNode ∈ nodes, node.ChildOf parentNode ∧ scope parentNode.id = scope node.id
  rooted : ∀ node ∈ nodes, ∀ root, node.root = some root →
    Node.top root ∈ nodes ∧ scope root = scope node.id
  bounded : ∀ node ∈ nodes, node.depth ≤ limit

namespace Sound

variable {scope : Id → Option Scope} {limit : ℤ} {nodes : Set (Node Id)} {node parentNode : Node Id}

theorem empty : Sound scope limit (∅ : Set (Node Id)) where
  agree _ member := nomatch member
  top _ member := nomatch member
  placed _ member := nomatch member
  child _ member := nomatch member
  rooted _ member := nomatch member
  bounded _ member := nomatch member

section

variable (sound : Sound scope limit nodes)

include sound

theorem rescope {other : Id → Option Scope}
    (same : ∀ node ∈ nodes, other node.id = scope node.id) : Sound other limit nodes := { sound with
  placed node member := by rw [same node member]; exact sound.placed node member
  child node member isChild := by
    obtain ⟨parentNode, isParent, childOf, inScope⟩ := sound.child node member isChild
    refine ⟨parentNode, isParent, childOf, ?_⟩
    rw [same node member, same parentNode isParent, inScope]
  rooted node member root isRoot := by
    have known := sound.rooted node member root isRoot
    have sameRoot : other root = scope root := same (Node.top root) known.1
    exact ⟨known.1, by rw [sameRoot, same node member, known.2]⟩ }

theorem insert_top {id : Id} (placed : scope id ≠ none)
    (noChild : ∀ node ∈ nodes, node.id = id → node.parent = none) (positive : 0 ≤ limit) :
    Sound scope limit (insert (Node.top id) nodes) where
  agree node member other isOther same := by
    have isTop : ∀ node ∈ nodes, node.id = id → node = Node.top id := by
      intro node member same
      rw [sound.top node member (noChild node member same), same]
    rcases Set.mem_insert_iff.mp member with rfl | member <;>
      rcases Set.mem_insert_iff.mp isOther with rfl | isOther
    · rfl
    · exact (isTop other isOther same.symm).symm
    · exact isTop node member same
    · exact sound.agree node member other isOther same
  top node member noParent := by
    rcases Set.mem_insert_iff.mp member with rfl | member
    · rfl
    · exact sound.top node member noParent
  placed node member := by
    rcases Set.mem_insert_iff.mp member with rfl | member
    · exact placed
    · exact sound.placed node member
  child node member isChild := by
    rcases Set.mem_insert_iff.mp member with rfl | member
    · exact absurd rfl isChild
    · obtain ⟨parentNode, isParent, known⟩ := sound.child node member isChild
      exact ⟨parentNode, Set.mem_insert_of_mem _ isParent, known⟩
  rooted node member root isRoot := by
    rcases Set.mem_insert_iff.mp member with rfl | member
    · cases isRoot
    · have known := sound.rooted node member root isRoot
      exact ⟨Set.mem_insert_of_mem _ known.1, known.2⟩
  bounded node member := by
    rcases Set.mem_insert_iff.mp member with rfl | member
    · exact positive
    · exact sound.bounded node member

theorem rooted_of_childOf (isParent : parentNode ∈ nodes)
    (childOf : node.ChildOf parentNode) (inScope : scope parentNode.id = scope node.id) {root : Id}
    (isRoot : node.root = some root) : Node.top root ∈ nodes ∧ scope root = scope node.id := by
  rw [childOf.root, Option.some.injEq] at isRoot
  cases known : parentNode.root with
  | none =>
    rw [known, Option.getD_none] at isRoot
    subst isRoot
    have noParent : parentNode.parent = none := by
      by_contra isChild
      obtain ⟨above, -, aboveOf, -⟩ := sound.child parentNode isParent isChild
      exact nomatch aboveOf.root.symm.trans known
    exact ⟨sound.top parentNode isParent noParent ▸ isParent, inScope⟩
  | some top =>
    rw [known, Option.getD_some] at isRoot
    subst isRoot
    have above := sound.rooted parentNode isParent top known
    exact ⟨above.1, above.2.trans inScope⟩

theorem insert_child (isParent : parentNode ∈ nodes)
    (childOf : node.ChildOf parentNode) (inScope : scope parentNode.id = scope node.id)
    (fresh : ∀ other ∈ nodes, other.id ≠ node.id) (bounded : node.depth ≤ limit) :
    Sound scope limit (insert node nodes) where
  agree first isFirst second isSecond same := by
    rcases Set.mem_insert_iff.mp isFirst with rfl | firstOld <;>
      rcases Set.mem_insert_iff.mp isSecond with rfl | secondOld
    · rfl
    · exact absurd same.symm (fresh second secondOld)
    · exact absurd same (fresh first firstOld)
    · exact sound.agree first firstOld second secondOld same
  top other member noParent := by
    rcases Set.mem_insert_iff.mp member with rfl | member
    · exact nomatch childOf.parent.symm.trans noParent
    · exact sound.top other member noParent
  placed other member := by
    rcases Set.mem_insert_iff.mp member with rfl | member
    · exact inScope ▸ sound.placed parentNode isParent
    · exact sound.placed other member
  child other member isChild := by
    rcases Set.mem_insert_iff.mp member with rfl | member
    · exact ⟨parentNode, Set.mem_insert_of_mem _ isParent, childOf, inScope⟩
    · obtain ⟨above, isAbove, known⟩ := sound.child other member isChild
      exact ⟨above, Set.mem_insert_of_mem _ isAbove, known⟩
  rooted other member root isRoot := by
    rcases Set.mem_insert_iff.mp member with rfl | member
    · have known := sound.rooted_of_childOf isParent childOf inScope isRoot
      exact ⟨Set.mem_insert_of_mem _ known.1, known.2⟩
    · have known := sound.rooted other member root isRoot
      exact ⟨Set.mem_insert_of_mem _ known.1, known.2⟩
  bounded other member := by
    rcases Set.mem_insert_iff.mp member with rfl | member
    · exact bounded
    · exact sound.bounded other member

end

end Sound

end Buzz.Library.Forest
