import Mathlib.Data.Finset.Card
import Mathlib.Data.List.Basic
import Mathlib.Data.Nat.Find
import Mathlib.Logic.Function.Iterate

/-! Rooted trees kept as lists of named children with a parent link at every branch. -/

namespace MyOS

/--
A rooted tree over nodes in use, some of which are branches.

Every node but the root is the child of exactly one branch, in exactly one place, and a branch
that is a child links back to the branch that lists it.
-/
structure Forest {α ν : Type} (root : α) (used branch : α → Prop) (parent : α → α)
    (children : α → List (α × ν)) : Prop where
  rootBranch : branch root
  branchUsed : ∀ b, branch b → used b
  rootParent : parent root = root
  childUsed : ∀ b, branch b → ∀ child ∈ children b, used child.1
  childNotRoot : ∀ b, branch b → ∀ child ∈ children b, child.1 ≠ root
  linked : ∀ b, branch b → ∀ child ∈ children b, branch child.1 → parent child.1 = b
  covered : ∀ node, used node → node ≠ root → ∃ b, branch b ∧ ∃ child ∈ children b, child.1 = node
  once : ∀ {b c : α} {k l : Nat} {x y : α × ν}, branch b → branch c →
    (children b)[k]? = some x → (children c)[l]? = some y → x.1 = y.1 → b = c ∧ k = l

namespace Forest

variable {α ν : Type} {root : α} {used branch used' branch' : α → Prop} {parent : α → α}
  {children : α → List (α × ν)}

/-- The parent of a branch is a branch that lists it, unless it is the root. -/
theorem parent_lists (forest : Forest root used branch parent children) {b : α} (inner : branch b)
    (notRoot : b ≠ root) : branch (parent b) ∧ ∃ child ∈ children (parent b), child.1 = b := by
  -- The node is in use, so that some branch lists it, and it links back to that one.
  obtain ⟨holder, holds, child, member, rfl⟩ :=
    forest.covered b (forest.branchUsed b inner) notRoot
  rw [forest.linked holder holds child member inner]
  exact ⟨holds, child, member, rfl⟩

/-- The parent of a branch is a branch. -/
theorem parent_branch (forest : Forest root used branch parent children) {b : α}
    (inner : branch b) : branch (parent b) := by
  -- The root is its own parent.
  by_cases isRoot : b = root
  · rw [isRoot, forest.rootParent]
    exact forest.rootBranch
  · exact (forest.parent_lists inner isRoot).1

/-- Only nodes in use and branches matter. -/
theorem congr (forest : Forest root used branch parent children)
    (sameUsed : ∀ node, used' node ↔ used node) (sameBranch : ∀ node, branch' node ↔ branch node) :
    Forest root used' branch' parent children := by
  -- The sets of nodes are the same.
  obtain rfl : used' = used := funext fun node => propext (sameUsed node)
  obtain rfl : branch' = branch := funext fun node => propext (sameBranch node)
  exact forest

variable [DecidableEq α]

/-- The children of all branches once a new node was listed behind those of one of them. -/
def inserted (children : α → List (α × ν)) (holder node : α) (name : ν) : α → List (α × ν) :=
  Function.update (Function.update children node []) holder (children holder ++ [(node, name)])

section Inserted

variable {holder node : α} {name : ν}

/-- The branch that lists the new node. -/
theorem inserted_holder :
    inserted children holder node name holder = children holder ++ [(node, name)] :=
  Function.update_self ..

/-- A branch that is neither it nor the new node. -/
theorem inserted_elsewhere {x : α} (notHolder : x ≠ holder) (notNode : x ≠ node) :
    inserted children holder node name x = children x := by
  rw [inserted, Function.update_of_ne notHolder, Function.update_of_ne notNode]

/-- At every place stands what stood there, or the new node behind all others. -/
theorem getElem?_inserted (apart : node ≠ holder) {b : α} {k : Nat} {x : α × ν}
    (found : (inserted children holder node name b)[k]? = some x) :
    (b ≠ node ∧ (children b)[k]? = some x) ∨
      (b = holder ∧ k = (children holder).length ∧ x = (node, name)) := by
  by_cases here : b = holder
  · subst here
    rw [inserted_holder] at found
    by_cases inside : k < (children b).length
    · rw [List.getElem?_append_left inside] at found
      exact Or.inl ⟨apart.symm, found⟩
    · -- The place is that of the one node that was appended.
      rw [List.getElem?_append_right (Nat.le_of_not_lt inside)] at found
      obtain ⟨only, same⟩ := List.getElem?_eq_some_iff.mp found
      rw [List.length_singleton] at only
      refine Or.inr ⟨rfl, by omega, ?_⟩
      simp only [show k - (children b).length = 0 by omega, List.getElem_cons_zero] at same
      exact same.symm
  · by_cases new : b = node
    · -- The new node has no children yet.
      rw [new, inserted, Function.update_of_ne apart, Function.update_self,
        List.getElem?_nil] at found
      cases found
    · rw [inserted_elsewhere here new] at found
      exact Or.inl ⟨new, found⟩

end Inserted

/-- A new node, leaf or branch, can be listed behind the children of any branch. -/
theorem insert (forest : Forest root used branch parent children) {holder node : α} {name : ν}
    (holds : branch holder) (fresh : ¬ used node)
    (usedIff : ∀ x, used' x ↔ used x ∨ x = node)
    (branchMono : ∀ x, branch x → branch' x) (branchCases : ∀ x, branch' x → branch x ∨ x = node) :
    Forest root used' branch' (Function.update parent node holder)
      (inserted children holder node name) := by
  -- Nodes that were in use are not the new one.
  have old : ∀ {x}, used x → x ≠ node := fun usedX same => fresh (same ▸ usedX)
  have oldBranch : ∀ {x}, branch x → x ≠ node := fun inner => old (forest.branchUsed _ inner)
  -- A child of the new tree is an old child of the same branch, or the new node behind all others.
  have places : ∀ {b k x}, branch' b → (inserted children holder node name b)[k]? = some x →
      (branch b ∧ (children b)[k]? = some x) ∨
        (b = holder ∧ k = (children holder).length ∧ x = (node, name)) := fun inner found =>
    (getElem?_inserted (oldBranch holds).symm found).imp_left fun old =>
      ⟨(branchCases _ inner).resolve_right old.1, old.2⟩
  -- The same without positions.
  have cases : ∀ {b x}, branch' b → x ∈ inserted children holder node name b →
      (branch b ∧ x ∈ children b) ∨ (b = holder ∧ x = (node, name)) := by
    intro b x inner member
    obtain ⟨k, found⟩ := List.getElem?_of_mem member
    exact (places inner found).imp (fun old => ⟨old.1, List.mem_of_getElem? old.2⟩) fun new =>
      ⟨new.1, new.2.2⟩
  constructor
  -- The root was a branch, and branches stay.
  case rootBranch => exact branchMono _ forest.rootBranch
  case branchUsed =>
    intro b inner
    rw [usedIff]
    exact (branchCases b inner).imp (forest.branchUsed b) id
  case rootParent =>
    -- The new node is not the root, whose link stays.
    rw [Function.update_of_ne (oldBranch forest.rootBranch)]
    exact forest.rootParent
  case childUsed =>
    intro b inner x member
    rw [usedIff]
    rcases cases inner member with ⟨innerOld, memberOld⟩ | ⟨-, rfl⟩
    · exact Or.inl (forest.childUsed b innerOld x memberOld)
    · exact Or.inr rfl
  case childNotRoot =>
    intro b inner x member
    rcases cases inner member with ⟨innerOld, memberOld⟩ | ⟨-, rfl⟩
    · exact forest.childNotRoot b innerOld x memberOld
    · exact (oldBranch forest.rootBranch).symm
  case linked =>
    intro b inner x member innerX
    rcases cases inner member with ⟨innerOld, memberOld⟩ | ⟨rfl, rfl⟩
    · have notNew := old (forest.childUsed b innerOld x memberOld)
      -- The link of an old branch stays, and the new node links to its holder.
      rw [Function.update_of_ne notNew]
      exact forest.linked b innerOld x memberOld ((branchCases _ innerX).resolve_right notNew)
    · exact Function.update_self ..
  case covered =>
    intro x usedX notRoot
    -- An old node is listed where it was, and the new one behind the children of its holder.
    rcases (usedIff x).mp usedX with usedOld | rfl
    · obtain ⟨b, inner, child, member, same⟩ := forest.covered x usedOld notRoot
      refine ⟨b, branchMono b inner, child, ?_, same⟩
      by_cases here : b = holder
      · subst here
        rw [inserted_holder]
        exact List.mem_append_left _ member
      · rw [inserted_elsewhere here (oldBranch inner)]
        exact member
    · refine ⟨holder, branchMono _ holds, (x, name), ?_, rfl⟩
      rw [inserted_holder]
      exact List.mem_append_right _ List.mem_cons_self
  case once =>
    intro b c k l x y innerB innerC foundX foundY same
    -- Two places of one node are both old or both the new one.
    rcases places innerB foundX with ⟨oldB, oldX⟩ | ⟨rfl, rfl, rfl⟩
    · rcases places innerC foundY with ⟨oldC, oldY⟩ | ⟨rfl, rfl, rfl⟩
      · exact forest.once oldB oldC oldX oldY same
      · exact absurd same (old (forest.childUsed b oldB x (List.mem_of_getElem? oldX)))
    · rcases places innerC foundY with ⟨oldC, oldY⟩ | ⟨rfl, rfl, rfl⟩
      · exact absurd same.symm (old (forest.childUsed c oldC y (List.mem_of_getElem? oldY)))
      · exact ⟨rfl, rfl⟩

/-- The children of all branches once one of them was struck from its list. -/
def erased (children : α → List (α × ν)) (holder : α) (place : Nat) : α → List (α × ν) :=
  Function.update children holder ((children holder).eraseIdx place)

/-- A node without children of its own can be struck from the list it stands in. -/
theorem erase (forest : Forest root used branch parent children) {holder node : α} {name : ν}
    {place : Nat} (holds : branch holder) (found : (children holder)[place]? = some (node, name))
    (childless : branch node → children node = []) (usedIff : ∀ x, used' x ↔ used x ∧ x ≠ node)
    (branchIff : ∀ x, branch' x ↔ branch x ∧ x ≠ node) :
    Forest root used' branch' parent (erased children holder place) := by
  -- The struck node is a child, and so not the root.
  have notRoot : node ≠ root := forest.childNotRoot holder holds _ (List.mem_of_getElem? found)
  have listed : ∀ {b x}, x ∈ erased children holder place b → x ∈ children b := by
    intro b x member
    by_cases here : b = holder
    · subst here
      rw [erased, Function.update_self] at member
      exact List.mem_of_mem_eraseIdx member
    · rwa [erased, Function.update_of_ne here] at member
  -- Every place of the new lists is a place of the old ones, and not the struck one.
  have places : ∀ {b k x}, (erased children holder place b)[k]? = some x →
      ∃ l, (children b)[l]? = some x ∧ (b = holder → l = if k < place then k else k + 1) ∧
        (b ≠ holder → l = k) := by
    intro b k x at_
    by_cases here : b = holder
    · subst here
      rw [erased, Function.update_self, List.getElem?_eraseIdx] at at_
      split at at_
      · rename_i before
        exact ⟨k, at_, fun _ => (if_pos before).symm, fun other => absurd rfl other⟩
      · rename_i behind
        exact ⟨k + 1, at_, fun _ => (if_neg behind).symm, fun other => absurd rfl other⟩
    · rw [erased, Function.update_of_ne here] at at_
      exact ⟨k, at_, fun same => absurd same here, fun _ => rfl⟩
  -- The struck node stands in no other place.
  have gone : ∀ {b x}, branch b → x ∈ erased children holder place b → x.1 ≠ node := by
    intro b x inner member same
    obtain ⟨k, inside, at_⟩ := List.getElem_of_mem member
    obtain ⟨l, oldPlace, atHolder, -⟩ :=
      places ((List.getElem?_eq_getElem inside).trans (congrArg some at_))
    obtain ⟨rfl, rfl⟩ := forest.once inner holds oldPlace found same
    have shifted := atHolder rfl
    split at shifted <;> omega
  constructor
  -- The root is not struck.
  case rootBranch => exact (branchIff root).mpr ⟨forest.rootBranch, Ne.symm notRoot⟩
  case branchUsed =>
    intro b inner
    obtain ⟨innerOld, other⟩ := (branchIff b).mp inner
    exact (usedIff b).mpr ⟨forest.branchUsed b innerOld, other⟩
  case rootParent => exact forest.rootParent
  case childUsed =>
    intro b inner x member
    obtain ⟨innerOld, -⟩ := (branchIff b).mp inner
    exact (usedIff _).mpr ⟨forest.childUsed b innerOld x (listed member), gone innerOld member⟩
  case childNotRoot =>
    intro b inner x member
    exact forest.childNotRoot b ((branchIff b).mp inner).1 x (listed member)
  case linked =>
    intro b inner x member innerX
    exact forest.linked b ((branchIff b).mp inner).1 x (listed member) ((branchIff _).mp innerX).1
  case covered =>
    intro x usedX other
    obtain ⟨usedOld, notNode⟩ := (usedIff x).mp usedX
    obtain ⟨b, inner, child, member, same⟩ := forest.covered x usedOld other
    -- The branch that lists the node has a child, so it is not the struck one.
    have kept : b ≠ node := by
      rintro rfl
      rw [childless inner] at member
      cases member
    refine ⟨b, (branchIff b).mpr ⟨inner, kept⟩, child, ?_, same⟩
    by_cases here : b = holder
    · subst here
      rw [erased, Function.update_self]
      obtain ⟨k, inside, at_⟩ := List.getElem_of_mem member
      refine List.mem_eraseIdx_iff_getElem?.mpr ⟨k, ?_, (List.getElem?_eq_getElem inside).trans
        (congrArg some at_)⟩
      rintro rfl
      rw [List.getElem?_eq_getElem inside, at_, Option.some.injEq] at found
      rw [found] at same
      exact notNode same.symm
    · rw [erased, Function.update_of_ne here]
      exact member
  case once =>
    intro b c k l x y innerB innerC foundX foundY same
    obtain ⟨k', oldX, atX, offX⟩ := places foundX
    obtain ⟨l', oldY, atY, offY⟩ := places foundY
    obtain ⟨rfl, rfl⟩ := forest.once ((branchIff b).mp innerB).1 ((branchIff c).mp innerC).1
      oldX oldY same
    refine ⟨rfl, ?_⟩
    -- Both places are in the list that was shortened, or in another one.
    by_cases here : b = holder
    · have first := atX here
      have second := atY here
      split at first <;> split at second <;> omega
    · rw [← offX here, ← offY here]

end Forest

section Climbing

variable {α : Type} {branch : α → Prop} {parent : α → α}

/-- Going up from a branch only branches are met, if each has one for its parent. -/
theorem iterate_branch (climbs : ∀ b, branch b → branch (parent b)) {b : α} (inner : branch b)
    (n : Nat) : branch (parent^[n] b) := by
  -- By induction on the steps up.
  induction n with
  | zero => exact inner
  | succ n ih =>
    rw [Function.iterate_succ_apply']
    exact climbs _ ih

/-- A new parent link below a branch changes nothing about the way up from branches. -/
theorem iterate_update [DecidableEq α] (climbs : ∀ b, branch b → branch (parent b))
    {b holder node : α} (inner : branch b) (fresh : ¬ branch node) (n : Nat) :
    (Function.update parent node holder)^[n] b = parent^[n] b := by
  -- By induction on the steps, none of which meets the new node.
  induction n with
  | zero => rfl
  | succ n ih =>
    have other : parent^[n] b ≠ node := by
      rintro rfl
      exact fresh (iterate_branch climbs inner n)
    rw [Function.iterate_succ_apply', Function.iterate_succ_apply', ih, Function.update_of_ne other]

end Climbing

/-- The parent links lead to the root from everywhere. -/
def Grounded {α : Type} (root : α) (parent : α → α) : Prop := ∀ b, ∃ n, parent^[n] b = root

namespace Grounded

variable {α : Type} {root : α} {branch : α → Prop} {parent : α → α}

/-- A node that is no branch yet can be linked below any branch. -/
theorem update [DecidableEq α] (grounded : Grounded root parent)
    (climbs : ∀ b, branch b → branch (parent b)) {holder node : α} (holds : branch holder)
    (fresh : ¬ branch node) : Grounded root (Function.update parent node holder) := by
  obtain ⟨m, up⟩ := grounded holder
  have above : (Function.update parent node holder)^[m + 1] node = root := by
    rw [Function.iterate_succ_apply, Function.update_self, iterate_update climbs holds fresh, up]
  intro b
  obtain ⟨n, leads⟩ := grounded b
  -- The old way up is followed until it ends, or comes to the new link.
  induction n generalizing b with
  | zero => exact ⟨0, leads⟩
  | succ n ih =>
    by_cases here : b = node
    · exact ⟨m + 1, here ▸ above⟩
    · rw [Function.iterate_succ_apply] at leads
      obtain ⟨k, rest⟩ := ih (parent b) leads
      exact ⟨k + 1, by rw [Function.iterate_succ_apply, Function.update_of_ne here, rest]⟩

/-- The way up meets no node twice, so it is shorter than there are branches. -/
theorem exists_lt_card (grounded : Grounded root parent)
    (climbs : ∀ b, branch b → branch (parent b)) {nodes : Finset α}
    (inside : ∀ b, branch b → b ∈ nodes) {b : α} (inner : branch b) :
    ∃ n, n < nodes.card ∧ parent^[n] b = root := by
  classical
  let n := Nat.find (grounded b)
  have leads : parent^[n] b = root := Nat.find_spec (grounded b)
  have apart : Set.InjOn (fun k => parent^[k] b) (Finset.range (n + 1)) := by
    have later : ∀ i j, i < j → j ≤ n → parent^[i] b ≠ parent^[j] b := by
      intro i j before within same
      -- Leaving out the loop gives a shorter way.
      have shorter : parent^[n - j + i] b = root := by
        rw [Function.iterate_add_apply, same, ← Function.iterate_add_apply, Nat.sub_add_cancel within]
        exact leads
      exact Nat.find_min (grounded b) (show n - j + i < n by omega) shorter
    intro i memberI j memberJ same
    simp only [Finset.coe_range, Set.mem_Iio] at memberI memberJ
    by_contra other
    rcases Nat.lt_or_gt_of_ne other with before | behind
    · exact later i j before (by omega) same
    · exact later j i behind (by omega) same.symm
  have bound := Finset.card_le_card_of_injOn _
    (fun k _ => inside _ (iterate_branch climbs inner k)) apart
  rw [Finset.card_range] at bound
  exact ⟨n, bound, leads⟩

end Grounded

end MyOS
