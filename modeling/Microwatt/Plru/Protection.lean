import Microwatt.Lib.Bits
import Microwatt.Plru

/-!
# Recently used ways are not replaced

Both loops of `plrufn` go down the tree one level in each iteration.  An access makes every node on
the path to its way point away from the way.  A later access to another way makes exactly one of
these nodes point back, the one at which the two paths part, and the way is the victim only when all
of them do.  So the number of nodes that point towards a way is a potential that an access raises by
at most one.
-/

namespace Microwatt.Plru

/-! ## The potential -/

/-- The levels at which the path to way `a` is the one that the tree points to. -/
def towards (bits a : Nat) (tree : Tree) : Finset Nat :=
  (Finset.range bits).filter fun i => tree (accNode bits a i) = accBit bits a i

/-- The level at which the paths to two ways part. -/
def parting (bits a b : Nat) : Finset Nat :=
  (Finset.range bits).filter fun i =>
    accNode bits a i = accNode bits b i ∧ accBit bits a i ≠ accBit bits b i

section Potential

variable {bits : Nat} {tree : Tree} (a b : Fin (2 ^ bits))

theorem card_parting_le : (parting bits a b).card ≤ 1 := by
  rw [Finset.card_le_one]
  intro i hi j hj
  simp only [parting, Finset.mem_filter] at hi hj
  rcases Nat.lt_trichotomy i j with hlt | heq | hlt
  · exact absurd (accBit_eq_of_accNode_eq hj.2.1 hlt) hi.2.2
  · exact heq
  · exact absurd (accBit_eq_of_accNode_eq hi.2.1 hlt) hj.2.2

theorem towards_updateLru_self (tree : Tree) : towards bits a (updateLru bits a tree) = ∅ := by
  rw [towards, Finset.filter_eq_empty_iff]
  intro i hi
  rw [(indexes bits tree a).written i (Finset.mem_range.mp hi)]
  cases accBit bits a i <;> decide

/-- Only the node at which the paths part can be turned back. -/
theorem towards_updateLru_subset (tree : Tree) :
    towards bits a (updateLru bits b tree) ⊆ towards bits a tree ∪ parting bits a b := by
  intro i hi
  simp only [towards, parting, Finset.mem_union, Finset.mem_filter] at hi ⊢
  obtain ⟨hlevel, htowards⟩ := hi
  have hlt := Finset.mem_range.mp hlevel
  by_cases hnode : accNode bits a i = accNode bits b i
  · rw [hnode, (indexes bits tree b).written i hlt] at htowards
    refine Or.inr ⟨hlevel, hnode, fun heq => ?_⟩
    rw [heq] at htowards
    cases h : accBit bits b i <;> simp [h] at htowards
  · have hoff : ∀ j < bits, accNode bits a i ≠ accNode bits b j := by
      intro j _ heq
      exact hnode (by rw [heq, accNode_level_eq heq])
    rw [(indexes bits tree b).kept _ hoff] at htowards
    exact Or.inl ⟨hlevel, htowards⟩

/-- An access raises the potential by at most one. -/
theorem card_towards_updateLru_le (tree : Tree) :
    (towards bits a (updateLru bits b tree)).card ≤ (towards bits a tree).card + 1 :=
  calc (towards bits a (updateLru bits b tree)).card
      ≤ (towards bits a tree ∪ parting bits a b).card :=
        Finset.card_le_card (towards_updateLru_subset a b tree)
    _ ≤ (towards bits a tree).card + (parting bits a b).card := Finset.card_union_le _ _
    _ ≤ (towards bits a tree).card + 1 := Nat.add_le_add_left (card_parting_le a b) _

theorem towards_eq_of_victim (h : getLru bits tree = a) : (towards bits a tree).card = bits := by
  have hall : towards bits a tree = Finset.range bits := by
    rw [towards, Finset.filter_eq_self]
    intro i hi
    exact (getLru_eq_iff a).mp h i (Finset.mem_range.mp hi)
  rw [hall, Finset.card_range]

/-- The tree after some accesses. -/
def afterAccesses (bits : Nat) (tree : Tree) (ways : List (Fin (2 ^ bits))) : Tree :=
  ways.foldl (fun tree way => updateLru bits way tree) tree

theorem card_towards_afterAccesses_le (tree : Tree) (ways : List (Fin (2 ^ bits))) :
    (towards bits a (afterAccesses bits tree ways)).card ≤ (towards bits a tree).card +
      ways.length := by
  induction ways generalizing tree with
  | nil => exact le_rfl
  | cons way ways ih =>
      calc (towards bits a (afterAccesses bits tree (way :: ways))).card
          ≤ (towards bits a (updateLru bits way tree)).card + ways.length := ih _
        _ ≤ (towards bits a tree).card + 1 + ways.length :=
            Nat.add_le_add_right (card_towards_updateLru_le a way tree) _
        _ = (towards bits a tree).card + (way :: ways).length := by
            rw [List.length_cons]
            omega

end Potential

/-- `plrufn` stays in its tree, and a way is not the victim before `bits` other accesses. -/
theorem plrufn_protects (bits : Nat) (tree : Tree) (a : Fin (2 ^ bits)) :
    (∀ acc, Indexes bits tree acc) ∧
      ∀ later : List (Fin (2 ^ bits)), later.length < bits →
        getLru bits (afterAccesses bits (updateLru bits a tree) later) ≠ a := by
  refine ⟨indexes bits tree, fun later hlen hvictim => ?_⟩
  have hall := towards_eq_of_victim a hvictim
  have hle := card_towards_afterAccesses_le a (updateLru bits a tree) later
  rw [towards_updateLru_self, Finset.card_empty] at hle
  omega

/-- Way 5 of eight stays after two other accesses; after a third one it is the victim. -/
theorem plrufn_protects_eight :
    getLru 3 (afterAccesses 3 (updateLru 3 5 fun _ => true) [4, 7]) ≠ 5 ∧
      getLru 3 (afterAccesses 3 (updateLru 3 5 fun _ => true) [4, 7, 1]) = 5 :=
  ⟨(plrufn_protects 3 (fun _ => true) 5).2 [4, 7] (by decide), by decide⟩

end Microwatt.Plru
