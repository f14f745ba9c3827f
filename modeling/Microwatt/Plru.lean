import Mathlib.Tactic

/-!
# Tree pseudo-LRU

`plrufn.vhdl`: a tree of `2 ^ BITS - 1` bits, one per inner node of a binary
tree with `2 ^ BITS` leaves.  Node `n` has the children `2 n + 1` and `2 n + 2`;
its bit says which of them is less recently used.
-/

namespace Microwatt.Plru

/-- The tree bits by node number. -/
abbrev Tree := Nat → Bool

/-- The child of `node` that `abit` selects. -/
def child (node : Nat) (abit : Bool) : Nat :=
  node * 2 + if abit then 2 else 1

/-- The loop of `get_lru` with `k` levels to go: follow the bits of the tree and
collect them, most significant first. -/
def getLruLoop (tree : Tree) : Nat → Nat → Nat → Nat
  | 0, _, lru => lru
  | k + 1, node, lru =>
      getLruLoop tree k (child node (tree node)) (2 * lru + (tree node).toNat)

/-- `get_lru`: the way to replace. -/
def getLru (bits : Nat) (tree : Tree) : Fin (2 ^ bits) :=
  Fin.ofNat (2 ^ bits) (getLruLoop tree bits 0 0)

/-- The loop of `update_lru` with `k` levels to go: every node on the path to
`acc` is made to point away from it. -/
def updateLruLoop (acc : Nat) : Nat → Nat → Tree → Tree
  | 0, _, tree => tree
  | k + 1, node, tree =>
      updateLruLoop acc k (child node (acc.testBit k))
        fun n => if n = node then !acc.testBit k else tree n

/-- `update_lru`: the tree after an access to way `acc`. -/
def updateLru (bits : Nat) (acc : Fin (2 ^ bits)) (tree : Tree) : Tree :=
  updateLruLoop acc bits 0 tree

/-! ## The loops, iteration by iteration -/

/-- `node` in iteration `i` of the loop of `get_lru`.  The last iteration of either
loop does not move it on. -/
def lruNode (tree : Tree) : Nat → Nat
  | 0 => 0
  | i + 1 => child (lruNode tree i) (tree (lruNode tree i))

/-- `abit` in iteration `i` of the loop of `update_lru`. -/
def accBit (bits acc i : Nat) : Bool :=
  acc.testBit (bits - 1 - i)

/-- `node` in iteration `i` of the loop of `update_lru`. -/
def accNode (bits acc : Nat) : Nat → Nat
  | 0 => 0
  | i + 1 => child (accNode bits acc i) (accBit bits acc i)

theorem child_true (node : Nat) : child node true = node * 2 + 2 := rfl

theorem child_false (node : Nat) : child node false = node * 2 + 1 := rfl

section Nodes

variable {bits a b : Nat} {tree : Tree}

/-- The nodes of level `i` are those from `2 ^ i - 1` on. -/
theorem child_level {node i : Nat} (h : 2 ^ i ≤ node + 1 ∧ node + 1 < 2 ^ (i + 1)) (abit : Bool) :
    2 ^ (i + 1) ≤ child node abit + 1 ∧ child node abit + 1 < 2 ^ (i + 2) := by
  rw [pow_succ] at h ⊢
  rw [pow_succ 2 (i + 1), pow_succ]
  cases abit <;> simp only [child_true, child_false] <;> omega

theorem lruNode_level (tree : Tree) (i : Nat) :
    2 ^ i ≤ lruNode tree i + 1 ∧ lruNode tree i + 1 < 2 ^ (i + 1) := by
  induction i with
  | zero => simp [lruNode]
  | succ i ih => exact child_level ih _

theorem accNode_level (bits acc i : Nat) :
    2 ^ i ≤ accNode bits acc i + 1 ∧ accNode bits acc i + 1 < 2 ^ (i + 1) := by
  induction i with
  | zero => simp [accNode]
  | succ i ih => exact child_level ih _

/-- A node of a level above the leaves is one of the tree. -/
theorem le_of_level {node i : Nat} (h : node + 1 < 2 ^ (i + 1)) (hi : i < bits) :
    node ≤ 2 ^ bits - 2 := by
  have hle : 2 ^ (i + 1) ≤ 2 ^ bits := Nat.pow_le_pow_right (by decide) hi
  omega

/-- Nodes of different levels are different. -/
theorem level_eq {n i j : Nat} (hi : 2 ^ i ≤ n ∧ n < 2 ^ (i + 1))
    (hj : 2 ^ j ≤ n ∧ n < 2 ^ (j + 1)) :
    i = j := by
  have h1 : Nat.log 2 n = i := Nat.log_eq_of_pow_le_of_lt_pow hi.1 hi.2
  have h2 : Nat.log 2 n = j := Nat.log_eq_of_pow_le_of_lt_pow hj.1 hj.2
  exact h1.symm.trans h2

theorem accNode_level_eq {i j : Nat} (h : accNode bits a i = accNode bits b j) : i = j :=
  level_eq (accNode_level bits a i) (h ▸ accNode_level bits b j)

theorem child_inj {n m : Nat} {x y : Bool} (h : child n x = child m y) : n = m ∧ x = y := by
  cases x <;> cases y <;> simp only [child_true, child_false] at h <;> constructor <;>
    first | rfl | omega

/-- Two paths that meet in a node have gone the same way up to there. -/
theorem accBit_eq_of_accNode_eq {i k : Nat} (h : accNode bits a i = accNode bits b i) (hk : k < i) :
    accBit bits a k = accBit bits b k := by
  induction i with
  | zero => omega
  | succ i ih =>
      obtain ⟨hnode, hbit⟩ := child_inj h
      rcases Nat.lt_succ_iff_lt_or_eq.mp hk with hlt | rfl
      · exact ih hnode hlt
      · exact hbit

theorem getLruLoop_eq (tree : Tree) (k node lru : Nat) :
    getLruLoop tree k node lru = 2 ^ k * lru + getLruLoop tree k node 0 ∧
      getLruLoop tree k node 0 < 2 ^ k := by
  induction k generalizing node lru with
  | zero => simp [getLruLoop]
  | succ k ih =>
      have hlru := (ih (child node (tree node)) (2 * lru + (tree node).toNat)).1
      obtain ⟨hbit, hlt⟩ := ih (child node (tree node)) (tree node).toNat
      have hle := Bool.toNat_le (tree node)
      simp only [getLruLoop, Nat.mul_zero, Nat.zero_add]
      rw [hlru, hbit, pow_succ]
      constructor
      · ring
      · nlinarith

/-- The bits of the victim are those of the nodes that the loop reads. -/
theorem testBit_getLruLoop (tree : Tree) (k i lru : Nat) {j : Nat} (hj : j < k) :
    (getLruLoop tree k (lruNode tree i) lru).testBit j = tree (lruNode tree (i + (k - 1 - j))) := by
  induction k generalizing i lru with
  | zero => omega
  | succ k ih =>
      have hnode : child (lruNode tree i) (tree (lruNode tree i)) = lruNode tree (i + 1) := rfl
      rw [getLruLoop, hnode]
      rcases Nat.lt_succ_iff_lt_or_eq.mp hj with hlt | rfl
      · have hlevel : i + 1 + (k - 1 - j) = i + (k + 1 - 1 - j) := by omega
        rw [ih _ _ hlt, hlevel]
      · have hlast : i + (j + 1 - 1 - j) = i := by omega
        rw [(getLruLoop_eq tree j _ _).1,
          Nat.testBit_two_pow_mul_add _ (getLruLoop_eq tree j _ 0).2, if_neg (Nat.lt_irrefl j),
          Nat.sub_self, hlast]
        cases tree (lruNode tree i) <;> simp

/-- An iteration of the loop of `update_lru`. -/
theorem updateLruLoop_succ {i k : Nat} (h : i + (k + 1) = bits) (tree : Tree) :
    updateLruLoop a (k + 1) (accNode bits a i) tree =
      updateLruLoop a k (accNode bits a (i + 1))
        fun n => if n = accNode bits a i then !accBit bits a i else tree n := by
  have hbit : a.testBit k = accBit bits a i := by
    unfold accBit
    congr 1
    omega
  rw [updateLruLoop, hbit]
  rfl

/-- The loop leaves alone what is not on its path. -/
theorem updateLruLoop_kept {i k n : Nat} (h : i + k = bits) (tree : Tree)
    (hn : ∀ j, i ≤ j → j < bits → n ≠ accNode bits a j) :
    updateLruLoop a k (accNode bits a i) tree n = tree n := by
  induction k generalizing i tree with
  | zero => rfl
  | succ k ih =>
      rw [updateLruLoop_succ h, ih (by omega) _ fun j hij hj => hn j (by omega) hj,
        if_neg (hn i le_rfl (by omega))]

/-- The loop makes the nodes of its path point away from the way. -/
theorem updateLruLoop_written {i k j : Nat} (h : i + k = bits) (tree : Tree) (hij : i ≤ j)
    (hj : j < bits) :
    updateLruLoop a k (accNode bits a i) tree (accNode bits a j) = !accBit bits a j := by
  induction k generalizing i tree with
  | zero => omega
  | succ k ih =>
      rw [updateLruLoop_succ h]
      rcases Nat.eq_or_lt_of_le hij with rfl | hlt
      · have hlater : ∀ l, i + 1 ≤ l → l < bits → accNode bits a i ≠ accNode bits a l := by
          intro l hl _ heq
          have := accNode_level_eq heq
          omega
        rw [updateLruLoop_kept (by omega) _ hlater, if_pos rfl]
      · exact ih (by omega) _ hlt

end Nodes

/-- What the loops of `plrufn` read and write, iteration by iteration. -/
structure Indexes (bits : Nat) (tree : Tree) (acc : Fin (2 ^ bits)) : Prop where
  lruNode_le : ∀ i < bits, lruNode tree i ≤ 2 ^ bits - 2
  read : ∀ i < bits, (getLru bits tree).val.testBit (bits - 1 - i) = tree (lruNode tree i)
  accNode_le : ∀ i < bits, accNode bits acc i ≤ 2 ^ bits - 2
  written : ∀ i < bits, updateLru bits acc tree (accNode bits acc i) = !accBit bits acc i
  kept : ∀ n, (∀ i < bits, n ≠ accNode bits acc i) → updateLru bits acc tree n = tree n

theorem indexes (bits : Nat) (tree : Tree) (acc : Fin (2 ^ bits)) : Indexes bits tree acc where
  lruNode_le i hi := le_of_level (lruNode_level tree i).2 hi
  read i hi := by
    have hlevel : 0 + (bits - 1 - (bits - 1 - i)) = i := by omega
    have hbit := testBit_getLruLoop tree bits 0 0 (show bits - 1 - i < bits by omega)
    rw [hlevel] at hbit
    unfold getLru
    simp only [Fin.ofNat, Nat.mod_eq_of_lt (getLruLoop_eq tree bits 0 0).2]
    exact hbit
  accNode_le i hi := le_of_level (accNode_level bits acc i).2 hi
  written i hi := updateLruLoop_written (Nat.zero_add bits) tree (Nat.zero_le i) hi
  kept n hn := updateLruLoop_kept (Nat.zero_add bits) tree fun j _ hj => hn j hj

/-! ## The victim -/

section Victim

variable {bits : Nat} {tree : Tree}

/-- The victim is the way that all nodes on its path point to. -/
theorem getLru_eq_iff (a : Fin (2 ^ bits)) :
    getLru bits tree = a ↔ ∀ i < bits, tree (accNode bits a i) = accBit bits a i := by
  have hnode : ∀ i ≤ bits, (∀ k < i, tree (lruNode tree k) = accBit bits a k) →
      lruNode tree i = accNode bits a i := by
    intro i
    induction i with
    | zero => exact fun _ _ => rfl
    | succ i ih =>
        intro hi hread
        rw [lruNode, hread i i.lt_succ_self, ih (by omega) fun k hk => hread k (by omega), accNode]
  constructor
  · intro h i hi
    have hread : ∀ k < bits, tree (lruNode tree k) = accBit bits a k := by
      intro k hk
      rw [← (indexes bits tree a).read k hk, h]
      rfl
    rw [← hnode i hi.le fun k hk => hread k (by omega)]
    exact hread i hi
  · intro h
    have hread : ∀ i ≤ bits, ∀ k < i, tree (lruNode tree k) = accBit bits a k := by
      intro i
      induction i with
      | zero => exact fun _ k hk => absurd hk (Nat.not_lt_zero k)
      | succ i ih =>
          intro hi k hk
          rw [hnode k (by omega) fun l hl => ih (by omega) l (by omega)]
          exact h k (by omega)
    apply Fin.ext
    apply Nat.eq_of_testBit_eq
    intro j
    by_cases hj : j < bits
    · have hlevel : bits - 1 - (bits - 1 - j) = j := by omega
      have hbit := (indexes bits tree a).read (bits - 1 - j) (by omega)
      rw [hread bits le_rfl _ (by omega), accBit, hlevel] at hbit
      exact hbit
    · have hpow : 2 ^ bits ≤ 2 ^ j := Nat.pow_le_pow_right (by decide) (by omega)
      rw [Nat.testBit_lt_two_pow ((getLru bits tree).isLt.trans_le hpow),
        Nat.testBit_lt_two_pow (a.isLt.trans_le hpow)]

/-- The root says in which half of the ways the victim is. -/
theorem getLru_lt_iff (hbits : 0 < bits) (tree : Tree) :
    (getLru bits tree).val < 2 ^ (bits - 1) ↔ tree 0 = false := by
  have hroot : (getLru bits tree).val.testBit (bits - 1) = tree 0 :=
    (indexes bits tree 0).read 0 hbits
  constructor
  · intro hlt
    rw [← hroot, Nat.testBit_lt_two_pow hlt]
  · intro hzero
    apply Nat.lt_pow_two_of_testBit
    intro j hj
    rcases Nat.eq_or_lt_of_le hj with rfl | hlt
    · rw [hroot, hzero]
    · have hpow : 2 ^ bits ≤ 2 ^ j := Nat.pow_le_pow_right (by decide) (by omega)
      exact Nat.testBit_lt_two_pow ((getLru bits tree).isLt.trans_le hpow)

/-- An access changes the victim exactly when it is to the victim's half of the
ways: the bits on the path to a victim in the other half stay as they are. -/
theorem getLru_updateLru_ne_iff (hbits : 0 < bits) (acc : Fin (2 ^ bits)) (tree : Tree) :
    getLru bits (updateLru bits acc tree) ≠ getLru bits tree ↔
      acc.val.testBit (bits - 1) = tree 0 := by
  have hpath := (getLru_eq_iff (getLru bits tree)).mp rfl
  have hwritten : updateLru bits acc tree 0 = !accBit bits acc 0 :=
    (indexes bits tree acc).written 0 hbits
  have hroot : tree 0 = accBit bits (getLru bits tree) 0 := hpath 0 hbits
  have hacc : acc.val.testBit (bits - 1) = accBit bits acc 0 := rfl
  rw [hacc]
  constructor
  · intro hne
    by_contra hother
    refine hne ((getLru_eq_iff _).mpr fun i hi => ?_)
    cases i with
    | zero =>
        show updateLru bits acc tree 0 = _
        rw [hwritten, ← hroot]
        cases h : tree 0 <;> simpa [h] using hother
    | succ i =>
        have hoff : ∀ j < bits, accNode bits (getLru bits tree) (i + 1) ≠ accNode bits acc j := by
          intro j _ hnode
          obtain rfl := accNode_level_eq hnode
          rw [hroot] at hother
          exact hother (accBit_eq_of_accNode_eq hnode i.succ_pos).symm
        rw [(indexes bits tree acc).kept _ hoff]
        exact hpath (i + 1) hi
  · intro hhalf heq
    have hnew : updateLru bits acc tree 0 = accBit bits (getLru bits tree) 0 :=
      (getLru_eq_iff _).mp heq 0 hbits
    rw [hwritten, ← hroot, hhalf] at hnew
    cases h : tree 0 <;> simp [h] at hnew

end Victim

end Microwatt.Plru
