import Mathlib.Tactic

/-!
# Bit vectors bit by bit

Ways to build a vector that hardware descriptions use: setting bits in a loop, giving each bit, and
replacing the low bits of an address.  Positions on a ring, as a counter that wraps numbers them.
-/

namespace Bits

section

/-! The small index ranges have a zero: literals of them share these instances. -/

instance neZeroTwo : NeZero 2 := ⟨by decide⟩

instance neZeroFour : NeZero 4 := ⟨by decide⟩

instance neZeroEight : NeZero 8 := ⟨by decide⟩

end

/-- A loop that sets the bits for which `p` holds. -/
theorem getLsbD_foldl_range {w : Nat} (p : Nat → Prop) [DecidablePred p] (n k : Nat)
    (hn : n ≤ w) :
    ((List.range n).foldl (fun m i => if p i then m ||| (1#w <<< i) else m) 0).getLsbD k =
      (decide (k < n) && decide (p k)) := by
  induction n with
  | zero => simp
  | succ n ih =>
      rw [List.range_succ, List.foldl_append]
      simp only [List.foldl_cons, List.foldl_nil]
      have hbit : (1#w <<< n).getLsbD k = decide (k = n) := by
        rw [BitVec.getLsbD_shiftLeft]
        by_cases hk : k = n
        · subst hk
          simp
          omega
        · by_cases hlt : k < n
          · simp [hlt, hk]
          · have hsub : ¬k - n = 0 := by omega
            simp [hk, BitVec.getLsbD_one, hsub]
      have ih' := ih (by omega)
      generalize (List.range n).foldl _ (0 : BitVec w) = m at ih' ⊢
      rcases Nat.lt_trichotomy k n with hk | rfl | hk
      · have hne : ¬k = n := by omega
        split_ifs with hp <;> simp [ih', hbit, hk, hne, Nat.lt_succ_of_lt hk]
      · split_ifs with hp <;> simp [ih', hbit, hp]
      · have hne : ¬k = n := by omega
        have hnot : ¬k < n + 1 := by omega
        split_ifs with hp <;> simp [ih', hbit, hne, hnot, Nat.lt_asymm hk]

/-- The vector with given bits. -/
def ofBits (w : Nat) (f : Nat → Bool) : BitVec w :=
  (BitVec.ofBoolListLE ((List.range w).map f)).setWidth w

theorem getLsbD_ofBits {w : Nat} (f : Nat → Bool) {j : Nat} (hj : j < w) :
    (ofBits w f).getLsbD j = f j := by
  rw [ofBits, BitVec.getLsbD_setWidth, BitVec.getLsbD_ofBoolListLE]
  simp [hj]

/-- `base` with its low `k` bits replaced by those of `low`. -/
def insertLow (base k low : Nat) : Nat :=
  2 ^ k * (base / 2 ^ k) + low % 2 ^ k

theorem testBit_insertLow (base k low j : Nat) :
    (insertLow base k low).testBit j = if j < k then low.testBit j else base.testBit j := by
  unfold insertLow
  rw [Nat.testBit_two_pow_mul_add _ (Nat.mod_lt _ (by positivity))]
  split_ifs with hj
  · simp [Nat.testBit_mod_two_pow, hj]
  · rw [Nat.testBit_div_two_pow]
    congr 1
    omega

theorem toNat_append {m n : Nat} (x : BitVec m) (y : BitVec n) :
    (x ++ y).toNat = x.toNat * 2 ^ n + y.toNat := by
  rw [BitVec.toNat_append, ← Nat.shiftLeft_add_eq_or_of_lt y.isLt, Nat.shiftLeft_eq]

theorem toNat_zero_append {m n : Nat} (x : BitVec n) : (0#m ++ x).toNat = x.toNat := by
  rw [toNat_append]
  simp

theorem getLsbD_eq_div {w : Nat} (x : BitVec w) (j : Nat) :
    x.getLsbD j = decide (x.toNat / 2 ^ j % 2 = 1) := by
  rw [BitVec.getLsbD, Nat.testBit_eq_decide_div_mod_eq]

/-- Vectors that agree on a slice agree on a slice of it. -/
theorem extract_eq_of_extract_eq {w s n t m : Nat} {a b : BitVec w}
    (h : a.extractLsb' s n = b.extractLsb' s n) (hs : s ≤ t) (hm : t + m ≤ s + n) :
    a.extractLsb' t m = b.extractLsb' t m := by
  apply BitVec.eq_of_getLsbD_eq
  intro k hk
  have hbit := congrArg (fun v : BitVec n => v.getLsbD (t - s + k)) h
  simp only [BitVec.getLsbD_extractLsb', show t - s + k < n by omega,
    show s + (t - s + k) = t + k by omega, decide_true, Bool.true_and] at hbit
  simp [hk, hbit]

/-- On a ring of `2 ^ w` positions the next one is one nearer to any other. -/
theorem toNat_sub_succ {w : Nat} (hw : 0 < w) {x e : BitVec w} (h : x ≠ e) :
    (e - (x + 1)).toNat + 1 = (e - x).toNat := by
  have hsub : e - (x + 1) = e - x - 1 := by grind
  have hone : (1 : BitVec w).toNat = 1 := by simp [hw]
  have hne : e - x ≠ 0 := by grind
  have hpos : 0 < (e - x).toNat := by
    rw [Nat.pos_iff_ne_zero]
    exact fun h0 => hne (BitVec.eq_of_toNat_eq (by simpa using h0))
  rw [hsub, BitVec.toNat_sub_of_le (by rw [BitVec.le_def, hone]; omega), hone]
  omega

end Bits
