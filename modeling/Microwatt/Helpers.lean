import Microwatt.Lib.Bits

/-!
# Counting zeroes

`count_right_zeroes` of `helpers.vhdl`.  It finds the lowest set bit of a vector with its two's
complement: the high bits of the number come from the edge between zeroes and ones, the low two from
the vector that has only that bit.
-/

namespace Microwatt.Helpers

/-- Bit `i` of `bit_number`: the OR of the bits of `a` whose number has bit `i`. -/
def bitNumberBit (a : BitVec 64) (i : Nat) : Bool :=
  let stride := 2 ^ (i + 1)
  (List.range (64 / stride)).any fun j =>
    (List.range (stride / 2)).any fun t => a.getLsbD (j * stride + stride / 2 + t)

/-- `bit_number`: the number of the only set bit of a doubleword. -/
def bitNumber (a : BitVec 64) : BitVec 6 :=
  (List.range 6).foldl (fun ret i => if bitNumberBit a i then ret ||| (1#6 <<< i) else ret) 0

/-- Bit `i` of `edgelocation`. -/
def edgeBit (v : BitVec 64) (i : Nat) : Bool :=
  let stride := 2 ^ (i + 1)
  (List.range (64 / stride)).any fun j =>
    v.getLsbD (j * stride + stride - 1) && !v.getLsbD (j * stride + stride / 2 - 1)

/-- `edgelocation` with `nbits = 6`: the number of the lowest set bit of `1...10...0`. -/
def edgelocation (v : BitVec 64) : BitVec 6 :=
  (List.range 6).foldl (fun p i => if edgeBit v i then p ||| (1#6 <<< i) else p) 0

/-- `count_right_zeroes`. -/
def countRightZeroes {w : Nat} (val : BitVec w) : BitVec 6 :=
  let sum := -val
  let onehot := sum &&& val
  let edge := sum ||| val
  let bnE := edgelocation (edge.signExtend 64)
  let bnO := bitNumber (onehot.setWidth 64)
  bnE.extractLsb' 2 4 ++ bnO.extractLsb' 0 2

/-- `count_left_zeroes`, with `bit_reverse`. -/
def countLeftZeroes {w : Nat} (val : BitVec w) : BitVec 6 :=
  countRightZeroes val.reverse

/-- `k` is the number of the lowest set bit of `v`. -/
structure IsLowest {w : Nat} (v : BitVec w) (k : Nat) : Prop where
  set : v.getLsbD k = true
  below : ∀ j < k, v.getLsbD j = false

theorem IsLowest.lt {w : Nat} {v : BitVec w} {k : Nat} (h : IsLowest v k) : k < w :=
  BitVec.lt_of_getLsbD h.set

theorem exists_isLowest {w : Nat} {v : BitVec w} {j : Nat} (h : v.getLsbD j = true) :
    ∃ k ≤ j, IsLowest v k := by
  induction j using Nat.strongRecOn with
  | _ j ih =>
      by_cases hlow : ∃ i < j, v.getLsbD i = true
      · obtain ⟨i, hij, hi⟩ := hlow
        obtain ⟨k, hk, hl⟩ := ih i hij hi
        exact ⟨k, by omega, hl⟩
      · refine ⟨j, le_rfl, h, ?_⟩
        intro i hi
        by_contra hb
        exact hlow ⟨i, hi, by simpa using hb⟩

/-- `k` is the number of the highest set bit of `v`. -/
structure IsHighest {w : Nat} (v : BitVec w) (k : Nat) : Prop where
  set : v.getLsbD k = true
  above : ∀ j, k < j → v.getLsbD j = false

theorem exists_isLowest_of_ne_zero {w : Nat} {v : BitVec w} (h : v ≠ 0) : ∃ k, IsLowest v k := by
  obtain ⟨j, hj⟩ : ∃ j, v.getLsbD j = true := by
    by_contra hno
    apply h
    apply BitVec.eq_of_getLsbD_eq
    intro i hi
    by_contra hne
    exact hno ⟨i, by simpa using hne⟩
  obtain ⟨k, -, hk⟩ := exists_isLowest hj
  exact ⟨k, hk⟩

/-- The lowest bit of the reversed vector is the highest one. -/
theorem IsLowest.isHighest_of_reverse {w : Nat} {v : BitVec w} {k : Nat}
    (h : IsLowest v.reverse k) : IsHighest v (w - 1 - k) where
  set := by
    have hset := h.set
    rw [BitVec.getLsbD_reverse, BitVec.getMsbD, Bool.and_eq_true] at hset
    exact hset.2
  above := by
    intro j hj
    rcases Nat.lt_or_ge j w with hw | hw
    · have hbelow := h.below (w - 1 - j) (by omega)
      rw [BitVec.getLsbD_reverse, BitVec.getMsbD] at hbelow
      have hidx : w - 1 - (w - 1 - j) = j := by omega
      simpa [hidx, show w - 1 - j < w by omega] using hbelow
    · exact BitVec.getLsbD_of_ge v j hw

section

variable {w : Nat} {v : BitVec w} {k : Nat}

/-- The bits of the two's complement: as in `v` up to its lowest set bit, inverted above. -/
theorem IsLowest.getLsbD_neg (h : IsLowest v k) (j : Nat) :
    (-v).getLsbD j = (v.getLsbD j ^^ (decide (j < w) && decide (k < j))) := by
  rw [BitVec.getLsbD_neg]
  have hex : (∃ i < j, v.getLsbD i = true) ↔ k < j := by
    constructor
    · rintro ⟨i, hij, hi⟩
      by_contra hk
      have hb := h.below i (by omega)
      simp [hi] at hb
    · exact fun hk => ⟨k, hk, h.set⟩
  simp only [hex]

theorem IsLowest.onehot (h : IsLowest v k) (j : Nat) :
    (-v &&& v).getLsbD j = decide (j = k) := by
  rw [BitVec.getLsbD_and, h.getLsbD_neg]
  rcases Nat.lt_trichotomy j k with hj | rfl | hj
  · simp [h.below j hj, show ¬j = k by omega]
  · simp [h.set]
  · by_cases hw : j < w
    · simp [hj, hw, show ¬j = k by omega]
    · simp [hw, BitVec.getLsbD_of_ge v j (by omega), show ¬j = k by omega]

theorem IsLowest.edge (h : IsLowest v k) (j : Nat) :
    (-v ||| v).getLsbD j = (decide (k ≤ j) && decide (j < w)) := by
  rw [BitVec.getLsbD_or, h.getLsbD_neg]
  rcases Nat.lt_trichotomy j k with hj | rfl | hj
  · simp [h.below j hj, show ¬k ≤ j by omega, show ¬k < j by omega]
  · simp [h.set, h.lt]
  · by_cases hw : j < w
    · simp [hj, hw, show k ≤ j by omega]
    · simp [hw, BitVec.getLsbD_of_ge v j (by omega)]

/-- Bit `i` of `k` is set if `k` is in the upper half of a block of `2 ^ (i + 1)` numbers. -/
theorem testBit_iff_upper {i : Nat} (hk : k < 64) (hi : i < 6) :
    k.testBit i = true ↔ ∃ j < 64 / 2 ^ (i + 1),
      j * 2 ^ (i + 1) + 2 ^ (i + 1) / 2 ≤ k ∧ k < j * 2 ^ (i + 1) + 2 ^ (i + 1) := by
  rw [Nat.testBit_eq_decide_div_mod_eq, decide_eq_true_eq]
  constructor
  · intro hbit
    refine ⟨k / 2 ^ (i + 1), ?_⟩
    interval_cases i <;> simp only [Nat.reducePow, Nat.reduceAdd, Nat.reduceDiv] at * <;> omega
  · rintro ⟨j, hj, hlo, hhi⟩
    interval_cases i <;> simp only [Nat.reducePow, Nat.reduceAdd, Nat.reduceDiv] at * <;> omega

/-- The number of the only set bit. -/
theorem bitNumberBit_of_onehot {a : BitVec 64} {i : Nat} (ha : ∀ j, a.getLsbD j = decide (j = k))
    (hk : k < 64) (hi : i < 6) : bitNumberBit a i = k.testBit i := by
  rw [Bool.eq_iff_iff, testBit_iff_upper hk hi]
  simp only [bitNumberBit, List.any_eq_true, List.mem_range, ha, decide_eq_true_eq]
  have hhalf : 2 ^ (i + 1) / 2 + 2 ^ (i + 1) / 2 = 2 ^ (i + 1) := by
    rw [Nat.pow_succ]
    omega
  constructor
  · rintro ⟨j, hj, t, ht, heq⟩
    exact ⟨j, hj, by omega, by omega⟩
  · rintro ⟨j, hj, hlo, hhi⟩
    exact ⟨j, hj, k - (j * 2 ^ (i + 1) + 2 ^ (i + 1) / 2), by omega, by omega⟩

/-- The place of the edge. -/
theorem edgeBit_of_edge {e : BitVec 64} {i : Nat}
    (he : ∀ j, e.getLsbD j = (decide (k ≤ j) && decide (j < 64))) (hk : k < 64) (hi : i < 6) :
    edgeBit e i = k.testBit i := by
  rw [Bool.eq_iff_iff, testBit_iff_upper hk hi]
  simp only [edgeBit, List.any_eq_true, List.mem_range, he, Bool.and_eq_true, Bool.not_eq_true',
    Bool.and_eq_false_iff, decide_eq_true_eq, decide_eq_false_iff_not]
  have hblock : ∀ j < 64 / 2 ^ (i + 1), j * 2 ^ (i + 1) + 2 ^ (i + 1) ≤ 64 := by
    intro j hj
    interval_cases i <;> simp only [Nat.reducePow, Nat.reduceAdd, Nat.reduceDiv] at * <;> omega
  have hpos : 0 < 2 ^ (i + 1) / 2 := by
    rw [Nat.pow_succ]
    have : 0 < 2 ^ i := by positivity
    omega
  constructor
  · rintro ⟨j, hj, ⟨hlo, -⟩, hhi⟩
    have := hblock j hj
    exact ⟨j, hj, by omega, by omega⟩
  · rintro ⟨j, hj, hlo, hhi⟩
    have := hblock j hj
    exact ⟨j, hj, ⟨by omega, by omega⟩, by omega⟩

/-- `count_right_zeroes` of a vector of at most 64 bits that is not zero. -/
theorem IsLowest.countRightZeroes (h : IsLowest v k) (hw : w ≤ 64) :
    (countRightZeroes v).toNat = k := by
  have hk : k < 64 := lt_of_lt_of_le h.lt hw
  have hone : ∀ j, ((-v &&& v).setWidth 64).getLsbD j = decide (j = k) := by
    intro j
    rw [BitVec.getLsbD_setWidth, h.onehot]
    by_cases hj : j = k
    · simp [hj, hk]
    · simp [hj]
  have hedge : ∀ j, ((-v ||| v).signExtend 64).getLsbD j =
      (decide (k ≤ j) && decide (j < 64)) := by
    intro j
    rw [BitVec.getLsbD_signExtend, BitVec.msb_eq_getLsbD_last, h.edge, h.edge]
    have hlt := h.lt
    by_cases hj : j < w
    · simp [hj, show j < 64 by omega]
    · simp [hj, show k ≤ w - 1 by omega, show w - 1 < w by omega, show k ≤ j by omega]
  have hbit : ∀ i < 6, (Helpers.countRightZeroes v).getLsbD i = k.testBit i := by
    intro i hi
    simp only [Helpers.countRightZeroes, BitVec.getLsbD_append, BitVec.getLsbD_extractLsb',
      edgelocation, bitNumber]
    rw [Bits.getLsbD_foldl_range _ 6 _ le_rfl, Bits.getLsbD_foldl_range _ 6 _ le_rfl]
    split_ifs with hlow
    · simp only [Nat.zero_add, hlow, hi, decide_true, Bool.true_and, Bool.decide_eq_true]
      exact bitNumberBit_of_onehot hone hk hi
    · have hsum : 2 + (i - 2) = i := by omega
      simp only [hsum, show i - 2 < 4 by omega, hi, decide_true, Bool.true_and, Bool.decide_eq_true]
      exact edgeBit_of_edge hedge hk hi
  have heq : Helpers.countRightZeroes v = BitVec.ofNat 6 k := by
    apply BitVec.eq_of_getLsbD_eq
    intro i hi
    rw [hbit i hi, BitVec.getLsbD_ofNat]
    simp [hi]
  rw [heq, BitVec.toNat_ofNat, Nat.mod_eq_of_lt (by omega)]

/-- `count_right_zeroes` gives the number of the lowest set bit. -/
theorem isLowest_countRightZeroes (hw : w ≤ 64) (hne : v ≠ 0) :
    IsLowest v (countRightZeroes v).toNat := by
  obtain ⟨k, hk⟩ := exists_isLowest_of_ne_zero hne
  rw [hk.countRightZeroes hw]
  exact hk

/-- `count_left_zeroes` gives the number of zeroes above the highest set bit. -/
theorem isHighest_countLeftZeroes (hw : w ≤ 64) (hne : v ≠ 0) :
    (countLeftZeroes v).toNat < w ∧ IsHighest v (w - 1 - (countLeftZeroes v).toNat) := by
  have hne' : v.reverse ≠ 0 := fun h => hne (BitVec.reverse_eq_zero_iff.mp h)
  have hlow := isLowest_countRightZeroes hw hne'
  exact ⟨hlow.lt, hlow.isHighest_of_reverse⟩

end

end Microwatt.Helpers
