import Microwatt.Mmu.Reference
import Microwatt.Dcache.Lookup

/-!
# Addresses and fields of the walk

The shifter and the masks pick out of the registers what the recursion says: the index
into a table, the address of an entry, the real page number with the address bits of
a large page.
-/

namespace Microwatt.Mmu

variable (s : State)

theorem getLsbD_mask (k : Nat) :
    (mask s).getLsbD k =
      (decide (k < 16) && (decide (k < 5) || decide (k < s.maskSize.toNat))) := by
  unfold mask
  rw [Bits.getLsbD_foldl_range _ 16 k (le_refl 16)]
  simp

theorem getLsbD_finalmask (k : Nat) :
    (finalmask s).getLsbD k = (decide (k < 44) && decide (k < s.shift.toNat)) := by
  unfold finalmask
  rw [Bits.getLsbD_foldl_range _ 44 k (le_refl 44)]

/-- The three stages add up to one shift. -/
theorem getLsbD_addrsh (k : Nat) (hk : k < 16) (hlim : s.shift.toNat < 48)
    (htop : 12 + s.shift.toNat + k < 62) :
    (addrsh s).getLsbD k = s.addr.getLsbD (12 + s.shift.toNat + k) := by
  have hshift : s.shift.toNat =
      16 * (s.shift.extractLsb' 4 2).toNat + 4 * (s.shift.extractLsb' 2 2).toNat +
        (s.shift.extractLsb' 0 2).toNat := by
    simp only [BitVec.extractLsb'_toNat, Nat.shiftRight_eq_div_pow]
    omega
  have hb := (s.shift.extractLsb' 2 2).isLt
  have hc := (s.shift.extractLsb' 0 2).isLt
  have ha := (s.shift.extractLsb' 4 2).isLt
  rw [hshift] at htop hlim ⊢
  unfold addrsh
  generalize (s.shift.extractLsb' 4 2).toNat = a at *
  generalize (s.shift.extractLsb' 2 2).toNat = b at *
  generalize (s.shift.extractLsb' 0 2).toNat = c at *
  have hsh3 : ∀ x, (sh3 x c).getLsbD k = x.getLsbD (c + k) := by
    intro x
    interval_cases c <;> simp [sh3, hk]
  have hsh2 : ∀ x, (sh2 x b).getLsbD (c + k) = x.getLsbD (4 * b + (c + k)) := by
    intro x
    have hlt : c + k < 19 := by omega
    interval_cases b <;> simp [sh2, hlt]
  rw [hsh3, hsh2]
  have hlt : 4 * b + (c + k) < 31 := by omega
  have hidx : 12 + (16 * a + 4 * b + c) + k = 12 + 16 * a + (4 * b + (c + k)) := by omega
  rw [hidx] at htop ⊢
  generalize 4 * b + (c + k) = j at *
  interval_cases a
  · simp [sh1, hlt]
  · simp [sh1, hlt]
  · have hj : j < 18 := by omega
    simp [sh1, hlt, hj]
  · omega

/-- Bit `j` of the index into a table. -/
theorem testBit_index (ea : BitVec 64) (shift nls j : Nat) :
    (8 * (ea.toNat / 2 ^ shift % 2 ^ nls)).testBit j =
      (decide (3 ≤ j) && (decide (j - 3 < nls) && ea.getLsbD (shift + (j - 3)))) := by
  have h8 : 8 * (ea.toNat / 2 ^ shift % 2 ^ nls) = 2 ^ 3 * (ea.toNat / 2 ^ shift % 2 ^ nls) := rfl
  rw [h8, Nat.testBit_two_pow_mul, Nat.testBit_mod_two_pow, Nat.testBit_div_two_pow]
  simp only [BitVec.getLsbD, Nat.add_comm shift]

/-- The address of an entry of the tree. -/
theorem pgtableAddr_eq (hlo : 5 ≤ s.maskSize.toNat) (hhi : s.maskSize.toNat ≤ 16)
    (htop : s.shift.toNat + s.maskSize.toNat ≤ 50) :
    pgtableAddr s = BitVec.ofNat 64 (Bits.insertLow s.pgbase.toNat (s.maskSize.toNat + 3)
      (8 * (s.addr.toNat / 2 ^ (12 + s.shift.toNat) % 2 ^ s.maskSize.toNat))) := by
  apply BitVec.eq_of_getLsbD_eq
  intro j hj
  rw [BitVec.getLsbD_ofNat, Bits.testBit_insertLow, testBit_index]
  unfold pgtableAddr
  simp only [BitVec.getLsbD_append, BitVec.getLsbD_or, BitVec.getLsbD_and, BitVec.getLsbD_not,
    BitVec.getLsbD_extractLsb', getLsbD_mask, BitVec.getLsbD_zero]
  have hbase : s.pgbase.toNat.testBit j = s.pgbase.getLsbD j := rfl
  rw [hbase]
  by_cases h3 : j < 3
  · simp [h3]
    omega
  by_cases h19 : j < 19
  · have hlt : j - 3 < 16 := by omega
    have hsum : 3 + (j - 3) = j := by omega
    by_cases hm : j - 3 < s.maskSize.toNat
    · have haddr := getLsbD_addrsh s (j - 3) hlt (by omega) (by omega)
      have hjm : j < s.maskSize.toNat + 3 := by omega
      simp only [h3, hlt, hm, hjm, haddr, hj, show 3 ≤ j by omega, if_true, if_false, decide_true,
        Bool.true_and, Bool.and_true, Bool.or_true, Bool.not_true, Bool.and_false,
        Bool.false_or]
    · have hjm : ¬j < s.maskSize.toNat + 3 := by omega
      have h5 : ¬j - 3 < 5 := by omega
      simp [h3, hlt, hm, hjm, h5, hsum, hj]
  · have hjm : ¬j < s.maskSize.toNat + 3 := by omega
    by_cases h56 : j < 56
    · have hsum : 19 + (j - 3 - 16) = j := by omega
      simp [h3, hjm, hj, hsum, show ¬j - 3 < 16 by omega, show j - 3 - 16 < 37 by omega]
    · have hz : s.pgbase.getLsbD j = false := BitVec.getLsbD_of_ge _ _ (by omega)
      simp [h3, hjm, hz, show ¬j - 3 < 16 by omega, show ¬j - 3 - 16 < 37 by omega]

/-- The address of an entry of the process table. -/
theorem prtableAddr_eq (hshift : s.shift = 0#1 ++ s.prtbl.extractLsb' 0 5) :
    prtableAddr s = BitVec.ofNat 64 (Bits.insertLow (s.prtbl.extractLsb' 0 56).toNat
      (12 + min (s.prtbl.extractLsb' 0 5).toNat 24) (16 * (effpid s).toNat)) := by
  have hsize : s.shift.toNat = (s.prtbl.extractLsb' 0 5).toNat := by
    rw [hshift, Bits.toNat_zero_append]
  apply BitVec.eq_of_getLsbD_eq
  intro j hj
  have hpid : (16 * (effpid s).toNat).testBit j =
      (decide (4 ≤ j) && (effpid s).getLsbD (j - 4)) := by
    have h16 : 16 * (effpid s).toNat = 2 ^ 4 * (effpid s).toNat := rfl
    rw [h16, Nat.testBit_two_pow_mul]
    rfl
  have hbase : (s.prtbl.extractLsb' 0 56).toNat.testBit j =
      (decide (j < 56) && s.prtbl.getLsbD j) := by
    have hbit : (s.prtbl.extractLsb' 0 56).toNat.testBit j =
        (s.prtbl.extractLsb' 0 56).getLsbD j := rfl
    rw [hbit, BitVec.getLsbD_extractLsb', Nat.zero_add]
  rw [BitVec.getLsbD_ofNat, Bits.testBit_insertLow, hpid, hbase, ← hsize]
  unfold prtableAddr
  simp only [BitVec.getLsbD_append, BitVec.getLsbD_or, BitVec.getLsbD_and, BitVec.getLsbD_not,
    BitVec.getLsbD_extractLsb', getLsbD_finalmask, BitVec.getLsbD_zero]
  by_cases h4 : j < 4
  · simp [h4, show j < 12 + min s.shift.toNat 24 by omega]
  by_cases h12 : j < 12
  · simp [h4, hj, show j - 4 < 8 by omega, show j < 12 + min s.shift.toNat 24 by omega,
      show 4 ≤ j by omega]
  by_cases h36 : j < 36
  · have hsub : j - 4 - 8 = j - 12 := by omega
    have hidx : 12 + (j - 12) = j := by omega
    have hidx' : 8 + (j - 12) = j - 4 := by omega
    by_cases hlow : j - 12 < s.shift.toNat
    · simp [h4, hj, hsub, hidx', hlow, show ¬j - 4 < 8 by omega, show j - 12 < 24 by omega,
        show j - 12 < 44 by omega, show j < 12 + min s.shift.toNat 24 by omega,
        show 4 ≤ j by omega]
    · simp [h4, hj, hsub, hidx, hlow, show ¬j - 4 < 8 by omega, show j - 12 < 24 by omega,
        show ¬j < 12 + min s.shift.toNat 24 by omega, show j < 56 by omega]
  · have hsub : 36 + (j - 4 - 8 - 24) = j := by omega
    by_cases h56 : j < 56
    · simp [h4, hj, hsub, h56, show ¬j - 4 < 8 by omega, show ¬j - 4 - 8 < 24 by omega,
        show j - 4 - 8 - 24 < 20 by omega, show ¬j < 12 + min s.shift.toNat 24 by omega]
    · simp [h4, h56, show ¬j - 4 < 8 by omega, show ¬j - 4 - 8 < 24 by omega,
        show ¬j - 4 - 8 - 24 < 20 by omega, show ¬j < 12 + min s.shift.toNat 24 by omega]

/-- The address of the entry of the partition table. -/
theorem parttblAddr_eq :
    parttblAddr s = BitVec.ofNat 64 ((s.ptcr.extractLsb' 12 44).toNat * 2 ^ 12 + 8) := by
  apply BitVec.eq_of_toNat_eq
  unfold parttblAddr
  have hlt := (s.ptcr.extractLsb' 12 44).isLt
  rw [Bits.toNat_append, Bits.toNat_zero_append, BitVec.toNat_ofNat, BitVec.toNat_ofNat]
  omega

/-- What the segment check looks at. -/
theorem segment_eq_zero :
    (s.addr.extractLsb' 31 31 &&& ~~~((finalmask s).extractLsb' 0 31)) = 0 ↔
      s.addr.toNat % 2 ^ 62 / 2 ^ (31 + s.shift.toNat) = 0 := by
  have hbits : s.addr.toNat % 2 ^ 62 / 2 ^ (31 + s.shift.toNat) = 0 ↔
      ∀ k, s.shift.toNat ≤ k → k < 31 → s.addr.getLsbD (31 + k) = false := by
    constructor
    · intro hzero k hk hk'
      have hbit : (s.addr.toNat % 2 ^ 62 / 2 ^ (31 + s.shift.toNat)).testBit
          (k - s.shift.toNat) = false := by rw [hzero, Nat.zero_testBit]
      have hidx : k - s.shift.toNat + (31 + s.shift.toNat) = 31 + k := by omega
      rw [Nat.testBit_div_two_pow, hidx, Nat.testBit_mod_two_pow] at hbit
      have hlt : 31 + k < 62 := by omega
      simpa [hlt, BitVec.getLsbD] using hbit
    · intro hall
      apply Nat.eq_of_testBit_eq
      intro j
      rw [Nat.testBit_div_two_pow, Nat.testBit_mod_two_pow, Nat.zero_testBit]
      by_cases hlt : j + (31 + s.shift.toNat) < 62
      · have hbit := hall (j + s.shift.toNat) (by omega) (by omega)
        have hidx : 31 + (j + s.shift.toNat) = j + (31 + s.shift.toNat) := by omega
        rw [hidx] at hbit
        simpa [hlt, BitVec.getLsbD] using hbit
      · simp [hlt]
  rw [hbits]
  constructor
  · intro hzero k hk hk'
    have hbit : (s.addr.extractLsb' 31 31 &&& ~~~((finalmask s).extractLsb' 0 31)).getLsbD k =
        false := by simp [hzero]
    simpa [getLsbD_finalmask, hk', Nat.not_lt.mpr hk] using hbit
  · intro hall
    apply BitVec.eq_of_getLsbD_eq
    intro k hk
    by_cases hlow : k < s.shift.toNat
    · simp [getLsbD_finalmask, hk, hlow, show k < 44 by omega]
    · simp [hall k (by omega) hk]

/-- The entry for the DTLB has the page number of the leaf, with the address bits
within a large page filled in, and the attribute bits of the leaf. -/
theorem getLsbD_pte (k : Nat) (hk : k < 56) :
    (pte s).getLsbD k =
      if 12 ≤ k ∧ k < 12 + s.shift.toNat then s.addr.getLsbD k else s.pde.getLsbD k := by
  unfold pte
  simp only [BitVec.getLsbD_append, BitVec.getLsbD_or, BitVec.getLsbD_and, BitVec.getLsbD_not,
    BitVec.getLsbD_extractLsb', getLsbD_finalmask, BitVec.getLsbD_zero]
  by_cases h12 : k < 12
  · simp [h12]
  · have hidx : 12 + (k - 12) = k := by omega
    have hlt : k - 12 < 44 := by omega
    by_cases hlow : k - 12 < s.shift.toNat
    · simp [h12, hidx, hlt, hlow, show 12 ≤ k by omega, show k < 12 + s.shift.toNat by omega]
    · simp [h12, hidx, hlt, hlow, show ¬k < 12 + s.shift.toNat by omega]

end Microwatt.Mmu
