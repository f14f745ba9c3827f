import Microwatt.Lib.Binary32
import Microwatt.Loadstore1.Step

/-!
# Single-precision loads and stores

`sp_to_dp` gives the double of every single-precision word, with the leading zeroes that stage 3
counts, and `dp_to_sp` takes it back.
-/

namespace Microwatt.Loadstore1

/-! ## The fields of a double -/

section

variable (sg : BitVec 1) (e : BitVec 11) (f : BitVec 23)

theorem toNat_double : (sg ++ e ++ f ++ 0#29).toNat =
    sg.toNat * 2 ^ 63 + e.toNat * 2 ^ 52 + f.toNat * 2 ^ 29 := by
  rw [Bits.toNat_append, Bits.toNat_append, Bits.toNat_append]
  simp only [BitVec.toNat_ofNat]
  omega

theorem sign_double : Binary64.sign (sg ++ e ++ f ++ 0#29) = sg.getLsbD 0 := by
  have hs := sg.isLt
  have he := e.isLt
  have hf := f.isLt
  unfold Binary64.sign
  rw [Bits.getLsbD_eq_div, Bits.getLsbD_eq_div, toNat_double, decide_eq_decide]
  omega

theorem expField_double : Binary64.expField (sg ++ e ++ f ++ 0#29) = e := by
  apply BitVec.eq_of_toNat_eq
  have he := e.isLt
  have hf := f.isLt
  unfold Binary64.expField
  rw [BitVec.extractLsb'_toNat, Nat.shiftRight_eq_div_pow, toNat_double]
  omega

theorem fracField_double : Binary64.fracField (sg ++ e ++ f ++ 0#29) = f ++ 0#29 := by
  apply BitVec.eq_of_toNat_eq
  have hf := f.isLt
  unfold Binary64.fracField
  rw [BitVec.extractLsb'_toNat, Nat.shiftRight_zero, toNat_double, Bits.toNat_append]
  simp only [BitVec.toNat_ofNat]
  omega

theorem significand_double : Binary64.significand (sg ++ e ++ f ++ 0#29) =
    (if e = 0 then 0 else 2 ^ 52) + f.toNat * 2 ^ 29 := by
  unfold Binary64.significand
  rw [expField_double, fracField_double, Bits.toNat_append, BitVec.toNat_ofNat, Nat.zero_mod,
    Nat.add_zero]

theorem scale_double : Binary64.scale (sg ++ e ++ f ++ 0#29) = max e.toNat 1 := by
  unfold Binary64.scale
  rw [expField_double]

theorem isSpecial_double :
    Binary64.IsSpecial (sg ++ e ++ f ++ 0#29) ↔ e = BitVec.allOnes 11 := by
  unfold Binary64.IsSpecial
  rw [expField_double]

end

/-! ## What stage 3 holds -/

/-- The registers of `loadstore1_3` for a single-precision word `x`. -/
structure HoldsSp (x : BitVec 32) (r : RegStage3) : Prop where
  data : r.ldSpData = x
  nz : r.ldSpNz = (Binary32.fracField x != 0)
  lz : r.ldSpLz = Helpers.countLeftZeroes (Binary32.fracField x)

variable {x : BitVec 32} {s : State} {i : Input} {v : RegStage3}

theorem HoldsSp.sprWrites (h : HoldsSp x v) : HoldsSp x (sprWrites s v) := by
  unfold Loadstore1.sprWrites
  split_ifs <;> exact ⟨h.data, h.nz, h.lz⟩

theorem HoldsSp.raise (h : HoldsSp x v) : HoldsSp x (raise s i v) := by
  unfold Loadstore1.raise
  split_ifs <;> exact ⟨h.data, h.nz, h.lz⟩

/-- Stage 3 takes its word in every cycle. -/
theorem holdsSp_r3in (s : State) (i : Input) :
    HoldsSp ((dataTrimmed s i).extractLsb' 0 32) (r3in s i) := by
  have hfrac : Binary32.fracField ((dataTrimmed s i).extractLsb' 0 32) =
      (dataTrimmed s i).extractLsb' 0 23 := BitVec.extractLsb'_extractLsb'_of_le (by omega)
  show HoldsSp _ (if exception s i then raise s i (sprWrites s _) else sprWrites s _)
  by_cases hex : exception s i = true
  · rw [if_pos hex]
    exact HoldsSp.raise (HoldsSp.sprWrites ⟨rfl, by rw [hfrac], by rw [hfrac]⟩)
  · rw [if_neg hex]
    exact HoldsSp.sprWrites ⟨rfl, by rw [hfrac], by rw [hfrac]⟩

/-! ## The two conversions -/

theorem toNat_word (x : BitVec 32) : x.toNat =
    (x.extractLsb' 31 1).toNat * 2 ^ 31 + (Binary32.expField x).toNat * 2 ^ 23 +
      (Binary32.fracField x).toNat := by
  have hx := x.isLt
  unfold Binary32.expField Binary32.fracField
  simp only [BitVec.extractLsb'_toNat, Nat.shiftRight_eq_div_pow]
  omega

theorem getLsbD_sign (x : BitVec 32) : (x.extractLsb' 31 1).getLsbD 0 = Binary32.sign x := by
  rw [BitVec.getLsbD_extractLsb']
  rfl

/-- The count of the stages is right for every distance that occurs. -/
theorem shiftDistance_eq {k : BitVec 5} (h : k.toNat < 24) : shiftDistance k = k.toNat := by
  unfold shiftDistance
  rw [BitVec.extractLsb'_toNat, BitVec.extractLsb'_toNat, Nat.shiftRight_zero,
    Nat.shiftRight_eq_div_pow]
  omega

/-- A normal or special double goes back with its upper exponent bit and its low ones. -/
theorem storeSpData_normal {sg : BitVec 1} {e : BitVec 11} {f : BitVec 23} (he : 896 < e.toNat) :
    (storeSpData (sg ++ e ++ f ++ 0#29)).toNat =
      sg.toNat * 2 ^ 31 + (e.toNat / 2 ^ 10 * 2 ^ 7 + e.toNat % 2 ^ 7) * 2 ^ 23 + f.toNat := by
  have hexp : (sg ++ e ++ f ++ 0#29).extractLsb' 52 11 = e := expField_double sg e f
  have hs := sg.isLt
  have hlt := e.isLt
  have hf := f.isLt
  unfold storeSpData
  rw [hexp, if_pos he, Bits.toNat_append, Bits.toNat_append]
  simp only [BitVec.extractLsb'_toNat, Nat.shiftRight_eq_div_pow, toNat_double]
  omega

/-- A double of a denormal goes back shifted to the right. -/
theorem storeSpData_denormal {sg : BitVec 1} {e : BitVec 11} {f : BitVec 23} {k : Nat} (hk : k ≤ 22)
    (he : e.toNat + k = 896) :
    (storeSpData (sg ++ e ++ f ++ 0#29)).toNat =
      sg.toNat * 2 ^ 31 + (2 ^ 22 + f.toNat / 2) / 2 ^ k := by
  have hexp : (sg ++ e ++ f ++ 0#29).extractLsb' 52 11 = e := expField_double sg e f
  have hs := sg.isLt
  have hf := f.isLt
  have hcount : (0 - e.extractLsb' 0 5 : BitVec 5).toNat = k := by
    rw [BitVec.toNat_sub, BitVec.extractLsb'_toNat, Nat.shiftRight_zero,
      show (0 : BitVec 5).toNat = 0 from rfl]
    omega
  have hfrac : (1#1 ++ (sg ++ e ++ f ++ 0#29).extractLsb' 30 22).toNat = 2 ^ 22 + f.toNat / 2 := by
    rw [Bits.toNat_append, BitVec.extractLsb'_toNat, Nat.shiftRight_eq_div_pow, toNat_double,
      BitVec.toNat_ofNat]
    omega
  have hsign : ((sg ++ e ++ f ++ 0#29).extractLsb' 63 1).toNat = sg.toNat := by
    rw [BitVec.extractLsb'_toNat, Nat.shiftRight_eq_div_pow, toNat_double]
    omega
  unfold storeSpData
  rw [hexp, if_neg (by omega), if_pos (by omega), shiftDistance_eq (by omega), hcount,
    Bits.toNat_append, Bits.toNat_append, hsign, BitVec.toNat_ushiftRight, hfrac,
    Nat.shiftRight_eq_div_pow, BitVec.toNat_ofNat, Nat.zero_mod]
  ring

theorem storeSpData_small {sg : BitVec 1} {e : BitVec 11} {f : BitVec 23} (he : e.toNat < 874) :
    (storeSpData (sg ++ e ++ f ++ 0#29)).toNat = sg.toNat * 2 ^ 31 := by
  have hexp : (sg ++ e ++ f ++ 0#29).extractLsb' 52 11 = e := expField_double sg e f
  have hs := sg.isLt
  have hlt := e.isLt
  have hf := f.isLt
  unfold storeSpData
  rw [hexp, if_neg (by omega), if_neg (by omega), Bits.toNat_append, BitVec.extractLsb'_toNat,
    Nat.shiftRight_eq_div_pow, toNat_double, BitVec.toNat_ofNat]
  omega

/-- The exponent and the fraction of the double of `x`, for the kinds of data. -/
inductive Parts (x : BitVec 32) (e : BitVec 11) (f : BitVec 23) : Prop where
  | special (hx : (Binary32.expField x).toNat = 255) (he : e.toNat = 2047)
      (hf : f = Binary32.fracField x)
  | normal (hx : (Binary32.expField x).toNat < 255) (hpos : 0 < (Binary32.expField x).toNat)
      (he : e.toNat = 896 + (Binary32.expField x).toNat) (hf : f = Binary32.fracField x)
  | zero (hx : (Binary32.expField x).toNat = 0) (hfrac : (Binary32.fracField x).toNat = 0)
      (he : e.toNat = 0) (hf : f.toNat = 0)
  | denormal (k : Nat) (hk : k ≤ 22) (hx : (Binary32.expField x).toNat = 0)
      (he : e.toNat + k = 896)
      (hf : (Binary32.fracField x).toNat * 2 ^ (k + 1) = 2 ^ 23 + f.toNat)

theorem Parts.storeSpData {e : BitVec 11} {f : BitVec 23} (h : Parts x e f) :
    storeSpData (x.extractLsb' 31 1 ++ e ++ f ++ 0#29) = x := by
  apply BitVec.eq_of_toNat_eq
  have hword := toNat_word x
  cases h with
  | special hx he hf =>
    rw [storeSpData_normal (by omega), hf, he]
    omega
  | normal hx hpos he hf =>
    rw [storeSpData_normal (by omega), hf, he]
    omega
  | zero hx hfrac he hf =>
    rw [storeSpData_small (by omega)]
    omega
  | denormal k hk hx he hf =>
    have hshift : (2 ^ 22 + f.toNat / 2) / 2 ^ k = (Binary32.fracField x).toNat := by
      rw [pow_succ, ← mul_assoc] at hf
      rw [show 2 ^ 22 + f.toNat / 2 = (Binary32.fracField x).toNat * 2 ^ k by omega,
        Nat.mul_div_cancel _ (by positivity)]
    rw [storeSpData_denormal hk he, hshift, hword, hx]
    omega

theorem Parts.widens {e : BitVec 11} {f : BitVec 23} (h : Parts x e f) :
    Binary32.Widens x (x.extractLsb' 31 1 ++ e ++ f ++ 0#29) := by
  have hsign : Binary64.sign (x.extractLsb' 31 1 ++ e ++ f ++ 0#29) = Binary32.sign x := by
    rw [sign_double, getLsbD_sign]
  have hspecial : Binary32.IsSpecial x ↔ (Binary32.expField x).toNat = 255 := BitVec.toNat_eq
  have hspecial64 : Binary64.IsSpecial (x.extractLsb' 31 1 ++ e ++ f ++ 0#29) ↔ e.toNat = 2047 := by
    rw [isSpecial_double]
    exact BitVec.toNat_eq
  have he0 : e = 0 ↔ e.toNat = 0 := BitVec.toNat_eq
  have hx0 : Binary32.expField x = 0 ↔ (Binary32.expField x).toNat = 0 := BitVec.toNat_eq
  cases h with
  | special hx he hf =>
    apply Binary32.widens_of_special hsign (hspecial.mpr hx) (hspecial64.mpr he)
    rw [fracField_double, hf]
  | normal hx hpos he hf =>
    apply Binary32.widens_of_finite (k := 0) (l := 29) hsign
      (by rw [hspecial]; omega) (by rw [hspecial64]; omega)
    · rw [significand_double, Binary32.significand, if_neg (by rw [he0]; omega),
        if_neg (by rw [hx0]; omega), hf]
      ring
    · rw [scale_double, Binary32.scale]
      omega
  | zero hx hfrac he hf =>
    apply Binary32.widens_of_finite (k := 0) (l := 925) hsign
      (by rw [hspecial]; omega) (by rw [hspecial64]; omega)
    · rw [significand_double, Binary32.significand, if_pos (he0.mpr he), if_pos (hx0.mpr hx), hf,
        hfrac, zero_mul, add_zero, zero_mul, zero_mul]
    · rw [scale_double, Binary32.scale]
      omega
  | denormal k hk hx he hf =>
    apply Binary32.widens_of_finite (k := 0) (l := 30 + k) hsign
      (by rw [hspecial]; omega) (by rw [hspecial64]; omega)
    · rw [significand_double, Binary32.significand, if_neg (by rw [he0]; omega),
        if_pos (hx0.mpr hx)]
      calc (2 ^ 52 + f.toNat * 2 ^ 29) * 2 ^ 0 = (2 ^ 23 + f.toNat) * 2 ^ 29 := by ring
        _ = (Binary32.fracField x).toNat * 2 ^ (k + 1) * 2 ^ 29 := by rw [hf]
        _ = (0 + (Binary32.fracField x).toNat) * 2 ^ (30 + k) := by ring
    · rw [scale_double, Binary32.scale]
      omega

/-- The shift to the left takes the leading one out of the fraction. -/
theorem toNat_normalized {f : BitVec 23} (hne : f ≠ 0) :
    (Helpers.countLeftZeroes f).toNat < 23 ∧
      f.toNat * 2 ^ ((Helpers.countLeftZeroes f).toNat + 1) =
        2 ^ 23 + (f <<< ((Helpers.countLeftZeroes f).toNat + 1)).toNat := by
  obtain ⟨hlt, hhigh⟩ := Helpers.isHighest_countLeftZeroes (by omega) hne
  refine ⟨hlt, ?_⟩
  set k := (Helpers.countLeftZeroes f).toNat
  have hsplit : 2 ^ 23 = 2 ^ (23 - 1 - k) * 2 ^ (k + 1) := by
    rw [← pow_add]
    congr 1
    omega
  have hge : 2 ^ (23 - 1 - k) ≤ f.toNat := Nat.ge_two_pow_of_testBit hhigh.set
  have hlt2 : f.toNat < 2 ^ (23 - 1 - k + 1) :=
    Nat.lt_pow_two_of_testBit _ fun j hj => hhigh.above j (by omega)
  have h1 : 2 ^ 23 ≤ f.toNat * 2 ^ (k + 1) := by
    rw [hsplit]
    exact Nat.mul_le_mul_right _ hge
  have h2 : f.toNat * 2 ^ (k + 1) < 2 ^ 23 * 2 := by
    calc f.toNat * 2 ^ (k + 1) < 2 ^ (23 - 1 - k + 1) * 2 ^ (k + 1) :=
          Nat.mul_lt_mul_of_pos_right hlt2 (by positivity)
      _ = 2 ^ 23 * 2 := by rw [hsplit]; ring
  rw [BitVec.toNat_shiftLeft, Nat.shiftLeft_eq]
  omega

/-- What `sp_to_dp` makes of the word that stage 3 holds. -/
theorem loadDpData_parts (h : HoldsSp x s.r3) :
    ∃ e f, loadDpData s = x.extractLsb' 31 1 ++ e ++ f ++ 0#29 ∧ Parts x e f := by
  have hexp : x.extractLsb' 23 8 = Binary32.expField x := rfl
  have hfrac : x.extractLsb' 0 23 = Binary32.fracField x := rfl
  have hlt := (Binary32.expField x).isLt
  have hexp0 : Binary32.expField x = 0 ↔ (Binary32.expField x).toNat = 0 := BitVec.toNat_eq
  unfold loadDpData
  simp only [h.data, h.nz, h.lz, hexp, hfrac]
  refine ⟨_, _, rfl, ?_⟩
  by_cases h255 : Binary32.expField x = 0xff
  · rw [if_pos h255, if_neg (by simp [h255])]
    exact Parts.special (congrArg BitVec.toNat h255) rfl (BitVec.shiftLeft_zero _)
  by_cases h0 : Binary32.expField x = 0
  · by_cases hf : Binary32.fracField x = 0
    · rw [if_neg h255, if_neg (by simp [h0]), if_pos (by simp [hf]), if_neg (by simp [hf]), hf]
      exact Parts.zero (hexp0.mp h0) (by rw [hf]; rfl) rfl rfl
    · obtain ⟨hk, hnorm⟩ := toNat_normalized hf
      have hcount : ((Helpers.countLeftZeroes (Binary32.fracField x)).extractLsb' 0 5 + 1).toNat =
          (Helpers.countLeftZeroes (Binary32.fracField x)).toNat + 1 := by
        rw [BitVec.toNat_add, BitVec.extractLsb'_toNat, Nat.shiftRight_zero,
          show (1 : BitVec 5).toNat = 1 from rfl]
        omega
      have hnz : (Binary32.fracField x != 0) = true := bne_iff_ne.mpr hf
      rw [if_neg h255, if_neg (by simp [h0]), hnz, if_neg (by simp), if_pos (by simp [h0]),
        shiftDistance_eq (by omega), hcount]
      refine Parts.denormal _ (Nat.le_of_lt_succ hk) (hexp0.mp h0) ?_ hnorm
      rw [BitVec.toNat_sub, BitVec.toNat_setWidth, show (896 : BitVec 11).toNat = 896 from rfl]
      omega
  · have hpos : (Binary32.expField x).toNat ≠ 0 := fun h => h0 (hexp0.mpr h)
    have hne : (Binary32.expField x).toNat ≠ 255 := fun h => h255 (BitVec.eq_of_toNat_eq h)
    rw [if_neg h255, if_pos h0, beq_false_of_ne h0, Bool.false_and, if_neg (by simp)]
    refine Parts.normal (by omega) (by omega) ?_ (BitVec.shiftLeft_zero _)
    rw [BitVec.toNat_add, BitVec.toNat_setWidth, show (896 : BitVec 11).toNat = 896 from rfl]
    omega

/-- Stage 3 always holds the word that it trims, with the counts for it.  The double of a word that
it holds denotes the same datum, and a store takes the double back to the word. -/
theorem single_roundTrip (hasFpu : Bool) (s : State) (i : Input) (x : BitVec 32) :
    HoldsSp ((dataTrimmed s i).extractLsb' 0 32) (step hasFpu s i).r3 ∧
      (HoldsSp x s.r3 → Binary32.Widens x (loadDpData s) ∧ storeSpData (loadDpData s) = x) := by
  refine ⟨holdsSp_r3in s i, ?_⟩
  intro h
  obtain ⟨e, f, heq, hparts⟩ := loadDpData_parts h
  rw [heq]
  exact ⟨hparts.widens, hparts.storeSpData⟩

/-- The state that holds the smallest denormal. -/
def State.smallest : State :=
  { State.cold with r3 := { State.cold.r3 with ldSpData := 1, ldSpNz := true, ldSpLz := 22 } }

theorem single_roundTrip_smallest :
    Binary32.Widens 1 (loadDpData State.smallest) ∧ storeSpData (loadDpData State.smallest) = 1 :=
  (single_roundTrip true State.smallest Input.idle 1).2 ⟨rfl, rfl, by decide +kernel⟩

end Microwatt.Loadstore1
