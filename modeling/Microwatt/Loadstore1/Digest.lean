import Microwatt.Lib.Fair
import Microwatt.Loadstore1.Step

/-!
# The hash unit

The reference computation of a hash digest in `tests/hash/hash.c`, and the hash unit of
`loadstore1.vhdl`, which does four rounds of it in each of eight cycles.
-/

namespace Microwatt.Loadstore1

/-! ## The reference -/

/-- Bit `i` of the constant sequence of the key expansion. -/
def z0Bit (i : Nat) : Bool := (0xFA2561CDF44AC398#64).getLsbD (63 - i)

/-- The array `k` of `simon_like_32_64`. -/
def expandedKey (key : BitVec 64) : Nat → BitVec 16
  | 0 => key.extractLsb' 48 16
  | 1 => key.extractLsb' 32 16
  | 2 => key.extractLsb' 16 16
  | 3 => key.extractLsb' 0 16
  | i + 4 =>
    let temp := (expandedKey key (i + 3)).rotateRight 3 ^^^ expandedKey key (i + 1)
    0xfffc#16 ^^^ (BitVec.ofBool (z0Bit i)).setWidth 16 ^^^ expandedKey key i ^^^ temp ^^^
      temp.rotateRight 1

/-- The array `eff_k`: the four keys of a group, from the one of the lane on. -/
def effKey (key : BitVec 64) (lane i : Nat) : BitVec 16 :=
  expandedKey key (4 * (i / 4) + (i % 4 + lane) % 4)

/-- `xleft` and `xright` after some rounds. -/
def simonRounds (x : BitVec 32) (key : BitVec 64) (lane : Nat) : Nat → BitVec 16 × BitVec 16
  | 0 => (x.extractLsb' 0 16, x.extractLsb' 16 16)
  | i + 1 =>
    let (xl, xr) := simonRounds x key lane i
    let fxl := (xl.rotateLeft 1 &&& xl.rotateLeft 8) ^^^ xl.rotateLeft 2
    (xr ^^^ fxl ^^^ effKey key lane i, xl)

/-- `simon_like_32_64`. -/
def simonLike3264 (x : BitVec 32) (key : BitVec 64) (lane : Nat) : BitVec 32 :=
  let (xl, xr) := simonRounds x key lane 32
  xr ++ xl

/-- An element of `stage0`: the bytes of `y` upwards between those of `x` downwards. -/
def stage0 (x y : BitVec 64) (lane : Nat) : BitVec 32 :=
  (y.extractLsb' (16 * lane) 8 ++ x.extractLsb' (56 - 16 * lane) 8) ++
    (y.extractLsb' (16 * lane + 8) 8 ++ x.extractLsb' (48 - 16 * lane) 8)

/-- `hash_digest`. -/
def hashDigest (x y key : BitVec 64) : BitVec 64 :=
  let stage1 (lane : Nat) := simonLike3264 (stage0 x y lane) key lane
  (stage1 0 ++ stage1 1) ^^^ (stage1 2 ++ stage1 3)

/-! ## The unit -/

variable {ra rb key : BitVec 64}

/-- The unit has done `4 * n` rounds. -/
structure HashAfter (ra rb key : BitVec 64) (n : Nat) (h : HashReg) : Prop where
  active : h.active = decide (n < 8)
  done : h.done = decide (n = 8)
  step : h.step = BitVec.ofNat 3 n
  z0 : h.z0 = 0x7D12B0E6#31 <<< (4 * n)
  keys : n < 8 → ∀ j : Fin 4, h.key j = expandedKey key (4 * n + j.val)
  rounds : ∀ lane : Fin 4, (h.xleft lane, h.xright lane) =
    simonRounds (stage0 ra rb lane.val) key lane.val (4 * n)

/-- A new computation. -/
theorem hashAfter_load (h : HashReg) : HashAfter ra rb key 0 (hashLoad h ra rb key) where
  active := rfl
  done := rfl
  step := rfl
  z0 := rfl
  keys := by
    intro _ j
    fin_cases j <;> rfl
  rounds := by
    intro lane
    have hx : 56 - 16 * lane.val = 16 * (3 - lane.val) + 8 := by omega
    have hx' : 48 - 16 * lane.val = 16 * (3 - lane.val) := by omega
    simp only [hashLoad, simonRounds, stage0, BitVec.extractLsb'_append_eq_right,
      BitVec.extractLsb'_append_eq_left, hx, hx']

theorem z0Bit_eq {n : Nat} (hn : n < 7) {j : Nat} (hj : j < 4) :
    (0x7D12B0E6#31 <<< (4 * n)).getLsbD (30 - j) = z0Bit (4 * n + j) := by
  interval_cases n <;> interval_cases j <;> rfl

theorem expandedKey_add_four (key : BitVec 64) (i : Nat) :
    expandedKey key (i + 4) = nextKey (z0Bit i) (expandedKey key i) (expandedKey key (i + 1))
      (expandedKey key (i + 3)) := rfl

/-- Four steps of the key expansion. -/
theorem expandKeys_eq {n : Nat} (hn : n < 7) {z : BitVec 31} (hz : z = 0x7D12B0E6#31 <<< (4 * n))
    {k : Fin 4 → BitVec 16} (hk : ∀ j : Fin 4, k j = expandedKey key (4 * n + j.val)) (j : Fin 4) :
    expandKeys z k j = expandedKey key (4 * (n + 1) + j.val) := by
  have hnext (m : Nat) (hm : m < 4) : nextKey (z.getLsbD (30 - m)) (expandedKey key (4 * n + m))
        (expandedKey key (4 * n + (m + 1))) (expandedKey key (4 * n + (m + 3))) =
      expandedKey key (4 * n + 4 + m) := by
    rw [hz, z0Bit_eq hn hm, ← Nat.add_assoc (4 * n) m 1, ← Nat.add_assoc (4 * n) m 3,
      ← expandedKey_add_four, Nat.add_right_comm]
  have h4 : nextKey (z.getLsbD 30) (k 0) (k 1) (k 3) = expandedKey key (4 * n + 4) := by
    rw [hk, hk, hk]
    exact hnext 0 (by omega)
  have h5 : nextKey (z.getLsbD 29) (k 1) (k 2) (expandedKey key (4 * n + 4)) =
      expandedKey key (4 * n + 5) := by
    rw [hk, hk]
    exact hnext 1 (by omega)
  have h6 : nextKey (z.getLsbD 28) (k 2) (k 3) (expandedKey key (4 * n + 5)) =
      expandedKey key (4 * n + 6) := by
    rw [hk, hk]
    exact hnext 2 (by omega)
  have h7 : nextKey (z.getLsbD 27) (k 3) (expandedKey key (4 * n + 4))
      (expandedKey key (4 * n + 6)) = expandedKey key (4 * n + 7) := by
    rw [hk]
    exact hnext 3 (by omega)
  unfold expandKeys
  rw [h4, h5, h6, h7]
  fin_cases j <;> rfl

/-- The four rounds of a cycle. -/
theorem cipherRounds_eq {n : Nat} {k : Fin 4 → BitVec 16}
    (hk : ∀ j : Fin 4, k j = expandedKey key (4 * n + j.val)) (x : BitVec 32) (lane : Fin 4) :
    cipherRounds k lane (simonRounds x key lane.val (4 * n)) =
      simonRounds x key lane.val (4 * (n + 1)) := by
  have heff (m : Nat) (hm : m < 4) : effKey key lane.val (4 * n + m) =
      k (Fin.ofNat 4 m + lane) := by
    rw [hk]
    unfold effKey
    congr 1
    simp [Fin.val_add]
    omega
  have hround (m : Nat) (hm : m < 4) : simonRounds x key lane.val (4 * n + m + 1) =
      cipherRound (k (Fin.ofNat 4 m + lane)) (simonRounds x key lane.val (4 * n + m)) := by
    rw [← heff m hm]
    rfl
  show _ = simonRounds x key lane.val (4 * n + 3 + 1)
  rw [hround 3 (by omega), hround 2 (by omega), hround 1 (by omega), hround 0 (by omega)]
  rfl

/-- A cycle of the unit. -/
theorem HashAfter.hashRin {n : Nat} {h : HashReg} (ha : HashAfter ra rb key n h) (hn : n < 8)
    (start : Bool) (ra' rb' key' : BitVec 64) :
    HashAfter ra rb key (n + 1) (hashRin h start ra' rb' key') := by
  have hactive : h.active = true := by
    rw [ha.active]
    exact decide_eq_true hn
  have hstep : (h.step = 7) ↔ n = 7 := by
    rw [ha.step]
    interval_cases n <;> decide
  unfold Loadstore1.hashRin
  rw [if_pos hactive]
  refine ⟨?_, ?_, ?_, ?_, ?_, ?_⟩
  · show (h.step != 7) = decide (n + 1 < 8)
    rw [bne, Bool.eq_iff_iff]
    simp only [Bool.not_eq_true', beq_eq_false_iff_ne, ne_eq, hstep, decide_eq_true_eq]
    omega
  · show (h.step == 7) = decide (n + 1 = 8)
    rw [Bool.eq_iff_iff]
    simp only [beq_iff_eq, hstep, decide_eq_true_eq]
    omega
  · show h.step + 1 = BitVec.ofNat 3 (n + 1)
    rw [ha.step]
    interval_cases n <;> rfl
  · show h.z0 <<< 4 = _
    rw [ha.z0, ← BitVec.shiftLeft_add]
    rfl
  · intro hn'
    exact expandKeys_eq (by omega) ha.z0 (ha.keys hn)
  · intro lane
    rw [← cipherRounds_eq (ha.keys hn), ← ha.rounds lane]

/-- After eight cycles the result is the digest. -/
theorem HashAfter.result {h : HashReg} (ha : HashAfter ra rb key 8 h) :
    hashResult h = hashDigest ra rb key := by
  have hlane (lane : Fin 4) : h.xright lane ++ h.xleft lane =
      simonLike3264 (stage0 ra rb lane.val) key lane.val := by
    unfold simonLike3264
    rw [← ha.rounds lane]
  have hword (a b c d : BitVec 16) : ((a ++ b) ++ c) ++ d = (a ++ b) ++ (c ++ d) :=
    BitVec.append_assoc
  have hdigest : hashDigest ra rb key =
      ((simonLike3264 (stage0 ra rb (0 : Fin 4).val) key (0 : Fin 4).val ++
          simonLike3264 (stage0 ra rb (1 : Fin 4).val) key (1 : Fin 4).val) ^^^
        (simonLike3264 (stage0 ra rb (2 : Fin 4).val) key (2 : Fin 4).val ++
          simonLike3264 (stage0 ra rb (3 : Fin 4).val) key (3 : Fin 4).val) : BitVec 64) := rfl
  rw [hdigest, ← hlane, ← hlane, ← hlane, ← hlane, ← hword, ← hword]
  rfl

/-! ## A run of the unit -/

/-- What the unit reads in a cycle: `hash_start` and the operands. -/
structure HashIn where
  start : Bool
  ra : BitVec 64
  rb : BitVec 64
  key : BitVec 64

/-- An edge out of reset: `hash_r <= hash_rin`. -/
def hashEdge (h : HashReg) (i : HashIn) : HashReg := hashRin h i.start i.ra i.rb i.key

/-- The unit after a start in the first cycle. -/
theorem hashAfter_trace {h : HashReg} (hidle : h.active = false) {input : Nat → HashIn}
    (hstart : (input 0).start = true) {n : Nat} (hn : n ≤ 8) :
    HashAfter (input 0).ra (input 0).rb (input 0).key n
      (Clocked.trace hashEdge h input (n + 1)) := by
  induction n with
  | zero =>
    have hload : Clocked.trace hashEdge h input 1 =
        hashLoad h (input 0).ra (input 0).rb (input 0).key := by
      show hashEdge h (input 0) = _
      unfold hashEdge hashRin
      rw [if_neg (by simp [hidle]), if_pos hstart]
    rw [hload]
    exact hashAfter_load h
  | succ n ih => exact (ih (by omega)).hashRin (by omega) _ _ _ _

/-- Once started, the unit is active for eight cycles, whatever its inputs are meanwhile,
and then gives the digest of the operands that it was started with. -/
theorem hash_computes {h : HashReg} (hidle : h.active = false) {input : Nat → HashIn}
    (hstart : (input 0).start = true) :
    (∀ n, 1 ≤ n → n ≤ 8 → (Clocked.trace hashEdge h input n).active = true ∧
      (Clocked.trace hashEdge h input n).done = false) ∧
    (Clocked.trace hashEdge h input 9).active = false ∧
    (Clocked.trace hashEdge h input 9).done = true ∧
    hashResult (Clocked.trace hashEdge h input 9) =
      hashDigest (input 0).ra (input 0).rb (input 0).key := by
  have hlast := hashAfter_trace hidle hstart le_rfl
  refine ⟨?_, hlast.active, hlast.done, hlast.result⟩
  intro n h1 h8
  obtain ⟨m, rfl⟩ : ∃ m, n = m + 1 := ⟨n - 1, by omega⟩
  have hafter := hashAfter_trace hidle hstart (show m ≤ 8 by omega)
  rw [hafter.active, hafter.done]
  exact ⟨decide_eq_true (by omega), decide_eq_false (by omega)⟩

/-- `hash_reg_init`. -/
def hashRegInit : HashReg :=
  { active := false, done := false, step := 0, z0 := 0, key := fun _ => 0, xleft := fun _ => 0,
    xright := fun _ => 0 }

/-- The operands of the test for the usual address, right after reset. -/
theorem hash_computes_test :
    hashResult (Clocked.trace hashEdge hashRegInit
      (fun n => ⟨n == 0, 0x4190, 0x0f0e0d0c0b0a0908, 0x123456789abcdef0⟩) 9) =
    hashDigest 0x4190 0x0f0e0d0c0b0a0908 0x123456789abcdef0 :=
  (@hash_computes hashRegInit rfl _ rfl).2.2.2

-- the value that the test keeps for the usual address
example : hashDigest 0x4190 0x0f0e0d0c0b0a0908 0x123456789abcdef0 = 0xcd57657a24afdd14 := by
  decide +kernel

end Microwatt.Loadstore1
