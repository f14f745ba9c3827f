import Microwatt.Debug.Access

/-!
# The dump of the log

`log_dump` of `mw_debug.c`, over the debug bus of core 0.  It takes the write pointer from LOG_ADDR,
where a bit above it tells the size of the log, and reads all entries from there on.
-/

namespace Microwatt.Debug

/-- `DBG_LOG_ADDR`, within the core. -/
def dbgLogAddr : BitVec 4 := 0b0110

/-- `DBG_LOG_DATA`, within the core. -/
def dbgLogData : BitVec 4 := 0b0111

/-- `LOG_STOP`. -/
def logStop : BitVec 64 := 0x80000000

/-! ## `mw_debug.c` -/

section

variable {k : Nat} (env : Nat → Input) (timing : Nat → Timing)

/-- `dmi_read`. -/
def dmiRead (addr : BitVec 4) (w : World k) : BitVec 64 × World k :=
  (dataOf env timing w ⟨false, addr, 0⟩, after env timing w ⟨false, addr, 0⟩)

/-- `dmi_write`. -/
def dmiWrite (addr : BitVec 4) (data : BitVec 64) (w : World k) : World k :=
  after env timing w ⟨true, addr, data⟩

/-- The loop that finds `lsize`; it shifts 64 times at most. -/
def findSize (waddr : BitVec 64) : Nat → BitVec 64 → BitVec 64
  | 0, lsize => lsize
  | n + 1, lsize =>
      if lsize = 0 then lsize
      else if waddr >>> 1 < lsize then lsize
      else findSize waddr n (lsize <<< 1)

/-- `lsize`. -/
def logSize (waddr : BitVec 64) : BitVec 64 := findSize waddr 64 1

/-- The loop that reads the log. -/
def readLog : Nat → World k → List (BitVec 64) × World k
  | 0, w => ([], w)
  | n + 1, w =>
      let (ldata, w) := dmiRead env timing dbgLogData w
      let (rest, w) := readLog n w
      (ldata :: rest, w)

/-- The log is stopped, if it is not by the address register. -/
def stopLog (origLaddr : BitVec 64) (w : World k) : World k :=
  if origLaddr &&& logStop = 0 then dmiWrite env timing dbgLogAddr logStop w else w

/-- `log_dump`: what is written to the file. -/
def logDump (w : World k) : List (BitVec 64) × World k :=
  let (origLaddr, w) := dmiRead env timing dbgLogAddr w
  let w := stopLog env timing origLaddr w
  let waddr := origLaddr >>> 32
  let lsize := logSize waddr
  let waddr := waddr &&& ~~~lsize
  let laddr := logStop ||| waddr <<< 2
  let w := dmiWrite env timing dbgLogAddr laddr w
  let (data, w) := readLog env timing (lsize * 4).toNat w
  (data, dmiWrite env timing dbgLogAddr origLaddr w)

/-- When `log_dump` has stopped the log. -/
def stopped (w : World k) : State k :=
  (stopLog env timing (dmiRead env timing dbgLogAddr w).1 (dmiRead env timing dbgLogAddr w).2).hw

/-- The write pointer that `log_dump` gets. -/
def pointerRead (w : World k) : BitVec k :=
  (hwAt env timing w ⟨false, dbgLogAddr, 0⟩ (timing w.cycle).sample).logWrPtr

end

/-- The doublewords of all entries, from `p` on. -/
def entriesFrom {k : Nat} (log : BitVec k → BitVec 256) (p : BitVec k) : List (BitVec 64) :=
  (List.range (4 * 2 ^ k)).map fun j =>
    (log (p + BitVec.ofNat k (j / 4))).extractLsb' (j % 4 * 64) 64

/-! ## The size of the log -/

theorem findSize_eq {waddr : BitVec 64} {k : Nat} (hk : k < 64) (hlo : 2 ^ k ≤ waddr.toNat)
    (hhi : waddr.toNat < 2 ^ (k + 1)) {n j : Nat} (hj : j ≤ k) (hn : k < j + n) :
    findSize waddr n (BitVec.ofNat 64 (2 ^ j)) = BitVec.ofNat 64 (2 ^ k) := by
  have hpow : ∀ l, l < 64 → (BitVec.ofNat 64 (2 ^ l)).toNat = 2 ^ l := fun l hl => by
    rw [BitVec.toNat_ofNat, Nat.mod_eq_of_lt (Nat.pow_lt_pow_right (by decide) hl)]
  have hhalf : (waddr >>> 1).toNat = waddr.toNat / 2 := by
    rw [BitVec.toNat_ushiftRight, Nat.shiftRight_eq_div_pow, pow_one]
  induction n generalizing j with
  | zero => omega
  | succ n ih =>
      have hnonzero : BitVec.ofNat 64 (2 ^ j) ≠ 0 := by
        intro h
        have hnat := hpow j (by omega)
        rw [h] at hnat
        exact (Nat.two_pow_pos j).ne hnat
      rw [findSize, if_neg hnonzero]
      by_cases heq : j = k
      · have hlt : waddr >>> 1 < BitVec.ofNat 64 (2 ^ j) := by
          rw [BitVec.lt_def, hhalf, hpow j (by omega), heq]
          rw [pow_succ] at hhi
          omega
        rw [if_pos hlt, heq]
      · have hle : ¬waddr >>> 1 < BitVec.ofNat 64 (2 ^ j) := by
          rw [BitVec.lt_def, hhalf, hpow j (by omega)]
          have hmono : 2 ^ (j + 1) ≤ 2 ^ k := Nat.pow_le_pow_right (by decide) (by omega)
          rw [pow_succ] at hmono
          omega
        have hshift : BitVec.ofNat 64 (2 ^ j) <<< 1 = BitVec.ofNat 64 (2 ^ (j + 1)) := by
          apply BitVec.eq_of_toNat_eq
          rw [BitVec.toNat_shiftLeft, hpow j (by omega), hpow (j + 1) (by omega), Nat.shiftLeft_eq,
            pow_one, ← pow_succ]
          exact Nat.mod_eq_of_lt (Nat.pow_lt_pow_right (by decide) (by omega))
        rw [if_neg hle, hshift]
        exact ih (by omega) (by omega)

section

variable {k : Nat} {p : BitVec k}

/-- The bit above the write pointer tells the size of the log. -/
theorem logSize_pointer (hk : k ≤ 29) :
    logSize (BitVec.ofNat 64 (2 ^ k + p.toNat)) = BitVec.ofNat 64 (2 ^ k) := by
  have hp := p.isLt
  have hpow : 2 ^ k ≤ 2 ^ 29 := Nat.pow_le_pow_right (by decide) hk
  have hval : (BitVec.ofNat 64 (2 ^ k + p.toNat)).toNat = 2 ^ k + p.toNat := by
    rw [BitVec.toNat_ofNat]
    exact Nat.mod_eq_of_lt (by omega)
  exact findSize_eq (j := 0) (by omega) (by omega) (by rw [hval, pow_succ]; omega) (Nat.zero_le k)
    (by omega)

/-- Without that bit the write pointer is left. -/
theorem pointer_and :
    BitVec.ofNat 64 (2 ^ k + p.toNat) &&& ~~~BitVec.ofNat 64 (2 ^ k) = BitVec.ofNat 64 p.toNat := by
  have hp := p.isLt
  apply BitVec.eq_of_getLsbD_eq
  intro j hj
  rw [BitVec.getLsbD_and, BitVec.getLsbD_not, BitVec.getLsbD_ofNat, BitVec.getLsbD_ofNat,
    BitVec.getLsbD_ofNat, decide_eq_true hj, Nat.testBit_two_pow]
  by_cases hjk : k = j
  · rw [← hjk, Nat.testBit_lt_two_pow hp]
    simp
  · have hbit : (2 ^ k + p.toNat).testBit j = p.toNat.testBit j := by
      have hor := Nat.two_pow_add_eq_or_of_lt hp 1
      rw [Nat.mul_one] at hor
      rw [hor, Nat.testBit_or, Nat.testBit_two_pow, decide_eq_false hjk,
        Bool.false_or]
    rw [hbit]
    simp [hjk]

/-- The address of the oldest entry. -/
theorem start_toNat (hk : k ≤ 29) :
    ((logStop ||| BitVec.ofNat 64 p.toNat <<< 2).setWidth 32).toNat = 2 ^ 31 + 4 * p.toNat := by
  have hp := p.isLt
  have hpow : 2 ^ k ≤ 2 ^ 29 := Nat.pow_le_pow_right (by decide) hk
  rw [BitVec.toNat_setWidth, BitVec.toNat_or, BitVec.toNat_shiftLeft, BitVec.toNat_ofNat,
    Nat.mod_eq_of_lt (a := p.toNat) (by omega), Nat.shiftLeft_eq,
    Nat.mod_eq_of_lt (a := _ * _) (by omega)]
  have hor : logStop.toNat ||| p.toNat * 2 ^ 2 = 2 ^ 31 + p.toNat * 2 ^ 2 :=
    (Nat.two_pow_add_eq_or_of_lt (i := 31) (by omega) 1).symm
  rw [hor]
  omega

/-! ## The addresses -/

/-- The addresses count within the log. -/
theorem nextDword_toNat (hk : k ≤ 29) {a : BitVec 32} {m : Nat} (hm : m < 2 ^ (k + 2))
    (ha : a.toNat = 2 ^ 31 + m) :
    (nextDword k a).toNat = 2 ^ 31 + (m + 1) % 2 ^ (k + 2) := by
  obtain ⟨c, hc⟩ : 2 ^ (k + 2) ∣ 2 ^ 31 := pow_dvd_pow 2 (by omega)
  have hpow : 2 ^ (k + 2) ≤ 2 ^ 31 := Nat.pow_le_pow_right (by decide) (by omega)
  have hpos := Nat.two_pow_pos (k + 2)
  have hlt := Nat.mod_lt (m + 1) hpos
  have hhigh : a.toNat / 2 ^ (k + 2) * 2 ^ (k + 2) = 2 ^ 31 := by
    rw [ha, hc, Nat.mul_add_div hpos, Nat.div_eq_of_lt hm, Nat.add_zero, Nat.mul_comm]
  have hlow : (a.toNat + 1) % 2 ^ (k + 2) = (m + 1) % 2 ^ (k + 2) := by
    rw [ha, hc, Nat.add_assoc, Nat.mul_add_mod]
  rw [nextDword, hhigh, hlow, BitVec.toNat_ofNat]
  exact Nat.mod_eq_of_lt (by omega)

theorem iterate_nextDword_toNat (hk : k ≤ 29) {a : BitVec 32} {m : Nat} (hm : m < 2 ^ (k + 2))
    (ha : a.toNat = 2 ^ 31 + m) (j : Nat) :
    ((nextDword k)^[j] a).toNat = 2 ^ 31 + (m + j) % 2 ^ (k + 2) := by
  induction j with
  | zero => rw [Function.iterate_zero, id, ha, Nat.add_zero, Nat.mod_eq_of_lt hm]
  | succ j ih =>
      rw [Function.iterate_succ_apply', nextDword_toNat hk (Nat.mod_lt _ (Nat.two_pow_pos _)) ih,
        Nat.mod_add_mod, Nat.add_assoc]

theorem stop_of_toNat {a : BitVec 32} {m : Nat} (hk : k ≤ 29) (hm : m < 2 ^ (k + 2))
    (ha : a.toNat = 2 ^ 31 + m) : a.getLsbD 31 = true := by
  have hpow : 2 ^ (k + 2) ≤ 2 ^ 31 := Nat.pow_le_pow_right (by decide) (by omega)
  rw [BitVec.getLsbD, ha, Nat.testBit_two_pow_add_eq,
    Nat.testBit_lt_two_pow (lt_of_lt_of_le hm hpow)]
  rfl

/-- The doubleword at an address. -/
theorem selectDword_eq (hk : k ≤ 29) (log : BitVec k → BitVec 256) {a : BitVec 32} {j : Nat}
    (ha : a.toNat = 2 ^ 31 + (4 * p.toNat + j) % 2 ^ (k + 2)) :
    selectDword (log (entryOf k a)) a =
      (log (p + BitVec.ofNat k (j / 4))).extractLsb' (j % 4 * 64) 64 := by
  have hquad : 2 ^ (k + 2) = 4 * 2 ^ k := by rw [pow_add]; ring
  obtain ⟨c, hc⟩ : 2 ^ k ∣ 2 ^ 29 := pow_dvd_pow 2 hk
  have hmod : (4 * p.toNat + j) % (4 * 2 ^ k) =
      j % 4 + 4 * ((4 * p.toNat + j) / 4 % 2 ^ k) := by
    rw [Nat.mod_mul, Nat.mul_add_mod]
  rw [hquad, hmod] at ha
  have hentry : entryOf k a = p + BitVec.ofNat k (j / 4) := by
    apply BitVec.eq_of_toNat_eq
    rw [entryOf, BitVec.extractLsb'_toNat, BitVec.toNat_add, BitVec.toNat_ofNat, Nat.add_mod_mod,
      Nat.shiftRight_eq_div_pow, ha, show p.toNat + j / 4 = (4 * p.toNat + j) / 4 by omega]
    have hdiv : (2 ^ 31 + (j % 4 + 4 * ((4 * p.toNat + j) / 4 % 2 ^ k))) / 2 ^ 2 =
        2 ^ 29 + (4 * p.toNat + j) / 4 % 2 ^ k := by omega
    rw [hdiv, hc, Nat.mul_add_mod, Nat.mod_mod]
  have hpart : a.toNat % 4 = j % 4 := by omega
  rw [selectDword, hentry, hpart]

end

/-! ## The dump -/

section

variable {k : Nat} {env : Nat → Input} {timing : Nat → Timing} {w : World k}

theorem readLog_eq (hrst : ∀ n, (env n).rst = false) (hk : k ≤ 29) {m : Nat} (hm : m < 2 ^ (k + 2))
    (n : Nat) (hq : Quiet w.hw) (hf : Fetched w.hw) (ha : w.hw.logDmiAddr.toNat = 2 ^ 31 + m) :
    (readLog env timing n w).1 = (List.range n).map fun j =>
      selectDword (w.hw.logArray (entryOf k ((nextDword k)^[j] w.hw.logDmiAddr)))
        ((nextDword k)^[j] w.hw.logDmiAddr) := by
  induction n generalizing w m with
  | zero => rfl
  | succ n ih =>
      have hnext := nextDword_toNat hk hm ha
      have hlt := Nat.mod_lt (m + 1) (Nat.two_pow_pos (k + 2))
      obtain ⟨hdata, hf', haddr', harr', -⟩ := @read_logData _ env timing _
        ⟨false, dbgLogData, 0⟩ hrst hq hf rfl rfl (stop_of_toNat hk hlt hnext)
      have hrest := ih hlt (quiet_after hrst hq) hf' (by rw [haddr', hnext])
      simp only [readLog, dmiRead, hrest, hdata, haddr', harr', List.range_succ_eq_map,
        List.map_cons, List.map_map, Function.iterate_zero, id]
      rw [hf.data]
      rfl

/-- What `log_dump` gets from LOG_ADDR. -/
theorem origLaddr_eq (hrst : ∀ n, (env n).rst = false) (hq : Quiet w.hw) :
    (dmiRead env timing dbgLogAddr w).1 =
      BitVec.ofNat 32 (2 ^ k + (pointerRead env timing w).toNat) ++ w.hw.logDmiAddr := by
  have haddr : dbgReg dbgLogAddr = some .logAddr := rfl
  simp only [dmiRead]
  rw [dataOf_logAddr haddr, (read_logAddr hrst hq haddr rfl _).1]
  rfl

theorem waddr_eq (hrst : ∀ n, (env n).rst = false) (hq : Quiet w.hw) (hk : k ≤ 29) :
    (dmiRead env timing dbgLogAddr w).1 >>> 32 =
      BitVec.ofNat 64 (2 ^ k + (pointerRead env timing w).toNat) := by
  have hp := (pointerRead env timing w).isLt
  have hpow : 2 ^ k ≤ 2 ^ 29 := Nat.pow_le_pow_right (by decide) hk
  rw [origLaddr_eq hrst hq]
  apply BitVec.eq_of_toNat_eq
  rw [BitVec.toNat_ushiftRight, BitVec.toNat_append, Nat.shiftRight_or_distrib,
    Nat.shiftLeft_shiftRight, Nat.shiftRight_eq_div_pow, Nat.div_eq_of_lt w.hw.logDmiAddr.isLt,
    Nat.or_zero, BitVec.toNat_ofNat, BitVec.toNat_ofNat, Nat.mod_eq_of_lt (by omega),
    Nat.mod_eq_of_lt (by omega)]

/-- Bit 31 of what is read is the one that stops the log. -/
theorem stopBit_eq (hrst : ∀ n, (env n).rst = false) (hq : Quiet w.hw) :
    (dmiRead env timing dbgLogAddr w).1 &&& logStop = 0 ↔ w.hw.logDmiAddr.getLsbD 31 = false := by
  have hbit : (dmiRead env timing dbgLogAddr w).1.getLsbD 31 = w.hw.logDmiAddr.getLsbD 31 := by
    rw [origLaddr_eq hrst hq, BitVec.getLsbD_append]
    rfl
  have hstop : ∀ j, logStop.getLsbD j = decide (j = 31) := by
    intro j
    change (BitVec.ofNat 64 (2 ^ 31)).getLsbD j = _
    rw [BitVec.getLsbD_ofNat, Nat.testBit_two_pow]
    by_cases hj : j = 31
    · rw [hj]
      rfl
    · simp [hj, Ne.symm hj]
  rw [← hbit]
  constructor
  · intro h
    have h31 : ((dmiRead env timing dbgLogAddr w).1 &&& logStop).getLsbD 31 = false := by
      rw [h]
      rfl
    rw [BitVec.getLsbD_and, hstop, decide_eq_true rfl, Bool.and_true] at h31
    exact h31
  · intro h
    apply BitVec.eq_of_getLsbD_eq
    intro j hj
    rw [BitVec.getLsbD_and, hstop]
    by_cases hj31 : j = 31
    · rw [hj31, h]
      rfl
    · simp [hj31]

/-- The log is stopped before it is read. -/
theorem stopLog_spec (hrst : ∀ n, (env n).rst = false) (hq : Quiet w.hw) :
    Quiet (stopped env timing w) ∧ (stopped env timing w).logDmiAddr.getLsbD 31 = true := by
  have haddr : dbgReg dbgLogAddr = some .logAddr := rfl
  have hquiet : Quiet (dmiRead env timing dbgLogAddr w).2.hw := quiet_after hrst hq
  unfold stopped stopLog
  by_cases hstop : (dmiRead env timing dbgLogAddr w).1 &&& logStop = 0
  · rw [if_pos hstop]
    obtain ⟨hf, -, -⟩ := @write_logAddr _ env timing _
      ⟨true, dbgLogAddr, logStop⟩ hrst hquiet haddr rfl rfl
    exact ⟨quiet_after hrst hquiet, hf.stop⟩
  · rw [if_neg hstop]
    rw [stopBit_eq hrst hq, Bool.not_eq_false] at hstop
    refine ⟨hquiet, ?_⟩
    have hsame : (dmiRead env timing dbgLogAddr w).2.hw.logDmiAddr = w.hw.logDmiAddr :=
      (read_logAddr hrst hq haddr rfl _).1
    rw [hsame, hstop]

/-- A log that is stopped by the address register keeps its write pointer. -/
theorem pointerRead_eq_of_stop (hrst : ∀ n, (env n).rst = false) (hq : Quiet w.hw)
    (hstop : w.hw.logDmiAddr.getLsbD 31 = true) :
    pointerRead env timing w = (stopped env timing w).logWrPtr := by
  have haddr : dbgReg dbgLogAddr = some .logAddr := rfl
  have hno : ¬(dmiRead env timing dbgLogAddr w).1 &&& logStop = 0 := by
    rw [stopBit_eq hrst hq, hstop]
    decide
  unfold stopped stopLog
  rw [if_neg hno]
  have hkeep := fun n => ((@read_logAddr _ env timing _
    ⟨false, dbgLogAddr, 0⟩ hrst hq haddr rfl n).2 hstop).2
  exact (hkeep _).trans (hkeep _).symm

/-- `log_dump` writes all entries once, from the write pointer that it got. -/
theorem logDump_eq (hrst : ∀ n, (env n).rst = false) (hq : Quiet w.hw) (hk : k ≤ 29) :
    (logDump env timing w).1 =
      entriesFrom (stopped env timing w).logArray (pointerRead env timing w) := by
  have hp := (pointerRead env timing w).isLt
  have hpow : 2 ^ k ≤ 2 ^ 29 := Nat.pow_le_pow_right (by decide) hk
  have hquad : 2 ^ (k + 2) = 4 * 2 ^ k := by rw [pow_add]; ring
  obtain ⟨hq', hstop'⟩ := @stopLog_spec _ env timing _ hrst hq
  have hcount : (BitVec.ofNat 64 (2 ^ k) * 4).toNat = 4 * 2 ^ k := by
    rw [BitVec.toNat_mul, BitVec.toNat_ofNat, Nat.mod_eq_of_lt (a := 2 ^ k) (by omega)]
    change 2 ^ k * 4 % 2 ^ 64 = _
    rw [Nat.mod_eq_of_lt (by omega), Nat.mul_comm]
  have hstart := start_toNat (p := pointerRead env timing w) hk
  have hm : 4 * (pointerRead env timing w).toNat < 2 ^ (k + 2) := by omega
  unfold logDump
  simp only [waddr_eq hrst hq hk, logSize_pointer hk, pointer_and, hcount]
  unfold stopped at hq' hstop' ⊢
  generalize stopLog env timing (dmiRead env timing dbgLogAddr w).1
    (dmiRead env timing dbgLogAddr w).2 = v at hq' hstop' ⊢
  generalize hl : logStop ||| BitVec.ofNat 64 (pointerRead env timing w).toNat <<< 2 = laddr
    at hstart ⊢
  obtain ⟨hf, haddr, hsame⟩ := @write_logAddr _ env timing v
    ⟨true, dbgLogAddr, laddr⟩ hrst hq' rfl rfl (stop_of_toNat hk hm hstart)
  have hafter : (dmiWrite env timing dbgLogAddr laddr v).hw.logDmiAddr.toNat =
      2 ^ 31 + 4 * (pointerRead env timing w).toNat := haddr ▸ hstart
  rw [readLog_eq (w := dmiWrite env timing dbgLogAddr laddr v) hrst hk hm _
    (quiet_after hrst hq') hf
    hafter]
  unfold entriesFrom
  apply List.map_congr_left
  intro j _
  rw [selectDword_eq (p := pointerRead env timing w) hk _ (iterate_nextDword_toNat hk hm hafter j)]
  rw [show (dmiWrite env timing dbgLogAddr laddr v).hw.logArray = v.hw.logArray from
    (hsame hstop').1]

/-- Two ways through the log are the same if all their entries are. -/
theorem entriesFrom_eq_iff (log : BitVec k → BitVec 256) (p p' : BitVec k) :
    entriesFrom log p = entriesFrom log p' ↔ ∀ j, log (p + j) = log (p' + j) := by
  unfold entriesFrom
  rw [List.map_inj_left]
  constructor
  · intro h j
    apply BitVec.eq_of_getLsbD_eq
    intro b hb
    have hj := j.isLt
    have hdword := congrArg (fun d => d.getLsbD (b % 64))
      (h (4 * j.toNat + b / 64) (List.mem_range.mpr (by omega)))
    have hentry : BitVec.ofNat k ((4 * j.toNat + b / 64) / 4) = j := by
      rw [show (4 * j.toNat + b / 64) / 4 = j.toNat by omega, BitVec.ofNat_toNat,
        BitVec.setWidth_eq]
    have hpart : (4 * j.toNat + b / 64) % 4 * 64 + b % 64 = b := by omega
    simpa only [BitVec.getLsbD_extractLsb', hentry, hpart, show b % 64 < 64 by omega, decide_true,
      Bool.true_and] using hdword
  · intro h j _
    rw [h]

/-- The dump runs from the oldest entry to the newest if and only if the log did not move between
the read of the write pointer and the stop, or happens to read the same from there. -/
theorem logDump_chronological_iff {k : Nat} (env : Nat → Input) (timing : Nat → Timing)
    (w : World k) (hrst : ∀ n, (env n).rst = false) (hq : Quiet w.hw) (hk : k ≤ 29) :
    (logDump env timing w).1 =
        entriesFrom (stopped env timing w).logArray (stopped env timing w).logWrPtr ↔
      pointerRead env timing w = (stopped env timing w).logWrPtr ∨
        ∀ j, (stopped env timing w).logArray (pointerRead env timing w + j) =
          (stopped env timing w).logArray ((stopped env timing w).logWrPtr + j) := by
  rw [logDump_eq hrst hq hk, entriesFrom_eq_iff]
  refine ⟨Or.inr, fun h => ?_⟩
  rcases h with h | h
  · intro j
    rw [h]
  · exact h

end

/-! ## A log of two entries -/

/-- The unit between accesses. -/
def State.cold (logDmiAddr : BitVec 32) : State 1 where
  dmiReq1 := false
  stopping := false
  terminated := false
  doStep := false
  doReset := false
  doIcreset := false
  gsprIndex := 0
  logDmiAddr := logDmiAddr
  logDmiData := 0
  logDmiTrigger := 0
  logMemTrigger := 0
  doLogTrigger := false
  doLogMtrigger := false
  triggerWasLog := false
  triggerWasMem := false
  doDmiLogRd := false
  dmiReadLogData := false
  dmiReadLogData1 := false
  logTriggerDelay := 0
  logArray := fun _ => 0
  logRdPtrLatched := 0
  logWrPtr := 0
  logRd := 0
  logReadData := 0
  logDmiReading := false
  logDmiReadDone := false

theorem quiet_cold (a : BitVec 32) : Quiet (State.cold a) := by
  constructor <;> rfl

/-- The number of the cycle is logged. -/
def counting (n : Nat) : Input where
  rst := false
  dmiAddr := 0
  dmiDin := 0
  dmiReq := false
  dmiWr := false
  terminate := false
  coreStopped := false
  nia := 0
  msr := 0
  gsprData := 0
  wbSnoopIn := ⟨0, 0, 0, false, false, false⟩
  logData := BitVec.ofNat 256 n
  logReadAddr := 0

/-- The fastest accesses. -/
def fastest (_ : Nat) : Timing := ⟨0, 0, 5, le_rfl, le_rfl⟩

/-- A stopped log: entry 1 is the older one, and the next to be written. -/
def State.filled : State 1 :=
  { State.cold 0x80000000 with
    logArray := fun p => if p = 0 then 0xbb else 0xaa
    logWrPtr := 1 }

theorem quiet_filled : Quiet State.filled := by
  constructor <;> rfl

/-- The older entry comes first. -/
theorem logDump_stopped :
    (logDump counting fastest ⟨State.filled, 0⟩).1 =
        entriesFrom (stopped counting fastest ⟨State.filled, 0⟩).logArray
          (stopped counting fastest ⟨State.filled, 0⟩).logWrPtr ∧
      (logDump counting fastest ⟨State.filled, 0⟩).1 = [0xaa, 0, 0, 0, 0xbb, 0, 0, 0] := by
  have hdump := (logDump_chronological_iff counting fastest ⟨State.filled, 0⟩ (fun _ => rfl)
    quiet_filled (by decide)).mpr
      (Or.inl (pointerRead_eq_of_stop (fun _ => rfl) quiet_filled rfl))
  refine ⟨hdump, hdump.trans ?_⟩
  decide +kernel

/-- The log runs when it is dumped: the newest entry comes first. -/
theorem logDump_running :
    (logDump counting fastest ⟨State.cold 0, 0⟩).1 ≠
      entriesFrom (stopped counting fastest ⟨State.cold 0, 0⟩).logArray
        (stopped counting fastest ⟨State.cold 0, 0⟩).logWrPtr := by
  rw [logDump_eq (fun _ => rfl) (quiet_cold _) (by decide)]
  intro h
  have hentry := (entriesFrom_eq_iff _ _ _).mp h 0
  revert hentry
  decide +kernel

end Microwatt.Debug
