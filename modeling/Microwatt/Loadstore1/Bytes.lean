import Microwatt.Lib.Bits
import Microwatt.Loadstore1.Step

/-!
# The bytes of an access

Memory as loads and stores see it: a byte at every address.  An access of 1, 2, 4 or 8 bytes is made
in one doubleword or in two.  The byte of the register that goes to a byte lane of the bus, or that
comes from it, is found by rotating by the address and, for the other endianness, by an exclusive or
with the length less one.
-/

namespace Microwatt.Loadstore1

/-- A byte at every address. -/
abbrev Mem := BitVec 64 → BitVec 8

/-- The doubleword that a byte is in. -/
def dwordAddr (x : BitVec 64) : BitVec 61 := x.extractLsb' 3 61

/-- The lane of a byte within its doubleword. -/
def laneOf (x : BitVec 64) : BitVec 3 := x.extractLsb' 0 3

/-- The doubleword that is read at an address. -/
def readDword (mem : Mem) (a : BitVec 64) : BitVec 64 :=
  ofBytes fun k => mem (dwordAddr a ++ BitVec.ofNat 3 k.val)

/-- The memory after a write to the selected lanes of a doubleword. -/
def writeDword (mem : Mem) (a : BitVec 64) (sel : BitVec 8) (d : BitVec 64) : Mem := fun x =>
  if dwordAddr x = dwordAddr a ∧ sel.getLsbD (laneOf x).toNat = true then byteOf d (laneOf x)
  else mem x

/-! ## Doublewords and their bytes -/

theorem getLsbD_byteOf (d : BitVec 64) (k : BitVec 3) {j : Nat} (hj : j < 8) :
    (byteOf d k).getLsbD j = d.getLsbD (8 * k.toNat + j) := by
  rw [byteOf, BitVec.getLsbD_extractLsb', decide_eq_true hj, Bool.true_and]

theorem getLsbD_ofBytes (b : Fin 8 → BitVec 8) (k : Fin 8) {j : Nat} (hj : j < 8) :
    (ofBytes b).getLsbD (8 * k.val + j) = (b k).getLsbD j := by
  unfold ofBytes
  simp only [BitVec.getLsbD_append]
  fin_cases k
  all_goals
    simp only [Fin.isValue]
    split_ifs <;> first | omega | (congr 1; omega)

theorem byteOf_ofBytes (b : Fin 8 → BitVec 8) (k : BitVec 3) :
    byteOf (ofBytes b) k = b k.toFin := by
  apply BitVec.eq_of_getLsbD_eq
  intro j hj
  rw [getLsbD_byteOf _ _ hj]
  exact getLsbD_ofBytes b k.toFin hj

/-- Doublewords with the same bytes are equal. -/
theorem eq_of_byteOf {d d' : BitVec 64} (h : ∀ k, byteOf d k = byteOf d' k) : d = d' := by
  apply BitVec.eq_of_getLsbD_eq
  intro j hj
  have hk : (BitVec.ofNat 3 (j / 8)).toNat = j / 8 := by
    rw [BitVec.toNat_ofNat]
    omega
  have hb := congrArg (fun x => x.getLsbD (j % 8)) (h (BitVec.ofNat 3 (j / 8)))
  simp only [getLsbD_byteOf _ _ (Nat.mod_lt j (by decide : 0 < 8)), hk, Nat.div_add_mod] at hb
  exact hb

theorem dwordAddr_laneOf (x : BitVec 64) : dwordAddr x ++ laneOf x = x := by
  apply BitVec.eq_of_getLsbD_eq
  intro j hj
  rw [BitVec.getLsbD_append]
  split_ifs with hk
  · simp [laneOf, hk]
  · rw [dwordAddr, BitVec.getLsbD_extractLsb', decide_eq_true (by omega), Bool.true_and]
    congr 1
    omega

/-- An address is known by its doubleword and its lane. -/
theorem eq_of_dwordAddr {x y : BitVec 64} (hd : dwordAddr x = dwordAddr y)
    (hl : laneOf x = laneOf y) : x = y := by
  rw [← dwordAddr_laneOf x, ← dwordAddr_laneOf y, hd, hl]

theorem byteOf_readDword (mem : Mem) (a : BitVec 64) (k : BitVec 3) :
    byteOf (readDword mem a) k = mem (dwordAddr a ++ k) := by
  rw [readDword, byteOf_ofBytes]
  congr 2
  exact BitVec.ofNat_toNat 3 k

/-! ## Accesses -/

/-- The bytes of a load or store: their address, how many they are, the mode, and the order. -/
structure Transfer where
  addr : BitVec 64
  length : BitVec 4
  mode32bit : Bool
  byteReverse : Bool
  trimmed : trimAddr mode32bit addr = addr
  sized : length = 1 ∨ length = 2 ∨ length = 4 ∨ length = 8

namespace Transfer

variable (a : Transfer)

/-- The number of bytes. -/
def len : Nat := a.length.toNat

/-- The address of byte `j`; addresses wrap at 32 bits in 32-bit mode. -/
def byteAddr (j : Nat) : BitVec 64 := trimAddr a.mode32bit (a.addr + BitVec.ofNat 64 j)

/-- The byte of the register that is at the address of byte `j`. -/
def regByte (j : Nat) : Nat := if a.byteReverse then a.len - 1 - j else j

/-- The bytes of the access in memory as a value, in the order of the access. -/
def bytes (mem : Mem) : BitVec 64 :=
  ofBytes fun k => if k.val < a.len then mem (a.byteAddr (a.regByte k.val)) else 0

/-- Zero- or sign-extension of the low bytes of a value. -/
def extend (signExtend : Bool) (v : BitVec 64) : BitVec 64 :=
  if signExtend then (v.setWidth (8 * a.len)).signExtend 64
  else (v.setWidth (8 * a.len)).setWidth 64

/-! ### How it is made -/

/-- `brev_mask`. -/
def brevMask : BitVec 3 := if a.byteReverse then a.length.extractLsb' 0 3 - 1 else 0

/-- The selects of the two doublewords. -/
def sel : BitVec 16 := xferDataSel a.length (laneOf a.addr)

/-- The address of the second doubleword. -/
def second : BitVec 64 :=
  let x := (dwordAddr a.addr + 1) ++ 0#3
  if a.mode32bit then x &&& ~~~(1#64 <<< 32) else x

/-- The access takes two doublewords. -/
def crosses : Bool := a.sel.extractLsb' 8 8 != 0

/-- `store_data` for the register value `v`. -/
def storeData (v : BitVec 64) : BitVec 64 :=
  ofBytes fun k => byteOf v ((BitVec.ofNat 3 k.val - laneOf a.addr) ^^^ a.brevMask)

/-- The memory after the writes of a store: one or two. -/
def store (mem : Mem) (v : BitVec 64) : Mem :=
  let mem := writeDword mem a.addr (a.sel.extractLsb' 0 8) (a.storeData v)
  if a.crosses then writeDword mem a.second (a.sel.extractLsb' 8 8) (a.storeData v) else mem

/-- The lane, and in bit 3 the doubleword, that byte `k` of the register comes from. -/
def index (k : BitVec 3) : BitVec 4 :=
  (k ^^^ a.brevMask).setWidth 4 + (laneOf a.addr).setWidth 4

/-- A doubleword with its lanes moved to their places in the register: `data_permuted`. -/
def permuted (d : BitVec 64) : BitVec 64 :=
  ofBytes fun k => byteOf d ((a.index (BitVec.ofNat 3 k.val)).extractLsb' 0 3)

end Transfer

/-! ## Selects, lanes and masks -/

theorem sel_first {length : BitVec 4} (h : length = 1 ∨ length = 2 ∨ length = 4 ∨ length = 8)
    (off k : BitVec 3) : ((xferDataSel length off).extractLsb' 0 8).getLsbD k.toNat =
      decide (off.toNat ≤ k.toNat ∧ k.toNat < off.toNat + length.toNat) := by
  rcases h with rfl | rfl | rfl | rfl <;> revert off k <;> decide

theorem sel_second {length : BitVec 4} (h : length = 1 ∨ length = 2 ∨ length = 4 ∨ length = 8)
    (off k : BitVec 3) : ((xferDataSel length off).extractLsb' 8 8).getLsbD k.toNat =
      decide (k.toNat + 8 < off.toNat + length.toNat) := by
  rcases h with rfl | rfl | rfl | rfl <;> revert off k <;> decide

theorem crosses_iff {length : BitVec 4} (h : length = 1 ∨ length = 2 ∨ length = 4 ∨ length = 8)
    (off : BitVec 3) : ((xferDataSel length off).extractLsb' 8 8 != 0) =
      decide (8 < off.toNat + length.toNat) := by
  rcases h with rfl | rfl | rfl | rfl <;> revert off <;> decide

/-- The exclusive or with the length less one turns the bytes round. -/
theorem xor_mask {length : BitVec 4} (h : length = 1 ∨ length = 2 ∨ length = 4 ∨ length = 8)
    (k : BitVec 3) (hk : k.toNat < length.toNat) :
    (k ^^^ (length.extractLsb' 0 3 - 1)).toNat = length.toNat - 1 - k.toNat := by
  revert hk
  rcases h with rfl | rfl | rfl | rfl <;> revert k <;> decide

/-! ## Addresses -/

theorem toNat_dwordAddr (x : BitVec 64) : (dwordAddr x).toNat = x.toNat / 8 := by
  have := x.isLt
  rw [dwordAddr, BitVec.extractLsb'_toNat, Nat.shiftRight_eq_div_pow]
  omega

theorem toNat_laneOf (x : BitVec 64) : (laneOf x).toNat = x.toNat % 8 := by
  rw [laneOf, BitVec.extractLsb'_toNat, Nat.shiftRight_zero]

theorem toNat_trimAddr (x : BitVec 64) :
    (trimAddr true x).toNat = x.toNat % 2 ^ 32 ∧ trimAddr false x = x := by
  refine ⟨?_, rfl⟩
  have := x.isLt
  simp only [trimAddr, if_true, BitVec.toNat_setWidth, BitVec.extractLsb'_toNat,
    Nat.shiftRight_zero]
  omega

/-- Clearing bit 32 wraps the address behind the last doubleword. -/
theorem toNat_clear_bit32 {x : BitVec 64} (h : x.toNat ≤ 2 ^ 32) :
    (x &&& ~~~(1#64 <<< 32)).toNat = x.toNat % 2 ^ 32 := by
  rcases Nat.lt_or_eq_of_le h with hlt | heq
  · rw [Nat.mod_eq_of_lt hlt]
    congr 1
    apply BitVec.eq_of_getLsbD_eq
    intro k hk
    by_cases h32 : k < 32
    · simp only [BitVec.getLsbD_and, BitVec.getLsbD_not, BitVec.getLsbD_shiftLeft]
      simp [h32, hk]
    · have : x.getLsbD k = false :=
        Nat.testBit_lt_two_pow <|
          Nat.lt_of_lt_of_le hlt (Nat.pow_le_pow_right (by decide) (by omega))
      simp only [BitVec.getLsbD_and, this, Bool.false_and]
  · obtain rfl : x = BitVec.ofNat 64 (2 ^ 32) := BitVec.eq_of_toNat_eq (by rw [heq]; rfl)
    decide

namespace Transfer

variable (a : Transfer)

theorem len_le : 1 ≤ a.len ∧ a.len ≤ 8 := by
  rcases a.sized with h | h | h | h <;> simp [len, h]

theorem laneOf_byteAddr (j : Nat) : laneOf (a.byteAddr j) = laneOf a.addr + BitVec.ofNat 3 j := by
  apply BitVec.eq_of_toNat_eq
  rw [BitVec.toNat_add, toNat_laneOf, toNat_laneOf, byteAddr, BitVec.toNat_ofNat]
  cases a.mode32bit with
  | true =>
      rw [(toNat_trimAddr _).1, BitVec.toNat_add, BitVec.toNat_ofNat]
      omega
  | false =>
      rw [(toNat_trimAddr _).2, BitVec.toNat_add, BitVec.toNat_ofNat]
      omega

/-- In 32-bit mode the address has 32 bits. -/
theorem addr_lt (h : a.mode32bit = true) : a.addr.toNat < 2 ^ 32 := by
  have := a.trimmed
  rw [h] at this
  rw [← this, (toNat_trimAddr _).1]
  exact Nat.mod_lt _ (by decide)

theorem dwordAddr_byteAddr_first {j : Nat} (h : (laneOf a.addr).toNat + j < 8) :
    dwordAddr (a.byteAddr j) = dwordAddr a.addr := by
  apply BitVec.eq_of_toNat_eq
  rw [toNat_laneOf] at h
  have := a.addr.isLt
  rw [toNat_dwordAddr, toNat_dwordAddr, byteAddr]
  cases hm : a.mode32bit with
  | true =>
      have := a.addr_lt hm
      rw [(toNat_trimAddr _).1, BitVec.toNat_add, BitVec.toNat_ofNat]
      omega
  | false =>
      rw [(toNat_trimAddr _).2, BitVec.toNat_add, BitVec.toNat_ofNat]
      omega

theorem toNat_second : a.second.toNat =
    (a.addr.toNat / 8 + 1) * 8 % 2 ^ (if a.mode32bit then 32 else 64) := by
  have := a.addr.isLt
  have hx : ((dwordAddr a.addr + 1) ++ 0#3).toNat = (a.addr.toNat / 8 + 1) * 8 % 2 ^ 64 := by
    rw [BitVec.toNat_append, BitVec.toNat_ofNat, Nat.zero_mod, Nat.or_zero, Nat.shiftLeft_eq,
      BitVec.toNat_add, toNat_dwordAddr, show (1 : BitVec 61).toNat = 1 from rfl]
    omega
  unfold second
  cases hm : a.mode32bit with
  | true =>
      have := a.addr_lt hm
      simp only [if_true]
      rw [toNat_clear_bit32 (by rw [hx]; omega), hx]
      omega
  | false => exact hx

theorem dwordAddr_byteAddr_second {j : Nat} (hj : j < 8) (h : 8 ≤ (laneOf a.addr).toNat + j) :
    dwordAddr (a.byteAddr j) = dwordAddr a.second := by
  apply BitVec.eq_of_toNat_eq
  rw [toNat_laneOf] at h
  have := a.addr.isLt
  rw [toNat_dwordAddr, toNat_dwordAddr, toNat_second, byteAddr]
  cases hm : a.mode32bit with
  | true =>
      have := a.addr_lt hm
      rw [(toNat_trimAddr _).1, BitVec.toNat_add, BitVec.toNat_ofNat, if_pos rfl]
      omega
  | false =>
      rw [(toNat_trimAddr _).2, BitVec.toNat_add, BitVec.toNat_ofNat, if_neg (by decide)]
      omega

theorem regByte_lt {j : Nat} (hj : j < a.len) : a.regByte j < a.len := by
  unfold regByte
  split_ifs <;> omega

theorem regByte_regByte {j : Nat} (hj : j < a.len) : a.regByte (a.regByte j) = j := by
  unfold regByte
  split_ifs
  · omega
  · rfl

theorem xor_brevMask (k : BitVec 3) (hk : k.toNat < a.len) :
    (k ^^^ a.brevMask).toNat = a.regByte k.toNat := by
  unfold brevMask regByte
  split_ifs
  · exact xor_mask a.sized k hk
  · exact congrArg BitVec.toNat BitVec.xor_zero

/-! ### Stores -/

/-- The addresses that the selects of the two doublewords pick out. -/
def Selects (x : BitVec 64) : Prop :=
  (dwordAddr x = dwordAddr a.addr ∧ (laneOf a.addr).toNat ≤ (laneOf x).toNat ∧
    (laneOf x).toNat < (laneOf a.addr).toNat + a.len) ∨
  (dwordAddr x = dwordAddr a.second ∧ (laneOf x).toNat + 8 < (laneOf a.addr).toNat + a.len)

/-- They are those of the bytes of the access. -/
theorem selects_iff (x : BitVec 64) : a.Selects x ↔ ∃ j, j < a.len ∧ x = a.byteAddr j := by
  obtain ⟨hl1, hl8⟩ := a.len_le
  have hoff := (laneOf a.addr).isLt
  have hk := (laneOf x).isLt
  constructor
  · rintro (⟨hd, hlo, hhi⟩ | ⟨hd, hhi⟩)
    · refine ⟨(laneOf x).toNat - (laneOf a.addr).toNat, by omega, eq_of_dwordAddr ?_ ?_⟩
      · rw [hd, a.dwordAddr_byteAddr_first (by omega)]
      · rw [laneOf_byteAddr]
        apply BitVec.eq_of_toNat_eq
        rw [BitVec.toNat_add, BitVec.toNat_ofNat]
        omega
    · refine ⟨(laneOf x).toNat + 8 - (laneOf a.addr).toNat, by omega, eq_of_dwordAddr ?_ ?_⟩
      · rw [hd, a.dwordAddr_byteAddr_second (by omega) (by omega)]
      · rw [laneOf_byteAddr]
        apply BitVec.eq_of_toNat_eq
        rw [BitVec.toNat_add, BitVec.toNat_ofNat]
        omega
  · rintro ⟨j, hj, rfl⟩
    have hlane : (laneOf (a.byteAddr j)).toNat = ((laneOf a.addr).toNat + j) % 8 := by
      rw [laneOf_byteAddr, BitVec.toNat_add, BitVec.toNat_ofNat]
      omega
    by_cases h8 : (laneOf a.addr).toNat + j < 8
    · exact Or.inl ⟨a.dwordAddr_byteAddr_first h8, by omega, by omega⟩
    · exact Or.inr ⟨a.dwordAddr_byteAddr_second (by omega) (by omega), by omega⟩

/-- The two writes of a store come to one at the selected addresses. -/
theorem store_apply (mem : Mem) (v x : _) [Decidable (a.Selects x)] : a.store mem v x =
    if a.Selects x then byteOf (a.storeData v) (laneOf x) else mem x := by
  have hc : a.crosses = decide (8 < (laneOf a.addr).toNat + a.len) := crosses_iff a.sized _
  have h1 : (a.sel.extractLsb' 0 8).getLsbD (laneOf x).toNat =
      decide ((laneOf a.addr).toNat ≤ (laneOf x).toNat ∧
        (laneOf x).toNat < (laneOf a.addr).toNat + a.len) := sel_first a.sized _ _
  have h2 : (a.sel.extractLsb' 8 8).getLsbD (laneOf x).toNat =
      decide ((laneOf x).toNat + 8 < (laneOf a.addr).toNat + a.len) := sel_second a.sized _ _
  have hsel : a.Selects x ↔
      (dwordAddr x = dwordAddr a.addr ∧ (a.sel.extractLsb' 0 8).getLsbD (laneOf x).toNat = true) ∨
      (dwordAddr x = dwordAddr a.second ∧
        (a.sel.extractLsb' 8 8).getLsbD (laneOf x).toNat = true) := by
    rw [h1, h2, decide_eq_true_iff, decide_eq_true_iff]
    rfl
  unfold store
  by_cases hcr : 8 < (laneOf a.addr).toNat + a.len
  · rw [hc, decide_eq_true hcr, if_pos rfl]
    unfold writeDword
    by_cases hs : a.Selects x
    · rw [if_pos hs]
      rcases hsel.mp hs with hd | hd
      · rw [if_pos hd, ite_self]
      · rw [if_pos hd]
    · rw [if_neg hs]
      rw [hsel, not_or] at hs
      rw [if_neg hs.2, if_neg hs.1]
  · have hno : (a.sel.extractLsb' 8 8).getLsbD (laneOf x).toNat = false := by
      rw [h2]
      exact decide_eq_false (by omega)
    rw [hc, decide_eq_false hcr, if_neg (by decide)]
    rw [hno] at hsel
    unfold writeDword
    refine if_congr ?_ rfl rfl
    rw [hsel]
    simp

theorem byteOf_storeData (v : BitVec 64) {j : Nat} (hj : j < a.len) :
    byteOf (a.storeData v) (laneOf (a.byteAddr j)) = byteOf v (BitVec.ofNat 3 (a.regByte j)) := by
  obtain ⟨-, hl8⟩ := a.len_le
  rw [storeData, byteOf_ofBytes, laneOf_byteAddr]
  congr 1
  have hj3 : (BitVec.ofNat 3 j).toNat = j := by
    rw [BitVec.toNat_ofNat]
    omega
  have hsub : BitVec.ofNat 3 (laneOf a.addr + BitVec.ofNat 3 j).toFin.val - laneOf a.addr =
      BitVec.ofNat 3 j := by
    rw [show (laneOf a.addr + BitVec.ofNat 3 j).toFin.val =
      (laneOf a.addr + BitVec.ofNat 3 j).toNat from rfl, BitVec.ofNat_toNat, BitVec.setWidth_eq,
      BitVec.add_comm, BitVec.add_sub_cancel]
  rw [hsub]
  apply BitVec.eq_of_toNat_eq
  rw [a.xor_brevMask _ (by omega), hj3, BitVec.toNat_ofNat]
  have := a.regByte_lt hj
  omega

/-- A store writes the bytes of the register, in the order of the access, to their addresses. -/
theorem store_byteAddr (mem : Mem) (v : BitVec 64) {j : Nat} (hj : j < a.len) :
    a.store mem v (a.byteAddr j) = byteOf v (BitVec.ofNat 3 (a.regByte j)) := by
  classical
  rw [store_apply, if_pos ((a.selects_iff _).mpr ⟨j, hj, rfl⟩), a.byteOf_storeData v hj]

/-- It writes no other byte. -/
theorem store_other (mem : Mem) (v : BitVec 64) {x : BitVec 64}
    (hx : ∀ j, j < a.len → x ≠ a.byteAddr j) : a.store mem v x = mem x := by
  classical
  rw [store_apply, if_neg]
  rw [selects_iff]
  rintro ⟨j, hj, rfl⟩
  exact hx j hj rfl

/-! ### Loads -/

theorem byteOf_bytes (mem : Mem) (k : BitVec 3) : byteOf (a.bytes mem) k =
    if k.toNat < a.len then mem (a.byteAddr (a.regByte k.toNat)) else 0 := by
  rw [bytes, byteOf_ofBytes]
  rfl

theorem byteOf_permuted (d : BitVec 64) (k : BitVec 3) :
    byteOf (a.permuted d) k = byteOf d ((a.index k).extractLsb' 0 3) := by
  rw [permuted, byteOf_ofBytes]
  congr 3
  exact BitVec.ofNat_toNat 3 k

theorem toNat_index {k : BitVec 3} (hk : k.toNat < a.len) :
    (a.index k).toNat = a.regByte k.toNat + (laneOf a.addr).toNat := by
  obtain ⟨-, hl8⟩ := a.len_le
  have := a.regByte_lt hk
  have := (laneOf a.addr).isLt
  rw [index, BitVec.toNat_add, BitVec.toNat_setWidth, BitVec.toNat_setWidth, a.xor_brevMask k hk]
  omega

/-- Stage 2 holds the formatting controls of the access. -/
structure Formats (r2 : RegStage2) : Prop where
  length : r2.req.length = a.length
  byteReverse : r2.req.byteReverse = a.byteReverse
  byteIndex : r2.byteIndex = fun k => (a.index (BitVec.ofNat 3 k.val)).extractLsb' 0 3
  useSecond : r2.useSecond = fun k => (a.index (BitVec.ofNat 3 k.val)).getLsbD 3

variable {a} {s : State} {i : Input} {mem : Mem}

theorem Formats.dataPermuted (h : a.Formats s.r2) : dataPermuted s i = a.permuted i.dIn.data := by
  unfold Loadstore1.dataPermuted permuted
  rw [h.byteIndex]

/-- The doubleword that byte `k` of the register is taken from. -/
def dwordFor (a : Transfer) (s : State) (i : Input) (k : BitVec 3) : BitVec 64 :=
  if a.crosses && !(a.index k).getLsbD 3 then s.r3.loadData else a.permuted i.dIn.data

/-- The doublewords of the access have been read: the first, if there are two, is in stage 3, and
the other has just come. -/
structure Read (a : Transfer) (mem : Mem) (s : State) (i : Input) : Prop where
  first : a.crosses = true → s.r3.loadData = a.permuted (readDword mem a.addr)
  last : i.dIn.data = readDword mem (if a.crosses then a.second else a.addr)

theorem byteOf_dwordFor (h : a.Read mem s i) {k : BitVec 3} (hk : k.toNat < a.len) :
    byteOf (a.dwordFor s i k) k = byteOf (a.bytes mem) k := by
  obtain ⟨-, hl8⟩ := a.len_le
  have hoff := (laneOf a.addr).isLt
  have hr := a.regByte_lt hk
  have hix := a.toNat_index hk
  have hlane : (a.index k).extractLsb' 0 3 = laneOf (a.byteAddr (a.regByte k.toNat)) := by
    rw [laneOf_byteAddr]
    apply BitVec.eq_of_toNat_eq
    rw [BitVec.extractLsb'_toNat, Nat.shiftRight_zero, hix, BitVec.toNat_add, BitVec.toNat_ofNat]
    omega
  have h3 : (a.index k).getLsbD 3 = decide (8 ≤ a.regByte k.toNat + (laneOf a.addr).toNat) := by
    rw [Bits.getLsbD_eq_div, hix]
    congr 1
    apply propext
    omega
  have hc : a.crosses = decide (8 < (laneOf a.addr).toNat + a.len) := crosses_iff a.sized _
  rw [byteOf_bytes, if_pos hk, dwordFor, h3]
  by_cases h8 : 8 ≤ a.regByte k.toNat + (laneOf a.addr).toNat
  · -- in the second doubleword
    have hcr : a.crosses = true := by
      rw [hc]
      exact decide_eq_true (by omega)
    have hdw : dwordAddr (a.byteAddr (a.regByte k.toNat)) = dwordAddr a.second :=
      a.dwordAddr_byteAddr_second (by omega) (by omega)
    rw [decide_eq_true h8, hcr, Bool.not_true, Bool.and_false, if_neg (by decide), byteOf_permuted,
      h.last, hcr, if_pos rfl, byteOf_readDword, hlane, ← hdw, dwordAddr_laneOf]
  · -- in the first, which has been kept if there are two
    have hdw : dwordAddr (a.byteAddr (a.regByte k.toNat)) = dwordAddr a.addr :=
      a.dwordAddr_byteAddr_first (by omega)
    rw [decide_eq_false h8, Bool.not_false, Bool.and_true]
    cases hcr : a.crosses with
    | true =>
        rw [if_pos rfl, h.first hcr, byteOf_permuted, byteOf_readDword, hlane, ← hdw,
          dwordAddr_laneOf]
    | false =>
        rw [if_neg (by decide), byteOf_permuted, h.last, hcr, if_neg (by decide), byteOf_readDword,
          hlane, ← hdw, dwordAddr_laneOf]

theorem byteOf_extend (a : Transfer) (signExtend : Bool) (v : BitVec 64) (k : BitVec 3) :
    byteOf (a.extend signExtend v) k =
      if k.toNat < a.len then byteOf v k
      else if v.getLsbD (8 * a.len - 1) && signExtend then 0xff else 0 := by
  obtain ⟨hl1, hl8⟩ := a.len_le
  apply BitVec.eq_of_getLsbD_eq
  intro j hj
  have hk := k.isLt
  rw [getLsbD_byteOf _ _ hj]
  cases signExtend with
  | false =>
      simp only [extend, Bool.false_eq_true, if_false, Bool.and_false, BitVec.getLsbD_setWidth]
      split_ifs with hlt
      · rw [getLsbD_byteOf _ _ hj, decide_eq_true (by omega), decide_eq_true (by omega)]
        rfl
      · rw [decide_eq_false (by omega : ¬ 8 * k.toNat + j < 8 * a.len)]
        simp
  | true =>
      simp only [extend, if_true, Bool.and_true, BitVec.getLsbD_signExtend,
        BitVec.getLsbD_setWidth, BitVec.msb_setWidth]
      rw [decide_eq_true (by omega), Bool.true_and]
      by_cases hlt : k.toNat < a.len
      · rw [if_pos hlt, if_pos (by omega), getLsbD_byteOf _ _ hj, decide_eq_true (by omega),
          Bool.true_and]
      · have hones : ∀ j, j < 8 → (0xff#8).getLsbD j = true := by decide
        rw [if_neg hlt, if_neg (by omega), decide_eq_true (by omega), Bool.true_and]
        cases v.getLsbD (8 * a.len - 1) with
        | true => exact (hones j hj).symm
        | false => exact BitVec.getLsbD_zero.symm

/-- The sign is bit 7 of the highest byte that is read. -/
theorem negative_eq (h : a.Formats s.r2) (hd : s.r2.req.dwordIndex = a.crosses)
    (hr : a.Read mem s i) : negative s i = (a.bytes mem).getLsbD (8 * a.len - 1) := by
  obtain ⟨hl1, hl8⟩ := a.len_le
  have hoff := (laneOf a.addr).isLt
  have hk : (BitVec.ofNat 3 (a.len - 1)).toNat = a.len - 1 := by
    rw [BitVec.toNat_ofNat]
    omega
  have hlt : (BitVec.ofNat 3 (a.len - 1)).toNat < a.len := by omega
  -- which of the two doublewords that is
  have hsel : (if s.r2.req.dwordIndex && s.r2.req.byteReverse then s.r3.loadData
      else dataPermuted s i) = a.dwordFor s i (BitVec.ofNat 3 (a.len - 1)) := by
    have hix := a.toNat_index hlt
    have hc : a.crosses = decide (8 < (laneOf a.addr).toNat + a.len) := crosses_iff a.sized _
    have h3 : (a.index (BitVec.ofNat 3 (a.len - 1))).getLsbD 3 =
        decide (8 ≤ a.regByte (a.len - 1) + (laneOf a.addr).toNat) := by
      rw [Bits.getLsbD_eq_div, hix, hk]
      have := a.regByte_lt (show a.len - 1 < a.len by omega)
      congr 1
      apply propext
      omega
    rw [dwordFor, hd, h.byteReverse, h.dataPermuted, h3]
    congr 2
    rw [hc, regByte]
    by_cases hcr : 8 < (laneOf a.addr).toNat + a.len
    · rw [decide_eq_true hcr, Bool.true_and, Bool.true_and]
      split_ifs with hb
      · rw [hb, decide_eq_false (by omega)]
        rfl
      · rw [decide_eq_true (by omega)]
        simpa using hb
    · rw [decide_eq_false hcr, Bool.false_and, Bool.false_and]
  have hbit : (a.bytes mem).getLsbD (8 * a.len - 1) =
      (a.dwordFor s i (BitVec.ofNat 3 (a.len - 1))).getLsbD (8 * a.len - 1) := by
    have := congrArg (fun b => b.getLsbD 7) (byteOf_dwordFor hr hlt)
    simp only [getLsbD_byteOf _ _ (by decide : 7 < 8), hk] at this
    rw [show 8 * (a.len - 1) + 7 = 8 * a.len - 1 by omega] at this
    exact this.symm
  rw [hbit, ← hsel]
  unfold negative
  rw [h.length]
  generalize (if (s.r2.req.dwordIndex && s.r2.req.byteReverse) = true then s.r3.loadData
    else dataPermuted s i) = d
  rcases a.sized with hl | hl | hl | hl <;> simp [len, hl]

/-- What a load puts into its register: the bytes in memory, in their order, extended. -/
theorem dataTrimmed_eq (h : a.Formats s.r2) (hd : s.r2.req.dwordIndex = a.crosses)
    (hr : a.Read mem s i) :
    dataTrimmed s i = a.extend s.r2.req.signExtend (a.bytes mem) := by
  apply eq_of_byteOf
  intro k
  have hk : BitVec.ofNat 3 k.toFin.val = k := BitVec.ofNat_toNat 3 k
  rw [byteOf_extend, dataTrimmed, byteOf_ofBytes, negative_eq h hd hr, h.length, h.useSecond, hd,
    hk]
  change (if k.toNat < a.len then _ else _) = _
  refine if_ctx_congr Iff.rfl (fun hlt => ?_) (fun _ => rfl)
  rw [← byteOf_dwordFor hr hlt, dwordFor, h.dataPermuted]
  change (if a.crosses && !(a.index (BitVec.ofNat 3 k.toFin.val)).getLsbD 3 then _ else _) = _
  rw [hk]
  split_ifs <;> rfl

/-- A load of the same form gets what a store has written. -/
theorem bytes_store (a : Transfer) (mem : Mem) (v : BitVec 64) (signExtend : Bool) :
    a.extend signExtend (a.bytes (a.store mem v)) = a.extend signExtend v := by
  obtain ⟨hl1, hl8⟩ := a.len_le
  have hbyte (k : BitVec 3) (hk : k.toNat < a.len) :
      byteOf (a.bytes (a.store mem v)) k = byteOf v k := by
    rw [byteOf_bytes, if_pos hk, a.store_byteAddr mem v (a.regByte_lt hk), a.regByte_regByte hk,
      BitVec.ofNat_toNat, BitVec.setWidth_eq]
  have hsign : (a.bytes (a.store mem v)).getLsbD (8 * a.len - 1) = v.getLsbD (8 * a.len - 1) := by
    have hk : (BitVec.ofNat 3 (a.len - 1)).toNat = a.len - 1 := by
      rw [BitVec.toNat_ofNat]
      omega
    have := congrArg (fun b => b.getLsbD 7) (hbyte (BitVec.ofNat 3 (a.len - 1)) (by omega))
    simp only [getLsbD_byteOf _ _ (by decide : 7 < 8), hk] at this
    rw [show 8 * (a.len - 1) + 7 = 8 * a.len - 1 by omega] at this
    exact this
  apply eq_of_byteOf
  intro k
  rw [byteOf_extend, byteOf_extend, hsign]
  exact if_ctx_congr Iff.rfl (fun hk => hbyte k hk) (fun _ => rfl)

end Transfer

end Microwatt.Loadstore1
