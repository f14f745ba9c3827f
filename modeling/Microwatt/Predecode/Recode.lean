import Microwatt.Predecode.Tables
import Microwatt.Lib.Bits

/-!
# Predecoding and reading back

The predecoder stores the code of an instruction in place of its primary opcode, and the output
stage of the instruction cache puts the opcode back.
-/

namespace Microwatt.Predecode

/-! ## The predecoder -/

section Predecoder

variable (iword : BitVec 32)

def majaddr : BitVec 11 := iword.extractLsb' 26 6 ++ iword.extractLsb' 0 5

/-- `rowaddr`; the columns of the opcodes 19 and 59 are remapped. -/
def rowaddr : BitVec 11 :=
  BitVec.ofBool (iword.getLsbD 31 || !iword.getLsbD 29) ++
    (iword.extractLsb' 6 5 ++
      ((if !iword.getLsbD 28 then 0b1#1 ++ iword.extractLsb' 5 1 else iword.extractLsb' 4 2) ++
        iword.extractLsb' 1 3))

/-- `predec_t`. -/
structure Predec where
  image : BitVec 32
  majPredecode : BitVec 10
  rowPredecode : BitVec 10

/-- The process `predecode_0`, for one word. -/
def predecode0 : Predec where
  image := iword
  majPredecode := (romLookup majorPredecodeRom (majaddr iword)).pos
  rowPredecode := (romLookup rowPredecodeRom (rowaddr iword)).pos

/-- `use_row`. -/
def useRow : Bool :=
  match iword.extractLsb' 26 6 with
  | 0b010011 => iword.getLsbD 5 || (!iword.getLsbD 3 && !iword.getLsbD 2)
  | 0b011111 => true
  | 0b111011 => !iword.getLsbD 5
  | 0b111111 => !iword.getLsbD 5
  | _ => false

/-- `illegal`, from the columns alone. -/
def illegalColumn : Bool :=
  match iword.extractLsb' 26 6 with
  | 0b000100 => !iword.getLsbD 5
  | 0b010011 => iword.getLsbD 4
  | 0b111011 => !iword.getLsbD 5 && (!iword.getLsbD 4 || !iword.getLsbD 3)
  | _ => false

end Predecoder

/-- `INSN_first_frs`. -/
def InsnCode.firstFrs : InsnCode := .stfd

/-- The process `predecode_1`: the bits of an illegal instruction are kept. -/
def predecode1 (hasFpu valid : Bool) (pred : Predec) : BitVec 36 :=
  let iword := pred.image
  -- ori, special-case the standard NOP
  let major := if iword = 0x60000000 then InsnCode.nop.pos else pred.majPredecode
  let icode := if useRow iword then pred.rowPredecode else major
  let illegal := illegalColumn iword || (!hasFpu && decide (InsnCode.firstFrs.pos ≤ icode))
  if !valid || illegal || icode == InsnCode.illegal.pos then 0b1000#4 ++ iword
  else icode ++ iword.extractLsb' 0 26

/-- A word through the predecoder. -/
def predecode (hasFpu valid : Bool) (iword : BitVec 32) : BitVec 36 :=
  predecode1 hasFpu valid (predecode0 iword)

/-! ## The output of the instruction cache -/

/-- The instruction and its code; the primary opcode may be undefined. -/
structure IcacheInsn where
  primary : Option (BitVec 6)
  image : BitVec 26
  icode : InsnCode

/-- `i_out.insn` and `i_out.icode`, from a word of the cache. -/
def icacheInsn (insn : BitVec 36) : IcacheInsn :=
  if !insn.getLsbD 35 then
    let icode := InsnCode.val (insn.extractLsb' 26 10)
    ⟨recodePrimaryOpcode icode, insn.extractLsb' 0 26, icode⟩
  else ⟨some (insn.extractLsb' 26 6), insn.extractLsb' 0 26, .illegal⟩

/-- The whole instruction, if all its bits are defined. -/
def IcacheInsn.insn (i : IcacheInsn) : Option (BitVec 32) := i.primary.map (· ++ i.image)

/-! ## The tables -/

/-- What a table holds satisfies what each of its lines does. -/
theorem romLookup_cases (rom : List RomEntry) (addr : BitVec 11) :
    romLookup rom addr = .illegal ∨ ∃ e ∈ rom, e.first ≤ addr.toNat ∧ addr.toNat ≤ e.last ∧
      romLookup rom addr = e.icode := by
  unfold romLookup
  cases hfind : rom.find? fun e => e.first ≤ addr.toNat && addr.toNat ≤ e.last with
  | none => exact Or.inl rfl
  | some e =>
      have hrange := List.find?_some hfind
      simp only [Bool.and_eq_true, decide_eq_true_eq] at hrange
      exact Or.inr ⟨e, List.mem_of_find?_eq_some hfind, hrange.1, hrange.2, rfl⟩

/-- A line of the major table belongs to one opcode, which its code recodes to. -/
def majorLineOk (e : RomEntry) : Bool :=
  e.last / 32 == e.first / 32 &&
    recodePrimaryOpcode e.icode == some (BitVec.ofNat 6 (e.first / 32))

theorem majorPredecodeRom_ok : majorPredecodeRom.all majorLineOk = true := by
  decide +kernel

/-- The opcode that a line of the row table belongs to. -/
def rowOpcode (addr : BitVec 11) : BitVec 6 :=
  if !addr.getLsbD 10 then 31
  else if !addr.getLsbD 4 then 63
  else if !addr.getLsbD 3 && addr.getLsbD 2 then 59
  else 19

/-- The lines whose codes `recode_primary_opcode` leaves out: `cfuged`, `pdepd`, `pextd` and
`rfscv`. -/
def unrecodedRows : List (BitVec 11) :=
  [0b0_00110_11100, 0b0_00100_11100, 0b0_00101_11100, 0b1_00010_11010]

def rowLineOk (e : RomEntry) : Bool :=
  let addr := BitVec.ofNat 11 e.first
  e.last == e.first && e.first < 2048 &&
    recodePrimaryOpcode e.icode == if addr ∈ unrecodedRows then none else some (rowOpcode addr)

theorem rowPredecodeRom_ok : rowPredecodeRom.all rowLineOk = true := by
  decide +kernel

/-! ## Codes -/

theorem ctorIdx_lt (icode : InsnCode) : icode.ctorIdx < 512 := by
  cases icode <;> decide

theorem pos_toNat (icode : InsnCode) : icode.pos.toNat = icode.ctorIdx := by
  have hlt := ctorIdx_lt icode
  unfold InsnCode.pos
  rw [BitVec.toNat_ofNat]
  omega

theorem val_pos (icode : InsnCode) : InsnCode.val icode.pos = icode := by
  unfold InsnCode.val
  rw [pos_toNat]
  exact InsnCode.ofNat_ctorIdx icode

theorem pos_inj {a b : InsnCode} : a.pos = b.pos ↔ a = b := by
  constructor
  · intro h
    rw [← val_pos a, h, val_pos]
  · rintro rfl
    rfl

/-- The code that the predecoder selects. -/
def selected (iword : BitVec 32) : InsnCode :=
  if useRow iword then romLookup rowPredecodeRom (rowaddr iword)
  else if iword = 0x60000000 then .nop
  else romLookup majorPredecodeRom (majaddr iword)

/-- The word is passed on with its code, which is a legal one. -/
def Accepted (hasFpu valid : Bool) (iword : BitVec 32) : Prop :=
  valid = true ∧ illegalColumn iword = false ∧
    (hasFpu = true ∨ ¬InsnCode.firstFrs.pos ≤ (selected iword).pos) ∧ selected iword ≠ .illegal

instance (hasFpu valid : Bool) (iword : BitVec 32) : Decidable (Accepted hasFpu valid iword) :=
  inferInstanceAs (Decidable (_ ∧ _))

theorem predecode_eq (hasFpu valid : Bool) (iword : BitVec 32) :
    predecode hasFpu valid iword =
      if Accepted hasFpu valid iword then (selected iword).pos ++ iword.extractLsb' 0 26
      else 0b1000#4 ++ iword := by
  have hsel : (if useRow iword then (predecode0 iword).rowPredecode
      else if iword = 0x60000000 then InsnCode.nop.pos else (predecode0 iword).majPredecode) =
        (selected iword).pos := by
    unfold selected predecode0
    split_ifs <;> rfl
  have hcond : (!valid || (illegalColumn iword ||
      (!hasFpu && decide (InsnCode.firstFrs.pos ≤ (selected iword).pos))) ||
        (selected iword).pos == InsnCode.illegal.pos) = true ↔ ¬Accepted hasFpu valid iword := by
    unfold Accepted
    simp only [Bool.or_eq_true, Bool.not_eq_true', Bool.and_eq_true, decide_eq_true_eq, beq_iff_eq,
      pos_inj]
    grind
  unfold predecode predecode1
  rw [show (predecode0 iword).image = iword from rfl]
  dsimp only
  rw [hsel]
  by_cases h : Accepted hasFpu valid iword
  · rw [if_pos h, if_neg (mt hcond.mp (not_not.mpr h))]
  · rw [if_neg h, if_pos (hcond.mpr h)]

theorem icacheInsn_illegal (iword : BitVec 32) :
    icacheInsn (0b1000#4 ++ iword) =
      ⟨some (iword.extractLsb' 26 6), iword.extractLsb' 0 26, .illegal⟩ := by
  have htop : (0b1000#4 ++ iword).getLsbD 35 = true := by
    rw [BitVec.getLsbD_append]
    rfl
  have hprimary : (0b1000#4 ++ iword).extractLsb' 26 6 = iword.extractLsb' 26 6 :=
    BitVec.extractLsb'_append_eq_of_add_le (by decide)
  have himage : (0b1000#4 ++ iword).extractLsb' 0 26 = iword.extractLsb' 0 26 :=
    BitVec.extractLsb'_append_eq_of_add_le (by decide)
  unfold icacheInsn
  rw [htop, hprimary, himage]
  rfl

theorem icacheInsn_code (icode : InsnCode) (image : BitVec 26) :
    icacheInsn (icode.pos ++ image) = ⟨recodePrimaryOpcode icode, image, icode⟩ := by
  have htop : (icode.pos ++ image).getLsbD 35 = false := by
    have hlt := ctorIdx_lt icode
    rw [BitVec.getLsbD_append]
    show icode.pos.getLsbD 9 = false
    rw [BitVec.getLsbD, pos_toNat]
    exact Nat.testBit_lt_two_pow hlt
  have hcode : (icode.pos ++ image).extractLsb' 26 10 = icode.pos :=
    BitVec.extractLsb'_append_eq_left
  have himage : (icode.pos ++ image).extractLsb' 0 26 = image :=
    BitVec.extractLsb'_append_eq_right
  unfold icacheInsn
  rw [htop, hcode, himage, val_pos]
  rfl

/-! ## Which words come back -/

/-- `cfuged`, `pdepd`, `pextd` or `rfscv`. -/
def Unrecoded (iword : BitVec 32) : Prop :=
  (iword.extractLsb' 26 6 = 31 ∧
      iword.extractLsb' 1 10 ∈ [0b00110_11100#10, 0b00100_11100#10, 0b00101_11100#10]) ∨
    (iword.extractLsb' 26 6 = 19 ∧ iword.extractLsb' 1 10 = 0b00010_10010#10)

instance (iword : BitVec 32) : Decidable (Unrecoded iword) :=
  inferInstanceAs (Decidable (_ ∨ _))

section Word

variable {iword : BitVec 32}

/-- A bit of the primary opcode. -/
theorem getLsbD_of_opcode {op : BitVec 6} (h : iword.extractLsb' 26 6 = op) {k : Nat} (hk : k < 6) :
    iword.getLsbD (26 + k) = op.getLsbD k := by
  rw [← h, BitVec.getLsbD_extractLsb']
  simp [hk]

theorem getLsbD_rowaddr (iword : BitVec 32) :
    (rowaddr iword).getLsbD 10 = (iword.getLsbD 31 || !iword.getLsbD 29) ∧
      (rowaddr iword).getLsbD 4 = (!iword.getLsbD 28 || iword.getLsbD 5) ∧
      (rowaddr iword).getLsbD 3 = (if iword.getLsbD 28 then iword.getLsbD 4 else iword.getLsbD 5) ∧
      (rowaddr iword).getLsbD 2 = iword.getLsbD 3 := by
  have hone : (0b1#1 ++ iword.extractLsb' 5 1)[1] = true := by
    rw [← BitVec.getLsbD_eq_getElem, BitVec.getLsbD_append]
    rfl
  have hzero : (0b1#1 ++ iword.extractLsb' 5 1)[0] = iword.getLsbD 5 := by
    rw [← BitVec.getLsbD_eq_getElem, BitVec.getLsbD_append]
    simp
  unfold rowaddr
  simp only [BitVec.getLsbD_append]
  cases iword.getLsbD 28
  · simp [hone, hzero]
  · simp

/-- The row table is indexed in the part that belongs to the opcode. -/
theorem rowOpcode_rowaddr (huse : useRow iword = true) (hcol : illegalColumn iword = false) :
    rowOpcode (rowaddr iword) = iword.extractLsb' 26 6 := by
  obtain ⟨h10, h4, h3, h2⟩ := getLsbD_rowaddr iword
  unfold rowOpcode
  rw [h10, h4, h3, h2]
  unfold illegalColumn at hcol
  unfold useRow at huse
  split at huse
  case h_5 => exact Bool.noConfusion huse
  all_goals
    rename_i hop
    have h31 := getLsbD_of_opcode hop (k := 5) (by decide)
    have h29 := getLsbD_of_opcode hop (k := 3) (by decide)
    have h28 := getLsbD_of_opcode hop (k := 2) (by decide)
    rw [hop] at hcol ⊢
    simp only [Nat.reduceAdd] at h31 h29 h28
    rw [h31, h29, h28]
    revert huse hcol
    generalize iword.getLsbD 5 = b5
    generalize iword.getLsbD 4 = b4
    generalize iword.getLsbD 3 = b3
    generalize iword.getLsbD 2 = b2
    revert b5 b4 b3 b2
    decide

/-- `rowaddr`, from the opcode and the bits 10 to 1. -/
def rowaddrOf (op : BitVec 6) (column : BitVec 10) : BitVec 11 :=
  BitVec.ofBool (op.getLsbD 5 || !op.getLsbD 3) ++
    (column.extractLsb' 5 5 ++
      ((if !op.getLsbD 2 then 0b1#1 ++ column.extractLsb' 4 1 else column.extractLsb' 3 2) ++
        column.extractLsb' 0 3))

theorem rowaddr_eq (iword : BitVec 32) :
    rowaddr iword = rowaddrOf (iword.extractLsb' 26 6) (iword.extractLsb' 1 10) := by
  have hop {k : Nat} (hk : k < 6) : (iword.extractLsb' 26 6).getLsbD k =
      iword.getLsbD (26 + k) := by
    simp [hk]
  have hcol {k n : Nat} (hkn : k + n ≤ 10) :
      (iword.extractLsb' 1 10).extractLsb' k n = iword.extractLsb' (1 + k) n := by
    apply BitVec.eq_of_getLsbD_eq
    intro i hi
    have hlt : k + i < 10 := by omega
    simp [hi, hlt, Nat.add_assoc]
  unfold rowaddr rowaddrOf
  rw [hop (by decide), hop (by decide), hop (by decide), hcol (by decide), hcol (by decide),
    hcol (by decide), hcol (by decide)]

theorem Unrecoded.columns (h : Unrecoded iword) :
    useRow iword = true ∧ illegalColumn iword = false ∧ rowaddr iword ∈ unrecodedRows := by
  have hbit {k : Nat} (hk : k < 10) : iword.getLsbD (1 + k) =
      (iword.extractLsb' 1 10).getLsbD k := by
    simp [hk]
  have h5 := hbit (k := 4) (by decide)
  have h4 := hbit (k := 3) (by decide)
  unfold useRow illegalColumn
  rw [rowaddr_eq]
  rcases h with ⟨hop, hcol⟩ | ⟨hop, hcol⟩
  · rw [hop]
    refine ⟨rfl, rfl, ?_⟩
    simp only [List.mem_cons, List.not_mem_nil, or_false] at hcol
    rcases hcol with hcol | hcol | hcol <;> rw [hcol] <;> decide
  · rw [hcol] at h5 h4
    rw [hop, hcol]
    refine ⟨?_, h4, by decide⟩
    show (iword.getLsbD 5 || _) = true
    rw [show iword.getLsbD 5 = true from h5]
    rfl

/-- The lines left out are reached by no other words. -/
theorem unrecoded_of_rowaddr (huse : useRow iword = true) (hcol : illegalColumn iword = false)
    (h : rowaddr iword ∈ unrecodedRows) : Unrecoded iword := by
  have hbit {k : Nat} (hk : k < 10) : iword.getLsbD (1 + k) =
      (iword.extractLsb' 1 10).getLsbD k := by
    simp [hk]
  have h5 : iword.getLsbD 5 = _ := hbit (k := 4) (by decide)
  have h4 : iword.getLsbD 4 = _ := hbit (k := 3) (by decide)
  have h3 : iword.getLsbD 3 = _ := hbit (k := 2) (by decide)
  have h2 : iword.getLsbD 2 = _ := hbit (k := 1) (by decide)
  rw [rowaddr_eq] at h
  unfold Unrecoded
  unfold illegalColumn at hcol
  unfold useRow at huse
  rw [h5, h4, h3] at hcol
  rw [h5, h3, h2] at huse
  split at huse
  case h_5 => exact Bool.noConfusion huse
  all_goals
    rename_i hop
    rw [hop] at hcol h ⊢
    revert huse hcol h
    generalize iword.extractLsb' 1 10 = column
    revert column
    decide +kernel

/-- A legal code recodes to the primary opcode or not at all. -/
theorem recode_selected (hcol : illegalColumn iword = false) (hsel : selected iword ≠ .illegal) :
    recodePrimaryOpcode (selected iword) =
      if Unrecoded iword then none else some (iword.extractLsb' 26 6) := by
  unfold selected at hsel ⊢
  by_cases huse : useRow iword = true
  · rw [if_pos huse] at hsel ⊢
    obtain hill | ⟨e, he, hfirst, hlast, hcode⟩ := romLookup_cases rowPredecodeRom (rowaddr iword)
    · exact absurd hill hsel
    · have hok := List.all_eq_true.mp rowPredecodeRom_ok e he
      unfold rowLineOk at hok
      simp only [Bool.and_eq_true, beq_iff_eq, decide_eq_true_eq] at hok
      obtain ⟨⟨hsame, -⟩, hrec⟩ := hok
      have haddr : BitVec.ofNat 11 e.first = rowaddr iword := by
        rw [show e.first = (rowaddr iword).toNat by omega, BitVec.ofNat_toNat, BitVec.setWidth_eq]
      rw [hcode, hrec, haddr, rowOpcode_rowaddr huse hcol]
      by_cases hun : Unrecoded iword
      · rw [if_pos hun, if_pos hun.columns.2.2]
      · rw [if_neg hun, if_neg fun h => hun (unrecoded_of_rowaddr huse hcol h)]
  · have hun : ¬Unrecoded iword := fun h => huse h.columns.1
    rw [if_neg huse] at hsel ⊢
    rw [if_neg hun]
    by_cases hnop : iword = 0x60000000
    · rw [if_pos hnop, hnop]
      rfl
    · rw [if_neg hnop] at hsel ⊢
      obtain hill | ⟨e, he, hfirst, hlast, hcode⟩ :=
        romLookup_cases majorPredecodeRom (majaddr iword)
      · exact absurd hill hsel
      · have hok := List.all_eq_true.mp majorPredecodeRom_ok e he
        unfold majorLineOk at hok
        simp only [Bool.and_eq_true, beq_iff_eq] at hok
        have hop : (majaddr iword).toNat / 32 = (iword.extractLsb' 26 6).toNat := by
          unfold majaddr
          have hlow := (iword.extractLsb' 0 5).isLt
          rw [Bits.toNat_append]
          omega
        have hline : e.first / 32 = (iword.extractLsb' 26 6).toNat := by omega
        rw [hcode, hok.2, hline, BitVec.ofNat_toNat, BitVec.setWidth_eq]

/-- The words left out are accepted. -/
theorem Unrecoded.accepted (h : Unrecoded iword) (hasFpu : Bool) : Accepted hasFpu true iword := by
  obtain ⟨huse, hcol, hmem⟩ := h.columns
  have hcode : ∀ addr ∈ unrecodedRows,
      ¬InsnCode.firstFrs.pos ≤ (romLookup rowPredecodeRom addr).pos ∧
      romLookup rowPredecodeRom addr ≠ .illegal := by
    decide +kernel
  unfold Accepted selected
  rw [if_pos huse]
  exact ⟨rfl, hcol, Or.inr (hcode _ hmem).1, (hcode _ hmem).2⟩

end Word

/-- The word comes back with all its bits and with a code of its own opcode, or as illegal. -/
def ReadsBack (hasFpu valid : Bool) (iword : BitVec 32) : Prop :=
  let out := icacheInsn (predecode hasFpu valid iword)
  out.insn = some iword ∧
    (out.icode = .illegal ∨ recodePrimaryOpcode out.icode = some (iword.extractLsb' 26 6))

theorem readsBack_iff (hasFpu valid : Bool) (iword : BitVec 32) :
    ReadsBack hasFpu valid iword ↔ ¬(valid = true ∧ Unrecoded iword) := by
  have hsplit : iword.extractLsb' 26 6 ++ iword.extractLsb' 0 26 = iword :=
    BitVec.extractLsb'_append_extractLsb'
  unfold ReadsBack
  rw [predecode_eq]
  by_cases hacc : Accepted hasFpu valid iword
  · obtain ⟨hv, hcol, -, hsel⟩ := id hacc
    rw [if_pos hacc, icacheInsn_code, recode_selected hcol hsel]
    unfold IcacheInsn.insn
    by_cases hun : Unrecoded iword
    · simp [hv, hun]
    · simp [hun, hsplit, recode_selected hcol hsel]
  · rw [if_neg hacc, icacheInsn_illegal]
    have hun : ¬(valid = true ∧ Unrecoded iword) := by
      rintro ⟨rfl, h⟩
      exact hacc (h.accepted hasFpu)
    simp [IcacheInsn.insn, hsplit, hun]

/-- Words with the same legal code have the same primary opcode. -/
theorem opcode_eq_of_selected {a b : BitVec 32} (ha : illegalColumn a = false)
    (hb : illegalColumn b = false) (hsel : selected a ≠ .illegal) (h : selected a = selected b) :
    a.extractLsb' 26 6 = b.extractLsb' 26 6 := by
  have hreca := recode_selected ha hsel
  have hrecb := recode_selected hb (h ▸ hsel)
  rw [h, hrecb] at hreca
  by_cases hua : Unrecoded a
  · by_cases hub : Unrecoded b
    · have hrows : ∀ x ∈ unrecodedRows, ∀ y ∈ unrecodedRows,
          romLookup rowPredecodeRom x = romLookup rowPredecodeRom y →
            rowOpcode x = rowOpcode y := by
        decide +kernel
      obtain ⟨husea, -, hmema⟩ := hua.columns
      obtain ⟨huseb, -, hmemb⟩ := hub.columns
      unfold selected at h
      rw [if_pos husea, if_pos huseb] at h
      rw [← rowOpcode_rowaddr husea ha, ← rowOpcode_rowaddr huseb hb]
      exact hrows _ hmema _ hmemb h
    · rw [if_pos hua, if_neg hub] at hreca
      exact absurd hreca (by simp)
  · by_cases hub : Unrecoded b
    · rw [if_neg hua, if_pos hub] at hreca
      exact absurd hreca (by simp)
    · rw [if_neg hua, if_neg hub] at hreca
      exact (Option.some.inj hreca).symm

theorem icode_predecode (hasFpu valid : Bool) (iword : BitVec 32) :
    (icacheInsn (predecode hasFpu valid iword)).icode =
      if Accepted hasFpu valid iword then selected iword else .illegal := by
  rw [predecode_eq]
  split_ifs
  · rw [icacheInsn_code]
  · rw [icacheInsn_illegal]

/-- A word comes back unless it is one of those left out, and a legal code belongs to one primary
opcode. -/
theorem predecode_lossless (hasFpu valid : Bool) :
    (∀ iword, ReadsBack hasFpu valid iword ↔ ¬(valid = true ∧ Unrecoded iword)) ∧
    ∀ a b : BitVec 32,
      (icacheInsn (predecode hasFpu valid a)).icode =
        (icacheInsn (predecode hasFpu valid b)).icode →
      (icacheInsn (predecode hasFpu valid a)).icode ≠ .illegal →
      a.extractLsb' 26 6 = b.extractLsb' 26 6 := by
  refine ⟨readsBack_iff hasFpu valid, ?_⟩
  intro a b heq hne
  rw [icode_predecode, icode_predecode] at heq
  rw [icode_predecode] at hne
  by_cases ha : Accepted hasFpu valid a
  · rw [if_pos ha] at heq hne
    by_cases hb : Accepted hasFpu valid b
    · rw [if_pos hb] at heq
      exact opcode_eq_of_selected ha.2.1 hb.2.1 hne heq
    · rw [if_neg hb] at heq
      exact absurd heq hne
  · rw [if_neg ha] at hne
    exact absurd rfl hne

/-- `rfscv`. -/
theorem rfscv_not_readsBack : ¬ReadsBack true true 0x4c0000a4 := by
  unfold ReadsBack
  decide +kernel

theorem predecode_lossless_addi :
    (ReadsBack true true 0x38600001 ∧ ReadsBack true true 0x38600002) ∧
      (0x38600001 : BitVec 32).extractLsb' 26 6 = (0x38600002 : BitVec 32).extractLsb' 26 6 :=
  ⟨⟨((predecode_lossless true true).1 _).mpr (by decide),
    ((predecode_lossless true true).1 _).mpr (by decide)⟩,
    (predecode_lossless true true).2 _ _ (by decide +kernel) (by decide +kernel)⟩

end Microwatt.Predecode
