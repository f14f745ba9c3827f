import Microwatt.Execute1.Stage2

/-!
# The SPRs in RAM

Sixteen SPRs live in the two RAMs of execute1, eight in each.  decode1 finds the cell of an SPR
(`decode_ram_spr`), and decode2 sets the addresses at which an instruction reads the two RAMs and
the one at which it writes them.

`Spr` names the registers themselves, and `resultSpr`, `oddSpr` and `sprWrites` say which of them
an instruction reads and writes, without the RAMs.
-/

namespace Microwatt.RamSpr

open Execute1 (InsnOp ExecUnit decodeSprNum)

/-! ## Cells -/

/-- `ram_spr_info`. -/
structure RamSprInfo where
  index : BitVec 3
  isodd : Bool
  is32b : Bool
  valid : Bool
deriving DecidableEq

def ramsprSrr0 : BitVec 3 := 0
def ramsprHsrr0 : BitVec 3 := 1
def ramsprSprg0 : BitVec 3 := 2
def ramsprSprg2 : BitVec 3 := 3
def ramsprHsprg0 : BitVec 3 := 4
def ramsprLr : BitVec 3 := 5
def ramsprTar : BitVec 3 := 6
def ramsprVrsave : BitVec 3 := 7
def ramsprSrr1 : BitVec 3 := 0
def ramsprHsrr1 : BitVec 3 := 1
def ramsprSprg1 : BitVec 3 := 2
def ramsprSprg3 : BitVec 3 := 3
def ramsprHsprg1 : BitVec 3 := 4
def ramsprCtr : BitVec 3 := 5
def ramsprHashky : BitVec 3 := 6
def ramsprHashpk : BitVec 3 := 7

/-- `decode_ram_spr`. -/
def decodeRamSpr (sprn : Nat) : RamSprInfo :=
  let ret : RamSprInfo := ⟨0, false, false, true⟩
  match sprn with
  | 8 => { ret with index := ramsprLr }
  | 9 => { ret with index := ramsprCtr, isodd := true }
  | 815 => { ret with index := ramsprTar }
  | 26 => { ret with index := ramsprSrr0 }
  | 27 => { ret with index := ramsprSrr1, isodd := true }
  | 314 => { ret with index := ramsprHsrr0 }
  | 315 => { ret with index := ramsprHsrr1, isodd := true }
  | 272 => { ret with index := ramsprSprg0 }
  | 273 => { ret with index := ramsprSprg1, isodd := true }
  | 274 => { ret with index := ramsprSprg2 }
  | 275 => { ret with index := ramsprSprg3, isodd := true }
  | 259 => { ret with index := ramsprSprg3, isodd := true }
  | 304 => { ret with index := ramsprHsprg0 }
  | 305 => { ret with index := ramsprHsprg1, isodd := true }
  | 256 => { ret with index := ramsprVrsave, is32b := true }
  | 468 => { ret with index := ramsprHashky, isodd := true }
  | 469 => { ret with index := ramsprHashpk, isodd := true }
  | _ => { ret with valid := false }

/-- The registers. -/
inductive Spr where
  | srr0 | srr1 | hsrr0 | hsrr1 | sprg0 | sprg1 | sprg2 | sprg3 | hsprg0 | hsprg1 | lr | ctr | tar
  | vrsave | hashkeyr | hashpkeyr
deriving DecidableEq

namespace Spr

/-- The register that `mtspr` and `mfspr` mean by a number. -/
def ofNum (n : Nat) : Option Spr :=
  match n with
  | 8 => some .lr
  | 9 => some .ctr
  | 26 => some .srr0
  | 27 => some .srr1
  | 256 => some .vrsave
  | 259 => some .sprg3
  | 272 => some .sprg0
  | 273 => some .sprg1
  | 274 => some .sprg2
  | 275 => some .sprg3
  | 304 => some .hsprg0
  | 305 => some .hsprg1
  | 314 => some .hsrr0
  | 315 => some .hsrr1
  | 468 => some .hashkeyr
  | 469 => some .hashpkeyr
  | 815 => some .tar
  | _ => none

/-- The RAM that holds a register: the odd or the even one. -/
def isodd : Spr → Bool
  | .srr1 | .hsrr1 | .sprg1 | .sprg3 | .hsprg1 | .ctr | .hashkeyr | .hashpkeyr => true
  | _ => false

/-- Its address there. -/
def index : Spr → BitVec 3
  | .srr0 | .srr1 => 0
  | .hsrr0 | .hsrr1 => 1
  | .sprg0 | .sprg1 => 2
  | .sprg2 | .sprg3 => 3
  | .hsprg0 | .hsprg1 => 4
  | .lr | .ctr => 5
  | .tar | .hashkeyr => 6
  | .vrsave | .hashpkeyr => 7

/-- No two registers share a cell. -/
theorem cell_inj {s s' : Spr} (hodd : s.isodd = s'.isodd) (hidx : s.index = s'.index) :
    s = s' := by
  cases s <;> cases s' <;>
    first | rfl | exact absurd hodd (by decide) | exact absurd hidx (by decide)

/-- The value of a register when it is read: VRSAVE has 32 bits. -/
def width (s : Spr) (v : BitVec 64) : BitVec 64 :=
  if s = .vrsave then (v.setWidth 32).setWidth 64 else v

end Spr

theorem decodeRamSpr_eq (n : Nat) :
    decodeRamSpr n =
      match Spr.ofNum n with
      | some s => ⟨s.index, s.isodd, s == .vrsave, true⟩
      | none => ⟨0, false, false, false⟩ := by
  unfold decodeRamSpr
  dsimp only
  split
  case h_18 =>
    have hnone : Spr.ofNum n = none := by
      unfold Spr.ofNum
      split <;> first | rfl | contradiction
    rw [hnone]
  all_goals rfl

/-! ## Instructions -/

/-- The columns of `decode_rom_t` that the addresses depend on. -/
structure DecodeRow where
  unit : ExecUnit
  op : InsnOp
  lr : Bool
  isSigned : Bool

/-- A row of the other instructions: the operations below have no other row, and only the hash
instructions are signed loads and stores. -/
structure OtherRow where
  unit : ExecUnit
  op : InsnOp
  isSigned : Bool
  notSpr : op ∉ [InsnOp.b, .bc, .bcreg, .mfspr, .mtspr, .rfid]
  notHash : op = .load ∨ op = .store → isSigned = false

/-- `insn_code`. -/
inductive Icode where
  | brel | babs | bcrel | bcabs | bcctr | bclr | bctar | mfspr | mtspr | rfid | rfscv | hashchk
  | hashchkp | hashst | hashstp
  | other (row : OtherRow)

/-- `decode_rom`. -/
def decodeRom : Icode → DecodeRow
  | .brel | .babs => ⟨.alu, .b, true, false⟩
  | .bcrel | .bcabs => ⟨.alu, .bc, true, false⟩
  | .bcctr | .bclr | .bctar => ⟨.alu, .bcreg, true, false⟩
  | .mfspr => ⟨.alu, .mfspr, false, false⟩
  | .mtspr => ⟨.alu, .mtspr, false, false⟩
  | .rfid | .rfscv => ⟨.alu, .rfid, false, false⟩
  | .hashchk | .hashchkp => ⟨.ldst, .load, false, true⟩
  | .hashst | .hashstp => ⟨.ldst, .store, false, true⟩
  | .other row => ⟨row.unit, row.op, false, row.isSigned⟩

/-- The extended opcode. -/
def xo (insn : BitVec 32) : BitVec 10 :=
  insn.extractLsb' 1 10

/-- The extended opcodes for which the predecoder gives `icode`. -/
def Icode.Codes (icode : Icode) (insn : BitVec 32) : Prop :=
  match icode with
  | .bclr => xo insn = 16
  | .bcctr => xo insn = 528
  | .bctar => xo insn = 560
  -- `rfid` and `hrfid`
  | .rfid => xo insn = 18 ∨ xo insn = 274
  | .rfscv => xo insn = 82
  | .hashst => xo insn = 722
  | .hashchk => xo insn = 754
  | .hashstp => xo insn = 658
  | .hashchkp => xo insn = 690
  | _ => True

/-- `Decode1ToDecode2Type`.  A prefix only changes the code of loads and stores; before any other
instruction it is an illegal one. -/
structure Decode1ToDecode2 where
  icode : Icode
  insn : BitVec 32
  illegalSuffix : Bool
  coded : illegalSuffix = false → icode.Codes insn

namespace Decode1ToDecode2

variable (d : Decode1ToDecode2)

/-- `decode`. -/
def decode : DecodeRow := decodeRom d.icode

/-- `ram_spr`. -/
def ramSpr : RamSprInfo := decodeRamSpr (decodeSprNum d.insn)

end Decode1ToDecode2

/-! ## decode2 -/

/-- The fields of `Decode2ToExecute1Type` for the SPRs in RAM, with `sprs_busy`. -/
structure SprFields where
  lr : Bool
  decCtr : Bool
  evenRdaddr : BitVec 3
  oddRdaddr : BitVec 3
  rdOdd : Bool
  is32bit : Bool
  isRam : Bool
  wraddr : BitVec 3
  writeEven : Bool
  writeOdd : Bool
  sprsBusy : Bool

/-- As `Decode2ToExecute1Init` has them. -/
def SprFields.init : SprFields :=
  ⟨false, false, 0, 0, false, false, false, 0, false, false, false⟩

section Decode2

variable (d : Decode1ToDecode2)

/-- `decctr`: `bc`, `bclr` and `bctar` with BO(2) = 0, but not `bcctr`. -/
def decctr : Bool :=
  !d.insn.getLsbD 23 &&
    (d.decode.op == .bc || (d.decode.op == .bcreg && !(d.insn.getLsbD 10 && !d.insn.getLsbD 6)))

/-- The SPR addresses of an instruction. -/
def sprFields : SprFields :=
  let v : SprFields :=
    { SprFields.init with lr := d.decode.lr && d.insn.getLsbD 0, decCtr := decctr d }
  let v :=
    if decctr d then
      { v with oddRdaddr := ramsprCtr, wraddr := ramsprCtr, writeOdd := true, sprsBusy := true }
    else v
  let v := if v.lr then { v with wraddr := ramsprLr, writeEven := true } else v
  match d.decode.op with
  | .bcreg =>
      let v := { v with sprsBusy := true }
      if !d.insn.getLsbD 10 then { v with evenRdaddr := ramsprLr }
      else if !d.insn.getLsbD 6 then { v with oddRdaddr := ramsprCtr, rdOdd := true }
      else { v with evenRdaddr := ramsprTar }
  | .mfspr =>
      { v with
        evenRdaddr := d.ramSpr.index
        oddRdaddr := d.ramSpr.index
        rdOdd := d.ramSpr.isodd
        is32bit := d.ramSpr.is32b
        isRam := d.ramSpr.valid
        sprsBusy := d.ramSpr.valid }
  | .mtspr =>
      { v with
        wraddr := d.ramSpr.index
        writeEven := d.ramSpr.valid && !d.ramSpr.isodd
        writeOdd := d.ramSpr.valid && d.ramSpr.isodd
        isRam := d.ramSpr.valid }
  | .rfid =>
      let v := { v with sprsBusy := true }
      if d.insn.getLsbD 7 then { v with evenRdaddr := ramsprLr, oddRdaddr := ramsprCtr }
      else if !d.insn.getLsbD 9 then { v with evenRdaddr := ramsprSrr0, oddRdaddr := ramsprSrr1 }
      else { v with evenRdaddr := ramsprHsrr0, oddRdaddr := ramsprHsrr1 }
  | .load | .store =>
      if d.decode.isSigned then
        { v with
          oddRdaddr := if d.insn.getLsbD 7 then ramsprHashky else ramsprHashpk
          rdOdd := true
          sprsBusy := true }
      else v
  | _ => v

/-- The SPRs that loadstore1 and the MMU hold. -/
def ldstSpr (sprn : Nat) : Bool :=
  sprn ∈ [18, 19, 48, 464, 180, 181, 188, 189]

/-- `unit`. -/
def unit : ExecUnit :=
  if (d.decode.op == .mfspr || d.decode.op == .mtspr) && ldstSpr (decodeSprNum d.insn) then .ldst
  else d.decode.unit

end Decode2

/-! ## What an instruction reads and writes -/

section Registers

variable (d : Decode1ToDecode2)

/-- The register whose value is the result of the instruction or the address that it goes to. -/
def resultSpr : Option Spr :=
  match d.icode with
  | .mfspr => Spr.ofNum (decodeSprNum d.insn)
  | .bclr => some .lr
  | .bcctr => some .ctr
  | .bctar => some .tar
  | .rfid => some (if xo d.insn = 274 then .hsrr0 else .srr0)
  | .rfscv => some .lr
  | _ => none

/-- `BO` has no count: bit 2 of BO. -/
def noCount : Bool := d.insn.getLsbD 23

/-- The instruction counts down CTR. -/
def countsDown : Bool :=
  match d.icode with
  | .bcrel | .bcabs | .bclr | .bctar => !noCount d
  | _ => false

/-- The register that the instruction tests, restores the MSR from or hashes with. -/
def oddSpr : Option Spr :=
  match d.icode with
  | .rfid => some (if xo d.insn = 274 then .hsrr1 else .srr1)
  | .rfscv => some .ctr
  | .hashst | .hashchk => some .hashkeyr
  | .hashstp | .hashchkp => some .hashpkeyr
  | .bcctr => some .ctr
  | _ => if countsDown d then some .ctr else none

/-- The instruction sets LR. -/
def links : Bool :=
  match d.icode with
  | .brel | .babs | .bcrel | .bcabs | .bclr | .bcctr | .bctar => d.insn.getLsbD 0
  | _ => false

/-- What the instruction writes, from its address, the value of RS and the registers before it. -/
def sprWrites (nia rs : BitVec 64) (regs : Spr → BitVec 64) (s : Spr) : Option (BitVec 64) :=
  if d.icode matches .mtspr then
    if Spr.ofNum (decodeSprNum d.insn) = some s then some rs else none
  else if links d ∧ s = .lr then some (nia + 4)
  else if countsDown d ∧ s = .ctr then some (regs .ctr - 1)
  else none

end Registers

/-! ## The addresses are those of the registers -/

/-- The write port of the RAMs as an instruction in `ex1` drives it. -/
structure SprPort where
  writeEven : Bool
  writeOdd : Bool
  wraddr : BitVec 3
  lrFromNext : Bool
  sprWriteData : BitVec 64
  lastNia : BitVec 64

/-- What it writes to a register. -/
def SprPort.request (p : SprPort) (s : Spr) : Option (BitVec 64) :=
  if (if s.isodd then p.writeOdd else p.writeEven) ∧ s.index = p.wraddr then
    some (if p.lrFromNext ∧ s.isodd = false then p.lastNia + 4 else p.sprWriteData)
  else none

/-- The port for an instruction with this address and this value to write. -/
def SprFields.port (v : SprFields) (nia data : BitVec 64) : SprPort :=
  ⟨v.writeEven, v.writeOdd, v.wraddr, v.lr, data, nia⟩

section Addresses

variable {d : Decode1ToDecode2}

theorem getLsbD_of_xo {insn : BitVec 32} {n : BitVec 10} (h : xo insn = n) {k : Nat}
    (hk : k < 10) : insn.getLsbD (k + 1) = n.getLsbD k := by
  rw [← h, xo, BitVec.getLsbD_extractLsb', Nat.add_comm k]
  simp [hk]

theorem decctr_eq (hsuffix : d.illegalSuffix = false) : decctr d = countsDown d := by
  have hcoded := d.coded hsuffix
  unfold decctr countsDown noCount Decode1ToDecode2.decode
  cases hi : d.icode with
  | other row =>
      have hop := row.notSpr
      have hbc : row.op ≠ .bc := fun h => hop (by simp [h])
      have hbcreg : row.op ≠ .bcreg := fun h => hop (by simp [h])
      simp [decodeRom, hbc, hbcreg]
  | bcctr | bclr | bctar =>
      rw [hi] at hcoded
      have h10 : d.insn.getLsbD 10 = _ := getLsbD_of_xo hcoded (k := 9) (by decide)
      have h6 : d.insn.getLsbD 6 = _ := getLsbD_of_xo hcoded (k := 5) (by decide)
      simp only [decodeRom, h10, h6]
      cases d.insn.getLsbD 23 <;> rfl
  | _ => simp [decodeRom]

/-- An instruction with a row of its own has no addresses. -/
theorem sprFields_other {row : OtherRow} (hi : d.icode = .other row) :
    sprFields d = .init := by
  have hdec : d.decode = ⟨row.unit, row.op, false, row.isSigned⟩ := by
    simp [Decode1ToDecode2.decode, hi, decodeRom]
  have hop := row.notSpr
  have hctr : decctr d = false := by
    have hbc : row.op ≠ .bc := fun h => hop (by simp [h])
    have hbcreg : row.op ≠ .bcreg := fun h => hop (by simp [h])
    simp [decctr, hdec, hbc, hbcreg]
  unfold sprFields
  simp only [hdec, hctr, Bool.false_and, Bool.false_eq_true, if_false]
  cases hrow : row.op with
  | bcreg | mfspr | mtspr | rfid => exact absurd (by simp [hrow]) hop
  | load | store =>
      have hsigned := row.notHash (by simp [hrow])
      simp [hsigned, SprFields.init]
  | _ => rfl

theorem resultSpr_addr (hsuffix : d.illegalSuffix = false) {s : Spr} (h : resultSpr d = some s) :
    (sprFields d).sprsBusy = true ∧ (sprFields d).rdOdd = s.isodd ∧
      (sprFields d).is32bit = (s == .vrsave) ∧
      (if s.isodd then (sprFields d).oddRdaddr else (sprFields d).evenRdaddr) = s.index := by
  have hcoded := d.coded hsuffix
  unfold resultSpr at h
  cases hi : d.icode with
  | mfspr =>
      simp only [hi] at h
      have hram : d.ramSpr = ⟨s.index, s.isodd, s == .vrsave, true⟩ := by
        rw [Decode1ToDecode2.ramSpr, decodeRamSpr_eq, h]
      simp [sprFields, Decode1ToDecode2.decode, hi, decodeRom, hram]
  | bcctr | bclr | bctar =>
      simp only [hi, Option.some.injEq] at h
      subst h
      rw [hi] at hcoded
      have h10 : d.insn.getLsbD 10 = _ := getLsbD_of_xo hcoded (k := 9) (by decide)
      have h6 : d.insn.getLsbD 6 = _ := getLsbD_of_xo hcoded (k := 5) (by decide)
      simp only [sprFields, Decode1ToDecode2.decode, hi, decodeRom, h10, h6]
      cases decctr d <;> cases d.insn.getLsbD 0 <;> decide
  | rfid =>
      simp only [hi, Option.some.injEq] at h
      rw [hi] at hcoded
      rcases hcoded with hxo | hxo
      all_goals
        rw [hxo] at h
        subst h
        have h7 : d.insn.getLsbD 7 = _ := getLsbD_of_xo hxo (k := 6) (by decide)
        have h9 : d.insn.getLsbD 9 = _ := getLsbD_of_xo hxo (k := 8) (by decide)
        simp only [sprFields, Decode1ToDecode2.decode, hi, decodeRom, h7, h9, Bool.false_and]
        cases decctr d <;> decide
  | rfscv =>
      simp only [hi, Option.some.injEq] at h
      subst h
      rw [hi] at hcoded
      have h7 : d.insn.getLsbD 7 = _ := getLsbD_of_xo hcoded (k := 6) (by decide)
      simp only [sprFields, Decode1ToDecode2.decode, hi, decodeRom, h7, Bool.false_and]
      cases decctr d <;> cases d.insn.getLsbD 9 <;> decide
  | _ => simp [hi] at h

theorem oddSpr_addr (hsuffix : d.illegalSuffix = false) {s : Spr} (h : oddSpr d = some s) :
    (sprFields d).sprsBusy = true ∧ s.isodd = true ∧ (sprFields d).oddRdaddr = s.index := by
  have hcoded := d.coded hsuffix
  have hctr := decctr_eq hsuffix
  unfold oddSpr at h
  cases hi : d.icode with
  | bcrel | bcabs =>
      have hcount : countsDown d = true ∧ Spr.ctr = s := by simpa [hi] using h
      rw [← hcount.2]
      simp only [sprFields, hctr, hcount.1, Decode1ToDecode2.decode, hi, decodeRom]
      cases d.insn.getLsbD 0 <;> decide
  | bclr | bctar =>
      have hcount : countsDown d = true ∧ Spr.ctr = s := by simpa [hi] using h
      rw [hi] at hcoded
      have h10 : d.insn.getLsbD 10 = _ := getLsbD_of_xo hcoded (k := 9) (by decide)
      have h6 : d.insn.getLsbD 6 = _ := getLsbD_of_xo hcoded (k := 5) (by decide)
      rw [← hcount.2]
      simp only [sprFields, hctr, hcount.1, Decode1ToDecode2.decode, hi, decodeRom, h10, h6]
      cases d.insn.getLsbD 0 <;> decide
  | bcctr =>
      simp only [hi, Option.some.injEq] at h
      subst h
      rw [hi] at hcoded
      have h10 : d.insn.getLsbD 10 = _ := getLsbD_of_xo hcoded (k := 9) (by decide)
      have h6 : d.insn.getLsbD 6 = _ := getLsbD_of_xo hcoded (k := 5) (by decide)
      simp only [sprFields, Decode1ToDecode2.decode, hi, decodeRom, h10, h6]
      cases decctr d <;> cases d.insn.getLsbD 0 <;> decide
  | rfid =>
      simp only [hi, Option.some.injEq] at h
      rw [hi] at hcoded
      rcases hcoded with hxo | hxo
      all_goals
        rw [hxo] at h
        subst h
        have h7 : d.insn.getLsbD 7 = _ := getLsbD_of_xo hxo (k := 6) (by decide)
        have h9 : d.insn.getLsbD 9 = _ := getLsbD_of_xo hxo (k := 8) (by decide)
        simp only [sprFields, Decode1ToDecode2.decode, hi, decodeRom, h7, h9, Bool.false_and]
        cases decctr d <;> decide
  | rfscv | hashst | hashchk | hashstp | hashchkp =>
      simp only [hi, Option.some.injEq] at h
      subst h
      rw [hi] at hcoded
      have h7 : d.insn.getLsbD 7 = _ := getLsbD_of_xo hcoded (k := 6) (by decide)
      simp only [sprFields, Decode1ToDecode2.decode, hi, decodeRom, h7, Bool.false_and]
      cases decctr d <;> cases d.insn.getLsbD 9 <;> decide
  | _ => simp [hi, countsDown] at h

/-- An instruction other than `mtspr` writes LR and CTR only, and uses their one address. -/
theorem sprFields_writes (hsuffix : d.illegalSuffix = false) (hmtspr : d.icode ≠ .mtspr) :
    (sprFields d).writeEven = links d ∧ (sprFields d).writeOdd = countsDown d ∧
      (sprFields d).lr = links d ∧ (sprFields d).decCtr = countsDown d ∧
      ((links d || countsDown d) = true → (sprFields d).wraddr = 5) := by
  have hcoded := d.coded hsuffix
  have hctr := decctr_eq hsuffix
  cases hi : d.icode with
  | mtspr => exact absurd hi hmtspr
  | other row =>
      rw [sprFields_other hi]
      simp [SprFields.init, links, countsDown, hi]
  | brel | babs | bcrel | bcabs =>
      simp only [sprFields, hctr, Decode1ToDecode2.decode, hi, decodeRom, links]
      cases countsDown d <;> cases d.insn.getLsbD 0 <;> decide
  | bclr | bctar | bcctr =>
      rw [hi] at hcoded
      have h10 : d.insn.getLsbD 10 = _ := getLsbD_of_xo hcoded (k := 9) (by decide)
      have h6 : d.insn.getLsbD 6 = _ := getLsbD_of_xo hcoded (k := 5) (by decide)
      simp only [sprFields, hctr, Decode1ToDecode2.decode, hi, decodeRom, links, h10, h6]
      cases countsDown d <;> cases d.insn.getLsbD 0 <;> decide
  | _ =>
      have hcount : countsDown d = false := by simp [countsDown, hi]
      have hlinks : links d = false := by simp [links, hi]
      rw [hcount] at hctr
      simp only [sprFields, hctr, hcount, hlinks, Decode1ToDecode2.decode, hi, decodeRom,
        Bool.false_and]
      split_ifs <;>
        first | exact ⟨rfl, rfl, rfl, rfl, fun h => absurd h (by decide)⟩ | contradiction

/-- The instructions that count CTR down read it. -/
theorem oddSpr_of_decCtr (hsuffix : d.illegalSuffix = false) (h : (sprFields d).decCtr = true) :
    oddSpr d = some .ctr := by
  have hcount : countsDown d = true := by
    by_cases hi : d.icode = .mtspr
    · have hctr : decctr d = false := by
        rw [decctr_eq hsuffix, countsDown, hi]
      simp [sprFields, hctr, Decode1ToDecode2.decode, hi, decodeRom] at h
    · rwa [(sprFields_writes hsuffix hi).2.2.2.1] at h
  unfold oddSpr
  cases hi : d.icode <;> first | exact if_pos hcount | simp [countsDown, hi] at hcount

/-- The write port that an instruction drives writes what the instruction writes. -/
theorem request_port (hsuffix : d.illegalSuffix = false) (nia rs : BitVec 64)
    (regs : Spr → BitVec 64) (s : Spr) :
    ((sprFields d).port nia (if (sprFields d).decCtr then regs .ctr - 1 else rs)).request s =
      sprWrites d nia rs regs s := by
  by_cases hi : d.icode = .mtspr
  · have hctr : decctr d = false := by
      rw [decctr_eq hsuffix, countsDown, hi]
    simp only [sprWrites, hi, if_true]
    cases hnum : Spr.ofNum (decodeSprNum d.insn) with
    | none =>
        have hram : d.ramSpr = ⟨0, false, false, false⟩ := by
          rw [Decode1ToDecode2.ramSpr, decodeRamSpr_eq, hnum]
        simp [SprPort.request, SprFields.port, SprFields.init, sprFields, hctr,
          Decode1ToDecode2.decode, hi, decodeRom, hram]
    | some s' =>
        have hram : d.ramSpr = ⟨s'.index, s'.isodd, s' == .vrsave, true⟩ := by
          rw [Decode1ToDecode2.ramSpr, decodeRamSpr_eq, hnum]
        have hcell : (if s.isodd = true then s'.isodd = true else s'.isodd = false) ∧
            s.index = s'.index ↔ s' = s := by
          constructor
          · rintro ⟨hodd, hidx⟩
            refine Spr.cell_inj ?_ hidx.symm
            revert hodd
            cases s.isodd <;> cases s'.isodd <;> simp
          · rintro rfl
            cases s'.isodd <;> simp
        simp [SprPort.request, SprFields.port, SprFields.init, sprFields, hctr,
          Decode1ToDecode2.decode, hi, decodeRom, hram, hcell]
  · obtain ⟨heven, hodd, hlr, hdec, haddr⟩ := sprFields_writes hsuffix hi
    simp only [sprWrites, SprPort.request, SprFields.port, heven, hodd, hlr, hdec]
    cases hl : links d <;> cases hc : countsDown d
    · cases s <;> simp [Spr.isodd]
    all_goals
      rw [haddr (by simp [hl, hc])]
      cases s <;> simp [Spr.isodd, Spr.index]

end Addresses

end Microwatt.RamSpr
