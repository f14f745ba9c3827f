import Microwatt.Execute1.Actions

/-!
# Registers of doubled loads

What `decode2.vhdl` makes of the loads that are issued twice: the operands, the register that each
instance writes, and the forms that are illegal.  The rows are those of `decode1.vhdl`.
-/

namespace Microwatt.Decode2

open Execute1

/-- `input_reg_a_t`. -/
inductive InputRegA where
  | none | ra | raOrZero | ra0OrCia | cia | fra
deriving DecidableEq

/-- `input_reg_b_t`. -/
inductive InputRegB where
  | imm | rb | frb
deriving DecidableEq

/-- The selectors of `const_sel_t` that loads use. -/
inductive ConstSel where
  | none | si | ds | dq | psi
deriving DecidableEq

/-- `output_reg_a_t`. -/
inductive OutputRegA where
  | none | rt | ra | frt
deriving DecidableEq

/-- `repeat_t`. -/
inductive Repeat where
  | none | dupd | drsp | drtp
deriving DecidableEq

/-- The columns of `decode_rom_t` that the loads below differ in.  All of them go to loadstore1
as `OP_LOAD`. -/
structure DecodeRom where
  inputRegA : InputRegA
  inputRegB : InputRegB
  constSel : ConstSel
  outputRegA : OutputRegA
  length : BitVec 4
  byteReverse : Bool
  signExtend : Bool
  update : Bool
  reserve : Bool
  is32bit : Bool
  rpt : Repeat

/-- The loads with `repeat` other than `NONE`. -/
inductive DoubledLoad where
  | lbzu | lbzux | ldu | ldux | lfdu | lfdux | lfsu | lfsux | lhau | lhaux | lhzu | lhzux
  | lwaux | lwzu | lwzux | lq | lqarx | plq
deriving DecidableEq

/-- An update-form load. -/
def updateForm (b : InputRegB) (c : ConstSel) (o : OutputRegA) (length : BitVec 4)
    (signExtend is32bit : Bool) : DecodeRom where
  inputRegA := .raOrZero
  inputRegB := b
  constSel := c
  outputRegA := o
  length := length
  byteReverse := false
  signExtend := signExtend
  update := true
  reserve := false
  is32bit := is32bit
  rpt := .dupd

/-- A load of a quadword. -/
def quadForm (a : InputRegA) (b : InputRegB) (c : ConstSel) (reserve : Bool) : DecodeRom where
  inputRegA := a
  inputRegB := b
  constSel := c
  outputRegA := .rt
  length := 8
  byteReverse := false
  signExtend := false
  update := false
  reserve := reserve
  is32bit := false
  rpt := .drtp

/-- `decode_rom`. -/
def decodeRom : DoubledLoad → DecodeRom
  | .lbzu => updateForm .imm .si .rt 1 false false
  | .lbzux => updateForm .rb .none .rt 1 false false
  | .ldu => updateForm .imm .ds .rt 8 false false
  | .ldux => updateForm .rb .none .rt 8 false false
  | .lfdu => updateForm .imm .si .frt 8 false false
  | .lfdux => updateForm .rb .none .frt 8 false false
  | .lfsu => updateForm .imm .si .frt 4 false true
  | .lfsux => updateForm .rb .none .frt 4 false true
  | .lhau => updateForm .imm .si .rt 2 true false
  | .lhaux => updateForm .rb .none .rt 2 true false
  | .lhzu => updateForm .imm .si .rt 2 false false
  | .lhzux => updateForm .rb .none .rt 2 false false
  | .lwaux => updateForm .rb .none .rt 4 true false
  | .lwzu => updateForm .imm .si .rt 4 false false
  | .lwzux => updateForm .rb .none .rt 4 false false
  | .lq => quadForm .raOrZero .imm .dq false
  | .lqarx => quadForm .raOrZero .rb .none true
  | .plq => quadForm .ra0OrCia .imm .psi false

/-- A doubled load as decode1 passes it on. -/
structure Decode1ToDecode2 where
  icode : DoubledLoad
  insn : BitVec 32
  pfx : BitVec 26
  nia : BitVec 64
  bigEndian : Bool
  instrTag : InstrTag

namespace Decode1ToDecode2

variable (d : Decode1ToDecode2)

def decode : DecodeRom := decodeRom d.icode

/-- `prefixed`. -/
def prefixed : Bool := d.icode == .plq

def insnRt : BitVec 5 := d.insn.extractLsb' 21 5

def insnRa : BitVec 5 := d.insn.extractLsb' 16 5

def insnRb : BitVec 5 := d.insn.extractLsb' 11 5

end Decode1ToDecode2

/-- `gpr_to_gspr`. -/
def gprToGspr (i : BitVec 5) : BitVec 6 := 0#1 ++ i

/-- `fpr_to_gspr`. -/
def fprToGspr (f : BitVec 5) : BitVec 6 := 1#1 ++ f

section

variable (hasFpu : Bool) (d : Decode1ToDecode2)

/-- `decode_input_reg_a`. -/
def regValidA : Bool :=
  match d.decode.inputRegA with
  | .ra | .fra => true
  | .raOrZero | .ra0OrCia => d.insnRa != 0
  | .none | .cia => false

/-- `decode_a_const`. -/
def aConst : BitVec 64 :=
  match d.decode.inputRegA with
  | .cia => d.nia
  | .ra0OrCia => if d.pfx.getLsbD 20 then d.nia else 0
  | _ => 0

/-- `decode_input_reg_b`. -/
def regValidB : Bool :=
  d.decode.inputRegB != .imm

/-- `decode_b_const`. -/
def bConst : BitVec 64 :=
  match d.decode.constSel with
  | .si => (d.insn.extractLsb' 0 16).signExtend 64
  | .ds => (d.insn.extractLsb' 2 14 ++ 0#2).signExtend 64
  | .dq => (d.insn.extractLsb' 4 12 ++ 0#4).signExtend 64
  | .psi => (d.pfx.extractLsb' 0 18 ++ d.insn.extractLsb' 0 16).signExtend 64
  | .none => 0

/-- The general and floating-point registers. -/
abbrev Regs := BitVec 6 → BitVec 64

/-- `read_data1`.  The second instance ignores the register, so as not to depend on the first. -/
def readData1 (regs : Regs) (second : Bool) : BitVec 64 :=
  if regValidA d && !second then regs (gprToGspr d.insnRa) else aConst d

/-- `read_data2`. -/
def readData2 (regs : Regs) (second : Bool) : BitVec 64 :=
  if regValidB d && !second then regs (gprToGspr d.insnRb) else bConst d

/-- `decode_output_reg`. -/
def outputReg : Option (BitVec 6) :=
  match d.decode.outputRegA with
  | .rt => some (gprToGspr d.insnRt)
  | .ra => some (gprToGspr d.insnRa)
  | .frt => if hasFpu then some (fprToGspr d.insnRt) else none
  | .none => none

/-- `decoded_reg_o`, from the process `decode2_addrs`. -/
def decodedRegO (second : Bool) : Option (BitVec 6) :=
  match d.decode.rpt with
  | .dupd =>
    -- update-form loads, 2nd instruction writes RA
    if second then (outputReg hasFpu d).map fun _ => gprToGspr d.insnRa else outputReg hasFpu d
  | .drtp =>
    -- non-prefixed lq, lqarx do RT|1, RT in LE mode; others do RT, RT|1
    (outputReg hasFpu d).map fun r => if second == (d.bigEndian || d.prefixed) then r ||| 1 else r
  | _ => outputReg hasFpu d

/-- `illegal_form`. -/
def illegalForm : Bool :=
  (d.decode.rpt == .drtp &&
    (d.insnRa == d.insnRt || (d.decode.reserve && d.insnRb == d.insnRt))) ||
  ((d.decode.rpt == .drsp || d.decode.rpt == .drtp) && d.insn.getLsbD 21)

/-- The registers that the first instance reads. -/
def sources : List (BitVec 6) :=
  (if regValidA d then [gprToGspr d.insnRa] else []) ++
    (if regValidB d then [gprToGspr d.insnRb] else [])

/-- The registers after an instance has written `data`. -/
def written (regs : Regs) (reg : Option (BitVec 6)) (data : BitVec 64) : Regs :=
  match reg with
  | some r => Function.update regs r data
  | none => regs

/-! ## What the first instance overwrites -/

variable {d}

theorem readData_congr {regs regs' : Regs} (h : ∀ r ∈ sources d, regs' r = regs r) :
    readData1 d regs' false = readData1 d regs false ∧
      readData2 d regs' false = readData2 d regs false := by
  have ha : regValidA d → regs' (gprToGspr d.insnRa) = regs (gprToGspr d.insnRa) := by
    intro hv
    exact h _ (by simp [sources, hv])
  have hb : regValidB d → regs' (gprToGspr d.insnRb) = regs (gprToGspr d.insnRb) := by
    intro hv
    exact h _ (by simp [sources, hv])
  constructor
  · unfold readData1
    split_ifs with hv
    · exact ha (by simpa using hv)
    · rfl
  · unfold readData2
    split_ifs with hv
    · exact hb (by simpa using hv)
    · rfl

theorem gprToGspr_inj {a b : BitVec 5} : gprToGspr a = gprToGspr b ↔ a = b := by
  constructor
  · intro h
    have := congrArg (fun x : BitVec 6 => x.extractLsb' 0 5) h
    simpa only [gprToGspr, BitVec.extractLsb'_append_eq_right] using this
  · rintro rfl
    rfl

theorem gprToGspr_or_one (a : BitVec 5) : gprToGspr a ||| 1 = gprToGspr (a ||| 1) := by
  revert a
  decide

end

end Microwatt.Decode2
