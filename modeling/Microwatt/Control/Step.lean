import Microwatt.Lib.Bits
import Microwatt.Lib.Run

/-!
# The issue control

`control.vhdl`: the tags of the instructions in flight, the hazards that hold an instruction back in
decode2, and the selection of the bypass for each of its operands.
-/

namespace Microwatt.Control

/-- `tag_number_t`; `TAG_COUNT` is 4. -/
abbrev TagNumber := Fin 4

/-- `gspr_index_t`. -/
abbrev GsprIndex := BitVec 6

/-- `instr_tag_t`. -/
structure InstrTag where
  tag : TagNumber
  valid : Bool
deriving DecidableEq

/-- `tag_match`. -/
def tagMatch (t u : InstrTag) : Bool :=
  t.valid && u.valid && t.tag == u.tag

/-- `bypass_data_t`. -/
structure BypassData where
  tag : InstrTag
  reg : GsprIndex
  data : BitVec 64

/-- `cr_bypass_data_t`. -/
structure CrBypassData where
  tag : InstrTag
  data : BitVec 32

/-- `tag_register`. -/
structure TagRegister where
  wrGpr : Bool
  reg : GsprIndex
  recent : Bool
  wrCr : Bool
  wrOv : Bool
  valid : Bool

/-- A source register: `gpr_x_read_valid_in` and `gpr_x_read_in`. -/
structure GprRead where
  valid : Bool
  reg : GsprIndex

/-- What decode2 presents. -/
structure Presented where
  gprWriteValid : Bool
  gprWrite : GsprIndex
  gprA : GprRead
  gprB : GprRead
  gprC : GprRead
  crRead : Bool
  crWrite : Bool
  ovRead : Bool
  ovWrite : Bool
  serialize : Bool

/-- The inputs of `control` in one cycle, with the data of the bypasses. -/
structure Input where
  rst : Bool
  completeIn : InstrTag
  validIn : Bool
  flushIn : Bool
  deferred : Bool
  stopMarkIn : Bool
  insn : Presented
  executeNextBypass : BypassData
  execute2NextBypass : BypassData
  writebackBypass : BypassData
  executeNextCr : CrBypassData
  execute2NextCr : CrBypassData

/-- The registers of `control`. -/
structure State where
  tagRegs : TagNumber → TagRegister
  currTag : TagNumber
  currCrTag : TagNumber
  currOvTag : TagNumber
  prevTag : TagNumber

/-- The bypass that is selected for an operand: bits 1 to 3 of `gpr_bypass_x`. -/
inductive GprBypass where
  | none | execute | execute2 | writeback
deriving DecidableEq

section

variable (ex1Bypass : Bool) (s : State) (i : Input)

/-! ## Hazards -/

/-- The tag is the latest to write the register that is read. -/
def recentWriter (g : GprRead) (t : TagNumber) : Bool :=
  (s.tagRegs t).valid && (s.tagRegs t).recent && (s.tagRegs t).reg == g.reg && g.valid

/-- The result with this tag is on a bypass, or written back in this cycle. -/
def available (t : InstrTag) : Bool :=
  ex1Bypass && tagMatch i.executeNextBypass.tag t ||
    ex1Bypass && tagMatch i.execute2NextBypass.tag t || tagMatch i.completeIn t

/-- `tag_a`, `tag_b` and `tag_c`. -/
def gprTag (g : GprRead) : InstrTag :=
  (List.finRange 4).foldl
    (fun acc t => if recentWriter s g t then ⟨t, !available ex1Bypass i ⟨t, true⟩⟩ else acc)
    ⟨0, false⟩

/-- `byp_a`, `byp_b` and `byp_c`, bits 1 to 3. -/
def gprBypass (g : GprRead) : GprBypass :=
  if ex1Bypass && i.executeNextBypass.tag.valid && i.executeNextBypass.reg == g.reg then .execute
  else if ex1Bypass && i.execute2NextBypass.tag.valid && i.execute2NextBypass.reg == g.reg then
    .execute2
  else if i.writebackBypass.tag.valid && i.writebackBypass.reg == g.reg then .writeback
  else .none

/-- `gpr_tag_stall`. -/
def gprTagStall : Bool :=
  (gprTag ex1Bypass s i i.insn.gprA).valid || (gprTag ex1Bypass s i i.insn.gprB).valid ||
    (gprTag ex1Bypass s i i.insn.gprC).valid

/-- `tag_cr`. -/
def tagCr : InstrTag :=
  let t : InstrTag := ⟨s.currCrTag, i.insn.crRead && (s.tagRegs s.currCrTag).wrCr⟩
  if tagMatch t i.completeIn then { t with valid := false } else t

/-- `cr_bypass`: its first bit, and the second if that is set. -/
def crBypass : GprBypass :=
  if ex1Bypass && tagMatch i.executeNextCr.tag (tagCr s i) then .execute
  else if ex1Bypass && tagMatch i.execute2NextCr.tag (tagCr s i) then .execute2
  else .none

/-- `cr_tag_stall`. -/
def crTagStall : Bool :=
  (tagCr s i).valid && crBypass ex1Bypass s i == .none

/-- `tag_ov`. -/
def tagOv : InstrTag :=
  let t : InstrTag := ⟨s.currOvTag, i.insn.ovRead && (s.tagRegs s.currOvTag).wrOv⟩
  if tagMatch t i.completeIn then { t with valid := false } else t

/-- `serial_stall`. -/
def serialStall : Bool :=
  let t : InstrTag := ⟨s.prevTag, (s.tagRegs s.prevTag).valid⟩
  t.valid && !tagMatch t i.completeIn

/-- `stopped_out`. -/
def stoppedOut : Bool :=
  i.stopMarkIn && !serialStall s i

/-- `valid_out`. -/
def validOut : Bool :=
  i.validIn && !i.flushIn && !i.rst &&
    !(gprTagStall ex1Bypass s i || crTagStall ex1Bypass s i || (tagOv s i).valid ||
      i.insn.serialize && serialStall s i)

/-- `instr_tag`. -/
def instrTag : InstrTag :=
  ⟨s.currTag, validOut ex1Bypass s i && !i.deferred⟩

/-! ## The registers -/

/-- `gpr_write_valid`, `cr_write_valid` and `ov_write_valid` of a signal of the instruction. -/
def writeValid (w : Bool) : Bool :=
  w && validOut ex1Bypass s i

/-- One entry of `tag_regs` after an edge. -/
def tagRegNext (t : TagNumber) : TagRegister :=
  let r := s.tagRegs t
  let issue := instrTag ex1Bypass s i
  if i.rst || i.flushIn then
    { r with wrGpr := false, wrCr := false, wrOv := false, valid := false }
  else
    let r := if i.completeIn.valid && t == i.completeIn.tag then
        { r with wrGpr := false, wrCr := false, wrOv := false, valid := false }
      else r
    let r := if issue.valid && writeValid ex1Bypass s i i.insn.gprWriteValid &&
        r.reg == i.insn.gprWrite then { r with recent := false } else r
    if issue.valid && t == issue.tag then
      { wrGpr := writeValid ex1Bypass s i i.insn.gprWriteValid
        reg := i.insn.gprWrite
        recent := writeValid ex1Bypass s i i.insn.gprWriteValid
        wrCr := writeValid ex1Bypass s i i.insn.crWrite
        wrOv := writeValid ex1Bypass s i i.insn.ovWrite
        valid := true }
    else r

/-- One clock edge. -/
def step : State :=
  let issue := instrTag ex1Bypass s i
  { tagRegs := tagRegNext ex1Bypass s i
    currTag := if i.rst then 0 else if issue.valid then s.currTag + 1 else s.currTag
    currCrTag :=
      if i.rst then 0
      else if issue.valid && writeValid ex1Bypass s i i.insn.crWrite then issue.tag
      else s.currCrTag
    currOvTag :=
      if i.rst then 0
      else if issue.valid && writeValid ex1Bypass s i i.insn.ovWrite then issue.tag
      else s.currOvTag
    prevTag :=
      if i.rst then 0 else if validOut ex1Bypass s i then issue.tag else s.prevTag }

end

end Microwatt.Control
