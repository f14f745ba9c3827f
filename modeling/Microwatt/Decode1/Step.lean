import Microwatt.Predecode.Recode
import Microwatt.Decode2

/-!
# The first decode stage

`decode1.vhdl`: prefixes are held back until their suffix comes, and instructions that the decode
table has as repeated are passed on twice.  The decode table is represented by its index and the
column `repeat`; the fields for SPRs and the target of the branch predictor are left out.
-/

namespace Microwatt.Decode1

open Predecode (InsnCode)
open Decode2 (Repeat)

/-- `IcacheToDecode1Type`. -/
structure IcacheToDecode1 where
  valid : Bool
  stopMark : Bool
  fetchFailed : Bool
  nia : BitVec 64
  insn : BitVec 32
  icode : InsnCode
  bigEndian : Bool
  nextPredicted : Bool
  nextPredNtaken : Bool
deriving DecidableEq

/-- `Decode1ToDecode2Type`, less the decode row. -/
structure Decode1ToDecode2 where
  valid : Bool := false
  stopMark : Bool := false
  second : Bool := false
  nia : BitVec 64 := 0
  prefixed : Bool := false
  insnPrefix : BitVec 26 := 0
  illegalSuffix : Bool := false
  misalignedPrefix : Bool := false
  insn : BitVec 32 := 0
  brPred : Bool := false
  bigEndian : Bool := false
  regA : BitVec 6 := 0
  regB : BitVec 6 := 0
  regC : BitVec 6 := 0
deriving DecidableEq

/-- `prefix_state_t`. -/
structure PrefixState where
  prefixed : Bool := false
  insnPrefix : BitVec 26 := 0
  prefIa : BitVec 4 := 0
deriving DecidableEq

/-- The registers; `decode` is the index of the row in the register of that name. -/
structure State where
  r : Decode1ToDecode2
  decode : InsnCode
  fetchFailed : Bool
  pr : PrefixState

structure Inputs where
  rst : Bool
  stallIn : Bool
  flushIn : Bool
  fIn : IcacheToDecode1

/-- The column `repeat` of the decode table. -/
def repeatOf (icode : InsnCode) : Repeat :=
  match icode with
  | .lbzu | .lbzux | .ldu | .ldux | .lfdu | .lfdux | .lfsu | .lfsux => .dupd
  | .lhau | .lhaux | .lhzu | .lhzux | .lwaux | .lwzu | .lwzux => .dupd
  | .lq | .lqarx | .plq => .drtp
  | .pstq | .stq | .stqcx => .drsp
  | _ => .none

/-! ## A word -/

section Word

variable (f : IcacheToDecode1)

/-- The address bits that tell the words of a block apart. -/
def wordIa : BitVec 4 := f.nia.extractLsb' 2 4

/-- `v.br_pred`. -/
def brPred : Bool :=
  let guess : Bool :=
    match f.icode with
    | .brel => true
    | .babs => true
    | .bcrel => f.insn.getLsbD 15
    | _ => false
  if f.nextPredicted then true else if f.nextPredNtaken then false else guess

def insnRa : BitVec 6 := 0#1 ++ f.insn.extractLsb' 16 5
def insnRb : BitVec 6 := 0#1 ++ f.insn.extractLsb' 11 5
def insnRs : BitVec 6 := 0#1 ++ f.insn.extractLsb' 21 5
def insnRcreg : BitVec 5 := f.insn.extractLsb' 6 5

/-- A code is at or after another one in the enumeration. -/
def atLeast (icode first : InsnCode) : Bool := decide (first.pos ≤ icode.pos)

/-- `vr.reg_1_addr` of a first instance. -/
def regA : BitVec 6 := if atLeast f.icode .fabs then insnRa f ||| 0b100000 else insnRa f

/-- `vr.reg_2_addr` of a first instance. -/
def regB : BitVec 6 := if atLeast f.icode .fabs then insnRb f ||| 0b100000 else insnRb f

/-- `vr.reg_3_addr` of a first instance. -/
def regC : BitVec 6 :=
  let rs : BitVec 6 :=
    if atLeast f.icode .stfd then
      if atLeast f.icode .fmul then 0b1#1 ++ insnRcreg f else insnRs f ||| 0b100000
    else if atLeast f.icode .maddld then 0b0#1 ++ insnRcreg f
    else insnRs f
  -- stq and stqcx in LE mode read RS|1 first
  if (f.icode = .stq ∨ f.icode = .stqcx) ∧ f.bigEndian = false then rs ||| 1 else rs

end Word

/-- `valid_suffix`. -/
def validSuffix (insnPrefix : BitVec 26) (icode : InsnCode) : Bool :=
  match insnPrefix.extractLsb' 23 3 with
  | 0b000 => atLeast icode .lhzu && !atLeast icode .add
  | 0b100 =>
    (atLeast icode .addi && !atLeast icode .lhzu) || (atLeast icode .stfd && !atLeast icode .stfdu)
  | 0b110 => insnPrefix.extractLsb' 20 3 == 0
  | _ => false

/-- The code of a suffix: `pnop`, or the code with bit 0 set. -/
def suffixCode (insnPrefix : BitVec 26) (icode : InsnCode) : InsnCode :=
  if insnPrefix.getLsbD 24 then .pnop else InsnCode.val (icode.pos ||| 1)

/-- An address with bits 5 to 2 replaced. -/
def patchIa (nia : BitVec 64) (ia : BitVec 4) : BitVec 64 :=
  nia.extractLsb' 6 58 ++ (ia ++ nia.extractLsb' 0 2)

/-! ## A cycle -/

section Cycle

variable (s : State) (i : Inputs)

/-- `double`. -/
def double : Bool := (s.r.valid && decide (repeatOf s.decode ≠ .none)) && !s.r.second

/-- `busy_out`. -/
def busyOut : Bool := i.stallIn || double s

/-- `v`, with what every branch shares. -/
def base : Decode1ToDecode2 where
  valid := i.fIn.valid
  stopMark := i.fIn.stopMark
  nia := i.fIn.nia
  prefixed := s.pr.prefixed
  insnPrefix := s.pr.insnPrefix
  insn := i.fIn.insn
  brPred := brPred i.fIn
  bigEndian := i.fIn.bigEndian
  regA := regA i.fIn
  regB := regB i.fIn
  regC := regC i.fIn

/-- `v` of a first instance, `decode_rom_addr` and `pv`. -/
def rin : Decode1ToDecode2 × InsnCode × PrefixState :=
  let f := i.fIn
  let v := base s i
  if f.fetchFailed then ({ v with valid := !s.fetchFailed }, .fetchFail, {})
  else if s.pr.prefixed then
    ({ v with
        nia := patchIa f.nia s.pr.prefIa
        prefixed := true
        illegalSuffix := !validSuffix s.pr.insnPrefix f.icode },
      suffixCode s.pr.insnPrefix f.icode, {})
  else if f.icode = .prefixInsn then
    let pv : PrefixState := ⟨true, f.insn.extractLsb' 0 26, wordIa f⟩
    if wordIa f = 0b1111 then ({ v with misalignedPrefix := true }, f.icode, pv)
    else ({ v with valid := false }, f.icode, pv)
  else (v, f.icode, s.pr)

/-- `vr.reg_3_addr` of a second instance. -/
def secondRegC : BitVec 6 :=
  if repeatOf s.decode = .drsp then
    if s.r.prefixed || i.fIn.bigEndian then s.r.regC ||| 1 else s.r.regC &&& ~~~1
  else s.r.regC

/-- The process `decode1_0` and the register of `decode1_rom`. -/
def step : State :=
  let (v, addr, pv) := rin s i
  let decode := if !i.stallIn && !double s then addr else s.decode
  if i.rst then ⟨{}, decode, false, {}⟩
  else if i.flushIn then ⟨{ s.r with valid := false }, decode, false, {}⟩
  else if !i.stallIn then
    if !double s then
      ⟨v, decode, i.fIn.fetchFailed, if i.fIn.valid then pv else s.pr⟩
    else { s with r := { s.r with second := true, regC := secondRegC s i } }
  else s

end Cycle

/-! ## The next stage -/

/-- `dec_c.reg` of `decode2_addrs`: the third register that is read. -/
def decCReg (d : Decode1ToDecode2) (icode : InsnCode) : BitVec 6 :=
  if repeatOf icode = .drsp ∧ d.second = (d.bigEndian || d.prefixed) then d.regC ||| 1 else d.regC

end Microwatt.Decode1
