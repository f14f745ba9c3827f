import Microwatt.Multiply
import Microwatt.Lib.Dsp48
import Microwatt.Lib.Run

/-!
# The multiplier in DSP slices

The architecture of `xilinx-mult.vhdl`.  The operands are cut into 24, 24 and 16 bits and into
17, 17, 17 and 13 bits; twelve slices multiply the pieces, in pairs that pass their sums on, and
take the addend in four pieces.  Four more slices add what comes out, 48 bits at a time, and invert
the sum for a subtraction, for which the addend has been inverted too.

The operation comes out two cycles after it has been put in, which is one cycle before the
portable architecture has it.
-/

namespace Microwatt.Xilinx

open Dsp48

variable {D : Slice}

/-- The slices and the registers beside them. -/
structure Mult (D : Slice) where
  m00 : D.State
  m01 : D.State
  m02 : D.State
  m03 : D.State
  m10 : D.State
  m11 : D.State
  m12 : D.State
  m13 : D.State
  m20 : D.State
  m21 : D.State
  m22 : D.State
  m23 : D.State
  s0 : D.State
  s1 : D.State
  p0 : D.State
  p1 : D.State
  productLo : BitVec 32
  rnot1 : Bool
  valid1 : Bool
  /-- `m_out.valid`. -/
  valid : Bool
  overflow : Bool

/-! ## The pieces of the operands -/

section Pieces

variable (i : MultiplyInput)

/-- `addend`. -/
def addend : BitVec 128 := if !i.subtract then i.addend else ~~~i.addend

/-- `d1sign`. -/
def d1sign : BitVec 14 := fill 14 (i.data1.getLsbD 63 && i.isSigned)

/-- `d2sign`. -/
def d2sign : BitVec 5 := fill 5 (i.data2.getLsbD 63 && i.isSigned)

/-- The A ports of the three groups of slices. -/
def a0 : BitVec 30 := 0#6 ++ i.data1.extractLsb' 0 24
def a1 : BitVec 30 := 0#6 ++ i.data1.extractLsb' 24 24
def a2 : BitVec 30 := d1sign i ++ i.data1.extractLsb' 48 16

/-- The B ports of the four slices of a group. -/
def b0 : BitVec 18 := 0#1 ++ i.data2.extractLsb' 0 17
def b1 : BitVec 18 := 0#1 ++ i.data2.extractLsb' 17 17
def b2 : BitVec 18 := 0#1 ++ i.data2.extractLsb' 34 17
def b3 : BitVec 18 := d2sign i ++ i.data2.extractLsb' 51 13

/-- The C ports that take the addend. -/
def c00 : BitVec 48 := 0#14 ++ (addend i).extractLsb' 0 34
def c02 : BitVec 48 := 0#24 ++ (addend i).extractLsb' 34 24
def c12 : BitVec 48 := 0#24 ++ (addend i).extractLsb' 58 24
def c22 : BitVec 48 := 0#2 ++ (addend i).extractLsb' 82 46

end Pieces

/-! ## The slices that multiply -/

/-- The first slice of a pair, with a register at its sum. -/
def first : Generics := { Generics.none with preg := true }

/-- The second slice of a pair, with a register at its product. -/
def second : Generics := { Generics.none with mreg := true }

/-- The ports of a first slice. -/
def firstIn (a : BitVec 30) (b : BitVec 18) (c : BitVec 48) (op : OpMode) (valid : Bool) : PortIn :=
  { PortIn.zero with a := a, b := b, c := c, opmode := op, cep := valid }

/-- The ports of a second slice. -/
def secondIn (a : BitVec 30) (b : BitVec 18) (pcin : BitVec 48) (valid : Bool) : PortIn :=
  { PortIn.zero with a := a, b := b, pcin := pcin, opmode := .shiftPlusM, cem := valid }

namespace Mult

variable (u : Mult D) (i : MultiplyInput)

def in00 : PortIn := firstIn (a0 i) (b0 i) (c00 i) .cPlusM i.valid
def m00P : BitVec 48 := (D.out first u.m00 (in00 i)).p
def in01 : PortIn := secondIn (a0 i) (b1 i) (u.m00P i) i.valid
def m01P : BitVec 48 := (D.out second u.m01 (u.in01 i)).p

def in02 : PortIn := firstIn (a0 i) (b2 i) (c02 i) .cPlusM i.valid
def m02P : BitVec 48 := (D.out first u.m02 (in02 i)).p
def in03 : PortIn := secondIn (a0 i) (b3 i) (u.m02P i) i.valid
def m03P : BitVec 48 := (D.out second u.m03 (u.in03 i)).p

def in10 : PortIn := firstIn (a1 i) (b0 i) 0 .m i.valid
def m10P : BitVec 48 := (D.out first u.m10 (in10 i)).p
def in11 : PortIn := secondIn (a1 i) (b1 i) (u.m10P i) i.valid
def m11P : BitVec 48 := (D.out second u.m11 (u.in11 i)).p

def in12 : PortIn := firstIn (a1 i) (b2 i) (c12 i) .cPlusM i.valid
def m12P : BitVec 48 := (D.out first u.m12 (in12 i)).p
def in13 : PortIn := secondIn (a1 i) (b3 i) (u.m12P i) i.valid
def m13P : BitVec 48 := (D.out second u.m13 (u.in13 i)).p

def in20 : PortIn := firstIn (a2 i) (b0 i) 0 .m i.valid
def m20P : BitVec 48 := (D.out first u.m20 (in20 i)).p
def in21 : PortIn := secondIn (a2 i) (b1 i) (u.m20P i) i.valid
def m21P : BitVec 48 := (D.out second u.m21 (u.in21 i)).p

def in22 : PortIn := firstIn (a2 i) (b2 i) (c22 i) .cPlusM i.valid
def m22P : BitVec 48 := (D.out first u.m22 (in22 i)).p
def in23 : PortIn := secondIn (a2 i) (b3 i) (u.m22P i) i.valid
def m23P : BitVec 48 := (D.out second u.m23 (u.in23 i)).p

/-! ## The slices that add -/

/-- `pp0`. -/
def pp0 : BitVec 128 :=
  (((u.m13P i).extractLsb' 0 38 ++ (u.m12P i).extractLsb' 0 17) ++
    ((u.m01P i).extractLsb' 0 41 ++ (u.m00P i).extractLsb' 0 17)).signExtend 128

/-- `pp1`. -/
def pp1 : BitVec 128 :=
  (((u.m23P i).extractLsb' 0 29 ++ (u.m22P i).extractLsb' 0 17) ++
    ((u.m11P i).extractLsb' 0 41 ++ (u.m10P i).extractLsb' 0 17)) ++ 0#24

/-- `pp23`. -/
def pp23 : BitVec 128 :=
  ((((u.m03P i).extractLsb' 0 38 ++ (u.m02P i).extractLsb' 0 17) ++ 0#34).signExtend 100 +
    (((u.m21P i).extractLsb' 0 35 ++ (u.m20P i).extractLsb' 0 17) ++ 0#48)).signExtend 128

/-- `sumlo`. -/
def sumlo : BitVec 9 :=
  ((u.pp0 i).extractLsb' 24 8).setWidth 9 + ((u.pp1 i).extractLsb' 24 8).setWidth 9

def inS0 : PortIn :=
  { PortIn.zero with
    a := (u.pp0 i).extractLsb' 50 30
    b := (u.pp0 i).extractLsb' 32 18
    c := (u.pp1 i).extractLsb' 32 48
    opmode := .abPlusC }

/-- `s0_pc` and `s0_carry`. -/
def outS0 : PortOut := D.out Generics.none u.s0 (u.inS0 i)

def inS1 : PortIn :=
  { PortIn.zero with
    a := (u.pp0 i).extractLsb' 98 30
    b := (u.pp0 i).extractLsb' 80 18
    c := (u.pp1 i).extractLsb' 80 48
    carryin := (u.outS0 i).carryout
    opmode := .abPlusC
    cep := u.valid1 }

/-- `s1_pc`. -/
def outS1 : PortOut := D.out first u.s1 (u.inS1 i)

def genericsP0 : Generics := { Generics.none with preg := true, mask := 0x00007fffffff }

def inP0 : PortIn :=
  { PortIn.zero with
    a := (u.pp23 i).extractLsb' 50 30
    b := (u.pp23 i).extractLsb' 32 18
    pcin := (u.outS0 i).p
    carryin := (u.sumlo i).getLsbD 8
    opmode := .pcinPlusAb
    invert := u.rnot1
    cep := u.valid1 }

/-- `product(79 downto 32)`, `p0_carry`, `p0_pat` and `p0_patb`. -/
def outP0 : PortOut := D.out genericsP0 u.p0 (u.inP0 i)

def genericsP1 : Generics :=
  { Generics.none with areg := true, breg := true, alumodereg := true }

def inP1 : PortIn :=
  { PortIn.zero with
    a := (u.pp23 i).extractLsb' 98 30
    b := (u.pp23 i).extractLsb' 80 18
    pcin := (u.outS1 i).p
    carryin := (u.outP0 i).carryout
    opmode := .pcinPlusAb
    invert := u.rnot1
    cea2 := u.valid1
    ceb2 := u.valid1
    cec := u.valid1
    cealumode := u.valid1 }

/-- `product(127 downto 80)`, `p1_pat` and `p1_patb`. -/
def outP1 : PortOut := D.out genericsP1 u.p1 (u.inP1 i)

/-- `product`. -/
def product : BitVec 128 := (u.outP1 i).p ++ ((u.outP0 i).p ++ u.productLo)

/-- `m_out`. -/
def out : MultiplyOutput := ⟨u.valid, u.product i, u.overflow⟩

/-- A rising edge. -/
def step : Mult D where
  m00 := D.next first u.m00 (in00 i)
  m01 := D.next second u.m01 (u.in01 i)
  m02 := D.next first u.m02 (in02 i)
  m03 := D.next second u.m03 (u.in03 i)
  m10 := D.next first u.m10 (in10 i)
  m11 := D.next second u.m11 (u.in11 i)
  m12 := D.next first u.m12 (in12 i)
  m13 := D.next second u.m13 (u.in13 i)
  m20 := D.next first u.m20 (in20 i)
  m21 := D.next second u.m21 (u.in21 i)
  m22 := D.next first u.m22 (in22 i)
  m23 := D.next second u.m23 (u.in23 i)
  s0 := D.next Generics.none u.s0 (u.inS0 i)
  s1 := D.next first u.s1 (u.inS1 i)
  p0 := D.next genericsP0 u.p0 (u.inP0 i)
  p1 := D.next genericsP1 u.p1 (u.inP1 i)
  productLo :=
    if u.valid1 then
      let lo := (u.sumlo i).extractLsb' 0 8 ++ (u.pp0 i).extractLsb' 0 24
      if !u.rnot1 then lo else ~~~lo
    else u.productLo
  rnot1 := i.subtract
  valid1 := i.valid
  valid := u.valid1
  overflow :=
    !(((u.outP1 i).patterndetect && (u.outP0 i).patterndetect) ||
      ((u.outP1 i).patternbdetect && (u.outP0 i).patternbdetect))

end Mult

end Microwatt.Xilinx
