import Mathlib.Tactic

/-!
# The multiplier

`multiply.vhdl` with `PIPELINE_DEPTH = 3`, which no instance overrides.  The unit
takes an operation in every cycle and has no flush: what has been put in comes out
three cycles later.  The last stage of the pipeline is read before its register, so
only the first two stages are registers here.
-/

namespace Microwatt

/-- `MultiplyInputType`. -/
structure MultiplyInput where
  valid : Bool
  data1 : BitVec 64
  data2 : BitVec 64
  addend : BitVec 128
  isSigned : Bool
  /-- 0 for `addend + data1 * data2`, 1 for `addend - data1 * data2`. -/
  subtract : Bool

/-- `MultiplyOutputType`. -/
structure MultiplyOutput where
  valid : Bool
  result : BitVec 128
  overflow : Bool

/-- `multiply_pipeline_stage`. -/
structure MultiplyPipelineStage where
  valid : Bool
  data : BitVec 128

/-- The registers: the latched input, the stages and the overflow bit. -/
structure Multiply where
  m : MultiplyInput
  stage0 : MultiplyPipelineStage
  stage1 : MultiplyPipelineStage
  overflow : Bool

namespace Multiply

/-- An operand, extended by its sign if the operation is signed. -/
def operand (isSigned : Bool) (data : BitVec 64) : BitVec 128 :=
  if isSigned then data.signExtend 128 else data.setWidth 128

/-- The low 128 bits of the product with the addend. -/
def product (m : MultiplyInput) : BitVec 128 :=
  let prod := operand m.isSigned m.data1 * operand m.isSigned m.data2
  if m.subtract then m.addend - prod else m.addend + prod

/-- Bits 127 to 63 are neither all zero nor all one. -/
def overflows (d : BitVec 128) : Bool :=
  d.extractLsb' 63 65 != 0 && d.extractLsb' 63 65 != BitVec.allOnes 65

/-- `m_out`. -/
def out (u : Multiply) : MultiplyOutput where
  valid := u.stage1.valid
  result := u.stage1.data
  overflow := u.overflow

/-- A rising edge. -/
def step (u : Multiply) (mIn : MultiplyInput) : Multiply where
  m := mIn
  stage0 := ⟨u.m.valid, product u.m⟩
  stage1 := u.stage0
  overflow := overflows u.stage1.data

/-- Forget the operations in the pipeline. -/
def forget (u : Multiply) : Multiply :=
  { u with m.valid := false, stage0.valid := false, stage1.valid := false }

end Multiply

end Microwatt
