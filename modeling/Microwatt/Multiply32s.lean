import Microwatt.Multiply

/-!
# The short multiplier

`multiply-32s.vhdl`, which multiplies 32-bit numbers in one cycle.  A stall holds what it shows.
-/

namespace Microwatt

/-- `reg_type`. -/
structure Multiply32s where
  valid : Bool
  data : BitVec 66

namespace Multiply32s

/-- An operand, with a 33rd bit for its sign if the operation is signed. -/
def operand (isSigned : Bool) (data : BitVec 64) : BitVec 33 :=
  BitVec.ofBool (isSigned && data.getLsbD 31) ++ data.extractLsb' 0 32

/-- The signed product of the operands. -/
def product (m : MultiplyInput) : BitVec 66 :=
  (operand m.isSigned m.data1).signExtend 66 * (operand m.isSigned m.data2).signExtend 66

variable (r : Multiply32s)

def d : BitVec 64 := r.data.extractLsb' 0 64

def ov : Bool :=
  r.d.extractLsb' 31 33 != 0 && !(r.d.extractLsb' 31 33 == BitVec.allOnes 33)

/-- `m_out`. -/
def out : MultiplyOutput := ⟨r.valid, 0#64 ++ r.d, r.ov⟩

/-- A rising edge. -/
def step (stall : Bool) (mIn : MultiplyInput) : Multiply32s :=
  if !stall then ⟨mIn.valid, product mIn⟩ else r

end Multiply32s

end Microwatt
