import Microwatt.Lib.Bits
import Microwatt.Lib.Run

/-!
# The LMS filter and its registers on the bus

`LMS.v`: four taps, four weights and the error, all clocked; and `wb_lms.v`: the registers `x_in`,
`d_in` and `mode_train` that a Wishbone master writes, and the outputs that it reads.  Numbers are
in Q4.12.
-/

namespace Microwatt.Lms

/-- The registers of `LMS`. -/
structure Core where
  wn : Fin 4 → BitVec 16
  x : Fin 4 → BitVec 16
  errReg : BitVec 16

/-- The inputs of `LMS`. -/
structure CoreIn where
  modeTrain : Bool
  xIn : BitVec 16
  dIn : BitVec 16

/-- The parameter `gamma`: 0.5. -/
def gamma : BitVec 16 := 0x0800

/-- A product of two signed halfwords, as a word. -/
def mul (a b : BitVec 16) : BitVec 32 :=
  a.signExtend 32 * b.signExtend 32

/-- Bits 27 to 12 of a word: back to Q4.12. -/
def quantize (p : BitVec 32) : BitVec 16 :=
  p.extractLsb' 12 16

namespace Core

variable (c : Core) (i : CoreIn)

/-- `y_acc`. -/
def yAcc : BitVec 32 :=
  mul (c.wn 0) (c.x 0) + mul (c.wn 1) (c.x 1) + mul (c.wn 2) (c.x 2) + mul (c.wn 3) (c.x 3)

/-- `y_out`. -/
def yOut : BitVec 16 :=
  quantize c.yAcc

/-- `m0` to `m3`: what is added to the weights. -/
def m (k : Fin 4) : BitVec 16 :=
  quantize (mul gamma (quantize (mul c.errReg (c.x k))))

/-- One clock edge outside reset. -/
def step : Core where
  wn k := if i.modeTrain then c.wn k + c.m k else c.wn k
  x := ![i.xIn, c.x 0, c.x 1, c.x 2]
  errReg := if i.modeTrain then i.dIn - c.yOut else 0

/-- Reset. -/
def init : Core where
  wn _ := 0
  x _ := 0
  errReg := 0

end Core

/-- The bus in one cycle. -/
structure Bus where
  cyc : Bool
  stb : Bool
  we : Bool
  adr : BitVec 32
  dat : BitVec 16

/-- The registers of `wb_lms`, with the filter. -/
structure State where
  core : Core
  regs : CoreIn
  datO : BitVec 16
  ackO : Bool
  irqO : Bool

section

variable (s : State) (b : Bus)

/-- An access is taken. -/
def taken : Bool :=
  b.cyc && b.stb && !s.ackO

/-- The registers after a write. -/
def writeRegs (r : CoreIn) (adr : BitVec 32) (dat : BitVec 16) : CoreIn :=
  match (adr.extractLsb' 2 4).toNat with
  | 0 => { r with xIn := dat }
  | 1 => { r with dIn := dat }
  | 2 => { r with modeTrain := dat.getLsbD 0 }
  | _ => r

/-- What a read returns. -/
def readOut (c : Core) (adr : BitVec 32) : BitVec 16 :=
  match (adr.extractLsb' 2 4).toNat with
  | 3 => c.yOut
  | 4 => c.errReg
  | 5 => c.wn 0
  | 6 => c.wn 1
  | 7 => c.wn 2
  | 8 => c.wn 3
  | _ => 0

/-- One clock edge outside reset. -/
def step : State where
  core := s.core.step s.regs
  regs := if taken s b && b.we then writeRegs s.regs b.adr b.dat else s.regs
  datO := if taken s b && !b.we then readOut s.core b.adr else s.datO
  ackO := taken s b
  irqO := taken s b && b.we

end

/-- Reset. -/
def State.init : State where
  core := Core.init
  regs := ⟨false, 0, 0⟩
  datO := 0
  ackO := false
  irqO := false

end Microwatt.Lms
