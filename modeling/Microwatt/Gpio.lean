import Microwatt.Lib.Bits
import Microwatt.Lib.Fair
import Microwatt.Soc.SlaveIo

/-!
# The GPIO unit

`gpio.vhdl`: the lines, their registers, and the interrupts.  A status bit is set when the trigger
of its line is detected and cleared through a register of its own.
-/

namespace Microwatt.Gpio

open Soc (WbIoMasterOut WbIoSlaveOut)

/-- `GPIO_REG_*`, addressed by the low five bits. -/
inductive RegAddr where
  | dataOut
  | dataIn
  | dir
  | dataSet
  | dataClr
  | intEn
  | intStat
  | intClr
  | intType
  | intBothEdge
  | intLevel
deriving DecidableEq

/-- The register at an address. -/
def regAt (adr : BitVec 5) : Option RegAddr :=
  match adr with
  | 0b00000 => some .dataOut
  | 0b00001 => some .dataIn
  | 0b00010 => some .dir
  | 0b00100 => some .dataSet
  | 0b00101 => some .dataClr
  | 0b01000 => some .intEn
  | 0b01001 => some .intStat
  | 0b01100 => some .intClr
  | 0b01101 => some .intType
  | 0b01110 => some .intBothEdge
  | 0b01111 => some .intLevel
  | _ => none

/-- The registers; `n` is `NGPIO`. -/
structure Reg (n : Nat) where
  data : BitVec n
  dirn : BitVec n
  in0 : BitVec n
  in1 : BitVec n
  in2 : BitVec n
  intrEn : BitVec n
  intrHit : BitVec n
  intrType : BitVec n
  intrLevel : BitVec n
  intrBoth : BitVec n
  wbOut : WbIoSlaveOut

/-- The inputs of a cycle. -/
structure Inputs (n : Nat) where
  rst : Bool
  wbIn : WbIoMasterOut
  gpioIn : BitVec n

variable {n : Nat}

section

variable (r : Reg n) (j : Inputs n)

/-- `intr`. -/
def intr : Bool := r.intrHit != 0

/-- `reg_out`. -/
def regOut : BitVec n :=
  match regAt (j.wbIn.adr.setWidth 5) with
  | some .dataOut => r.data
  | some .dataIn => r.in1
  | some .dir => r.dirn
  | some .intEn => r.intrEn
  | some .intStat => r.intrHit
  | some .intType => r.intrType
  | some .intBothEdge => r.intrBoth
  | some .intLevel => r.intrLevel
  | _ => 0

/-- `wb_rsp`. -/
def wbRsp : WbIoSlaveOut where
  dat := (regOut r j).setWidth 32
  ack := j.wbIn.cyc && j.wbIn.stb
  stall := false

/-- `intr_hit`, for one line. -/
def intrHit (i : Nat) : Bool :=
  if r.intrType.getLsbD i = false then
    match r.in1.getLsbD i != r.in2.getLsbD i, r.intrBoth.getLsbD i, r.intrLevel.getLsbD i with
    | true, true, _ => true
    | true, false, false => r.in1.getLsbD i == true
    | true, false, true => r.in1.getLsbD i == false
    | false, _, _ => false
  else r.in1.getLsbD i == !r.intrLevel.getLsbD i

/-- `reg_intr_hit` after the loop over the lines. -/
def hits : BitVec n :=
  r.intrHit ||| (List.range n).foldl
    (fun v i => if intrHit r i && r.intrEn.getLsbD i then v ||| (1#n <<< i) else v) 0

/-- The register that is written. -/
def written : Option RegAddr :=
  if j.wbIn.cyc && j.wbIn.stb && j.wbIn.we then regAt (j.wbIn.adr.setWidth 5) else none

/-- The data for the lines. -/
def lines : BitVec n := j.wbIn.dat.setWidth n

/-- A rising edge, before the registers are reset or written. -/
def sampled : Reg n :=
  { r with
    intrHit := hits r
    in2 := r.in1
    in1 := r.in0
    in0 := j.gpioIn
    wbOut := wbRsp r j }

/-- A rising edge. -/
def step : Reg n :=
  let v := sampled r j
  if j.rst then
    { v with
      data := 0
      dirn := 0
      intrEn := 0
      intrHit := 0
      intrType := 0
      intrBoth := 0
      intrLevel := 0
      wbOut := { v.wbOut with ack := false } }
  else
    match written j with
    | some .dataOut => { v with data := lines j }
    | some .dir => { v with dirn := lines j }
    | some .dataSet => { v with data := r.data ||| lines j }
    | some .dataClr => { v with data := r.data &&& ~~~lines j }
    | some .intEn => { v with intrEn := lines j }
    | some .intClr => { v with intrHit := r.intrHit &&& ~~~lines j }
    | some .intType => { v with intrType := lines j }
    | some .intBothEdge => { v with intrBoth := lines j }
    | some .intLevel => { v with intrLevel := lines j }
    | _ => v

end

/-! ## Triggers -/

/-- The trigger of a line: a level, or an edge to the level, or any edge. -/
def Triggered (r : Reg n) (i : Fin n) : Prop :=
  if r.intrType.getLsbD i then r.in1.getLsbD i = !r.intrLevel.getLsbD i
  else r.in1.getLsbD i ≠ r.in2.getLsbD i ∧
    (r.intrBoth.getLsbD i = true ∨ r.in1.getLsbD i = !r.intrLevel.getLsbD i)

/-- An enabled trigger of a line is detected. -/
def Detected (r : Reg n) (i : Fin n) : Prop :=
  r.intrEn.getLsbD i = true ∧ Triggered r i

/-- A 1 is written to the line's bit of INT_CLR. -/
def Clears (j : Inputs n) (i : Fin n) : Prop :=
  written j = some .intClr ∧ (lines j).getLsbD i = true

/-- The trigger of a line is detected in a cycle in which INT_CLR is written for other lines. -/
def Discarded (r : Reg n) (j : Inputs n) (i : Fin n) : Prop :=
  j.rst = false ∧ Detected r i ∧ r.intrHit.getLsbD i = false ∧ written j = some .intClr ∧
    (lines j).getLsbD i = false

section

variable {r : Reg n} {j : Inputs n}

theorem intrHit_iff (i : Fin n) : intrHit r i = true ↔ Triggered r i := by
  unfold intrHit Triggered
  cases r.intrType.getLsbD i <;> cases r.in1.getLsbD i <;> cases r.in2.getLsbD i <;>
    cases r.intrBoth.getLsbD i <;> cases r.intrLevel.getLsbD i <;> simp

theorem getLsbD_hits (i : Fin n) :
    (hits r).getLsbD i = true ↔ Detected r i ∨ r.intrHit.getLsbD i = true := by
  unfold hits Detected
  rw [BitVec.getLsbD_or, Bits.getLsbD_foldl_range _ _ _ le_rfl, ← intrHit_iff]
  simp [i.isLt, and_comm, or_comm]

/-- A write that is not to INT_CLR leaves the status to the triggers. -/
theorem step_intrHit (hrst : j.rst = false) : (step r j).intrHit =
    if written j = some .intClr then r.intrHit &&& ~~~lines j else hits r := by
  unfold step
  rw [hrst]
  cases hw : written j with
  | none => rfl
  | some a => cases a <;> rfl

/-- The status of a line after a cycle out of reset. -/
theorem status_step (hrst : j.rst = false) (i : Fin n) : (step r j).intrHit.getLsbD i = true ↔
    ¬Clears j i ∧ (r.intrHit.getLsbD i = true ∨ Detected r i) ∧ ¬Discarded r j i := by
  rw [step_intrHit hrst]
  unfold Clears Discarded
  by_cases hw : written j = some .intClr
  · rw [if_pos hw]
    rw [BitVec.getLsbD_and, BitVec.getLsbD_not]
    generalize r.intrHit.getLsbD i = a
    generalize (lines j).getLsbD i = b
    cases a <;> cases b <;> simp [hw, hrst]
  · rw [if_neg hw, getLsbD_hits]
    simp [hw, or_comm]

end

/-! ## Runs -/

section Run

variable (r : Reg n) (ins : Nat → Inputs n)

/-- The registers before edge `k`. -/
def regs (k : Nat) : Reg n := Clocked.trace step r ins k

/-- The status bit of a line. -/
def Status (k : Nat) (i : Fin n) : Prop := (regs r ins k).intrHit.getLsbD i = true

/-- A trigger that is detected sets the status bit of its line, and a status bit that is set stays
set, until INT_CLR is written with a 1 for the line or the unit is reset. -/
def NeverLost : Prop :=
  ∀ i k m, k < m → Status r ins k i ∨ Detected (regs r ins k) i →
    (∀ l, k ≤ l → l < m → (ins l).rst = false ∧ ¬Clears (ins l) i) → Status r ins m i

/-- Events are never lost if and only if none comes in a cycle in which INT_CLR is written for other
lines and its status bit is not set yet. -/
theorem neverLost_iff (r : Reg n) (ins : Nat → Inputs n) :
    NeverLost r ins ↔ ∀ k i, ¬Discarded (regs r ins k) (ins k) i := by
  constructor
  · rintro h k i hd
    have hclr : ¬Clears (ins k) i := by
      rintro ⟨-, hl⟩
      rw [hd.2.2.2.2] at hl
      cases hl
    have hset := h i k (k + 1) (Nat.lt_succ_self k) (Or.inr hd.2.1) fun l hk hl => by
      obtain rfl : l = k := by omega
      exact ⟨hd.1, hclr⟩
    exact ((status_step hd.1 i).mp hset).2.2 hd
  · intro hno i k m hkm hstart hquiet
    induction m, hkm using Nat.le_induction with
    | base =>
        obtain ⟨hrst, hclr⟩ := hquiet k le_rfl (Nat.lt_succ_self k)
        exact (status_step hrst i).mpr ⟨hclr, hstart, hno k i⟩
    | succ m hm ih =>
        obtain ⟨hrst, hclr⟩ := hquiet m (by omega) (Nat.lt_succ_self m)
        have hset := ih fun l hk hl => hquiet l hk (by omega)
        exact (status_step hrst i).mpr ⟨hclr, Or.inl hset, hno m i⟩

end Run

/-- The unit after a reset. -/
def Reg.cold : Reg n :=
  { data := 0, dirn := 0, in0 := 0, in1 := 0, in2 := 0, intrEn := 0, intrHit := 0, intrType := 0
    intrLevel := 0, intrBoth := 0, wbOut := ⟨0, false, false⟩ }

/-- INT_EN is written for both lines, line 1 rises, and INT_CLR is written for line 0 in the cycle
in which that is detected. -/
def clearOther (k : Nat) : Inputs 2 where
  rst := false
  wbIn :=
    if k = 0 then ⟨0b01000, 0b11, 0b1111, true, true, true⟩
    else if k = 3 then ⟨0b01100, 0b01, 0b1111, true, true, true⟩
    else ⟨0, 0, 0, false, false, false⟩
  gpioIn := if k = 0 then 0b00 else 0b10

theorem edge_lost : ¬NeverLost .cold clearOther := by
  intro h
  have hset := h 1 3 4 (by decide) (Or.inr ?_) ?_
  · revert hset
    unfold Status
    decide
  · unfold Detected Triggered
    decide
  · intro l h3 h4
    obtain rfl : l = 3 := by omega
    exact ⟨rfl, fun hc => absurd hc.2 (by decide)⟩

end Microwatt.Gpio
