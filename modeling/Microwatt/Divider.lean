import Mathlib.Tactic

/-!
# The iterative divider

`divider.vhdl`, which is there only in a core without an FPU.  A division shifts one
bit a cycle, or eight while the dividend has leading zeros, and is done when `count`
has come round to 64; a flush stops it.
-/

namespace Microwatt

/-- `Execute1ToDividerType`. -/
structure Execute1ToDivider where
  valid : Bool
  flush : Bool
  dividend : BitVec 64
  divisor : BitVec 64
  isSigned : Bool
  is32bit : Bool
  isExtended : Bool
  isModulus : Bool
  negResult : Bool

/-- `DividerToExecute1Type`. -/
structure DividerToExecute1 where
  valid : Bool
  writeRegData : BitVec 64
  overflow : Bool

/-- The registers, with the output registers of `divider_out`. -/
structure Divider where
  dend : BitVec 129
  div : BitVec 64
  quot : BitVec 64
  running : Bool
  count : BitVec 7
  negResult : Bool
  isModulus : Bool
  is32bit : Bool
  extended : Bool
  isSigned : Bool
  overflow : Bool
  ovf32 : Bool
  dOut : DividerToExecute1

namespace Divider

/-- The running half of `divider_0`: one bit of the quotient, or eight zeros. -/
def advance (u : Divider) : Divider :=
  let u' := { u with
    running := u.running && u.count != 63
    overflow := u.quot.getLsbD 63 }
  if u.dend.getLsbD 128 || u.dend.extractLsb' 64 64 ≥ u.div then
    { u' with
      ovf32 := u.ovf32 || u.quot.getLsbD 31
      dend := ((u.dend.extractLsb' 64 64 - u.div) ++ u.dend.extractLsb' 0 64).setWidth 129 <<< 1
      quot := u.quot <<< 1 ||| 1
      count := u.count + 1 }
  else if u.dend.extractLsb' 57 72 == 0 && u.count.extractLsb' 3 4 != 7 then
    { u' with
      ovf32 := u.ovf32 || u.quot.extractLsb' 24 8 != 0
      dend := u.dend <<< 8
      quot := u.quot <<< 8
      count := u.count + 8 }
  else
    { u' with
      ovf32 := u.ovf32 || u.quot.getLsbD 31
      dend := u.dend <<< 1
      quot := u.quot <<< 1
      count := u.count + 1 }

/-- `divider_0`. -/
def divide (u : Divider) (dIn : Execute1ToDivider) : Divider :=
  if dIn.flush then
    { u with
      dend := 0, div := 0, quot := 0, running := false, count := 0, is32bit := false
      overflow := false }
  else if dIn.valid then
    { u with
      dend := if dIn.isExtended then dIn.dividend.setWidth 129 <<< 64
        else dIn.dividend.setWidth 129
      div := dIn.divisor
      quot := 0
      negResult := dIn.negResult
      isModulus := dIn.isModulus
      extended := dIn.isExtended
      is32bit := dIn.is32bit
      isSigned := dIn.isSigned
      count := 127
      running := true
      overflow := false
      ovf32 := false }
  else if u.running then advance u
  else { u with count := 0 }

/-- `sresult`. -/
def sresult (u : Divider) : BitVec 65 :=
  let result := if u.isModulus then u.dend.extractLsb' 65 64 else u.quot
  if u.negResult then -result.setWidth 65 else result.setWidth 65

/-- `did_ovf`. -/
def didOvf (u : Divider) : Bool :=
  if !u.is32bit then
    u.overflow || (u.isSigned && (u.sresult.getLsbD 64 ^^ u.sresult.getLsbD 63))
  else if u.isSigned then
    u.ovf32 || u.sresult.getLsbD 32 != u.sresult.getLsbD 31
  else u.ovf32

/-- `oresult`. -/
def oresult (u : Divider) : BitVec 64 :=
  if u.didOvf then 0
  else if u.is32bit && !u.isModulus then (u.sresult.extractLsb' 0 32).setWidth 64
  else u.sresult.extractLsb' 0 64

/-- `divider_out`. -/
def output (u : Divider) : DividerToExecute1 where
  valid := u.count == 64
  writeRegData := u.oresult
  overflow := u.didOvf

/-- A rising edge outside reset. -/
def step (u : Divider) (dIn : Execute1ToDivider) : Divider :=
  { divide u dIn with dOut := output u }

/-! The output register is not read. -/

theorem advance_dOut (u : Divider) (o : DividerToExecute1) :
    advance { u with dOut := o } = { advance u with dOut := o } := by
  unfold advance
  dsimp only
  split_ifs <;> rfl

theorem step_dOut (u : Divider) (o : DividerToExecute1) (dIn : Execute1ToDivider) :
    step { u with dOut := o } dIn = step u dIn := by
  have hdivide : divide { u with dOut := o } dIn = { divide u dIn with dOut := o } := by
    unfold divide
    by_cases hf : dIn.flush = true
    · simp [hf]
    · by_cases hv : dIn.valid = true
      · simp [hf, hv]
      · by_cases hr : u.running = true
        · rw [if_neg hf, if_neg hv, if_neg hf, if_neg hv]
          rw [if_pos hr, if_pos (show ({ u with dOut := o } : Divider).running = true from hr)]
          exact advance_dOut u o
        · simp [hf, hv, hr]
  unfold step
  rw [hdivide]
  rfl

/-- Forget the division. -/
def forget (u : Divider) : Divider :=
  { u with running := false, count := 0, dOut.valid := false }

end Divider

end Microwatt
