import Microwatt.Execute1.Stage2
import Microwatt.Fetch1.Step

/-!
# Writeback

`writeback.vhdl`: the results of execute1, loadstore1 and the FPU on their way to the register
files, and redirects and interrupts on their way to fetch1 and back to execute1.
-/

namespace Microwatt.Writeback

open Execute1 (Execute1ToWriteback WritebackToExecute1 InstrTag XerCommon)
open Fetch1 (WritebackToFetch1)

/-- `Loadstore1ToWritebackType`. -/
structure Loadstore1ToWriteback where
  valid : Bool
  instrTag : InstrTag
  writeEnable : Bool
  writeReg : BitVec 6
  writeData : BitVec 64
  xerc : XerCommon
  rc : Bool
  storeDone : Bool
  interrupt : Bool
  intrVec : BitVec 12
  srr1 : BitVec 16

/-- `FPUToWritebackType`. -/
structure FPUToWriteback where
  valid : Bool
  interrupt : Bool
  instrTag : InstrTag
  writeEnable : Bool
  writeReg : BitVec 6
  writeData : BitVec 64
  writeCrEnable : Bool
  writeCrMask : BitVec 8
  writeCrData : BitVec 32
  writeXerc : Bool
  xerc : XerCommon
  intrVec : BitVec 12
  srr1 : BitVec 16

/-- `WritebackToRegisterFileType`. -/
structure WritebackToRegisterFile where
  writeReg : BitVec 6
  writeData : BitVec 64

/-- `WritebackToCrFileType`. -/
structure WritebackToCrFile where
  crMaskData : Option (BitVec 8 × BitVec 32)
  xerc : Option XerCommon

variable (e : Execute1ToWriteback) (l : Loadstore1ToWriteback) (fp : FPUToWriteback)

/-- `complete_out`. -/
def completeOut : InstrTag :=
  if e.valid then e.instrTag
  else if l.valid then l.instrTag
  else if fp.valid then fp.instrTag
  else ⟨0, false⟩

/-- `intr`. -/
def intr : Bool :=
  e.interrupt || l.interrupt || fp.interrupt

/-- `vec` and `srr1`. -/
def vecSrr1 : BitVec 12 × BitVec 16 :=
  if e.interrupt then (e.intrVec, e.srr1)
  else if l.interrupt then (l.intrVec, l.srr1)
  else if fp.interrupt then (fp.intrVec, fp.srr1)
  else (0, 0)

/-- `interrupt_out`. -/
def interruptOut : WritebackToExecute1 where
  intr := intr e l fp
  hvIntr := e.interrupt && e.hvIntr
  scvInt := e.interrupt && e.isScv
  altInt := e.altIntr
  srr1 := (vecSrr1 e l fp).2

/-- `w_out`; the unit tested last takes precedence. -/
def wOut : Option WritebackToRegisterFile :=
  if intr e l fp then none
  else if l.writeEnable then some ⟨l.writeReg, l.writeData⟩
  else if fp.writeEnable then some ⟨fp.writeReg, fp.writeData⟩
  else if e.writeEnable then some ⟨e.writeReg, e.writeData⟩
  else none

/-- The CR field that a store conditional writes. -/
def stcxCr : BitVec 8 × BitVec 32 :=
  (0x80, 0#2 ++ BitVec.ofBool l.storeDone ++ BitVec.ofBool l.xerc.so ++ 0#28)

/-- `c_out`. -/
def cOut : WritebackToCrFile :=
  if intr e l fp then ⟨none, none⟩
  else
    { crMaskData :=
        if l.rc then some (stcxCr l)
        else if fp.writeCrEnable then some (fp.writeCrMask, fp.writeCrData)
        else if e.writeCrEnable then some (e.writeCrMask, e.writeCrData)
        else none
      xerc :=
        if fp.writeXerc then some fp.xerc
        else if e.writeXercEnable then some e.xerc
        else none }

/-- `intr_page`. -/
def intrPage : BitVec 5 :=
  if e.interrupt && e.isScv then if e.altIntr then 0x3 else 0x17
  else if e.altIntr then 0x4
  else 0

/-- `f_out`. -/
def fOut : WritebackToFetch1 where
  redirect := e.redirect
  virtMode := e.redirMode.getLsbD 3
  privMode := e.redirMode.getLsbD 2
  bigEndian := e.redirMode.getLsbD 1
  mode32bit := e.redirMode.getLsbD 0
  redirectNia := e.writeData
  brNia := e.lastNia
  brLast := e.brLast && !intr e l fp
  brTaken := e.brTaken
  interrupt := intr e l fp
  altIntr := e.altIntr
  intrVec := BitVec.ofBool e.altIntr ++ BitVec.ofBool e.altIntr ++ 0#45 ++ intrPage e ++
    (vecSrr1 e l fp).1

/-- `flush_out`. -/
def flushOut : Bool :=
  e.redirect || intr e l fp

end Microwatt.Writeback
