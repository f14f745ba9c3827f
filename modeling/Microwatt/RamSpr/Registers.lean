import Microwatt.RamSpr.Port
import Microwatt.Writeback

/-!
# The SPR RAMs as an array of registers

decode2, execute1 and the interrupts of writeback step together, and with them an array of
registers that changes only when an instruction completes or an interrupt is taken.  An
instruction that is started reads from the RAMs, or from the write port of the instruction before
it, what the array holds once that instruction has completed.

The bypass from the write port does not ask whether the instruction there is still valid.  A
request that has been flushed is gone at the next edge unless the stage is busy.
-/

namespace Microwatt.RamSpr

open Execute1 Clocked
open Writeback (Loadstore1ToWriteback FPUToWriteback flushOut interruptOut)

/-! ## decode2, execute1 and writeback -/

/-- The instruction in the register of decode2: no instruction. -/
def Decode1ToDecode2.none : Decode1ToDecode2 where
  icode := .other ⟨.alu, .illegal, false, by decide, fun _ => rfl⟩
  insn := 0
  illegalSuffix := false
  coded := fun _ => trivial

/-- `reg_type` of decode2: `e.valid`, `busy`, `read_rspr`, and the instruction with its SPR
addresses. -/
structure Dc2 where
  valid : Bool
  busy : Bool
  readRspr : Bool
  insn : Decode1ToDecode2
  e : SprFields

/-- `reg_type_init`. -/
def Dc2.init : Dc2 := ⟨false, false, false, .none, .init⟩

/-- The inputs of decode2 in one cycle. -/
structure Decode2Input where
  /-- `d_in.valid`. -/
  valid : Bool
  insn : Decode1ToDecode2
  /-- Control lets the instruction through, if there is one. -/
  issue : Bool
  dbgSprReq : Bool
  dbgSprAddr : BitVec 8

/-- `dc2in`. -/
def Dc2.next (dc2 : Dc2) (i : Decode2Input) : Dc2 :=
  let v := if dc2.busy then dc2 else
    { dc2 with
      insn := i.insn
      e := sprFields i.insn
      readRspr := (sprFields i.insn).sprsBusy && i.valid }
  let validIn := i.valid || dc2.busy
  let v := { v with valid := validIn && i.issue, busy := validIn && !i.issue }
  -- an access of the debugger takes the addresses of an instruction that reads no SPR
  if i.dbgSprReq && !v.readRspr then
    { v with
      e := { v.e with
        evenRdaddr := i.dbgSprAddr.extractLsb' 1 3
        oddRdaddr := i.dbgSprAddr.extractLsb' 1 3
        rdOdd := i.dbgSprAddr.getLsbD 0 } }
  else v

/-- The process `decode2_0`. -/
def Dc2.step (dc2 : Dc2) (i : Decode2Input) (flushIn busyIn : Bool) : Dc2 :=
  if flushIn then .init
  else if !(dc2.valid && busyIn) then dc2.next i
  else if !dc2.readRspr then
    { dc2 with
      e := { dc2.e with
        evenRdaddr := (dc2.next i).e.evenRdaddr
        oddRdaddr := (dc2.next i).e.oddRdaddr
        rdOdd := (dc2.next i).e.rdOdd } }
  else dc2

/-- The registers of decode2 and execute1. -/
structure Machine where
  dc2 : Dc2
  core : Core

/-- The inputs of one cycle.  Of `core`, the flush, the interrupt and the fields of `eIn` that
decode2 holds are not read. -/
structure MachineInput where
  dec : Decode2Input
  core : CoreInput
  lIn : Loadstore1ToWriteback
  fpIn : FPUToWriteback

namespace Machine

variable (hasFpu : Bool) (m : Machine) (i : MachineInput)

/-- `e_in`. -/
def eIn : Decoded :=
  { i.core.eIn with
    valid := m.dc2.valid
    unit := unit m.dc2.insn
    op := m.dc2.insn.decode.op
    insn := m.dc2.insn.insn
    illegalSuffix := m.dc2.insn.illegalSuffix
    lr := m.dc2.e.lr
    decCtr := m.dc2.e.decCtr
    sprIsRam := m.dc2.e.isRam
    ramsprOddRdaddr := m.dc2.e.oddRdaddr
    ramsprWraddr := m.dc2.e.wraddr
    ramsprWriteEven := m.dc2.e.writeEven
    ramsprWriteOdd := m.dc2.e.writeOdd }

/-- The inputs of execute1. -/
def coreInput : CoreInput :=
  { i.core with
    eIn := m.eIn i
    flushIn := flushOut m.core.ex2.e i.lIn i.fpIn
    interruptIn := interruptOut m.core.ex2.e i.lIn i.fpIn }

/-- The inputs of the first stage. -/
def stage : Execute1.Input := stageInput hasFpu m.core (m.coreInput i)

/-- A rising edge outside reset. -/
def step : Machine where
  dc2 := m.dc2.step i.dec (m.coreInput i).flushIn (busyOut m.core.st (m.stage hasFpu i))
  core := m.core.step hasFpu (m.coreInput i)

/-- `ramspr_even`, with the write data bypass. -/
def ramsprEven : BitVec 64 :=
  if m.core.st.ex1.se.ramsprWriteEven ∧ m.dc2.e.evenRdaddr = m.core.st.ex1.ramsprWraddr then
    if m.core.st.ex1.lrFromNext then nextNia m.core else m.core.st.ex1.sprWriteData
  else m.core.evenSprs m.dc2.e.evenRdaddr

/-- `ramspr_result`. -/
def ramsprResult : BitVec 64 :=
  let v := if m.dc2.e.rdOdd then ramsprOdd m.core (m.coreInput i) else m.ramsprEven
  if m.dc2.e.is32bit then (v.setWidth 32).setWidth 64 else v

/-- The cell of a register. -/
def ram (s : Spr) : BitVec 64 :=
  if s.isodd then m.core.oddSprs s.index else m.core.evenSprs s.index

/-- An instruction is started. -/
def starts : Bool := go hasFpu m.core.st (m.stage hasFpu i)

/-- The instruction in `ex1` completes. -/
def completes : Bool := (ex2in m.core (m.coreInput i)).e.valid

end Machine

/-! ## The array of registers -/

/-- The registers, and what the instruction in `ex1` writes to them when it completes. -/
structure Registers where
  regs : Spr → BitVec 64
  inFlight : Spr → Option (BitVec 64)

/-- An interrupt saves the address and the MSR. -/
def saveInterrupt (w : WritebackToExecute1) (nia srr1 : BitVec 64) (regs : Spr → BitVec 64) :
    Spr → BitVec 64 :=
  if w.hvIntr then Function.update (Function.update regs .hsrr0 nia) .hsrr1 srr1
  else if w.scvInt then Function.update (Function.update regs .lr nia) .ctr srr1
  else Function.update (Function.update regs .srr0 nia) .srr1 srr1

namespace Registers

variable (hasFpu : Bool) (r : Registers) (m : Machine) (i : MachineInput)

/-- The registers after the interrupt or the completion of this cycle. -/
def after : Spr → BitVec 64 :=
  if (m.coreInput i).interruptIn.intr then
    saveInterrupt (m.coreInput i).interruptIn m.core.ex2.e.lastNia
      (intrSrr1 m.core.ctrl.msr (m.coreInput i).interruptIn.srr1) r.regs
  else if m.completes i then fun s => (r.inFlight s).getD (r.regs s)
  else r.regs

def step : Registers where
  regs := r.after m i
  inFlight :=
    if m.starts hasFpu i then
      sprWrites m.dc2.insn (m.eIn i).nia (m.eIn i).readData3 (r.after m i)
    else r.inFlight

end Registers

/-- The machine with the array, whether the cycle before was flushed, and whether that was by an
interrupt of loadstore1 or the FPU. -/
structure System where
  m : Machine
  r : Registers
  flushed : Bool
  preempted : Bool

def System.step (hasFpu : Bool) (x : System) (i : MachineInput) : System where
  m := x.m.step hasFpu i
  r := x.r.step hasFpu x.m i
  flushed := (x.m.coreInput i).flushIn
  preempted := i.lIn.interrupt || i.fpIn.interrupt

/-- In the cycle after an interrupt of loadstore1 or the FPU that has flushed a write to an SPR in
RAM, neither of the two is busy. -/
def Calm (x : System) (i : MachineInput) : Prop :=
  x.preempted = true →
    (x.m.core.st.ex1.se.ramsprWriteEven || x.m.core.st.ex1.se.ramsprWriteOdd) = true →
    i.core.lBusy = false ∧ i.core.l2stall = false ∧ i.core.fpBusy = false ∧ i.core.f2stall = false

instance (x : System) (i : MachineInput) : Decidable (Calm x i) :=
  inferInstanceAs (Decidable (_ → _ → _))

/-- After reset, with the array at what the RAMs hold. -/
structure System.AfterReset (x : System) : Prop where
  st : Execute1.AfterReset x.m.core.st
  valid : x.m.core.st.ex1.e.valid = false
  se : x.m.core.st.ex1.se = .init
  interrupt : x.m.core.st.ex1.e.interrupt = false
  ex2 : x.m.core.ex2.e.redirect = false ∧ x.m.core.ex2.e.interrupt = false
  dc2 : x.m.dc2 = .init
  regs : x.r.regs = x.m.ram
  flushed : x.flushed = false
  preempted : x.preempted = false

/-- What an instruction that is started reads is what the array holds. -/
def ReadsArray (hasFpu : Bool) (x : System) (i : MachineInput) : Prop :=
  x.m.starts hasFpu i = true →
    (∀ s, resultSpr x.m.dc2.insn = some s → x.m.ramsprResult i = s.width (x.r.after x.m i s)) ∧
      ∀ s, oddSpr x.m.dc2.insn = some s →
        ramsprOdd x.m.core (x.m.coreInput i) = x.r.after x.m i s

/-! ## decode2 -/

/-- decode2 holds the addresses of its instruction, apart from the read addresses of one that
reads no SPR. -/
structure Dc2.Ok (dc2 : Dc2) : Prop where
  own : dc2.e = { sprFields dc2.insn with
    evenRdaddr := dc2.e.evenRdaddr, oddRdaddr := dc2.e.oddRdaddr, rdOdd := dc2.e.rdOdd }
  reads : dc2.readRspr = true → dc2.e = sprFields dc2.insn
  readRspr : (dc2.valid || dc2.busy) = true → dc2.readRspr = (sprFields dc2.insn).sprsBusy

theorem Dc2.Ok.writes {dc2 : Dc2} (h : dc2.Ok) :
    dc2.e.wraddr = (sprFields dc2.insn).wraddr ∧ dc2.e.lr = (sprFields dc2.insn).lr ∧
      dc2.e.decCtr = (sprFields dc2.insn).decCtr ∧
      dc2.e.writeEven = (sprFields dc2.insn).writeEven ∧
      dc2.e.writeOdd = (sprFields dc2.insn).writeOdd := by
  rw [h.own]
  exact ⟨rfl, rfl, rfl, rfl, rfl⟩

theorem Dc2.ok_init : Dc2.init.Ok where
  own := by rw [Dc2.init, sprFields_other rfl]
  reads := fun h => absurd h (by decide)
  readRspr := fun h => absurd h (by decide)

/-- An access of the debugger. -/
theorem Dc2.Ok.debug {dc2 : Dc2} (h : dc2.Ok) (hread : dc2.readRspr = false) (addr : BitVec 3)
    (odd : Bool) :
    Dc2.Ok { dc2 with
      e := { dc2.e with evenRdaddr := addr, oddRdaddr := addr, rdOdd := odd } } where
  own := by rw [h.own]
  reads := fun hr => absurd hr (by simp [hread])
  readRspr := h.readRspr

theorem Dc2.Ok.next {dc2 : Dc2} (h : dc2.Ok) (i : Decode2Input) : (dc2.next i).Ok := by
  have hv : Dc2.Ok { (if dc2.busy then dc2 else { dc2 with
      insn := i.insn
      e := sprFields i.insn
      readRspr := (sprFields i.insn).sprsBusy && i.valid }) with
        valid := (i.valid || dc2.busy) && i.issue
        busy := (i.valid || dc2.busy) && !i.issue } := by
    cases hbusy : dc2.busy
    · refine ⟨rfl, fun _ => rfl, fun hvalid => ?_⟩
      have hi : i.valid = true := by
        cases hi : i.valid
        · simp [hi] at hvalid
        · rfl
      simp [hi]
    · exact ⟨h.own, h.reads, fun _ => h.readRspr (by simp [hbusy])⟩
  unfold Dc2.next
  dsimp only
  generalize (if dc2.busy = true then dc2 else { dc2 with
      insn := i.insn
      e := sprFields i.insn
      readRspr := (sprFields i.insn).sprsBusy && i.valid }) = v at hv ⊢
  split_ifs with hdbg
  · simp only [Bool.and_eq_true, Bool.not_eq_true'] at hdbg
    exact hv.debug hdbg.2 _ _
  · exact hv

theorem Dc2.Ok.step {dc2 : Dc2} (h : dc2.Ok) (i : Decode2Input) (flushIn busyIn : Bool) :
    (dc2.step i flushIn busyIn).Ok := by
  unfold Dc2.step
  split_ifs with hf hd hr
  · exact Dc2.ok_init
  · exact h.next i
  · refine ⟨?_, fun hread => ?_, h.readRspr⟩
    · show ({ dc2.e with evenRdaddr := _, oddRdaddr := _, rdOdd := _ } : SprFields) = _
      rw [h.own]
    · simp only [Bool.not_eq_true'] at hr
      exact absurd hread (by simp [hr])
  · exact h

/-! ## The bypass -/

section Bypass

variable {m : Machine} {i : MachineInput} {s : Spr}

theorem ramsprEven_eq (hodd : s.isodd = false) (haddr : m.dc2.e.evenRdaddr = s.index) :
    m.ramsprEven = ((portOf m.core.st.ex1).request s).getD (m.ram s) := by
  unfold Machine.ramsprEven SprPort.request Machine.ram portOf nextNia
  rw [haddr, hodd]
  simp only [Bool.false_eq_true, if_false, and_true]
  split_ifs <;> rfl

theorem ramsprOdd_eq (hodd : s.isodd = true) (haddr : m.dc2.e.oddRdaddr = s.index) :
    ramsprOdd m.core (m.coreInput i) =
      ((portOf m.core.st.ex1).request s).getD (m.ram s) := by
  have haddr' : (m.coreInput i).eIn.ramsprOddRdaddr = s.index := haddr
  unfold ramsprOdd SprPort.request Machine.ram portOf
  rw [haddr', hodd]
  simp only [Bool.true_eq_false, if_true, and_false, if_false]
  split_ifs <;> rfl

end Bypass

/-! ## The start of an instruction -/

section Start

variable {hasFpu : Bool} {m : Machine} {i : MachineInput}

theorem flushIn_of_intr (h : (m.coreInput i).interruptIn.intr = true) :
    (m.coreInput i).flushIn = true := by
  have hintr : Writeback.intr m.core.ex2.e i.lIn i.fpIn = true := h
  show flushOut _ _ _ = true
  rw [flushOut, hintr, Bool.or_true]

theorem completes_eq : m.completes i = ramsprDoit m.core (m.coreInput i) := rfl

theorem intr_eq_false (h : (m.coreInput i).flushIn = false) :
    (m.coreInput i).interruptIn.intr = false := by
  by_contra hintr
  rw [flushIn_of_intr (by simpa using hintr)] at h
  exact absurd h (by decide)

/-- An instruction is started only when the second stage is not stalled and there is no flush. -/
theorem of_starts (h : m.starts hasFpu i = true) :
    m.dc2.valid = true ∧ (m.coreInput i).flushIn = false ∧
      m.completes i = m.core.st.ex1.e.valid ∧ m.dc2.insn.illegalSuffix = false ∧
      (m.stage hasFpu i).actions.exception = false := by
  have hgo := h
  simp only [Machine.starts, go, validIn, Bool.and_eq_true, Bool.not_eq_true', busyOut,
    Bool.or_eq_false_iff] at hgo
  obtain ⟨⟨hvalid, ⟨⟨⟨⟨⟨hl, -⟩, hf⟩, -⟩, hflush⟩, -⟩, -⟩, hexc, -⟩ := hgo
  have hflush' : (m.coreInput i).flushIn = false := hflush
  have hl2 : (i.core.lBusy || i.core.l2stall) = false := hl
  have hf2 : (i.core.fpBusy || i.core.f2stall) = false := hf
  rw [Bool.or_eq_false_iff] at hl2 hf2
  have hstall : stage2Stall (m.coreInput i) = false := by
    show (i.core.l2stall || i.core.f2stall) = false
    rw [hl2.2, hf2.2, Bool.or_self]
  refine ⟨hvalid, hflush', ?_, ?_, hexc⟩
  · simp [completes_eq, ramsprDoit, hstall, hflush']
  · by_contra hsuffix
    have hill : m.dc2.insn.illegalSuffix = true := by simpa using hsuffix
    have hexc' : (m.stage hasFpu i).actions.exception = true :=
      exception_of_illegalSuffix (show (m.eIn i).illegalSuffix = true from hill)
    rw [hexc'] at hexc
    exact absurd hexc (by decide)

theorem validIn_of_starts (h : m.starts hasFpu i = true) :
    validIn m.core.st (m.stage hasFpu i) = true := by
  simp only [Machine.starts, go, Bool.and_eq_true] at h
  exact h.1

/-- The port that an instruction in decode2 asks for. -/
theorem portAsked_eq (hok : m.dc2.Ok) :
    portAsked (m.stage hasFpu i).eIn (m.stage hasFpu i).actions =
      (sprFields m.dc2.insn).port (m.eIn i).nia
        (if (sprFields m.dc2.insn).decCtr then ramsprOdd m.core (m.coreInput i) - 1
          else (m.eIn i).readData3) := by
  have hactions : onPort (m.stage hasFpu i).actions = _ := onPort_execute1Actions
  simp only [onPort, Prod.mk.injEq] at hactions
  obtain ⟨heven, hodd, hdata, hnia⟩ := hactions
  obtain ⟨hwraddr, hlr, hdec, hwe, hwo⟩ := hok.writes
  unfold portAsked SprFields.port
  rw [heven, hodd, hdata, hnia, ← hwraddr, ← hlr, ← hdec, ← hwe, ← hwo]
  rfl

/-- An instruction that starts a multi-cycle operation or traps has no request. -/
theorem not_asked (hok : m.dc2.Ok)
    (h : (m.stage hasFpu i).actions.start ≠ .none ∨ (m.stage hasFpu i).actions.trap = true)
    (s : Spr) :
    (portAsked (m.stage hasFpu i).eIn (m.stage hasFpu i).actions).request s = none := by
  rw [portAsked_eq hok]
  refine SprPort.request_of_not ?_ s
  by_contra hwrite
  obtain ⟨hop, -⟩ := writesRam_of_sprFields (d := m.dc2.insn) ((Bool.not_eq_false _).mp hwrite)
  have hactions := @actions_of_writesRam hasFpu m.core.ctrl m.core.st.ex1.msr (m.eIn i) i.core.dp
    (ramsprOdd m.core (m.coreInput i)) i.core.fpException hop
  rcases h with h | h
  · exact h hactions.1
  · exact absurd (hactions.2.1.symm.trans h) (by decide)

/-- An instruction with a request completes in the cycle in which it is started. -/
theorem complete_of_asked (hok : m.dc2.Ok) (hgo : m.starts hasFpu i = true) {s : Spr}
    {v : BitVec 64}
    (h : (portAsked (m.stage hasFpu i).eIn (m.stage hasFpu i).actions).request s = some v) :
    (m.stage hasFpu i).actions.complete = true := by
  obtain ⟨hvalid, -, -, -, hexc⟩ := of_starts hgo
  rw [portAsked_eq hok] at h
  have hwrite : ((sprFields m.dc2.insn).writeEven || (sprFields m.dc2.insn).writeOdd) = true := by
    by_contra hwrite
    rw [SprPort.request_of_not (by simpa [SprFields.port] using hwrite)] at h
    exact absurd h (by simp)
  obtain ⟨hop, hunit⟩ := writesRam_of_sprFields hwrite
  have hactions := @actions_of_writesRam hasFpu m.core.ctrl m.core.st.ex1.msr (m.eIn i) i.core.dp
    (ramsprOdd m.core (m.coreInput i)) i.core.fpException hop
  exact hactions.2.2 hunit hvalid hexc

end Start

/-! ## The invariant -/

/-- What a request in `ex1` stands for.  While the instruction is valid it is what the array has
in flight; after that it can only stay if it has been done, or until the edge after an interrupt
of loadstore1 or the FPU. -/
structure Inv (hasFpu : Bool) (x : System) (w : Option Wait) : Prop where
  pipe : PipeInv hasFpu ⟨x.m.core.st, x.flushed⟩ w
  dc2 : x.m.dc2.Ok
  ram : ∀ s, x.m.ram s = x.r.regs s
  waits : w ≠ none → ∀ s, x.r.inFlight s = none ∧ (portOf x.m.core.st.ex1).request s = none
  live : x.m.core.st.ex1.e.valid = true →
    ∀ s, (portOf x.m.core.st.ex1).request s = x.r.inFlight s
  done : x.m.core.st.ex1.e.valid = false → x.preempted = false →
    ∀ s v, (portOf x.m.core.st.ex1).request s = some v → x.r.regs s = v
  redirect : x.m.core.ex2.e.redirect = true →
    ∀ s v, (portOf x.m.core.st.ex1).request s = some v → x.r.regs s = v
  interrupt1 : x.m.core.st.ex1.e.interrupt = true →
    ∀ s, (portOf x.m.core.st.ex1).request s = none
  interrupt2 : x.m.core.ex2.e.interrupt = true →
    ∀ s, (portOf x.m.core.st.ex1).request s = none
  afterFlush : x.flushed = true → x.m.dc2.valid = false ∧ x.m.core.st.ex1.busy = false
  afterPreempt : x.preempted = true → x.flushed = true ∧ x.m.core.ctrl.waitState = false

section Step

variable {hasFpu : Bool} {x : System} {i : MachineInput} {w : Option Wait}

theorem issued (h : Inv hasFpu x w) :
    Issued hasFpu ⟨x.m.core.st, x.flushed⟩ (x.m.stage hasFpu i) :=
  ⟨fun hf => (h.afterFlush hf).1, fun hfpu => start_ne_div hfpu⟩

/-- What a started instruction reads of a register, from the port or from the RAM. -/
theorem bypass_eq (h : Inv hasFpu x w) (hgo : x.m.starts hasFpu i = true) (s : Spr) :
    ((portOf x.m.core.st.ex1).request s).getD (x.m.ram s) = x.r.after x.m i s := by
  obtain ⟨hvalid, hflush, hcompletes, -⟩ := of_starts hgo
  have hpre : x.preempted = false := by
    by_contra hpre
    have hdc2 := (h.afterFlush (h.afterPreempt (by simpa using hpre)).1).1
    rw [hdc2] at hvalid
    exact absurd hvalid (by decide)
  unfold Registers.after
  rw [intr_eq_false hflush, hcompletes, h.ram s]
  cases hv : x.m.core.st.ex1.e.valid
  · cases hr : (portOf x.m.core.st.ex1).request s with
    | none => rfl
    | some v => exact (h.done hv hpre s v hr).symm
  · rw [h.live hv s]
    rfl

/-- Every instruction that is started reads the array. -/
theorem readsArray_of_inv (h : Inv hasFpu x w) : ReadsArray hasFpu x i := by
  intro hgo
  obtain ⟨hvalid, -, -, hsuffix, -⟩ := of_starts hgo
  have hread : (sprFields x.m.dc2.insn).sprsBusy = true → x.m.dc2.e = sprFields x.m.dc2.insn :=
    fun hbusy => h.dc2.reads (by rw [h.dc2.readRspr (by simp [hvalid]), hbusy])
  constructor
  · intro s hs
    obtain ⟨hbusy, hodd, h32, haddr⟩ := resultSpr_addr hsuffix hs
    rw [← hread hbusy] at hodd h32 haddr
    unfold Machine.ramsprResult Spr.width
    rw [hodd, h32]
    have hvalue : (if s.isodd = true then ramsprOdd x.m.core (x.m.coreInput i)
        else x.m.ramsprEven) =
        x.r.after x.m i s := by
      rw [← bypass_eq h hgo s]
      cases hcell : s.isodd
      · rw [hcell] at haddr
        exact ramsprEven_eq hcell haddr
      · rw [hcell] at haddr
        exact ramsprOdd_eq hcell haddr
    rw [hvalue]
    simp only [beq_iff_eq]
  · intro s hs
    obtain ⟨hbusy, hodd, haddr⟩ := oddSpr_addr hsuffix hs
    rw [← hread hbusy] at haddr
    rw [← bypass_eq h hgo s]
    exact ramsprOdd_eq hodd haddr

/-! ### One edge -/

theorem saveInterrupt_apply (v : WritebackToExecute1) (nia srr1 : BitVec 64)
    (regs : Spr → BitVec 64) (s : Spr) :
    saveInterrupt v nia srr1 regs s =
      if s.index = (if v.hvIntr then 1 else if v.scvInt then 5 else 0) then
        if s.isodd then srr1 else nia
      else regs s := by
  unfold saveInterrupt
  cases v.hvIntr <;> cases v.scvInt <;> cases s <;> rfl

/-- The RAMs after an edge: an interrupt takes the write port over from the instruction. -/
theorem ram_step_eq (m : Machine) (i : MachineInput) (s : Spr) :
    (m.step hasFpu i).ram s =
      if (m.coreInput i).interruptIn.intr then
        saveInterrupt (m.coreInput i).interruptIn m.core.ex2.e.lastNia
          (intrSrr1 m.core.ctrl.msr (m.coreInput i).interruptIn.srr1) m.ram s
      else if m.completes i then ((portOf m.core.st.ex1).request s).getD (m.ram s)
      else m.ram s := by
  show (if s.isodd then oddSprsNext m.core (m.coreInput i) s.index
    else evenSprsNext m.core (m.coreInput i) s.index) = _
  rw [completes_eq]
  unfold oddSprsNext evenSprsNext ramsprWrAddr
  cases (m.coreInput i).interruptIn.intr
  · cases hdoit : ramsprDoit m.core (m.coreInput i)
    · simp [Machine.ram]
    · unfold SprPort.request portOf Machine.ram nextNia
      cases s.isodd <;> cases m.core.st.ex1.se.ramsprWriteOdd <;>
        cases m.core.st.ex1.se.ramsprWriteEven <;>
        by_cases haddr : s.index = m.core.st.ex1.ramsprWraddr <;>
        simp [haddr]
  · rw [saveInterrupt_apply]
    unfold Machine.ram
    cases s.isodd <;> simp [Function.update_apply]

/-- The RAMs follow the array. -/
theorem ram_step (h : Inv hasFpu x w) (s : Spr) :
    (x.m.step hasFpu i).ram s = x.r.after x.m i s := by
  have hram : x.m.ram = x.r.regs := funext h.ram
  rw [ram_step_eq, hram, Registers.after]
  cases (x.m.coreInput i).interruptIn.intr
  · cases hdoit : x.m.completes i
    · rfl
    · have hv : x.m.core.st.ex1.e.valid = true := by
        simp only [completes_eq, ramsprDoit, Bool.and_eq_true] at hdoit
        exact hdoit.1.1
      rw [h.live hv s]
      rfl
  · rfl

/-- What becomes of the request: it comes in, stays, or goes. -/
theorem port_step (x : System) (i : MachineInput) :
    (x.m.starts hasFpu i = true ∧ portOf (x.step hasFpu i).m.core.st.ex1 =
        portAsked (x.m.stage hasFpu i).eIn (x.m.stage hasFpu i).actions) ∨
      (x.m.starts hasFpu i = false ∧ busyOut x.m.core.st (x.m.stage hasFpu i) = true ∧
        portOf (x.step hasFpu i).m.core.st.ex1 = portOf x.m.core.st.ex1) ∨
      (x.m.starts hasFpu i = false ∧ busyOut x.m.core.st (x.m.stage hasFpu i) = false ∧
        ∀ s, (portOf (x.step hasFpu i).m.core.st.ex1).request s = none) := by
  have hport : portOf (x.step hasFpu i).m.core.st.ex1 = _ :=
    portOf_step hasFpu x.m.core.st (x.m.stage hasFpu i)
  rw [hport]
  unfold Machine.starts
  cases hgo : go hasFpu x.m.core.st (x.m.stage hasFpu i)
  · right
    cases busyOut x.m.core.st (x.m.stage hasFpu i)
    · exact .inr ⟨rfl, rfl, fun s => SprPort.request_quiet _ s⟩
    · exact .inl ⟨rfl, rfl, rfl⟩
  · exact .inl ⟨rfl, rfl⟩

/-- A request that is no longer valid because of an interrupt of loadstore1 or the FPU finds the
stage idle. -/
theorem busyOut_of_preempted (h : Inv hasFpu x w) (hc : Calm x i) (hpre : x.preempted = true)
    {s : Spr} {v : BitVec 64} (hr : (portOf x.m.core.st.ex1).request s = some v) :
    busyOut x.m.core.st (x.m.stage hasFpu i) = false := by
  have hwrite : (x.m.core.st.ex1.se.ramsprWriteEven || x.m.core.st.ex1.se.ramsprWriteOdd) =
      true := by
    by_contra hwrite
    rw [SprPort.request_of_not (by simpa [portOf] using hwrite)] at hr
    exact absurd hr (by simp)
  obtain ⟨hl, hl2, hf, hf2⟩ := hc hpre hwrite
  obtain ⟨hflushed, hwait⟩ := h.afterPreempt hpre
  have hbusy := (h.afterFlush hflushed).2
  show (((i.core.lBusy || i.core.l2stall) || x.m.core.st.ex1.busy ||
    (i.core.fpBusy || i.core.f2stall)) || x.m.core.ctrl.waitState) = false
  rw [hl, hl2, hf, hf2, hbusy, hwait]
  rfl

theorem wait_none_of_request (h : Inv hasFpu x w) {s : Spr} {v : BitVec 64}
    (hr : (portOf x.m.core.st.ex1).request s = some v) : w = none := by
  by_contra hw
  rw [(h.waits hw s).2] at hr
  exact absurd hr (by simp)

/-- The valid bit of the first stage, with nothing in progress. -/
theorem valid_step (h : Inv hasFpu x none) :
    (x.step hasFpu i).m.core.st.ex1.e.valid =
      if x.m.starts hasFpu i then (x.m.stage hasFpu i).actions.complete
      else !(x.m.coreInput i).flushIn &&
        (busyOut x.m.core.st (x.m.stage hasFpu i) && x.m.core.st.ex1.e.valid) := by
  cases hgo : x.m.starts hasFpu i
  · exact valid_step_of_not_go hasFpu _ _ h.pipe.waits hgo
  · exact valid_step_of_go hasFpu _ _ h.pipe.waits hgo

/-- Nothing changes the array in a cycle in which a request is flushed, other than by an interrupt
of loadstore1 or the FPU. -/
theorem after_of_request (h : Inv hasFpu x w) (hpre : (x.step hasFpu i).preempted = false)
    (hcompletes : x.m.completes i = false) {s : Spr} {v : BitVec 64}
    (hr : (portOf x.m.core.st.ex1).request s = some v) : x.r.after x.m i = x.r.regs := by
  have hintr : (x.m.coreInput i).interruptIn.intr = false := by
    by_contra hintr
    have hsource : (x.m.core.ex2.e.interrupt || i.lIn.interrupt || i.fpIn.interrupt) = true :=
      (Bool.not_eq_false _).mp hintr
    have hunits : (i.lIn.interrupt || i.fpIn.interrupt) = false := hpre
    rw [Bool.or_assoc, hunits, Bool.or_false] at hsource
    rw [h.interrupt2 hsource s] at hr
    exact absurd hr (by simp)
  simp [Registers.after, hintr, hcompletes]

theorem done_step (h : Inv hasFpu x w) (hc : Calm x i)
    (hv : (x.step hasFpu i).m.core.st.ex1.e.valid = false)
    (hpre : (x.step hasFpu i).preempted = false) (s : Spr) (v : BitVec 64)
    (hr : (portOf (x.step hasFpu i).m.core.st.ex1).request s = some v) :
    (x.step hasFpu i).r.regs s = v := by
  rcases port_step x i with ⟨hgo, hport⟩ | ⟨hgo, hbusy, hport⟩ | ⟨-, -, hnone⟩
  · -- an instruction with a request would be valid
    rw [hport] at hr
    have hw := wait_eq_none h.pipe (issued h) (validIn_of_starts hgo)
    subst hw
    rw [valid_step h, if_pos hgo, complete_of_asked h.dc2 hgo hr] at hv
    exact absurd hv (by decide)
  · rw [hport] at hr
    have hw := wait_none_of_request h hr
    subst hw
    rw [valid_step h, hgo, hbusy] at hv
    show x.r.after x.m i s = v
    cases hvalid : x.m.core.st.ex1.e.valid
    · -- a request that was not valid before: the stage is not idle, so it has been done
      have hbefore : x.preempted = false := by
        by_contra hbefore
        rw [busyOut_of_preempted h hc (by simpa using hbefore) hr] at hbusy
        exact absurd hbusy (by decide)
      have hcompletes : x.m.completes i = false := by
        simp [completes_eq, ramsprDoit, hvalid]
      rw [after_of_request h hpre hcompletes hr]
      exact h.done hvalid hbefore s v hr
    · -- a redirect flushes it, and the branch in the second stage has done it
      have hflush : (x.m.coreInput i).flushIn = true := by
        by_contra hflush
        simp [hvalid, hflush] at hv
      have hcompletes : x.m.completes i = false := ramsprDoit_of_flush hflush
      have hafter := after_of_request h hpre hcompletes hr
      rw [hafter]
      have hsource : (x.m.core.ex2.e.redirect || (x.m.core.ex2.e.interrupt || i.lIn.interrupt ||
          i.fpIn.interrupt)) = true := hflush
      have hunits : (i.lIn.interrupt || i.fpIn.interrupt) = false := hpre
      rw [Bool.or_assoc, hunits, Bool.or_false, Bool.or_eq_true] at hsource
      rcases hsource with hred | hint
      · exact h.redirect hred s v hr
      · rw [h.interrupt2 hint s] at hr
        exact absurd hr (by simp)
  · rw [hnone s] at hr
    exact absurd hr (by simp)

/-- What an instruction that is started has in flight is what it asks the port to write. -/
theorem asked_eq (h : Inv hasFpu x w) (hgo : x.m.starts hasFpu i = true) (s : Spr) :
    (portAsked (x.m.stage hasFpu i).eIn (x.m.stage hasFpu i).actions).request s =
      (x.step hasFpu i).r.inFlight s := by
  obtain ⟨-, -, -, hsuffix, -⟩ := of_starts hgo
  have hflight : (x.step hasFpu i).r.inFlight = sprWrites x.m.dc2.insn (x.m.eIn i).nia
      (x.m.eIn i).readData3 (x.r.after x.m i) := if_pos hgo
  rw [hflight, ← request_port hsuffix, portAsked_eq h.dc2]
  cases hdec : (sprFields x.m.dc2.insn).decCtr
  · rfl
  · -- CTR is counted down from what the array holds
    rw [(readsArray_of_inv h hgo).2 .ctr (oddSpr_of_decCtr hsuffix hdec)]

theorem inFlight_of_not_starts (hgo : x.m.starts hasFpu i = false) :
    (x.step hasFpu i).r.inFlight = x.r.inFlight := by
  show (if x.m.starts hasFpu i = true then _ else _) = _
  rw [hgo]
  rfl

theorem waits_step (h : Inv hasFpu x w)
    (hw : nextWait hasFpu x.m.core.st (x.m.stage hasFpu i) w ≠ none) (s : Spr) :
    (x.step hasFpu i).r.inFlight s = none ∧
      (portOf (x.step hasFpu i).m.core.st.ex1).request s = none := by
  cases hgo : x.m.starts hasFpu i
  · have hold : w ≠ none := by
      rintro rfl
      have hgo' : go hasFpu x.m.core.st (x.m.stage hasFpu i) = false := hgo
      exact hw (by simp [nextWait, hgo'])
    obtain ⟨hflight, hr⟩ := h.waits hold s
    rw [inFlight_of_not_starts hgo]
    refine ⟨hflight, ?_⟩
    rcases port_step x i with ⟨hgo', -⟩ | ⟨-, -, hport⟩ | ⟨-, -, hnone⟩
    · rw [hgo] at hgo'
      exact absurd hgo' (by decide)
    · rw [hport, hr]
    · exact hnone s
  · have hold := wait_eq_none h.pipe (issued h) (validIn_of_starts hgo)
    subst hold
    have hgo' : go hasFpu x.m.core.st (x.m.stage hasFpu i) = true := hgo
    have hstart : (x.m.stage hasFpu i).actions.start ≠ .none := by
      intro hstart
      exact hw (by simp only [nextWait, hgo', hstart, if_true])
    have hnone := not_asked h.dc2 (.inl hstart) s
    rw [← asked_eq h hgo s]
    refine ⟨hnone, ?_⟩
    rcases port_step x i with ⟨-, hport⟩ | ⟨hno, -⟩ | ⟨hno, -⟩
    · rw [hport, hnone]
    all_goals
      rw [hgo] at hno
      exact absurd hno (by decide)

theorem live_step (h : Inv hasFpu x w)
    (hv : (x.step hasFpu i).m.core.st.ex1.e.valid = true) (s : Spr) :
    (portOf (x.step hasFpu i).m.core.st.ex1).request s = (x.step hasFpu i).r.inFlight s := by
  rcases port_step x i with ⟨hgo, hport⟩ | ⟨hgo, hbusy, hport⟩ | ⟨hgo, hbusy, hnone⟩
  · rw [hport, asked_eq h hgo s]
  · rw [hport, inFlight_of_not_starts hgo]
    by_cases hw : w = none
    · subst hw
      rw [valid_step h, hgo, hbusy] at hv
      simp only [Bool.false_eq_true, if_false, Bool.and_eq_true] at hv
      exact h.live hv.2.2 s
    · rw [(h.waits hw s).1, (h.waits hw s).2]
  · rw [hnone s, inFlight_of_not_starts hgo]
    by_cases hw : w = none
    · subst hw
      rw [valid_step h, hgo, hbusy] at hv
      simp at hv
    · rw [(h.waits hw s).1]

/-- What a branch that redirects has asked for is done when it is in the second stage. -/
theorem redirect_step (h : Inv hasFpu x w)
    (hred : (x.step hasFpu i).m.core.ex2.e.redirect = true) (s : Spr) (v : BitVec 64)
    (hr : (portOf (x.step hasFpu i).m.core.st.ex1).request s = some v) :
    (x.step hasFpu i).r.regs s = v := by
  have hlive : (ramsprDoit x.m.core (x.m.coreInput i) && x.m.core.st.ex1.e.redirect) = true := hred
  rw [Bool.and_eq_true] at hlive
  obtain ⟨hdoit, hred1⟩ := hlive
  have hparts := hdoit
  simp only [ramsprDoit, Bool.and_eq_true, Bool.not_eq_true'] at hparts
  rcases port_step x i with ⟨hgo, -⟩ | ⟨-, -, hport⟩ | ⟨-, -, hnone⟩
  · have hvalid := validIn_of_starts hgo
    simp [validIn, hred1] at hvalid
  · rw [hport] at hr
    show x.r.after x.m i s = v
    have hflight := h.live hparts.1.1 s
    rw [hr] at hflight
    simp [Registers.after, intr_eq_false hparts.2, completes_eq, hdoit, ← hflight]
  · rw [hnone s] at hr
    exact absurd hr (by simp)

theorem interrupt1_step (h : Inv hasFpu x w)
    (hint : (x.step hasFpu i).m.core.st.ex1.e.interrupt = true) (s : Spr) :
    (portOf (x.step hasFpu i).m.core.st.ex1).request s = none := by
  have hcases := interrupt_step hasFpu x.m.core.st (x.m.stage hasFpu i) hint
  rcases port_step x i with ⟨hgo, hport⟩ | ⟨hgo, hbusy, hport⟩ | ⟨-, -, hnone⟩
  · have hgo' : go hasFpu x.m.core.st (x.m.stage hasFpu i) = true := hgo
    simp only [hgo', true_and, Bool.true_eq_false, false_and, or_false] at hcases
    rw [hport]
    exact not_asked h.dc2 (.inr hcases) s
  · have hgo' : go hasFpu x.m.core.st (x.m.stage hasFpu i) = false := hgo
    simp only [hgo', hbusy, Bool.false_eq_true, false_and, Bool.true_eq_false, and_false, true_and,
      false_or] at hcases
    rw [hport]
    exact h.interrupt1 hcases s
  · exact hnone s

theorem interrupt2_step (h : Inv hasFpu x w)
    (hint : (x.step hasFpu i).m.core.ex2.e.interrupt = true) (s : Spr) :
    (portOf (x.step hasFpu i).m.core.st.ex1).request s = none := by
  have hlive : (x.m.core.st.ex1.e.interrupt && !stage2Stall (x.m.coreInput i) &&
      !(x.m.coreInput i).flushIn) = true := hint
  simp only [Bool.and_eq_true] at hlive
  rcases port_step x i with ⟨hgo, -⟩ | ⟨-, -, hport⟩ | ⟨-, -, hnone⟩
  · have hvalid := validIn_of_starts hgo
    simp [validIn, hlive.1.1] at hvalid
  · rw [hport]
    exact h.interrupt1 hlive.1.1 s
  · exact hnone s

theorem inv_step (h : Inv hasFpu x w) (hc : Calm x i) :
    Inv hasFpu (x.step hasFpu i) (nextWait hasFpu x.m.core.st (x.m.stage hasFpu i) w) where
  pipe := pipeInv_step (issued h) h.pipe
  dc2 := h.dc2.step _ _ _
  ram := fun s => ram_step h s
  waits := waits_step h
  live := live_step h
  done := done_step h hc
  redirect := redirect_step h
  interrupt1 := interrupt1_step h
  interrupt2 := interrupt2_step h
  afterFlush := fun hf => by
    have hflush : (x.m.coreInput i).flushIn = true := hf
    refine ⟨?_, busy_step_of_flush hasFpu _ _ hflush⟩
    show (x.m.dc2.step i.dec (x.m.coreInput i).flushIn _).valid = false
    rw [hflush]
    rfl
  afterPreempt := fun hpre => by
    have hunits : (i.lIn.interrupt || i.fpIn.interrupt) = true := hpre
    have hintr : (x.m.coreInput i).interruptIn.intr = true := by
      show (x.m.core.ex2.e.interrupt || i.lIn.interrupt || i.fpIn.interrupt) = true
      rw [Bool.or_assoc, hunits, Bool.or_true]
    refine ⟨flushIn_of_intr hintr, ?_⟩
    show (ctrlTmp x.m.core (x.m.coreInput i)).waitState = false
    simp [ctrlTmp, ctrlTick, hintr]

end Step

/-! ## Runs -/

theorem inv_init {hasFpu : Bool} {x : System} (hx : x.AfterReset) : Inv hasFpu x none where
  pipe := by
    rw [hx.flushed]
    exact pipeInv_init hx.st
  dc2 := by
    rw [hx.dc2]
    exact Dc2.ok_init
  ram := fun s => by rw [hx.regs]
  waits := fun h => absurd rfl h
  live := fun h => absurd (hx.valid.symm.trans h) (by decide)
  done := fun _ _ s v hr => by
    rw [SprPort.request_of_not (by simp [portOf, hx.se, SideEffect.init])] at hr
    exact absurd hr (by simp)
  redirect := fun h => absurd (hx.ex2.1.symm.trans h) (by decide)
  interrupt1 := fun h => absurd (hx.interrupt.symm.trans h) (by decide)
  interrupt2 := fun h => absurd (hx.ex2.2.symm.trans h) (by decide)
  afterFlush := fun h => absurd (hx.flushed.symm.trans h) (by decide)
  afterPreempt := fun h => absurd (hx.preempted.symm.trans h) (by decide)

/-- In every state reached from reset, the RAMs hold the array of registers, and every instruction
that is started reads the array as the instructions and interrupts before it leave it. -/
theorem reads_registers {hasFpu : Bool} {x : System} (hx : x.AfterReset) {is : List MachineInput}
    (hok : Along (System.step hasFpu) Calm x is) :
    (run (System.step hasFpu) x is).m.ram = (run (System.step hasFpu) x is).r.regs ∧
      ∀ i, ReadsArray hasFpu (run (System.step hasFpu) x is) i := by
  obtain ⟨w, hinv⟩ := @Along.invariant _ _ _ _ (fun x => ∃ w, Inv hasFpu x w)
    (fun _ _ hc ⟨_, h⟩ => ⟨_, inv_step h hc⟩) _ _ hok ⟨none, inv_init hx⟩
  exact ⟨funext hinv.ram, fun i => readsArray_of_inv hinv⟩

/-- After reset, with everything that reset leaves alone zero. -/
def System.cold : System where
  m := ⟨.init, .cold⟩
  r := ⟨fun _ => 0, fun _ => none⟩
  flushed := false
  preempted := false

theorem System.afterReset_cold : System.cold.AfterReset where
  st := Execute1.afterReset_cold
  valid := rfl
  se := rfl
  interrupt := rfl
  ex2 := ⟨rfl, rfl⟩
  dc2 := rfl
  regs := funext fun s => by cases s <;> rfl
  flushed := rfl
  preempted := rfl

/-- A cycle in which decode1 sends nothing and no unit has anything to report; an instruction
that is started finds 5 in RS. -/
def MachineInput.quiet : MachineInput where
  dec := ⟨false, .none, true, false, 0⟩
  core := .of { Decoded.idle with readData3 := 5 }
  lIn := ⟨false, ⟨0, false⟩, false, 0, 0, ⟨false, false, false, false, false⟩, false, false, false,
    0, 0⟩
  fpIn := ⟨false, false, ⟨0, false⟩, false, 0, 0, false, 0, 0, false,
    ⟨false, false, false, false, false⟩, 0, 0⟩

/-- decode1 sends an instruction. -/
def MachineInput.send (i : MachineInput) (icode : Icode) (insn : BitVec 32)
    (coded : icode.Codes insn) : MachineInput :=
  { i with dec := { i.dec with valid := true, insn := ⟨icode, insn, false, fun _ => coded⟩ } }

/-- `mtlr r0`. -/
def mtlr : MachineInput := MachineInput.quiet.send .mtspr 0x7c0803a6 trivial

/-- `mflr r0`. -/
def mflr : MachineInput := MachineInput.quiet.send .mfspr 0x7c0802a6 trivial

/-- `mflr` right behind `mtlr` reads the new value. -/
theorem reads_registers_mflr :
    (run (System.step false) .cold [mtlr, mflr]).m.starts false .quiet = true ∧
      (run (System.step false) .cold [mtlr, mflr]).m.ramsprResult .quiet = 5 := by
  have hstarts : (run (System.step false) .cold [mtlr, mflr]).m.starts false .quiet = true := by
    decide +kernel
  have hreads := (@reads_registers false _ System.afterReset_cold [mtlr, mflr]
    (by decide +kernel)).2 .quiet hstarts
  refine ⟨hstarts, (hreads.1 .lr rfl).trans ?_⟩
  decide +kernel

/-- The second stage is stalled by loadstore1. -/
def MachineInput.stalled (i : MachineInput) : MachineInput :=
  { i with core := { i.core with l2stall := true } }

/-- loadstore1 reports an interrupt. -/
def MachineInput.preempt (i : MachineInput) : MachineInput :=
  { i with lIn := { i.lIn with interrupt := true } }

/-- `mtlr` is flushed in a cycle with a stall, and `mflr` waits in decode2 for the end of the
stall: it reads the value that has been flushed. -/
theorem not_reads_flushed :
    ¬ReadsArray false
      (run (System.step false) .cold
        [mtlr, .quiet, MachineInput.quiet.stalled.preempt, mflr.stalled]) .quiet := by
  intro h
  have hreads := (h (by decide +kernel)).1 .lr rfl
  exact absurd hreads (by decide +kernel)

end Microwatt.RamSpr
