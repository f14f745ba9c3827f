import Microwatt.Execute1.Msr

/-!
# Redirects and interrupts on their way to fetch1

execute1, writeback and fetch1 connected as in `core.vhdl`.  A redirect or an interrupt leaves
the second stage of execute1 through writeback, flushes execute1 and gives fetch1 its modes in
the same cycle.

From decode2 two things are needed: the flush clears the register it sends from, and `mtmsr` and
`mtmsrd` are marked as privileged in its table.
-/

namespace Microwatt.Redirect

open Clocked Execute1

variable {hasFpu : Bool} {g : Fetch1.Geometry}

/-- The three units, and whether the cycle before was flushed. -/
structure Sys (g : Fetch1.Geometry) where
  core : Core
  flushed : Bool
  fetch : Fetch1.State g

/-- The inputs from the rest of the core.  What writeback drives is not read from here. -/
structure SysInput where
  core : CoreInput
  l : Writeback.Loadstore1ToWriteback
  fp : Writeback.FPUToWriteback
  fetch : Fetch1.Input

section Defs

variable (y : Sys g) (i : SysInput)

/-- The flush signal. -/
def Sys.flush : Bool :=
  Writeback.flushOut y.core.ex2.e i.l i.fp

def Sys.coreInput : CoreInput :=
  { i.core with
    flushIn := y.flush i
    interruptIn := Writeback.interruptOut y.core.ex2.e i.l i.fp }

def Sys.fetchInput : Fetch1.Input :=
  { i.fetch with wIn := Writeback.fOut y.core.ex2.e i.l i.fp }

variable (hasFpu) in
/-- A rising edge outside reset. -/
def Sys.step : Sys g where
  core := y.core.step hasFpu (y.coreInput i)
  flushed := y.flush i
  fetch := Fetch1.step y.fetch (y.fetchInput i)

variable (hasFpu) in
/-- An instruction starts to execute in this cycle. -/
def Sys.dispatches : Bool :=
  go hasFpu y.core.st (stageInput hasFpu y.core (y.coreInput i))

/-- What comes from decode2. -/
structure Decodes : Prop where
  afterFlush : y.flushed = true → i.core.eIn.valid = false ∧ i.core.eIn.op = .illegal
  mtmsrd : i.core.eIn.op = .mtmsrd → i.core.eIn.privileged = true

instance : Decidable (Decodes y i) :=
  decidable_of_iff
    ((y.flushed = true → i.core.eIn.valid = false ∧ i.core.eIn.op = .illegal) ∧
      (i.core.eIn.op = .mtmsrd → i.core.eIn.privileged = true))
    ⟨fun h => ⟨h.1, h.2⟩, fun h => ⟨h.1, h.2⟩⟩

structure Sys.AfterReset : Prop where
  st : Execute1.AfterReset y.core.st
  ex1Msr : y.core.st.ex1.msr = resetMsr
  ctrlMsr : y.core.ctrl.msr = resetMsr
  ex1Redirect : y.core.st.ex1.e.redirect = false
  ex2Redirect : y.core.ex2.e.redirect = false
  flushed : y.flushed = false

end Defs

/-- The modes that fetch1 fetches in, in the order of `redir_mode`. -/
def fetchMode (f : Fetch1.State g) : BitVec 4 :=
  BitVec.ofBool f.r.virtMode ++ BitVec.ofBool f.r.privMode ++ BitVec.ofBool f.r.bigEndian ++
    BitVec.ofBool f.rInt.mode32bit

/-- The MSRs are in order, they differ only while the one is about to be written, and a redirect
carries the modes of the MSR that holds after its instruction. -/
structure Inv (hasFpu : Bool) (y : Sys g) : Prop where
  pipe : ∃ w, PipeInv hasFpu ⟨y.core.st, y.flushed⟩ w
  ex1Ok : MsrOk y.core.st.ex1.msr
  ctrlOk : MsrOk y.core.ctrl.msr
  same : y.core.st.ex1.se.writeMsr = false → y.core.st.ex1.msr = y.core.ctrl.msr
  redir1 : y.core.st.ex1.e.redirect = true →
    y.core.st.ex1.e.redirMode = redirModeOf y.core.st.ex1.msr
  redir2 : y.core.ex2.e.redirect = true →
    y.core.st.ex1.msr = y.core.ctrl.msr ∧ y.core.ex2.e.redirMode = redirModeOf y.core.ctrl.msr

theorem msrOk_resetMsr : MsrOk resetMsr where
  hv := by decide
  pr h := absurd h (by decide)

variable {y : Sys g} {i : SysInput}

theorem inv_of_reset (h : y.AfterReset) : Inv hasFpu y where
  pipe := ⟨none, by
    have := @pipeInv_init hasFpu _ h.st
    rwa [h.flushed]⟩
  ex1Ok := by rw [h.ex1Msr]; exact msrOk_resetMsr
  ctrlOk := by rw [h.ctrlMsr]; exact msrOk_resetMsr
  same _ := by rw [h.ex1Msr, h.ctrlMsr]
  redir1 hr := by simp [h.ex1Redirect] at hr
  redir2 hr := by simp [h.ex2Redirect] at hr

/-! ## The committed MSR -/

/-- The committed MSR before an interrupt changes it. -/
def committed (c : Core) (stall : Bool) : BitVec 64 :=
  if !stall && c.st.ex1.se.writeMsr then c.st.ex1.msr else c.ctrl.msr

theorem ctrlTmp_msr (c : Core) (j : CoreInput) :
    (ctrlTmp c j).msr =
      if j.interruptIn.intr then interruptMsr j.interruptIn (committed c (stage2Stall j))
      else committed c (stage2Stall j) := by
  unfold ctrlTmp ctrlTick committed
  cases stage2Stall j <;> rfl

theorem Inv.committed_ok (h : Inv hasFpu y) (stall : Bool) : MsrOk (committed y.core stall) := by
  unfold committed
  split_ifs
  · exact h.ex1Ok
  · exact h.ctrlOk

/-- Where the second stage is not stalled the committed MSR is that of the first stage. -/
theorem Inv.committed_eq (h : Inv hasFpu y) : committed y.core false = y.core.st.ex1.msr := by
  unfold committed
  cases hw : y.core.st.ex1.se.writeMsr
  · simpa using (h.same hw).symm
  · simp

theorem intr_le_flush : (y.coreInput i).interruptIn.intr = true → y.flush i = true := by
  intro h
  have : Writeback.intr y.core.ex2.e i.l i.fp = true := h
  simp [Sys.flush, Writeback.flushOut, this]

/-! ## One edge -/

theorem onMsr_sys (hasFpu : Bool) (y : Sys g) (i : SysInput) : (y.step hasFpu i).core.st.ex1.onMsr =
    ⟨if y.flush i || (y.coreInput i).interruptIn.intr then (ctrlTmp y.core (y.coreInput i)).msr
      else if y.dispatches hasFpu i then (actions hasFpu y.core (y.coreInput i)).newMsr
      else y.core.st.ex1.msr,
    if y.dispatches hasFpu i then (actions hasFpu y.core (y.coreInput i)).se.writeMsr
      else busyOut y.core.st (stageInput hasFpu y.core (y.coreInput i)) &&
        y.core.st.ex1.se.writeMsr,
    !y.flush i && ((waited hasFpu y.core.st (stageInput hasFpu y.core (y.coreInput i))).valid &&
      if busyOut y.core.st (stageInput hasFpu y.core (y.coreInput i)) then
        y.core.st.ex1.e.redirect
      else (actions hasFpu y.core (y.coreInput i)).e.redirect),
    if busyOut y.core.st (stageInput hasFpu y.core (y.coreInput i)) then
      y.core.st.ex1.e.redirMode
    else (actions hasFpu y.core (y.coreInput i)).e.redirMode⟩ :=
  onMsr_step hasFpu y.core.st (stageInput hasFpu y.core (y.coreInput i))

theorem onMsr_actions (hasFpu : Bool) (y : Sys g) (i : SysInput) :
    let a := (actions hasFpu y.core (y.coreInput i)).onMsr
    let srr1 := ramsprOdd y.core (y.coreInput i)
    (a.newMsr = y.core.st.ex1.msr ∧ a.redirMode = redirModeOf y.core.st.ex1.msr) ∨
      (a.writeMsr = true ∧ a.newMsr = rfidMsr y.core.st.ex1.msr srr1 ∧
        a.redirMode = redirModeOf (rfidMsr y.core.st.ex1.msr srr1)) ∨
      (i.core.eIn.op = .mtmsrd ∧ a.writeMsr = true ∧ a.redirect = false ∧
        a.newMsr = mtmsrdMsr (i.core.eIn.insn.getLsbD 16) i.core.eIn.is32bit
          y.core.st.ex1.msr i.core.eIn.readData3) :=
  onMsr_execute1Actions

/-- An instruction is only started when nothing is busy, so the second stage is not stalled. -/
theorem not_busy_of_dispatches (h : y.dispatches hasFpu i = true) :
    busyOut y.core.st (stageInput hasFpu y.core (y.coreInput i)) = false ∧
      stage2Stall (y.coreInput i) = false ∧ y.flush i = false ∧
      y.core.st.ex1.e.redirect = false := by
  simp only [Sys.dispatches, go, validIn, Bool.and_eq_true, Bool.not_eq_true',
    Bool.or_eq_false_iff] at h
  obtain ⟨⟨-, ⟨⟨hbusy, hflush⟩, hredir⟩, -⟩, -⟩ := h
  refine ⟨hbusy, ?_, hflush, hredir⟩
  simp only [busyOut, stageInput, Bool.or_eq_false_iff] at hbusy
  simp [stage2Stall, hbusy.1.1.1.2, hbusy.1.2.2]

theorem not_stall_of_not_busy
    (h : busyOut y.core.st (stageInput hasFpu y.core (y.coreInput i)) = false) :
    stage2Stall (y.coreInput i) = false := by
  simp only [busyOut, stageInput, Bool.or_eq_false_iff] at h
  simp [stage2Stall, h.1.1.1.2, h.1.2.2]

theorem Decodes.issued (hi : Decodes y i) :
    Issued hasFpu ⟨y.core.st, y.flushed⟩ (stageInput hasFpu y.core (y.coreInput i)) :=
  ⟨fun hf => (hi.afterFlush hf).1, fun hfpu => start_ne_div hfpu⟩

/-- What is not started and not busy is not valid either, unless it is what is left of a flushed
operation, and then there is no instruction to redirect. -/
theorem not_redirect_of_idle (h : Inv hasFpu y) (hi : Decodes y i)
    (hgo : y.dispatches hasFpu i = false)
    (hbusy : busyOut y.core.st (stageInput hasFpu y.core (y.coreInput i)) = false) :
    ((waited hasFpu y.core.st (stageInput hasFpu y.core (y.coreInput i))).valid &&
      (actions hasFpu y.core (y.coreInput i)).e.redirect) = false := by
  obtain ⟨w, hw⟩ := h.pipe
  by_cases hwait : w = none
  · -- no unit works on anything
    obtain ⟨hm, hmf, hd, hs, hp⟩ := hw.waits
    subst hwait
    simp only [RegStage1.control] at hm hmf hd hs hp
    have hgo' : go hasFpu y.core.st (stageInput hasFpu y.core (y.coreInput i)) = false := hgo
    simp [waited, hm, hmf, hd, hs, hp, hgo', hbusy]
  · have hflushed : y.flushed = true := by
      by_contra hf
      have hb : y.core.st.ex1.busy = true := hw.busy hwait (by simpa using hf)
      simp [busyOut, hb] at hbusy
    have hred : (actions hasFpu y.core (y.coreInput i)).e.redirect = false :=
      redirect_of_illegal (hi.afterFlush hflushed).2
    simp [hred]

theorem msr_step : (y.step hasFpu i).core.st.ex1.msr =
    if y.flush i then (ctrlTmp y.core (y.coreInput i)).msr
    else if y.dispatches hasFpu i then (actions hasFpu y.core (y.coreInput i)).newMsr
    else y.core.st.ex1.msr := by
  have h : (y.step hasFpu i).core.st.ex1.msr = _ :=
    congrArg MsrActions.newMsr (onMsr_sys hasFpu y i)
  cases hf : y.flush i
  · have hi : (y.coreInput i).interruptIn.intr = false := by
      by_contra hi
      simp [intr_le_flush (by simpa using hi)] at hf
    simpa [hf, hi] using h
  · simpa [hf] using h

/-- Without a flush the committed MSR is not changed by an interrupt. -/
theorem ctrl_step_of_not_flush (hf : y.flush i = false) :
    (y.step hasFpu i).core.ctrl.msr = committed y.core (stage2Stall (y.coreInput i)) := by
  have hi : (y.coreInput i).interruptIn.intr = false := by
    by_contra hi
    simp [intr_le_flush (by simpa using hi)] at hf
  show (ctrlTmp y.core (y.coreInput i)).msr = _
  rw [ctrlTmp_msr, hi]
  simp

theorem Inv.ctrlTmp_ok (h : Inv hasFpu y) (j : CoreInput) : MsrOk (ctrlTmp y.core j).msr := by
  rw [ctrlTmp_msr]
  split_ifs
  · exact msrOk_interrupt (h.committed_ok _)
  · exact h.committed_ok _

theorem Inv.newMsr_ok (h : Inv hasFpu y) (hi : Decodes y i)
    (hgo : y.dispatches hasFpu i = true) :
    MsrOk (actions hasFpu y.core (y.coreInput i)).newMsr := by
  have hex : (actions hasFpu y.core (y.coreInput i)).exception = false := by
    simp only [Sys.dispatches, go, Bool.and_eq_true, Bool.not_eq_true', Bool.or_eq_false_iff] at hgo
    exact hgo.2.1
  rcases onMsr_actions hasFpu y i with ⟨hmsr, -⟩ | ⟨-, hmsr, -⟩ | ⟨hop, -, -, hmsr⟩
  · have hok := h.ex1Ok
    rwa [← hmsr] at hok
  · have hok := msrOk_rfid y.core.st.ex1.msr (ramsprOdd y.core (y.coreInput i))
    rwa [← hmsr] at hok
  · -- in problem state it would have been an exception
    have hpr : y.core.st.ex1.msr.getLsbD msrPR = false := by
      by_contra hpr
      have : (actions hasFpu y.core (y.coreInput i)).exception = true :=
        exception_of_privileged (by simpa using hpr) (hi.mtmsrd hop)
      simp [this] at hex
    have hok := @msrOk_mtmsrd (i.core.eIn.insn.getLsbD 16) i.core.eIn.is32bit _
      i.core.eIn.readData3 h.ex1Ok hpr
    rwa [← hmsr] at hok

theorem inv_ex1Ok_step (h : Inv hasFpu y) (hi : Decodes y i) :
    MsrOk (y.step hasFpu i).core.st.ex1.msr := by
  rw [msr_step]
  split_ifs with hf hgo
  · exact h.ctrlTmp_ok _
  · exact h.newMsr_ok hi hgo
  · exact h.ex1Ok

/-- The two MSRs still agree where the first stage is not about to write. -/
theorem inv_same_step (h : Inv hasFpu y)
    (hw : (y.step hasFpu i).core.st.ex1.se.writeMsr = false) :
    (y.step hasFpu i).core.st.ex1.msr = (y.step hasFpu i).core.ctrl.msr := by
  have hw' := congrArg MsrActions.writeMsr (onMsr_sys hasFpu y i)
  simp only [RegStage1.onMsr, hw] at hw'
  rw [msr_step]
  cases hf : y.flush i
  · rw [ctrl_step_of_not_flush hf]
    simp only [Bool.false_eq_true, if_false]
    cases hgo : y.dispatches hasFpu i
    · simp only [hgo, Bool.false_eq_true, if_false] at hw' ⊢
      cases hbusy : busyOut y.core.st (stageInput hasFpu y.core (y.coreInput i))
      · rw [not_stall_of_not_busy hbusy, h.committed_eq]
      · -- the first stage stays as it is, with nothing to write
        have hold : y.core.st.ex1.se.writeMsr = false := by simpa [hbusy] using hw'.symm
        simp [committed, hold, h.same hold]
    · simp only [hgo, if_true] at hw' ⊢
      rw [(not_busy_of_dispatches hgo).2.1, h.committed_eq]
      rcases onMsr_actions hasFpu y i with ⟨hmsr, -⟩ | ⟨hwr, -⟩ | ⟨-, hwr, -⟩
      · exact hmsr
      all_goals exact absurd (hw'.trans hwr) (by simp)
  · rfl

/-- A redirect in the first stage carries the modes of the MSR there. -/
theorem inv_redir1_step (h : Inv hasFpu y) (hi : Decodes y i)
    (hr : (y.step hasFpu i).core.st.ex1.e.redirect = true) :
    (y.step hasFpu i).core.st.ex1.e.redirMode =
      redirModeOf (y.step hasFpu i).core.st.ex1.msr := by
  have hview := onMsr_sys hasFpu y i
  have hr' := congrArg MsrActions.redirect hview
  have hmode := congrArg MsrActions.redirMode hview
  simp only [RegStage1.onMsr, hr] at hr' hmode
  have hr'' := hr'.symm
  simp only [Bool.and_eq_true, Bool.not_eq_true'] at hr''
  obtain ⟨hf, hvalid, hred⟩ := hr''
  rw [msr_step, hmode]
  simp only [hf, Bool.false_eq_true, if_false]
  cases hbusy : busyOut y.core.st (stageInput hasFpu y.core (y.coreInput i))
  · simp only [hbusy, Bool.false_eq_true, if_false] at hred ⊢
    cases hgo : y.dispatches hasFpu i
    · have := not_redirect_of_idle h hi hgo hbusy
      simp [hvalid, hred] at this
    · rcases onMsr_actions hasFpu y i with ⟨hmsr, hm⟩ | ⟨-, hmsr, hm⟩ | ⟨-, -, hnone, -⟩
      · exact hm.trans (congrArg redirModeOf hmsr).symm
      · exact hm.trans (congrArg redirModeOf hmsr).symm
      · exact absurd (hred.symm.trans hnone) (by simp)
  · have hgo : y.dispatches hasFpu i = false := by
      by_contra hgo
      simp [(not_busy_of_dispatches (by simpa using hgo)).1] at hbusy
    simp only [hbusy, if_true, hgo, Bool.false_eq_true, if_false] at hred ⊢
    exact h.redir1 hred

/-- A redirect in the second stage finds the MSR of its instruction committed. -/
theorem inv_redir2_step (h : Inv hasFpu y) (hr : (y.step hasFpu i).core.ex2.e.redirect = true) :
    (y.step hasFpu i).core.st.ex1.msr = (y.step hasFpu i).core.ctrl.msr ∧
      (y.step hasFpu i).core.ex2.e.redirMode = redirModeOf (y.step hasFpu i).core.ctrl.msr := by
  have hr' : (y.core.st.ex1.e.valid && !stage2Stall (y.coreInput i) && !y.flush i &&
      y.core.st.ex1.e.redirect) = true := hr
  simp only [Bool.and_eq_true, Bool.not_eq_true'] at hr'
  obtain ⟨⟨⟨-, hstall⟩, hf⟩, hred⟩ := hr'
  have hgo : y.dispatches hasFpu i = false := by
    by_contra hgo
    simp [(not_busy_of_dispatches (by simpa using hgo)).2.2.2] at hred
  have hctrl : (y.step hasFpu i).core.ctrl.msr = y.core.st.ex1.msr := by
    rw [ctrl_step_of_not_flush hf, hstall, h.committed_eq]
  have hmsr : (y.step hasFpu i).core.st.ex1.msr = y.core.st.ex1.msr := by
    rw [msr_step]
    simp [hf, hgo]
  refine ⟨hmsr.trans hctrl.symm, ?_⟩
  rw [hctrl]
  exact h.redir1 hred

theorem inv_step (h : Inv hasFpu y) (hi : Decodes y i) : Inv hasFpu (y.step hasFpu i) where
  pipe := by
    obtain ⟨w, hw⟩ := h.pipe
    exact ⟨_, pipeInv_step hi.issued hw⟩
  ex1Ok := inv_ex1Ok_step h hi
  ctrlOk := h.ctrlTmp_ok _
  same := inv_same_step h
  redir1 := inv_redir1_step h hi
  redir2 := inv_redir2_step h

/-! ## What fetch1 gets -/

theorem ofBool_bits (m : BitVec 4) :
    BitVec.ofBool (m.getLsbD 3) ++ BitVec.ofBool (m.getLsbD 2) ++ BitVec.ofBool (m.getLsbD 1) ++
      BitVec.ofBool (m.getLsbD 0) = m := by
  revert m
  decide

theorem fetchMode_of_redirect {f : Fetch1.State g} {j : Fetch1.Input}
    (hr : j.wIn.redirect = true) (hi : j.wIn.interrupt = false) :
    fetchMode (Fetch1.step f j) =
      BitVec.ofBool j.wIn.virtMode ++ BitVec.ofBool j.wIn.privMode ++
        BitVec.ofBool j.wIn.bigEndian ++ BitVec.ofBool j.wIn.mode32bit := by
  have hadv : Fetch1.advanceNia f j = true := by simp [Fetch1.advanceNia, hr]
  simp [fetchMode, Fetch1.step, Fetch1.regs, Fetch1.regsInt, hadv, Fetch1.rNext, Fetch1.rNextInt,
    Fetch1.redirVirt, Fetch1.redirPriv, Fetch1.m32, hr, hi]

theorem fetchMode_of_interrupt {f : Fetch1.State g} {j : Fetch1.Input}
    (hi : j.wIn.interrupt = true) :
    fetchMode (Fetch1.step f j) = BitVec.ofBool j.wIn.altIntr ++ 1#1 ++ 0#1 ++ 0#1 := by
  have hadv : Fetch1.advanceNia f j = true := by simp [Fetch1.advanceNia, hi]
  simp [fetchMode, Fetch1.step, Fetch1.regs, Fetch1.regsInt, hadv, Fetch1.rNext,
    Fetch1.rNextInt, hi]

/-- The modes of fetch1 after an interrupt or a redirect. -/
theorem fetchMode_step (hf : y.flush i = true) :
    fetchMode (y.step hasFpu i).fetch =
      if Writeback.intr y.core.ex2.e i.l i.fp then
        BitVec.ofBool y.core.ex2.e.altIntr ++ 1#1 ++ 0#1 ++ 0#1
      else y.core.ex2.e.redirMode := by
  cases hi : Writeback.intr y.core.ex2.e i.l i.fp
  · have hr : y.core.ex2.e.redirect = true := by
      simpa [Sys.flush, Writeback.flushOut, hi] using hf
    rw [Sys.step, fetchMode_of_redirect hr hi]
    exact ofBool_bits y.core.ex2.e.redirMode
  · exact fetchMode_of_interrupt hi

/-- They are those of the MSR that execute1 continues with. -/
theorem fetchMode_eq (h : Inv hasFpu y) (hf : y.flush i = true) :
    fetchMode (y.step hasFpu i).fetch = redirModeOf (y.step hasFpu i).core.st.ex1.msr := by
  rw [fetchMode_step hf, msr_step, ctrlTmp_msr]
  simp only [hf, if_true]
  have hintr : (y.coreInput i).interruptIn.intr = Writeback.intr y.core.ex2.e i.l i.fp := rfl
  rw [hintr]
  cases hi : Writeback.intr y.core.ex2.e i.l i.fp
  · have hr : y.core.ex2.e.redirect = true := by
      simpa [Sys.flush, Writeback.flushOut, hi] using hf
    obtain ⟨hsame, hmode⟩ := h.redir2 hr
    have hcom : committed y.core (stage2Stall (y.coreInput i)) = y.core.ctrl.msr := by
      unfold committed
      split_ifs
      · exact hsame
      · rfl
    simp [hcom, hmode]
  · simp only [if_true]
    rw [redirModeOf_interrupt]
    rfl

/-- The MSR that the next instruction executes under is there from the flush on. -/
theorem msr_run {js : List SysInput}
    (hok : Along (Sys.step hasFpu) (fun x j => x.flush j = false ∧ x.dispatches hasFpu j = false)
      y js) :
    (run (Sys.step hasFpu) y js).core.st.ex1.msr = y.core.st.ex1.msr := by
  induction js generalizing y with
  | nil => rfl
  | cons j js ih =>
    obtain ⟨⟨hf, hgo⟩, hrest⟩ := hok
    rw [run_cons, ih hrest, msr_step]
    simp [hf, hgo]

/-- In every state reached from reset both MSRs have HV set, and EE, IR and DR in problem state.
Whenever fetch1 is sent a redirect or an interrupt, the modes it fetches in from then on are those
of the MSR that is there when the next instruction starts to execute, however many cycles
later. -/
theorem msr_and_fetch_modes {hasFpu : Bool} {g : Fetch1.Geometry} {y : Sys g} (hy : y.AfterReset)
    {is : List SysInput} (hok : Along (Sys.step hasFpu) Decodes y is) :
    MsrOk (run (Sys.step hasFpu) y is).core.st.ex1.msr ∧
      MsrOk (run (Sys.step hasFpu) y is).core.ctrl.msr ∧
      ∀ i js, (run (Sys.step hasFpu) y is).flush i = true →
        Along (Sys.step hasFpu)
            (fun x j => x.flush j = false ∧ x.dispatches hasFpu j = false)
            ((run (Sys.step hasFpu) y is).step hasFpu i) js →
          fetchMode ((run (Sys.step hasFpu) y is).step hasFpu i).fetch =
            redirModeOf (run (Sys.step hasFpu) ((run (Sys.step hasFpu) y is).step hasFpu i)
              js).core.st.ex1.msr := by
  have h : Inv hasFpu (run (Sys.step hasFpu) y is) :=
    hok.invariant (fun _ _ hi h => inv_step h hi) (inv_of_reset hy)
  refine ⟨h.ex1Ok, h.ctrlOk, fun i js hf hjs => ?_⟩
  rw [msr_run hjs]
  exact fetchMode_eq h hf

/-! ## A run -/

def inputOf (e : Decoded) : SysInput where
  core := CoreInput.of e
  l := ⟨false, ⟨0, false⟩, false, 0, 0, ⟨false, false, false, false, false⟩, false, false,
    false, 0, 0⟩
  fp := ⟨false, false, ⟨0, false⟩, false, 0, 0, false, 0, 0, false,
    ⟨false, false, false, false, false⟩, 0, 0⟩
  fetch := .idle

def coldSys : Sys Fetch1.Geometry.default where
  core := .cold
  flushed := false
  fetch := .cold

theorem afterReset_coldSys : coldSys.AfterReset where
  st := afterReset_cold
  ex1Msr := rfl
  ctrlMsr := rfl
  ex1Redirect := rfl
  ex2Redirect := rfl
  flushed := rfl

/-- `rfid`, with SRR1 zero: to 32-bit big-endian mode. -/
def rfid : Decoded :=
  { Decoded.idle with valid := true, op := .rfid, privileged := true }

theorem msr_and_fetch_modes_rfid :
    (run (Sys.step false) coldSys [inputOf rfid, inputOf .idle]).flush
        (inputOf .idle) = true ∧
      fetchMode ((run (Sys.step false) coldSys [inputOf rfid, inputOf .idle]).step false
          (inputOf .idle)).fetch =
        redirModeOf (run (Sys.step false)
          ((run (Sys.step false) coldSys [inputOf rfid, inputOf .idle]).step false
            (inputOf .idle)) [inputOf .idle]).core.st.ex1.msr :=
  ⟨by decide +kernel,
    (msr_and_fetch_modes afterReset_coldSys (by decide +kernel)).2.2 _ _ (by decide +kernel)
      (by decide +kernel)⟩

end Microwatt.Redirect
