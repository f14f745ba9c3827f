import Microwatt.Execute1.Flush
import Microwatt.Writeback

/-!
# The MSR and the modes of instruction fetch

The MSR exists twice: `ex1.msr` is what the next instruction executes under and `ctrl.msr` is
the committed one.  The two differ only while an instruction that writes the MSR is in the first
stage.  fetch1 keeps its own copy of four of the bits, which it gets with every redirect; at an
interrupt it sets them by itself.
-/

namespace Microwatt.Execute1

open Clocked

variable {hasFpu : Bool}

/-! ## Bits -/

theorem getLsbD_setBit_self {k : Nat} (hk : k < 64) (b : Bool) (v : BitVec 64) :
    (setBit k b v).getLsbD k = b := by
  unfold setBit
  cases b <;> simp [hk]

theorem getLsbD_setBit_ne {k j : Nat} (hj : j ≠ k) (b : Bool) (v : BitVec 64) :
    (setBit k b v).getLsbD j = v.getLsbD j := by
  unfold setBit
  by_cases hj64 : j < 64
  · cases b <;> simp [hj, hj64]
  · cases b <;> simp [BitVec.getLsbD_of_ge _ _ (Nat.le_of_not_lt hj64)]

theorem getLsbD_copyBits {hi lo j : Nat} (hhi : hi < 64) (src old : BitVec 64) :
    (copyBits hi lo src old).getLsbD j =
      if lo ≤ j ∧ j ≤ hi then src.getLsbD j else old.getLsbD j := by
  by_cases hj64 : j < 64
  · have hmask : ((BitVec.allOnes (hi + 1 - lo)).setWidth 64 <<< lo).getLsbD j =
        decide (lo ≤ j ∧ j ≤ hi) := by
      simp only [BitVec.getLsbD_shiftLeft, hj64, decide_true, Bool.true_and,
        BitVec.getLsbD_setWidth, BitVec.getLsbD_allOnes]
      by_cases hlo : lo ≤ j
      · simp only [hlo, true_and, show ¬ j < lo by omega, decide_false, Bool.not_false,
          Bool.true_and, show j - lo < 64 by omega, decide_true]
        exact decide_eq_decide.mpr (by omega)
      · simp [hlo, show j < lo by omega]
    simp only [copyBits, BitVec.getLsbD_or, BitVec.getLsbD_and, BitVec.getLsbD_not, hj64,
      decide_true, Bool.true_and, hmask]
    by_cases h : lo ≤ j ∧ j ≤ hi <;> simp [h]
  · have hge := Nat.le_of_not_lt hj64
    rw [if_neg (by omega), BitVec.getLsbD_of_ge _ _ hge, BitVec.getLsbD_of_ge _ _ hge]

theorem getLsbD_copyBits_in {hi lo j : Nat} (hj : lo ≤ j ∧ j ≤ hi) (hhi : hi < 64)
    (src old : BitVec 64) : (copyBits hi lo src old).getLsbD j = src.getLsbD j := by
  rw [getLsbD_copyBits hhi, if_pos hj]

theorem getLsbD_copyBits_out {hi lo j : Nat} (hj : ¬ (lo ≤ j ∧ j ≤ hi)) (hhi : hi < 64)
    (src old : BitVec 64) : (copyBits hi lo src old).getLsbD j = old.getLsbD j := by
  rw [getLsbD_copyBits hhi, if_neg hj]

/-- HV is set, and problem state implies EE, IR and DR. -/
structure MsrOk (msr : BitVec 64) : Prop where
  hv : msr.getLsbD msrHV = true
  pr : msr.getLsbD msrPR = true →
    msr.getLsbD msrEE = true ∧ msr.getLsbD msrIR = true ∧ msr.getLsbD msrDR = true

theorem getLsbD_userBits_of_ne {j : Nat} (h : j ≠ msrDR ∧ j ≠ msrIR ∧ j ≠ msrEE)
    (v : BitVec 64) : (userBits v).getLsbD j = v.getLsbD j := by
  unfold userBits
  rw [getLsbD_setBit_ne h.1, getLsbD_setBit_ne h.2.1, getLsbD_setBit_ne h.2.2]

theorem userBits_bits (v : BitVec 64) :
    (userBits v).getLsbD msrEE = true ∧ (userBits v).getLsbD msrIR = true ∧
      (userBits v).getLsbD msrDR = true := by
  unfold userBits
  refine ⟨?_, ?_, ?_⟩ <;>
    simp (disch := decide) only [getLsbD_setBit_self, getLsbD_setBit_ne]

theorem msrOk_userBits {v : BitVec 64} (h : v.getLsbD msrHV = true) : MsrOk (userBits v) where
  hv := by rw [getLsbD_userBits_of_ne (by decide), h]
  pr _ := userBits_bits v

section Msr

variable {w : WritebackToExecute1} {l is32bit : Bool} {msr rs srr1 : BitVec 64}

/-- The MSR that a return from interrupt leaves. -/
theorem msrOk_rfid (msr srr1 : BitVec 64) : MsrOk (rfidMsr msr srr1) := by
  unfold rfidMsr
  dsimp only
  split_ifs with hpr
  · apply msrOk_userBits
    simp (disch := decide) only [getLsbD_copyBits_out, getLsbD_setBit_self]
  · constructor
    · simp (disch := decide) only [getLsbD_copyBits_out, getLsbD_setBit_self]
    · intro h
      simp (disch := decide) only [getLsbD_copyBits_in] at h
      exact absurd h hpr

/-- `mtmsrd` keeps the MSR in order if it is not executed in problem state. -/
theorem msrOk_mtmsrd (h : MsrOk msr) (hpr : msr.getLsbD msrPR = false) :
    MsrOk (mtmsrdMsr l is32bit msr rs) := by
  unfold mtmsrdMsr
  dsimp only
  generalize hv : (if is32bit = true then msr else copyBits 59 32 rs (copyBits 63 61 rs msr)) = v
  have hvhv : v.getLsbD msrHV = true := by
    rw [← hv]
    split_ifs
    · exact h.hv
    · simp (disch := decide) only [getLsbD_copyBits_out, h.hv]
  split_ifs with hl hrs
  · constructor
    · simp (disch := decide) only [getLsbD_setBit_ne, h.hv]
    · intro hp
      simp (disch := decide) only [getLsbD_setBit_ne, hpr, Bool.false_eq_true] at hp
  · apply msrOk_userBits
    simp (disch := decide) only [getLsbD_copyBits_out, hvhv]
  · constructor
    · simp (disch := decide) only [getLsbD_copyBits_out, hvhv]
    · intro hp
      simp (disch := decide) only [getLsbD_copyBits_out, getLsbD_copyBits_in] at hp
      exact absurd hp hrs

/-- A bit that no interrupt touches. -/
theorem getLsbD_interruptMsr_hv : (interruptMsr w msr).getLsbD msrHV = msr.getLsbD msrHV := by
  unfold interruptMsr
  cases w.scvInt <;> cases w.hvIntr <;>
    simp (disch := decide) only [getLsbD_setBit_ne, Bool.not_false, Bool.not_true, Bool.and_self,
      Bool.and_false, Bool.and_true, Bool.false_eq_true, if_true, if_false]

theorem interruptMsr_bits :
    (interruptMsr w msr).getLsbD msrPR = false ∧ (interruptMsr w msr).getLsbD msrIR = w.altInt ∧
      (interruptMsr w msr).getLsbD msrLE = true ∧ (interruptMsr w msr).getLsbD msrSF = true := by
  unfold interruptMsr
  cases w.scvInt <;> cases w.hvIntr <;>
    simp (disch := decide) only [getLsbD_setBit_ne, getLsbD_setBit_self, Bool.not_false,
      Bool.not_true, Bool.and_self, Bool.and_false, Bool.and_true, Bool.false_eq_true, if_true,
      if_false, and_self]

theorem msrOk_interrupt (h : MsrOk msr) : MsrOk (interruptMsr w msr) where
  hv := by rw [getLsbD_interruptMsr_hv, h.hv]
  pr hp := by simp [interruptMsr_bits.1] at hp

/-- The modes that fetch1 takes by itself at an interrupt. -/
theorem redirModeOf_interrupt :
    redirModeOf (interruptMsr w msr) = BitVec.ofBool w.altInt ++ 1#1 ++ 0#1 ++ 0#1 := by
  obtain ⟨hpr, hir, hle, hsf⟩ := @interruptMsr_bits w msr
  simp only [redirModeOf, hpr, hir, hle, hsf]
  rfl

/-- The modes that a return from interrupt sends are those of its MSR. -/
theorem redirModeOf_rfid :
    redirModeOf (rfidMsr msr srr1) =
      BitVec.ofBool (srr1.getLsbD msrIR || srr1.getLsbD msrPR) ++
        BitVec.ofBool (!srr1.getLsbD msrPR) ++ BitVec.ofBool (!srr1.getLsbD msrLE) ++
        BitVec.ofBool (!srr1.getLsbD msrSF) := by
  unfold rfidMsr redirModeOf
  dsimp only
  cases hpr : srr1.getLsbD msrPR
  · simp (disch := decide) only [Bool.false_eq_true, if_false, getLsbD_copyBits_in,
      getLsbD_copyBits_out, getLsbD_setBit_ne, hpr, Bool.or_false]
  · simp (disch := decide) only [if_true, getLsbD_userBits_of_ne, getLsbD_copyBits_in,
      getLsbD_copyBits_out, getLsbD_setBit_ne, hpr, Bool.or_true, (userBits_bits _).2.1]

end Msr

/-! ## What an instruction does to the MSR -/

section Actions

variable {ctrl : Ctrl} {msr : BitVec 64} {e : Decoded} {dp : Datapath} {srr1 : BitVec 64}
  {fpException : Bool}

/-- What an instruction asks for in the MSR and the fetch modes. -/
structure MsrActions where
  newMsr : BitVec 64
  writeMsr : Bool
  redirect : Bool
  redirMode : BitVec 4

def Actions.onMsr (a : Actions) : MsrActions :=
  ⟨a.newMsr, a.se.writeMsr, a.e.redirect, a.e.redirMode⟩

theorem onMsr_exceptions (d : Draft) :
    (exceptions hasFpu ctrl msr e d).onMsr = d.v.onMsr :=
  exceptions_keeps hasFpu ctrl msr e Actions.onMsr d (by intros; rfl)

theorem onMsr_mfspr (d : Draft) : (mfsprActions ctrl msr e d).v.onMsr = d.v.onMsr := by
  unfold mfsprActions
  dsimp only
  split_ifs <;> rfl

theorem onMsr_mtspr (d : Draft) : (mtsprActions ctrl msr e d).v.onMsr = d.v.onMsr := by
  unfold mtsprActions mtsprEffect
  dsimp only
  split_ifs
  · cases sprSelOf e.sprSelect.sel <;> rfl
  · rfl

/-- Returns from interrupts and moves to the MSR write it.  Every instruction that redirects
sends the modes of the MSR that it leaves. -/
theorem onMsr_execute1Actions :
    let a := (execute1Actions hasFpu ctrl msr e dp srr1 fpException).onMsr
    (a.newMsr = msr ∧ a.redirMode = redirModeOf msr) ∨
      (a.writeMsr = true ∧ a.newMsr = rfidMsr msr srr1 ∧
        a.redirMode = redirModeOf (rfidMsr msr srr1)) ∨
      (e.op = .mtmsrd ∧ a.writeMsr = true ∧ a.redirect = false ∧
        a.newMsr = mtmsrdMsr (e.insn.getLsbD 16) e.is32bit msr e.readData3) := by
  intro a
  have ha : a = (opActions hasFpu ctrl msr e dp srr1 fpException
      (defaultActions ctrl msr e dp srr1)).v.onMsr :=
    onMsr_exceptions _
  rw [ha]
  have hdefault : (defaultActions ctrl msr e dp srr1).v.onMsr =
      ⟨msr, false, false, redirModeOf msr⟩ := rfl
  unfold opActions
  dsimp only
  cases hop : e.op
  case rfid =>
    right
    left
    exact ⟨rfl, rfl, redirModeOf_rfid.symm⟩
  case mtmsrd =>
    right
    right
    exact ⟨rfl, rfl, rfl, rfl⟩
  all_goals left
  case mfspr =>
    rw [onMsr_mfspr, hdefault]
    exact ⟨rfl, rfl⟩
  case mtspr =>
    rw [onMsr_mtspr, hdefault]
    exact ⟨rfl, rfl⟩
  all_goals
    dsimp only
    first
      | exact ⟨rfl, rfl⟩
      | (split_ifs <;> exact ⟨rfl, rfl⟩)

/-- An illegal instruction does not redirect. -/
theorem redirect_of_illegal (hop : e.op = .illegal) :
    (execute1Actions hasFpu ctrl msr e dp srr1 fpException).e.redirect = false := by
  have hdraft : (opActions hasFpu ctrl msr e dp srr1 fpException
      (defaultActions ctrl msr e dp srr1)).v.onMsr.redirect = false := by
    simp only [opActions, hop]
    rfl
  rw [← onMsr_exceptions] at hdraft
  exact hdraft

/-- A core with an FPU has no divider to start. -/
theorem start_ne_div (hfpu : hasFpu = true) :
    (execute1Actions hasFpu ctrl msr e dp srr1 fpException).start ≠ .div := by
  have hexc (d : Draft) : (exceptions hasFpu ctrl msr e d).start = d.v.start :=
    exceptions_keeps hasFpu ctrl msr e Actions.start d (by intros; rfl)
  have hmfspr (d : Draft) : (mfsprActions ctrl msr e d).v.start = d.v.start := by
    unfold mfsprActions
    dsimp only
    split_ifs <;> rfl
  have hmtspr (d : Draft) : (mtsprActions ctrl msr e d).v.start = d.v.start := by
    unfold mtsprActions mtsprEffect
    dsimp only
    split_ifs
    · cases sprSelOf e.sprSelect.sel <;> rfl
    · rfl
  have hnone : StartOp.none ≠ .div := by decide
  have hmul : StartOp.mul ≠ .div := by decide
  have hbsort : StartOp.bsort ≠ .div := by decide
  have hbperm : StartOp.bperm ≠ .div := by decide
  show (exceptions hasFpu ctrl msr e _).start ≠ _
  rw [hexc]
  unfold opActions
  dsimp only
  cases e.op
  case mfspr =>
    rw [hmfspr]
    exact hnone
  case mtspr =>
    rw [hmtspr]
    exact hnone
  case bsort => exact hbsort
  case bperm => exact hbperm
  case mulL64 =>
    dsimp only
    split_ifs
    · exact hnone
    · exact hmul
  case mulH64 => exact hmul
  all_goals
    first
      | exact hnone
      | (dsimp only; split_ifs <;> exact hnone)

theorem illegal_opActions {d : Draft} (h : d.illegal = true) :
    (opActions hasFpu ctrl msr e dp srr1 fpException d).illegal = true := by
  unfold opActions
  dsimp only
  cases e.op
  case mfspr =>
    unfold mfsprActions
    dsimp only
    split_ifs <;> simp [h]
  case mtspr => simp [mtsprActions, h]
  all_goals
    first
      | exact h
      | rfl
      | (dsimp only; split_ifs <;> first | exact h | rfl)

theorem exception_exceptions {d : Draft} (h : privilegedInsn msr e = true ∨ d.illegal = true) :
    (exceptions hasFpu ctrl msr e d).exception = true := by
  unfold exceptions facilityUnavailable
  dsimp only
  -- what comes before them is an exception too
  refine Clocked.ite_keeps (f := Actions.exception) rfl
    (Clocked.ite_keeps (f := Actions.exception) rfl ?_)
  rcases h with hpriv | hillegal
  · rw [if_pos hpriv]
  · refine Clocked.ite_keeps (f := Actions.exception) rfl ?_
    rw [if_pos hillegal]

/-- A privileged instruction is not executed in problem state. -/
theorem exception_of_privileged (hpr : msr.getLsbD msrPR = true) (hpriv : e.privileged = true) :
    (execute1Actions hasFpu ctrl msr e dp srr1 fpException).exception = true := by
  have hdefault : (defaultActions ctrl msr e dp srr1).illegal =
      (e.illegalSuffix || e.illegalForm) := rfl
  apply exception_exceptions
  cases hill : e.illegalSuffix || e.illegalForm
  · left
    simp [privilegedInsn, hill, hpr, hpriv]
  · right
    exact illegal_opActions (hdefault.trans hill)

end Actions

/-! ## The first stage -/

section Stage

variable (hasFpu) (s : State) (i : Input) (v : RegStage1)

/-- The part of the stage register that is about the MSR. -/
def RegStage1.onMsr (r : RegStage1) : MsrActions :=
  ⟨r.msr, r.se.writeMsr, r.e.redirect, r.e.redirMode⟩

theorem onMsr_latch : (interrupts hasFpu s i (latch hasFpu s i v)).onMsr =
    if busyOut s i then v.onMsr
    else ⟨v.msr, false, i.actions.e.redirect, i.actions.e.redirMode⟩ := by
  have hinterrupts (u : RegStage1) : (interrupts hasFpu s i u).onMsr = u.onMsr :=
    interrupts_keeps hasFpu s i RegStage1.onMsr u (by intros; rfl)
  rw [hinterrupts]
  unfold latch
  dsimp only
  cases busyOut s i <;> cases validIn s i <;> rfl

theorem onMsr_dispatch : (dispatch hasFpu s i v).onMsr =
    if go hasFpu s i then ⟨i.actions.newMsr, i.actions.se.writeMsr, v.e.redirect, v.e.redirMode⟩
    else v.onMsr := by
  unfold dispatch
  dsimp only
  split_ifs <;> rfl

theorem onMsr_wait :
    (forwardXer (waitBits hasFpu s i (waitMul hasFpu s i (waitDiv hasFpu s i v)))).onMsr =
      v.onMsr :=
  (forwardXer_keeps RegStage1.onMsr _ (by intros; rfl)).trans
    (waits_keep hasFpu s i RegStage1.onMsr v (by intros; rfl))

theorem onMsr_flush : (flush i (raise hasFpu s i v)).onMsr =
    ⟨if i.flushIn || i.interruptIn then i.ctrlMsr else v.msr, v.se.writeMsr,
      !i.flushIn && (v.e.valid && v.e.redirect), v.e.redirMode⟩ := by
  have hraise : (raise hasFpu s i v).onMsr =
      ⟨v.msr, v.se.writeMsr, v.e.valid && v.e.redirect, v.e.redirMode⟩ := by
    unfold raise
    dsimp only
    split_ifs <;> rfl
  have hflush (u : RegStage1) : (flush i u).onMsr =
      ⟨if i.flushIn || i.interruptIn then i.ctrlMsr else u.msr, u.se.writeMsr,
        !i.flushIn && u.e.redirect, u.e.redirMode⟩ := by
    unfold flush
    dsimp only
    cases i.flushIn <;> cases i.interruptIn <;> rfl
  have h1 := congrArg MsrActions.newMsr hraise
  have h2 := congrArg MsrActions.writeMsr hraise
  have h3 := congrArg MsrActions.redirect hraise
  have h4 := congrArg MsrActions.redirMode hraise
  simp only [RegStage1.onMsr] at h1 h2 h3 h4
  rw [hflush, h1, h2, h3, h4]

/-- The MSR, the fetch modes and the redirect after an edge. -/
theorem onMsr_step : (step hasFpu s i).ex1.onMsr =
    ⟨if i.flushIn || i.interruptIn then i.ctrlMsr
      else if go hasFpu s i then i.actions.newMsr else s.ex1.msr,
    if go hasFpu s i then i.actions.se.writeMsr else busyOut s i && s.ex1.se.writeMsr,
    !i.flushIn && ((waited hasFpu s i).valid &&
      if busyOut s i then s.ex1.e.redirect else i.actions.e.redirect),
    if busyOut s i then s.ex1.e.redirMode else i.actions.e.redirMode⟩ := by
  have hvalid : (forwardXer (waitBits hasFpu s i (waitMul hasFpu s i (waitDiv hasFpu s i
      (dispatch hasFpu s i (interrupts hasFpu s i (latch hasFpu s i s.ex1))))))).e.valid =
        (waited hasFpu s i).valid := by
    rw [← control_waited]
    unfold forwardXer
    split_ifs <;> rfl
  have hwait := onMsr_wait hasFpu s i
    (dispatch hasFpu s i (interrupts hasFpu s i (latch hasFpu s i s.ex1)))
  rw [onMsr_dispatch] at hwait
  have hlatch := onMsr_latch hasFpu s i s.ex1
  show (flush i (raise hasFpu s i _)).onMsr = _
  rw [onMsr_flush, hvalid]
  generalize forwardXer (waitBits hasFpu s i (waitMul hasFpu s i (waitDiv hasFpu s i
      (dispatch hasFpu s i (interrupts hasFpu s i (latch hasFpu s i s.ex1)))))) = u at hwait
  generalize interrupts hasFpu s i (latch hasFpu s i s.ex1) = u' at hwait hlatch
  -- the registers before the redirect is gated, field by field
  simp only [RegStage1.onMsr] at hwait hlatch
  cases hb : busyOut s i <;> cases hg : go hasFpu s i <;>
    simp only [hb, hg, Bool.false_eq_true, if_false, if_true, MsrActions.mk.injEq]
      at hwait hlatch <;>
    simp [hwait, hlatch]

end Stage

end Microwatt.Execute1
