import Microwatt.RamSpr.Decode
import Microwatt.Execute1.Preempt

/-!
# The write port of the SPR RAMs

What the instruction in `ex1` asks the RAMs to write, and how long it stays there: the request
comes in with the instruction, stays while the stage is busy, and is gone at the next edge.  An
instruction with a request completes in one cycle and raises no trap of its own.
-/

namespace Microwatt.RamSpr

open Execute1

variable {hasFpu : Bool}

/-- The port that the instruction in `ex1` drives. -/
def portOf (r : RegStage1) : SprPort :=
  ⟨r.se.ramsprWriteEven, r.se.ramsprWriteOdd, r.ramsprWraddr, r.lrFromNext, r.sprWriteData,
    r.e.lastNia⟩

/-- The port that an instruction will drive. -/
def portAsked (e : Decode2ToExecute1) (a : Actions) : SprPort :=
  ⟨a.se.ramsprWriteEven, a.se.ramsprWriteOdd, e.ramsprWraddr, e.lr, a.sprWriteData, a.e.lastNia⟩

/-- The port without a request. -/
def SprPort.quiet (p : SprPort) : SprPort :=
  { p with writeEven := false, writeOdd := false }

theorem SprPort.request_quiet (p : SprPort) (s : Spr) : p.quiet.request s = none := by
  simp [SprPort.quiet, SprPort.request]

theorem SprPort.request_of_not {p : SprPort} (h : (p.writeEven || p.writeOdd) = false) (s : Spr) :
    p.request s = none := by
  rw [Bool.or_eq_false_iff] at h
  simp [SprPort.request, h.1, h.2]

/-! ## The first stage -/

section Stage

variable (hasFpu) (s : State) (j : Input) (v : RegStage1)

theorem portOf_latch : portOf (interrupts hasFpu s j (latch hasFpu s j v)) =
    if busyOut s j then portOf v else (portAsked j.eIn j.actions).quiet := by
  have hinterrupts (u : RegStage1) : portOf (interrupts hasFpu s j u) = portOf u :=
    interrupts_keeps hasFpu s j portOf u (by intros; rfl)
  rw [hinterrupts]
  unfold latch
  dsimp only
  cases busyOut s j <;> cases validIn s j <;> rfl

theorem portOf_dispatch : portOf (dispatch hasFpu s j v) =
    if go hasFpu s j then
      { portOf v with
        writeEven := j.actions.se.ramsprWriteEven, writeOdd := j.actions.se.ramsprWriteOdd }
    else portOf v := by
  unfold dispatch
  dsimp only
  split_ifs <;> rfl

theorem portOf_rest :
    portOf (flush j (raise hasFpu s j (forwardXer (waitBits hasFpu s j (waitMul hasFpu s j
      (waitDiv hasFpu s j v)))))) = portOf v :=
  after_keeps hasFpu s j portOf v (by intros; rfl) (by intros; rfl) (by intros; rfl)
    (by intros; rfl)

theorem busyOut_of_go (h : go hasFpu s j = true) : busyOut s j = false := by
  simp only [go, validIn, Bool.and_eq_true, Bool.not_eq_true', Bool.or_eq_false_iff] at h
  exact h.1.2.1.1.1

/-- A request comes in with its instruction and stays while the stage is busy. -/
theorem portOf_step : portOf (step hasFpu s j).ex1 =
    if go hasFpu s j then portAsked j.eIn j.actions
    else if busyOut s j then portOf s.ex1
    else (portAsked j.eIn j.actions).quiet := by
  show portOf (flush j (raise hasFpu s j _)) = _
  rw [portOf_rest, portOf_dispatch, portOf_latch]
  by_cases hgo : go hasFpu s j = true
  · rw [if_pos hgo, if_pos hgo, busyOut_of_go hasFpu s j hgo]
    rfl
  · rw [if_neg hgo, if_neg hgo]

/-- What the first stage reports as an interrupt: the trap of an instruction that is started, an
instruction that is not started, or what it reported before. -/
theorem interrupt_step (h : (step hasFpu s j).ex1.e.interrupt = true) :
    (go hasFpu s j = true ∧ j.actions.trap = true) ∨
      (go hasFpu s j = false ∧ busyOut s j = false) ∨
      (go hasFpu s j = false ∧ busyOut s j = true ∧ s.ex1.e.interrupt = true) := by
  have hwait (u : RegStage1) : (forwardXer (waitBits hasFpu s j (waitMul hasFpu s j
      (waitDiv hasFpu s j u)))).e.interrupt = u.e.interrupt :=
    (forwardXer_keeps (fun r => r.e.interrupt) _ (by intros; rfl)).trans
      (waits_keep hasFpu s j (fun r => r.e.interrupt) u (by intros; rfl))
  have hdispatch (u : RegStage1) : (dispatch hasFpu s j u).e.interrupt = u.e.interrupt := by
    unfold dispatch
    dsimp only
    split_ifs <;> rfl
  have hbefore (u : RegStage1) : (interrupts hasFpu s j u).e.interrupt = u.e.interrupt :=
    interrupts_keeps hasFpu s j (fun r => r.e.interrupt) u (by intros; rfl)
  have hraise (u : RegStage1) : (raise hasFpu s j u).e.interrupt =
      if s.ex1.busy || j.lBusy || j.fpBusy then u.e.interrupt
      else if go hasFpu s j then j.actions.trap
      else (validIn s j && j.actions.exception) || interruptBefore hasFpu s j := by
    unfold raise
    cases s.ex1.busy || j.lBusy || j.fpBusy <;> rfl
  have hflush (u : RegStage1) : (flush j u).e.interrupt = (!j.flushIn && u.e.interrupt) := by
    unfold flush
    dsimp only
    cases j.flushIn <;> cases j.interruptIn <;> rfl
  have hout : (!j.flushIn && (raise hasFpu s j (forwardXer (waitBits hasFpu s j
      (waitMul hasFpu s j (waitDiv hasFpu s j (dispatch hasFpu s j
        (interrupts hasFpu s j (latch hasFpu s j s.ex1)))))))).e.interrupt) = true := by
    rw [← hflush]
    exact h
  rw [hraise, hwait, hdispatch, hbefore, Bool.and_eq_true] at hout
  cases hgo : go hasFpu s j
  · right
    cases hbusy : busyOut s j
    · exact .inl ⟨rfl, rfl⟩
    · -- a busy stage keeps what it reports, and a wait state keeps it from starting anything
      have hvalid : validIn s j = false := by simp [validIn, hbusy]
      have hlatch : (latch hasFpu s j s.ex1).e = s.ex1.e := by
        unfold latch
        simp [hbusy, hvalid]
      have hbefore' : interruptBefore hasFpu s j = false := by simp [interruptBefore, hvalid]
      have hold := hout.2
      rw [hgo, hvalid, hlatch, hbefore'] at hold
      cases hunits : s.ex1.busy || j.lBusy || j.fpBusy
      · simp [hunits] at hold
      · rw [hunits] at hold
        exact .inr ⟨rfl, rfl, hold⟩
  · left
    have hbusy := busyOut_of_go hasFpu s j hgo
    simp only [busyOut, Bool.or_eq_false_iff] at hbusy
    have htrap := hout.2
    simp only [hgo, hbusy, Bool.or_self, Bool.false_eq_true, if_false, if_true] at htrap
    exact ⟨rfl, htrap⟩

/-- With nothing in progress, an instruction that is started is valid if it completes at once. -/
theorem valid_step_of_go (hwaits : s.ex1.control.Waits none) (hgo : go hasFpu s j = true) :
    (step hasFpu s j).ex1.e.valid = j.actions.complete := by
  obtain ⟨hm, hmf, hd, hs, hp⟩ := hwaits
  simp only [RegStage1.control, Option.none_beq_some] at hm hmf hd hs hp
  have hctrl : (step hasFpu s j).ex1.e.valid = _ := congrArg Control.valid (control_step hasFpu s j)
  have hflush : j.flushIn = false := @not_flush_of_go hasFpu ⟨s, false⟩ j hgo
  rw [hctrl, hflush]
  simp [waited, hm, hmf, hd, hs, hp, hgo]

/-- With nothing in progress and nothing started, only a busy stage keeps its valid bit. -/
theorem valid_step_of_not_go (hwaits : s.ex1.control.Waits none) (hgo : go hasFpu s j = false) :
    (step hasFpu s j).ex1.e.valid = (!j.flushIn && (busyOut s j && s.ex1.e.valid)) := by
  obtain ⟨hm, hmf, hd, hs, hp⟩ := hwaits
  simp only [RegStage1.control, Option.none_beq_some] at hm hmf hd hs hp
  have hctrl : (step hasFpu s j).ex1.e.valid = _ := congrArg Control.valid (control_step hasFpu s j)
  rw [hctrl]
  cases j.flushIn
  · simp [waited, hm, hmf, hd, hs, hp, hgo, RegStage1.control]
  · rfl

theorem busy_step_of_flush (hflush : j.flushIn = true) : (step hasFpu s j).ex1.busy = false := by
  have hctrl : (step hasFpu s j).ex1.busy = _ := congrArg Control.busy (control_step hasFpu s j)
  rw [hctrl, if_pos hflush]

end Stage

/-! ## The actions of an instruction with a request -/

section Actions

variable {ctrl : Ctrl} {msr : BitVec 64} {e : Decoded} {dp : Datapath} {odd : BitVec 64}
  {fpException : Bool}

/-- The part of the actions that the port takes. -/
def onPort (a : Actions) : Bool × Bool × BitVec 64 × BitVec 64 :=
  (a.se.ramsprWriteEven, a.se.ramsprWriteOdd, a.sprWriteData, a.e.lastNia)

theorem onPort_exceptions (d : Draft) : onPort (exceptions hasFpu ctrl msr e d) = onPort d.v :=
  exceptions_keeps hasFpu ctrl msr e onPort d (by intros; rfl)

theorem onPort_mfspr (d : Draft) : onPort (mfsprActions ctrl msr e d).v = onPort d.v := by
  unfold mfsprActions
  dsimp only
  split_ifs <;> rfl

theorem onPort_mtspr (d : Draft) : onPort (mtsprActions ctrl msr e d).v = onPort d.v := by
  unfold mtsprActions mtsprEffect
  dsimp only
  split_ifs
  · cases sprSelOf e.sprSelect.sel <;> rfl
  · rfl

/-- The request of an instruction is the one that decode2 sends, and the value is CTR counted
down or that of RS. -/
theorem onPort_execute1Actions :
    onPort (execute1Actions hasFpu ctrl msr e dp odd fpException) =
      (e.ramsprWriteEven, e.ramsprWriteOdd, if e.decCtr then odd - 1 else e.readData3, e.nia) := by
  have hexc : onPort (execute1Actions hasFpu ctrl msr e dp odd fpException) =
      onPort (opActions hasFpu ctrl msr e dp odd fpException
        (defaultActions ctrl msr e dp odd)).v :=
    onPort_exceptions _
  have hdefault : onPort (defaultActions ctrl msr e dp odd).v =
      (e.ramsprWriteEven, e.ramsprWriteOdd, if e.decCtr then odd - 1 else e.readData3, e.nia) :=
    rfl
  rw [hexc, ← hdefault]
  unfold opActions
  dsimp only
  cases e.op
  case mfspr => exact onPort_mfspr _
  case mtspr => exact onPort_mtspr _
  all_goals
    first
      | rfl
      | (dsimp only; split_ifs <;> rfl)

/-- The operations that write SPRs in RAM. -/
def writesRam (op : InsnOp) : Prop :=
  op = .b ∨ op = .bc ∨ op = .bcreg ∨ op = .mtspr

theorem opActions_of_writesRam (hop : writesRam e.op) (d : Draft) :
    (opActions hasFpu ctrl msr e dp odd fpException d).v.start = d.v.start ∧
      (opActions hasFpu ctrl msr e dp odd fpException d).v.trap = d.v.trap ∧
      (opActions hasFpu ctrl msr e dp odd fpException d).owait = d.owait := by
  unfold opActions
  rcases hop with h | h | h | h <;> rw [h]
  case inr.inr.inr =>
    dsimp only
    unfold mtsprActions mtsprEffect
    dsimp only
    split_ifs
    · cases sprSelOf e.sprSelect.sel <;> exact ⟨rfl, rfl, rfl⟩
    · exact ⟨rfl, rfl, rfl⟩
  all_goals exact ⟨rfl, rfl, rfl⟩

/-- They start nothing and do not trap, and they complete unless they cannot be executed. -/
theorem actions_of_writesRam (hop : writesRam e.op) :
    (execute1Actions hasFpu ctrl msr e dp odd fpException).start = .none ∧
      (execute1Actions hasFpu ctrl msr e dp odd fpException).trap = false ∧
      (e.unit = .alu → e.valid = true →
        (execute1Actions hasFpu ctrl msr e dp odd fpException).exception = false →
        (execute1Actions hasFpu ctrl msr e dp odd fpException).complete = true) := by
  have hexc (d : Draft) : (exceptions hasFpu ctrl msr e d).start = d.v.start ∧
      (exceptions hasFpu ctrl msr e d).trap = d.v.trap :=
    ⟨exceptions_keeps hasFpu ctrl msr e Actions.start d (by intros; rfl),
      exceptions_keeps hasFpu ctrl msr e Actions.trap d (by intros; rfl)⟩
  obtain ⟨hstart, htrap, howait⟩ := @opActions_of_writesRam hasFpu ctrl msr e dp odd fpException hop
    (defaultActions ctrl msr e dp odd)
  refine ⟨(hexc _).1.trans hstart, (hexc _).2.trans htrap, fun hunit hvalid hexception => ?_⟩
  have hcomplete : (execute1Actions hasFpu ctrl msr e dp odd fpException).complete =
      (e.unit == .alu && e.valid &&
        !(execute1Actions hasFpu ctrl msr e dp odd fpException).exception &&
        !(opActions hasFpu ctrl msr e dp odd fpException
          (defaultActions ctrl msr e dp odd)).owait) :=
    rfl
  rw [hcomplete, hexception, howait, hunit, hvalid]
  rfl

/-- An illegal prefixed instruction is not executed. -/
theorem exception_of_illegalSuffix (h : e.illegalSuffix = true) :
    (execute1Actions hasFpu ctrl msr e dp odd fpException).exception = true := by
  apply exception_exceptions
  right
  apply illegal_opActions
  show (e.illegalSuffix || e.illegalForm) = true
  rw [h, Bool.true_or]

end Actions

/-- Only branches and `mtspr` come from decode2 with a request, and they go to the ALU. -/
theorem writesRam_of_sprFields {d : Decode1ToDecode2}
    (h : ((sprFields d).writeEven || (sprFields d).writeOdd) = true) :
    writesRam d.decode.op ∧ unit d = .alu := by
  cases hi : d.icode with
  | other row =>
      rw [sprFields_other hi] at h
      simp [SprFields.init] at h
  | brel | babs | bcrel | bcabs | bcctr | bclr | bctar =>
      simp [Decode1ToDecode2.decode, hi, decodeRom, writesRam, unit]
  | mtspr =>
      refine ⟨by simp [Decode1ToDecode2.decode, hi, decodeRom, writesRam], ?_⟩
      -- an SPR of loadstore1 is not one of the registers
      have hram : d.ramSpr.valid = true := by
        by_contra hvalid
        simp [sprFields, Decode1ToDecode2.decode, hi, decodeRom, hvalid] at h
      have hldst : ldstSpr (decodeSprNum d.insn) = false := by
        by_contra hldst
        simp only [ldstSpr, Bool.not_eq_false, decide_eq_true_eq, List.mem_cons, List.not_mem_nil,
          or_false] at hldst
        unfold Decode1ToDecode2.ramSpr at hram
        rcases hldst with hn | hn | hn | hn | hn | hn | hn | hn <;>
          exact absurd hram (by rw [hn]; decide)
      simp [unit, hldst, Decode1ToDecode2.decode, hi, decodeRom]
  | _ =>
      have hctr : decctr d = false := by simp [decctr, Decode1ToDecode2.decode, hi, decodeRom]
      have hnone : (sprFields d).writeEven = false ∧ (sprFields d).writeOdd = false := by
        simp only [sprFields, hctr, Decode1ToDecode2.decode, hi, decodeRom, Bool.false_and]
        constructor <;> split_ifs <;> first | rfl | contradiction
      simp [hnone] at h

end Microwatt.RamSpr
