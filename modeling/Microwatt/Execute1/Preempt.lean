import Microwatt.Execute1.Msr

/-!
# Flushed and preempted instructions

An instruction that is flushed out of `ex1`, or that an interrupt is taken instead of, should
leave no trace.  What the registers are then is `withoutInstruction`: the decrementer and the
timebase count, and an interrupt saves the address and the MSR and changes the MSR.

The write enables of the register files and of the SPR RAMs are gated by the flush.  The updates
of `ctrl`, of the timebase and of the log address are gated by the stall of the second stage
only, so a flush in a cycle without the stall does not stop them.
-/

namespace Microwatt.Execute1

open Clocked

variable {hasFpu : Bool}

/-- The registers that the second stage writes, other than the register files. -/
structure Arch where
  ctrl : Ctrl
  evenSprs : BitVec 3 → BitVec 64
  oddSprs : BitVec 3 → BitVec 64
  timebase : BitVec 64
  logAddr : BitVec 32

def Core.arch (c : Core) : Arch :=
  ⟨c.ctrl, c.evenSprs, c.oddSprs, c.timebase, c.ex2.logAddrSpr⟩

section Defs

variable (c : Core) (i : CoreInput)

/-- The timebase after an edge at which nothing is written to it. -/
def tbTick : BitVec 64 :=
  (c.timebase.extractLsb' 32 32 + (BitVec.ofBool (!i.tbFreeze && c.tbCarry)).setWidth 32) ++
    if !i.tbFreeze then c.timebase.extractLsb' 0 32 + 1 else c.timebase.extractLsb' 0 32

/-- The registers after an edge to which no instruction contributes. -/
def withoutInstruction : Arch where
  ctrl := ctrlTick c i { c.ctrl with dec := c.ctrl.dec - 1 }
  evenSprs :=
    if i.interruptIn.intr then
      Function.update c.evenSprs (ramsprWrAddr c i) c.ex2.e.lastNia
    else c.evenSprs
  oddSprs :=
    if i.interruptIn.intr then
      Function.update c.oddSprs (ramsprWrAddr c i) (intrSrr1 c.ctrl.msr i.interruptIn.srr1)
    else c.oddSprs
  timebase := if i.tbReset then 0 else tbTick c i
  logAddr := c.ex2.logAddrSpr

/-- The values that an instruction carries through `ex1`. -/
structure Payload where
  msr : BitVec 64
  sprWriteData : BitVec 64
  ic : BitVec 4
  insn : BitVec 32
  lastNia : BitVec 64

/-- The same state with other values in `ex1`. -/
def Core.carrying (p : Payload) : Core :=
  { c with
    st := { c.st with
      ex1 := { c.st.ex1 with
        msr := p.msr
        sprWriteData := p.sprWriteData
        ic := p.ic
        insn := p.insn
        e := { c.st.ex1.e with lastNia := p.lastNia } } } }

variable (hasFpu) in
/-- The instruction in `ex1` leaves no trace at this edge, whatever values it carries. -/
def Traceless : Prop :=
  ∀ p, ((c.carrying p).step hasFpu i).arch = withoutInstruction c i ∧
    pmuMtspr (c.carrying p) i = false ∧
    (ex2in (c.carrying p) i).e.writeEnable = false ∧
    (ex2in (c.carrying p) i).e.writeCrEnable = false ∧
    (ex2in (c.carrying p) i).e.writeXercEnable = false

/-- The side effects that are gated by the stall only, and that always show. -/
def SideEffect.writes (se : SideEffect) : Bool :=
  se.writeMsr || se.writeXerlow || se.writeDec || se.writeCfar || se.setCfar || se.writeLoga ||
    se.incLoga || se.writePmuspr || se.writeFscr || se.writeIc || se.writeLpcr || se.writeHeir ||
    se.setHeir || se.writeCtrl || se.writeDscr || se.writeCiabr

/-- The second stage is stalled, or the instruction in `ex1` has no side effect to make: a wait
state that is not entered, or is already there, and a timebase that is reset do not count. -/
def Gated : Prop :=
  stage2Stall i = true ∨
    (c.st.ex1.se.writes = false ∧
      (c.st.ex1.se.writeTbl || c.st.ex1.se.writeTbu → i.tbReset = true) ∧
      (c.st.ex1.se.enterWait = true →
        (c.st.ex1.traceNext || irqExc c i || i.interruptIn.intr || c.ctrl.waitState) = true))

end Defs

variable {c : Core} {i : CoreInput}

/-! ## Without an active side effect -/

theorem ctrlTmp_carrying_of_stall (hs : stage2Stall i = true) (p : Payload) :
    ctrlTmp (c.carrying p) i = (withoutInstruction c i).ctrl := by
  simp only [ctrlTmp, hs, Bool.not_true, Bool.false_eq_true, if_false]
  rfl

theorem sideEffects_of_not_writes {r : RegStage1} {v : Ctrl} (hw : r.se.writes = false) :
    sideEffects r v = { v with waitState := r.se.enterWait || v.waitState } := by
  simp only [SideEffect.writes, Bool.or_eq_false_iff] at hw
  obtain ⟨⟨⟨⟨⟨⟨⟨⟨⟨⟨⟨⟨⟨⟨⟨h1, h2⟩, h3⟩, h4⟩, h5⟩, h6⟩, h7⟩, h8⟩, h9⟩, h10⟩, h11⟩, h12⟩, h13⟩, h14⟩,
    h15⟩, h16⟩ := hw
  simp only [sideEffects, h1, h2, h3, h4, h5, h9, h10, h11, h12, h13, h14, h15, h16,
    Bool.false_eq_true, if_false]

/-- Entering a wait state that ends at the same edge, or is already there. -/
theorem ctrlTick_enterWait {v : Ctrl} {b : Bool}
    (hb : b = true →
      (c.st.ex1.traceNext || irqExc c i || i.interruptIn.intr || v.waitState) = true) :
    ctrlTick c i { v with waitState := b || v.waitState } = ctrlTick c i v := by
  cases b
  · rfl
  · have h := hb rfl
    simp only [ctrlTick, Bool.true_or, Bool.true_and]
    congr 1
    cases hv : v.waitState
    · simp only [hv, Bool.or_false] at h
      simp [h]
    · simp

theorem ctrlTick_sideEffects {r : RegStage1} {v : Ctrl} (hw : r.se.writes = false)
    (hwait : r.se.enterWait = true →
      (c.st.ex1.traceNext || irqExc c i || i.interruptIn.intr || v.waitState) = true) :
    ctrlTick c i (sideEffects r v) = ctrlTick c i v := by
  rw [sideEffects_of_not_writes hw]
  exact ctrlTick_enterWait hwait

theorem ctrlTmp_carrying (h : Gated c i) (p : Payload) :
    ctrlTmp (c.carrying p) i = (withoutInstruction c i).ctrl := by
  rcases h with hs | ⟨hw, -, hwait⟩
  · exact ctrlTmp_carrying_of_stall hs p
  · cases hs : stage2Stall i
    · simp only [ctrlTmp, hs, Bool.not_false, if_true]
      exact @ctrlTick_sideEffects (c.carrying p) i (c.carrying p).st.ex1 _ hw hwait
    · exact ctrlTmp_carrying_of_stall hs p

theorem tbNext_carrying (h : Gated c i) (hr : i.tbReset = false) (p : Payload) :
    tbNext (c.carrying p) i = tbTick c i := by
  have hwrite : (!stage2Stall i && c.st.ex1.se.writeTbl) = false ∧
      (!stage2Stall i && c.st.ex1.se.writeTbu) = false := by
    rcases h with hs | ⟨-, htb, -⟩
    · simp [hs]
    · cases hl : c.st.ex1.se.writeTbl <;> cases hu : c.st.ex1.se.writeTbu <;>
        simp [hl, hu, hr] at htb ⊢
  have hl : (!stage2Stall i && (c.carrying p).st.ex1.se.writeTbl) = false := hwrite.1
  have hu : (!stage2Stall i && (c.carrying p).st.ex1.se.writeTbu) = false := hwrite.2
  simp only [tbNext, hl, hu, Bool.false_eq_true, if_false, Bool.not_false, Bool.true_and]
  rfl

theorem logAddr_carrying (h : Gated c i) (p : Payload) :
    logAddrNext (c.carrying p) i = c.ex2.logAddrSpr := by
  unfold logAddrNext
  rcases h with hs | ⟨hw, -⟩
  · simp only [hs, if_true]
    rfl
  · simp only [SideEffect.writes, Bool.or_eq_false_iff] at hw
    have hl : (c.carrying p).st.ex1.se.writeLoga = false := hw.1.1.1.1.1.1.1.1.1.1.2
    have hi : (c.carrying p).st.ex1.se.incLoga = false := hw.1.1.1.1.1.1.1.1.1.2
    simp only [hl, hi, Bool.false_eq_true, if_false, ite_self]
    rfl

theorem pmuMtspr_carrying (h : Gated c i) (p : Payload) : pmuMtspr (c.carrying p) i = false := by
  unfold pmuMtspr
  rcases h with hs | ⟨hw, -⟩
  · simp [hs]
  · simp only [SideEffect.writes, Bool.or_eq_false_iff] at hw
    have hp : (c.carrying p).st.ex1.se.writePmuspr = false := hw.1.1.1.1.1.1.1.1.2
    simp [hp]

/-- The SPR RAMs and the register files are not written by an instruction that is not valid or is
flushed. -/
theorem traceless_of_gated (hd : ramsprDoit c i = false) (h : Gated c i) :
    Traceless hasFpu c i := by
  intro p
  have hd' : ramsprDoit (c.carrying p) i = false := hd
  have heven : evenSprsNext (c.carrying p) i = (withoutInstruction c i).evenSprs := by
    simp only [evenSprsNext, hd', Bool.and_false, Bool.false_or, withoutInstruction]
    cases i.interruptIn.intr <;> rfl
  have hodd : oddSprsNext (c.carrying p) i = (withoutInstruction c i).oddSprs := by
    simp only [oddSprsNext, hd', Bool.and_false, Bool.false_or, withoutInstruction]
    cases i.interruptIn.intr <;> rfl
  have htb : (if i.tbReset then 0 else tbNext (c.carrying p) i) =
      (withoutInstruction c i).timebase := by
    cases hr : i.tbReset
    · simp [withoutInstruction, hr, tbNext_carrying h hr]
    · simp [withoutInstruction, hr]
  refine ⟨?_, pmuMtspr_carrying h p, ?_, ?_, ?_⟩
  · simp only [Core.arch, Core.step, ex2in, ctrlTmp_carrying h, heven, hodd, htb,
      logAddr_carrying h]
    rfl
  all_goals
    have hlive : ((c.carrying p).st.ex1.e.valid && !stage2Stall i && !i.flushIn) = false := hd'
    simp [ex2in, ex2E, hlive]

/-! ## An active side effect shows -/

/-- A gated update that changes nothing, although its value is another one, is not active. -/
theorem flag_eq_false {α : Type*} {flag : Bool} {a v : α} (h : (if flag then a else v) = v)
    (hne : a ≠ v) : flag = false := by
  cases flag
  · rfl
  · exact absurd h hne

/-- A value that comes from a word takes more than one value. -/
theorem exists_ne_of_word {w : Nat} {α : Type*} {f : BitVec w → α}
    (hf : f 0 ≠ f (BitVec.allOnes w)) (v : α) : ∃ x, f x ≠ v := by
  by_cases h : f 0 = v
  · exact ⟨_, fun h' => hf (h.trans h'.symm)⟩
  · exact ⟨_, h⟩

/-- A gated update that changes nothing whatever the word is not active. -/
theorem flag_eq_false_of_word {w : Nat} {α : Type*} {flag : Bool} {f : BitVec w → α} {v : α}
    (hf : f 0 ≠ f (BitVec.allOnes w)) (h : ∀ x, (if flag then f x else v) = v) :
    flag = false := by
  obtain ⟨x, hx⟩ := exists_ne_of_word hf v
  exact flag_eq_false (h x) hx

/-- The payload with this word for an SPR. -/
def Payload.spr (x : BitVec 64) : Payload := ⟨0, x, 0, 0, 0⟩

section Shows

variable (h : Traceless hasFpu c i) (hs : stage2Stall i = false)
include h hs

/-- The fields of `ctrl` after the edge are those of an edge without an instruction. -/
theorem Traceless.ctrl (p : Payload) :
    ctrlTick c i (sideEffects (c.carrying p).st.ex1 { c.ctrl with dec := c.ctrl.dec - 1 }) =
      ctrlTick c i { c.ctrl with dec := c.ctrl.dec - 1 } := by
  have hctrl : ctrlTmp (c.carrying p) i = _ := congrArg Arch.ctrl (h p).1
  simp only [ctrlTmp, hs, Bool.not_false, if_true] at hctrl
  exact hctrl

theorem Traceless.not_writeMsr : c.st.ex1.se.writeMsr = false := by
  let f (x : BitVec 64) := if i.interruptIn.intr then interruptMsr i.interruptIn x else x
  have hhv (x : BitVec 64) : (f x).getLsbD msrHV = x.getLsbD msrHV := by
    simp only [f]
    split_ifs
    · exact getLsbD_interruptMsr_hv
    · rfl
  have hf : f 0 ≠ f (BitVec.allOnes 64) := by
    intro heq
    have hbit := congrArg (fun v => v.getLsbD msrHV) heq
    simp only [hhv] at hbit
    exact absurd hbit (by decide)
  refine flag_eq_false_of_word (v := f c.ctrl.msr) hf fun x => ?_
  have hmsr := congrArg Ctrl.msr (h.ctrl hs ⟨x, 0, 0, 0, 0⟩)
  simp only [ctrlTick, sideEffects, Core.carrying] at hmsr
  cases hw : c.st.ex1.se.writeMsr
  · simp
  · simpa [f, hw] using hmsr

/-- The flags of the registers that an SPR word goes into. -/
theorem Traceless.not_writeSpr :
    c.st.ex1.se.writeXerlow = false ∧ c.st.ex1.se.writeDec = false ∧
      c.st.ex1.se.writeCfar = false ∧ c.st.ex1.se.writeFscr = false ∧
      c.st.ex1.se.writeLpcr = false ∧ c.st.ex1.se.writeHeir = false ∧
      c.st.ex1.se.writeCtrl = false ∧ c.st.ex1.se.writeDscr = false ∧
      c.st.ex1.se.writeCiabr = false := by
  have hc (x : BitVec 64) := h.ctrl hs (.spr x)
  refine ⟨?_, ?_, ?_, ?_, ?_, ?_, ?_, ?_, ?_⟩
  · exact flag_eq_false_of_word (f := fun x : BitVec 64 => x.extractLsb' 0 18) (by decide)
      fun x => congrArg Ctrl.xerLow (hc x)
  · exact flag_eq_false_of_word (f := fun x : BitVec 64 => x) (by decide)
      fun x => congrArg Ctrl.dec (hc x)
  · cases hw : c.st.ex1.se.writeCfar
    · rfl
    · obtain ⟨x, hx⟩ := exists_ne_of_word (f := fun x : BitVec 64 => x) (by decide) c.ctrl.cfar
      have := congrArg Ctrl.cfar (hc x)
      simp only [ctrlTick, sideEffects, Core.carrying, Payload.spr, hw, if_true] at this
      exact absurd this hx
  · exact flag_eq_false_of_word (f := fun x : BitVec 64 => x.getLsbD (63 - 50)) (by decide)
      fun x => congrArg Ctrl.fscrPref (hc x)
  · exact flag_eq_false_of_word (f := fun x : BitVec 64 => x.getLsbD (63 - 37)) (by decide)
      fun x => congrArg Ctrl.lpcrHail (hc x)
  · cases hw : c.st.ex1.se.writeHeir
    · rfl
    · obtain ⟨x, hx⟩ := exists_ne_of_word (f := fun x : BitVec 64 => x) (by decide) c.ctrl.heir
      have := congrArg Ctrl.heir (hc x)
      simp only [ctrlTick, sideEffects, Core.carrying, Payload.spr, hw, if_true] at this
      exact absurd this hx
  · exact flag_eq_false_of_word (f := fun x : BitVec 64 => x.getLsbD 0) (by decide)
      fun x => congrArg Ctrl.run (hc x)
  · exact flag_eq_false_of_word (f := fun x : BitVec 64 => x.extractLsb' 0 25) (by decide)
      fun x => congrArg Ctrl.dscr (hc x)
  · exact flag_eq_false_of_word (f := fun x : BitVec 64 => x) (by decide)
      fun x => congrArg Ctrl.ciabr (hc x)

/-- The flags of the registers that something else goes into. -/
theorem Traceless.not_set :
    c.st.ex1.se.setCfar = false ∧ c.st.ex1.se.writeIc = false ∧ c.st.ex1.se.setHeir = false := by
  obtain ⟨-, -, hcfar, hfscr, -, hheir, -⟩ := h.not_writeSpr hs
  refine ⟨?_, ?_, ?_⟩
  · refine flag_eq_false_of_word (f := fun x : BitVec 64 => x) (v := c.ctrl.cfar) (by decide)
      fun x => ?_
    have := congrArg Ctrl.cfar (h.ctrl hs ⟨0, 0, 0, 0, x⟩)
    simp only [ctrlTick, sideEffects, Core.carrying, hcfar, Bool.false_eq_true, if_false] at this
    exact this
  · refine flag_eq_false_of_word (f := fun x : BitVec 4 => x) (v := c.ctrl.fscrIc) (by decide)
      fun x => ?_
    have := congrArg Ctrl.fscrIc (h.ctrl hs ⟨0, 0, x, 0, 0⟩)
    simp only [ctrlTick, sideEffects, Core.carrying, hfscr, Bool.false_eq_true, if_false] at this
    exact this
  · have hf : ∀ u : BitVec 32, u ++ (0 : BitVec 32) ≠ u ++ BitVec.allOnes 32 := by
      intro u heq
      have hlow := congrArg (fun v => v.extractLsb' 0 32) heq
      simp only [BitVec.extractLsb'_append_eq_right] at hlow
      exact absurd hlow (by decide)
    refine flag_eq_false_of_word (f := fun x : BitVec 32 =>
      (if c.st.ex1.prefixed then 1#6 ++ c.st.ex1.insnPrefix else 0#32) ++ x)
      (v := c.ctrl.heir) (hf _) fun x => ?_
    have := congrArg Ctrl.heir (h.ctrl hs ⟨0, 0, 0, x, 0⟩)
    simp only [ctrlTick, sideEffects, Core.carrying, hheir, Bool.false_eq_true, if_false] at this
    exact this

theorem Traceless.not_log :
    c.st.ex1.se.writeLoga = false ∧ c.st.ex1.se.incLoga = false := by
  have hlog (p : Payload) : logAddrNext (c.carrying p) i = c.ex2.logAddrSpr :=
    congrArg Arch.logAddr (h p).1
  have hloga : c.st.ex1.se.writeLoga = false := by
    cases hw : c.st.ex1.se.writeLoga
    · rfl
    · obtain ⟨x, hx⟩ := exists_ne_of_word (f := fun x : BitVec 64 => x.extractLsb' 0 32) (by decide)
        c.ex2.logAddrSpr
      have := hlog (.spr x)
      simp only [logAddrNext, hs, Core.carrying, Payload.spr, hw, if_true, Bool.false_eq_true,
        if_false] at this
      exact absurd this hx
  refine ⟨hloga, ?_⟩
  have := hlog (.spr 0)
  simp only [logAddrNext, hs, Core.carrying, hloga, Bool.false_eq_true, if_false] at this
  exact flag_eq_false this (by bv_omega)

theorem Traceless.not_wait (hw : c.st.ex1.se.enterWait = true) :
    (c.st.ex1.traceNext || irqExc c i || i.interruptIn.intr || c.ctrl.waitState) = true := by
  have hwait := congrArg Ctrl.waitState (h.ctrl hs (.spr 0))
  simp only [ctrlTick, sideEffects, Core.carrying, hw, Bool.true_or, Bool.true_and] at hwait
  cases hx : c.st.ex1.traceNext || irqExc c i || i.interruptIn.intr
  · simp only [hx, Bool.not_false, Bool.and_true] at hwait
    simpa using hwait.symm
  · simp

theorem Traceless.not_timebase
    (hw : (c.st.ex1.se.writeTbl || c.st.ex1.se.writeTbu) = true) : i.tbReset = true := by
  by_contra hr
  have htb (x : BitVec 64) : tbNext (c.carrying (.spr x)) i = tbTick c i := by
    have := congrArg Arch.timebase (h (.spr x)).1
    simpa [Core.arch, Core.step, withoutInstruction, hr] using this
  have hlo (x : BitVec 64) := congrArg (fun v => v.extractLsb' 0 32) (htb x)
  have hhi (x : BitVec 64) := congrArg (fun v => v.extractLsb' 32 32) (htb x)
  simp only [tbNext, tbTick, BitVec.extractLsb'_append_eq_right,
    BitVec.extractLsb'_append_eq_left] at hlo hhi
  cases hl : c.st.ex1.se.writeTbl
  · have hu : c.st.ex1.se.writeTbu = true := by simpa [hl] using hw
    obtain ⟨x, hx⟩ := exists_ne_of_word (f := fun x : BitVec 64 => x.extractLsb' 0 32) (by decide)
      (c.timebase.extractLsb' 32 32 + (BitVec.ofBool (!i.tbFreeze && c.tbCarry)).setWidth 32)
    have := hhi x
    simp only [hs, Core.carrying, Payload.spr, hu, Bool.not_false, Bool.and_self, if_true] at this
    exact hx this
  · obtain ⟨x, hx⟩ := exists_ne_of_word (f := fun x : BitVec 64 => x.extractLsb' 0 32) (by decide)
      (if !i.tbFreeze then c.timebase.extractLsb' 0 32 + 1 else c.timebase.extractLsb' 0 32)
    have := hlo x
    simp only [hs, Core.carrying, Payload.spr, hl, Bool.not_false, Bool.and_self, if_true] at this
    exact hx this

end Shows

/-- An instruction without a trace has all its side effects gated. -/
theorem gated_of_traceless (h : Traceless hasFpu c i) : Gated c i := by
  cases hs : stage2Stall i
  · right
    obtain ⟨h1, h2, h3, h4, h5, h6, h7, h8, h9⟩ := h.not_writeSpr hs
    obtain ⟨h10, h11, h12⟩ := h.not_set hs
    obtain ⟨h13, h14⟩ := h.not_log hs
    have h15 : c.st.ex1.se.writePmuspr = false := by
      have hp : (!stage2Stall i && c.st.ex1.se.writePmuspr) = false := (h (.spr 0)).2.1
      simpa [hs] using hp
    refine ⟨?_, h.not_timebase hs, h.not_wait hs⟩
    simp [SideEffect.writes, h.not_writeMsr hs, h1, h2, h3, h4, h5, h6, h7, h8, h9, h10, h11, h12,
      h13, h14, h15]
  · exact Or.inl hs

/-- Where the write enables are off, the instruction leaves no trace if and only if its side
effects are gated. -/
theorem traceless_iff (hd : ramsprDoit c i = false) : Traceless hasFpu c i ↔ Gated c i :=
  ⟨gated_of_traceless, traceless_of_gated hd⟩

instance : Decidable (Gated c i) := inferInstanceAs (Decidable (_ ∨ _))

/-! ## The flush and the interrupt taken instead -/

/-- A flushed instruction writes nothing through the gated write enables. -/
theorem ramsprDoit_of_flush (hf : i.flushIn = true) : ramsprDoit c i = false := by
  simp [ramsprDoit, hf]

section Preempted

variable {s : State} {j : Input}

theorem se_of_not_go (hgo : go hasFpu s j = false) (v : RegStage1) :
    (flush j (raise hasFpu s j (forwardXer (waitBits hasFpu s j (waitMul hasFpu s j
      (waitDiv hasFpu s j (dispatch hasFpu s j v))))))).se = v.se := by
  have hdispatch : (dispatch hasFpu s j v).se = v.se := by
    simp [dispatch, hgo]
  rw [after_keeps hasFpu s j RegStage1.se _ (by intros; rfl) (by intros; rfl) (by intros; rfl)
    (by intros; rfl), hdispatch]

/-- The side effects in `ex1` after an interrupt has been taken instead of the instruction. -/
theorem se_of_interruptBefore (hint : interruptBefore hasFpu s j = true) :
    ∃ b, (step hasFpu s j).ex1.se =
      { SideEffect.init with
        setHeir := j.actions.se.setHeir, writeIc := j.actions.se.writeIc, clrHmsg := b } := by
  have hvalid : validIn s j = true := by
    simp only [interruptBefore, Bool.and_eq_true] at hint
    exact hint.1.1
  have hbusy : busyOut s j = false := by
    simp only [validIn, Bool.and_eq_true, Bool.not_eq_true', Bool.or_eq_false_iff] at hvalid
    exact hvalid.2.1.1.1
  have hgo : go hasFpu s j = false := by simp [go, hint]
  have hlatch : (latch hasFpu s j s.ex1).se =
      { SideEffect.init with
        setHeir := j.actions.se.setHeir, writeIc := j.actions.se.writeIc } := by
    simp [latch, hbusy, hvalid]
  have hinterrupts (v : RegStage1) : (interrupts hasFpu s j v).se =
      { v.se with clrHmsg := (interrupts hasFpu s j v).se.clrHmsg } := by
    have hrest := interrupts_keeps hasFpu s j (fun r => { r.se with clrHmsg := false }) v
      (by intros; rfl)
    exact (congrArg (fun se : SideEffect =>
      { se with clrHmsg := (interrupts hasFpu s j v).se.clrHmsg }) hrest)
  refine ⟨(interrupts hasFpu s j (latch hasFpu s j s.ex1)).se.clrHmsg, ?_⟩
  show (flush j (raise hasFpu s j _)).se = _
  rw [se_of_not_go hgo, hinterrupts, hlatch]

/-- Nothing is in progress in a cycle in which an instruction is taken. -/
theorem wait_eq_none {u : Pipe} {w : Option Wait} (h : PipeInv hasFpu u w)
    (hi : Issued hasFpu u j) (hv : validIn u.st j = true) : w = none := by
  by_contra hw
  unfold validIn busyOut at hv
  cases hf : u.flushed with
  | true => simp [hi.1 hf] at hv
  | false => simp [h.busy hw hf] at hv

theorem valid_of_interruptBefore {u : Pipe} {w : Option Wait} (h : PipeInv hasFpu u w)
    (hi : Issued hasFpu u j) (hint : interruptBefore hasFpu u.st j = true) :
    (step hasFpu u.st j).ex1.e.valid = false := by
  have hvalid : validIn u.st j = true := by
    simp only [interruptBefore, Bool.and_eq_true] at hint
    exact hint.1.1
  have hbusy : busyOut u.st j = false := by
    simp only [validIn, Bool.and_eq_true, Bool.not_eq_true', Bool.or_eq_false_iff] at hvalid
    exact hvalid.2.1.1.1
  have hgo : go hasFpu u.st j = false := by simp [go, hint]
  obtain ⟨hm, hmf, hd, hs, hp⟩ := h.waits
  rw [wait_eq_none h hi hvalid] at hm hmf hd hs hp
  simp only [RegStage1.control] at hm hmf hd hs hp
  have hwaited : (waited hasFpu u.st j).valid = false := by
    simp [waited, hm, hmf, hd, hs, hp, hgo, hbusy]
  have hctrl : (step hasFpu u.st j).ex1.e.valid = _ :=
    congrArg Control.valid (control_step hasFpu u.st j)
  rw [hctrl]
  split_ifs
  · rfl
  · exact hwaited

end Preempted

/-- execute1, and whether the cycle before was flushed. -/
structure CorePipe where
  core : Core
  flushed : Bool

variable (hasFpu) in
def CorePipe.step (x : CorePipe) (i : CoreInput) : CorePipe where
  core := x.core.step hasFpu i
  flushed := i.flushIn

/-- decode2 sends no instruction in the cycle after a flush. -/
def Fed (x : CorePipe) (i : CoreInput) : Prop :=
  x.flushed = true → i.eIn.valid = false

instance (x : CorePipe) (i : CoreInput) : Decidable (Fed x i) :=
  inferInstanceAs (Decidable (_ → _))

structure CorePipe.AfterReset (x : CorePipe) : Prop where
  st : Execute1.AfterReset x.core.st
  flushed : x.flushed = false

theorem exists_pipeInv_core {x : CorePipe} (hx : x.AfterReset) {is : List CoreInput}
    (hok : Along (CorePipe.step hasFpu) Fed x is) :
    ∃ w, PipeInv hasFpu ⟨(run (CorePipe.step hasFpu) x is).core.st,
      (run (CorePipe.step hasFpu) x is).flushed⟩ w := by
  refine @Along.invariant _ _ _ _ (fun x : CorePipe => ∃ w, PipeInv hasFpu ⟨x.core.st, x.flushed⟩ w)
    ?_ _ _ hok ⟨none, ?_⟩
  · rintro x i hi ⟨w, hw⟩
    exact ⟨_, @pipeInv_step hasFpu ⟨x.core.st, x.flushed⟩ (stageInput hasFpu x.core i) w
      ⟨hi, fun hfpu => start_ne_div hfpu⟩ hw⟩
  · have := @pipeInv_init hasFpu _ hx.st
    rwa [hx.flushed]

/-- After an interrupt has been taken instead of an instruction, the instruction leaves no trace
in the cycles after if and only if it would not have set HEIR or FSCR[IC]. -/
theorem traceless_after_interrupt {u : Pipe} {w : Option Wait} (hu : u.st = c.st)
    (h : PipeInv hasFpu u w) (hi : Issued hasFpu u (stageInput hasFpu c i))
    (hint : interruptBefore hasFpu c.st (stageInput hasFpu c i) = true) :
    (∀ i', Traceless hasFpu (c.step hasFpu i) i') ↔
      (actions hasFpu c i).se.setHeir = false ∧ (actions hasFpu c i).se.writeIc = false := by
  obtain ⟨b, hse⟩ := se_of_interruptBefore hint
  have hse' : (c.step hasFpu i).st.ex1.se = _ := hse
  have hvalid : (c.step hasFpu i).st.ex1.e.valid = false := by
    have := valid_of_interruptBefore h hi (by rw [hu]; exact hint)
    rw [hu] at this
    exact this
  have hdoit (i' : CoreInput) : ramsprDoit (c.step hasFpu i) i' = false := by
    simp [ramsprDoit, hvalid]
  constructor
  · intro ht
    rcases gated_of_traceless (ht (.of .idle)) with hs | ⟨hw, -⟩
    · exact absurd hs (by decide)
    · rw [hse'] at hw
      simp only [SideEffect.writes, SideEffect.init, Bool.or_false, Bool.false_or,
        Bool.or_eq_false_iff] at hw
      exact ⟨hw.2, hw.1⟩
  · rintro ⟨hheir, hic⟩ i'
    refine traceless_of_gated (hdoit i') (Or.inr ⟨?_, ?_, ?_⟩)
    · rw [hse']
      exact (by simp [SideEffect.writes, SideEffect.init, stageInput, hheir, hic])
    · rw [hse']
      simp [SideEffect.init]
    · rw [hse']
      simp [SideEffect.init]

/-- In every state reached from reset: a flushed instruction leaves no trace if and only if its
side effects are gated by the stall of the second stage or it has none; and an instruction that
an interrupt is taken instead of leaves no trace if and only if it is not one that would have set
HEIR or FSCR[IC]. -/
theorem leaves_trace_iff {hasFpu : Bool} {x : CorePipe} (hx : x.AfterReset) {is : List CoreInput}
    (hok : Along (CorePipe.step hasFpu) Fed x is) {i : CoreInput}
    (hi : Fed (run (CorePipe.step hasFpu) x is) i) :
    (i.flushIn = true →
        (Traceless hasFpu (run (CorePipe.step hasFpu) x is).core i ↔
          Gated (run (CorePipe.step hasFpu) x is).core i)) ∧
      (interruptBefore hasFpu (run (CorePipe.step hasFpu) x is).core.st
          (stageInput hasFpu (run (CorePipe.step hasFpu) x is).core i) = true →
        ((∀ i', Traceless hasFpu ((run (CorePipe.step hasFpu) x is).core.step hasFpu i) i') ↔
          (actions hasFpu (run (CorePipe.step hasFpu) x is).core i).se.setHeir = false ∧
            (actions hasFpu (run (CorePipe.step hasFpu) x is).core i).se.writeIc = false)) := by
  refine ⟨fun hf => traceless_iff (ramsprDoit_of_flush hf), fun hint => ?_⟩
  obtain ⟨w, hw⟩ := exists_pipeInv_core hx hok
  exact traceless_after_interrupt rfl hw ⟨hi, fun hfpu => start_ne_div hfpu⟩ hint

/-! ## Runs -/

def CorePipe.cold : CorePipe := ⟨.cold, false⟩

theorem CorePipe.afterReset_cold : CorePipe.cold.AfterReset := ⟨Execute1.afterReset_cold, rfl⟩

/-- A branch that is predicted taken, at address 0x100. -/
def branch : Decoded :=
  { Decoded.idle with valid := true, op := .b, brPred := true, nia := 0x100 }

/-- An interrupt from loadstore1, in a cycle without a stall. -/
def loadInterrupt : CoreInput :=
  { CoreInput.of .idle with flushIn := true, interruptIn := ⟨true, false, false, false, 0⟩ }

/-- `mtmsrd` that turns single-stepping on. -/
def singleStep : Decoded :=
  { Decoded.idle with
    valid := true, op := .mtmsrd, privileged := true
    readData3 := BitVec.twoPow 64 msrSE ||| resetMsr }

def nop : Decoded :=
  { Decoded.idle with valid := true, op := .nop }

/-- An illegal instruction. -/
def illegalInsn : Decoded :=
  { Decoded.idle with valid := true, insn := 0x12345678 }

/-- A branch behind a load that faults sets CFAR although it is flushed, and an illegal
instruction before which a trace interrupt is taken sets HEIR. -/
theorem leaves_trace_branch_illegal :
    ¬ Traceless false (run (CorePipe.step false) .cold [.of branch]).core loadInterrupt ∧
      ((run (CorePipe.step false) .cold [.of branch]).core.step false loadInterrupt).ctrl.cfar =
        0x100 ∧
      interruptBefore false (run (CorePipe.step false) .cold [.of singleStep, .of nop]).core.st
        (stageInput false (run (CorePipe.step false) .cold [.of singleStep, .of nop]).core
          (.of illegalInsn)) = true ∧
      (run (CorePipe.step false) .cold
        [.of singleStep, .of nop, .of illegalInsn, .of .idle]).core.ctrl.heir = 0x12345678 :=
  ⟨fun h => absurd (gated_of_traceless h) (by decide +kernel), by decide +kernel,
    by decide +kernel, by decide +kernel⟩

/-- A flushed instruction without side effects, as the theorem has it. -/
theorem leaves_trace_iff_nop :
    Traceless false (run (CorePipe.step false) .cold [.of nop]).core loadInterrupt :=
  ((@leaves_trace_iff false _ CorePipe.afterReset_cold [.of nop] (by decide +kernel) loadInterrupt
    (by decide +kernel)).1 rfl).mpr (by decide +kernel)

end Microwatt.Execute1
