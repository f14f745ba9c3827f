import Microwatt.Execute1.Stage1
import Microwatt.Lib.Run

/-!
# Flushes and the multi-cycle units

When an instruction is flushed while one of the multi-cycle units works on it, the
stage should go on as if the units were idle.  `forget` says what that is: nothing in
the multiplier, the divider and the bit sorter, and no in-progress flag.  The flush
clears the flags for the multiplier and the divider, and what is left of a multiply in
the pipeline comes out before the next instruction can be waiting for one.  The flags
for bit sorting and bit permutation are not cleared, so those operations go on.

The stage never sees an instruction in the cycle after a flush, because the flush
clears the register that decode2 sends it from (`Issued`).
-/

namespace Microwatt.Execute1

variable {hasFpu : Bool}

/-! ## The stage after decode2 -/

/-- The stage, and whether the cycle before was flushed. -/
structure Pipe where
  st : State
  flushed : Bool

namespace Pipe

def init (s : State) : Pipe where
  st := s
  flushed := false

def step (hasFpu : Bool) (t : Pipe) (i : Input) : Pipe where
  st := Execute1.step hasFpu t.st i
  flushed := i.flushIn

end Pipe

/-- What comes from decode2: no instruction right after a flush, and none for the
divider of a core that divides in the FPU. -/
def Issued (hasFpu : Bool) (t : Pipe) (i : Input) : Prop :=
  (t.flushed = true → i.eIn.valid = false) ∧ (hasFpu = true → i.actions.start ≠ .div)

instance (t : Pipe) (i : Input) : Decidable (Issued hasFpu t i) :=
  inferInstanceAs (Decidable ((_ → _) ∧ (_ → _)))

/-- The state with the units idle and nothing in progress. -/
def State.forget (s : State) : State where
  ex1 :=
    { s.ex1 with
      mulInProgress := false, mulFinish := false, divInProgress := false
      bsortInProgress := false, bpermInProgress := false }
  multiply := s.multiply.forget
  divider := s.divider.forget
  bitsort := s.bitsort.forget

def Pipe.forget (t : Pipe) : Pipe :=
  { t with st := t.st.forget }

/-- After the flush in this cycle the operation in progress leaves no trace: the
registers of the stage go through the same values as with idle units, and as long as
there is no new instruction nothing is valid and the stage is not busy. -/
def LeavesNoTrace (hasFpu : Bool) (t : Pipe) (i : Input) : Prop :=
  ∀ is, Clocked.Along (Pipe.step hasFpu) (Issued hasFpu) (t.step hasFpu i) is →
    (Clocked.run (Pipe.step hasFpu) (t.step hasFpu i) is).st.ex1 =
        (Clocked.run (Pipe.step hasFpu) (t.step hasFpu i).forget is).st.ex1 ∧
      ((∀ i ∈ is, i.eIn.valid = false) →
        (Clocked.run (Pipe.step hasFpu) (t.step hasFpu i) is).st.ex1.e.valid = false ∧
          (Clocked.run (Pipe.step hasFpu) (t.step hasFpu i) is).st.ex1.busy = false)

/-- The state after reset. -/
structure AfterReset (s : State) : Prop where
  busy : s.ex1.busy = false
  mul : s.ex1.mulInProgress = false
  mulFinish : s.ex1.mulFinish = false
  div : s.ex1.divInProgress = false
  bsort : s.ex1.bsortInProgress = false
  bperm : s.ex1.bpermInProgress = false
  st : s.bitsort.st = false
  sd : s.bitsort.sd = false
  isBperm : s.bitsort.isBperm = false
  bpDone : s.bitsort.bpDone = false

/-! ## The control bits

What the units and the flush do to the flags can be followed on a few bits of the
stage register. -/

structure Control where
  mul : Bool
  mulFinish : Bool
  div : Bool
  bsort : Bool
  bperm : Bool
  busy : Bool
  valid : Bool

def RegStage1.control (r : RegStage1) : Control where
  mul := r.mulInProgress
  mulFinish := r.mulFinish
  div := r.divInProgress
  bsort := r.bsortInProgress
  bperm := r.bpermInProgress
  busy := r.busy
  valid := r.e.valid

section Control

variable (hasFpu) (s : State) (i : Input) (v : RegStage1)

theorem control_latch : (interrupts hasFpu s i (latch hasFpu s i v)).control =
    { v.control with busy := false, valid := busyOut s i && v.control.valid } := by
  have hlatch : (latch hasFpu s i v).control =
      { v.control with busy := false, valid := busyOut s i && v.control.valid } := by
    unfold latch
    by_cases hb : busyOut s i = true <;> by_cases hv : validIn s i = true <;>
      simp [hb, hv, RegStage1.control]
  rw [← hlatch]
  exact interrupts_keeps hasFpu s i RegStage1.control _ (by intros; rfl)

theorem control_dispatch : (dispatch hasFpu s i v).control =
    if go hasFpu s i then
      { v.control with
        mul := i.actions.start == .mul
        div := i.actions.start == .div
        bsort := i.actions.start == .bsort
        bperm := i.actions.start == .bperm
        busy := i.actions.start != .none
        valid := i.actions.complete }
    else v.control := by
  unfold dispatch
  split_ifs <;> rfl

theorem control_flush : (flush i (raise hasFpu s i (forwardXer v))).control =
    if i.flushIn then
      { v.control with
        mul := false, mulFinish := false, div := false, busy := false, valid := false }
    else v.control := by
  have hraise : (raise hasFpu s i (forwardXer v)).control = v.control :=
    (raise_keeps hasFpu s i RegStage1.control _ (by intros; rfl)).trans
      (forwardXer_keeps RegStage1.control v (by intros; rfl))
  rw [← hraise]
  generalize raise hasFpu s i (forwardXer v) = u
  unfold flush
  by_cases hf : i.flushIn = true <;> by_cases hi : i.interruptIn = true <;>
    simp [hf, hi, RegStage1.control]

/-- The control bits after the start section and the waits, for one operation in
progress at most. -/
def waited : Control :=
  let c : Control :=
    if go hasFpu s i then
      ⟨i.actions.start == .mul, s.ex1.mulFinish, i.actions.start == .div,
        i.actions.start == .bsort, i.actions.start == .bperm, i.actions.start != .none,
        i.actions.complete⟩
    else { s.ex1.control with busy := false, valid := busyOut s i && s.ex1.e.valid }
  let c := if !hasFpu && s.ex1.divInProgress then
      { c with div := !s.divider.dOut.valid, busy := !s.divider.dOut.valid
               valid := s.divider.dOut.valid }
    else c
  let c := if s.ex1.mulInProgress then
      { c with
        mul := !s.multiply.out.valid
        mulFinish := s.multiply.out.valid && s.ex1.oe
        valid := s.multiply.out.valid && !s.ex1.oe
        busy := !(s.multiply.out.valid && !s.ex1.oe) }
    else c
  let c := if s.ex1.mulFinish then { c with mulFinish := false, valid := true } else c
  let c := if s.ex1.bsortInProgress then
      { c with bsort := !s.bitsort.sd, valid := s.bitsort.sd, busy := !s.bitsort.sd }
    else c
  if s.ex1.bpermInProgress then
    { c with bperm := !s.bitsort.bpDone, valid := s.bitsort.bpDone, busy := !s.bitsort.bpDone }
  else c

theorem control_waited : (waitBits hasFpu s i (waitMul hasFpu s i (waitDiv hasFpu s i
    (dispatch hasFpu s i (interrupts hasFpu s i (latch hasFpu s i s.ex1)))))).control =
      waited hasFpu s i := by
  have hstart : (dispatch hasFpu s i (interrupts hasFpu s i (latch hasFpu s i s.ex1))).control =
      if go hasFpu s i then
        ⟨i.actions.start == .mul, s.ex1.mulFinish, i.actions.start == .div,
          i.actions.start == .bsort, i.actions.start == .bperm, i.actions.start != .none,
          i.actions.complete⟩
      else { s.ex1.control with busy := false, valid := busyOut s i && s.ex1.e.valid } := by
    rw [control_dispatch, control_latch]
    rfl
  unfold waited
  rw [← hstart]
  generalize dispatch hasFpu s i (interrupts hasFpu s i (latch hasFpu s i s.ex1)) = u
  unfold waitBits waitMul waitDiv
  split_ifs <;> rfl

theorem control_step : (step hasFpu s i).ex1.control =
    if i.flushIn then
      { waited hasFpu s i with
        mul := false, mulFinish := false, div := false, busy := false, valid := false }
    else waited hasFpu s i := by
  rw [← control_waited]
  exact control_flush hasFpu s i _

end Control

/-! ## What is in progress -/

/-- What the stage waits for. -/
inductive Wait where
  | mul
  | mulFinish
  | div
  | bsort
  | bperm
deriving DecidableEq

/-- The in-progress flags are those of `w`. -/
def Control.Waits (c : Control) (w : Option Wait) : Prop :=
  c.mul = (w == some .mul) ∧ c.mulFinish = (w == some .mulFinish) ∧
    c.div = (w == some .div) ∧ c.bsort = (w == some .bsort) ∧ c.bperm = (w == some .bperm)

/-- The bit sorter works on what the stage waits for. -/
structure Sorting (u : Bitsort) (w : Option Wait) : Prop where
  st : u.st = (w == some .bsort && !u.sd)
  sd : u.sd = true → w = some .bsort
  isBperm : u.isBperm = (w == some .bperm)
  bpDone : u.bpDone = true → w = some .bperm

structure PipeInv (hasFpu : Bool) (t : Pipe) (w : Option Wait) : Prop where
  waits : t.st.ex1.control.Waits w
  sorting : Sorting t.st.bitsort w
  busy : w ≠ none → t.flushed = false → t.st.ex1.busy = true
  noDiv : hasFpu = true → w ≠ some .div

section Step

variable {t : Pipe} {i : Input} {w : Option Wait}

/-- Nothing is started while the stage waits for something. -/
theorem go_eq_false (h : PipeInv hasFpu t w) (hi : Issued hasFpu t i) (hw : w ≠ none) :
    go hasFpu t.st i = false := by
  have hvalid : validIn t.st i = false := by
    unfold validIn busyOut
    cases hf : t.flushed with
    | true => simp [hi.1 hf]
    | false => simp [h.busy hw hf]
  simp [go, hvalid]

theorem not_flush_of_go (hgo : go hasFpu t.st i = true) : i.flushIn = false := by
  simp only [go, validIn, Bool.and_eq_true, Bool.not_eq_true', Bool.or_eq_false_iff] at hgo
  exact hgo.1.2.1.1.2

/-- What the stage waits for after the edge. -/
def nextWait (hasFpu : Bool) (s : State) (i : Input) (w : Option Wait) : Option Wait :=
  match w with
  | none =>
      if go hasFpu s i then
        match i.actions.start with
        | .none => none
        | .mul => some .mul
        | .div => some .div
        | .bsort => some .bsort
        | .bperm => some .bperm
      else none
  | some .mul =>
      if i.flushIn then none
      else if !s.multiply.out.valid then some .mul
      else if s.ex1.oe then some .mulFinish
      else none
  | some .mulFinish => none
  | some .div => if i.flushIn || s.divider.dOut.valid then none else some .div
  -- a flush does not stop these
  | some .bsort => if s.bitsort.sd then none else some .bsort
  | some .bperm => if s.bitsort.bpDone then none else some .bperm

theorem waits_step (h : PipeInv hasFpu t w) (hi : Issued hasFpu t i) :
    (step hasFpu t.st i).ex1.control.Waits (nextWait hasFpu t.st i w) ∧
      (nextWait hasFpu t.st i w ≠ none → i.flushIn = false →
        (step hasFpu t.st i).ex1.busy = true) := by
  have hbusy : (step hasFpu t.st i).ex1.busy = (step hasFpu t.st i).ex1.control.busy := rfl
  obtain ⟨hm, hmf, hd, hs, hp⟩ := h.waits
  simp only [RegStage1.control] at hm hmf hd hs hp
  rw [hbusy, control_step]
  cases w with
  | none =>
      by_cases hgo : go hasFpu t.st i = true
      · rw [not_flush_of_go hgo]
        unfold nextWait waited
        cases i.actions.start <;> simp [hm, hmf, hd, hs, hp, hgo, Control.Waits]
      · by_cases hf : i.flushIn = true <;>
          simp [nextWait, waited, hm, hmf, hd, hs, hp, hgo, hf, Control.Waits, RegStage1.control]
  | some wait =>
      have hgo := go_eq_false h hi (by simp)
      unfold nextWait waited
      cases wait with
      | mul =>
          by_cases hf : i.flushIn = true <;> by_cases hv : t.st.multiply.out.valid = true <;>
            by_cases ho : t.st.ex1.oe = true <;>
            simp [hm, hmf, hd, hs, hp, hgo, hf, hv, ho, Control.Waits, RegStage1.control]
      | mulFinish =>
          by_cases hf : i.flushIn = true <;>
            simp [hm, hmf, hd, hs, hp, hgo, hf, Control.Waits, RegStage1.control]
      | div =>
          have hfpu : hasFpu = false := by
            by_contra hfpu
            exact h.noDiv (by simpa using hfpu) rfl
          subst hfpu
          by_cases hf : i.flushIn = true <;> by_cases hv : t.st.divider.dOut.valid = true <;>
            simp [hm, hmf, hd, hs, hp, hgo, hf, hv, Control.Waits, RegStage1.control]
      | bsort =>
          by_cases hf : i.flushIn = true <;> by_cases hv : t.st.bitsort.sd = true <;>
            simp [hm, hmf, hd, hs, hp, hgo, hf, hv, Control.Waits, RegStage1.control]
      | bperm =>
          by_cases hf : i.flushIn = true <;> by_cases hv : t.st.bitsort.bpDone = true <;>
            simp [hm, hmf, hd, hs, hp, hgo, hf, hv, Control.Waits, RegStage1.control]

/-- The bit sorter is started and finishes with the stage, flush or not. -/
theorem sorting_step (h : PipeInv hasFpu t w) (hi : Issued hasFpu t i) :
    Sorting (step hasFpu t.st i).bitsort (nextWait hasFpu t.st i w) := by
  obtain ⟨hst, hsd, hbp, hdone⟩ := h.sorting
  show Sorting (t.st.bitsort.step _) _
  cases w with
  | none =>
      have hsd' : t.st.bitsort.sd = false := by simpa using hsd
      have hdone' : t.st.bitsort.bpDone = false := by simpa using hdone
      unfold nextWait
      by_cases hgo : go hasFpu t.st i = true
      · cases hop : i.actions.start <;> constructor <;>
          simp [Bitsort.step, Bitsort.sort, Bitsort.permute, starts, hgo, hop, hst, hsd', hbp,
            hdone']
      · constructor <;>
          simp [Bitsort.step, Bitsort.sort, Bitsort.permute, starts, hgo, hst, hsd', hbp, hdone']
  | some wait =>
      have hgo := go_eq_false h hi (by simp)
      unfold nextWait
      cases wait with
      | bsort =>
          have hdone' : t.st.bitsort.bpDone = false := by simpa using hdone
          by_cases hv : t.st.bitsort.sd = true
          · constructor <;>
              simp [Bitsort.step, Bitsort.sort, Bitsort.permute, starts, hgo, hst, hv, hbp, hdone']
          · constructor <;>
              simp [Bitsort.step, Bitsort.sort, Bitsort.permute, Bitsort.advance, starts, hgo, hst,
                hv, hbp, hdone', bne]
      | bperm =>
          have hsd' : t.st.bitsort.sd = false := by simpa using hsd
          by_cases hv : t.st.bitsort.bpDone = true
          · constructor <;>
              simp [Bitsort.step, Bitsort.sort, Bitsort.permute, starts, hgo, hst, hv, hbp, hsd']
          · constructor <;>
              simp [Bitsort.step, Bitsort.sort, Bitsort.permute, starts, hgo, hst, hv, hbp, hsd']
      | _ =>
          have hsd' : t.st.bitsort.sd = false := by simpa using hsd
          have hdone' : t.st.bitsort.bpDone = false := by simpa using hdone
          constructor <;>
            simp [Bitsort.step, Bitsort.sort, Bitsort.permute, starts, hgo, hst, hsd', hbp,
              hdone'] <;>
            (try split_ifs) <;> simp

theorem pipeInv_step (hi : Issued hasFpu t i) (h : PipeInv hasFpu t w) :
    PipeInv hasFpu (t.step hasFpu i) (nextWait hasFpu t.st i w) where
  waits := (waits_step h hi).1
  sorting := sorting_step h hi
  busy := (waits_step h hi).2
  noDiv := by
    intro hfpu
    have hold := h.noDiv hfpu
    have hstart := hi.2 hfpu
    unfold nextWait
    cases w with
    | none => cases hop : i.actions.start <;> simp_all
    | some wait =>
        cases wait <;> simp_all
        all_goals split_ifs <;> simp

theorem pipeInv_init {s : State} (hs : AfterReset s) : PipeInv hasFpu (.init s) none where
  waits := ⟨hs.mul, hs.mulFinish, hs.div, hs.bsort, hs.bperm⟩
  sorting :=
    ⟨by simp [Pipe.init, hs.st], by simp [Pipe.init, hs.sd],
      by simp [Pipe.init, hs.isBperm], by simp [Pipe.init, hs.bpDone]⟩
  busy := by simp
  noDiv := by simp

theorem exists_pipeInv {s : State} (hs : AfterReset s) {is : List Input}
    (hok : Clocked.Along (Pipe.step hasFpu) (Issued hasFpu) (.init s) is) :
    ∃ w, PipeInv hasFpu (Clocked.run (Pipe.step hasFpu) (.init s) is) w :=
  @Clocked.Along.invariant _ _ _ _ (fun t => ∃ w, PipeInv hasFpu t w)
    (fun _ _ hi ⟨_, h⟩ => ⟨_, pipeInv_step hi h⟩) _ _ hok ⟨none, pipeInv_init hs⟩

end Step

/-! ## After the flush -/

section Stale

variable {s : State} {i : Input}

/-- The same state but for what the multiplier and the divider report as valid. -/
def State.reports (s : State) (stage0 stage1 div : Bool) : State :=
  { s with
    multiply := { s.multiply with stage0.valid := stage0, stage1.valid := stage1 }
    divider := { s.divider with dOut.valid := div } }

/-- Neither the multiplier nor the divider is waited for. -/
def Idle (s : State) : Prop :=
  s.ex1.mulInProgress = false ∧ s.ex1.mulFinish = false ∧ s.ex1.divInProgress = false

theorem ex1in_reports (h : Idle s) (b0 b1 d : Bool) :
    ex1in hasFpu (s.reports b0 b1 d) i = ex1in hasFpu s i := by
  obtain ⟨hmul, hfin, hdiv⟩ := h
  -- with nothing in progress the waits do not look at the reports
  have hwait : ∀ v, waitMul hasFpu (s.reports b0 b1 d) i (waitDiv hasFpu (s.reports b0 b1 d) i v) =
      waitMul hasFpu s i (waitDiv hasFpu s i v) := fun v => by
    simp [waitMul, waitDiv, State.reports, hmul, hfin, hdiv]
  unfold ex1in
  rw [hwait]
  rfl

/-- After an edge at most the last stage of the multiplier is stale. -/
theorem step_reports (h : Idle s) (b0 b1 d : Bool) :
    step hasFpu (s.reports b0 b1 d) i =
      { step hasFpu s i with
        multiply := { (step hasFpu s i).multiply with stage1.valid := b0 } } := by
  have hdiv : ∀ dIn, (s.reports b0 b1 d).divider.step dIn = s.divider.step dIn :=
    fun dIn => Divider.step_dOut _ _ dIn
  unfold step
  rw [ex1in_reports h, hdiv]
  rfl

/-- The waits start neither the multiplier nor the divider. -/
theorem waited_idle (h : Idle s) (hgo : go hasFpu s i = false) :
    (waited hasFpu s i).mul = false ∧ (waited hasFpu s i).mulFinish = false ∧
      (waited hasFpu s i).div = false := by
  obtain ⟨hmul, hfin, hdiv⟩ := h
  have hc : s.ex1.control.mul = false ∧ s.ex1.control.mulFinish = false ∧
      s.ex1.control.div = false := ⟨hmul, hfin, hdiv⟩
  simp only [waited, hgo, hmul, hfin, hdiv, Bool.and_false, Bool.false_eq_true, if_false]
  split_ifs <;> exact hc

theorem idle_step (h : Idle s) (hvalid : i.eIn.valid = false) : Idle (step hasFpu s i) := by
  have hgo : go hasFpu s i = false := by simp [go, validIn, hvalid]
  show (step hasFpu s i).ex1.control.mul = false ∧ (step hasFpu s i).ex1.control.mulFinish = false ∧
    (step hasFpu s i).ex1.control.div = false
  rw [control_step]
  split_ifs
  · exact ⟨rfl, rfl, rfl⟩
  · exact waited_idle h hgo

/-- With no instruction in the first cycle, the stale reports are gone after two
edges. -/
theorem step_step_reports (h : Idle s) (hvalid : i.eIn.valid = false) (i' : Input)
    (b0 b1 d : Bool) :
    step hasFpu (step hasFpu (s.reports b0 b1 d) i) i' = step hasFpu (step hasFpu s i) i' := by
  rw [step_reports h]
  have hlast : ({ step hasFpu s i with
      multiply := { (step hasFpu s i).multiply with stage1.valid := b0 } } : State) =
      (step hasFpu s i).reports (step hasFpu s i).multiply.stage0.valid b0
        (step hasFpu s i).divider.dOut.valid := rfl
  rw [hlast, step_reports (idle_step h hvalid)]
  rfl

end Stale

section Gone

variable {t : Pipe} {i : Input} {w : Option Wait}

/-- The bit sorter is done with the operation that it works on, if any. -/
def BitsDone (s : State) : Prop :=
  (s.ex1.bsortInProgress = true → s.bitsort.sd = true) ∧
    (s.ex1.bpermInProgress = true → s.bitsort.bpDone = true)

instance (s : State) : Decidable (BitsDone s) :=
  inferInstanceAs (Decidable ((_ → _) ∧ (_ → _)))

theorem nextWait_of_flush (h : PipeInv hasFpu t w) (hflush : i.flushIn = true) :
    nextWait hasFpu t.st i w = none ↔ BitsDone t.st := by
  have hgo : go hasFpu t.st i = false := by
    by_contra hgo
    simp [not_flush_of_go (by simpa using hgo)] at hflush
  obtain ⟨-, -, -, hs, hp⟩ := h.waits
  simp only [RegStage1.control] at hs hp
  unfold nextWait BitsDone
  cases w with
  | none => simp [hgo, hs, hp]
  | some wait => cases wait <;> simp [hflush, hs, hp]

/-- With nothing in progress only the reports of the multiplier and the divider are
left to forget. -/
theorem forget_eq_reports {u : State} (hwaits : u.ex1.control.Waits none)
    (hsort : Sorting u.bitsort none) (hm : u.multiply.m.valid = false)
    (hd : u.divider.running = false ∧ u.divider.count = 0) :
    u.forget = u.reports false false false := by
  obtain ⟨r, m, d, b⟩ := u
  simp only [State.forget, State.reports, State.mk.injEq]
  refine ⟨?_, ?_, ?_, ?_⟩
  · obtain ⟨hmul, hfin, hdiv, hs, hp⟩ := hwaits
    cases r
    simp_all [RegStage1.control]
  · obtain ⟨⟨valid, _, _, _, _, _⟩, _, _, _⟩ := m
    change valid = false at hm
    simp [Multiply.forget, hm]
  · cases d
    simp_all [Divider.forget]
  · obtain ⟨hst, hsd, hbp, hdone⟩ := hsort
    cases b
    simp_all [Bitsort.forget]

/-- After a flush that leaves nothing in progress, the units are idle but for stale
reports. -/
theorem forget_of_flush (h : PipeInv hasFpu (t.step hasFpu i) none) (hflush : i.flushIn = true) :
    (step hasFpu t.st i).forget = (step hasFpu t.st i).reports false false false := by
  have hgo : go hasFpu t.st i = false := by
    by_contra hgo
    simp [not_flush_of_go (by simpa using hgo)] at hflush
  refine forget_eq_reports h.waits h.sorting ?_ ?_
  · simp [step, Multiply.step, starts, hgo]
  · simp [step, Divider.step, Divider.divide, hflush]

/-- Nothing in progress, nothing valid. -/
structure AtRest (hasFpu : Bool) (t : Pipe) : Prop where
  inv : PipeInv hasFpu t none
  valid : t.st.ex1.e.valid = false
  busy : t.st.ex1.busy = false

theorem atRest_step (h : AtRest hasFpu t) (hi : Issued hasFpu t i) (hv : i.eIn.valid = false) :
    AtRest hasFpu (t.step hasFpu i) := by
  have hgo : go hasFpu t.st i = false := by simp [go, validIn, hv]
  have hc := control_step hasFpu t.st i
  obtain ⟨hmul, hfin, hdiv, hs, hp⟩ := h.inv.waits
  simp only [RegStage1.control, Option.none_beq_some] at hmul hfin hdiv hs hp
  have hw : waited hasFpu t.st i = { t.st.ex1.control with busy := false, valid := false } := by
    simp [waited, hgo, hmul, hfin, hdiv, hs, hp, h.valid, RegStage1.control]
  rw [hw] at hc
  refine ⟨?_, ?_, ?_⟩
  · have hinv := pipeInv_step hi h.inv
    simpa [nextWait, hgo] using hinv
  · have hvalid := congrArg Control.valid hc
    split_ifs at hvalid <;> exact hvalid
  · have hbusy := congrArg Control.busy hc
    split_ifs at hbusy <;> exact hbusy

theorem atRest_of_flush (h : PipeInv hasFpu (t.step hasFpu i) none) (hflush : i.flushIn = true) :
    AtRest hasFpu (t.step hasFpu i) := by
  have hc := control_step hasFpu t.st i
  rw [if_pos hflush] at hc
  exact ⟨h, congrArg Control.valid hc, congrArg Control.busy hc⟩

theorem atRest_run (h : AtRest hasFpu t) (is : List Input)
    (hok : Clocked.Along (Pipe.step hasFpu) (Issued hasFpu) t is)
    (hv : ∀ i ∈ is, i.eIn.valid = false) :
    AtRest hasFpu (Clocked.run (Pipe.step hasFpu) t is) := by
  induction is generalizing t with
  | nil => exact h
  | cons i is ih =>
      have hstep := atRest_step h hok.1 (hv i (by simp))
      exact ih hstep hok.2 fun i hi => hv i (by simp [hi])

theorem leavesNoTrace_of_bitsDone (h : PipeInv hasFpu t w) (hi : Issued hasFpu t i)
    (hflush : i.flushIn = true) (hdone : BitsDone t.st) : LeavesNoTrace hasFpu t i := by
  have hinv : PipeInv hasFpu (t.step hasFpu i) none := by
    have hinv := pipeInv_step hi h
    rwa [(nextWait_of_flush h hflush).2 hdone] at hinv
  have hidle : Idle (step hasFpu t.st i) := by
    obtain ⟨hmul, hfin, hdiv, -⟩ := hinv.waits
    exact ⟨hmul, hfin, hdiv⟩
  have hforget : (t.step hasFpu i).forget =
      ⟨(step hasFpu t.st i).reports false false false, i.flushIn⟩ := by
    rw [← forget_of_flush hinv hflush]
    rfl
  intro is hok
  refine ⟨?_, fun hv => ?_⟩
  · rw [hforget]
    match is, hok with
    | [], _ => rfl
    | [i1], _ => exact (congrArg State.ex1 (step_reports hidle false false false)).symm
    | i1 :: i2 :: rest, hok =>
        -- no instruction comes right after the flush
        have hv : i1.eIn.valid = false := hok.1.1 hflush
        have heq : Pipe.step hasFpu (Pipe.step hasFpu
            ⟨(step hasFpu t.st i).reports false false false, i.flushIn⟩ i1) i2 =
            Pipe.step hasFpu (Pipe.step hasFpu (t.step hasFpu i) i1) i2 := by
          simp only [Pipe.step, step_step_reports hidle hv]
        simp only [Clocked.run_cons, heq]
  · have hrest := atRest_run (atRest_of_flush hinv hflush) is hok hv
    exact ⟨hrest.valid, hrest.busy⟩

/-- A bit sort or a bit permutation that the flush finds unfinished shows in the next
cycle: the stage is busy, or something is valid. -/
theorem bitsDone_of_leavesNoTrace (h : PipeInv hasFpu t w) (hi : Issued hasFpu t i)
    (hflush : i.flushIn = true) (hgone : LeavesNoTrace hasFpu t i) : BitsDone t.st := by
  rw [← nextWait_of_flush h hflush]
  have hinv := pipeInv_step hi h
  generalize nextWait hasFpu t.st i w = w' at hinv ⊢
  obtain ⟨-, hquiet⟩ :=
    hgone [.idle] ⟨⟨fun _ => rfl, fun _ => by simp [Input.idle, Actions.init]⟩, trivial⟩
  obtain ⟨hvalid, hbusy⟩ := hquiet (by simp [Input.idle])
  have hc := control_step hasFpu (step hasFpu t.st i) .idle
  have hgo : go hasFpu (step hasFpu t.st i) .idle = false := by simp [go, validIn, Input.idle]
  have hvalid' := (congrArg Control.valid hc).symm.trans hvalid
  have hbusy' := (congrArg Control.busy hc).symm.trans hbusy
  obtain ⟨hmul, hfin, hdiv, hs, hp⟩ := hinv.waits
  change (step hasFpu t.st i).ex1.mulInProgress = _ at hmul
  change (step hasFpu t.st i).ex1.mulFinish = _ at hfin
  change (step hasFpu t.st i).ex1.divInProgress = _ at hdiv
  change (step hasFpu t.st i).ex1.bsortInProgress = _ at hs
  change (step hasFpu t.st i).ex1.bpermInProgress = _ at hp
  have hflush' : Input.idle.flushIn = false := rfl
  simp only [waited, hgo, hmul, hfin, hdiv, hs, hp, hflush'] at hvalid' hbusy'
  cases w' with
  | none => rfl
  | some wait =>
      exfalso
      cases wait with
      | div =>
          have hfpu : hasFpu = false := by
            by_contra hfpu
            exact hinv.noDiv (by simpa using hfpu) rfl
          simp_all
      | _ => simp_all

end Gone

/-! ## Every flush -/

/-- In every state that the stage reaches from reset, a flush leaves no trace of what
was in progress if and only if the bit sorter is just done with its operation or has
none. -/
theorem leavesNoTrace_iff {s : State} (hs : AfterReset s) (is : List Input)
    (hok : Clocked.Along (Pipe.step hasFpu) (Issued hasFpu) (.init s) is) (i : Input)
    (hi : Issued hasFpu (Clocked.run (Pipe.step hasFpu) (.init s) is) i)
    (hflush : i.flushIn = true) :
    LeavesNoTrace hasFpu (Clocked.run (Pipe.step hasFpu) (.init s) is) i ↔
      BitsDone (Clocked.run (Pipe.step hasFpu) (.init s) is).st := by
  obtain ⟨w, hinv⟩ := exists_pipeInv hs hok
  exact ⟨bitsDone_of_leavesNoTrace hinv hi hflush, leavesNoTrace_of_bitsDone hinv hi hflush⟩

theorem afterReset_cold : AfterReset .cold := by
  constructor <;> rfl

/-- A multiply is flushed in its first cycle. -/
theorem leavesNoTrace_iff_multiply :
    (Clocked.run (Pipe.step true) (.init .cold) [.issue .mul]).st.ex1.mulInProgress = true ∧
      LeavesNoTrace true (Clocked.run (Pipe.step true) (.init .cold) [.issue .mul]) .flushed := by
  refine ⟨by decide, ?_⟩
  rw [leavesNoTrace_iff afterReset_cold [.issue .mul] (by decide) .flushed (by decide) rfl]
  decide

/-- A bit sort is flushed in its first cycle: ten cycles later the stage is busy
with it. -/
theorem not_leavesNoTrace_bsort :
    ¬LeavesNoTrace true (Clocked.run (Pipe.step true) (.init .cold) [.issue .bsort]) .flushed := by
  intro h
  obtain ⟨-, hquiet⟩ := h (List.replicate 10 .idle) (by decide)
  exact absurd (hquiet (by decide)).2 (by decide)

end Microwatt.Execute1
