import Microwatt.Mmu.Fields
import Microwatt.Lib.Fair

/-!
# The state machine makes the radix walk

The registers of the walk, state by state, against the recursion of the reference: in
`RADIX_LOOKUP` and `RADIX_READ_WAIT` what is left of the walk is the recursion from
the table at `pgbase`, of `mask_size` index bits, with `shift` address bits below them.
The table entries that the MMU keeps from one walk to the next are those of the tables
in memory.
-/

namespace Microwatt.Mmu

/-- The MMU with the address of the read that it made last. -/
structure Traced where
  st : State
  reading : BitVec 64

def Traced.step (t : Traced) (i : Input) : Traced where
  st := Mmu.step t.st i
  reading := if (dOut t.st).valid then (dOut t.st).addr else t.reading

/-- The dcache answers reads with what memory holds, and without an error. -/
structure Answers (mem : Memory) (t : Traced) (d : DcacheToMmu) : Prop where
  err : d.err = false
  data : d.done = true → d.data = mem t.reading

/-- The data access that a walk in progress is for. -/
def access (s : State) : Access where
  ea := s.addr
  store := s.store
  priv := s.priv

/-- The process table entry for the walk in progress. -/
def rootOf (mem : Memory) (s : State) : BitVec 64 :=
  procEntry mem (partEntry mem s.ptcr) (effpid s)

/-- What the walk in progress should find. -/
def walkOf (mem : Memory) (s : State) : Except Fault (BitVec 64 × Nat) :=
  walk mem s.ptcr s.pid (access s)

theorem walkOf_eq (mem : Memory) (s : State) :
    walkOf mem s = walkRoot mem (access s) (rootOf mem s) := rfl

/-- The causes that are reported for the result of a walk. -/
def causesOf : Except Fault (BitVec 64 × Nat) → Causes
  | .ok _ => .none
  | .error .invalid => { Causes.none with invalid := true }
  | .error .badtree => { Causes.none with badtree := true }
  | .error .segment => { Causes.none with segerror := true }
  | .error .permission => { Causes.none with permErr := true }
  | .error .refChange => { Causes.none with rcError := true }

/-- The registers hold the root of the tree. -/
structure AtRoot (mem : Memory) (s : State) : Prop where
  shift : s.shift = rtsOf (rootOf mem s)
  maskSize : s.maskSize = (mbitsOf (rootOf mem s)).setWidth 5
  pgbase : s.pgbase = baseOf (rootOf mem s)
  size : nextSize (rootOf mem s) ≠ 0

/-- The registers hold a table of the tree from which the rest of a data-side walk
goes on. -/
structure InTree (mem : Memory) (s : State) : Prop where
  lo : 5 ≤ s.maskSize.toNat
  hi : s.maskSize.toNat ≤ 16
  top : s.shift.toNat + s.maskSize.toNat ≤ 50
  rest : s.iside = false → walkOf mem s =
    walkTree mem (access s) s.pgbase.toNat s.maskSize.toNat (s.shift.toNat + s.maskSize.toNat)

/-- The table entries that the MMU keeps. -/
structure TablesOk (mem : Memory) (s : State) : Prop where
  prtbl : s.ptbValid = true → s.prtbl = partEntry mem s.ptcr
  pgtbl0 : s.pt0Valid = true → s.pgtbl0 = procEntry mem (partEntry mem s.ptcr) s.pid
  pgtbl3 : s.pt3Valid = true → s.pgtbl3 = procEntry mem (partEntry mem s.ptcr) 0

/-- What holds in each state of the machine. -/
def StateOk (mem : Memory) (t : Traced) : Prop :=
  match t.st.state with
  | .partTblWait => byteSwap (mem t.reading) = partEntry mem t.st.ptcr
  | .partTblDone => t.st.ptbValid = true
  | .procTblRead => t.st.ptbValid = true ∧ t.st.shift = 0#1 ++ t.st.prtbl.extractLsb' 0 5
  | .procTblWait => byteSwap (mem t.reading) = rootOf mem t.st
  | .segmentCheck => AtRoot mem t.st
  | .radixLookup => InTree mem t.st
  | .radixReadWait => InTree mem t.st ∧ t.reading = pgtableAddr t.st
  | .radixLoadTlb => t.st.iside = false → walkOf mem t.st = .ok (t.st.pde, t.st.shift.toNat)
  | _ => True

structure WalkInv (mem : Memory) (t : Traced) : Prop where
  tables : TablesOk mem t.st
  state : StateOk mem t

/-! ## Registers across one edge -/

/-- The flags of `v` at the start of `mmu_1`. -/
def cleared (s : State) : State :=
  { s with valid := false, done := false, err := false, causes := .none, invalAll := false }

section Edge

variable {s : State} {i : Input}

/-- The last assignments of `mmu_1` concern the two flags only. -/
theorem step_eq : step s i =
    { nextState s i with
      done := if (nextState s i).state = .radixFinish then !(nextState s i).causes.any
        else (nextState s i).done
      err := if (nextState s i).state = .radixFinish then (nextState s i).causes.any
        else (nextState s i).err } := by
  unfold step
  by_cases h : (nextState s i).state = .radixFinish <;> simp [h]

section Keeps

variable {α : Type*} (f : State → α) (v : State) {d : DcacheToMmu}

theorem segmentCheck_keeps (hf : ∀ (v : State) state causes shift,
      f { v with state := state, causes := causes, shift := shift } = f v) :
    f (segmentCheck s v) = f v :=
  Clocked.ite_keeps (hf v _ _ _) (Clocked.ite_keeps (hf v _ _ _) (hf v _ _ _))

theorem radixReadWait_keeps (hf : ∀ (v : State) state causes shift maskSize pgbase pde,
      f { v with
        state := state
        causes := causes
        shift := shift
        maskSize := maskSize
        pgbase := pgbase
        pde := pde } = f v) :
    f (radixReadWait s d v) = f v := by
  have hentry (e : BitVec 64) : f (radixEntry s e v) = f v :=
    Clocked.ite_keeps
      (Clocked.ite_keeps (Clocked.ite_keeps (hf v _ _ _ _ _ _) (hf v _ _ _ _ _ _))
        (Clocked.ite_keeps (hf v _ _ _ _ _ _) (hf v _ _ _ _ _ _)))
      (hf v _ _ _ _ _ _)
  have hdone : f (if d.done then radixEntry s (byteSwap d.data) v else v) = f v :=
    Clocked.ite_keeps (hentry _) rfl
  exact Clocked.ite_keeps ((hf _ _ _ _ _ _ _).trans hdone) hdone

theorem procTblWait_keeps (hf : ∀ (v : State) state causes shift maskSize pgbase pgtbl0 pt0Valid
      pgtbl3 pt3Valid,
      f { v with
        state := state
        causes := causes
        shift := shift
        maskSize := maskSize
        pgbase := pgbase
        pgtbl0 := pgtbl0
        pt0Valid := pt0Valid
        pgtbl3 := pgtbl3
        pt3Valid := pt3Valid } = f v) :
    f (procTblWait s d v) = f v := by
  unfold procTblWait
  dsimp only
  have htables (u : State) (hu : u = if s.addr.getLsbD 63 then
        { v with pgtbl3 := byteSwap d.data, pt3Valid := true }
      else { v with pgtbl0 := byteSwap d.data, pt0Valid := true }) : f u = f v := by
    rw [hu]
    exact Clocked.ite_keeps (hf v _ _ _ _ _ _ _ _ _) (hf v _ _ _ _ _ _ _ _ _)
  generalize (if s.addr.getLsbD 63 then _ else _ : State) = u at htables ⊢
  have hdone : f (if d.done then
        if mbitsOf (byteSwap d.data) == 0 then
          fail (setRoot u (byteSwap d.data)) { Causes.none with invalid := true }
        else { setRoot u (byteSwap d.data) with state := .segmentCheck }
      else v) = f v :=
    Clocked.ite_keeps
      (Clocked.ite_keeps ((hf u _ _ _ _ _ _ _ _ _).trans (htables u rfl))
        ((hf u _ _ _ _ _ _ _ _ _).trans (htables u rfl)))
      rfl
  exact Clocked.ite_keeps ((hf _ _ _ _ _ _ _ _ _ _).trans hdone) hdone

end Keeps

/-- The same request and the same process. -/
structure SameRegs (s s' : State) : Prop where
  iside : s'.iside = s.iside
  store : s'.store = s.store
  priv : s'.priv = s.priv
  addr : s'.addr = s.addr
  ptcr : s'.ptcr = s.ptcr
  pid : s'.pid = s.pid

theorem SameRegs.access {s s' : State} (h : SameRegs s s') : access s' = access s := by
  simp [Mmu.access, h.addr, h.store, h.priv]

theorem SameRegs.effpid {s s' : State} (h : SameRegs s s') : effpid s' = effpid s := by
  simp [Mmu.effpid, h.addr, h.pid]

theorem SameRegs.rootOf {s s' : State} (h : SameRegs s s') (mem : Memory) :
    rootOf mem s' = rootOf mem s := by
  simp [Mmu.rootOf, h.ptcr, h.effpid]

theorem SameRegs.walkOf {s s' : State} (h : SameRegs s s') (mem : Memory) :
    walkOf mem s' = walkOf mem s := by
  simp [Mmu.walkOf, h.ptcr, h.pid, h.access]

/-- Outside `IDLE` a walk keeps its request. -/
theorem sameRegs_nextState (h : s.state ≠ .idle) : SameRegs s (nextState s i) := by
  let f (v : State) := (v.iside, v.store, v.priv, v.addr, v.ptcr, v.pid)
  have hf : f (nextState s i) = f s := by
    unfold nextState
    cases hst : s.state with
    | idle => exact absurd hst h
    | partTblWait => exact Clocked.ite_keeps rfl rfl
    | procTblWait => exact procTblWait_keeps f _ (by intros; rfl)
    | segmentCheck => exact segmentCheck_keeps f _ (by intros; rfl)
    | radixReadWait => exact radixReadWait_keeps f _ (by intros; rfl)
    | _ => rfl
  simp only [f, Prod.mk.injEq] at hf
  obtain ⟨h1, h2, h3, h4, h5, h6⟩ := hf
  exact ⟨h1, h2, h3, h4, h5, h6⟩

theorem sameRegs_step (h : s.state ≠ .idle) : SameRegs s (step s i) := by
  have hnext := sameRegs_nextState (i := i) h
  rw [step_eq]
  exact ⟨hnext.iside, hnext.store, hnext.priv, hnext.addr, hnext.ptcr, hnext.pid⟩

end Edge

/-! ## Sizes -/

theorem toNat_mbitsOf (e : BitVec 64) : (mbitsOf e).toNat = nextSize e :=
  Bits.toNat_zero_append _

theorem toNat_mbitsOf_setWidth (e : BitVec 64) :
    ((mbitsOf e).setWidth 5).toNat = nextSize e := by
  have hlt : nextSize e < 2 ^ 5 := (e.extractLsb' 0 5).isLt
  rw [BitVec.toNat_setWidth, toNat_mbitsOf, Nat.mod_eq_of_lt hlt]

theorem toNat_rtsOf (e : BitVec 64) : (rtsOf e).toNat = treeSize e := by
  unfold rtsOf treeSize
  rw [Bits.toNat_append, Bits.toNat_zero_append]
  rfl

theorem toNat_baseOf (e : BitVec 64) : (baseOf e).toNat = nextBase e := by
  unfold baseOf nextBase
  rw [Bits.toNat_append]
  simp

theorem mbitsOf_beq_zero (e : BitVec 64) : (mbitsOf e == 0) = decide (nextSize e = 0) := by
  rw [Bool.eq_iff_iff, beq_iff_eq, decide_eq_true_iff, ← toNat_mbitsOf]
  exact BitVec.toNat_inj.symm

theorem treeSize_le (e : BitVec 64) : treeSize e ≤ 31 := by
  have hhi := (e.extractLsb' 61 2).isLt
  have hlo := (e.extractLsb' 5 3).isLt
  unfold treeSize
  omega

/-- The test of the number of index bits. -/
theorem badSize_eq (mbits top : BitVec 6) :
    (decide (mbits < 5) || decide (mbits > 16) || decide (mbits > top)) =
      decide (mbits.toNat < 5 ∨ 16 < mbits.toNat ∨ top.toNat < mbits.toNat) := by
  rw [Bool.or_assoc, Bool.decide_or, Bool.decide_or]
  rfl

/-- `PROC_TBL_WAIT` when the entry of the process table arrives. -/
theorem nextState_procTblWait {s : State} {i : Input} (hst : s.state = .procTblWait)
    (hdone : i.dIn.done = true) (herr : i.dIn.err = false) :
    nextState s i =
      { s with
        valid := false
        done := false
        err := false
        invalAll := false
        pgtbl3 := if s.addr.getLsbD 63 then byteSwap i.dIn.data else s.pgtbl3
        pt3Valid := s.addr.getLsbD 63 || s.pt3Valid
        pgtbl0 := if s.addr.getLsbD 63 then s.pgtbl0 else byteSwap i.dIn.data
        pt0Valid := !s.addr.getLsbD 63 || s.pt0Valid
        shift := rtsOf (byteSwap i.dIn.data)
        maskSize := (mbitsOf (byteSwap i.dIn.data)).setWidth 5
        pgbase := baseOf (byteSwap i.dIn.data)
        causes := if nextSize (byteSwap i.dIn.data) = 0 then { Causes.none with invalid := true }
          else .none
        state := if nextSize (byteSwap i.dIn.data) = 0 then .radixFinish else .segmentCheck } := by
  simp only [nextState, hst, procTblWait, hdone, herr, if_true, Bool.false_eq_true, if_false,
    mbitsOf_beq_zero, decide_eq_true_iff]
  cases s.addr.getLsbD 63 <;> by_cases hsize : nextSize (byteSwap i.dIn.data) = 0 <;>
    simp [hsize, setRoot, fail]

/-- The tests of `SEGMENT_CHECK`, on numbers. -/
def rootCheck (s : State) : Option Fault :=
  if ¬inSegment s.addr s.shift.toNat then some .segment
  else if s.maskSize.toNat < 5 ∨ 16 < s.maskSize.toNat ∨ s.shift.toNat + 19 < s.maskSize.toNat then
    some .badtree
  else none

theorem nextState_segmentCheck {s : State} {i : Input} (hst : s.state = .segmentCheck)
    (hsize : s.shift.toNat ≤ 31) :
    nextState s i =
      { s with
        valid := false
        done := false
        err := false
        invalAll := false
        shift := s.shift + 19 - s.maskSize.setWidth 6
        causes := match rootCheck s with
          | some f => causesOf (.error f)
          | none => .none
        state := match rootCheck s with
          | some _ => .radixFinish
          | none => .radixLookup } := by
  have hsum : (s.shift + 19).toNat = s.shift.toNat + 19 := by
    rw [BitVec.toNat_add]
    exact Nat.mod_eq_of_lt (by simp; omega)
  have hmask : (s.maskSize.setWidth 6).toNat = s.maskSize.toNat := by
    rw [BitVec.toNat_setWidth]
    exact Nat.mod_eq_of_lt (by have := s.maskSize.isLt; omega)
  have hseg : (s.addr.getLsbD 63 != s.addr.getLsbD 62 ||
        s.addr.extractLsb' 31 31 &&& ~~~((finalmask s).extractLsb' 0 31) != 0) =
      decide (¬inSegment s.addr s.shift.toNat) := by
    rw [Bool.eq_iff_iff, decide_eq_true_iff, inSegment, ← segment_eq_zero, Bool.or_eq_true,
      bne_iff_ne, bne_iff_ne, not_and_or]
  simp only [nextState, hst, segmentCheck, rootCheck]
  rw [hseg]
  by_cases hin : inSegment s.addr s.shift.toNat
  · simp only [hin, not_true, decide_false, Bool.false_eq_true, if_false, badSize_eq, hsum, hmask,
      decide_eq_true_iff]
    split_ifs <;> rfl
  · simp only [hin, not_false_iff, decide_true, if_true]
    rfl

/-- A wait state without an answer. -/
theorem nextState_waiting {s : State} {i : Input} (hst : s.state = .partTblWait ∨
      s.state = .procTblWait ∨ s.state = .radixReadWait)
    (hdone : i.dIn.done = false) (herr : i.dIn.err = false) :
    nextState s i = cleared s := by
  rcases hst with hst | hst | hst <;>
    simp [nextState, cleared, hst, hdone, herr, procTblWait, radixReadWait]

/-! ## One state after the other -/

section States

variable {mem : Memory} {t : Traced} {i : Input}

/-- A step that ends a walk reports what the walk should find. -/
def EndsOk (mem : Memory) (t : Traced) (i : Input) : Prop :=
  t.st.iside = false → (nextState t.st i).state = .radixFinish →
    (nextState t.st i).causes = causesOf (walkOf mem t.st)

/-- `StateOk` after the edge, for a state that is neither `IDLE` nor the end of an
operation. -/
def NextOk (mem : Memory) (t : Traced) (i : Input) : Prop :=
  StateOk mem ⟨nextState t.st i, (t.step i).reading⟩ ∧ EndsOk mem t i

theorem reading_step_of_waiting (h : (dOut t.st).valid = false) :
    (t.step i).reading = t.reading := by
  simp [Traced.step, h]

theorem nextOk_partTblRead (hst : t.st.state = .partTblRead) : NextOk mem t i := by
  have hnext : (nextState t.st i).state = .partTblWait := by simp [nextState, hst]
  have hptcr : (nextState t.st i).ptcr = t.st.ptcr := by simp [nextState, hst]
  have hread : (t.step i).reading = parttblAddr t.st := by simp [Traced.step, dOut, hst]
  refine ⟨?_, by simp [EndsOk, hnext]⟩
  simp only [StateOk, hnext, hread, hptcr, parttblAddr_eq]
  rfl

theorem nextOk_waiting (h : WalkInv mem t) (ha : Answers mem t i.dIn)
    (hst : t.st.state = .partTblWait ∨ t.st.state = .procTblWait ∨ t.st.state = .radixReadWait)
    (hdone : i.dIn.done = false) : NextOk mem t i := by
  have hread : (t.step i).reading = t.reading := by
    apply reading_step_of_waiting
    rcases hst with hst | hst | hst <;> simp [dOut, hst]
  have hstate := h.state
  rw [NextOk, EndsOk, nextState_waiting hst hdone ha.err, hread]
  rcases hst with hst | hst | hst
  · refine ⟨?_, by simp [cleared, hst]⟩
    simp only [StateOk, cleared, hst] at hstate ⊢
    exact hstate
  · refine ⟨?_, by simp [cleared, hst]⟩
    simp only [StateOk, cleared, hst] at hstate ⊢
    exact hstate
  · refine ⟨?_, by simp [cleared, hst]⟩
    simp only [StateOk, cleared, hst] at hstate ⊢
    exact ⟨⟨hstate.1.lo, hstate.1.hi, hstate.1.top, hstate.1.rest⟩, hstate.2⟩

theorem nextOk_partTblWait (hst : t.st.state = .partTblWait) (hdone : i.dIn.done = true) :
    NextOk mem t i := by
  simp [NextOk, EndsOk, StateOk, nextState, hst, hdone]

theorem nextOk_partTblDone (h : WalkInv mem t) (hst : t.st.state = .partTblDone) :
    NextOk mem t i := by
  have hstate := h.state
  simp only [StateOk, hst] at hstate
  simp [NextOk, EndsOk, StateOk, nextState, hst, hstate]

theorem nextOk_procTblRead (h : WalkInv mem t) (hst : t.st.state = .procTblRead) :
    NextOk mem t i := by
  have hnext : (nextState t.st i).state = .procTblWait := by simp [nextState, hst]
  have hread : (t.step i).reading = prtableAddr t.st := by simp [Traced.step, dOut, hst]
  have hroot : rootOf mem (nextState t.st i) = rootOf mem t.st :=
    (sameRegs_nextState (by simp [hst])).rootOf mem
  have hstate := h.state
  simp only [StateOk, hst] at hstate
  refine ⟨?_, by simp [EndsOk, hnext]⟩
  simp only [StateOk, hnext, hread, hroot]
  rw [prtableAddr_eq _ hstate.2, h.tables.prtbl hstate.1]
  rfl

theorem nextOk_procTblWait (h : WalkInv mem t) (ha : Answers mem t i.dIn)
    (hst : t.st.state = .procTblWait) (hdone : i.dIn.done = true) : NextOk mem t i := by
  have hregs := sameRegs_nextState (i := i) (s := t.st) (by simp [hst])
  have hstate := h.state
  simp only [StateOk, hst] at hstate
  have hdata : byteSwap i.dIn.data = rootOf mem t.st := by rw [ha.data hdone, hstate]
  have hnext := nextState_procTblWait hst hdone ha.err
  rw [hdata] at hnext
  by_cases hsize : nextSize (rootOf mem t.st) = 0
  · -- a root of no index bits: translation is disabled
    rw [NextOk, EndsOk, walkOf_eq, walkRoot, if_pos hsize, hnext]
    simp [StateOk, hsize, causesOf]
  · have hroot := hregs.rootOf mem
    refine ⟨?_, by simp [EndsOk, hnext, hsize]⟩
    have hst' : (nextState t.st i).state = .segmentCheck := by simp [hnext, hsize]
    simp only [StateOk, hst']
    constructor
    · rw [hroot, hnext]
    · rw [hroot, hnext]
    · rw [hroot, hnext]
    · rw [hroot]
      exact hsize

theorem nextOk_segmentCheck (h : WalkInv mem t) (hst : t.st.state = .segmentCheck) :
    NextOk mem t i := by
  have hregs := sameRegs_nextState (i := i) (s := t.st) (by simp [hst])
  have hstate := h.state
  simp only [StateOk, hst] at hstate
  have hshift : t.st.shift.toNat = treeSize (rootOf mem t.st) := by
    rw [hstate.shift, toNat_rtsOf]
  have hmask : t.st.maskSize.toNat = nextSize (rootOf mem t.st) := by
    rw [hstate.maskSize, toNat_mbitsOf_setWidth]
  have hbase : t.st.pgbase.toNat = nextBase (rootOf mem t.st) := by
    rw [hstate.pgbase, toNat_baseOf]
  have hsize := treeSize_le (rootOf mem t.st)
  rw [← hshift] at hsize
  have hnext := nextState_segmentCheck (i := i) hst hsize
  have hwalk : walkOf mem t.st = if ¬inSegment t.st.addr t.st.shift.toNat then .error .segment
      else walkTree mem (access t.st) t.st.pgbase.toNat t.st.maskSize.toNat
        (t.st.shift.toNat + 19) := by
    rw [walkOf_eq, walkRoot, if_neg hstate.size, hshift, hmask, hbase]
    rfl
  cases hcheck : rootCheck t.st with
  | some f =>
      rw [hcheck] at hnext
      refine ⟨by simp [StateOk, hnext], fun _ _ => ?_⟩
      rw [hnext, hwalk]
      unfold rootCheck at hcheck
      split_ifs at hcheck with hseg hbad
      · rw [if_neg (not_not.mpr hseg), walkTree, if_pos hbad, Option.some.inj hcheck]
      · rw [if_pos hseg, Option.some.inj hcheck]
  | none =>
      rw [hcheck] at hnext
      have hst' : (nextState t.st i).state = .radixLookup := by rw [hnext]
      unfold rootCheck at hcheck
      split_ifs at hcheck with hseg hbad
      have hsum : (nextState t.st i).shift.toNat + t.st.maskSize.toNat = t.st.shift.toNat + 19 := by
        have hlt := t.st.maskSize.isLt
        have h19 : (19 : BitVec 6).toNat = 19 := rfl
        rw [hnext]
        simp only [BitVec.toNat_sub, BitVec.toNat_add, BitVec.toNat_setWidth, h19]
        omega
      have hmask' : (nextState t.st i).maskSize = t.st.maskSize := by rw [hnext]
      have hbase' : (nextState t.st i).pgbase = t.st.pgbase := by rw [hnext]
      refine ⟨?_, by simp [EndsOk, hst']⟩
      simp only [StateOk, hst']
      constructor
      · rw [hmask']
        omega
      · rw [hmask']
        omega
      · rw [hmask', hsum]
        omega
      · intro _
        rw [hregs.walkOf, hregs.access, hmask', hbase', hsum, hwalk,
          if_neg (not_not.mpr hseg)]

theorem nextOk_radixLookup (h : WalkInv mem t) (hst : t.st.state = .radixLookup) :
    NextOk mem t i := by
  have hstate := h.state
  simp only [StateOk, hst] at hstate
  have hread : (t.step i).reading = pgtableAddr t.st := by simp [Traced.step, dOut, hst]
  have hnext : nextState t.st i = { cleared t.st with state := .radixReadWait } := by
    simp [nextState, cleared, hst]
  rw [NextOk, EndsOk, hread, hnext]
  refine ⟨?_, by simp⟩
  simp only [StateOk]
  exact ⟨⟨hstate.lo, hstate.hi, hstate.top, hstate.rest⟩, rfl⟩

/-- The recursion at the entry `e` of the table that the registers hold. -/
theorem walkOf_entry (h : InTree mem t.st) (hside : t.st.iside = false) {e : BitVec 64}
    (he : byteSwap (mem (pgtableAddr t.st)) = e) :
    walkOf mem t.st =
      if !e.getLsbD 63 then .error .invalid
      else if e.getLsbD 62 then leafResult (access t.st) e t.st.shift.toNat
      else walkTree mem (access t.st) (nextBase e) (nextSize e) t.st.shift.toNat := by
  have hlo := h.lo
  have hhi := h.hi
  have hentry : entryAt mem (Bits.insertLow t.st.pgbase.toNat (t.st.maskSize.toNat + 3)
      (8 * ((access t.st).ea.toNat / 2 ^ (12 + t.st.shift.toNat) % 2 ^ t.st.maskSize.toNat))) =
        e := by
    rw [← he, pgtableAddr_eq _ h.lo h.hi h.top]
    rfl
  rw [h.rest hside, walkTree, if_neg (by omega)]
  simp only [Nat.add_sub_cancel]
  rw [hentry]

/-- A leaf: the permission test, then the reference and change bits. -/
theorem nextOk_leaf {e : BitVec 64} (hregs : SameRegs t.st (nextState t.st i))
    (hwalk : t.st.iside = false →
      walkOf mem t.st = leafResult (access t.st) e t.st.shift.toNat)
    (hnext : nextState t.st i =
      if permOk t.st e && rcOk t.st e then
        { cleared t.st with pde := e, state := .radixLoadTlb }
      else fail { cleared t.st with pde := e }
        { Causes.none with permErr := !permOk t.st e, rcError := permOk t.st e }) :
    NextOk mem t i := by
  have hcheck : t.st.iside = false → leafCheck (access t.st) e =
      if !permOk t.st e then some .permission else if !rcOk t.st e then some .refChange
      else none := by
    intro hside
    simp [leafCheck, access, permOk, rcOk, hside]
  cases hok : permOk t.st e && rcOk t.st e with
  | true =>
      rw [Bool.and_eq_true] at hok
      simp only [hok.1, hok.2, Bool.and_self, if_true] at hnext hcheck
      have hst' : (nextState t.st i).state = .radixLoadTlb := by rw [hnext]
      refine ⟨?_, by simp [EndsOk, hst']⟩
      simp only [StateOk, hst']
      intro hside
      rw [hregs.walkOf, hwalk (hregs.iside ▸ hside), leafResult,
        hcheck (hregs.iside ▸ hside), hnext]
      rfl
  | false =>
      rw [hok] at hnext
      refine ⟨by simp [StateOk, hnext, fail], fun hside _ => ?_⟩
      rw [hnext, hwalk hside, leafResult, hcheck hside]
      cases hperm : permOk t.st e with
      | false => rfl
      | true =>
          rw [hperm, Bool.true_and] at hok
          rw [hok]
          rfl

/-- An entry that points to a table of the next level. -/
theorem nextOk_nextLevel {e : BitVec 64} (htree : InTree mem t.st)
    (hregs : SameRegs t.st (nextState t.st i))
    (hwalk : t.st.iside = false →
      walkOf mem t.st = walkTree mem (access t.st) (nextBase e) (nextSize e) t.st.shift.toNat)
    (hnext : nextState t.st i =
      if nextSize e < 5 ∨ 16 < nextSize e ∨ t.st.shift.toNat < nextSize e then
        fail { cleared t.st with pde := e } { Causes.none with badtree := true }
      else
        { cleared t.st with
          pde := e
          shift := t.st.shift - mbitsOf e
          maskSize := (mbitsOf e).setWidth 5
          pgbase := baseOf e
          state := .radixLookup }) :
    NextOk mem t i := by
  have htop := htree.top
  by_cases hbad : nextSize e < 5 ∨ 16 < nextSize e ∨ t.st.shift.toNat < nextSize e
  · rw [if_pos hbad] at hnext
    refine ⟨by simp [StateOk, hnext, fail], fun hside _ => ?_⟩
    rw [hnext, hwalk hside, walkTree, if_pos hbad]
    rfl
  · rw [if_neg hbad] at hnext
    have hst' : (nextState t.st i).state = .radixLookup := by rw [hnext]
    have hmask : (nextState t.st i).maskSize.toNat = nextSize e := by
      rw [hnext]
      exact toNat_mbitsOf_setWidth e
    have hbase : (nextState t.st i).pgbase.toNat = nextBase e := by
      rw [hnext]
      exact toNat_baseOf e
    have hsum : (nextState t.st i).shift.toNat + nextSize e = t.st.shift.toNat := by
      have hlt := t.st.shift.isLt
      rw [hnext]
      simp only [BitVec.toNat_sub, toNat_mbitsOf]
      omega
    refine ⟨?_, by simp [EndsOk, hst']⟩
    simp only [StateOk, hst']
    constructor
    · rw [hmask]
      omega
    · rw [hmask]
      omega
    · rw [hmask, hsum]
      omega
    · intro hside
      rw [hregs.walkOf, hregs.access, hmask, hbase, hsum, hwalk (hregs.iside ▸ hside)]

theorem nextOk_radixReadWait (h : WalkInv mem t) (ha : Answers mem t i.dIn)
    (hst : t.st.state = .radixReadWait) (hdone : i.dIn.done = true) : NextOk mem t i := by
  have hregs := sameRegs_nextState (i := i) (s := t.st) (by simp [hst])
  have hstate := h.state
  simp only [StateOk, hst] at hstate
  obtain ⟨htree, hread⟩ := hstate
  generalize hdata : byteSwap i.dIn.data = e
  have he : byteSwap (mem (pgtableAddr t.st)) = e := by rw [← hread, ← ha.data hdone, hdata]
  have hwalk := fun hside => walkOf_entry htree hside he
  have hnext : nextState t.st i = radixEntry t.st e (cleared t.st) := by
    simp [nextState, cleared, hst, radixReadWait, hdone, ha.err, hdata]
  unfold radixEntry at hnext
  cases hvalid : e.getLsbD 63 with
  | false =>
      simp only [hvalid, Bool.false_eq_true, if_false] at hnext
      refine ⟨by simp [StateOk, hnext, fail], fun hside _ => ?_⟩
      rw [hnext, hwalk hside, hvalid]
      rfl
  | true =>
      simp only [hvalid, Bool.not_true, Bool.false_eq_true, if_false, if_true] at hwalk hnext
      cases hleaf : e.getLsbD 62 with
      | true =>
          simp only [hleaf, if_true] at hwalk hnext
          exact nextOk_leaf hregs hwalk hnext
      | false =>
          simp only [hleaf, Bool.false_eq_true, if_false, badSize_eq, toNat_mbitsOf,
            decide_eq_true_iff] at hwalk hnext
          exact nextOk_nextLevel htree hregs hwalk hnext

/-- A walk is in progress. -/
def walking (s : State) : Bool :=
  s.state != .idle && s.state != .doTlbie && s.state != .radixFinish

theorem nextOk_of_walking (h : WalkInv mem t) (ha : Answers mem t i.dIn)
    (hw : walking t.st = true) : NextOk mem t i := by
  have hwait := nextOk_waiting (i := i) h ha
  cases hst : t.st.state with
  | idle => simp [walking, hst] at hw
  | doTlbie => simp [walking, hst] at hw
  | radixFinish => simp [walking, hst] at hw
  | partTblRead => exact nextOk_partTblRead hst
  | partTblWait =>
      cases hdone : i.dIn.done with
      | false => exact hwait (Or.inl hst) hdone
      | true => exact nextOk_partTblWait hst hdone
  | partTblDone => exact nextOk_partTblDone h hst
  | procTblRead => exact nextOk_procTblRead h hst
  | procTblWait =>
      cases hdone : i.dIn.done with
      | false => exact hwait (Or.inr (Or.inl hst)) hdone
      | true => exact nextOk_procTblWait h ha hst hdone
  | segmentCheck => exact nextOk_segmentCheck h hst
  | radixLookup => exact nextOk_radixLookup h hst
  | radixReadWait =>
      cases hdone : i.dIn.done with
      | false => exact hwait (Or.inr (Or.inr hst)) hdone
      | true => exact nextOk_radixReadWait h ha hst hdone
  | radixLoadTlb =>
      have hstate := h.state
      simp only [StateOk, hst] at hstate
      refine ⟨by simp [StateOk, nextState, hst], fun hside _ => ?_⟩
      rw [hstate hside]
      simp [nextState, hst, causesOf]

/-- The same tables in memory and the same entries kept of them. -/
structure SameTables (s s' : State) : Prop where
  ptcr : s'.ptcr = s.ptcr
  pid : s'.pid = s.pid
  prtbl : s'.prtbl = s.prtbl
  ptbValid : s'.ptbValid = s.ptbValid
  pgtbl0 : s'.pgtbl0 = s.pgtbl0
  pt0Valid : s'.pt0Valid = s.pt0Valid
  pgtbl3 : s'.pgtbl3 = s.pgtbl3
  pt3Valid : s'.pt3Valid = s.pt3Valid

theorem TablesOk.of_same {s s' : State} (h : TablesOk mem s) (hsame : SameTables s s') :
    TablesOk mem s' where
  prtbl := by
    rw [hsame.ptbValid, hsame.prtbl, hsame.ptcr]
    exact h.prtbl
  pgtbl0 := by
    rw [hsame.pt0Valid, hsame.pgtbl0, hsame.ptcr, hsame.pid]
    exact h.pgtbl0
  pgtbl3 := by
    rw [hsame.pt3Valid, hsame.pgtbl3, hsame.ptcr]
    exact h.pgtbl3

theorem sameTables_nextState {s : State} (hidle : s.state ≠ .idle)
    (hpart : s.state ≠ .partTblWait) (hproc : s.state ≠ .procTblWait) :
    SameTables s (nextState s i) := by
  let f (v : State) :=
    (v.ptcr, v.pid, v.prtbl, v.ptbValid, v.pgtbl0, v.pt0Valid, v.pgtbl3, v.pt3Valid)
  have hf : f (nextState s i) = f s := by
    unfold nextState
    cases hst : s.state with
    | idle => exact absurd hst hidle
    | partTblWait => exact absurd hst hpart
    | procTblWait => exact absurd hst hproc
    | segmentCheck => exact segmentCheck_keeps f _ (by intros; rfl)
    | radixReadWait => exact radixReadWait_keeps f _ (by intros; rfl)
    | _ => rfl
  simp only [f, Prod.mk.injEq] at hf
  obtain ⟨h1, h2, h3, h4, h5, h6, h7, h8⟩ := hf
  exact ⟨h1, h2, h3, h4, h5, h6, h7, h8⟩

theorem sameTables_idleWalk (s v : State) (l : Loadstore1ToMmu) :
    SameTables v (idleWalk s l v) := by
  simp only [idleWalk, fail]
  constructor <;> split_ifs <;> rfl

theorem rootOf_upper {s : State} (h : s.addr.getLsbD 63 = true) :
    rootOf mem s = procEntry mem (partEntry mem s.ptcr) 0 := by
  rw [rootOf, effpid, h, if_pos rfl]

theorem rootOf_lower {s : State} (h : s.addr.getLsbD 63 = false) :
    rootOf mem s = procEntry mem (partEntry mem s.ptcr) s.pid := by
  rw [rootOf, effpid, h, if_neg (by decide)]

/-- A request in `IDLE` keeps the entries or marks them as not valid. -/
theorem tables_idleRequest {s v : State} {l : Loadstore1ToMmu} (h : TablesOk mem v) :
    TablesOk mem (idleRequest s l v) := by
  simp only [idleRequest]
  split_ifs
  · refine ⟨fun hv => ?_, fun hv => ?_, fun hv => ?_⟩ <;> rw [Bool.and_eq_true] at hv
    · exact h.prtbl hv.2
    · exact h.pgtbl0 hv.2
    · exact h.pgtbl3 hv.2
  · exact (h.of_same (by constructor <;> rfl)).of_same (sameTables_idleWalk _ _ _)
  · exact h

/-- A new PID or PTCR marks the entries that depend on it as not valid. -/
theorem tables_idleMtspr {v : State} {l : Loadstore1ToMmu} (h : TablesOk mem v) :
    TablesOk mem (idleMtspr l v) := by
  simp only [idleMtspr]
  split_ifs
  · exact ⟨h.prtbl, by simp, h.pgtbl3⟩
  · exact ⟨by simp, by simp, by simp⟩
  · exact h

theorem tables_idle (h : TablesOk mem t.st) (hst : t.st.state = .idle) :
    TablesOk mem (nextState t.st i) := by
  simp only [nextState, hst, idle]
  exact tables_idleMtspr (tables_idleRequest (h.of_same (by constructor <;> rfl)))

theorem tables_step (h : WalkInv mem t) (ha : Answers mem t i.dIn) :
    TablesOk mem (nextState t.st i) := by
  by_cases hidle : t.st.state = .idle
  · exact tables_idle h.tables hidle
  have hregs := sameRegs_nextState (i := i) hidle
  by_cases hwait : t.st.state = .partTblWait ∨ t.st.state = .procTblWait
  swap
  · rw [not_or] at hwait
    exact h.tables.of_same (sameTables_nextState hidle hwait.1 hwait.2)
  have hstate := h.state
  cases hdone : i.dIn.done with
  | false =>
      rw [nextState_waiting (by tauto) hdone ha.err]
      exact h.tables.of_same (by constructor <;> rfl)
  | true =>
      have hdata := ha.data hdone
      rcases hwait with hst | hst
      · simp only [StateOk, hst] at hstate
        have hnext : nextState t.st i = { cleared t.st with
            prtbl := byteSwap i.dIn.data, ptbValid := true, state := .partTblDone } := by
          simp [nextState, cleared, hst, hdone]
        rw [hnext, hdata, hstate]
        exact ⟨fun _ => rfl, h.tables.pgtbl0, h.tables.pgtbl3⟩
      · simp only [StateOk, hst] at hstate
        rw [nextState_procTblWait hst hdone ha.err, hdata, hstate]
        refine ⟨h.tables.prtbl, ?_, ?_⟩
        · cases hupper : t.st.addr.getLsbD 63 with
          | false => exact fun _ => rootOf_lower hupper
          | true => simpa using h.tables.pgtbl0
        · cases hupper : t.st.addr.getLsbD 63 with
          | false => simpa using h.tables.pgtbl3
          | true => exact fun _ => rootOf_upper hupper

/-- A request for a translation. -/
structure StartsWalk (l : Loadstore1ToMmu) : Prop where
  valid : l.valid = true
  tlbie : l.tlbie = false
  mtspr : l.mtspr = false

/-- `v` in `IDLE` when a request for a translation has been taken. -/
def started (s : State) (l : Loadstore1ToMmu) : State :=
  { setRoot (cleared s) (if l.addr.getLsbD 63 then s.pgtbl3 else s.pgtbl0) with
    addr := l.addr
    iside := l.iside
    store := !(l.load || l.iside)
    priv := l.priv }

theorem nextState_start (hst : t.st.state = .idle) (hl : StartsWalk i.lIn) :
    nextState t.st i = idleWalk t.st i.lIn (started t.st i.lIn) := by
  simp only [nextState, hst, idle, idleMtspr, idleRequest, hl.mtspr, hl.valid, hl.tlbie, if_true,
    Bool.false_eq_true, if_false]
  rfl

theorem sameRegs_idleWalk (s v : State) (l : Loadstore1ToMmu) :
    SameRegs v (idleWalk s l v) := by
  simp only [idleWalk, fail]
  constructor <;> split_ifs <;> rfl

theorem sameRegs_start (hst : t.st.state = .idle) (hl : StartsWalk i.lIn) :
    SameRegs (started t.st i.lIn) (step t.st i) := by
  have hregs := sameRegs_idleWalk t.st (started t.st i.lIn) i.lIn
  rw [← nextState_start hst hl] at hregs
  rw [step_eq]
  exact ⟨hregs.iside, hregs.store, hregs.priv, hregs.addr, hregs.ptcr, hregs.pid⟩

/-- What `IDLE` starts a walk from, if a process table entry is kept. -/
def keptRoot (s : State) (l : Loadstore1ToMmu) : BitVec 64 :=
  if l.addr.getLsbD 63 then s.pgtbl3 else s.pgtbl0

def keptValid (s : State) (l : Loadstore1ToMmu) : Bool :=
  if l.addr.getLsbD 63 then s.pt3Valid else s.pt0Valid

theorem idleWalk_eq (s v : State) (l : Loadstore1ToMmu) : idleWalk s l v =
    if s.ptbValid = false then { v with valid := true, state := .partTblRead }
    else if keptValid s l = false then
      { v with valid := true, shift := 0#1 ++ s.prtbl.extractLsb' 0 5, state := .procTblRead }
    else if nextSize (keptRoot s l) = 0 then
      { v with
        valid := true
        state := .radixFinish
        causes := { Causes.none with invalid := true } }
    else { v with valid := true, state := .segmentCheck } := by
  simp only [idleWalk, mbitsOf_beq_zero, decide_eq_true_iff, Bool.not_eq_true', fail]
  rfl

theorem keptRoot_eq {s : State} (h : TablesOk mem s) (l : Loadstore1ToMmu)
    (hpt : keptValid s l = true) : keptRoot s l = rootOf mem (started s l) := by
  unfold keptRoot
  unfold keptValid at hpt
  cases hupper : l.addr.getLsbD 63 with
  | false =>
      rw [hupper] at hpt
      rw [rootOf_lower (s := started s l) hupper]
      exact h.pgtbl0 hpt
  | true =>
      rw [hupper] at hpt
      rw [rootOf_upper (s := started s l) hupper]
      exact h.pgtbl3 hpt

/-- The first edge of a walk. -/
theorem start_ok (h : TablesOk mem t.st) (hst : t.st.state = .idle) (hl : StartsWalk i.lIn)
    (r : BitVec 64) :
    StateOk mem ⟨nextState t.st i, r⟩ ∧
      ((nextState t.st i).state = .radixFinish ∧
          walkOf mem (nextState t.st i) = .error .invalid ∧
          (nextState t.st i).causes = causesOf (.error .invalid) ∨
        walking (nextState t.st i) = true) := by
  rw [nextState_start hst hl, idleWalk_eq]
  split_ifs with hptb hpt hsize
  · exact ⟨by simp [StateOk], Or.inr (by simp [walking])⟩
  · rw [Bool.not_eq_false] at hptb
    refine ⟨?_, Or.inr (by simp [walking])⟩
    simp only [StateOk]
    exact ⟨hptb, rfl⟩
  · rw [Bool.not_eq_false] at hpt
    rw [keptRoot_eq h _ hpt] at hsize
    have hwalk : walkOf mem (started t.st i.lIn) = .error .invalid := by
      rw [walkOf_eq, walkRoot, if_pos hsize]
    exact ⟨by simp [StateOk], Or.inl ⟨rfl, hwalk, rfl⟩⟩
  · rw [Bool.not_eq_false] at hpt
    have hkept := keptRoot_eq h _ hpt
    rw [hkept] at hsize
    refine ⟨?_, Or.inr (by simp [walking])⟩
    simp only [StateOk]
    refine ⟨?_, ?_, ?_, hsize⟩
    · show rtsOf (keptRoot t.st i.lIn) = rtsOf (rootOf mem (started t.st i.lIn))
      rw [hkept]
    · show (mbitsOf (keptRoot t.st i.lIn)).setWidth 5 =
        (mbitsOf (rootOf mem (started t.st i.lIn))).setWidth 5
      rw [hkept]
    · show baseOf (keptRoot t.st i.lIn) = baseOf (rootOf mem (started t.st i.lIn))
      rw [hkept]

/-- Without a request for a translation the machine stays in `IDLE` or invalidates. -/
theorem nextState_idle_other (hst : t.st.state = .idle) (hl : ¬StartsWalk i.lIn) :
    (nextState t.st i).state = .idle ∨ (nextState t.st i).state = .doTlbie := by
  cases hm : i.lIn.mtspr with
  | true => exact Or.inr (by simp [nextState, hst, idle, idleMtspr, hm])
  | false =>
      cases hv : i.lIn.valid with
      | false =>
          exact Or.inl (by simp [nextState, hst, idle, idleMtspr, idleRequest, setRoot, hm, hv])
      | true =>
          cases ht : i.lIn.tlbie with
          | true =>
              exact Or.inr (by simp [nextState, hst, idle, idleMtspr, idleRequest, hm, hv, ht])
          | false => exact absurd ⟨hv, ht, hm⟩ hl

theorem stateOk_step {r : BitVec 64} (h : StateOk mem ⟨nextState t.st i, r⟩) :
    StateOk mem ⟨step t.st i, r⟩ := by
  rw [step_eq]
  simp only [StateOk] at h ⊢
  cases hst : (nextState t.st i).state <;> rw [hst] at h
  case segmentCheck => exact ⟨h.shift, h.maskSize, h.pgbase, h.size⟩
  case radixLookup => exact ⟨h.lo, h.hi, h.top, h.rest⟩
  case radixReadWait => exact ⟨⟨h.1.lo, h.1.hi, h.1.top, h.1.rest⟩, h.2⟩
  all_goals exact h

theorem walkInv_step (h : WalkInv mem t) (ha : Answers mem t i.dIn) : WalkInv mem (t.step i) where
  tables := by
    have hnext := tables_step h ha
    show TablesOk mem (step t.st i)
    rw [step_eq]
    exact ⟨hnext.prtbl, hnext.pgtbl0, hnext.pgtbl3⟩
  state := by
    apply stateOk_step
    cases hst : t.st.state with
    | idle =>
        by_cases hl : StartsWalk i.lIn
        · exact (start_ok h.tables hst hl _).1
        · rcases nextState_idle_other hst hl with hst' | hst' <;> simp [StateOk, hst']
    | doTlbie => simp [StateOk, nextState, hst]
    | radixFinish => simp [StateOk, nextState, hst]
    | _ => exact (nextOk_of_walking h ha (by simp [walking, hst])).1

theorem walkInv_of_reset {s : State} (hs : AfterReset s) (mem : Memory) (r : BitVec 64) :
    WalkInv mem ⟨s, r⟩ where
  tables := by
    constructor
    · simp [hs.ptbValid]
    · simp [hs.pt0Valid]
    · simp [hs.pt3Valid]
  state := by simp [StateOk, hs.state]

/-- The edge that ends a walk reports what the walk should find. -/
theorem step_ends (h : WalkInv mem t) (ha : Answers mem t i.dIn) (hw : walking t.st = true)
    (hside : t.st.iside = false) (hend : (step t.st i).state = .radixFinish) :
    (step t.st i).causes = causesOf (walkOf mem t.st) := by
  rw [step_eq] at hend ⊢
  exact (nextOk_of_walking h ha hw).2 hside hend

theorem causesOf_any (r : Except Fault (BitVec 64 × Nat)) :
    (causesOf r).any = !r.toOption.isSome := by
  rcases r with f | p
  · cases f <;> rfl
  · rfl

/-- `done` and `err` at the end of an operation. -/
theorem flags_of_finish {s : State} (hend : (step s i).state = .radixFinish) :
    (step s i).done = !(step s i).causes.any ∧ (step s i).err = (step s i).causes.any := by
  rw [step_eq] at hend ⊢
  exact ⟨if_pos hend, if_pos hend⟩

/-- Neither `done` nor `err`. -/
def FlagsDown (s : State) : Prop :=
  s.done = false ∧ s.err = false

theorem flagsDown_idleRequest {s v : State} {l : Loadstore1ToMmu} (h : FlagsDown v) :
    FlagsDown (idleRequest s l v) := by
  simp only [idleRequest]
  split_ifs
  · exact h
  · rw [idleWalk_eq]
    split_ifs <;> exact h
  · exact h

theorem flagsDown_idleMtspr {v : State} {l : Loadstore1ToMmu} (h : FlagsDown v) :
    FlagsDown (idleMtspr l v) := by
  simp only [idleMtspr]
  split_ifs <;> exact h

/-- The flags are down while a walk goes on. -/
theorem flags_of_walking {s : State} (hw : (step s i).state ≠ .radixFinish) :
    FlagsDown (step s i) := by
  let f (v : State) := (v.done, v.err)
  have hf : f (nextState s i) = (false, false) := by
    unfold nextState
    cases hst : s.state with
    | idle =>
        refine Prod.ext_iff.mpr ?_
        exact flagsDown_idleMtspr (flagsDown_idleRequest ⟨rfl, rfl⟩)
    | partTblWait => exact Clocked.ite_keeps rfl rfl
    | procTblWait => exact procTblWait_keeps f _ (by intros; rfl)
    | segmentCheck => exact segmentCheck_keeps f _ (by intros; rfl)
    | radixReadWait => exact radixReadWait_keeps f _ (by intros; rfl)
    | _ => rfl
  have hnext : FlagsDown (nextState s i) := Prod.mk.inj hf
  rw [step_eq] at hw ⊢
  exact ⟨(if_neg hw).trans hnext.1, (if_neg hw).trans hnext.2⟩

/-- A walk that ends without a cause has just loaded the TLB. -/
theorem loadTlb_of_no_cause {s : State} (hw : walking s = true) (herr : i.dIn.err = false)
    (hend : (nextState s i).state = .radixFinish) (hok : (nextState s i).causes.any = false) :
    s.state = .radixLoadTlb := by
  have hwait : ∀ hst : s.state = .partTblWait ∨ s.state = .procTblWait ∨ s.state = .radixReadWait,
      i.dIn.done = true := by
    intro hst
    by_contra hdone
    rw [nextState_waiting hst (by simpa using hdone) herr] at hend
    rcases hst with hst | hst | hst <;> simp [cleared, hst] at hend
  cases hst : s.state with
  | radixLoadTlb => rfl
  | idle => simp [walking, hst] at hw
  | doTlbie => simp [walking, hst] at hw
  | radixFinish => simp [walking, hst] at hw
  | partTblRead => simp [nextState, hst] at hend
  | partTblWait => simp [nextState, hst, hwait (Or.inl hst)] at hend
  | partTblDone => simp [nextState, hst] at hend
  | procTblRead => simp [nextState, hst] at hend
  | procTblWait =>
      rw [nextState_procTblWait hst (hwait (Or.inr (Or.inl hst))) herr] at hend hok
      by_cases hsize : nextSize (byteSwap i.dIn.data) = 0
      · simp [hsize, Causes.any] at hok
      · simp [hsize] at hend
  | segmentCheck =>
      simp only [nextState, hst, segmentCheck] at hend hok
      split_ifs at hend hok <;> simp_all [fail, Causes.any]
  | radixLookup => simp [nextState, hst] at hend
  | radixReadWait =>
      have hdone := hwait (Or.inr (Or.inr hst))
      have hnext : nextState s i = radixEntry s (byteSwap i.dIn.data) (cleared s) := by
        simp [nextState, cleared, hst, radixReadWait, hdone, herr]
      rw [hnext] at hend hok
      simp only [radixEntry] at hend hok
      split_ifs at hend hok
      · -- a leaf that fails one of the two tests
        cases hperm : permOk s (byteSwap i.dIn.data) <;> simp [fail, Causes.any, hperm] at hok
      · simp [fail, Causes.any] at hok
      · simp [fail, Causes.any] at hok

/-! ## Every walk ends -/

/-- A read is under way. -/
def waitsForRead (s : State) : Bool :=
  s.state == .partTblWait || s.state == .procTblWait || s.state == .radixReadWait

/-- A bound on the edges and reads that are left of a walk: each level of the tree takes
at least five bits off `shift`. -/
def rank (s : State) : Nat :=
  match s.state with
  | .partTblRead => 137
  | .partTblWait => 136
  | .partTblDone => 135
  | .procTblRead => 134
  | .procTblWait => 133
  | .segmentCheck => 132
  | .radixLookup => 2 * s.shift.toNat + 3
  | .radixReadWait => 2 * s.shift.toNat + 2
  | .radixLoadTlb => 1
  | _ => 0

/-- The next edge of a walk ends it, brings it further or finds it waiting. -/
def Progresses (s : State) (i : Input) : Prop :=
  (nextState s i).state = .radixFinish ∨
    walking (nextState s i) = true ∧
      (rank (nextState s i) < rank s ∨
        rank (nextState s i) = rank s ∧ waitsForRead s = true ∧
          waitsForRead (nextState s i) = true ∧ i.dIn.done = false)

theorem progresses_radixReadWait {s : State} (hst : s.state = .radixReadWait)
    (hdone : i.dIn.done = true) (herr : i.dIn.err = false) : Progresses s i := by
  have hnext : nextState s i = radixEntry s (byteSwap i.dIn.data) (cleared s) := by
    simp [nextState, cleared, hst, radixReadWait, hdone, herr]
  unfold radixEntry at hnext
  rw [Progresses, hnext]
  generalize byteSwap i.dIn.data = e
  have hlt := s.shift.isLt
  simp only [badSize_eq, toNat_mbitsOf, decide_eq_true_iff]
  split_ifs with hvalid hleaf hperm hbad
  · exact Or.inr ⟨by simp [walking], Or.inl (by simp [rank, hst])⟩
  · exact Or.inl rfl
  · exact Or.inl rfl
  · refine Or.inr ⟨by simp [walking], Or.inl ?_⟩
    simp only [rank, hst, cleared, BitVec.toNat_sub, toNat_mbitsOf]
    omega
  · exact Or.inl rfl

theorem progresses_of_walking {s : State} (hw : walking s = true) (herr : i.dIn.err = false) :
    Progresses s i := by
  have hwait : ∀ (hst : s.state = .partTblWait ∨ s.state = .procTblWait ∨ s.state = .radixReadWait)
      (hdone : i.dIn.done = false), Progresses s i := by
    intro hst hdone
    rw [Progresses, nextState_waiting hst hdone herr]
    exact Or.inr ⟨hw, Or.inr ⟨rfl, by rcases hst with h | h | h <;> simp [waitsForRead, h],
      by rcases hst with h | h | h <;> simp [waitsForRead, cleared, h], hdone⟩⟩
  have hlt := s.shift.isLt
  cases hst : s.state with
  | idle => simp [walking, hst] at hw
  | doTlbie => simp [walking, hst] at hw
  | radixFinish => simp [walking, hst] at hw
  | partTblRead => simp [Progresses, nextState, hst, walking, rank]
  | partTblWait =>
      cases hdone : i.dIn.done with
      | false => exact hwait (Or.inl hst) hdone
      | true => simp [Progresses, nextState, hst, hdone, walking, rank]
  | partTblDone => simp [Progresses, nextState, hst, walking, rank]
  | procTblRead => simp [Progresses, nextState, hst, walking, rank]
  | procTblWait =>
      cases hdone : i.dIn.done with
      | false => exact hwait (Or.inr (Or.inl hst)) hdone
      | true =>
          rw [Progresses, nextState_procTblWait hst hdone herr]
          by_cases hsize : nextSize (byteSwap i.dIn.data) = 0
          · exact Or.inl (if_pos hsize)
          · exact Or.inr ⟨by simp [walking, hsize], Or.inl (by simp [rank, hsize, hst])⟩
  | segmentCheck =>
      simp only [Progresses, nextState, hst, segmentCheck]
      split_ifs
      · exact Or.inl rfl
      · exact Or.inl rfl
      · refine Or.inr ⟨by simp [walking], Or.inl ?_⟩
        have hbound := (s.shift + 19 - s.maskSize.setWidth 6).isLt
        simp only [rank, hst]
        omega
  | radixLookup => simp [Progresses, nextState, hst, walking, rank]
  | radixReadWait =>
      cases hdone : i.dIn.done with
      | false => exact hwait (Or.inr (Or.inr hst)) hdone
      | true => exact progresses_radixReadWait hst hdone herr
  | radixLoadTlb => exact Or.inl (by simp [nextState, hst])

end States

end Microwatt.Mmu
