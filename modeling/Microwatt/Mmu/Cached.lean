import Microwatt.Mmu.Ends

/-!
# The table entries that are kept

A walk that does not read the partition table or the process table uses the entry that the last read
of it returned.  That read was made after every operation that could have changed its address or
that flushes the entries.
-/

namespace Microwatt.Mmu

/-- The address of the entry of the partition table. -/
def partAddr (ptcr : BitVec 64) : BitVec 64 :=
  BitVec.ofNat 64 ((ptcr.extractLsb' 12 44).toNat * 2 ^ 12 + 8)

/-- The address of the entry for `pid` of the process table that `prtb` describes. -/
def procAddr (prtb : BitVec 64) (pid : BitVec 32) : BitVec 64 :=
  BitVec.ofNat 64 (Bits.insertLow (prtb.extractLsb' 0 56).toNat
    (12 + min (prtb.extractLsb' 0 5).toNat 24) (16 * pid.toNat))

/-! ## What an edge does to the entries -/

section Step

variable {s : State} {i : Input}

/-- A tlbie that flushes the process table caches. -/
def flushes (l : Loadstore1ToMmu) : Bool := l.valid && l.tlbie && l.ric.getLsbD 1

def setsPtcr (l : Loadstore1ToMmu) : Bool := l.mtspr && l.sprnt

def setsPid (l : Loadstore1ToMmu) : Bool := l.mtspr && !l.sprnt

/-- In `IDLE` no entry is read; some are marked as not valid. -/
structure Marks (s s' : State) (l : Loadstore1ToMmu) : Prop where
  prtbl : s'.prtbl = s.prtbl
  pgtbl0 : s'.pgtbl0 = s.pgtbl0
  pgtbl3 : s'.pgtbl3 = s.pgtbl3
  ptbValid : s'.ptbValid = (s.ptbValid && !flushes l && !setsPtcr l)
  pt0Valid : s'.pt0Valid = (s.pt0Valid && !flushes l && !setsPtcr l && !setsPid l)
  pt3Valid : s'.pt3Valid = (s.pt3Valid && !flushes l && !setsPtcr l)
  ptcr : setsPtcr l = false → s'.ptcr = s.ptcr
  pid : setsPid l = false → s'.pid = s.pid

/-- The part for requests; the registers for PID and PTCR are left alone. -/
structure MarksRequest (s s' : State) (l : Loadstore1ToMmu) : Prop where
  prtbl : s'.prtbl = s.prtbl
  pgtbl0 : s'.pgtbl0 = s.pgtbl0
  pgtbl3 : s'.pgtbl3 = s.pgtbl3
  ptbValid : s'.ptbValid = (s.ptbValid && !flushes l)
  pt0Valid : s'.pt0Valid = (s.pt0Valid && !flushes l)
  pt3Valid : s'.pt3Valid = (s.pt3Valid && !flushes l)
  ptcr : s'.ptcr = s.ptcr
  pid : s'.pid = s.pid

theorem marks_idleRequest {v : State} {l : Loadstore1ToMmu} (h : SameTables s v) :
    MarksRequest s (idleRequest s l v) l := by
  have hquiet : ∀ w : State, SameTables s w → flushes l = false → MarksRequest s w l := by
    intro w hw hf
    refine ⟨hw.prtbl, hw.pgtbl0, hw.pgtbl3, ?_, ?_, ?_, hw.ptcr, hw.pid⟩ <;> rw [hf]
    · rw [hw.ptbValid, Bool.not_false, Bool.and_true]
    · rw [hw.pt0Valid, Bool.not_false, Bool.and_true]
    · rw [hw.pt3Valid, Bool.not_false, Bool.and_true]
  simp only [idleRequest]
  split_ifs with hv ht
  · refine ⟨h.prtbl, h.pgtbl0, h.pgtbl3, ?_, ?_, ?_, h.ptcr, h.pid⟩
    · simp [flushes, hv, ht, h.ptbValid, Bool.and_comm]
    · simp [flushes, hv, ht, h.pt0Valid, Bool.and_comm]
    · simp [flushes, hv, ht, h.pt3Valid, Bool.and_comm]
  · have hw := sameTables_idleWalk s
      { v with addr := l.addr, iside := l.iside, store := !(l.load || l.iside), priv := l.priv } l
    refine hquiet _ ⟨hw.ptcr.trans h.ptcr, hw.pid.trans h.pid, hw.prtbl.trans h.prtbl,
      hw.ptbValid.trans h.ptbValid, hw.pgtbl0.trans h.pgtbl0, hw.pt0Valid.trans h.pt0Valid,
      hw.pgtbl3.trans h.pgtbl3, hw.pt3Valid.trans h.pt3Valid⟩ ?_
    simp [flushes, ht]
  · exact hquiet v h (by simp [flushes, hv])

theorem marks_idleMtspr {v : State} {l : Loadstore1ToMmu} (h : MarksRequest s v l) :
    Marks s (idleMtspr l v) l := by
  unfold idleMtspr
  cases hm : l.mtspr <;> cases hn : l.sprnt <;>
    (refine ⟨?_, ?_, ?_, ?_, ?_, ?_, ?_, ?_⟩ <;>
      simp [setsPtcr, setsPid, hm, hn, h.prtbl, h.pgtbl0, h.pgtbl3, h.ptbValid, h.pt0Valid,
        h.pt3Valid, h.ptcr, h.pid])

theorem marks_idle (hst : s.state = .idle) : Marks s (step s i) i.lIn := by
  have hnext : Marks s (nextState s i) i.lIn := by
    simp only [nextState, hst, idle]
    exact marks_idleMtspr (marks_idleRequest (by constructor <;> rfl))
  rw [step_eq]
  exact ⟨hnext.prtbl, hnext.pgtbl0, hnext.pgtbl3, hnext.ptbValid, hnext.pt0Valid, hnext.pt3Valid,
    hnext.ptcr, hnext.pid⟩

/-- An edge that leaves the entries alone. -/
theorem sameTables_step (hidle : s.state ≠ .idle)
    (hpart : s.state = .partTblWait → i.dIn.done = false)
    (hproc : s.state = .procTblWait → i.dIn.done = false) : SameTables s (step s i) := by
  have hnext : SameTables s (nextState s i) := by
    by_cases hp : s.state = .partTblWait
    · simp only [nextState, hp, hpart hp, Bool.false_eq_true, if_false]
      constructor <;> rfl
    · by_cases hq : s.state = .procTblWait
      · simp only [nextState, hq, procTblWait, hproc hq, fail, Bool.false_eq_true, if_false]
        constructor <;> split_ifs <;> rfl
      · exact sameTables_nextState hidle hp hq
  rw [step_eq]
  exact ⟨hnext.ptcr, hnext.pid, hnext.prtbl, hnext.ptbValid, hnext.pgtbl0, hnext.pt0Valid,
    hnext.pgtbl3, hnext.pt3Valid⟩

/-- The entry of the partition table arrives. -/
theorem step_partTblWait (hst : s.state = .partTblWait) (hdone : i.dIn.done = true) :
    step s i = { cleared s with
      prtbl := byteSwap i.dIn.data, ptbValid := true, state := .partTblDone } := by
  simp [step, nextState, hst, hdone, cleared]

/-- The entry of the process table arrives; the other registers that matter are kept. -/
structure Takes (s s' : State) (e : BitVec 64) : Prop where
  ptcr : s'.ptcr = s.ptcr
  pid : s'.pid = s.pid
  prtbl : s'.prtbl = s.prtbl
  ptbValid : s'.ptbValid = s.ptbValid
  pgtbl0 : s'.pgtbl0 = if s.addr.getLsbD 63 then s.pgtbl0 else e
  pt0Valid : s'.pt0Valid = (!s.addr.getLsbD 63 || s.pt0Valid)
  pgtbl3 : s'.pgtbl3 = if s.addr.getLsbD 63 then e else s.pgtbl3
  pt3Valid : s'.pt3Valid = (s.addr.getLsbD 63 || s.pt3Valid)

theorem takes_procTblWait (hst : s.state = .procTblWait) (hdone : i.dIn.done = true) :
    Takes s (step s i) (byteSwap i.dIn.data) := by
  have hfail : ∀ {e : BitVec 64} {v : State} (c : Causes), Takes s v e → Takes s (fail v c) e :=
    fun _ h => ⟨h.ptcr, h.pid, h.prtbl, h.ptbValid, h.pgtbl0, h.pt0Valid, h.pgtbl3, h.pt3Valid⟩
  have hnext : Takes s (nextState s i) (byteSwap i.dIn.data) := by
    have hroot : ∀ (v : State), Takes s v (byteSwap i.dIn.data) → Takes s
        (if mbitsOf (byteSwap i.dIn.data) == 0 then
          fail (setRoot v (byteSwap i.dIn.data)) { Causes.none with invalid := true }
        else { setRoot v (byteSwap i.dIn.data) with state := .segmentCheck })
        (byteSwap i.dIn.data) := by
      intro v h
      split_ifs <;> exact ⟨h.ptcr, h.pid, h.prtbl, h.ptbValid, h.pgtbl0, h.pt0Valid, h.pgtbl3,
        h.pt3Valid⟩
    have htaken : Takes s
        (if s.addr.getLsbD 63 then
          { s with
            valid := false, done := false, err := false, causes := .none, invalAll := false
            pgtbl3 := byteSwap i.dIn.data, pt3Valid := true }
        else
          { s with
            valid := false, done := false, err := false, causes := .none, invalAll := false
            pgtbl0 := byteSwap i.dIn.data, pt0Valid := true })
        (byteSwap i.dIn.data) := by
      constructor <;> generalize s.addr.getLsbD 63 = upper <;> cases upper <;> rfl
    have hdata := hroot _ htaken
    simp only [nextState, hst, procTblWait, hdone, if_true] at hdata ⊢
    cases i.dIn.err with
    | true => exact hfail _ hdata
    | false => exact hdata
  rw [step_eq]
  exact ⟨hnext.ptcr, hnext.pid, hnext.prtbl, hnext.ptbValid, hnext.pgtbl0, hnext.pt0Valid,
    hnext.pgtbl3, hnext.pt3Valid⟩

end Step

/-! ## Runs -/

section Run

variable (s : State) (ins : Nat → Input)

/-- A read of `a` is issued at edge `j` and has no answer before edge `n`. -/
structure Asked (a : BitVec 64) (j n : Nat) : Prop where
  later : j < n
  issued : (dOut (regs s ins j)).valid = true
  addr : (dOut (regs s ins j)).addr = a
  unanswered : ∀ k, j < k → k < n → (ins k).dIn.done = false
  busy : ∀ k, j ≤ k → k < n → (regs s ins k).state ≠ .idle

/-- `e` is what a read of `a` returned, and no operation of the kind `op` has been accepted since
that was issued. -/
def ReadSince (op : Loadstore1ToMmu → Bool) (a e : BitVec 64) (n : Nat) : Prop :=
  ∃ j k, Asked s ins a j k ∧ k < n ∧ (ins k).dIn.done = true ∧ byteSwap (ins k).dIn.data = e ∧
    ∀ l, j ≤ l → l < n → (regs s ins l).state = .idle → op (ins l).lIn = false

/-- The operations after which the process table has to be found anew. -/
def dropsPart (l : Loadstore1ToMmu) : Bool := flushes l || setsPtcr l

/-- The operations after which the entry for PID has to be read anew. -/
def dropsProc (l : Loadstore1ToMmu) : Bool := dropsPart l || setsPid l

/-- The entry of the partition table that is kept. -/
def PrtblFresh (n : Nat) : Prop :=
  ReadSince s ins dropsPart (partAddr (regs s ins n).ptcr) (regs s ins n).prtbl n

/-- The entries of the process table that are kept. -/
def Pgtbl0Fresh (n : Nat) : Prop :=
  ReadSince s ins dropsProc (procAddr (regs s ins n).prtbl (regs s ins n).pid)
    (regs s ins n).pgtbl0 n

def Pgtbl3Fresh (n : Nat) : Prop :=
  ReadSince s ins dropsPart (procAddr (regs s ins n).prtbl 0) (regs s ins n).pgtbl3 n

/-- The part of a walk that reads the tables. -/
def Reading (n : Nat) : Prop :=
  match (regs s ins n).state with
  | .partTblRead => (regs s ins n).ptbValid = false
  | .partTblWait => (regs s ins n).ptbValid = false ∧
      ∃ j, Asked s ins (partAddr (regs s ins n).ptcr) j n
  | .partTblDone => (regs s ins n).ptbValid = true
  | .procTblRead => (regs s ins n).ptbValid = true ∧
      (regs s ins n).shift = 0#1 ++ (regs s ins n).prtbl.extractLsb' 0 5
  | .procTblWait => (regs s ins n).ptbValid = true ∧
      ∃ j, Asked s ins (procAddr (regs s ins n).prtbl (effpid (regs s ins n))) j n
  | _ => True

/-- What is kept is fresh, and the entries of the process table are those of the process table that
is kept. -/
structure Kept (n : Nat) : Prop where
  prtbl : (regs s ins n).ptbValid = true → PrtblFresh s ins n
  pgtbl0 : (regs s ins n).pt0Valid = true → (regs s ins n).ptbValid = true ∧ Pgtbl0Fresh s ins n
  pgtbl3 : (regs s ins n).pt3Valid = true → (regs s ins n).ptbValid = true ∧ Pgtbl3Fresh s ins n
  reading : Reading s ins n

variable {s ins}

theorem ReadSince.extend {op : Loadstore1ToMmu → Bool} {a e : BitVec 64} {n : Nat}
    (h : ReadSince s ins op a e n)
    (hop : (regs s ins n).state = .idle → op (ins n).lIn = false) :
    ReadSince s ins op a e (n + 1) := by
  obtain ⟨j, k, hask, hk, hdone, hdata, hno⟩ := h
  refine ⟨j, k, hask, by omega, hdone, hdata, fun l hj hl hidle => ?_⟩
  rcases Nat.lt_succ_iff_lt_or_eq.mp hl with hlt | rfl
  · exact hno l hj hlt hidle
  · exact hop hidle

/-- The answer to a read. -/
theorem Asked.answered {a : BitVec 64} {j n : Nat} (h : Asked s ins a j n)
    (hst : (regs s ins n).state ≠ .idle) (hdone : (ins n).dIn.done = true)
    (op : Loadstore1ToMmu → Bool) :
    ReadSince s ins op a (byteSwap (ins n).dIn.data) (n + 1) := by
  refine ⟨j, n, h, Nat.lt_succ_self n, hdone, rfl, fun l hj hl hidle => ?_⟩
  rcases Nat.lt_succ_iff_lt_or_eq.mp hl with hlt | rfl
  · exact absurd hidle (h.busy l hj hlt)
  · exact absurd hidle hst

theorem Asked.wait {a : BitVec 64} {j n : Nat} (h : Asked s ins a j n)
    (hst : (regs s ins n).state ≠ .idle) (hdone : (ins n).dIn.done = false) :
    Asked s ins a j (n + 1) := by
  have hlater := h.later
  refine ⟨by omega, h.issued, h.addr, fun k hj hk => ?_, fun k hj hk => ?_⟩
  · rcases Nat.lt_succ_iff_lt_or_eq.mp hk with hlt | rfl
    · exact h.unanswered k hj hlt
    · exact hdone
  · rcases Nat.lt_succ_iff_lt_or_eq.mp hk with hlt | rfl
    · exact h.busy k hj hlt
    · exact hst

theorem asked_now {a : BitVec 64} {n : Nat} (hissued : (dOut (regs s ins n)).valid = true)
    (haddr : (dOut (regs s ins n)).addr = a) (hst : (regs s ins n).state ≠ .idle) :
    Asked s ins a n (n + 1) := by
  refine ⟨Nat.lt_succ_self n, hissued, haddr, fun k hj hk => by omega, fun k hj hk => ?_⟩
  obtain rfl : k = n := by omega
  exact hst

theorem Kept.of_same {n : Nat} (h : Kept s ins n) (hst : (regs s ins n).state ≠ .idle)
    (hsame : SameTables (regs s ins n) (regs s ins (n + 1))) (hread : Reading s ins (n + 1)) :
    Kept s ins (n + 1) := by
  have hext : ∀ {op a e}, ReadSince s ins op a e n → ReadSince s ins op a e (n + 1) :=
    fun hr => hr.extend fun hidle => absurd hidle hst
  refine ⟨fun hv => ?_, fun hv => ?_, fun hv => ?_, hread⟩
  · rw [hsame.ptbValid] at hv
    unfold PrtblFresh
    rw [hsame.ptcr, hsame.prtbl]
    exact hext (h.prtbl hv)
  · rw [hsame.pt0Valid] at hv
    unfold Pgtbl0Fresh
    rw [hsame.ptbValid, hsame.prtbl, hsame.pid, hsame.pgtbl0]
    exact ⟨(h.pgtbl0 hv).1, hext (h.pgtbl0 hv).2⟩
  · rw [hsame.pt3Valid] at hv
    unfold Pgtbl3Fresh
    rw [hsame.ptbValid, hsame.prtbl, hsame.pgtbl3]
    exact ⟨(h.pgtbl3 hv).1, hext (h.pgtbl3 hv).2⟩

/-- A read goes on, outside `IDLE` and unless its answer comes. -/
theorem Reading.step {n : Nat} (h : Reading s ins n) (hst : (regs s ins n).state ≠ .idle)
    (hpart : (regs s ins n).state = .partTblWait → (ins n).dIn.done = false)
    (hproc : (regs s ins n).state = .procTblWait → (ins n).dIn.done = false) :
    Reading s ins (n + 1) := by
  have hsame : SameTables (regs s ins n) (regs s ins (n + 1)) := sameTables_step hst hpart hproc
  have hregs : SameRegs (regs s ins n) (regs s ins (n + 1)) := sameRegs_step hst
  have hstate : (regs s ins (n + 1)).state = (nextState (regs s ins n) (ins n)).state := step_state
  unfold Reading at h ⊢
  cases hs : (regs s ins n).state with
  | idle => exact absurd hs hst
  | partTblRead =>
      have hnext : (regs s ins (n + 1)).state = .partTblWait := by
        rw [hstate]
        simp [nextState, hs]
      rw [hs] at h
      rw [hnext]
      refine ⟨hsame.ptbValid.trans h, n, ?_⟩
      rw [hsame.ptcr]
      refine asked_now (by simp [dOut, hs]) ?_ hst
      simp only [dOut, hs]
      exact parttblAddr_eq _
  | partTblWait =>
      have hnext : (regs s ins (n + 1)).state = .partTblWait := by
        rw [hstate]
        simp [nextState, hs, hpart hs]
      rw [hs] at h
      rw [hnext]
      obtain ⟨hv, j, hask⟩ := h
      exact ⟨hsame.ptbValid.trans hv, j, hsame.ptcr ▸ hask.wait hst (hpart hs)⟩
  | partTblDone =>
      have hnext : (regs s ins (n + 1)).state = .procTblRead := by
        rw [hstate]
        simp [nextState, hs]
      have hshift : (regs s ins (n + 1)).shift = 0#1 ++ (regs s ins n).prtbl.extractLsb' 0 5 := by
        rw [regs_succ, step_shift]
        simp [nextState, hs]
      rw [hs] at h
      rw [hnext]
      exact ⟨hsame.ptbValid.trans h, by rw [hshift, hsame.prtbl]⟩
  | procTblRead =>
      have hnext : (regs s ins (n + 1)).state = .procTblWait := by
        rw [hstate]
        simp [nextState, hs]
      rw [hs] at h
      rw [hnext]
      refine ⟨hsame.ptbValid.trans h.1, n, ?_⟩
      rw [hsame.prtbl, hregs.effpid]
      refine asked_now (by simp [dOut, hs]) ?_ hst
      simp only [dOut, hs]
      exact prtableAddr_eq _ h.2
  | procTblWait =>
      rw [hs] at h
      cases herr : (ins n).dIn.err with
      | true =>
          rw [hstate, (nextState_err (Or.inl hs) herr).1]
          trivial
      | false =>
          have hnext : (regs s ins (n + 1)).state = .procTblWait := by
            rw [hstate, nextState_waiting (Or.inr (Or.inl hs)) (hproc hs) herr]
            exact hs
          rw [hnext]
          obtain ⟨hv, j, hask⟩ := h
          refine ⟨hsame.ptbValid.trans hv, j, ?_⟩
          rw [hsame.prtbl, hregs.effpid]
          exact hask.wait hst (hproc hs)
  | segmentCheck =>
      rw [hstate]
      simp only [nextState, hs, segmentCheck, fail]
      split_ifs <;> trivial
  | radixReadWait =>
      rw [hstate]
      rcases readWait_step (i := ins n) hs with ⟨hn, -⟩ | ⟨hn, -⟩ | hn | hn <;>
        rw [step_state] at hn <;> rw [hn] <;> trivial
  | _ =>
      rw [hstate]
      simp [nextState, hs]

/-- What a walk reads first. -/
theorem reading_idle {n : Nat} (hidle : (regs s ins n).state = .idle) : Reading s ins (n + 1) := by
  have hstate : (regs s ins (n + 1)).state = (nextState (regs s ins n) (ins n)).state := step_state
  have hshift : (regs s ins (n + 1)).shift = (nextState (regs s ins n) (ins n)).shift := step_shift
  unfold Reading
  by_cases hl : StartsWalk (ins n).lIn
  · have hmarks : Marks (regs s ins n) (regs s ins (n + 1)) (ins n).lIn := marks_idle hidle
    have hptb : (regs s ins (n + 1)).ptbValid = (regs s ins n).ptbValid := by
      rw [hmarks.ptbValid]
      simp [flushes, setsPtcr, hl.tlbie, hl.mtspr]
    have hnext := nextState_start (t := ⟨regs s ins n, 0⟩) (i := ins n) hidle hl
    simp only at hnext
    rw [idleWalk_eq] at hnext
    rw [hstate, hptb, hshift, hmarks.prtbl, hnext]
    split_ifs with h1 h2 h3
    · exact h1
    · exact ⟨by simpa using h1, rfl⟩
    · trivial
    · trivial
  · rcases nextState_idle_other (t := ⟨regs s ins n, 0⟩) (i := ins n) hidle hl with h | h
    · simp only at h
      rw [hstate, h]
      trivial
    · simp only at h
      rw [hstate, h]
      trivial

/-- Nothing is read of the tables after the entry of the process table. -/
theorem reading_taken {n : Nat} (hst : (regs s ins n).state = .procTblWait)
    (hdone : (ins n).dIn.done = true) : Reading s ins (n + 1) := by
  have hstate : (regs s ins (n + 1)).state = (nextState (regs s ins n) (ins n)).state := step_state
  unfold Reading
  rw [hstate]
  simp only [nextState, hst, procTblWait, hdone, if_true, fail]
  split_ifs <;> trivial

theorem Kept.step {n : Nat} (h : Kept s ins n) : Kept s ins (n + 1) := by
  by_cases hidle : (regs s ins n).state = .idle
  · have hmarks : Marks (regs s ins n) (regs s ins (n + 1)) (ins n).lIn := marks_idle hidle
    refine ⟨fun hv => ?_, fun hv => ?_, fun hv => ?_, reading_idle hidle⟩
    · rw [hmarks.ptbValid] at hv
      simp only [Bool.and_eq_true, Bool.not_eq_true'] at hv
      obtain ⟨⟨hold, hf⟩, hp⟩ := hv
      unfold PrtblFresh
      rw [hmarks.ptcr hp, hmarks.prtbl]
      exact (h.prtbl hold).extend fun _ => by simp [dropsPart, hf, hp]
    · rw [hmarks.pt0Valid] at hv
      simp only [Bool.and_eq_true, Bool.not_eq_true'] at hv
      obtain ⟨⟨⟨hold, hf⟩, hp⟩, hq⟩ := hv
      unfold Pgtbl0Fresh
      rw [hmarks.ptbValid, hmarks.prtbl, hmarks.pid hq, hmarks.pgtbl0]
      refine ⟨by simp [(h.pgtbl0 hold).1, hf, hp], (h.pgtbl0 hold).2.extend fun _ => ?_⟩
      simp [dropsProc, dropsPart, hf, hp, hq]
    · rw [hmarks.pt3Valid] at hv
      simp only [Bool.and_eq_true, Bool.not_eq_true'] at hv
      obtain ⟨⟨hold, hf⟩, hp⟩ := hv
      unfold Pgtbl3Fresh
      rw [hmarks.ptbValid, hmarks.prtbl, hmarks.pgtbl3]
      refine ⟨by simp [(h.pgtbl3 hold).1, hf, hp], (h.pgtbl3 hold).2.extend fun _ => ?_⟩
      simp [dropsPart, hf, hp]
  · by_cases hpart : (regs s ins n).state = .partTblWait ∧ (ins n).dIn.done = true
    · obtain ⟨hst, hdone⟩ := hpart
      have hread := h.reading
      unfold Reading at hread
      rw [hst] at hread
      obtain ⟨hv, j, hask⟩ := hread
      have hnext : regs s ins (n + 1) = { cleared (regs s ins n) with
          prtbl := byteSwap (ins n).dIn.data, ptbValid := true, state := .partTblDone } :=
        step_partTblWait hst hdone
      refine ⟨fun _ => ?_, fun hv0 => ?_, fun hv3 => ?_, ?_⟩
      · unfold PrtblFresh
        rw [hnext]
        exact hask.answered hidle hdone dropsPart
      · rw [hnext] at hv0
        rw [(h.pgtbl0 hv0).1] at hv
        cases hv
      · rw [hnext] at hv3
        rw [(h.pgtbl3 hv3).1] at hv
        cases hv
      · unfold Reading
        rw [hnext]
    · by_cases hproc : (regs s ins n).state = .procTblWait ∧ (ins n).dIn.done = true
      · obtain ⟨hst, hdone⟩ := hproc
        have hread := h.reading
        unfold Reading at hread
        rw [hst] at hread
        obtain ⟨hv, j, hask⟩ := hread
        have ht : Takes (regs s ins n) (regs s ins (n + 1)) (byteSwap (ins n).dIn.data) :=
          takes_procTblWait hst hdone
        have hext : ∀ {op a e}, ReadSince s ins op a e n → ReadSince s ins op a e (n + 1) :=
          fun hr => hr.extend fun hi => absurd hi hidle
        have hans := fun op => hask.answered hidle hdone op
        unfold effpid at hans
        refine ⟨fun hp => ?_, fun hv0 => ?_, fun hv3 => ?_, ?_⟩
        · unfold PrtblFresh
          rw [ht.ptcr, ht.prtbl]
          exact hext (h.prtbl hv)
        · refine ⟨ht.ptbValid.trans hv, ?_⟩
          rw [ht.pt0Valid] at hv0
          unfold Pgtbl0Fresh
          rw [ht.prtbl, ht.pid, ht.pgtbl0]
          cases hupper : (regs s ins n).addr.getLsbD 63 with
          | false =>
              have hread := hans dropsProc
              rw [hupper] at hread
              exact hread
          | true =>
              rw [hupper] at hv0
              exact hext (h.pgtbl0 hv0).2
        · refine ⟨ht.ptbValid.trans hv, ?_⟩
          rw [ht.pt3Valid] at hv3
          unfold Pgtbl3Fresh
          rw [ht.prtbl, ht.pgtbl3]
          cases hupper : (regs s ins n).addr.getLsbD 63 with
          | false =>
              rw [hupper] at hv3
              exact hext (h.pgtbl3 hv3).2
          | true =>
              have hread := hans dropsPart
              rw [hupper] at hread
              exact hread
        · exact reading_taken hst hdone
      · have hp : (regs s ins n).state = .partTblWait → (ins n).dIn.done = false := fun hst => by
          simpa [hst] using hpart
        have hq : (regs s ins n).state = .procTblWait → (ins n).dIn.done = false := fun hst => by
          simpa [hst] using hproc
        exact h.of_same hidle (sameTables_step hidle hp hq) (h.reading.step hidle hp hq)

theorem kept_of_reset (hs : AfterReset s) : Kept s ins 0 := by
  have hvalid : (regs s ins 0) = s := rfl
  refine ⟨fun h => ?_, fun h => ?_, fun h => ?_, ?_⟩
  · rw [hvalid, hs.ptbValid] at h
    cases h
  · rw [hvalid, hs.pt0Valid] at h
    cases h
  · rw [hvalid, hs.pt3Valid] at h
    cases h
  · unfold Reading
    rw [hvalid, hs.state]
    trivial

theorem kept (hs : AfterReset s) (n : Nat) : Kept s ins n := by
  induction n with
  | zero => exact kept_of_reset hs
  | succ n ih => exact ih.step

/-- The registers that a walk starts from describe the tree of `e`. -/
structure RootIs (v : State) (e : BitVec 64) : Prop where
  shift : v.shift = rtsOf e
  maskSize : v.maskSize = (mbitsOf e).setWidth 5
  pgbase : v.pgbase = baseOf e

variable (s ins)

/-- What a walk uses of the entries that are kept.  A walk that is accepted at edge `n` and does not
read the partition table uses the process table that is kept, and one that does not read the process
table either starts from the tree that is kept; a read of the process table at edge `n` is made at
the address that the entry of the partition table gives. -/
structure UsesFresh (n : Nat) : Prop where
  prtbl : (regs s ins n).state = .idle → StartsWalk (ins n).lIn →
    (regs s ins (n + 1)).state ≠ .partTblRead → PrtblFresh s ins n
  root : (regs s ins n).state = .idle → StartsWalk (ins n).lIn →
    (regs s ins (n + 1)).state ≠ .partTblRead → (regs s ins (n + 1)).state ≠ .procTblRead →
      RootIs (regs s ins (n + 1)) (keptRoot (regs s ins n) (ins n).lIn) ∧
        (if (ins n).lIn.addr.getLsbD 63 then Pgtbl3Fresh s ins n else Pgtbl0Fresh s ins n)
  read : (regs s ins n).state = .procTblRead →
    PrtblFresh s ins n ∧
      (dOut (regs s ins n)).addr = procAddr (regs s ins n).prtbl (effpid (regs s ins n))

variable {s ins}

/-- What a walk that starts finds marked as valid. -/
theorem marked_of_start {n : Nat} (hidle : (regs s ins n).state = .idle)
    (hl : StartsWalk (ins n).lIn) (hpart : (regs s ins (n + 1)).state ≠ .partTblRead) :
    (regs s ins n).ptbValid = true ∧ ((regs s ins (n + 1)).state ≠ .procTblRead →
      keptValid (regs s ins n) (ins n).lIn = true ∧
        RootIs (regs s ins (n + 1)) (keptRoot (regs s ins n) (ins n).lIn)) := by
  have hnext := nextState_start (t := ⟨regs s ins n, 0⟩) (i := ins n) hidle hl
  simp only [idleWalk_eq] at hnext
  have hregs : ∀ v, nextState (regs s ins n) (ins n) = v →
      (regs s ins (n + 1)).state = v.state ∧
        (RootIs v (keptRoot (regs s ins n) (ins n).lIn) →
          RootIs (regs s ins (n + 1)) (keptRoot (regs s ins n) (ins n).lIn)) := by
    rintro v rfl
    rw [regs_succ, step_eq]
    exact ⟨rfl, fun h => ⟨h.shift, h.maskSize, h.pgbase⟩⟩
  by_cases hptb : (regs s ins n).ptbValid = false
  · rw [if_pos hptb] at hnext
    exact absurd (hregs _ hnext).1 hpart
  · rw [if_neg hptb] at hnext
    refine ⟨by simpa using hptb, fun hproc => ?_⟩
    by_cases hpt : keptValid (regs s ins n) (ins n).lIn = false
    · rw [if_pos hpt] at hnext
      exact absurd (hregs _ hnext).1 hproc
    · rw [if_neg hpt] at hnext
      refine ⟨by simpa using hpt, (hregs _ hnext).2 ?_⟩
      split_ifs <;> exact ⟨rfl, rfl, rfl⟩

/-- No walk uses a stale entry. -/
theorem uses_fresh (s : State) (ins : Nat → Input) (hs : AfterReset s) (n : Nat) :
    UsesFresh s ins n := by
  have hkept : Kept s ins n := kept hs n
  refine ⟨fun hidle hl hpart => ?_, fun hidle hl hpart hproc => ?_, fun hst => ?_⟩
  · exact hkept.prtbl (marked_of_start hidle hl hpart).1
  · obtain ⟨hvalid, hroot⟩ := (marked_of_start hidle hl hpart).2 hproc
    refine ⟨hroot, ?_⟩
    unfold keptValid at hvalid
    split_ifs at hvalid ⊢
    · exact (hkept.pgtbl3 hvalid).2
    · exact (hkept.pgtbl0 hvalid).2
  · have hread := hkept.reading
    unfold Reading at hread
    rw [hst] at hread
    refine ⟨hkept.prtbl hread.1, ?_⟩
    simp only [dOut, hst]
    exact prtableAddr_eq _ hread.2

end Run

theorem uses_fresh_zeroes : (regs .cold (firstRequest true false) 4).state = .procTblRead ∧
    UsesFresh .cold (firstRequest true false) 4 :=
  ⟨rfl, uses_fresh .cold (firstRequest true false) afterReset_cold 4⟩

end Microwatt.Mmu
