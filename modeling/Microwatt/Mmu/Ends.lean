import Microwatt.Mmu.Walk
import Microwatt.Lib.Fair

/-!
# Every operation ends

An operation that is accepted in `IDLE` comes to `RADIX_FINISH`, after at most two reads of tables
and one read for each level of the tree, unless the read of the partition table is answered with an
error: `PART_TBL_WAIT` does not look at that.
-/

namespace Microwatt.Mmu

/-! ## The remaining bits -/

/-- The number of address bits that are left is small enough, and the check of a root starts from
the size of a tree. -/
structure Sized (s : State) : Prop where
  root : s.state = .segmentCheck → s.shift.toNat ≤ 31
  tree : s.state = .radixLookup ∨ s.state = .radixReadWait → s.shift.toNat ≤ 45

section Step

variable {s : State} {i : Input}

/-- An error counts in a wait state only. -/
theorem nextState_no_err (h : waitsForRead s = false) :
    nextState s i = nextState s ⟨i.lIn, { i.dIn with err := false }⟩ := by
  unfold nextState
  cases hst : s.state <;> simp_all [waitsForRead]

/-- An error that is answered to a read of the process table or of the tree ends the walk. -/
theorem nextState_err (h : s.state = .procTblWait ∨ s.state = .radixReadWait)
    (herr : i.dIn.err = true) :
    (nextState s i).state = .radixFinish ∧ (nextState s i).causes.any = true := by
  unfold nextState
  rcases h with hst | hst
  · simp [hst, procTblWait, herr, fail, Causes.any]
  · simp [hst, radixReadWait, herr, fail, Causes.any]

theorem step_state : (step s i).state = (nextState s i).state := by
  rw [step_eq]

theorem step_shift : (step s i).shift = (nextState s i).shift := by
  rw [step_eq]

end Step

/-- An operation is in progress. -/
def active (s : State) : Bool :=
  s.state != .idle && s.state != .radixFinish

/-- A bound on the edges and answers that are left of an operation. -/
def left (s : State) : Nat :=
  if s.state = .doTlbie then 1 else rank s

section Step

variable {s : State} {i : Input}

theorem walking_or_doTlbie (h : active s = true) : walking s = true ∨ s.state = .doTlbie := by
  unfold active at h
  unfold walking
  cases hst : s.state <;> simp_all

theorem active_of_walking (h : walking s = true) : active s = true ∧ s.state ≠ .doTlbie := by
  unfold walking at h
  unfold active
  cases hst : s.state <;> simp_all

/-- An operation ends, gets further, or waits for an answer. -/
theorem active_step (h : active s = true) (hpart : s.state = .partTblWait → i.dIn.err = false) :
    (step s i).state = .radixFinish ∨ active (step s i) = true ∧
      (left (step s i) < left s ∨ left (step s i) = left s ∧ waitsForRead s = true ∧
        waitsForRead (step s i) = true ∧ i.dIn.done = false ∧ i.dIn.err = false) := by
  have hleft : ∀ v : State, walking v = true → left v = rank v := fun v hv =>
    if_neg (active_of_walking hv).2
  have hsame : ∀ v w : State, v.state = w.state → v.shift = w.shift →
      active v = active w ∧ walking v = walking w ∧ rank v = rank w ∧
        waitsForRead v = waitsForRead w := by
    intro v w hst hsh
    simp only [active, walking, rank, waitsForRead, hst, hsh, and_self]
  obtain ⟨ha, hwalk, hrank, hwait⟩ := hsame (step s i) (nextState s i) step_state step_shift
  rcases walking_or_doTlbie h with hw | hst
  · -- the answer matters in a wait state only
    have hprog : i.dIn.err = false → (step s i).state = .radixFinish ∨ active (step s i) = true ∧
        (left (step s i) < left s ∨ left (step s i) = left s ∧ waitsForRead s = true ∧
          waitsForRead (step s i) = true ∧ i.dIn.done = false ∧ i.dIn.err = false) := by
      intro herr
      rw [step_state]
      refine (progresses_of_walking hw herr).imp_right ?_
      rintro ⟨hwn, hr⟩
      rw [hleft _ (hwalk.trans hwn), hleft _ hw, ha, hrank, hwait]
      refine ⟨(active_of_walking hwn).1, hr.imp_right ?_⟩
      rintro ⟨h1, h2, h3, h4⟩
      exact ⟨h1, h2, h3, h4, herr⟩
    cases herr : i.dIn.err with
    | false => exact herr ▸ hprog herr
    | true =>
        cases hwt : waitsForRead s with
        | true =>
            left
            rw [step_state]
            have hst : s.state = .procTblWait ∨ s.state = .radixReadWait := by
              have hno : s.state ≠ .partTblWait := fun hp => by simp [hpart hp] at herr
              unfold waitsForRead at hwt
              simpa [hno] using hwt
            exact (nextState_err hst herr).1
        | false =>
            have hno := nextState_no_err (i := i) hwt
            have hprog' := progresses_of_walking (i := ⟨i.lIn, { i.dIn with err := false }⟩) hw rfl
            unfold Progresses at hprog'
            rw [← hno, hwt] at hprog'
            rw [step_state]
            refine hprog'.imp_right ?_
            rintro ⟨hwn, hr⟩
            rw [hleft _ (hwalk.trans hwn), hleft _ hw, ha, hrank]
            refine ⟨(active_of_walking hwn).1, Or.inl (hr.resolve_right ?_)⟩
            rintro ⟨-, hf, -⟩
            cases hf
  · left
    rw [step_state]
    simp [nextState, hst]

/-- The states that an edge can lead to. -/
def successors : StateT → List StateT
  | .idle => [.idle, .doTlbie, .partTblRead, .procTblRead, .segmentCheck, .radixFinish]
  | .doTlbie => [.radixFinish]
  | .partTblRead => [.partTblWait]
  | .partTblWait => [.partTblWait, .partTblDone]
  | .partTblDone => [.procTblRead]
  | .procTblRead => [.procTblWait]
  | .procTblWait => [.procTblWait, .segmentCheck, .radixFinish]
  | .segmentCheck => [.radixLookup, .radixFinish]
  | .radixLookup => [.radixReadWait]
  | .radixReadWait => [.radixReadWait, .radixLookup, .radixLoadTlb, .radixFinish]
  | .radixLoadTlb => [.radixFinish]
  | .radixFinish => [.idle]

theorem idle_state_mem {v : State} (hv : v.state = .idle) :
    (idle s i.lIn v).state ∈ successors .idle := by
  have hwalk (u : State) : (idleWalk s i.lIn u).state ∈ successors .idle := by
    unfold idleWalk fail
    dsimp only
    generalize (if i.lIn.addr.getLsbD 63 then s.pt3Valid else s.pt0Valid) = ptValid
    generalize (mbitsOf _ == 0) = bad
    cases s.ptbValid <;> cases ptValid <;> cases bad <;> simp [successors]
  have hrequest (u : State) (hu : u.state = .idle) :
      (idleRequest s i.lIn u).state ∈ successors .idle := by
    unfold idleRequest
    dsimp only
    cases i.lIn.valid with
    | false => simp [hu, successors]
    | true =>
        cases i.lIn.tlbie with
        | false => exact hwalk _
        | true => simp [successors]
  unfold idle idleMtspr
  dsimp only
  cases i.lIn.mtspr with
  | false => exact hrequest _ hv
  | true => simp [successors]

theorem radixEntry_state_mem {d : BitVec 64} {v : State} :
    (radixEntry s d v).state ∈ successors .radixReadWait := by
  unfold radixEntry fail
  dsimp only
  split_ifs <;> simp [successors]

/-- Each edge leads to one of them. -/
theorem nextState_mem : (nextState s i).state ∈ successors s.state := by
  unfold nextState
  cases hst : s.state with
  | idle => exact idle_state_mem rfl
  | partTblWait =>
      dsimp only
      cases i.dIn.done <;> simp [successors]
  | procTblWait =>
      unfold procTblWait fail
      dsimp only
      generalize (mbitsOf (byteSwap i.dIn.data) == 0) = bad
      cases i.dIn.err <;> cases i.dIn.done <;> cases bad <;> simp [successors]
  | segmentCheck =>
      unfold segmentCheck fail
      dsimp only
      split_ifs <;> simp [successors]
  | radixReadWait =>
      unfold radixReadWait fail
      dsimp only
      cases i.dIn.err with
      | true => simp [successors]
      | false =>
          cases i.dIn.done with
          | true => exact radixEntry_state_mem
          | false => simp [successors]
  | _ => simp [successors]

/-- A read that is under way was issued at the edge before, or had no answer there. -/
theorem waitsForRead_step (hw : waitsForRead (step s i) = true)
    (hpart : s.state = .partTblWait → i.dIn.err = false) :
    (dOut s).valid = true ∨ waitsForRead s = true ∧ i.dIn.done = false ∧ i.dIn.err = false := by
  have hst' : waitsForRead (nextState s i) = true := by
    simpa only [waitsForRead, step_state] using hw
  cases hst : s.state with
  | partTblRead => exact Or.inl (by simp [dOut, hst])
  | procTblRead => exact Or.inl (by simp [dOut, hst])
  | radixLookup => exact Or.inl (by simp [dOut, hst])
  | partTblWait =>
      refine Or.inr ⟨by simp [waitsForRead, hst], ?_, hpart hst⟩
      by_contra hdone
      have hd : i.dIn.done = true := by simpa using hdone
      simp [nextState, hst, hd, waitsForRead] at hst'
  | procTblWait =>
      right
      cases herr : i.dIn.err with
      | true =>
          have := (nextState_err (Or.inl hst) herr).1
          simp [waitsForRead, this] at hst'
      | false =>
          refine ⟨by simp [waitsForRead, hst], ?_, rfl⟩
          by_contra hdone
          rw [nextState_procTblWait hst (by simpa using hdone) herr] at hst'
          simp only [waitsForRead] at hst'
          split_ifs at hst' <;> cases hst'
  | radixReadWait =>
      right
      cases herr : i.dIn.err with
      | true =>
          have := (nextState_err (Or.inr hst) herr).1
          simp [waitsForRead, this] at hst'
      | false =>
          refine ⟨by simp [waitsForRead, hst], ?_, rfl⟩
          by_contra hdone
          have hnext : nextState s i = radixEntry s (byteSwap i.dIn.data) (cleared s) := by
            simp [nextState, cleared, hst, radixReadWait, hdone, herr]
          rw [hnext] at hst'
          simp only [radixEntry, fail] at hst'
          split_ifs at hst' <;> simp [waitsForRead] at hst'
  | _ =>
      -- no other state is followed by a wait state
      have hmem := nextState_mem (s := s) (i := i)
      simp only [waitsForRead, Bool.or_eq_true, beq_iff_eq] at hst'
      rcases hst' with (h | h) | h <;> rw [hst, h] at hmem <;> exact absurd hmem (by decide)

/-- Between two reads of the tree. -/
theorem lookup_step (hst : s.state = .radixLookup) :
    (step s i).state = .radixReadWait ∧ (step s i).shift = s.shift := by
  rw [step_state, step_shift]
  simp [nextState, hst]

theorem readWait_step (hst : s.state = .radixReadWait) :
    ((step s i).state = .radixReadWait ∧ (step s i).shift = s.shift) ∨
      ((step s i).state = .radixLookup ∧ (step s i).shift.toNat + 5 ≤ s.shift.toNat) ∨
      (step s i).state = .radixLoadTlb ∨ (step s i).state = .radixFinish := by
  rw [step_state, step_shift]
  cases herr : i.dIn.err with
  | true => exact Or.inr (Or.inr (Or.inr (nextState_err (Or.inr hst) herr).1))
  | false =>
      cases hdone : i.dIn.done with
      | false =>
          left
          rw [nextState_waiting (Or.inr (Or.inr hst)) hdone herr]
          exact ⟨hst, rfl⟩
      | true =>
          right
          have hnext : nextState s i = radixEntry s (byteSwap i.dIn.data) (cleared s) := by
            simp [nextState, cleared, hst, radixReadWait, hdone, herr]
          rw [hnext]
          generalize byteSwap i.dIn.data = e
          have hlt := s.shift.isLt
          simp only [radixEntry, badSize_eq, toNat_mbitsOf, decide_eq_true_iff]
          split_ifs with hvalid hleaf hperm hbad
          · exact Or.inr (Or.inl rfl)
          · exact Or.inr (Or.inr rfl)
          · exact Or.inr (Or.inr rfl)
          · refine Or.inl ⟨rfl, ?_⟩
            simp only [cleared, BitVec.toNat_sub, toNat_mbitsOf]
            omega
          · exact Or.inr (Or.inr rfl)

theorem idleWalk_shift {v : State} (h : (idleWalk s i.lIn v).state = .segmentCheck) :
    (idleWalk s i.lIn v).shift = v.shift := by
  unfold idleWalk fail at h ⊢
  dsimp only at h ⊢
  split_ifs at h ⊢ <;> rfl

/-- The segment check starts with the size of the root that the edge has taken. -/
theorem idle_shift (hs : s.state = .idle) (hst : (nextState s i).state = .segmentCheck) :
    ∃ e, (nextState s i).shift = rtsOf e := by
  refine ⟨if i.lIn.addr.getLsbD 63 then s.pgtbl3 else s.pgtbl0, ?_⟩
  have hnext : nextState s i = idle s i.lIn (cleared s) := by
    simp only [nextState, cleared, hs]
  rw [hnext] at hst ⊢
  unfold idle idleMtspr at hst ⊢
  dsimp only at hst ⊢
  cases hm : i.lIn.mtspr with
  | true =>
      rw [hm] at hst
      cases hst
  | false =>
      rw [hm] at hst
      simp only [Bool.false_eq_true, if_false] at hst ⊢
      unfold idleRequest at hst ⊢
      cases hv : i.lIn.valid with
      | false => rfl
      | true =>
          cases ht : i.lIn.tlbie with
          | true =>
              simp only [hv, ht, if_true] at hst
              cases hst
          | false =>
              simp only [hv, ht, Bool.false_eq_true, if_false, if_true] at hst ⊢
              exact idleWalk_shift hst

theorem procTblWait_shift (hs : s.state = .procTblWait)
    (hst : (nextState s i).state = .segmentCheck) : ∃ e, (nextState s i).shift = rtsOf e := by
  refine ⟨byteSwap i.dIn.data, ?_⟩
  simp only [nextState, hs, procTblWait, fail] at hst ⊢
  split_ifs at hst ⊢ <;> rfl

theorem root_step (hst : (step s i).state = .segmentCheck) : (step s i).shift.toNat ≤ 31 := by
  rw [step_state] at hst
  rw [step_shift]
  have hroot : ∃ e, (nextState s i).shift = rtsOf e := by
    have hmem := nextState_mem (s := s) (i := i)
    rw [hst] at hmem
    cases hs : s.state with
    | idle => exact idle_shift hs hst
    | procTblWait => exact procTblWait_shift hs hst
    | _ =>
        rw [hs] at hmem
        exact absurd hmem (by decide)
  obtain ⟨e, he⟩ := hroot
  rw [he, toNat_rtsOf]
  exact treeSize_le e

/-- The states before a read of the tree. -/
theorem tree_of_step (htree : (step s i).state = .radixLookup ∨ (step s i).state = .radixReadWait) :
    s.state = .segmentCheck ∨ s.state = .radixLookup ∨ s.state = .radixReadWait := by
  rw [step_state] at htree
  have hmem := nextState_mem (s := s) (i := i)
  generalize s.state = st at hmem ⊢
  rcases htree with hnext | hnext <;> rw [hnext] at hmem <;> revert hmem <;> cases st <;> decide

theorem sized_step (h : Sized s) : Sized (step s i) := by
  refine ⟨root_step, fun htree => ?_⟩
  rcases tree_of_step htree with hst | hst | hst
  · have hsize := h.root hst
    rw [step_state, nextState_segmentCheck hst hsize] at htree
    rw [step_shift, nextState_segmentCheck hst hsize]
    cases hroot : rootCheck s with
    | some f => simp [hroot] at htree
    | none =>
        unfold rootCheck at hroot
        split_ifs at hroot with hseg hbad
        have hsum : (s.shift + 19).toNat = s.shift.toNat + 19 := by
          rw [BitVec.toNat_add]
          exact Nat.mod_eq_of_lt (by simp; omega)
        have hmask : (s.maskSize.setWidth 6).toNat = s.maskSize.toNat := by
          rw [BitVec.toNat_setWidth]
          exact Nat.mod_eq_of_lt (by have := s.maskSize.isLt; omega)
        simp only [BitVec.toNat_sub, hsum, hmask]
        omega
  · rw [(lookup_step hst).2]
    exact h.tree (Or.inl hst)
  · rcases readWait_step (i := i) hst with ⟨-, hsh⟩ | ⟨-, hsh⟩ | hno | hno
    · rw [hsh]
      exact h.tree (Or.inr hst)
    · have := h.tree (Or.inr hst)
      omega
    · simp [hno] at htree
    · simp [hno] at htree

end Step

/-! ## Runs -/

section Run

variable (s : State) (ins : Nat → Input)

/-- The registers before edge `n`. -/
def regs (n : Nat) : State := Clocked.trace step s ins n

/-- Loadstore1 asks for an operation in `IDLE`. -/
def Accepts (n : Nat) : Prop :=
  (regs s ins n).state = .idle ∧ ((ins n).lIn.valid = true ∨ (ins n).lIn.mtspr = true)

/-- Every read that is issued is answered, with done or with an error. -/
def Answered : Prop :=
  ∀ n, (dOut (regs s ins n)).valid = true →
    ∃ m, n < m ∧ ((ins m).dIn.done = true ∨ (ins m).dIn.err = true)

/-- A read of the partition table or of the process table is issued. -/
def readsTable (n : Nat) : Bool :=
  (regs s ins n).state == .partTblRead || (regs s ins n).state == .procTblRead

/-- A read of the tree is issued. -/
def readsTree (n : Nat) : Bool :=
  (regs s ins n).state == .radixLookup

/-- The operation that is accepted at edge `n` ends before edge `m`. -/
structure Ends (n m : Nat) : Prop where
  later : n < m
  finish : (regs s ins m).state = .radixFinish
  active : ∀ k, n < k → k < m → active (regs s ins k) = true
  /-- At most two reads of tables, and one for each level. -/
  tables : ((Finset.Ioo n m).filter fun k => readsTable s ins k).card ≤ 2
  tree : ((Finset.Ioo n m).filter fun k => readsTree s ins k).card ≤ 10
  /-- Each level takes five bits at least. -/
  levels : ∀ k l, n < k → k < l → l < m → readsTree s ins k → readsTree s ins l →
    (regs s ins l).shift.toNat + 5 ≤ (regs s ins k).shift.toNat
  bits : ∀ k, n < k → k < m → readsTree s ins k → (regs s ins k).shift.toNat ≤ 47
  /-- An error ends the operation. -/
  errors : ∀ k, n < k → k < m → waitsForRead (regs s ins k) = true → (ins k).dIn.err = true →
    m = k + 1 ∧ (regs s ins m).err = true ∧ (regs s ins m).done = false

/-- Every operation ends. -/
def OperationsEnd : Prop := ∀ n, Accepts s ins n → ∃ m, Ends s ins n m

/-- The read of the partition table is never answered with an error. -/
def PartitionReadOk : Prop :=
  ∀ n, (regs s ins n).state = .partTblWait → (ins n).dIn.err = false

variable {s ins}

theorem regs_succ (n : Nat) : regs s ins (n + 1) = step (regs s ins n) (ins n) := rfl

theorem sized_regs (hs : AfterReset s) (n : Nat) : Sized (regs s ins n) := by
  induction n with
  | zero =>
      refine ⟨fun h => ?_, fun h => ?_⟩
      · simp [regs, Clocked.trace, hs.state] at h
      · simp [regs, Clocked.trace, hs.state] at h
  | succ n ih => exact sized_step ih

/-- While a read is under way its answer is still to come. -/
theorem answered_of_waits (hs : AfterReset s) (ha : Answered s ins) (hp : PartitionReadOk s ins)
    (n : Nat) (hw : waitsForRead (regs s ins n) = true) :
    ∃ m, n ≤ m ∧ ((ins m).dIn.done = true ∨ (ins m).dIn.err = true) := by
  induction n with
  | zero => simp [waitsForRead, regs, Clocked.trace, hs.state] at hw
  | succ n ih =>
      rcases waitsForRead_step hw (hp n) with hv | ⟨hwn, hdone, herr⟩
      · exact ha n hv
      · obtain ⟨m, hm, hans⟩ := ih hwn
        refine ⟨m, ?_, hans⟩
        rcases hm.lt_or_eq with hlt | rfl
        · exact hlt
        · simp [hdone, herr] at hans

theorem left_pos {v : State} (h : active v = true) : 0 < left v := by
  unfold active at h
  unfold left rank
  cases hst : v.state <;> simp_all

/-- An operation in progress ends. -/
theorem exists_finish (hs : AfterReset s) (ha : Answered s ins) (hp : PartitionReadOk s ins)
    {n : Nat} (hact : active (regs s ins n) = true) :
    ∃ m, n ≤ m ∧ (regs s ins m).state = .radixFinish := by
  refine Clocked.eventually_of_rank
    (fun k => active (regs s ins k) = true ∨ (regs s ins k).state = .radixFinish)
    (fun k => (regs s ins k).state = .radixFinish) (fun k => left (regs s ins k))
    (fun k => waitsForRead (regs s ins k))
    (fun b k => b = true → (ins k).dIn.done = true ∨ (ins k).dIn.err = true) ?_ ?_ n (Or.inl hact)
  · intro k hk hnot
    have hak := hk.resolve_right hnot
    rcases active_step hak (hp k) with hfin | ⟨hnext, hlt | ⟨heq, hw, hw', hdone, herr⟩⟩
    · refine ⟨Or.inr hfin, Or.inl ?_⟩
      have hzero : left (regs s ins (k + 1)) = 0 := by
        have hfin' : (regs s ins (k + 1)).state = .radixFinish := hfin
        simp [left, rank, hfin']
      rw [hzero]
      exact left_pos hak
    · exact ⟨Or.inl hnext, Or.inl hlt⟩
    · refine ⟨Or.inl hnext, Or.inr ⟨heq, hw'.trans hw.symm, fun hhelp => ?_⟩⟩
      simpa [hdone, herr] using hhelp hw
  · intro k _
    cases hw : waitsForRead (regs s ins k) with
    | false => exact ⟨k, le_rfl, fun h => Bool.noConfusion h⟩
    | true =>
        obtain ⟨m, hm, hans⟩ := answered_of_waits hs ha hp k hw
        exact ⟨m, hm, fun _ => hans⟩

/-- The edges of an operation: it is in progress until the first edge at which it has ended. -/
theorem exists_first_finish (hs : AfterReset s) (ha : Answered s ins) (hp : PartitionReadOk s ins)
    {n : Nat} (hstart : active (regs s ins (n + 1)) = true ∨
      (regs s ins (n + 1)).state = .radixFinish) :
    ∃ m, n < m ∧ (regs s ins m).state = .radixFinish ∧
      ∀ k, n < k → k < m → active (regs s ins k) = true := by
  have hex : ∃ m, n < m ∧ (regs s ins m).state = .radixFinish := by
    rcases hstart with hact | hfin
    · obtain ⟨m, hm, hfin⟩ := exists_finish hs ha hp hact
      exact ⟨m, hm, hfin⟩
    · exact ⟨n + 1, Nat.lt_succ_self n, hfin⟩
  classical
  obtain ⟨hlt, hfin⟩ := Nat.find_spec hex
  refine ⟨Nat.find hex, hlt, hfin, fun k hk hkm => ?_⟩
  induction k, hk using Nat.le_induction with
  | base =>
      exact hstart.resolve_right fun h => Nat.find_min hex hkm ⟨Nat.lt_succ_self n, h⟩
  | succ k hk ih =>
      have hnk : n < k := hk
      rcases active_step (ih (by omega)) (hp k) with hfin' | ⟨hnext, -⟩
      · exact absurd ⟨by omega, hfin'⟩ (Nat.find_min hex hkm)
      · exact hnext

/-- The bound goes down. -/
theorem left_le (hp : PartitionReadOk s ins) {n m k l : Nat}
    (hact : ∀ j, n < j → j < m → active (regs s ins j) = true) (hk : n < k) (hkl : k ≤ l)
    (hl : l < m) :
    left (regs s ins l) ≤ left (regs s ins k) := by
  induction l, hkl using Nat.le_induction with
  | base => exact le_rfl
  | succ l hkl ih =>
      have ih' := ih (by omega)
      have hnext := hact (l + 1) (by omega) hl
      rcases active_step (hact l (by omega) (by omega)) (hp l) with hfin | ⟨-, hlt | ⟨heq, -⟩⟩
      · change (regs s ins (l + 1)).state = .radixFinish at hfin
        simp [active, hfin] at hnext
      · change left (regs s ins (l + 1)) < _ at hlt
        omega
      · change left (regs s ins (l + 1)) = _ at heq
        omega

/-- A state that does not wait comes once in an operation. -/
theorem once (hp : PartitionReadOk s ins) {n m k l : Nat}
    (hact : ∀ j, n < j → j < m → active (regs s ins j) = true) (hk : n < k) (hkl : k < l)
    (hl : l < m)
    (hw : waitsForRead (regs s ins k) = false) : left (regs s ins l) < left (regs s ins k) := by
  have hle := left_le hp hact (k := k + 1) (l := l) (by omega) (by omega) hl
  have hnext := hact (k + 1) (by omega) (by omega)
  rcases active_step (hact k hk (by omega)) (hp k) with hfin | ⟨-, hlt | ⟨-, hwait, -⟩⟩
  · change (regs s ins (k + 1)).state = .radixFinish at hfin
    simp [active, hfin] at hnext
  · change left (regs s ins (k + 1)) < _ at hlt
    omega
  · rw [hw] at hwait
    cases hwait

theorem card_once (hp : PartitionReadOk s ins) {n m : Nat}
    (hact : ∀ j, n < j → j < m → active (regs s ins j) = true) (st : StateT)
    (hwait : ∀ v : State, v.state = st → waitsForRead v = false)
    (hleft : ∃ c, ∀ v : State, v.state = st → left v = c) :
    ((Finset.Ioo n m).filter fun k => (regs s ins k).state = st).card ≤ 1 := by
  obtain ⟨c, hc⟩ := hleft
  rw [Finset.card_le_one]
  intro k hk l hl
  simp only [Finset.mem_filter, Finset.mem_Ioo] at hk hl
  have hne : ∀ {a b : Nat}, n < a → a < b → b < m → (regs s ins a).state = st →
      (regs s ins b).state ≠ st := by
    intro a b ha hab hb hsa hsb
    have hlt := once hp hact ha hab hb (hwait _ hsa)
    rw [hc _ hsa, hc _ hsb] at hlt
    exact lt_irrefl _ hlt
  rcases lt_trichotomy k l with h | h | h
  · exact absurd hl.2 (hne hk.1.1 h hl.1.2 hk.2)
  · exact h
  · exact absurd hk.2 (hne hl.1.1 h hk.1.2 hl.2)

/-- What follows a read of the tree. -/
theorem after_lookup {n m k l : Nat} (hact : ∀ j, n < j → j < m → active (regs s ins j) = true)
    (hk : n < k) (hkl : k < l) (hl : l < m) (hread : (regs s ins k).state = .radixLookup) :
    (regs s ins l).state = .radixReadWait ∧
        (regs s ins l).shift.toNat ≤ (regs s ins k).shift.toNat ∨
      (regs s ins l).state = .radixLookup ∧
        (regs s ins l).shift.toNat + 5 ≤ (regs s ins k).shift.toNat ∨
      (regs s ins l).state = .radixLoadTlb := by
  induction l, hkl using Nat.le_induction with
  | base =>
      obtain ⟨hst, hsh⟩ := lookup_step (i := ins k) hread
      exact Or.inl ⟨hst, (congrArg BitVec.toNat hsh).le⟩
  | succ l hkl ih =>
      have hnext := hact (l + 1) (by omega) hl
      have hnot : (regs s ins (l + 1)).state ≠ .radixFinish := fun h => by simp [active, h] at hnext
      rcases ih (by omega) with ⟨hst, hle⟩ | ⟨hst, hle⟩ | hst
      · rcases readWait_step (i := ins l) hst with ⟨hst', hsh⟩ | ⟨hst', hsh⟩ | hst' | hst'
        · exact Or.inl ⟨hst', (congrArg BitVec.toNat hsh).le.trans hle⟩
        · exact Or.inr (Or.inl ⟨hst', hsh.trans hle⟩)
        · exact Or.inr (Or.inr hst')
        · exact absurd hst' hnot
      · obtain ⟨hst', hsh⟩ := lookup_step (i := ins l) hst
        refine Or.inl ⟨hst', ?_⟩
        have := congrArg BitVec.toNat hsh
        change (regs s ins (l + 1)).shift.toNat = _ at this
        omega
      · refine absurd ?_ hnot
        rw [regs_succ, step_state]
        simp [nextState, hst]

/-- A request in `IDLE` starts an operation, and nothing else does. -/
theorem start_iff {n : Nat} (hidle : (regs s ins n).state = .idle) :
    (active (regs s ins (n + 1)) = true ∨ (regs s ins (n + 1)).state = .radixFinish) ↔
      Accepts s ins n := by
  unfold Accepts active
  rw [regs_succ, step_state]
  simp only [hidle, nextState, idle, idleMtspr, idleRequest, idleWalk, fail, setRoot, true_and]
  cases hm : (ins n).lIn.mtspr <;> cases hv : (ins n).lIn.valid <;> simp
  all_goals split_ifs <;> simp

theorem accepted_before (hs : AfterReset s) (n : Nat) (hact : active (regs s ins n) = true) :
    ∃ k, k < n ∧ Accepts s ins k ∧ ∀ j, k < j → j ≤ n → active (regs s ins j) = true := by
  induction n with
  | zero => simp [active, regs, Clocked.trace, hs.state] at hact
  | succ n ih =>
      by_cases hprev : active (regs s ins n) = true
      · obtain ⟨k, hk, hacc, hall⟩ := ih hprev
        refine ⟨k, by omega, hacc, fun j hkj hj => ?_⟩
        rcases hj.lt_or_eq with hlt | rfl
        · exact hall j hkj (by omega)
        · exact hact
      · have hst : (regs s ins n).state = .idle ∨ (regs s ins n).state = .radixFinish := by
          unfold active at hprev
          cases hc : (regs s ins n).state <;> simp_all
        rcases hst with hidle | hfin
        · refine ⟨n, Nat.lt_succ_self n, (start_iff hidle).mp (Or.inl hact), fun j hj hjn => ?_⟩
          obtain rfl : j = n + 1 := by omega
          exact hact
        · have hnext : (regs s ins (n + 1)).state = .idle := by
            rw [regs_succ, step_state]
            simp [nextState, hfin]
          simp [active, hnext] at hact

theorem ends_of_accepts (hs : AfterReset s) (ha : Answered s ins) (hp : PartitionReadOk s ins)
    {n : Nat} (hacc : Accepts s ins n) : ∃ m, Ends s ins n m := by
  obtain ⟨m, hm, hfin, hact⟩ := exists_first_finish hs ha hp ((start_iff hacc.1).mpr hacc)
  have hlevels : ∀ k l, n < k → k < l → l < m → readsTree s ins k = true →
      readsTree s ins l = true → (regs s ins l).shift.toNat + 5 ≤ (regs s ins k).shift.toNat := by
    intro k l hk hkl hl hrk hrl
    simp only [readsTree, beq_iff_eq] at hrk hrl
    rcases after_lookup hact hk hkl hl hrk with ⟨hst, -⟩ | ⟨-, h⟩ | hst
    · simp [hrl] at hst
    · exact h
    · simp [hrl] at hst
  have hbits : ∀ k, readsTree s ins k = true → (regs s ins k).shift.toNat ≤ 45 := by
    intro k hrk
    exact (sized_regs hs k).tree (Or.inl (by simpa [readsTree] using hrk))
  refine ⟨m, hm, hfin, hact, ?_, ?_, hlevels, fun k _ _ hrk => (hbits k hrk).trans (by omega), ?_⟩
  · have hpart := card_once hp hact .partTblRead (fun v hv => by simp [waitsForRead, hv])
      ⟨137, fun v hv => by simp [left, rank, hv]⟩
    have hproc := card_once hp hact .procTblRead (fun v hv => by simp [waitsForRead, hv])
      ⟨134, fun v hv => by simp [left, rank, hv]⟩
    have hsplit : ((Finset.Ioo n m).filter fun k => readsTable s ins k) =
        ((Finset.Ioo n m).filter fun k => (regs s ins k).state = .partTblRead) ∪
          ((Finset.Ioo n m).filter fun k => (regs s ins k).state = .procTblRead) := by
      ext k
      simp only [readsTable, Finset.mem_filter, Finset.mem_union, Bool.or_eq_true, beq_iff_eq]
      tauto
    rw [hsplit]
    exact (Finset.card_union_le _ _).trans (by omega)
  · -- the tens of bits that are left tell the reads apart
    have hcard := Finset.card_le_card_of_injOn (t := Finset.range 10)
      (s := (Finset.Ioo n m).filter fun k => readsTree s ins k)
      (fun k => (regs s ins k).shift.toNat / 5) ?_ ?_
    · simpa using hcard
    · intro k hk
      simp only [Finset.coe_filter, Set.mem_ofPred_eq] at hk
      have := hbits k hk.2
      simp only [Finset.coe_range, Set.mem_Iio]
      omega
    · intro k hk l hl heq
      simp only [Finset.coe_filter, Finset.mem_Ioo, Set.mem_ofPred_eq] at hk hl
      simp only at heq
      rcases lt_trichotomy k l with h | h | h
      · have := hlevels k l hk.1.1 h hl.1.2 hk.2 hl.2
        omega
      · exact h
      · have := hlevels l k hl.1.1 h hk.1.2 hl.2 hk.2
        omega
  · intro k hk hkm hw herr
    have hst : (regs s ins k).state = .procTblWait ∨ (regs s ins k).state = .radixReadWait := by
      have hno : (regs s ins k).state ≠ .partTblWait := fun h => by
        have := hp k h
        rw [herr] at this
        cases this
      unfold waitsForRead at hw
      simpa [hno] using hw
    obtain ⟨hnext, hcause⟩ := nextState_err hst herr
    have hfin' : (regs s ins (k + 1)).state = .radixFinish := by
      rw [regs_succ, step_state, hnext]
    have heq : m = k + 1 := by
      by_contra hne
      have := hact (k + 1) (by omega) (by omega)
      simp [active, hfin'] at this
    subst heq
    obtain ⟨hdone, herr'⟩ := flags_of_finish hfin'
    have hany : (step (regs s ins k) (ins k)).causes.any = true := by
      rw [step_eq]
      exact hcause
    exact ⟨rfl, herr'.trans hany, hdone.trans (congrArg (!·) hany)⟩

/-- Every operation ends, within the bounds on its reads and with an error if one of them is
answered with an error, if and only if no read of the partition table is. -/
theorem operationsEnd_iff (s : State) (ins : Nat → Input) (hs : AfterReset s)
    (ha : Answered s ins) : OperationsEnd s ins ↔ PartitionReadOk s ins := by
  refine ⟨fun h n hst => ?_, fun hp n hacc => ends_of_accepts hs ha hp hacc⟩
  by_contra herr
  rw [Bool.not_eq_false] at herr
  obtain ⟨k, hk, hacc, hall⟩ := @accepted_before _ ins hs n (by simp [active, hst])
  obtain ⟨m, hends⟩ := h k hacc
  have hnm : n < m := by
    by_contra hle
    have := hall m hends.later (by omega)
    simp [active, hends.finish] at this
  obtain ⟨rfl, -, -⟩ := hends.errors n hk hnm (by simp [waitsForRead, hst]) herr
  have hfin := hends.finish
  rw [regs_succ, step_state] at hfin
  simp only [nextState, hst] at hfin
  split_ifs at hfin

end Run

/-- One request, and the same answer to every read. -/
def firstRequest (done err : Bool) (n : Nat) : Input where
  lIn := { Loadstore1ToMmu.idle with valid := n == 0, load := true }
  dIn := ⟨false, done, err, 0⟩

theorem operationsEnd_zeroes : OperationsEnd .cold (firstRequest true false) :=
  (operationsEnd_iff .cold (firstRequest true false) afterReset_cold
    fun n _ => ⟨n + 1, Nat.lt_succ_self n, Or.inl rfl⟩).mpr fun _ _ => rfl

/-- After an error the walk waits for the entry of the partition table for ever. -/
theorem partition_error_hangs :
    Answered .cold (firstRequest false true) ∧ ¬OperationsEnd .cold (firstRequest false true) := by
  refine ⟨fun n _ => ⟨n + 1, Nat.lt_succ_self n, Or.inr rfl⟩, fun h => ?_⟩
  have hwait : ∀ n, 2 ≤ n →
      (regs .cold (firstRequest false true) n).state = .partTblWait := by
    intro n hn
    induction n, hn using Nat.le_induction with
    | base => rfl
    | succ n _ ih =>
        rw [regs_succ, step_state]
        simp [nextState, ih, firstRequest]
  obtain ⟨m, hends⟩ := h 0 ⟨rfl, Or.inl rfl⟩
  have hfin := hends.finish
  have hlater := hends.later
  obtain rfl | hm : m = 1 ∨ 2 ≤ m := by omega
  · cases hfin
  · simp [hwait m hm] at hfin

end Microwatt.Mmu
