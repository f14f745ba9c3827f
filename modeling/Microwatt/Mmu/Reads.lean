import Microwatt.Mmu.Ends
import Microwatt.Dcache.Progress

/-!
# The reads of the MMU

The dcache and the MMU connected to each other, with loadstore1, the bus and the snoop
port as their environment.  The MMU presents a read for one cycle and then waits for
its completion.  The dcache does not let it wait (`m_out.stall` is constantly clear), so
the read is lost when the dcache is stalled in that cycle, and a read that is in `r0`
while an error is reported to loadstore1 is dropped with it.  A read whose row of a
reload arrives while it is still in `r0` is completed for the source of the request
before it.  `ReadKept` leaves these three cases out; then every read is answered, and
nothing else is while a read is under way.
-/

namespace Microwatt.Mmu

/-- The dcache and the MMU. -/
structure Units (g : Dcache.Geometry) where
  dcache : Dcache.State g
  mmu : Traced

/-- What loadstore1, the snoop port and the bus put in. -/
structure UnitsInput where
  dIn : Loadstore1ToDcache
  lIn : Loadstore1ToMmu
  snoopIn : WishboneMasterOut
  wishboneIn : WishboneSlaveOut

namespace Units

variable {g : Dcache.Geometry}

def dcacheIn (u : Units g) (i : UnitsInput) : Dcache.Input where
  dIn := i.dIn
  mIn := dOut u.mmu.st
  snoopIn := i.snoopIn
  wishboneIn := i.wishboneIn

def mmuIn (u : Units g) (i : UnitsInput) : Input where
  lIn := i.lIn
  dIn := Dcache.mOut u.dcache

def step (u : Units g) (i : UnitsInput) : Units g where
  dcache := Dcache.step u.dcache (u.dcacheIn i)
  mmu := u.mmu.step (u.mmuIn i)

end Units

variable {g : Dcache.Geometry}

/-- The two units before edge `n` of a run. -/
def units (u : Units g) (input : Nat → UnitsInput) : Nat → Units g :=
  Clocked.trace Units.step u input

/-- The inputs of the dcache in a run of the two units. -/
def dcacheInput (u : Units g) (input : Nat → UnitsInput) (n : Nat) : Dcache.Input :=
  (units u input n).dcacheIn (input n)

/-- A read of the MMU gets through this edge: it is taken when it is presented, it is not
dropped behind an error of loadstore1, and it is completed as its own. -/
structure ReadKept (s : Dcache.State g) (i : Dcache.Input) : Prop where
  taken : i.mIn.valid = true → Dcache.stallOut s = false ∧ i.dIn.hold = false
  kept : s.r0Full = true → s.r0.mmuReq = true → s.fast.lsError = true → i.dIn.hold = true
  source : i.mIn.valid = true ∨ (s.r0Full = true ∧ s.r0.mmuReq = true) →
    Dcache.KnownSource s i

instance (s : Dcache.State g) (i : Dcache.Input) : Decidable (ReadKept s i) :=
  decidable_of_iff
    ((i.mIn.valid = true → Dcache.stallOut s = false ∧ i.dIn.hold = false) ∧
      (s.r0Full = true → s.r0.mmuReq = true → s.fast.lsError = true → i.dIn.hold = true) ∧
      (i.mIn.valid = true ∨ (s.r0Full = true ∧ s.r0.mmuReq = true) → Dcache.KnownSource s i))
    ⟨fun h => ⟨h.1, h.2.1, h.2.2⟩, fun h => ⟨h.taken, h.kept, h.source⟩⟩

/-- A read of the MMU that waits in `r0` is a real-mode access with all privileges. -/
structure IsRealRead (r : Dcache.RegStage0) : Prop where
  virtMode : r.req.virtMode = false
  privMode : r.req.privMode = true
  nc : r.req.nc = false
  reserve : r.req.reserve = false
  dawrMatch : r.req.dawrMatch = false
  dValid : r.dValid = true

/-! ## A read in the dcache -/

section Dcache

variable {s : Dcache.State g} {i : Dcache.Input}

/-- A read of the MMU does not fail. -/
theorem reqOp_ne_bad (h : IsRealRead s.r0) : Dcache.reqOp s i ≠ .bad := by
  have haccess : Dcache.accessOk s i = true := by
    simp [Dcache.accessOk, Dcache.validRa, Dcache.permOk, Dcache.rcOk, Dcache.permAttr,
      Dcache.realModePermAttr, Dcache.dawrMatch, h.virtMode, h.privMode, h.dawrMatch, h.dValid]
  have hnc : Dcache.reqNc s = false := by
    simp [Dcache.reqNc, Dcache.permAttr, Dcache.realModePermAttr, h.virtMode, h.nc]
  unfold Dcache.reqOp
  rw [haccess, hnc]
  simp only [Bool.true_and, Bool.not_false, Bool.and_true, Bool.not_true, Bool.false_and,
    Bool.false_eq_true, if_false]
  repeat' refine iteInduction (motive := fun op => op ≠ Dcache.ReqOp.bad) (fun _ => ?_) fun _ => ?_
  all_goals decide

theorem mmuError_step (h : s.r0Full = true → s.r0.mmuReq = true → IsRealRead s.r0) :
    (Dcache.step s i).fast.mmuError = false := by
  by_contra hno
  have hbad : (Dcache.reqOp s i == .bad && s.r0.mmuReq) = true := Bool.eq_true_of_not_eq_false hno
  rw [Bool.and_eq_true, beq_iff_eq] at hbad
  have hgo : Dcache.reqGo s i = true := Dcache.reqGo_of_reqOp (by simp [hbad.1])
  simp only [Dcache.reqGo, Dcache.r0Valid, Bool.and_eq_true] at hgo
  exact reqOp_ne_bad (h hgo.1.1.1 hbad.2) hbad.1

theorem mmuRead_step (h : s.r0Full = true → s.r0.mmuReq = true → IsRealRead s.r0)
    (hfull : (Dcache.step s i).r0Full = true) (hmmu : (Dcache.step s i).r0.mmuReq = true) :
    IsRealRead (Dcache.step s i).r0 := by
  simp only [Dcache.step, Dcache.stage0, Dcache.stage0Full] at hfull hmmu ⊢
  cases hstall : !s.r1.full && !i.dIn.hold with
  | true =>
      simp only [hstall, if_true] at hfull hmmu ⊢
      cases hv : i.mIn.valid with
      | false => simp [Dcache.stage0In, hv] at hmmu
      | true => constructor <;> simp [Dcache.stage0In, hv, Loadstore1ToDcache.init]
  | false =>
      simp only [hstall, Bool.false_eq_true, if_false] at hfull hmmu ⊢
      cases hd : s.r0.dValid with
      | true =>
          simp only [hd, Bool.not_true, Bool.false_eq_true, if_false] at hmmu ⊢
          exact h hfull hmmu
      | false =>
          simp only [hd, Bool.not_false, if_true] at hmmu
          rw [(h hfull hmmu).dValid] at hd
          cases hd

/-- The requests of the MMU in `r0` and `r1`. -/
def reads (s : Dcache.State g) : Nat :=
  (Dcache.inR0 s).count .mmu + (Dcache.inR1 s).count .mmu

theorem count_pulses (s : Dcache.State g) :
    (Dcache.pulses s).count .mmu = (Dcache.mOut s).done.toNat + (Dcache.mOut s).err.toNat := by
  unfold Dcache.pulses
  simp only [List.count_append]
  cases (Dcache.dOut s).valid <;> cases (Dcache.dOut s).error <;>
    cases (Dcache.mOut s).done <;> cases (Dcache.mOut s).err <;> rfl

theorem count_offered (i : Dcache.Input) : (Dcache.offered i).count .mmu = i.mIn.valid.toNat := by
  unfold Dcache.offered
  cases i.mIn.valid with
  | true => rfl
  | false => cases i.dIn.valid && !Dcache.isProbe i.dIn <;> rfl

theorem count_inR0 (h : Dcache.SourceInv s) :
    (Dcache.inR0 s).count .mmu = (s.r0Full && s.r0.mmuReq).toNat := by
  unfold Dcache.inR0
  cases hf : s.r0Full with
  | false => rfl
  | true =>
      cases hm : s.r0.mmuReq with
      | false => cases Dcache.isProbe s.r0.req <;> rfl
      | true =>
          obtain ⟨-, -, -, -, hprobe⟩ := h.mmuRead hf hm
          simp [Dcache.isProbe, hprobe, Dcache.port]

theorem count_inR1 (s : Dcache.State g) :
    (Dcache.inR1 s).count .mmu = (s.r1.full && s.r1.req.mmuReq).toNat := by
  unfold Dcache.inR1
  cases s.r1.full <;> cases s.r1.req.mmuReq <;> rfl

/-- A read that is kept is in the dcache until it is answered. -/
theorem reads_step (h : Dcache.SourceInv s)
    (hreal : s.r0Full = true → s.r0.mmuReq = true → IsRealRead s.r0)
    (hk : Dcache.KnownSource s i)
    (hkept : s.r0Full = true → s.r0.mmuReq = true → s.fast.lsError = true → i.dIn.hold = true) :
    reads (Dcache.step s i) + (Dcache.mOut (Dcache.step s i)).done.toNat =
      reads s + (Dcache.accepted s i).count .mmu := by
  have hmove := congrArg (List.count .mmu) (Dcache.pulses_append_inR1 h hk)
  have herr : (Dcache.mOut (Dcache.step s i)).err = false := mmuError_step hreal
  rw [List.count_append, count_pulses, herr] at hmove
  simp only [reads, Dcache.inR0_step, Dcache.accepted, Dcache.stallOut]
  have hnone : s.r1.full = false → (Dcache.inR1 s).count .mmu = 0 := by
    intro hf
    simp [Dcache.inR1, hf]
  rcases Bool.eq_false_or_eq_true s.r1.full with hf | hf
  · simp only [hf, if_true] at hmove
    simp only [hf, Bool.not_true, Bool.false_and, Bool.false_eq_true, if_false, List.count_nil,
      Bool.toNat_false] at hmove ⊢
    omega
  · have hr1 := hnone hf
    simp only [hf, Bool.false_eq_true, if_false, Bool.toNat_false] at hmove
    rcases Bool.eq_false_or_eq_true i.dIn.hold with hhold | hhold
    · have hgo : Dcache.reqGo s i = false := by simp [Dcache.reqGo, Dcache.r0Valid, hhold]
      simp only [hgo, Bool.false_eq_true, if_false, List.count_nil] at hmove
      simp only [hf, hhold, Bool.not_true, Bool.and_false, Bool.false_eq_true, if_false,
        List.count_nil]
      omega
    · have hr0 : (if Dcache.reqGo s i then Dcache.inR0 s else []).count .mmu =
          (Dcache.inR0 s).count .mmu := by
        cases hgo : Dcache.reqGo s i with
        | true => rfl
        | false =>
            -- only an error of loadstore1 keeps the read from being looked up
            have hno : (s.r0Full && s.r0.mmuReq) = false := by
              by_contra hyes
              rw [Bool.not_eq_false, Bool.and_eq_true] at hyes
              have herr : s.fast.lsError = true := by
                simpa [Dcache.reqGo, Dcache.r0Valid, hyes.1, hf, hhold] using hgo
              rw [hkept hyes.1 hyes.2 herr] at hhold
              exact absurd hhold (by decide)
            rw [count_inR0 h, hno]
            rfl
      rw [hr0] at hmove
      simp only [hf, hhold, Bool.not_false, Bool.and_self, if_true]
      omega

/-- Without a read in the dcache and none presented there is none after the edge. -/
theorem reads_none (h : Dcache.SourceInv s) (hnone : reads s = 0) (hm : i.mIn.valid = false) :
    reads (Dcache.step s i) = 0 := by
  have hboth : (s.r0Full && s.r0.mmuReq) = false ∧ (s.r1.full && s.r1.req.mmuReq) = false := by
    rw [reads, count_inR0 h, count_inR1] at hnone
    cases hr0 : s.r0Full && s.r0.mmuReq <;> cases hr1 : s.r1.full && s.r1.req.mmuReq <;>
      simp [hr0, hr1] at hnone ⊢
  have hr0' : (Dcache.inR0 (Dcache.step s i)).count .mmu = 0 := by
    rw [Dcache.inR0_step]
    split_ifs
    · rw [count_offered, hm]
      rfl
    · rw [count_inR0 h, hboth.1]
      rfl
  have hr1' : ((Dcache.step s i).r1.full && (Dcache.step s i).r1.req.mmuReq) = false := by
    by_contra hyes
    rw [Bool.not_eq_false, Bool.and_eq_true] at hyes
    have hreq : (Dcache.takenReq s i).mmuReq = true := by
      have hyes2 := hyes.2
      rw [Dcache.step_req] at hyes2
      split_ifs at hyes2 <;> exact hyes2
    rcases Dcache.taken_of_full hyes.1 with ⟨hf, htaken, -⟩ | ⟨-, hgo, -, htaken, -⟩
    · rw [htaken] at hreq
      simp [hf, hreq] at hboth
    · rw [htaken] at hreq
      have hm0 : s.r0.mmuReq = true := hreq
      simp [Dcache.r0Full_of_reqGo hgo, hm0] at hboth
  rw [reads, hr0', count_inR1, hr1']
  rfl

end Dcache

/-! ## The MMU waits for its own read -/

/-- A read that is presented is waited for. -/
theorem waits_of_presented {s : State} {i : Input} (hv : (dOut s).valid = true) :
    waitsForRead s = false ∧ waitsForRead (step s i) = true := by
  have hst : s.state = .partTblRead ∨ s.state = .procTblRead ∨ s.state = .radixLookup := by
    simpa [dOut, or_assoc] using hv
  rw [waitsForRead, waitsForRead, step_state]
  rcases hst with hst | hst | hst <;> simp [nextState, hst]

/-- The MMU goes on waiting until there is an answer. -/
theorem waits_step {s : State} {i : Input} (hw : waitsForRead s = true)
    (hdone : i.dIn.done = false) (herr : i.dIn.err = false) : waitsForRead (step s i) = true := by
  have hst : s.state = .partTblWait ∨ s.state = .procTblWait ∨ s.state = .radixReadWait := by
    simpa [waitsForRead, or_assoc] using hw
  rw [waitsForRead, step_state]
  rcases hst with hst | hst | hst <;>
    simp [nextState, procTblWait, radixReadWait, hst, hdone, herr]

/-- The one read that the MMU waits for is in the dcache or has just been answered, and
there is no other. -/
structure ReadInv (u : Units g) : Prop where
  source : Dcache.SourceInv u.dcache
  real : u.dcache.r0Full = true → u.dcache.r0.mmuReq = true → IsRealRead u.dcache.r0
  noError : u.dcache.fast.mmuError = false
  one : waitsForRead u.mmu.st = true →
    reads u.dcache + (Dcache.mOut u.dcache).done.toNat = 1
  none : waitsForRead u.mmu.st = false → reads u.dcache = 0

/-- While a read is in the dcache, the source of what is completed is known. -/
theorem knownSource_of_reads {s : Dcache.State g} {i : Dcache.Input} (h : Dcache.SourceInv s)
    (hkept : ReadKept s i) (hone : reads s = 1) : Dcache.KnownSource s i := by
  cases hr0 : s.r0Full && s.r0.mmuReq with
  | true => exact hkept.source (Or.inr (Bool.and_eq_true_iff.mp hr0))
  | false =>
      have hr1 : s.r1.full = true := by
        rw [reads, count_inR0 h, hr0, count_inR1] at hone
        by_contra hf
        simp [hf] at hone
      intro _ hf
      rw [hr1] at hf
      exact absurd hf (by decide)

theorem readInv_step {u : Units g} {i : UnitsInput} (hkept : ReadKept u.dcache (u.dcacheIn i))
    (h : ReadInv u) : ReadInv (u.step i) := by
  have hsource := Dcache.sourceInv_step (u.dcacheIn i) h.source
  have hreal : (u.step i).dcache.r0Full = true → (u.step i).dcache.r0.mmuReq = true →
      IsRealRead (u.step i).dcache.r0 := mmuRead_step h.real
  have hnoError : (u.step i).dcache.fast.mmuError = false := mmuError_step h.real
  have herr : (u.mmuIn i).dIn.err = false := h.noError
  cases hv : (dOut u.mmu.st).valid with
  | true =>
      -- the read is taken
      obtain ⟨hw, hw'⟩ := waits_of_presented (i := u.mmuIn i) hv
      obtain ⟨hstall, hhold⟩ := hkept.taken hv
      have hcount : (Dcache.accepted u.dcache (u.dcacheIn i)).count .mmu = 1 := by
        rw [Dcache.accepted, hstall, hhold]
        simp only [Bool.not_false, Bool.and_self, if_true, count_offered]
        simp [Units.dcacheIn, hv]
      have hone := reads_step h.source h.real (hkept.source (Or.inl hv)) hkept.kept
      rw [h.none hw, hcount] at hone
      refine ⟨hsource, hreal, hnoError, fun _ => hone, fun hno => ?_⟩
      rw [show waitsForRead (u.step i).mmu.st = true from hw'] at hno
      exact absurd hno (by decide)
  | false =>
      have hcount : (Dcache.accepted u.dcache (u.dcacheIn i)).count .mmu = 0 := by
        unfold Dcache.accepted
        split_ifs
        · rw [count_offered, show (u.dcacheIn i).mIn.valid = false from hv]
          rfl
        · rfl
      by_cases hwait : waitsForRead u.mmu.st = true ∧ (Dcache.mOut u.dcache).done = false
      · obtain ⟨hw, hdone⟩ := hwait
        have hw' := waits_step (i := u.mmuIn i) hw hdone herr
        have hnow : reads u.dcache = 1 := by simpa [hdone] using h.one hw
        have hone := reads_step h.source h.real (knownSource_of_reads h.source hkept hnow)
          hkept.kept
        rw [hnow, hcount] at hone
        refine ⟨hsource, hreal, hnoError, fun _ => hone, fun hno => ?_⟩
        rw [show waitsForRead (u.step i).mmu.st = true from hw'] at hno
        exact absurd hno (by decide)
      · have hnow : reads u.dcache = 0 := by
          cases hw : waitsForRead u.mmu.st with
          | false => exact h.none hw
          | true =>
              have hdone : (Dcache.mOut u.dcache).done = true := by
                by_contra hno
                exact hwait ⟨hw, by simpa using hno⟩
              simpa [hdone] using h.one hw
        have hnone := reads_none (i := u.dcacheIn i) h.source hnow hv
        refine ⟨hsource, hreal, hnoError, fun hw' => ?_, fun _ => hnone⟩
        rcases waitsForRead_step (i := u.mmuIn i) hw' (fun _ => herr) with hv' | ⟨hw, hdone, -⟩
        · rw [hv] at hv'
          exact absurd hv' (by decide)
        · exact absurd ⟨hw, hdone⟩ hwait

theorem readInv_of_quiet {u : Units g} (hs : Dcache.Quiet u.dcache)
    (hidle : u.mmu.st.state = .idle) : ReadInv u where
  source := Dcache.sourceInv_of_quiet hs
  real := by simp [hs.r0Full]
  noError := hs.mmuError
  one := by simp [waitsForRead, hidle]
  none := by simp [reads, Dcache.inR0, Dcache.inR1, hs.r0Full, hs.full]

/-! ## Every read is answered -/

section Runs

variable {u : Units g} {input : Nat → UnitsInput}

/-- The dcache of the two units runs by itself on its inputs. -/
theorem ports_units (n : Nat) :
    (Dcache.ports u.dcache (dcacheInput u input) n).st = (units u input n).dcache := by
  induction n with
  | zero => rfl
  | succ n ih =>
      show Dcache.step (Dcache.ports u.dcache (dcacheInput u input) n).st _ = _
      rw [ih]
      rfl

theorem readInv_units (hs : Dcache.Quiet u.dcache) (hidle : u.mmu.st.state = .idle)
    (hkept : ∀ n, ReadKept (units u input n).dcache (dcacheInput u input n)) (n : Nat) :
    ReadInv (units u input n) :=
  Clocked.trace_invariant ReadInv 0 (fun n _ h => readInv_step (hkept n) h)
    (readInv_of_quiet hs hidle) n (Nat.zero_le n)

/-- A read in `r1` is answered when the state machine is done with it. -/
theorem answered_of_r1 (hs : Dcache.Quiet u.dcache)
    (hfair : Dcache.FairBus u.dcache (dcacheInput u input)) {n : Nat}
    (hr1 : ((units u input n).dcache.r1.full && (units u input n).dcache.r1.req.mmuReq) = true) :
    ∃ m, n ≤ m ∧ (Dcache.mOut (units u input m).dcache).done = true := by
  have hfull : (Dcache.ports u.dcache (dcacheInput u input) n).st.r1.full = true := by
    rw [ports_units]
    exact (Bool.and_eq_true_iff.mp hr1).1
  obtain ⟨m, hnm, hret, hin⟩ := Clocked.holds_until_first
    (fun k => ((units u input k).dcache.r1.full && (units u input k).dcache.r1.req.mmuReq) = true)
    (fun k => Dcache.retires (units u input k).dcache (dcacheInput u input k) = true)
    (by
      intro k hk hno
      rw [Bool.and_eq_true] at hk
      rw [Bool.not_eq_true] at hno
      have hf' : (Dcache.step (units u input k).dcache (dcacheInput u input k)).r1.full = true := by
        simp [Dcache.step_full, Dcache.takenFull, hk.1, hno]
      have hreq := Dcache.req_step_of_full (i := dcacheInput u input k) hk.1
      rw [Bool.and_eq_true]
      refine ⟨hf', ?_⟩
      show (Dcache.step (units u input k).dcache (dcacheInput u input k)).r1.req.mmuReq = true
      rw [hreq]
      split_ifs <;> exact hk.2)
    hr1
    (by
      obtain ⟨m, hnm, hret⟩ := Dcache.retires_of_full hs hfair hfull
      rw [ports_units] at hret
      exact ⟨m, hnm, hret⟩)
  have hm := Bool.and_eq_true_iff.mp (hin m hnm le_rfl)
  have hsource : Dcache.SourceInv (units u input m).dcache := by
    rw [← ports_units]
    exact Dcache.sourceInv_ports hs _ m
  have hknown : Dcache.KnownSource (units u input m).dcache (dcacheInput u input m) := by
    intro _ hf
    rw [hm.1] at hf
    exact absurd hf (by decide)
  refine ⟨m + 1, by omega, ?_⟩
  show (Dcache.step (units u input m).dcache (dcacheInput u input m)).r1.mmuDone = true
  rw [Dcache.step_mmuDone, (Dcache.retires_port hsource hknown).2, hret, Dcache.curReq,
    if_pos hm.1, hm.2]
  simp

/-- Sooner or later the dcache looks at what is in `r0`. -/
theorem exists_lookup (hs : Dcache.Quiet u.dcache)
    (hfair : Dcache.FairBus u.dcache (dcacheInput u input)) (n : Nat) :
    ∃ m, n ≤ m ∧ (units u input m).dcache.r1.full = false ∧ (input m).dIn.hold = false := by
  obtain ⟨k, hnk, hk⟩ : ∃ k, n ≤ k ∧ (units u input k).dcache.r1.full = false := by
    cases hf : (units u input n).dcache.r1.full with
    | false => exact ⟨n, le_rfl, hf⟩
    | true =>
        rw [← ports_units] at hf
        obtain ⟨m, hnm, hret⟩ := Dcache.retires_of_full hs hfair hf
        rw [ports_units] at hret
        refine ⟨m + 1, by omega, ?_⟩
        show (Dcache.step (units u input m).dcache (dcacheInput u input m)).r1.full = false
        simp [Dcache.step_full, hret]
  obtain ⟨m, hkm, hhold, hfull⟩ := Clocked.holds_until_first
    (fun k => (units u input k).dcache.r1.full = false) (fun k => (input k).dIn.hold = false)
    (by
      intro k hk hno
      have hhold : (dcacheInput u input k).dIn.hold = true := by
        simpa [dcacheInput, Units.dcacheIn] using hno
      have hgo : Dcache.reqGo (units u input k).dcache (dcacheInput u input k) = false := by
        simp [Dcache.reqGo, Dcache.r0Valid, hhold]
      show (Dcache.step (units u input k).dcache (dcacheInput u input k)).r1.full = false
      simp [Dcache.step_full, Dcache.takenFull, hk, hgo])
    hk (hfair.released k)
  exact ⟨m, hnk.trans hkm, hfull m hkm le_rfl, hhold⟩

/-- On a fair bus every read that is kept is answered. -/
theorem read_answered (hs : Dcache.Quiet u.dcache) (hidle : u.mmu.st.state = .idle)
    (hfair : Dcache.FairBus u.dcache (dcacheInput u input))
    (hkept : ∀ n, ReadKept (units u input n).dcache (dcacheInput u input n)) {n : Nat}
    (hw : waitsForRead (units u input n).mmu.st = true) :
    ∃ m, n ≤ m ∧ (Dcache.mOut (units u input m).dcache).done = true := by
  have hinv := readInv_units hs hidle hkept
  by_contra hno
  have hdone : ∀ m, n ≤ m → (Dcache.mOut (units u input m).dcache).done = false := by
    intro m hnm
    by_contra hyes
    exact hno ⟨m, hnm, by simpa using hyes⟩
  have hwaits : ∀ m, n ≤ m → waitsForRead (units u input m).mmu.st = true := by
    intro m hnm
    induction m, hnm using Nat.le_induction with
    | base => exact hw
    | succ m hnm ih => exact waits_step ih (hdone m hnm) (hinv m).noError
  have hone : ∀ m, n ≤ m → reads (units u input m).dcache = 1 := by
    intro m hnm
    simpa [hdone m hnm] using (hinv m).one (hwaits m hnm)
  -- the read has to leave `r0` for `r1`, and is answered there
  obtain ⟨m, hnm, hfull, hhold⟩ := exists_lookup hs hfair n
  have hnext := hone (m + 1) (by omega)
  have hvalid : (dOut (units u input m).mmu.st).valid = false := by
    by_contra hv
    have := (waits_of_presented (i := (units u input m).mmuIn (input m)) (by simpa using hv)).1
    rw [hwaits m hnm] at this
    exact absurd this (by decide)
  have hr0 : (Dcache.inR0 (units u input (m + 1)).dcache).count .mmu = 0 := by
    show (Dcache.inR0 (Dcache.step (units u input m).dcache (dcacheInput u input m))).count .mmu = 0
    have hhold' : (dcacheInput u input m).dIn.hold = false := hhold
    rw [Dcache.inR0_step, hfull, hhold']
    simp only [Bool.not_false, Bool.and_self, if_true, count_offered]
    simp [dcacheInput, Units.dcacheIn, hvalid]
  rw [reads, hr0, count_inR1] at hnext
  have hr1 : ((units u input (m + 1)).dcache.r1.full &&
      (units u input (m + 1)).dcache.r1.req.mmuReq) = true := by
    by_contra hyes
    simp [hyes] at hnext
  obtain ⟨k, hmk, hk⟩ := answered_of_r1 hs hfair hr1
  exact hno ⟨k, by omega, hk⟩

end Runs

end Microwatt.Mmu
