import Microwatt.Loadstore1.Format

/-!
# The parts of an access

An access of two doublewords is two requests.  Both are sent before the second is answered, and when
the second doubleword of a load comes back the first was the last to come before it, so that the
register value is put together from the right two.
-/

namespace Microwatt.Loadstore1

section

variable (hasFpu : Bool) (s : State) (input : Nat → Input)

theorem sysAt_state (n : Nat) : (sysAt hasFpu s input n).s = stateAt hasFpu s.reset input n := by
  induction n with
  | zero => rfl
  | succ n ih =>
      change step hasFpu (sysAt hasFpu s input n).s (input n) = _
      rw [ih]
      rfl

/-- The first or the second request of an instruction has been sent. -/
def SentPart (n m : Nat) (second : Bool) : Prop :=
  ∃ t, t < n ∧ sentFor hasFpu s.reset input t = some m ∧
    (dReq hasFpu (stateAt hasFpu s.reset input t) (input t)).dwordIndex = second

/-- The first doubleword of a load was the last that came back. -/
def FirstCame (n m : Nat) : Prop :=
  ∃ d, lastRead hasFpu s.reset input n = some ⟨some m, false, d⟩

/-- What has been sent, and what has come back, for the request in stage 1. -/
structure OneSent (n m : Nat) : Prop where
  issued : (stateAt hasFpu s.reset input n).r1.issued = true →
    SentPart hasFpu s input n m (stateAt hasFpu s.reset input n).r1.req.dwordIndex
  first : (stateAt hasFpu s.reset input n).r1.req.dwordIndex = true →
    SentPart hasFpu s input n m false
  /-- The first half of a load is in stage 2, or its data have come. -/
  came : (stateAt hasFpu s.reset input n).r1.req.dwordIndex = true →
    (stateAt hasFpu s.reset input n).r1.req.load = true →
    ((sysAt hasFpu s input n).phase.asks = true ∧ takenTwo hasFpu s.reset input n = some m ∧
      (stateAt hasFpu s.reset input n).r2.req.dwordIndex = false) ∨
    ((sysAt hasFpu s input n).phase = .empty ∧ FirstCame hasFpu s input n m)

/-- The same for the request in stage 2. -/
structure TwoSent (n m : Nat) : Prop where
  issued : SentPart hasFpu s input n m (stateAt hasFpu s.reset input n).r2.req.dwordIndex
  first : (stateAt hasFpu s.reset input n).r2.req.dwordIndex = true →
    SentPart hasFpu s input n m false
  came : (stateAt hasFpu s.reset input n).r2.req.dwordIndex = true →
    (stateAt hasFpu s.reset input n).r2.req.load = true → FirstCame hasFpu s input n m

/-- What holds of the parts before edge `n`. -/
structure PartsSent (n : Nat) : Prop where
  one : ∀ m, takenOne hasFpu s.reset input n = some m → Moves (input m).lIn →
    (stateAt hasFpu s.reset input n).r1.req.valid = true →
    (stateAt hasFpu s.reset input n).r1.req.dcReq = true → OneSent hasFpu s input n m
  two : ∀ m, takenTwo hasFpu s.reset input n = some m → Moves (input m).lIn →
    (sysAt hasFpu s input n).phase.asks = true → TwoSent hasFpu s input n m

end

section

variable {hasFpu : Bool} {s : State} {input : Nat → Input} {n m : Nat} {second : Bool}

theorem SentPart.succ (h : SentPart hasFpu s input n m second) :
    SentPart hasFpu s input (n + 1) m second := by
  obtain ⟨t, ht, hs⟩ := h
  exact ⟨t, by omega, hs⟩

/-- A request that stage 1 sends now. -/
theorem sentPart_now (hdc : stage1Dcreq hasFpu (stateAt hasFpu s.reset input n) (input n) = true)
    (hen : (stateAt hasFpu s.reset input n).r3.stage1En = true)
    (hm : takenOne hasFpu s.reset input (n + 1) = some m) : SentPart hasFpu s input (n + 1) m
      (stage1Req hasFpu (stateAt hasFpu s.reset input n) (input n)).dwordIndex := by
  refine ⟨n, Nat.lt_succ_self n, ?_, by simp [dReq, hen]⟩
  obtain ⟨he, hl⟩ : exception (stateAt hasFpu s.reset input n) (input n) = false ∧
      l2stall (stateAt hasFpu s.reset input n) (input n) = false := by
    simp only [stage1Dcreq, advance, Bool.and_eq_true, Bool.not_eq_true'] at hdc
    exact hdc.1.1
  have hv : (dOut hasFpu (stateAt hasFpu s.reset input n) (input n)).valid = true := by
    simpa [dOut, hen] using hdc
  simp only [takenOne, he, hl, Bool.false_eq_true, if_false, Bool.false_or] at hm
  simp only [sentFor, hv, hen, Bool.not_true, Bool.false_eq_true, if_false, if_true]
  exact hm

/-- Nothing comes back for a load now. -/
theorem FirstCame.succ (h : FirstCame hasFpu s input n m) (hv : (input n).dIn.valid = false) :
    FirstCame hasFpu s input (n + 1) m := by
  obtain ⟨d, hd⟩ := h
  exact ⟨d, by simpa [lastRead, hv] using hd⟩

/-- The first half of a load comes back now. -/
theorem firstCame_now (hv : (input n).dIn.valid = true)
    (hl : (stateAt hasFpu s.reset input n).r2.req.load = true)
    (hi : (stateAt hasFpu s.reset input n).r2.req.dwordIndex = false)
    (hm : takenTwo hasFpu s.reset input n = some m) : FirstCame hasFpu s input (n + 1) m :=
  ⟨(input n).dIn.data, by simp [lastRead, hv, hl, hi, hm]⟩

/-! ### Phases from the registers -/

variable {x : Sys} {i : Input} {p : Phase} {k : Kind}

theorem At.asks_of (h : At p x) (hv : x.s.r2.req.valid = true) (hd : x.s.r2.req.dcReq = true)
    (hh : x.s.r2.req.hashcmp = false) : p.asks = true := by
  have hne : p ≠ .empty := by
    rintro rfl
    rw [h.valid] at hv
    cases hv
  have hst : p ≠ .stale := by
    intro hst
    rw [h.hashcmp.1 hst] at hh
    cases hh
  rw [h.dcReq hne] at hd
  simpa [hst] using hd

theorem At.valid_of_asks (h : At p x) (hp : p.asks = true) :
    x.s.r2.req.valid = true ∧ x.s.r2.req.dcReq = true ∧ x.s.r2.req.mmuOp = false := by
  have hne : p ≠ .empty := by
    rintro rfl
    cases hp
  rw [h.valid, h.dcReq hne, h.mmuOp hne]
  revert hp
  cases p <;> decide

theorem At.empty_of (h : At p x) (hv : x.s.r2.req.valid = false) : p = .empty := by
  rw [h.valid] at hv
  simpa using hv

/-- The request in stage 2 while it is held up. -/
theorem r2in_kept_req {s : State} (h : stage2Free s i = false) :
    (r2in s i).req = { s.r2.req with valid := (r2in s i).req.valid } := by
  have hr : r2in s i = endStage2 s i (endBusy s i (mmuDone s i (dbgRead s i s.r2))) := by
    unfold r2in
    simp only [h, Bool.false_eq_true, if_false]
  rw [hr]
  exact (endStage2_marks s i _).2.2.2.trans (by rw [(dbgRead_marks s i s.r2).2.2.2])

/-- The request in stage 2 after it has taken that of stage 1. -/
theorem r2in_moved (h : Free x i) (hs : i.lIn.e2stall = false) :
    (stage1Ready x.s = true → (r2in x.s i).req.flags = x.s.r1.req.flags ∧
      (r2in x.s i).req.valid = x.s.r1.req.valid ∧
      (r2in x.s i).req.dwordIndex = x.s.r1.req.dwordIndex) ∧
    (stage1Ready x.s = false → (r2in x.s i).req.valid = false) := by
  have hfree : stage2Free x.s i = true :=
    stage2Free_iff.mpr ⟨h.stall, h.error, h.busy, hs⟩
  rw [r2in_free hfree h.waitMmu h.stage2Interrupt_false]
  constructor
  · intro hr
    rw [hr, if_pos rfl]
    exact ⟨rfl, rfl, rfl⟩
  · intro hr
    rw [hr, if_neg (by decide)]
    rfl

end

/-! ## Every cycle -/

section

variable {hasFpu : Bool} {s : State} {input : Nat → Input} {n : Nat} {p p' : Phase} {k k' : Kind}
  (hc : ∀ n, Contract (sysAt hasFpu s input n) (input n))

include hc

theorem notBusy_of_contract (n : Nat) (hv : (input n).lIn.valid = true) :
    busy (stateAt hasFpu s.reset input n) (input n) = false := by
  rw [← sysAt_state]
  exact (hc n).notBusy hv

omit hc in
/-- A part that leaves stage 2 for the next has its answer. -/
theorem dIn_valid_of_asks {x : Sys} {i : Input} (hp : IsFree p x i) (ha : p.asks = true) :
    i.dIn.valid = true := by
  rcases hp with rfl | rfl | rfl | ⟨-, -, hv⟩
  · cases ha
  · cases ha
  · cases ha
  · exact hv

omit hc in
/-- Two parts of one instruction are loads or not. -/
theorem load_eq_of_taken {s : State} {m : Nat}
    (hb : ∀ n, (input n).lIn.valid = true → busy (stateAt hasFpu s input n) (input n) = false)
    (hmov : Moves (input m).lIn) (h1 : takenOne hasFpu s input n = some m)
    (h2 : takenTwo hasFpu s input n = some m) :
    (stateAt hasFpu s input n).r1.req.load = (stateAt hasFpu s input n).r2.req.load := by
  obtain ⟨-, second, hp⟩ := (marks_run hb n).1 m h1 hmov
  obtain ⟨-, -, second', hp'⟩ := (marks_run hb n).2 m h2 hmov
  rw [hp.load_eq, hp'.load_eq]

/-- Stage 2 takes what stage 1 holds: the parts in stage 2. -/
theorem PartsSent.two_free (h : PartsSent hasFpu s input n) (hi : Inv p k (sysAt hasFpu s input n))
    (hi' : Inv p' k' (sysAt hasFpu s input (n + 1)))
    (hp : IsFree p (sysAt hasFpu s input n) (input n)) (hs : (input n).lIn.e2stall = false)
    {m : Nat}
    (hm : takenTwo hasFpu s.reset input (n + 1) = some m) (hmov : Moves (input m).lIn)
    (ha : p'.asks = true) : TwoSent hasFpu s input (n + 1) m := by
  have hx := sysAt_state hasFpu s input n
  have hfree := hi.two.free (hc n) hp
  obtain ⟨hv', hd', -⟩ := hi'.two.valid_of_asks ha
  obtain ⟨hready, hbubble⟩ := r2in_moved hfree hs
  change (r2in (sysAt hasFpu s input n).s (input n)).req.valid = true at hv'
  change (r2in (sysAt hasFpu s input n).s (input n)).req.dcReq = true at hd'
  cases hr : stage1Ready (sysAt hasFpu s input n).s with
  | false =>
      rw [hbubble hr] at hv'
      cases hv'
  | true =>
      obtain ⟨hf, hval, hdw⟩ := hready hr
      have hd1 : (sysAt hasFpu s input n).s.r1.req.dcReq = true :=
        (congrArg Flags.dcReq hf).symm.trans hd'
      have hl1 : (r2in (sysAt hasFpu s input n).s (input n)).req.load =
          (sysAt hasFpu s input n).s.r1.req.load := congrArg Flags.load hf
      rw [hval] at hv'
      have hiss : (sysAt hasFpu s input n).s.r1.issued = true := by
        simpa [stage1Ready, hv', hd1] using hr
      have h2free : stage2Free (sysAt hasFpu s input n).s (input n) = true :=
        stage2Free_iff.mpr ⟨hfree.stall, hfree.error, hfree.busy, hs⟩
      have hone : takenOne hasFpu s.reset input n = some m := by
        rw [hx] at h2free hr
        simpa [takenTwo, h2free, hr] using hm
      rw [hx] at hv' hd1 hiss
      have ho := h.one m hone hmov hv' hd1
      rw [hx] at hdw hl1
      refine ⟨?_, fun hsec => ?_, fun hsec hload => ?_⟩
      · have hsent := (ho.issued hiss).succ
        rw [← hdw] at hsent
        exact hsent
      · exact (ho.first (hdw.symm.trans hsec)).succ
      · rcases ho.came (hdw.symm.trans hsec) (hl1.symm.trans hload) with
          ⟨hask, htwo, hfirst⟩ | ⟨hempty, hcame⟩
        · -- the first half leaves stage 2 now
          rw [hi.two.phase_eq] at hask
          have hv := dIn_valid_of_asks hp hask
          refine firstCame_now hv ?_ hfirst htwo
          exact (load_eq_of_taken (notBusy_of_contract hc) hmov hone htwo).symm.trans
            (hl1.symm.trans hload)
        · rw [hi.two.phase_eq] at hempty
          exact hcame.succ (hi.two.silent (hc n) (by rw [hempty]; decide)).1

/-- Stage 2 is held up: the parts in stage 2. -/
theorem PartsSent.two_kept (h : PartsSent hasFpu s input n) (hi : Inv p k (sysAt hasFpu s input n))
    (hi' : Inv p' k' (sysAt hasFpu s input (n + 1)))
    (hp : ¬ IsFree p (sysAt hasFpu s input n) (input n)) {m : Nat}
    (hm : takenTwo hasFpu s.reset input (n + 1) = some m) (hmov : Moves (input m).lIn)
    (ha : p'.asks = true) : TwoSent hasFpu s input (n + 1) m := by
  have hx := sysAt_state hasFpu s input n
  obtain ⟨-, hd', -⟩ := hi'.two.valid_of_asks ha
  have hkept := stage2Free_of_kept hi.two (hc n) hp
  have hreq := r2in_kept_req hkept
  have hdc : (r2in (sysAt hasFpu s input n).s (input n)).req.dcReq =
      (sysAt hasFpu s input n).s.r2.req.dcReq := by rw [hreq]
  have hdw : (r2in (sysAt hasFpu s input n).s (input n)).req.dwordIndex =
      (sysAt hasFpu s input n).s.r2.req.dwordIndex := by rw [hreq]
  have hl2 : (r2in (sysAt hasFpu s input n).s (input n)).req.load =
      (sysAt hasFpu s input n).s.r2.req.load := by rw [hreq]
  change (r2in (sysAt hasFpu s input n).s (input n)).req.dcReq = true at hd'
  rw [hx] at hkept
  have htwo : takenTwo hasFpu s.reset input n = some m := by
    simpa [takenTwo, hkept] using hm
  have hask : p.asks = true := by
    have hne : p ≠ .empty ∧ p ≠ .stale := by
      unfold IsFree at hp
      tauto
    have := hi.two.dcReq hne.1
    rw [← hdc, hd'] at this
    simpa [hne.2] using this.symm
  have ht := h.two m htwo hmov (by rw [hi.two.phase_eq]; exact hask)
  -- nothing comes back for it
  have hv : (input n).dIn.valid = false := by
    by_contra hv
    have hpa : p = .ask := by
      by_contra hpa
      exact hv (hi.two.silent (hc n) hpa).1
    obtain ⟨-, -, second, hpart⟩ := (marks_run (notBusy_of_contract hc) n).2 m htwo hmov
    have hh := (hpart.not_hash hmov).2
    rw [← hx] at hh
    exact hp (Or.inr (Or.inr (Or.inr ⟨hpa, hh, by simpa using hv⟩)))
  rw [hx] at hdw hl2
  refine ⟨?_, fun hsec => ?_, fun hsec hload => ?_⟩
  · have hsent := ht.issued.succ
    rw [← hdw] at hsent
    exact hsent
  · exact (ht.first (hdw.symm.trans hsec)).succ
  · exact (ht.came (hdw.symm.trans hsec) (hl2.symm.trans hload)).succ hv

/-- Stage 1 goes on with what it holds or takes an instruction: the parts in stage 1. -/
theorem PartsSent.one_free (h : PartsSent hasFpu s input n) (hi : Inv p k (sysAt hasFpu s input n))
    (hi' : Inv p' k' (sysAt hasFpu s input (n + 1)))
    (hp : IsFree p (sysAt hasFpu s input n) (input n)) (hs : (input n).lIn.e2stall = false)
    {m : Nat}
    (hm : takenOne hasFpu s.reset input (n + 1) = some m) (hmov : Moves (input m).lIn)
    (hd' : (stateAt hasFpu s.reset input (n + 1)).r1.req.dcReq = true) :
    OneSent hasFpu s input (n + 1) m := by
  have hx := sysAt_state hasFpu s input n
  have hfree := hi.two.free (hc n) hp
  have he := hfree.exception_false
  have hl := hfree.l2stall_false
  have hen := hfree.stage1En
  have hone := hi.one
  obtain ⟨hready, hbubble⟩ := r2in_moved hfree hs
  have h2free : stage2Free (sysAt hasFpu s input n).s (input n) = true :=
    stage2Free_iff.mpr ⟨hfree.stall, hfree.error, hfree.busy, hs⟩
  rw [hx] at he hl hen hone h2free
  obtain ⟨-, second', hpart'⟩ := (marks_run (notBusy_of_contract hc) (n + 1)).1 m hm hmov
  -- stage 1 latches what it makes
  have hreq : (stateAt hasFpu s.reset input (n + 1)).r1.req =
      stage1Req hasFpu (stateAt hasFpu s.reset input n) (input n) := by
    have hr1 : (stateAt hasFpu s.reset input (n + 1)).r1.req =
        r1Req hasFpu (stateAt hasFpu s.reset input n) (input n) := by
      rw [stateAt_succ]
      change (r1in hasFpu _ _).req = _
      simp [r1in, he, hl]
    rw [hr1]
    exact r1Req_of_not_hash (hr1 ▸ hpart'.not_hash hmov)
  have hissued : (stateAt hasFpu s.reset input (n + 1)).r1.issued = true →
      SentPart hasFpu s input (n + 1) m
        (stateAt hasFpu s.reset input (n + 1)).r1.req.dwordIndex := by
    intro hiss
    have hdc : stage1Dcreq hasFpu (stateAt hasFpu s.reset input n) (input n) = true := by
      have : (r1in hasFpu (stateAt hasFpu s.reset input n) (input n)).issued = true := hiss
      simpa [r1in, he, hl] using this
    rw [hreq]
    exact sentPart_now hdc hen hm
  cases hb : (stateAt hasFpu s.reset input n).r1.busy with
  | false =>
      have hfirst : (stateAt hasFpu s.reset input (n + 1)).r1.req.dwordIndex = false := by
        rw [hreq, stage1Req_of_not_busy hb]
        rfl
      refine ⟨hissued, fun hsec => ?_, fun hsec _ => ?_⟩
      · rw [hfirst] at hsec
        cases hsec
      · rw [hfirst] at hsec
        cases hsec
  | true =>
      have hm1 : takenOne hasFpu s.reset input n = some m := by
        simpa [takenOne, he, hl, hb] using hm
      have hv1 : (stateAt hasFpu s.reset input n).r1.req.valid = true := by
        rw [hone.valid]
        rw [hone.busy] at hb
        revert hb
        cases k <;> decide
      obtain ⟨-, second, hpart⟩ := (marks_run (notBusy_of_contract hc) n).1 m hm1 hmov
      rw [hreq] at hd'
      unfold stage1Req at hreq hd'
      rw [hb] at hreq hd'
      simp only [Bool.not_true, Bool.false_eq_true, if_false] at hreq hd'
      split_ifs at hreq hd' with hq hinc
      · -- the request is issued now, and stage 2 has nothing
        have hnot : stage1Ready (sysAt hasFpu s input n).s = false := by
          rw [hx]
          rw [Bool.and_eq_true, Bool.not_eq_true'] at hq
          simp [stage1Ready, hv1, hq]
        have hempty : (sysAt hasFpu s input (n + 1)).phase = .empty := by
          rw [hi'.two.phase_eq]
          exact hi'.two.empty_of (hbubble hnot)
        have ho := h.one m hm1 hmov hv1 hd'
        rw [hreq] at hissued
        refine ⟨by rw [hreq]; exact hissued, fun hsec => ?_, fun hsec hload => ?_⟩
        · exact (ho.first (hreq ▸ hsec)).succ
        · refine Or.inr ⟨hempty, ?_⟩
          rcases ho.came (hreq ▸ hsec) (hreq ▸ hload) with ⟨hask, htwo, hfirst⟩ | ⟨hp0, hcame⟩
          · rw [hi.two.phase_eq] at hask
            refine firstCame_now (dIn_valid_of_asks hp hask) ?_ hfirst htwo
            exact (load_eq_of_taken (notBusy_of_contract hc) hmov hm1 htwo).symm.trans
              (hreq ▸ hload)
          · rw [hi.two.phase_eq] at hp0
            exact hcame.succ (hi.two.silent (hc n) (by rw [hp0]; decide)).1
      · -- the second half follows the first, which goes to stage 2
        obtain ⟨rfl, -⟩ := hpart.more hinc
        have hsec0 : (stateAt hasFpu s.reset input n).r1.req.dwordIndex = false :=
          hpart.controls.2.2.2.2.2
        have hk : k = .more ∨ k = .wait := by
          rw [hone.busy] at hb
          have hop : k ≠ .op := by
            rintro rfl
            have hinc' := ((hone.ok (by decide)).op (hone.mmuOp (by decide))).2.2.2.2.2.2
            rw [show (stateAt hasFpu s.reset input n).r1.req.flags.incomplete = true from hinc]
              at hinc'
            cases hinc'
          revert hb hop
          cases k <;> decide
        have hd1 : (stateAt hasFpu s.reset input n).r1.req.dcReq = true := hone.dcReq.2 hk
        have hiss : (stateAt hasFpu s.reset input n).r1.issued = true := by
          simpa [hd1] using hq
        have hrd : stage1Ready (sysAt hasFpu s input n).s = true := by
          rw [hx]
          simp [stage1Ready, hiss]
        obtain ⟨hf, hval, hdw⟩ := hready hrd
        have ho := h.one m hm1 hmov hv1 hd1
        refine ⟨hissued, fun _ => ?_, fun _ _ => Or.inl ⟨?_, ?_, ?_⟩⟩
        · have hsent := (ho.issued hiss).succ
          rw [hsec0] at hsent
          exact hsent
        · rw [hi'.two.phase_eq]
          refine hi'.two.asks_of (hval.trans (hx ▸ hv1)) ?_ ?_
          · exact (congrArg Flags.dcReq hf).trans (hx ▸ hd1)
          · exact (congrArg Flags.hashcmp hf).trans (hx ▸ (hpart.not_hash hmov).2)
        · rw [hx] at hrd
          simpa [takenTwo, h2free, hrd] using hm1
        · rw [hx] at hdw
          exact hdw.trans hsec0

/-- Stage 1 is held up: the parts in stage 1. -/
theorem PartsSent.one_kept (h : PartsSent hasFpu s input n) (hi : Inv p k (sysAt hasFpu s input n))
    (hi' : Inv p' k' (sysAt hasFpu s input (n + 1)))
    (hp : ¬ IsFree p (sysAt hasFpu s input n) (input n)) {m : Nat}
    (hm : takenOne hasFpu s.reset input (n + 1) = some m) (hmov : Moves (input m).lIn)
    (hv' : (stateAt hasFpu s.reset input (n + 1)).r1.req.valid = true)
    (hd' : (stateAt hasFpu s.reset input (n + 1)).r1.req.dcReq = true) :
    OneSent hasFpu s input (n + 1) m := by
  have hx := sysAt_state hasFpu s input n
  have hl := l2stall_of_kept hi.two (hc n) hp
  have hkept := stage2Free_of_kept hi.two (hc n) hp
  have hreq2 := r2in_kept_req hkept
  obtain ⟨-, hval2, -⟩ := r2in_kept hkept
  cases he : exception (sysAt hasFpu s input n).s (input n) with
  | true =>
      rw [hx] at he
      simp [takenOne, he] at hm
  | false =>
      have hn := (stage2Interrupt_of_exception he).1
      rw [hx] at he hl hkept
      have hm1 : takenOne hasFpu s.reset input n = some m := by
        simpa [takenOne, he, hl] using hm
      have hreq : (stateAt hasFpu s.reset input (n + 1)).r1.req =
          (stateAt hasFpu s.reset input n).r1.req := by
        rw [stateAt_succ]
        change (r1in hasFpu _ _).req = _
        simp [r1in, he, hl]
      have hiss : (stateAt hasFpu s.reset input (n + 1)).r1.issued =
          ((stateAt hasFpu s.reset input n).r1.issued && !(input n).dIn.error) := by
        rw [stateAt_succ]
        change (r1in hasFpu _ _).issued = _
        simp [r1in, he, hl]
      have ho := h.one m hm1 hmov (hreq ▸ hv') (hreq ▸ hd')
      refine ⟨fun h' => ?_, fun hsec => ?_, fun hsec hload => ?_⟩
      · rw [hiss, Bool.and_eq_true] at h'
        rw [hreq]
        exact (ho.issued h'.1).succ
      · exact (ho.first (hreq ▸ hsec)).succ
      · rcases ho.came (hreq ▸ hsec) (hreq ▸ hload) with ⟨hask, htwo, hfirst⟩ | ⟨hp0, -⟩
        · -- the first half stays in stage 2
          rw [hi.two.phase_eq] at hask
          obtain ⟨hv2, hd2, hop⟩ := hi.two.valid_of_asks hask
          obtain ⟨-, -, second, hpart⟩ := (marks_run (notBusy_of_contract hc) n).2 m htwo hmov
          have hh := (hpart.not_hash hmov).2
          rw [← hx] at hh
          refine Or.inl ⟨?_, ?_, ?_⟩
          · rw [hi'.two.phase_eq]
            refine hi'.two.asks_of (hval2.trans ?_) ?_ ?_
            · rw [hn, hv2, hop]
              simp
            · change (r2in (sysAt hasFpu s input n).s (input n)).req.dcReq = true
              rw [hreq2]
              exact hd2
            · change (r2in (sysAt hasFpu s input n).s (input n)).req.hashcmp = false
              rw [hreq2]
              exact hh
          · simpa [takenTwo, hkept] using htwo
          · rw [hx] at hreq2
            change (r2in (stateAt hasFpu s.reset input n) (input n)).req.dwordIndex = false
            rw [hreq2]
            exact hfirst
        · rw [hi.two.phase_eq] at hp0
          exact absurd (Or.inl hp0) hp

/-- The FPU holds up the stages: there are no parts. -/
theorem PartsSent.e2stall (hi : Inv p k (sysAt hasFpu s input n))
    (hs : (input n).lIn.e2stall = true) : PartsSent hasFpu s input (n + 1) := by
  obtain ⟨-, -, hi'⟩ := @Inv.step_e2stall hasFpu _ _ _ _ hi (hc n) hs
  refine ⟨fun m _ _ hv => ?_, fun m _ _ ha => ?_⟩
  · rw [← sysAt_state] at hv
    have := hi'.one.valid
    rw [show (Sys.step hasFpu (sysAt hasFpu s input n) (input n)).s.r1.req.valid = true from hv]
      at this
    cases this
  · have hp := hi'.two.phase_eq
    rw [show (Sys.step hasFpu (sysAt hasFpu s input n) (input n)) = sysAt hasFpu s input (n + 1)
      from rfl] at hp
    rw [hp] at ha
    cases ha

theorem partsSent (hsound : ∀ n, Sound (sysAt hasFpu s input n) (input n)) (n : Nat) :
    PartsSent hasFpu s input n := by
  induction n with
  | zero =>
      constructor
      · intro m hm
        cases hm
      · intro m hm
        cases hm
  | succ n ih =>
      obtain ⟨⟨p, k, hi⟩, -⟩ := inv_sysAt hc hsound n
      obtain ⟨⟨p', k', hi'⟩, -⟩ := inv_sysAt hc hsound (n + 1)
      cases hs : (input n).lIn.e2stall with
      | true => exact PartsSent.e2stall hc hi hs
      | false =>
          by_cases hp : IsFree p (sysAt hasFpu s input n) (input n)
          · exact ⟨fun m hm hmov _ hd => ih.one_free hc hi hi' hp hs hm hmov hd,
              fun m hm hmov ha =>
                ih.two_free hc hi hi' hp hs hm hmov (hi'.two.phase_eq ▸ ha)⟩
          · exact ⟨fun m hm hmov hv hd => ih.one_kept hc hi hi' hp hm hmov hv hd,
              fun m hm hmov ha => ih.two_kept hc hi hi' hp hm hmov (hi'.two.phase_eq ▸ ha)⟩

end

/-! ## Every access -/

section

variable (hasFpu : Bool) (s : State) (input : Nat → Input)

/-- The bytes that instruction `m` is about. -/
def transferAt (m : Nat) (hm : Moves (input m).lIn) : Transfer :=
  transfer (input m).lIn (stateAt hasFpu s.reset input m).r1.addr0 hm

/-- The dcache answers the last request of instruction `m` in cycle `n`. -/
structure Ends (n m : Nat) : Prop where
  taken : takenTwo hasFpu s.reset input n = some m
  valid : (input n).dIn.valid = true
  last : (stateAt hasFpu s.reset input n).r2.req.dcReq = true ∧
    (stateAt hasFpu s.reset input n).r2.req.incomplete = false

/-- How the accesses of a run are formatted. -/
structure Formatted : Prop where
  /-- Whatever is sent for an access is its first or second write, with its data in their lanes. -/
  writes : ∀ n m, ∀ hm : Moves (input m).lIn, sentFor hasFpu s.reset input n = some m →
    Writes (transferAt hasFpu s input m hm) (request hasFpu s.reset input m).storeData
      (dOut hasFpu (stateAt hasFpu s.reset input n) (input n))
      (dOut hasFpu (stateAt hasFpu s.reset input (n + 1)) (input (n + 1)))
  /-- The data are those of the instruction, unless they are to be converted. -/
  data : ∀ m, (input m).lIn.is32bit = false →
    (request hasFpu s.reset input m).storeData = (input m).lIn.data
  /-- The one or two writes of a store put the bytes of the register to their addresses and leave
  all other bytes alone; and a load gets them back. -/
  store : ∀ (a : Transfer) (mem : Mem) (v : BitVec 64),
    (∀ j, j < a.len → a.store mem v (a.byteAddr j) = byteOf v (BitVec.ofNat 3 (a.regByte j))) ∧
    (∀ x, (∀ j, j < a.len → x ≠ a.byteAddr j) → a.store mem v x = mem x) ∧
    ∀ signExtend, a.extend signExtend (a.bytes (a.store mem v)) = a.extend signExtend v
  /-- A load is put together from its doublewords. -/
  load : ∀ n m mem, ∀ hm : Moves (input m).lIn, Ends hasFpu s input n m →
    Returned hasFpu s.reset input mem (transferAt hasFpu s input m hm) m n →
    dataTrimmed (stateAt hasFpu s.reset input n) (input n) =
      (transferAt hasFpu s input m hm).extend (input m).lIn.signExtend
        ((transferAt hasFpu s input m hm).bytes mem)
  /-- That is the value for the register, unless it is to be converted. -/
  value : ∀ n m, Moves (input m).lIn → Ends hasFpu s input n m →
    (request hasFpu s.reset input m).load = true →
    (request hasFpu s.reset input m).loadSp = false →
    (lOut (stateAt hasFpu s.reset input n) (input n)).writeData =
      dataTrimmed (stateAt hasFpu s.reset input n) (input n)

/-- Nothing is missing when an access ends. -/
structure Complete : Prop where
  /-- No request is sent but for an instruction. -/
  sent : ∀ n, (dOut hasFpu (stateAt hasFpu s.reset input n) (input n)).valid = true →
    ∃ m, sentFor hasFpu s.reset input n = some m
  /-- Both writes have been sent. -/
  both : ∀ n m, ∀ hm : Moves (input m).lIn, Ends hasFpu s input n m →
    (∃ t, t < n ∧ sentFor hasFpu s.reset input t = some m ∧
      (dOut hasFpu (stateAt hasFpu s.reset input t) (input t)).addr =
        (transferAt hasFpu s input m hm).addr ∧
      (dOut hasFpu (stateAt hasFpu s.reset input t) (input t)).byteSel =
        (transferAt hasFpu s input m hm).sel.extractLsb' 0 8) ∧
    ((transferAt hasFpu s input m hm).crosses = true → ∃ t, t < n ∧
      sentFor hasFpu s.reset input t = some m ∧
      (dOut hasFpu (stateAt hasFpu s.reset input t) (input t)).addr =
        (transferAt hasFpu s input m hm).second ∧
      (dOut hasFpu (stateAt hasFpu s.reset input t) (input t)).byteSel =
        (transferAt hasFpu s input m hm).sel.extractLsb' 8 8)
  /-- The first doubleword of a load was the last that came back before its second. -/
  first : ∀ n m, ∀ hm : Moves (input m).lIn, Ends hasFpu s input n m →
    (request hasFpu s.reset input m).load = true →
    (transferAt hasFpu s input m hm).crosses = true →
    ∃ d, lastRead hasFpu s.reset input n = some ⟨some m, false, d⟩

end

section

variable {hasFpu : Bool} {s : State} {input : Nat → Input} {n m : Nat}

theorem formatted_run (hb : ∀ n, (input n).lIn.valid = true →
    busy (stateAt hasFpu s.reset input n) (input n) = false) : Formatted hasFpu s input where
  writes := fun _ _ hm hs => writes_of_sentFor hb hs hm
  data := by
    intro m hm
    simp [request, reqIn, hm]
  store := fun a mem v =>
    ⟨fun _ hj => a.store_byteAddr mem v hj, fun _ hx => a.store_other mem v hx,
      a.bytes_store mem v⟩
  load := fun _ _ _ hm he hr => dataTrimmed_of_returned hb he.taken hm he.last hr
  value := by
    intro n m hm he hl hsp
    obtain ⟨-, hw, -⟩ := (marks_run hb n).2 m he.taken hm
    have hsel : wrSelOf (request hasFpu s.reset input m) = 2 := by
      have hno : (request hasFpu s.reset input m).doUpdate = false ∧
          (request hasFpu s.reset input m).store = false ∧
          (request hasFpu s.reset input m).readSpr = false := by
        have hl' : loadIn (input m).lIn = true := hl
        change doUpdateIn (input m).lIn = false ∧ ((input m).lIn.op == .store) = false ∧
          ((input m).lIn.op == .mfspr) = false
        rcases hm.op with hop | hop
        · simpa [loadIn, hop] using hl'
        · simp [loadIn, hop] at hl'
      simp [wrSelOf, hno, hsp]
    rw [hsel] at hw
    simp [lOut, hw]

/-- A request in stage 2 has come from stage 1 or has stayed. -/
theorem r2in_valid {x : State} {i : Input} (hv : (r2in x i).req.valid = true) :
    (stage2Free x i = true ∧ stage1Ready x = true ∧ x.r1.req.valid = true) ∨
    (stage2Free x i = false ∧ x.r2.req.valid = true) := by
  have hend (v : RegStage2) (h : (endStage2 x i (endBusy x i (mmuDone x i v))).req.valid = true) :
      v.req.valid = true := by
    rw [endStage2_eq.2.1, endBusy_eq.1, mmuDone_eq.2.1] at h
    simp only [Bool.and_eq_true] at h
    exact h.2.1
  unfold r2in at hv
  have h := hend _ hv
  cases hf : stage2Free x i with
  | false =>
      simp only [hf, Bool.false_eq_true, if_false] at h
      rw [(dbgRead_marks x i x.r2).2.2.2] at h
      exact Or.inr ⟨rfl, h⟩
  | true =>
      cases hr : stage1Ready x with
      | true =>
          simp only [hf, hr, if_true] at h
          exact Or.inl ⟨rfl, rfl, h⟩
      | false =>
          simp only [hf, hr, if_true, Bool.false_eq_true, if_false] at h
          cases h

/-- A request in the stages is of an instruction that has been taken. -/
theorem taken_of_valid (n : Nat) :
    ((stateAt hasFpu s.reset input n).r1.req.valid = true →
      ∃ m, takenOne hasFpu s.reset input n = some m) ∧
    ((stateAt hasFpu s.reset input n).r2.req.valid = true →
      ∃ m, takenTwo hasFpu s.reset input n = some m) := by
  induction n with
  | zero => exact ⟨nofun, nofun⟩
  | succ n ih =>
      rw [stateAt_succ]
      constructor
      · intro hv
        change (r1in hasFpu _ _).req.valid = true at hv
        cases he : exception (stateAt hasFpu s.reset input n) (input n) with
        | true => simp [r1in, he] at hv
        | false =>
          cases hl : l2stall (stateAt hasFpu s.reset input n) (input n) with
          | true =>
              have hv1 : (stateAt hasFpu s.reset input n).r1.req.valid = true := by
                simpa [r1in, he, hl] using hv
              obtain ⟨m, hm⟩ := ih.1 hv1
              exact ⟨m, by simpa [takenOne, he, hl] using hm⟩
          | false =>
              have hv1 : (stage1Req hasFpu (stateAt hasFpu s.reset input n) (input n)).valid =
                  true := by
                rw [← (@r1Req_flags hasFpu (stateAt hasFpu s.reset input n) (input n)).2.1]
                simpa [r1in, he, hl] using hv
              cases hbusy : (stateAt hasFpu s.reset input n).r1.busy with
              | true =>
                  have hv0 : (stateAt hasFpu s.reset input n).r1.req.valid = true := by
                    unfold stage1Req at hv1
                    rw [hbusy] at hv1
                    simp only [Bool.not_true, Bool.false_eq_true, if_false] at hv1
                    split_ifs at hv1
                    · exact hv1
                    · exact hv1
                    · exact (Bool.and_eq_true_iff.mp hv1).1
                  obtain ⟨m, hm⟩ := ih.1 hv0
                  exact ⟨m, by simpa [takenOne, he, hl, hbusy] using hm⟩
              | false =>
                  have hlv : (input n).lIn.valid = true := by
                    rw [stage1Req_of_not_busy hbusy] at hv1
                    exact hv1
                  exact ⟨n, by simp [takenOne, he, hl, hbusy, hlv]⟩
      · intro hv
        change (r2in _ _).req.valid = true at hv
        rcases r2in_valid hv with ⟨hf, hr, hv1⟩ | ⟨hf, hv2⟩
        · obtain ⟨m, hm⟩ := ih.1 hv1
          exact ⟨m, by simpa [takenTwo, hf, hr] using hm⟩
        · obtain ⟨m, hm⟩ := ih.2 hv2
          exact ⟨m, by simpa [takenTwo, hf] using hm⟩

/-- Which of the two writes is sent. -/
theorem select_of_sent (hb : ∀ n, (input n).lIn.valid = true →
      busy (stateAt hasFpu s.reset input n) (input n) = false) (hm : Moves (input m).lIn)
    {second : Bool} (hs : SentPart hasFpu s input n m second) :
    ∃ t, t < n ∧ sentFor hasFpu s.reset input t = some m ∧
      (dOut hasFpu (stateAt hasFpu s.reset input t) (input t)).addr =
        (if second then (transferAt hasFpu s input m hm).second
          else (transferAt hasFpu s input m hm).addr) ∧
      (dOut hasFpu (stateAt hasFpu s.reset input t) (input t)).byteSel =
        (transferAt hasFpu s input m hm).sel.extractLsb' (if second then 8 else 0) 8 := by
  obtain ⟨t, ht, hsent, hdw⟩ := hs
  obtain ⟨second', d, hp⟩ := isPart_sent hb hsent hm
  obtain rfl : second' = second := hp.controls.2.2.2.2.2.symm.trans hdw
  refine ⟨t, ht, hsent, ?_⟩
  change (dReq hasFpu _ _).addr = _ ∧ (dReq hasFpu _ _).byteSel = _
  rw [hp.eq]
  cases second' <;> exact ⟨rfl, rfl⟩

theorem complete_run (hc : ∀ n, Contract (sysAt hasFpu s input n) (input n))
    (hsound : ∀ n, Sound (sysAt hasFpu s input n) (input n)) : Complete hasFpu s input := by
  have hb := notBusy_of_contract hc
  -- what has been sent and has come back when the last request is answered
  have hends : ∀ n m, Moves (input m).lIn → Ends hasFpu s input n m →
      TwoSent hasFpu s input n m ∧ (stateAt hasFpu s.reset input n).r2.req.dwordIndex =
        (request hasFpu s.reset input m).twoDwords := by
    intro n m hm he
    obtain ⟨⟨p, k, hi⟩, -⟩ := inv_sysAt hc hsound n
    obtain rfl : p = .ask := by
      by_contra hp
      have hv := he.valid
      rw [(hi.two.silent (hc n) hp).1] at hv
      cases hv
    obtain ⟨-, -, second, hp⟩ := (marks_run hb n).2 m he.taken hm
    refine ⟨(partsSent hc hsound n).two m he.taken hm (by rw [hi.two.phase_eq]; rfl), ?_⟩
    rw [hp.controls.2.2.2.2.2]
    exact hp.last he.last.1 he.last.2
  refine ⟨fun n hv => ?_, fun n m hm he => ?_, fun n m hm he hl hcr => ?_⟩
  · obtain ⟨⟨p, k, hi⟩, -⟩ := inv_sysAt hc hsound n
    obtain ⟨h1, h2⟩ := @taken_of_valid hasFpu s input n
    have hone := hi.one
    have hvalid := hi.two.valid
    have hbusy := hi.two.busy
    have hwalk := hi.two.stage1En
    rw [sysAt_state] at hone hvalid hbusy hwalk
    cases hen : (stateAt hasFpu s.reset input n).r3.stage1En with
    | true =>
        have hdc : stage1Dcreq hasFpu (stateAt hasFpu s.reset input n) (input n) = true := by
          simpa [dOut, hen] using hv
        cases hb1 : (stateAt hasFpu s.reset input n).r1.busy with
        | true =>
            have hv1 : (stateAt hasFpu s.reset input n).r1.req.valid = true := by
              rw [hone.valid]
              rw [hone.busy] at hb1
              revert hb1
              cases k <;> decide
            obtain ⟨m, hm⟩ := h1 hv1
            exact ⟨m, by simp [sentFor, hv, hen, hb1, hm]⟩
        | false =>
            have hi : issue (stateAt hasFpu s.reset input n) (input n) = true := by
              simp only [stage1Dcreq, Bool.and_eq_true] at hdc
              exact hdc.1.2
            have hlv : (input n).lIn.valid = true := by
              rw [@issue_of_not_busy hasFpu _ _ hb1, Bool.and_eq_true] at hi
              exact hi.1
            exact ⟨n, by simp [sentFor, hv, hen, hb1, hlv]⟩
    | false =>
        -- only the request that waits for its translation is sent again
        obtain rfl : p = .walk := by
          rw [hen] at hwalk
          simpa using hwalk.symm
        obtain ⟨m, hm⟩ := h2 hvalid
        have hb2 : (stateAt hasFpu s.reset input n).r2.busy = true := hbusy
        exact ⟨m, by simp [sentFor, hv, hen, hb2, hm]⟩
  · obtain ⟨ht, hdw⟩ := hends n m hm he
    cases hcr : (request hasFpu s.reset input m).twoDwords with
    | true =>
        rw [hcr] at hdw
        have hi := ht.issued
        rw [hdw] at hi
        exact ⟨select_of_sent hb hm (ht.first hdw), fun _ => select_of_sent hb hm hi⟩
    | false =>
        rw [hcr] at hdw
        have hi := ht.issued
        rw [hdw] at hi
        refine ⟨select_of_sent hb hm hi, fun hcr' => ?_⟩
        rw [show (transferAt hasFpu s input m hm).crosses = false from hcr] at hcr'
        cases hcr'
  · obtain ⟨ht, hdw⟩ := hends n m hm he
    have hdw' : (stateAt hasFpu s.reset input n).r2.req.dwordIndex = true := hdw.trans hcr
    obtain ⟨-, -, second, hp⟩ := (marks_run hb n).2 m he.taken hm
    exact ht.came hdw' (hp.load_eq.trans hl)

/-- In every run in which execute1 waits while the unit is busy, what is sent for stores makes
exactly their bytes, and what is put together for loads is theirs; and as long as answers come to
the requests that they are for, nothing is missing when an access ends. -/
theorem formatted_accesses (s : State) (input : Nat → Input)
    (hb : ∀ n, (input n).lIn.valid = true →
      busy (stateAt hasFpu s.reset input n) (input n) = false) :
    Formatted hasFpu s input ∧
    ((∀ n, Contract (sysAt hasFpu s input n) (input n)) →
      (∀ n, Sound (sysAt hasFpu s input n) (input n)) → Complete hasFpu s input) :=
  ⟨formatted_run hb, complete_run⟩

/-- Every byte is the low part of its address. -/
def addressMem : Mem := fun x => x.setWidth 8

/-- A word is loaded from 0x1006, across a doubleword boundary. -/
def crossLoad (n : Nat) : Input :=
  if n = 0 then .present { insnOf .load 1 with addr1 := 0x1006, length := 4 }
  else if n = 2 then
    { Input.idle with dIn := { Input.idle.dIn with valid := true, data := 0x0706050403020100 } }
  else if n = 3 then
    { Input.idle with dIn := { Input.idle.dIn with valid := true, data := 0x0f0e0d0c0b0a0908 } }
  else .idle

theorem crossLoad_idle {n : Nat} (hn : 4 ≤ n) : crossLoad n = .idle := by
  unfold crossLoad
  rw [if_neg (by omega), if_neg (by omega), if_neg (by omega)]

theorem crossLoad_start (n : Nat) (hn : n < 4) :
    Contract (sysAt true State.cold crossLoad n) (crossLoad n) ∧
    Sound (sysAt true State.cold crossLoad n) (crossLoad n) := by
  revert n
  decide +kernel

theorem moves_crossLoad : Moves (crossLoad 0).lIn :=
  ⟨Or.inl rfl, rfl, Or.inr (Or.inr (Or.inl rfl))⟩

theorem formatted_crossLoad : Complete true State.cold crossLoad ∧
    dataTrimmed (stateAt true State.cold.reset crossLoad 3) (crossLoad 3) = 0x09080706 := by
  have hsound := (idle_after 4 crossLoad_start (by decide +kernel) (by decide +kernel)
    fun _ hn => crossLoad_idle hn).2
  obtain ⟨hf, hcomplete⟩ := formatted_accesses State.cold crossLoad
    (notBusy_of_contract fun n => (hsound n).1)
  refine ⟨hcomplete (fun n => (hsound n).1) (fun n => (hsound n).2), ?_⟩
  have hends : Ends true State.cold crossLoad 3 0 :=
    ⟨by decide +kernel, rfl, by decide +kernel⟩
  have hload := hf.load 3 0 addressMem moves_crossLoad hends
    ⟨fun _ => by decide +kernel, by decide +kernel⟩
  exact hload.trans (by decide +kernel)

end

end Microwatt.Loadstore1
