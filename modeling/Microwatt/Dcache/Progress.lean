import Microwatt.Dcache.Completion
import Microwatt.Lib.Fair

/-!
# Every request completes

If the slave does not stall forever, acks what it has taken, and loadstore1 does
not hold the pipeline forever, every accepted request leaves the list of waiting
requests.  The argument for a request in `r1` is a rank: the phase of the state
machine (another request's cycle, `IDLE`, its own cycle) and within a phase the
strobes and acks that are still to come.
-/

namespace Microwatt.Dcache

variable {g : Geometry} {s : State g} {i : Input} {owed : Nat}

/-! ## A request in `r1` -/

/-- What the state machine waits for. -/
inductive BusEvent where
  | unstall
  | ack
deriving DecidableEq

/-- The event happens in a cycle with these inputs. -/
def BusEvent.happens (e : BusEvent) (i : Input) : Prop :=
  match e with
  | .unstall => i.wishboneIn.stall = false
  | .ack => i.wishboneIn.ack = true

/-- The event that brings the request in `r1` forward. -/
def waitsFor (s : State g) (owed : Nat) : BusEvent :=
  match s.r1.state with
  | .reloadWaitAck | .ncLoadWaitAck => if s.r1.wb.stb then .unstall else .ack
  | .storeWaitAck =>
      if s.r1.wb.stb || (mergeable s s.r1.req && decide (acksNow s < 7#3)) ||
          (!mergeable s s.r1.req && s.r1.atomicMore) || owed == 0 then .unstall
      else .ack
  | _ => .unstall

/-- How far the request in `r1` is from completion. -/
def fullRank (s : State g) (owed : Nat) : ℕ ×ₗ ℕ :=
  match s.r1.state with
  | .idle => toLex (2, 0)
  | .reloadWaitAck =>
      toLex (if s.r1.req.hitReload then 1 else 3, rowsToSend s.r1 + rowsToCome s.r1)
  | .storeWaitAck => toLex (3, 2 * s.r1.wb.stb.toNat + owed + s.r1.atomicMore.toNat)
  | .ncLoadWaitAck => toLex (1, s.r1.wb.stb.toNat)
  | .doStcx | .flushCycle => toLex (1, 0)

/-- The request comes closer to completion, or goes on waiting for the same
event. -/
def Closer (s : State g) (owed : Nat) (i : Input) : Prop :=
  fullRank (step s i) (owedNext s i owed) < fullRank s owed ∨
    (fullRank (step s i) (owedNext s i owed) = fullRank s owed ∧
      waitsFor (step s i) (owedNext s i owed) = waitsFor s owed ∧
      ¬(waitsFor s owed).happens i)

/-- A request that stays in `r1` stays the same, except that `IDLE` marks it as
started. -/
theorem req_step_of_full (hf : s.r1.full = true) :
    (step s i).r1.req =
      if s.r1.state = .idle then { s.r1.req with hitReload := true } else s.r1.req := by
  rw [step_req]
  simp [takenReq, hf]

theorem closer_idle (h : MachInv s) (hf : s.r1.full = true) (hst : s.r1.state = .idle)
    (hno : retires s i = false) : Closer s owed i := by
  left
  obtain ⟨op, hslow, hop⟩ := h.slow hf
  have hstate := step_state s i
  have hreq := req_step_of_full (i := i) hf
  have hdone : idleDone s s.r1.req = false := by
    simpa [retires, hst, curReq, hf] using hno
  have hnext : idleNext s s.r1.req ≠ .idle ∧ idleNext s s.r1.req ≠ .storeWaitAck := by
    constructor <;> intro hnext
    · rw [idle_progress hop hslow (Or.inl hnext)] at hdone
      exact absurd hdone (by decide)
    · rw [idle_progress hop hslow (Or.inr hnext)] at hdone
      exact absurd hdone (by decide)
  simp only [hst, curReq, hf, if_true] at hstate hreq
  unfold fullRank
  rw [hstate, hst, hreq]
  cases hn : idleNext s s.r1.req with
  | idle => exact absurd hn hnext.1
  | storeWaitAck => exact absurd hn hnext.2
  | reloadWaitAck => exact Prod.Lex.left _ _ (by simp)
  | ncLoadWaitAck => exact Prod.Lex.left _ _ (by simp)
  | doStcx => exact Prod.Lex.left _ _ (by simp)
  | flushCycle => exact Prod.Lex.left _ _ (by simp)

theorem closer_reload (h : MachInv s) (hb : BusInv s owed) (hf : s.r1.full = true)
    (hst : s.r1.state = .reloadWaitAck) (hno : retires s i = false) : Closer s owed i := by
  obtain ⟨hcyc, hrows⟩ := hb.reload hst
  have hstate := step_state s i
  have hreq := req_step_of_full (i := i) hf
  have hf' : (step s i).r1.full = true := by simp [step_full, takenFull, hf, hno]
  simp only [hst, reduceCtorEq, if_false] at hstate hreq
  cases hlast : reloadLast s i with
  | true =>
      left
      have hwait : s.r1.req.hitReload = false := by
        by_contra hr
        have := not_reloadLast_of_waiting h hst hf' (by simpa [curReq, hf] using hr)
        rw [hlast] at this
        exact absurd this (by decide)
      unfold fullRank
      rw [hstate, hst, hlast, hwait]
      exact Prod.Lex.left _ _ (by simp)
  | false =>
      have hsend := rowsToSend_step (i := i) hst hcyc
      have hcome := rowsToCome_step hst hlast
      have htaken : strobeTaken s i = (s.r1.wb.stb && !i.wishboneIn.stall) := by
        simp [strobeTaken, wishboneOut, hcyc]
      simp only [hlast, Bool.false_eq_true, if_false] at hstate
      unfold Closer fullRank waitsFor
      rw [hstate, hst, hreq]
      by_cases hevent : strobeTaken s i = true ∨ i.wishboneIn.ack = true
      · refine Or.inl (Prod.Lex.right _ ?_)
        rcases hevent with ht | ha
        · rw [ht, Bool.toNat_true] at hsend
          omega
        · rw [ha, Bool.toNat_true] at hcome
          omega
      · rw [not_or, Bool.not_eq_true, Bool.not_eq_true] at hevent
        obtain ⟨ht, ha⟩ := hevent
        rw [ht, Bool.toNat_false, Nat.add_zero] at hsend
        rw [ha, Bool.toNat_false, Nat.add_zero] at hcome
        rw [htaken] at ht
        have hstb' : (step s i).r1.wb.stb = s.r1.wb.stb := by
          simp only [step_stb, hst]
          cases hs : s.r1.wb.stb with
          | false => rfl
          | true => simp_all
        refine Or.inr ⟨?_, ?_, ?_⟩
        · rw [hsend, hcome]
        · simp only [hstb']
        · cases hs : s.r1.wb.stb <;> simp_all [BusEvent.happens]

/-- A cycle that no store can be added to waits for its acks. -/
theorem waitsFor_eq_ack (hst : s.r1.state = .storeWaitAck) (hs : s.r1.wb.stb = false)
    (hacks : owed = (acksNow s).toNat) (hexit : storeExit s i = false)
    (hmerge : mergeNow s i = false) (hf : s.r1.full = true) (hstall : i.wishboneIn.stall = false)
    (hdrop : ¬(mergeable s s.r1.req = false ∧ s.r1.atomicMore = true)) :
    waitsFor s owed = .ack := by
  have hcur : curReq s i = s.r1.req := by simp [curReq, hf]
  unfold waitsFor
  simp only [hst, hs, Bool.false_or]
  rw [if_neg]
  cases hm : mergeable s s.r1.req with
  | true =>
      have hfull : ¬acksNow s < 7#3 := by simpa [mergeNow, hcur, hstall, hm] using hmerge
      have hne : owed ≠ 0 := by
        intro h0
        apply hfull
        rw [BitVec.lt_def, ← hacks, h0]
        decide
      simp [hfull, hne]
  | false =>
      have hmore : s.r1.atomicMore = false := by
        by_contra hmore
        exact hdrop ⟨hm, by simpa using hmore⟩
      have hne : owed ≠ 0 := by
        intro h0
        have hzero : acksNow s = 0 := BitVec.eq_of_toNat_eq (by rw [← hacks, h0]; rfl)
        simp [storeExit, stbsDone, hstall, hcur, hm, hmore, hzero] at hexit
      simp [hmore, hne]

/-- What the edge does to an open cycle that it neither closes nor adds to. -/
structure StoreWaits (s : State g) (i : Input) (owed : Nat) : Prop where
  state : (step s i).r1.state = .storeWaitAck
  req : (step s i).r1.req = s.r1.req
  stb : (step s i).r1.wb.stb = (s.r1.wb.stb && i.wishboneIn.stall)
  more : (step s i).r1.atomicMore =
    if !i.wishboneIn.stall && !mergeable s s.r1.req then false else s.r1.atomicMore
  owes : owedNext s i owed =
    owed + (s.r1.wb.stb && !i.wishboneIn.stall).toNat - i.wishboneIn.ack.toNat
  acks : acksNow s = acksNow (step s i) ↔
    owed + s.r1.wb.stb.toNat = owedNext s i owed + (step s i).r1.wb.stb.toNat

theorem storeWaits (h : MachInv s) (hb : BusInv s owed) (hack : AckIsOwed i owed)
    (hf : s.r1.full = true) (hst : s.r1.state = .storeWaitAck) (hexit : storeExit s i = false)
    (hmerge : mergeNow s i = false) : StoreWaits s i owed := by
  obtain ⟨hcyc, hacks⟩ := hb.store hst
  constructor
  · simp [step_state, hst, hexit]
  · simp [req_step_of_full hf, hst]
  · simp only [step_stb, hst, hexit, hmerge]
    cases i.wishboneIn.stall <;> simp
  · simp [step_atomicMore, hst, hmerge, curReq, hf, h.valid hf]
  · simp [owedNext, strobeTaken, wishboneOut, hcyc]
  · rw [hacks, owedNext_add_stb hb hack hst hexit]
    exact ⟨congrArg BitVec.toNat, BitVec.eq_of_toNat_eq⟩

theorem closer_store_of_lt (hst : s.r1.state = .storeWaitAck) (hw : StoreWaits s i owed)
    (hlt : 2 * (step s i).r1.wb.stb.toNat + owedNext s i owed + (step s i).r1.atomicMore.toNat <
      2 * s.r1.wb.stb.toNat + owed + s.r1.atomicMore.toNat) : Closer s owed i := by
  left
  unfold fullRank
  rw [hw.state, hst]
  exact Prod.Lex.right _ hlt

theorem closer_store_of_eq (hst : s.r1.state = .storeWaitAck) (hw : StoreWaits s i owed)
    (hs : (step s i).r1.wb.stb = s.r1.wb.stb) (ho : owedNext s i owed = owed)
    (hm : (step s i).r1.atomicMore = s.r1.atomicMore) (hwait : ¬(waitsFor s owed).happens i) :
    Closer s owed i := by
  have hnow : acksNow s = acksNow (step s i) := hw.acks.mpr (by rw [hs, ho])
  refine Or.inr ⟨?_, ?_, hwait⟩
  · unfold fullRank
    simp only [hw.state, hst, hs, ho, hm]
  · unfold waitsFor mergeable
    simp only [hw.state, hst, hs, ho, hm, ← hnow, hw.req]

theorem closer_store_stalled (hst : s.r1.state = .storeWaitAck) (hw : StoreWaits s i owed)
    (hack : AckIsOwed i owed) (hstall : i.wishboneIn.stall = true) : Closer s owed i := by
  obtain ⟨-, -, hstb', hmore', howed, -⟩ := id hw
  simp only [hstall, Bool.and_true, Bool.not_true, Bool.and_false, Bool.false_and,
    Bool.false_eq_true, if_false, Bool.toNat_false, Nat.add_zero] at hstb' hmore' howed
  cases ha : i.wishboneIn.ack with
  | true =>
      have hpos := hack ha
      rw [ha, Bool.toNat_true] at howed
      apply closer_store_of_lt hst hw
      rw [hstb', hmore']
      omega
  | false =>
      rw [ha, Bool.toNat_false] at howed
      refine closer_store_of_eq hst hw hstb' howed hmore' ?_
      unfold BusEvent.happens
      cases waitsFor s owed <;> simp [hstall, ha]

theorem closer_store_open (hb : BusInv s owed) (hst : s.r1.state = .storeWaitAck)
    (hw : StoreWaits s i owed) (hack : AckIsOwed i owed) (hf : s.r1.full = true)
    (hexit : storeExit s i = false) (hmerge : mergeNow s i = false)
    (hstall : i.wishboneIn.stall = false) : Closer s owed i := by
  obtain ⟨-, -, hstb', hmore', howed, -⟩ := id hw
  simp only [hstall, Bool.and_false, Bool.not_false, Bool.and_true, Bool.true_and]
    at hstb' hmore' howed
  have hmore_le : (step s i).r1.atomicMore.toNat ≤ s.r1.atomicMore.toNat := by
    rw [hmore']
    split_ifs <;> simp
  cases hs : s.r1.wb.stb with
  | true =>
      -- the strobe is taken
      rw [hs, Bool.toNat_true] at howed
      apply closer_store_of_lt hst hw
      rw [hstb', hs, Bool.toNat_false, Bool.toNat_true]
      omega
  | false =>
      rw [hs, Bool.toNat_false, Nat.add_zero] at howed
      cases ha : i.wishboneIn.ack with
      | true =>
          have hpos := hack ha
          rw [ha, Bool.toNat_true] at howed
          apply closer_store_of_lt hst hw
          rw [hstb', hs, Bool.toNat_false]
          omega
      | false =>
          rw [ha, Bool.toNat_false, Nat.sub_zero] at howed
          by_cases hdrop : mergeable s s.r1.req = false ∧ s.r1.atomicMore = true
          · -- the cycle stops waiting for the second half of a quadword
            apply closer_store_of_lt hst hw
            rw [hstb', hmore', hs, howed, hdrop.1, hdrop.2]
            simp
          · have hmore : (step s i).r1.atomicMore = s.r1.atomicMore := by
              rw [hmore']
              cases hm : mergeable s s.r1.req <;> simp_all
            have hacks : owed = (acksNow s).toNat := by simpa [hs] using (hb.store hst).2
            refine closer_store_of_eq hst hw (by rw [hstb', hs]) howed hmore ?_
            rw [waitsFor_eq_ack hst hs hacks hexit hmerge hf hstall hdrop]
            simp [BusEvent.happens, ha]

theorem closer_store (h : MachInv s) (hb : BusInv s owed) (hack : AckIsOwed i owed)
    (hf : s.r1.full = true) (hst : s.r1.state = .storeWaitAck) (hno : retires s i = false) :
    Closer s owed i := by
  have hmerge : mergeNow s i = false := by simpa [retires, hst] using hno
  cases hexit : storeExit s i with
  | true =>
      left
      have hstate : (step s i).r1.state = .idle := by simp [step_state, hst, hexit]
      unfold fullRank
      rw [hstate, hst]
      exact Prod.Lex.left _ _ (by simp)
  | false =>
      have hw := storeWaits h hb hack hf hst hexit hmerge
      cases hstall : i.wishboneIn.stall with
      | true => exact closer_store_stalled hst hw hack hstall
      | false => exact closer_store_open hb hst hw hack hf hexit hmerge hstall

theorem closer_ncLoad (hst : s.r1.state = .ncLoadWaitAck) (hno : retires s i = false) :
    Closer s owed i := by
  have hstate := step_state s i
  have hstb' := step_stb s i
  have hack : i.wishboneIn.ack = false := by simpa [retires, hst] using hno
  simp only [hst, hack, Bool.false_eq_true, if_false, Bool.not_false, Bool.and_true]
    at hstate hstb'
  unfold Closer fullRank waitsFor
  rw [hstate, hst]
  cases hs : s.r1.wb.stb with
  | false =>
      rw [hs, Bool.and_false] at hstb'
      refine Or.inr ⟨by rw [hstb'], by simp [hstb'], ?_⟩
      simp [BusEvent.happens, hack]
  | true =>
      rw [hs, Bool.and_true] at hstb'
      cases hstall : i.wishboneIn.stall with
      | true =>
          rw [hstall] at hstb'
          refine Or.inr ⟨by rw [hstb'], by simp [hstb'], ?_⟩
          simp [BusEvent.happens, hstall]
      | false =>
          rw [hstall] at hstb'
          refine Or.inl (Prod.Lex.right _ ?_)
          simp [hstb']

/-- The request in `r1` is completed or comes closer to completion. -/
theorem closer_of_full (h : MachInv s) (hb : BusInv s owed) (hack : AckIsOwed i owed)
    (hf : s.r1.full = true) (hno : retires s i = false) : Closer s owed i := by
  cases hst : s.r1.state with
  | idle => exact closer_idle h hf hst hno
  | reloadWaitAck => exact closer_reload h hb hf hst hno
  | storeWaitAck => exact closer_store h hb hack hf hst hno
  | ncLoadWaitAck => exact closer_ncLoad hst hno
  | doStcx =>
      simp only [retires, hst, Bool.or_eq_false_iff, Bool.not_eq_false'] at hno
      have hstate : (step s i).r1.state = .doStcx := by simp [step_state, hst, hno]
      refine Or.inr ⟨?_, ?_, ?_⟩
      · simp [fullRank, hstate, hst]
      · simp [waitsFor, hstate, hst]
      · simp [waitsFor, hst, BusEvent.happens, hno]
  | flushCycle => simp [retires, hst] at hno

/-- An ack that the request in `r1` waits for is owed. -/
theorem owed_of_waitsFor_ack (hb : BusInv s owed) (hw : waitsFor s owed = .ack) : 0 < owed := by
  unfold waitsFor at hw
  cases hst : s.r1.state with
  | reloadWaitAck =>
      obtain ⟨-, hrows⟩ := hb.reload hst
      cases hs : s.r1.wb.stb with
      | true => simp [hst, hs] at hw
      | false =>
          simp only [rowsToSend, rowsToCome, hs] at hrows
          simp at hrows
          omega
  | ncLoadWaitAck =>
      obtain ⟨-, hone⟩ := hb.ncLoad hst
      cases hs : s.r1.wb.stb with
      | true => simp [hst, hs] at hw
      | false =>
          rw [hs, Bool.toNat_false] at hone
          omega
  | storeWaitAck =>
      rcases Nat.eq_zero_or_pos owed with h0 | hpos
      · simp [hst, h0] at hw
      · exact hpos
  | _ => simp [hst] at hw

/-! ## Whole runs -/

/-- An infinite run of the dcache with its observer. -/
abbrev ports (s : State g) (input : Nat → Input) : Nat → PortTrace g :=
  Clocked.trace PortTrace.step (.init s) input

/-- The slave acks what it has taken and nothing else, and neither the slave nor
loadstore1 holds the dcache up forever. -/
structure FairBus (s : State g) (input : Nat → Input) : Prop where
  ackIsOwed : ∀ n, AckIsOwed (input n) (ports s input n).owed
  acked : ∀ n, 0 < (ports s input n).owed → ∃ m, n ≤ m ∧ (input m).wishboneIn.ack = true
  unstalled : ∀ n, ∃ m, n ≤ m ∧ (input m).wishboneIn.stall = false
  released : ∀ n, ∃ m, n ≤ m ∧ (input m).dIn.hold = false

section Runs

variable {input : Nat → Input}

theorem portInv_ports (hs : Quiet s)
    (hsrc : ∀ n, KnownSource (ports s input n).st (input n)) (n : Nat) :
    PortInv (ports s input n) :=
  Clocked.trace_invariant PortInv 0 (fun n _ h => portInv_step (hsrc n) h) (portInv_init hs) n
    (Nat.zero_le n)

theorem sourceInv_ports (hs : Quiet s) (input : Nat → Input) (n : Nat) :
    SourceInv (ports s input n).st := by
  induction n with
  | zero => exact sourceInv_of_quiet hs
  | succ n ih => exact sourceInv_step (input n) ih

theorem busInv_ports (hs : Quiet s) (hfair : FairBus s input) (n : Nat) :
    BusInv (ports s input n).st (ports s input n).owed := by
  induction n with
  | zero => exact busInv_of_quiet hs
  | succ n ih => exact busInv_step (sourceInv_ports hs input n).mach (hfair.ackIsOwed n) ih

/-- A request in `r1` is completed sooner or later. -/
theorem retires_of_full (hs : Quiet s) (hfair : FairBus s input) {n : Nat}
    (hf : (ports s input n).st.r1.full = true) :
    ∃ m, n ≤ m ∧ retires (ports s input m).st (input m) = true := by
  have hbus := busInv_ports hs hfair
  refine Clocked.eventually_of_rank
    (fun n => (ports s input n).st.r1.full = true)
    (fun n => retires (ports s input n).st (input n) = true)
    (fun n => fullRank (ports s input n).st (ports s input n).owed)
    (fun n => waitsFor (ports s input n).st (ports s input n).owed)
    (fun e n => e.happens (input n)) ?_ ?_ n hf
  · intro n hf hno
    rw [Bool.not_eq_true] at hno
    have hf' : (ports s input (n + 1)).st.r1.full = true := by
      show (step (ports s input n).st (input n)).r1.full = true
      simp [step_full, takenFull, hf, hno]
    exact ⟨hf', closer_of_full (sourceInv_ports hs input n).mach (hbus n) (hfair.ackIsOwed n) hf
      hno⟩
  · intro n hf
    cases hw : waitsFor (ports s input n).st (ports s input n).owed with
    | unstall => exact hfair.unstalled n
    | ack => exact hfair.acked n (owed_of_waitsFor_ack (hbus n) hw)

/-- Requests are neither lost nor made up: the list and the count of those that
have left it grow by what is accepted. -/
theorem left_add_waiting_step (t : PortTrace g) (i : Input) :
    (t.step i).left + (t.step i).waiting.length =
      t.left + t.waiting.length + (accepted t.st i).length := by
  have hle : (t.afterPulses i).length ≤ t.waiting.length := by
    unfold PortTrace.afterPulses
    split_ifs <;> simp
  simp only [PortTrace.step, List.length_append]
  omega

theorem left_add_waiting_mono (s : State g) (input : Nat → Input) {n m : Nat} (hnm : n ≤ m) :
    (ports s input n).left + (ports s input n).waiting.length ≤
      (ports s input m).left + (ports s input m).waiting.length := by
  induction m, hnm using Nat.le_induction with
  | base => exact le_rfl
  | succ m _ ih =>
      have hstep := left_add_waiting_step (ports s input m) (input m)
      have hnext : ports s input (m + 1) = (ports s input m).step (input m) := rfl
      rw [hnext]
      omega

theorem left_mono (s : State g) (input : Nat → Input) {n m : Nat} (hnm : n ≤ m) :
    (ports s input n).left ≤ (ports s input m).left := by
  induction m, hnm using Nat.le_induction with
  | base => exact le_rfl
  | succ m _ ih =>
      have hstep : (ports s input m).left ≤ (ports s input (m + 1)).left := Nat.le_add_right _ _
      exact ih.trans hstep

/-- A pulse takes a request off the list. -/
theorem left_lt_of_pulse {n : Nat} (h : PortInv (ports s input n))
    (hp : pulses (ports s input n).st ≠ []) :
    (ports s input n).left < (ports s input (n + 1)).left := by
  have hpos : 0 < (pulses (ports s input n).st).length := List.length_pos_iff.mpr hp
  have hwait : (pulses (ports s input n).st).length ≤ (ports s input n).waiting.length := by
    rw [h.waiting]
    simp only [List.length_append]
    omega
  have hafter : ((ports s input n).afterPulses (input n)).length <
      (ports s input n).waiting.length := by
    unfold PortTrace.afterPulses
    split_ifs
    · simp only [List.length_nil]
      omega
    · rw [List.length_drop]
      omega
  have hnext : (ports s input (n + 1)).left = (ports s input n).left +
      ((ports s input n).waiting.length - ((ports s input n).afterPulses (input n)).length) := rfl
  omega

/-- A request in `r1` is completed. -/
theorem pulse_of_full (hs : Quiet s)
    (hsrc : ∀ n, KnownSource (ports s input n).st (input n)) (hfair : FairBus s input) {n : Nat}
    (hf : (ports s input n).st.r1.full = true) :
    ∃ m, n ≤ m ∧ pulses (ports s input m).st ≠ [] := by
  have hinv := portInv_ports hs hsrc
  obtain ⟨m, hnm, hret⟩ := retires_of_full hs hfair hf
  refine ⟨m + 1, by omega, ?_⟩
  show pulses (step (ports s input m).st (input m)) ≠ []
  rw [pulses_step (hinv m).toSourceInv (hsrc m), hret]
  simp

/-- A request in `r0` that is not held is completed, or moves on to `r1`. -/
theorem pulse_or_full_of_released {t : PortTrace g} (h : PortInv t) (hk : KnownSource t.st i)
    (hr0 : inR0 t.st ≠ []) (hp : pulses t.st = []) (hf : t.st.r1.full = false)
    (hhold : i.dIn.hold = false) :
    pulses (step t.st i) ≠ [] ∨ (step t.st i).r1.full = true := by
  have herr : t.st.fast.lsError = false := by
    by_contra he
    rw [Bool.not_eq_false] at he
    simp [pulses, dOut, he] at hp
  have hfull : t.st.r0Full = true := by
    by_contra hno
    simp [inR0, hno] at hr0
  have hgo : reqGo t.st i = true := by simp [reqGo, r0Valid, herr, hfull, hf, hhold]
  have hmove := pulses_append_inR1 h.toSourceInv hk
  simp only [hf, hgo, Bool.false_eq_true, if_false, if_true] at hmove
  by_contra hno
  rw [not_or, not_not, Bool.not_eq_true] at hno
  rw [hno.1, inR1, hno.2] at hmove
  exact hr0 (by simpa using hmove.symm)

/-- A request in `r0` is completed, or moves on to `r1`. -/
theorem pulse_or_full_of_r0 (hs : Quiet s)
    (hsrc : ∀ n, KnownSource (ports s input n).st (input n)) (hfair : FairBus s input) {n : Nat}
    (hr0 : inR0 (ports s input n).st ≠ []) :
    ∃ m, n ≤ m ∧ (pulses (ports s input m).st ≠ [] ∨ (ports s input m).st.r1.full = true) := by
  have hinv := portInv_ports hs hsrc
  obtain ⟨m, hnm, hmove⟩ := Clocked.eventually_of_rank
    (fun n => inR0 (ports s input n).st ≠ [])
    (fun n => inR0 (ports s input n).st ≠ [] ∧ (pulses (ports s input n).st ≠ [] ∨
      (ports s input n).st.r1.full = true ∨ (input n).dIn.hold = false))
    (fun _ => 0)
    (fun _ => ())
    (fun _ n => (input n).dIn.hold = false)
    (by
      intro n hr0 hno
      rw [not_and, not_or, not_or, not_not, Bool.not_eq_true, Bool.not_eq_false] at hno
      obtain ⟨-, -, hhold⟩ := hno hr0
      refine ⟨?_, Or.inr ⟨rfl, rfl, by simp [hhold]⟩⟩
      show inR0 (step (ports s input n).st (input n)) ≠ []
      rw [inR0_step, hhold]
      simpa using hr0)
    (fun n _ => hfair.released n) n hr0
  obtain ⟨hr0', hp | hf | hhold⟩ := hmove
  · exact ⟨m, hnm, Or.inl hp⟩
  · exact ⟨m, hnm, Or.inr hf⟩
  · by_cases hnow : pulses (ports s input m).st ≠ [] ∨ (ports s input m).st.r1.full = true
    · exact ⟨m, hnm, hnow⟩
    · rw [not_or, not_not, Bool.not_eq_true] at hnow
      exact ⟨m + 1, by omega,
        pulse_or_full_of_released (hinv m) (hsrc m) hr0' hnow.1 hnow.2 hhold⟩

/-- As long as a request waits, requests leave the list. -/
theorem left_lt_of_waiting (hs : Quiet s)
    (hsrc : ∀ n, KnownSource (ports s input n).st (input n)) (hfair : FairBus s input) {n : Nat}
    (hw : (ports s input n).waiting ≠ []) :
    ∃ m, n ≤ m ∧ (ports s input n).left < (ports s input m).left := by
  have hinv := portInv_ports hs hsrc
  have hpulse : ∃ m, n ≤ m ∧ pulses (ports s input m).st ≠ [] := by
    by_cases hp : pulses (ports s input n).st ≠ []
    · exact ⟨n, le_rfl, hp⟩
    · by_cases hf : (ports s input n).st.r1.full = true
      · exact pulse_of_full hs hsrc hfair hf
      · have hr0 : inR0 (ports s input n).st ≠ [] := by
          intro hr0
          have hwait : (ports s input n).waiting = pulses (ports s input n).st ++
              inR1 (ports s input n).st ++ inR0 (ports s input n).st := (hinv n).waiting
          rw [not_not] at hp
          apply hw
          rw [hwait, hp, hr0]
          simp [inR1, hf]
        obtain ⟨m, hnm, hp' | hf'⟩ := pulse_or_full_of_r0 hs hsrc hfair hr0
        · exact ⟨m, hnm, hp'⟩
        · obtain ⟨m', hmm', hp'⟩ := pulse_of_full hs hsrc hfair hf'
          exact ⟨m', hnm.trans hmm', hp'⟩
  obtain ⟨m, hnm, hp⟩ := hpulse
  have hlt := left_lt_of_pulse (hinv m) hp
  have hle := left_mono s input hnm
  exact ⟨m + 1, by omega, by omega⟩

/-- All the requests on the list leave it. -/
theorem all_waiting_leave (hs : Quiet s)
    (hsrc : ∀ n, KnownSource (ports s input n).st (input n)) (hfair : FairBus s input) (n : Nat) :
    ∃ m, n ≤ m ∧
      (ports s input n).left + (ports s input n).waiting.length ≤ (ports s input m).left := by
  have hcount : ∀ k, k ≤ (ports s input n).waiting.length →
      ∃ m, n ≤ m ∧ (ports s input n).left + k ≤ (ports s input m).left := by
    intro k
    induction k with
    | zero => exact fun _ => ⟨n, le_rfl, le_rfl⟩
    | succ k ih =>
        intro hk
        obtain ⟨m, hnm, hle⟩ := ih (by omega)
        by_cases hdone : (ports s input n).left + (k + 1) ≤ (ports s input m).left
        · exact ⟨m, hnm, hdone⟩
        · have htotal := left_add_waiting_mono s input hnm
          have hw : (ports s input m).waiting ≠ [] := by
            intro hw
            rw [hw] at htotal
            simp only [List.length_nil, Nat.add_zero] at htotal
            omega
          obtain ⟨m', hmm', hlt⟩ := left_lt_of_waiting hs hsrc hfair hw
          exact ⟨m', hnm.trans hmm', by omega⟩
  exact hcount _ le_rfl

/-- In every run of the dcache in which no request is completed from `r0` behind
one of the other source, each completion pulse is for the request that has waited
longest and is on its port; and on a fair bus every request that was accepted
leaves the list, by its completion pulse or by being dropped behind an error. -/
theorem one_completion_each (hs : Quiet s) (input : Nat → Input)
    (hsrc : ∀ n, KnownSource (ports s input n).st (input n)) :
    (∀ n, PulseIsDue (ports s input n)) ∧
      (FairBus s input → ∀ n, ∃ m, n ≤ m ∧
        (ports s input n).left + (ports s input n).waiting.length ≤ (ports s input m).left) :=
  ⟨fun n => pulseIsDue_of_portInv (portInv_ports hs hsrc n),
    fun hfair n => all_waiting_leave hs hsrc hfair n⟩

end Runs

/-! ## Runs that come to rest -/

/-- The dcache has nothing to do. -/
structure Drained (s : State g) : Prop where
  state : s.r1.state = .idle
  full : s.r1.full = false
  r0Full : s.r0Full = false
  cyc : s.r1.wb.cyc = false

theorem drained_step (h : Drained s) (hm : i.mIn.valid = false) (hd : i.dIn.valid = false) :
    Drained (step s i) ∧ pulses (step s i) = [] := by
  have hop : reqOp s i = .none := by simp [reqOp, reqGo, r0Valid, h.r0Full]
  have hcur : (curReq s i).HasOp .none := by
    rw [curReq_of_not_full h.full]
    have hr0 := hasOp_r0Request s i
    rw [hop] at hr0
    exact hr0
  obtain ⟨hl, hs, hf, hy⟩ := hcur
  refine ⟨⟨?_, ?_, ?_, ?_⟩, ?_⟩
  · simp [step_state, h.state, idleNext, idleStcx, MemAccessRequest.plainStore,
      MemAccessRequest.zeroLine, hl, hs, hf]
  · simp [step_full, takenFull, h.full, reqSlow, hop]
  · simp only [step, stage0Full]
    split_ifs
    · simp [stage0In, hm, hd]
    · exact h.r0Full
  · simp [step_cyc, h.state, h.cyc, idleStcx, MemAccessRequest.plainStore,
      MemAccessRequest.zeroLine, hl, hs]
  · have herr : (step s i).fast.lsError = false ∧ (step s i).fast.mmuError = false := by
      simp [step, dcacheFastHit, hop]
    simp [pulses, dOut, mOut, step_lsValid, step_mmuDone, retiresLs, retiresMmu, h.state, hop,
      herr, idleStcxFail, MemAccessRequest.plainStore, hl, hs, hy]

/-- One load that misses, from a slave that acks every strobe one cycle after
taking it. -/
def oneLoad (n : Nat) : Input :=
  if n = 0 then .send (loadReq 0) else if 3 ≤ n ∧ n ≤ 10 then .acked 0 else .idle

/-- The observer after the load has completed. -/
theorem oneLoad_rest (n : Nat) (hn : 11 ≤ n) :
    Drained (ports (State.cold .default) oneLoad n).st ∧
      (ports (State.cold .default) oneLoad n).owed = 0 := by
  have hstart : Drained (ports (State.cold .default) oneLoad 11).st ∧
      (ports (State.cold .default) oneLoad 11).owed = 0 := by
    constructor
    · constructor <;> decide +kernel
    · decide +kernel
  refine Clocked.trace_invariant (fun t : PortTrace .default => Drained t.st ∧ t.owed = 0) 11 ?_
    hstart n hn
  rintro m hm ⟨hrest, howed⟩
  have hidle : oneLoad m = .idle := by
    unfold oneLoad
    rw [if_neg (by omega), if_neg (by omega)]
  rw [hidle]
  refine ⟨(drained_step hrest rfl rfl).1, ?_⟩
  simp [PortTrace.step, owedNext, strobeTaken, wishboneOut, hrest.cyc, howed]

theorem fairBus_oneLoad : FairBus (State.cold .default) oneLoad where
  ackIsOwed := by
    intro n
    rcases Nat.lt_or_ge n 11 with hn | hn
    · revert n
      decide +kernel
    · have hidle : oneLoad n = .idle := by
        unfold oneLoad
        rw [if_neg (by omega), if_neg (by omega)]
      simp [AckIsOwed, hidle, Input.idle]
  acked := by
    intro n howed
    rcases Nat.lt_or_ge n 11 with hn | hn
    · exact ⟨10, by omega, rfl⟩
    · rw [(oneLoad_rest n hn).2] at howed
      exact absurd howed (by decide)
  unstalled := by
    intro n
    refine ⟨n, le_rfl, ?_⟩
    unfold oneLoad
    split_ifs <;> rfl
  released := by
    intro n
    refine ⟨n, le_rfl, ?_⟩
    unfold oneLoad
    split_ifs <;> rfl

theorem one_completion_each_oneLoad :
    FairBus (State.cold .default) oneLoad ∧
      (∀ n, PulseIsDue (ports (State.cold .default) oneLoad n)) ∧
      ∀ n, ∃ m, n ≤ m ∧
        (ports (State.cold .default) oneLoad n).left +
          (ports (State.cold .default) oneLoad n).waiting.length ≤
            (ports (State.cold .default) oneLoad m).left := by
  have hsrc : ∀ n, KnownSource (ports (State.cold .default) oneLoad n).st (oneLoad n) := by
    intro n
    rcases Nat.lt_or_ge n 11 with hn | hn
    · revert n
      decide +kernel
    · intro hst
      rw [(oneLoad_rest n hn).1.state] at hst
      exact absurd hst (by decide)
  obtain ⟨hdue, hleave⟩ := one_completion_each (afterReset_cold _).toQuiet oneLoad hsrc
  exact ⟨fairBus_oneLoad, hdue, hleave fairBus_oneLoad⟩

/-- A virtual-mode load that misses the DTLB, and another load behind it. -/
def faultThenLoad (n : Nat) : Input :=
  if n = 0 then .send { loadReq 0 with virtMode := true }
  else if n = 1 then .send (loadReq 0x1000)
  else .idle

/-- Both loads are accepted, but there is a single pulse, for the first. -/
theorem second_load_dropped :
    let st := Clocked.trace step (State.cold .default) faultThenLoad
    accepted (st 0) (faultThenLoad 0) = [.ls] ∧ accepted (st 1) (faultThenLoad 1) = [.ls] ∧
      ∀ n, pulses (st n) = if n = 2 then [.ls] else [] := by
  refine ⟨by decide +kernel, by decide +kernel, fun n => ?_⟩
  rcases Nat.lt_or_ge n 4 with hn | hn
  · revert n
    decide +kernel
  · have hrest : Drained (Clocked.trace step (State.cold .default) faultThenLoad n) ∧
        pulses (Clocked.trace step (State.cold .default) faultThenLoad n) = [] := by
      refine Clocked.trace_invariant (fun s => Drained s ∧ pulses s = []) 4 ?_ ?_ n hn
      · rintro m hm ⟨hrest, -⟩
        have hidle : faultThenLoad m = .idle := by
          unfold faultThenLoad
          rw [if_neg (by omega), if_neg (by omega)]
        rw [hidle]
        exact drained_step hrest rfl rfl
      · constructor
        · constructor <;> decide +kernel
        · decide +kernel
    rw [hrest.2, if_neg (by omega)]

end Microwatt.Dcache
