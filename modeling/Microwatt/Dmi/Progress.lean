import Microwatt.Dmi.Access

/-!
# Every request through the JTAG port is served

The ring goes on as long as both clocks tick, the JTAG port is selected now and then, and the slave
that is asked answers.  The rank counts the signals of the ring that are still to change.
-/

namespace Microwatt.Dmi

open Clocked

/-! ## The rank -/

/-- What a request waits for. -/
inductive Event where
  | sys | tck | sel | grant | answer | gspr (c : Nat)
deriving DecidableEq

/-- It happens at this moment. -/
def Event.happens (ev : Event) (e : Edge) : Prop :=
  match ev with
  | .sys => e.sys.isSome = true
  | .tck => e.tck.isSome = true
  | .sel => ∃ j, e.tck = some j ∧ j.sel = true
  | .grant => ∃ i, e.sys = some i ∧ i.wbIn.stall = false
  | .answer => ∃ i, e.sys = some i ∧ i.wbIn.ack = true
  | .gspr c => ∃ i, e.sys = some i ∧ i.gsprDone c = true

section

variable (ncpus : Nat) (s : State)

/-- What the slave needs for its ack. -/
def slaveLeft : Nat :=
  match slaveOf ncpus (dmiAddr s) with
  | .core c => if s.gsprReq c then 1 else 2
  | _ =>
    match s.master.state with
    | .wbCycle => if s.master.stb then 2 else 1
    | _ => 3

def slaveWaits : Event :=
  match slaveOf ncpus (dmiAddr s) with
  | .core c => if s.gsprReq c then .gspr c else .sys
  | _ =>
    match s.master.state with
    | .wbCycle => if s.master.stb then .grant else .answer
    | _ => .sys

/-- An ack that outlasts its request. -/
def ackLeft : Nat :=
  match slaveOf ncpus (dmiAddr s) with
  | .core c => if s.gsprReq c then 4 else 3
  | _ => 3

def rank : Nat :=
  if s.dtm.jtagReq then
    if !s.dtm.jtagReq0 then 14
    else if !dmiReq s then 13
    else if !dmiAck ncpus s then 9 + slaveLeft ncpus s
    else if !s.dtm.dmiAck0 then 9
    else if !s.dtm.dmiAck1 then 8
    else 7
  else
    if s.dtm.jtagReq0 then 6
    else if dmiReq s then 5
    else if dmiAck ncpus s then ackLeft ncpus s
    else if s.dtm.dmiAck0 then 2
    else if s.dtm.dmiAck1 then 1
    else 0

def waitsFor : Event :=
  if s.dtm.jtagReq then
    if !dmiReq s then .sys
    else if !dmiAck ncpus s then slaveWaits ncpus s
    else if !s.dtm.dmiAck1 then .tck
    else .sel
  else
    if s.dtm.jtagReq0 || dmiReq s || dmiAck ncpus s then .sys else .tck

/-- A moment lowers the rank, or the request waits for the same event, which does not happen. -/
def Closer (e : Edge) : Prop :=
  rank ncpus (step ncpus s e) < rank ncpus s ∨
    (rank ncpus (step ncpus s e) = rank ncpus s ∧
      waitsFor ncpus (step ncpus s e) = waitsFor ncpus s ∧ ¬(waitsFor ncpus s).happens e)

end

section

variable {ncpus : Nat} {s : State} {e : Edge}

theorem slaveLeft_le (ncpus : Nat) (s : State) : slaveLeft ncpus s ≤ 3 := by
  unfold slaveLeft
  split
  · split_ifs <;> omega
  · split
    · split_ifs <;> omega
    · omega

theorem ackLeft_le (ncpus : Nat) (s : State) : 3 ≤ ackLeft ncpus s ∧ ackLeft ncpus s ≤ 4 := by
  unfold ackLeft
  split
  · split_ifs <;> omega
  · omega

/-- A request is on its way to the slave. -/
theorem closer_rising (h : Ring ncpus s) (hj : s.dtm.jtagReq = true) (hr1 : dmiReq s = false) :
    Closer ncpus s e := by
  obtain ⟨h1, h2, h3, h4⟩ := h.up hj
  have ha1 : s.dtm.dmiAck1 = false := by
    by_contra hc
    rw [(h.high hj (by simpa using hc)).2.1] at hr1
    cases hr1
  have hack : dmiAck ncpus s = false := by
    by_contra hc
    rw [h2 (by simpa using hc)] at hr1
    cases hr1
  have hno : completesAt s e = false := by
    by_contra hc
    rw [(of_completesAt (by simpa using hc)).2.2] at ha1
    cases ha1
  have hacc : acceptsAt s e = false := by
    by_contra hc
    rw [(of_acceptsAt (by simpa using hc)).2.1] at hj
    cases hj
  have hj' : (step ncpus s e).dtm.jtagReq = true := by
    rw [step_jtagReq, hno, hacc]
    exact hj
  have h0' : (step ncpus s e).dtm.jtagReq0 = if e.sys.isSome then true else s.dtm.jtagReq0 := by
    rw [step_jtagReq0, hj]
  have hr1' : dmiReq (step ncpus s e) = if e.sys.isSome then s.dtm.jtagReq0 else false := by
    rw [dmiReq_step, hr1]
  have hleft := slaveLeft_le ncpus (step ncpus s e)
  have hwait : waitsFor ncpus s = .sys := by simp [waitsFor, hj, hr1]
  unfold Closer
  rw [hwait]
  cases hsys : e.sys.isSome with
  | false =>
      rw [hsys] at h0' hr1'
      refine Or.inr ⟨?_, ?_, by simp [Event.happens, hsys]⟩
      · simp [rank, hj, hj', h0', hr1', hr1]
      · simp [waitsFor, hj', hr1']
  | true =>
      rw [hsys] at h0' hr1'
      left
      cases h0 : s.dtm.jtagReq0 with
      | false => simp [rank, hj, hj', h0', hr1', h0]
      | true =>
          have hrank : rank ncpus s = 13 := by simp [rank, hj, h0, hr1]
          rw [hrank]
          simp only [rank, hj', h0', hr1', h0, if_true, Bool.not_true, Bool.false_eq_true, if_false]
          split_ifs <;> omega

/-- The slave is asked and has not acked yet. -/
theorem slave_closer (h : Ring ncpus s) (hr1 : dmiReq s = true)
    (hack : dmiAck ncpus s = false) (hack' : dmiAck ncpus (step ncpus s e) = false)
    (hr1' : dmiReq (step ncpus s e) = true) :
    slaveLeft ncpus (step ncpus s e) < slaveLeft ncpus s ∨
      (slaveLeft ncpus (step ncpus s e) = slaveLeft ncpus s ∧
        slaveWaits ncpus (step ncpus s e) = slaveWaits ncpus s ∧
        ¬(slaveWaits ncpus s).happens e) := by
  have haddr : dmiAddr (step ncpus s e) = dmiAddr s :=
    (lines_step ncpus (h.not_accepts (Or.inl hr1))).1
  have hnot : ∀ c, GsprOf ncpus s c ∨ slaveOf ncpus (dmiAddr s) ≠ .core c := by
    intro c
    by_contra hc
    simp only [not_or, not_not] at hc
    have : dmiAck ncpus s = true := by
      refine dmiAck_iff.mpr (Or.inl ⟨hr1, ?_, fun hd => ?_⟩)
      · rintro ⟨c', hg⟩
        have hcc : c' = c := by simpa using hg.1.symm.trans hc.2
        exact hc.1 (hcc ▸ hg)
      · exact absurd (hd.1.symm.trans hc.2) (by simp)
    rw [hack] at this
    cases this
  unfold slaveLeft slaveWaits
  rw [haddr]
  cases hsl : slaveOf ncpus (dmiAddr s) with
  | core c =>
      dsimp only
      have hg : GsprOf ncpus s c := (hnot c).resolve_right (by simp [hsl])
      have hk : s.gsprAck c = false := by
        by_contra hc
        rw [dmiAck_iff.mpr (Or.inr ⟨c, hg, by simpa using hc⟩)] at hack
        cases hack
      have hk' : (step ncpus s e).gsprAck c = false := by
        by_contra hc
        have hg' : GsprOf ncpus (step ncpus s e) c := by
          unfold GsprOf
          rw [haddr]
          exact hg
        rw [dmiAck_iff.mpr (Or.inr ⟨c, hg', by simpa using hc⟩)] at hack'
        cases hack'
      rcases e with ⟨t, _ | i, d⟩
      · right
        refine ⟨rfl, rfl, ?_⟩
        split_ifs <;> simp [Event.happens]
      · have hq' : (step ncpus s ⟨t, some i, d⟩).gsprReq c = true := by
          simp [step, coreGsprReq, hr1, hg.1, hg.2]
        cases hq : s.gsprReq c with
        | false =>
            left
            simp [hq']
        | true =>
            right
            refine ⟨by simp [hq'], by simp [hq'], ?_⟩
            rintro ⟨i', hi, hdone⟩
            obtain rfl : i = i' := by simpa using hi
            simp [step, gsprAckEdge, hq, hdone] at hk'
  | none =>
      exfalso
      have : dmiAck ncpus s = true := by
        refine dmiAck_iff.mpr (Or.inl ⟨hr1, ?_, fun hd => ?_⟩)
        · rintro ⟨c', hg⟩
          exact absurd (hsl.symm.trans hg.1) (by simp)
        · exact absurd (hsl.symm.trans hd.1) (by simp)
      rw [hack] at this
      cases this
  | wb =>
      have hnc : ∀ u : State, dmiAddr u = dmiAddr s → ¬∃ c, GsprOf ncpus u c := by
        rintro u hu ⟨c, hg⟩
        rw [GsprOf, hu, hsl] at hg
        exact absurd hg.1 (by simp)
      have hwait : ∀ u : State, dmiAddr u = dmiAddr s → dmiReq u = true → dmiAck ncpus u = false →
          DataOf ncpus u ∧ u.master.state ≠ .dmiWait := by
        intro u hu hr hno
        by_contra hc
        rw [dmiAck_iff.mpr (Or.inl ⟨hr, hnc u hu, fun hd => ?_⟩)] at hno
        · cases hno
        · by_contra hw
          exact hc ⟨hd, hw⟩
      obtain ⟨hd, hw⟩ := hwait s rfl hr1 hack
      obtain ⟨-, hw'⟩ := hwait _ haddr hr1' hack'
      simp only
      rcases e with ⟨t, _ | i, d⟩
      · right
        refine ⟨rfl, rfl, ?_⟩
        cases s.master.state with
        | idle => simp [Event.happens]
        | wbCycle => cases s.master.stb <;> simp [Event.happens]
        | dmiWait => simp [Event.happens]
      · rcases master_cases ncpus s t i d with ⟨hst, -, -, hst', hstb', -⟩ | ⟨-, hno, -⟩ |
          ⟨-, -, hst', -⟩ | ⟨hst, hno, hst', hstb', -⟩ | ⟨hst, -⟩
        · left
          simp [hst, hst', hstb']
        · exact absurd ⟨hr1, hd⟩ hno
        · exact absurd hst' hw'
        · rw [hst, hst', hstb']
          cases hb : s.master.stb with
          | false =>
              right
              simp [Event.happens, hno]
          | true =>
              cases hstall : i.wbIn.stall with
              | true =>
                  right
                  simp [Event.happens, hstall]
              | false =>
                  left
                  simp
        · exact absurd hst hw

/-- A request is with the slave, or its ack comes back. -/
theorem closer_asked (h : Ring ncpus s) (hs : Slaves ncpus s) (hj : s.dtm.jtagReq = true)
    (hr1 : dmiReq s = true) (ha1 : s.dtm.dmiAck1 = false) : Closer ncpus s e := by
  have h0 := (h.up hj).1 hr1
  have hno : completesAt s e = false := by
    by_contra hc
    rw [(of_completesAt (by simpa using hc)).2.2] at ha1
    cases ha1
  have hj' : (step ncpus s e).dtm.jtagReq = true := by
    rw [step_jtagReq, hno, h.not_accepts (Or.inl hr1)]
    exact hj
  have h0' : (step ncpus s e).dtm.jtagReq0 = true := by
    rw [step_jtagReq0, hj, h0]
    split_ifs <;> rfl
  have hr1' : dmiReq (step ncpus s e) = true := by
    rw [dmiReq_step, hr1, h0]
    split_ifs <;> rfl
  have hk0 : (step ncpus s e).dtm.dmiAck0 =
      if e.tck.isSome then dmiAck ncpus s else s.dtm.dmiAck0 := step_dmiAck0
  have hk1 : (step ncpus s e).dtm.dmiAck1 = if e.tck.isSome then s.dtm.dmiAck0 else false := by
    rw [step_dmiAck1, ha1]
  unfold Closer
  cases hack : dmiAck ncpus s with
  | false =>
      have hrank : rank ncpus s = 9 + slaveLeft ncpus s := by simp [rank, hj, h0, hr1, hack]
      have hpos : 0 < slaveLeft ncpus s := by
        unfold slaveLeft
        split
        · split_ifs <;> omega
        · split
          · split_ifs <;> omega
          · omega
      cases hack' : dmiAck ncpus (step ncpus s e) with
      | true =>
          left
          rw [hrank]
          simp only [rank, hj', h0', hr1', hack', if_true, Bool.not_true,
            Bool.false_eq_true, if_false]
          split_ifs <;> omega
      | false =>
          have hrank' : rank ncpus (step ncpus s e) = 9 + slaveLeft ncpus (step ncpus s e) := by
            simp [rank, hj', h0', hr1', hack']
          have hfor : waitsFor ncpus s = slaveWaits ncpus s := by simp [waitsFor, hj, hr1, hack]
          have hfor' : waitsFor ncpus (step ncpus s e) = slaveWaits ncpus (step ncpus s e) := by
            simp [waitsFor, hj', hr1', hack']
          rw [hrank, hrank', hfor, hfor']
          rcases slave_closer h hr1 hack hack' hr1' with hlt | ⟨heq, hsame⟩
          · left
            omega
          · exact Or.inr ⟨by omega, hsame⟩
  | true =>
      -- the ack goes back through the flip-flops
      have hack' := ack_stays h hs hack hr1'
      have hfor : waitsFor ncpus s = .tck := by simp [waitsFor, hj, hr1, hack, ha1]
      rw [hfor]
      cases ht : e.tck.isSome with
      | false =>
          rw [ht] at hk0 hk1
          refine Or.inr ⟨?_, ?_, by simp [Event.happens, ht]⟩
          · simp [rank, hj, hj', h0, h0', hr1, hr1', hack, hack', hk0, hk1, ha1]
          · simp [waitsFor, hj', hr1', hack', hk1]
      | true =>
          rw [ht] at hk0 hk1
          left
          cases hb : s.dtm.dmiAck0 <;>
            simp [rank, hj, hj', h0, h0', hr1, hr1', hack, hack', hk0, hk1, ha1, hb]

/-- The ack is back. -/
theorem closer_acked (h : Ring ncpus s) (hs : Slaves ncpus s) (hj : s.dtm.jtagReq = true)
    (ha1 : s.dtm.dmiAck1 = true) : Closer ncpus s e := by
  obtain ⟨h0, hr1, hack, ha0⟩ := h.high hj ha1
  have h0' : (step ncpus s e).dtm.jtagReq0 = true := by
    rw [step_jtagReq0, hj, h0]
    split_ifs <;> rfl
  have hr1' : dmiReq (step ncpus s e) = true := by
    rw [dmiReq_step, hr1, h0]
    split_ifs <;> rfl
  have hack' := ack_stays h hs hack hr1'
  have hk0 : (step ncpus s e).dtm.dmiAck0 = true := by
    rw [step_dmiAck0, hack, ha0]
    split_ifs <;> rfl
  have hk1 : (step ncpus s e).dtm.dmiAck1 = true := by
    rw [step_dmiAck1, ha1, ha0]
    split_ifs <;> rfl
  have hfor : waitsFor ncpus s = .sel := by simp [waitsFor, hj, hr1, hack, ha1]
  have hrank : rank ncpus s = 7 := by simp [rank, hj, h0, hr1, hack, ha0, ha1]
  unfold Closer
  rw [hfor, hrank]
  cases hc : completesAt s e with
  | true =>
      left
      have hj' : (step ncpus s e).dtm.jtagReq = false := by
        rw [step_jtagReq, hc]
        rfl
      simp [rank, hj', h0']
  | false =>
      right
      have hj' : (step ncpus s e).dtm.jtagReq = true := by
        rw [step_jtagReq, hc, h.not_accepts (Or.inl hr1)]
        exact hj
      refine ⟨by simp [rank, hj', h0', hr1', hack', hk0, hk1],
        by simp [waitsFor, hj', hr1', hack', hk1], ?_⟩
      rintro ⟨j, ht, hsel⟩
      simp [completesAt, ht, completes, hsel, hj, ha1] at hc

/-- The request has been completed. -/
theorem closer_falling (h : Ring ncpus s) (hs : Slaves ncpus s) (hj : s.dtm.jtagReq = false)
    (ha1 : s.dtm.dmiAck1 = true) : Closer ncpus s e := by
  obtain ⟨h1, h2, h3, h4⟩ := h.down hj
  have hno : completesAt s e = false := by
    by_contra hc
    rw [(of_completesAt (by simpa using hc)).2.1] at hj
    cases hj
  have hacc : acceptsAt s e = false := by
    by_contra hc
    rw [(of_acceptsAt (by simpa using hc)).2.2.1] at ha1
    cases ha1
  have hj' : (step ncpus s e).dtm.jtagReq = false := by
    rw [step_jtagReq, hno, hacc]
    exact hj
  have h0' : (step ncpus s e).dtm.jtagReq0 = if e.sys.isSome then false else s.dtm.jtagReq0 := by
    rw [step_jtagReq0, hj]
  have hr1' : dmiReq (step ncpus s e) = if e.sys.isSome then s.dtm.jtagReq0 else dmiReq s :=
    dmiReq_step
  have hk0 : (step ncpus s e).dtm.dmiAck0 =
      if e.tck.isSome then dmiAck ncpus s else s.dtm.dmiAck0 := step_dmiAck0
  have hk1 : (step ncpus s e).dtm.dmiAck1 = if e.tck.isSome then s.dtm.dmiAck0 else true := by
    rw [step_dmiAck1, ha1]
  have haddr : dmiAddr (step ncpus s e) = dmiAddr s := (lines_step ncpus hacc).1
  obtain ⟨hle, hle4⟩ := ackLeft_le ncpus s
  obtain ⟨-, hle4'⟩ := ackLeft_le ncpus (step ncpus s e)
  unfold Closer
  by_cases hup : s.dtm.jtagReq0 = true ∨ dmiReq s = true ∨ dmiAck ncpus s = true
  · -- the system clock takes the request and the ack down
    have hfor : waitsFor ncpus s = .sys := by
      rcases hup with h | h | h <;> simp [waitsFor, hj, h]
    rw [hfor]
    cases hsys : e.sys.isSome with
    | false =>
        rw [hsys] at h0' hr1'
        have hack' : dmiAck ncpus (step ncpus s e) = dmiAck ncpus s := by
          rcases e with ⟨t, _ | i, d⟩
          · unfold dmiAck dmiWbAck dmiWbReq
            rw [haddr, hr1']
            rfl
          · cases hsys
        have hleft : ackLeft ncpus (step ncpus s e) = ackLeft ncpus s := by
          rcases e with ⟨t, _ | i, d⟩
          · unfold ackLeft
            rw [haddr]
            rfl
          · cases hsys
        refine Or.inr ⟨?_, ?_, by simp [Event.happens, hsys]⟩
        · rcases hup with h | h | h
          · simp [rank, hj, hj', h0', h]
          · simp [rank, hj, hj', h0', hr1', h]
          · simp [rank, hj, hj', h0', hr1', hack', hleft, h]
        · rcases hup with h | h | h <;> simp [waitsFor, hj', h0', hr1', hack', h]
    | true =>
        rw [hsys] at h0' hr1'
        left
        cases h0 : s.dtm.jtagReq0 with
        | true => simp [rank, hj, hj', h0', hr1', h0]
        | false =>
            rw [h0] at hr1'
            cases hr1 : dmiReq s with
            | true =>
                have hrank : rank ncpus s = 5 := by simp [rank, hj, h0, hr1]
                rw [hrank]
                simp only [rank, hj', h0', hr1', Bool.false_eq_true, if_false, if_true]
                split_ifs <;> omega
            | false =>
                have hack : dmiAck ncpus s = true := by simpa [h0, hr1] using hup
                have hrank : rank ncpus s = ackLeft ncpus s := by simp [rank, hj, h0, hr1, hack]
                rw [hrank]
                obtain ⟨c, hg, hk⟩ : ∃ c, GsprOf ncpus s c ∧ s.gsprAck c = true := by
                  rcases dmiAck_iff.mp hack with ⟨hr, -⟩ | hex
                  · rw [hr1] at hr
                    cases hr
                  · exact hex
                -- the request register of the core goes first, then its ack
                have hq' : (step ncpus s e).gsprReq c = false := by
                  rcases e with ⟨t, _ | i, d⟩
                  · cases hsys
                  · simp [step, coreGsprReq, hr1]
                cases hack' : dmiAck ncpus (step ncpus s e) with
                | false =>
                    simp only [rank, hj', h0', hr1', hack', Bool.false_eq_true, if_false, if_true]
                    split_ifs <;> omega
                | true =>
                    have hk' : (step ncpus s e).gsprAck c = true := by
                      rcases dmiAck_iff.mp hack' with ⟨hr, -⟩ | ⟨c', hg', hk'⟩
                      · rw [hr1'] at hr
                        cases hr
                      · rw [GsprOf, haddr] at hg'
                        have hcc : c' = c := by simpa using hg'.1.symm.trans hg.1
                        exact hcc ▸ hk'
                    have hq : s.gsprReq c = true := by
                      rcases gspr_step c hk' with ⟨hn, -⟩ | ⟨-, hq⟩
                      · rw [hsys] at hn
                        cases hn
                      · exact hq
                    simp [rank, hj', h0', hr1', hack', ackLeft, haddr, hg.1, hq, hq']
  · -- the JTAG clock takes the rest down
    simp only [not_or, Bool.not_eq_true] at hup
    obtain ⟨h0, hr1, hack⟩ := hup
    have h0'' : (step ncpus s e).dtm.jtagReq0 = false := by
      rw [h0', h0]
      split_ifs <;> rfl
    have hr1'' : dmiReq (step ncpus s e) = false := by
      rw [hr1', h0, hr1]
      split_ifs <;> rfl
    have hack' : dmiAck ncpus (step ncpus s e) = false := by
      by_contra hc
      rw [ack_goes h hs hj (by simpa using hc)] at hack
      cases hack
    have hfor : waitsFor ncpus s = .tck := by simp [waitsFor, hj, h0, hr1, hack]
    rw [hfor]
    cases ht : e.tck.isSome with
    | false =>
        rw [ht] at hk0 hk1
        refine Or.inr ⟨?_, ?_, by simp [Event.happens, ht]⟩
        · simp [rank, hj, hj', h0, h0'', hr1, hr1'', hack, hack', hk0, hk1, ha1]
        · simp [waitsFor, hj', h0'', hr1'', hack']
    | true =>
        rw [ht] at hk0 hk1
        left
        cases hb : s.dtm.dmiAck0 <;>
          simp [rank, hj, hj', h0, h0'', hr1, hr1'', hack, hack', hk0, hk1, ha1, hb]

theorem closer_of_busy (h : Ring ncpus s) (hs : Slaves ncpus s) (hb : jtagBsy s = true) :
    Closer ncpus s e := by
  cases hj : s.dtm.jtagReq with
  | true =>
      cases ha1 : s.dtm.dmiAck1 with
      | true => exact closer_acked h hs hj ha1
      | false =>
          cases hr1 : dmiReq s with
          | true => exact closer_asked h hs hj hr1 ha1
          | false => exact closer_rising h hj hr1
  | false =>
      have ha1 : s.dtm.dmiAck1 = true := by simpa [jtagBsy, hj] using hb
      exact closer_falling h hs hj ha1

end

/-! ## Runs -/

section

variable {ncpus : Nat} {s : State} {input : Nat → Edge}

/-- The system before moment `n`. -/
def sysAt (ncpus : Nat) (s : State) (input : Nat → Edge) (n : Nat) : Sys :=
  trace (Sys.step ncpus) (Sys.start s) input n

/-- The event is asked for. -/
def Event.asked (ev : Event) (x : Sys) : Prop :=
  match ev with
  | .grant => (wbOut x.st).stb = true
  | .answer => x.acks.length < x.accesses.length
  | .gspr c => x.st.gsprReq c = true
  | _ => True

/-- Both clocks tick for ever, the JTAG port is selected again and again, and slaves that are asked
answer sooner or later. -/
def Fair (ncpus : Nat) (s : State) (input : Nat → Edge) : Prop :=
  ∀ (ev : Event) n, ∃ m, n ≤ m ∧ (ev.asked (sysAt ncpus s input m) → ev.happens (input m))

/-- What a request waits for has been asked for. -/
theorem Books.asked {x : Sys} (h : Books ncpus x) : (waitsFor ncpus x.st).asked x := by
  have hslave : (slaveWaits ncpus x.st).asked x := by
    unfold slaveWaits
    split
    · split_ifs with hq
      · exact hq
      · trivial
    · cases hst : x.st.master.state with
      | idle => trivial
      | dmiWait => trivial
      | wbCycle =>
          cases hb : x.st.master.stb with
          | true => exact hb
          | false =>
              have hlen := h.acks
              rw [if_pos ⟨hst, hb⟩] at hlen
              show x.acks.length < x.accesses.length
              omega
  unfold waitsFor
  split_ifs
  · trivial
  · exact hslave
  · trivial
  · trivial
  · trivial
  · trivial

theorem sound_sysAt (h : s.Reset) (hw : ∀ n, WbSlave (sysAt ncpus s input n) (input n)) (n : Nat) :
    Sound ncpus (sysAt ncpus s input n) :=
  trace_invariant (Sound ncpus) 0 (fun m _ hs => hs.step (hw m)) (sound_start h) n (Nat.zero_le n)

/-- The port does not stay busy. -/
theorem not_busy_again (h : s.Reset) (hw : ∀ n, WbSlave (sysAt ncpus s input n) (input n))
    (hf : Fair ncpus s input) (n : Nat) :
    ∃ m, n ≤ m ∧ jtagBsy (sysAt ncpus s input m).st = false := by
  refine eventually_of_rank (fun _ => True)
    (fun n => jtagBsy (sysAt ncpus s input n).st = false)
    (fun n => rank ncpus (sysAt ncpus s input n).st)
    (fun n => waitsFor ncpus (sysAt ncpus s input n).st)
    (fun ev m => ev.asked (sysAt ncpus s input m) → ev.happens (input m))
    ?_ (fun n _ => hf _ n) n trivial
  intro n _ hbusy
  have hsound := sound_sysAt h hw n
  refine ⟨trivial, ?_⟩
  rcases closer_of_busy (e := input n) hsound.ring hsound.slaves (by simpa using hbusy) with
    hlt | ⟨heq, hsame, hno⟩
  · exact Or.inl hlt
  · exact Or.inr ⟨heq, hsame, fun hh => hno (hh hsound.books.asked)⟩

theorem accepted_mono (ncpus : Nat) (s : State) (input : Nat → Edge) {n m : Nat} (hnm : n ≤ m) :
    (sysAt ncpus s input n).accepted <:+ (sysAt ncpus s input m).accepted := by
  induction m, hnm using Nat.le_induction with
  | base => exact List.suffix_refl _
  | succ m _ ih =>
      refine ih.trans ?_
      show (sysAt ncpus s input m).accepted <:+
        ((sysAt ncpus s input m).step ncpus (input m)).accepted
      simp only [Sys.step]
      split_ifs
      · exact List.suffix_cons _ _
      · exact List.suffix_refl _

/-- The accesses made so far are the first of those that are asked for. -/
theorem Sound.accesses {x : Sys} (h : Sound ncpus x) :
    x.accesses <:+ accessesOf ncpus x.handshakes := by
  have htail : ∀ q l, accessesOf ncpus l <:+ accessesOf ncpus (q :: l) := by
    intro q l
    rw [accessesOf_cons]
    split_ifs
    · exact List.suffix_cons _ _
    · exact List.suffix_refl _
  cases hst : x.st.master.state with
  | idle =>
      by_cases hr1 : dmiReq x.st = true
      · obtain ⟨q, l, hq, -⟩ := h.latched.shown_head hr1
        rw [hq]
        by_cases hd : DataOf ncpus x.st
        · rw [(h.books.fresh hst hr1 hd q l hq).2]
          exact htail q l
        · rw [(h.books.plain hst hr1 hd q l hq).2]
      · rw [(h.books.idle hst (by simpa using hr1)).2]
  | wbCycle =>
      obtain ⟨q, l, hq, -⟩ := h.latched.shown_head (h.slaves.cycle hst).1
      rw [hq, (h.books.cycle hst q l hq).2]
      split_ifs
      · exact htail q l
      · exact List.suffix_refl _
  | dmiWait => rw [(h.books.wait hst).2]

/-- When the bus is quiet, all accesses have been made and the address has moved on. -/
theorem Sound.settled {x : Sys} (h : Sound ncpus x) (hr1 : dmiReq x.st = false) :
    x.accesses = accessesOf ncpus x.handshakes ∧ regs x.st = refOf ncpus x.handshakes := by
  cases hst : x.st.master.state with
  | idle =>
      obtain ⟨h1, h2⟩ := h.books.idle hst hr1
      exact ⟨h2, h1⟩
  | wbCycle =>
      rw [(h.slaves.cycle hst).1] at hr1
      cases hr1
  | dmiWait =>
      obtain ⟨h1, h2⟩ := h.books.wait hst
      have hinc : x.st.master.doInc = false := by
        by_contra hc
        rw [(h.slaves.inc (by simpa using hc)).2.1] at hr1
        cases hr1
      rw [regsDue_of_not_inc hinc] at h1
      exact ⟨h2, h1⟩

/-- A capture with status OK brings the data of the read before it. -/
theorem Sound.capture {x : Sys} (h : Sound ncpus x) {j : Jtag} {c : Nat → Dword} {q : Req}
    {l : List Req} (hq : x.accepted = q :: l) (hwr : q.wr = false) (hsel : j.sel = true)
    (hcap : j.capture = true) (hok : opOf (tckEdge ncpus x.st j c).shiftr = dmiRspOk) :
    addrOf (tckEdge ncpus x.st j c).shiftr = q.addr ∧
    dataOf (tckEdge ncpus x.st j c).shiftr = x.sampled ∧
    (slaveOf ncpus q.addr = .wb → x.sampled = readOf (refOf ncpus l) x.acks q) := by
  have hshift : (tckEdge ncpus x.st j c).shiftr = pack (dmiAddr x.st) (dmiDout x.st)
      (if jtagBsy x.st then dmiRspBsy else dmiRspOk) := by
    simp [tckEdge, hsel, hcap, dmiAddr, dmiDout]
  rw [hshift] at hok ⊢
  have hj : x.st.dtm.jtagReq = false := by
    by_contra hc
    simp [jtagBsy, hc, dmiRspBsy, dmiRspOk] at hok
  rw [addrOf_pack, dataOf_pack]
  exact ⟨(h.latched.shown q l hq).addr.symm, h.latched.sample hj q l hq hwr,
    h.result hj q l hq hwr⟩

/-- Each update with an opcode that finds the port not busy gives one handshake on the debug bus, in
order, and with its address, direction and write data; each request to DATA makes one wishbone
access at the address current then and moves it on once; a capture with status OK after a read
brings its data. -/
theorem debug_access_once (h : s.Reset) (input : Nat → Edge)
    (hw : ∀ n, WbSlave (sysAt ncpus s input n) (input n)) :
    (∀ n, let x := sysAt ncpus s input n
      (x.accepted = x.handshakes ∨ ∃ q, x.accepted = q :: x.handshakes) ∧
      (jtagBsy x.st = false → x.accepted = x.handshakes) ∧
      (dmiReq x.st = true → ∃ q l, x.handshakes = q :: l ∧ dmiAddr x.st = q.addr ∧
        dmiWr x.st = q.wr ∧ (q.wr = true ∨ x.st.dtm.jtagReq = true → dmiDout x.st = q.data)) ∧
      x.accesses <:+ accessesOf ncpus x.handshakes ∧
      (dmiReq x.st = false → x.accesses = accessesOf ncpus x.handshakes ∧
        regs x.st = refOf ncpus x.handshakes) ∧
      (∀ j c q l, x.accepted = q :: l → q.wr = false → j.sel = true → j.capture = true →
        opOf (tckEdge ncpus x.st j c).shiftr = dmiRspOk →
        addrOf (tckEdge ncpus x.st j c).shiftr = q.addr ∧
        dataOf (tckEdge ncpus x.st j c).shiftr = x.sampled ∧
        (slaveOf ncpus q.addr = .wb → x.sampled = readOf (refOf ncpus l) x.acks q))) ∧
    (Fair ncpus s input → ∀ n, ∃ m, n ≤ m ∧ jtagBsy (sysAt ncpus s input m).st = false ∧
      (sysAt ncpus s input n).accepted <:+ (sysAt ncpus s input m).handshakes) := by
  refine ⟨?_, ?_⟩
  · intro n x
    have hx : Sound ncpus x := sound_sysAt h hw n
    refine ⟨?_, ?_, ?_, hx.accesses, hx.settled, fun j c q l => hx.capture⟩
    · rw [hx.latched.pending]
      split_ifs
      · exact Or.inr ⟨_, rfl⟩
      · exact Or.inl rfl
    · intro hb
      refine hx.latched.accepted_eq (Or.inr ?_)
      simp only [jtagBsy, Bool.or_eq_false_iff] at hb
      exact hb.1
    · intro hr1
      obtain ⟨q, l, hq, hshown⟩ := hx.latched.shown_head hr1
      exact ⟨q, l, hq, hshown.addr.symm, hshown.wr.symm, fun hd => (hshown.data hd).symm⟩
  · intro hf n
    obtain ⟨m, hnm, hb⟩ := not_busy_again h hw hf n
    have hx := sound_sysAt h hw m
    refine ⟨m, hnm, hb, ?_⟩
    have hj : (sysAt ncpus s input m).st.dtm.jtagReq = false := by
      simp only [jtagBsy, Bool.or_eq_false_iff] at hb
      exact hb.1
    rw [← hx.latched.accepted_eq (Or.inr hj)]
    exact accepted_mono ncpus s input hnm

end

/-! ## Scans -/

/-- The state after reset, with zeros in the registers that have none. -/
def State.zero : State where
  dtm := ⟨0, 0, false, false, false, false, false⟩
  master := ⟨0, 0, 0, .idle, false, false⟩
  gsprReq _ := false
  gsprAck _ := false

theorem State.zero_reset : State.zero.Reset := by
  constructor <;> intros <;> rfl

/-- An edge of the JTAG clock with the port selected. -/
def tick (capture shift update tdi : Bool) : Edge :=
  ⟨some ⟨true, capture, shift, update, tdi⟩, none, fun _ => 0⟩

/-- An edge of the system clock. -/
def clk (ack : Bool) (dat : Dword) : Edge :=
  ⟨none, some ⟨⟨dat, ack, false⟩, fun _ => true⟩, fun _ => 0⟩

/-- A scan: capture, 74 shifts and update. -/
def scan (w : Word) : List Edge :=
  tick true false false false ::
    ((List.range 74).map fun k => tick false true false (w.getLsbD k)) ++
    [tick false false true false]

instance (x : Sys) (e : Edge) : Decidable (WbSlave x e) :=
  inferInstanceAs (Decidable (_ → _ ∨ _))

/-- A read of the address register, shifted in with data 1, up to the edge that completes it. -/
def readAddr : List Edge :=
  scan (pack 0 1 dmiReqRd) ++ [clk false 0, clk false 0, tick false false false false,
    tick false false false false]

/-- The lines of a request stay the same from one moment to the next. -/
def LinesStable (x y : Sys) : Prop :=
  dmiReq x.st = true → dmiReq y.st = true →
    dmiAddr y.st = dmiAddr x.st ∧ dmiDout y.st = dmiDout x.st ∧ dmiWr y.st = dmiWr x.st

instance (x y : Sys) : Decidable (LinesStable x y) :=
  inferInstanceAs (Decidable (_ → _ → _ ∧ _ ∧ _))

/-- When a read is completed, the data lines take what was read, with `dmi_req` still up. -/
theorem not_linesStable_read :
    Along (Sys.step 1) WbSlave (Sys.start State.zero)
      (readAddr ++ [tick false false false false]) ∧
    ¬LinesStable (run (Sys.step 1) (Sys.start State.zero) readAddr)
      (run (Sys.step 1) (Sys.start State.zero) (readAddr ++ [tick false false false false])) := by
  decide +kernel

/-- A read of the DATA register. -/
def readData : List Edge :=
  scan (pack 1 0 dmiReqRd) ++
  [clk false 0, clk false 0, clk false 0, clk false 0, clk true 0x1234] ++
  List.replicate 3 (tick false false false false) ++ List.replicate 3 (clk false 0) ++
  List.replicate 2 (tick false false false false)

/-- A moment with edges of both clocks and nothing else. -/
def restEdge : Edge :=
  ⟨some ⟨true, false, false, false, false⟩, some ⟨⟨0, false, false⟩, fun _ => true⟩, fun _ => 0⟩

/-- The read, then nothing. -/
def readDataForever (n : Nat) : Edge :=
  (readData[n]?).getD restEdge

theorem readDataForever_rest {n : Nat} (hn : 89 ≤ n) : readDataForever n = restEdge := by
  unfold readDataForever
  rw [List.getElem?_eq_none hn]
  rfl

theorem wbSlave_readData (n : Nat) :
    WbSlave (sysAt 1 State.zero readDataForever n) (readDataForever n) := by
  rcases Nat.lt_or_ge n 89 with hn | hn
  · have hall : ∀ m < 89, WbSlave (sysAt 1 State.zero readDataForever m) (readDataForever m) := by
      decide +kernel
    exact hall n hn
  · rw [readDataForever_rest hn]
    intro hack
    cases hack

/-- No request and no access under way. -/
def Rests (s : State) : Prop :=
  s.dtm.jtagReq0 = false ∧ s.dtm.jtagReq = false ∧ dmiReq s = false ∧ s.master.state = .idle

instance (s : State) : Decidable (Rests s) :=
  inferInstanceAs (Decidable (_ ∧ _ ∧ _ ∧ _))

/-- Without a request, nothing starts. -/
theorem Rests.step_rest {s : State} (h : Rests s) : Rests (step 1 s restEdge) := by
  obtain ⟨h0, hj, hr1, hst⟩ := h
  refine ⟨hj, ?_, h0, ?_⟩
  · simp [step_jtagReq, completesAt, acceptsAt, restEdge, completes, accepts, hj]
  · simp [step, restEdge, masterEdge, hst, dmiWbReq, hr1]

theorem rests_readData (n : Nat) (hn : 89 ≤ n) :
    Rests (sysAt 1 State.zero readDataForever n).st := by
  refine trace_invariant (fun x : Sys => Rests x.st) 89 (fun m hm hx => ?_) ?_ n hn
  · rw [readDataForever_rest hm]
    exact Rests.step_rest hx
  · decide +kernel

theorem fair_readData : Fair 1 State.zero readDataForever := by
  intro ev n
  refine ⟨n + 89, by omega, fun hasked => ?_⟩
  rw [readDataForever_rest (by omega)]
  cases ev with
  | sys => rfl
  | tck => rfl
  | sel => exact ⟨_, rfl, rfl⟩
  | grant => exact ⟨_, rfl, rfl⟩
  | gspr c => exact ⟨_, rfl, rfl⟩
  | answer =>
      exfalso
      -- no access is open any more
      obtain ⟨-, -, -, hst⟩ := rests_readData (n + 89) (Nat.le_add_left _ _)
      have hlen := (sound_sysAt State.zero_reset wbSlave_readData (n + 89)).books.acks
      rw [if_neg fun hc => ?_] at hlen
      · exact absurd hasked (by
          show ¬(sysAt 1 State.zero readDataForever (n + 89)).acks.length < _
          omega)
      · rw [hst] at hc
        cases hc.1

theorem read_of_data_served :
    (sysAt 1 State.zero readDataForever 89).acks = [0x1234] ∧
    (sysAt 1 State.zero readDataForever 89).accesses <:+
      accessesOf 1 (sysAt 1 State.zero readDataForever 89).handshakes ∧
    ∃ m, 89 ≤ m ∧ jtagBsy (sysAt 1 State.zero readDataForever m).st = false ∧
      (sysAt 1 State.zero readDataForever 89).accepted <:+
        (sysAt 1 State.zero readDataForever m).handshakes :=
  ⟨by decide +kernel,
    ((debug_access_once State.zero_reset readDataForever wbSlave_readData).1 89).2.2.2.1,
    (debug_access_once State.zero_reset readDataForever wbSlave_readData).2 fair_readData 89⟩

end Microwatt.Dmi
