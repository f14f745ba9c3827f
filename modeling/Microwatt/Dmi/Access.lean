import Microwatt.Dmi.Handshake

/-!
# Accesses through the debug bus

Each request that is latched reaches its slave once, each request to the DATA register makes one
access on the wishbone and moves the address on once, and the data of a read is what the next
capture with status OK returns.
-/

namespace Microwatt.Dmi

open Clocked

/-! ## The requests -/

/-- The bus shows the request; the data of a read is replaced when it is completed. -/
structure Shown (q : Req) (s : State) : Prop where
  addr : q.addr = dmiAddr s
  wr : q.wr = dmiWr s
  op : opOf s.dtm.request = dmiReqRd ∨ opOf s.dtm.request = dmiReqWr
  data : q.wr = true ∨ s.dtm.jtagReq = true → q.data = dmiDout s

/-- A request that is latched is on its way to a slave or has been seen by it. -/
structure Latched (x : Sys) : Prop where
  pending : x.accepted =
    (if x.st.dtm.jtagReq && !dmiReq x.st then [reqOf x.st.dtm.request] else []) ++ x.handshakes
  busy : dmiReq x.st = true → x.handshakes ≠ []
  shown : ∀ q l, x.accepted = q :: l → Shown q x.st
  sample : x.st.dtm.jtagReq = false → ∀ q l, x.accepted = q :: l → q.wr = false →
    dmiDout x.st = x.sampled

section

variable {ncpus : Nat} {x : Sys} {e : Edge}

/-- A read has its opcode. -/
theorem Shown.read {q : Req} {s : State} (h : Shown q s) (hq : q.wr = false) :
    opOf s.dtm.request = dmiReqRd := by
  rcases h.op with ho | ho
  · exact ho
  · have hwr := h.wr
    rw [hq, dmiWr, ho] at hwr
    simp at hwr

/-- A write has its opcode. -/
theorem Shown.write {q : Req} {s : State} (h : Shown q s) (hq : q.wr = true) :
    (opOf s.dtm.request == dmiReqRd) = false := by
  have hwr := h.wr
  rw [hq, dmiWr] at hwr
  have ho : opOf s.dtm.request = dmiReqWr := by simpa using hwr.symm
  rw [ho]
  decide

theorem Latched.accepted_eq (h : Latched x) (hr : dmiReq x.st = true ∨ x.st.dtm.jtagReq = false) :
    x.accepted = x.handshakes := by
  rw [h.pending]
  rcases hr with hr | hr <;> simp [hr]

/-- The request that a slave sees is the last one. -/
theorem Latched.shown_head (h : Latched x) (hr : dmiReq x.st = true) :
    ∃ q l, x.handshakes = q :: l ∧ Shown q x.st := by
  cases hh : x.handshakes with
  | nil => exact absurd hh (h.busy hr)
  | cons q l => exact ⟨q, l, rfl, h.shown q l (by rw [h.accepted_eq (Or.inl hr), hh])⟩

theorem risesAt_iff : risesAt x.st e = true ↔
    e.sys.isSome = true ∧ x.st.dtm.jtagReq0 = true ∧ dmiReq x.st = false := by
  simp [risesAt, dmiReq, and_assoc]

/-- A request is latched. -/
theorem Latched.step_accept (h : Latched x) (hr : Ring ncpus x.st) (ha : acceptsAt x.st e = true) :
    Latched (x.step ncpus e) := by
  obtain ⟨-, hj, ha1, hop⟩ := of_acceptsAt ha
  obtain ⟨h0, h1, -, -⟩ := hr.low hj ha1
  have hno : completesAt x.st e = false := by
    by_contra hc
    rw [(of_completesAt (by simpa using hc)).2.1] at hj
    cases hj
  have hr' : dmiReq (x.step ncpus e).st = false := by
    show dmiReq (Dmi.step ncpus x.st e) = false
    rw [dmiReq_step]
    split_ifs
    · exact h0
    · exact h1
  have hj' : (x.step ncpus e).st.dtm.jtagReq = true := by
    show (Dmi.step ncpus x.st e).dtm.jtagReq = true
    rw [step_jtagReq, hno, ha]
    rfl
  have hreq' : (x.step ncpus e).st.dtm.request = x.st.dtm.shiftr := by
    show (Dmi.step ncpus x.st e).dtm.request = _
    rw [step_request, hno, ha]
    simp
  have hrise : risesAt x.st e = false := by
    by_contra hc
    rw [(risesAt_iff.mp (by simpa using hc)).2.1] at h0
    cases h0
  have hacc' : (x.step ncpus e).accepted = reqOf x.st.dtm.shiftr :: x.handshakes := by
    simp [Sys.step, ha, h.accepted_eq (Or.inr hj)]
  have hhand' : (x.step ncpus e).handshakes = x.handshakes := by simp [Sys.step, hrise]
  refine ⟨?_, ?_, ?_, ?_⟩
  · rw [hacc', hj', hr', hreq', hhand']
    rfl
  · intro hc
    rw [hr'] at hc
    cases hc
  · intro q l hq
    rw [hacc'] at hq
    obtain ⟨rfl, -⟩ := List.cons.inj hq
    refine ⟨?_, ?_, ?_, ?_⟩
    · rw [dmiAddr, hreq']
      rfl
    · rw [dmiWr, hreq']
      rfl
    · rw [hreq']
      simpa [opValid] using hop
    · intro _
      rw [dmiDout, hreq']
      rfl
  · intro hc
    rw [hj'] at hc
    cases hc

/-- A request is completed. -/
theorem Latched.step_complete (h : Latched x) (hr : Ring ncpus x.st)
    (hc : completesAt x.st e = true) : Latched (x.step ncpus e) := by
  obtain ⟨-, hj, ha1⟩ := of_completesAt hc
  obtain ⟨h0, h1, -, -⟩ := hr.high hj ha1
  have hno : acceptsAt x.st e = false := hr.not_accepts (Or.inl h1)
  have hj' : (x.step ncpus e).st.dtm.jtagReq = false := by
    show (Dmi.step ncpus x.st e).dtm.jtagReq = false
    rw [step_jtagReq, hc]
    rfl
  have hrise : risesAt x.st e = false := by
    by_contra hc
    rw [(risesAt_iff.mp (by simpa using hc)).2.2] at h1
    cases h1
  have hacc' : (x.step ncpus e).accepted = x.accepted := by simp [Sys.step, hno]
  have hhand' : (x.step ncpus e).handshakes = x.handshakes := by simp [Sys.step, hrise]
  obtain ⟨haddr, hop⟩ := lines_step ncpus hno
  have hdout := dmiDout_step ncpus hno
  refine ⟨?_, ?_, ?_, ?_⟩
  · rw [hacc', hhand', hj', h.accepted_eq (Or.inl h1)]
    rfl
  · intro _
    rw [hhand']
    exact h.busy h1
  · intro q l hq
    rw [hacc'] at hq
    have hs := h.shown q l hq
    refine ⟨hs.addr.trans haddr.symm, hs.wr.trans (dmiWr_step ncpus hno).symm, ?_, ?_⟩
    · show opOf (Dmi.step ncpus x.st e).dtm.request = _ ∨
          opOf (Dmi.step ncpus x.st e).dtm.request = _
      rw [hop]
      exact hs.op
    · intro hwr
      have hw : q.wr = true := by
        rcases hwr with hw | hjr
        · exact hw
        · rw [hj'] at hjr
          cases hjr
      show q.data = dmiDout (Dmi.step ncpus x.st e)
      rw [hdout, hs.write hw, Bool.and_false]
      exact hs.data (Or.inl hw)
  · intro _ q l hq hw
    rw [hacc'] at hq
    show dmiDout (Dmi.step ncpus x.st e) = if completesAt x.st e then _ else _
    rw [hdout, hc, (h.shown q l hq).read hw]
    rfl

/-- The ring goes on. -/
theorem Latched.step_same (h : Latched x) (hr : Ring ncpus x.st) (ha : acceptsAt x.st e = false)
    (hc : completesAt x.st e = false) : Latched (x.step ncpus e) := by
  have hj' : (x.step ncpus e).st.dtm.jtagReq = x.st.dtm.jtagReq := by
    show (Dmi.step ncpus x.st e).dtm.jtagReq = _
    rw [step_jtagReq, hc, ha]
    rfl
  have hreq' : (x.step ncpus e).st.dtm.request = x.st.dtm.request := by
    show (Dmi.step ncpus x.st e).dtm.request = _
    rw [step_request, hc, ha]
    rfl
  have hacc' : (x.step ncpus e).accepted = x.accepted := by simp [Sys.step, ha]
  have hr' : dmiReq (x.step ncpus e).st = if e.sys.isSome then x.st.dtm.jtagReq0 else dmiReq x.st :=
    dmiReq_step
  refine ⟨?_, ?_, ?_, ?_⟩
  · rw [hacc', hj', hreq', h.pending]
    show _ = _ ++ (if risesAt x.st e then reqOf x.st.dtm.request :: x.handshakes else x.handshakes)
    cases hrise : risesAt x.st e with
    | true =>
        obtain ⟨hsys, h0, h1⟩ := risesAt_iff.mp hrise
        rw [hr', if_pos hsys, h0, h1, hr.jtagReq_of_rising h1 h0]
        rfl
    | false =>
        cases hj : x.st.dtm.jtagReq with
        | false => simp
        | true =>
            have hsame : dmiReq (x.step ncpus e).st = dmiReq x.st := by
              rw [hr']
              split_ifs with hsys
              · cases h1 : dmiReq x.st with
                | true => exact (hr.up hj).1 h1
                | false =>
                    by_contra h0
                    rw [risesAt_iff.mpr ⟨hsys, by simpa using h0, h1⟩] at hrise
                    cases hrise
              · rfl
            rw [hsame]
            rfl
  · intro hreq
    show (if risesAt x.st e then reqOf x.st.dtm.request :: x.handshakes else x.handshakes) ≠ []
    split_ifs with hrise
    · simp
    · refine h.busy ?_
      rw [hr'] at hreq
      split_ifs at hreq with hsys
      · by_contra h1
        exact hrise (risesAt_iff.mpr ⟨hsys, hreq, by simpa using h1⟩)
      · exact hreq
  · intro q l hq
    rw [hacc'] at hq
    obtain ⟨h1, h2, h3, h4⟩ := h.shown q l hq
    unfold dmiAddr dmiWr dmiDout at *
    refine ⟨?_, ?_, ?_, ?_⟩
    · rw [dmiAddr, hreq', h1]
    · rw [dmiWr, hreq', h2]
    · rw [hreq']
      exact h3
    · rw [dmiDout, hreq', hj']
      exact h4
  · intro hj q l hq hw
    rw [hacc'] at hq
    rw [hj'] at hj
    have hs : (x.step ncpus e).sampled = x.sampled := by simp [Sys.step, hc]
    rw [hs, ← h.sample hj q l hq hw, dmiDout, hreq']
    rfl

theorem Latched.step (h : Latched x) (hr : Ring ncpus x.st) : Latched (x.step ncpus e) := by
  cases ha : acceptsAt x.st e with
  | true => exact h.step_accept hr ha
  | false =>
      cases hc : completesAt x.st e with
      | true => exact h.step_complete hr hc
      | false => exact h.step_same hr ha hc

end

/-! ## The debug master -/

/-- The address and control registers. -/
def regs (s : State) : Ref :=
  ⟨s.master.regAddr, s.master.regCtrl⟩

/-- The registers with the increment that is still to be done. -/
def regsDue (s : State) : Ref :=
  ⟨s.master.regAddr +
    if s.master.doInc then decodeAutoinc (s.master.regCtrl.extractLsb' 9 2) else 0,
      s.master.regCtrl⟩

/-- The data that a read of the debug master gives, after the requests before it and with the data
of the acks of the wishbone. -/
def readOf (r : Ref) (acks : List Dword) (q : Req) : Dword :=
  if wbReg q.addr = dbgWbAddr then r.addr
  else if wbReg q.addr = dbgWbData then acks.head?.getD 0
  else if wbReg q.addr = dbgWbCtrl then r.ctrl.setWidth 64
  else 0

/-- The registers and the accesses against the requests. -/
structure Books (ncpus : Nat) (x : Sys) : Prop where
  idle : x.st.master.state = .idle → dmiReq x.st = false →
    regs x.st = refOf ncpus x.handshakes ∧ x.accesses = accessesOf ncpus x.handshakes
  fresh : x.st.master.state = .idle → dmiReq x.st = true → DataOf ncpus x.st →
    ∀ q l, x.handshakes = q :: l → regs x.st = refOf ncpus l ∧ x.accesses = accessesOf ncpus l
  plain : x.st.master.state = .idle → dmiReq x.st = true → ¬DataOf ncpus x.st →
    ∀ q l, x.handshakes = q :: l →
      (regs x.st).after ncpus q = refOf ncpus (q :: l) ∧ x.accesses = accessesOf ncpus (q :: l)
  cycle : x.st.master.state = .wbCycle → ∀ q l, x.handshakes = q :: l →
    regs x.st = refOf ncpus l ∧
    x.accesses = if x.st.master.stb then accessesOf ncpus l else accessesOf ncpus (q :: l)
  wait : x.st.master.state = .dmiWait →
    regsDue x.st = refOf ncpus x.handshakes ∧ x.accesses = accessesOf ncpus x.handshakes
  acks : x.acks.length +
    (if x.st.master.state = .wbCycle ∧ x.st.master.stb = false then 1 else 0) = x.accesses.length
  latch : x.st.master.state = .dmiWait → dmiReq x.st = true → dmiWr x.st = false →
    x.acks.head? = some x.st.master.dataLatch

section

variable {ncpus : Nat} {x : Sys} {e : Edge} {t : Option Jtag} {i : SysIn} {d : Nat → Dword}

theorem regsDue_of_not_inc {s : State} (h : s.master.doInc = false) : regsDue s = regs s := by
  simp [regsDue, regs, h]

/-- An edge of the system clock with nothing to write. -/
theorem regs_sys_same {s : State} (hi : s.master.doInc = false)
    (h : dmiReq s = false ∨ DataOf ncpus s) : regs (step ncpus s ⟨t, some i, d⟩) = regs s := by
  rcases h with h | ⟨-, h⟩
  · simp [regs, step, masterEdge, hi, dmiWbReq, h]
  · simp [regs, step, masterEdge, hi, h, dbgWbData, dbgWbAddr, dbgWbCtrl]

theorem regs_sys_inc {s : State} (hi : s.master.doInc = true) :
    regs (step ncpus s ⟨t, some i, d⟩) = regsDue s := by
  simp [regs, regsDue, step, masterEdge, hi]

/-- Writes are done in every cycle of the request. -/
theorem regs_sys_write {s : State} {q : Req} (hq : Shown q s) (hr : dmiReq s = true)
    (hi : s.master.doInc = false) (hd : ¬DataOf ncpus s) :
    regs (step ncpus s ⟨t, some i, d⟩) = (regs s).after ncpus q := by
  unfold Ref.after
  by_cases hw : slaveOf ncpus q.addr = .wb
  · have hw' : slaveOf ncpus (dmiAddr s) = .wb := by rw [← hq.addr, hw]
    have hnd : ¬wbReg q.addr = dbgWbData := fun hc => hd ⟨hw', by rw [← hq.addr, hc]⟩
    have hreq : dmiWbReq ncpus s = true := by simp [dmiWbReq, hr, hw']
    rw [if_pos hw, if_neg hnd]
    cases hwr : q.wr with
    | false =>
        have hwr' : dmiWr s = false := by rw [← hq.wr, hwr]
        simp [regs, step, masterEdge, hi, hwr']
    | true =>
        have hwr' : dmiWr s = true := by rw [← hq.wr, hwr]
        have hdata := hq.data (Or.inl hwr)
        by_cases ha : wbReg q.addr = dbgWbAddr
        · have ha' : wbReg (dmiAddr s) = dbgWbAddr := by rw [← hq.addr, ha]
          simp [regs, step, masterEdge, hi, hwr', hreq, ha', hq.addr, ← hdata, dbgWbAddr, dbgWbCtrl]
        · by_cases hc : wbReg q.addr = dbgWbCtrl
          · have hc' : wbReg (dmiAddr s) = dbgWbCtrl := by rw [← hq.addr, hc]
            simp [regs, step, masterEdge, hi, hwr', hreq, hc', hq.addr, ← hdata, dbgWbAddr,
              dbgWbCtrl]
          · have ha' : ¬wbReg (dmiAddr s) = dbgWbAddr := by rw [← hq.addr]; exact ha
            have hc' : ¬wbReg (dmiAddr s) = dbgWbCtrl := by rw [← hq.addr]; exact hc
            simp [regs, step, masterEdge, hi, ha', hc', ha, hc]
  · have hreq : dmiWbReq ncpus s = false := by
      have : ¬slaveOf ncpus (dmiAddr s) = .wb := by rw [← hq.addr]; exact hw
      simp [dmiWbReq, this]
    rw [if_neg hw]
    simp [regs, step, masterEdge, hi, hreq]

/-- Doing a write again changes nothing. -/
theorem after_after {r : Ref} {q : Req} (h : q.isData ncpus = false) :
    (r.after ncpus q).after ncpus q = r.after ncpus q := by
  unfold Ref.after
  by_cases hw : slaveOf ncpus q.addr = .wb
  · have hd : ¬wbReg q.addr = dbgWbData := by simpa [Req.isData, hw] using h
    simp only [if_pos hw, if_neg hd]
    split_ifs <;> rfl
  · simp only [if_neg hw]

theorem isData_iff {q : Req} {s : State} (hq : Shown q s) :
    q.isData ncpus = true ↔ DataOf ncpus s := by
  simp [Req.isData, DataOf, hq.addr]

/-- The accesses of a sequence of requests. -/
theorem accessesOf_cons (q : Req) (l : List Req) : accessesOf ncpus (q :: l) =
    if q.isData ncpus then (refOf ncpus l).access q :: accessesOf ncpus l else accessesOf ncpus l :=
  rfl

/-- What the debug master sends is the access of its request. -/
theorem wbOut_eq {s : State} {q : Req} {r : Ref} (hq : Shown q s) (hj : s.dtm.jtagReq = true)
    (hw : s.master.state = .wbCycle) (hb : s.master.stb = true) (hr : regs s = r) :
    wbOut s = r.access q := by
  subst hr
  simp [wbOut, Ref.access, regs, hw, hb, hq.wr, hq.data (Or.inr hj)]

end

/-! ## The books after an edge -/

section

variable {ncpus : Nat} {x : Sys} {t : Option Jtag} {i : SysIn} {d : Nat → Dword}

/-- An edge of the JTAG clock alone. -/
theorem Books.step_tck (h : Books ncpus x) (hr : Ring ncpus x.st) :
    Books ncpus (x.step ncpus ⟨t, none, d⟩) := by
  have hreq : dmiReq (x.step ncpus ⟨t, none, d⟩).st = dmiReq x.st := dmiReq_tck t d
  have hhand : (x.step ncpus ⟨t, none, d⟩).handshakes = x.handshakes := rfl
  have haccs : (x.step ncpus ⟨t, none, d⟩).accesses = x.accesses := rfl
  have hdata : dmiReq x.st = true →
      (DataOf ncpus (x.step ncpus ⟨t, none, d⟩).st ↔ DataOf ncpus x.st) := by
    intro hr1
    have haddr : dmiAddr (Dmi.step ncpus x.st ⟨t, none, d⟩) = dmiAddr x.st :=
      (lines_step ncpus (hr.not_accepts (Or.inl hr1))).1
    unfold DataOf
    rw [show dmiAddr (x.step ncpus ⟨t, none, d⟩).st = _ from haddr]
  refine ⟨?_, ?_, ?_, h.cycle, h.wait, h.acks, ?_⟩
  · intro hs hr1
    rw [hreq] at hr1
    exact h.idle hs hr1
  · intro hs hr1 hd
    rw [hreq] at hr1
    exact h.fresh hs hr1 ((hdata hr1).mp hd)
  · intro hs hr1 hd
    rw [hreq] at hr1
    exact h.plain hs hr1 (fun hc => hd ((hdata hr1).mpr hc))
  · intro hs hr1 hw
    rw [hreq] at hr1
    have hwr : dmiWr (Dmi.step ncpus x.st ⟨t, none, d⟩) = dmiWr x.st :=
      dmiWr_step ncpus (hr.not_accepts (Or.inl hr1))
    exact h.latch hs hr1 (hwr ▸ hw)

theorem takesAt_sys {s : State} : takesAt s ⟨t, some i, d⟩ = true ↔
    s.master.state = .wbCycle ∧ s.master.stb = true ∧ i.wbIn.stall = false := by
  simp [takesAt, wbOut, and_assoc]

/-- Outside an access, the wishbone does nothing. -/
theorem Books.silent (h : Books ncpus x) (hw : WbSlave x ⟨t, some i, d⟩)
    (hs : x.st.master.state ≠ .wbCycle) :
    (x.step ncpus ⟨t, some i, d⟩).accesses = x.accesses ∧
    (x.step ncpus ⟨t, some i, d⟩).acks = x.acks := by
  have hno : takesAt x.st ⟨t, some i, d⟩ = false := by
    by_contra hc
    exact hs (takesAt_sys.mp (by simpa using hc)).1
  have hlen := h.acks
  rw [if_neg (fun hc => hs hc.1), Nat.add_zero] at hlen
  have hack : i.wbIn.ack = false := by
    by_contra hc
    rcases hw (by simp [ackAt, hc]) with hlt | htake
    · omega
    · rw [hno] at htake
      cases htake
  exact ⟨by simp [Sys.step, hno], by simp [Sys.step, ackAt, hack]⟩

/-- While a slave is asked, no other request comes. -/
theorem handshakes_same (hr : dmiReq x.st = true ∨ x.st.dtm.jtagReq0 = false) :
    (x.step ncpus ⟨t, some i, d⟩).handshakes = x.handshakes := by
  have hno : risesAt x.st ⟨t, some i, d⟩ = false := by
    by_contra hc
    obtain ⟨-, h0, h1⟩ := risesAt_iff.mp (by simpa using hc)
    rcases hr with hr | hr
    · rw [h1] at hr
      cases hr
    · rw [h0] at hr
      cases hr
  simp [Sys.step, hno]

/-- An access starts. -/
theorem Books.step_start (h : Books ncpus x) (hs : Slaves ncpus x.st)
    (hw : WbSlave x ⟨t, some i, d⟩)
    (hst : x.st.master.state = .idle) (hr1 : dmiReq x.st = true) (hd : DataOf ncpus x.st)
    (hst' : (Dmi.step ncpus x.st ⟨t, some i, d⟩).master.state = .wbCycle)
    (hstb' : (Dmi.step ncpus x.st ⟨t, some i, d⟩).master.stb = true) :
    Books ncpus (x.step ncpus ⟨t, some i, d⟩) := by
  obtain ⟨haccs, hacks⟩ := h.silent hw (by rw [hst]; simp)
  have hhand : (x.step ncpus ⟨t, some i, d⟩).handshakes = x.handshakes :=
    handshakes_same (Or.inl hr1)
  have hinc : x.st.master.doInc = false := by
    by_contra hc
    rw [(hs.inc (by simpa using hc)).1] at hst
    cases hst
  have hst'' : (x.step ncpus ⟨t, some i, d⟩).st.master.state = .wbCycle := hst'
  have hstb'' : (x.step ncpus ⟨t, some i, d⟩).st.master.stb = true := hstb'
  have hlen := h.acks
  rw [if_neg (by rw [hst]; simp)] at hlen
  refine ⟨?_, ?_, ?_, ?_, ?_, ?_, ?_⟩
  · exact fun hc => absurd (hst''.symm.trans hc) (by simp)
  · exact fun hc => absurd (hst''.symm.trans hc) (by simp)
  · exact fun hc => absurd (hst''.symm.trans hc) (by simp)
  · intro _ q l hq
    rw [hhand] at hq
    obtain ⟨h1, h2⟩ := h.fresh hst hr1 hd q l hq
    rw [hstb'', haccs, show regs (x.step ncpus ⟨t, some i, d⟩).st = regs x.st from
      regs_sys_same hinc (Or.inr hd)]
    exact ⟨h1, h2⟩
  · exact fun hc => absurd (hst''.symm.trans hc) (by simp)
  · rw [haccs, hacks, hstb'', if_neg (by simp)]
    exact hlen
  · exact fun hc => absurd (hst''.symm.trans hc) (by simp)

/-- No access is going on, and none starts. -/
theorem Books.step_rest (h : Books ncpus x) (hr : Ring ncpus x.st) (hs : Slaves ncpus x.st)
    (hl : Latched x) (hw : WbSlave x ⟨t, some i, d⟩) (hst : x.st.master.state = .idle)
    (hno : ¬(dmiReq x.st = true ∧ DataOf ncpus x.st))
    (hst' : (Dmi.step ncpus x.st ⟨t, some i, d⟩).master.state = .idle) :
    Books ncpus (x.step ncpus ⟨t, some i, d⟩) := by
  obtain ⟨haccs, hacks⟩ := h.silent hw (by rw [hst]; simp)
  have hinc : x.st.master.doInc = false := by
    by_contra hc
    rw [(hs.inc (by simpa using hc)).1] at hst
    cases hst
  have hst'' : (x.step ncpus ⟨t, some i, d⟩).st.master.state = .idle := hst'
  have hr' : dmiReq (x.step ncpus ⟨t, some i, d⟩).st = x.st.dtm.jtagReq0 := rfl
  have hl' : Latched (x.step ncpus ⟨t, some i, d⟩) := hl.step hr
  have hlen := h.acks
  rw [if_neg (by rw [hst]; simp)] at hlen
  have hcount : (x.step ncpus ⟨t, some i, d⟩).acks.length +
      (if (x.step ncpus ⟨t, some i, d⟩).st.master.state = .wbCycle ∧
        (x.step ncpus ⟨t, some i, d⟩).st.master.stb = false then 1 else 0) =
      (x.step ncpus ⟨t, some i, d⟩).accesses.length := by
    rw [haccs, hacks, hst'', if_neg (by simp)]
    exact hlen
  by_cases hr1 : dmiReq x.st = true
  · -- a register is read or written
    have hnd : ¬DataOf ncpus x.st := fun hd => hno ⟨hr1, hd⟩
    have hhand : (x.step ncpus ⟨t, some i, d⟩).handshakes = x.handshakes :=
    handshakes_same (Or.inl hr1)
    obtain ⟨q, l, hq, hshown⟩ := hl.shown_head hr1
    obtain ⟨h1, h2⟩ := h.plain hst hr1 hnd q l hq
    have hregs : regs (x.step ncpus ⟨t, some i, d⟩).st = refOf ncpus (q :: l) := by
      rw [← h1]
      exact regs_sys_write hshown hr1 hinc hnd
    have hqd : q.isData ncpus = false := by
      by_contra hc
      exact hnd ((isData_iff hshown).mp (by simpa using hc))
    refine ⟨?_, ?_, ?_, ?_, ?_, hcount, ?_⟩
    · intro _ _
      rw [hhand, hq, haccs]
      exact ⟨hregs, h2⟩
    · intro _ hreq hd' q' l' hq'
      rw [hhand, hq] at hq'
      obtain ⟨rfl, rfl⟩ := List.cons.inj hq'
      have hshown' := hl'.shown q l (by rw [hl'.accepted_eq (Or.inl hreq), hhand, hq])
      rw [(isData_iff hshown').mpr hd'] at hqd
      cases hqd
    · intro _ _ _ q' l' hq'
      rw [hhand, hq] at hq'
      obtain ⟨rfl, rfl⟩ := List.cons.inj hq'
      rw [hregs, haccs]
      exact ⟨after_after hqd, h2⟩
    · exact fun hc => absurd (hst''.symm.trans hc) (by simp)
    · exact fun hc => absurd (hst''.symm.trans hc) (by simp)
    · exact fun hc => absurd (hst''.symm.trans hc) (by simp)
  · have hr1' : dmiReq x.st = false := by simpa using hr1
    obtain ⟨h1, h2⟩ := h.idle hst hr1'
    have hregs : regs (x.step ncpus ⟨t, some i, d⟩).st = refOf ncpus x.handshakes := by
      rw [← h1]
      exact regs_sys_same hinc (Or.inl hr1')
    -- the requests after the edge, if one comes
    have hnew : dmiReq (x.step ncpus ⟨t, some i, d⟩).st = true → ∀ q l,
        (x.step ncpus ⟨t, some i, d⟩).handshakes = q :: l →
        l = x.handshakes ∧ Shown q (x.step ncpus ⟨t, some i, d⟩).st := by
      intro hreq q l hq
      have hshown' := hl'.shown q l (by rw [hl'.accepted_eq (Or.inl hreq), hq])
      have hrise : risesAt x.st ⟨t, some i, d⟩ = true :=
        risesAt_iff.mpr ⟨rfl, hr' ▸ hreq, hr1'⟩
      refine ⟨?_, hshown'⟩
      have hcons : (x.step ncpus ⟨t, some i, d⟩).handshakes =
          reqOf x.st.dtm.request :: x.handshakes := by simp [Sys.step, hrise]
      rw [hcons] at hq
      exact (List.cons.inj hq).2.symm
    refine ⟨?_, ?_, ?_, ?_, ?_, hcount, ?_⟩
    · intro _ hreq
      rw [handshakes_same (Or.inr (hr' ▸ hreq)), haccs]
      exact ⟨hregs, h2⟩
    · intro _ hreq _ q l hq
      obtain ⟨rfl, -⟩ := hnew hreq q l hq
      rw [haccs]
      exact ⟨hregs, h2⟩
    · intro _ hreq hnd q l hq
      obtain ⟨rfl, hshown⟩ := hnew hreq q l hq
      have hqd : ¬q.isData ncpus = true := fun hc => hnd ((isData_iff hshown).mp hc)
      rw [haccs, accessesOf_cons, if_neg hqd, hregs]
      exact ⟨rfl, h2⟩
    · exact fun hc => absurd (hst''.symm.trans hc) (by simp)
    · exact fun hc => absurd (hst''.symm.trans hc) (by simp)
    · exact fun hc => absurd (hst''.symm.trans hc) (by simp)

/-- What an access has sent, after an edge in it. -/
theorem Books.accesses_cycle (h : Books ncpus x) (hr : Ring ncpus x.st) (hs : Slaves ncpus x.st)
    (hst : x.st.master.state = .wbCycle) {q : Req} {l : List Req} (hq : x.handshakes = q :: l)
    (hshown : Shown q x.st) : (x.step ncpus ⟨t, some i, d⟩).accesses =
      if x.st.master.stb && i.wbIn.stall then accessesOf ncpus l
        else accessesOf ncpus (q :: l) := by
  obtain ⟨hr1, hd⟩ := hs.cycle hst
  obtain ⟨hj, -⟩ := hr.up_of_data hr1 hd (by rw [hst]; simp)
  obtain ⟨hregs, haccs⟩ := h.cycle hst q l hq
  have hqd : q.isData ncpus = true := (isData_iff hshown).mpr hd
  show (if takesAt x.st ⟨t, some i, d⟩ then wbOut x.st :: x.accesses else x.accesses) = _
  cases hb : x.st.master.stb with
  | false =>
      have hno : takesAt x.st ⟨t, some i, d⟩ = false := by
        by_contra hc
        rw [(takesAt_sys.mp (by simpa using hc)).2.1] at hb
        cases hb
      rw [hno, haccs, hb]
      rfl
  | true =>
      cases hstall : i.wbIn.stall with
      | true =>
          have hno : takesAt x.st ⟨t, some i, d⟩ = false := by
            by_contra hc
            rw [(takesAt_sys.mp (by simpa using hc)).2.2] at hstall
            cases hstall
          rw [hno, haccs, hb]
          rfl
      | false =>
          rw [takesAt_sys.mpr ⟨hst, hb, hstall⟩, haccs, hb, wbOut_eq hshown hj hst hb hregs,
            accessesOf_cons, hqd]
          rfl

/-- An access is acked. -/
theorem Books.step_ack (h : Books ncpus x) (hr : Ring ncpus x.st) (hs : Slaves ncpus x.st)
    (hl : Latched x) (hw : WbSlave x ⟨t, some i, d⟩) (hst : x.st.master.state = .wbCycle)
    (hack : i.wbIn.ack = true)
    (hst' : (Dmi.step ncpus x.st ⟨t, some i, d⟩).master.state = .dmiWait)
    (hinc' : (Dmi.step ncpus x.st ⟨t, some i, d⟩).master.doInc = x.st.master.regCtrl.getLsbD 8) :
    Books ncpus (x.step ncpus ⟨t, some i, d⟩) := by
  obtain ⟨hr1, hd⟩ := hs.cycle hst
  obtain ⟨q, l, hq, hshown⟩ := hl.shown_head hr1
  obtain ⟨hregs, haccs⟩ := h.cycle hst q l hq
  have hqd : q.isData ncpus = true := (isData_iff hshown).mpr hd
  have hhand : (x.step ncpus ⟨t, some i, d⟩).handshakes = x.handshakes :=
    handshakes_same (Or.inl hr1)
  have hinc : x.st.master.doInc = false := by
    by_contra hc
    rw [(hs.inc (by simpa using hc)).1] at hst
    cases hst
  have hst'' : (x.step ncpus ⟨t, some i, d⟩).st.master.state = .dmiWait := hst'
  have hlen := h.acks
  -- the slave has taken the access
  have htaken : x.st.master.stb = true → i.wbIn.stall = false := by
    intro hb
    rw [if_neg (by rw [hb]; simp)] at hlen
    rcases hw (by simp [ackAt, hack]) with hlt | htake
    · omega
    · exact (takesAt_sys.mp htake).2.2
  have haccs' : (x.step ncpus ⟨t, some i, d⟩).accesses = accessesOf ncpus (q :: l) := by
    rw [h.accesses_cycle hr hs hst hq hshown]
    cases hb : x.st.master.stb with
    | false => rfl
    | true => simp [htaken hb]
  have hacks' : (x.step ncpus ⟨t, some i, d⟩).acks = i.wbIn.dat :: x.acks := by
    simp [Sys.step, ackAt, hack]
  have hregs' : regs (Dmi.step ncpus x.st ⟨t, some i, d⟩) = refOf ncpus l := by
    rw [← hregs]
    exact regs_sys_same hinc (Or.inr hd)
  refine ⟨?_, ?_, ?_, ?_, ?_, ?_, ?_⟩
  · exact fun hc => absurd (hst''.symm.trans hc) (by simp)
  · exact fun hc => absurd (hst''.symm.trans hc) (by simp)
  · exact fun hc => absurd (hst''.symm.trans hc) (by simp)
  · exact fun hc => absurd (hst''.symm.trans hc) (by simp)
  · intro _
    rw [hhand, hq, haccs']
    refine ⟨?_, rfl⟩
    have hctrl : x.st.master.regCtrl = (refOf ncpus l).ctrl := congrArg Ref.ctrl hregs
    have haddr' : (Dmi.step ncpus x.st ⟨t, some i, d⟩).master.regAddr = (refOf ncpus l).addr :=
      congrArg Ref.addr hregs'
    have hctrl' : (Dmi.step ncpus x.st ⟨t, some i, d⟩).master.regCtrl = (refOf ncpus l).ctrl :=
      congrArg Ref.ctrl hregs'
    simp only [Req.isData, Bool.and_eq_true, beq_iff_eq] at hqd
    show regsDue (Dmi.step ncpus x.st ⟨t, some i, d⟩) = (refOf ncpus l).after ncpus q
    rw [regsDue, hinc', haddr', hctrl', hctrl, Ref.after, if_pos hqd.1, if_pos hqd.2]
  · rw [hst'', if_neg (by simp), hacks', haccs', List.length_cons]
    cases hb : x.st.master.stb with
    | false =>
        rw [if_pos ⟨hst, hb⟩, haccs, hb] at hlen
        exact hlen
    | true =>
        rw [if_neg (by rw [hb]; simp), haccs, hb] at hlen
        rw [accessesOf_cons, hqd, if_pos rfl, List.length_cons]
        exact congrArg (· + 1) hlen
  · intro _ _ hwr'
    have hwr : dmiWr x.st = false := by
      rw [← hwr']
      exact (dmiWr_step ncpus (hr.not_accepts (Or.inl hr1))).symm
    rw [hacks']
    simp [Sys.step, Dmi.step, masterEdge, hst, hack, hwr]

/-- An access goes on. -/
theorem Books.step_cycle (h : Books ncpus x) (hr : Ring ncpus x.st) (hs : Slaves ncpus x.st)
    (hl : Latched x) (hst : x.st.master.state = .wbCycle) (hack : i.wbIn.ack = false)
    (hst' : (Dmi.step ncpus x.st ⟨t, some i, d⟩).master.state = .wbCycle)
    (hstb' : (Dmi.step ncpus x.st ⟨t, some i, d⟩).master.stb =
      (i.wbIn.stall && x.st.master.stb)) : Books ncpus (x.step ncpus ⟨t, some i, d⟩) := by
  obtain ⟨hr1, hd⟩ := hs.cycle hst
  obtain ⟨q, l, hq, hshown⟩ := hl.shown_head hr1
  obtain ⟨hregs, haccs⟩ := h.cycle hst q l hq
  have hqd : q.isData ncpus = true := (isData_iff hshown).mpr hd
  have hhand : (x.step ncpus ⟨t, some i, d⟩).handshakes = x.handshakes :=
    handshakes_same (Or.inl hr1)
  have hinc : x.st.master.doInc = false := by
    by_contra hc
    rw [(hs.inc (by simpa using hc)).1] at hst
    cases hst
  have hst'' : (x.step ncpus ⟨t, some i, d⟩).st.master.state = .wbCycle := hst'
  have hstb'' : (x.step ncpus ⟨t, some i, d⟩).st.master.stb =
      (x.st.master.stb && i.wbIn.stall) := by
    rw [Bool.and_comm]
    exact hstb'
  have haccs' := h.accesses_cycle (t := t) (i := i) (d := d) hr hs hst hq hshown
  have hacks' : (x.step ncpus ⟨t, some i, d⟩).acks = x.acks := by simp [Sys.step, ackAt, hack]
  have hlen := h.acks
  refine ⟨?_, ?_, ?_, ?_, ?_, ?_, ?_⟩
  · exact fun hc => absurd (hst''.symm.trans hc) (by simp)
  · exact fun hc => absurd (hst''.symm.trans hc) (by simp)
  · exact fun hc => absurd (hst''.symm.trans hc) (by simp)
  · intro _ q' l' hq'
    rw [hhand, hq] at hq'
    obtain ⟨rfl, rfl⟩ := List.cons.inj hq'
    rw [hstb'', haccs', ← hregs]
    exact ⟨regs_sys_same hinc (Or.inr hd), rfl⟩
  · exact fun hc => absurd (hst''.symm.trans hc) (by simp)
  · rw [hst'', hstb'', hacks', haccs']
    cases hb : x.st.master.stb with
    | false =>
        rw [if_pos ⟨hst, hb⟩, haccs, hb] at hlen
        simpa using hlen
    | true =>
        rw [if_neg (by rw [hb]; simp), haccs, hb] at hlen
        cases i.wbIn.stall with
        | true => simpa using hlen
        | false =>
            rw [accessesOf_cons, hqd]
            simpa using hlen
  · exact fun hc => absurd (hst''.symm.trans hc) (by simp)

/-- The access is done. -/
theorem Books.step_wait (h : Books ncpus x) (hr : Ring ncpus x.st) (hs : Slaves ncpus x.st)
    (hw : WbSlave x ⟨t, some i, d⟩) (hst : x.st.master.state = .dmiWait)
    (hst' : (Dmi.step ncpus x.st ⟨t, some i, d⟩).master.state =
      if dmiWbReq ncpus x.st then .dmiWait else .idle)
    (hinc' : (Dmi.step ncpus x.st ⟨t, some i, d⟩).master.doInc = false) :
    Books ncpus (x.step ncpus ⟨t, some i, d⟩) := by
  obtain ⟨haccs, hacks⟩ := h.silent hw (by rw [hst]; simp)
  obtain ⟨h1, h2⟩ := h.wait hst
  have hlen := h.acks
  rw [if_neg (by rw [hst]; simp)] at hlen
  have hcount : (x.step ncpus ⟨t, some i, d⟩).acks.length +
      (if (x.step ncpus ⟨t, some i, d⟩).st.master.state = .wbCycle ∧
        (x.step ncpus ⟨t, some i, d⟩).st.master.stb = false then 1 else 0) =
      (x.step ncpus ⟨t, some i, d⟩).accesses.length := by
    rw [haccs, hacks, show (x.step ncpus ⟨t, some i, d⟩).st.master.state = _ from hst', if_neg]
    · exact hlen
    · rintro ⟨hc, -⟩
      split_ifs at hc
  by_cases hr1 : dmiReq x.st = true
  · have hd := hs.wait hst hr1
    have hreq : dmiWbReq ncpus x.st = true := by simp [dmiWbReq, hr1, hd.1]
    have hst'' : (x.step ncpus ⟨t, some i, d⟩).st.master.state = .dmiWait := by
      rw [show (x.step ncpus ⟨t, some i, d⟩).st.master.state = _ from hst', hreq]
      rfl
    have hhand : (x.step ncpus ⟨t, some i, d⟩).handshakes = x.handshakes :=
      handshakes_same (Or.inl hr1)
    have hregs : regs (Dmi.step ncpus x.st ⟨t, some i, d⟩) = regsDue x.st := by
      cases hinc : x.st.master.doInc with
      | true => exact regs_sys_inc hinc
      | false =>
          rw [regsDue_of_not_inc hinc]
          exact regs_sys_same hinc (Or.inr hd)
    refine ⟨?_, ?_, ?_, ?_, ?_, hcount, ?_⟩
    · exact fun hc => absurd (hst''.symm.trans hc) (by simp)
    · exact fun hc => absurd (hst''.symm.trans hc) (by simp)
    · exact fun hc => absurd (hst''.symm.trans hc) (by simp)
    · exact fun hc => absurd (hst''.symm.trans hc) (by simp)
    · intro _
      rw [hhand, haccs, ← h1, ← hregs]
      exact ⟨regsDue_of_not_inc hinc', h2⟩
    · intro _ _ hwr'
      have hwr : dmiWr x.st = false := by
        rw [← hwr']
        exact (dmiWr_step ncpus (hr.not_accepts (Or.inl hr1))).symm
      rw [hacks, h.latch hst hr1 hwr]
      simp [Sys.step, Dmi.step, masterEdge, hst]
  · have hr1' : dmiReq x.st = false := by simpa using hr1
    have hreq : dmiWbReq ncpus x.st = false := by simp [dmiWbReq, hr1']
    have h0 := hs.low hst hr1'
    have hst'' : (x.step ncpus ⟨t, some i, d⟩).st.master.state = .idle := by
      rw [show (x.step ncpus ⟨t, some i, d⟩).st.master.state = _ from hst', hreq]
      rfl
    have hhand : (x.step ncpus ⟨t, some i, d⟩).handshakes = x.handshakes :=
      handshakes_same (Or.inr h0)
    have hinc : x.st.master.doInc = false := by
      by_contra hc
      exact hr1 (hs.inc (by simpa using hc)).2.1
    have hlow : dmiReq (x.step ncpus ⟨t, some i, d⟩).st = false := h0
    refine ⟨?_, ?_, ?_, ?_, ?_, hcount, ?_⟩
    · intro _ _
      rw [hhand, haccs, ← h1, regsDue_of_not_inc hinc]
      exact ⟨regs_sys_same hinc (Or.inl hr1'), h2⟩
    · exact fun _ hc => absurd (hlow.symm.trans hc) (by simp)
    · exact fun _ hc => absurd (hlow.symm.trans hc) (by simp)
    · exact fun hc => absurd (hst''.symm.trans hc) (by simp)
    · exact fun hc => absurd (hst''.symm.trans hc) (by simp)
    · exact fun hc => absurd (hst''.symm.trans hc) (by simp)

theorem Books.step {e : Edge} (h : Books ncpus x) (hr : Ring ncpus x.st) (hs : Slaves ncpus x.st)
    (hl : Latched x) (hw : WbSlave x e) : Books ncpus (x.step ncpus e) := by
  rcases e with ⟨t, _ | i, d⟩
  · exact h.step_tck hr
  · rcases master_cases ncpus x.st t i d with ⟨hst, hr1, hd, hst', hstb', -⟩ | ⟨hst, hno, hst', -⟩ |
      ⟨hst, hack, hst', -, hinc'⟩ | ⟨hst, hack, hst', hstb', -⟩ | ⟨hst, hst', -, hinc'⟩
    · exact h.step_start hs hw hst hr1 hd hst' hstb'
    · exact h.step_rest hr hs hl hw hst hno hst'
    · exact h.step_ack hr hs hl hw hst hack hst' hinc'
    · exact h.step_cycle hr hs hl hst hack hst' hstb'
    · exact h.step_wait hr hs hw hst hst' hinc'

end

/-! ## The data of a read -/

section

variable {ncpus : Nat} {x : Sys} {e : Edge}

/-- The data of a read of the debug master that has been completed. -/
def Result (ncpus : Nat) (x : Sys) : Prop :=
  x.st.dtm.jtagReq = false → ∀ q l, x.accepted = q :: l → q.wr = false →
    slaveOf ncpus q.addr = .wb → x.sampled = readOf (refOf ncpus l) x.acks q

/-- Outside an access no edge brings an ack of the wishbone. -/
theorem Books.acks_same (h : Books ncpus x) (hw : WbSlave x e)
    (hs : x.st.master.state ≠ .wbCycle) : (x.step ncpus e).acks = x.acks := by
  rcases e with ⟨t, _ | i, d⟩
  · rfl
  · exact (h.silent hw hs).2

/-- What the debug master drives with its ack. -/
theorem Books.dout_of_ack (h : Books ncpus x) (hs : Slaves ncpus x.st) (hl : Latched x)
    (hr1 : dmiReq x.st = true) (ha : dmiAck ncpus x.st = true) {q : Req} {l : List Req}
    (hq : x.handshakes = q :: l) (hwr : q.wr = false) (hwb : slaveOf ncpus q.addr = .wb) :
    dmiWbDout x.st = readOf (refOf ncpus l) x.acks q := by
  have hshown := hl.shown q l (by rw [hl.accepted_eq (Or.inl hr1), hq])
  have hwb' : slaveOf ncpus (dmiAddr x.st) = .wb := by rw [← hshown.addr, hwb]
  unfold dmiWbDout readOf
  rw [← hshown.addr]
  by_cases hd : wbReg q.addr = dbgWbData
  · have hd' : DataOf ncpus x.st := ⟨hwb', by rw [← hshown.addr, hd]⟩
    have hwait : x.st.master.state = .dmiWait := by
      rcases dmiAck_iff.mp ha with ⟨-, -, hwait⟩ | ⟨c, hg, -⟩
      · exact hwait hd'
      · exact absurd (hwb'.symm.trans hg.1) (by simp)
    rw [h.latch hwait hr1 (by rw [← hshown.wr, hwr])]
    simp [hd, dbgWbData, dbgWbAddr]
  · have hnd : ¬DataOf ncpus x.st := fun hc => hd (by rw [hshown.addr]; exact hc.2)
    have hidle : x.st.master.state = .idle := by
      cases hst : x.st.master.state with
      | idle => rfl
      | wbCycle => exact absurd (hs.cycle hst).2 hnd
      | dmiWait => exact absurd (hs.wait hst hr1) hnd
    -- a read leaves the registers as they are
    have hsame : ∀ r : Ref, r.after ncpus q = r := by
      intro r
      simp [Ref.after, hwb, hd, hwr]
    have hregs : regs x.st = refOf ncpus l := by
      rw [← hsame (regs x.st), (h.plain hidle hr1 hnd q l hq).1]
      exact hsame _
    rw [← hregs, if_neg hd, if_neg hd]
    rfl

theorem Result.step (h : Result ncpus x) (hr : Ring ncpus x.st) (hs : Slaves ncpus x.st)
    (hl : Latched x) (hb : Books ncpus x) (hw : WbSlave x e) : Result ncpus (x.step ncpus e) := by
  intro hj' q l hq hwr hwb
  have hj'' : (Dmi.step ncpus x.st e).dtm.jtagReq = false := hj'
  rw [step_jtagReq] at hj''
  have hcycle : x.st.master.state = .wbCycle →
      x.st.dtm.jtagReq = true ∧ dmiAck ncpus x.st = false := by
    intro hst
    obtain ⟨hr1, hd⟩ := hs.cycle hst
    refine ⟨(hr.up_of_data hr1 hd (by rw [hst]; simp)).1, ?_⟩
    by_contra hc
    rcases dmiAck_iff.mp (by simpa using hc) with ⟨-, -, hwait⟩ | ⟨c, hg, -⟩
    · rw [hst] at hwait
      exact absurd (hwait hd) (by simp)
    · exact absurd (hd.1.symm.trans hg.1) (by simp)
  cases hc : completesAt x.st e with
  | true =>
      obtain ⟨-, hj, ha1⟩ := of_completesAt hc
      obtain ⟨-, hr1, hack, -⟩ := hr.high hj ha1
      have hno : acceptsAt x.st e = false := hr.not_accepts (Or.inl hr1)
      have hacc : (x.step ncpus e).accepted = x.accepted := by simp [Sys.step, hno]
      rw [hacc, hl.accepted_eq (Or.inl hr1)] at hq
      have hshown := hl.shown q l (by rw [hl.accepted_eq (Or.inl hr1), hq])
      have hacks : (x.step ncpus e).acks = x.acks := by
        refine hb.acks_same hw fun hst => ?_
        rw [(hcycle hst).2] at hack
        cases hack
      have hwb' : slaveOf ncpus (dmiAddr x.st) = .wb := by rw [← hshown.addr, hwb]
      rw [hacks, ← hb.dout_of_ack hs hl hr1 hack hq hwr hwb]
      simp [Sys.step, hc, dmiDin, hwb']
  | false =>
      cases ha : acceptsAt x.st e with
      | true =>
          rw [hc, ha] at hj''
          cases hj''
      | false =>
          rw [hc, ha] at hj''
          have hj : x.st.dtm.jtagReq = false := by simpa using hj''
          have hacc : (x.step ncpus e).accepted = x.accepted := by simp [Sys.step, ha]
          have hsam : (x.step ncpus e).sampled = x.sampled := by simp [Sys.step, hc]
          have hacks : (x.step ncpus e).acks = x.acks := by
            refine hb.acks_same hw fun hst => ?_
            rw [(hcycle hst).1] at hj
            cases hj
          rw [hacc] at hq
          rw [hacks, hsam]
          exact h hj q l hq hwr hwb

/-! ## All together -/

structure Sound (ncpus : Nat) (x : Sys) : Prop where
  ring : Ring ncpus x.st
  slaves : Slaves ncpus x.st
  latched : Latched x
  books : Books ncpus x
  result : Result ncpus x

theorem Sound.step (h : Sound ncpus x) (hw : WbSlave x e) : Sound ncpus (x.step ncpus e) :=
  ⟨h.ring.step h.slaves, h.slaves.step h.ring, h.latched.step h.ring,
    h.books.step h.ring h.slaves h.latched hw,
    h.result.step h.ring h.slaves h.latched h.books hw⟩

theorem sound_start {s : State} (h : s.Reset) : Sound ncpus (Sys.start s) := by
  have hr1 : dmiReq s = false := h.jtagReq1
  have hack : dmiAck ncpus s = false := by
    by_contra hc
    rcases dmiAck_iff.mp (by simpa using hc) with ⟨hr, -⟩ | ⟨c, -, hk⟩
    · rw [hr1] at hr
      cases hr
    · rw [h.gsprAck c] at hk
      cases hk
  refine ⟨?_, ?_, ?_, ?_, ?_⟩
  · show Wave s.dtm.jtagReq s.dtm.jtagReq0 (dmiReq s) (dmiAck ncpus s) s.dtm.dmiAck0 s.dtm.dmiAck1
    rw [h.jtagReq, h.jtagReq0, hr1, hack, h.dmiAck0, h.dmiAck1]
    exact ⟨nofun, fun _ => ⟨id, id, id, id⟩⟩
  · constructor <;> simp [Sys.start, h.gsprReq, h.gsprAck, h.state, h.stb, h.doInc]
  · constructor <;> simp [Sys.start, h.jtagReq, hr1]
  · constructor <;>
      simp [Sys.start, h.state, hr1, regs, h.regAddr, h.regCtrl, refOf, accessesOf]
  · intro _ q l hq
    cases hq

end

end Microwatt.Dmi
