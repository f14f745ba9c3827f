import Microwatt.Dmi.Step
import Microwatt.Lib.Fair

/-!
# The handshake of the debug bus

A request goes around a ring: `jtag_req`, the two flip-flops into the system clock, the ack of the
slave, the two flip-flops back, and `jtag_req` again.  Each signal follows the one before it, so
that at most one edge is on its way around at any time.  Beside the registers stand the requests
that were latched, those that a slave has seen, and the accesses of the debug master, the newest
first.
-/

namespace Microwatt.Dmi

open Clocked

/-! ## The ring -/

/-- The signals of the ring change one after the other. -/
structure Wave (jtagReq req0 req1 ack ack0 ack1 : Bool) : Prop where
  up : jtagReq = true → (req1 = true → req0 = true) ∧ (ack = true → req1 = true) ∧
    (ack0 = true → ack = true) ∧ (ack1 = true → ack0 = true)
  down : jtagReq = false → (req0 = true → req1 = true) ∧ (req1 = true → ack = true) ∧
    (ack = true → ack0 = true) ∧ (ack0 = true → ack1 = true)

section

variable {jr r0 r1 a a0 a1 jr' a' : Bool}

/-- A new request starts with all signals low. -/
theorem Wave.low (h : Wave jr r0 r1 a a0 a1) (hj : jr = false) (ha : a1 = false) :
    r0 = false ∧ r1 = false ∧ a = false ∧ a0 = false := by
  obtain ⟨h1, h2, h3, h4⟩ := h.down hj
  subst ha
  cases a0 with
  | true => simp at h4
  | false =>
      cases a with
      | true => simp at h3
      | false =>
          cases r1 with
          | true => simp at h2
          | false =>
              cases r0 with
              | true => simp at h1
              | false => exact ⟨rfl, rfl, rfl, rfl⟩

/-- A request is completed with all signals high. -/
theorem Wave.high (h : Wave jr r0 r1 a a0 a1) (hj : jr = true) (ha : a1 = true) :
    r0 = true ∧ r1 = true ∧ a = true ∧ a0 = true := by
  obtain ⟨h1, h2, h3, h4⟩ := h.up hj
  have ha0 := h4 ha
  have hack := h3 ha0
  have hr1 := h2 hack
  exact ⟨h1 hr1, hr1, hack, ha0⟩

/-- The ring while no request starts and none is completed. -/
theorem Wave.step_same (h : Wave jr r0 r1 a a0 a1) (tck sys : Bool)
    (hstay : a = true → (if sys then r0 else r1) = true → a' = true)
    (hup : jr = true → a' = true → (if sys then r0 else r1) = true)
    (hdown : jr = false → a' = true → a = true) :
    Wave jr (if sys then jr else r0) (if sys then r0 else r1) a' (if tck then a else a0)
      (if tck then a0 else a1) := by
  constructor
  · intro hj
    obtain ⟨h1, h2, h3, h4⟩ := h.up hj
    have hmono : r1 = true → (if sys then r0 else r1) = true := by
      intro hr
      split_ifs
      · exact h1 hr
      · exact hr
    refine ⟨?_, hup hj, ?_, ?_⟩
    · intro hr
      split_ifs at hr ⊢
      · exact hj
      · exact h1 hr
    · intro ha0
      have hack : a = true := by
        split_ifs at ha0
        · exact ha0
        · exact h3 ha0
      exact hstay hack (hmono (h2 hack))
    · intro ha1
      split_ifs at ha1 ⊢
      · exact h3 ha1
      · exact h4 ha1
  · intro hj
    obtain ⟨h1, h2, h3, h4⟩ := h.down hj
    refine ⟨?_, ?_, ?_, ?_⟩
    · intro hr
      split_ifs at hr ⊢
      · rw [hj] at hr
        cases hr
      · exact h1 hr
    · intro hr
      have hr1 : r1 = true := by
        split_ifs at hr
        · exact h1 hr
        · exact hr
      exact hstay (h2 hr1) hr
    · intro ha'
      have hack := hdown hj ha'
      split_ifs
      · exact hack
      · exact h3 hack
    · intro ha0
      split_ifs at ha0 ⊢
      · exact h3 ha0
      · exact h4 ha0

/-- A request starts. -/
theorem Wave.step_start (h : Wave false r0 r1 a a0 false) (sys : Bool)
    (hdown : a' = true → a = true) :
    Wave true (if sys then false else r0) (if sys then r0 else r1) a' a a0 := by
  obtain ⟨rfl, rfl, rfl, rfl⟩ := h.low rfl rfl
  refine ⟨fun _ => ⟨?_, ?_, ?_, ?_⟩, nofun⟩
  · simp
  · intro ha'
    have := hdown ha'
    cases this
  · simp
  · simp

/-- A request is completed. -/
theorem Wave.step_complete (h : Wave true r0 r1 a a0 true) (sys : Bool)
    (hstay : a = true → (if sys then r0 else r1) = true → a' = true) :
    Wave false (if sys then true else r0) (if sys then r0 else r1) a' a a0 := by
  obtain ⟨rfl, rfl, rfl, rfl⟩ := h.high rfl rfl
  have ha' : a' = true := hstay rfl (by simp)
  refine ⟨nofun, fun _ => ⟨?_, ?_, ?_, ?_⟩⟩
  · simp
  · exact fun _ => ha'
  · simp
  · simp

/-- Edges of either clock, or of both. -/
theorem Wave.step (h : Wave jr r0 r1 a a0 a1) (tck sys : Bool)
    (hjr : jr' = jr ∨ (tck = true ∧ jr = a1 ∧ jr' = !jr))
    (hstay : a = true → (if sys then r0 else r1) = true → a' = true)
    (hup : jr = true → a' = true → (if sys then r0 else r1) = true)
    (hdown : jr = false → a' = true → a = true) :
    Wave jr' (if sys then jr else r0) (if sys then r0 else r1) a' (if tck then a else a0)
      (if tck then a0 else a1) := by
  rcases hjr with rfl | ⟨rfl, rfl, rfl⟩
  · exact h.step_same tck sys hstay hup hdown
  · cases jr with
    | false => exact h.step_start sys (hdown rfl)
    | true => exact h.step_complete sys hstay

end

/-! ## Requests and accesses -/

/-- A request, as the slaves see it. -/
structure Req where
  addr : BitVec 8
  data : Dword
  wr : Bool
deriving DecidableEq

def reqOf (w : Word) : Req :=
  ⟨addrOf w, dataOf w, opOf w == dmiReqWr⟩

/-- The address and control registers. -/
structure Ref where
  addr : Dword
  ctrl : BitVec 11
deriving DecidableEq

section

variable (ncpus : Nat)

/-- The request is for the DATA register of the debug master. -/
def Req.isData (q : Req) : Bool :=
  slaveOf ncpus q.addr == .wb && wbReg q.addr == dbgWbData

/-- The registers after a request: writes are done, and an access to DATA moves the address on. -/
def Ref.after (r : Ref) (q : Req) : Ref :=
  if slaveOf ncpus q.addr = .wb then
    if wbReg q.addr = dbgWbData then
      { r with
        addr := r.addr + if r.ctrl.getLsbD 8 then decodeAutoinc (r.ctrl.extractLsb' 9 2) else 0 }
    else if q.wr && wbReg q.addr == dbgWbAddr then { r with addr := q.data }
    else if q.wr && wbReg q.addr == dbgWbCtrl then { r with ctrl := q.data.extractLsb' 0 11 }
    else r
  else r

/-- The registers after a sequence of requests, the newest first. -/
def refOf : List Req → Ref
  | [] => ⟨0, 0⟩
  | q :: l => (refOf l).after ncpus q

/-- The wishbone access for a request to DATA, at the address that is current then. -/
def Ref.access (r : Ref) (q : Req) : WishboneMasterOut :=
  ⟨r.addr.extractLsb' 3 29, q.data, r.ctrl.extractLsb' 0 8, true, true, q.wr⟩

/-- The wishbone accesses for a sequence of requests: one for each request to DATA. -/
def accessesOf : List Req → List WishboneMasterOut
  | [] => []
  | q :: l => if q.isData ncpus then (refOf ncpus l).access q :: accessesOf l else accessesOf l

/-! ## The system -/

structure Sys where
  st : State
  accepted : List Req
  handshakes : List Req
  accesses : List WishboneMasterOut
  acks : List Dword
  sampled : Dword

/-- A request is latched. -/
def acceptsAt (s : State) (e : Edge) : Bool :=
  e.tck.any (accepts s)

/-- A request is completed. -/
def completesAt (s : State) (e : Edge) : Bool :=
  e.tck.any (completes s)

/-- `dmi_req` goes up. -/
def risesAt (s : State) (e : Edge) : Bool :=
  e.sys.isSome && s.dtm.jtagReq0 && !s.dtm.jtagReq1

/-- The slave of the wishbone takes an access. -/
def takesAt (s : State) (e : Edge) : Bool :=
  e.sys.any fun i => (wbOut s).cyc && (wbOut s).stb && !i.wbIn.stall

/-- The data with an ack of the wishbone. -/
def ackAt (e : Edge) : Option Dword :=
  e.sys.bind fun i => if i.wbIn.ack then some i.wbIn.dat else none

def Sys.step (x : Sys) (e : Edge) : Sys where
  st := Dmi.step ncpus x.st e
  accepted := if acceptsAt x.st e then reqOf x.st.dtm.shiftr :: x.accepted else x.accepted
  handshakes := if risesAt x.st e then reqOf x.st.dtm.request :: x.handshakes else x.handshakes
  accesses := if takesAt x.st e then wbOut x.st :: x.accesses else x.accesses
  acks := (ackAt e).toList ++ x.acks
  sampled := if completesAt x.st e then dmiDin ncpus x.st e.coreDout else x.sampled

/-- The slave of the wishbone acks accesses that it has taken, each once. -/
def WbSlave (x : Sys) (e : Edge) : Prop :=
  (ackAt e).isSome = true → x.acks.length < x.accesses.length ∨ takesAt x.st e = true

/-- After reset. -/
structure State.Reset (s : State) : Prop where
  jtagReq : s.dtm.jtagReq = false
  dmiAck0 : s.dtm.dmiAck0 = false
  dmiAck1 : s.dtm.dmiAck1 = false
  jtagReq0 : s.dtm.jtagReq0 = false
  jtagReq1 : s.dtm.jtagReq1 = false
  state : s.master.state = .idle
  doInc : s.master.doInc = false
  stb : s.master.stb = false
  regAddr : s.master.regAddr = 0
  regCtrl : s.master.regCtrl = 0
  gsprReq : ∀ c, s.gsprReq c = false
  gsprAck : ∀ c, s.gsprAck c = false

def Sys.start (s : State) : Sys :=
  ⟨s, [], [], [], [], 0⟩

end

/-! ## One edge of the ring -/

section

variable {ncpus : Nat} {s : State} {e : Edge}

theorem step_jtagReq0 : (step ncpus s e).dtm.jtagReq0 =
    if e.sys.isSome then s.dtm.jtagReq else s.dtm.jtagReq0 := by
  rcases e with ⟨_ | j, _ | i, c⟩ <;> rfl

theorem step_jtagReq1 : (step ncpus s e).dtm.jtagReq1 =
    if e.sys.isSome then s.dtm.jtagReq0 else s.dtm.jtagReq1 := by
  rcases e with ⟨_ | j, _ | i, c⟩ <;> rfl

theorem step_dmiAck0 : (step ncpus s e).dtm.dmiAck0 =
    if e.tck.isSome then dmiAck ncpus s else s.dtm.dmiAck0 := by
  rcases e with ⟨_ | j, _ | i, c⟩ <;> rfl

theorem step_dmiAck1 : (step ncpus s e).dtm.dmiAck1 =
    if e.tck.isSome then s.dtm.dmiAck0 else s.dtm.dmiAck1 := by
  rcases e with ⟨_ | j, _ | i, c⟩ <;> rfl

theorem step_jtagReq : (step ncpus s e).dtm.jtagReq =
    if completesAt s e then false else if acceptsAt s e then true else s.dtm.jtagReq := by
  rcases e with ⟨_ | j, _ | i, c⟩ <;> rfl

theorem step_request : (step ncpus s e).dtm.request =
    if completesAt s e && opOf s.dtm.request == dmiReqRd then
      pack (addrOf s.dtm.request) (dmiDin ncpus s e.coreDout) (opOf s.dtm.request)
    else if acceptsAt s e then s.dtm.shiftr else s.dtm.request := by
  rcases e with ⟨_ | j, _ | i, c⟩ <;> rfl

theorem dmiReq_step : dmiReq (step ncpus s e) =
    if e.sys.isSome then s.dtm.jtagReq0 else dmiReq s :=
  step_jtagReq1

theorem dmiReq_sys (t : Option Jtag) (i : SysIn) (d : Nat → Dword) :
    dmiReq (step ncpus s ⟨t, some i, d⟩) = s.dtm.jtagReq0 :=
  rfl

theorem dmiReq_tck (t : Option Jtag) (d : Nat → Dword) :
    dmiReq (step ncpus s ⟨t, none, d⟩) = dmiReq s := by
  cases t <;> rfl

theorem jtagReq0_sys (t : Option Jtag) (i : SysIn) (d : Nat → Dword) :
    (step ncpus s ⟨t, some i, d⟩).dtm.jtagReq0 = s.dtm.jtagReq :=
  rfl

theorem jtagReq0_tck (t : Option Jtag) (d : Nat → Dword) :
    (step ncpus s ⟨t, none, d⟩).dtm.jtagReq0 = s.dtm.jtagReq0 := by
  cases t <;> rfl

theorem of_acceptsAt (h : acceptsAt s e = true) : e.tck.isSome = true ∧ s.dtm.jtagReq = false ∧
    s.dtm.dmiAck1 = false ∧ opValid s = true := by
  rcases e with ⟨_ | j, i, c⟩
  · cases h
  · simp only [acceptsAt, Option.any_some, accepts, jtagBsy, Bool.and_eq_true, Bool.not_eq_true',
      Bool.or_eq_false_iff] at h
    exact ⟨rfl, h.2.1, h.2.2, h.1.2⟩

theorem of_completesAt (h : completesAt s e = true) : e.tck.isSome = true ∧ s.dtm.jtagReq = true ∧
    s.dtm.dmiAck1 = true := by
  rcases e with ⟨_ | j, i, c⟩
  · cases h
  · simp only [completesAt, Option.any_some, completes, Bool.and_eq_true] at h
    exact ⟨rfl, h.1.2, h.2⟩

/-- `jtag_req` turns around when it has come around. -/
theorem jtagReq_step_cases : (step ncpus s e).dtm.jtagReq = s.dtm.jtagReq ∨
    (e.tck.isSome = true ∧ s.dtm.jtagReq = s.dtm.dmiAck1 ∧
      (step ncpus s e).dtm.jtagReq = !s.dtm.jtagReq) := by
  rw [step_jtagReq]
  split_ifs with hc ha
  · obtain ⟨ht, hj, ha1⟩ := of_completesAt hc
    exact Or.inr ⟨ht, by rw [hj, ha1], by rw [hj]; rfl⟩
  · obtain ⟨ht, hj, ha1, -⟩ := of_acceptsAt ha
    exact Or.inr ⟨ht, by rw [hj, ha1], by rw [hj]; rfl⟩
  · exact Or.inl rfl

/-- The address and the direction change with a new request only. -/
theorem lines_step (ncpus : Nat) (h : acceptsAt s e = false) :
    dmiAddr (step ncpus s e) = dmiAddr s ∧
    opOf (step ncpus s e).dtm.request = opOf s.dtm.request := by
  unfold dmiAddr
  rw [step_request, h]
  simp only [Bool.false_eq_true, if_false]
  split_ifs with hc
  · simp
  · exact ⟨rfl, rfl⟩

theorem dmiWr_step (ncpus : Nat) (h : acceptsAt s e = false) :
    dmiWr (step ncpus s e) = dmiWr s := by
  unfold dmiWr
  rw [(lines_step ncpus h).2]

/-- The data changes also when a read is completed. -/
theorem dmiDout_step (ncpus : Nat) (h : acceptsAt s e = false) : dmiDout (step ncpus s e) =
    if completesAt s e && opOf s.dtm.request == dmiReqRd then dmiDin ncpus s e.coreDout
    else dmiDout s := by
  unfold dmiDout
  rw [step_request, h]
  simp only [Bool.false_eq_true, if_false]
  split_ifs with hc
  · simp
  · rfl

/-! ## The slaves -/

/-- The request is for GSPR_DATA of core `c`. -/
def GsprOf (ncpus : Nat) (s : State) (c : Nat) : Prop :=
  slaveOf ncpus (dmiAddr s) = .core c ∧ (dmiAddr s).extractLsb' 0 4 = dbgCoreGsprData

/-- The request is for the DATA register of the debug master. -/
def DataOf (ncpus : Nat) (s : State) : Prop :=
  slaveOf ncpus (dmiAddr s) = .wb ∧ wbReg (dmiAddr s) = dbgWbData

/-- The registers of the slaves that take part in the handshake. -/
structure Slaves (ncpus : Nat) (s : State) : Prop where
  core : ∀ c, s.gsprReq c = true ∨ s.gsprAck c = true → GsprOf ncpus s c
  held : ∀ c, s.gsprReq c = true → dmiReq s = false → s.gsprAck c = true
  gone : ∀ c, s.gsprReq c = true ∨ s.gsprAck c = true → dmiReq s = false → s.dtm.jtagReq = false
  keep : ∀ c, s.gsprAck c = true → dmiReq s = true → s.gsprReq c = true
  cycle : s.master.state = .wbCycle → dmiReq s = true ∧ DataOf ncpus s
  wait : s.master.state = .dmiWait → dmiReq s = true → DataOf ncpus s
  low : s.master.state = .dmiWait → dmiReq s = false → s.dtm.jtagReq0 = false
  stb : s.master.stb = true → s.master.state = .wbCycle
  inc : s.master.doInc = true → s.master.state = .dmiWait ∧ dmiReq s = true ∧ s.dtm.jtagReq0 = true

/-- The ring of the state. -/
def Ring (ncpus : Nat) (s : State) : Prop :=
  Wave s.dtm.jtagReq s.dtm.jtagReq0 (dmiReq s) (dmiAck ncpus s) s.dtm.dmiAck0 s.dtm.dmiAck1

/-- Who acks, and why. -/
theorem dmiAck_iff : dmiAck ncpus s = true ↔
    (dmiReq s = true ∧ ¬(∃ c, GsprOf ncpus s c) ∧ (DataOf ncpus s → s.master.state = .dmiWait)) ∨
    ∃ c, GsprOf ncpus s c ∧ s.gsprAck c = true := by
  unfold dmiAck GsprOf DataOf
  cases hs : slaveOf ncpus (dmiAddr s) with
  | wb =>
      by_cases hd : wbReg (dmiAddr s) = dbgWbData <;>
        by_cases hw : s.master.state = .dmiWait <;> simp [dmiWbAck, dmiWbReq, hs, hd, hw]
  | core c =>
      by_cases hg : (dmiAddr s).extractLsb' 0 4 = dbgCoreGsprData <;> simp [hg]
  | none => simp

/-- With the ring low, no core has a request or an ack. -/
theorem Slaves.quiet (h : Slaves ncpus s) (hr : dmiReq s = false) (ha : dmiAck ncpus s = false)
    (c : Nat) : s.gsprReq c = false ∧ s.gsprAck c = false := by
  have hack : s.gsprAck c = false := by
    by_contra hc
    have hc' : s.gsprAck c = true := by simpa using hc
    have := dmiAck_iff.mpr (Or.inr ⟨c, h.core c (Or.inr hc'), hc'⟩)
    rw [ha] at this
    cases this
  refine ⟨?_, hack⟩
  by_contra hc
  rw [h.held c (by simpa using hc) hr] at hack
  cases hack

end

/-! ## The ring and the slaves after an edge -/

section

variable {ncpus : Nat} {s : State} {e : Edge}

/-- While a slave is asked, or drives an ack, no request is latched. -/
theorem Ring.not_accepts (h : Ring ncpus s) (hr : dmiReq s = true ∨ dmiAck ncpus s = true) :
    acceptsAt s e = false := by
  by_contra hc
  obtain ⟨-, hj, ha, -⟩ := of_acceptsAt (by simpa using hc)
  obtain ⟨-, h1, h2, -⟩ := h.low hj ha
  rcases hr with hr | hr
  · rw [h1] at hr
    cases hr
  · rw [h2] at hr
    cases hr

/-- A request that a slave has not acked is not completed yet. -/
theorem Ring.jtagReq_of_not_ack (h : Ring ncpus s) (hr : dmiReq s = true)
    (ha : dmiAck ncpus s = false) :
    s.dtm.jtagReq = true := by
  by_contra hj
  rw [(h.down (by simpa using hj)).2.1 hr] at ha
  cases ha

/-- A request that a slave sees, and that is about to go, has been completed. -/
theorem Ring.jtagReq_of_falling (h : Ring ncpus s) (hr : dmiReq s = true)
    (h0 : s.dtm.jtagReq0 = false) : s.dtm.jtagReq = false := by
  by_contra hj
  rw [(h.up (by simpa using hj)).1 hr] at h0
  cases h0

/-- A request that is about to reach the slaves has not been completed. -/
theorem Ring.jtagReq_of_rising (h : Ring ncpus s) (hr : dmiReq s = false)
    (h0 : s.dtm.jtagReq0 = true) : s.dtm.jtagReq = true := by
  by_contra hj
  rw [(h.down (by simpa using hj)).1 h0] at hr
  cases hr

theorem gspr_step (c : Nat) : (step ncpus s e).gsprAck c = true →
    (e.sys.isSome = false ∧ s.gsprAck c = true) ∨ (e.sys.isSome = true ∧ s.gsprReq c = true) := by
  rcases e with ⟨t, _ | i, d⟩
  · exact fun h => Or.inl ⟨rfl, h⟩
  · intro h
    refine Or.inr ⟨rfl, ?_⟩
    simp only [step, gsprAckEdge, Bool.and_eq_true] at h
    exact h.1

/-- An ack stays as long as its request. -/
theorem ack_stays (h : Ring ncpus s) (hs : Slaves ncpus s) (ha : dmiAck ncpus s = true)
    (hr' : dmiReq (step ncpus s e) = true) : dmiAck ncpus (step ncpus s e) = true := by
  have haddr : dmiAddr (step ncpus s e) = dmiAddr s :=
    (lines_step ncpus (h.not_accepts (Or.inr ha))).1
  rw [dmiAck_iff] at ha ⊢
  unfold GsprOf DataOf at *
  rw [haddr]
  rcases ha with ⟨hr, hg, hd⟩ | ⟨c, hg, hack⟩
  · refine Or.inl ⟨hr', hg, fun hdata => ?_⟩
    have hw := hd hdata
    rcases e with ⟨t, _ | i, d⟩
    · exact hw
    · simp [step, masterEdge, hw, dmiWbReq, hr, hdata.1]
  · refine Or.inr ⟨c, hg, ?_⟩
    have hr : dmiReq s = true := by
      by_contra hr
      have hr0 : s.dtm.jtagReq0 = true := by
        rw [dmiReq_step] at hr'
        split_ifs at hr'
        · exact hr'
        · exact absurd hr' hr
      have hup := h.jtagReq_of_rising (by simpa using hr) hr0
      rw [hs.gone c (Or.inr hack) (by simpa using hr)] at hup
      cases hup
    rcases e with ⟨t, _ | i, d⟩
    · exact hack
    · simp [step, gsprAckEdge, hack, hs.keep c hack hr]

/-- An ack comes only after its request. -/
theorem ack_follows (h : Ring ncpus s) (hs : Slaves ncpus s) (hj : s.dtm.jtagReq = true)
    (ha' : dmiAck ncpus (step ncpus s e) = true) : dmiReq (step ncpus s e) = true := by
  rcases dmiAck_iff.mp ha' with ⟨hr, -⟩ | ⟨c, -, hack⟩
  · exact hr
  · have hold : s.gsprReq c = true ∨ s.gsprAck c = true := by
      rcases gspr_step c hack with ⟨-, h⟩ | ⟨-, h⟩
      · exact Or.inr h
      · exact Or.inl h
    have hr : dmiReq s = true := by
      by_contra hr
      rw [hs.gone c hold (by simpa using hr)] at hj
      cases hj
    rw [dmiReq_step]
    split_ifs
    · exact (h.up hj).1 hr
    · exact hr

/-- No ack comes after its request has been completed. -/
theorem ack_goes (h : Ring ncpus s) (hs : Slaves ncpus s) (hj : s.dtm.jtagReq = false)
    (ha' : dmiAck ncpus (step ncpus s e) = true) : dmiAck ncpus s = true := by
  rcases dmiAck_iff.mp ha' with ⟨hr, -⟩ | ⟨c, -, hack⟩
  · have hr1 : dmiReq s = true := by
      rw [dmiReq_step] at hr
      split_ifs at hr
      · exact (h.down hj).1 hr
      · exact hr
    exact (h.down hj).2.1 hr1
  · by_contra hno
    have hno' : dmiAck ncpus s = false := by simpa using hno
    have hr : dmiReq s = false := by
      by_contra hr
      exact hno ((h.down hj).2.1 (by simpa using hr))
    obtain ⟨hq, hk⟩ := hs.quiet hr hno' c
    rcases gspr_step c hack with ⟨-, h⟩ | ⟨-, h⟩
    · rw [hk] at h
      cases h
    · rw [hq] at h
      cases h

theorem Ring.step (h : Ring ncpus s) (hs : Slaves ncpus s) : Ring ncpus (Dmi.step ncpus s e) := by
  have hreq : (if e.sys.isSome then s.dtm.jtagReq0 else dmiReq s) = dmiReq (Dmi.step ncpus s e) :=
    dmiReq_step.symm
  unfold Ring
  rw [step_jtagReq0, step_dmiAck0, step_dmiAck1, ← hreq]
  refine Wave.step h e.tck.isSome e.sys.isSome jtagReq_step_cases ?_ ?_ ?_
  · intro ha hr
    exact ack_stays h hs ha (hreq ▸ hr)
  · intro hj ha
    rw [hreq]
    exact ack_follows h hs hj ha
  · intro hj ha
    exact ack_goes h hs hj ha

end

/-! ## The slaves after an edge -/

section

variable {ncpus : Nat} {s : State} {e : Edge}

/-- The request of a core, one edge later. -/
theorem gsprReq_step (c : Nat) : (step ncpus s e).gsprReq c = true →
    (e.sys.isSome = false ∧ s.gsprReq c = true) ∨
    (e.sys.isSome = true ∧ dmiReq s = true ∧ GsprOf ncpus s c) := by
  rcases e with ⟨t, _ | i, d⟩
  · exact fun h => Or.inl ⟨rfl, h⟩
  · intro h
    simp only [step, coreGsprReq, Bool.and_eq_true, beq_iff_eq] at h
    exact Or.inr ⟨rfl, h.1.1, h.1.2, h.2⟩

/-- A core that is active after an edge was asked or active before it. -/
theorem active_before (c : Nat)
    (h : (step ncpus s e).gsprReq c = true ∨ (step ncpus s e).gsprAck c = true) :
    (s.gsprReq c = true ∨ s.gsprAck c = true) ∨
      (e.sys.isSome = true ∧ dmiReq s = true ∧ GsprOf ncpus s c) := by
  rcases h with h | h
  · rcases gsprReq_step c h with ⟨-, h⟩ | h
    · exact Or.inl (Or.inl h)
    · exact Or.inr h
  · rcases gspr_step c h with ⟨-, h⟩ | ⟨-, h⟩
    · exact Or.inl (Or.inr h)
    · exact Or.inl (Or.inl h)

/-- No request is latched while a core is active. -/
theorem Slaves.not_accepts (hs : Slaves ncpus s) (h : Ring ncpus s) {c : Nat}
    (hc : s.gsprReq c = true ∨ s.gsprAck c = true) : acceptsAt s e = false := by
  by_cases hr : dmiReq s = true
  · exact h.not_accepts (Or.inl hr)
  · refine h.not_accepts (Or.inr ?_)
    by_contra ha
    obtain ⟨h1, h2⟩ := hs.quiet (by simpa using hr) (by simpa using ha) c
    rcases hc with hc | hc
    · rw [h1] at hc
      cases hc
    · rw [h2] at hc
      cases hc

theorem Slaves.core_step (hs : Slaves ncpus s) (h : Ring ncpus s) (c : Nat)
    (hc : (step ncpus s e).gsprReq c = true ∨ (step ncpus s e).gsprAck c = true) :
    GsprOf ncpus (step ncpus s e) c := by
  unfold GsprOf
  rcases active_before c hc with hold | ⟨-, hr, hg⟩
  · have haddr : dmiAddr (step ncpus s e) = dmiAddr s :=
      (lines_step ncpus (hs.not_accepts h hold)).1
    rw [haddr]
    exact hs.core c hold
  · have haddr : dmiAddr (step ncpus s e) = dmiAddr s :=
      (lines_step ncpus (h.not_accepts (Or.inl hr))).1
    rw [haddr]
    exact hg

theorem Slaves.held_step (hs : Slaves ncpus s) (h : Ring ncpus s) (c : Nat)
    (hc : (step ncpus s e).gsprReq c = true) (hr' : dmiReq (step ncpus s e) = false) :
    (step ncpus s e).gsprAck c = true := by
  rcases gsprReq_step c hc with ⟨hsys, hold⟩ | ⟨hsys, hr, hg⟩
  · rcases e with ⟨t, _ | i, d⟩
    · rw [dmiReq_tck] at hr'
      exact hs.held c hold hr'
    · cases hsys
  · rw [dmiReq_step, if_pos hsys] at hr'
    -- the request has been acked, and is about to go
    have hack : dmiAck ncpus s = true := (h.down (h.jtagReq_of_falling hr hr')).2.1 hr
    have hk : s.gsprAck c = true := by
      rcases dmiAck_iff.mp hack with ⟨-, hno, -⟩ | ⟨c', hg', hk⟩
      · exact absurd ⟨c, hg⟩ hno
      · have : c' = c := by
          have := hg'.1.symm.trans hg.1
          simpa using this
        rwa [this] at hk
    rcases e with ⟨t, _ | i, d⟩
    · cases hsys
    · simp [step, gsprAckEdge, hk, hs.keep c hk hr]

theorem Slaves.gone_step (hs : Slaves ncpus s) (h : Ring ncpus s) (c : Nat)
    (hc : (step ncpus s e).gsprReq c = true ∨ (step ncpus s e).gsprAck c = true)
    (hr' : dmiReq (step ncpus s e) = false) : (step ncpus s e).dtm.jtagReq = false := by
  have hnoacc : acceptsAt s e = false := by
    rcases active_before c hc with hold | ⟨-, hr, -⟩
    · exact hs.not_accepts h hold
    · exact h.not_accepts (Or.inl hr)
  have hj : s.dtm.jtagReq = false := by
    by_cases hr : dmiReq s = true
    · rw [dmiReq_step] at hr'
      split_ifs at hr'
      · exact h.jtagReq_of_falling hr hr'
      · rw [hr] at hr'
        cases hr'
    · rcases active_before c hc with hold | ⟨-, hr1, -⟩
      · exact hs.gone c hold (by simpa using hr)
      · exact absurd hr1 hr
  rw [step_jtagReq, hnoacc]
  simp [hj]

theorem Slaves.keep_step (hs : Slaves ncpus s) (h : Ring ncpus s) (c : Nat)
    (hc : (step ncpus s e).gsprAck c = true) (hr' : dmiReq (step ncpus s e) = true) :
    (step ncpus s e).gsprReq c = true := by
  rcases gspr_step c hc with ⟨hsys, hold⟩ | ⟨hsys, hq⟩
  · rcases e with ⟨t, _ | i, d⟩
    · rw [dmiReq_tck] at hr'
      exact hs.keep c hold hr'
    · cases hsys
  · rw [dmiReq_step, if_pos hsys] at hr'
    have hr : dmiReq s = true := by
      by_contra hr
      have hup := h.jtagReq_of_rising (by simpa using hr) hr'
      rw [hs.gone c (Or.inl hq) (by simpa using hr)] at hup
      cases hup
    have hg := hs.core c (Or.inl hq)
    rcases e with ⟨t, _ | i, d⟩
    · cases hsys
    · simp [step, coreGsprReq, hr, hg.1, hg.2]

/-- A request to DATA stays up until the debug master waits for it to go. -/
theorem Ring.up_of_data (h : Ring ncpus s) (hr : dmiReq s = true) (hd : DataOf ncpus s)
    (hw : s.master.state ≠ .dmiWait) : s.dtm.jtagReq = true ∧ s.dtm.jtagReq0 = true := by
  have hack : dmiAck ncpus s = false := by
    by_contra hc
    rcases dmiAck_iff.mp (by simpa using hc) with ⟨-, -, hwait⟩ | ⟨c, hg, -⟩
    · exact hw (hwait hd)
    · exact absurd (hd.1.symm.trans hg.1) (by simp)
  have hj := h.jtagReq_of_not_ack hr hack
  exact ⟨hj, (h.up hj).1 hr⟩

/-- The state of the debug master after an edge of the system clock. -/
theorem master_cases (ncpus : Nat) (s : State) (t : Option Jtag) (i : SysIn) (d : Nat → Dword) :
    (s.master.state = .idle ∧ dmiReq s = true ∧ DataOf ncpus s ∧
      (step ncpus s ⟨t, some i, d⟩).master.state = .wbCycle ∧
      (step ncpus s ⟨t, some i, d⟩).master.stb = true ∧
      (step ncpus s ⟨t, some i, d⟩).master.doInc = s.master.doInc) ∨
    (s.master.state = .idle ∧ ¬(dmiReq s = true ∧ DataOf ncpus s) ∧
      (step ncpus s ⟨t, some i, d⟩).master.state = .idle ∧
      (step ncpus s ⟨t, some i, d⟩).master.stb = s.master.stb ∧
      (step ncpus s ⟨t, some i, d⟩).master.doInc = s.master.doInc) ∨
    (s.master.state = .wbCycle ∧ i.wbIn.ack = true ∧
      (step ncpus s ⟨t, some i, d⟩).master.state = .dmiWait ∧
      (step ncpus s ⟨t, some i, d⟩).master.stb = false ∧
      (step ncpus s ⟨t, some i, d⟩).master.doInc = s.master.regCtrl.getLsbD 8) ∨
    (s.master.state = .wbCycle ∧ i.wbIn.ack = false ∧
      (step ncpus s ⟨t, some i, d⟩).master.state = .wbCycle ∧
      (step ncpus s ⟨t, some i, d⟩).master.stb = (i.wbIn.stall && s.master.stb) ∧
      (step ncpus s ⟨t, some i, d⟩).master.doInc = s.master.doInc) ∨
    (s.master.state = .dmiWait ∧
      (step ncpus s ⟨t, some i, d⟩).master.state =
        (if dmiWbReq ncpus s then .dmiWait else .idle) ∧
      (step ncpus s ⟨t, some i, d⟩).master.stb = s.master.stb ∧
      (step ncpus s ⟨t, some i, d⟩).master.doInc = false) := by
  simp only [step, masterEdge]
  cases hst : s.master.state with
  | idle =>
      by_cases hd : dmiReq s = true ∧ DataOf ncpus s
      · have hq : (dmiWbReq ncpus s && wbReg (dmiAddr s) == dbgWbData) = true := by
          simp [dmiWbReq, hd.1, hd.2.1, hd.2.2]
        simp [hq, hd]
      · have hq : (dmiWbReq ncpus s && wbReg (dmiAddr s) == dbgWbData) = false := by
          by_contra hc
          simp only [Bool.not_eq_false, dmiWbReq, Bool.and_eq_true, beq_iff_eq] at hc
          exact hd ⟨hc.1.1, hc.1.2, hc.2⟩
        simp [hq, hd]
  | wbCycle =>
      cases hack : i.wbIn.ack with
      | true => simp
      | false => cases i.wbIn.stall <;> simp
  | dmiWait => cases dmiWbReq ncpus s <;> simp

theorem Slaves.step (hs : Slaves ncpus s) (h : Ring ncpus s) :
    Slaves ncpus (Dmi.step ncpus s e) := by
  have hsame : dmiReq s = true → ∀ e, dmiAddr (Dmi.step ncpus s e) = dmiAddr s :=
    fun hr e => (lines_step ncpus (h.not_accepts (Or.inl hr))).1
  refine ⟨hs.core_step h, hs.held_step h, hs.gone_step h, hs.keep_step h, ?_, ?_, ?_, ?_, ?_⟩
  all_goals rcases e with ⟨t, _ | i, d⟩
  -- the state of an access
  · intro hw
    obtain ⟨hr, hd⟩ := hs.cycle hw
    unfold DataOf
    rw [dmiReq_tck, hsame hr]
    exact ⟨hr, hd⟩
  · intro hw
    unfold DataOf
    rw [dmiReq_sys]
    rcases master_cases ncpus s t i d with ⟨hst, hr, hd, -⟩ | ⟨-, -, hst', -⟩ | ⟨-, -, hst', -⟩ |
      ⟨hst, -⟩ | ⟨-, hst', -⟩
    · rw [hsame hr]
      exact ⟨(h.up_of_data hr hd (by rw [hst]; simp)).2, hd⟩
    · rw [hst'] at hw
      cases hw
    · rw [hst'] at hw
      cases hw
    · obtain ⟨hr, hd⟩ := hs.cycle hst
      rw [hsame hr]
      exact ⟨(h.up_of_data hr hd (by rw [hst]; simp)).2, hd⟩
    · rw [hst'] at hw
      split_ifs at hw
  -- the request of an access that is done
  · intro hw hr'
    rw [dmiReq_tck] at hr'
    unfold DataOf
    rw [hsame hr']
    exact hs.wait hw hr'
  · intro hw hr'
    unfold DataOf
    rcases master_cases ncpus s t i d with ⟨-, -, -, hst', -⟩ | ⟨-, -, hst', -⟩ | ⟨hst, -⟩ |
      ⟨-, -, hst', -⟩ |
      ⟨hst, hst', -⟩
    · rw [hst'] at hw
      cases hw
    · rw [hst'] at hw
      cases hw
    · obtain ⟨hr, hd⟩ := hs.cycle hst
      rw [hsame hr]
      exact hd
    · rw [hst'] at hw
      cases hw
    · rw [hst'] at hw
      split_ifs at hw with hq
      simp only [dmiWbReq, Bool.and_eq_true] at hq
      rw [hsame hq.1]
      exact hs.wait hst hq.1
  -- the request goes before another one comes
  · intro hw hr'
    rw [dmiReq_tck] at hr'
    rw [jtagReq0_tck]
    exact hs.low hw hr'
  · intro hw hr'
    rw [dmiReq_sys] at hr'
    rw [jtagReq0_sys]
    rcases master_cases ncpus s t i d with ⟨-, -, -, hst', -⟩ | ⟨-, -, hst', -⟩ | ⟨hst, -⟩ |
      ⟨-, -, hst', -⟩ |
      ⟨hst, hst', -⟩
    · rw [hst'] at hw
      cases hw
    · rw [hst'] at hw
      cases hw
    · obtain ⟨hr, hd⟩ := hs.cycle hst
      exact h.jtagReq_of_falling hr hr'
    · rw [hst'] at hw
      cases hw
    · rw [hst'] at hw
      split_ifs at hw with hq
      simp only [dmiWbReq, Bool.and_eq_true] at hq
      exact h.jtagReq_of_falling hq.1 hr'
  -- the strobe
  · exact hs.stb
  · intro hb
    rcases master_cases ncpus s t i d with ⟨-, -, -, hst', -⟩ | ⟨hst, -, -, hstb, -⟩ |
      ⟨-, -, -, hstb, -⟩ |
      ⟨-, -, hst', -⟩ | ⟨hst, -, hstb, -⟩
    · exact hst'
    · rw [hstb] at hb
      rw [hs.stb hb] at hst
      cases hst
    · rw [hstb] at hb
      cases hb
    · exact hst'
    · rw [hstb] at hb
      rw [hs.stb hb] at hst
      cases hst
  -- the increment
  · intro hi
    obtain ⟨hw, hr, h0⟩ := hs.inc hi
    rw [dmiReq_tck, jtagReq0_tck]
    exact ⟨hw, hr, h0⟩
  · intro hi
    rw [dmiReq_sys, jtagReq0_sys]
    rcases master_cases ncpus s t i d with ⟨hst, -, -, -, -, hinc⟩ | ⟨hst, -, -, -, hinc⟩ |
      ⟨hst, -, hst', -, -⟩ | ⟨hst, -, -, -, hinc⟩ | ⟨-, -, -, hinc⟩
    · rw [hinc] at hi
      rw [(hs.inc hi).1] at hst
      cases hst
    · rw [hinc] at hi
      rw [(hs.inc hi).1] at hst
      cases hst
    · obtain ⟨hr, hd⟩ := hs.cycle hst
      obtain ⟨hj, h0⟩ := h.up_of_data hr hd (by rw [hst]; simp)
      exact ⟨hst', h0, hj⟩
    · rw [hinc] at hi
      rw [(hs.inc hi).1] at hst
      cases hst
    · rw [hinc] at hi
      cases hi

end

end Microwatt.Dmi
