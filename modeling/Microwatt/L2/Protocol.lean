import Microwatt.L2.Step
import Microwatt.Lib.Fair

/-!
# Requests and acks of the L2 cache

Beside the registers stand the requests that were accepted and executed, the acks that were given
and the commands that litedram has taken, the newest first.  A request is accepted in a cycle in
which it is presented and `wb_out.stall` is low; it is executed in the cycle in which the latch
gives it up.
-/

namespace Microwatt.L2

open Clocked SyncFifo

/-- What an ack brings. -/
inductive Answer where
  | load (dat : Dword)
  | store

def Answer.isStore : Answer → Bool
  | .load _ => false
  | .store => true

/-- A command to litedram. -/
inductive Cmd where
  | read (addr : Nat)
  | write (addr : Nat)
deriving DecidableEq

/-- The address of a write. -/
def Cmd.writeAddr : Cmd → Option Nat
  | .read _ => none
  | .write a => some a

structure Sys (g : Geometry) where
  l2 : State g
  accepted : List WishboneMasterOut
  executed : List WishboneMasterOut
  acks : List Answer
  cmds : List Cmd
  entries : List StoreEntry
  taken : List StoreEntry
  returned : Nat

section

variable {g : Geometry}

/-- The request on the bus is accepted. -/
def accepts (s : State g) (i : Input) : Bool :=
  i.wbIn.cyc && i.wbIn.stb && !(wbOut s).stall

/-- The latched request is executed: a load that hits is read, a store goes to litedram. -/
def executes (s : State g) (i : Input) : Bool :=
  reqOp s == .loadHit || storeAck0 s i

/-- The command that litedram takes. -/
def cmdTaken (s : State g) (i : Input) : Option Cmd :=
  if cmdValid s i && i.cmdReady then
    some (if cmdWe s then .write (cmdAddr s) else .read (cmdAddr s))
  else none

/-- The ack of the cycle. -/
def ackGiven (s : State g) : Option Answer :=
  if (wbOut s).ack then some (if s.readAck1 then .load (wbOut s).dat else .store) else none

def storeqPush (s : State g) (i : Input) : Bool :=
  s.storeq.push i.wdataReady (storeqWrValid s i)

def storeqPop (s : State g) (i : Input) : Bool :=
  s.storeq.pop i.wdataReady (storeqWrValid s i)

def Sys.step (x : Sys g) (i : Input) : Sys g where
  l2 := L2.step x.l2 i
  accepted := if accepts x.l2 i then i.wbIn :: x.accepted else x.accepted
  executed := if executes x.l2 i then x.l2.wbReq :: x.executed else x.executed
  acks := (ackGiven x.l2).toList ++ x.acks
  cmds := (cmdTaken x.l2 i).toList ++ x.cmds
  entries := if storeqPush x.l2 i then entryOf g x.l2.wbReq :: x.entries else x.entries
  taken := if storeqPop x.l2 i then storeqRdData x.l2 :: x.taken else x.taken
  returned := if i.rdataValid then x.returned + 1 else x.returned

/-- After reset; the RAMs, the tags and the latches of the refill can hold anything. -/
structure State.Reset (s : State g) : Prop where
  wbReq : s.wbReq.cyc = false
  wbStash : s.wbStash.cyc = false
  readAck0 : s.readAck0 = false
  readAck1 : s.readAck1 = false
  storeAck1 : s.storeAck1 = false
  phase : s.phase = .idle
  refillCmdValid : s.refillCmdValid = false
  cacheValids : ∀ x w, s.cacheValids x w = false
  rdIdx : s.storeq.rdIdx = 0
  wrIdx : s.storeq.wrIdx = 0
  opPrev : s.storeq.opPrev = .pop

def Sys.start (s : State g) : Sys g :=
  ⟨s, [], [], [], [], [], [], 0⟩

/-- A request line at rest. -/
def noRequest : WishboneMasterOut :=
  ⟨0, 0, 0, false, false, false⟩

/-- The state after reset with zeros wherever reset leaves the value open. -/
def State.zero (g : Geometry) : State g where
  wbReq := noRequest
  wbStash := noRequest
  readAck0 := false
  readAck1 := false
  readWsl0 := 0
  readWsl1 := 0
  readWay0 := ⟨0, g.ways_pos⟩
  readWay1 := ⟨0, g.ways_pos⟩
  storeAck1 := false
  phase := .idle
  refillCmdValid := false
  refillCmdAddr := 0
  refillWay := ⟨0, g.ways_pos⟩
  refillIndex := 0
  refillRow := 0
  refillEndRow := 0
  refillRowsVlid _ := false
  cacheValids _ _ := false
  cacheTags _ _ := 0
  plruRam _ _ := false
  rams _ := ⟨fun _ _ => 0, fun _ => 0, fun _ => 0⟩
  storeq := ⟨fun _ => ⟨0, 0, 0⟩, 0, 0, .pop⟩

theorem State.zero_reset (g : Geometry) : (State.zero g).Reset := by
  constructor <;> intros <;> rfl

/-! ## Operations -/

variable {s : State g} {i : Input}

/-- The operations, with the conditions under which they are decoded. -/
theorem reqOp_cases (s : State g) :
    (reqValid s = false ∧ reqOp s = .none) ∨
    (reqValid s = true ∧ s.wbReq.we = true ∧ storeDelay s = true ∧ reqOp s = .storeDelayed) ∨
    (reqValid s = true ∧ s.wbReq.we = true ∧ storeDelay s = false ∧ (hit s).1 = true ∧
      reqOp s = .storeHit) ∨
    (reqValid s = true ∧ s.wbReq.we = true ∧ storeDelay s = false ∧ (hit s).1 = false ∧
      reqOp s = .storeMiss) ∨
    (reqValid s = true ∧ s.wbReq.we = false ∧ (hit s).1 = true ∧ reqOp s = .loadHit) ∨
    (reqValid s = true ∧ s.wbReq.we = false ∧ (hit s).1 = false ∧ reqOp s = .loadMiss) := by
  unfold reqOp
  cases reqValid s <;> cases s.wbReq.we <;> cases storeDelay s <;> cases (hit s).1 <;> simp

theorem isStore_iff : (reqOp s).isStore = true ↔
    reqValid s = true ∧ s.wbReq.we = true ∧ storeDelay s = false := by
  rcases reqOp_cases s with h | h | h | h | h | h <;> simp [ReqOp.isStore, h]

theorem loadHit_iff : reqOp s = .loadHit ↔
    reqValid s = true ∧ s.wbReq.we = false ∧ (hit s).1 = true := by
  rcases reqOp_cases s with h | h | h | h | h | h <;> simp [h]

/-- The latch gives up its request exactly when it is executed. -/
theorem stall_iff : stall s i = true ↔ reqValid s = true ∧ executes s i = false := by
  unfold stall executes storeAck0
  rcases reqOp_cases s with h | h | h | h | h | h <;>
    simp [h, ReqOp.isStore]

theorem reqValid_of_executes (h : executes s i = true) : reqValid s = true := by
  simp only [executes, storeAck0, Bool.or_eq_true, beq_iff_eq, Bool.and_eq_true] at h
  rcases h with h | ⟨h, -⟩
  · exact (loadHit_iff.mp h).1
  · exact (isStore_iff.mp h).1

/-- A store is executed exactly when litedram takes a write command, which is when its data goes
into the store queue. -/
theorem executes_store_iff : executes s i = true ∧ s.wbReq.we = true ↔ storeAck0 s i = true := by
  unfold executes
  constructor
  · rintro ⟨he, hwe⟩
    simp only [Bool.or_eq_true, beq_iff_eq] at he
    rcases he with he | he
    · rw [(loadHit_iff.mp he).2.1] at hwe
      cases hwe
    · exact he
  · intro h
    refine ⟨by simp [h], ?_⟩
    simp only [storeAck0, Bool.and_eq_true] at h
    exact (isStore_iff.mp h.1).2.1

theorem executes_load_iff : executes s i = true ∧ s.wbReq.we = false ↔ reqOp s = .loadHit := by
  constructor
  · rintro ⟨he, hwe⟩
    simp only [executes, Bool.or_eq_true, beq_iff_eq] at he
    rcases he with he | he
    · exact he
    · rw [(executes_store_iff.mpr he).2] at hwe
      cases hwe
  · intro h
    exact ⟨by simp [executes, h], (loadHit_iff.mp h).2.1⟩

theorem storeqPush_eq : storeqPush s i = storeAck0 s i := by
  unfold storeqPush Fifo.push storeqWrValid storeAck0 acceptStore storeqWrReady
  cases (reqOp s).isStore <;> cases i.cmdReady <;> simp

theorem cmdTaken_eq : cmdTaken s i =
    if storeAck0 s i then some (.write (dramAddr g s.wbReq.adr))
    else if !(reqOp s).isStore && s.refillCmdValid && i.cmdReady then some (.read s.refillCmdAddr)
    else none := by
  unfold cmdTaken storeAck0 acceptStore cmdValid cmdWe cmdAddr storeqWrReady
  cases (reqOp s).isStore <;> cases i.cmdReady <;>
    cases s.storeq.wrReady i.wdataReady <;> simp

/-- No store is executed in the two cycles in which a load has its ack before it. -/
theorem not_storeAck0_of_readAck (h : s.readAck0 = true ∨ s.readAck1 = true) :
    storeAck0 s i = false := by
  by_contra hs
  simp only [Bool.not_eq_false, storeAck0, Bool.and_eq_true] at hs
  have hd := (isStore_iff.mp hs.1).2.2
  rcases h with h | h <;> simp [storeDelay, h] at hd

/-- A load and a store are not executed in the same cycle. -/
theorem not_loadHit_of_storeAck0 (h : storeAck0 s i = true) : reqOp s ≠ .loadHit := by
  intro hl
  have hwe := (executes_store_iff.mpr h).2
  rw [(loadHit_iff.mp hl).2.1] at hwe
  cases hwe

/-! ## The invariant -/

/-- The requests in the latch and the stash, the newer one first. -/
def waiting (s : State g) : List WishboneMasterOut :=
  (if s.wbStash.cyc then [s.wbStash] else []) ++ (if reqValid s then [s.wbReq] else [])

/-- The acks in the pipelines: whether they are of stores, the newer one first. -/
def inPipe (s : State g) : List Bool :=
  (if s.readAck0 then [false] else if s.storeAck1 then [true] else []) ++
    (if s.readAck1 then [false] else [])

/-- No request is lost, duplicated or overtaken, every executed request has exactly one ack, in
order, and every executed store has exactly one command and one entry in the queue. -/
structure Orderly (x : Sys g) : Prop where
  requests : x.accepted = waiting x.l2 ++ x.executed
  acks : x.executed.map (·.we) = inPipe x.l2 ++ x.acks.map Answer.isStore
  writes : x.cmds.filterMap Cmd.writeAddr = (x.executed.filter (·.we)).map (dramAddr g ·.adr)
  entries : x.entries = (x.executed.filter (·.we)).map (entryOf g)
  apart : ¬(x.l2.readAck1 = true ∧ x.l2.storeAck1 = true)

/-- What `Orderly` needs from the edge before. -/
structure Tidy (s : State g) : Prop where
  stash : s.wbStash.cyc = true → s.wbStash.stb = true
  apart : s.storeAck1 = true → s.readAck0 = false ∧ s.readAck1 = false

theorem reqValid_eq_executes (h : stall s i = false) : reqValid s = executes s i := by
  cases hv : reqValid s with
  | false =>
      by_contra he
      have := reqValid_of_executes (s := s) (i := i) (by simpa using Ne.symm he)
      rw [hv] at this
      cases this
  | true =>
      by_contra he
      have hst := (stall_iff (s := s) (i := i)).mpr ⟨hv, by simpa using Ne.symm he⟩
      rw [h] at hst
      cases hst

theorem waiting_step (h : Tidy s) :
    (if accepts s i then i.wbIn :: waiting s else waiting s) =
      waiting (step s i) ++ (if executes s i then [s.wbReq] else []) := by
  have hreq : (step s i).wbReq = (requestLatch s i).1 := rfl
  have hstash : (step s i).wbStash = (requestLatch s i).2 := rfl
  have hstall : (wbOut s).stall = s.wbStash.cyc := rfl
  cases hst : stall s i with
  | true =>
      -- the latch keeps its request, a new one goes into the stash
      obtain ⟨hv, he⟩ := stall_iff.mp hst
      have hv' : reqValid (step s i) = true := by
        simp only [reqValid, hreq, requestLatch, hst, if_true]
        exact hv
      have hr' : (step s i).wbReq = s.wbReq := by simp [hreq, requestLatch, hst]
      cases hacc : accepts s i with
      | true =>
          simp only [accepts, hstall, Bool.and_eq_true, Bool.not_eq_true'] at hacc
          have hs' : (step s i).wbStash = i.wbIn := by simp [hstash, requestLatch, hst, hacc]
          simp [waiting, hv, hv', he, hr', hs', hacc]
      | false =>
          have hs' : (step s i).wbStash = s.wbStash := by
            have hno : (!s.wbStash.cyc && i.wbIn.cyc && i.wbIn.stb) = false := by
              simp only [accepts, hstall] at hacc
              rw [Bool.and_assoc, Bool.and_comm, hacc]
            simp [hstash, requestLatch, hst, hno]
          simp [waiting, hv, hv', he, hr', hs']
  | false =>
      rw [← reqValid_eq_executes hst]
      cases hsc : s.wbStash.cyc with
      | true =>
          have hacc : accepts s i = false := by simp [accepts, hstall, hsc]
          have hr' : (step s i).wbReq = s.wbStash := by simp [hreq, requestLatch, hst, hsc]
          have hs' : (step s i).wbStash.cyc = false := by simp [hstash, requestLatch, hst, hsc]
          have hv' : reqValid (step s i) = true := by
            simp [reqValid, hr', hsc, h.stash hsc]
          simp [waiting, hacc, hr', hs', hv', hsc]
      | false =>
          have hs' : (step s i).wbStash.cyc = false := by
            cases hc : i.wbIn.cyc <;> simp [hstash, requestLatch, hst, hsc, hc]
          cases hc : i.wbIn.cyc with
          | true =>
              have hr' : (step s i).wbReq = i.wbIn := by simp [hreq, requestLatch, hst, hsc, hc]
              cases hb : i.wbIn.stb <;>
                simp [waiting, reqValid, accepts, hstall, hr', hs', hsc, hc, hb]
          | false =>
              have hv' : reqValid (step s i) = false := by
                simp [reqValid, hreq, requestLatch, hst, hsc, hc]
              simp [waiting, accepts, hs', hv', hsc, hc]

theorem inPipe_step (h : Tidy s) :
    (if executes s i then [s.wbReq.we] else []) ++ inPipe s =
      inPipe (step s i) ++ ((ackGiven s).toList.map Answer.isStore) := by
  have h0 : (step s i).readAck0 = (reqOp s == .loadHit) := rfl
  have h1 : (step s i).readAck1 = s.readAck0 := rfl
  have hs1 : (step s i).storeAck1 = storeAck0 s i := rfl
  have hexec : (if executes s i then [s.wbReq.we] else []) =
      if reqOp s == .loadHit then [false] else if storeAck0 s i then [true] else [] := by
    cases hs : storeAck0 s i with
    | true =>
        obtain ⟨he, hwe⟩ := executes_store_iff.mpr hs
        simp [he, hwe, not_loadHit_of_storeAck0 hs]
    | false =>
        by_cases hl : reqOp s = .loadHit
        · obtain ⟨he, hwe⟩ := (executes_load_iff (i := i)).mpr hl
          simp [he, hwe, hl]
        · simp [executes, hl, hs]
  rw [hexec]
  unfold inPipe ackGiven
  rw [h0, h1, hs1]
  -- the oldest ack of the pipelines is the one that is given
  cases hr1 : s.readAck1 with
  | true =>
      have hns : s.storeAck1 = false := by
        by_contra hc
        simp [(h.apart (by simpa using hc)).2] at hr1
      cases hr0 : s.readAck0 <;> simp [wbOut, hr1, hns, Answer.isStore]
  | false =>
      cases hsa : s.storeAck1 with
      | true => simp [wbOut, hr1, hsa, (h.apart hsa).1, Answer.isStore]
      | false => cases hr0 : s.readAck0 <;> simp [wbOut, hr1, hsa]

theorem Tidy.step (h : Tidy s) : Tidy (step s i) := by
  constructor
  · intro hc
    have hstash : (L2.step s i).wbStash = (requestLatch s i).2 := rfl
    rw [hstash] at hc ⊢
    unfold requestLatch at hc ⊢
    by_cases hnew : (stall s i && !s.wbStash.cyc && i.wbIn.cyc && i.wbIn.stb) = true
    · have hst : stall s i = true := by
        simp only [Bool.and_eq_true] at hnew
        exact hnew.1.1.1
      rw [if_pos hst]
      simp only [hnew, if_true]
      simp only [Bool.and_eq_true] at hnew
      exact hnew.2
    · simp only [hnew] at hc ⊢
      split_ifs at hc ⊢ <;> simp_all [h.stash]
  · intro hs
    have hsa : storeAck0 s i = true := hs
    refine ⟨?_, ?_⟩
    · show (reqOp s == .loadHit) = false
      simpa using not_loadHit_of_storeAck0 hsa
    · show s.readAck0 = false
      by_contra hr
      rw [not_storeAck0_of_readAck (Or.inl (by simpa using hr))] at hsa
      cases hsa

/-- The stores that have been executed. -/
theorem stores_step (x : Sys g) : (x.step i).executed.filter (·.we) =
    (if storeAck0 x.l2 i then [x.l2.wbReq] else []) ++ x.executed.filter (·.we) := by
  simp only [Sys.step]
  cases hs : storeAck0 x.l2 i with
  | true =>
      obtain ⟨he, hwe⟩ := executes_store_iff.mpr hs
      simp [he, hwe]
  | false =>
      cases he : executes x.l2 i with
      | true =>
          have hwe : x.l2.wbReq.we = false := by
            by_contra hwe
            rw [executes_store_iff.mp ⟨he, by simpa using hwe⟩] at hs
            cases hs
          simp [hwe]
      | false => simp

theorem Orderly.step {x : Sys g} (ht : Tidy x.l2) (h : Orderly x) : Orderly (x.step i) := by
  have hwait := waiting_step (i := i) ht
  have hpipe := inPipe_step (i := i) ht
  refine ⟨?_, ?_, ?_, ?_, ?_⟩
  · show (if accepts x.l2 i then i.wbIn :: x.accepted else x.accepted) = _
    rw [h.requests]
    calc (if accepts x.l2 i then i.wbIn :: (waiting x.l2 ++ x.executed)
          else waiting x.l2 ++ x.executed)
        = (if accepts x.l2 i then i.wbIn :: waiting x.l2 else waiting x.l2) ++ x.executed := by
          split_ifs <;> rfl
      _ = waiting (L2.step x.l2 i) ++ (x.step i).executed := by
          rw [hwait, List.append_assoc]
          simp only [Sys.step]
          split_ifs <;> rfl
  · calc (x.step i).executed.map (·.we)
        = (if executes x.l2 i then [x.l2.wbReq.we] else []) ++ x.executed.map (·.we) := by
          simp only [Sys.step]
          split_ifs <;> rfl
      _ = inPipe (L2.step x.l2 i) ++ (x.step i).acks.map Answer.isStore := by
          rw [h.acks, ← List.append_assoc, hpipe]
          simp [Sys.step]
  · rw [stores_step, List.map_append, ← h.writes]
    show ((cmdTaken x.l2 i).toList ++ x.cmds).filterMap Cmd.writeAddr = _
    rw [cmdTaken_eq, List.filterMap_append]
    congr 1
    cases storeAck0 x.l2 i with
    | true => rfl
    | false =>
        simp only [Bool.false_eq_true, if_false]
        cases !(reqOp x.l2).isStore && x.l2.refillCmdValid && i.cmdReady <;> rfl
  · rw [stores_step, List.map_append, ← h.entries]
    simp only [Sys.step, storeqPush_eq]
    cases storeAck0 x.l2 i <;> rfl
  · rintro ⟨hr, hs⟩
    exact Bool.noConfusion (((ht.step (i := i)).apart hs).2.symm.trans hr)

end

end Microwatt.L2
