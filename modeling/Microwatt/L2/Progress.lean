import Microwatt.L2.Coherence
import Microwatt.Lib.Fair

/-!
# Every request to the L2 cache is acked

The latched request is executed sooner or later if litedram takes the commands and the data that it
is offered and returns the data of the reads it has taken.  The rank counts down a refill of another
line, the store queue, and the refill of the line that is asked for.
-/

namespace Microwatt.L2

open Clocked SyncFifo

section

variable {g : Geometry}

/-- What litedram does. -/
inductive Event where
  | cmd | wdata | rdata
deriving DecidableEq

/-- litedram does it, if it has been asked to. -/
def Event.happens (e : Event) (x : Sys g) (i : Input) : Prop :=
  match e with
  | .cmd => cmdValid x.l2 i = true → i.cmdReady = true
  | .wdata => storeqRdValid x.l2 i = true → i.wdataReady = true
  | .rdata => x.returned < x.reads → i.rdataValid = true

/-- What the latched request waits for. -/
def waitsFor (x : Sys g) : Event :=
  if x.l2.phase ≠ .idle then if x.l2.refillCmdValid then .cmd else .rdata
  else if x.l2.wbReq.we && !x.l2.storeq.full then .cmd else .wdata

/-! ## The rank -/

/-- The rows that have come in. -/
def recvOf (s : State g) : Nat :=
  (s.refillRow + rowPerLine g - (s.refillEndRow + 1)) % rowPerLine g

/-- The commands and the rows of the refill that are still to come. -/
def refillLeft (x : Sys g) : Nat :=
  2 * rowPerLine g - (2 * recvOf x.l2 + (x.reads - x.returned))

/-- The latched request is a load from the line that is refilled. -/
def ownLine (s : State g) : Bool :=
  !s.wbReq.we && s.refillIndex == getIndex g s.wbReq.adr && refillTag s == getTag g s.wbReq.adr

/-- What a store waits for when no refill is going on. -/
def storeWait (s : State g) : Nat :=
  if s.readAck0 then 3 else if s.readAck1 then 2 else if s.storeq.full then 1 else 0

def rank (x : Sys g) : ℕ ×ₗ ℕ :=
  if x.l2.phase ≠ .idle then
    toLex (if ownLine x.l2 then 1 else 3, refillLeft x + if x.l2.phase = .clrTag then 1 else 0)
  else if x.l2.wbReq.we then toLex (2, storeWait x.l2)
  else toLex (if (hit x.l2).1 then 0 else 2, x.entries.length - x.taken.length)

/-- An edge lowers the rank, or the request waits for the same thing, which does not happen. -/
def Closer (x : Sys g) (i : Input) : Prop :=
  rank (x.step i) < rank x ∨
    (rank (x.step i) = rank x ∧ waitsFor (x.step i) = waitsFor x ∧ ¬(waitsFor x).happens x i)

variable {x : Sys g} {i : Input} {n out : Nat}

theorem Refilling.recvOf_eq (h : Refilling x n out) : recvOf x.l2 = n := by
  have hlast := h.last
  have hrecv := h.recv
  unfold recvOf
  rw [h.row]
  rcases Nat.lt_or_ge (x.l2.refillEndRow + 1 + n) (rowPerLine g) with hlt | hge
  · have hrow : rowAt g x.l2.refillEndRow n = x.l2.refillEndRow + 1 + n := Nat.mod_eq_of_lt hlt
    rw [hrow, show x.l2.refillIndex * rowPerLine g + (x.l2.refillEndRow + 1 + n) + rowPerLine g -
      (x.l2.refillEndRow + 1) = x.l2.refillIndex * rowPerLine g + n + rowPerLine g by omega,
      Nat.add_mod_right, Nat.mul_add_mod_self_right, Nat.mod_eq_of_lt hrecv]
  · have hrow : rowAt g x.l2.refillEndRow n = x.l2.refillEndRow + 1 + n - rowPerLine g := by
      unfold rowAt
      rw [Nat.mod_eq_sub_mod hge]
      exact Nat.mod_eq_of_lt (by omega)
    rw [hrow, show x.l2.refillIndex * rowPerLine g + (x.l2.refillEndRow + 1 + n - rowPerLine g) +
      rowPerLine g - (x.l2.refillEndRow + 1) = x.l2.refillIndex * rowPerLine g + n by omega,
      Nat.mul_add_mod_self_right, Nat.mod_eq_of_lt hrecv]

theorem Refilling.refillLeft_eq (h : Refilling x n out) :
    refillLeft x = 2 * rowPerLine g - (2 * n + out) := by
  have hout : x.reads - x.returned = out := by
    have := h.reads
    omega
  rw [refillLeft, h.recvOf_eq, hout]

/-- Not more reads are sent than there are rows. -/
theorem Refilling.sent_le (h : Refilling x n out) (hb : 0 < g.rowLineBits) :
    n + out ≤ rowPerLine g := by
  cases hcv : x.l2.refillCmdValid with
  | true => exact (h.more hb hcv).le
  | false => exact (h.sent hb hcv).le

/-- A command that is taken and a row that comes in lower the rank of a refill. -/
theorem Refilling.left_step (h : Refilling x n out) (hp : x.l2.phase ≠ .idle) (ha : Answers x i)
    (hd : refillDone x.l2 i = false) (hb : 0 < g.rowLineBits) :
    refillLeft (x.step i) < refillLeft x ∨
      (refillLeft (x.step i) = refillLeft x ∧ waitsFor (x.step i) = waitsFor x ∧
        ¬(waitsFor x).happens x i) := by
  obtain ⟨hph, hcv, -⟩ := step_busy (i := i) hp
  have hnext := h.step hp ha hd
  have hle := hnext.sent_le hb
  have hle' := hnext.recv
  have hp' : (x.step i).l2.phase ≠ .idle := by
    rw [show (x.step i).l2.phase = _ from hph, hd]
    simp
  rw [hnext.refillLeft_eq, h.refillLeft_eq]
  unfold recvNext outNext at *
  rw [if_pos hb] at *
  cases hr : i.rdataValid with
  | true =>
      have hpos := h.out_pos ha hr
      simp only [hr, if_true] at hle hle' ⊢
      left
      split_ifs at hle ⊢ <;> omega
  | false =>
      simp only [hr, Bool.false_eq_true, if_false, Nat.add_zero, Nat.sub_zero] at hle hle' ⊢
      cases hvalid : x.l2.refillCmdValid with
      | true =>
          have hcmd : cmdValid x.l2 i = true := by
            rw [cmdValid, isStore_of_busy hp, hvalid]
            rfl
          cases hready : i.cmdReady with
          | true =>
              simp only [hvalid, hready, Bool.and_self, if_true] at hle ⊢
              left
              omega
          | false =>
              right
              have hcv' : (x.step i).l2.refillCmdValid = true := by
                rw [show (x.step i).l2.refillCmdValid = _ from hcv]
                simp [cmdsDone, hvalid, hready]
              refine ⟨by simp, by simp [waitsFor, hp, hp', hvalid, hcv'], ?_⟩
              simp [waitsFor, hp, hvalid, Event.happens, hcmd, hready]
      | false =>
          -- all reads are out
          right
          have hsent := h.sent hb hvalid
          have hrecv := h.recv
          have hreads := h.reads
          have hcv' : (x.step i).l2.refillCmdValid = false := by
            rw [show (x.step i).l2.refillCmdValid = _ from hcv]
            simp [cmdsDone, hvalid]
          have hwait : waitsFor x = .rdata := by simp [waitsFor, hp, hvalid]
          refine ⟨by simp, by simp [waitsFor, hp, hp', hvalid, hcv'], ?_⟩
          rw [hwait]
          intro hhappens
          have hyes : i.rdataValid = true := hhappens (by omega)
          rw [hr] at hyes
          cases hyes

/-! ## One edge -/

theorem reqValid_step_of_stall (h : stall x.l2 i = true) : reqValid (L2.step x.l2 i) = true := by
  simp only [reqValid, wbReq_step_of_stall h]
  exact (stall_iff.mp h).1

/-- When its line is complete, the load hits. -/
theorem hit_of_done (hp : x.l2.phase ≠ .idle) (hst : stall x.l2 i = true)
    (hown : ownLine x.l2 = true) (hd : refillDone x.l2 i = true) :
    (hit (L2.step x.l2 i)).1 = true := by
  obtain ⟨-, -, -, -, -, -, -, -, hvals, -⟩ := step_busy (i := i) hp
  simp only [ownLine, Bool.and_eq_true, beq_iff_eq] at hown
  have hreq := wbReq_step_of_stall hst
  have hway : wayHit (L2.step x.l2 i) x.l2.refillWay = true := by
    refine wayHit_iff.mpr ⟨reqValid_step_of_stall hst, Or.inl ?_, ?_⟩
    · rw [hreq, ← hown.1.2, hvals]
      simp [hd]
    · rw [hreq, ← hown.1.2, cacheTags_step_refill hp, hown.2]
  rcases hit_cases (L2.step x.l2 i) with ⟨-, hno⟩ | ⟨hyes, -⟩
  · rw [hno] at hway
    cases hway
  · exact hyes

theorem closer_busy (hk : RefillOk x) (ha : Answers x i) (hb : 0 < g.rowLineBits)
    (hst : stall x.l2 i = true) (hp : x.l2.phase ≠ .idle) : Closer x i := by
  obtain ⟨n, out, href⟩ := hk.busy hp
  obtain ⟨hph, -, hidx, -⟩ := step_busy (i := i) hp
  have hreq := wbReq_step_of_stall hst
  cases hd : refillDone x.l2 i with
  | false =>
      have hph' : (x.step i).l2.phase = .waitAck := by
        rw [show (x.step i).l2.phase = _ from hph, hd]
        rfl
      have hown : ownLine (x.step i).l2 = ownLine x.l2 := by
        show ownLine (L2.step x.l2 i) = _
        unfold ownLine
        rw [hreq, hidx, refillTag_step hp]
      have hrank : rank (x.step i) = toLex (if ownLine x.l2 then 1 else 3,
          refillLeft (x.step i)) := by
        simp [rank, hph', hown]
      have hrank' : rank x = toLex (if ownLine x.l2 then 1 else 3,
          refillLeft x + if x.l2.phase = .clrTag then 1 else 0) := by
        simp [rank, hp]
      unfold Closer
      rw [hrank, hrank', Prod.Lex.toLex_lt_toLex]
      rcases href.left_step hp ha hd hb with hlt | ⟨heq, hsame⟩
      · exact Or.inl (Or.inr ⟨rfl, by simp only; omega⟩)
      · by_cases hclr : x.l2.phase = .clrTag
        · exact Or.inl (Or.inr ⟨rfl, by simp only [hclr, if_true]; omega⟩)
        · exact Or.inr ⟨by simp [hclr, heq], hsame⟩
  | true =>
      have hph' : (x.step i).l2.phase = .idle := by
        rw [show (x.step i).l2.phase = _ from hph, hd]
        rfl
      have hwe : (x.step i).l2.wbReq.we = x.l2.wbReq.we := congrArg (·.we) hreq
      refine Or.inl ?_
      unfold rank
      rw [if_pos hp, if_neg (by simp [hph']), hwe]
      cases hown : ownLine x.l2 with
      | true =>
          -- the load hits next
          have hload : x.l2.wbReq.we = false := by
            simp only [ownLine, Bool.and_eq_true, Bool.not_eq_true'] at hown
            exact hown.1.1
          have hhit : (hit (x.step i).l2).1 = true := hit_of_done hp hst hown hd
          rw [hload, hhit, if_neg (by simp), Prod.Lex.toLex_lt_toLex]
          exact Or.inl (by simp)
      | false =>
          simp only [Bool.false_eq_true, if_false]
          cases x.l2.wbReq.we <;> cases (hit (x.step i).l2).1 <;>
            exact Prod.Lex.toLex_lt_toLex.mpr (Or.inl (by simp))

/-- A load that misses starts the refill of its line, or waits for the store queue to be empty. -/
theorem closer_load (hf : ∃ q, Holds g.storeqDepth x.l2.storeq q ∧ x.entries = q.reverse ++ x.taken)
    (hst : stall x.l2 i = true) (hp : x.l2.phase = .idle) (hwe : x.l2.wbReq.we = false) :
    Closer x i := by
  have hreq := wbReq_step_of_stall hst
  have hmiss : reqOp x.l2 = .loadMiss := by
    obtain ⟨hv, he⟩ := stall_iff.mp hst
    rcases reqOp_cases x.l2 with h | h | h | h | h | h <;> simp_all [executes]
  have hhit : (hit x.l2).1 = false := by
    rcases reqOp_cases x.l2 with h | h | h | h | h | h <;> simp_all
  have hrank : rank x = toLex (2, x.entries.length - x.taken.length) := by
    simp [rank, hp, hwe, hhit]
  have hwe' : (x.step i).l2.wbReq.we = false := by
    rw [show (x.step i).l2.wbReq = _ from hreq, hwe]
  cases hs : startRefill x.l2 i with
  | true =>
      obtain ⟨hph, -, hidx, -⟩ := L2.step_start hp hs
      have hown : ownLine (x.step i).l2 = true := by
        show ownLine (L2.step x.l2 i) = true
        simp [ownLine, refillTag, hph, hidx, hreq, hwe]
      refine Or.inl ?_
      rw [hrank, rank, if_pos (by simp [show (x.step i).l2.phase = _ from hph]), hown,
        Prod.Lex.toLex_lt_toLex]
      exact Or.inl (by simp)
  | false =>
      obtain ⟨hph, -, hvals, htags⟩ := L2.step_idle hp hs
      have hvalid : storeqRdValid x.l2 i = true := by
        simp only [startRefill, hmiss, BEq.rfl, Bool.true_and, Bool.not_eq_false',
          Bool.and_eq_true] at hs
        exact hs.2
      have hno : storeqWrValid x.l2 i = false := by simp [storeqWrValid, hmiss, ReqOp.isStore]
      have hpush : storeqPush x.l2 i = false := by simp [storeqPush, Fifo.push, hno]
      have hhit' : (hit (x.step i).l2).1 = false := by
        have : hit (L2.step x.l2 i) = hit x.l2 := by
          unfold hit wayHit reqValid
          simp [hreq, hvals, htags, hph, hp]
        rw [show (x.step i).l2 = L2.step x.l2 i from rfl, this, hhit]
      have hrank' : rank (x.step i) =
          toLex (2, (x.step i).entries.length - (x.step i).taken.length) := by
        simp [rank, show (x.step i).l2.phase = _ from hph, hwe', hhit']
      have hentries : (x.step i).entries = x.entries := by simp [Sys.step, hpush]
      cases hready : i.wdataReady with
      | true =>
          obtain ⟨q, hq, heq⟩ := hf
          have hpop : storeqPop x.l2 i = true := by
            simp only [storeqPop, Fifo.pop, hready, Bool.true_and]
            exact hvalid
          have hne : q ≠ [] := (hq.rdValid_iff.mp hvalid).resolve_left (by simp [hno])
          have hpos := List.length_pos_iff.mpr hne
          have hlen := congrArg List.length heq
          rw [List.length_append, List.length_reverse] at hlen
          have htaken : (x.step i).taken.length = x.taken.length + 1 := by simp [Sys.step, hpop]
          refine Or.inl ?_
          rw [hrank, hrank', Prod.Lex.toLex_lt_toLex, hentries, htaken]
          exact Or.inr ⟨rfl, by simp only; omega⟩
      | false =>
          have htaken : (x.step i).taken = x.taken := by
            simp [Sys.step, storeqPop, Fifo.pop, hready]
          have hwait : waitsFor x = .wdata := by simp [waitsFor, hp, hwe]
          refine Or.inr ⟨by rw [hrank, hrank', hentries, htaken], ?_, ?_⟩
          · rw [hwait]
            simp [waitsFor, show (x.step i).l2.phase = _ from hph, hwe']
          · rw [hwait]
            intro hhappens
            rw [hhappens hvalid] at hready
            cases hready

/-- A store waits for the loads before it, for room in the queue, and for its command. -/
theorem closer_store (hf : ∃ q, Holds g.storeqDepth x.l2.storeq q ∧
    x.entries = q.reverse ++ x.taken)
    (hst : stall x.l2 i = true) (hp : x.l2.phase = .idle) (hwe : x.l2.wbReq.we = true) :
    Closer x i := by
  have hreq := wbReq_step_of_stall hst
  obtain ⟨hv, he⟩ := stall_iff.mp hst
  have hload : reqOp x.l2 ≠ .loadHit ∧ reqOp x.l2 ≠ .loadMiss := by
    rcases reqOp_cases x.l2 with h | h | h | h | h | h <;> simp_all
  have hs : startRefill x.l2 i = false := by simp [startRefill, hload.2]
  have hph : (x.step i).l2.phase = .idle := (L2.step_idle hp hs).1
  have hwe' : (x.step i).l2.wbReq.we = true := by
    rw [show (x.step i).l2.wbReq = _ from hreq, hwe]
  have hrank : rank x = toLex (2, storeWait x.l2) := by simp [rank, hp, hwe]
  have hrank' : rank (x.step i) = toLex (2, storeWait (x.step i).l2) := by simp [rank, hph, hwe']
  have h0 : (x.step i).l2.readAck0 = false := by
    show (reqOp x.l2 == .loadHit) = false
    simpa using hload.1
  have h1 : (x.step i).l2.readAck1 = x.l2.readAck0 := rfl
  unfold Closer
  rw [hrank, hrank', Prod.Lex.toLex_lt_toLex]
  by_cases hdelay : storeDelay x.l2 = true
  · -- the acks of loads move on
    refine Or.inl (Or.inr ⟨rfl, ?_⟩)
    have hacks : x.l2.readAck0 = true ∨ x.l2.readAck1 = true := by
      simpa [storeDelay, hp] using hdelay
    unfold storeWait
    rw [h0, h1]
    cases ha0 : x.l2.readAck0 with
    | true => simp
    | false =>
        have ha1 : x.l2.readAck1 = true := by simpa [ha0] using hacks
        simp only [ha1, Bool.false_eq_true, if_false, if_true]
        split_ifs <;> omega
  · have hstore : (reqOp x.l2).isStore = true := isStore_iff.mpr ⟨hv, hwe, by simpa using hdelay⟩
    have hacks : x.l2.readAck0 = false ∧ x.l2.readAck1 = false := by
      simpa [storeDelay, hp] using hdelay
    have hpush : storeqPush x.l2 i = false := by
      rw [storeqPush_eq]
      by_contra hc
      rw [executes, Bool.not_eq_false] at *
      simp [hc] at he
    obtain ⟨q, hq, -⟩ := hf
    have hfull' : (x.step i).l2.storeq.full = (x.l2.storeq.full && !i.wdataReady) :=
      hq.full_step hpush
    have hwait' : storeWait (x.step i).l2 = if (x.step i).l2.storeq.full then 1 else 0 := by
      simp [storeWait, h0, h1, hacks]
    have hwait : storeWait x.l2 = if x.l2.storeq.full then 1 else 0 := by simp [storeWait, hacks]
    have hfor : waitsFor (x.step i) = if (x.step i).l2.storeq.full then .wdata else .cmd := by
      cases hc : (x.step i).l2.storeq.full <;> simp [waitsFor, hph, hwe', hc]
    have hfor' : waitsFor x = if x.l2.storeq.full then .wdata else .cmd := by
      cases hc : x.l2.storeq.full <;> simp [waitsFor, hp, hwe, hc]
    rw [hwait, hwait', hfor, hfor', hfull']
    cases hfull : x.l2.storeq.full with
    | true =>
        cases hready : i.wdataReady with
        | true => exact Or.inl (Or.inr ⟨rfl, by simp⟩)
        | false =>
            refine Or.inr ⟨by simp, by simp, ?_⟩
            intro hhappens
            have hne : q ≠ [] := by
              rintro rfl
              exact g.storeqDepth_pos.ne (hq.full_iff.mp hfull)
            have hyes : i.wdataReady = true := hhappens (hq.rdValid_iff.mpr (Or.inr hne))
            rw [hready] at hyes
            cases hyes
    | false =>
        refine Or.inr ⟨by simp, by simp, ?_⟩
        intro hhappens
        have hroom : storeqWrReady x.l2 i = true := by
          simp [storeqWrReady, Fifo.wrReady, hfull]
        have hyes : i.cmdReady = true := hhappens (by rw [cmdValid, hstore, if_pos rfl, hroom])
        rw [storeqPush_eq] at hpush
        simp [storeAck0, acceptStore, hstore, hyes, hroom] at hpush

end

/-! ## Runs -/

section

variable {g : Geometry} {x : Sys g} {i : Input}

/-- What holds of the requests and the queue in every state that is reached. -/
structure Sound (x : Sys g) : Prop where
  tidy : Tidy x.l2
  orderly : Orderly x
  fifo : ∃ q, Holds g.storeqDepth x.l2.storeq q ∧ x.entries = q.reverse ++ x.taken
  stash : x.l2.wbStash.cyc = true → reqValid x.l2 = true

/-- The stash is in use only while the latch is. -/
theorem stash_step (hc : (L2.step x.l2 i).wbStash.cyc = true) :
    reqValid (L2.step x.l2 i) = true := by
  cases hst : stall x.l2 i with
  | true => exact reqValid_step_of_stall hst
  | false =>
      have hno : (requestLatch x.l2 i).2.cyc = false := by
        cases hsc : x.l2.wbStash.cyc <;> cases hw : i.wbIn.cyc <;>
          simp [requestLatch, hst, hsc, hw]
      rw [show (L2.step x.l2 i).wbStash = (requestLatch x.l2 i).2 from rfl, hno] at hc
      cases hc

theorem Sound.step (h : Sound x) : Sound (x.step i) :=
  ⟨h.tidy.step, h.orderly.step h.tidy, fifo_step h.fifo, stash_step⟩

theorem sound_start {s : State g} (h : s.Reset) : Sound (Sys.start s) :=
  ⟨tidy_start h, orderly_start h, ⟨[], holds_start h, rfl⟩, fun hc => by
    rw [show (Sys.start s).l2.wbStash.cyc = false from h.wbStash] at hc
    cases hc⟩

/-- The request that waits comes closer to its execution. -/
theorem Sound.closer (h : Sound x) (hk : RefillOk x) (ha : Answers x i) (hb : 0 < g.rowLineBits)
    (hst : stall x.l2 i = true) : Closer x i := by
  by_cases hp : x.l2.phase = .idle
  · cases hwe : x.l2.wbReq.we with
    | true => exact closer_store h.fifo hst hp hwe
    | false => exact closer_load h.fifo hst hp hwe
  · exact closer_busy hk ha hb hst hp

theorem acks_step (x : Sys g) (i : Input) : (x.step i).acks.length =
    x.acks.length + if x.l2.readAck1 || x.l2.storeAck1 then 1 else 0 := by
  cases hr : x.l2.readAck1 <;> cases hs : x.l2.storeAck1 <;>
    simp [Sys.step, ackGiven, wbOut, hr, hs]

/-- What has been executed is acked two edges later. -/
theorem acks_two_steps (h : Sound x) (i j : Input) :
    x.executed.length ≤ ((x.step i).step j).acks.length := by
  have hlen := congrArg List.length h.orderly.acks
  rw [List.length_map, List.length_append, List.length_map] at hlen
  have hr1 : (x.step i).l2.readAck1 = x.l2.readAck0 := rfl
  rw [acks_step, acks_step, hr1]
  have hpipe : (inPipe x.l2).length ≤ (if x.l2.readAck1 || x.l2.storeAck1 then 1 else 0) +
      if x.l2.readAck0 then 1 else 0 := by
    unfold inPipe
    cases hs : x.l2.storeAck1 with
    | true => simp [h.tidy.apart hs]
    | false => cases x.l2.readAck0 <;> cases x.l2.readAck1 <;> simp
  have hsecond : (if x.l2.readAck0 then 1 else 0) ≤
      if x.l2.readAck0 || (x.step i).l2.storeAck1 then 1 else 0 := by
    cases x.l2.readAck0 <;> simp
  omega

end

section

variable {g : Geometry} {s : State g} {input : Nat → Input}

/-- The system before edge `n`. -/
def sysAt (s : State g) (input : Nat → Input) (n : Nat) : Sys g :=
  trace Sys.step (Sys.start s) input n

/-- litedram does not answer reads that it has not taken; and it takes commands and data that are
offered to it, and answers the reads it has taken, sooner or later. -/
structure Fair (s : State g) (input : Nat → Input) : Prop where
  answers : ∀ n, Answers (sysAt s input n) (input n)
  happens : ∀ (e : Event) n, ∃ m, n ≤ m ∧ e.happens (sysAt s input m) (input m)

theorem sound_sysAt (h : s.Reset) (input : Nat → Input) (n : Nat) : Sound (sysAt s input n) :=
  trace_invariant Sound 0 (fun _ _ hs => hs.step) (sound_start h) n (Nat.zero_le n)

theorem refillOk_sysAt (h : s.Reset) (hf : Fair s input) (n : Nat) : RefillOk (sysAt s input n) :=
  trace_invariant RefillOk 0 (fun m _ hs => hs.step (hf.answers m)) (refillOk_start h) n
    (Nat.zero_le n)

/-- The latched request is executed in the end. -/
theorem latched_executed (h : s.Reset) (hb : 0 < g.rowLineBits) (hf : Fair s input) {n : Nat}
    (hv : reqValid (sysAt s input n).l2 = true) :
    ∃ m, n ≤ m ∧ executes (sysAt s input m).l2 (input m) = true := by
  refine eventually_of_rank (fun n => reqValid (sysAt s input n).l2 = true)
    (fun n => executes (sysAt s input n).l2 (input n) = true) (fun n => rank (sysAt s input n))
    (fun n => waitsFor (sysAt s input n)) (fun e n => e.happens (sysAt s input n) (input n))
    ?_ (fun n _ => hf.happens _ n) n hv
  intro n hv hne
  have hst : stall (sysAt s input n).l2 (input n) = true :=
    stall_iff.mpr ⟨hv, by simpa using hne⟩
  exact ⟨reqValid_step_of_stall hst,
    (sound_sysAt h input n).closer (refillOk_sysAt h hf n) (hf.answers n) hb hst⟩

theorem executed_mono (s : State g) (input : Nat → Input) {n m : Nat} (hnm : n ≤ m) :
    (sysAt s input n).executed <:+ (sysAt s input m).executed := by
  induction m, hnm using Nat.le_induction with
  | base => exact List.suffix_refl _
  | succ m _ ih =>
      refine ih.trans ?_
      show (sysAt s input m).executed <:+ ((sysAt s input m).step (input m)).executed
      simp only [Sys.step]
      split_ifs
      · exact List.suffix_cons _ _
      · exact List.suffix_refl _

theorem accepted_mono (s : State g) (input : Nat → Input) {n m : Nat} (hnm : n ≤ m) :
    (sysAt s input n).accepted <:+ (sysAt s input m).accepted := by
  induction m, hnm using Nat.le_induction with
  | base => exact List.suffix_refl _
  | succ m _ ih =>
      refine ih.trans ?_
      show (sysAt s input m).accepted <:+ ((sysAt s input m).step (input m)).accepted
      simp only [Sys.step]
      split_ifs
      · exact List.suffix_cons _ _
      · exact List.suffix_refl _

/-- Everything that has been accepted is executed in the end. -/
theorem accepted_executed (h : s.Reset) (hb : 0 < g.rowLineBits) (hf : Fair s input) (n : Nat) :
    ∃ m, n ≤ m ∧ (sysAt s input n).accepted.length ≤ (sysAt s input m).executed.length := by
  -- one request after the other
  suffices hk : ∀ k, k ≤ (sysAt s input n).accepted.length →
      ∃ m, n ≤ m ∧ k ≤ (sysAt s input m).executed.length from hk _ le_rfl
  intro k
  induction k with
  | zero => exact fun _ => ⟨n, le_rfl, Nat.zero_le _⟩
  | succ k ih =>
      intro hk
      obtain ⟨m, hnm, hm⟩ := ih (by omega)
      rcases Nat.lt_or_ge k (sysAt s input m).executed.length with hlt | hge
      · exact ⟨m, hnm, hlt⟩
      · have hsound := sound_sysAt h input m
        have hlen := congrArg List.length hsound.orderly.requests
        rw [List.length_append] at hlen
        have hmore := (accepted_mono s input hnm).length_le
        have hv : reqValid (sysAt s input m).l2 = true := by
          by_contra hno
          have hstash : (sysAt s input m).l2.wbStash.cyc = false := by
            by_contra hc
            exact hno (hsound.stash (by simpa using hc))
          simp only [waiting, hno, hstash] at hlen
          simp at hlen
          omega
        obtain ⟨m', hmm', he⟩ := latched_executed h hb hf hv
        refine ⟨m' + 1, by omega, ?_⟩
        have hle := (executed_mono s input hmm').length_le
        have hnext : (sysAt s input (m' + 1)).executed.length =
            (sysAt s input m').executed.length + 1 := by
          show ((sysAt s input m').step (input m')).executed.length = _
          simp [Sys.step, he]
        omega

/-- Requests are executed in order, each at most once; the acks come in the order of the requests,
one for each; a load ack and a store ack never come together.  With a litedram that does its part,
every request that has been accepted has its ack in the end. -/
theorem requests_once_in_order (h : s.Reset) (input : Nat → Input) :
    (∀ n, let x := sysAt s input n
      x.executed <:+ x.accepted ∧
      x.cmds.filterMap Cmd.writeAddr = (x.executed.filter (·.we)).map (dramAddr g ·.adr) ∧
      x.acks.map Answer.isStore <:+ x.executed.map (·.we) ∧
      ¬(x.l2.readAck1 = true ∧ x.l2.storeAck1 = true)) ∧
    (0 < g.rowLineBits → Fair s input → ∀ n, ∃ m, n ≤ m ∧
      (sysAt s input n).accepted.length ≤ (sysAt s input m).acks.length) := by
  refine ⟨?_, ?_⟩
  · intro n x
    have ho := (sound_sysAt h input n).orderly
    refine ⟨?_, ho.writes, ?_, ho.apart⟩
    · rw [ho.requests]
      exact List.suffix_append _ _
    · rw [ho.acks]
      exact List.suffix_append _ _
  · intro hb hf n
    obtain ⟨m, hnm, hle⟩ := accepted_executed h hb hf n
    exact ⟨m + 2, by omega,
      hle.trans (acks_two_steps (sound_sysAt h input m) (input m) (input (m + 1)))⟩

/-- No request, and litedram ready. -/
def restInput : Input :=
  ⟨noRequest, true, true, false, fun _ => 0⟩

/-- A store and a load of the same doubleword, then nothing. -/
def storeThenLoadForever (n : Nat) : Input :=
  (storeThenLoad[n]?).getD restInput

/-- With no request in the latch and the stash and no refill, a cycle at rest changes nothing. -/
theorem rest_step {g : Geometry} {x : Sys g}
    (h : x.l2.phase = .idle ∧ reqValid x.l2 = false ∧ x.l2.wbStash.cyc = false) :
    (x.step restInput).l2.phase = .idle ∧ reqValid (x.step restInput).l2 = false ∧
      (x.step restInput).l2.wbStash.cyc = false := by
  obtain ⟨hp, hv, hs⟩ := h
  have hop : reqOp x.l2 = .none := by simp [reqOp, hv]
  have hst : stall x.l2 restInput = false := by simp [stall, hop, ReqOp.isStore]
  have hno : startRefill x.l2 restInput = false := by simp [startRefill, hop]
  have hcyc : restInput.wbIn.cyc = false := rfl
  refine ⟨(L2.step_idle hp hno).1, ?_, ?_⟩
  · simp [Sys.step, L2.step, reqValid, requestLatch, hst, hs, hcyc]
  · simp [Sys.step, L2.step, requestLatch, hst, hs, hcyc]

theorem storeThenLoad_rests (n : Nat) (hn : 8 ≤ n) :
    (sysAt (State.zero smallCache) storeThenLoadForever n).l2.phase = .idle ∧
    reqValid (sysAt (State.zero smallCache) storeThenLoadForever n).l2 = false ∧
    (sysAt (State.zero smallCache) storeThenLoadForever n).l2.wbStash.cyc = false := by
  refine trace_invariant (fun x : Sys smallCache => x.l2.phase = .idle ∧ reqValid x.l2 = false ∧
    x.l2.wbStash.cyc = false) 8 ?_ (by decide +kernel) n hn
  intro m hm h
  have hrest : storeThenLoadForever m = restInput := by
    unfold storeThenLoadForever
    rw [List.getElem?_eq_none hm]
    rfl
  rw [hrest]
  exact rest_step h

theorem fair_storeThenLoad : Fair (State.zero smallCache) storeThenLoadForever := by
  have hready : ∀ n, (storeThenLoadForever n).cmdReady = true ∧
      (storeThenLoadForever n).wdataReady = true := by
    intro n
    rcases Nat.lt_or_ge n 8 with hn | hn
    · interval_cases n <;> exact ⟨rfl, rfl⟩
    · unfold storeThenLoadForever
      rw [List.getElem?_eq_none hn]
      exact ⟨rfl, rfl⟩
  have hanswers : ∀ n, Answers (sysAt (State.zero smallCache) storeThenLoadForever n)
      (storeThenLoadForever n) := by
    intro n
    rcases Nat.lt_or_ge n 8 with hn | hn
    · unfold Answers
      interval_cases n <;> decide +kernel
    · unfold Answers storeThenLoadForever
      rw [List.getElem?_eq_none hn]
      exact nofun
  refine ⟨hanswers, fun e n => ?_⟩
  cases e with
  | cmd => exact ⟨n, le_rfl, fun _ => (hready n).1⟩
  | wdata => exact ⟨n, le_rfl, fun _ => (hready n).2⟩
  | rdata =>
      refine ⟨n + 8, by omega, fun hlt => ?_⟩
      have hok : RefillOk (sysAt (State.zero smallCache) storeThenLoadForever (n + 8)) :=
        trace_invariant RefillOk 0 (fun m _ hs => hs.step (hanswers m))
          (refillOk_start (State.zero_reset smallCache)) (n + 8) (Nat.zero_le _)
      have := (hok.idle (storeThenLoad_rests (n + 8) (by omega)).1).2
      omega

theorem store_and_load_acked :
    (sysAt (State.zero smallCache) storeThenLoadForever 8).accepted.length = 2 ∧
    ∃ m, 8 ≤ m ∧ (sysAt (State.zero smallCache) storeThenLoadForever 8).accepted.length ≤
      (sysAt (State.zero smallCache) storeThenLoadForever m).acks.length :=
  ⟨by decide +kernel,
    (requests_once_in_order (State.zero_reset smallCache) storeThenLoadForever).2 (by decide)
      fair_storeThenLoad 8⟩

end

end Microwatt.L2
