import Microwatt.Loadstore1.Bytes
import Microwatt.Loadstore1.Finish

/-!
# Data formatting in the load/store pipeline

The requests in the stages of the unit are followed back to the instructions that they are part of:
an instruction is named by the cycle in which stage 1 took it.  The requests that are sent for a
store come to the store of its bytes, and the value that is put together from the doublewords that
come back for a load is that of its bytes.
-/

namespace Microwatt.Loadstore1

open Clocked (trace)
open Execute1 (InsnOp)

section Run

variable (hasFpu : Bool) (s : State) (input : Nat → Input)

/-- The unit before edge `n` of a run. -/
def stateAt (n : Nat) : State := trace (step hasFpu) s input n

/-- The instruction that the request in stage 1 is part of. -/
def takenOne : Nat → Option Nat
  | 0 => none
  | n + 1 =>
    if exception (stateAt hasFpu s input n) (input n) then none
    else if l2stall (stateAt hasFpu s input n) (input n) ||
        (stateAt hasFpu s input n).r1.busy then takenOne n
    else if (input n).lIn.valid then some n
    else none

/-- The instruction that the request in stage 2 is part of. -/
def takenTwo : Nat → Option Nat
  | 0 => none
  | n + 1 =>
    if stage2Free (stateAt hasFpu s input n) (input n) && stage1Ready (stateAt hasFpu s input n)
    then takenOne hasFpu s input n
    else takenTwo n

/-- The instruction that a request is sent for in cycle `n`. -/
def sentFor (n : Nat) : Option Nat :=
  if !(dOut hasFpu (stateAt hasFpu s input n) (input n)).valid then none
  else if (stateAt hasFpu s input n).r3.stage1En then
    if (stateAt hasFpu s input n).r1.busy then takenOne hasFpu s input n
    else if (input n).lIn.valid then some n
    else none
  else if (stateAt hasFpu s input n).r2.busy then takenTwo hasFpu s input n
  else none

/-- A doubleword that has come back for a load: the instruction, which of the two, the data. -/
structure Doubleword where
  insn : Option Nat
  second : Bool
  data : BitVec 64
deriving DecidableEq

/-- The last doubleword that has come back for a load. -/
def lastRead : Nat → Option Doubleword
  | 0 => none
  | n + 1 =>
    if (input n).dIn.valid && (stateAt hasFpu s input n).r2.req.load then
      some ⟨takenTwo hasFpu s input n, (stateAt hasFpu s input n).r2.req.dwordIndex,
        (input n).dIn.data⟩
    else lastRead n

/-- The request of an instruction, before it is split. -/
def request (m : Nat) : Request :=
  reqIn hasFpu (input m).lIn (stateAt hasFpu s input m).r1.addr0

/-- A load or store of bytes, other than a hash instruction. -/
structure Moves (l : Execute1ToLoadstore1) : Prop where
  op : l.op = .load ∨ l.op = .store
  plain : l.hash = false
  sized : l.length = 1 ∨ l.length = 2 ∨ l.length = 4 ∨ l.length = 8

theorem trimAddr_trimAddr (mode32bit : Bool) (x : BitVec 64) :
    trimAddr mode32bit (trimAddr mode32bit x) = trimAddr mode32bit x := by
  cases mode32bit with
  | false => rfl
  | true =>
      apply BitVec.eq_of_toNat_eq
      rw [(toNat_trimAddr _).1, (toNat_trimAddr _).1, Nat.mod_mod]

/-- The bytes that an instruction is about. -/
def transfer (l : Execute1ToLoadstore1) (addr0 : BitVec 64) (h : Moves l) : Transfer where
  addr := addrIn l addr0
  length := l.length
  mode32bit := l.mode32bit
  byteReverse := l.byteReverse
  trimmed := trimAddr_trimAddr _ _
  sized := h.sized

/-- The first or the second request of an instruction. -/
def part (m : Nat) (second : Bool) : Request :=
  if second then secondDword (request hasFpu s input m) else request hasFpu s input m

/-- The request is a part of the instruction, with data `d` to store. -/
structure IsPart (m : Nat) (second : Bool) (d : BitVec 64) (q : Request) : Prop where
  eq : q = { part hasFpu s input m second with
    valid := q.valid, dcReq := q.dcReq, incomplete := q.incomplete, dawrIntr := q.dawrIntr
    storeData := d }
  two : second = true → (request hasFpu s input m).twoDwords = true
  more : q.incomplete = true → second = false ∧ (request hasFpu s input m).twoDwords = true
  last : q.dcReq = true → q.incomplete = false →
    second = (request hasFpu s input m).twoDwords

end Run

section Parts

variable {hasFpu : Bool} {s : State} {input : Nat → Input} {m n : Nat} {second : Bool}
  {d : BitVec 64} {q : Request}

/-- The second part follows the first. -/
theorem IsPart.next (h : IsPart hasFpu s input m second d q) (hi : q.incomplete = true) :
    IsPart hasFpu s input m true d (secondDword q) := by
  obtain ⟨rfl, htwo⟩ := h.more hi
  refine ⟨?_, fun _ => htwo, fun h => ?_, fun _ _ => htwo.symm⟩
  · conv_lhs => rw [h.eq]
    rfl
  · cases h

/-- What a request keeps of its part when its progress is marked in it. -/
theorem IsPart.mark (h : IsPart hasFpu s input m second d q) {q' : Request}
    (hq : q' = { q with valid := q'.valid, dcReq := q'.dcReq, dawrIntr := q'.dawrIntr })
    (hd : q'.dcReq = true → q.dcReq = true) : IsPart hasFpu s input m second d q' := by
  have hi : q'.incomplete = q.incomplete := by
    conv_lhs => rw [hq]
  refine ⟨?_, h.two, fun h' => h.more (hi ▸ h'), fun h' hl => h.last (hd h') (hi ▸ hl)⟩
  conv_lhs => rw [hq, h.eq]
  conv_rhs => rw [hi]

/-- The request that stage 1 makes of an instruction is its first part. -/
theorem isPart_request (hb : (stateAt hasFpu s input n).r1.busy = false) :
    IsPart hasFpu s input n false (request hasFpu s input n).storeData
      (stage1Req hasFpu (stateAt hasFpu s input n) (input n)) := by
  unfold stage1Req
  rw [hb]
  refine ⟨rfl, nofun, fun hi => ⟨rfl, (Bool.and_eq_true_iff.mp hi).2⟩, fun hd hi => ?_⟩
  have hd' : dcReqIn (input n).lIn (stateAt hasFpu s input n).r1.addr0 = true :=
    (Bool.and_eq_true_iff.mp hd).1
  have hi' : (dcReqIn (input n).lIn (stateAt hasFpu s input n).r1.addr0 &&
    (request hasFpu s input n).twoDwords) = false := hi
  rw [hd', Bool.true_and] at hi'
  exact hi'.symm

/-- The request that stage 1 makes of the one that it holds is a part of the same instruction. -/
theorem IsPart.stage1Req (hb : (stateAt hasFpu s input n).r1.busy = true)
    (h : IsPart hasFpu s input m second d (stateAt hasFpu s input n).r1.req) :
    ∃ second', IsPart hasFpu s input m second' d
      (stage1Req hasFpu (stateAt hasFpu s input n) (input n)) := by
  unfold Loadstore1.stage1Req
  rw [hb]
  simp only [Bool.not_true, Bool.false_eq_true, if_false]
  split_ifs with hq hi
  · exact ⟨_, h⟩
  · exact ⟨_, h.next hi⟩
  · exact ⟨_, h.mark rfl fun hd => by cases hd⟩

theorem IsPart.not_hash (h : IsPart hasFpu s input m second d q) (hm : Moves (input m).lIn) :
    q.hashst = false ∧ q.hashcmp = false := by
  rw [h.eq]
  cases second <;> simp [part, request, reqIn, secondDword, hm.plain]

/-- The controls of a part are those of its instruction. -/
theorem IsPart.controls (h : IsPart hasFpu s input m second d q) :
    q.length = (input m).lIn.length ∧ q.byteReverse = (input m).lIn.byteReverse ∧
    q.brevMask = (request hasFpu s input m).brevMask ∧ q.signExtend = (input m).lIn.signExtend ∧
    q.storeData = d ∧ q.dwordIndex = second := by
  rw [h.eq]
  cases second <;> exact ⟨rfl, rfl, rfl, rfl, rfl, rfl⟩

theorem IsPart.load_eq (h : IsPart hasFpu s input m second d q) :
    q.load = (request hasFpu s input m).load := by
  rw [h.eq]
  cases second <;> rfl

/-- What is sent to the dcache is what stage 1 latches. -/
theorem r1Req_of_not_hash {x : State} {i : Input}
    (h : (r1Req hasFpu x i).hashst = false ∧ (r1Req hasFpu x i).hashcmp = false) :
    r1Req hasFpu x i = Loadstore1.stage1Req hasFpu x i := by
  obtain ⟨hf, -⟩ := @r1Req_flags hasFpu x i
  have h1 : (r1Req hasFpu x i).hashst = (Loadstore1.stage1Req hasFpu x i).hashst :=
    congrArg Flags.hashst hf
  have h2 : (r1Req hasFpu x i).hashcmp = (Loadstore1.stage1Req hasFpu x i).hashcmp :=
    congrArg Flags.hashcmp hf
  have hi : hashIssue hasFpu x i = false := by simp [hashIssue, ← h1, ← h2, h]
  unfold r1Req
  rw [hi]
  rfl

theorem IsPart.r1Req (h : IsPart hasFpu s input m second d
    (Loadstore1.stage1Req hasFpu (stateAt hasFpu s input n) (input n)))
    (hm : Moves (input m).lIn) : r1Req hasFpu (stateAt hasFpu s input n) (input n) =
      Loadstore1.stage1Req hasFpu (stateAt hasFpu s input n) (input n) := by
  obtain ⟨hf, -⟩ := @r1Req_flags hasFpu (stateAt hasFpu s input n) (input n)
  obtain ⟨h1, h2⟩ := h.not_hash hm
  exact r1Req_of_not_hash
    ⟨(congrArg Flags.hashst hf).trans h1, (congrArg Flags.hashcmp hf).trans h2⟩

end Parts

section Marks

variable (hasFpu : Bool) (s : State) (input : Nat → Input)

/-- Stage 1 holds a part of the instruction that it is said to hold, and its address. -/
def OneIs (n : Nat) : Prop :=
  ∀ m, takenOne hasFpu s input n = some m → Moves (input m).lIn →
    (stateAt hasFpu s input n).r1.addr0 = (request hasFpu s input m).addr ∧
    ∃ second, IsPart hasFpu s input m second (request hasFpu s input m).storeData
      (stateAt hasFpu s input n).r1.req

/-- `wr_sel` for a request: the address, the converted or the formatted data. -/
def wrSelOf (q : Request) : BitVec 2 :=
  if q.doUpdate || q.store || q.readSpr then 0 else if q.loadSp then 1 else 2

/-- So does stage 2, with its data in their lanes and the controls for the data that come back. -/
def TwoIs (n : Nat) : Prop :=
  ∀ m, takenTwo hasFpu s input n = some m → ∀ hm : Moves (input m).lIn,
    (transfer (input m).lIn (stateAt hasFpu s input m).r1.addr0 hm).Formats
      (stateAt hasFpu s input n).r2 ∧
    (stateAt hasFpu s input n).r2.wrSel = wrSelOf (request hasFpu s input m) ∧
    ∃ second, IsPart hasFpu s input m second
      ((transfer (input m).lIn (stateAt hasFpu s input m).r1.addr0 hm).storeData
        (request hasFpu s input m).storeData)
      (stateAt hasFpu s input n).r2.req

variable {hasFpu s input} {n : Nat}

theorem stateAt_succ (n : Nat) : stateAt hasFpu s input (n + 1) =
    step hasFpu (stateAt hasFpu s input n) (input n) := rfl

theorem OneIs.step (h : OneIs hasFpu s input n)
    (hc : (input n).lIn.valid = true → busy (stateAt hasFpu s input n) (input n) = false) :
    OneIs hasFpu s input (n + 1) := by
  intro m hm hmov
  rw [stateAt_succ]
  change (r1in hasFpu _ _).addr0 = _ ∧ ∃ second, IsPart _ _ _ _ _ _ (r1in hasFpu _ _).req
  simp only [takenOne] at hm
  cases he : exception (stateAt hasFpu s input n) (input n) with
  | true => simp [he] at hm
  | false =>
      simp only [he, Bool.false_eq_true, if_false] at hm
      cases hl : l2stall (stateAt hasFpu s input n) (input n) with
      | true =>
          -- stage 1 keeps what it holds, and no instruction is presented
          have hv : (input n).lIn.valid = false := by
            by_contra hv
            have := (l2stall_false_of_busy (hc (by simpa using hv))).1
            rw [hl] at this
            cases this
          simp only [hl, Bool.true_or, if_true] at hm
          obtain ⟨ha, second, hp⟩ := h m hm hmov
          refine ⟨?_, second, ?_⟩
          · simp [r1in, hv, ha]
          · simpa [r1in, he, hl] using hp
      | false =>
          have hreq : (r1in hasFpu (stateAt hasFpu s input n) (input n)).req =
              r1Req hasFpu (stateAt hasFpu s input n) (input n) := by
            simp [r1in, he, hl]
          cases hb : (stateAt hasFpu s input n).r1.busy with
          | true =>
              simp only [hl, hb, Bool.false_or, if_true] at hm
              obtain ⟨ha, second, hp⟩ := h m hm hmov
              obtain ⟨second', hp'⟩ := hp.stage1Req hb
              refine ⟨?_, second', ?_⟩
              · simp [r1in, hb, ha]
              · rw [hreq, hp'.r1Req hmov]
                exact hp'
          | false =>
              simp only [hl, hb, Bool.false_or, Bool.false_eq_true, if_false] at hm
              cases hv : (input n).lIn.valid with
              | false => simp [hv] at hm
              | true =>
                  obtain rfl : n = m := by simpa [hv] using hm
                  have hp := @isPart_request hasFpu s input n hb
                  refine ⟨?_, false, ?_⟩
                  · simp only [r1in, hb, hv, Bool.not_false, Bool.and_self, if_true]
                    unfold stage1Req
                    rw [hb]
                    rfl
                  · rw [hreq, hp.r1Req hmov]
                    exact hp

/-- What else goes on in stage 2 leaves the request and its controls as they are. -/
theorem endStage2_marks (s : State) (i : Input) (v : RegStage2) :
    (endStage2 s i (endBusy s i (mmuDone s i v))).byteIndex = v.byteIndex ∧
    (endStage2 s i (endBusy s i (mmuDone s i v))).useSecond = v.useSecond ∧
    (endStage2 s i (endBusy s i (mmuDone s i v))).wrSel = v.wrSel ∧
    (endStage2 s i (endBusy s i (mmuDone s i v))).req =
      { v.req with valid := (endStage2 s i (endBusy s i (mmuDone s i v))).req.valid } := by
  unfold endStage2 endBusy mmuDone
  split_ifs <;> exact ⟨rfl, rfl, rfl, rfl⟩

theorem dbgRead_marks (s : State) (i : Input) (v : RegStage2) :
    (dbgRead s i v).byteIndex = v.byteIndex ∧ (dbgRead s i v).useSecond = v.useSecond ∧
    (dbgRead s i v).wrSel = v.wrSel ∧ (dbgRead s i v).req = v.req := by
  unfold dbgRead
  split_ifs <;> exact ⟨rfl, rfl, rfl, rfl⟩

/-- The data of a store are rotated and reversed while its request is in stage 1. -/
theorem storeData_eq {m : Nat} {second : Bool} (hm : Moves (input m).lIn)
    (ha : (stateAt hasFpu s input n).r1.addr0 = (request hasFpu s input m).addr)
    (hp : IsPart hasFpu s input m second (request hasFpu s input m).storeData
      (stateAt hasFpu s input n).r1.req) :
    storeData (stateAt hasFpu s input n) =
      (transfer (input m).lIn (stateAt hasFpu s input m).r1.addr0 hm).storeData
        (request hasFpu s input m).storeData := by
  obtain ⟨-, -, c3, -, c5, -⟩ := hp.controls
  unfold storeData
  rw [ha, c3, c5]
  rfl

/-- The request of stage 1 goes to stage 2 with its controls. -/
theorem formats_moveToStage2 {m : Nat} {second : Bool} (hm : Moves (input m).lIn)
    (ha : (stateAt hasFpu s input n).r1.addr0 = (request hasFpu s input m).addr)
    (hp : IsPart hasFpu s input m second (request hasFpu s input m).storeData
      (stateAt hasFpu s input n).r1.req) (v : RegStage2) :
    (transfer (input m).lIn (stateAt hasFpu s input m).r1.addr0 hm).Formats
      (moveToStage2 (stateAt hasFpu s input n) (input n) v) ∧
    (moveToStage2 (stateAt hasFpu s input n) (input n) v).wrSel =
      wrSelOf (request hasFpu s input m) ∧
    IsPart hasFpu s input m second
      ((transfer (input m).lIn (stateAt hasFpu s input m).r1.addr0 hm).storeData
        (request hasFpu s input m).storeData)
      (moveToStage2 (stateAt hasFpu s input n) (input n) v).req := by
  obtain ⟨c1, c2, c3, -⟩ := hp.controls
  refine ⟨⟨c1, c2, ?_, ?_⟩, ?_, ?_, hp.two, hp.more, hp.last⟩
  · simp only [moveToStage2, ha, c3]
    rfl
  · simp only [moveToStage2, ha, c3]
    rfl
  · change wrSelOf (stateAt hasFpu s input n).r1.req = _
    rw [hp.eq]
    cases second <;> rfl
  · unfold moveToStage2
    simp only
    rw [storeData_eq hm ha hp]
    conv_lhs => rw [hp.eq]

theorem formats_endStage2 {m : Nat} {second : Bool} {d : BitVec 64} {a : Transfer} (x : State)
    (i : Input) {v : RegStage2} (hf : a.Formats v)
    (hp : IsPart hasFpu s input m second d v.req) :
    a.Formats (endStage2 x i (endBusy x i (mmuDone x i v))) ∧
    (endStage2 x i (endBusy x i (mmuDone x i v))).wrSel = v.wrSel ∧
    IsPart hasFpu s input m second d (endStage2 x i (endBusy x i (mmuDone x i v))).req := by
  obtain ⟨b1, b2, b4, b3⟩ := endStage2_marks x i v
  refine ⟨⟨?_, ?_, b1.trans hf.byteIndex, b2.trans hf.useSecond⟩, b4, ?_⟩
  · rw [b3]
    exact hf.length
  · rw [b3]
    exact hf.byteReverse
  · rw [b3]
    exact hp.mark rfl id

theorem TwoIs.step (h : TwoIs hasFpu s input n) (h1 : OneIs hasFpu s input n) :
    TwoIs hasFpu s input (n + 1) := by
  intro m hm hmov
  rw [stateAt_succ]
  change Transfer.Formats _ (r2in _ _) ∧ (r2in _ _).wrSel = _ ∧
    ∃ second, IsPart _ _ _ _ _ _ (r2in _ _).req
  simp only [takenTwo] at hm
  obtain ⟨d1, d2, d4, d3⟩ :=
    dbgRead_marks (stateAt hasFpu s input n) (input n) (stateAt hasFpu s input n).r2
  unfold r2in
  cases hfree : stage2Free (stateAt hasFpu s input n) (input n) with
  | false =>
      simp only [hfree, Bool.false_and, Bool.false_eq_true, if_false] at hm ⊢
      obtain ⟨hf, hw, second, hp⟩ := h m hm hmov
      rw [← d3] at hp
      have hf' : (transfer (input m).lIn (stateAt hasFpu s input m).r1.addr0 hmov).Formats
          (dbgRead (stateAt hasFpu s input n) (input n) (stateAt hasFpu s input n).r2) :=
        ⟨(congrArg Request.length d3).trans hf.length,
          (congrArg Request.byteReverse d3).trans hf.byteReverse, d1.trans hf.byteIndex,
          d2.trans hf.useSecond⟩
      obtain ⟨hf2, hw2, hp2⟩ := formats_endStage2 (stateAt hasFpu s input n) (input n) hf' hp
      exact ⟨hf2, hw2.trans (d4.trans hw), second, hp2⟩
  | true =>
      cases hready : stage1Ready (stateAt hasFpu s input n) with
      | true =>
          simp only [hfree, hready, Bool.and_self, if_true] at hm ⊢
          obtain ⟨ha, second, hp⟩ := h1 m hm hmov
          obtain ⟨hf, hw, hp1⟩ := formats_moveToStage2 hmov ha hp
            (dbgRead (stateAt hasFpu s input n) (input n) (stateAt hasFpu s input n).r2)
          obtain ⟨hf2, hw2, hp2⟩ := formats_endStage2 (stateAt hasFpu s input n) (input n) hf hp1
          exact ⟨hf2, hw2.trans hw, second, hp2⟩
      | false =>
          simp only [hfree, hready, Bool.and_false, Bool.false_eq_true, if_false, if_true] at hm ⊢
          obtain ⟨hf, hw, second, hp⟩ := h m hm hmov
          rw [← d3] at hp
          have hf' : (transfer (input m).lIn (stateAt hasFpu s input m).r1.addr0 hmov).Formats
              (bubbleStage2
                (dbgRead (stateAt hasFpu s input n) (input n) (stateAt hasFpu s input n).r2)) :=
            ⟨(congrArg Request.length d3).trans hf.length,
              (congrArg Request.byteReverse d3).trans hf.byteReverse, d1.trans hf.byteIndex,
              d2.trans hf.useSecond⟩
          have hp' : IsPart hasFpu s input m second _ (bubbleStage2
              (dbgRead (stateAt hasFpu s input n) (input n) (stateAt hasFpu s input n).r2)).req :=
            hp.mark rfl id
          obtain ⟨hf2, hw2, hp2⟩ := formats_endStage2 (stateAt hasFpu s input n) (input n) hf' hp'
          exact ⟨hf2, hw2.trans (d4.trans hw), second, hp2⟩

/-- The stages hold what they are said to hold before every edge of a run. -/
theorem marks_run
    (hc : ∀ n, (input n).lIn.valid = true → busy (stateAt hasFpu s input n) (input n) = false)
    (n : Nat) : OneIs hasFpu s input n ∧ TwoIs hasFpu s input n := by
  induction n with
  | zero =>
      constructor
      · intro m hm
        cases hm
      · intro m hm
        cases hm
  | succ n ih => exact ⟨ih.1.step (hc n), ih.2.step ih.1⟩

/-! ### Stores -/

/-- A request of a store, with the data of the next cycle: the first or the second write. -/
structure Writes (a : Transfer) (v : BitVec 64) (q q' : Loadstore1ToDcache) : Prop where
  select : q.addr = a.addr ∧ q.byteSel = a.sel.extractLsb' 0 8 ∨
    a.crosses = true ∧ q.addr = a.second ∧ q.byteSel = a.sel.extractLsb' 8 8
  data : q'.data = a.storeData v

theorem IsPart.select {m : Nat} {second : Bool} {d : BitVec 64} {q : Request}
    (h : IsPart hasFpu s input m second d q) (hm : Moves (input m).lIn) {a : Transfer}
    (ha : a = transfer (input m).lIn (stateAt hasFpu s input m).r1.addr0 hm) :
    q.addr = a.addr ∧ q.byteSel = a.sel.extractLsb' 0 8 ∨
    a.crosses = true ∧ q.addr = a.second ∧ q.byteSel = a.sel.extractLsb' 8 8 := by
  subst ha
  rw [h.eq]
  cases second with
  | false => exact Or.inl ⟨rfl, rfl⟩
  | true => exact Or.inr ⟨h.two rfl, rfl, rfl⟩

/-- The request that goes to the dcache. -/
def dReq (hasFpu : Bool) (x : State) (i : Input) : Request :=
  if x.r3.stage1En then stage1Req hasFpu x i else x.r2.req

/-- A request is sent from stage 1, which latches it, or again from stage 2. -/
theorem sentFor_cases {m : Nat} (hs : sentFor hasFpu s input n = some m) :
    ((stateAt hasFpu s input n).r3.stage1En = true ∧
      stage1Dcreq hasFpu (stateAt hasFpu s input n) (input n) = true ∧
      takenOne hasFpu s input (n + 1) = some m ∧
      (stateAt hasFpu s input (n + 1)).r1.req =
        r1Req hasFpu (stateAt hasFpu s input n) (input n)) ∨
    ((stateAt hasFpu s input n).r3.stage1En = false ∧
      l2stall (stateAt hasFpu s input n) (input n) = true ∧
      takenTwo hasFpu s input n = some m ∧ takenTwo hasFpu s input (n + 1) = some m) := by
  unfold sentFor at hs
  cases hv : (dOut hasFpu (stateAt hasFpu s input n) (input n)).valid with
  | false => simp [hv] at hs
  | true =>
      simp only [hv, Bool.not_true, Bool.false_eq_true, if_false] at hs
      cases hen : (stateAt hasFpu s input n).r3.stage1En with
      | true =>
          have hdc : stage1Dcreq hasFpu (stateAt hasFpu s input n) (input n) = true := by
            simpa [dOut, hen] using hv
          have hadv : advance (stateAt hasFpu s input n) (input n) = true := by
            simp only [stage1Dcreq, Bool.and_eq_true] at hdc
            exact hdc.1.1
          obtain ⟨he, hl⟩ : exception (stateAt hasFpu s input n) (input n) = false ∧
              l2stall (stateAt hasFpu s input n) (input n) = false := by
            simpa [advance] using hadv
          refine Or.inl ⟨rfl, hdc, ?_, ?_⟩
          · rw [hen, if_pos rfl] at hs
            simpa [takenOne, he, hl] using hs
          · rw [stateAt_succ]
            change (r1in hasFpu _ _).req = _
            simp [r1in, he, hl]
      | false =>
          rw [hen] at hs
          simp only [Bool.false_eq_true, if_false] at hs
          split_ifs at hs with hb
          have hl : l2stall (stateAt hasFpu s input n) (input n) = true := by simp [l2stall, hb]
          refine Or.inr ⟨rfl, hl, hs, ?_⟩
          simp only [takenTwo, stage2Free, hl, Bool.true_or, Bool.not_true, Bool.false_and,
            Bool.false_eq_true, if_false]
          exact hs

/-- The request that is sent is a part of its instruction. -/
theorem isPart_sent
    (hc : ∀ n, (input n).lIn.valid = true → busy (stateAt hasFpu s input n) (input n) = false)
    {m : Nat} (hs : sentFor hasFpu s input n = some m) (hm : Moves (input m).lIn) :
    ∃ second d, IsPart hasFpu s input m second d
      (dReq hasFpu (stateAt hasFpu s input n) (input n)) := by
  unfold dReq
  rcases sentFor_cases hs with ⟨hen, -, htaken, hr1⟩ | ⟨hen, -, htaken, -⟩
  · obtain ⟨-, second, hp⟩ := (marks_run hc (n + 1)).1 m htaken hm
    rw [hr1, r1Req_of_not_hash (hr1 ▸ hp.not_hash hm)] at hp
    rw [hen, if_pos rfl]
    exact ⟨second, _, hp⟩
  · obtain ⟨-, -, second, hp⟩ := (marks_run hc n).2 m htaken hm
    rw [hen, if_neg (by decide)]
    exact ⟨second, _, hp⟩

/-- The requests that are sent for a store make its writes. -/
theorem writes_of_sentFor
    (hc : ∀ n, (input n).lIn.valid = true → busy (stateAt hasFpu s input n) (input n) = false)
    {m : Nat} (hs : sentFor hasFpu s input n = some m) (hm : Moves (input m).lIn) :
    Writes (transfer (input m).lIn (stateAt hasFpu s input m).r1.addr0 hm)
      (request hasFpu s input m).storeData (dOut hasFpu (stateAt hasFpu s input n) (input n))
      (dOut hasFpu (stateAt hasFpu s input (n + 1)) (input (n + 1))) := by
  constructor
  · obtain ⟨second, d, hp⟩ := isPart_sent hc hs hm
    exact hp.select hm rfl
  · rcases sentFor_cases hs with ⟨-, hdc, htaken, -⟩ | ⟨-, hl, -, htaken⟩
    · -- the request is in stage 1 now
      obtain ⟨ha, second, hp⟩ := (marks_run hc (n + 1)).1 m htaken hm
      have hq : (stateAt hasFpu s input (n + 1)).stage1Dreq = true := hdc
      rw [← storeData_eq hm ha hp]
      simp [dOut, hq]
    · -- it is in stage 2 still
      obtain ⟨-, -, second, hp⟩ := (marks_run hc (n + 1)).2 m htaken hm
      have hq : (stateAt hasFpu s input (n + 1)).stage1Dreq = false := by
        rw [stateAt_succ]
        change stage1Dcreq hasFpu _ _ = false
        simp [stage1Dcreq, advance, hl]
      obtain ⟨-, -, -, -, c5, -⟩ := hp.controls
      rw [← c5]
      simp [dOut, hq]

/-! ### Loads -/

theorem raise_loadData (x : State) (i : Input) (v : RegStage3) :
    (raise x i v).loadData = v.loadData := by
  unfold raise
  split_ifs <;> rfl

theorem sprWrites_loadData (x : State) (v : RegStage3) :
    (sprWrites x v).loadData = v.loadData := by
  unfold sprWrites
  dsimp only
  split_ifs <;> rfl

theorem loadData_eq (x : State) (i : Input) : (r3in x i).loadData =
    if i.dIn.valid && x.r2.req.load then dataPermuted x i else x.r3.loadData := by
  unfold r3in
  dsimp only
  by_cases he : exception x i = true
  · simp only [he, if_true, raise_loadData, sprWrites_loadData]
  · simp only [he, Bool.false_eq_true, if_false, sprWrites_loadData]

/-- Stage 3 keeps the last doubleword that has come back for a load, with its bytes in their
places. -/
theorem loadData_lastRead
    (hc : ∀ n, (input n).lIn.valid = true → busy (stateAt hasFpu s input n) (input n) = false)
    {m : Nat} (hm : Moves (input m).lIn) {second : Bool} {d : BitVec 64}
    (hr : lastRead hasFpu s input n = some ⟨some m, second, d⟩) :
    (stateAt hasFpu s input n).r3.loadData =
      (transfer (input m).lIn (stateAt hasFpu s input m).r1.addr0 hm).permuted d := by
  induction n with
  | zero => cases hr
  | succ n ih =>
      rw [stateAt_succ]
      change (r3in _ _).loadData = _
      rw [loadData_eq]
      simp only [lastRead] at hr
      split_ifs at hr ⊢ with hv
      · simp only [Option.some.injEq, Doubleword.mk.injEq] at hr
        obtain ⟨htwo, -, rfl⟩ := hr
        exact ((marks_run hc n).2 m htwo hm).1.dataPermuted
      · exact ih hr

/-- The doublewords that have come back for the load `m` are those of a memory: the second, or the
only one, comes now, and the first was the last to come before. -/
structure Returned (hasFpu : Bool) (s : State) (input : Nat → Input) (mem : Mem) (a : Transfer)
    (m n : Nat) : Prop where
  first : a.crosses = true →
    lastRead hasFpu s input n = some ⟨some m, false, readDword mem a.addr⟩
  last : (input n).dIn.data = readDword mem (if a.crosses then a.second else a.addr)

theorem dataTrimmed_of_returned
    (hc : ∀ n, (input n).lIn.valid = true → busy (stateAt hasFpu s input n) (input n) = false)
    {m : Nat} (htwo : takenTwo hasFpu s input n = some m) (hm : Moves (input m).lIn)
    (hlast : (stateAt hasFpu s input n).r2.req.dcReq = true ∧
      (stateAt hasFpu s input n).r2.req.incomplete = false) {mem : Mem}
    (hr : Returned hasFpu s input mem
      (transfer (input m).lIn (stateAt hasFpu s input m).r1.addr0 hm) m n) :
    dataTrimmed (stateAt hasFpu s input n) (input n) =
      (transfer (input m).lIn (stateAt hasFpu s input m).r1.addr0 hm).extend
        (input m).lIn.signExtend
        ((transfer (input m).lIn (stateAt hasFpu s input m).r1.addr0 hm).bytes mem) := by
  obtain ⟨hf, -, second, hp⟩ := (marks_run hc n).2 m htwo hm
  obtain ⟨-, -, -, c4, -, c6⟩ := hp.controls
  have hd : (stateAt hasFpu s input n).r2.req.dwordIndex =
      (transfer (input m).lIn (stateAt hasFpu s input m).r1.addr0 hm).crosses := by
    rw [c6]
    exact hp.last hlast.1 hlast.2
  have hread : Transfer.Read _ mem (stateAt hasFpu s input n) (input n) :=
    ⟨fun hcr => loadData_lastRead hc hm (hr.first hcr), hr.last⟩
  rw [Transfer.dataTrimmed_eq hf hd hread, c4]

end Marks

end Microwatt.Loadstore1
