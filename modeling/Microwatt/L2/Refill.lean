import Microwatt.L2.Protocol

/-!
# The refill machine

A refill reads the rows of a line one after the other, from the row that was missed around to the
row before it.  The invariant counts the rows that have come in and the reads that are still out.
-/

namespace Microwatt.L2

open Clocked SyncFifo

section

variable {g : Geometry}

/-! ## Addresses -/

theorem rowPerLine_pos : 0 < rowPerLine g := by
  unfold rowPerLine
  positivity

/-- The number of the line in the DRAM. -/
def lineOf (g : Geometry) (tag index : Nat) : Nat :=
  tag * 2 ^ g.indexBits + index

theorem dramAddr_div (adr : WbAddr) :
    dramAddr g adr / rowPerLine g = lineOf g (getTag g adr) (getIndex g adr) := by
  unfold lineOf getTag getIndex
  have hpow : 2 ^ (g.indexBits + g.rowLineBits) = rowPerLine g * 2 ^ g.indexBits := by
    rw [rowPerLine, ← Nat.pow_add, Nat.add_comm]
  rw [hpow, ← Nat.div_div_eq_div_mul]
  have := Nat.div_add_mod (dramAddr g adr / rowPerLine g) (2 ^ g.indexBits)
  rw [Nat.mul_comm] at this
  exact this.symm

theorem getRow_eq (adr : WbAddr) :
    getRow g adr = getIndex g adr * rowPerLine g + dramAddr g adr % rowPerLine g := by
  unfold getRow getIndex
  have hpow : 2 ^ (g.indexBits + g.rowLineBits) = rowPerLine g * 2 ^ g.indexBits := by
    rw [rowPerLine, ← Nat.pow_add, Nat.add_comm]
  rw [hpow, Nat.mod_mul, Nat.add_comm, Nat.mul_comm]

theorem getRow_mod (adr : WbAddr) :
    getRow g adr % rowPerLine g = dramAddr g adr % rowPerLine g := by
  rw [getRow_eq, Nat.mul_add_mod_self_right, Nat.mod_mod]

theorem getIndex_lt (adr : WbAddr) : getIndex g adr < 2 ^ g.indexBits :=
  Nat.mod_lt _ (by positivity)

/-- The index and the tag are those of the line. -/
theorem lineOf_inj {t t' x x' : Nat} (hx : x < 2 ^ g.indexBits) (hx' : x' < 2 ^ g.indexBits)
    (h : lineOf g t x = lineOf g t' x') : t = t' ∧ x = x' := by
  unfold lineOf at h
  have hmod := congrArg (· % 2 ^ g.indexBits) h
  have hdiv := congrArg (· / 2 ^ g.indexBits) h
  simp only [Nat.mul_add_mod_self_right, Nat.mod_eq_of_lt hx, Nat.mod_eq_of_lt hx'] at hmod
  have hpos : 0 < 2 ^ g.indexBits := by positivity
  simp only [Nat.mul_comm _ (2 ^ g.indexBits), Nat.mul_add_div hpos, Nat.div_eq_of_lt hx,
    Nat.div_eq_of_lt hx', Nat.add_zero] at hdiv
  exact ⟨hdiv, hmod⟩

/-- Row `k` after the first one of a refill that ends with `last`. -/
def rowAt (g : Geometry) (last k : Nat) : Nat :=
  (last + 1 + k) % rowPerLine g

theorem rowAt_lt (last k : Nat) : rowAt g last k < rowPerLine g :=
  Nat.mod_lt _ rowPerLine_pos

theorem rowAt_mod (last k : Nat) : rowAt g last k % rowPerLine g = rowAt g last k :=
  Nat.mod_mod _ _

theorem nextRow_rowAt (line last k : Nat) :
    nextRow g (line * rowPerLine g + rowAt g last k) =
      line * rowPerLine g + rowAt g last (k + 1) := by
  have hpos := rowPerLine_pos (g := g)
  unfold nextRow
  rw [Nat.mul_add_mod_self_right, rowAt_mod, Nat.mul_comm line, Nat.mul_add_div hpos,
    Nat.div_eq_of_lt (rowAt_lt last k), Nat.add_zero]
  congr 1
  · exact Nat.mul_comm _ _
  · unfold rowAt
    rw [Nat.mod_add_mod, Nat.add_assoc]

/-- The last row comes after all the others. -/
theorem isLastRow_rowAt {line last k : Nat} (hl : last < rowPerLine g) (hb : 0 < g.rowLineBits)
    (hk : k < rowPerLine g) :
    isLastRow g (line * rowPerLine g + rowAt g last k) last = true ↔ k = rowPerLine g - 1 := by
  unfold isLastRow
  rw [Nat.mul_add_mod_self_right, rowAt_mod]
  simp only [hb, decide_true, Bool.true_and, beq_iff_eq, rowAt]
  constructor
  · intro h
    rcases Nat.lt_or_ge (last + 1 + k) (rowPerLine g) with hlt | hge
    · rw [Nat.mod_eq_of_lt hlt] at h
      omega
    · rw [Nat.mod_eq_sub_mod hge, Nat.mod_eq_of_lt (by omega)] at h
      omega
  · intro h
    rw [Nat.mod_eq_sub_mod (by omega), Nat.mod_eq_of_lt (by omega)]
    omega

/-- Every row is the last one or comes before it. -/
theorem exists_rowAt {last r : Nat} (hl : last < rowPerLine g) (hr : r < rowPerLine g) :
    r = rowAt g last (rowPerLine g - 1) ∨ ∃ m < rowPerLine g - 1, r = rowAt g last m := by
  unfold rowAt
  rcases Nat.lt_trichotomy r last with h | h | h
  · refine Or.inr ⟨r + rowPerLine g - (last + 1), by omega, ?_⟩
    rw [show last + 1 + (r + rowPerLine g - (last + 1)) = r + rowPerLine g by omega,
      Nat.add_mod_right, Nat.mod_eq_of_lt hr]
  · left
    rw [show last + 1 + (rowPerLine g - 1) = last + rowPerLine g by omega, Nat.add_mod_right,
      Nat.mod_eq_of_lt hl, h]
  · refine Or.inr ⟨r - (last + 1), by omega, ?_⟩
    rw [show last + 1 + (r - (last + 1)) = r by omega, Nat.mod_eq_of_lt hr]

theorem rowAt_start (d : Nat) :
    rowAt g ((d % rowPerLine g + (rowPerLine g - 1)) % rowPerLine g) 0 = d % rowPerLine g := by
  have hpos := rowPerLine_pos (g := g)
  unfold rowAt
  rw [Nat.add_zero, Nat.mod_add_mod]
  rw [show d % rowPerLine g + (rowPerLine g - 1) + 1 = d % rowPerLine g + rowPerLine g by omega,
    Nat.add_mod_right, Nat.mod_mod]

end

/-! ## One edge of the machine -/

section

variable {g : Geometry} {s : State g} {i : Input}

/-- A miss starts a refill. -/
theorem step_start (hp : s.phase = .idle) (hs : startRefill s i = true) :
    (step s i).phase = .clrTag ∧ (step s i).refillCmdValid = true ∧
    (step s i).refillIndex = getIndex g s.wbReq.adr ∧
    (step s i).refillRow = getRow g s.wbReq.adr ∧
    (step s i).refillEndRow =
      (getRow g s.wbReq.adr % rowPerLine g + (rowPerLine g - 1)) % rowPerLine g ∧
    (step s i).refillCmdAddr = dramAddr g s.wbReq.adr ∧
    (step s i).refillRowsVlid = (fun _ => false) ∧
    (step s i).cacheValids = s.cacheValids ∧ (step s i).cacheTags = s.cacheTags := by
  simp [step, refillMachine, hp, hs]

/-- Nothing starts. -/
theorem step_idle (hp : s.phase = .idle) (hs : startRefill s i = false) :
    (step s i).phase = .idle ∧ (step s i).refillCmdValid = s.refillCmdValid ∧
    (step s i).cacheValids = s.cacheValids ∧ (step s i).cacheTags = s.cacheTags := by
  simp [step, refillMachine, hp, hs]

/-- An edge during a refill. -/
theorem step_busy (hp : s.phase ≠ .idle) :
    (step s i).phase = (if refillDone s i then .idle else .waitAck) ∧
    (step s i).refillCmdValid = (!cmdsDone s i) ∧
    (step s i).refillIndex = s.refillIndex ∧ (step s i).refillWay = s.refillWay ∧
    (step s i).refillEndRow = s.refillEndRow ∧
    (step s i).refillRow = (if i.rdataValid then nextRow g s.refillRow else s.refillRow) ∧
    (step s i).refillCmdAddr =
      (if i.cmdReady && s.refillCmdValid && !isLastRow g s.refillCmdAddr s.refillEndRow
        then nextRow g s.refillCmdAddr else s.refillCmdAddr) ∧
    (step s i).refillRowsVlid = (fun r =>
      if i.rdataValid && r == s.refillRow % rowPerLine g then true else s.refillRowsVlid r) ∧
    (step s i).cacheValids = (fun x w =>
      if refillDone s i && x == s.refillIndex && w == s.refillWay then true
      else if s.phase == .clrTag && x == getIndex g s.wbReq.adr && w == s.refillWay then false
      else s.cacheValids x w) ∧
    (step s i).cacheTags = (fun x w =>
      if s.phase == .clrTag && x == s.refillIndex && w == s.refillWay
      then getTag g s.wbReq.adr else s.cacheTags x w) := by
  cases hp' : s.phase with
  | idle => exact absurd hp' hp
  | clrTag => simp [step, refillMachine, hp']
  | waitAck => simp [step, refillMachine, hp']

theorem wbReq_step_of_stall (h : stall s i = true) : (step s i).wbReq = s.wbReq := by
  simp [step, requestLatch, h]

/-- No store is executed during a refill. -/
theorem isStore_of_busy (hp : s.phase ≠ .idle) : (reqOp s).isStore = false := by
  by_contra h
  have hd := (isStore_iff.mp (by simpa using h)).2.2
  cases hph : s.phase <;> simp_all [storeDelay]

/-- The request that has started a refill still misses in the next cycle. -/
theorem reqOp_step_start (hp : s.phase = .idle) (hs : startRefill s i = true) :
    reqOp (step s i) = .loadMiss := by
  have hmiss : reqOp s = .loadMiss := by
    simp only [startRefill, Bool.and_eq_true, beq_iff_eq] at hs
    exact hs.1
  have hstall : stall s i = true := by simp [stall, hmiss, ReqOp.isStore]
  obtain ⟨hph, -, -, -, -, -, -, hval, htag⟩ := step_start hp hs
  have hreq := wbReq_step_of_stall hstall
  have hhit : hit (step s i) = hit s := by
    unfold hit wayHit reqValid
    simp [hreq, hval, htag, hph, hp]
  have hload : reqValid s = true ∧ s.wbReq.we = false ∧ (hit s).1 = false := by
    rcases reqOp_cases s with h | h | h | h | h | h <;> simp_all
  have hv : reqValid (step s i) = true := by
    simp only [reqValid, hreq]
    exact hload.1
  simp [reqOp, hv, hreq, hload.2.1, hhit, hload.2.2]

end

/-! ## The invariant -/

section

variable {g : Geometry}

def Cmd.isRead : Cmd → Bool
  | .read _ => true
  | .write _ => false

/-- The reads that litedram has taken. -/
def Sys.reads (x : Sys g) : Nat :=
  x.cmds.countP Cmd.isRead

/-- The tag of the line that is refilled; it is written in the first cycle. -/
def refillTag (s : State g) : Nat :=
  if s.phase = .clrTag then getTag g s.wbReq.adr else s.cacheTags s.refillIndex s.refillWay

/-- During a refill: `n` rows have come in, and `out` reads are out. -/
structure Refilling (x : Sys g) (n out : Nat) : Prop where
  reads : x.reads = x.returned + out
  recv : n < rowPerLine g
  last : x.l2.refillEndRow < rowPerLine g
  index : x.l2.refillIndex < 2 ^ g.indexBits
  row : x.l2.refillRow = x.l2.refillIndex * rowPerLine g + rowAt g x.l2.refillEndRow n
  addr : x.l2.refillCmdValid = true → x.l2.refillCmdAddr =
    lineOf g (refillTag x.l2) x.l2.refillIndex * rowPerLine g + rowAt g x.l2.refillEndRow (n + out)
  vlid : ∀ m < n, x.l2.refillRowsVlid (rowAt g x.l2.refillEndRow m) = true
  more : 0 < g.rowLineBits → x.l2.refillCmdValid = true → n + out < rowPerLine g
  sent : 0 < g.rowLineBits → x.l2.refillCmdValid = false → n + out = rowPerLine g
  single : g.rowLineBits = 0 → x.l2.refillCmdValid = true
  clrTag : x.l2.phase = .clrTag → reqOp x.l2 = .loadMiss ∧
    getIndex g x.l2.wbReq.adr = x.l2.refillIndex ∧ getRow g x.l2.wbReq.adr = x.l2.refillRow ∧ n = 0

/-- The refill machine is in order. -/
structure RefillOk (x : Sys g) : Prop where
  idle : x.l2.phase = .idle → x.l2.refillCmdValid = false ∧ x.reads = x.returned
  busy : x.l2.phase ≠ .idle → ∃ n out, Refilling x n out

/-- litedram returns data for reads that it has taken only. -/
def Answers (x : Sys g) (i : Input) : Prop :=
  i.rdataValid = true → x.returned < x.reads

variable {x : Sys g} {i : Input}

/-- The reads, after a cycle. -/
theorem reads_step : (x.step i).reads = x.reads +
    if !(reqOp x.l2).isStore && x.l2.refillCmdValid && i.cmdReady then 1 else 0 := by
  have hno : storeAck0 x.l2 i = true → (reqOp x.l2).isStore = true := by
    intro h
    simp only [storeAck0, Bool.and_eq_true] at h
    exact h.1
  unfold Sys.reads
  simp only [Sys.step, List.countP_append, cmdTaken_eq]
  cases hs : storeAck0 x.l2 i with
  | true => simp [hno hs, Cmd.isRead]
  | false =>
      simp only [Bool.false_eq_true, if_false]
      split_ifs
      · simp only [Option.toList_some, List.countP_cons, List.countP_nil, Cmd.isRead, if_true]
        omega
      · simp

theorem returned_step : (x.step i).returned = x.returned + if i.rdataValid then 1 else 0 := by
  simp only [Sys.step]
  split_ifs <;> rfl

theorem RefillOk.step_idle (h : RefillOk x) (hp : x.l2.phase = .idle) (ha : Answers x i)
    (hs : startRefill x.l2 i = false) : RefillOk (x.step i) := by
  obtain ⟨hcmd, hreads⟩ := h.idle hp
  obtain ⟨hph, hcmd', -, -⟩ := L2.step_idle hp hs
  have hno : i.rdataValid = false := by
    by_contra hr
    have := ha (by simpa using hr)
    omega
  refine ⟨fun _ => ⟨hcmd'.trans hcmd, ?_⟩, fun hne => absurd hph hne⟩
  rw [reads_step, returned_step, hcmd, hno, hreads]
  simp

theorem RefillOk.step_start (h : RefillOk x) (hp : x.l2.phase = .idle) (ha : Answers x i)
    (hs : startRefill x.l2 i = true) : Refilling (x.step i) 0 0 := by
  obtain ⟨hcmd, hreads⟩ := h.idle hp
  obtain ⟨hph, hcv, hidx, hrow, hend, haddr, hvlid, -, -⟩ := L2.step_start hp hs
  have hno : i.rdataValid = false := by
    by_contra hr
    have := ha (by simpa using hr)
    omega
  have hmiss := reqOp_step_start hp hs
  have hstall : stall x.l2 i = true := by
    simp only [startRefill, Bool.and_eq_true, beq_iff_eq] at hs
    simp [stall, hs.1, ReqOp.isStore]
  have hreq := wbReq_step_of_stall hstall
  have hpos := rowPerLine_pos (g := g)
  have htag : refillTag (L2.step x.l2 i) = getTag g x.l2.wbReq.adr := by
    simp [refillTag, hph, hreq]
  refine ⟨?_, hpos, ?_, ?_, ?_, ?_, ?_, ?_, ?_, fun _ => hcv, ?_⟩
  · rw [reads_step, returned_step, hcmd, hno, hreads]
    simp
  · show (L2.step x.l2 i).refillEndRow < _
    rw [hend]
    exact Nat.mod_lt _ hpos
  · show (L2.step x.l2 i).refillIndex < _
    rw [hidx]
    exact getIndex_lt _
  · show (L2.step x.l2 i).refillRow = (L2.step x.l2 i).refillIndex * _ + _
    show _ = _ + rowAt g (L2.step x.l2 i).refillEndRow 0
    rw [hrow, hidx, hend, rowAt_start, getRow_mod, getRow_eq]
  · intro _
    show (L2.step x.l2 i).refillCmdAddr = lineOf g (refillTag (L2.step x.l2 i))
      (L2.step x.l2 i).refillIndex * _ + rowAt g (L2.step x.l2 i).refillEndRow 0
    rw [haddr, htag, hidx, hend, rowAt_start, getRow_mod, ← dramAddr_div, Nat.mul_comm]
    exact (Nat.div_add_mod _ _).symm
  · intro m hm
    omega
  · intro hb _
    exact hpos
  · intro _ hc
    exact absurd hc (by rw [show (x.step i).l2.refillCmdValid = true from hcv]; simp)
  · intro _
    refine ⟨hmiss, ?_, ?_, rfl⟩
    · show getIndex g (L2.step x.l2 i).wbReq.adr = (L2.step x.l2 i).refillIndex
      rw [hreq, hidx]
    · show getRow g (L2.step x.l2 i).wbReq.adr = (L2.step x.l2 i).refillRow
      rw [hreq, hrow]

end

/-! ## A refill goes on -/

section

variable {g : Geometry} {x : Sys g} {i : Input} {n out : Nat}

theorem reads_step_busy (hp : x.l2.phase ≠ .idle) : (x.step i).reads = x.reads +
    if x.l2.refillCmdValid && i.cmdReady then 1 else 0 := by
  rw [reads_step, isStore_of_busy hp]
  simp

theorem refillTag_step (hp : x.l2.phase ≠ .idle) : refillTag (L2.step x.l2 i) = refillTag x.l2 := by
  obtain ⟨hph, -, hidx, hway, -, -, -, -, -, htags⟩ := step_busy (i := i) hp
  have hne : (L2.step x.l2 i).phase ≠ .clrTag := by
    rw [hph]
    split_ifs <;> simp
  unfold refillTag
  rw [if_neg hne, htags, hidx, hway]
  cases hpc : x.l2.phase with
  | idle => exact absurd hpc hp
  | clrTag => simp
  | waitAck => simp

/-- Data comes for reads that are out. -/
theorem Refilling.out_pos (h : Refilling x n out) (ha : Answers x i) (hr : i.rdataValid = true) :
    0 < out := by
  have := ha hr
  have := h.reads
  omega

/-- The row that comes in is the last one when all the others are there. -/
theorem Refilling.isLastRow_iff (h : Refilling x n out) (hb : 0 < g.rowLineBits) :
    isLastRow g x.l2.refillRow x.l2.refillEndRow = true ↔ n = rowPerLine g - 1 := by
  rw [h.row]
  exact isLastRow_rowAt h.last hb h.recv

/-- The command is the last one when all the others have been taken. -/
theorem Refilling.isLastCmd_iff (h : Refilling x n out) (hb : 0 < g.rowLineBits)
    (hc : x.l2.refillCmdValid = true) :
    isLastRow g x.l2.refillCmdAddr x.l2.refillEndRow = true ↔ n + out = rowPerLine g - 1 := by
  rw [h.addr hc]
  exact isLastRow_rowAt h.last hb (h.more hb hc)

theorem isLastRow_single (hb : g.rowLineBits = 0) (row last : Nat) :
    isLastRow g row last = false := by
  simp [isLastRow, hb]

/-- When the refill is done, all rows are there and no read is out. -/
theorem Refilling.done (h : Refilling x n out) (ha : Answers x i) (hd : refillDone x.l2 i = true) :
    0 < g.rowLineBits ∧ n = rowPerLine g - 1 ∧ out = 1 ∧ x.l2.refillCmdValid = false := by
  simp only [refillDone, Bool.and_eq_true] at hd
  have hb : 0 < g.rowLineBits := by
    by_contra hb
    rw [isLastRow_single (by omega)] at hd
    exact absurd hd.2 (by simp)
  have hn := (h.isLastRow_iff hb).mp hd.2
  have hout := h.out_pos ha hd.1.1
  have hcv : x.l2.refillCmdValid = false := by
    by_contra hc
    have := h.more hb (by simpa using hc)
    omega
  have := h.sent hb hcv
  have := h.recv
  exact ⟨hb, hn, by omega, hcv⟩

/-- The rows that are there after the cycle. -/
def recvNext (g : Geometry) (i : Input) (n : Nat) : Nat :=
  if 0 < g.rowLineBits then n + (if i.rdataValid then 1 else 0) else 0

/-- The reads that are out after the cycle. -/
def outNext (x : Sys g) (i : Input) (out : Nat) : Nat :=
  out + (if x.l2.refillCmdValid && i.cmdReady then 1 else 0) - (if i.rdataValid then 1 else 0)

/-- The last row cannot come in while commands are still to be sent. -/
theorem Refilling.recvNext_lt (h : Refilling x n out) (ha : Answers x i)
    (hd : refillDone x.l2 i = false) : recvNext g i n < rowPerLine g := by
  have hrecv := h.recv
  unfold recvNext
  split_ifs with hb hr
  · by_contra hge
    have hn : n = rowPerLine g - 1 := by omega
    have hout := h.out_pos ha hr
    have hcv : x.l2.refillCmdValid = false := by
      by_contra hc
      have := h.more hb (by simpa using hc)
      omega
    simp [refillDone, hr, cmdsDone, hcv, (h.isLastRow_iff hb).mpr hn] at hd
  · exact hrecv
  · exact rowPerLine_pos

theorem rowPerLine_single (hb : ¬0 < g.rowLineBits) : rowPerLine g = 1 := by
  unfold rowPerLine
  rw [show g.rowLineBits = 0 by omega]
  rfl

theorem Refilling.step (h : Refilling x n out) (hp : x.l2.phase ≠ .idle) (ha : Answers x i)
    (hd : refillDone x.l2 i = false) :
    Refilling (x.step i) (recvNext g i n) (outNext x i out) := by
  obtain ⟨hph, hcv, hidx, hway, hend, hrow, haddr, hvlid, -, -⟩ := step_busy (i := i) hp
  have hout : i.rdataValid = true → 0 < out := h.out_pos ha
  have hrecv := h.recv
  have hlt := h.recvNext_lt ha hd
  have htag := refillTag_step (x := x) (i := i) hp
  -- how many commands have been taken when the cycle ends
  have hsum : 0 < g.rowLineBits → recvNext g i n + outNext x i out =
      n + out + if x.l2.refillCmdValid && i.cmdReady then 1 else 0 := by
    intro hb
    unfold recvNext outNext
    rw [if_pos hb]
    cases hr : i.rdataValid with
    | true =>
        have := hout hr
        simp only [if_true]
        omega
    | false =>
        simp only [Bool.false_eq_true, if_false]
        omega
  refine ⟨?_, hlt, ?_, ?_, ?_, ?_, ?_, ?_, ?_, ?_, ?_⟩
  · rw [reads_step_busy hp, returned_step, h.reads]
    unfold outNext
    cases hr : i.rdataValid with
    | true =>
        have := hout hr
        simp only [if_true]
        omega
    | false =>
        simp only [Bool.false_eq_true, if_false]
        omega
  · show (L2.step x.l2 i).refillEndRow < _
    rw [hend]
    exact h.last
  · show (L2.step x.l2 i).refillIndex < _
    rw [hidx]
    exact h.index
  · show (L2.step x.l2 i).refillRow = (L2.step x.l2 i).refillIndex * _ +
      rowAt g (L2.step x.l2 i).refillEndRow (recvNext g i n)
    rw [hrow, hidx, hend, h.row]
    unfold recvNext
    split_ifs with hr hb hb
    · exact nextRow_rowAt _ _ _
    · have h1 := rowPerLine_single hb
      rw [nextRow_rowAt]
      simp [rowAt, h1, Nat.mod_one]
    · rfl
    · have h1 := rowPerLine_single hb
      simp [rowAt, h1, Nat.mod_one]
  · intro hc
    have hc' : cmdsDone x.l2 i = false := by
      have : (!cmdsDone x.l2 i) = true := hcv ▸ hc
      simpa using this
    have hvalid : x.l2.refillCmdValid = true := by
      by_contra hv
      simp [cmdsDone, hv] at hc'
    show (L2.step x.l2 i).refillCmdAddr = lineOf g (refillTag (L2.step x.l2 i))
      (L2.step x.l2 i).refillIndex * _ + rowAt g (L2.step x.l2 i).refillEndRow _
    rw [haddr, htag, hidx, hend]
    by_cases hb : 0 < g.rowLineBits
    · rw [hsum hb]
      cases hready : i.cmdReady with
      | true =>
          have hnl : isLastRow g x.l2.refillCmdAddr x.l2.refillEndRow = false := by
            simpa [cmdsDone, hvalid, hready] using hc'
          simp only [hvalid, hnl, Bool.and_self, Bool.not_false, if_true]
          rw [h.addr hvalid]
          exact nextRow_rowAt _ _ _
      | false =>
          simp only [Bool.false_and, Bool.and_false, Bool.false_eq_true, if_false, Nat.add_zero]
          exact h.addr hvalid
    · have h1 := rowPerLine_single hb
      have haddr' := h.addr hvalid
      have hnext := nextRow_rowAt (g := g) (lineOf g (refillTag x.l2) x.l2.refillIndex)
        x.l2.refillEndRow (n + out)
      rw [← haddr'] at hnext
      split_ifs
      · rw [hnext]
        simp [rowAt, h1, Nat.mod_one]
      · rw [haddr']
        simp [rowAt, h1, Nat.mod_one]
  · intro m hm
    show (L2.step x.l2 i).refillRowsVlid (rowAt g (L2.step x.l2 i).refillEndRow m) = true
    rw [hvlid, hend]
    have hrowmod : x.l2.refillRow % rowPerLine g = rowAt g x.l2.refillEndRow n := by
      rw [h.row, Nat.mul_add_mod_self_right, rowAt_mod]
    simp only [hrowmod]
    unfold recvNext at hm
    split_ifs at hm with hb hr
    · rcases Nat.lt_or_ge m n with hmn | hmn
      · simp [h.vlid m hmn]
      · obtain rfl : m = n := by omega
        simp [hr]
    · simp [h.vlid m (by omega)]
    · omega
  · intro hb hc
    have hc' : cmdsDone x.l2 i = false := by
      have : (!cmdsDone x.l2 i) = true := hcv ▸ hc
      simpa using this
    have hvalid : x.l2.refillCmdValid = true := by
      by_contra hv
      simp [cmdsDone, hv] at hc'
    have hmore := h.more hb hvalid
    rw [hsum hb]
    cases hready : i.cmdReady with
    | true =>
        have hnl : ¬n + out = rowPerLine g - 1 := by
          rw [← h.isLastCmd_iff hb hvalid]
          simpa [cmdsDone, hvalid, hready] using hc'
        simp only [hvalid, Bool.and_self, if_true]
        omega
    | false => simpa using hmore
  · intro hb hc
    have hc' : cmdsDone x.l2 i = true := by
      have : (!cmdsDone x.l2 i) = false := hcv ▸ hc
      simpa using this
    rw [hsum hb]
    cases hvalid : x.l2.refillCmdValid with
    | true =>
        simp only [cmdsDone, hvalid, Bool.not_true, Bool.false_or, Bool.and_eq_true] at hc'
        have := (h.isLastCmd_iff hb hvalid).mp hc'.2
        simp only [hc'.1, Bool.and_self, if_true]
        omega
    | false => simpa using h.sent hb hvalid
  · intro hb
    show (L2.step x.l2 i).refillCmdValid = true
    rw [hcv, cmdsDone, h.single hb, isLastRow_single hb]
    simp
  · intro hc
    have : (L2.step x.l2 i).phase ≠ .clrTag := by
      rw [hph]
      split_ifs <;> simp
    exact absurd hc this

/-- The refill machine stays in order. -/
theorem RefillOk.step (h : RefillOk x) (ha : Answers x i) : RefillOk (x.step i) := by
  by_cases hp : x.l2.phase = .idle
  · cases hs : startRefill x.l2 i with
    | true =>
        have hph := (L2.step_start hp hs).1
        refine ⟨fun hidle => ?_, fun _ => ⟨0, 0, h.step_start hp ha hs⟩⟩
        rw [show (x.step i).l2.phase = .clrTag from hph] at hidle
        cases hidle
    | false => exact h.step_idle hp ha hs
  · obtain ⟨n, out, href⟩ := h.busy hp
    obtain ⟨hph, hcv, -⟩ := step_busy (i := i) hp
    cases hd : refillDone x.l2 i with
    | false =>
        refine ⟨fun hidle => ?_, fun _ => ⟨_, _, href.step hp ha hd⟩⟩
        rw [show (x.step i).l2.phase = _ from hph, hd] at hidle
        cases hidle
    | true =>
        obtain ⟨-, -, hout, hvalid⟩ := href.done ha hd
        have hr : i.rdataValid = true := by
          simp only [refillDone, Bool.and_eq_true] at hd
          exact hd.1.1
        refine ⟨fun _ => ⟨?_, ?_⟩, fun hne => ?_⟩
        · show (L2.step x.l2 i).refillCmdValid = false
          rw [hcv]
          simp [cmdsDone, hvalid]
        · rw [reads_step_busy hp, returned_step, href.reads, hvalid, hr, hout]
          simp
        · exact absurd (by rw [show (x.step i).l2.phase = _ from hph, hd]; rfl) hne

theorem refillOk_start {s : State g} (h : s.Reset) : RefillOk (Sys.start s) :=
  ⟨fun _ => ⟨h.refillCmdValid, rfl⟩, fun hne => absurd h.phase hne⟩

end

end Microwatt.L2
