import Microwatt.L2.Refill
import Microwatt.Lib.Select

/-!
# Memory consistency of the L2 cache

The cache is write-through, so that the rows of valid lines, and those rows of the line being
refilled that have come in, hold what the DRAM will hold when all commands sent so far have been
carried out.  That is what the stores executed so far have left there.
-/

namespace Microwatt.L2

open Clocked SyncFifo

section

variable {g : Geometry}

abbrev Memory := Nat → Row

/-! ## The reference -/

/-- The store writes byte `b` of the row at DRAM address `a`. -/
def writesByte (g : Geometry) (a b : Nat) (q : WishboneMasterOut) : Bool :=
  q.we && dramAddr g q.adr == a && (entryOf g q).we b

/-- The value of the youngest store to the byte, or the initial one. -/
def valueAt (g : Geometry) (init : Memory) (l : List WishboneMasterOut) : Memory :=
  fun a b => ((l.find? (writesByte g a b)).map fun q => byteOf q.dat (b % 8)).getD (init a b)

/-- The answers to a sequence of requests, the newest first. -/
def answersOf (g : Geometry) (init : Memory) : List WishboneMasterOut → List Answer
  | [] => []
  | q :: l =>
      (if q.we then .store
        else .load
          (dwordOf fun j => valueAt g init l (dramAddr g q.adr) (8 * wslOf g q.adr + j))) ::
      answersOf g init l

/-! ## litedram -/

/-- The memory after commands, the oldest first: the n-th write takes the n-th data. -/
def dramRun (init : Memory) (cmds : List Cmd) (data : List StoreEntry) : Memory :=
  ((cmds.filterMap Cmd.writeAddr).zip data).foldl
    (fun m p => Function.update m p.1 (mergeRow p.2.we p.2.data (m p.1))) init

/-- litedram carries out its commands in order, takes the data of the writes in order, and returns
the data of the reads in order. -/
def Dram (init : Memory) (x : Sys g) (i : Input) : Prop :=
  i.rdataValid = true → ∃ pre a post, x.cmds.reverse = pre ++ .read a :: post ∧
    pre.countP Cmd.isRead = x.returned ∧
    (pre.filterMap Cmd.writeAddr).length ≤ x.taken.length ∧
    i.rdataData = dramRun init pre x.taken.reverse a

theorem Dram.answers {init : Memory} {x : Sys g} {i : Input} (h : Dram init x i) : Answers x i := by
  intro hr
  obtain ⟨pre, a, post, heq, hcount, -, -⟩ := h hr
  have hrev : x.reads = x.cmds.reverse.countP Cmd.isRead := by
    unfold Sys.reads
    rw [List.countP_reverse]
  rw [hrev, heq, List.countP_append, hcount, List.countP_cons]
  simp [Cmd.isRead]

/-- A store in the reference. -/
theorem valueAt_store {init : Memory} {l : List WishboneMasterOut} {q : WishboneMasterOut}
    (hq : q.we = true) : valueAt g init (q :: l) =
      Function.update (valueAt g init l) (dramAddr g q.adr)
        (mergeRow (entryOf g q).we (entryOf g q).data (valueAt g init l (dramAddr g q.adr))) := by
  funext a b
  unfold valueAt
  rw [List.find?_cons]
  by_cases ha : dramAddr g q.adr = a
  · subst ha
    rw [Function.update_self, mergeRow]
    cases hw : (entryOf g q).we b with
    | true =>
        simp only [writesByte, hq, hw, BEq.rfl, Bool.and_self, Option.map_some, Option.getD_some,
          if_true]
        rfl
    | false => simp [writesByte, hw]
  · have hne : a ≠ dramAddr g q.adr := Ne.symm ha
    have hno : writesByte g a b q = false := by simp [writesByte, ha]
    rw [Function.update_of_ne hne, hno]

/-- A load in the reference. -/
theorem valueAt_load {init : Memory} {l : List WishboneMasterOut} {q : WishboneMasterOut}
    (hq : q.we = false) : valueAt g init (q :: l) = valueAt g init l := by
  funext a b
  simp [valueAt, writesByte, hq]

/-- When all data has been taken, the DRAM holds what the stores have left. -/
theorem dramRun_eq_valueAt (init : Memory) (l : List WishboneMasterOut) :
    (((l.filter (·.we)).map (dramAddr g ·.adr)).reverse.zip
      ((l.filter (·.we)).map (entryOf g)).reverse).foldl
      (fun m p => Function.update m p.1 (mergeRow p.2.we p.2.data (m p.1))) init =
    valueAt g init l := by
  induction l with
  | nil => rfl
  | cons q l ih =>
      cases hq : q.we with
      | true =>
          rw [List.filter_cons_of_pos hq, List.map_cons, List.map_cons, List.reverse_cons,
            List.reverse_cons, List.zip_append (by simp), List.foldl_append, ih,
            valueAt_store hq]
          rfl
      | false =>
          rw [List.filter_cons_of_neg (by simp [hq]), ih, valueAt_load hq]

/-! ## The lookup -/

variable {s : State g}

theorem hit_cases (s : State g) :
    ((hit s).1 = false ∧ ∀ w, wayHit s w = false) ∨
    ((hit s).1 = true ∧ wayHit s (hit s).2 = true) := by
  unfold hit
  rcases Select.foldl_last_cases (wayHit s) (fun w => (true, w)) (false, ⟨0, g.ways_pos⟩)
    (List.finRange (2 ^ g.wayBits)) with ⟨hnone, heq⟩ | ⟨w, -, hw, heq⟩
  · left
    rw [heq]
    exact ⟨rfl, fun w => hnone w (List.mem_finRange w)⟩
  · right
    rw [heq]
    exact ⟨rfl, hw⟩

/-- What a hit says about the way. -/
theorem wayHit_iff {w : Way g} : wayHit s w = true ↔ reqValid s = true ∧
    (s.cacheValids (getIndex g s.wbReq.adr) w = true ∨
      s.phase = .waitAck ∧ getIndex g s.wbReq.adr = s.refillIndex ∧ w = s.refillWay ∧
        s.refillRowsVlid (dramAddr g s.wbReq.adr % rowPerLine g) = true) ∧
    s.cacheTags (getIndex g s.wbReq.adr) w = getTag g s.wbReq.adr := by
  simp only [wayHit, getRow_mod, Bool.and_eq_true, Bool.or_eq_true, beq_iff_eq, and_assoc]

/-- The address of the request, from its tag and index. -/
theorem dramAddr_eq (adr : WbAddr) : dramAddr g adr =
    lineOf g (getTag g adr) (getIndex g adr) * rowPerLine g + dramAddr g adr % rowPerLine g := by
  rw [← dramAddr_div, Nat.mul_comm]
  exact (Nat.div_add_mod _ _).symm

/-- An address determines tag, index and row. -/
theorem addr_inj {t t' y y' r r' : Nat} (hy : y < 2 ^ g.indexBits) (hy' : y' < 2 ^ g.indexBits)
    (hr : r < rowPerLine g) (hr' : r' < rowPerLine g)
    (h : lineOf g t y * rowPerLine g + r = lineOf g t' y' * rowPerLine g + r') :
    t = t' ∧ y = y' ∧ r = r' := by
  have hmod := congrArg (· % rowPerLine g) h
  have hdiv := congrArg (· / rowPerLine g) h
  have hpos := rowPerLine_pos (g := g)
  simp only [Nat.mul_add_mod_self_right, Nat.mod_eq_of_lt hr, Nat.mod_eq_of_lt hr'] at hmod
  simp only [Nat.mul_comm _ (rowPerLine g), Nat.mul_add_div hpos, Nat.div_eq_of_lt hr,
    Nat.div_eq_of_lt hr', Nat.add_zero] at hdiv
  obtain ⟨ht, hyy⟩ := lineOf_inj hy hy' hdiv
  exact ⟨ht, hyy, hmod⟩

/-- A place in the RAM determines index and row. -/
theorem place_inj {y y' r r' : Nat} (hr : r < rowPerLine g) (hr' : r' < rowPerLine g)
    (h : y * rowPerLine g + r = y' * rowPerLine g + r') : y = y' ∧ r = r' := by
  have hmod := congrArg (· % rowPerLine g) h
  have hdiv := congrArg (· / rowPerLine g) h
  have hpos := rowPerLine_pos (g := g)
  simp only [Nat.mul_add_mod_self_right, Nat.mod_eq_of_lt hr, Nat.mod_eq_of_lt hr'] at hmod
  simp only [Nat.mul_comm _ (rowPerLine g), Nat.mul_add_div hpos, Nat.div_eq_of_lt hr,
    Nat.div_eq_of_lt hr', Nat.add_zero] at hdiv
  exact ⟨hdiv, hmod⟩

end

/-! ## The invariant -/

section

variable {g : Geometry}

/-- The row of the line with this tag and index, in this way, is that of the DRAM, or has already
the bytes of the store that waits to be sent. -/
def RowOk (init : Memory) (x : Sys g) (w : Way g) (tag index r : Nat) : Prop :=
  (x.l2.rams w).ram (index * rowPerLine g + r) =
    valueAt g init x.executed (lineOf g tag index * rowPerLine g + r) ∨
  reqValid x.l2 = true ∧ x.l2.wbReq.we = true ∧
    dramAddr g x.l2.wbReq.adr = lineOf g tag index * rowPerLine g + r ∧
    (x.l2.rams w).ram (index * rowPerLine g + r) =
      mergeRow (entryOf g x.l2.wbReq).we (entryOf g x.l2.wbReq).data
        (valueAt g init x.executed (lineOf g tag index * rowPerLine g + r))

/-- The reads that are out, the newest first. -/
def outstanding (s : State g) (n out : Nat) : List Cmd :=
  ((List.range out).map fun j => Cmd.read
    (lineOf g (refillTag s) s.refillIndex * rowPerLine g + rowAt g s.refillEndRow (n + j))).reverse

/-- The answers in the pipelines, the newest first. -/
def answersInPipe (s : State g) : List Answer :=
  (if s.readAck0 then
      [Answer.load (dwordOf fun j => (s.rams s.readWay0).rdData0 (8 * s.readWsl0 + j))]
    else if s.storeAck1 then [Answer.store] else []) ++
  (if s.readAck1 then [Answer.load (wbOut s).dat] else [])

structure Coherent (init : Memory) (x : Sys g) : Prop where
  fifo : ∃ q, Holds g.storeqDepth x.l2.storeq q ∧ x.entries = q.reverse ++ x.taken
  rows : ∀ y w r, y < 2 ^ g.indexBits → r < rowPerLine g → x.l2.cacheValids y w = true →
    RowOk init x w (x.l2.cacheTags y w) y r
  part : x.l2.phase = .waitAck → ∀ r < rowPerLine g, x.l2.refillRowsVlid r = true →
    RowOk init x x.l2.refillWay (refillTag x.l2) x.l2.refillIndex r
  fresh : x.l2.phase ≠ .idle → ∀ w, x.l2.cacheValids x.l2.refillIndex w = true →
    x.l2.cacheTags x.l2.refillIndex w ≠ refillTag x.l2
  unique : ∀ y w w', x.l2.cacheValids y w = true → x.l2.cacheValids y w' = true →
    x.l2.cacheTags y w = x.l2.cacheTags y w' → w = w'
  none : x.l2.phase = .clrTag → ∀ r, x.l2.refillRowsVlid r = false
  busy : x.l2.phase ≠ .idle → ∃ n out rest, Refilling x n out ∧
    x.cmds = outstanding x.l2 n out ++ rest
  answers : answersOf g init x.executed = answersInPipe x.l2 ++ x.acks

variable {init : Memory} {x : Sys g} {i : Input}

/-- The request hits in one way only. -/
theorem Coherent.wayHit_unique (h : Coherent init x) {w w' : Way g} (hw : wayHit x.l2 w = true)
    (hw' : wayHit x.l2 w' = true) : w = w' := by
  obtain ⟨-, hv, ht⟩ := wayHit_iff.mp hw
  obtain ⟨-, hv', ht'⟩ := wayHit_iff.mp hw'
  have hfresh : ∀ u u' : Way g, x.l2.phase = .waitAck →
      getIndex g x.l2.wbReq.adr = x.l2.refillIndex → u = x.l2.refillWay →
      x.l2.cacheTags (getIndex g x.l2.wbReq.adr) u = getTag g x.l2.wbReq.adr →
      x.l2.cacheTags (getIndex g x.l2.wbReq.adr) u' = getTag g x.l2.wbReq.adr →
      x.l2.cacheValids (getIndex g x.l2.wbReq.adr) u' = true → False := by
    intro u u' hp hi hu htu htu' hvu'
    have hne := h.fresh (by rw [hp]; simp) u' (hi ▸ hvu')
    apply hne
    rw [refillTag, if_neg (by rw [hp]; simp), ← hi, ← hu, htu, htu']
  rcases hv with hv | ⟨hp, hi, hu, -⟩
  · rcases hv' with hv' | ⟨hp, hi, hu, -⟩
    · exact h.unique _ w w' hv hv' (ht.trans ht'.symm)
    · exact absurd (hfresh w' w hp hi hu ht' ht hv) id
  · rcases hv' with hv' | ⟨-, -, hu', -⟩
    · exact absurd (hfresh w w' hp hi hu ht ht' hv') id
    · rw [hu, hu']

/-- A way that hits has the row. -/
theorem Coherent.rowOk_of_hit (h : Coherent init x) {w : Way g} (hw : wayHit x.l2 w = true) :
    RowOk init x w (getTag g x.l2.wbReq.adr) (getIndex g x.l2.wbReq.adr)
      (dramAddr g x.l2.wbReq.adr % rowPerLine g) := by
  obtain ⟨-, hv, ht⟩ := wayHit_iff.mp hw
  have hr : dramAddr g x.l2.wbReq.adr % rowPerLine g < rowPerLine g :=
    Nat.mod_lt _ rowPerLine_pos
  rcases hv with hv | ⟨hp, hi, hu, hvlid⟩
  · have := h.rows _ w _ (getIndex_lt _) hr hv
    rwa [ht] at this
  · have htag : refillTag x.l2 = getTag g x.l2.wbReq.adr := by
      rw [refillTag, if_neg (by rw [hp]; simp), ← hi, ← hu, ht]
    have := h.part hp _ hr hvlid
    rwa [htag, ← hi, ← hu] at this

/-- A load that hits reads what the stores before it have left. -/
theorem Coherent.load_value (h : Coherent init x) (hl : reqOp x.l2 = .loadHit) :
    (x.l2.rams (hit x.l2).2).ram (getRow g x.l2.wbReq.adr) =
      valueAt g init x.executed (dramAddr g x.l2.wbReq.adr) := by
  obtain ⟨-, hwe, hhit⟩ := loadHit_iff.mp hl
  have hway : wayHit x.l2 (hit x.l2).2 = true := by
    rcases hit_cases x.l2 with ⟨hno, -⟩ | ⟨-, hw⟩
    · rw [hno] at hhit
      cases hhit
    · exact hw
  rcases h.rowOk_of_hit hway with hok | ⟨-, hst, -⟩
  · rw [getRow_eq, hok, ← dramAddr_eq]
  · rw [hwe] at hst
    cases hst

theorem executed_step_load (hl : reqOp x.l2 = .loadHit) :
    (x.step i).executed = x.l2.wbReq :: x.executed := by
  have := (executes_load_iff (s := x.l2) (i := i)).mpr hl
  simp [Sys.step, this.1]

/-- The answers follow the requests. -/
theorem Coherent.answers_step (h : Coherent init x) (ht : Tidy x.l2) :
    answersOf g init (x.step i).executed = answersInPipe (L2.step x.l2 i) ++ (x.step i).acks := by
  have h0 : (L2.step x.l2 i).readAck0 = (reqOp x.l2 == .loadHit) := rfl
  have h1 : (L2.step x.l2 i).readAck1 = x.l2.readAck0 := rfl
  have hs1 : (L2.step x.l2 i).storeAck1 = storeAck0 x.l2 i := rfl
  have hdat : (wbOut (L2.step x.l2 i)).dat =
      dwordOf fun j => (x.l2.rams x.l2.readWay0).rdData0 (8 * x.l2.readWsl0 + j) := rfl
  have hacks : (x.step i).acks = (ackGiven x.l2).toList ++ x.acks := rfl
  -- the part of the pipelines that was there before
  have hold : answersInPipe x.l2 =
      (if x.l2.readAck0 then [Answer.load (wbOut (L2.step x.l2 i)).dat] else []) ++
        (ackGiven x.l2).toList := by
    unfold answersInPipe ackGiven
    rw [hdat]
    cases hr1 : x.l2.readAck1 with
    | true =>
        have hns : x.l2.storeAck1 = false := by
          by_contra hc
          simp [(ht.apart (by simpa using hc)).2] at hr1
        cases hr0 : x.l2.readAck0 <;> simp [wbOut, hr1, hns]
    | false =>
        cases hsa : x.l2.storeAck1 with
        | true => simp [wbOut, hr1, hsa, (ht.apart hsa).1]
        | false => cases hr0 : x.l2.readAck0 <;> simp [wbOut, hr1, hsa]
  have hnew : answersOf g init (x.step i).executed =
      (if reqOp x.l2 == .loadHit then
        [Answer.load (dwordOf fun j => ((L2.step x.l2 i).rams (L2.step x.l2 i).readWay0).rdData0
          (8 * (L2.step x.l2 i).readWsl0 + j))]
        else if storeAck0 x.l2 i then [Answer.store] else []) ++ answersOf g init x.executed := by
    cases hs : storeAck0 x.l2 i with
    | true =>
        obtain ⟨he, hwe⟩ := executes_store_iff.mpr hs
        simp [Sys.step, he, answersOf, hwe, not_loadHit_of_storeAck0 hs]
    | false =>
        by_cases hl : reqOp x.l2 = .loadHit
        · have hwe := (loadHit_iff.mp hl).2.1
          have hval := h.load_value hl
          rw [executed_step_load hl]
          simp only [answersOf, hwe, hl, BEq.rfl, if_true, Bool.false_eq_true, if_false,
            List.singleton_append, ← hval]
          rfl
        · have he : executes x.l2 i = false := by simp [executes, hl, hs]
          simp [Sys.step, he, hl]
  rw [hnew, h.answers, hacks, hold]
  simp only [answersInPipe, h0, h1, hs1, List.append_assoc]

end

/-! ## The DRAM -/

section

variable {g : Geometry} {init : Memory} {x : Sys g} {i : Input}

theorem mergeRow_idem (we : Nat → Bool) (data old : Row) :
    mergeRow we data (mergeRow we data old) = mergeRow we data old := by
  funext b
  unfold mergeRow
  split_ifs <;> rfl

/-- A sequence of commands is split at a read by the number of reads before it. -/
theorem split_unique {pre pre' post post' : List Cmd} {a a' : Nat}
    (h : pre ++ .read a :: post = pre' ++ .read a' :: post')
    (hc : pre.countP Cmd.isRead = pre'.countP Cmd.isRead) : pre = pre' ∧ a = a' := by
  have hshort : ∀ {p p' t t' : List Cmd} {b b' : Nat} (c : List Cmd), p' = p ++ c →
      .read b :: t = c ++ .read b' :: t' → p.countP Cmd.isRead = p'.countP Cmd.isRead →
      c = [] ∧ b = b' := by
    intro p p' t t' b b' c hp ht hcount
    cases c with
    | nil => exact ⟨rfl, by simpa using (List.cons.inj ht).1⟩
    | cons d c =>
        obtain ⟨hd, -⟩ := List.cons.inj ht
        rw [hp, List.countP_append, List.countP_cons, ← hd] at hcount
        simp [Cmd.isRead] at hcount
  rcases List.append_eq_append_iff.mp h with ⟨c, hp, ht⟩ | ⟨c, hp, ht⟩
  · obtain ⟨rfl, hb⟩ := hshort c hp ht hc
    exact ⟨by rw [hp, List.append_nil], hb⟩
  · obtain ⟨rfl, hb⟩ := hshort c hp ht hc.symm
    exact ⟨by rw [hp, List.append_nil], hb.symm⟩

theorem outstanding_reads (s : State g) (n out : Nat) :
    (outstanding s n out).countP Cmd.isRead = out ∧
    (outstanding s n out).filterMap Cmd.writeAddr = [] := by
  unfold outstanding
  constructor
  · rw [List.countP_reverse, List.countP_map]
    have hall : (List.range out).countP (Cmd.isRead ∘ fun j => Cmd.read
        (lineOf g (refillTag s) s.refillIndex * rowPerLine g + rowAt g s.refillEndRow (n + j))) =
        (List.range out).length := by
      rw [List.countP_eq_length]
      intro j _
      rfl
    rw [hall, List.length_range]
  · rw [List.filterMap_eq_nil_iff]
    intro c hc
    simp only [List.mem_reverse, List.mem_map] at hc
    obtain ⟨j, -, rfl⟩ := hc
    rfl

/-- The data that comes in is that of the next row, as the stores have left it. -/
theorem Coherent.rdata_eq (h : Coherent init x) (ho : Orderly x) (hd : Dram init x i) {n out : Nat}
    {rest : List Cmd} (href : Refilling x n out) (hcmds : x.cmds = outstanding x.l2 n out ++ rest)
    (hr : i.rdataValid = true) : i.rdataData = valueAt g init x.executed
      (lineOf g (refillTag x.l2) x.l2.refillIndex * rowPerLine g +
        rowAt g x.l2.refillEndRow n) := by
  obtain ⟨pre, a, post, heq, hcount, hlen, hdata⟩ := hd hr
  obtain ⟨hreads, hwrites⟩ := outstanding_reads x.l2 n out
  have hpos := href.out_pos hd.answers hr
  -- the read that is answered is the oldest one that is out
  have hrest : rest.countP Cmd.isRead = x.returned := by
    have h1 := href.reads
    unfold Sys.reads at h1
    rw [hcmds, List.countP_append, hreads] at h1
    omega
  have hsplit : x.cmds.reverse = rest.reverse ++ .read (lineOf g (refillTag x.l2)
      x.l2.refillIndex * rowPerLine g + rowAt g x.l2.refillEndRow n) ::
      ((List.range (out - 1)).map fun j => Cmd.read (lineOf g (refillTag x.l2) x.l2.refillIndex *
        rowPerLine g + rowAt g x.l2.refillEndRow (n + (j + 1)))) := by
    rw [hcmds, List.reverse_append, outstanding, List.reverse_reverse]
    obtain ⟨k, rfl⟩ : ∃ k, out = k + 1 := ⟨out - 1, by omega⟩
    rw [List.range_succ_eq_map, List.map_cons, List.map_map]
    rfl
  obtain ⟨rfl, rfl⟩ := split_unique (heq.symm.trans hsplit)
    (by rw [hcount, List.countP_reverse, hrest])
  -- all writes came before it, and their data has been taken
  have hw : rest.filterMap Cmd.writeAddr = x.cmds.filterMap Cmd.writeAddr := by
    rw [hcmds, List.filterMap_append, hwrites, List.nil_append]
  obtain ⟨q, -, hq⟩ := h.fifo
  have htaken : x.taken = x.entries := by
    have h1 : (rest.reverse.filterMap Cmd.writeAddr).length = x.entries.length := by
      rw [List.filterMap_reverse, List.length_reverse, hw, ho.writes, ho.entries, List.length_map,
        List.length_map]
    have h2 := congrArg List.length hq
    rw [List.length_append, List.length_reverse] at h2
    have h3 : q = [] := List.length_eq_zero_iff.mp (by omega)
    rw [hq, h3]
    rfl
  rw [hdata, dramRun, List.filterMap_reverse, hw, ho.writes, htaken, ho.entries,
    dramRun_eq_valueAt]

theorem fifo_step (h : ∃ q, Holds g.storeqDepth x.l2.storeq q ∧ x.entries = q.reverse ++ x.taken) :
    ∃ q, Holds g.storeqDepth (x.step i).l2.storeq q ∧
      (x.step i).entries = q.reverse ++ (x.step i).taken := by
  obtain ⟨q, hq, heq⟩ := h
  refine ⟨_, hq.step i.wdataReady (storeqWrValid x.l2 i) (entryOf g x.l2.wbReq), ?_⟩
  have hentries : (x.step i).entries =
      (if storeqPush x.l2 i then q ++ [entryOf g x.l2.wbReq] else q).reverse ++ x.taken := by
    simp only [Sys.step, heq]
    split_ifs <;> simp
  rw [hentries]
  show _ = (qNext q (storeqPush x.l2 i) (storeqPop x.l2 i) _).reverse ++
    (if storeqPop x.l2 i then storeqRdData x.l2 :: x.taken else x.taken)
  unfold qNext
  cases hpop : storeqPop x.l2 i with
  | false => rfl
  | true =>
      -- what is given is the oldest entry
      have hhead : ∃ t, (if storeqPush x.l2 i then q ++ [entryOf g x.l2.wbReq] else q) =
          storeqRdData x.l2 :: t := by
        have hdata : x.l2.storeq.rdData (entryOf g x.l2.wbReq) = _ := hq.rdData_eq
        simp only [storeqPop, Fifo.pop, Bool.and_eq_true] at hpop
        cases hpush : storeqPush x.l2 i with
        | true =>
            simp only [if_true]
            refine ⟨(q ++ [entryOf g x.l2.wbReq]).tail, ?_⟩
            rw [storeqRdData, hdata]
            exact (List.cons_head_tail _).symm
        | false =>
            have hno : storeqWrValid x.l2 i = false := by
              by_contra hw
              simp [storeqPush, Fifo.push, hq.wrReady_iff.mpr (Or.inl hpop.1), hw] at hpush
            have hne := (hq.rdValid_iff.mp hpop.2).resolve_left (by simp [hno])
            simp only [Bool.false_eq_true, if_false]
            refine ⟨q.tail, ?_⟩
            rw [storeqRdData, hdata, List.head_append_of_ne_nil hne]
            exact (List.cons_head_tail hne).symm
      obtain ⟨t, ht⟩ := hhead
      simp [ht]

/-- The reference after a cycle. -/
theorem valueAt_step : valueAt g init (x.step i).executed =
    if storeAck0 x.l2 i then
      Function.update (valueAt g init x.executed) (dramAddr g x.l2.wbReq.adr)
        (mergeRow (entryOf g x.l2.wbReq).we (entryOf g x.l2.wbReq).data
          (valueAt g init x.executed (dramAddr g x.l2.wbReq.adr)))
    else valueAt g init x.executed := by
  cases hs : storeAck0 x.l2 i with
  | true =>
      obtain ⟨he, hwe⟩ := executes_store_iff.mpr hs
      simp only [Sys.step, he, if_true]
      exact valueAt_store hwe
  | false =>
      cases he : executes x.l2 i with
      | true =>
          have hwe : x.l2.wbReq.we = false := by
            by_contra hwe
            rw [executes_store_iff.mp ⟨he, by simpa using hwe⟩] at hs
            cases hs
          simp only [Sys.step, he, if_true, Bool.false_eq_true, if_false]
          exact valueAt_load hwe
      | false => simp [Sys.step, he]

end

/-! ## The rows of the cache -/

section

variable {g : Geometry} {init : Memory} {x : Sys g} {i : Input}

/-- Where a store hits, its bytes are written, whether or not it is sent in this cycle. -/
theorem ram_step_hit {w : Way g} (hop : reqOp x.l2 = .storeHit) (hw : (hit x.l2).2 = w) :
    ((L2.step x.l2 i).rams w).ram (getRow g x.l2.wbReq.adr) =
      mergeRow (entryOf g x.l2.wbReq).we (entryOf g x.l2.wbReq).data
        ((x.l2.rams w).ram (getRow g x.l2.wbReq.adr)) := by
  simp [L2.step, ramNext, hop, hw]

/-- A place that is written neither by a store nor by the refill. -/
theorem ram_step_other {w : Way g} {k : Nat}
    (hst : ¬(reqOp x.l2 = .storeHit ∧ (hit x.l2).2 = w ∧ k = getRow g x.l2.wbReq.adr))
    (harr : i.rdataValid = true → x.l2.refillWay = w → k ≠ x.l2.refillRow) :
    ((L2.step x.l2 i).rams w).ram k = (x.l2.rams w).ram k := by
  simp only [L2.step, ramNext]
  split_ifs with h1 h2
  · simp only [Bool.and_eq_true, beq_iff_eq] at h1
    refine Function.update_of_ne ?_ _ _
    intro hk
    exact hst ⟨h1.1, h1.2, hk⟩
  · simp only [Bool.and_eq_true, beq_iff_eq] at h2
    exact Function.update_of_ne (harr h2.1 h2.2) _ _
  · rfl

theorem ram_step_refill (hp : x.l2.phase ≠ .idle) (hr : i.rdataValid = true) :
    ((L2.step x.l2 i).rams x.l2.refillWay).ram x.l2.refillRow = i.rdataData := by
  have hno : reqOp x.l2 ≠ .storeHit := by
    intro h
    have := isStore_of_busy hp
    simp [ReqOp.isStore, h] at this
  simp [L2.step, ramNext, hno, hr]

/-- A row stays right, unless a row of the refill is written over it. -/
theorem RowOk.step (h : Coherent init x) {w : Way g} {tag y r : Nat} (hok : RowOk init x w tag y r)
    (hy : y < 2 ^ g.indexBits) (hr : r < rowPerLine g) (htag : x.l2.cacheTags y w = tag)
    (hhit : reqValid x.l2 = true →
      dramAddr g x.l2.wbReq.adr = lineOf g tag y * rowPerLine g + r → wayHit x.l2 w = true)
    (harr : i.rdataValid = true → x.l2.refillWay = w →
      y * rowPerLine g + r ≠ x.l2.refillRow) : RowOk init (x.step i) w tag y r := by
  have hmod : dramAddr g x.l2.wbReq.adr % rowPerLine g < rowPerLine g :=
    Nat.mod_lt _ rowPerLine_pos
  by_cases hA : reqValid x.l2 = true ∧
      dramAddr g x.l2.wbReq.adr = lineOf g tag y * rowPerLine g + r
  · -- the row of the request
    obtain ⟨hv, hA⟩ := hA
    have hway := hhit hv hA
    have hplace : getRow g x.l2.wbReq.adr = y * rowPerLine g + r := by
      obtain ⟨-, hyi, hri⟩ := addr_inj (getIndex_lt _) hy hmod hr ((dramAddr_eq _).symm.trans hA)
      rw [getRow_eq, hyi, hri]
    have hhw : (hit x.l2).1 = true ∧ (hit x.l2).2 = w := by
      rcases hit_cases x.l2 with ⟨-, hno⟩ | ⟨h1, h2⟩
      · rw [hno w] at hway
        cases hway
      · exact ⟨h1, h.wayHit_unique h2 hway⟩
    cases hst : (reqOp x.l2).isStore with
    | true =>
        have hop : reqOp x.l2 = .storeHit := by
          rcases reqOp_cases x.l2 with h | h | h | h | h | h <;> simp_all [ReqOp.isStore]
        have hwe := (isStore_iff.mp hst).2.1
        have hram := ram_step_hit (i := i) hop hhw.2
        rw [hplace] at hram
        have hmerged : ((L2.step x.l2 i).rams w).ram (y * rowPerLine g + r) =
            mergeRow (entryOf g x.l2.wbReq).we (entryOf g x.l2.wbReq).data
              (valueAt g init x.executed (lineOf g tag y * rowPerLine g + r)) := by
          rw [hram]
          rcases hok with hok | ⟨-, -, -, hok⟩
          · rw [hok]
          · rw [hok, mergeRow_idem]
        cases hack : storeAck0 x.l2 i with
        | true =>
            refine Or.inl ?_
            rw [valueAt_step, hack, if_pos rfl, hA, Function.update_self]
            exact hmerged
        | false =>
            -- it waits, with its bytes in the cache
            have hstall : stall x.l2 i = true := by
              simp only [stall, hst, if_true]
              simpa [storeAck0, hst] using hack
            have hreq := wbReq_step_of_stall hstall
            refine Or.inr ?_
            have hv' : reqValid (x.step i).l2 = true := by
              show reqValid (L2.step x.l2 i) = true
              simp only [reqValid, hreq]
              exact hv
            refine ⟨hv', ?_, ?_, ?_⟩
            · show (L2.step x.l2 i).wbReq.we = true
              rw [hreq, hwe]
            · show dramAddr g (L2.step x.l2 i).wbReq.adr = _
              rw [hreq, hA]
            · rw [valueAt_step, hack]
              show _ = mergeRow (entryOf g (L2.step x.l2 i).wbReq).we
                (entryOf g (L2.step x.l2 i).wbReq).data _
              rw [hreq]
              exact hmerged
    | false =>
        have hack : storeAck0 x.l2 i = false := by simp [storeAck0, hst]
        have hnohit : reqOp x.l2 ≠ .storeHit := by
          intro hop
          simp [hop, ReqOp.isStore] at hst
        have hram := ram_step_other (x := x) (i := i) (w := w) (k := y * rowPerLine g + r)
          (fun hh => hnohit hh.1) harr
        rcases hok with hok | ⟨-, hwe, -, hok⟩
        · refine Or.inl ?_
          rw [valueAt_step, hack]
          exact hram.trans hok
        · have hop : reqOp x.l2 = .storeDelayed := by
            rcases reqOp_cases x.l2 with h | h | h | h | h | h <;> simp_all [ReqOp.isStore]
          have hstall : stall x.l2 i = true := by simp [stall, hop, ReqOp.isStore]
          have hreq := wbReq_step_of_stall hstall
          refine Or.inr ?_
          have hv' : reqValid (x.step i).l2 = true := by
            show reqValid (L2.step x.l2 i) = true
            simp only [reqValid, hreq]
            exact hv
          refine ⟨hv', ?_, ?_, ?_⟩
          · show (L2.step x.l2 i).wbReq.we = true
            rw [hreq, hwe]
          · show dramAddr g (L2.step x.l2 i).wbReq.adr = _
            rw [hreq, hA]
          · rw [valueAt_step, hack]
            show _ = mergeRow (entryOf g (L2.step x.l2 i).wbReq).we
              (entryOf g (L2.step x.l2 i).wbReq).data _
            rw [hreq]
            exact hram.trans hok
  · -- another row
    have hfirst : (x.l2.rams w).ram (y * rowPerLine g + r) =
        valueAt g init x.executed (lineOf g tag y * rowPerLine g + r) := by
      rcases hok with hok | ⟨hv, -, ha, -⟩
      · exact hok
      · exact absurd ⟨hv, ha⟩ hA
    have hram := ram_step_other (x := x) (i := i) (w := w) (k := y * rowPerLine g + r)
      (by
        rintro ⟨hop, hw, hk⟩
        have hhw : (hit x.l2).1 = true := by
          rcases reqOp_cases x.l2 with h | h | h | h | h | h <;> simp_all
        have hway : wayHit x.l2 w = true := by
          rcases hit_cases x.l2 with ⟨hno, -⟩ | ⟨-, h2⟩
          · rw [hno] at hhw
            cases hhw
          · rw [← hw]
            exact h2
        obtain ⟨hv, -, ht⟩ := wayHit_iff.mp hway
        rw [getRow_eq] at hk
        obtain ⟨hyi, hri⟩ := place_inj hr hmod hk
        refine hA ⟨hv, ?_⟩
        rw [dramAddr_eq, ← hri, ← hyi, ← ht, ← hyi, htag]) harr
    refine Or.inl ?_
    rw [valueAt_step]
    split_ifs with hack
    · have hv : reqValid x.l2 = true := reqValid_of_executes (executes_store_iff.mpr hack).1
      rw [Function.update_of_ne fun heq => hA ⟨hv, heq.symm⟩]
      exact hram.trans hfirst
    · exact hram.trans hfirst

end

/-! ## One edge -/

section

variable {g : Geometry} {init : Memory} {x : Sys g} {i : Input} {n out : Nat} {rest : List Cmd}

/-- A way that is valid with the tag of the request hits. -/
theorem wayHit_of_valid {w : Way g} {y r : Nat} (hy : y < 2 ^ g.indexBits) (hr : r < rowPerLine g)
    (hv : x.l2.cacheValids y w = true) (hreq : reqValid x.l2 = true)
    (hA : dramAddr g x.l2.wbReq.adr =
      lineOf g (x.l2.cacheTags y w) y * rowPerLine g + r) : wayHit x.l2 w = true := by
  obtain ⟨ht, hyi, -⟩ := addr_inj (getIndex_lt _) hy (Nat.mod_lt _ rowPerLine_pos) hr
    ((dramAddr_eq _).symm.trans hA)
  exact wayHit_iff.mpr ⟨hreq, Or.inl (by rw [hyi]; exact hv), by rw [hyi, ht]⟩

/-- The refilled way is not valid while the rows come in. -/
theorem Coherent.refillWay_invalid (h : Coherent init x) (hp : x.l2.phase = .waitAck) :
    x.l2.cacheValids x.l2.refillIndex x.l2.refillWay = false := by
  by_contra hv
  refine h.fresh (by rw [hp]; simp) x.l2.refillWay (by simpa using hv) ?_
  rw [refillTag, if_neg (by rw [hp]; simp)]

/-- A row that has come in before stays right. -/
theorem Coherent.part_step (h : Coherent init x) (href : Refilling x n out)
    (hp : x.l2.phase = .waitAck) {r : Nat} (hr : r < rowPerLine g)
    (hv : x.l2.refillRowsVlid r = true)
    (hne : i.rdataValid = true → r ≠ rowAt g x.l2.refillEndRow n) :
    RowOk init (x.step i) x.l2.refillWay (refillTag x.l2) x.l2.refillIndex r := by
  have htag : x.l2.cacheTags x.l2.refillIndex x.l2.refillWay = refillTag x.l2 := by
    rw [refillTag, if_neg (by rw [hp]; simp)]
  refine (h.part hp r hr hv).step h href.index hr htag ?_ ?_
  · intro hreq hA
    obtain ⟨ht, hyi, hri⟩ := addr_inj (getIndex_lt _) href.index (Nat.mod_lt _ rowPerLine_pos) hr
      ((dramAddr_eq _).symm.trans hA)
    refine wayHit_iff.mpr ⟨hreq, Or.inr ⟨hp, hyi, rfl, by rw [hri]; exact hv⟩, ?_⟩
    rw [hyi, htag, ht]
  · intro hrd _ hrow
    rw [href.row] at hrow
    exact hne hrd (place_inj hr (rowAt_lt _ _) hrow).2

/-- The row that comes in is right. -/
theorem Coherent.rowOk_arrival (h : Coherent init x) (ho : Orderly x) (hd : Dram init x i)
    (href : Refilling x n out) (hcmds : x.cmds = outstanding x.l2 n out ++ rest)
    (hp : x.l2.phase ≠ .idle) (hr : i.rdataValid = true) :
    RowOk init (x.step i) x.l2.refillWay (refillTag x.l2) x.l2.refillIndex
      (rowAt g x.l2.refillEndRow n) := by
  have hack : storeAck0 x.l2 i = false := by simp [storeAck0, isStore_of_busy hp]
  have hram := ram_step_refill (x := x) (i := i) hp hr
  refine Or.inl ?_
  rw [valueAt_step, hack, if_neg (by simp), ← h.rdata_eq ho hd href hcmds hr, ← hram, ← href.row]
  rfl

/-- The tag of the line that is refilled, from the first edge on. -/
theorem cacheTags_step_refill (hp : x.l2.phase ≠ .idle) :
    (L2.step x.l2 i).cacheTags x.l2.refillIndex x.l2.refillWay = refillTag x.l2 := by
  obtain ⟨-, -, -, -, -, -, -, -, -, htags⟩ := step_busy (i := i) hp
  rw [htags]
  cases hph : x.l2.phase with
  | idle => exact absurd hph hp
  | clrTag => simp [refillTag, hph]
  | waitAck => simp [refillTag, hph]

/-- A way that is valid after an edge of a refill is the refilled one, now complete, or another one
that was valid before. -/
theorem Refilling.valid_step (href : Refilling x n out) (hp : x.l2.phase ≠ .idle) {y : Nat}
    {w : Way g} (hv : (L2.step x.l2 i).cacheValids y w = true) :
    (refillDone x.l2 i = true ∧ y = x.l2.refillIndex ∧ w = x.l2.refillWay) ∨
    (x.l2.cacheValids y w = true ∧
      (L2.step x.l2 i).cacheTags y w = x.l2.cacheTags y w ∧
      ¬(x.l2.phase = .clrTag ∧ y = x.l2.refillIndex ∧ w = x.l2.refillWay)) := by
  obtain ⟨-, -, -, -, -, -, -, -, hvals, htags⟩ := step_busy (i := i) hp
  rw [hvals] at hv
  rw [htags]
  beta_reduce at hv ⊢
  by_cases hnew : (refillDone x.l2 i && y == x.l2.refillIndex && w == x.l2.refillWay) = true
  · simp only [Bool.and_eq_true, beq_iff_eq] at hnew
    exact Or.inl ⟨hnew.1.1, hnew.1.2, hnew.2⟩
  · rw [if_neg hnew] at hv
    by_cases hclr : (x.l2.phase == .clrTag && y == getIndex g x.l2.wbReq.adr &&
        w == x.l2.refillWay) = true
    · rw [if_pos hclr] at hv
      cases hv
    · rw [if_neg hclr] at hv
      have hother : ¬(x.l2.phase = .clrTag ∧ y = x.l2.refillIndex ∧ w = x.l2.refillWay) := by
        rintro ⟨hph, hy, hw⟩
        have hidx := (href.clrTag hph).2.1
        exact hclr (by simp [hph, hy, hw, hidx])
      refine Or.inr ⟨hv, ?_, hother⟩
      rw [if_neg (by simpa [and_assoc] using hother)]

/-- No row of a refill is the last one in its first cycle. -/
theorem Refilling.waitAck_of_done (href : Refilling x n out) (hp : x.l2.phase ≠ .idle)
    (ha : Answers x i) (hdone : refillDone x.l2 i = true) : x.l2.phase = .waitAck := by
  obtain ⟨hb, hm, -, -⟩ := href.done ha hdone
  cases hph : x.l2.phase with
  | idle => exact absurd hph hp
  | waitAck => rfl
  | clrTag =>
      have h0 := (href.clrTag hph).2.2.2
      have h2 : 2 ≤ rowPerLine g := by
        unfold rowPerLine
        calc 2 = 2 ^ 1 := rfl
          _ ≤ 2 ^ g.rowLineBits := Nat.pow_le_pow_right (by omega) hb
      omega

/-- The valid bits and the tags change during a refill only. -/
theorem tags_step_idle (hp : x.l2.phase = .idle) :
    (L2.step x.l2 i).cacheValids = x.l2.cacheValids ∧
    (L2.step x.l2 i).cacheTags = x.l2.cacheTags := by
  cases hs : startRefill x.l2 i with
  | true =>
      obtain ⟨-, -, -, -, -, -, -, h1, h2⟩ := step_start hp hs
      exact ⟨h1, h2⟩
  | false =>
      obtain ⟨-, -, h1, h2⟩ := step_idle hp hs
      exact ⟨h1, h2⟩

/-- The rows of valid lines stay right. -/
theorem Coherent.rows_step (h : Coherent init x) (ho : Orderly x) (hk : RefillOk x)
    (hd : Dram init x i) (y : Nat) (w : Way g) (r : Nat) (hy : y < 2 ^ g.indexBits)
    (hr : r < rowPerLine g) (hv : (L2.step x.l2 i).cacheValids y w = true) :
    RowOk init (x.step i) w ((L2.step x.l2 i).cacheTags y w) y r := by
  by_cases hp : x.l2.phase = .idle
  · have hno : i.rdataValid = false := by
      by_contra hrd
      have := hd.answers (by simpa using hrd)
      have := (hk.idle hp).2
      omega
    obtain ⟨hvals, htags⟩ := tags_step_idle (i := i) hp
    rw [hvals] at hv
    rw [htags]
    refine (h.rows y w r hy hr hv).step h hy hr rfl (wayHit_of_valid hy hr hv) ?_
    intro hrd
    rw [hno] at hrd
    cases hrd
  · obtain ⟨m, o, rest', href, hcmds⟩ := h.busy hp
    rcases href.valid_step hp hv with ⟨hdone, rfl, rfl⟩ | ⟨hold, htag, hother⟩
    · -- the line that is complete now
      obtain ⟨hb, hm, -, -⟩ := href.done hd.answers hdone
      have hrd : i.rdataValid = true := by
        simp only [refillDone, Bool.and_eq_true] at hdone
        exact hdone.1.1
      rw [cacheTags_step_refill hp]
      by_cases hsame : r = rowAt g x.l2.refillEndRow m
      · rw [hsame]
        exact h.rowOk_arrival ho hd href hcmds hp hrd
      · rcases exists_rowAt href.last hr with hlast | ⟨k, hk', hrk⟩
        · exact absurd (hm ▸ hlast) hsame
        · have hvlid := href.vlid k (by omega)
          exact h.part_step href (href.waitAck_of_done hp hd.answers hdone) hr (hrk ▸ hvlid)
            fun _ => hsame
    · rw [htag]
      refine (h.rows y w r hy hr hold).step h hy hr rfl (wayHit_of_valid hy hr hold) ?_
      -- the refill writes another line
      intro hrd hw hrow
      rw [href.row] at hrow
      obtain ⟨hyi, -⟩ := place_inj hr (rowAt_lt _ _) hrow
      cases hph : x.l2.phase with
      | idle => exact hp hph
      | clrTag => exact hother ⟨hph, hyi, hw.symm⟩
      | waitAck =>
          have hinv := h.refillWay_invalid hph
          rw [← hyi, hw, hold] at hinv
          cases hinv

/-- The rows of the line being refilled stay right. -/
theorem Coherent.refill_step (h : Coherent init x) (ho : Orderly x) (hd : Dram init x i)
    (hp' : (L2.step x.l2 i).phase = .waitAck) (r : Nat) (hr : r < rowPerLine g)
    (hv : (L2.step x.l2 i).refillRowsVlid r = true) :
    RowOk init (x.step i) (L2.step x.l2 i).refillWay (refillTag (L2.step x.l2 i))
      (L2.step x.l2 i).refillIndex r := by
  have hp : x.l2.phase ≠ .idle := by
    intro hp
    cases hs : startRefill x.l2 i with
    | true => exact absurd ((L2.step_start hp hs).1.symm.trans hp') (by simp)
    | false => exact absurd ((L2.step_idle hp hs).1.symm.trans hp') (by simp)
  obtain ⟨m, o, rest', href, hcmds⟩ := h.busy hp
  obtain ⟨-, -, hidx, hway, -, -, -, hvlid, -, -⟩ := step_busy (i := i) hp
  have hrowmod : x.l2.refillRow % rowPerLine g = rowAt g x.l2.refillEndRow m := by
    rw [href.row, Nat.mul_add_mod_self_right, rowAt_mod]
  rw [hvlid] at hv
  rw [refillTag_step hp, hidx, hway]
  by_cases hnew : i.rdataValid = true ∧ r = rowAt g x.l2.refillEndRow m
  · rw [hnew.2]
    exact h.rowOk_arrival ho hd href hcmds hp hnew.1
  · have hold : x.l2.refillRowsVlid r = true := by
      rw [hrowmod] at hv
      simpa [hnew] using hv
    cases hph : x.l2.phase with
    | idle => exact absurd hph hp
    | clrTag =>
        rw [h.none hph r] at hold
        cases hold
    | waitAck => exact h.part_step href hph hr hold fun hrd heq => hnew ⟨hrd, heq⟩

/-- No valid way has the tag of the line that is refilled. -/
theorem Coherent.fresh_step (h : Coherent init x) (hp' : (L2.step x.l2 i).phase ≠ .idle) (w : Way g)
    (hv : (L2.step x.l2 i).cacheValids (L2.step x.l2 i).refillIndex w = true) :
    (L2.step x.l2 i).cacheTags (L2.step x.l2 i).refillIndex w ≠ refillTag (L2.step x.l2 i) := by
  by_cases hp : x.l2.phase = .idle
  · cases hs : startRefill x.l2 i with
    | false => exact absurd (L2.step_idle hp hs).1 hp'
    | true =>
        -- a valid way with that tag would have hit
        obtain ⟨hph, -, hidx, -, -, -, -, hvals, htags⟩ := L2.step_start hp hs
        have hmiss : reqOp x.l2 = .loadMiss := by
          simp only [startRefill, Bool.and_eq_true, beq_iff_eq] at hs
          exact hs.1
        have hreq :=
          wbReq_step_of_stall (i := i) (s := x.l2) (by simp [stall, hmiss, ReqOp.isStore])
        rw [hidx, hvals] at hv
        rw [hidx, htags, refillTag, if_pos hph, hreq]
        intro heq
        have hload : reqValid x.l2 = true ∧ (hit x.l2).1 = false := by
          rcases reqOp_cases x.l2 with h | h | h | h | h | h <;> simp_all
        have hway := wayHit_iff.mpr ⟨hload.1, Or.inl hv, heq⟩
        rcases hit_cases x.l2 with ⟨-, hno⟩ | ⟨hyes, -⟩
        · rw [hno w] at hway
          cases hway
        · rw [hload.2] at hyes
          cases hyes
  · obtain ⟨m, o, rest', href, -⟩ := h.busy hp
    obtain ⟨hph, -, hidx, -⟩ := step_busy (i := i) hp
    rw [hidx] at hv ⊢
    rw [refillTag_step hp]
    rcases href.valid_step hp hv with ⟨hdone, -, -⟩ | ⟨hold, htag, -⟩
    · rw [hph, hdone] at hp'
      exact absurd rfl hp'
    · rw [htag]
      exact h.fresh hp w hold

theorem Coherent.unique_step (h : Coherent init x) (y : Nat) (w w' : Way g)
    (hv : (L2.step x.l2 i).cacheValids y w = true) (hv' : (L2.step x.l2 i).cacheValids y w' = true)
    (heq : (L2.step x.l2 i).cacheTags y w = (L2.step x.l2 i).cacheTags y w') : w = w' := by
  by_cases hp : x.l2.phase = .idle
  · obtain ⟨hvals, htags⟩ := tags_step_idle (i := i) hp
    rw [hvals] at hv hv'
    rw [htags] at heq
    exact h.unique y w w' hv hv' heq
  · obtain ⟨m, o, rest', href, -⟩ := h.busy hp
    rcases href.valid_step hp hv with ⟨-, hy, hw⟩ | ⟨hold, htag, -⟩
    · rcases href.valid_step hp hv' with ⟨-, -, hw'⟩ | ⟨hold', htag', -⟩
      · rw [hw, hw']
      · subst hy hw
        rw [cacheTags_step_refill hp, htag'] at heq
        exact absurd heq.symm (h.fresh hp w' hold')
    · rcases href.valid_step hp hv' with ⟨-, hy, hw'⟩ | ⟨hold', htag', -⟩
      · subst hy hw'
        rw [cacheTags_step_refill hp, htag] at heq
        exact absurd heq (h.fresh hp w hold)
      · rw [htag, htag'] at heq
        exact h.unique y w w' hold hold' heq

/-! ## The reads that are out -/

theorem outstanding_sent (s : State g) (n out : Nat) : outstanding s n (out + 1) =
    .read (lineOf g (refillTag s) s.refillIndex * rowPerLine g +
      rowAt g s.refillEndRow (n + out)) ::
      outstanding s n out := by
  unfold outstanding
  rw [List.range_succ, List.map_append, List.reverse_append]
  rfl

theorem outstanding_answered (s : State g) (n out : Nat) : outstanding s n (out + 1) =
    outstanding s (n + 1) out ++ [Cmd.read (lineOf g (refillTag s) s.refillIndex * rowPerLine g +
      rowAt g s.refillEndRow n)] := by
  unfold outstanding
  rw [List.range_succ_eq_map, List.map_cons, List.map_map, List.reverse_cons]
  congr 3
  funext j
  simp only [Function.comp_apply, Nat.succ_eq_add_one, Nat.add_assoc, Nat.add_comm 1 j]

/-- With one row in a line, all reads have the same address. -/
theorem outstanding_recvNext (s : State g) :
    outstanding s (recvNext g i n) out = outstanding s (n + if i.rdataValid then 1 else 0) out := by
  unfold recvNext
  by_cases hb : 0 < g.rowLineBits
  · rw [if_pos hb]
  · have h1 := rowPerLine_single hb
    simp [outstanding, rowAt, h1, Nat.mod_one, hb]

/-- A command that is taken joins the reads that are out, and data that comes in ends the oldest. -/
theorem Refilling.cmds_step (href : Refilling x n out) (hp : x.l2.phase ≠ .idle) (ha : Answers x i)
    (hcmds : x.cmds = outstanding x.l2 n out ++ rest) :
    ∃ rest', (x.step i).cmds =
      outstanding (L2.step x.l2 i) (recvNext g i n) (outNext x i out) ++ rest' := by
  obtain ⟨-, -, hidx, -, hend, -⟩ := step_busy (i := i) hp
  have hsame : ∀ m o, outstanding (L2.step x.l2 i) m o = outstanding x.l2 m o := by
    intro m o
    unfold outstanding
    rw [refillTag_step hp, hidx, hend]
  have hno : storeAck0 x.l2 i = false := by simp [storeAck0, isStore_of_busy hp]
  -- the reads with the new one
  have hsent : (x.step i).cmds =
      outstanding x.l2 n (out + if x.l2.refillCmdValid && i.cmdReady then 1 else 0) ++ rest := by
    have hstep : (x.step i).cmds = (cmdTaken x.l2 i).toList ++ x.cmds := rfl
    rw [hstep, hcmds, cmdTaken_eq, hno, isStore_of_busy hp]
    cases hcv : x.l2.refillCmdValid with
    | false => simp
    | true =>
        cases hready : i.cmdReady with
        | false => simp
        | true =>
            simp only [Bool.and_self, if_true, outstanding_sent, ← href.addr hcv]
            rfl
  rw [hsame, outstanding_recvNext, hsent]
  unfold outNext
  cases hr : i.rdataValid with
  | false => exact ⟨rest, by simp⟩
  | true =>
      have hpos := href.out_pos ha hr
      obtain ⟨k, hk⟩ : ∃ k, out + (if x.l2.refillCmdValid && i.cmdReady then 1 else 0) = k + 1 :=
        ⟨out + (if x.l2.refillCmdValid && i.cmdReady then 1 else 0) - 1, by omega⟩
      rw [if_pos rfl, hk, outstanding_answered, List.append_assoc]
      exact ⟨_, rfl⟩

theorem Coherent.step (h : Coherent init x) (ht : Tidy x.l2) (ho : Orderly x) (hk : RefillOk x)
    (hd : Dram init x i) : Coherent init (x.step i) where
  fifo := fifo_step h.fifo
  rows := h.rows_step ho hk hd
  part := h.refill_step ho hd
  fresh := h.fresh_step
  unique := h.unique_step
  none := by
    intro hp' r
    by_cases hp : x.l2.phase = .idle
    · cases hs : startRefill x.l2 i with
      | true =>
          obtain ⟨-, -, -, -, -, -, hvlid, -, -⟩ := L2.step_start hp hs
          exact congrFun hvlid r
      | false => exact absurd ((L2.step_idle hp hs).1.symm.trans hp') (by simp)
    · have hph := (step_busy (i := i) hp).1
      rw [show (x.step i).l2.phase = _ from hph] at hp'
      split_ifs at hp'
  busy := by
    intro hp'
    by_cases hp : x.l2.phase = .idle
    · cases hs : startRefill x.l2 i with
      | true => exact ⟨0, 0, (x.step i).cmds, hk.step_start hp hd.answers hs, rfl⟩
      | false => exact absurd (L2.step_idle hp hs).1 hp'
    · obtain ⟨n, out, rest, href, hcmds⟩ := h.busy hp
      have hnot : refillDone x.l2 i = false := by
        by_contra hdone
        apply hp'
        rw [show (x.step i).l2.phase = _ from (step_busy (i := i) hp).1,
          if_pos (by simpa using hdone)]
      obtain ⟨rest', hcmds'⟩ := href.cmds_step hp hd.answers hcmds
      exact ⟨_, _, rest', href.step hp hd.answers hnot, hcmds'⟩
  answers := h.answers_step ht

end

/-! ## Runs -/

section

variable {g : Geometry} {init : Memory} {s : State g}

theorem orderly_start (h : s.Reset) : Orderly (Sys.start s) := by
  refine ⟨?_, ?_, rfl, rfl, ?_⟩
  · simp [Sys.start, waiting, reqValid, h.wbReq, h.wbStash]
  · simp [Sys.start, inPipe, h.readAck0, h.readAck1, h.storeAck1]
  · simp [Sys.start, h.readAck1]

theorem tidy_start (h : s.Reset) : Tidy s :=
  ⟨fun hc => by simp [h.wbStash] at hc, fun hs => by simp [h.storeAck1] at hs⟩

theorem holds_start (h : s.Reset) : Holds g.storeqDepth s.storeq [] := by
  refine ⟨g.storeqDepth_pos, ?_, ?_, ?_, ?_, ?_, ?_⟩
  · rw [h.rdIdx]
    exact g.storeqDepth_pos
  · exact Nat.zero_le _
  · rw [h.rdIdx, h.wrIdx, wrap, if_pos (by simpa using g.storeqDepth_pos)]
    rfl
  · intro k a hk
    simp at hk
  · intro _
    exact h.opPrev
  · intro hfull
    exact absurd hfull g.storeqDepth_pos.ne

theorem coherent_start (h : s.Reset) : Coherent init (Sys.start s) where
  fifo := ⟨[], holds_start h, rfl⟩
  rows y w r _ _ hv := by simp [Sys.start, h.cacheValids] at hv
  part hp := by simp [Sys.start, h.phase] at hp
  fresh hp := absurd h.phase hp
  unique y w w' hv := by simp [Sys.start, h.cacheValids] at hv
  none hp := by simp [Sys.start, h.phase] at hp
  busy hp := absurd h.phase hp
  answers := by simp [Sys.start, answersOf, answersInPipe, h.readAck0, h.readAck1, h.storeAck1]

/-- What holds after every run with a litedram that works. -/
theorem run_coherent (h : s.Reset) {is : List Input}
    (hd : Along Sys.step (Dram init) (Sys.start s) is) :
    Tidy (run Sys.step (Sys.start s) is).l2 ∧ Orderly (run Sys.step (Sys.start s) is) ∧
      RefillOk (run Sys.step (Sys.start s) is) ∧ Coherent init (run Sys.step (Sys.start s) is) := by
  have hstep : ∀ (x : Sys g) (i : Input), Dram init x i →
      Tidy x.l2 ∧ Orderly x ∧ RefillOk x ∧ Coherent init x →
      Tidy (x.step i).l2 ∧ Orderly (x.step i) ∧ RefillOk (x.step i) ∧ Coherent init (x.step i) := by
    rintro x i hdi ⟨ht, ho, hk, hc⟩
    exact ⟨ht.step, ho.step ht, hk.step hdi.answers, hc.step ht ho hk hdi⟩
  exact hd.invariant hstep ⟨tidy_start h, orderly_start h, refillOk_start h, coherent_start h⟩

/-- The answers to a sequence of requests do not depend on later ones. -/
theorem answersOf_suffix (l l' : List WishboneMasterOut) :
    answersOf g init l <:+ answersOf g init (l' ++ l) := by
  induction l' with
  | nil => exact List.suffix_refl _
  | cons q l' ih => exact ih.trans (List.suffix_cons _ _)

/-- Each load that is acked returns, on every byte, the youngest store before it to that address or
the initial value.  No set has two valid ways with the same tag.  The n-th write command goes with
the n-th entry of the store queue, both from the n-th store. -/
theorem loads_return_youngest_store (h : s.Reset) {is : List Input}
    (hd : Along Sys.step (Dram init) (Sys.start s) is) :
    let x := run Sys.step (Sys.start s) is
    x.acks <:+ answersOf g init x.accepted ∧
    (∀ y w w', x.l2.cacheValids y w = true → x.l2.cacheValids y w' = true →
      x.l2.cacheTags y w = x.l2.cacheTags y w' → w = w') ∧
    (∃ stores, stores <:+ x.accepted.filter (·.we) ∧
      x.cmds.filterMap Cmd.writeAddr = stores.map (dramAddr g ·.adr) ∧
      x.entries = stores.map (entryOf g)) ∧
    x.taken <:+ x.entries := by
  intro x
  obtain ⟨-, ho, -, hc⟩ := run_coherent h hd
  refine ⟨?_, hc.unique, ⟨x.executed.filter (·.we), ?_, ho.writes, ho.entries⟩, ?_⟩
  · calc x.acks <:+ answersOf g init x.executed := by
          rw [hc.answers]
          exact List.suffix_append _ _
      _ <:+ answersOf g init x.accepted := by
          rw [ho.requests]
          exact answersOf_suffix _ _
  · rw [ho.requests, List.filter_append]
    exact List.suffix_append _ _
  · obtain ⟨q, -, hq⟩ := hc.fifo
    rw [hq]
    exact List.suffix_append _ _

/-- Two doublewords in a row, two rows in a line, two lines, two ways. -/
def smallCache : Geometry :=
  ⟨1, 1, 1, 2, 1, 2, false, by decide⟩

/-- A store to a doubleword and a load of it, with litedram ready in every cycle.  The line is
refilled from the row that was missed. -/
def storeThenLoad : List Input :=
  let store : WishboneMasterOut := ⟨9, 0x1122334455667788, 0x0F, true, true, true⟩
  let load : WishboneMasterOut := ⟨9, 0, 0xFF, true, true, false⟩
  let wait : WishboneMasterOut := { noRequest with cyc := true }
  let row : Row := mergeRow (entryOf smallCache store).we (entryOf smallCache store).data fun _ => 0
  [⟨store, true, true, false, fun _ => 0⟩, ⟨load, true, true, false, fun _ => 0⟩,
    ⟨wait, true, true, false, fun _ => 0⟩, ⟨wait, true, true, false, fun _ => 0⟩,
    ⟨wait, true, true, true, row⟩, ⟨wait, true, true, true, fun _ => 0⟩,
    ⟨wait, true, true, false, fun _ => 0⟩, ⟨wait, true, true, false, fun _ => 0⟩]

theorem dram_storeThenLoad : Along Sys.step (Dram fun _ _ => 0) (Sys.start (State.zero smallCache))
    storeThenLoad := by
  refine ⟨nofun, nofun, nofun, nofun, fun _ => ?_, fun _ => ?_, nofun, nofun, trivial⟩
  · exact ⟨[.write 4], 4, [], by decide +kernel, by decide +kernel, by decide +kernel, rfl⟩
  · exact ⟨[.write 4, .read 4], 5, [], by decide +kernel, by decide +kernel, by decide +kernel, rfl⟩

theorem load_after_store_answered :
    let x := run Sys.step (Sys.start (State.zero smallCache)) storeThenLoad
    x.acks.length = 2 ∧ x.acks <:+ answersOf smallCache (fun _ _ => 0) x.accepted :=
  ⟨by decide +kernel,
    (loads_return_youngest_store (State.zero_reset smallCache) dram_storeThenLoad).1⟩

end

end Microwatt.L2
