import Microwatt.Dcache.Bus
import Microwatt.Dcache.Tags

/-!
# Every store goes to its own address

A run is followed by an observer that keeps the request that has been accepted and
not looked up yet, with the DTLB as it was in the cycle in which it was accepted, and
the list `due` of the bus writes that the stores looked up so far call for and the
bus has not taken.  A write strobe on the bus is to be the first write that is due.

A store that finds a cycle of an earlier store open is added to it if it goes to
the same real page, and then only the page offset of the bus address is
replaced.  In real mode the page numbers are compared.  In virtual mode the test
is that the store uses the DTLB entry that the opening store found, and this says
something about the open cycle only if the opening store was made in virtual mode
too, as a real-mode store looks up the DTLB just the same and the entry is
remembered, and only if the entry has not been replaced between the two lookups.
A `tlbie` or `tlbld` while the cycle is open makes the dcache forget the entry; one
that comes before the cycle is open does not.  `OpenedAlike` is the condition that
neither happens to a store that is added.
-/

namespace Microwatt.Dcache

variable {g : Geometry}

/-! ## What a store calls for -/

/-- Way `w` of the DTLB translates `ea`. -/
def dtlbHits (t : TlbRegs g) (ea : BitVec 64) (w : TlbWay g) : Bool :=
  t.dtlbValids (getTlbIndex ea) w && t.dtlbTags (getTlbIndex ea) w == getTlbTag ea

/-- The page table entry that the DTLB gives for `ea`. -/
def dtlbPte (t : TlbRegs g) (ea : BitVec 64) : BitVec 64 :=
  (List.finRange (2 ^ g.tlbWayBits)).foldl
    (fun hitpte w =>
      if dtlbHits t ea w then hitpte ||| t.dtlbPtes (getTlbIndex ea) w else hitpte) 0

/-- The real address that a request is for. -/
def realAddrOf (t : TlbRegs g) (p : Loadstore1ToDcache) : RealAddr :=
  if p.virtMode then translate g (dtlbPte t p.addr) p.addr else addrToReal p.addr

/-- What a write strobe carries. -/
structure BusWrite where
  adr : WbAddr
  sel : ByteSel
  dat : Dword
deriving DecidableEq

def BusWrite.ofWb (wb : WishboneMasterOut) : BusWrite :=
  ⟨wb.adr, wb.sel, wb.dat⟩

variable (g) in
/-- The writes to `n` rows of a line, from the row of `adr` on. -/
def rowWrites (sel : ByteSel) (dat : Dword) : Nat → WbAddr → List BusWrite
  | 0, _ => []
  | n + 1, adr => ⟨adr, sel, dat⟩ :: rowWrites sel dat n (nextRowWbAddr g adr)

variable (g) in
/-- A dcbz writes all rows of its line, every other store one doubleword. -/
def rowsOf (dcbz reserve : Bool) : Nat :=
  if dcbz && !reserve then 2 ^ g.rowLinebits else 1

/-- The writes that the store `p` with data `dat` calls for.  A dcbz stores zeros. -/
def writesOf (t : TlbRegs g) (p : Loadstore1ToDcache) (dat : Dword) : List BusWrite :=
  rowWrites g (if p.dcbz then BitVec.allOnes 8 else p.byteSel) (if p.dcbz then 0 else dat)
    (rowsOf g p.dcbz p.reserve) (addrToWb (realAddrOf t p))

/-! ## The observer -/

variable (g) in
/-- A request of loadstore1 that has been accepted. -/
structure Staged where
  req : Loadstore1ToDcache
  /-- Its data, if they have been on the port already. -/
  data : Option Dword
  /-- The DTLB in the cycle in which the request was accepted. -/
  dtlb : TlbRegs g
  /-- A cycle has been opened at the edge at which it was accepted or later, before it
  was looked up. -/
  early : Bool

/-- The data of a staged request, which are on the port the cycle after the
request. -/
def Staged.dataNow (p : Staged g) (i : Input) : Dword :=
  p.data.getD i.dIn.data

variable (g) in
/-- The dcache with the observer of its stores. -/
structure StoreTrace where
  st : State g
  /-- The acks that the slave owes. -/
  owed : Nat
  staged : Option (Staged g)
  due : List BusWrite
  /-- The last store looked up. -/
  last : Option (Staged g)
  /-- The store that opened the last cycle. -/
  opener : Option (Staged g)
  /-- The DTLB right after the edge that opened the last cycle. -/
  openTlb : TlbRegs g

namespace StoreTrace

/-- A run starts with nothing accepted. -/
def init (s : State g) : StoreTrace g where
  st := s
  owed := 0
  staged := none
  due := []
  last := none
  opener := none
  openTlb := s.tlb

/-- A cycle is opened at this edge. -/
def opens (t : StoreTrace g) (i : Input) : Bool :=
  !(wishboneOut t.st).cyc && (wishboneOut (Dcache.step t.st i)).cyc

/-- The request that is accepted at this edge, or stays staged.  A request of the MMU
goes first. -/
def nextStaged (t : StoreTrace g) (i : Input) : Option (Staged g) :=
  if !stallOut t.st && !i.dIn.hold then
    if !i.mIn.valid && i.dIn.valid then some ⟨i.dIn, none, t.st.tlb, t.opens i⟩ else none
  else t.staged.map fun p => { p with data := some (p.dataNow i), early := p.early || t.opens i }

/-- The store that is looked up in this cycle and is to be performed. -/
def lookedUp (t : StoreTrace g) (i : Input) : Option (Staged g) :=
  if reqOp t.st i = .store then t.staged else none

def nextLast (t : StoreTrace g) (i : Input) : Option (Staged g) :=
  (t.lookedUp i).or t.last

/-- The writes that the store looked up in this cycle calls for. -/
def newWrites (t : StoreTrace g) (i : Input) : List BusWrite :=
  match t.lookedUp i with
  | some p => writesOf p.dtlb p.req (p.dataNow i)
  | none => []

/-- The writes that are due after this edge.  The bus takes the first one when it
does not stall; a store that is looked up adds its own at the end, and takes it
back when it is reported not to have been performed. -/
def nextDue (t : StoreTrace g) (i : Input) : List BusWrite :=
  let out := dOut (Dcache.step t.st i)
  let due :=
    (if strobeTaken t.st i && (wishboneOut t.st).we then t.due.tail else t.due) ++ t.newWrites i
  if out.valid && !out.storeDone then due.dropLast else due

/-- One clock edge.  The store that opens a cycle is the last one looked up. -/
def step (t : StoreTrace g) (i : Input) : StoreTrace g where
  st := Dcache.step t.st i
  owed := owedNext t.st i t.owed
  staged := t.nextStaged i
  due := t.nextDue i
  last := t.nextLast i
  opener := if t.opens i then t.nextLast i else t.opener
  openTlb := if t.opens i then (Dcache.step t.st i).tlb else t.openTlb

end StoreTrace

/-- The DTLB `d` gives the address of `o` the translation that `o` was looked up
with. -/
def Staged.KeptBy (o : Staged g) (d : TlbRegs g) : Prop :=
  (∀ w, dtlbHits d o.req.addr w = dtlbHits o.dtlb o.req.addr w) ∧
    realAddrOf d o.req = realAddrOf o.dtlb o.req

/-- A virtual-mode store is added to the open cycle only if a virtual-mode store
opened it, whose translation was still there when the added store was accepted or, if
it was accepted later, when the cycle was opened. -/
def OpenedAlike (t : StoreTrace g) (i : Input) : Prop :=
  t.st.r1.state = .storeWaitAck → mergeNow t.st i = true →
    ∀ q ∈ t.nextLast i, q.req.virtMode = true →
      ∃ o ∈ t.opener, o.req.virtMode = true ∧ o.KeptBy (if q.early then q.dtlb else t.openTlb)

instance (o : Staged g) (d : TlbRegs g) : Decidable (o.KeptBy d) :=
  inferInstanceAs (Decidable (_ ∧ _))

instance (t : StoreTrace g) (i : Input) : Decidable (OpenedAlike t i) :=
  inferInstanceAs (Decidable (_ → _ → _))

/-! ## Pages of the bus address -/

/-- Two bus addresses lie in the same page. -/
def SamePage (g : Geometry) (a b : WbAddr) : Prop :=
  ∀ k, g.tlbLgPgsz - 3 ≤ k → a.getLsbD k = b.getLsbD k

theorem SamePage.trans {a b c : WbAddr} (hab : SamePage g a b) (hbc : SamePage g b c) :
    SamePage g a c :=
  fun k hk => (hab k hk).trans (hbc k hk)

theorem SamePage.symm {a b : WbAddr} (hab : SamePage g a b) : SamePage g b a :=
  fun k hk => (hab k hk).symm

theorem getLsbD_setLowBits (a : WbAddr) {n : Nat} (low : BitVec n) (k : Nat) (hk : k < 29) :
    (setLowBits a low).getLsbD k = if k < n then low.getLsbD k else a.getLsbD k := by
  unfold setLowBits
  by_cases h : k < n
  · simp [h, hk]
  · have : n + (k - n) = k := by omega
    simp [h, hk, this, BitVec.getLsbD_of_ge low k (by omega)]

theorem getLsbD_addrToWb (a : RealAddr) (k : Nat) (hk : k < 29) :
    (addrToWb a).getLsbD k = a.getLsbD (3 + k) := by
  simp [addrToWb, hk]

/-- Replacing the page offset does not leave the page. -/
theorem samePage_setLowBits (a : WbAddr) (low : BitVec (g.tlbLgPgsz - 3)) :
    SamePage g (setLowBits a low) a := by
  intro k hk
  by_cases h : k < 29
  · rw [getLsbD_setLowBits a low k h, if_neg (by omega)]
  · rw [BitVec.getLsbD_of_ge _ _ (by omega), BitVec.getLsbD_of_ge _ _ (by omega)]

/-- In the right page, the right page offset makes the right address. -/
theorem setLowBits_eq_of_samePage {a : WbAddr} {ra : RealAddr}
    (h : SamePage g a (addrToWb ra)) :
    setLowBits a (ra.extractLsb' 3 (g.tlbLgPgsz - 3)) = addrToWb ra := by
  apply BitVec.eq_of_getLsbD_eq
  intro k hk
  rw [getLsbD_setLowBits _ _ _ hk]
  split_ifs with hlow
  · rw [getLsbD_addrToWb _ _ hk]
    simp [hlow]
  · exact h k (by omega)

theorem addrToWb_dwordAligned (a : RealAddr) : addrToWb (dwordAligned a) = addrToWb a := by
  apply BitVec.eq_of_getLsbD_eq
  intro k hk
  rw [getLsbD_addrToWb _ _ hk, getLsbD_addrToWb _ _ hk, getLsbD_dwordAligned]
  simp

/-- The real-mode test: equal page numbers. -/
theorem samePage_of_getRpn {ea : BitVec 64} {a : WbAddr}
    (h : getRpn g ea = getRpn g (wbToAddr a)) : SamePage g a (addrToWb (addrToReal ea)) := by
  have hle := g.tlbLgPgsz_le
  have hset := g.setSize_le
  intro k hk
  by_cases hlt : k < 29
  · have hbit := congrArg (fun v => v.getLsbD (k + 3 - g.tlbLgPgsz)) h
    have hidx : g.tlbLgPgsz + (k + 3 - g.tlbLgPgsz) = 3 + k := by omega
    have hin : k + 3 - g.tlbLgPgsz < 56 - g.tlbLgPgsz := by omega
    simp only [getRpn, BitVec.getLsbD_extractLsb', hidx, hin, decide_true, Bool.true_and] at hbit
    rw [getLsbD_addrToWb _ _ hlt, getLsbD_addrToReal _ _ (by omega), hbit]
    unfold wbToAddr
    rw [BitVec.getLsbD_append, BitVec.getLsbD_append, if_neg (by omega), Nat.add_sub_cancel_left,
      if_pos hlt]
  · rw [BitVec.getLsbD_of_ge _ _ (by omega), BitVec.getLsbD_of_ge _ _ (by omega)]

/-! ## DTLB entries -/

/-- Two DTLBs have the same contents. -/
structure SameDtlb (d e : TlbRegs g) : Prop where
  valids : d.dtlbValids = e.dtlbValids
  tags : d.dtlbTags = e.dtlbTags
  ptes : d.dtlbPtes = e.dtlbPtes

theorem SameDtlb.refl (d : TlbRegs g) : SameDtlb d d :=
  ⟨rfl, rfl, rfl⟩

theorem SameDtlb.trans {d e f : TlbRegs g} (h : SameDtlb d e) (h' : SameDtlb e f) :
    SameDtlb d f :=
  ⟨h.valids.trans h'.valids, h.tags.trans h'.tags, h.ptes.trans h'.ptes⟩

theorem SameDtlb.hits {d e : TlbRegs g} (h : SameDtlb d e) (ea : BitVec 64) :
    dtlbHits d ea = dtlbHits e ea := by
  funext w
  rw [dtlbHits, dtlbHits, h.valids, h.tags]

theorem SameDtlb.realAddrOf_eq {d e : TlbRegs g} (h : SameDtlb d e) (p : Loadstore1ToDcache) :
    realAddrOf d p = realAddrOf e p := by
  unfold realAddrOf dtlbPte
  rw [h.hits, h.ptes]

/-- The DTLB changes by a `tlbie` or a `tlbld` only. -/
theorem sameDtlb_step {s : State g} {i : Input} (hno : (i.mIn.tlbld || i.mIn.tlbie) = false) :
    SameDtlb (step s i).tlb s.tlb := by
  obtain ⟨hld, hie⟩ := Bool.or_eq_false_iff.mp hno
  obtain ⟨hv, ht, hp⟩ := step_dtlb (s := s) (i := i)
  have hsame : tlbUpdate s i s.tlb = s.tlb := by simp [tlbUpdate, hie, hld]
  rw [hsame] at hv ht hp
  exact ⟨hv, ht, hp⟩

/-- `a` lies in the page that `q` was translated to by the entry in way `w` of set
`ix`. -/
structure Staged.UsesEntry (q : Staged g) (ix : TlbIndex g) (w : TlbWay g) (a : WbAddr) :
    Prop where
  index : getTlbIndex q.req.addr = ix
  way : lastWay (dtlbHits q.dtlb q.req.addr) = w
  hit : dtlbHits q.dtlb q.req.addr w = true
  page : SamePage g a (addrToWb (realAddrOf q.dtlb q.req))

/-- Addresses that hit in the same way of a set are in the same page. -/
theorem samePage_of_hits {d : TlbRegs g} {p q : Loadstore1ToDcache} {w : TlbWay g}
    (hp : p.virtMode = true) (hq : q.virtMode = true)
    (hix : (getTlbIndex p.addr : TlbIndex g) = getTlbIndex q.addr)
    (hhit : dtlbHits d p.addr w = true) (hhit' : dtlbHits d q.addr w = true) :
    SamePage g (addrToWb (realAddrOf d p)) (addrToWb (realAddrOf d q)) := by
  have htag : (getTlbTag p.addr : TlbTag g) = getTlbTag q.addr := by
    simp only [dtlbHits, Bool.and_eq_true, beq_iff_eq] at hhit hhit'
    rw [← hhit.2, ← hhit'.2, hix]
  have hhits : dtlbHits d p.addr = dtlbHits d q.addr := by
    funext v
    rw [dtlbHits, dtlbHits, hix, htag]
  have hpte : dtlbPte d p.addr = dtlbPte d q.addr := by
    rw [dtlbPte, dtlbPte, hhits, hix]
  unfold realAddrOf
  rw [if_pos hp, if_pos hq]
  intro k hk
  by_cases hlt : k < 29
  · rw [getLsbD_addrToWb _ _ hlt, getLsbD_addrToWb _ _ hlt, getLsbD_translate _ _ _ (by omega),
      getLsbD_translate _ _ _ (by omega), if_neg (by omega), if_neg (by omega), hpte]
  · rw [BitVec.getLsbD_of_ge _ _ (by omega), BitVec.getLsbD_of_ge _ _ (by omega)]

/-- A store that finds the entry of the opening store goes to the page of the opening
store, if that one's translation was still there when it was accepted. -/
theorem samePage_of_usesEntry {q o : Staged g} {d : TlbRegs g} {ix : TlbIndex g} {w : TlbWay g}
    {a b : WbAddr} (hq : q.UsesEntry ix w a) (ho : o.UsesEntry ix w b)
    (hqv : q.req.virtMode = true) (hov : o.req.virtMode = true) (hkept : o.KeptBy d)
    (hd : SameDtlb q.dtlb d) : SamePage g b a := by
  have hhit : dtlbHits q.dtlb o.req.addr w = true := by
    rw [hd.hits, hkept.1]
    exact ho.hit
  have haddr : realAddrOf q.dtlb o.req = realAddrOf o.dtlb o.req := by
    rw [hd.realAddrOf_eq, hkept.2]
  have hpage := samePage_of_hits hov hqv (ho.index.trans hq.index.symm) hhit hq.hit
  rw [haddr] at hpage
  exact (ho.page.trans hpage).trans hq.page.symm

/-- A way that a loop over all ways selects is a hit if there is one. -/
theorem lastWay_hits {n : Nat} [NeZero n] {hits : Fin n → Bool} {w : Fin n}
    (hw : hits w = true) : hits (lastWay hits) = true := by
  rcases Select.foldl_last_cases hits id 0 (List.finRange n) with ⟨hnone, -⟩ | ⟨v, -, hv, heq⟩
  · rw [hnone w (List.mem_finRange w)] at hw
    exact absurd hw (by decide)
  · have heq' : lastWay hits = v := heq
    rw [heq']
    exact hv

/-! ## The request in `r0` -/

/-- `r0` holds the request that was accepted, with its row of the DTLB. -/
structure Holds (s : State g) (p : Staged g) : Prop where
  req : s.r0.req = { p.req with data := s.r0.req.data, dawrMatch := s.r0.req.dawrMatch }
  valid : p.req.valid = true
  data : p.data = if s.r0.dValid then some s.r0.req.data else none
  valids : s.tlb.tlbValidWay = p.dtlb.dtlbValids (getTlbIndex p.req.addr)
  tags : s.tlb.tlbTagWay = p.dtlb.dtlbTags (getTlbIndex p.req.addr)
  ptes : s.tlb.tlbPteWay = p.dtlb.dtlbPtes (getTlbIndex p.req.addr)

namespace Holds

variable {s : State g} {i : Input} {p : Staged g}

theorem addr (h : Holds s p) : s.r0.req.addr = p.req.addr := by rw [h.req]

theorem virtMode (h : Holds s p) : s.r0.req.virtMode = p.req.virtMode := by rw [h.req]

theorem dcbz (h : Holds s p) : s.r0.req.dcbz = p.req.dcbz := by rw [h.req]

theorem reserve (h : Holds s p) : s.r0.req.reserve = p.req.reserve := by rw [h.req]

theorem byteSel (h : Holds s p) : s.r0.req.byteSel = p.req.byteSel := by rw [h.req]

theorem tlbHitExpand_eq (h : Holds s p) : tlbHitExpand s = dtlbHits p.dtlb p.req.addr := by
  funext w
  rw [tlbHitExpand, dtlbHits, h.valids, h.tags, h.addr]

theorem pte_eq (h : Holds s p) : pte s = dtlbPte p.dtlb p.req.addr := by
  rw [pte, dtlbPte, h.tlbHitExpand_eq, h.ptes]

/-- The request goes to the real address that the DTLB gave when it was accepted. -/
theorem addrToWb_ra (h : Holds s p) : addrToWb (ra s) = addrToWb (realAddrOf p.dtlb p.req) := by
  unfold ra realAddrOf
  rw [h.virtMode, h.addr, h.pte_eq]
  split_ifs <;> exact addrToWb_dwordAligned _

/-- The DTLB entry that a virtual-mode store uses. -/
theorem usesEntry (h : Holds s p) (hop : reqOp s i = .store) (hv : p.req.virtMode = true) :
    p.UsesEntry (getTlbIndex s.r0.req.addr) (tlbHitWay s) (addrToWb (ra s)) := by
  obtain ⟨-, hok⟩ := looksUp_of_reqOp (Or.inr hop)
  obtain ⟨w, hw⟩ := exists_tlbHitExpand (validRa_of_accessOk hok) (h.virtMode.trans hv)
  have hway : tlbHitWay s = lastWay (dtlbHits p.dtlb p.req.addr) := by
    rw [tlbHitWay, h.tlbHitExpand_eq]
  rw [h.tlbHitExpand_eq] at hw
  refine ⟨by rw [h.addr], hway.symm, ?_, ?_⟩
  · rw [hway]
    exact lastWay_hits hw
  · rw [h.addrToWb_ra]
    exact fun k _ => rfl

/-- A real-mode store that passes the test goes to the page of the bus address. -/
theorem samePage_of_real (h : Holds s p) (hv : p.req.virtMode = false)
    (hsame : reqSamePage s = true) : SamePage g s.r1.wb.adr (addrToWb (ra s)) := by
  have hv' : s.r0.req.virtMode = false := h.virtMode.trans hv
  rw [reqSamePage, hv'] at hsame
  rw [ra, hv', if_neg (by decide), addrToWb_dwordAligned]
  exact samePage_of_getRpn (by simpa using hsame)

/-- A virtual-mode store passes the test by the remembered entry. -/
theorem remembered_of_virt (h : Holds s p) (hv : p.req.virtMode = true)
    (hsame : reqSamePage s = true) :
    s.r1.lsTlbHit = true ∧ getTlbIndex s.r0.req.addr = s.r1.tlbAccIndex ∧
      tlbHitWay s = s.r1.tlbAccWay := by
  rw [reqSamePage, h.virtMode.trans hv] at hsame
  simp only [if_true, Bool.and_eq_true, beq_iff_eq] at hsame
  exact ⟨hsame.1.1.2, hsame.1.2, hsame.2⟩

end Holds

end Microwatt.Dcache
