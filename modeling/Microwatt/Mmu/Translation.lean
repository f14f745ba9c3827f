import Microwatt.Mmu.Reads

/-!
# Translation by the MMU and the DTLB

The dcache and the MMU connected to each other, with loadstore1, the bus and the snoop
port as their environment.  Every valid entry of the DTLB is one that the radix walk of
its page finds, for the process and the tables of the moment; a change of PID or PTCR
clears the DTLB at the next edge.  Two entries of one page are therefore the same, and
the OR of all matching ways that the dcache forms is that entry.
-/

namespace Microwatt.Mmu

/-! ## Pages -/

/-- The two addresses are in the same 4 kB page. -/
def SamePage (a b : BitVec 64) : Prop :=
  ∀ k, 12 ≤ k → a.getLsbD k = b.getLsbD k

theorem SamePage.div_eq {a b : BitVec 64} (h : SamePage a b) (n : Nat) :
    a.toNat / 2 ^ (12 + n) = b.toNat / 2 ^ (12 + n) := by
  apply Nat.eq_of_testBit_eq
  intro j
  rw [Nat.testBit_div_two_pow, Nat.testBit_div_two_pow]
  exact h _ (by omega)

/-- The entry that a walk reads in a table. -/
def entryIn (mem : Memory) (ea : BitVec 64) (base nls shift : Nat) : BitVec 64 :=
  entryAt mem (Bits.insertLow base (nls + 3) (8 * (ea.toNat / 2 ^ (12 + (shift - nls)) % 2 ^ nls)))

theorem SamePage.entryIn_eq {a b : BitVec 64} (h : SamePage a b) (mem : Memory)
    (base nls shift : Nat) : entryIn mem a base nls shift = entryIn mem b base nls shift := by
  rw [entryIn, entryIn, h.div_eq]

/-- A walk that succeeds ends at a leaf or goes on in the next table. -/
theorem walkTree_ok {mem : Memory} {a : Access} {base nls shift : Nat} {r : BitVec 64 × Nat}
    (h : walkTree mem a base nls shift = .ok r) :
    5 ≤ nls ∧ nls ≤ shift ∧
      ((entryIn mem a.ea base nls shift).getLsbD 62 = true ∧
          leafCheck a (entryIn mem a.ea base nls shift) = none ∧
          r = (entryIn mem a.ea base nls shift, shift - nls) ∨
        (entryIn mem a.ea base nls shift).getLsbD 62 = false ∧
          walkTree mem a (nextBase (entryIn mem a.ea base nls shift))
            (nextSize (entryIn mem a.ea base nls shift)) (shift - nls) = .ok r) := by
  rw [walkTree] at h
  split_ifs at h with hbad
  refine ⟨by omega, by omega, ?_⟩
  simp only at h
  unfold entryIn
  generalize entryAt mem (Bits.insertLow base (nls + 3)
    (8 * (a.ea.toNat / 2 ^ (12 + (shift - nls)) % 2 ^ nls))) = e at h ⊢
  cases hvalid : e.getLsbD 63 with
  | false =>
      rw [hvalid] at h
      cases h
  | true =>
      rw [hvalid] at h
      cases hleaf : e.getLsbD 62 with
      | false =>
          rw [hleaf] at h
          exact Or.inr ⟨rfl, h⟩
      | true =>
          rw [hleaf] at h
          change leafResult a e (shift - nls) = .ok r at h
          unfold leafResult at h
          split at h
          · cases h
          · cases h
            exact Or.inl ⟨rfl, ‹_›, rfl⟩

/-- Two accesses to one page that both succeed find the same leaf. -/
theorem walkTree_samePage {mem : Memory} {a b : Access} (h : SamePage a.ea b.ea)
    {r r' : BitVec 64 × Nat} (shift : Nat) :
    ∀ base nls, walkTree mem a base nls shift = .ok r → walkTree mem b base nls shift = .ok r' →
      r = r' := by
  induction shift using Nat.strong_induction_on with
  | h shift ih =>
      intro base nls ha hb
      obtain ⟨hlo, hle, ha⟩ := walkTree_ok ha
      obtain ⟨-, -, hb⟩ := walkTree_ok hb
      rw [← h.entryIn_eq] at hb
      rcases ha with ⟨hleaf, -, rfl⟩ | ⟨hleaf, ha⟩ <;>
        rcases hb with ⟨hleaf', -, rfl⟩ | ⟨hleaf', hb⟩
      · rfl
      · rw [hleaf] at hleaf'
        cases hleaf'
      · rw [hleaf] at hleaf'
        cases hleaf'
      · exact ih (shift - nls) (by omega) _ _ ha hb

/-- A walk that succeeds ends at a leaf that allows the access. -/
theorem walkTree_leaf {mem : Memory} {a : Access} {e : BitVec 64} {rest : Nat} (shift : Nat) :
    ∀ base nls, walkTree mem a base nls shift = .ok (e, rest) → leafCheck a e = none := by
  induction shift using Nat.strong_induction_on with
  | h shift ih =>
      intro base nls ha
      obtain ⟨hlo, hle, ⟨-, hcheck, hr⟩ | ⟨-, ha⟩⟩ := walkTree_ok ha
      · rw [(Prod.mk.inj hr).1]
        exact hcheck
      · exact ih (shift - nls) (by omega) _ _ ha

theorem walk_leaf {mem : Memory} {ptcr : BitVec 64} {pid : BitVec 32} {a : Access} {e : BitVec 64}
    {shift : Nat} (ha : walk mem ptcr pid a = .ok (e, shift)) : leafCheck a e = none := by
  rw [walk, walkRoot] at ha
  generalize procEntry mem (partEntry mem ptcr) (if a.ea.getLsbD 63 then 0 else pid) = root at ha
  split_ifs at ha
  exact walkTree_leaf _ _ _ ha

theorem walk_samePage {mem : Memory} {ptcr : BitVec 64} {pid : BitVec 32} {a b : Access}
    (h : SamePage a.ea b.ea) {r r' : BitVec 64 × Nat} (ha : walk mem ptcr pid a = .ok r)
    (hb : walk mem ptcr pid b = .ok r') : r = r' := by
  rw [walk] at ha hb
  rw [← h 63 (by omega)] at hb
  generalize procEntry mem (partEntry mem ptcr) (if a.ea.getLsbD 63 then 0 else pid) = root at ha hb
  rw [walkRoot] at ha hb
  split_ifs at ha hb
  exact walkTree_samePage h _ _ _ ha hb

/-! ## The entries of the DTLB -/

variable {g : Dcache.Geometry}

/-- The fields of the leaf entry `e` in an entry `p` of the DTLB for the page of `ea`: the
page number with the address bits within a large page filled in, and the attributes. -/
def IsPte (p e : BitVec 64) (shift : Nat) (ea : BitVec 64) : Prop :=
  ∀ k, k < 56 → p.getLsbD k =
    if 12 ≤ k ∧ k < 12 + shift then ea.getLsbD k else e.getLsbD k

theorem IsPte.samePage {p e ea ea' : BitVec 64} {shift : Nat} (h : IsPte p e shift ea)
    (hpage : SamePage ea ea') : IsPte p e shift ea' := by
  intro k hk
  rw [h k hk]
  split_ifs with hin
  · exact hpage k hin.1
  · rfl

/-- `p` is an entry that the walk finds for some access to the page of `ea`. -/
def Found (mem : Memory) (s : State) (p ea : BitVec 64) : Prop :=
  ∃ a e shift, SamePage a.ea ea ∧ walk mem s.ptcr s.pid a = .ok (e, shift) ∧ IsPte p e shift ea

/-- Every valid entry of the DTLB is one that the walk finds. -/
def DtlbOk (mem : Memory) (u : Units g) : Prop :=
  ∀ ea w, u.dcache.tlb.dtlbValids (Dcache.getTlbIndex ea) w = true →
    u.dcache.tlb.dtlbTags (Dcache.getTlbIndex ea) w = Dcache.getTlbTag ea →
      Found mem u.mmu.st (u.dcache.tlb.dtlbPtes (Dcache.getTlbIndex ea) w) ea

/-- The whole DTLB is being cleared. -/
def clearing (s : State) : Prop :=
  s.state = .doTlbie ∧ s.invalAll = true

/-- The entries that the two units keep are those of the tables in memory. -/
structure Coherent (mem : Memory) (u : Units g) : Prop where
  walk : WalkInv mem u.mmu
  dtlb : clearing u.mmu.st ∨ DtlbOk mem u
  mmuRead : u.dcache.r0Full = true → u.dcache.r0.mmuReq = true → IsRealRead u.dcache.r0
  mmuError : u.dcache.fast.mmuError = false

theorem samePage_of_tlb (hpg : g.tlbLgPgsz = 12) {a b : BitVec 64}
    (hix : Dcache.getTlbIndex (g := g) a = Dcache.getTlbIndex b)
    (htag : Dcache.getTlbTag (g := g) a = Dcache.getTlbTag b) : SamePage a b := by
  intro k hk
  have hle := g.tlbTag_le
  by_cases hset : k < 12 + g.tlbSetBits
  · have hbit := congrArg (fun x => BitVec.getLsbD x (k - 12)) hix
    have hidx : 12 + (k - 12) = k := by omega
    simpa [Dcache.getTlbIndex, hpg, hidx, show k - 12 < g.tlbSetBits by omega] using hbit
  · by_cases hk' : k < 64
    · have hbit := congrArg (fun x => BitVec.getLsbD x (k - (12 + g.tlbSetBits))) htag
      have hidx : 12 + g.tlbSetBits + (k - (12 + g.tlbSetBits)) = k := by omega
      simpa [Dcache.getTlbTag, Dcache.Geometry.tlbEaTagBits, hpg, hidx,
        show k - (12 + g.tlbSetBits) < 64 - (12 + g.tlbSetBits) by omega] using hbit
    · rw [BitVec.getLsbD_of_ge _ _ (by omega), BitVec.getLsbD_of_ge _ _ (by omega)]

/-- The DTLB set and tag of an address are those of its page. -/
theorem tlb_of_page (hpg : g.tlbLgPgsz = 12) (a : BitVec 64) :
    Dcache.getTlbIndex (g := g) (a.extractLsb' 12 52 ++ 0#12) = Dcache.getTlbIndex a ∧
      Dcache.getTlbTag (g := g) (a.extractLsb' 12 52 ++ 0#12) = Dcache.getTlbTag a := by
  have hbit : ∀ k, 12 ≤ k → k < 64 → (a.extractLsb' 12 52 ++ 0#12).getLsbD k = a.getLsbD k := by
    intro k hk hk'
    have hidx : 12 + (k - 12) = k := by omega
    rw [BitVec.getLsbD_append, if_neg (by omega), BitVec.getLsbD_extractLsb', hidx]
    simp [show k - 12 < 52 by omega]
  have hle := g.tlbTag_le
  constructor
  · apply BitVec.eq_of_getLsbD_eq
    intro k hk
    simp only [Dcache.getTlbIndex, BitVec.getLsbD_extractLsb', hk, decide_true, Bool.true_and]
    exact hbit _ (by omega) (by omega)
  · apply BitVec.eq_of_getLsbD_eq
    intro k hk
    simp only [Dcache.getTlbTag, BitVec.getLsbD_extractLsb', hk, decide_true, Bool.true_and]
    have : k < 64 - (g.tlbLgPgsz + g.tlbSetBits) := hk
    exact hbit _ (by omega) (by omega)

/-! ## The dcache across one edge -/

section Dcache

variable {s : Dcache.State g} {i : Dcache.Input}

/-- The DTLB while it is not written. -/
theorem dtlb_kept (htlbie : i.mIn.tlbie = false) (htlbld : i.mIn.tlbld = false) :
    (Dcache.step s i).tlb.dtlbValids = s.tlb.dtlbValids ∧
      (Dcache.step s i).tlb.dtlbTags = s.tlb.dtlbTags ∧
      (Dcache.step s i).tlb.dtlbPtes = s.tlb.dtlbPtes := by
  simpa [Dcache.tlbUpdate, htlbie, htlbld] using Dcache.step_dtlb (s := s) (i := i)

end Dcache

/-! ## The MMU and the process -/

theorem process_idleRequest (s v : State) (l : Loadstore1ToMmu) :
    (idleRequest s l v).ptcr = v.ptcr ∧ (idleRequest s l v).pid = v.pid := by
  simp only [idleRequest]
  split_ifs
  · exact ⟨rfl, rfl⟩
  · rw [idleWalk_eq]
    split_ifs <;> exact ⟨rfl, rfl⟩
  · exact ⟨rfl, rfl⟩

/-- A new PID or PTCR comes with an invalidation of the whole DTLB. -/
theorem process_step (s : State) (i : Input) :
    clearing (step s i) ∨ (step s i).ptcr = s.ptcr ∧ (step s i).pid = s.pid := by
  by_cases hst : s.state = .idle
  swap
  · have hregs := sameRegs_step (i := i) hst
    exact Or.inr ⟨hregs.ptcr, hregs.pid⟩
  obtain ⟨v, hnext, hv⟩ : ∃ v, nextState s i = idleMtspr i.lIn v ∧ v.ptcr = s.ptcr ∧
    v.pid = s.pid := by
    simp only [nextState, hst, idle]
    exact ⟨_, rfl, process_idleRequest s _ i.lIn⟩
  rw [step_eq, hnext]
  cases hm : i.lIn.mtspr with
  | true => exact Or.inl (by simp [clearing, idleMtspr, hm])
  | false => exact Or.inr (by simpa [idleMtspr, hm] using hv)

/-- The entry that is loaded is one that the walk finds. -/
theorem found_of_tlbld {mem : Memory} {t : Traced} (h : WalkInv mem t)
    (hld : (dOut t.st).tlbld = true) {ea : BitVec 64} (hpage : SamePage t.st.addr ea) :
    Found mem t.st (dOut t.st).pte ea := by
  simp only [dOut, Bool.and_eq_true, beq_iff_eq, Bool.not_eq_true'] at hld
  obtain ⟨hst, hside⟩ := hld
  have hstate := h.state
  simp only [StateOk, hst] at hstate
  have hpte : (dOut t.st).pte = pte t.st := by simp [dOut, hst]
  refine ⟨access t.st, t.st.pde, t.st.shift.toNat, hpage, hstate hside, ?_⟩
  rw [hpte]
  exact IsPte.samePage (fun k hk => getLsbD_pte t.st k hk) hpage

theorem dtlb_step {mem : Memory} (hpg : g.tlbLgPgsz = 12) {u : Units g} (h : Coherent mem u)
    (i : UnitsInput) : clearing (u.step i).mmu.st ∨ DtlbOk mem (u.step i) := by
  obtain ⟨hv, ht, hp⟩ := Dcache.step_dtlb (s := u.dcache) (i := u.dcacheIn i)
  rcases process_step u.mmu.st (u.mmuIn i) with hclear | ⟨hptcr, hpid⟩
  · exact Or.inl hclear
  right
  intro ea w hvalid htag
  have hfound : ∀ p, Found mem u.mmu.st p ea → Found mem (u.step i).mmu.st p ea := by
    rintro p ⟨a, e, shift, hpage, hwalk, hpte⟩
    refine ⟨a, e, shift, hpage, ?_, hpte⟩
    change walk mem (step u.mmu.st (u.mmuIn i)).ptcr (step u.mmu.st (u.mmuIn i)).pid a = _
    rw [hptcr, hpid, hwalk]
  apply hfound
  change (Dcache.step u.dcache (u.dcacheIn i)).tlb.dtlbValids _ _ = _ at hvalid
  change (Dcache.step u.dcache (u.dcacheIn i)).tlb.dtlbTags _ _ = _ at htag
  change Found mem u.mmu.st ((Dcache.step u.dcache (u.dcacheIn i)).tlb.dtlbPtes _ _) ea
  rw [hv] at hvalid
  rw [ht] at htag
  rw [hp]
  simp only [Dcache.tlbUpdate, Units.dcacheIn] at hvalid htag ⊢
  rcases h.dtlb with hclear | hok
  · -- the invalidation of everything is being carried out
    simp [dOut, hclear.1, hclear.2] at hvalid
  by_cases hie : (dOut u.mmu.st).tlbie = true
  · simp only [hie, Bool.true_and, if_true] at hvalid htag ⊢
    by_cases hall : (dOut u.mmu.st).doall = true
    · simp [hall] at hvalid
    · simp only [hall] at hvalid htag ⊢
      rcases ite_eq_iff.mp hvalid with ⟨-, hno⟩ | ⟨-, hkept⟩
      · cases hno
      · exact hok ea w hkept htag
  rw [Bool.not_eq_true] at hie
  simp only [hie, Bool.false_and, Bool.false_eq_true, if_false] at hvalid htag ⊢
  by_cases hld : (dOut u.mmu.st).tlbld = true
  · have haddr : (dOut u.mmu.st).addr = u.mmu.st.addr.extractLsb' 12 52 ++ 0#12 := by
      simp only [dOut, Bool.and_eq_true, beq_iff_eq] at hld
      simp [dOut, hld.1]
    obtain ⟨hix, htg⟩ := tlb_of_page hpg u.mmu.st.addr
    simp only [hld, if_true, haddr, hix, htg] at hvalid htag ⊢
    split_ifs at hvalid htag ⊢ with hnew
    · exact found_of_tlbld h.walk hld (samePage_of_tlb hpg hnew.1.symm htag)
    · exact hok ea w hvalid htag
  · simp only [hld] at hvalid htag ⊢
    exact hok ea w hvalid htag

/-- Each edge keeps the two units coherent with memory. -/
theorem coherent_step {mem : Memory} (hpg : g.tlbLgPgsz = 12) {u : Units g} (h : Coherent mem u)
    {i : UnitsInput}
    (hdata : (Dcache.mOut u.dcache).done = true →
      (Dcache.mOut u.dcache).data = mem u.mmu.reading) : Coherent mem (u.step i) where
  walk := walkInv_step h.walk ⟨h.mmuError, hdata⟩
  dtlb := dtlb_step hpg h i
  mmuRead := mmuRead_step h.mmuRead
  mmuError := mmuError_step h.mmuRead

/-! ## The lookup of a request -/

/-- The request `p` is in `r0`, and the ways of the DTLB set read for it that match have
the entry of the leaf `e`. -/
structure Latched (s : Dcache.State g) (p : Loadstore1ToDcache) (e : BitVec 64) (shift : Nat) :
    Prop where
  addr : s.r0.req.addr = p.addr
  load : s.r0.req.load = p.load
  virtMode : s.r0.req.virtMode = p.virtMode
  privMode : s.r0.req.privMode = p.privMode
  readValid : s.tlb.tlbReadValid = true
  hit : ∃ w, Dcache.tlbHitExpand s w = true
  pte : ∀ w, Dcache.tlbHitExpand s w = true → IsPte (s.tlb.tlbPteWay w) e shift p.addr

section Lookup

variable {s : Dcache.State g} {i : Dcache.Input} {p : Loadstore1ToDcache} {e : BitVec 64}
  {shift : Nat}

/-- The OR of the matching ways. -/
theorem isPte_of_latched (h : Latched s p e shift) : IsPte (Dcache.pte s) e shift p.addr := by
  intro k hk
  unfold Dcache.pte
  rw [Select.getLsbD_foldl_or]
  obtain ⟨w, hw⟩ := h.hit
  have hany : ((List.finRange (2 ^ g.tlbWayBits)).any fun w =>
      Dcache.tlbHitExpand s w && (s.tlb.tlbPteWay w).getLsbD k) =
        (s.tlb.tlbPteWay w).getLsbD k := by
    rw [Bool.eq_iff_iff, List.any_eq_true]
    constructor
    · rintro ⟨w', -, hbit⟩
      obtain ⟨hw', hbit⟩ := Bool.and_eq_true_iff.mp hbit
      rwa [h.pte w' hw' k hk, ← h.pte w hw k hk] at hbit
    · intro hbit
      exact ⟨w, List.mem_finRange w, by rw [hw, hbit]; rfl⟩
  rw [hany, ← h.pte w hw k hk]
  simp

/-- A request that waits in `r0` keeps what has been read for it. -/
theorem latched_stall (h : Latched s p e shift) (hstall : Dcache.r0Stall s i = true) :
    Latched (Dcache.step s i) p e shift := by
  have hreq : (Dcache.step s i).r0.req =
      { s.r0.req with
        data := (Dcache.step s i).r0.req.data
        dawrMatch := (Dcache.step s i).r0.req.dawrMatch } := by
    have hgo : (!s.r1.full && !i.dIn.hold) = false := by
      rw [Dcache.r0Stall, Bool.or_eq_true] at hstall
      rcases hstall with hf | hh
      · simp [hf]
      · simp [hh]
    simp only [Dcache.step, Dcache.stage0, hgo, Bool.false_eq_true, if_false]
    split_ifs <;> rfl
  have htlb : (Dcache.step s i).tlb.tlbValidWay = s.tlb.tlbValidWay ∧
      (Dcache.step s i).tlb.tlbTagWay = s.tlb.tlbTagWay ∧
      (Dcache.step s i).tlb.tlbPteWay = s.tlb.tlbPteWay ∧
      (Dcache.step s i).tlb.tlbReadValid = s.tlb.tlbReadValid := by
    simp only [Dcache.step, Dcache.tlbPlruUpdate, Dcache.tlbUpdate, Dcache.tlbRead, hstall, if_true]
    split_ifs <;> exact ⟨rfl, rfl, rfl, rfl⟩
  have haddr : (Dcache.step s i).r0.req.addr = s.r0.req.addr := by rw [hreq]
  have hexpand : Dcache.tlbHitExpand (Dcache.step s i) = Dcache.tlbHitExpand s := by
    funext w
    rw [Dcache.tlbHitExpand, Dcache.tlbHitExpand, htlb.1, htlb.2.1, haddr]
  constructor
  · rw [haddr, h.addr]
  · rw [hreq]
    exact h.load
  · rw [hreq]
    exact h.virtMode
  · rw [hreq]
    exact h.privMode
  · rw [htlb.2.2.2, h.readValid]
  · rw [hexpand]
    exact h.hit
  · rw [hexpand, htlb.2.2.1]
    exact h.pte

/-- The tests of the dcache are those of the walk. -/
theorem accessOk_of_leafCheck {pte : BitVec 64} (hattr : ∀ k, k < 12 → pte.getLsbD k = e.getLsbD k)
    (hcheck : leafCheck ⟨p.addr, !p.load, p.privMode⟩ e = none) :
    ((p.privMode || !pte.getLsbD 3) && (pte.getLsbD 1 || p.load && pte.getLsbD 2)) = true ∧
      (pte.getLsbD 8 && (p.load || pte.getLsbD 7)) = true := by
  rw [hattr 1 (by omega), hattr 2 (by omega), hattr 3 (by omega), hattr 7 (by omega),
    hattr 8 (by omega)]
  unfold leafCheck at hcheck
  split_ifs at hcheck with hperm hrc
  simp only [Bool.not_eq_true', Bool.not_eq_false, Bool.not_not] at hperm hrc
  rw [Bool.and_comm p.load, Bool.or_comm p.load]
  exact ⟨hperm, hrc⟩

/-- What the lookup of the request finds. -/
theorem lookup_of_latched (hpg : g.tlbLgPgsz = 12) (h : Latched s p e shift)
    (hvirt : p.virtMode = true) (hcheck : leafCheck ⟨p.addr, !p.load, p.privMode⟩ e = none)
    (hgo : Dcache.r0Valid s i = true) :
    Dcache.tlbHit s i = true ∧ Dcache.accessOk s i = !Dcache.dawrMatch s i ∧
      Dcache.ra s = Dcache.dwordAligned (realAddr e shift p.addr) := by
  have hpte := isPte_of_latched h
  have hvirt' : s.r0.req.virtMode = true := by rw [h.virtMode, hvirt]
  have hhit : Dcache.tlbHit s i = true := by
    obtain ⟨w, hw⟩ := h.hit
    simp only [Dcache.tlbHit, Bool.and_eq_true, List.any_eq_true]
    exact ⟨⟨⟨w, List.mem_finRange w, hw⟩, h.readValid⟩, hgo⟩
  refine ⟨hhit, ?_, ?_⟩
  · have hattr : ∀ k, k < 12 → (Dcache.pte s).getLsbD k = e.getLsbD k := by
      intro k hk
      rw [hpte k (by omega), if_neg (by omega)]
    obtain ⟨hperm, hrc⟩ := accessOk_of_leafCheck hattr hcheck
    have hperm' : Dcache.permOk s = true := by
      simp only [Dcache.permOk, Dcache.permAttr, hvirt', if_true, Dcache.extractPermAttr, h.load,
        h.privMode]
      exact hperm
    have hrc' : Dcache.rcOk s = true := by
      simp only [Dcache.rcOk, Dcache.permAttr, hvirt', if_true, Dcache.extractPermAttr, h.load]
      exact hrc
    simp [Dcache.accessOk, Dcache.validRa, hhit, hperm', hrc']
  · apply BitVec.eq_of_getLsbD_eq
    intro k hk
    rw [Dcache.ra, hvirt', if_pos rfl, Dcache.getLsbD_dwordAligned, Dcache.getLsbD_dwordAligned,
      Dcache.getLsbD_translate _ _ _ hk, hpg, h.addr, hpte k hk, realAddr, BitVec.getLsbD_ofNat,
      Bits.testBit_insertLow]
    have hbits : ∀ x : BitVec 64, x.toNat.testBit k = x.getLsbD k := fun _ => rfl
    simp only [hbits, hk, decide_true, Bool.true_and]
    congr 1
    split_ifs <;> first | rfl | omega

end Lookup

/-- The request is accepted while the DTLB has an entry of its page. -/
theorem latched_of_accept {mem : Memory} {u : Units g} {i : UnitsInput}
    (h : Coherent mem u) (hnot : ¬clearing u.mmu.st) {a : Access} {e : BitVec 64} {shift : Nat}
    (hwalk : walk mem u.mmu.st.ptcr u.mmu.st.pid a = .ok (e, shift)) (ha : a.ea = i.dIn.addr)
    (hentry : ∃ w, u.dcache.tlb.dtlbValids (Dcache.getTlbIndex a.ea) w = true ∧
      u.dcache.tlb.dtlbTags (Dcache.getTlbIndex a.ea) w = Dcache.getTlbTag a.ea)
    (hv : i.dIn.valid = true) (hm : (dOut u.mmu.st).valid = false)
    (hgo : Dcache.r0Stall u.dcache (u.dcacheIn i) = false) :
    Latched (u.step i).dcache i.dIn e shift := by
  have hok := h.dtlb.resolve_left hnot
  have hgo' : (!u.dcache.r1.full && !i.dIn.hold) = true := by
    simp only [Dcache.r0Stall, Bool.or_eq_false_iff] at hgo
    simp [hgo.1, show i.dIn.hold = false from hgo.2]
  have hr0 : (u.step i).dcache.r0 = ⟨{ i.dIn with data := 0 }, false, false⟩ := by
    simp [Units.step, Dcache.step, Dcache.stage0, Dcache.stage0In, Units.dcacheIn, hgo', hm]
  have htlb : (u.step i).dcache.tlb.tlbValidWay =
        u.dcache.tlb.dtlbValids (Dcache.getTlbIndex i.dIn.addr) ∧
      (u.step i).dcache.tlb.tlbTagWay = u.dcache.tlb.dtlbTags (Dcache.getTlbIndex i.dIn.addr) ∧
      (u.step i).dcache.tlb.tlbPteWay = u.dcache.tlb.dtlbPtes (Dcache.getTlbIndex i.dIn.addr) ∧
      (u.step i).dcache.tlb.tlbReadValid = true := by
    have hread : Dcache.tlbRead u.dcache (u.dcacheIn i) u.dcache.tlb =
        { u.dcache.tlb with
          tlbValidWay := u.dcache.tlb.dtlbValids (Dcache.getTlbIndex i.dIn.addr)
          tlbTagWay := u.dcache.tlb.dtlbTags (Dcache.getTlbIndex i.dIn.addr)
          tlbPteWay := u.dcache.tlb.dtlbPtes (Dcache.getTlbIndex i.dIn.addr)
          tlbReadValid := true } := by
      rw [Dcache.tlbRead, hgo]
      simp [Dcache.earlyAddr, Units.dcacheIn, hm, hv]
    simp only [Units.step, Dcache.step, hread, Dcache.tlbPlruUpdate, Dcache.tlbUpdate]
    split_ifs <;> exact ⟨rfl, rfl, rfl, rfl⟩
  have hexpand : ∀ w, Dcache.tlbHitExpand (u.step i).dcache w = true ↔
      u.dcache.tlb.dtlbValids (Dcache.getTlbIndex a.ea) w = true ∧
        u.dcache.tlb.dtlbTags (Dcache.getTlbIndex a.ea) w = Dcache.getTlbTag a.ea := by
    intro w
    rw [Dcache.tlbHitExpand, htlb.1, htlb.2.1, hr0, ha, Bool.and_eq_true, beq_iff_eq]
  constructor
  · rw [hr0]
  · rw [hr0]
  · rw [hr0]
  · rw [hr0]
  · exact htlb.2.2.2
  · obtain ⟨w, hw⟩ := hentry
    exact ⟨w, (hexpand w).mpr hw⟩
  · intro w hw
    obtain ⟨hvalid, htag⟩ := (hexpand w).mp hw
    obtain ⟨b, e', shift', hpage, hwalk', hpte⟩ := hok a.ea w hvalid htag
    obtain ⟨rfl, rfl⟩ := Prod.mk.inj (walk_samePage hpage hwalk' hwalk)
    rw [htlb.2.2.1, ← ha]
    exact hpte

/-- After reset there is nothing that could disagree with memory. -/
theorem coherent_of_reset {u : Units g} (hd : Dcache.AfterReset u.dcache) (hm : AfterReset u.mmu.st)
    (mem : Memory) : Coherent mem u where
  walk := walkInv_of_reset hm mem _
  dtlb := by
    right
    intro ea w hvalid
    rw [hd.dtlbValids] at hvalid
    cases hvalid
  mmuRead := by simp [hd.r0Full]
  mmuError := hd.mmuError

/-! ## Runs -/

/-- `mem` is the memory as the dcache delivers it to the MMU. -/
def Delivers (mem : Memory) (u : Units g) (input : Nat → UnitsInput) : Prop :=
  ∀ n, (Dcache.mOut (units u input n).dcache).done = true →
    (Dcache.mOut (units u input n).dcache).data = mem (units u input n).mmu.reading

/-- A run from a state such as a reset leaves, in which the bus and loadstore1 let every
request of the dcache go on and the reads of the MMU are kept. -/
structure Served (u : Units g) (input : Nat → UnitsInput) : Prop where
  quiet : Dcache.Quiet u.dcache
  idle : u.mmu.st.state = .idle
  fair : Dcache.FairBus u.dcache (dcacheInput u input)
  kept : ∀ n, ReadKept (units u input n).dcache (dcacheInput u input n)

section Runs

variable {mem : Memory} {u : Units g} {input : Nat → UnitsInput}

theorem coherent_units (hpg : g.tlbLgPgsz = 12) (hu : Coherent mem u) (hd : Delivers mem u input)
    (n : Nat) : Coherent mem (units u input n) := by
  induction n with
  | zero => exact hu
  | succ n ih => exact coherent_step hpg ih (hd n)

/-- A walk in progress ends, with the request it was started for. -/
theorem walk_ends (hpg : g.tlbLgPgsz = 12) (hu : Coherent mem u) (hd : Delivers mem u input)
    (hs : Served u input) {n : Nat} (hw : walking (units u input n).mmu.st = true) :
    ∃ m, n ≤ m ∧ (units u input (m + 1)).mmu.st.state = .radixFinish ∧
      ∀ j, n ≤ j → j ≤ m → walking (units u input j).mmu.st = true ∧
        SameRegs (units u input n).mmu.st (units u input j).mmu.st := by
  have hprog : ∀ n, walking (units u input n).mmu.st = true →
      Progresses (units u input n).mmu.st ((units u input n).mmuIn (input n)) :=
    fun n hw => progresses_of_walking hw (coherent_units hpg hu hd n).mmuError
  have hnext : ∀ n, (units u input (n + 1)).mmu.st =
      step (units u input n).mmu.st ((units u input n).mmuIn (input n)) := fun _ => rfl
  have hex : ∃ m, n ≤ m ∧ (units u input (m + 1)).mmu.st.state = .radixFinish := by
    refine Clocked.eventually_of_rank (fun n => walking (units u input n).mmu.st = true)
      (fun n => (units u input (n + 1)).mmu.st.state = .radixFinish)
      (fun n => rank (units u input n).mmu.st) (fun n => waitsForRead (units u input n).mmu.st)
      (fun waits n => waits = true → (Dcache.mOut (units u input n).dcache).done = true)
      ?_ ?_ n hw
    · intro n hw hno
      rw [hnext, step_eq] at hno ⊢
      rcases hprog n hw with hend | ⟨hw', hlt | ⟨heq, hwait, hwait', hdone⟩⟩
      · exact absurd hend hno
      · exact ⟨hw', Or.inl hlt⟩
      · refine ⟨hw', Or.inr ⟨heq, hwait'.trans hwait.symm, ?_⟩⟩
        change (Dcache.mOut (units u input n).dcache).done = false at hdone
        rw [hdone]
        simpa using hwait
    · intro n hw
      cases hwait : waitsForRead (units u input n).mmu.st with
      | false => exact ⟨n, le_rfl, by simp⟩
      | true =>
          obtain ⟨m, hnm, hdone⟩ := read_answered hs.quiet hs.idle hs.fair hs.kept hwait
          exact ⟨m, hnm, fun _ => hdone⟩
  classical
  let m := Nat.find hex
  obtain ⟨hnm, hend⟩ := Nat.find_spec hex
  refine ⟨m, hnm, hend, fun j hnj => ?_⟩
  induction j, hnj using Nat.le_induction with
  | base => exact fun _ => ⟨hw, ⟨rfl, rfl, rfl, rfl, rfl, rfl⟩⟩
  | succ j hnj ih =>
      intro hjm
      obtain ⟨hwj, hregs⟩ := ih (by omega)
      have hno : ¬(units u input (j + 1)).mmu.st.state = .radixFinish := fun hfin =>
        Nat.find_min hex (show j < m by omega) ⟨hnj, hfin⟩
      constructor
      · rw [hnext, step_eq] at hno ⊢
        rcases hprog j hwj with hfin | ⟨hw', -⟩
        · exact absurd hfin hno
        · exact hw'
      · have hnot : (units u input j).mmu.st.state ≠ .idle := by
          intro hidle
          simp [walking, hidle] at hwj
        have hone := sameRegs_step (i := (units u input j).mmuIn (input j)) hnot
        exact ⟨hone.iside.trans hregs.iside, hone.store.trans hregs.store,
          hone.priv.trans hregs.priv, hone.addr.trans hregs.addr, hone.ptcr.trans hregs.ptcr,
          hone.pid.trans hregs.pid⟩

/-- No invalidation and no load of the DTLB in the cycles from `m` to `k`. -/
def DtlbUntouched (u : Units g) (input : Nat → UnitsInput) (m k : Nat) : Prop :=
  ∀ j, m ≤ j → j ≤ k → (dOut (units u input j).mmu.st).tlbie = false ∧
    (dOut (units u input j).mmu.st).tlbld = false

/-- The request that loadstore1 sends in cycle `k` is accepted, waits in `r0` and is looked
up in cycle `j`. -/
structure LookedUp (u : Units g) (input : Nat → UnitsInput) (k j : Nat) : Prop where
  later : k < j
  sent : (input k).dIn.valid = true
  alone : (dOut (units u input k).mmu.st).valid = false
  accepted : Dcache.r0Stall (units u input k).dcache ((units u input k).dcacheIn (input k)) = false
  waits : ∀ l, k < l → l < j →
    Dcache.r0Stall (units u input l).dcache ((units u input l).dcacheIn (input l)) = true
  now : Dcache.r0Valid (units u input j).dcache ((units u input j).dcacheIn (input j)) = true

/-- The DTLB has an entry of the page of `ea`. -/
def HasEntry (u : Units g) (ea : BitVec 64) : Prop :=
  ∃ w, u.dcache.tlb.dtlbValids (Dcache.getTlbIndex ea) w = true ∧
    u.dcache.tlb.dtlbTags (Dcache.getTlbIndex ea) w = Dcache.getTlbTag ea

theorem hasEntry_of_tlbld (hpg : g.tlbLgPgsz = 12) (i : UnitsInput)
    (hld : (dOut u.mmu.st).tlbld = true) : HasEntry (u.step i) u.mmu.st.addr := by
  have hst : u.mmu.st.state = .radixLoadTlb := by
    simp only [dOut, Bool.and_eq_true, beq_iff_eq] at hld
    exact hld.1
  have hie : (dOut u.mmu.st).tlbie = false := by simp [dOut, hst]
  have haddr : (dOut u.mmu.st).addr = u.mmu.st.addr.extractLsb' 12 52 ++ 0#12 := by
    simp [dOut, hst]
  obtain ⟨hix, htg⟩ := tlb_of_page hpg u.mmu.st.addr
  obtain ⟨hv, ht, -⟩ := Dcache.step_dtlb (s := u.dcache) (i := u.dcacheIn i)
  refine ⟨u.dcache.fast.tlbVictim, ?_, ?_⟩
  · change (Dcache.step u.dcache (u.dcacheIn i)).tlb.dtlbValids _ _ = _
    rw [hv]
    simp [Dcache.tlbUpdate, Units.dcacheIn, hie, hld, haddr, hix]
  · change (Dcache.step u.dcache (u.dcacheIn i)).tlb.dtlbTags _ _ = _
    rw [ht]
    simp [Dcache.tlbUpdate, Units.dcacheIn, hie, hld, haddr, hix, htg]

theorem hasEntry_kept (i : UnitsInput) (hie : (dOut u.mmu.st).tlbie = false)
    (hld : (dOut u.mmu.st).tlbld = false) {ea : BitVec 64} (h : HasEntry u ea) :
    HasEntry (u.step i) ea := by
  obtain ⟨hv, ht, -⟩ := dtlb_kept (s := u.dcache) (i := u.dcacheIn i) hie hld
  obtain ⟨w, hw, hw'⟩ := h
  refine ⟨w, ?_, ?_⟩
  · change (Dcache.step _ _).tlb.dtlbValids _ _ = _
    rw [hv]
    exact hw
  · change (Dcache.step _ _).tlb.dtlbTags _ _ = _
    rw [ht]
    exact hw'

/-- Until the DTLB is written again, the entry and the process stay. -/
theorem kept_untouched {m k : Nat} (hmk : m ≤ k) (hun : DtlbUntouched u input m k)
    {ea : BitVec 64} (hentry : HasEntry (units u input m) ea) :
    HasEntry (units u input k) ea ∧
      (units u input k).mmu.st.ptcr = (units u input m).mmu.st.ptcr ∧
      (units u input k).mmu.st.pid = (units u input m).mmu.st.pid := by
  induction k, hmk using Nat.le_induction with
  | base => exact ⟨hentry, rfl, rfl⟩
  | succ k hmk ih =>
      obtain ⟨hhas, hptcr, hpid⟩ := ih fun j hmj hjk => hun j hmj (by omega)
      obtain ⟨hie, hld⟩ := hun k hmk (by omega)
      refine ⟨hasEntry_kept (input k) hie hld hhas, ?_⟩
      rcases process_step (units u input k).mmu.st ((units u input k).mmuIn (input k)) with
        hclear | hsame
      · -- an invalidation in cycle `k + 1` is excluded
        have hie' := (hun (k + 1) (by omega) le_rfl).1
        have hst : (units u input (k + 1)).mmu.st.state = .doTlbie := hclear.1
        simp [dOut, hst] at hie'
      · exact ⟨hsame.1.trans hptcr, hsame.2.trans hpid⟩

theorem latched_until {k j : Nat} (hlook : LookedUp u input k j) {e : BitVec 64} {shift : Nat}
    (hfirst : Latched (units u input (k + 1)).dcache (input k).dIn e shift) :
    Latched (units u input j).dcache (input k).dIn e shift := by
  obtain ⟨n, rfl⟩ : ∃ n, j = k + 1 + n := ⟨j - (k + 1), by have := hlook.later; omega⟩
  have hstep : ∀ n', n' ≤ n →
      Latched (units u input (k + 1 + n')).dcache (input k).dIn e shift := by
    intro n'
    induction n' with
    | zero => exact fun _ => hfirst
    | succ n' ih =>
        intro hle
        exact latched_stall (ih (by omega)) (hlook.waits (k + 1 + n') (by omega) (by omega))
  exact hstep n le_rfl

/-- What is reported for the result `r` of a walk. -/
def Reports (s : State) (r : Except Fault (BitVec 64 × Nat)) : Prop :=
  s.done = r.toOption.isSome ∧ s.err = !r.toOption.isSome ∧ s.causes = causesOf r

/-- The same request is looked up, the DTLB being untouched since cycle `m`: it hits, is
allowed (a watchpoint apart) and has the real address of the leaf. -/
def Translates (u : Units g) (input : Nat → UnitsInput) (l : Loadstore1ToMmu)
    (r : Except Fault (BitVec 64 × Nat)) (m : Nat) : Prop :=
  ∀ e shift, r = .ok (e, shift) → ∀ k j, m ≤ k → DtlbUntouched u input m k → LookedUp u input k j →
    (input k).dIn.addr = l.addr → (input k).dIn.load = l.load → (input k).dIn.privMode = l.priv →
    (input k).dIn.virtMode = true →
      let s := (units u input j).dcache
      let i := (units u input j).dcacheIn (input j)
      Dcache.tlbHit s i = true ∧ Dcache.accessOk s i = !Dcache.dawrMatch s i ∧
        Dcache.ra s = Dcache.dwordAligned (realAddr e shift l.addr)

theorem reports_of_causes {s : State} {i : Input} {r : Except Fault (BitVec 64 × Nat)}
    (hend : (step s i).state = .radixFinish) (hc : (step s i).causes = causesOf r) :
    Reports (step s i) r := by
  obtain ⟨hdone, herr⟩ := flags_of_finish hend
  refine ⟨?_, ?_, hc⟩
  · rw [hdone, hc, causesOf_any, Bool.not_not]
  · rw [herr, hc, causesOf_any]

/-- The entry loaded at the end of a walk serves the request when it is sent again. -/
theorem translates_of_hasEntry (hpg : g.tlbLgPgsz = 12) (hu : Coherent mem u)
    (hd : Delivers mem u input) {l : Loadstore1ToMmu} {m : Nat} {r : Except Fault (BitVec 64 × Nat)}
    (hr : walk mem (units u input m).mmu.st.ptcr (units u input m).mmu.st.pid
      ⟨l.addr, !l.load, l.priv⟩ = r)
    (hentry : r.toOption.isSome = true → HasEntry (units u input m) l.addr) :
    Translates u input l r m := by
  rintro e shift rfl k j hmk hun hlook haddr hload hpriv hvirt
  obtain ⟨hhas, hptcr, hpid⟩ := kept_untouched hmk hun (hentry rfl)
  have hnot : ¬clearing (units u input k).mmu.st := by
    intro hclear
    have hie := (hun k hmk le_rfl).1
    simp [dOut, hclear.1] at hie
  rw [← hptcr, ← hpid] at hr
  have hlatched : Latched (units u input (k + 1)).dcache (input k).dIn e shift :=
    latched_of_accept (coherent_units hpg hu hd k) hnot hr haddr.symm hhas hlook.sent hlook.alone
      hlook.accepted
  have hcheck := walk_leaf hr
  rw [← haddr, ← hload, ← hpriv] at hcheck
  rw [← haddr]
  exact lookup_of_latched hpg (latched_until hlook hlatched) hvirt hcheck hlook.now

end Runs

/-! ## Runs that come to rest -/

/-- The dcache has nothing to do, and the MMU is idle or waits for a read that does not
come. -/
structure AtRest (st : StateT) (u : Units g) : Prop where
  drained : Dcache.Drained u.dcache
  done : (Dcache.mOut u.dcache).done = false
  state : u.mmu.st.state = st
  flags : FlagsDown u.mmu.st

theorem atRest_step {st : StateT} (hst : st = .idle ∨ st = .partTblWait) {u : Units g}
    {i : UnitsInput} (h : AtRest st u) (hd : i.dIn.valid = false) (hl : i.lIn = .idle) :
    AtRest st (u.step i) := by
  have hm : (u.dcacheIn i).mIn.valid = false := by
    rcases hst with hst | hst <;> simp [Units.dcacheIn, dOut, h.state, hst]
  obtain ⟨hrest, hpulse⟩ := Dcache.drained_step h.drained hm hd
  have hdone : (Dcache.mOut (u.step i).dcache).done = false := by
    by_contra hdone
    rw [Bool.not_eq_false] at hdone
    change (Dcache.mOut (Dcache.step u.dcache (u.dcacheIn i))).done = true at hdone
    simp [Dcache.pulses, hdone] at hpulse
  have hnext : (step u.mmu.st (u.mmuIn i)).state = st := by
    rw [step_eq]
    rcases hst with rfl | rfl
    · simp [nextState, h.state, idle, idleMtspr, idleRequest, Units.mmuIn, hl, setRoot,
        Loadstore1ToMmu.idle]
    · simp [nextState, h.state, Units.mmuIn, h.done]
  refine ⟨hrest, hdone, hnext, flags_of_walking fun hfin => ?_⟩
  rw [hnext] at hfin
  rcases hst with hst | hst <;> rw [hst] at hfin <;> cases hfin

/-- A run that comes to rest has a fair bus, if every strobe was acked by then. -/
theorem fairBus_of_rest {u : Units g} {input : Nat → UnitsInput} {st : StateT} {N : Nat}
    (hst : st = .idle ∨ st = .partTblWait) (hrest : AtRest st (units u input N))
    (hquiet : ∀ n, N ≤ n → (input n).dIn.valid = false ∧ (input n).lIn = .idle ∧
      (input n).wishboneIn.ack = false)
    (howed : (Dcache.ports u.dcache (dcacheInput u input) N).owed = 0)
    (hacks : ∀ n < N, Dcache.AckIsOwed (dcacheInput u input n)
      (Dcache.ports u.dcache (dcacheInput u input) n).owed)
    (hacked : ∀ n < N, 0 < (Dcache.ports u.dcache (dcacheInput u input) n).owed →
      ∃ m < N, n ≤ m ∧ (input m).wishboneIn.ack = true)
    (hfree : ∀ n, (input n).wishboneIn.stall = false ∧ (input n).dIn.hold = false) :
    (∀ n, N ≤ n → AtRest st (units u input n)) ∧
      Dcache.FairBus u.dcache (dcacheInput u input) := by
  have hall : ∀ n, N ≤ n → AtRest st (units u input n) :=
    Clocked.trace_invariant (AtRest st) N
      (fun n hn h => atRest_step hst h (hquiet n hn).1 (hquiet n hn).2.1) hrest
  have hzero : ∀ n, N ≤ n → (Dcache.ports u.dcache (dcacheInput u input) n).owed = 0 := by
    intro n hn
    induction n, hn using Nat.le_induction with
    | base => exact howed
    | succ n hn ih =>
        show Dcache.owedNext (Dcache.ports u.dcache (dcacheInput u input) n).st _ _ = 0
        simp [ports_units, Dcache.owedNext, Dcache.strobeTaken, Dcache.wishboneOut,
          (hall n hn).drained.cyc, ih]
  refine ⟨hall, fun n => ?_, fun n hpos => ?_, fun n => ⟨n, le_rfl, (hfree n).1⟩,
    fun n => ⟨n, le_rfl, (hfree n).2⟩⟩
  · rcases Nat.lt_or_ge n N with hn | hn
    · exact hacks n hn
    · intro hack
      rw [show (dcacheInput u input n).wishboneIn.ack = false from (hquiet n hn).2.2] at hack
      cases hack
  · rcases Nat.lt_or_ge n N with hn | hn
    · obtain ⟨m, -, hnm, hack⟩ := hacked n hn hpos
      exact ⟨m, hnm, hack⟩
    · rw [hzero n hn] at hpos
      exact absurd hpos (by decide)

/-! ## Fixed inputs -/

/-- Tables in which every doubleword is the same entry: a table of 64 entries, a tree of
51 bits, and a leaf that allows everything. -/
def oneEntry : Memory :=
  fun _ => byteSwap 0xc000000000000186

def coldUnits : Units .default where
  dcache := .cold .default
  mmu := ⟨.cold, 0⟩

instance (s : State) : Decidable (FlagsDown s) :=
  inferInstanceAs (Decidable (_ ∧ _))

theorem coherent_coldUnits : Coherent oneEntry coldUnits :=
  coherent_of_reset (Dcache.afterReset_cold _) afterReset_cold _

/-- A load from address 0 is looked up in the tables, from a slave that acks every strobe
one cycle after taking it. -/
def firstWalk (n : Nat) : UnitsInput where
  dIn := .init
  lIn := if n = 0 then { Loadstore1ToMmu.idle with valid := true, load := true, priv := true }
    else .idle
  snoopIn := ⟨0, 0, 0, false, false, false⟩
  wishboneIn := ⟨byteSwap 0xc000000000000186, decide (4 ≤ n ∧ n ≤ 11), false⟩

/-- The two units after the walk. -/
theorem firstWalk_rest : (∀ n, 19 ≤ n → AtRest .idle (units coldUnits firstWalk n)) ∧
    Dcache.FairBus coldUnits.dcache (dcacheInput coldUnits firstWalk) := by
  refine fairBus_of_rest (Or.inl rfl) ⟨?_, ?_, ?_, ?_, ?_⟩ (fun n hn => ⟨rfl, ?_, ?_⟩) ?_ ?_ ?_
    fun _ => ⟨rfl, rfl⟩
  · constructor <;> decide +kernel
  · decide +kernel
  · decide +kernel
  · decide +kernel
  · decide +kernel
  · exact if_neg (by omega)
  · exact decide_eq_false (by omega)
  · decide +kernel
  · decide +kernel
  · decide +kernel

theorem served_firstWalk : Served coldUnits firstWalk where
  quiet := (Dcache.afterReset_cold _).toQuiet
  idle := rfl
  fair := firstWalk_rest.2
  kept := by
    intro n
    rcases Nat.lt_or_ge n 19 with hn | hn
    · revert n
      decide +kernel
    · have hrest := firstWalk_rest.1 n hn
      have hvalid : (dcacheInput coldUnits firstWalk n).mIn.valid = false := by
        simp [dcacheInput, Units.dcacheIn, dOut, hrest.state]
      refine ⟨fun hv => ?_, fun hr0 => ?_, fun _ hst => ?_⟩
      · rw [hvalid] at hv
        cases hv
      · rw [hrest.drained.r0Full] at hr0
        cases hr0
      · rw [hrest.drained.state] at hst
        cases hst

theorem delivers_firstWalk : Delivers oneEntry coldUnits firstWalk := by
  intro n
  rcases Nat.lt_or_ge n 19 with hn | hn
  · revert n
    decide +kernel
  · intro hdone
    rw [(firstWalk_rest.1 n hn).done] at hdone
    cases hdone

/-- The same walk, started while the line of the tables is being reloaded for a dcbt. -/
def walkBehindTouch (n : Nat) : UnitsInput where
  dIn := if n = 0 then Dcache.touchReq 0 else .init
  lIn := if n = 2 then { Loadstore1ToMmu.idle with valid := true, load := true, priv := true }
    else .idle
  snoopIn := ⟨0, 0, 0, false, false, false⟩
  wishboneIn := ⟨byteSwap 0xc000000000000186, decide (3 ≤ n ∧ n ≤ 10), false⟩

end Microwatt.Mmu
