import Microwatt.Dcache.Machine

/-!
# No line is held twice

`TagsUnique` says that no set has two valid ways with the same tag.  A reload
writes its tag one cycle after it starts, and the tag row that a request is
compared with is read one cycle before the request is looked up, so a lookup in
the first two cycles of a reload sees the old tags of the set.  A load miss or a
dcbz keeps `r1.full` set for that long; a touch does not.  `CleanLookup` is the
condition that no lookup falls into this window.

The invariant `TagInv` adds to uniqueness what makes it inductive: a request that
waits in `r1` for a reload of its own asks for a line that no way holds.
-/

namespace Microwatt.Dcache

variable {g : Geometry} {s : State g} {i : Input}

/-- A line of the real address space, by the set it falls into and its tag. -/
structure Line (g : Geometry) where
  index : Index g
  tag : CacheTag g
deriving DecidableEq

/-- The line of a real address. -/
def lineOf (a : RealAddr) : Line g where
  index := getIndex a
  tag := getTag a

/-- Way `w` holds the line `l`. -/
def HasLine (r : SlowRegs g) (w : Way g) (l : Line g) : Prop :=
  r.cacheValids l.index w = true ∧ r.cacheTags l.index w = l.tag

/-- The tag of the line `l` is about to be written. -/
def Installing (r : SlowRegs g) (l : Line g) : Prop :=
  r.writeTag = true ∧ l = ⟨r.storeIndex, r.reloadTag⟩

/-- No two valid ways of a set hold the same tag. -/
def TagsUnique (s : State g) : Prop :=
  ∀ ix w w', s.r1.cacheValids ix w = true → s.r1.cacheValids ix w' = true →
    s.r1.cacheTags ix w = s.r1.cacheTags ix w' → w = w'

instance (r : SlowRegs g) (w : Way g) (l : Line g) : Decidable (HasLine r w l) :=
  inferInstanceAs (Decidable (_ ∧ _))

instance (r : SlowRegs g) (l : Line g) : Decidable (Installing r l) :=
  inferInstanceAs (Decidable (_ ∧ _))

/-- The request in `r0` is compared with the tags in this cycle. -/
def looksUp (s : State g) (i : Input) : Bool :=
  reqGo s i && !s.r0.req.sync && (s.r0.req.touch || !s.r0.req.tlbProbe)

/-- The line of the request that is looked up, if any, is not one whose tag is
about to be written, nor one whose tag the row read from the tag RAM is too old to
show; and in virtual mode at most one way of the DTLB translates the request. -/
def FreshLookup (s : State g) (i : Input) : Prop :=
  looksUp s i = true →
    ¬Installing s.r1 (lineOf (ra s)) ∧
    (∀ w, HasLine s.r1 w (lineOf (ra s)) → s.rams.cacheTagSet w = getTag (ra s)) ∧
    (s.r0.req.virtMode = true →
      ∀ j k, tlbHitExpand s j = true → tlbHitExpand s k = true → j = k)

instance (s : State g) (i : Input) : Decidable (FreshLookup s i) :=
  inferInstanceAs (Decidable (_ → _ ∧ _ ∧ _))

/-! ## The ways that hit are those that hold the line -/

theorem getTag_ra_of_real (h : s.r0.req.virtMode = false) :
    (getTag (ra s) : CacheTag g) = getTag s.r0.req.addr := by
  apply BitVec.eq_of_getLsbD_eq
  intro k hk
  simp only [getTag, ra, h, BitVec.getLsbD_extractLsb', hk, decide_true, Bool.true_and,
    Bool.false_eq_true, if_false, getLsbD_dwordAligned, Geometry.setSizeBits,
    Geometry.lineOffBits]
  rw [getLsbD_addrToReal _ _ (by simp only [Geometry.tagBits, Geometry.setSizeBits,
    Geometry.lineOffBits] at hk; omega)]
  have : 3 ≤ 3 + g.rowLinebits + g.indexBits + k := by omega
  simp [this]

theorem getTag_dwordAligned (a : RealAddr) :
    (getTag (dwordAligned a) : CacheTag g) = getTag a := by
  apply BitVec.eq_of_getLsbD_eq
  intro k hk
  have : 3 ≤ g.setSizeBits + k := by simp only [Geometry.setSizeBits, Geometry.lineOffBits]; omega
  simp [getTag, BitVec.getLsbD_extractLsb', getLsbD_dwordAligned, this]

/-- A single matching way of the DTLB gives the translation. -/
theorem pte_eq_of_unique {j : TlbWay g} (hj : tlbHitExpand s j = true)
    (huniq : ∀ k, tlbHitExpand s k = true → k = j) : pte s = s.tlb.tlbPteWay j :=
  Select.foldl_or_eq_of_unique _ _ (List.nodup_finRange _) (List.mem_finRange j) hj
    fun k _ hk => huniq k hk

theorem exists_tlbHitExpand (hra : validRa s i = true) (hv : s.r0.req.virtMode = true) :
    ∃ j, tlbHitExpand s j = true := by
  simp only [validRa, hv, Bool.not_true, Bool.or_false, tlbHit, Bool.and_eq_true,
    List.any_eq_true, List.mem_finRange, true_and] at hra
  exact hra.1.1

/-- With a valid translation, the ways that hit are the valid ones whose tag, as
read, is that of the real address. -/
theorem tagHitWays_iff (hgo : reqGo s i = true) (hra : validRa s i = true)
    (htlb : s.r0.req.virtMode = true →
      ∀ j k, tlbHitExpand s j = true → tlbHitExpand s k = true → j = k) (w : Way g) :
    tagHitWays s i w = true ↔
      s.r1.cacheValids (reqIndex s) w = true ∧ s.rams.cacheTagSet w = getTag (ra s) := by
  unfold tagHitWays
  cases hv : s.r0.req.virtMode with
  | false => simp [hgo, getTag_ra_of_real hv]
  | true =>
      obtain ⟨j, hj⟩ := exists_tlbHitExpand hra hv
      have huniq : ∀ k, tlbHitExpand s k = true → k = j := fun k hk => htlb hv k j hk hj
      have hra' : ra s = dwordAligned (translate g (s.tlb.tlbPteWay j) s.r0.req.addr) := by
        rw [ra, hv, pte_eq_of_unique hj huniq]
        rfl
      have hvalid : s.tlb.tlbValidWay j = true := by
        simp only [tlbHitExpand, Bool.and_eq_true] at hj
        exact hj.1
      rw [hra', getTag_dwordAligned]
      simp only [if_true, List.any_eq_true, List.mem_finRange, true_and, Bool.and_eq_true,
        beq_iff_eq]
      constructor
      · rintro ⟨k, ⟨⟨_, hcv⟩, htag⟩, hk⟩
        rw [huniq k hk] at htag
        exact ⟨hcv, htag⟩
      · rintro ⟨hcv, htag⟩
        exact ⟨j, ⟨⟨hvalid, hcv⟩, htag⟩, hj⟩

/-- What the operations that may allocate a line have in common. -/
theorem looksUp_of_reqOp (h : reqOp s i = .loadMiss ∨ reqOp s i = .store) :
    looksUp s i = true ∧ accessOk s i = true := by
  have hgo : reqGo s i = true := reqGo_of_reqOp (by rcases h with h | h <;> simp [h])
  unfold reqOp at h
  simp only [looksUp, hgo, if_true, Bool.true_and] at h ⊢
  split_ifs at h <;> simp_all

theorem validRa_of_accessOk (h : accessOk s i = true) : validRa s i = true := by
  simp only [accessOk, Bool.and_eq_true] at h
  exact h.1.1.1

/-- A miss that does not wait for a row is for a line that no way holds. -/
theorem not_hasLine_of_miss (hfresh : FreshLookup s i)
    (hop : reqOp s i = .loadMiss ∨ reqOp s i = .store) (hhit : reqIsHit s i = false)
    (hreload : reqHitReload s i = false) :
    (∀ w, ¬HasLine s.r1 w (lineOf (ra s))) ∧ ¬Installing s.r1 (lineOf (ra s)) := by
  obtain ⟨hup, hok⟩ := looksUp_of_reqOp hop
  obtain ⟨hinst, hseen, htlb⟩ := hfresh hup
  refine ⟨fun w hline => ?_, hinst⟩
  have hgo : reqGo s i = true := reqGo_of_reqOp (by rcases hop with h | h <;> simp [h])
  have hways := reqHitWays_eq_false hgo hhit hreload w
  simp only [reqHitWays, Bool.or_eq_false_iff] at hways
  have hvalid : s.r1.cacheValids (reqIndex s) w = true := by
    rw [← getIndex_ra]
    exact hline.1
  have htag := (tagHitWays_iff hgo (validRa_of_accessOk hok) htlb w).mpr
    ⟨hvalid, hseen w hline⟩
  rw [hways.2] at htag
  exact absurd htag (by decide)

/-! ## The invariant -/

/-- `req` needs a line that was found to be in no way. -/
def MemAccessRequest.missing (req : MemAccessRequest g) : Bool :=
  !req.hitReload && (req.opLmiss || (req.opStore && !req.isHit))

structure TagInv (s : State g) : Prop extends MachInv s where
  unique : TagsUnique s
  /-- The line whose tag is about to be written is in no way. -/
  pending : ∀ l w, Installing s.r1 l → ¬HasLine s.r1 w l
  /-- The line that a request in `r1` has yet to reload is in no way, nor is it the
  line whose tag is about to be written. -/
  missing : s.r1.full = true → s.r1.req.missing = true →
    (∀ w, ¬HasLine s.r1 w (lineOf s.r1.req.realAddr)) ∧
      ¬Installing s.r1 (lineOf s.r1.req.realAddr)

/-! ### One edge preserves the invariant -/

/-- A line that is held after the edge was held before, or is the one whose tag
was written. -/
theorem hasLine_step {w : Way g} {l : Line g} (h : HasLine (step s i).r1 w l) :
    (Installing s.r1 l ∧ w = replaceWay s) ∨ HasLine s.r1 w l := by
  obtain ⟨hv, ht⟩ := h
  rw [step_cacheTags] at ht
  split_ifs at ht with hw
  · left
    refine ⟨⟨hw.1, ?_⟩, hw.2.2⟩
    rw [← hw.2.1, ht]
  · rcases step_cacheValids hv with hv | hv
    · exact absurd hv hw
    · exact Or.inr ⟨hv, ht⟩

theorem tagsUnique_step (h : TagInv s) : TagsUnique (step s i) := by
  intro ix w w' hw hw' ht
  have hline : HasLine (step s i).r1 w ⟨ix, (step s i).r1.cacheTags ix w⟩ := ⟨hw, rfl⟩
  have hline' : HasLine (step s i).r1 w' ⟨ix, (step s i).r1.cacheTags ix w⟩ := ⟨hw', ht.symm⟩
  rcases hasLine_step hline with ⟨hi, hway⟩ | hold <;>
    rcases hasLine_step hline' with ⟨hi', hway'⟩ | hold'
  · rw [hway, hway']
  · exact absurd hold' (h.pending _ _ hi)
  · exact absurd hold (h.pending _ _ hi')
  · exact h.unique ix w w' hold.1 hold'.1 (hold.2.trans hold'.2.symm)

/-- A request from `r0` that needs a line and does not wait for a row has found the
line in no way. -/
theorem not_hasLine_of_missing (hfresh : FreshLookup s i)
    (hmiss : (r0Request s i).missing = true) :
    (∀ w, ¬HasLine s.r1 w (lineOf (ra s))) ∧ ¬Installing s.r1 (lineOf (ra s)) := by
  simp only [MemAccessRequest.missing, r0Request, Bool.and_eq_true, Bool.not_eq_true',
    Bool.or_eq_true, beq_iff_eq, Bool.and_eq_false_iff, beq_eq_false_iff_ne] at hmiss
  obtain ⟨hreload, hop⟩ := hmiss
  rcases hop with hop | ⟨hop, hhit⟩
  · have hwait : reqHitReload s i = false := hreload.resolve_right fun hne => hne hop
    exact not_hasLine_of_miss hfresh (Or.inl hop) (reqIsHit_of_loadMiss hop) hwait
  · refine not_hasLine_of_miss hfresh (Or.inr hop) hhit ?_
    by_contra hwait
    obtain ⟨-, -, hidx⟩ := reqHitWays_of_hitReload (by simpa using hwait)
    have hload := (idxReload_eq_true hidx).2.2.1
    rw [load_of_store hop] at hload
    exact absurd hload (by decide)

theorem missing_step (h : TagInv s) (hfresh : FreshLookup s i)
    (hf : (step s i).r1.full = true) (hmiss : (step s i).r1.req.missing = true) :
    (∀ w, ¬HasLine (step s i).r1 w (lineOf (step s i).r1.req.realAddr)) ∧
      ¬Installing (step s i).r1 (lineOf (step s i).r1.req.realAddr) := by
  rw [step_req] at hmiss ⊢
  split_ifs at hmiss ⊢ with hst
  · simp [MemAccessRequest.missing] at hmiss
  · have hold : (∀ w, ¬HasLine s.r1 w (lineOf (takenReq s i).realAddr)) ∧
        ¬Installing s.r1 (lineOf (takenReq s i).realAddr) := by
      rcases taken_of_full hf with ⟨hfull, heq, -⟩ | ⟨-, -, -, heq, -⟩ <;> rw [heq] at hmiss ⊢
      · exact h.missing hfull hmiss
      · exact not_hasLine_of_missing hfresh hmiss
    refine ⟨fun w hline => ?_, fun hinst => ?_⟩
    · rcases hasLine_step hline with ⟨hinst, -⟩ | hline
      · exact hold.2 hinst
      · exact hold.1 w hline
    · exact hst (writeTag_step h.toMachInv hinst.1).1

theorem pending_step (h : TagInv s) (hfresh : FreshLookup s i) {l : Line g} {w : Way g}
    (hinst : Installing (step s i).r1 l) : ¬HasLine (step s i).r1 w l := by
  obtain ⟨hst, -, hop⟩ := writeTag_step h.toMachInv hinst.1
  have hl : l = lineOf (curReq s i).realAddr := by
    rw [hinst.2, step_storeIndex, step_reloadTag, if_pos hst, if_pos hst]
    rfl
  have hmiss : (curReq s i).missing = true := by
    unfold MemAccessRequest.missing
    rw [hitReload_curReq h.toMachInv (Or.inl hst)]
    rcases hop with hop | ⟨hop, hhit⟩ <;> simp [*]
  have hold : ¬HasLine s.r1 w (lineOf (curReq s i).realAddr) := by
    unfold curReq at hmiss ⊢
    split_ifs at hmiss ⊢ with hfull
    · exact (h.missing hfull hmiss).1 w
    · exact (not_hasLine_of_missing hfresh hmiss).1 w
  intro hline
  rcases hasLine_step hline with ⟨hinst', -⟩ | hline
  · have hst' := h.writeTag hinst'.1
    rw [hst] at hst'
    exact absurd hst' (by decide)
  · rw [hl] at hline
    exact hold hline

/-- An edge with a fresh lookup preserves the invariant. -/
theorem tagInv_step (hfresh : FreshLookup s i) (h : TagInv s) : TagInv (step s i) where
  toMachInv := machInv_step i h.toMachInv
  unique := tagsUnique_step h
  pending := fun _ _ => pending_step h hfresh
  missing := missing_step h hfresh

theorem tagInv_of_quiet (h : Quiet s) : TagInv s where
  toMachInv := machInv_of_quiet h
  unique := by simp [TagsUnique, h.cacheValids]
  pending := by simp [Installing, h.writeTag]
  missing := by simp [h.full]

/-! ## Every run -/

/-- In every run from reset in which no lookup comes too early to see the tag of
its own line, no set ever has two valid ways with the same tag. -/
theorem tagsUnique_of_freshLookup (hs : Quiet s) (is : List Input)
    (hok : Clocked.Along step FreshLookup s is) : TagsUnique (Clocked.run step s is) :=
  (hok.invariant (fun _ _ hfresh hinv => tagInv_step hfresh hinv) (tagInv_of_quiet hs)).unique

/-- Two loads that miss, with the whole of the first reload in between. -/
def twoMisses : List Input :=
  [Input.send (loadReq 0), .idle, .send (loadReq 0x800)] ++ List.replicate 8 (Input.acked 0) ++
    List.replicate 3 Input.idle

theorem tagsUnique_of_freshLookup_twoMisses :
    Clocked.Along step FreshLookup (State.cold .default) twoMisses ∧
      TagsUnique (Clocked.run step (State.cold .default) twoMisses) :=
  have hok : Clocked.Along step FreshLookup (State.cold .default) twoMisses := by
    decide +kernel
  ⟨hok, tagsUnique_of_freshLookup (afterReset_cold _).toQuiet twoMisses hok⟩

/-- A touch of a line followed at once by a load from it.  The load is looked up
in the first cycle of the reload. -/
def touchThenLoad : List Input :=
  [Input.send (touchReq 0), .send (loadReq 0), .idle] ++ List.replicate 8 (Input.acked 0) ++
    List.replicate 3 Input.idle

/-- The load finds no tag and reloads the line into a second way. -/
theorem not_tagsUnique_touchThenLoad :
    ¬TagsUnique (Clocked.run step (State.cold .default) touchThenLoad) := by
  intro h
  have heq := h 0 0 2 (by decide +kernel) (by decide +kernel) (by decide +kernel)
  exact absurd heq (by decide)

end Microwatt.Dcache
