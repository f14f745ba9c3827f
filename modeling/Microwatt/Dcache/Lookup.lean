import Microwatt.Dcache.Fields
import Microwatt.Lib.Select

/-!
# What a lookup finds

The facts about `dcache_request` that the invariants use: the row and the set of
a request do not depend on the translation, and the hit signals are those of one
of the hitting ways.
-/

namespace Microwatt.Dcache

variable {g : Geometry} {s : State g} {i : Input}

/-! ## Addresses -/

/-- The bits below the page size are not translated. -/
theorem getLsbD_translate (pte addr : BitVec 64) (k : Nat) (hk : k < 56) :
    (translate g pte addr).getLsbD k =
      if k < g.tlbLgPgsz then addr.getLsbD k else pte.getLsbD k := by
  have hle := g.tlbLgPgsz_le
  unfold translate
  by_cases h : k < g.tlbLgPgsz
  · simp [h, hk]
  · have : g.tlbLgPgsz + (k - g.tlbLgPgsz) = k := by omega
    simp [h, hk, this]

theorem getLsbD_dwordAligned (addr : RealAddr) (k : Nat) :
    (dwordAligned addr).getLsbD k = (decide (3 ≤ k) && addr.getLsbD k) := by
  unfold dwordAligned
  by_cases h : k < 56
  · by_cases h3 : 3 ≤ k
    · have : 3 + (k - 3) = k := by omega
      simp [h, h3, this]
    · have : k < 3 := by omega
      simp [h, h3, this]
  · simp [h, BitVec.getLsbD_of_ge addr k (by omega)]

theorem getLsbD_addrToReal (addr : BitVec 64) (k : Nat) (hk : k < 56) :
    (addrToReal addr).getLsbD k = addr.getLsbD k := by
  simp [addrToReal, hk]

/-- Below the page size the real address has the bits of the effective
address. -/
theorem getLsbD_ra (s : State g) (k : Nat) (h3 : 3 ≤ k) (hk : k < g.tlbLgPgsz) :
    (ra s).getLsbD k = s.r0.req.addr.getLsbD k := by
  have hle := g.tlbLgPgsz_le
  unfold ra
  split_ifs
  · rw [getLsbD_dwordAligned, getLsbD_translate _ _ _ (by omega)]
    simp [h3, hk]
  · rw [getLsbD_dwordAligned, getLsbD_addrToReal _ _ (by omega)]
    simp [h3]

theorem getIndex_ra (s : State g) : getIndex (ra s) = reqIndex s := by
  have hle := g.setSize_le
  apply BitVec.eq_of_getLsbD_eq
  intro k hk
  simp only [getIndex, reqIndex, BitVec.getLsbD_extractLsb', hk, decide_true, Bool.true_and,
    Geometry.lineOffBits]
  exact getLsbD_ra s _ (by omega) (by omega)

theorem getRowInLine_ra (s : State g) : getRowInLine (ra s) = (reqRow s).rowOfLine := by
  have hle := g.setSize_le
  apply BitVec.eq_of_getLsbD_eq
  intro k hk
  simp only [getRowInLine, reqRow, getRow, BitVec.getLsbD_extractLsb', hk, decide_true,
    Bool.true_and]
  exact getLsbD_ra s _ (by omega) (by omega)

theorem getRow_ra (s : State g) : getRow (ra s) = reqRow s := by
  have hindex := getIndex_ra s
  have hrow := getRowInLine_ra s
  simp only [getRow, reqRow, reqIndex] at hindex hrow ⊢
  rw [hindex, hrow]

/-! ## The hit signals -/

/-- Without a hitting way there is no hit; otherwise one of the hitting ways
gives all the hit signals. -/
theorem hitLoop_cases (s : State g) (i : Input) :
    ((∀ w, reqHitWays s i w = false) ∧ hitLoop s i = (0, false, false)) ∨
      ∃ w, reqHitWays s i w = true ∧
        hitLoop s i = (w, reqGo s i && !idxReload s i w, reqGo s i && idxReload s i w) := by
  rcases Select.foldl_last_cases (reqHitWays s i)
      (fun w => (w, reqGo s i && !idxReload s i w, reqGo s i && idxReload s i w))
      (0, false, false) (List.finRange (2 ^ g.wayBits)) with ⟨hnone, heq⟩ | ⟨w, _, hw, heq⟩
  · exact Or.inl ⟨fun w => hnone w (List.mem_finRange w), heq⟩
  · exact Or.inr ⟨w, hw, heq⟩

/-- A hit is on a way that hits and has no row missing. -/
theorem reqHitWays_of_isHit (h : reqIsHit s i = true) :
    reqHitWays s i (reqHitWay s i) = true ∧ reqGo s i = true ∧
      idxReload s i (reqHitWay s i) = false := by
  rcases hitLoop_cases s i with ⟨_, heq⟩ | ⟨w, hw, heq⟩
  · simp [reqIsHit, heq] at h
  · simp only [reqIsHit, reqHitWay, heq, Bool.and_eq_true, Bool.not_eq_true'] at h ⊢
    exact ⟨hw, h⟩

/-- A wait for a row is on a way under reload. -/
theorem reqHitWays_of_hitReload (h : reqHitReload s i = true) :
    reqHitWays s i (reqHitWay s i) = true ∧ reqGo s i = true ∧
      idxReload s i (reqHitWay s i) = true := by
  rcases hitLoop_cases s i with ⟨_, heq⟩ | ⟨w, hw, heq⟩
  · simp [reqHitReload, heq] at h
  · simp only [reqHitReload, reqHitWay, heq, Bool.and_eq_true] at h ⊢
    exact ⟨hw, h⟩

/-- A request that neither hits nor waits for a row hits no way. -/
theorem reqHitWays_eq_false (hgo : reqGo s i = true) (hhit : reqIsHit s i = false)
    (hreload : reqHitReload s i = false) (w : Way g) : reqHitWays s i w = false := by
  rcases hitLoop_cases s i with ⟨hnone, _⟩ | ⟨w', _, heq⟩
  · exact hnone w
  · simp only [reqIsHit, reqHitReload, heq, hgo, Bool.true_and] at hhit hreload
    rw [hreload] at hhit
    exact absurd hhit (by decide)

/-- What `idx_reload` says about the line under reload. -/
theorem idxReload_eq_true {w : Way g} (h : idxReload s i w = true) :
    s.r1.reloading = true ∧ reqIndex s = s.r1.storeIndex ∧ s.r0.req.load = true ∧
      s.r0.req.touch = false ∧ s.r1.rowsValid (reqRow s).rowOfLine = false ∧
      s.r1.storeWays w = true := by
  unfold idxReload at h
  split_ifs at h with hc
  simp only [Bool.and_eq_true, beq_iff_eq, Bool.not_eq_true'] at hc
  exact ⟨hc.1.1.2, hc.1.2, hc.2.1.1, hc.2.1.2, hc.2.2, h⟩

/-- Only a request that is looked up gives an operation. -/
theorem reqGo_of_reqOp (h : reqOp s i ≠ .none) : reqGo s i = true := by
  by_contra hgo
  exact h (by simp [reqOp, hgo])

/-- What the operation says about the request. -/
theorem reqOp_says :
    (reqOp s i = .loadHit → reqIsHit s i = true) ∧ (reqOp s i = .loadMiss → reqIsHit s i = false) ∧
      (reqOp s i = .store → s.r0.req.load = false) := by
  let P (op : ReqOp) : Prop := (op = .loadHit → reqIsHit s i = true) ∧
    (op = .loadMiss → reqIsHit s i = false) ∧ (op = .store → s.r0.req.load = false)
  show P (reqOp s i)
  have hnone {op : ReqOp} (h : op ≠ .loadHit ∧ op ≠ .loadMiss ∧ op ≠ .store) : P op :=
    ⟨fun heq => absurd heq h.1, fun heq => absurd heq h.2.1, fun heq => absurd heq h.2.2⟩
  have hhit (h : reqIsHit s i = true) : P .loadHit := ⟨fun _ => h, by rintro ⟨⟩, by rintro ⟨⟩⟩
  have hmiss (h : reqIsHit s i = false) : P .loadMiss := ⟨by rintro ⟨⟩, fun _ => h, by rintro ⟨⟩⟩
  have hstore (h : s.r0.req.load = false) : P .store := ⟨by rintro ⟨⟩, by rintro ⟨⟩, fun _ => h⟩
  unfold reqOp
  repeat' refine iteInduction (motive := P) (fun _ => ?_) fun _ => ?_
  all_goals first | exact hnone (by decide) | apply hhit | apply hmiss | apply hstore
  all_goals simp_all

theorem reqIsHit_of_loadHit (h : reqOp s i = .loadHit) : reqIsHit s i = true :=
  reqOp_says.1 h

theorem reqIsHit_of_loadMiss (h : reqOp s i = .loadMiss) : reqIsHit s i = false :=
  reqOp_says.2.1 h

theorem load_of_store (h : reqOp s i = .store) : s.r0.req.load = false :=
  reqOp_says.2.2 h

end Microwatt.Dcache
