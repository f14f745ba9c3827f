import Microwatt.Loadstore1.Finish
import Microwatt.Loadstore1.Format

/-!
# Data watchpoints

When a request meets a watchpoint, and what the unit reports of it.  The limits are compared by two
subtractions in the cycle of the request, and the answer goes to the dcache one cycle later; a
request that is sent again after a walk has the answer that was kept in stage 2.
-/

namespace Microwatt.Loadstore1

open Clocked (trace)

/-! ## What a watchpoint watches -/

section

variable (wp : Watchpoints) (q : Request) (k : Fin 2)

/-- The number of doublewords behind the first one: the field MRD. -/
def Watchpoints.mrd : Nat := ((wp.dawrx k).extractLsb' 10 6).toNat

/-- The address bits that count: HRAMMC leaves out the top one for privileged accesses. -/
def Watchpoints.addrBits : Nat := if q.privMode && (wp.dawrx k).getLsbD 7 then 60 else 61

/-- The doubleword lies between DAWR and DAWR + MRD. -/
def Covers : Prop :=
  (wp.dawr k).toNat % 2 ^ wp.addrBits q k ≤ q.addr.toNat / 8 % 2 ^ wp.addrBits q k ∧
    q.addr.toNat / 8 % 2 ^ wp.addrBits q k ≤
      (wp.dawr k).toNat % 2 ^ wp.addrBits q k + wp.mrd k

/-- The fields PRIVM, WT and WTI admit the access. -/
def Admits : Prop :=
  (wp.dawrx k).getLsbD (if q.privMode then 2 else 0) = true ∧
    ((wp.dawrx k).getLsbD 3 = true ∨ (wp.dawrx k).getLsbD 4 = q.virtMode)

/-- DW is set for a store or `dcbz`, or DR for a load. -/
def WatchesKind : Prop :=
  (wp.dawrx k).getLsbD (if q.store || q.dcbz then 6 else 5) = true

instance : Decidable (Covers wp q k) := inferInstanceAs (Decidable (_ ∧ _))

instance : Decidable (Admits wp q k) := inferInstanceAs (Decidable (_ ∧ _))

instance : Decidable (WatchesKind wp q k) := inferInstanceAs (Decidable (_ = _))

/-- A watchpoint watches the access. -/
def Watched : Prop := ∃ k, Covers wp q k ∧ Admits wp q k ∧ WatchesKind wp q k

instance : Decidable (Watched wp q) := inferInstanceAs (Decidable (∃ _, _))

/-- What the unit gets wrong does not arise for a watchpoint that the access meets: its last
doubleword has an address, DAWR has no top bit if that is left out, and `dcbz`, which is taken for a
load, is watched like one. -/
structure Judged : Prop where
  last : (wp.dawr k).toNat + wp.mrd k < 2 ^ 61
  top : (wp.dawr k).toNat < 2 ^ wp.addrBits q k
  dcbz : q.dcbz = true → (wp.dawrx k).getLsbD 5 = (wp.dawrx k).getLsbD 6

instance : Decidable (Judged wp q k) :=
  decidable_of_iff ((wp.dawr k).toNat + wp.mrd k < 2 ^ 61 ∧
    (wp.dawr k).toNat < 2 ^ wp.addrBits q k ∧
    (q.dcbz = true → (wp.dawrx k).getLsbD 5 = (wp.dawrx k).getLsbD 6))
    ⟨fun ⟨h1, h2, h3⟩ => ⟨h1, h2, h3⟩, fun ⟨h1, h2, h3⟩ => ⟨h1, h2, h3⟩⟩

end

/-! ## The comparison -/

section

variable {wp : Watchpoints} {q : Request} {k : Fin 2}

theorem borrow_eq (a b : BitVec 61) :
    ((a.setWidth 62 - b.setWidth 62 : BitVec 62)).getLsbD 61 = decide (a.toNat < b.toNat) := by
  have ha := a.isLt
  have hb := b.isLt
  rw [Bits.getLsbD_eq_div, BitVec.toNat_sub, BitVec.toNat_setWidth, BitVec.toNat_setWidth,
    decide_eq_decide]
  omega

theorem toNat_dawrAddr : (dawrAddr wp k q).toNat = q.addr.toNat / 8 % 2 ^ wp.addrBits q k := by
  have hlt := q.addr.isLt
  unfold dawrAddr Watchpoints.addrBits
  split_ifs
  · rw [BitVec.toNat_setWidth, BitVec.extractLsb'_toNat, Nat.shiftRight_eq_div_pow]
    omega
  · rw [BitVec.extractLsb'_toNat, Nat.shiftRight_eq_div_pow]

theorem toNat_uplim : (wp.uplim k).toNat = ((wp.dawr k).toNat + wp.mrd k) % 2 ^ 61 := by
  have hlt := ((wp.dawrx k).extractLsb' 10 6).isLt
  unfold Watchpoints.uplim Watchpoints.mrd
  rw [BitVec.toNat_add, BitVec.toNat_setWidth]
  omega

/-- The unit finds the address between its limits. -/
def inLimits (wp : Watchpoints) (q : Request) (k : Fin 2) : Bool :=
  !dawrLl wp q k && !dawrUl wp q k

theorem inLimits_iff (hup : wp.dawrUplim = wp.uplim) : inLimits wp q k = true ↔
    (wp.dawr k).toNat ≤ q.addr.toNat / 8 % 2 ^ wp.addrBits q k ∧
      q.addr.toNat / 8 % 2 ^ wp.addrBits q k ≤ ((wp.dawr k).toNat + wp.mrd k) % 2 ^ 61 := by
  unfold inLimits dawrLl dawrUl
  rw [borrow_eq, borrow_eq, hup, toNat_uplim, toNat_dawrAddr]
  simp only [Bool.and_eq_true, Bool.not_eq_true', decide_eq_false_iff_not, not_lt]

theorem addrBits_le : wp.addrBits q k = 60 ∨ wp.addrBits q k = 61 := by
  unfold Watchpoints.addrBits
  split_ifs
  · exact Or.inl rfl
  · exact Or.inr rfl

/-- There are no false hits. -/
theorem covers_of_inLimits (hup : wp.dawrUplim = wp.uplim) (h : inLimits wp q k = true) :
    Covers wp q k := by
  obtain ⟨hlo, hhi⟩ := (inLimits_iff hup).mp h
  have hbase := (wp.dawr k).isLt
  have hmrd : wp.mrd k < 2 ^ 6 := ((wp.dawrx k).extractLsb' 10 6).isLt
  unfold Covers
  rcases @addrBits_le wp q k with hw | hw
  · rw [hw] at hlo hhi ⊢
    omega
  · rw [hw] at hlo hhi ⊢
    omega

theorem inLimits_of_covers (hup : wp.dawrUplim = wp.uplim) (hj : Judged wp q k)
    (h : Covers wp q k) : inLimits wp q k = true := by
  obtain ⟨hlo, hhi⟩ := h
  rw [Nat.mod_eq_of_lt hj.top] at hlo hhi
  rw [inLimits_iff hup, Nat.mod_eq_of_lt hj.last]
  exact ⟨hlo, hhi⟩

theorem dawrxMatchEnable_iff : dawrxMatchEnable (wp.dawrx k) q.virtMode q.privMode q.store = true ↔
    Admits wp q k ∧ (wp.dawrx k).getLsbD (if q.store then 6 else 5) = true := by
  unfold dawrxMatchEnable Admits
  cases q.privMode <;> cases q.store <;> cases q.virtMode <;> cases (wp.dawrx k).getLsbD 3 <;>
    cases (wp.dawrx k).getLsbD 4 <;> simp

/-- What the unit finds is what is watched. -/
theorem found_iff_watched (hup : wp.dawrUplim = wp.uplim)
    (hj : ∀ k, Covers wp q k → Admits wp q k → Judged wp q k) :
    ((List.finRange 2).any fun k => inLimits wp q k &&
      dawrxMatchEnable (wp.dawrx k) q.virtMode q.privMode q.store) = true ↔ Watched wp q := by
  simp only [List.any_eq_true, List.mem_finRange, true_and, Bool.and_eq_true]
  have hkind {k : Fin 2} (h : Judged wp q k) :
      (wp.dawrx k).getLsbD (if q.store then 6 else 5) =
        (wp.dawrx k).getLsbD (if q.store || q.dcbz then 6 else 5) := by
    cases hs : q.store
    · cases hd : q.dcbz
      · rfl
      · exact h.dcbz hd
    · rfl
  constructor
  · rintro ⟨k, hlim, hen⟩
    obtain ⟨had, hk⟩ := dawrxMatchEnable_iff.mp hen
    have hcov := covers_of_inLimits hup hlim
    exact ⟨k, hcov, had, (hkind (hj k hcov had)).symm.trans hk⟩
  · rintro ⟨k, hcov, had, hk⟩
    have hjk := hj k hcov had
    exact ⟨k, inLimits_of_covers hup hjk hcov, dawrxMatchEnable_iff.mpr ⟨had, (hkind hjk).trans hk⟩⟩

end

/-! ## What stage 2 keeps of a request -/

/-- The same request, which may have become invalid. -/
def Like (q' q : Request) : Prop := ∃ v, q' = { q with valid := v } ∧ (v = true → q.valid = true)

theorem Like.refl (q : Request) : Like q q := ⟨q.valid, rfl, id⟩

theorem Like.trans {a b c : Request} (h : Like a b) (h' : Like b c) : Like a c := by
  obtain ⟨v, rfl, hv⟩ := h
  obtain ⟨w, rfl, hw⟩ := h'
  exact ⟨v, rfl, fun h => hw (hv h)⟩

theorem Like.valid {q' q : Request} (h : Like q' q) (hv : q'.valid = true) : q.valid = true := by
  obtain ⟨v, rfl, hq⟩ := h
  exact hq hv

section

variable {hasFpu : Bool} {s : State} {i : Input} {v : RegStage2}

theorem like_end : Like (endStage2 s i (endBusy s i (mmuDone s i v))).req v.req := by
  have hmmu : Like (mmuDone s i v).req v.req := by
    unfold mmuDone
    split_ifs
    · exact ⟨_, rfl, fun h => ((Bool.and_eq_true _ _).mp h).1⟩
    · exact Like.refl _
  have hbusy : (endBusy s i (mmuDone s i v)).req = (mmuDone s i v).req := endBusy_eq.1
  refine Like.trans ?_ hmmu
  rw [← hbusy]
  unfold endStage2
  split_ifs
  · exact ⟨false, rfl, nofun⟩
  · exact Like.refl _
  · exact Like.refl _

theorem like_kept (h : stage2Free s i = false) : Like (r2in s i).req s.r2.req := by
  unfold r2in
  simp only [h, Bool.false_eq_true, if_false]
  exact like_end.trans (by rw [dbgRead_eq.1]; exact Like.refl _)

theorem like_moved (h : stage2Free s i = true) (hr : stage1Ready s = true) :
    Like (r2in s i).req { s.r1.req with
      storeData := storeData s
      dawrIntr := dawrMatch s.r1 s.r3.wp s.r3.dawrUpd } := by
  unfold r2in
  simp only [h, hr, if_true]
  exact like_end

theorem invalid_of_bubble (h : stage2Free s i = true) (hr : stage1Ready s = false) :
    (r2in s i).req.valid = false := by
  unfold r2in
  simp only [h, hr, if_true, Bool.false_eq_true, if_false]
  by_contra hv
  have := Like.valid like_end (by simpa using hv)
  cases this

/-! ## The watchpoint registers -/

/-- An `mtspr` to one of the watchpoint registers. -/
def writesWatch (q : Request) : Bool := q.valid && q.writeSpr && q.sprsel.extractLsb' 2 2 == 1

theorem Like.writesWatch {q' q : Request} (h : Like q' q) (hq : writesWatch q = false) :
    writesWatch q' = false := by
  obtain ⟨v, rfl, hv⟩ := h
  unfold Loadstore1.writesWatch at hq ⊢
  cases v
  · rfl
  · rw [hv rfl] at hq
    exact hq

theorem write_of_other {sprsel : BitVec 4} {wp : Watchpoints} {d : BitVec 64}
    (h : (sprsel.extractLsb' 2 2 == 1) = false) : wp.write sprsel d = wp := by
  have hcase : sprsel.toNat ≠ 4 ∧ sprsel.toNat ≠ 5 ∧ sprsel.toNat ≠ 6 ∧ sprsel.toNat ≠ 7 := by
    revert h
    revert sprsel
    decide
  unfold Watchpoints.write
  split <;> first | rfl | omega

/-- The limits are right when no change is pending. -/
def LimitsRight (s : State) : Prop := s.r3.dawrUpd = false → s.r3.wp.dawrUplim = s.r3.wp.uplim

/-- The registers with the upper limits of the last change. -/
def limited (s : State) : Watchpoints :=
  if s.r3.dawrUpd then { s.r3.wp with dawrUplim := s.r3.wp.uplim } else s.r3.wp

theorem sprWrites_wp (v : RegStage3) (hv : v.wp = s.r3.wp) :
    (sprWrites s v).wp = (if s.r2.req.valid && s.r2.req.writeSpr then
      (limited s).write s.r2.req.sprsel s.r2.req.storeData else limited s) ∧
    (sprWrites s v).dawrUpd = writesWatch s.r2.req := by
  unfold sprWrites limited writesWatch
  rw [hv]
  cases s.r2.req.valid && s.r2.req.writeSpr <;> exact ⟨rfl, rfl⟩

theorem raise_wp (v : RegStage3) : (raise s i v).wp = v.wp ∧ (raise s i v).dawrUpd = v.dawrUpd := by
  unfold raise
  split_ifs <;> exact ⟨rfl, rfl⟩

theorem wp_r3in : (r3in s i).wp = (if s.r2.req.valid && s.r2.req.writeSpr then
      (limited s).write s.r2.req.sprsel s.r2.req.storeData else limited s) ∧
    (r3in s i).dawrUpd = writesWatch s.r2.req := by
  show (if exception s i then raise s i (sprWrites s _) else sprWrites s _).wp = _ ∧
    (if exception s i then raise s i (sprWrites s _) else sprWrites s _).dawrUpd = _
  cases exception s i
  · exact sprWrites_wp _ rfl
  · rw [if_pos rfl, (raise_wp _).1, (raise_wp _).2]
    exact sprWrites_wp _ rfl

theorem wp_kept (h : writesWatch s.r2.req = false) : (r3in s i).wp = limited s := by
  rw [wp_r3in.1]
  split_ifs with hw
  · unfold writesWatch at h
    rw [hw, Bool.true_and] at h
    exact write_of_other h
  · rfl

theorem uplim_limited : (limited s).uplim = s.r3.wp.uplim := by
  unfold limited
  split_ifs <;> rfl

theorem LimitsRight.step (h : LimitsRight s) : LimitsRight (step hasFpu s i) := by
  intro hupd
  change (r3in s i).dawrUpd = false at hupd
  rw [wp_r3in.2] at hupd
  show (r3in s i).wp.dawrUplim = (r3in s i).wp.uplim
  rw [wp_kept hupd, uplim_limited]
  unfold limited
  cases hu : s.r3.dawrUpd
  · exact h hu
  · rfl

/-- No `mtspr` to a watchpoint register is on its way or has just been done. -/
structure Settled (s : State) : Prop where
  one : writesWatch s.r1.req = false
  two : writesWatch s.r2.req = false
  done : s.r3.dawrUpd = false

theorem Settled.wp_eq (h : Settled s) : (step hasFpu s i).r3.wp = s.r3.wp := by
  show (r3in s i).wp = s.r3.wp
  rw [wp_kept h.two, limited, h.done]
  rfl

theorem Settled.two_step (h : Settled s) : writesWatch (step hasFpu s i).r2.req = false := by
  show writesWatch (r2in s i).req = false
  cases hf : stage2Free s i with
  | false => exact (like_kept hf).writesWatch h.two
  | true =>
    cases hr : stage1Ready s with
    | true => exact (like_moved hf hr).writesWatch h.one
    | false =>
      unfold writesWatch
      rw [invalid_of_bubble hf hr]
      rfl

/-! ## Requests -/

/-- What stage 1 keeps of its request. -/
structure OneOk (r : RegStage1) : Prop where
  dcReq : r.req.dcReq = true → r.req.valid = true ∧ r.req.writeSpr = false
  issued : r.issued = true → r.req.valid = true ∧ (r.req.dcReq = true ∨ r.req.tlbie = true)
  more : r.busy = true → r.req.incomplete = true →
    r.req.valid = true ∧ (r.req.dcReq = true ∨ r.req.tlbie = true)

theorem dcReqIn_op {l : Execute1ToLoadstore1} {addr0 : BitVec 64} (h : dcReqIn l addr0 = true) :
    l.valid = true ∧ l.op ≠ .mtspr ∧ l.op ≠ .fetchFailed := by
  unfold dcReqIn loadIn at h
  simp only [Bool.and_eq_true] at h
  refine ⟨h.1.1.1, ?_, ?_⟩
  · rintro hop
    simp [hop] at h
  · rintro hop
    simp [hop] at h

theorem OneOk.stage1Req (h : OneOk s.r1) (hd : (stage1Req hasFpu s i).dcReq = true) :
    (stage1Req hasFpu s i).valid = true ∧ (stage1Req hasFpu s i).writeSpr = false := by
  cases hb : s.r1.busy
  · rw [stage1Req_of_not_busy hb] at hd ⊢
    obtain ⟨hv, hop, -⟩ := dcReqIn_op ((Bool.and_eq_true _ _).mp hd).1
    exact ⟨hv, by simpa [reqIn] using hop⟩
  · unfold Loadstore1.stage1Req at hd ⊢
    simp only [hb, Bool.not_true, Bool.false_eq_true, if_false] at hd ⊢
    split_ifs at hd ⊢
    · exact h.dcReq hd
    · exact h.dcReq hd

/-- A request that is issued asks the dcache. -/
theorem OneOk.issue (h : OneOk s.r1) (hi : issue s i = true) :
    (Loadstore1.stage1Req hasFpu s i).valid = true ∧
      ((Loadstore1.stage1Req hasFpu s i).dcReq = true ∨
        (Loadstore1.stage1Req hasFpu s i).tlbie = true) := by
  cases hb : s.r1.busy
  · rw [@issue_of_not_busy hasFpu s i hb, Bool.and_eq_true] at hi
    exact ⟨(h.stage1Req hi.2).1, Or.inl hi.2⟩
  · unfold Loadstore1.issue at hi
    unfold Loadstore1.stage1Req
    simp only [hb, Bool.not_true, Bool.false_eq_true, if_false] at hi ⊢
    split_ifs with h1 h2
    · have hd : s.r1.req.dcReq = true := ((Bool.and_eq_true _ _).mp h1).1
      exact ⟨(h.dcReq hd).1, Or.inl hd⟩
    · exact h.more hb h2
    · simp only [Bool.not_eq_true] at h1 h2
      rw [h1, h2] at hi
      cases hi

/-- A request that keeps stage 1 for another one is issued, but for `tlbie`. -/
theorem issue_of_more (hop : (Loadstore1.stage1Req hasFpu s i).mmuOp = true)
    (hm : (Loadstore1.stage1Req hasFpu s i).incomplete = true) :
    Loadstore1.issue s i = true ∨ (Loadstore1.stage1Req hasFpu s i).tlbie = true := by
  cases hb : s.r1.busy
  · right
    rw [stage1Req_of_not_busy hb] at hop hm ⊢
    change (dcReqIn i.lIn s.r1.addr0 && _) = true at hm
    obtain ⟨-, hspr, hff⟩ := dcReqIn_op ((Bool.and_eq_true _ _).mp hm).1
    simpa [reqIn, hspr, hff] using hop
  · left
    unfold Loadstore1.stage1Req at hm
    unfold Loadstore1.issue
    simp only [hb, Bool.not_true, Bool.false_eq_true, if_false] at hm ⊢
    split_ifs at hm with h1 h2
    · rw [h1, Bool.true_or]
    · rw [h2, Bool.or_true]
    · exact absurd hm h2

theorem r1Req_eq : r1Req hasFpu s i = { Loadstore1.stage1Req hasFpu s i with
    addr := (r1Req hasFpu s i).addr
    storeData := (r1Req hasFpu s i).storeData } := by
  unfold r1Req
  dsimp only
  split_ifs <;> rfl

theorem OneOk.step (h : OneOk s.r1) : OneOk (r1in hasFpu s i) := by
  cases he : exception s i with
  | true => constructor <;> simp [r1in, he]
  | false =>
    cases hl : l2stall s i with
    | true =>
      have hreq : (r1in hasFpu s i).req = s.r1.req := by simp [r1in, he, hl]
      have hiss : (r1in hasFpu s i).issued = (s.r1.issued && !i.dIn.error) := by simp [r1in, he, hl]
      have hbusy : (r1in hasFpu s i).busy = (s.r1.busy || (s.r1.issued && i.dIn.error)) := by
        simp [r1in, he, hl]
      refine ⟨?_, ?_, ?_⟩
      · rw [hreq]
        exact h.dcReq
      · rw [hreq, hiss, Bool.and_eq_true]
        exact fun hi => h.issued hi.1
      · rw [hreq, hbusy, Bool.or_eq_true, Bool.and_eq_true]
        rintro (hb | hi) hm
        · exact h.more hb hm
        · exact h.issued hi.1
    | false =>
      have hreq : (r1in hasFpu s i).req = r1Req hasFpu s i := by simp [r1in, he, hl]
      obtain ⟨-, -, -, hbusy, hiss⟩ := @r1in_advance hasFpu s i he hl
      refine ⟨?_, ?_, ?_⟩
      · rw [hreq, r1Req_eq]
        exact h.stage1Req
      · rw [hreq, hiss, Bool.and_eq_true, r1Req_eq]
        exact fun hi => h.issue hi.1
      · rw [hreq, hbusy, r1Req_eq]
        intro hb hm
        have hor : Loadstore1.issue s i = true ∨ (Loadstore1.stage1Req hasFpu s i).valid = true ∧
            (Loadstore1.stage1Req hasFpu s i).tlbie = true := by
          split_ifs at hb with hh
          · exact Or.inl ((Bool.and_eq_true _ _).mp hh).1
          · rw [Bool.or_eq_true, Bool.and_eq_true, Bool.and_eq_true] at hb
            rcases hb with hb | hb
            · exact Or.inl hb.1
            · rcases issue_of_more hb.2 hm with hi | ht
              · exact Or.inl hi
              · exact Or.inr ⟨hb.1, ht⟩
        rcases hor with hi | ⟨hv, ht⟩
        · exact h.issue hi
        · exact ⟨hv, Or.inr ht⟩

/-- No request for the dcache is an `mtspr`. -/
def TwoOk (q : Request) : Prop := q.valid = true → q.dcReq = true → q.writeSpr = false

theorem TwoOk.step (h : TwoOk s.r2.req) (h1 : OneOk s.r1) : TwoOk (r2in s i).req := by
  intro hv hd
  cases hf : stage2Free s i with
  | false =>
    obtain ⟨v, heq, hq⟩ := like_kept hf
    rw [heq] at hv hd ⊢
    exact h (hq hv) hd
  | true =>
    cases hr : stage1Ready s with
    | true =>
      obtain ⟨v, heq, -⟩ := like_moved hf hr
      rw [heq] at hd ⊢
      exact (h1.dcReq hd).2
    | false =>
      rw [invalid_of_bubble hf hr] at hv
      cases hv

/-! ## What is reported -/

/-- A load, a store or a `dcbz`. -/
structure IsAccess (q : Request) : Prop where
  touch : q.touch = false
  sync : q.sync = false
  flush : q.flush = false
  tlbie : q.tlbie = false

/-- The fields of a request that watchpoints look at. -/
theorem watched_congr {wp : Watchpoints} {q q' : Request} (haddr : q'.addr = q.addr)
    (hpriv : q'.privMode = q.privMode) (hvirt : q'.virtMode = q.virtMode)
    (hkind : (q'.store || q'.dcbz) = (q.store || q.dcbz)) : Watched wp q' ↔ Watched wp q := by
  unfold Watched Covers Admits WatchesKind Watchpoints.addrBits
  rw [haddr, hpriv, hvirt, hkind]

/-- The requests that go to the dcache: those that stage 1 issues, and those that are sent again. -/
inductive SendsReq (hasFpu : Bool) (s : State) (i : Input) : Request → Prop where
  | first (h : stage1Dcreq hasFpu s i = true) : SendsReq hasFpu s i (stage1Req hasFpu s i)
  | again (hen : s.r3.stage1En = false) (hretry : retry s i = true) (hbusy : s.r2.busy = true)
      (hvalid : s.r2.req.valid = true) : SendsReq hasFpu s i s.r2.req

theorem advance_of_dcreq (h : stage1Dcreq hasFpu s i = true) :
    exception s i = false ∧ l2stall s i = false ∧ issue s i = true := by
  unfold stage1Dcreq advance at h
  simp only [Bool.and_eq_true, Bool.not_eq_true'] at h
  exact ⟨h.1.1.1, h.1.1.2, h.1.2⟩

/-- The answer for a request that stage 1 issues comes in the next cycle. -/
theorem dawrMatch_first (h1 : OneOk s.r1) (hlim : LimitsRight s) (hset : Settled s)
    (hreq : stage1Dcreq hasFpu s i = true) (ha : IsAccess (stage1Req hasFpu s i))
    (hj : ∀ k, Covers s.r3.wp (stage1Req hasFpu s i) k →
      Admits s.r3.wp (stage1Req hasFpu s i) k → Judged s.r3.wp (stage1Req hasFpu s i) k) :
    dawrMatch (step hasFpu s i).r1 (step hasFpu s i).r3.wp (step hasFpu s i).r3.dawrUpd = true ↔
      Watched s.r3.wp (stage1Req hasFpu s i) := by
  obtain ⟨he, hl, hi⟩ := advance_of_dcreq hreq
  obtain ⟨hv, hd⟩ := @OneOk.issue hasFpu s i h1 hi
  have hd : (stage1Req hasFpu s i).dcReq = true := by simpa [ha.tlbie] using hd
  have hr1 : (step hasFpu s i).r1.req = r1Req hasFpu s i := by simp [step, r1in, he, hl]
  have hupd : (step hasFpu s i).r3.dawrUpd = false := wp_r3in.2.trans hset.two
  rw [← found_iff_watched (hlim hset.done) hj]
  unfold dawrMatch
  rw [hset.wp_eq, hupd, hr1, r1Req_eq]
  simp only [hv, hd, ha.touch, ha.sync, ha.flush, ha.tlbie, Bool.and_true, Bool.not_false,
    Bool.or_false]
  have hud : (step hasFpu s i).r1.dawrUd = false := hset.done
  rw [hud]
  simp only [Bool.not_false, Bool.and_true]
  rfl

theorem watched_limited (q : Request) : Watched (limited s) q ↔ Watched s.r3.wp q := by
  unfold limited
  split_ifs <;> exact Iff.rfl

/-- A request for the dcache leaves the watchpoints as they are. -/
theorem watched_step (h : writesWatch s.r2.req = false) (q : Request) :
    Watched (step hasFpu s i).r3.wp q ↔ Watched s.r3.wp q := by
  show Watched (r3in s i).wp q ↔ _
  rw [wp_kept h, watched_limited]

theorem TwoOk.not_write {q : Request} (h : TwoOk q) (hd : q.valid = true → q.dcReq = true) :
    writesWatch q = false := by
  unfold writesWatch
  cases hv : q.valid
  · rfl
  · rw [h hv (hd hv)]
    rfl

end

/-! ## Runs -/

section

variable (hasFpu : Bool) (s : State) (input : Nat → Input)

/-- The request in stage 2 came there after a cycle in which the unit was stalled, so that stage 1
had compared the address of another request. -/
def HeldBack (n : Nat) : Prop :=
  ∃ m < n, stage2Free (stateAt hasFpu s.reset input m) (input m) = true ∧
    (∀ j, m < j → j < n → stage2Free (stateAt hasFpu s.reset input j) (input j) = false) ∧
    ∃ l, m = l + 1 ∧ l2stall (stateAt hasFpu s.reset input l) (input l) = true

/-- What is asked of a cycle. -/
structure WatchSound (n : Nat) : Prop where
  /-- A request is not issued while an `mtspr` to the watchpoints is under way. -/
  settled : stage1Dcreq hasFpu (stateAt hasFpu s.reset input n) (input n) = true →
    Settled (stateAt hasFpu s.reset input n)
  judged : ∀ q, SendsReq hasFpu (stateAt hasFpu s.reset input n) (input n) q → IsAccess q →
    ∀ k, Covers (stateAt hasFpu s.reset input n).r3.wp q k →
      Admits (stateAt hasFpu s.reset input n).r3.wp q k →
      Judged (stateAt hasFpu s.reset input n).r3.wp q k
  /-- A request that is sent again was not held back in stage 1. -/
  kept : (stateAt hasFpu s.reset input n).r3.stage1En = false →
    retry (stateAt hasFpu s.reset input n) (input n) = true → ¬HeldBack hasFpu s input n
  /-- A hash instruction is issued with the address of its hash. -/
  hash : stage1Dcreq hasFpu (stateAt hasFpu s.reset input n) (input n) = true →
    hashIssue hasFpu (stateAt hasFpu s.reset input n) (input n) = true →
    (stateAt hasFpu s.reset input n).r1.busy = true →
    (stage1Req hasFpu (stateAt hasFpu s.reset input n) (input n)).addr =
      (stateAt hasFpu s.reset input n).r1.req.hashAddr

/-- The answer that stage 2 keeps is right, if its request was not held back. -/
structure KeptOk (n : Nat) : Prop where
  one : OneOk (stateAt hasFpu s.reset input n).r1
  two : TwoOk (stateAt hasFpu s.reset input n).r2.req
  limits : LimitsRight (stateAt hasFpu s.reset input n)
  answer : (stateAt hasFpu s.reset input n).r2.req.valid = true →
    (stateAt hasFpu s.reset input n).r2.req.dcReq = true →
    IsAccess (stateAt hasFpu s.reset input n).r2.req → ¬HeldBack hasFpu s input n →
    ((stateAt hasFpu s.reset input n).r2.req.dawrIntr = true ↔
      Watched (stateAt hasFpu s.reset input n).r3.wp (stateAt hasFpu s.reset input n).r2.req)

variable {hasFpu s input} {n : Nat}

theorem keptOk_zero : KeptOk hasFpu s input 0 where
  one := ⟨nofun, nofun, nofun⟩
  two := nofun
  limits := by
    intro _
    funext k
    show (0 : BitVec 61) = 0 + ((0 : BitVec 16).extractLsb' 10 6).setWidth 61
    decide
  answer := nofun

/-- A request that moves to stage 2 without a stall was issued in the cycle before. -/
theorem issued_before
    (hstall : l2stall (stateAt hasFpu s.reset input n) (input n) = false)
    (hready : stage1Ready (stateAt hasFpu s.reset input (n + 1)) = true)
    (hv : (stateAt hasFpu s.reset input (n + 1)).r1.req.valid = true)
    (hd : (stateAt hasFpu s.reset input (n + 1)).r1.req.dcReq = true) :
    stage1Dcreq hasFpu (stateAt hasFpu s.reset input n) (input n) = true ∧
      (stateAt hasFpu s.reset input (n + 1)).r1.req =
        r1Req hasFpu (stateAt hasFpu s.reset input n) (input n) := by
  have hiss : (stateAt hasFpu s.reset input (n + 1)).r1.issued = true := by
    simpa [stage1Ready, hv, hd] using hready
  change (r1in hasFpu (stateAt hasFpu s.reset input n) (input n)).issued = true at hiss
  change (r1in hasFpu (stateAt hasFpu s.reset input n) (input n)).req.valid = true at hv
  show _ ∧ (r1in hasFpu (stateAt hasFpu s.reset input n) (input n)).req = _
  cases he : exception (stateAt hasFpu s.reset input n) (input n) with
  | true => simp [r1in, he] at hv
  | false =>
    refine ⟨?_, by simp [r1in, he, hstall]⟩
    simpa [r1in, he, hstall] using hiss

/-- The answer for a request that moves to stage 2. -/
theorem KeptOk.answer_moved (h : KeptOk hasFpu s input n) (hw : WatchSound hasFpu s input n)
    (hstall : l2stall (stateAt hasFpu s.reset input n) (input n) = false)
    (hready : stage1Ready (stateAt hasFpu s.reset input (n + 1)) = true)
    (hv : (stateAt hasFpu s.reset input (n + 1)).r1.req.valid = true)
    (hd : (stateAt hasFpu s.reset input (n + 1)).r1.req.dcReq = true)
    (ha : IsAccess (stateAt hasFpu s.reset input (n + 1)).r1.req) :
    (dawrMatch (stateAt hasFpu s.reset input (n + 1)).r1
      (stateAt hasFpu s.reset input (n + 1)).r3.wp
        (stateAt hasFpu s.reset input (n + 1)).r3.dawrUpd = true ↔
      Watched (stateAt hasFpu s.reset input (n + 2)).r3.wp
        (stateAt hasFpu s.reset input (n + 1)).r1.req) := by
  obtain ⟨hreq, hr1⟩ := issued_before hstall hready hv hd
  have hset := hw.settled hreq
  have hfields := @r1Req_eq hasFpu (stateAt hasFpu s.reset input n) (input n)
  have haddr : (r1Req hasFpu (stateAt hasFpu s.reset input n) (input n)).addr =
      (stage1Req hasFpu (stateAt hasFpu s.reset input n) (input n)).addr := by
    unfold r1Req
    cases hh : hashIssue hasFpu (stateAt hasFpu s.reset input n) (input n) with
    | false => rfl
    | true =>
      cases hb : (stateAt hasFpu s.reset input n).r1.busy with
      | false => rfl
      | true => exact (hw.hash hreq hh hb).symm
  rw [hr1] at ha ⊢
  have ha' : IsAccess (stage1Req hasFpu (stateAt hasFpu s.reset input n) (input n)) := by
    rw [hfields] at ha
    exact ⟨ha.touch, ha.sync, ha.flush, ha.tlbie⟩
  have hwatch : Watched (stateAt hasFpu s.reset input (n + 2)).r3.wp
        (r1Req hasFpu (stateAt hasFpu s.reset input n) (input n)) ↔
      Watched (stateAt hasFpu s.reset input n).r3.wp
        (stage1Req hasFpu (stateAt hasFpu s.reset input n) (input n)) := by
    refine (watched_step hset.two_step _).trans ((watched_step hset.two _).trans ?_)
    exact watched_congr haddr (by rw [hfields]) (by rw [hfields]) (by rw [hfields])
  rw [hwatch]
  exact dawrMatch_first h.one h.limits hset hreq ha' (hw.judged _ (.first hreq) ha')

theorem HeldBack.succ (h : HeldBack hasFpu s input n)
    (hkept : stage2Free (stateAt hasFpu s.reset input n) (input n) = false) :
    HeldBack hasFpu s input (n + 1) := by
  obtain ⟨m, hm, hfree, hno, hstall⟩ := h
  refine ⟨m, by omega, hfree, ?_, hstall⟩
  intro j hj hjn
  rcases Nat.lt_or_ge j n with hlt | hge
  · exact hno j hj hlt
  · rw [show j = n by omega]
    exact hkept

theorem KeptOk.step (h : KeptOk hasFpu s input n)
    (hprev : ∀ l, n = l + 1 → KeptOk hasFpu s input l ∧ WatchSound hasFpu s input l) :
    KeptOk hasFpu s input (n + 1) where
  one := h.one.step
  two := h.two.step h.one
  limits := h.limits.step
  answer := by
    show (r2in (stateAt hasFpu s.reset input n) (input n)).req.valid = true →
      (r2in (stateAt hasFpu s.reset input n) (input n)).req.dcReq = true →
      IsAccess (r2in (stateAt hasFpu s.reset input n) (input n)).req → _ →
      ((r2in (stateAt hasFpu s.reset input n) (input n)).req.dawrIntr = true ↔
        Watched _ (r2in (stateAt hasFpu s.reset input n) (input n)).req)
    intro hv hd ha hback
    cases hf : stage2Free (stateAt hasFpu s.reset input n) (input n) with
    | false =>
      obtain ⟨v, heq, hq⟩ := like_kept hf
      rw [heq] at hv hd ha ⊢
      have hnot := h.two.not_write fun _ => hd
      have hans := h.answer (hq hv) hd ⟨ha.touch, ha.sync, ha.flush, ha.tlbie⟩
        fun hb => hback (hb.succ hf)
      exact hans.trans (watched_step hnot _).symm
    | true =>
      cases hr : stage1Ready (stateAt hasFpu s.reset input n) with
      | false =>
        rw [invalid_of_bubble hf hr] at hv
        cases hv
      | true =>
        obtain ⟨v, heq, hq⟩ := like_moved hf hr
        rw [heq] at hv hd ha ⊢
        cases n with
        | zero => exact absurd (hq hv) nofun
        | succ l =>
          obtain ⟨hl, hw⟩ := hprev l rfl
          have hstall : l2stall (stateAt hasFpu s.reset input l) (input l) = false := by
            by_contra hst
            exact hback ⟨l + 1, by omega, hf, fun j h1 h2 => by omega, l, rfl, by simpa using hst⟩
          exact hl.answer_moved hw hstall hr (hq hv) hd ⟨ha.touch, ha.sync, ha.flush, ha.tlbie⟩

theorem keptOk (hw : ∀ n, WatchSound hasFpu s input n) (n : Nat) : KeptOk hasFpu s input n := by
  induction n using Nat.strongRecOn with
  | _ n ih =>
    cases n with
    | zero => exact keptOk_zero
    | succ n =>
      refine (ih n (by omega)).step ?_
      rintro l rfl
      exact ⟨ih l (by omega), hw l⟩

/-- In a run in which every access is judged rightly and none is sent again after it was held back,
the dcache hears in the cycle after each request whether a watchpoint watches it. -/
theorem watched_reported (hasFpu : Bool) (s : State) (input : Nat → Input)
    (hw : ∀ n, WatchSound hasFpu s input n) (n : Nat) (q : Request)
    (hq : SendsReq hasFpu (stateAt hasFpu s.reset input n) (input n) q) (ha : IsAccess q) :
    (dOut hasFpu (stateAt hasFpu s.reset input (n + 1)) (input (n + 1))).dawrMatch = true ↔
      Watched (stateAt hasFpu s.reset input n).r3.wp q := by
  have hk := keptOk hw n
  have hdreq : (stateAt hasFpu s.reset input (n + 1)).stage1Dreq =
      stage1Dcreq hasFpu (stateAt hasFpu s.reset input n) (input n) := rfl
  unfold dOut
  dsimp only
  rw [hdreq]
  cases hq with
  | first hreq =>
    rw [if_pos hreq]
    exact dawrMatch_first hk.one hk.limits ((hw n).settled hreq) hreq ha
      ((hw n).judged _ (.first hreq) ha)
  | again hen hretry hbusy hvalid =>
    have hl : l2stall (stateAt hasFpu s.reset input n) (input n) = true := by simp [l2stall, hbusy]
    have hnot : stage1Dcreq hasFpu (stateAt hasFpu s.reset input n) (input n) = false := by
      simp [stage1Dcreq, advance, hl]
    have hf : stage2Free (stateAt hasFpu s.reset input n) (input n) = false := by
      simp [stage2Free, hl]
    obtain ⟨v, heq, -⟩ := like_kept hf
    rw [hnot, if_neg (by simp)]
    show (r2in (stateAt hasFpu s.reset input n) (input n)).req.dawrIntr = true ↔ _
    rw [heq]
    have hd : (stateAt hasFpu s.reset input n).r2.req.dcReq = true :=
      ((Bool.and_eq_true _ _).mp hretry).2
    exact hk.answer hvalid hd ha ((hw n).kept hen hretry)

end

/-! ## Runs with fixed inputs -/

/-- `mtspr` to the register with number `spr`. -/
def mtsprOf (spr : BitVec 10) (tag : Fin 4) (data : BitVec 64) : Execute1ToLoadstore1 :=
  { insnOf .mtspr tag with
    insn := (spr.extractLsb' 0 5).setWidth 32 <<< 16 ||| (spr.extractLsb' 5 5).setWidth 32 <<< 11
    data := data }

/-- Watchpoint 0 is set to one doubleword, in all modes, for the kinds of access in `dawrx`, and the
doubleword is accessed. -/
def watchRun (dawrx : BitVec 64) (op : Execute1.InsnOp) (n : Nat) : Input :=
  if n = 0 then .present (mtsprOf 180 0 0x1000)
  else if n = 3 then .present (mtsprOf 188 1 dawrx)
  else if n = 8 then .present { insnOf op 2 with addr1 := 0x1000 }
  else .idle

/-- The request of the access. -/
def watchReq (dawrx : BitVec 64) (op : Execute1.InsnOp) : Request :=
  stage1Req true (stateAt true State.cold.reset (watchRun dawrx op) 8) (watchRun dawrx op 8)

instance (q : Request) : Decidable (IsAccess q) :=
  decidable_of_iff (q.touch = false ∧ q.sync = false ∧ q.flush = false ∧ q.tlbie = false)
    ⟨fun ⟨h1, h2, h3, h4⟩ => ⟨h1, h2, h3, h4⟩, fun ⟨h1, h2, h3, h4⟩ => ⟨h1, h2, h3, h4⟩⟩

instance (s : State) : Decidable (Settled s) :=
  decidable_of_iff (writesWatch s.r1.req = false ∧ writesWatch s.r2.req = false ∧
    s.r3.dawrUpd = false) ⟨fun ⟨h1, h2, h3⟩ => ⟨h1, h2, h3⟩, fun ⟨h1, h2, h3⟩ => ⟨h1, h2, h3⟩⟩

/-- A `dcbz` to a doubleword that is watched for stores: nothing is reported. -/
theorem dcbz_not_reported :
    SendsReq true (stateAt true State.cold.reset (watchRun 0x4d .dcbz) 8) (watchRun 0x4d .dcbz 8)
      (watchReq 0x4d .dcbz) ∧
    IsAccess (watchReq 0x4d .dcbz) ∧
    Settled (stateAt true State.cold.reset (watchRun 0x4d .dcbz) 8) ∧
    Watched (stateAt true State.cold.reset (watchRun 0x4d .dcbz) 8).r3.wp (watchReq 0x4d .dcbz) ∧
    (dOut true (stateAt true State.cold.reset (watchRun 0x4d .dcbz) 9)
      (watchRun 0x4d .dcbz 9)).dawrMatch = false :=
  ⟨.first (by decide +kernel), by decide +kernel, by decide +kernel, by decide +kernel,
    by decide +kernel⟩

/-- A cycle without a request. -/
theorem watchSound_of_silent {hasFpu : Bool} {s : State} {input : Nat → Input} {n : Nat}
    (hreq : stage1Dcreq hasFpu (stateAt hasFpu s.reset input n) (input n) = false)
    (hretry : retry (stateAt hasFpu s.reset input n) (input n) = false) :
    WatchSound hasFpu s input n where
  settled := fun h => absurd (hreq.symm.trans h) nofun
  judged := by
    intro q hq
    cases hq with
    | first h => exact absurd (hreq.symm.trans h) nofun
    | again _ h => exact absurd (hretry.symm.trans h) nofun
  kept := fun _ h => absurd (hretry.symm.trans h) nofun
  hash := fun h => absurd (hreq.symm.trans h) nofun

/-- Without instructions a free stage 1 stays free and sends nothing. -/
theorem silent_of_idle {hasFpu : Bool} {s : State} (hb : s.r1.busy = false) :
    stage1Dcreq hasFpu s .idle = false ∧ (r1in hasFpu s .idle).busy = false := by
  have hi : issue s .idle = false := by
    rw [@issue_of_not_busy hasFpu s .idle hb]
    rfl
  have hv : (stage1Req hasFpu s .idle).valid = false := by
    rw [stage1Req_of_not_busy hb]
    rfl
  constructor
  · simp [stage1Dcreq, hi]
  · simp only [r1in, r1Busy, hashIssue, hi, hv, hb]
    simp [show Input.idle.dIn.error = false from rfl]

theorem watchRun_idle {dawrx : BitVec 64} {op : Execute1.InsnOp} {n : Nat} (hn : 9 ≤ n) :
    watchRun dawrx op n = .idle := by
  unfold watchRun
  rw [if_neg (by omega), if_neg (by omega), if_neg (by omega)]

theorem watchRun_free (n : Nat) (hn : 9 ≤ n) :
    (stateAt true State.cold.reset (watchRun 0x6d .load) n).r1.busy = false := by
  induction n, hn using Nat.le_induction with
  | base => decide +kernel
  | succ n hn ih =>
    show (r1in true (stateAt true State.cold.reset (watchRun 0x6d .load) n)
      (watchRun 0x6d .load n)).busy = false
    rw [watchRun_idle hn]
    exact (silent_of_idle ih).2

/-- A load from the watched doubleword is reported. -/
theorem watched_reported_load :
    (dOut true (stateAt true State.cold.reset (watchRun 0x6d .load) 9)
      (watchRun 0x6d .load 9)).dawrMatch = true ↔
    Watched (stateAt true State.cold.reset (watchRun 0x6d .load) 8).r3.wp
      (watchReq 0x6d .load) := by
  refine watched_reported true State.cold (watchRun 0x6d .load) ?_ 8 _ (.first (by decide +kernel))
    (by decide +kernel)
  intro n
  have hbefore : ∀ n < 8, stage1Dcreq true (stateAt true State.cold.reset (watchRun 0x6d .load) n)
      (watchRun 0x6d .load n) = false ∧
      retry (stateAt true State.cold.reset (watchRun 0x6d .load) n) (watchRun 0x6d .load n) =
        false := by
    decide +kernel
  rcases Nat.lt_trichotomy n 8 with hn | rfl | hn
  · exact watchSound_of_silent (hbefore n hn).1 (hbefore n hn).2
  · refine ⟨fun _ => by decide +kernel, ?_, fun _ h => absurd h (by decide +kernel),
      fun _ h => absurd h (by decide +kernel)⟩
    rintro q (h | ⟨-, h⟩) - k
    · revert k
      decide +kernel
    · exact absurd h (by decide +kernel)
  · apply watchSound_of_silent
    · rw [watchRun_idle hn]
      exact (silent_of_idle (watchRun_free n hn)).1
    · rw [watchRun_idle hn]
      rfl

end Microwatt.Loadstore1
