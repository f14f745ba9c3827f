import Microwatt.Lib.Fair
import Microwatt.Loadstore1.Invariant

/-!
# Every instruction in the load/store unit ends

If the dcache does not stall forever and the MMU answers its requests, the oldest instruction in the
unit ends, and with it in time all that are behind it.  The rank counts the parts of the oldest
instruction that are still to come, then whether stage 1 has to issue its part or wait for a hash,
then the phases of stage 2: the dcache, the walk, and the dcache again.
-/

namespace Microwatt.Loadstore1

open Clocked (trace)
open Execute1 (InsnOp)

/-- The phase of stage 2, read off the registers. -/
def Sys.phase (x : Sys) : Phase :=
  if !x.s.r2.req.valid then .empty
  else if x.s.r2.req.alignIntr then .align
  else if x.s.r2.oneCycle then .one
  else if x.s.r2.req.mmuOp then if x.mmu then .op else .op0
  else if x.s.r2.waitMmu then .walk
  else if x.dc.r1 ≠ .empty then .ask
  else if x.s.r2.busy then .retry
  else .stale

section

variable {hasFpu : Bool} {x : Sys} {i : Input} {p : Phase} {k : Kind}

theorem At.phase_eq (h : At p x) : x.phase = p := by
  unfold Sys.phase
  rw [h.valid]
  by_cases hp : p = .empty
  · subst hp
    rfl
  · have hslot := h.slot
    rw [h.alignIntr hp, h.oneCycle, h.mmuOp hp, h.mmu, h.waitMmu, h.busy]
    cases p with
    | empty => exact absurd rfl hp
    | ask =>
        have hne : x.dc.r1 ≠ .empty := fun he => hslot.mp he rfl
        simp [Phase.isOp, hne]
    | stale =>
        have he : x.dc.r1 = .empty := hslot.mpr (by decide)
        simp [Phase.isOp, Phase.busy, he]
    | retry =>
        have he : x.dc.r1 = .empty := hslot.mpr (by decide)
        simp [Phase.isOp, Phase.busy, he]
    | one => rfl
    | align => rfl
    | walk => rfl
    | op0 => rfl
    | op => rfl

/-! ## The hash of the request in stage 1 -/

/-- Stage 1 holds a hash request that has not been sent. -/
def hashPending (s : State) : Bool :=
  s.r1.req.valid && s.r1.req.dcReq && !s.r1.issued && (s.r1.req.hashst || s.r1.req.hashcmp)

/-- Its hash is on the way, or is there. -/
def HashOk (s : State) : Prop :=
  hashPending s = true → s.hash.active = true ∨ s.hash.done = true

/-- The cycles that the hash unit still needs. -/
def hashLeft (h : HashReg) : Nat :=
  if h.active then 8 - h.step.toNat else 0

theorem hashRin_active (h : HashReg) (start : Bool) (ra rb key : BitVec 64)
    (ha : h.active = true) :
    ((hashRin h start ra rb key).active = true ∨ (hashRin h start ra rb key).done = true) ∧
    hashLeft (hashRin h start ra rb key) < hashLeft h := by
  have hr : (hashRin h start ra rb key).active = (h.step != 7) ∧
      (hashRin h start ra rb key).done = (h.step == 7) ∧
      (hashRin h start ra rb key).step = h.step + 1 := by
    simp [hashRin, ha]
  obtain ⟨h1, h2, h3⟩ := hr
  unfold hashLeft
  rw [h1, h2, h3, ha]
  generalize h.step = n
  revert n
  decide

/-- The hash unit starts with the request, and is not done before stage 1 sees it. -/
theorem HashOk.step (h : HashOk x.s) (h1 : Stage1Is k x.s.r1) (hsound : Sound x i) :
    HashOk (Sys.step hasFpu x i).s := by
  intro hpend
  change hashPending (Loadstore1.step hasFpu x.s i) = true at hpend
  change (hashRin x.s.hash _ _ _ _).active = true ∨ (hashRin x.s.hash _ _ _ _).done = true
  simp only [hashPending, Loadstore1.step, Bool.and_eq_true, Bool.not_eq_true'] at hpend
  obtain ⟨⟨⟨hv, hd⟩, hni⟩, hh⟩ := hpend
  by_cases ha : x.s.hash.active = true
  · exact (hashRin_active _ _ _ _ _ ha).1
  · cases he : exception x.s i with
    | true =>
        have : (r1in hasFpu x.s i).req.valid = false := (stage1Is_exception he).valid
        rw [hv] at this
        cases this
    | false =>
      cases hl : l2stall x.s i with
      | true =>
          have hreq : (r1in hasFpu x.s i).req = x.s.r1.req := by simp [r1in, he, hl]
          have hiss : (r1in hasFpu x.s i).issued = (x.s.r1.issued && !i.dIn.error) := by
            simp [r1in, he, hl]
          rw [hreq] at hv hd hh
          rw [hiss] at hni
          refine absurd (hsound.hashHeard he hl ?_) ha
          simp only [hashWaits, hv, hd, hh, Bool.and_self, Bool.true_and]
          revert hni
          cases x.s.r1.issued <;> cases i.dIn.error <;> simp
      | false =>
          obtain ⟨hf, hval, -, -, hiss⟩ := @r1in_advance hasFpu x.s i he hl
          rw [hval] at hv
          have hd' : (stage1Req hasFpu x.s i).dcReq = true :=
            (congrArg Flags.dcReq hf).symm.trans hd
          have hh' :
              ((stage1Req hasFpu x.s i).hashst || (stage1Req hasFpu x.s i).hashcmp) = true := by
            have e1 : (r1in hasFpu x.s i).req.hashst = (stage1Req hasFpu x.s i).hashst :=
              congrArg Flags.hashst hf
            have e2 : (r1in hasFpu x.s i).req.hashcmp = (stage1Req hasFpu x.s i).hashcmp :=
              congrArg Flags.hashcmp hf
            rw [← e1, ← e2]
            exact hh
          cases hb : x.s.r1.busy with
          | false =>
              -- the request starts the hash unit
              have hissue : issue x.s i = true := by
                rw [@issue_of_not_busy hasFpu x.s i hb, hd']
                rw [stage1Req_of_not_busy hb] at hv
                simpa [reqIn] using hv
              have hst : hashStart hasFpu x.s i = true := by
                simp [hashStart, advance, he, hl, hashIssue, hissue, hh', hb]
              left
              simp [hashRin, ha, hst, hashLoad]
          | true =>
              by_cases hw : x.s.r1.req.dcReq = true ∧ x.s.r1.issued = false
              · have hreq : stage1Req hasFpu x.s i = x.s.r1.req := by simp [stage1Req, hb, hw]
                have hissue : issue x.s i = true := by simp [issue, hb, hw]
                rw [hreq] at hv hh'
                have hpend : hashPending x.s = true := by simp [hashPending, hv, hw, hh']
                rcases h hpend with h' | hdone
                · exact absurd h' ha
                · -- the request is sent in this cycle
                  rw [hiss, hissue, hdone] at hni
                  simp at hni
              · -- the part of a hash instruction that stage 1 has issued is its only one
                exfalso
                have hin : x.s.r1.req.incomplete = true := by
                  by_contra hin
                  have hin' : x.s.r1.req.incomplete = false := by simpa using hin
                  have hw' : (x.s.r1.req.dcReq && !x.s.r1.issued) = false := by
                    simpa using hw
                  simp [stage1Req, hb, hw', hin'] at hd'
                have hk : k = .more := by
                  have hbk := h1.busy
                  rw [hb] at hbk
                  cases k with
                  | none => cases hbk
                  | final => cases hbk
                  | more => rfl
                  | wait => exact absurd ⟨h1.dcReq.2 (Or.inr rfl), h1.issued⟩ hw
                  | op =>
                      have hno := ((h1.ok (by decide)).op (h1.mmuOp (by decide))).2.2.2.2.2.2
                      rw [show x.s.r1.req.flags.incomplete = true from hin] at hno
                      cases hno
                subst hk
                have hhash : (x.s.r1.req.hashst || x.s.r1.req.hashcmp) = true := by
                  have hi1 : x.s.r1.issued = true := h1.issued
                  simpa [stage1Req, hb, hi1, hin, secondDword] using hh'
                have hno := ((h1.ok (by decide)).hash (Bool.or_eq_true_iff.mp hhash)).1
                rw [show x.s.r1.req.flags.incomplete = true from hin] at hno
                cases hno

/-! ## The rank -/

/-- The parts of an instruction that follow this one. -/
def Flags.parts (f : Flags) : Nat :=
  if f.dcReq then f.incomplete.toNat + f.loadSp.toNat else 0

/-- The steps that the request in stage 2 may still need. -/
def Sys.weight (x : Sys) : Phase → Nat
  | .ask => if x.dc.r1 = .again then 2 else 5
  | .walk => 4
  | .retry => 3
  | .op0 => 4
  | .op => 3
  | _ => 1

/-- How far the oldest instruction is from its end. -/
def Sys.rank (x : Sys) : Nat :=
  if holds2 x x.phase then x.weight x.phase
  else if x.phase.asks then 100 * (x.s.r1.req.flags.parts + 1) + x.weight x.phase
  else 100 * x.s.r1.req.flags.parts +
    (if x.s.r1.req.dcReq && !x.s.r1.issued then 20 + hashLeft x.s.hash else 10)

/-- What the unit waits for. -/
inductive Event where
  | dcache
  | mmu
deriving DecidableEq

def Sys.awaits (x : Sys) : Event :=
  if x.phase.mmuOwes then .mmu else .dcache

/-- The event happens in a cycle with these inputs. -/
def Event.happens (e : Event) (i : Input) : Prop :=
  match e with
  | .dcache => i.dcStall = false
  | .mmu => i.mIn.done = true ∨ i.mIn.err = true

theorem Sys.weight_le (x : Sys) (p : Phase) : 1 ≤ x.weight p ∧ x.weight p ≤ 5 := by
  cases p <;> simp only [Sys.weight] <;> try decide
  split_ifs <;> decide

theorem hashLeft_le (h : HashReg) : hashLeft h ≤ 8 := by
  unfold hashLeft
  split_ifs <;> omega

/-- The next part of an instruction has fewer to follow. -/
theorem parts_more (h1 : Stage1Is .more x.s.r1) :
    (stage1Req hasFpu x.s i).flags.parts + 1 = x.s.r1.req.flags.parts := by
  have hb : x.s.r1.busy = true := h1.busy
  have hi : x.s.r1.issued = true := h1.issued
  have hd : x.s.r1.req.dcReq = true := h1.dcReq.2 (Or.inl rfl)
  have hnf := h1.nonfinal.2 rfl
  change (x.s.r1.req.dcReq && (x.s.r1.req.incomplete || x.s.r1.req.loadSp)) = true at hnf
  cases hin : x.s.r1.req.incomplete with
  | false =>
      have hsp : x.s.r1.req.loadSp = true := by simpa [hd, hin] using hnf
      simp [stage1Req, hb, hi, hin, Flags.parts, Request.flags, hd, hsp]
  | true =>
      simp [stage1Req, hb, hi, hin, Flags.parts, Request.flags, hd, secondDword]
      omega

/-- When nothing completes in a free phase, the oldest instruction is in stage 1. -/
theorem Inv.stage1_of_waiting (h : Inv p k x) (hp : IsFree p x i)
    (hcm : complete x.s i = false) (hq : x.q ≠ []) : holds2 x p = false ∧ k ≠ .none := by
  have hh : holds2 x p = false := (complete_eq_holds2 h.two hp).symm.trans hcm
  refine ⟨hh, ?_⟩
  rintro rfl
  have hqueue := h.queue
  unfold owners at hqueue
  rw [hh, h.one.holds] at hqueue
  exact hq (List.forall₂_nil_left_iff.mp hqueue)

/-- The oldest instruction has a part in stage 1. -/
theorem Inv.rank_ge (h : Inv p k x) (hh : holds2 x p = false) :
    100 * x.s.r1.req.flags.parts + 10 ≤ x.rank ∧
    (k = .wait → 100 * x.s.r1.req.flags.parts + 20 + hashLeft x.s.hash ≤ x.rank) := by
  have hleft := hashLeft_le x.s.hash
  unfold Sys.rank
  rw [h.two.phase_eq, hh]
  simp only [Bool.false_eq_true, if_false]
  constructor
  · split_ifs <;> omega
  · rintro rfl
    have hd : x.s.r1.req.dcReq = true := h.one.dcReq.2 (Or.inr rfl)
    have hi : x.s.r1.issued = false := h.one.issued
    rw [hd, hi]
    split_ifs with ha hb
    · omega
    · omega
    · exact absurd rfl hb

/-- A request that waits in stage 1 is issued, or its hash gets on. -/
theorem rank_wait (h1 : Stage1Is .wait x.s.r1) (he : exception x.s i = false)
    (hl : l2stall x.s i = false) (hash : HashOk x.s) :
    (r1in hasFpu x.s i).req.flags = x.s.r1.req.flags ∧
    (if (r1in hasFpu x.s i).req.dcReq && !(r1in hasFpu x.s i).issued then
      20 + hashLeft (Sys.step hasFpu x i).s.hash else 10) < 20 + hashLeft x.s.hash := by
  have hb : x.s.r1.busy = true := h1.busy
  have hi : x.s.r1.issued = false := h1.issued
  have hd : x.s.r1.req.dcReq = true := h1.dcReq.2 (Or.inr rfl)
  have hv : x.s.r1.req.valid = true := h1.valid
  have hissue : issue x.s i = true := by simp [issue, hb, hi, hd]
  obtain ⟨-, hreq⟩ := @stage1Is_wait hasFpu x.s i h1 he hl
  obtain ⟨hf, -, -, -, hiss⟩ := @r1in_advance hasFpu x.s i he hl
  rw [hreq] at hf
  refine ⟨hf, ?_⟩
  split_ifs with hw
  · -- the hash is not there yet
    rw [Bool.and_eq_true, Bool.not_eq_true', hiss, hissue, Bool.true_and, Bool.not_eq_false',
      Bool.and_eq_true, Bool.not_eq_true'] at hw
    obtain ⟨-, hhi, hnd⟩ := hw
    have hh : (x.s.r1.req.hashst || x.s.r1.req.hashcmp) = true := by
      rw [hashIssue, hissue, Bool.true_and, hreq] at hhi
      exact hhi
    have hpend : hashPending x.s = true := by simp [hashPending, hv, hd, hi, hh]
    have ha : x.s.hash.active = true := by
      rcases hash hpend with ha | hdone
      · exact ha
      · rw [hnd] at hdone
        cases hdone
    have hlt := (hashRin_active x.s.hash (hashStart hasFpu x.s i) i.lIn.addr1 i.lIn.addr2
      i.lIn.hashkey ha).2
    exact Nat.add_lt_add_left hlt 20
  · omega

/-- In a free phase the oldest instruction gets on. -/
theorem Inv.rank_free (h : Inv p k x) (hp : IsFree p x i) (hc : Contract x i)
    (hsound : Sound x i) (hash : HashOk x.s) (hcm : complete x.s i = false) (hq : x.q ≠ []) :
    (Sys.step hasFpu x i).rank < x.rank := by
  obtain ⟨hh, hk⟩ := h.stage1_of_waiting hp hcm hq
  have hs : i.lIn.e2stall = false := by
    by_contra hs
    exact hk (@Inv.step_e2stall hasFpu x i p k h hc (by simpa using hs)).2.1
  have hfree := h.two.free hc hp
  have he := hfree.exception_false
  have hl := hfree.l2stall_false
  obtain ⟨hat, -⟩ := @Inv.at_next hasFpu x i p k h hp hc hsound hs
  have hold := @Inv.holds2_free hasFpu x i p k h hp hc hsound hs
  obtain ⟨hge, hwait⟩ := h.rank_ge hh
  have hle := ((Sys.step hasFpu x i).weight_le (nextPhase k x.s.r1.req.flags)).2
  unfold Sys.rank at hge hwait ⊢
  rw [hat.phase_eq, hold]
  cases k with
  | none => exact absurd rfl hk
  | final =>
      rw [if_pos (by decide)]
      omega
  | op =>
      rw [if_pos (by decide)]
      omega
  | more =>
      have hf : (Sys.step hasFpu x i).s.r1.req.flags = (stage1Req hasFpu x.s i).flags :=
        (r1in_advance he hl).1
      have hparts := @parts_more hasFpu x i h.one
      rw [if_neg (by decide), if_pos (by rfl), hf, hparts]
      omega
  | wait =>
      obtain ⟨hf, hlt⟩ := @rank_wait hasFpu x i h.one he hl hash
      have hf' : (Sys.step hasFpu x i).s.r1.req.flags = x.s.r1.req.flags := hf
      rw [if_neg (by decide), if_neg (by simp [nextPhase, Phase.asks]), hf']
      have := hwait rfl
      have hlt' : (if (Sys.step hasFpu x i).s.r1.req.dcReq && !(Sys.step hasFpu x i).s.r1.issued
          then 20 + hashLeft (Sys.step hasFpu x i).s.hash else 10) < 20 + hashLeft x.s.hash := hlt
      omega

/-- In a phase in which stage 2 keeps its request only the weight changes. -/
theorem Inv.rank_kept (h : Inv p k x) (hp : ¬ IsFree p x i) (ha : p ≠ .align) (hc : Contract x i)
    (he : exception x.s i = false) {p' : Phase} {k' : Kind}
    (h' : Inv p' k' (Sys.step hasFpu x i)) (hop : p'.isOp = p.isOp)
    (hp' : p'.asks = true ∨ p'.isOp = true) :
    (Sys.step hasFpu x i).rank + x.weight p = x.rank + (Sys.step hasFpu x i).weight p' := by
  have hne : p ≠ .empty ∧ p ≠ .stale := by
    unfold IsFree at hp
    tauto
  have hasks : p.asks = true ∨ p.isOp = true := by
    unfold IsFree at hp
    revert hne ha hp
    cases p <;> simp [Phase.asks, Phase.isOp]
  have hne' : p' ≠ .empty ∧ p' ≠ .stale := by
    revert hp'
    cases p' <;> simp [Phase.asks, Phase.isOp]
  have hflags : (Sys.step hasFpu x i).s.r2.req.flags = x.s.r2.req.flags :=
    (r2in_kept (stage2Free_of_kept h.two hc hp)).1
  have hreq : (Sys.step hasFpu x i).s.r1.req = x.s.r1.req :=
    (stage1Is_stalled h.one he (l2stall_of_kept h.two hc hp)).1
  have hr3 := (complete_false_of_kept h.two hp hc).2
  have hr3' : (Sys.step hasFpu x i).s.r3.complete = false := by
    by_contra hcm
    rcases h'.two.complete (by simpa using hcm) with hq | hq
    · exact hne'.1 hq
    · exact hne'.2 hq
  have hh : holds2 x p = !x.s.r2.req.flags.nonfinal := by simp [holds2, hne, hr3]
  have hh' : holds2 (Sys.step hasFpu x i) p' = !x.s.r2.req.flags.nonfinal := by
    simp [holds2, hne', hr3', hflags]
  unfold Sys.rank
  rw [h.two.phase_eq, h'.two.phase_eq, hh, hh', hreq]
  cases hnf : x.s.r2.req.flags.nonfinal
  · simp only [Bool.not_false, if_true]
    omega
  · have hdc : x.s.r2.req.dcReq = true := by
      change (x.s.r2.req.dcReq && _) = true at hnf
      exact (Bool.and_eq_true_iff.mp hnf).1
    have hno : p.isOp = false := by
      rw [h.two.dcReq hne.1] at hdc
      revert hdc
      cases p <;> simp [Phase.asks, Phase.isOp]
    have e1 : p.asks = true := by simpa [hno] using hasks
    have e2 : p'.asks = true := by simpa [hop, hno] using hp'
    simp only [Bool.not_true, Bool.false_eq_true, if_false, e1, e2, if_true]
    omega

/-- The end of the request in stage 2 is the end of the instruction. -/
theorem Inv.rank_ended (h : Inv p k x) (hp : p = .ask ∨ p = .op) {p' : Phase} {k' : Kind}
    (h' : Inv p' k' (Sys.step hasFpu x i)) (hp' : p' = .empty ∨ p' = .stale)
    (hcm : (Sys.step hasFpu x i).s.r3.complete = true) : (Sys.step hasFpu x i).rank < x.rank := by
  have hone : (Sys.step hasFpu x i).rank = 1 := by
    unfold Sys.rank holds2
    rw [h'.two.phase_eq, hcm, Bool.or_true, if_pos rfl]
    rcases hp' with rfl | rfl <;> rfl
  have hnext : 1 < x.rank := by
    unfold Sys.rank
    rw [h.two.phase_eq]
    rcases hp with rfl | rfl
    · have hw : 2 ≤ x.weight .ask := by
        unfold Sys.weight
        split_ifs <;> decide
      have ha : Phase.asks .ask = true := rfl
      simp only [ha, if_true]
      split_ifs <;> omega
    · have hdc : x.s.r2.req.dcReq = false := h.two.dcReq (by decide)
      simp [holds2, nonfinal_false_of_dcReq hdc, Sys.weight]
  omega

/-- As long as no instruction ends, the oldest one gets on or waits for the dcache or the MMU. -/
theorem Inv.progress (h : Inv p k x) (hc : Contract x i) (hsound : Sound x i) (hash : HashOk x.s)
    (hagain : x.dc.r1 = .again → i.dIn.error = true → errorIntr x.s i = true) (hq : x.q ≠ [])
    (hno : leaving x i = 0) :
    (Sys.step hasFpu x i).rank < x.rank ∨
    ((Sys.step hasFpu x i).rank = x.rank ∧ (Sys.step hasFpu x i).awaits = x.awaits ∧
      ¬ x.awaits.happens i) := by
  obtain ⟨he, hcm⟩ : exception x.s i = false ∧ complete x.s i = false := by
    unfold leaving at hno
    split_ifs at hno with h1 h2
    · exact absurd (List.length_eq_zero_iff.mp hno) hq
    · exact ⟨by simpa using h1, by simpa using h2⟩
  by_cases hp : IsFree p x i
  · exact Or.inl (h.rank_free hp hc hsound hash hcm hq)
  · have hwait : ∀ {p' k'}, Inv p' k' (Sys.step hasFpu x i) → p' = p →
        (Sys.step hasFpu x i).awaits = x.awaits := by
      rintro p' k' h' rfl
      unfold Sys.awaits
      rw [h.two.phase_eq, h'.two.phase_eq]
    have hbelow : ∀ {p' k'}, Inv p' k' (Sys.step hasFpu x i) → p'.isOp = p.isOp →
        p'.asks = true ∨ p'.isOp = true → p ≠ .align →
        (Sys.step hasFpu x i).rank + x.weight p = x.rank + (Sys.step hasFpu x i).weight p' :=
      fun h' hop hp' ha => h.rank_kept hp ha hc he h' hop hp'
    have hawaits : x.awaits = if p.mmuOwes then .mmu else .dcache := by
      unfold Sys.awaits
      rw [h.two.phase_eq]
    cases p with
    | empty => exact absurd (Or.inl rfl) hp
    | stale => exact absurd (Or.inr (Or.inl rfl)) hp
    | one => exact absurd (Or.inr (Or.inr (Or.inl rfl))) hp
    | align =>
        rw [(@Inv.align_step hasFpu x i k h hc).1] at he
        cases he
    | ask =>
        have hslot : x.dc.r1 ≠ .empty := fun hs => h.two.slot.mp hs rfl
        rcases hc.answers hslot with ⟨hv, -, -⟩ | ⟨hv, her, hst⟩ | ⟨hv, her, hst⟩
        · -- the answer to a `hashchk`
          have hh : x.s.r2.req.hashcmp = true := by
            by_contra hh
            exact hp (Or.inr (Or.inr (Or.inr ⟨rfl, by simpa using hh, hv⟩)))
          obtain ⟨k', h'⟩ := @Inv.ask_hashchk hasFpu x i k h hc hsound he hv hh
          refine Or.inl (h.rank_ended (Or.inl rfl) h' (Or.inr rfl) ((r3in_eq x.s).2.1.trans ?_))
          rw [hv, hh, (stage2Interrupt_of_exception he).2.2.2]
          rfl
        · -- a request that is sent again finds its translation
          obtain ⟨k', h'⟩ := @Inv.ask_error hasFpu x i k h hc he hv her hst
          have hr := hbelow h' rfl (Or.inl rfl) (by decide)
          have hfirst : x.dc.r1 ≠ .again := by
            intro hag
            have := hagain hag her
            rw [(stage2Interrupt_of_exception he).2.1] at this
            cases this
          left
          simp only [Sys.weight, if_neg hfirst] at hr
          omega
        · obtain ⟨k', h'⟩ := @Inv.ask_stalled hasFpu x i k h hc he hv her hst
          have hr := hbelow h' rfl (Or.inl rfl) (by decide)
          have hsame : (Sys.step hasFpu x i).dc.r1 = x.dc.r1 := by simp [Sys.step, Dc.step, hst]
          right
          refine ⟨?_, hwait h' rfl, ?_⟩
          · simp only [Sys.weight, hsame] at hr
            omega
          · rw [hawaits]
            simp [Event.happens, Phase.mmuOwes, hst]
    | walk =>
        obtain ⟨k', h'⟩ := @Inv.walk_step hasFpu x i k h hc he
        cases hd : i.mIn.done with
        | true =>
            rw [hd, if_pos rfl] at h'
            have hr := hbelow h' rfl (Or.inl rfl) (by decide)
            left
            simp only [Sys.weight] at hr
            omega
        | false =>
            rw [hd, if_neg (by decide)] at h'
            have hr := hbelow h' rfl (Or.inl rfl) (by decide)
            right
            refine ⟨?_, hwait h' rfl, ?_⟩
            · simp only [Sys.weight] at hr
              omega
            · rw [hawaits]
              simp [Event.happens, Phase.mmuOwes, hd, (stage2Interrupt_of_exception he).2.2.1]
    | retry =>
        obtain ⟨k', h'⟩ := @Inv.retry_step hasFpu x i k h hc he
        have hr := hbelow h' rfl (Or.inl rfl) (by decide)
        have hs := h.no_e2stall hc (by decide)
        obtain ⟨-, her, hst⟩ := h.two.silent hc (by decide)
        have hagain' : (Sys.step hasFpu x i).dc.r1 = .again := by
          have hr0 : x.dc.r0 = .again := h.r0
          simp [Sys.step, Dc.step, hst rfl (by decide), hs, her, hr0]
        left
        simp only [Sys.weight, hagain', if_true] at hr
        omega
    | op0 =>
        obtain ⟨k', h'⟩ := @Inv.op0_step hasFpu x i k h hc he
        have hr := hbelow h' rfl (Or.inr rfl) (by decide)
        left
        simp only [Sys.weight] at hr
        omega
    | op =>
        obtain ⟨k', h'⟩ := @Inv.op_step hasFpu x i k h hc he
        cases hd : i.mIn.done with
        | true =>
            rw [hd] at h'
            refine Or.inl (h.rank_ended (Or.inr rfl) h' (Or.inl rfl) ((r3in_eq x.s).2.1.trans ?_))
            rw [hd, show x.s.r2.req.dcReq = false from h.two.dcReq (by decide)]
            simp
        | false =>
            rw [hd, if_neg (by decide)] at h'
            have hr := hbelow h' rfl (Or.inr rfl) (by decide)
            right
            refine ⟨?_, hwait h' rfl, ?_⟩
            · simp only [Sys.weight] at hr
              omega
            · rw [hawaits]
              simp [Event.happens, Phase.mmuOwes, hd, (stage2Interrupt_of_exception he).2.2.1]

/-! ## Runs -/

/-- Out of reset the unit has no instructions. -/
def Sys.start (s : State) : Sys where
  s := s.reset
  dc := ⟨.empty, .empty⟩
  mmu := false
  q := []
  left := 0

theorem inv_start (s : State) : Inv .empty .none (Sys.start s) where
  two := at_empty rfl rfl rfl rfl rfl rfl rfl rfl rfl
  one := by constructor <;> simp [Sys.start, State.reset]
  r0 := rfl
  quiet := fun _ => rfl
  cont := fun h => absurd rfl h
  flushing := by simp [Sys.start, State.reset]
  queue := List.Forall₂.nil

/-- The system before edge `n` of a run out of reset. -/
def sysAt (hasFpu : Bool) (s : State) (input : Nat → Input) (n : Nat) : Sys :=
  trace (Sys.step hasFpu) (Sys.start s) input n

/-- The dcache does not stall forever, the MMU answers its requests, and a request that is sent
again after a walk has its translation. -/
structure Fair (hasFpu : Bool) (s : State) (input : Nat → Input) : Prop where
  dcache : ∀ n, ∃ m, n ≤ m ∧ (input m).dcStall = false
  mmu : ∀ n, (sysAt hasFpu s input n).mmu = true →
    ∃ m, n ≤ m ∧ ((input m).mIn.done = true ∨ (input m).mIn.err = true)
  again : ∀ n, (sysAt hasFpu s input n).dc.r1 = .again → (input n).dIn.error = true →
    errorIntr (sysAt hasFpu s input n).s (input n) = true

variable {s : State} {input : Nat → Input}

/-- The invariant holds before every edge. -/
theorem inv_sysAt (hc : ∀ n, Contract (sysAt hasFpu s input n) (input n))
    (hsound : ∀ n, Sound (sysAt hasFpu s input n) (input n)) (n : Nat) :
    (∃ p k, Inv p k (sysAt hasFpu s input n)) ∧ HashOk (sysAt hasFpu s input n).s := by
  induction n with
  | zero =>
      refine ⟨⟨_, _, inv_start s⟩, ?_⟩
      intro h
      cases h
  | succ n ih =>
      obtain ⟨⟨p, k, h⟩, hash⟩ := ih
      exact ⟨h.step (hc n) (hsound n), hash.step h.one (hsound n)⟩

theorem left_add_length_step (x : Sys) (i : Input) :
    x.left + x.q.length ≤ (Sys.step hasFpu x i).left + (Sys.step hasFpu x i).q.length := by
  simp only [Sys.step]
  cases he : exception x.s i
  · simp only [Bool.false_eq_true, if_false, List.length_append, List.length_drop]
    omega
  · simp [leaving, he]

theorem left_step (x : Sys) (i : Input) :
    (Sys.step hasFpu x i).left = x.left + leaving x i := rfl

/-- Instructions that have been taken stay counted. -/
theorem left_add_length_mono {n m : Nat} (hnm : n ≤ m) :
    (sysAt hasFpu s input n).left + (sysAt hasFpu s input n).q.length ≤
      (sysAt hasFpu s input m).left + (sysAt hasFpu s input m).q.length := by
  induction m, hnm using Nat.le_induction with
  | base => exact le_rfl
  | succ m hm ih => exact ih.trans (left_add_length_step _ _)

theorem left_mono {n m : Nat} (hnm : n ≤ m) :
    (sysAt hasFpu s input n).left ≤ (sysAt hasFpu s input m).left := by
  induction m, hnm using Nat.le_induction with
  | base => exact le_rfl
  | succ m hm ih => exact ih.trans (Nat.le_add_right _ _)

/-- The oldest instruction in the unit ends. -/
theorem oldest_ends (hc : ∀ n, Contract (sysAt hasFpu s input n) (input n))
    (hsound : ∀ n, Sound (sysAt hasFpu s input n) (input n)) (hfair : Fair hasFpu s input)
    (n : Nat) (hq : (sysAt hasFpu s input n).q ≠ []) :
    ∃ m, n ≤ m ∧ 0 < leaving (sysAt hasFpu s input m) (input m) := by
  refine Clocked.eventually_of_rank (fun n => (sysAt hasFpu s input n).q ≠ [])
    (fun n => 0 < leaving (sysAt hasFpu s input n) (input n))
    (fun n => (sysAt hasFpu s input n).rank) (fun n => (sysAt hasFpu s input n).awaits)
    (fun e n => e.happens (input n)) ?_ ?_ n hq
  · intro n hq hno
    have hno' : leaving (sysAt hasFpu s input n) (input n) = 0 := by omega
    obtain ⟨⟨p, k, h⟩, hash⟩ := inv_sysAt hc hsound n
    refine ⟨?_, h.progress (hc n) (hsound n) hash (hfair.again n) hq hno'⟩
    -- nothing has left the list
    have hlen := @left_add_length_step hasFpu (sysAt hasFpu s input n) (input n)
    rw [left_step, hno'] at hlen
    have hpos := List.length_pos_iff.mpr hq
    apply List.length_pos_iff.mp
    show 0 < (Sys.step hasFpu (sysAt hasFpu s input n) (input n)).q.length
    omega
  · intro n hq
    obtain ⟨⟨p, k, h⟩, -⟩ := inv_sysAt hc hsound n
    unfold Sys.awaits
    rw [h.two.phase_eq]
    cases hm : p.mmuOwes with
    | true =>
        refine hfair.mmu n ?_
        rw [h.two.mmu]
        exact hm
    | false => exact hfair.dcache n

/-- In every run in which `tlbie` is not used, no `hashchk` is executed while it is disabled, a
`hashchk` is answered before another request is on its way, and a hash is taken when it is done,
instructions end one at a time and in order, each with its own tag and register or with an interrupt
that empties the unit; and all of them end. -/
theorem finish_once_in_order (s : State) (input : Nat → Input)
    (hc : ∀ n, Contract (sysAt hasFpu s input n) (input n))
    (hsound : ∀ n, Sound (sysAt hasFpu s input n) (input n)) :
    (∀ n, InOrder hasFpu (sysAt hasFpu s input n) (input n)) ∧
    (Fair hasFpu s input → ∀ n, ∃ m, n ≤ m ∧
      (sysAt hasFpu s input n).left + (sysAt hasFpu s input n).q.length ≤
        (sysAt hasFpu s input m).left) := by
  constructor
  · intro n
    obtain ⟨⟨p, k, h⟩, -⟩ := inv_sysAt hc hsound n
    exact h.inOrder (hc n)
  · intro hfair n
    have hcount : ∀ j, j ≤ (sysAt hasFpu s input n).q.length →
        ∃ m, n ≤ m ∧ (sysAt hasFpu s input n).left + j ≤ (sysAt hasFpu s input m).left := by
      intro j
      induction j with
      | zero => exact fun _ => ⟨n, le_rfl, le_rfl⟩
      | succ j ih =>
          intro hj
          obtain ⟨m, hnm, hle⟩ := ih (by omega)
          by_cases hdone : (sysAt hasFpu s input n).left + (j + 1) ≤ (sysAt hasFpu s input m).left
          · exact ⟨m, hnm, hdone⟩
          · have htotal := @left_add_length_mono hasFpu s input n m hnm
            have hq : (sysAt hasFpu s input m).q ≠ [] := by
              intro hq
              rw [hq] at htotal
              simp only [List.length_nil, Nat.add_zero] at htotal
              omega
            obtain ⟨m', hmm', hlt⟩ := oldest_ends hc hsound hfair m hq
            have hle' := @left_mono hasFpu s input m m' hmm'
            refine ⟨m' + 1, by omega, ?_⟩
            have hnext : (sysAt hasFpu s input (m' + 1)).left =
                (sysAt hasFpu s input m').left + leaving (sysAt hasFpu s input m') (input m') := rfl
            omega
    exact hcount _ le_rfl

/-! ## Runs with fixed inputs -/

/-- A doubleword access or another instruction, with a tag. -/
def insnOf (op : InsnOp) (tag : Fin 4) : Execute1ToLoadstore1 :=
  { Execute1ToLoadstore1.init with
    valid := true
    op := op
    instrTag := ⟨tag, true⟩
    length := 8
    hashEnable := true }

namespace Input

def present (l : Execute1ToLoadstore1) : Input := { idle with lIn := l }

def answered : Input := { idle with dIn := { idle.dIn with valid := true } }

def mmuDone : Input := { idle with mIn := { idle.mIn with done := true } }

end Input

instance (l : Execute1ToLoadstore1) : Decidable (WellFormed l) :=
  decidable_of_iff
    ((l.hash = true ∨ l.reserve = true →
      (l.op = .load ∨ l.op = .store) ∧ l.update = false ∧ l.is32bit = false) ∧
    (l.is32bit = true → l.rpt = true → l.update = true))
    ⟨fun ⟨h1, h2⟩ => ⟨h1, h2⟩, fun ⟨h1, h2⟩ => ⟨h1, h2⟩⟩

instance (x : Sys) (i : Input) : Decidable (Contract x i) :=
  decidable_of_iff ((x.dc.r1 ≠ .empty →
      (i.dIn.valid = true ∧ i.dIn.error = false ∧ i.dcStall = false) ∨
      (i.dIn.valid = false ∧ i.dIn.error = true ∧ i.dcStall = false) ∨
      (i.dIn.valid = false ∧ i.dIn.error = false ∧ i.dcStall = true)) ∧
    (x.dc.r1 = .empty → i.dIn.valid = false ∧ i.dIn.error = false ∧
      (i.dcStall = true → x.s.r2.waitMmu = true ∧ i.mIn.done = false ∧ i.mIn.err = false)) ∧
    (i.mIn.done = true ∨ i.mIn.err = true → x.mmu = true) ∧
    (i.mIn.done = true → i.mIn.err = false) ∧
    (i.lIn.valid = true → busy x.s i = false) ∧
    (i.lIn.valid = true → WellFormed i.lIn) ∧
    (i.lIn.e2stall = true →
      i.lIn.valid = false ∧ x.s.r1.req.valid = false ∧ x.s.r2.req.valid = false))
    ⟨fun ⟨h1, h2, h3, h4, h5, h6, h7⟩ => ⟨h1, h2, h3, h4, h5, h6, h7⟩,
      fun ⟨h1, h2, h3, h4, h5, h6, h7⟩ => ⟨h1, h2, h3, h4, h5, h6, h7⟩⟩

instance (x : Sys) (i : Input) : Decidable (Sound x i) :=
  decidable_of_iff ((i.lIn.valid = true → i.lIn.op ≠ .tlbie) ∧
    (exception x.s i = false → l2stall x.s i = false → x.s.r1.req.valid = true →
      x.s.r1.req.hashcmp = true → x.s.r1.req.dcReq = true ∨ x.s.r1.req.alignIntr = true) ∧
    (i.dIn.valid = true → x.s.r2.req.hashcmp = true → x.s.r1.issued = false) ∧
    (exception x.s i = false → l2stall x.s i = true → hashWaits x i = true →
      x.s.hash.active = true))
    ⟨fun ⟨h1, h2, h3, h4⟩ => ⟨h1, h2, h3, h4⟩, fun ⟨h1, h2, h3, h4⟩ => ⟨h1, h2, h3, h4⟩⟩

/-- A `tlbie` that the MMU has done, and a load. -/
def tlbieThenLoad : List Input :=
  [.present (insnOf .tlbie 1), .idle, .idle, .mmuDone, .idle, .present (insnOf .load 2), .idle]

/-- The load completes first: the `tlbie` has been lost. -/
theorem load_overtakes_tlbie :
    Clocked.Along (Sys.step true) Contract (Sys.start State.cold)
      (tlbieThenLoad ++ [Input.answered]) ∧
    ¬ InOrder true
      (Clocked.run (Sys.step true) (Sys.start State.cold) tlbieThenLoad) .answered := by
  refine ⟨by decide +kernel, fun h => ?_⟩
  obtain ⟨l, rest, hq, htag, -⟩ := h.complete (by decide +kernel)
  have hhead : ((Clocked.run (Sys.step true) (Sys.start State.cold) tlbieThenLoad).q.head?.map
      (·.instrTag.tag)) = some 1 := by decide +kernel
  have hout : (lOut (Clocked.run (Sys.step true) (Sys.start State.cold) tlbieThenLoad).s
      .answered).instrTag.tag = 2 := by decide +kernel
  rw [hq, List.head?_cons, Option.map_some, ← htag, hout] at hhead
  cases hhead

/-- A `hashchk` whose hash differs, with a load behind it. -/
def hashchkThenLoad : List Input :=
  .present { insnOf .load 1 with hash := true } ::
    (List.replicate 9 Input.idle ++ [Input.present (insnOf .load 2), .answered])

/-- The answer to the load makes the `hashchk` trap once more. -/
theorem hashchk_traps_twice :
    Clocked.Along (Sys.step true) Contract (Sys.start State.cold)
      (hashchkThenLoad ++ [Input.answered]) ∧
    ¬ InOrder true
      (Clocked.run (Sys.step true) (Sys.start State.cold) hashchkThenLoad) .answered := by
  refine ⟨by decide +kernel, fun h => ?_⟩
  obtain ⟨-, -, l, rest, hq, -⟩ := h.interrupt (by decide +kernel)
  have hnil :
      (Clocked.run (Sys.step true) (Sys.start State.cold) hashchkThenLoad).q.length = 0 := by
    decide +kernel
  rw [hq] at hnil
  cases hnil

/-- An empty unit stays so without instructions. -/
theorem Inv.idle_step (h : Inv .empty .none x) :
    Contract x .idle ∧ Sound x .idle ∧ Inv .empty .none (Sys.step hasFpu x .idle) := by
  have hslot : x.dc.r1 = .empty := h.two.slot.mpr (by decide)
  have hc : Contract x .idle := {
    answers := fun hne => absurd hslot hne
    silent := fun _ => ⟨rfl, rfl, nofun⟩
    mmu := by rintro (hd | hd) <;> cases hd
    mmuOnce := nofun
    notBusy := nofun
    insn := nofun
    e2stall := nofun }
  have hp : IsFree .empty x .idle := Or.inl rfl
  have hfree := h.two.free hc hp
  have hl := hfree.l2stall_false
  have hsound : Sound x .idle := {
    noTlbie := nofun
    hashOn := by
      intro _ _ hv
      rw [h.one.valid] at hv
      cases hv
    hashAlone := nofun
    hashHeard := by
      intro _ hst
      rw [hl] at hst
      cases hst }
  refine ⟨hc, hsound, ?_⟩
  have h1 := @stage1Is_idle hasFpu x.s .idle h.one.busy hfree.exception_false hl rfl
  have hrest := h.queue_rest hp hfree.exception_false
  rw [h.one.holds] at hrest
  refine h.of_free hp hc hsound rfl h1 nofun (fun _ => h1.issued) ?_
  rw [h1.valid]
  simpa [Input.idle, Execute1ToLoadstore1.init] using hrest

/-- A run that leaves the unit empty, with nothing presented from then on, stays within the contract
if it begins so. -/
theorem idle_after {s : State} {input : Nat → Input} (N : Nat)
    (hstart : ∀ n, n < N → Contract (sysAt hasFpu s input n) (input n) ∧
      Sound (sysAt hasFpu s input n) (input n))
    (hp : (sysAt hasFpu s input N).phase = .empty)
    (hv : (sysAt hasFpu s input N).s.r1.req.valid = false)
    (hidle : ∀ n, N ≤ n → input n = .idle) :
    (∀ n, N ≤ n → Inv .empty .none (sysAt hasFpu s input n)) ∧
    ∀ n, Contract (sysAt hasFpu s input n) (input n) ∧ Sound (sysAt hasFpu s input n)
      (input n) := by
  have hbefore : ∀ n, n ≤ N → ∃ p k, Inv p k (sysAt hasFpu s input n) := by
    intro n hn
    induction n with
    | zero => exact ⟨_, _, inv_start s⟩
    | succ n ih =>
        obtain ⟨p, k, h⟩ := ih (by omega)
        obtain ⟨hc, hsound⟩ := hstart n (by omega)
        exact h.step hc hsound
  have hrest : Inv .empty .none (sysAt hasFpu s input N) := by
    obtain ⟨p, k, h⟩ := hbefore N le_rfl
    obtain rfl : p = .empty := h.two.phase_eq.symm.trans hp
    obtain rfl : k = .none := by
      rw [h.one.valid] at hv
      simpa using hv
    exact h
  have hafter : ∀ n, N ≤ n → Inv .empty .none (sysAt hasFpu s input n) := by
    intro n hn
    refine Clocked.trace_invariant (fun x => Inv .empty .none x) N ?_ hrest n hn
    intro m hm h
    rw [hidle m hm]
    exact h.idle_step.2.2
  refine ⟨hafter, fun n => ?_⟩
  rcases Nat.lt_or_ge n N with hn | hn
  · exact hstart n hn
  · obtain ⟨hc, hsound, -⟩ := @Inv.idle_step hasFpu _ (hafter n hn)
    rw [hidle n hn]
    exact ⟨hc, hsound⟩

/-- A load, a store behind it that the dcache stalls once, and a load-reserve at an odd address. -/
def threeInsns (n : Nat) : Input :=
  [.present (insnOf .load 1), .present (insnOf .store 2), { Input.idle with dcStall := true },
    .answered, { Input.answered with lIn := { insnOf .load 3 with reserve := true, addr1 := 1 } }
  ].getD n .idle

theorem threeInsns_idle {n : Nat} (hn : 5 ≤ n) : threeInsns n = .idle := by
  rw [threeInsns, List.getD_eq_getElem?_getD, List.getElem?_eq_none hn]
  rfl

theorem threeInsns_error (n : Nat) : (threeInsns n).dIn.error = false := by
  rcases Nat.lt_or_ge n 5 with hn | hn
  · revert n
    decide
  · rw [threeInsns_idle hn]
    rfl

theorem threeInsns_start (n : Nat) (hn : n < 7) :
    Contract (sysAt true State.cold threeInsns n) (threeInsns n) ∧
    Sound (sysAt true State.cold threeInsns n) (threeInsns n) ∧
    (sysAt true State.cold threeInsns n).mmu = false := by
  revert n
  decide +kernel

/-- The unit when the last of them has trapped. -/
theorem threeInsns_after :
    (∀ n, 7 ≤ n → Inv .empty .none (sysAt true State.cold threeInsns n)) ∧
    ∀ n, Contract (sysAt true State.cold threeInsns n) (threeInsns n) ∧
      Sound (sysAt true State.cold threeInsns n) (threeInsns n) :=
  idle_after 7 (fun n hn => ⟨(threeInsns_start n hn).1, (threeInsns_start n hn).2.1⟩)
    (by decide +kernel) (by decide +kernel) fun n hn => threeInsns_idle (by omega)

theorem fair_threeInsns : Fair true State.cold threeInsns where
  dcache n := ⟨n + 5, by omega, by rw [threeInsns_idle (by omega)]; rfl⟩
  mmu := by
    intro n hm
    rcases Nat.lt_or_ge n 7 with hn | hn
    · rw [(threeInsns_start n hn).2.2] at hm
      cases hm
    · rw [(threeInsns_after.1 n hn).two.mmu] at hm
      cases hm
  again := by
    intro n _ he
    rw [threeInsns_error] at he
    cases he

/-- The first two complete, the third traps, and all have left in the end. -/
theorem finish_once_in_order_threeInsns :
    (∀ n, InOrder true (sysAt true State.cold threeInsns n) (threeInsns n)) ∧
    (∃ m, 3 ≤ (sysAt true State.cold threeInsns m).left) ∧
    (sysAt true State.cold threeInsns 3).q.map (·.instrTag.tag) = [1, 2] ∧
    (lOut (sysAt true State.cold threeInsns 3).s (threeInsns 3)).instrTag.tag = 1 ∧
    (lOut (sysAt true State.cold threeInsns 4).s (threeInsns 4)).instrTag.tag = 2 ∧
    exception (sysAt true State.cold threeInsns 6).s (threeInsns 6) = true := by
  obtain ⟨horder, hends⟩ := @finish_once_in_order true State.cold threeInsns
    (fun n => (threeInsns_after.2 n).1) (fun n => (threeInsns_after.2 n).2)
  obtain ⟨m, -, hm⟩ := hends fair_threeInsns 5
  have hq : (sysAt true State.cold threeInsns 5).left +
      (sysAt true State.cold threeInsns 5).q.length = 3 := by decide +kernel
  exact ⟨horder, ⟨m, hq ▸ hm⟩, by decide +kernel, by decide +kernel, by decide +kernel,
    by decide +kernel⟩

end

end Microwatt.Loadstore1
