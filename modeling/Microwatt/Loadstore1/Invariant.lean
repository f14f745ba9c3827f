import Microwatt.Loadstore1.Phases

/-!
# The invariant of the load/store unit

The phase of stage 2, the kind of request in stage 1, and which instructions of the list they stand
for.  Every cycle keeps the invariant, and it says that instructions end one at a time and in order.
-/

namespace Microwatt.Loadstore1

/-! ## The invariant -/

/-- Stage 2 holds the last part of an instruction that has not ended. -/
def holds2 (x : Sys) (p : Phase) : Bool :=
  (p != .empty && p != .stale && !x.s.r2.req.flags.nonfinal) || x.s.r3.complete

/-- The requests that stand for the instructions in the unit, the oldest first. -/
def owners (x : Sys) (p : Phase) : List Request :=
  (if holds2 x p then [x.s.r2.req] else []) ++ (if x.s.r1.req.valid then [x.s.r1.req] else [])

structure Inv (p : Phase) (k : Kind) (x : Sys) : Prop where
  two : At p x
  one : Stage1Is k x.s.r1
  /-- The first stage of the dcache holds what stage 1 has issued, or what is sent again. -/
  r0 : x.dc.r0 = if p = .retry then .again else if x.s.r1.issued then .first else .empty
  quiet : p = .align ∨ p = .stale ∨ p = .walk ∨ p = .retry ∨ p = .op0 ∨ p = .op →
    x.s.r1.issued = false
  /-- The rest of the instruction in stage 2 is in stage 1. -/
  cont : p ≠ .empty → x.s.r2.req.flags.nonfinal = true → k ≠ .none ∧
    x.s.r2.req.instrTag = x.s.r1.req.instrTag ∧ x.s.r2.req.writeReg = x.s.r1.req.writeReg
  flushing : x.s.flushing = true ↔ p = .align ∨ (k ≠ .none ∧ x.s.r1.req.alignIntr = true)
  queue : List.Forall₂ Owns (owners x p) x.q

section Invariant

variable {hasFpu : Bool} {x : Sys} {i : Input} {p : Phase} {k : Kind}

theorem owns_of_flags {q q' : Request} {l : Execute1ToLoadstore1} (h : q'.flags = q.flags)
    (ho : Owns q l) : Owns q' l :=
  ⟨(congrArg Flags.instrTag h).trans ho.1, (congrArg Flags.writeReg h).trans ho.2⟩

/-- The phases in which stage 2 does not keep its request. -/
def IsFree (p : Phase) (x : Sys) (i : Input) : Prop :=
  p = .empty ∨ p = .stale ∨ p = .one ∨
    (p = .ask ∧ x.s.r2.req.hashcmp = false ∧ i.dIn.valid = true)

theorem nonfinal_of_hashcmp {f : Flags} (h : f.Ok) (hh : f.hashcmp = true) :
    f.nonfinal = false := by
  obtain ⟨hi, hs, -, -⟩ := h.hash (Or.inr hh)
  simp [Flags.nonfinal, hi, hs]

/-- In a free phase the instruction that stage 2 holds completes. -/
theorem complete_eq_holds2 (h : At p x) (hp : IsFree p x i) :
    complete x.s i = holds2 x p := by
  unfold complete holds2
  rw [h.oneCycle, h.waitDc]
  rcases hp with rfl | rfl | rfl | ⟨rfl, hh, hv⟩
  · simp [Phase.asks]
  · simp [Phase.asks]
  · have hnf : x.s.r2.req.flags.nonfinal = false := by
      have hd : x.s.r2.req.dcReq = false := h.dcReq (by decide)
      change (x.s.r2.req.dcReq && _) = false
      rw [hd, Bool.false_and]
    simp [hnf]
  · rw [hh, hv]
    cases x.s.r2.req.flags.nonfinal <;> cases x.s.r3.complete <;> rfl

/-- In the other phases nothing completes. -/
theorem complete_false_of_kept (h : At p x) (hp : ¬ IsFree p x i) (hc : Contract x i) :
    complete x.s i = false ∧ x.s.r3.complete = false := by
  have hr3 : x.s.r3.complete = false := by
    by_contra hcm
    rcases h.complete (by simpa using hcm) with rfl | rfl
    · exact hp (Or.inl rfl)
    · exact hp (Or.inr (Or.inl rfl))
  have hone : p ≠ .one := fun h1 => hp (Or.inr (Or.inr (Or.inl h1)))
  refine ⟨?_, hr3⟩
  unfold complete
  rw [hr3, h.oneCycle, h.waitDc, Bool.or_false]
  have h1 : (p == .one) = false := by simpa using hone
  rw [h1, Bool.false_or]
  by_cases hask : p = .ask
  · subst hask
    by_cases hv : i.dIn.valid = true
    · have hh : x.s.r2.req.hashcmp = true := by
        by_contra hn
        exact hp (Or.inr (Or.inr (Or.inr ⟨rfl, by simpa using hn, hv⟩)))
      simp [hh]
    · have : i.dIn.valid = false := by simpa using hv
      rw [this, Bool.and_false]
  · rw [(h.silent hc hask).1, Bool.and_false]

/-- What the dcache takes into its first stage is what stage 1 issues. -/
theorem r0_step_free (hf : Free x i) (hs : i.lIn.e2stall = false)
    (h1 : Stage1Is k (r1in hasFpu x.s i)) :
    (Dc.step hasFpu x i).r0 = if (r1in hasFpu x.s i).issued then .first else .empty := by
  have he := hf.exception_false
  have hl := hf.l2stall_false
  obtain ⟨hflags, -, -, -, -⟩ := @r1in_advance hasFpu x.s i he hl
  have hiss : (r1in hasFpu x.s i).issued = stage1Dcreq hasFpu x.s i := by simp [r1in, he, hl]
  have hdv : (dOut hasFpu x.s i).valid = stage1Dcreq hasFpu x.s i := by
    simp [dOut, hf.stage1En]
  have hdt : (dOut hasFpu x.s i).tlbProbe = (stage1Req hasFpu x.s i).tlbie := by
    simp [dOut, hf.stage1En]
  simp only [Dc.step, hf.stall, hs, Bool.or_self, Bool.false_eq_true, if_false, hdv, hdt,
    hf.stage1En, if_true, hiss]
  cases hreq : stage1Dcreq hasFpu x.s i
  · rfl
  · have hk : k ≠ .none := by
      rintro rfl
      have := h1.issued
      rw [hiss, hreq] at this
      cases this
    have ht : (stage1Req hasFpu x.s i).tlbie = false := by
      have := (h1.ok hk).noTlbie
      rw [hflags] at this
      exact this
    rw [ht]
    rfl

/-- The instructions that stage 1 stands for, and what is left of the list in a free phase. -/
theorem Inv.queue_rest (h : Inv p k x) (hp : IsFree p x i)
    (he : exception x.s i = false) :
    List.Forall₂ Owns (if x.s.r1.req.valid then [x.s.r1.req] else []) (x.q.drop (leaving x i)) := by
  have hq := h.queue
  have hcm := complete_eq_holds2 h.two hp
  unfold owners at hq
  unfold leaving
  rw [he, hcm]
  cases hh : holds2 x p
  · rw [hh] at hq
    exact hq
  · rw [hh] at hq
    simp only [if_true, List.singleton_append, List.forall₂_cons_left_iff] at hq
    obtain ⟨l, rest, -, hrest, hcons⟩ := hq
    rw [hcons]
    exact hrest

/-- A request in stage 1 that is refused makes everything behind it a no-op. -/
theorem flushing_step : (Sys.step hasFpu x i).s.flushing =
    ((x.s.flushing || ((r1in hasFpu x.s i).req.valid && ((r1in hasFpu x.s i).req.alignIntr ||
      (r1in hasFpu x.s i).req.dawrIntr))) && !exception x.s i) := rfl

/-- Only the last part of an instruction can be refused, and it has no dcache request. -/
theorem Stage1Is.of_align {r : RegStage1} (h : Stage1Is k r) (hk : k ≠ .none)
    (ha : r.req.alignIntr = true) : k = .final ∧ r.req.dcReq = false := by
  obtain ⟨hd, hop, -⟩ := (h.ok hk).align ha
  replace hd : r.req.dcReq = false := hd
  replace hop : r.req.mmuOp = false := hop
  have h1 := h.mmuOp hk
  have h2 := h.dcReq.2
  refine ⟨?_, hd⟩
  cases k with
  | none => exact absurd rfl hk
  | final => rfl
  | more => rw [h2 (Or.inl rfl)] at hd; cases hd
  | wait => rw [h2 (Or.inr rfl)] at hd; cases hd
  | op => rw [hop] at h1; cases h1

theorem nonfinal_false_of_dcReq {q : Request} (h : q.dcReq = false) : q.flags.nonfinal = false := by
  change (q.dcReq && _) = false
  rw [h, Bool.false_and]

/-- An instruction in stage 1 that is refused gets to stage 2 as such. -/
theorem Inv.nextPhase_align (h : Inv p k x) (hp : IsFree p x i) (hfl : x.s.flushing = true) :
    nextPhase k x.s.r1.req.flags = .align ∧ k = .final := by
  rcases h.flushing.mp hfl with rfl | ⟨hk, ha⟩
  · rcases hp with hp | hp | hp | ⟨hp, -⟩ <;> cases hp
  · obtain ⟨rfl, hd⟩ := h.one.of_align hk ha
    refine ⟨?_, rfl⟩
    simp [nextPhase, Request.flags, hd, ha]

/-- In a free phase stage 2 takes over from stage 1. -/
theorem Inv.at_next (h : Inv p k x) (hp : IsFree p x i) (hc : Contract x i)
    (hsound : Sound x i) (hs : i.lIn.e2stall = false) :
    At (nextPhase k x.s.r1.req.flags) (Sys.step hasFpu x i) ∧
    (nextPhase k x.s.r1.req.flags ≠ .empty →
      (Sys.step hasFpu x i).s.r2.req.flags = x.s.r1.req.flags) := by
  have hret : p ≠ .retry := by
    rcases hp with rfl | rfl | rfl | ⟨rfl, -⟩ <;> decide
  have hr0 : x.dc.r0 = if x.s.r1.issued then .first else .empty := by
    rw [h.r0, if_neg hret]
  have hfree := h.two.free hc hp
  refine hfree.at_next h.one hs hr0 ?_
  rintro rfl hd ha
  by_contra hh
  have hon :=
    hsound.hashOn hfree.exception_false hfree.l2stall_false h.one.valid (by simpa using hh)
  rw [hd, ha] at hon
  rcases hon with hon | hon <;> cases hon

theorem nextPhase_ne (k : Kind) (f : Flags) : nextPhase k f ≠ .retry ∧ nextPhase k f ≠ .stale ∧
    nextPhase k f ≠ .walk ∧ nextPhase k f ≠ .op := by
  cases k <;> simp only [nextPhase] <;> try decide
  split_ifs <;> decide

theorem nextPhase_eq_empty (k : Kind) (f : Flags) :
    nextPhase k f = .empty ↔ k = .none ∨ k = .wait := by
  cases k <;> simp only [nextPhase] <;> try decide
  split_ifs <;> decide

/-- What stage 2 takes over is the last part of an instruction, or more follows. -/
theorem Inv.holds2_free (h : Inv p k x) (hp : IsFree p x i) (hc : Contract x i)
    (hsound : Sound x i) (hs : i.lIn.e2stall = false) :
    holds2 (Sys.step hasFpu x i) (nextPhase k x.s.r1.req.flags) =
      decide (k = .final ∨ k = .op) := by
  obtain ⟨-, hflags⟩ := @Inv.at_next hasFpu x i p k h hp hc hsound hs
  obtain ⟨-, hcm, -, -⟩ := @Free.stage3 hasFpu x i (h.two.free hc hp)
  unfold holds2
  rw [hcm, Bool.or_false]
  have hd := h.one.dcReq
  have hn := h.one.nonfinal
  by_cases hne : nextPhase k x.s.r1.req.flags = .empty
  · rw [hne]
    rcases (nextPhase_eq_empty k _).mp hne with rfl | rfl <;> rfl
  · rw [hflags hne]
    have hst := (nextPhase_ne k x.s.r1.req.flags).2.1
    have e1 : (nextPhase k x.s.r1.req.flags != .empty) = true := by simpa using hne
    have e2 : (nextPhase k x.s.r1.req.flags != .stale) = true := by simpa using hst
    rw [e1, e2]
    cases k with
    | none => exact absurd rfl hne
    | wait => exact absurd rfl hne
    | more => rw [hn.2 rfl]; rfl
    | final => rw [hn.1 rfl]; rfl
    | op => rw [nonfinal_false_of_dcReq (hd.1 (Or.inr rfl))]; rfl

/-- In a free phase stage 2 takes over from stage 1, and stage 1 goes on. -/
theorem Inv.of_free (h : Inv p k x) (hp : IsFree p x i) (hc : Contract x i)
    (hsound : Sound x i) (hs : i.lIn.e2stall = false) {k' : Kind}
    (h1 : Stage1Is k' (r1in hasFpu x.s i)) (hcont : k = .more → k' ≠ .none ∧
      x.s.r1.req.instrTag = (r1in hasFpu x.s i).req.instrTag ∧
      x.s.r1.req.writeReg = (r1in hasFpu x.s i).req.writeReg)
    (hquiet : nextPhase k x.s.r1.req.flags = .align ∨ nextPhase k x.s.r1.req.flags = .op0 →
      (r1in hasFpu x.s i).issued = false)
    (hqueue : List.Forall₂ Owns
      ((if k = .final ∨ k = .op then [x.s.r1.req] else []) ++
        (if (r1in hasFpu x.s i).req.valid then [(r1in hasFpu x.s i).req] else []))
      (x.q.drop (leaving x i) ++ (if i.lIn.valid then [i.lIn] else []))) :
    Inv (nextPhase k x.s.r1.req.flags) k' (Sys.step hasFpu x i) := by
  have hfree := h.two.free hc hp
  have he := hfree.exception_false
  obtain ⟨hat, hflags⟩ := @Inv.at_next hasFpu x i p k h hp hc hsound hs
  obtain ⟨hne1, hne2, hne3, hne4⟩ := nextPhase_ne k x.s.r1.req.flags
  constructor
  · exact hat
  · exact h1
  · rw [if_neg hne1]
    exact r0_step_free hfree hs h1
  · rintro (ha | ha | ha | ha | ha | ha)
    · exact hquiet (Or.inl ha)
    · exact absurd ha hne2
    · exact absurd ha hne3
    · exact absurd ha hne1
    · exact hquiet (Or.inr ha)
    · exact absurd ha hne4
  · intro hne hnf
    have hf := hflags hne
    rw [hf] at hnf
    have hd := h.one.dcReq
    have hn := h.one.nonfinal
    cases k with
    | none => exact absurd rfl hne
    | wait => exact absurd rfl hne
    | more =>
        obtain ⟨hk, htag, hreg⟩ := hcont rfl
        exact ⟨hk, (congrArg Flags.instrTag hf).trans htag, (congrArg Flags.writeReg hf).trans hreg⟩
    | final => rw [hn.1 rfl] at hnf; cases hnf
    | op => rw [nonfinal_false_of_dcReq (hd.1 (Or.inr rfl))] at hnf; cases hnf
  · rw [flushing_step, he]
    simp only [Bool.not_false, Bool.and_true, Bool.or_eq_true, Bool.and_eq_true]
    constructor
    · rintro (hfl | ⟨hv, ha⟩)
      · exact Or.inl (h.nextPhase_align hp hfl).1
      · have hk : k' ≠ .none := by
          rintro rfl
          rw [h1.valid] at hv
          cases hv
        have ha' : (r1in hasFpu x.s i).req.alignIntr = true := by
          rcases ha with ha | ha
          · exact ha
          · rw [h1.dawr hk] at ha
            cases ha
        exact Or.inr ⟨hk, ha'⟩
    · rintro (ha | ⟨hk, ha⟩)
      · left
        cases k <;> simp only [nextPhase] at ha <;> try cases ha
        rw [h.flushing]
        right
        refine ⟨by decide, ?_⟩
        split_ifs at ha with hd hal
        exact hal
      · right
        refine ⟨?_, Or.inl ha⟩
        rw [h1.valid]
        simpa using hk
  · have hx : (Sys.step hasFpu x i).q =
        x.q.drop (leaving x i) ++ (if i.lIn.valid then [i.lIn] else []) := by
      simp [Sys.step, he]
    rw [hx]
    unfold owners
    rw [h.holds2_free hp hc hsound hs]
    by_cases hk : k = .final ∨ k = .op
    · have hne : nextPhase k x.s.r1.req.flags ≠ .empty := by
        rcases hk with rfl | rfl
        · simp only [nextPhase]
          split_ifs <;> decide
        · simp [nextPhase]
      simp only [hk, decide_true, if_true, List.singleton_append] at hqueue ⊢
      rw [List.forall₂_cons_left_iff] at hqueue
      obtain ⟨l, rest, ho, hrest, hcons⟩ := hqueue
      rw [hcons]
      exact List.Forall₂.cons (owns_of_flags (hflags hne) ho) hrest
    · simp only [hk, decide_false, Bool.false_eq_true, if_false, List.nil_append] at hqueue ⊢
      exact hqueue

/-- What stage 2 takes over when stage 1 holds an instruction to the end. -/
theorem Stage1Is.holds (h : Stage1Is k x.s.r1) :
    (if x.s.r1.req.valid then [x.s.r1.req] else []) =
      (if k = .none then [] else [x.s.r1.req]) := by
  rw [h.valid]
  cases k <;> rfl

/-- In a free phase, when nothing holds up the second stages. -/
theorem Inv.step_free (h : Inv p k x) (hp : IsFree p x i) (hc : Contract x i)
    (hsound : Sound x i) (hs : i.lIn.e2stall = false) :
    ∃ k', Inv (nextPhase k x.s.r1.req.flags) k' (Sys.step hasFpu x i) := by
  have hfree := h.two.free hc hp
  have he := hfree.exception_false
  have hl := hfree.l2stall_false
  have hrest := h.queue_rest hp he
  rw [h.one.holds] at hrest
  have hnobusy : x.s.r1.busy = true → i.lIn.valid = false := by
    intro hb
    by_contra hv
    have := hc.notBusy (by simpa using hv)
    simp [busy, hb] at this
  obtain ⟨hf, hval, -, -, -⟩ := @r1in_advance hasFpu x.s i he hl
  by_cases hb : k = .none ∨ k = .final
  · -- stage 1 takes the instruction that execute1 presents
    have hb1 : x.s.r1.busy = false := by
      rw [h.one.busy]
      rcases hb with rfl | rfl <;> rfl
    have hnop : ¬ (nextPhase k x.s.r1.req.flags = .op0) := by
      rcases hb with rfl | rfl
      · simp [nextPhase]
      · simp only [nextPhase]
        split_ifs <;> decide
    have hreq := @stage1Req_of_not_busy hasFpu x.s i hb1
    cases hv : i.lIn.valid with
    | false =>
        have h1 := @stage1Is_idle hasFpu x.s i hb1 he hl hv
        refine ⟨.none, h.of_free hp hc hsound hs h1 ?_ (fun _ => h1.issued) ?_⟩
        · rintro rfl
          rcases hb with hb | hb <;> cases hb
        · rw [h1.valid, hv]
          rcases hb with rfl | rfl <;> simpa using hrest
    | true =>
        obtain ⟨k', hk', h1⟩ :=
          @stage1Is_present hasFpu x.s i hb1 he hl hv (hc.insn hv) (hsound.noTlbie hv)
        have hflush : x.s.flushing = true → (r1in hasFpu x.s i).req.dcReq = false := by
          intro hfl
          have hd : (r1in hasFpu x.s i).req.dcReq = (stage1Req hasFpu x.s i).dcReq :=
            congrArg Flags.dcReq hf
          rw [hd, hreq]
          simp [hfl]
        refine ⟨k', h.of_free hp hc hsound hs h1 ?_ ?_ ?_⟩
        · rintro rfl
          rcases hb with hb | hb <;> cases hb
        · rintro (ha | ha)
          · have hfl : x.s.flushing = true := by
              rw [h.flushing]
              right
              rcases hb with rfl | rfl
              · simp [nextPhase] at ha
              · refine ⟨by decide, ?_⟩
                simp only [nextPhase] at ha
                split_ifs at ha with hd hal
                exact hal
            have hi := h1.issued
            rw [hflush hfl] at hi
            have hno : k' ≠ .more := by
              rintro rfl
              rw [h1.dcReq.2 (Or.inl rfl)] at hflush
              cases hflush hfl
            rw [hi]
            cases k' <;> first | rfl | exact absurd rfl hno
          · exact absurd ha hnop
        · have hvv : (r1in hasFpu x.s i).req.valid = true := by
            rw [h1.valid]
            simpa using hk'
          have hown : Owns (r1in hasFpu x.s i).req i.lIn := by
            have : Owns (stage1Req hasFpu x.s i) i.lIn := by
              rw [hreq]
              exact ⟨rfl, rfl⟩
            exact owns_of_flags hf this
          rw [hvv, hv]
          simp only [if_true]
          apply List.rel_append
          · rcases hb with rfl | rfl <;> simpa using hrest
          · exact List.Forall₂.cons hown List.Forall₂.nil
  · have hb1 : x.s.r1.busy = true := by
      rw [h.one.busy]
      cases k <;> simp_all
    have hv := hnobusy hb1
    cases k with
    | none => exact absurd (Or.inl rfl) hb
    | final => exact absurd (Or.inr rfl) hb
    | more =>
        obtain ⟨⟨k', hk', h1⟩, htag, hreg, -, hhash⟩ := stage1Is_more h.one he hl
        have hvv : (r1in hasFpu x.s i).req.valid = true := by
          rw [h1.valid]
          simpa using hk'
        have hcont : k' ≠ .none ∧ x.s.r1.req.instrTag = (r1in hasFpu x.s i).req.instrTag ∧
            x.s.r1.req.writeReg = (r1in hasFpu x.s i).req.writeReg :=
          ⟨hk', htag.symm.trans (congrArg Flags.instrTag hf).symm,
            hreg.symm.trans (congrArg Flags.writeReg hf).symm⟩
        refine ⟨k', h.of_free hp hc hsound hs h1 (fun _ => hcont) ?_ ?_⟩
        · rintro (ha | ha) <;> simp [nextPhase] at ha
        · rw [hvv, hv]
          simp only [reduceCtorEq, if_false, if_true] at hrest ⊢
          simp only [or_self, if_false, List.nil_append, List.append_nil]
          rw [List.forall₂_cons_left_iff] at hrest ⊢
          obtain ⟨l, rest, ho, hr, hcons⟩ := hrest
          refine ⟨l, rest, ?_, hr, hcons⟩
          have : Owns (stage1Req hasFpu x.s i) l := ⟨htag.trans ho.1, hreg.trans ho.2⟩
          exact owns_of_flags hf this
    | wait =>
        obtain ⟨h1, hreq⟩ := stage1Is_wait h.one he hl
        have hk' : issuedKind x.s.r1.req.flags x.s.hash.done ≠ .none := by
          unfold issuedKind
          split_ifs <;> decide
        have hvv : (r1in hasFpu x.s i).req.valid = true := by
          rw [h1.valid]
          simpa using hk'
        rw [hreq] at hf
        refine ⟨_, h.of_free hp hc hsound hs h1 (by rintro ⟨⟩) ?_ ?_⟩
        · rintro (ha | ha) <;> simp [nextPhase] at ha
        · rw [hvv, hv]
          simp only [reduceCtorEq, if_false, if_true] at hrest ⊢
          simp only [or_self, if_false, List.nil_append, List.append_nil]
          rw [List.forall₂_cons_left_iff] at hrest ⊢
          obtain ⟨l, rest, ho, hr, hcons⟩ := hrest
          exact ⟨l, rest, owns_of_flags hf ho, hr, hcons⟩
    | op =>
        have h1 := @stage1Is_op hasFpu x.s i h.one he hl
        refine ⟨.none, h.of_free hp hc hsound hs h1 (by rintro ⟨⟩) (fun _ => h1.issued) ?_⟩
        rw [h1.valid, hv]
        simpa using hrest

/-! ### The phases in which stage 2 keeps its request -/

theorem Inv.no_e2stall (h : Inv p k x) (hc : Contract x i) (hp : p ≠ .empty) :
    i.lIn.e2stall = false := by
  by_contra hs
  have hv := (hc.e2stall (by simpa using hs)).2.2
  rw [h.two.valid] at hv
  exact hp (by simpa using hv)

/-- Stage 1 is held up with stage 2. -/
theorem l2stall_of_kept (h : At p x) (hc : Contract x i) (hp : ¬ IsFree p x i) :
    l2stall x.s i = true := by
  unfold l2stall
  rw [h.busy]
  by_cases hask : p = .ask
  · subst hask
    have hslot : x.dc.r1 ≠ .empty := fun hs => h.slot.mp hs rfl
    rcases hc.answers hslot with ⟨hv, -, -⟩ | ⟨-, he, -⟩ | ⟨-, -, hst⟩
    · have hh : x.s.r2.req.hashcmp = true := by
        by_contra hn
        exact hp (Or.inr (Or.inr (Or.inr ⟨rfl, by simpa using hn, hv⟩)))
      simp [hh, Phase.busy]
    · simp [he]
    · simp [hst]
  · unfold IsFree at hp
    cases p <;> simp_all [Phase.busy, Phase.isOp]

theorem stage2Free_of_kept (h : At p x) (hc : Contract x i) (hp : ¬ IsFree p x i) :
    stage2Free x.s i = false := by
  simp [stage2Free, l2stall_of_kept h hc hp]

/-- Without an interrupt, stage 2 goes from phase `p` to phase `p'` and stage 1 waits. -/
theorem Inv.of_kept (h : Inv p k x) (hp : ¬ IsFree p x i) (hc : Contract x i)
    (he : exception x.s i = false) {p' : Phase} (hat : At p' (Sys.step hasFpu x i))
    (hflags : (Sys.step hasFpu x i).s.r2.req.flags = x.s.r2.req.flags)
    (hpa : p ≠ .align ∧ p' ≠ .align)
    (hr0 : (Dc.step hasFpu x i).r0 = if p' = .retry then .again
      else if x.s.r1.issued && !i.dIn.error then .first else .empty)
    (hquiet : p' = .align ∨ p' = .stale ∨ p' = .walk ∨ p' = .retry ∨ p' = .op0 ∨ p' = .op →
      (x.s.r1.issued && !i.dIn.error) = false)
    (hhold : holds2 (Sys.step hasFpu x i) p' = !x.s.r2.req.flags.nonfinal) :
    ∃ k', Inv p' k' (Sys.step hasFpu x i) := by
  have hl := l2stall_of_kept h.two hc hp
  obtain ⟨hreq, h1⟩ := @stage1Is_stalled hasFpu x.s i k h.one he hl
  have hiss : (r1in hasFpu x.s i).issued = (x.s.r1.issued && !i.dIn.error) := by
    simp [r1in, he, hl]
  have hne : p ≠ .empty ∧ p ≠ .stale := by
    unfold IsFree at hp
    tauto
  have hkind : (if i.dIn.error && x.s.r1.issued then Kind.wait else k) = .none ↔ k = .none := by
    split_ifs with hi
    · have : k ≠ .none := by
        rintro rfl
        have hn : x.s.r1.issued = false := h.one.issued
        rw [hn, Bool.and_false] at hi
        cases hi
      simp [this]
    · rfl
  obtain ⟨hcm, hr3⟩ := complete_false_of_kept h.two hp hc
  have hv : i.lIn.valid = false := by
    by_contra hv
    have := (l2stall_false_of_busy (hc.notBusy (by simpa using hv))).1
    rw [hl] at this
    cases this
  refine ⟨_, hat, h1, ?_, ?_, ?_, ?_, ?_⟩
  · exact hr0.trans (by rw [← hiss]; rfl)
  · exact fun hq => hiss.trans (hquiet hq)
  · intro _ hnf
    rw [hflags] at hnf
    obtain ⟨hk, htag, hreg⟩ := h.cont hne.1 hnf
    have hreq' : (Sys.step hasFpu x i).s.r1.req = x.s.r1.req := hreq
    rw [hreq']
    exact ⟨fun hn => hk (hkind.mp hn), (congrArg Flags.instrTag hflags).trans htag,
      (congrArg Flags.writeReg hflags).trans hreg⟩
  · rw [flushing_step, he, hreq, ne_eq, hkind]
    change (_ ↔ p' = .align ∨ (k ≠ .none ∧ (r1in hasFpu x.s i).req.alignIntr = true))
    rw [hreq]
    have hfl := h.flushing
    simp only [hpa.1, hpa.2, false_or, Bool.not_false, Bool.and_true, Bool.or_eq_true,
      Bool.and_eq_true] at hfl ⊢
    rw [hfl]
    constructor
    · rintro (hk | ⟨hv, ha | ha⟩)
      · exact hk
      · refine ⟨?_, ha⟩
        rintro rfl
        rw [h.one.valid] at hv
        cases hv
      · have hk : k ≠ .none := by
          rintro rfl
          rw [h.one.valid] at hv
          cases hv
        rw [h.one.dawr hk] at ha
        cases ha
    · exact Or.inl
  · have hx : (Sys.step hasFpu x i).q = x.q := by
      simp [Sys.step, leaving, he, hcm, hv]
    have hq := h.queue
    unfold owners at hq ⊢
    have hold : holds2 x p = !x.s.r2.req.flags.nonfinal := by
      simp [holds2, hne, hr3]
    rw [hold] at hq
    have hreq' : (Sys.step hasFpu x i).s.r1.req = x.s.r1.req := hreq
    rw [hx, hhold, hreq']
    cases hnf : x.s.r2.req.flags.nonfinal
    · rw [hnf] at hq
      simp only [Bool.not_false, if_true, List.singleton_append, List.forall₂_cons_left_iff] at hq ⊢
      obtain ⟨l, rest, ho, hr, hcons⟩ := hq
      exact ⟨l, rest, owns_of_flags hflags ho, hr, hcons⟩
    · rw [hnf] at hq
      exact hq

/-- While stage 2 keeps its request, only that request can go to the dcache, after a walk. -/
theorem r0_step_kept (h : At p x) (hl : l2stall x.s i = true) (hs : i.lIn.e2stall = false)
    (hst : i.dcStall = false) :
    (Dc.step hasFpu x i).r0 = if p = .walk ∧ i.mIn.done = true then .again else .empty := by
  by_cases hw : p = .walk
  · subst hw
    have hen : x.s.r3.stage1En = false := h.stage1En
    have hdc : x.s.r2.req.dcReq = true := h.dcReq (by decide)
    have ht : x.s.r2.req.tlbie = false := (h.ok (by decide)).noTlbie
    simp [Dc.step, hst, hs, dOut, hen, retry, hdc, ht]
  · have hen : x.s.r3.stage1En = true := by
      rw [h.stage1En]
      simpa using hw
    simp [Dc.step, hst, hs, dOut, hen, stage1Dcreq, advance, hl, hw]

/-- An interrupt of stage 2 is an interrupt. -/
theorem stage2Interrupt_of_exception (he : exception x.s i = false) :
    stage2Interrupt x.s i = false ∧ errorIntr x.s i = false ∧ i.mIn.err = false ∧
    hashchkTrap x.s i = false := by
  simp only [exception, Bool.or_eq_false_iff] at he
  obtain ⟨⟨⟨ht, ha⟩, he⟩, hm⟩ := he
  exact ⟨by simp [stage2Interrupt, ha, he, hm], he, hm, ht⟩

/-- The dcache has no answer yet. -/
theorem Inv.ask_stalled (h : Inv .ask k x) (hc : Contract x i) (he : exception x.s i = false)
    (hv : i.dIn.valid = false) (her : i.dIn.error = false) (hst : i.dcStall = true) :
    ∃ k', Inv .ask k' (Sys.step hasFpu x i) := by
  have hp : ¬ IsFree .ask x i := by simp [IsFree, hv]
  have hat := h.two
  have hs := h.no_e2stall hc (by decide)
  obtain ⟨hn, -, -, -⟩ := stage2Interrupt_of_exception he
  obtain ⟨hd, hm⟩ := hat.noMmu hc rfl
  obtain ⟨hcm, hr3⟩ := complete_false_of_kept hat hp hc
  obtain ⟨e1, e2, e3, -⟩ := @r3in_eq i x.s
  have hop := hat.mmuOpReq
  have hbusy : x.s.r2.busy = x.s.r2.req.hashcmp := by
    rw [hat.busy]
    simp [Phase.busy, Phase.isOp]
  have hwait : x.s.r2.waitMmu = false := hat.waitMmu
  have hc' : (r3in x.s i).complete = false := by rw [e2, hv, hd]; rfl
  obtain ⟨hat', hflags⟩ :=
    @At.keep hasFpu x i .ask hat (by decide) (stage2Free_of_kept hat hc hp) hn
    (by rw [hwait]; rfl) .ask (by decide) (by decide) rfl rfl rfl (by rintro ⟨⟩) (Or.inl rfl)
    (by rw [her, hv, hbusy, hwait]; cases x.s.r2.req.hashcmp <;> rfl)
    (by rw [her, hwait]; rfl)
    (by simpa [Dc.step, hst] using hat.slot)
    (by rw [mmu_step, hop, hat.mmu, her]; rfl)
    (by rw [e1, hd, hm, hop, her, hat.state]; rfl)
    (by rw [e3, hd, hm, her, hat.stage1En]; rfl)
    (by rw [hc']; rintro ⟨⟩)
  refine h.of_kept hp hc he hat' hflags (by decide) ?_ (by simp) ?_
  · have := h.r0
    simpa [Dc.step, hst, her] using this
  · have hc'' : (Sys.step hasFpu x i).s.r3.complete = false := hc'
    simp [holds2, hflags, hc'']

/-- There is no translation for the request in stage 2, and it goes to the MMU. -/
theorem Inv.ask_error (h : Inv .ask k x) (hc : Contract x i) (he : exception x.s i = false)
    (hv : i.dIn.valid = false) (her : i.dIn.error = true) (hst : i.dcStall = false) :
    ∃ k', Inv .walk k' (Sys.step hasFpu x i) := by
  have hp : ¬ IsFree .ask x i := by simp [IsFree, hv]
  have hat := h.two
  have hs := h.no_e2stall hc (by decide)
  obtain ⟨hn, hei, -, -⟩ := stage2Interrupt_of_exception he
  obtain ⟨hd, hm⟩ := hat.noMmu hc rfl
  obtain ⟨e1, e2, e3, -⟩ := @r3in_eq i x.s
  have hop := hat.mmuOpReq
  have hwait : x.s.r2.waitMmu = false := hat.waitMmu
  have hc' : (r3in x.s i).complete = false := by rw [e2, hv, hd]; rfl
  obtain ⟨hat', hflags⟩ :=
    @At.keep hasFpu x i .ask hat (by decide) (stage2Free_of_kept hat hc hp) hn
    (by rw [hwait]; rfl) .walk (by decide) (by decide) rfl rfl rfl (by rintro ⟨⟩) (Or.inl rfl)
    (by rw [her]; rfl)
    (by rw [her]; rfl)
    (by simp [Dc.step, hst, her])
    (by rw [mmu_step, her, hei]; simp [Phase.mmuOwes])
    (by rw [e1, hd, hm, her, hei]; simp [Phase.mmuOwes])
    (by rw [e3, hd, hm, her, hei]; rfl)
    (by rw [hc']; rintro ⟨⟩)
  refine h.of_kept hp hc he hat' hflags (by decide) ?_ (by simp [her]) ?_
  · rw [r0_step_kept hat (l2stall_of_kept hat hc hp) hs hst]
    simp [her]
  · have hc'' : (Sys.step hasFpu x i).s.r3.complete = false := hc'
    simp [holds2, hflags, hc'']

/-- A `hashchk` has been answered. -/
theorem Inv.ask_hashchk (h : Inv .ask k x) (hc : Contract x i) (hsound : Sound x i)
    (he : exception x.s i = false) (hv : i.dIn.valid = true)
    (hh : x.s.r2.req.hashcmp = true) : ∃ k', Inv .stale k' (Sys.step hasFpu x i) := by
  have hp : ¬ IsFree .ask x i := by simp [IsFree, hh]
  have hat := h.two
  have hs := h.no_e2stall hc (by decide)
  have hslot : x.dc.r1 ≠ .empty := fun hs => hat.slot.mp hs rfl
  obtain ⟨her, hst⟩ : i.dIn.error = false ∧ i.dcStall = false := by
    rcases hc.answers hslot with ⟨-, h1, h2⟩ | ⟨h1, -⟩ | ⟨h1, -⟩
    · exact ⟨h1, h2⟩
    · rw [hv] at h1; cases h1
    · rw [hv] at h1; cases h1
  have hiss := hsound.hashAlone hv hh
  obtain ⟨hn, -, -, htrap⟩ := stage2Interrupt_of_exception he
  obtain ⟨hd, hm⟩ := hat.noMmu hc rfl
  obtain ⟨e1, e2, e3, -⟩ := @r3in_eq i x.s
  have hop := hat.mmuOpReq
  have hwait : x.s.r2.waitMmu = false := hat.waitMmu
  have hr0 : x.dc.r0 = .empty := by
    rw [h.r0, hiss]
    rfl
  have hc' : (r3in x.s i).complete = true := by rw [e2, hv, hh, htrap]; rfl
  obtain ⟨hat', hflags⟩ :=
    @At.keep hasFpu x i .ask hat (by decide) (stage2Free_of_kept hat hc hp) hn
    (by rw [hwait]; rfl) .stale (by decide) (by decide) rfl rfl rfl (fun _ => hh) (Or.inr hh)
    (by rw [her, hv, hwait]; cases x.s.r2.busy <;> simp [Phase.busy, Phase.isOp])
    (by rw [her, hwait]; rfl)
    (by simp [Dc.step, hst, her, hs, hr0])
    (by rw [mmu_step, hop, hat.mmu, her]; rfl)
    (by rw [e1, hd, hm, hop, her, hat.state]; rfl)
    (by rw [e3, hd, hm, her, hat.stage1En]; rfl)
    (fun _ => Or.inr rfl)
  refine h.of_kept hp hc he hat' hflags (by decide) ?_ (by simp [hiss]) ?_
  · rw [r0_step_kept hat (l2stall_of_kept hat hc hp) hs hst]
    simp [hiss]
  · have hc'' : (Sys.step hasFpu x i).s.r3.complete = true := hc'
    simp [holds2, hc'', nonfinal_of_hashcmp (hat.ok (by decide)) hh]

/-- The MMU looks for a translation, or has found one. -/
theorem Inv.walk_step (h : Inv .walk k x) (hc : Contract x i) (he : exception x.s i = false) :
    ∃ k', Inv (if i.mIn.done then .retry else .walk) k' (Sys.step hasFpu x i) := by
  have hp : ¬ IsFree .walk x i := by simp [IsFree]
  have hat := h.two
  have hs := h.no_e2stall hc (by decide)
  obtain ⟨hv, her, -⟩ := hat.silent hc (by decide)
  obtain ⟨hn, hei, hm, -⟩ := stage2Interrupt_of_exception he
  obtain ⟨e1, e2, e3, -⟩ := @r3in_eq i x.s
  have hop := hat.mmuOpReq
  have hbusy : x.s.r2.busy = true := hat.busy
  have hwait : x.s.r2.waitMmu = true := hat.waitMmu
  have hmop : x.s.r2.req.mmuOp = false := hat.mmuOp (by decide)
  have hdc : x.s.r2.req.dcReq = true := hat.dcReq (by decide)
  have hiss : x.s.r1.issued = false := h.quiet (by simp)
  have hr0 : x.dc.r0 = .empty := by
    rw [h.r0, hiss]
    rfl
  have hslot : x.dc.r1 = .empty := hat.slot.mpr (by decide)
  have hc' : (r3in x.s i).complete = false := by
    rw [e2, hv, hdc]
    simp
  have hc'' : (Sys.step hasFpu x i).s.r3.complete = false := hc'
  have hnr1 : (Dc.step hasFpu x i).r1 = .empty := by
    simp [Dc.step, hs, her, hr0, hslot]
  cases hd : i.mIn.done
  · obtain ⟨hat', hflags⟩ := @At.keep hasFpu x i .walk hat (by decide)
      (stage2Free_of_kept hat hc hp) hn (by rw [hd, hmop]; simp) .walk (by decide) (by decide) rfl
      rfl rfl (by rintro ⟨⟩) (Or.inl rfl) (by rw [her, hbusy, hwait]; rfl)
        (by rw [her, hwait, hd]; rfl)
      (by simp [hnr1])
      (by rw [mmu_step, hop, hat.mmu, her, hd, hm]; rfl)
      (by rw [e1, hd, hm, hop, her, hat.state]; rfl)
      (by rw [e3, hd, hm, her, hat.stage1En]; rfl)
      (by rw [hc']; rintro ⟨⟩)
    refine h.of_kept hp hc he hat' hflags (by decide) ?_ (by simp [hiss]) ?_
    · cases hst : i.dcStall
      · rw [r0_step_kept hat (l2stall_of_kept hat hc hp) hs hst]
        simp [hd, hiss]
      · simp [Dc.step, hst, hr0, hiss]
    · simp [holds2, hflags, hc'']
  · have hst : i.dcStall = false := by
      by_contra hst
      have := ((hc.silent hslot).2.2 (by simpa using hst)).2.1
      rw [hd] at this
      cases this
    obtain ⟨hat', hflags⟩ := @At.keep hasFpu x i .walk hat (by decide)
      (stage2Free_of_kept hat hc hp) hn (by rw [hd, hmop]; simp) .retry (by decide) (by decide) rfl
      rfl rfl (by rintro ⟨⟩) (Or.inl rfl) (by rw [her, hbusy, hwait]; rfl)
        (by rw [her, hwait, hd]; rfl)
      (by simp [hnr1])
      (by rw [mmu_step, hop, hat.mmu, her, hd, hm]; rfl)
      (by rw [e1, hd, hm]; rfl)
      (by rw [e3, hd, hm]; rfl)
      (by rw [hc']; rintro ⟨⟩)
    refine h.of_kept hp hc he hat' hflags (by decide) ?_ (by simp [hiss]) ?_
    · rw [r0_step_kept hat (l2stall_of_kept hat hc hp) hs hst]
      simp [hd]
    · simp [holds2, hflags, hc'']

/-- The request that has been sent again moves on in the dcache. -/
theorem Inv.retry_step (h : Inv .retry k x) (hc : Contract x i) (he : exception x.s i = false) :
    ∃ k', Inv .ask k' (Sys.step hasFpu x i) := by
  have hp : ¬ IsFree .retry x i := by simp [IsFree]
  have hat := h.two
  have hs := h.no_e2stall hc (by decide)
  obtain ⟨hv, her, hst⟩ := hat.silent hc (by decide)
  replace hst : i.dcStall = false := hst rfl (by decide)
  obtain ⟨hn, hei, -, -⟩ := stage2Interrupt_of_exception he
  obtain ⟨hd, hm⟩ := hat.noMmu hc rfl
  obtain ⟨e1, e2, e3, -⟩ := @r3in_eq i x.s
  have hop := hat.mmuOpReq
  have hbusy : x.s.r2.busy = true := hat.busy
  have hwait : x.s.r2.waitMmu = false := hat.waitMmu
  have hiss : x.s.r1.issued = false := h.quiet (by simp)
  have hr0 : x.dc.r0 = .again := h.r0
  have hc' : (r3in x.s i).complete = false := by rw [e2, hv, hd]; rfl
  obtain ⟨hat', hflags⟩ := @At.keep hasFpu x i .retry hat (by decide)
    (stage2Free_of_kept hat hc hp) hn
    (by rw [hwait]; rfl) .ask (by decide) (by decide) rfl rfl rfl (by rintro ⟨⟩) (Or.inl rfl)
    (by rw [her, hv, hbusy, hwait]; cases x.s.r2.req.hashcmp <;> rfl)
    (by rw [her, hwait]; rfl)
    (by simp [Dc.step, hst, her, hs, hr0])
    (by rw [mmu_step, hop, hat.mmu, her]; rfl)
    (by rw [e1, hd, hm, hop, her, hat.state]; rfl)
    (by rw [e3, hd, hm, her, hat.stage1En]; rfl)
    (by rw [hc']; rintro ⟨⟩)
  refine h.of_kept hp hc he hat' hflags (by decide) ?_ (by simp) ?_
  · rw [r0_step_kept hat (l2stall_of_kept hat hc hp) hs hst]
    simp [hiss]
  · have hc'' : (Sys.step hasFpu x i).s.r3.complete = false := hc'
    simp [holds2, hflags, hc'']

/-- A request goes to the MMU. -/
theorem Inv.op0_step (h : Inv .op0 k x) (hc : Contract x i) (he : exception x.s i = false) :
    ∃ k', Inv .op k' (Sys.step hasFpu x i) := by
  have hp : ¬ IsFree .op0 x i := by simp [IsFree]
  have hat := h.two
  have hs := h.no_e2stall hc (by decide)
  obtain ⟨hv, her, -⟩ := hat.silent hc (by decide)
  obtain ⟨hn, hei, -, -⟩ := stage2Interrupt_of_exception he
  obtain ⟨hd, hm⟩ := hat.noMmu hc rfl
  obtain ⟨e1, e2, e3, -⟩ := @r3in_eq i x.s
  have hop := hat.mmuOpReq
  have hbusy : x.s.r2.busy = true := hat.busy
  have hwait : x.s.r2.waitMmu = true := hat.waitMmu
  have hiss : x.s.r1.issued = false := h.quiet (by simp)
  have hr0 : x.dc.r0 = .empty := by
    rw [h.r0, hiss]
    rfl
  have hslot : x.dc.r1 = .empty := hat.slot.mpr (by decide)
  have hc' : (r3in x.s i).complete = false := by rw [e2, hv, hd]; rfl
  obtain ⟨hat', hflags⟩ := @At.keep hasFpu x i .op0 hat (by decide)
    (stage2Free_of_kept hat hc hp) hn
    (by rw [hd]; simp) .op (by decide) (by decide) rfl rfl rfl (by rintro ⟨⟩) (Or.inl rfl)
    (by rw [her, hbusy, hwait]; rfl)
    (by rw [her, hwait, hd]; rfl)
    (by simp [Dc.step, hs, her, hr0, hslot])
    (by rw [mmu_step, hop, hat.mmu, her]; rfl)
    (by rw [e1, hd, hm, hop]; rfl)
    (by rw [e3, hd, hm, her, hat.stage1En]; rfl)
    (by rw [hc']; rintro ⟨⟩)
  refine h.of_kept hp hc he hat' hflags (by decide) ?_ (by simp [hiss]) ?_
  · cases hst : i.dcStall
    · rw [r0_step_kept hat (l2stall_of_kept hat hc hp) hs hst]
      simp [hiss]
    · simp [Dc.step, hst, hr0, hiss]
  · have hc'' : (Sys.step hasFpu x i).s.r3.complete = false := hc'
    simp [holds2, hflags, hc'']

/-- The MMU works on a request, or has done it. -/
theorem Inv.op_step (h : Inv .op k x) (hc : Contract x i) (he : exception x.s i = false) :
    ∃ k', Inv (if i.mIn.done then .empty else .op) k' (Sys.step hasFpu x i) := by
  have hp : ¬ IsFree .op x i := by simp [IsFree]
  have hat := h.two
  have hs := h.no_e2stall hc (by decide)
  obtain ⟨hv, her, -⟩ := hat.silent hc (by decide)
  obtain ⟨hn, hei, hm, -⟩ := stage2Interrupt_of_exception he
  obtain ⟨e1, e2, e3, -⟩ := @r3in_eq i x.s
  have hop := hat.mmuOpReq
  have hbusy : x.s.r2.busy = true := hat.busy
  have hwait : x.s.r2.waitMmu = true := hat.waitMmu
  have hmop : x.s.r2.req.mmuOp = true := hat.mmuOp (by decide)
  have hdc : x.s.r2.req.dcReq = false := hat.dcReq (by decide)
  have hiss : x.s.r1.issued = false := h.quiet (by simp)
  have hr0 : x.dc.r0 = .empty := by
    rw [h.r0, hiss]
    rfl
  have hslot : x.dc.r1 = .empty := hat.slot.mpr (by decide)
  have hnr1 : (Dc.step hasFpu x i).r1 = .empty := by
    simp [Dc.step, hs, her, hr0, hslot]
  have hnr0 : (Dc.step hasFpu x i).r0 = .empty := by
    cases hst : i.dcStall
    · rw [r0_step_kept hat (l2stall_of_kept hat hc hp) hs hst]
      rfl
    · simp [Dc.step, hst, hr0]
  have hc' : (Sys.step hasFpu x i).s.r3.complete = i.mIn.done := by
    refine e2.trans ?_
    rw [hv, hdc]
    simp
  cases hd : i.mIn.done
  · obtain ⟨hat', hflags⟩ := @At.keep hasFpu x i .op hat (by decide)
      (stage2Free_of_kept hat hc hp) hn (by rw [hd]; simp) .op (by decide) (by decide) rfl
      rfl rfl (by rintro ⟨⟩) (Or.inl rfl) (by rw [her, hbusy, hwait]; rfl)
        (by rw [her, hwait, hd]; rfl)
      (by simp [hnr1])
      (by rw [mmu_step, hop, hat.mmu, her, hd, hm]; rfl)
      (by rw [e1, hd, hm, hop, her, hat.state]; rfl)
      (by rw [e3, hd, hm, her, hat.stage1En]; rfl)
      (by rw [e2, hv, hd]; rintro ⟨⟩)
    refine h.of_kept hp hc he hat' hflags (by decide) ?_ (by simp [hiss]) ?_
    · rw [hnr0, hiss]
      rfl
    · rw [hd] at hc'
      simp [holds2, hflags, hc']
  · -- the request ends; its tag and register stay in stage 2 for one more cycle
    obtain ⟨c1, c2, c3, c4, c5, c6⟩ := r2in_kept (stage2Free_of_kept hat hc hp)
    rw [hn, hwait, hd, hmop] at c2 c3
    rw [hn, hat.waitDc] at c4
    rw [hn, her, hwait, hd] at c5
    have hat' : At .empty (Sys.step hasFpu x i) := by
      apply at_empty
      · refine c2.trans ?_
        cases x.s.r2.req.valid <;> rfl
      · refine c3.trans ?_
        rw [her]
        cases x.s.r2.busy <;> rfl
      · exact c4
      · exact c5
      · refine c6.trans ?_
        rw [hat.oneCycle]
        rfl
      · exact hnr1
      · rw [mmu_step, hop, hd, her]
        simp
      · refine e1.trans ?_
        rw [hd]
        rfl
      · refine e3.trans ?_
        rw [hd]
        rfl
    refine h.of_kept hp hc he hat' c1 (by decide) ?_ (by simp [hiss]) ?_
    · rw [hnr0, hiss]
      rfl
    · rw [hd] at hc'
      simp [holds2, hc', nonfinal_false_of_dcReq hdc]

/-! ### Interrupts -/

/-- An interrupt empties the unit. -/
theorem Inv.of_exception (he : exception x.s i = true) {p' : Phase}
    (hp' : p' = .empty ∨ p' = .stale) (hat : At p' (Sys.step hasFpu x i))
    (hcomp : (r3in x.s i).complete = false) (hr0 : (Dc.step hasFpu x i).r0 = .empty) :
    Inv p' .none (Sys.step hasFpu x i) := by
  have h1 := @stage1Is_exception hasFpu x.s i he
  have hiss : (r1in hasFpu x.s i).issued = false := h1.issued
  have hv : (Sys.step hasFpu x i).s.r1.req.valid = false := h1.valid
  have hc : (Sys.step hasFpu x i).s.r3.complete = false := hcomp
  refine ⟨hat, h1, ?_, fun _ => hiss, ?_, ?_, ?_⟩
  · have hne : p' ≠ .retry := by rcases hp' with rfl | rfl <;> decide
    rw [if_neg hne]
    exact hr0.trans (by rw [show (Sys.step hasFpu x i).s.r1.issued = false from hiss]; rfl)
  · -- only a `hashchk` can be left behind, and it has one part
    intro hne hn
    obtain rfl : p' = .stale := by
      rcases hp' with rfl | rfl
      · exact absurd rfl hne
      · rfl
    rw [nonfinal_of_hashcmp (hat.ok hne) (hat.hashcmp.1 rfl)] at hn
    cases hn
  · rw [flushing_step, he]
    rcases hp' with rfl | rfl <;> simp
  · have hq : (Sys.step hasFpu x i).q = [] := by simp [Sys.step, he]
    have ho : owners (Sys.step hasFpu x i) p' = [] := by
      unfold owners holds2
      rw [hv, hc]
      rcases hp' with rfl | rfl <;> rfl
    rw [hq, ho]
    exact List.Forall₂.nil

theorem Inv.align_step (h : Inv .align k x) (hc : Contract x i) :
    exception x.s i = true ∧ Inv .empty .none (Sys.step hasFpu x i) := by
  have hp : ¬ IsFree .align x i := by simp [IsFree]
  have hat := h.two
  have hs := h.no_e2stall hc (by decide)
  obtain ⟨hv, her, hst⟩ := hat.silent hc (by decide)
  replace hst : i.dcStall = false := hst rfl (by decide)
  obtain ⟨hd, hm⟩ := hat.noMmu hc rfl
  obtain ⟨e1, e2, e3, -⟩ := @r3in_eq i x.s
  have hval : x.s.r2.req.valid = true := hat.valid
  have hal : x.s.r2.req.alignIntr = true := hat.alignIntr (by decide)
  have hn : stage2Interrupt x.s i = true := by simp [stage2Interrupt, hval, hal]
  have he : exception x.s i = true := by simp [exception, hval, hal]
  have hop := hat.mmuOpReq
  have hiss : x.s.r1.issued = false := h.quiet (by simp)
  have hr0 : x.dc.r0 = .empty := by
    rw [h.r0, hiss]
    rfl
  have hc' : (r3in x.s i).complete = false := by rw [e2, hv, hd]; rfl
  have hat' := @At.interrupted hasFpu x i .align hat (stage2Free_of_kept hat hc hp) hn (by decide)
    (by simp [Dc.step, hst, hs, her, hr0])
    (by rw [mmu_step, hop, hat.mmu, her]; rfl)
    (by rw [e1, hd, hm, hop, her, hat.state]; rfl)
    (by rw [e3, hd, hm, her, hat.stage1En]; rfl)
  refine ⟨he, Inv.of_exception he (Or.inl rfl) hat' hc' ?_⟩
  rw [r0_step_kept hat (l2stall_of_kept hat hc hp) hs hst]
  rfl

/-- The MMU finds no translation, or refuses a request. -/
theorem Inv.mmu_error (h : Inv p k x) (hp : p = .walk ∨ p = .op) (hc : Contract x i)
    (hm : i.mIn.err = true) : Inv .empty .none (Sys.step hasFpu x i) := by
  have hkept : ¬ IsFree p x i := by rcases hp with rfl | rfl <;> simp [IsFree]
  have hat := h.two
  have hs := h.no_e2stall hc (by rcases hp with rfl | rfl <;> decide)
  have hask : p ≠ .ask := by rcases hp with rfl | rfl <;> decide
  have hslot : x.dc.r1 = .empty := hat.slot.mpr hask
  obtain ⟨hv, her, hst⟩ := hc.silent hslot
  replace hst : i.dcStall = false := by
    by_contra hn
    have := (hst (by simpa using hn)).2.2
    rw [hm] at this
    cases this
  have hd : i.mIn.done = false := by
    by_contra hd
    have := hc.mmuOnce (by simpa using hd)
    rw [hm] at this
    cases this
  obtain ⟨e1, e2, e3, -⟩ := @r3in_eq i x.s
  have hn : stage2Interrupt x.s i = true := by simp [stage2Interrupt, hm]
  have he : exception x.s i = true := by simp [exception, hm]
  have hop : mmuOpReq x.s = false := by
    rw [hat.mmuOpReq]
    rcases hp with rfl | rfl <;> rfl
  have hiss : x.s.r1.issued = false := h.quiet (by rcases hp with rfl | rfl <;> simp)
  have hr0 : x.dc.r0 = .empty := by
    rw [h.r0, hiss]
    rcases hp with rfl | rfl <;> rfl
  have hc' : (r3in x.s i).complete = false := by rw [e2, hv, hd]; rfl
  have hat' := @At.interrupted hasFpu x i p hat (stage2Free_of_kept hat hc hkept) hn
    (by rcases hp with rfl | rfl <;> decide)
    (by simp [Dc.step, hst, hs, her, hr0])
    (by rw [mmu_step, hop, her, hm]; simp)
    (by rw [e1, hm]; simp)
    (by rw [e3, hm]; simp)
  refine Inv.of_exception he (Or.inl rfl) hat' hc' ?_
  rw [r0_step_kept hat (l2stall_of_kept hat hc hkept) hs hst, hd]
  simp

/-- The dcache refuses the request of stage 2 for good. -/
theorem Inv.ask_refused (h : Inv .ask k x) (hc : Contract x i) (hei : errorIntr x.s i = true) :
    Inv .empty .none (Sys.step hasFpu x i) := by
  have hat := h.two
  have hs := h.no_e2stall hc (by decide)
  have her : i.dIn.error = true := by
    simp only [errorIntr, Bool.and_eq_true] at hei
    exact hei.1
  have hslot : x.dc.r1 ≠ .empty := fun hs => hat.slot.mp hs rfl
  obtain ⟨hv, hst⟩ : i.dIn.valid = false ∧ i.dcStall = false := by
    rcases hc.answers hslot with ⟨-, h1, -⟩ | ⟨h1, -, h2⟩ | ⟨-, h1, -⟩
    · rw [her] at h1; cases h1
    · exact ⟨h1, h2⟩
    · rw [her] at h1; cases h1
  have hp : ¬ IsFree .ask x i := by simp [IsFree, hv]
  obtain ⟨hd, hm⟩ := hat.noMmu hc rfl
  obtain ⟨e1, e2, e3, -⟩ := @r3in_eq i x.s
  have hn : stage2Interrupt x.s i = true := by simp [stage2Interrupt, hei]
  have he : exception x.s i = true := by simp [exception, hei]
  have hop := hat.mmuOpReq
  have hc' : (r3in x.s i).complete = false := by rw [e2, hv, hd]; rfl
  have hat' := @At.interrupted hasFpu x i .ask hat (stage2Free_of_kept hat hc hp) hn (by decide)
    (by simp [Dc.step, hst, her])
    (by rw [mmu_step, hop, hat.mmu, hei, Bool.not_true, Bool.and_false]; rfl)
    (by rw [e1, hd, hm, hop, hei, hat.state, Bool.not_true, Bool.and_false]; rfl)
    (by rw [e3, hd, hm, hei, hat.stage1En, Bool.not_true, Bool.and_false]; rfl)
  refine Inv.of_exception he (Or.inl rfl) hat' hc' ?_
  rw [r0_step_kept hat (l2stall_of_kept hat hc hp) hs hst]
  rfl

/-- A `hashchk` traps; its request stays behind in stage 2. -/
theorem Inv.ask_trap (h : Inv .ask k x) (hc : Contract x i) (hsound : Sound x i)
    (htrap : hashchkTrap x.s i = true) : Inv .stale .none (Sys.step hasFpu x i) := by
  have hat := h.two
  have hs := h.no_e2stall hc (by decide)
  obtain ⟨hv, hh⟩ : i.dIn.valid = true ∧ x.s.r2.req.hashcmp = true := by
    simp only [hashchkTrap, Bool.and_eq_true] at htrap
    exact htrap.1
  have hp : ¬ IsFree .ask x i := by simp [IsFree, hh]
  have hslot : x.dc.r1 ≠ .empty := fun hs => hat.slot.mp hs rfl
  obtain ⟨her, hst⟩ : i.dIn.error = false ∧ i.dcStall = false := by
    rcases hc.answers hslot with ⟨-, h1, h2⟩ | ⟨h1, -⟩ | ⟨h1, -⟩
    · exact ⟨h1, h2⟩
    · rw [hv] at h1; cases h1
    · rw [hv] at h1; cases h1
  have hiss := hsound.hashAlone hv hh
  obtain ⟨hd, hm⟩ := hat.noMmu hc rfl
  obtain ⟨e1, e2, e3, -⟩ := @r3in_eq i x.s
  have hal : x.s.r2.req.alignIntr = false := hat.alignIntr (by decide)
  have hn : stage2Interrupt x.s i = false := by simp [stage2Interrupt, hal, errorIntr, her, hm]
  have he : exception x.s i = true := by simp [exception, htrap]
  have hop := hat.mmuOpReq
  have hwait : x.s.r2.waitMmu = false := hat.waitMmu
  have hr0 : x.dc.r0 = .empty := by
    rw [h.r0, hiss]
    rfl
  have hc' : (r3in x.s i).complete = false := by
    rw [e2, htrap, hd]
    simp
  obtain ⟨hat', -⟩ := @At.keep hasFpu x i .ask hat (by decide) (stage2Free_of_kept hat hc hp) hn
    (by rw [hwait]; rfl) .stale (by decide) (by decide) rfl rfl rfl (fun _ => hh) (Or.inr hh)
    (by rw [her, hv, hwait]; cases x.s.r2.busy <;> simp [Phase.busy, Phase.isOp])
    (by rw [her, hwait]; rfl)
    (by simp [Dc.step, hst, her, hs, hr0])
    (by rw [mmu_step, hop, hat.mmu, her]; rfl)
    (by rw [e1, hd, hm, hop, her, hat.state]; rfl)
    (by rw [e3, hd, hm, her, hat.stage1En]; rfl)
    (fun _ => Or.inr rfl)
  refine Inv.of_exception he (Or.inr rfl) hat' hc' ?_
  rw [r0_step_kept hat (l2stall_of_kept hat hc hp) hs hst]
  rfl

/-- The FPU holds up the second stages. -/
theorem Inv.step_e2stall (h : Inv p k x) (hc : Contract x i) (hs : i.lIn.e2stall = true) :
    p = .empty ∧ k = .none ∧ Inv .empty .none (Sys.step hasFpu x i) := by
  obtain ⟨hv, hr1, hr2⟩ := hc.e2stall hs
  obtain rfl : p = .empty := by
    rw [h.two.valid] at hr2
    simpa using hr2
  obtain rfl : k = .none := by
    rw [h.one.valid] at hr1
    simpa using hr1
  refine ⟨rfl, rfl, ?_⟩
  have hp : IsFree .empty x i := Or.inl rfl
  have hfree := h.two.free hc hp
  have he := hfree.exception_false
  have hl := hfree.l2stall_false
  have hrest := h.queue_rest hp he
  have h1 := @stage1Is_idle hasFpu x.s i h.one.busy he hl hv
  have hiss : (r1in hasFpu x.s i).issued = false := h1.issued
  have hr0 : x.dc.r0 = .empty := by
    rw [h.r0, show x.s.r1.issued = false from h.one.issued]
    rfl
  obtain ⟨f1, f2, f3, f4⟩ := @Free.stage3 hasFpu x i hfree
  have hno : stage2Free x.s i = false := by simp [stage2Free, hs]
  obtain ⟨-, c2, c3, c4, c5, c6⟩ := r2in_kept hno
  have hn := hfree.stage2Interrupt_false
  rw [hn] at c2 c3 c4 c5
  have hat : At .empty (Sys.step hasFpu x i) := by
    apply at_empty _ _ _ _ _ _ f4 f1 f3
    · refine c2.trans ?_
      rw [hr2]
      rfl
    · refine c3.trans ?_
      rw [hfree.error, hfree.busy]
      rfl
    · refine c4.trans ?_
      rw [h.two.waitDc]
      rfl
    · refine c5.trans ?_
      rw [hfree.error, hfree.waitMmu]
      rfl
    · exact c6.trans h.two.oneCycle
    · simp [Sys.step, Dc.step, hfree.stall, hs]
  refine ⟨hat, h1, ?_, fun _ => hiss, fun hne => absurd rfl hne, ?_, ?_⟩
  · have hr0' : (Dc.step hasFpu x i).r0 = .empty := by simp [Dc.step, hs, hr0]
    have hiss' : (Sys.step hasFpu x i).s.r1.issued = false := hiss
    rw [hiss']
    exact hr0'
  · have hv1 : (r1in hasFpu x.s i).req.valid = false := h1.valid
    have hfl : x.s.flushing = false := by
      by_contra hfl
      rcases h.flushing.mp (by simpa using hfl) with hp | ⟨hk, -⟩
      · cases hp
      · exact hk rfl
    rw [flushing_step, hfl, hv1]
    simp
  · have hq : (Sys.step hasFpu x i).q = x.q.drop (leaving x i) := by
      simp [Sys.step, he, hv]
    have hv1 : (Sys.step hasFpu x i).s.r1.req.valid = false := h1.valid
    have ho : owners (Sys.step hasFpu x i) .empty = [] := by
      unfold owners holds2
      rw [hv1, f2]
      rfl
    rw [hr1] at hrest
    rw [hq, ho]
    exact hrest

/-! ### The invariant holds in every run -/

/-- Either an interrupt empties the unit, or the phases go on as they should. -/
theorem Inv.step (h : Inv p k x) (hc : Contract x i) (hsound : Sound x i) :
    ∃ p' k', Inv p' k' (Sys.step hasFpu x i) := by
  cases hs : i.lIn.e2stall with
  | true => exact ⟨_, _, (h.step_e2stall hc hs).2.2⟩
  | false =>
    by_cases hp : IsFree p x i
    · exact ⟨_, h.step_free hp hc hsound hs⟩
    · cases p with
      | empty => exact absurd (Or.inl rfl) hp
      | stale => exact absurd (Or.inr (Or.inl rfl)) hp
      | one => exact absurd (Or.inr (Or.inr (Or.inl rfl))) hp
      | align => exact ⟨_, _, (h.align_step hc).2⟩
      | ask =>
          cases htrap : hashchkTrap x.s i with
          | true => exact ⟨_, _, h.ask_trap hc hsound htrap⟩
          | false =>
            cases hei : errorIntr x.s i with
            | true => exact ⟨_, _, h.ask_refused hc hei⟩
            | false =>
              obtain ⟨-, hm⟩ := h.two.noMmu hc rfl
              have hal : x.s.r2.req.alignIntr = false := h.two.alignIntr (by decide)
              have he : exception x.s i = false := by simp [exception, htrap, hei, hm, hal]
              have hslot : x.dc.r1 ≠ .empty := fun hs => h.two.slot.mp hs rfl
              rcases hc.answers hslot with ⟨hv, -, -⟩ | ⟨hv, her, hst⟩ | ⟨hv, her, hst⟩
              · have hh : x.s.r2.req.hashcmp = true := by
                  by_contra hh
                  exact hp (Or.inr (Or.inr (Or.inr ⟨rfl, by simpa using hh, hv⟩)))
                exact ⟨_, h.ask_hashchk hc hsound he hv hh⟩
              · exact ⟨_, h.ask_error hc he hv her hst⟩
              · exact ⟨_, h.ask_stalled hc he hv her hst⟩
      | walk =>
          cases hm : i.mIn.err with
          | true => exact ⟨_, _, h.mmu_error (Or.inl rfl) hc hm⟩
          | false =>
              exact ⟨_, h.walk_step hc (h.two.exception_of_silent hc (by decide) (by decide) hm)⟩
      | retry =>
          have hm := (h.two.noMmu hc rfl).2
          exact ⟨_, h.retry_step hc (h.two.exception_of_silent hc (by decide) (by decide) hm)⟩
      | op0 =>
          have hm := (h.two.noMmu hc rfl).2
          exact ⟨_, h.op0_step hc (h.two.exception_of_silent hc (by decide) (by decide) hm)⟩
      | op =>
          cases hm : i.mIn.err with
          | true => exact ⟨_, _, h.mmu_error (Or.inr rfl) hc hm⟩
          | false =>
              exact ⟨_, h.op_step hc (h.two.exception_of_silent hc (by decide) (by decide) hm)⟩

/-! ### What the invariant says of a cycle -/

/-- The request in stage 2 is that of the oldest instruction. -/
theorem Inv.oldest (h : Inv p k x) (hp : p ≠ .empty ∧ p ≠ .stale ∨ x.s.r3.complete = true) :
    ∃ l rest, x.q = l :: rest ∧ Owns x.s.r2.req l := by
  have hq := h.queue
  unfold owners at hq
  cases hh : holds2 x p with
  | true =>
      rw [hh] at hq
      simp only [if_true, List.singleton_append, List.forall₂_cons_left_iff] at hq
      obtain ⟨l, rest, ho, -, hcons⟩ := hq
      exact ⟨l, rest, hcons, ho⟩
  | false =>
      -- stage 1 has the rest of it
      obtain ⟨hnot, hr3⟩ := Bool.or_eq_false_iff.mp hh
      have hp' : p ≠ .empty ∧ p ≠ .stale := by
        rcases hp with hp | hc
        · exact hp
        · rw [hr3] at hc; cases hc
      have hnf : x.s.r2.req.flags.nonfinal = true := by simpa [hp'] using hnot
      obtain ⟨hk, htag, hreg⟩ := h.cont hp'.1 hnf
      rw [hh, h.one.holds, if_neg hk] at hq
      simp only [Bool.false_eq_true, if_false, List.nil_append, List.forall₂_cons_left_iff] at hq
      obtain ⟨l, rest, ho, -, hcons⟩ := hq
      exact ⟨l, rest, hcons, htag.trans ho.1, hreg.trans ho.2⟩

/-- The request in stage 1 is that of an instruction in the unit. -/
theorem Inv.mem_of_stage1 (h : Inv p k x) (hk : k ≠ .none) : ∃ l, l ∈ x.q ∧ Owns x.s.r1.req l := by
  have hq := h.queue
  unfold owners at hq
  rw [h.one.holds, if_neg hk] at hq
  cases hh : holds2 x p with
  | true =>
      rw [hh] at hq
      simp only [if_true, List.singleton_append, List.forall₂_cons_left_iff] at hq
      obtain ⟨_, _, -, ⟨l, rest, ho, -, rfl⟩, hcons⟩ := hq
      exact ⟨l, by simp [hcons], ho⟩
  | false =>
      rw [hh] at hq
      simp only [Bool.false_eq_true, if_false, List.nil_append, List.forall₂_cons_left_iff] at hq
      obtain ⟨l, rest, ho, -, hcons⟩ := hq
      exact ⟨l, by simp [hcons], ho⟩

theorem Inv.kept_of_exception (h : Inv p k x) (hc : Contract x i) (he : exception x.s i = true) :
    ¬ IsFree p x i := by
  intro hp
  rw [(h.two.free hc hp).exception_false] at he
  cases he

/-- A register is written only when the instruction completes. -/
theorem complete_of_writeEnable (h : At p x) (hc : Contract x i) (hw : writeEnable x.s i = true) :
    complete x.s i = true := by
  unfold writeEnable at hw
  split_ifs at hw with hv
  · -- the answer of the dcache to the last part of an access
    rw [Bool.and_eq_true, Bool.not_eq_true'] at hv
    obtain rfl : p = .ask := by
      by_contra hp
      rw [(h.silent hc hp).1] at hv
      cases hv.1
    have hsp : x.s.r2.req.loadSp = false ∧ x.s.r2.req.hashcmp = false := by
      simp only [Bool.or_eq_true, Bool.and_eq_true, Bool.not_eq_true'] at hw
      rcases hw with hw | ⟨-, hst⟩
      · exact ⟨hw.1.1.1.2, hw.2⟩
      · exact (h.ok (by decide)).store hst
    have hnf : x.s.r2.req.flags.nonfinal = false := by
      change (x.s.r2.req.dcReq && (x.s.r2.req.incomplete || x.s.r2.req.loadSp)) = false
      rw [hv.2, hsp.1]
      simp
    unfold complete
    rw [h.waitDc, hv.1, hnf, hsp.2]
    simp [Phase.asks]
  · -- an instruction that takes one cycle
    rw [Bool.and_eq_true] at hw
    have hne : p ≠ .empty := by
      rintro rfl
      rw [h.valid] at hw
      cases hw.1
    have hok := h.ok hne
    have hkind : x.s.r2.req.dcReq = false ∧ x.s.r2.req.mmuOp = false ∧
        x.s.r2.req.alignIntr = false := by
      have hal := hok.align
      have hop := hok.op
      have hpl := hok.plain
      change x.s.r2.req.alignIntr = true → x.s.r2.req.dcReq = false ∧ x.s.r2.req.mmuOp = false ∧
        x.s.r2.req.readSpr = false ∧ x.s.r2.req.doUpdate = false ∧ x.s.r2.req.loadSp = false at hal
      change x.s.r2.req.mmuOp = true → x.s.r2.req.dcReq = false ∧ x.s.r2.req.hashst = false ∧
        x.s.r2.req.hashcmp = false ∧ x.s.r2.req.loadSp = false ∧ x.s.r2.req.readSpr = false ∧
        x.s.r2.req.doUpdate = false ∧ x.s.r2.req.incomplete = false at hop
      change x.s.r2.req.readSpr = true ∨ x.s.r2.req.doUpdate = true →
          x.s.r2.req.dcReq = false at hpl
      have hw2 := hw.2
      revert hal hop hpl hw2
      cases x.s.r2.req.dcReq <;> cases x.s.r2.req.mmuOp <;> cases x.s.r2.req.alignIntr <;>
        cases x.s.r2.req.readSpr <;> cases x.s.r2.req.doUpdate <;> cases x.s.r2.req.loadSp <;> simp
    obtain ⟨hd, hm, ha⟩ := hkind
    rw [h.dcReq hne] at hd
    rw [h.mmuOp hne] at hm
    rw [h.alignIntr hne] at ha
    obtain rfl : p = .one := by
      revert hd hm ha hne
      cases p <;> simp [Phase.asks, Phase.isOp]
    unfold complete
    rw [h.oneCycle]
    rfl

/-- A dcache request is that of an instruction in the unit, or of one that it takes now. -/
theorem Inv.dcache_request (h : Inv p k x) (hc : Contract x i)
    (hv : (dOut hasFpu x.s i).valid = true) : exception x.s i = false ∧
    ∃ l, (l ∈ x.q ∨ i.lIn.valid = true ∧ l = i.lIn) ∧ Owns (sent hasFpu x i) l := by
  unfold sent
  unfold dOut at hv
  cases hen : x.s.r3.stage1En with
  | true =>
      have hreq : stage1Dcreq hasFpu x.s i = true := by simpa [hen] using hv
      simp only [stage1Dcreq, advance, Bool.and_eq_true, Bool.not_eq_true'] at hreq
      obtain ⟨⟨⟨he, hl⟩, hi⟩, -⟩ := hreq
      refine ⟨he, ?_⟩
      rw [if_pos rfl]
      cases hb : x.s.r1.busy with
      | false =>
          rw [@issue_of_not_busy hasFpu x.s i hb, Bool.and_eq_true] at hi
          refine ⟨i.lIn, Or.inr ⟨hi.1, rfl⟩, ?_⟩
          rw [stage1Req_of_not_busy hb]
          exact ⟨rfl, rfl⟩
      | true =>
          have hk : k ≠ .none := by
            rintro rfl
            rw [h.one.busy] at hb
            cases hb
          obtain ⟨l, hl, ho⟩ := h.mem_of_stage1 hk
          refine ⟨l, Or.inl hl, ?_⟩
          unfold stage1Req
          simp only [hb, Bool.not_true, Bool.false_eq_true, if_false]
          split_ifs <;> exact ho
  | false =>
      have hw : p = .walk := by
        rw [h.two.stage1En] at hen
        simpa using hen
      subst hw
      have hd : i.mIn.done = true := by
        have : retry x.s i = true := by simpa [hen] using hv
        simp only [retry, Bool.and_eq_true] at this
        exact this.1
      have hm := hc.mmuOnce hd
      refine ⟨h.two.exception_of_silent hc (by decide) (by decide) hm, ?_⟩
      obtain ⟨l, rest, hq, ho⟩ := h.oldest (Or.inl (by decide))
      exact ⟨l, Or.inl (by simp [hq]), ho⟩

/-- A request for the MMU is that of the oldest instruction. -/
theorem Inv.mmu_request (h : Inv p k x) (hc : Contract x i)
    (hv : (mOut x.s i).valid = true ∨ (mOut x.s i).mtspr = true) : exception x.s i = false ∧
    ∃ l, l ∈ x.q ∧ Owns x.s.r2.req l := by
  have hcase : p = .op0 ∨ (i.dIn.error = true ∧ errorIntr x.s i = false) := by
    have hop := h.two.mmuOpReq
    simp only [mOut, mmureq, Bool.or_eq_true, Bool.and_eq_true, Bool.not_eq_true', hop,
      beq_iff_eq] at hv
    tauto
  have hp : p ≠ .empty ∧ p ≠ .stale := by
    rcases hcase with rfl | ⟨her, -⟩
    · decide
    · constructor
      · rintro rfl
        rw [(h.two.silent hc (by decide)).2.1] at her
        cases her
      · rintro rfl
        rw [(h.two.silent hc (by decide)).2.1] at her
        cases her
  obtain ⟨l, rest, hq, ho⟩ := h.oldest (Or.inl hp)
  refine ⟨?_, l, by simp [hq], ho⟩
  rcases hcase with rfl | ⟨her, hei⟩
  · exact h.two.exception_of_silent hc (by decide) (by decide) (h.two.noMmu hc rfl).2
  · obtain rfl : p = .ask := by
      by_contra hask
      rw [(h.two.silent hc hask).2.1] at her
      cases her
    have hslot : x.dc.r1 ≠ .empty := fun hs => h.two.slot.mp hs rfl
    have hnv : i.dIn.valid = false := by
      rcases hc.answers hslot with ⟨-, h1, -⟩ | ⟨h1, -, -⟩ | ⟨h1, -, -⟩
      · rw [her] at h1; cases h1
      · exact h1
      · exact h1
    have hal : x.s.r2.req.alignIntr = false := h.two.alignIntr (by decide)
    simp [exception, hashchkTrap, hnv, hei, hal, (h.two.noMmu hc rfl).2]

theorem Inv.inOrder (h : Inv p k x) (hc : Contract x i) : InOrder hasFpu x i where
  complete := by
    intro hcm
    by_cases hp : IsFree p x i
    · have hh : holds2 x p = true := (complete_eq_holds2 h.two hp).symm.trans hcm
      have hq := h.queue
      unfold owners at hq
      rw [hh] at hq
      simp only [if_true, List.singleton_append, List.forall₂_cons_left_iff] at hq
      obtain ⟨l, rest, ho, -, hcons⟩ := hq
      exact ⟨l, rest, hcons, ho⟩
    · have := (complete_false_of_kept h.two hp hc).1
      rw [show complete x.s i = true from hcm] at this
      cases this
  interrupt := by
    intro he
    have hp := h.kept_of_exception hc he
    have hne : p ≠ .empty ∧ p ≠ .stale := by
      unfold IsFree at hp
      tauto
    refine ⟨(complete_false_of_kept h.two hp hc).1, ?_, h.oldest (Or.inl hne)⟩
    by_contra hv
    have := (l2stall_false_of_busy (hc.notBusy (by simpa using hv))).1
    rw [l2stall_of_kept h.two hc hp] at this
    cases this
  output := (r3in_eq x.s).2.2.2
  write := complete_of_writeEnable h.two hc
  dcache := h.dcache_request hc
  mmu := h.mmu_request hc

end Invariant

end Microwatt.Loadstore1
