import Microwatt.Fetch1.Step
import Microwatt.Lib.Run

/-!
# The translation that a fetch uses

The ERAT and the ITLB are compared with the history of the MMU's commands: `tr` maps a page to
the page table entry of the last `tlbld` for it, or to nothing if a `tlbie` has covered it
since.  The arrays follow the history, and so does the ERAT as long as it is not refilled from
an entry that was read out of the ITLB at the very edge at which the entry went away.  A request
is on the port from the edge on that sends it, so it is judged by the history after the command
of that cycle, while its real page number comes from the ERAT before it.

An address that went down with a stop mark is kept in `r` and sent again when the mark is
lifted, without another lookup, so the history also records whether that address has been
translated.
-/

namespace Microwatt.Fetch1

open Clocked

variable {g : Geometry}

/-! ## Pages and their place in the ITLB -/

theorem hashEa_congr {a b : BitVec 64} (h : epnOf a = epnOf b) :
    hashEa (g := g) a = hashEa b := by
  have hg := g.hash_le
  have hbit (k : Nat) (hk : k < 52) : a.getLsbD (12 + k) = b.getLsbD (12 + k) := by
    have := congrArg (fun v => v.getLsbD k) h
    simpa [epnOf, hk] using this
  apply BitVec.eq_of_getLsbD_eq
  intro k hk
  simp only [hashEa, BitVec.getLsbD_xor, BitVec.getLsbD_extractLsb', hk, decide_true,
    Bool.true_and, Nat.add_assoc]
  rw [hbit k (by omega), hbit (g.tlbBits + k) (by omega), hbit (2 * g.tlbBits + k) (by omega)]

/-- The index and the tag of an address determine its page: the hash exclusive-ors the low
bits of the page number with bits that the tag holds. -/
theorem epnOf_eq_of_place {a b : BitVec 64} (hh : hashEa (g := g) a = hashEa b)
    (ht : tlbTag (g := g) a = tlbTag b) : epnOf a = epnOf b := by
  have hg := g.hash_le
  have htag (k : Nat) (hk : k < 52 - g.tlbBits) :
      a.getLsbD (12 + g.tlbBits + k) = b.getLsbD (12 + g.tlbBits + k) := by
    have := congrArg (fun v => v.getLsbD k) ht
    simpa [tlbTag, hk] using this
  apply BitVec.eq_of_getLsbD_eq
  intro k hk
  simp only [epnOf, BitVec.getLsbD_extractLsb', hk, decide_true, Bool.true_and]
  by_cases hlow : k < g.tlbBits
  · -- one of the bits that are hashed
    have h1 := congrArg (fun v => v.getLsbD k) hh
    have h2 := htag k (by omega)
    have h3 := htag (g.tlbBits + k) (by omega)
    simp only [hashEa, BitVec.getLsbD_xor, BitVec.getLsbD_extractLsb', hlow, decide_true,
      Bool.true_and] at h1
    rw [show 12 + g.tlbBits + (g.tlbBits + k) = 12 + 2 * g.tlbBits + k by omega] at h3
    rw [h2, h3] at h1
    simpa using h1
  · have h := htag (k - g.tlbBits) (by omega)
    rwa [show 12 + g.tlbBits + (k - g.tlbBits) = 12 + k by omega] at h

/-! ## The history of the MMU's commands -/

/-- A `tlbie` covers the page. -/
def MmuToItlb.covers (m : MmuToItlb) (p : Epn) : Bool :=
  m.tlbie && (m.doall || p == epnOf m.addr)

/-- A `tlbld` gives the page a translation. -/
def MmuToItlb.loads (m : MmuToItlb) (p : Epn) : Bool :=
  !m.tlbie && m.tlbld && p == epnOf m.addr

/-- The last `tlbld` of each page that no `tlbie` has covered since. -/
abbrev Translations := Epn → Option (BitVec 64)

/-- The translations after the command of one cycle. -/
def Translations.next (tr : Translations) (m : MmuToItlb) : Translations := fun p =>
  if m.covers p then none else if m.loads p then some m.pte else tr p

/-- fetch1 with the history that its requests are judged by. -/
structure Traced (g : Geometry) where
  s : State g
  tr : Translations
  /-- `r.nia` was translated by the ERAT when `r` took it, and its page has the same
  translation still. -/
  translated : Bool

variable (x : Traced g) (i : Input)

/-- An edge, with the history. -/
def Traced.step : Traced g where
  s := Fetch1.step x.s i
  tr := x.tr.next i.mIn
  translated :=
    if advanceNia x.s i then
      !i.wIn.interrupt && redirVirt x.s i && ehit x.s i && !nextFail x.s i &&
        x.tr.next i.mIn (epnOf (nextNia x.s i)) == x.tr (epnOf (nextNia x.s i))
    else
      x.translated && x.tr.next i.mIn (epnOf x.s.r.nia) == x.tr (epnOf x.s.r.nia)

/-- After a reset nothing is translated. -/
structure Traced.AfterReset (x : Traced g) : Prop where
  reset : Fetch1.AfterReset x.s
  tr : x.tr = fun _ => none
  translated : x.translated = false

/-! ## Requests and translations at one edge -/

/-- The translation allows a fetch with this real page number and privilege. -/
def Allows (t : Option (BitVec 64)) (rpn : Rpn) (priv : Bool) : Prop :=
  ∃ pte, t = some pte ∧ rpn = rpnOf pte ∧ (priv = false → pte.getLsbD 3 = false)

instance (t : Option (BitVec 64)) (rpn : Rpn) (priv : Bool) : Decidable (Allows t rpn priv) :=
  match t with
  | none => .isFalse fun ⟨_, h, _⟩ => nomatch h
  | some pte =>
      decidable_of_iff (rpn = rpnOf pte ∧ (priv = false → pte.getLsbD 3 = false))
        ⟨fun h => ⟨pte, rfl, h⟩, fun ⟨_, h, h'⟩ => Option.some.inj h ▸ h'⟩

/-- The edge presents a request to the icache that was not there before it. -/
def sends (s : State g) (i : Input) : Bool :=
  (step s i).r.req && (advanceNia s i || !s.r.req)

/-- A request sent in virtual mode uses the translation that its page has when the request is on
the port. -/
def SendsTranslated : Prop :=
  sends x.s i → (step x.s i).r.virtMode →
    Allows ((x.step i).tr (epnOf (step x.s i).r.nia)) (step x.s i).r.rpn (step x.s i).r.privMode

/-- The two entries of the ERAT agree on a page that both match. -/
def EratAgree (e : Erat) : Prop :=
  e.entry0.valid → e.entry1.valid → e.entry0.epn = e.entry1.epn →
    e.entry0.rpn = e.entry1.rpn ∧ e.entry0.priv = e.entry1.priv

/-- Nothing happens but the fetch itself: no redirect, interrupt, stop or MMU command. -/
structure Quiet (i : Input) : Prop where
  redirect : i.wIn.redirect = false
  interrupt : i.wIn.interrupt = false
  decode : i.dIn.redirect = false
  stop : i.stopIn = false
  tlbld : i.mIn.tlbld = false
  tlbie : i.mIn.tlbie = false

/-- fetch1 takes the address of a privileged page in user mode. -/
structure FetchesPrivileged (i : Input) : Prop where
  advance : advanceNia x.s i = true
  virt : redirVirt x.s i = true
  user : redirPriv x.s i = false
  priv : ∃ pte, x.tr (epnOf (nextNia x.s i)) = some pte ∧ pte.getLsbD 3 = true
  interrupt : i.wIn.interrupt = false
  stop : i.stopIn = false
  tlbld : i.mIn.tlbld = false
  tlbie : i.mIn.tlbie = false

/-- A user-mode fetch from a privileged page sends no request as long as nothing else happens,
and after three cycles of that it has failed. -/
def FailsPrivileged : Prop :=
  FetchesPrivileged x i → ∀ is : List Input, (∀ j ∈ is, Quiet j) →
    (run step (step x.s i) is).r.req = false ∧
      (3 ≤ is.length → (run step (step x.s i) is).r.fetchFail = true)

/-- The command of this cycle leaves the translation of the page as it is. -/
def Traced.Keeps (p : Epn) : Prop :=
  x.tr.next i.mIn p = x.tr p

/-- The translation of the next page does not change at the edge at which it is used: read out of
the ITLB for a lookup, or taken from the ERAT for a request. -/
def RaceFree : Prop :=
  (startCheck x.s i → x.s.itlb.valids (hashEa (nextNia x.s i)) →
    x.s.itlb.tags (hashEa (nextNia x.s i)) = tlbTag (nextNia x.s i) →
      x.Keeps i (epnOf (nextNia x.s i))) ∧
    (advanceNia x.s i → redirVirt x.s i → nextReq x.s i → x.Keeps i (epnOf (nextNia x.s i)))

/-- An address that went down with a stop mark in virtual mode is only sent again if it has
been translated, and its page keeps the translation. -/
def ResumesTranslated : Prop :=
  x.s.r.stopMark → advanceNia x.s i = false → nextReq x.s i → x.s.r.virtMode →
    x.translated ∧ x.Keeps i (epnOf x.s.r.nia)

instance : Decidable (SendsTranslated x i) := inferInstanceAs (Decidable (_ → _))

instance (p : Epn) : Decidable (x.Keeps i p) := inferInstanceAs (Decidable (_ = _))

instance : Decidable (RaceFree x i) := inferInstanceAs (Decidable (_ ∧ _))

instance : Decidable (ResumesTranslated x i) := inferInstanceAs (Decidable (_ → _))

/-! ## The ITLB and the ERAT follow the history -/

/-- The translation of `p` is what the entry holds. -/
def Describes (tr : Translations) (p : Epn) (rpn : Rpn) (priv : Bool) : Prop :=
  ∃ pte, tr p = some pte ∧ rpn = rpnOf pte ∧ priv = pte.getLsbD 3

/-- A valid entry of the ERAT holds the translation of its page. -/
def EratEntry.Ok (tr : Translations) (e : EratEntry) : Prop :=
  e.valid → Describes tr e.epn e.rpn e.priv

/-- The invariant. -/
structure Inv (x : Traced g) : Prop where
  entry0 : x.s.erat.entry0.Ok x.tr
  entry1 : x.s.erat.entry1.Ok x.tr
  /-- A valid entry of the ITLB holds the translation of the page with its index and tag. -/
  itlb : ∀ a, x.s.itlb.valids (hashEa a) → x.s.itlb.tags (hashEa a) = tlbTag a →
    x.tr (epnOf a) = some (x.s.itlb.ptes (hashEa a))
  /-- So does the entry that was read for a lookup in progress. -/
  check : x.s.rInt.tlbcheck → itlbHit x.s → x.tr (epnOf x.s.r.nia) = some x.s.itlb.pte
  translated : x.translated → Allows (x.tr (epnOf x.s.r.nia)) x.s.r.rpn x.s.r.privMode

variable {x : Traced g} {i : Input}

theorem inv_of_reset (h : x.AfterReset) : Inv x where
  entry0 hv := by simp [h.reset.erat0] at hv
  entry1 hv := by simp [h.reset.erat1] at hv
  itlb a hv := by simp [h.reset.itlbValids] at hv
  check hc := by simp [h.reset.tlbcheck] at hc
  translated ht := by simp [h.translated] at ht

theorem Translations.next_eq_self {tr : Translations} {m : MmuToItlb} (hie : m.tlbie = false)
    (hld : m.tlbld = false) : tr.next m = tr := by
  funext p
  simp [Translations.next, MmuToItlb.covers, MmuToItlb.loads, hie, hld]

/-- The commands to the ITLB and the history change the same entry. -/
theorem inv_itlb_step (h : Inv x) (a : BitVec 64)
    (hv : (x.step i).s.itlb.valids (hashEa a))
    (ht : (x.step i).s.itlb.tags (hashEa a) = tlbTag a) :
    (x.step i).tr (epnOf a) = some ((x.step i).s.itlb.ptes (hashEa a)) := by
  simp only [Traced.step, step, itlbNext, Translations.next, MmuToItlb.covers,
    MmuToItlb.loads] at hv ht ⊢
  rcases Bool.eq_false_or_eq_true i.mIn.tlbie with hie | hie
  · rcases Bool.eq_false_or_eq_true i.mIn.doall with hall | hall
    · simp [hie, hall] at hv
    · by_cases hx : hashEa (g := g) a = hashEa i.mIn.addr
      · simp [hie, hall, hx] at hv
      · have hp : epnOf a ≠ epnOf i.mIn.addr := fun hp => hx (hashEa_congr hp)
        simp only [hie, hall, hx, Bool.and_false, Bool.false_eq_true, and_false, if_false,
          Bool.not_true, Bool.false_and, beq_eq_false_iff_ne.mpr hp, Bool.or_false] at hv ht ⊢
        exact h.itlb a hv ht
  · rcases Bool.eq_false_or_eq_true i.mIn.tlbld with hld | hld
    · by_cases hx : hashEa (g := g) a = hashEa i.mIn.addr
      · -- the entry that is loaded: its tag makes it the same page
        simp only [hie, hld, hx, Bool.not_false, Bool.and_self, true_and, if_true] at hv ht ⊢
        have hp : epnOf a = epnOf i.mIn.addr := epnOf_eq_of_place hx ht.symm
        simp [hp]
      · have hp : epnOf a ≠ epnOf i.mIn.addr := fun hp => hx (hashEa_congr hp)
        simp only [hie, hld, hx, Bool.false_and, Bool.false_eq_true, and_false,
          if_false, Bool.not_false, Bool.and_self, beq_eq_false_iff_ne.mpr hp,
          Bool.and_false] at hv ht ⊢
        exact h.itlb a hv ht
    · simp only [hie, hld, Bool.false_and, Bool.and_false, Bool.false_eq_true, false_and,
        if_false] at hv ht ⊢
      exact h.itlb a hv ht

/-- The entry of the ITLB that fetch1 reads is for the address that `r` takes. -/
theorem itlbHit_step (hadv : advanceNia x.s i = true) (hhit : itlbHit (x.step i).s = true) :
    x.s.itlb.valids (hashEa (nextNia x.s i)) = true ∧
      x.s.itlb.tags (hashEa (nextNia x.s i)) = tlbTag (nextNia x.s i) := by
  simp only [itlbHit, Traced.step, step, itlbNext, regs, rNext, hadv, if_true,
    Bool.and_eq_true, beq_iff_eq] at hhit
  exact ⟨hhit.2, hhit.1⟩

theorem advanceNia_of_startCheck {s : State g} (h : startCheck s i = true) :
    advanceNia s i = true := by
  simp only [startCheck, Bool.and_eq_true] at h
  exact h.1.1.1.1

theorem inv_check_step (h : Inv x) (hrace : RaceFree x i)
    (hc : (x.step i).s.rInt.tlbcheck = true) (hhit : itlbHit (x.step i).s = true) :
    (x.step i).tr (epnOf (x.step i).s.r.nia) = some (x.step i).s.itlb.pte := by
  have hstart : startCheck x.s i = true := by
    simp only [Traced.step, step, regsInt, rNextInt, Bool.and_eq_true] at hc
    exact hc.2
  have hadv := advanceNia_of_startCheck hstart
  obtain ⟨hv, ht⟩ := itlbHit_step hadv hhit
  have hsame : x.tr.next i.mIn (epnOf (nextNia x.s i)) = _ := hrace.1 hstart hv ht
  have hold := h.itlb _ hv ht
  simp only [Traced.step, step, itlbNext, regs, rNext, hadv, if_true]
  rw [hsame, hold]

theorem EratEntry.Ok.invalid {tr : Translations} (e : EratEntry) :
    EratEntry.Ok tr { e with valid := false } := by
  intro hv
  simp at hv

/-- The entry that a `tlbld` makes. -/
theorem ok_loaded {tr : Translations} (hie : i.mIn.tlbie = false) (hld : i.mIn.tlbld = true) :
    EratEntry.Ok (tr.next i.mIn) ⟨epnOf i.mIn.addr, rpnOf i.mIn.pte, i.mIn.pte.getLsbD 3,
      true⟩ := by
  intro _
  exact ⟨i.mIn.pte, by simp [Translations.next, MmuToItlb.covers, MmuToItlb.loads, hie, hld],
    rfl, rfl⟩

theorem ok_itlbEntry (h : Inv x) (hc : x.s.rInt.tlbcheck = true) (hhit : itlbHit x.s = true) :
    EratEntry.Ok x.tr (itlbEntry x.s) := by
  intro _
  exact ⟨x.s.itlb.pte, h.check hc hhit, rfl, rfl⟩

theorem inv_erat_step (h : Inv x) :
    (x.step i).s.erat.entry0.Ok (x.step i).tr ∧ (x.step i).s.erat.entry1.Ok (x.step i).tr := by
  simp only [Traced.step, step, eratSync]
  cases hie : i.mIn.tlbie
  · cases hld : i.mIn.tlbld
    · -- no command: the history stays and at most a lookup refills an entry
      simp only [Bool.false_eq_true, if_false]
      rw [Translations.next_eq_self hie hld]
      split_ifs with hc hm
      all_goals
        first
          | exact ⟨h.entry0, h.entry1⟩
          | skip
      all_goals
        have hc' := Bool.and_eq_true_iff.mp hc
        have hnew := ok_itlbEntry h hc'.1 hc'.2
      all_goals
        first
          | exact ⟨h.entry0, hnew⟩
          | exact ⟨hnew, h.entry1⟩
    · simp only [Bool.false_eq_true, if_false, if_true]
      exact ⟨ok_loaded hie hld, EratEntry.Ok.invalid _⟩
  · simp only [if_true]
    exact ⟨EratEntry.Ok.invalid _, EratEntry.Ok.invalid _⟩

/-- An entry of the ERAT that matches the next address holds its translation. -/
theorem describes_of_ehit (h : Inv x) (hv : redirVirt x.s i = true) (hhit : ehit x.s i = true) :
    Describes x.tr (epnOf (nextNia x.s i)) (nextRpn x.s i) (eaaPriv x.s i) := by
  have hentry (e : EratEntry) (he : e.Ok x.tr) (hh : e.hits (nextNia x.s i) = true) :
      Describes x.tr (epnOf (nextNia x.s i)) e.rpn e.priv := by
    simp only [EratEntry.hits, Bool.and_eq_true, beq_iff_eq] at hh
    rw [hh.1]
    exact he hh.2
  rcases Bool.eq_false_or_eq_true (x.s.erat.entry1.hits (nextNia x.s i)) with h1 | h1
  · have hrpn : nextRpn x.s i = x.s.erat.entry1.rpn := by simp [nextRpn, esel, hv, h1]
    have hpriv : eaaPriv x.s i = x.s.erat.entry1.priv := by simp [eaaPriv, esel, hv, h1]
    rw [hrpn, hpriv]
    exact hentry _ h.entry1 h1
  · have h0 : x.s.erat.entry0.hits (nextNia x.s i) = true := by
      simpa only [ehit, h1, Bool.false_or] using hhit
    have hrpn : nextRpn x.s i = x.s.erat.entry0.rpn := by simp [nextRpn, esel, hv, h1]
    have hpriv : eaaPriv x.s i = x.s.erat.entry0.priv := by simp [eaaPriv, esel, hv, h1]
    rw [hrpn, hpriv]
    exact hentry _ h.entry0 h0

/-- A hit that does not fail allows the fetch. -/
theorem allows_of_ehit (h : Inv x) (hv : redirVirt x.s i = true) (hhit : ehit x.s i = true)
    (hf : nextFail x.s i = false) :
    Allows (x.tr (epnOf (nextNia x.s i))) (nextRpn x.s i) (redirPriv x.s i) := by
  obtain ⟨pte, htr, hrpn, hpriv⟩ := describes_of_ehit h hv hhit
  refine ⟨pte, htr, hrpn, fun hu => ?_⟩
  simp only [nextFail, hhit, Bool.true_or, if_true, hu, Bool.not_false, Bool.and_true] at hf
  rw [← hpriv, hf]

theorem inv_translated_step (h : Inv x) (ht : (x.step i).translated = true) :
    Allows ((x.step i).tr (epnOf (x.step i).s.r.nia)) (x.step i).s.r.rpn
      (x.step i).s.r.privMode := by
  cases hadv : advanceNia x.s i
  · -- `r` is held, and so is the translation of its page
    simp only [Traced.step, hadv, Bool.false_eq_true, if_false, Bool.and_eq_true,
      beq_iff_eq] at ht
    have hold := h.translated ht.1
    simp only [Traced.step, step, regs, hadv, Bool.false_eq_true, if_false]
    rw [ht.2]
    exact hold
  · simp only [Traced.step, hadv, if_true, Bool.and_eq_true, beq_iff_eq, Bool.not_eq_true'] at ht
    obtain ⟨⟨⟨⟨hi, hv⟩, hhit⟩, hf⟩, hsame⟩ := ht
    have hallows := allows_of_ehit h hv hhit hf
    simp only [Traced.step, step, regs, rNext, hadv, if_true, hi, Bool.false_or]
    rw [hsame]
    exact hallows

/-- Every edge without the race keeps the invariant. -/
theorem inv_step (h : Inv x) (hrace : RaceFree x i) : Inv (x.step i) where
  entry0 := (inv_erat_step h).1
  entry1 := (inv_erat_step h).2
  itlb := inv_itlb_step h
  check := inv_check_step h hrace
  translated := inv_translated_step h

/-! ## Requests -/

/-- A request that an advancing edge sends in virtual mode has hit in the ERAT. -/
theorem ehit_of_nextReq {s : State g} (hadv : advanceNia s i = true)
    (hv : redirVirt s i = true) (hreq : nextReq s i = true) :
    ehit s i = true ∧ nextFail s i = false := by
  simp only [nextReq, tlbstall, fetchFail, Bool.and_eq_true, Bool.not_eq_true',
    Bool.or_eq_false_iff, Bool.and_eq_false_iff, Bool.not_eq_false'] at hreq
  obtain ⟨⟨-, hi⟩, hfail, hcheck⟩ := hreq
  have hf : nextFail s i = false := by simpa [hi] using hfail
  have hc : startCheck s i = false ∧ s.rInt.tlbcheck = false := by simpa [hi] using hcheck
  refine ⟨?_, hf⟩
  by_contra hmiss
  -- a miss that does not fail starts a lookup
  have hlook : lookupFail s i = false := by simpa [nextFail, hmiss, hv] using hf
  simp [startCheck, hadv, hmiss, hv, hc.2, hlook] at hc

theorem stopMark_of_held {s : State g} (hadv : advanceNia s i = false) (hreq : s.r.req = false) :
    s.r.stopMark = true := by
  simp only [advanceNia, hreq, Bool.false_and, Bool.not_false, Bool.and_true,
    Bool.or_eq_false_iff, Bool.not_eq_false'] at hadv
  exact hadv.2

theorem sendsTranslated_of_inv (h : Inv x) (hrace : RaceFree x i) (hres : ResumesTranslated x i) :
    SendsTranslated x i := by
  intro hsend hvirt
  simp only [sends, Bool.and_eq_true, Bool.or_eq_true, Bool.not_eq_true'] at hsend
  have hreq : nextReq x.s i = true := hsend.1
  cases hadv : advanceNia x.s i
  · -- the address that a stop mark has held back
    have hr : x.s.r.req = false := by simpa [hadv] using hsend.2
    simp only [Traced.step, step, regs, hadv, Bool.false_eq_true, if_false] at hvirt ⊢
    obtain ⟨ht, hkeep⟩ := hres (stopMark_of_held hadv hr) hadv hreq hvirt
    rw [hkeep]
    exact h.translated ht
  · have hi : i.wIn.interrupt = false := by
      simp only [nextReq, Bool.and_eq_true, Bool.not_eq_true'] at hreq
      exact hreq.1.2
    simp only [Traced.step, step, regs, rNext, hadv, if_true, hi, Bool.false_eq_true, if_false,
      Bool.false_or] at hvirt ⊢
    obtain ⟨hhit, hf⟩ := ehit_of_nextReq hadv hvirt hreq
    rw [hrace.2 hadv hvirt hreq]
    exact allows_of_ehit h hvirt hhit hf

theorem eratAgree_of_inv (h : Inv x) : EratAgree x.s.erat := by
  intro h0 h1 hepn
  obtain ⟨pte, htr, hrpn, hpriv⟩ := h.entry0 h0
  obtain ⟨pte', htr', hrpn', hpriv'⟩ := h.entry1 h1
  have hpte : pte = pte' := by
    rw [hepn, htr'] at htr
    exact (Option.some.inj htr).symm
  exact ⟨by rw [hrpn, hrpn', hpte], by rw [hpriv, hpriv', hpte]⟩

/-! ## A user-mode fetch from a privileged page -/

/-- fetch1 is trying to fetch from a privileged page in user mode. -/
structure Denied (x : Traced g) : Prop where
  inv : Inv x
  req : x.s.r.req = false
  stop : x.s.r.stopMark = false
  stall : x.s.rInt.tlbstall = true
  virt : x.s.r.virtMode = true
  user : x.s.r.privMode = false
  nia : x.s.rInt.mode32bit = true → 0#32 ++ x.s.r.nia.extractLsb' 0 32 = x.s.r.nia
  priv : ∃ pte, x.tr (epnOf x.s.r.nia) = some pte ∧ pte.getLsbD 3 = true

/-- How many cycles it takes at most until the fetch has failed: a lookup to be started, the
lookup, and the entry of the ERAT it makes. -/
def denialRank (s : State g) : Nat :=
  if s.r.fetchFail then 0
  else if s.erat.entry1.hits s.r.nia || s.erat.entry0.hits s.r.nia then 1
  else if s.rInt.tlbcheck then 2
  else 3

theorem denialRank_le (s : State g) : denialRank s ≤ 3 := by
  unfold denialRank
  split_ifs <;> omega

theorem fetchFail_of_denialRank {s : State g} (h : denialRank s = 0) : s.r.fetchFail = true := by
  unfold denialRank at h
  split_ifs at h with hf
  exact hf

/-- The truncation of addresses in 32-bit mode is idempotent. -/
theorem trunc32_nextNia {s : State g} (h : m32 s i = true) :
    0#32 ++ (nextNia s i).extractLsb' 0 32 = nextNia s i := by
  simp only [nextNia, h, if_true]
  generalize (if i.wIn.redirect then align4 i.wIn.redirectNia
    else if i.dIn.redirect then align4 i.dIn.redirectNia
    else if s.rInt.tlbstall then s.r.nia
    else s.rInt.nextNia) = a
  congr 1
  exact BitVec.extractLsb'_append_eq_right

theorem nextFail_of_privileged (h : Inv x) (hd : FetchesPrivileged x i)
    (hhit : ehit x.s i = true) : nextFail x.s i = true := by
  obtain ⟨pte, htr, hpriv⟩ := hd.priv
  obtain ⟨pte', htr', -, hpriv'⟩ := describes_of_ehit h hd.virt hhit
  have hpte : pte' = pte := by
    rw [htr] at htr'
    exact (Option.some.inj htr').symm
  simp [nextFail, hhit, hd.user, hpriv', hpte, hpriv]

/-- Such a fetch fails at once or waits for a lookup. -/
theorem tlbstall_of_privileged (h : Inv x) (hd : FetchesPrivileged x i) :
    tlbstall x.s i = true := by
  rcases Bool.eq_false_or_eq_true (nextFail x.s i) with hf | hf
  · simp [tlbstall, fetchFail, hf, hd.interrupt]
  · have hmiss : ehit x.s i = false := by
      by_contra hhit
      simp [nextFail_of_privileged h hd (by simpa using hhit)] at hf
    have hlook : lookupFail x.s i = false := by simpa [nextFail, hmiss, hd.virt] using hf
    rcases Bool.eq_false_or_eq_true x.s.rInt.tlbcheck with hc | hc
    · simp [tlbstall, hd.interrupt, hc]
    · simp [tlbstall, startCheck, hd.interrupt, hd.advance, hd.virt, hmiss, hc, hlook]

/-- Without a command there is no race. -/
theorem raceFree_of_no_command (hie : i.mIn.tlbie = false) (hld : i.mIn.tlbld = false) :
    RaceFree x i := by
  have hkeep : x.Keeps i (epnOf (nextNia x.s i)) := by
    rw [Traced.Keeps, Translations.next_eq_self hie hld]
  exact ⟨fun _ _ _ => hkeep, fun _ _ _ => hkeep⟩

theorem denied_step (h : Inv x) (hd : FetchesPrivileged x i) : Denied (x.step i) where
  inv := inv_step h (raceFree_of_no_command hd.tlbie hd.tlbld)
  req := by simp [Traced.step, step, regs, rNext, nextReq, tlbstall_of_privileged h hd]
  stop := hd.stop
  stall := tlbstall_of_privileged h hd
  virt := by simp [Traced.step, step, regs, rNext, hd.advance, hd.interrupt, hd.virt]
  user := by simp [Traced.step, step, regs, rNext, hd.advance, hd.interrupt, hd.user]
  nia hm := by
    simp only [Traced.step, step, regs, regsInt, rNext, rNextInt, hd.advance, if_true,
      hd.interrupt, Bool.not_false, Bool.true_and] at hm ⊢
    exact trunc32_nextNia hm
  priv := by
    simp only [Traced.step, step, regs, rNext, hd.advance, if_true,
      Translations.next_eq_self hd.tlbie hd.tlbld]
    exact hd.priv

theorem Denied.nextNia_eq (hd : Denied x) (hq : Quiet i) : nextNia x.s i = x.s.r.nia := by
  have hm : m32 x.s i = x.s.rInt.mode32bit := by simp [m32, hq.redirect]
  simp only [nextNia, hm, hq.redirect, hq.decode, hd.stall, Bool.false_eq_true, if_false, if_true]
  split_ifs with h
  · exact hd.nia h
  · rfl

/-- In a quiet cycle fetch1 tries again. -/
theorem Denied.fetches (hd : Denied x) (hq : Quiet i) : FetchesPrivileged x i where
  advance := by simp [advanceNia, hd.stop, hd.req]
  virt := by simp [redirVirt, hq.redirect, hd.virt]
  user := by simp [redirPriv, hq.redirect, hd.user]
  priv := by
    rw [hd.nextNia_eq hq]
    exact hd.priv
  interrupt := hq.interrupt
  stop := hq.stop
  tlbld := hq.tlbld
  tlbie := hq.tlbie

/-- A lookup that has hit leaves an entry for the page in the ERAT. -/
theorem hits_after_lookup {s : State g} (hq : Quiet i) (hc : s.rInt.tlbcheck = true)
    (hhit : itlbHit s = true) (hadv : advanceNia s i = true) (hnia : nextNia s i = s.r.nia) :
    ((step s i).erat.entry1.hits (step s i).r.nia ||
      (step s i).erat.entry0.hits (step s i).r.nia) = true := by
  have hnia' : (step s i).r.nia = s.r.nia := by simp [step, regs, rNext, hadv, hnia]
  rw [hnia']
  cases hm : s.erat.mru <;>
    simp [step, eratSync, hq.tlbie, hq.tlbld, hc, hhit, hm, EratEntry.hits, itlbEntry]

/-- A quiet cycle brings the failure closer. -/
theorem denialRank_step (hd : Denied x) (hq : Quiet i) :
    denialRank (x.step i).s ≤ denialRank x.s - 1 := by
  have hnia := hd.nextNia_eq hq
  have hf := hd.fetches hq
  have hfail : (x.step i).s.r.fetchFail = nextFail x.s i := by
    simp [Traced.step, step, regs, rNext, fetchFail, hq.interrupt]
  rcases Bool.eq_false_or_eq_true (nextFail x.s i) with hn | hn
  · simp [denialRank, hfail, hn]
  have hmiss : ehit x.s i = false := by
    by_contra hhit
    simp [nextFail_of_privileged hd.inv hf (by simpa using hhit)] at hn
  have hlook : lookupFail x.s i = false := by simpa [nextFail, hmiss, hf.virt] using hn
  simp only [lookupFail, hq.redirect, hq.decode, Bool.or_self, Bool.false_eq_true, if_false,
    Bool.or_eq_false_iff] at hlook
  have hmiss' : (x.s.erat.entry1.hits x.s.r.nia || x.s.erat.entry0.hits x.s.r.nia) = false := by
    rw [← hnia]
    exact hmiss
  rcases Bool.eq_false_or_eq_true x.s.rInt.tlbcheck with hc | hc
  · -- the lookup has hit, so the page is in the ERAT now
    have hhit : itlbHit x.s = true := by simpa [hc] using hlook.1
    have hnew := hits_after_lookup hq hc hhit hf.advance hnia
    have hold : denialRank x.s = 2 := by simp [denialRank, hlook.2, hmiss', hc]
    rw [hold]
    simp [denialRank, Traced.step, hnew]
    split_ifs <;> omega
  · have hold : denialRank x.s = 3 := by simp [denialRank, hlook.2, hmiss', hc]
    have hstart : startCheck x.s i = true := by
      simp [startCheck, hf.advance, hmiss, hf.virt, hc, lookupFail, hq.redirect, hq.decode,
        hlook.2]
    have hc' : (x.step i).s.rInt.tlbcheck = true := by
      simp [Traced.step, step, regsInt, rNextInt, hq.interrupt, hstart]
    rw [hold]
    simp only [denialRank, hc', if_true]
    split_ifs <;> omega

/-- Through quiet cycles no request is sent and the failure comes closer with each. -/
theorem denied_run {is : List Input} (hd : Denied x) (hq : ∀ j ∈ is, Quiet j) :
    (run step x.s is).r.req = false ∧
      denialRank (run step x.s is) ≤ denialRank x.s - is.length := by
  induction is generalizing x with
  | nil => exact ⟨hd.req, le_rfl⟩
  | cons i is ih =>
    have hi := hq i (List.mem_cons_self ..)
    have hd' : Denied (x.step i) := denied_step hd.inv (hd.fetches hi)
    obtain ⟨hreq, hrank⟩ := ih hd' fun j hj => hq j (List.mem_cons_of_mem _ hj)
    have hstep := denialRank_step hd hi
    refine ⟨hreq, ?_⟩
    simp only [run_cons, List.length_cons]
    have : denialRank (run step (step x.s i) is) ≤ denialRank (x.step i).s - is.length := hrank
    omega

theorem failsPrivileged_of_inv (h : Inv x) : FailsPrivileged x i := by
  intro hf is hq
  obtain ⟨hreq, hrank⟩ := denied_run (denied_step h hf) hq
  refine ⟨hreq, fun hlen => fetchFail_of_denialRank ?_⟩
  have := denialRank_le (x.step i).s
  have hrank' : denialRank (run step (step x.s i) is) ≤ denialRank (x.step i).s - is.length := hrank
  omega

/-! ## Whole runs -/

theorem inv_run {is : List Input} (hx : x.AfterReset)
    (hok : Along Traced.step (fun x i => RaceFree x i ∧ ResumesTranslated x i) x is) :
    Inv (run Traced.step x is) :=
  hok.invariant (fun _ _ hok h => inv_step h hok.1) (inv_of_reset hx)

/-- The state after a reset, with an empty history. -/
def Traced.cold : Traced Geometry.default where
  s := .cold
  tr := fun _ => none
  translated := false

theorem Traced.afterReset_cold : Traced.cold.AfterReset where
  reset :=
    { req := rfl, fetchFail := rfl, virtMode := rfl, privMode := rfl, bigEndian := rfl
      mode32bit := rfl, rdIsNiap4 := rfl, tlbcheck := rfl, tlbstall := rfl, erat0 := rfl
      erat1 := rfl, itlbValids := rfl, btcValids := fun _ => rfl, btcRdValid := fun _ => rfl }
  tr := rfl
  translated := rfl

/-- The MMU loads a translation. -/
def Input.tlbld (addr pte : BitVec 64) : Input :=
  { Input.idle with mIn := ⟨true, false, false, addr, pte⟩ }

/-- A redirect in virtual mode. -/
def Input.redirect (priv : Bool) (nia : BitVec 64) : Input :=
  { Input.idle with
    wIn := ⟨true, true, priv, false, false, nia, 0, false, false, false, false, 0⟩ }

/-- The ITLB is loaded with two pages, the second of which drops the first from the ERAT; then a
redirect to the first page starts a lookup of it in the very cycle of a `tlbie` for it. -/
def invalidateDuringLookup : List Input :=
  [ .tlbld 0x10000 0x5000,
    .tlbld 0x20000 0x6000,
    { Input.redirect true 0x10000 with mIn := ⟨false, true, false, 0x10000, 0⟩ },
    .idle ]

/-- A page that is in the ERAT is invalidated in the very cycle of a redirect to it: the request
goes out with the translation that the ERAT still has. -/
theorem not_sendsTranslated_invalidateDuringHit :
    ¬ SendsTranslated (run Traced.step Traced.cold [.tlbld 0x10000 0x5000])
      { Input.redirect true 0x10000 with mIn := ⟨false, true, false, 0x10000, 0⟩ } := by
  decide +kernel

end Microwatt.Fetch1
