import Microwatt.Loadstore1.Hash

/-!
# Runs of hash instructions

From the stages of a hash instruction to whole runs: what it does to the memory and how it ends, and
when that is what it is to do.
-/

namespace Microwatt.Loadstore1

variable {hasFpu : Bool} {l : Execute1ToLoadstore1} {s : State} {mem : Memory} {os : Nat → Outside}

/-- Nothing ends and no register is written. -/
def Still (x : Setup) (o : Outside) : Prop :=
  ends x o = none ∧ writeEnable x.s (input x o) = false

theorem still_of {x : Setup} {o : Outside} (he : exception x.s (input x o) = false)
    (hc : complete x.s (input x o) = false) (hw : writeEnable x.s (input x o) = false) :
    Still x o := by
  refine ⟨?_, hw⟩
  unfold ends
  rw [he, hc]
  rfl

theorem Silent.still {x : Setup} {o : Outside} (h : Silent x.s (input x o)) : Still x o :=
  still_of h.exception h.complete h.writeEnable

/-- No access is under way. -/
structure NoAccess (mem : Memory) (x : Setup) : Prop where
  access : x.access = .none
  mem : x.mem = mem

theorem NoAccess.quiet {x : Setup} {o : Outside} (h : NoAccess mem x) (he : o.lIn.e2stall = false) :
    Quiet (input x o) :=
  input_quiet (fun q hq => by rw [h.access] at hq; cases hq) he

theorem NoAccess.step {x : Setup} {o : Outside} (h : NoAccess mem x)
    (hv : (dOut hasFpu x.s (input x o)).valid = false) : NoAccess mem (Setup.step hasFpu x o) := by
  refine ⟨?_, ?_⟩
  · simp [Setup.step, h.access, newAccess, hv]
  · simp [Setup.step, h.access, h.mem]

theorem setupAt_succ (n : Nat) :
    setupAt hasFpu s mem os (n + 1) = Setup.step hasFpu (setupAt hasFpu s mem os n) (os n) := rfl

/-- The digest is computed. -/
theorem computing_at (hs : Idle s) (hl : Sends l) (ho : Alone l os) {n : Nat} (hn : n ≤ 8) :
    Computing hasFpu l n (setupAt hasFpu s mem os (n + 1)).s ∧
      NoAccess mem (setupAt hasFpu s mem os (n + 1)) ∧
      ∀ m ≤ n, Still (setupAt hasFpu s mem os m) (os m) := by
  have h0 : NoAccess mem (setupAt hasFpu s mem os 0) := ⟨rfl, rfl⟩
  induction n with
  | zero =>
      have hq := h0.quiet (ho.e2stall 0)
      obtain ⟨hc, hv⟩ := @Idle.start hasFpu l _ _ hs hq hl ho.first
      refine ⟨hc, h0.step hv, fun m hm => ?_⟩
      obtain rfl : m = 0 := by omega
      exact (hs.silent hq).still
  | succ n ih =>
      obtain ⟨hc, hno, hstill⟩ := ih (by omega)
      have hq := hno.quiet (ho.e2stall (n + 1))
      obtain ⟨hc', hv⟩ := hc.step (by omega) hq hl
      refine ⟨hc', hno.step hv, fun m hm => ?_⟩
      obtain hm | rfl : m ≤ n ∨ m = n + 1 := by omega
      · exact hstill m hm
      · exact (hc.silent hq).still

/-- The access waits for its answer. -/
structure InDcache (l : Execute1ToLoadstore1) (mem : Memory) (x : Setup) : Prop where
  waiting : Waiting l x.s
  access : ∃ q, x.access = .waiting q ∧ HashAccess l q ∧ q.data = digestOf l
  mem : x.mem = mem

/-- The dcache has taken the access and not yet its data. -/
structure Taken (hasFpu : Bool) (l : Execute1ToLoadstore1) (mem : Memory) (x : Setup) : Prop where
  sent : Sent hasFpu l x.s
  access : ∃ q, x.access = .taken q ∧ HashAccess l q
  mem : x.mem = mem

theorem Computing.taken {x : Setup} {o : Outside} (h : Computing hasFpu l 8 x.s)
    (hno : NoAccess mem x)
    (he : o.lIn.e2stall = false) (hl : Sends l) : Taken hasFpu l mem (Setup.step hasFpu x o) := by
  obtain ⟨hsent, hv, hacc⟩ := h.send (hno.quiet he) hl
  refine ⟨hsent, ⟨_, ?_, hacc⟩, ?_⟩
  · simp [Setup.step, hno.access, newAccess, hv]
  · simp [Setup.step, hno.access, hno.mem]

theorem Taken.quiet {x : Setup} {o : Outside} (h : Taken hasFpu l mem x)
    (he : o.lIn.e2stall = false) :
    Quiet (input x o) := by
  obtain ⟨q, hq, -⟩ := h.access
  exact input_quiet (fun q' hq' => by rw [hq] at hq'; cases hq') he

theorem Taken.inDcache {x : Setup} {o : Outside} (h : Taken hasFpu l mem x)
    (he : o.lIn.e2stall = false) (hv : o.lIn.valid = false) (hl : Sends l) :
    InDcache l mem (Setup.step hasFpu x o) := by
  obtain ⟨hw, hdata⟩ := h.sent.step (h.quiet he) hl hv
  obtain ⟨q, hq, hacc⟩ := h.access
  refine ⟨hw, ⟨{ q with data := (dOut hasFpu x.s (Loadstore1.input x o)).data }, ?_,
    ⟨hacc.addr, hacc.byteSel, hacc.store⟩, hdata⟩, ?_⟩
  · simp [Setup.step, hq]
  · simp [Setup.step, hq, h.mem]

theorem inDcache_at (hs : Idle s) (hl : Sends l) (ho : Alone l os) :
    InDcache l mem (setupAt hasFpu s mem os 11) ∧
      ∀ m < 11, Still (setupAt hasFpu s mem os m) (os m) := by
  obtain ⟨hc, hno, hstill⟩ := @computing_at hasFpu l s mem os hs hl ho 8 le_rfl
  have htaken : Taken hasFpu l mem (setupAt hasFpu s mem os 10) := by
    rw [setupAt_succ]
    exact hc.taken hno (ho.e2stall 9) hl
  have hin : InDcache l mem (setupAt hasFpu s mem os 11) := by
    rw [setupAt_succ]
    exact htaken.inDcache (ho.e2stall 10) (ho.rest 10 (by omega)) hl
  refine ⟨hin, fun m hm => ?_⟩
  obtain hm | rfl | rfl : m ≤ 8 ∨ m = 9 ∨ m = 10 := by omega
  · exact hstill m hm
  · exact (hc.silent (hno.quiet (ho.e2stall 9))).still
  · exact (htaken.sent.silent (htaken.quiet (ho.e2stall 10))).still

/-- What a stall or an answer is for the unit. -/
theorem InDcache.input {x : Setup} {o : Outside} (h : InDcache l mem x) :
    (o.stall = true → Stalls (input x o)) ∧
      (o.stall = false → Answers (input x o) (mem (dwordOf (hashEa l)))) := by
  obtain ⟨q, hq, hacc, -⟩ := h.access
  constructor
  · intro hst
    constructor <;> simp [Loadstore1.input, answer, hq, hst]
  · intro hst
    constructor <;> simp [Loadstore1.input, answer, hq, hst, hacc.addr, h.mem]

theorem InDcache.stall {x : Setup} {o : Outside} (h : InDcache l mem x) (hl : Sends l)
    (hst : o.stall = true) : InDcache l mem (Setup.step hasFpu x o) ∧ Still x o := by
  obtain ⟨hw, he, hc, hwe⟩ := @Waiting.stall hasFpu l _ _ h.waiting hl (h.input.1 hst)
  obtain ⟨q, hq, hacc, hdata⟩ := h.access
  refine ⟨⟨hw, ⟨q, ?_, hacc, hdata⟩, ?_⟩, still_of he hc hwe⟩
  · simp [Setup.step, hq, hst]
  · simp [Setup.step, hq, hst, h.mem]

/-- The access is answered in the first cycle without a stall. -/
theorem inDcache_until (hs : Idle s) (hl : Sends l) (ho : Alone l os) :
    ∃ n, 11 ≤ n ∧ (os n).stall = false ∧ InDcache l mem (setupAt hasFpu s mem os n) ∧
      ∀ m < n, Still (setupAt hasFpu s mem os m) (os m) := by
  obtain ⟨h11, hstill⟩ := @inDcache_at hasFpu l s mem os hs hl ho
  have hkeep : ∀ k, (∀ m < k, (os (11 + m)).stall = true) →
      InDcache l mem (setupAt hasFpu s mem os (11 + k)) ∧
        ∀ m < 11 + k, Still (setupAt hasFpu s mem os m) (os m) := by
    intro k
    induction k with
    | zero => exact fun _ => ⟨h11, hstill⟩
    | succ k ih =>
        intro hall
        obtain ⟨hin, hbefore⟩ := ih fun m hm => hall m (by omega)
        obtain ⟨hin', hnow⟩ := @InDcache.stall hasFpu l mem _ _ hin hl (hall k (by omega))
        refine ⟨hin', fun m hm => ?_⟩
        obtain hm | rfl : m < 11 + k ∨ m = 11 + k := by omega
        · exact hbefore m hm
        · exact hnow
  have hex : ∃ k, (os (11 + k)).stall = false := by
    obtain ⟨m, hm, hst⟩ := ho.goesOn 11
    exact ⟨m - 11, by rwa [show 11 + (m - 11) = m by omega]⟩
  classical
  refine ⟨11 + Nat.find hex, by omega, Nat.find_spec hex, hkeep _ fun m hm => ?_⟩
  simpa using Nat.find_min hex hm

/-! ## How instructions end -/

theorem ends_interrupt {x : Setup} {o : Outside} {vec : BitVec 12}
    (he : exception x.s (input x o) = true) (hvec : (r3in x.s (input x o)).intrVec = vec) :
    ends x o = some (.interrupt vec) := by
  unfold ends
  rw [he, hvec]
  rfl

theorem ends_complete {x : Setup} {o : Outside} (he : exception x.s (input x o) = false)
    (hc : complete x.s (input x o) = true) : ends x o = some .complete := by
  unfold ends
  rw [he, hc]
  rfl

/-- The first cycle that is not still ends the instruction. -/
theorem executes_of {n : Nat} {e : End} {mem' : Memory}
    (hstill : ∀ m < n, Still (setupAt hasFpu s mem os m) (os m))
    (he : ends (setupAt hasFpu s mem os n) (os n) = some e)
    (hw :
      writeEnable (setupAt hasFpu s mem os n).s (input (setupAt hasFpu s mem os n) (os n)) = false)
    (hmem : (setupAt hasFpu s mem os (n + 1)).mem = mem') : Executes hasFpu s mem os e mem' := by
  refine ⟨n, fun m hm => (hstill m hm).1, he, hmem, fun m hm => ?_⟩
  obtain hm | rfl : m < n ∨ m = n := by omega
  · exact (hstill m hm).2
  · exact hw

/-- An instruction has one end. -/
theorem Executes.unique {e e' : End} {m m' : Memory} (h : Executes hasFpu s mem os e m)
    (h' : Executes hasFpu s mem os e' m') : e = e' ∧ m = m' := by
  obtain ⟨n, hbefore, hend, hmem, -⟩ := h
  obtain ⟨n', hbefore', hend', hmem', -⟩ := h'
  obtain hlt | rfl | hlt := Nat.lt_trichotomy n n'
  · rw [hbefore' n hlt] at hend
    cases hend
  · rw [hend] at hend'
    cases hend'
    exact ⟨rfl, hmem.symm.trans hmem'⟩
  · rw [hbefore n' hlt] at hend'
    cases hend'

theorem mergeBytes_all (new old : Dword) : Dcache.mergeBytes 0xff new old = new := by
  have hmask : Dcache.byteMask 0xff = BitVec.allOnes 64 := by decide
  unfold Dcache.mergeBytes
  rw [hmask, BitVec.and_allOnes, BitVec.not_allOnes, BitVec.and_zero, BitVec.zero_or]

/-- An enabled instruction whose sum is aligned does its access at the effective address, aligned or
not. -/
theorem executes_of_sends (hs : Idle s) (hl : Sends l) (ho : Alone l os) :
    (l.op = .store → Executes hasFpu s mem os .complete
      (Function.update mem (dwordOf (hashEa l)) (digestOf l))) ∧
    (l.op = .load → Executes hasFpu s mem os
      (if mem (dwordOf (hashEa l)) = digestOf l then .complete else .interrupt 0x700) mem) := by
  obtain ⟨n, hn, hst, hin, hstill⟩ := @inDcache_until hasFpu l s mem os hs hl ho
  have hans := hin.input.2 hst
  obtain ⟨q, hq, hacc, hdata⟩ := hin.access
  have hmem : (setupAt hasFpu s mem os (n + 1)).mem = mem.access q := by
    rw [setupAt_succ]
    simp [Setup.step, hq, hst, hin.mem]
  constructor
  · intro hop
    obtain ⟨he, hc, hw⟩ := hin.waiting.stored hl hans hop
    refine executes_of hstill (ends_complete he hc) hw ?_
    rw [hmem, Memory.access, hacc.store, hop, hacc.addr, hacc.byteSel, mergeBytes_all, hdata]
    rfl
  · intro hop
    have hmem' : (setupAt hasFpu s mem os (n + 1)).mem = mem := by
      rw [hmem, Memory.access, hacc.store, hop]
      rfl
    by_cases hd : mem (dwordOf (hashEa l)) = digestOf l
    · rw [if_pos hd]
      rw [hd] at hans
      obtain ⟨hpass, he, hc, hw⟩ := @Waiting.passed hasFpu l _ _ hin.waiting hl hans hop
      have hno : NoAccess mem (setupAt hasFpu s mem os (n + 1)) := by
        refine ⟨?_, hmem'⟩
        rw [setupAt_succ]
        have hv := @no_request hasFpu _ (input (setupAt hasFpu s mem os n) (os n)) hin.waiting.busy1
          (ho.rest n (by omega)) hin.waiting.stage1En
        simp [Setup.step, hq, hst, newAccess, hv]
      have hquiet := hno.quiet (ho.e2stall (n + 1))
      obtain ⟨he', hc', hw'⟩ := hpass.completes hl hquiet
      refine executes_of (n := n + 1) (fun m hm => ?_) (ends_complete he' hc') hw' ?_
      · obtain hm | rfl : m < n ∨ m = n := by omega
        · exact hstill m hm
        · exact still_of he hc hw
      · rw [setupAt_succ]
        simp [Setup.step, hno.access, hno.mem]
    · rw [if_neg hd]
      obtain ⟨he, hvec, hw⟩ := hin.waiting.trapped hl hans hop hd
      exact executes_of hstill (ends_interrupt he hvec) hw hmem'

/-- An instruction without an access is in stage 2 in the third cycle. -/
theorem turned_at (hs : Idle s) (hl : IsHash l) (ho : Alone l os)
    (hno : (l.hashEnable && sumAligned l) = false) :
    Turned l (setupAt hasFpu s mem os 2).s ∧ NoAccess mem (setupAt hasFpu s mem os 2) ∧
      ∀ m < 2, Still (setupAt hasFpu s mem os m) (os m) := by
  have h0 : NoAccess mem (setupAt hasFpu s mem os 0) := ⟨rfl, rfl⟩
  have hq0 := h0.quiet (ho.e2stall 0)
  obtain ⟨hd, hv⟩ := @Idle.decline hasFpu l _ _ hs hq0 hl hno ho.first
  have h1 : NoAccess mem (setupAt hasFpu s mem os 1) := h0.step hv
  have hd1 : Declined l (setupAt hasFpu s mem os 1).s := hd
  have hq1 := h1.quiet (ho.e2stall 1)
  have hv1 := @no_request hasFpu _ (input (setupAt hasFpu s mem os 1) (os 1)) hd1.busy1
    (ho.rest 1 (by omega)) hd1.stage1En
  refine ⟨?_, ?_, fun m hm => ?_⟩
  · rw [setupAt_succ]
    exact hd1.step hq1 hno (ho.rest 1 (by omega))
  · rw [setupAt_succ]
    exact h1.step hv1
  · obtain rfl | rfl : m = 0 ∨ m = 1 := by omega
    · exact (hs.silent hq0).still
    · exact (hd1.silent hq1).still

/-- An enabled instruction whose sum is not aligned gets an alignment interrupt. -/
theorem executes_of_misaligned (hs : Idle s) (hl : IsHash l) (ho : Alone l os)
    (he : l.hashEnable = true) (ha : sumAligned l = false) :
    Executes hasFpu s mem os (.interrupt 0x600) mem := by
  obtain ⟨ht, hno, hstill⟩ := @turned_at hasFpu l s mem os hs hl ho (by rw [ha, Bool.and_false])
  obtain ⟨hex, hvec, hw⟩ := ht.refused (hno.quiet (ho.e2stall 2)) he ha
  refine executes_of hstill (ends_interrupt hex hvec) hw ?_
  rw [setupAt_succ]
  simp [Setup.step, hno.access, hno.mem]

/-- A disabled `hashst` completes without an access. -/
theorem executes_of_disabled (hs : Idle s) (hl : IsHash l) (ho : Alone l os)
    (he : l.hashEnable = false) (hop : l.op = .store) : Executes hasFpu s mem os .complete mem := by
  obtain ⟨ht, hno, hstill⟩ := @turned_at hasFpu l s mem os hs hl ho (by rw [he, Bool.false_and])
  obtain ⟨hex, hw⟩ := ht.exception_of_disabled (hno.quiet (ho.e2stall 2)) he
  have hc : complete (setupAt hasFpu s mem os 2).s (input (setupAt hasFpu s mem os 2) (os 2)) =
      true := by
    simp [complete, ht.oneCycle, he, hop]
  refine executes_of hstill (ends_complete hex hc) hw ?_
  rw [setupAt_succ]
  simp [Setup.step, hno.access, hno.mem]

/-- A disabled `hashchk` never ends. -/
theorem ends_none_of_disabled (hs : Idle s) (hl : IsHash l) (ho : Alone l os)
    (he : l.hashEnable = false) (hop : l.op = .load) (n : Nat) :
    ends (setupAt hasFpu s mem os n) (os n) = none := by
  obtain ⟨ht, hno, hstill⟩ := @turned_at hasFpu l s mem os hs hl ho (by rw [he, Bool.false_and])
  have hall : ∀ k, Turned l (setupAt hasFpu s mem os (2 + k)).s ∧
      NoAccess mem (setupAt hasFpu s mem os (2 + k)) := by
    intro k
    induction k with
    | zero => exact ⟨ht, hno⟩
    | succ k ih =>
        obtain ⟨ht, hno⟩ := ih
        have hv :=
          @no_request hasFpu _ (input (setupAt hasFpu s mem os (2 + k)) (os (2 + k))) ht.busy1
          (ho.rest (2 + k) (by omega)) ht.stage1En
        exact ⟨(ht.stuck (hno.quiet (ho.e2stall (2 + k))) he hop).1, hno.step hv⟩
  obtain hn | hn := Nat.lt_or_ge n 2
  · exact (hstill n hn).1
  · obtain ⟨k, rfl⟩ := Nat.exists_eq_add_of_le hn
    obtain ⟨ht, hno⟩ := hall k
    have hquiet := hno.quiet (ho.e2stall (2 + k))
    obtain ⟨hex, hw⟩ := ht.exception_of_disabled hquiet he
    exact (still_of hex (@Turned.stuck hasFpu l _ _ ht hquiet he hop).2 hw).1

/-! ## What hash instructions do -/

/-- The displacement does not change the alignment. -/
theorem hashEa_mod (l : Execute1ToLoadstore1) :
    (hashEa l).toNat % 8 = 0 ↔ l.addr1.toNat % 8 = 0 := by
  unfold hashEa displacement
  rw [trimAddr_low_bits, BitVec.toNat_add, BitVec.toNat_ofInt]
  omega

/-- Outside the instruction there is nothing. -/
def quietOutside : Outside := ⟨Execute1ToLoadstore1.init, false, false, 0, false, 0⟩

/-- The instruction in the first cycle, and a dcache without stalls. -/
def aloneWith (l : Execute1ToLoadstore1) (n : Nat) : Outside :=
  if n = 0 then { quietOutside with lIn := l } else quietOutside

theorem alone_aloneWith (hl : IsHash l) : Alone l (aloneWith l) where
  first := rfl
  rest := by
    intro n hn
    rw [aloneWith, if_neg (by omega)]
    rfl
  e2stall := by
    intro n
    unfold aloneWith
    split_ifs
    · exact hl.e2stall
    · rfl
  goesOn := by
    intro n
    refine ⟨n + 1, by omega, ?_⟩
    rw [aloneWith, if_neg (by omega)]
    rfl

theorem idle_cold : Idle State.cold := by
  constructor
  · constructor <;> rfl
  all_goals rfl

/-- An instruction that meets the condition does what it is to do. -/
theorem DoesEffect.of_okay (hl : IsHash l) (hok : HashOkay l) : DoesEffect hasFpu l := by
  intro s hs mem os ho
  unfold HashOkay at hok
  unfold effect
  cases he : l.hashEnable
  · rw [he] at hok
    exact executes_of_disabled hs hl ho he hok
  · rw [he] at hok
    have hiff : (hashEa l).toNat % 8 = 0 ↔ sumAligned l = true :=
      (hashEa_mod l).trans (hok.trans (sumAligned_iff l).symm)
    cases ha : sumAligned l
    · have hea : (hashEa l).toNat % 8 ≠ 0 := by simp [hiff, ha]
      simp only [Bool.not_true, Bool.false_eq_true, if_false, if_pos hea]
      exact executes_of_misaligned hs hl ho he ha
    · have hea : ¬ (hashEa l).toNat % 8 ≠ 0 := by simp [hiff, ha]
      obtain ⟨hst, hld⟩ := @executes_of_sends hasFpu l s mem os hs ⟨hl, he, ha⟩ ho
      simp only [Bool.not_true, Bool.false_eq_true, if_false, if_neg hea]
      obtain hop | hop := hl.op
      · rw [if_pos hop]
        exact hst hop
      · rw [if_neg (by rw [hop]; decide)]
        have h := hld hop
        split_ifs with hd
        · rwa [if_pos hd] at h
        · rwa [if_neg hd] at h

/-- An instruction that does what it is to do meets the condition. -/
theorem DoesEffect.okay (hl : IsHash l) (h : DoesEffect hasFpu l) : HashOkay l := by
  have hrun := h State.cold idle_cold (fun _ => digestOf l) (aloneWith l) (alone_aloneWith hl)
  unfold HashOkay
  unfold effect at hrun
  cases he : l.hashEnable
  · rw [if_neg (by decide)]
    obtain hop | hop := hl.op
    · exact hop
    · obtain ⟨n, -, hend, -⟩ := hrun
      rw [ends_none_of_disabled idle_cold hl (alone_aloneWith hl) he hop n] at hend
      cases hend
  · rw [if_pos rfl, ← sumAligned_iff, ← hashEa_mod]
    cases ha : sumAligned l
    · have hcode := @executes_of_misaligned hasFpu l _ (fun _ => digestOf l) _ idle_cold hl
        (alone_aloneWith hl) he ha
      have heq := (hrun.unique hcode).1
      by_contra hne
      have hea : ¬ (hashEa l).toNat % 8 ≠ 0 := by simpa using hne
      simp only [he, Bool.not_true, Bool.false_eq_true, if_false, if_neg hea] at heq
      split_ifs at heq
    · obtain ⟨hst, hld⟩ := @executes_of_sends hasFpu l _ (fun _ => digestOf l) _ idle_cold
        ⟨hl, he, ha⟩ (alone_aloneWith hl)
      have hcode : ∃ m,
          Executes hasFpu State.cold (fun _ => digestOf l) (aloneWith l) .complete m := by
        obtain hop | hop := hl.op
        · exact ⟨_, hst hop⟩
        · have := hld hop
          rw [if_pos rfl] at this
          exact ⟨_, this⟩
      obtain ⟨m, hcode⟩ := hcode
      have heq := (hrun.unique hcode).1
      by_contra hne
      have hea : (hashEa l).toNat % 8 ≠ 0 := by simpa using hne
      simp only [he, Bool.not_true, Bool.false_eq_true, if_false, if_pos hea] at heq
      cases heq

/-- Hash instructions do what they are to do exactly when the unit's alignment, which is that of the
sum of the two operands, is that of RA, or when the instruction is a disabled `hashst`; and a
`hashchk` after a `hashst` with the same operands never traps. -/
theorem hash_effect_iff (hasFpu : Bool) (l : Execute1ToLoadstore1) (hl : IsHash l) :
    (DoesEffect hasFpu l ↔ HashOkay l) ∧
    (l.op = .store → ∀ s s' mem mem' mem'' os os' e e', Idle s → Idle s' → Alone l os →
      Alone { l with op := .load } os' → Executes hasFpu s mem os e mem' →
      Executes hasFpu s' mem' os' e' mem'' → e' ≠ .interrupt 0x700) := by
  refine ⟨⟨DoesEffect.okay hl, DoesEffect.of_okay hl⟩, ?_⟩
  intro hop s s' mem mem' mem'' os os' e e' hs hs' ho ho' hst hchk
  have hl' : IsHash { l with op := .load } := { hl with op := .inr rfl }
  cases he : l.hashEnable
  · obtain ⟨n, -, hend, -⟩ := hchk
    rw [ends_none_of_disabled hs' hl' ho' he rfl n] at hend
    cases hend
  · cases ha : sumAligned l
    · rw [(hchk.unique (executes_of_misaligned hs' hl' ho' he ha)).1]
      decide
    · have hmem := (hst.unique ((executes_of_sends hs ⟨hl, he, ha⟩ ho).1 hop)).2
      have hend := (hchk.unique ((executes_of_sends hs' ⟨hl', he, ha⟩ ho').2 rfl)).1
      have hdigest : mem' (dwordOf (hashEa { l with op := .load })) =
        digestOf { l with op := .load } := by
        rw [hmem]
        exact Function.update_self _ _ _
      rw [hend, if_pos hdigest]
      decide

/-- `hashst r3,-8(r1)` with a key, enabled, in real mode. -/
def hashstOf (ra rb : BitVec 64) : Execute1ToLoadstore1 :=
  { Execute1ToLoadstore1.init with
    valid := true
    op := .store
    insn := 0x7FE11DA5
    addr1 := ra
    addr2 := rb
    length := 8
    hash := true
    privMode := true
    hashkey := 0x123456789abcdef0
    hashEnable := true }

theorem isHash_hashstOf (ra rb : BitVec 64) : IsHash (hashstOf ra rb) :=
  ⟨rfl, rfl, .inl rfl, rfl, rfl, rfl, rfl, rfl, rfl, rfl⟩

/-- The operands of the test. -/
theorem hash_effect_iff_test :
    IsHash (hashstOf 0x4190 0x0f0e0d0c0b0a0908) ∧ HashOkay (hashstOf 0x4190 0x0f0e0d0c0b0a0908) ∧
      DoesEffect true (hashstOf 0x4190 0x0f0e0d0c0b0a0908) ∧
      hashEa (hashstOf 0x4190 0x0f0e0d0c0b0a0908) = 0x4188 ∧
      digestOf (hashstOf 0x4190 0x0f0e0d0c0b0a0908) = 0xcd57657a24afdd14 :=
  ⟨isHash_hashstOf _ _, by unfold HashOkay; decide,
    (hash_effect_iff true _ (isHash_hashstOf _ _)).1.mpr (by unfold HashOkay; decide), by decide,
    by decide +kernel⟩

/-- A disabled `hashchk`. -/
def hashchkOff : Execute1ToLoadstore1 :=
  { hashstOf 0x4190 0x1000 with
    op := .load
    hashEnable := false }

/-- A `hashst` of a return address that is a multiple of 4 but not of 8 gets an alignment interrupt
and stores nothing, although its effective address is aligned; a disabled `hashchk` never ends. -/
theorem not_doesEffect_returnAddress :
    (hashEa (hashstOf 0x4190 0x1004)).toNat % 8 = 0 ∧
    ¬ DoesEffect true (hashstOf 0x4190 0x1004) ∧
    Executes true State.cold (fun _ => 0) (aloneWith (hashstOf 0x4190 0x1004)) (.interrupt 0x600)
      (fun _ => 0) ∧
    ¬ DoesEffect true hashchkOff := by
  have hl := isHash_hashstOf 0x4190 0x1004
  refine ⟨by decide, fun h => ?_, ?_, fun h => ?_⟩
  · have hok := h.okay hl
    unfold HashOkay at hok
    revert hok
    decide
  · exact executes_of_misaligned idle_cold hl (alone_aloneWith hl) rfl (by decide)
  · have hok := h.okay ⟨rfl, rfl, .inr rfl, rfl, rfl, rfl, rfl, rfl, rfl, rfl⟩
    unfold HashOkay at hok
    revert hok
    decide

end Microwatt.Loadstore1
