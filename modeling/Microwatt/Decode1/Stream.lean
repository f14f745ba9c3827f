import Microwatt.Decode1.Step
import Microwatt.Lib.Run

/-!
# The instructions of a stream of words

Between two flushes, what decode1 has passed on and still has to pass on are the instructions of the
words that it has taken: a prefix belongs to the word after it, and a repeated instruction is two
instances that differ in the third register.
-/

namespace Microwatt.Decode1

open Predecode (InsnCode)
open Decode2 (Repeat)

/-! ## The instructions of a stream -/

/-- An instruction, or a failed fetch, in a stream of words. -/
inductive Item where
  | plain (w : IcacheToDecode1)
  | misaligned (w : IcacheToDecode1)
  | pair (p w : IcacheToDecode1)
  | failed (p : Option IcacheToDecode1) (w : IcacheToDecode1)

/-- What the words so far have left open: a prefix, and whether the last fetch failed. -/
structure Open where
  held : Option IcacheToDecode1 := none
  failing : Bool := false

/-- One more input: what is left open after it and the instruction that it completes. -/
def Open.take (o : Open) (f : IcacheToDecode1) : Open × Option Item :=
  if f.fetchFailed then
    (⟨if f.valid then none else o.held, true⟩, if o.failing then none else some (.failed o.held f))
  else if !f.valid then (⟨o.held, false⟩, none)
  else
    match o.held with
    | some p => (⟨none, false⟩, some (.pair p f))
    | none =>
      if f.icode = .prefixInsn then
        (⟨some f, false⟩, if wordIa f = 0b1111 then some (.misaligned f) else none)
      else (⟨none, false⟩, some (.plain f))

/-- The instructions of a stream. -/
def items : Open → List IcacheToDecode1 → Open × List Item
  | o, [] => (o, [])
  | o, f :: fs =>
    let (o', item) := o.take f
    let (o'', rest) := items o' fs
    (o'', item.toList ++ rest)

/-- The 26 bits that a prefix has for its suffix. -/
def prefixBits (p : IcacheToDecode1) : BitVec 26 := p.insn.extractLsb' 0 26

/-- The fields that come from the word itself. -/
def ofWord (w : IcacheToDecode1) : Decode1ToDecode2 where
  valid := true
  stopMark := w.stopMark
  nia := w.nia
  insn := w.insn
  brPred := brPred w
  bigEndian := w.bigEndian
  regA := regA w
  regB := regB w
  regC := regC w

/-- The decoded instruction, with its index in the decode table. -/
def Item.decoded : Item → Decode1ToDecode2 × InsnCode
  | .plain w => (ofWord w, w.icode)
  | .misaligned w => ({ ofWord w with misalignedPrefix := true }, w.icode)
  | .pair p w =>
    ({ ofWord w with
        nia := patchIa w.nia (wordIa p)
        prefixed := true
        insnPrefix := prefixBits p
        illegalSuffix := !validSuffix (prefixBits p) w.icode },
      suffixCode (prefixBits p) w.icode)
  | .failed p w =>
    ({ ofWord w with
        prefixed := p.isSome
        insnPrefix := (p.map prefixBits).getD 0 },
      .fetchFail)

/-- The third register of the second instance of an instruction. -/
def pairedReg (d : Decode1ToDecode2) (icode : InsnCode) : BitVec 6 :=
  if repeatOf icode = .drsp then
    if d.prefixed || d.bigEndian then d.regC ||| 1 else d.regC &&& ~~~1
  else d.regC

/-- The instances of a decoded instruction. -/
def instances (d : Decode1ToDecode2) (icode : InsnCode) : List (Decode1ToDecode2 × InsnCode) :=
  if repeatOf icode = .none then [(d, icode)]
  else [(d, icode), ({ d with second := true, regC := pairedReg d icode }, icode)]

/-- The instances of all instructions of a stream. -/
def expected (fs : List IcacheToDecode1) : List (Decode1ToDecode2 × InsnCode) :=
  (items {} fs).2.flatMap fun item => instances item.decoded.1 item.decoded.2

/-! ## A run -/

/-- The unit with what it has taken and passed on since the last flush. -/
structure Logged where
  s : State
  taken : List IcacheToDecode1
  passed : List (Decode1ToDecode2 × InsnCode)

/-- A rising edge. -/
def Logged.step (l : Logged) (i : Inputs) : Logged :=
  if i.rst || i.flushIn then ⟨Decode1.step l.s i, [], []⟩
  else
    ⟨Decode1.step l.s i,
      if busyOut l.s i then l.taken else l.taken ++ [i.fIn],
      if l.s.r.valid && !i.stallIn then l.passed ++ [(l.s.r, l.s.decode)] else l.passed⟩

/-- What is still to be passed on. -/
def remaining (s : State) : List (Decode1ToDecode2 × InsnCode) :=
  if !s.r.valid then []
  else if double s then instances s.r s.decode
  else [(s.r, s.decode)]

/-- The endianness does not change while an instruction waits for its second instance. -/
def SteadyMode (l : Logged) (i : Inputs) : Prop :=
  double l.s = true → i.fIn.bigEndian = l.s.r.bigEndian

instance (l : Logged) (i : Inputs) : Decidable (SteadyMode l i) :=
  inferInstanceAs (Decidable (_ → _))

/-- What is left open, in the registers. -/
structure Open.Holds (o : Open) (s : State) : Prop where
  failing : s.fetchFailed = o.failing
  pr : s.pr = match o.held with
    | none => {}
    | some p => ⟨true, prefixBits p, wordIa p⟩

/-- The state of the stream in the registers. -/
structure Inv (l : Logged) : Prop where
  left : (items {} l.taken).1.Holds l.s
  out : l.passed ++ remaining l.s = expected l.taken

theorem items_append (o : Open) (fs : List IcacheToDecode1) (f : IcacheToDecode1) :
    items o (fs ++ [f]) =
      (((items o fs).1.take f).1, (items o fs).2 ++ ((items o fs).1.take f).2.toList) := by
  induction fs generalizing o with
  | nil => simp [items]
  | cons g gs ih => simp [items, ih]

theorem expected_append (fs : List IcacheToDecode1) (f : IcacheToDecode1) :
    expected (fs ++ [f]) = expected fs ++
      ((items {} fs).1.take f).2.toList.flatMap
        fun item => instances item.decoded.1 item.decoded.2 := by
  unfold expected
  rw [items_append, List.flatMap_append]

/-- A cycle that takes an input follows the stream. -/
theorem Open.Holds.rin {o : Open} {s : State} (h : o.Holds s) (i : Inputs) :
    (match (o.take i.fIn).2 with
      | some item => ((rin s i).1, (rin s i).2.1) = item.decoded
      | none => (rin s i).1.valid = false) ∧
    (if i.fIn.valid then (rin s i).2.2 else s.pr) =
      (match (o.take i.fIn).1.held with
        | none => {}
        | some p => ⟨true, prefixBits p, wordIa p⟩) ∧
    i.fIn.fetchFailed = (o.take i.fIn).1.failing := by
  obtain ⟨hfail, hpr⟩ := h
  obtain ⟨held, failing⟩ := o
  unfold Decode1.rin Open.take base
  dsimp only at hfail hpr ⊢
  rw [hfail, hpr]
  cases hff : i.fIn.fetchFailed
  · cases held with
    | some p => cases hv : i.fIn.valid <;> simp [Item.decoded, ofWord]
    | none =>
        by_cases hpre : i.fIn.icode = .prefixInsn
        · by_cases hia : wordIa i.fIn = 0b1111#4
          · cases hv : i.fIn.valid <;> simp [hpre, hia, Item.decoded, ofWord, prefixBits]
          · cases hv : i.fIn.valid <;> simp [hpre, hia, prefixBits]
        · cases hv : i.fIn.valid <;> simp [hpre, Item.decoded, ofWord]
  · cases hv : i.fIn.valid <;> cases held <;> cases failing <;> simp [Item.decoded, ofWord]

/-- The instances of what comes into an empty register. -/
theorem remaining_first (d : Decode1ToDecode2) (icode : InsnCode) (f : Bool) (pr : PrefixState)
    (hs : d.second = false) :
    remaining ⟨d, icode, f, pr⟩ = if d.valid then instances d icode else [] := by
  unfold remaining double instances
  cases hv : d.valid
  · simp
  · by_cases hrep : repeatOf icode = .none <;> simp [hrep, hs]

theorem double_eq_true {s : State} (h : double s = true) :
    s.r.valid = true ∧ repeatOf s.decode ≠ .none ∧ s.r.second = false := by
  simpa [double, and_assoc] using h

theorem Item.decoded_valid (item : Item) : item.decoded.1.valid = true := by
  cases item <;> rfl

/-- A cycle that takes an input. -/
theorem Inv.step_take {s : State} {taken : List IcacheToDecode1}
    {passed : List (Decode1ToDecode2 × InsnCode)} {i : Inputs} (h : Inv ⟨s, taken, passed⟩)
    (hrst : i.rst = false) (hflush : i.flushIn = false) (hstall : i.stallIn = false)
    (hdouble : double s = false) : Inv (Logged.step ⟨s, taken, passed⟩ i) := by
  obtain ⟨hleft, hout⟩ := h
  dsimp only at hleft hout
  obtain ⟨hitem, hpr, hfail⟩ := hleft.rin i
  have hstep : Decode1.step s i = ⟨(rin s i).1, (rin s i).2.1, i.fIn.fetchFailed,
      if i.fIn.valid then (rin s i).2.2 else s.pr⟩ := by
    unfold Decode1.step
    simp [hrst, hflush, hstall, hdouble]
  have hpass : (if s.r.valid && !i.stallIn then passed ++ [(s.r, s.decode)] else passed) =
      expected taken := by
    rw [← hout, remaining, hdouble, hstall]
    cases s.r.valid <;> simp
  have hsecond : (rin s i).1.second = false := by
    unfold rin base
    dsimp only
    split_ifs <;> rfl
  unfold Logged.step
  rw [if_neg (by simp [hrst, hflush])]
  dsimp only
  rw [hpass, hstep, busyOut, hstall, hdouble]
  refine ⟨⟨?_, ?_⟩, ?_⟩
  · show i.fIn.fetchFailed = (items {} (taken ++ [i.fIn])).1.failing
    rw [items_append]
    exact hfail
  · show (if i.fIn.valid then (rin s i).2.2 else s.pr) = _
    rw [hpr]
    show _ = match (items {} (taken ++ [i.fIn])).1.held with
      | none => _
      | some p => _
    rw [items_append]
  · show expected taken ++ remaining _ = expected (taken ++ [i.fIn])
    rw [expected_append, remaining_first _ _ _ _ hsecond]
    cases hopen : ((items {} taken).1.take i.fIn).2 with
    | none =>
        rw [hopen] at hitem
        dsimp only at hitem
        rw [hitem]
        rfl
    | some item =>
        rw [hopen] at hitem
        dsimp only at hitem
        have hv : (rin s i).1 = item.decoded.1 := congrArg Prod.fst hitem
        have haddr : (rin s i).2.1 = item.decoded.2 := congrArg Prod.snd hitem
        rw [hv, haddr, if_pos item.decoded_valid]
        simp

/-- A cycle in which a second instance takes the place of the first. -/
theorem Inv.step_double {s : State} {taken : List IcacheToDecode1}
    {passed : List (Decode1ToDecode2 × InsnCode)} {i : Inputs} (h : Inv ⟨s, taken, passed⟩)
    (hrst : i.rst = false) (hflush : i.flushIn = false) (hstall : i.stallIn = false)
    (hdouble : double s = true) (hmode : i.fIn.bigEndian = s.r.bigEndian) :
    Inv (Logged.step ⟨s, taken, passed⟩ i) := by
  obtain ⟨hleft, hout⟩ := h
  dsimp only at hleft hout
  obtain ⟨hvalid, hrep, hsecond⟩ := double_eq_true hdouble
  have hstep : Decode1.step s i =
      { s with r := { s.r with second := true, regC := pairedReg s.r s.decode } } := by
    unfold Decode1.step secondRegC pairedReg
    simp [hrst, hflush, hstall, hdouble, hmode]
  unfold Logged.step
  rw [if_neg (by simp [hrst, hflush])]
  dsimp only
  rw [hstep, busyOut, hstall, hdouble, hvalid]
  refine ⟨⟨hleft.failing, hleft.pr⟩, ?_⟩
  show (passed ++ [(s.r, s.decode)]) ++ remaining _ = expected taken
  rw [← hout]
  simp [remaining, hvalid, instances, hrep, double, hsecond]

/-- A reset or a flush starts a new stream, whatever the state. -/
theorem inv_of_reset {i : Inputs} (h : (i.rst || i.flushIn) = true) (l : Logged) :
    Inv (l.step i) := by
  obtain ⟨s, taken, passed⟩ := l
  unfold Logged.step
  rw [if_pos h]
  have hclear : (step s i).fetchFailed = false ∧ (step s i).pr = {} ∧
      (step s i).r.valid = false := by
    unfold step
    dsimp only
    by_cases hrst : i.rst = true
    · simp [hrst]
    · have hflush : i.flushIn = true := by simpa [hrst] using h
      simp [hrst, hflush]
  obtain ⟨hfail, hpr, hvalid⟩ := hclear
  refine ⟨⟨hfail, hpr⟩, ?_⟩
  simp [remaining, hvalid, expected, items]

/-- An edge keeps the state of the stream. -/
theorem Inv.step {l : Logged} {i : Inputs} (h : Inv l) (hmode : SteadyMode l i) :
    Inv (l.step i) := by
  by_cases hreset : (i.rst || i.flushIn) = true
  · exact inv_of_reset hreset l
  · obtain ⟨s, taken, passed⟩ := l
    obtain ⟨hrst, hflush⟩ : i.rst = false ∧ i.flushIn = false := by simpa using hreset
    cases hstall : i.stallIn
    · cases hdouble : double s
      · exact h.step_take hrst hflush hstall hdouble
      · exact h.step_double hrst hflush hstall hdouble (hmode hdouble)
    · have hstep : Decode1.step s i = s := by
        unfold Decode1.step
        simp [hrst, hflush, hstall]
      unfold Logged.step
      rw [if_neg hreset]
      simpa [hstep, busyOut, hstall] using h

/-! ## Pairs of words -/

/-- A code that the instruction cache can deliver. -/
def FromIcache (icode : InsnCode) : Prop :=
  ∃ hasFpu valid iword,
    icode = (Predecode.icacheInsn (Predecode.predecode hasFpu valid iword)).icode

/-- What holds of the codes in the tables, of `nop` and of illegal words holds of all codes that the
instruction cache delivers. -/
theorem FromIcache.rec {P : InsnCode → Bool}
    (hmajor : Predecode.majorPredecodeRom.all fun e => P e.icode)
    (hrow : Predecode.rowPredecodeRom.all fun e => P e.icode) (hnop : P .nop) (hill : P .illegal)
    {icode : InsnCode} (h : FromIcache icode) : P icode = true := by
  have hrom {rom : List Predecode.RomEntry} (hall : rom.all fun e => P e.icode) (addr : BitVec 11) :
      P (Predecode.romLookup rom addr) = true := by
    obtain hnone | ⟨e, he, -, -, hcode⟩ := Predecode.romLookup_cases rom addr
    · rw [hnone]
      exact hill
    · rw [hcode]
      exact List.all_eq_true.mp hall e he
  obtain ⟨hasFpu, valid, iword, rfl⟩ := h
  rw [Predecode.icode_predecode]
  unfold Predecode.selected
  split_ifs
  · exact hrom hrow _
  · exact hnop
  · exact hrom hmajor _
  · exact hill

/-- The suffixes of 8LS prefixes and the instructions that they make. -/
def forms8ls : List (InsnCode × InsnCode) :=
  [(.lhzu, .plwa), (.lq, .plq), (.op57, .pld), (.op60, .pstq), (.op61, .pstd)]

/-- The suffixes of MLS prefixes and the instructions that they make. -/
def formsMls : List (InsnCode × InsnCode) :=
  [(.addi, .paddi), (.lbz, .plbz), (.lha, .plha), (.lhz, .plhz), (.lwz, .plwz), (.stb, .pstb),
    (.sth, .psth), (.stw, .pstw), (.stfd, .pstfd), (.stfs, .pstfs), (.lfd, .plfd), (.lfs, .plfs)]

/-- The instruction that a prefix and a suffix make, if they are a legal pair. -/
def prefixedForm (bits : BitVec 26) (icode : InsnCode) : Option InsnCode :=
  if bits.extractLsb' 23 3 = 0b000 then forms8ls.lookup icode
  else if bits.extractLsb' 23 3 = 0b100 then formsMls.lookup icode
  else if bits.extractLsb' 23 3 = 0b110 ∧ bits.extractLsb' 20 3 = 0b000 then some .pnop
  else none

/-- The ranges of codes that decode1 looks at are those of the legal suffixes, which bit 0 turns
into their prefixed forms. -/
def rangesOk (icode : InsnCode) : Bool :=
  (atLeast icode .lhzu && !atLeast icode .add) == (forms8ls.lookup icode).isSome &&
    ((atLeast icode .addi && !atLeast icode .lhzu) ||
      (atLeast icode .stfd && !atLeast icode .stfdu)) ==
      (formsMls.lookup icode).isSome &&
    (forms8ls.lookup icode).all (· == InsnCode.val (icode.pos ||| 1)) &&
    (formsMls.lookup icode).all (· == InsnCode.val (icode.pos ||| 1))

theorem FromIcache.rangesOk {icode : InsnCode} (h : FromIcache icode) : rangesOk icode = true :=
  h.rec (by decide +kernel) (by decide +kernel) (by decide +kernel) (by decide +kernel)

/-- A suffix is legal exactly when the two words make an instruction, and that one is decoded. -/
theorem FromIcache.suffix {icode : InsnCode} (h : FromIcache icode) (bits : BitVec 26) :
    validSuffix bits icode = (prefixedForm bits icode).isSome ∧
      ∀ form, prefixedForm bits icode = some form → suffixCode bits icode = form := by
  have hranges := h.rangesOk
  simp only [Decode1.rangesOk, Bool.and_eq_true, beq_iff_eq] at hranges
  obtain ⟨⟨⟨h8ls, hmls⟩, hform8⟩, hformM⟩ := hranges
  have hbit : bits.getLsbD 24 = (bits.extractLsb' 23 3).getLsbD 1 := by
    rw [BitVec.getLsbD_extractLsb']
    rfl
  by_cases h0 : bits.extractLsb' 23 3 = 0b000#3
  · rw [h0] at hbit
    simp only [prefixedForm, validSuffix, suffixCode, h0, hbit]
    refine ⟨h8ls, fun form hform => ?_⟩
    have hlookup : forms8ls.lookup icode = some form := hform
    rw [hlookup] at hform8
    have heq : form = InsnCode.val (icode.pos ||| 1) := by simpa using hform8
    rw [heq]
    rfl
  by_cases h4 : bits.extractLsb' 23 3 = 0b100#3
  · rw [h4] at hbit
    simp only [prefixedForm, validSuffix, suffixCode, h4, hbit]
    refine ⟨hmls, fun form hform => ?_⟩
    have hlookup : formsMls.lookup icode = some form := hform
    rw [hlookup] at hformM
    have heq : form = InsnCode.val (icode.pos ||| 1) := by simpa using hformM
    rw [heq]
    rfl
  by_cases h6 : bits.extractLsb' 23 3 = 0b110#3
  · rw [h6] at hbit
    simp only [prefixedForm, validSuffix, suffixCode, h6, hbit]
    by_cases hpnop : bits.extractLsb' 20 3 = 0b000#3 <;> simp [hpnop]
  · have hvalid : validSuffix bits icode = false := by
      unfold validSuffix
      split
      · exact absurd ‹_› h0
      · exact absurd ‹_› h4
      · exact absurd ‹_› h6
      · rfl
    simp [hvalid, prefixedForm, h0, h4, h6]

/-- The word after a prefix that is not the last of its block gets the address of the prefix. -/
theorem patchIa_wordIa {p w : IcacheToDecode1} (hlast : wordIa p ≠ 0b1111#4)
    (hnext : w.nia = p.nia + 4) : patchIa w.nia (wordIa p) = p.nia := by
  have hword : (p.nia.toNat / 4) % 16 ≠ 15 := by
    intro h
    apply hlast
    apply BitVec.eq_of_toNat_eq
    simpa [wordIa, Nat.shiftRight_eq_div_pow] using h
  have hw : w.nia.toNat = p.nia.toNat + 4 := by
    rw [hnext, BitVec.toNat_add]
    have hfour : (4 : BitVec 64).toNat = 4 := rfl
    have hlt := p.nia.isLt
    omega
  have hhigh : w.nia.extractLsb' 6 58 = p.nia.extractLsb' 6 58 := by
    apply BitVec.eq_of_toNat_eq
    simp only [BitVec.extractLsb'_toNat, Nat.shiftRight_eq_div_pow, hw]
    omega
  have hlow : w.nia.extractLsb' 0 2 = p.nia.extractLsb' 0 2 := by
    apply BitVec.eq_of_toNat_eq
    simp only [BitVec.extractLsb'_toNat, Nat.shiftRight_zero, hw]
    omega
  unfold patchIa wordIa
  rw [hhigh, hlow]
  apply BitVec.eq_of_getLsbD_eq
  intro k hk
  rw [BitVec.getLsbD_append, BitVec.getLsbD_append]
  simp only [BitVec.getLsbD_extractLsb']
  by_cases h6 : k < 6
  · by_cases h2 : k < 2
    · simp [h6, h2]
    · have hk' : 2 + (k - 2) = k := by omega
      simp [h6, h2, hk', show k - 2 < 4 by omega]
  · have hk' : 6 + (k - 6) = k := by omega
    simp [h6, hk', show k - 6 < 58 by omega]

/-! ## Repeated instructions -/

/-- Of the words, `stq` and `stqcx.` are stores of a pair of registers, and only `op60` makes one
with a prefix. -/
def pairStoresOk (icode : InsnCode) : Bool :=
  (repeatOf icode == .drsp) == (icode == .stq || icode == .stqcx) &&
    (repeatOf (InsnCode.val (icode.pos ||| 1)) == .drsp) == (icode == .op60)

theorem FromIcache.pairStoresOk {icode : InsnCode} (h : FromIcache icode) :
    pairStoresOk icode = true :=
  h.rec (by decide +kernel) (by decide +kernel) (by decide +kernel) (by decide +kernel)

/-- The registers that the instances of an instruction read at the third port. -/
def Item.thirdRegs (item : Item) : List (BitVec 6) :=
  (instances item.decoded.1 item.decoded.2).map fun e => decCReg e.1 e.2

theorem or_one_or_one (x : BitVec 6) : x ||| 1#6 ||| 1#6 = x ||| 1#6 := by
  rw [BitVec.or_assoc, BitVec.or_self]

theorem or_one_and (x : BitVec 6) : (x ||| 1#6) &&& 62#6 = x &&& 62#6 := by
  revert x
  decide

/-- The third register of a store of a pair, as a word of its own or as the suffix of a prefix. -/
theorem regC_pairStore (w : IcacheToDecode1)
    (hcode : w.icode = .stq ∨ w.icode = .stqcx ∨ w.icode = .op60) :
    regC w = if w.icode ≠ .op60 ∧ w.bigEndian = false then insnRs w ||| 1 else insnRs w := by
  have hstfd : atLeast w.icode .stfd = false := by
    obtain h | h | h := hcode <;> rw [h] <;> decide
  have hmaddld : atLeast w.icode .maddld = false := by
    obtain h | h | h := hcode <;> rw [h] <;> decide
  unfold regC
  rw [hstfd, hmaddld]
  obtain h | h | h := hcode <;> simp [h]

/-- A store of a pair reads RS|1 and then the even register in little-endian mode, RS and then RS|1
in big-endian mode. -/
theorem thirdRegs_plain {w : IcacheToDecode1} (hcode : FromIcache w.icode)
    (hrep : repeatOf w.icode = .drsp) :
    (Item.plain w).thirdRegs =
      if w.bigEndian then [insnRs w, insnRs w ||| 1] else [insnRs w ||| 1, insnRs w &&& ~~~1] := by
  have hok := hcode.pairStoresOk
  simp only [Decode1.pairStoresOk, Bool.and_eq_true, beq_iff_eq] at hok
  have hstq : w.icode = .stq ∨ w.icode = .stqcx := by simpa [hrep] using hok.1
  have hne : w.icode ≠ .op60 := by
    obtain h | h := hstq <;> rw [h] <;> decide
  have hreg : regC w = if w.bigEndian = false then insnRs w ||| 1 else insnRs w := by
    rw [regC_pairStore w (by tauto)]
    simp [hne]
  unfold Item.thirdRegs instances decCReg
  cases hbe : w.bigEndian <;>
    simp [Item.decoded, ofWord, pairedReg, hrep, hreg, hbe, or_one_or_one, or_one_and]

/-- A prefixed store of a pair reads RS and then RS|1. -/
theorem thirdRegs_pair {p w : IcacheToDecode1} (hcode : FromIcache w.icode)
    (hrep : repeatOf (suffixCode (prefixBits p) w.icode) = .drsp) :
    (Item.pair p w).thirdRegs = [insnRs w, insnRs w ||| 1] := by
  have hok := hcode.pairStoresOk
  simp only [Decode1.pairStoresOk, Bool.and_eq_true, beq_iff_eq] at hok
  have hcode60 : w.icode = .op60 := by
    unfold suffixCode at hrep
    split_ifs at hrep
    · exact absurd hrep (by decide)
    · have hiff := hok.2
      rw [hrep] at hiff
      simpa using hiff.symm
  have hreg : regC w = insnRs w := by
    rw [regC_pairStore w (by tauto)]
    simp [hcode60]
  unfold Item.thirdRegs instances decCReg
  simp [Item.decoded, ofWord, pairedReg, hrep, hreg, or_one_or_one]

/-! ## Whole runs -/

/-- From a reset or a flush on, whatever came before it, decode1 passes on the instances of the
instructions of the words it takes.  A suffix is marked illegal when the two words are no
instruction, else that instruction is decoded, with the address of the prefix; a store of a pair
reads RS|1 and then the even register when it is a word of its own in little-endian mode, otherwise
RS and then RS|1. -/
theorem decode1_stream (l : Logged) (i₀ : Inputs) (h₀ : (i₀.rst || i₀.flushIn) = true)
    (is : List Inputs) (hmode : Clocked.Along Logged.step SteadyMode (l.step i₀) is) :
    (Clocked.run Logged.step (l.step i₀) is).passed ++
        remaining (Clocked.run Logged.step (l.step i₀) is).s =
      expected (Clocked.run Logged.step (l.step i₀) is).taken ∧
    ∀ p w : IcacheToDecode1, FromIcache w.icode →
      (Item.pair p w).decoded.1.illegalSuffix = (prefixedForm (prefixBits p) w.icode).isNone ∧
      (∀ form, prefixedForm (prefixBits p) w.icode = some form → (Item.pair p w).decoded.2 = form) ∧
      (wordIa p ≠ 0b1111#4 → w.nia = p.nia + 4 → (Item.pair p w).decoded.1.nia = p.nia) ∧
      (repeatOf (Item.plain w).decoded.2 = .drsp → (Item.plain w).thirdRegs =
        if w.bigEndian then [insnRs w, insnRs w ||| 1] else [insnRs w ||| 1, insnRs w &&& ~~~1]) ∧
      (repeatOf (Item.pair p w).decoded.2 = .drsp →
        (Item.pair p w).thirdRegs = [insnRs w, insnRs w ||| 1]) := by
  constructor
  · have hinv : Inv (Clocked.run Logged.step (l.step i₀) is) :=
      hmode.invariant (fun _ _ hok h => Inv.step h hok) (inv_of_reset h₀ l)
    exact hinv.out
  · intro p w hcode
    obtain ⟨hvalid, hform⟩ := hcode.suffix (prefixBits p)
    refine ⟨?_, hform, patchIa_wordIa, thirdRegs_plain hcode, thirdRegs_pair hcode⟩
    show (!validSuffix (prefixBits p) w.icode) = _
    rw [hvalid]
    cases prefixedForm (prefixBits p) w.icode <;> rfl

/-- A word at an address, with nothing predicted. -/
def wordAt (nia : BitVec 64) (insn : BitVec 32) (icode : InsnCode) : IcacheToDecode1 :=
  ⟨true, false, false, nia, insn, icode, false, false, false⟩

/-- No word. -/
def noWord : IcacheToDecode1 := { wordAt 0 0 .illegal with valid := false }

/-- A cycle without a stall or a flush. -/
def feed (f : IcacheToDecode1) : Inputs := ⟨false, false, false, f⟩

def resetEdge : Inputs := ⟨true, false, false, noWord⟩

/-- Any state before a reset. -/
def beforeReset : Logged := ⟨⟨{}, .illegal, false, {}⟩, [], []⟩

/-- A prefix and its suffix with a flush between them, then `stq r4,0(r1)`. -/
def flushedPrefix : List Inputs :=
  [feed (wordAt 0x10 0x06000000 .prefixInsn),
    { feed (wordAt 0x14 0x38600001 .addi) with flushIn := true },
    feed (wordAt 0x20 0xf8810002 .stq), feed noWord, feed noWord]

theorem decode1_stream_flush :
    (resetEdge.rst || resetEdge.flushIn) = true ∧
    Clocked.Along Logged.step SteadyMode (beforeReset.step resetEdge) flushedPrefix ∧
    (Clocked.run Logged.step (beforeReset.step resetEdge) flushedPrefix).passed.map
      (fun e => (e.1.regC, e.1.second, e.2)) = [(5, false, .stq), (4, true, .stq)] ∧
    (Clocked.run Logged.step (beforeReset.step resetEdge) flushedPrefix).passed ++
        remaining (Clocked.run Logged.step (beforeReset.step resetEdge) flushedPrefix).s =
      expected (Clocked.run Logged.step (beforeReset.step resetEdge) flushedPrefix).taken :=
  ⟨rfl, by decide +kernel, by decide +kernel,
    (decode1_stream beforeReset resetEdge rfl flushedPrefix (by decide +kernel)).1⟩

/-- `stq r5,0(r1)` in little-endian mode, whose registers are no pair. -/
def stqOdd : IcacheToDecode1 := wordAt 0x20 0xf8a10002 .stq

/-- A prefix in the last word of its block, with the next word. -/
def lastPrefix : IcacheToDecode1 := wordAt 0x3c 0x06000000 .prefixInsn

def afterLastPrefix : IcacheToDecode1 := wordAt 0x40 0x38600001 .addi

/-- The second register of an odd RS is not RS, and the word after a prefix in the last word of a
block is neither an instruction of its own nor has the address of the prefix. -/
theorem stream_not_as_pairs :
    (Clocked.run Logged.step (beforeReset.step resetEdge) [feed stqOdd, feed noWord,
      feed noWord]).passed.map
        (fun e => decCReg e.1 e.2) ≠ [insnRs stqOdd ||| 1, insnRs stqOdd] ∧
    (Clocked.run Logged.step (beforeReset.step resetEdge)
        [feed lastPrefix, feed afterLastPrefix, feed noWord]).passed.map
        (fun e => (e.1.nia, e.1.prefixed, e.1.misalignedPrefix, e.2)) =
      [(0x3c, false, true, .prefixInsn), (0x7c, true, false, .paddi)] := by
  constructor <;> decide +kernel

end Microwatt.Decode1
