import Microwatt.Spi.Clocks

/-!
# The header of a read

The access that is read is the one whose word comes next: each read that goes on without a new
command is one of the address that follows.  The header goes out bit by bit, so that the flash has
the command and the address that was asked for first.
-/

namespace Microwatt.Spi

open Soc

section

variable {g : Config} {f : Flash} {x : Sys} {e : Edge}

/-! ## The access that is read -/

/-- The states in which a read is under way. -/
def reading (a : AutoState) : Bool :=
  selected a && a != .waitReq

/-- The read under way is the one whose word comes next. -/
structure Asked (x : Sys) : Prop where
  read : reading x.st.autoState = true →
    ∃ a, x.outstanding = some a ∧ x.st.wbOut.ack = false ∧ a.map = true ∧ a.req.we = false
  word : reading x.st.autoState = true → (addr x.st).toNat = x.first + 4 * x.words
  last : x.st.autoState = .sendAck ∨ x.st.autoState = .waitReq →
    x.st.autoLastAddr.toNat = x.first + 4 * x.words + 4

theorem addr_toNat (s : State) : (addr s).toNat = 4 * (s.wbReq.adr.extractLsb' 0 28).toNat := by
  simp only [addr, BitVec.toNat_append, BitVec.toNat_ofNat, Nat.zero_mod, Nat.shiftLeft_eq,
    Nat.zero_mul, Nat.zero_or, Nat.or_zero]
  omega

theorem addr_lt (s : State) : (addr s).toNat + 4 ≤ 2 ^ 30 := by
  have := (s.wbReq.adr.extractLsb' 0 28).isLt
  rw [addr_toNat]
  omega

/-! ## The header -/

/-- The bits of the header in the order in which they are sent. -/
def headerBit (x : Sys) (n : Nat) : Bool :=
  if n < 8 then (autoCfgCmd x.st).getLsbD (7 - n)
  else x.first.testBit (8 * addrBytes x.st - 1 - (n - 8))

/-- The bits on the line, and those that the flash has taken. -/
structure Header (g : Config) (f : Flash) (x : Sys) : Prop where
  line : selected x.st.autoState = true → ∀ j < left x.st.rxtx,
    x.dev.clocks + j < 8 + 8 * addrBytes x.st →
      x.st.rxtx.oreg.getLsbD (7 - (if x.st.rxtx.sck1 then 1 else 0) - j) =
        headerBit x (x.dev.clocks + j)
  mode : selected x.st.autoState = true → 0 < left x.st.rxtx →
    x.dev.clocks < 8 + 8 * addrBytes x.st → x.st.rxtx.cmdMode = 1
  cmd : selected x.st.autoState = true → x.dev.cmd = autoCfgCmd x.st >>> (8 - x.dev.clocks)
  adr : selected x.st.autoState = true → Suits g f x.st →
    x.dev.adr = x.first % 2 ^ (8 * addrBytes x.st) / 2 ^ (8 * addrBytes x.st - (x.dev.clocks - 8))

/-- A shift register that takes the bits of a number from the highest one. -/
theorem shift_bits (a : BitVec 8) {n : Nat} (hn : n < 8) :
    (a >>> (8 - n)).extractLsb' 0 7 ++ BitVec.ofBool (a.getLsbD (7 - n)) = a >>> (8 - (n + 1)) := by
  ext i hi
  simp only [BitVec.getElem_append, BitVec.getElem_ushiftRight, BitVec.getElem_extractLsb',
    BitVec.getLsbD_ushiftRight]
  split_ifs with h0
  · have : i = 0 := by omega
    subst this
    simp only [BitVec.getElem_ofBool]
    congr 1
    omega
  · congr 1
    omega

theorem div_bits (a : Nat) {m : Nat} (hm : 0 < m) :
    2 * (a / 2 ^ m) + (a.testBit (m - 1)).toNat = a / 2 ^ (m - 1) := by
  obtain ⟨k, rfl⟩ : ∃ k, m = k + 1 := ⟨m - 1, by omega⟩
  have hdiv : a / 2 ^ (k + 1) = a / 2 ^ k / 2 := by rw [Nat.pow_succ, Nat.div_div_eq_div_mul]
  have hbit : (a.testBit k).toNat = a / 2 ^ k % 2 := by
    rw [Nat.testBit_eq_decide_div_mod_eq]
    have := Nat.mod_lt (a / 2 ^ k) (by omega : 0 < 2)
    by_cases h : a / 2 ^ k % 2 = 1
    · simp [h]
    · have : a / 2 ^ k % 2 = 0 := by omega
      simp [this]
  simp only [Nat.add_sub_cancel]
  rw [hbit, hdiv]
  omega

/-! ## One edge -/

theorem first_step (hst : x.st.autoState ≠ .idle) : (x.step g f e).first = x.first :=
  if_neg fun hc => hst hc.2

theorem Suits.congr {s t : State} (h : t.autoCfg = s.autoCfg) (hs : Suits g f t) : Suits g f s := by
  obtain ⟨hb, -, -⟩ := lengths_congr h
  obtain ⟨hdec, hl⟩ := hs
  unfold dummyClocks autoCfgCmd autoCfgMode autoCfgDummies at *
  rw [hb, h] at hdec
  rw [h] at hl
  exact ⟨hdec, hl⟩

theorem selected_of_reading {a : AutoState} (h : reading a = true) : selected a = true := by
  simp only [reading, Bool.and_eq_true] at h
  exact h.1

theorem ne_idle_of_selected {a : AutoState} (h : selected a = true) : a ≠ .idle := by
  rintro rfl
  cases h

/-- An access to the map stays as long as the machine does not answer. -/
theorem wait_of_map (hb : Bus x) (he : OneAtATime x e)
    (hv : wbMapValid x.st (x.input g f e) = true)
    (hack : (autoComb g x.st (x.input g f e)).ack = false) :
    ∃ a, x.outstanding = some a ∧ x.st.wbReq = a.req ∧ a.map = true ∧
      (x.step g f e).outstanding = some a ∧ (x.step g f e).st.wbOut.ack = false ∧
      addr (x.step g f e).st = addr x.st := by
  have hvalid : wbValid x.st = true := by
    simp only [wbMapValid, Bool.and_eq_true] at hv
    exact hv.1
  obtain ⟨a, ha, hwait, hreq⟩ := hb.pending_of_valid hvalid
  have hmap : a.map = true := by
    rw [← (selects_of_pending (g := g) (f := f) hb he ha hwait).1]
    exact hv
  cases bus_move (g := g) (f := f) hb he with
  | idle hv' => rw [hvalid] at hv'; cases hv'
  | accept _ _ hv' => rw [hvalid] at hv'; cases hv'
  | answer _ _ _ hrsp =>
      rw [(wbRsp_of_map (g := g) hv hb.cs).1, hack] at hrsp
      cases hrsp
  | wait b hb' _ _ hout hack' hreq' =>
      obtain rfl : b = a := Option.some.inj (hb'.symm.trans ha)
      refine ⟨b, ha, hreq, hmap, hout, hack', ?_⟩
      unfold addr
      rw [hreq']

theorem Asked.mapValid (h : Asked x) (hb : Bus x) (he : OneAtATime x e)
    (hr : reading x.st.autoState = true) : wbMapValid x.st (x.input g f e) = true := by
  obtain ⟨a, ha, hack, hmap, -⟩ := h.read hr
  rw [(selects_of_pending (g := g) (f := f) hb he ha hack).1, hmap]

/-- While a read is under way, its access stays. -/
theorem Asked.keeps (h : Asked x) (hb : Bus x) (he : OneAtATime x e)
    (hr : reading x.st.autoState = true) (hack : (autoComb g x.st (x.input g f e)).ack = false) :
    (∃ a, (x.step g f e).outstanding = some a ∧ (x.step g f e).st.wbOut.ack = false ∧
      a.map = true ∧ a.req.we = false) ∧
    (addr (x.step g f e).st).toNat = x.first + 4 * x.words := by
  obtain ⟨a, ha, -, hmap, hwe⟩ := h.read hr
  obtain ⟨b, hb', -, -, hout, hack', haddr⟩ := wait_of_map hb he (h.mapValid hb he hr) hack
  obtain rfl : b = a := Option.some.inj (hb'.symm.trans ha)
  exact ⟨⟨b, hout, hack', hmap, hwe⟩, by rw [haddr]; exact h.word hr⟩

theorem Asked.of_waiting (hst : reading (x.step g f e).st.autoState = false)
    (hlast : (x.step g f e).st.autoState = .waitReq →
      (x.step g f e).st.autoLastAddr.toNat = (x.step g f e).first + 4 * (x.step g f e).words + 4) :
    Asked (x.step g f e) := by
  refine ⟨fun hc => ?_, fun hc => ?_, fun hc => ?_⟩
  · rw [hst] at hc
    cases hc
  · rw [hst] at hc
    cases hc
  · rcases hc with hc | hc
    · rw [hc] at hst
      cases hst
    · exact hlast hc

theorem autoLastAddr_step : (x.step g f e).st.autoLastAddr =
    if (autoComb g x.st (x.input g f e)).latchAdr then addr x.st + 4 else x.st.autoLastAddr := rfl

theorem Asked.step (h : Asked x) (hb : Bus x) (he : OneAtATime x e)
    (hplace : PlaceAt x x.st.autoState) : Asked (x.step g f e) := by
  by_cases hr : ctrlReset x.st = true
  · have hnext : (x.step g f e).st.autoState = .boot := by
      simp [autoState_step, autoComb, hr, AutoOut.default]
    exact .of_waiting (by rw [hnext]; rfl) (by rw [hnext]; rintro ⟨⟩)
  simp only [Bool.not_eq_true] at hr
  -- a read that goes on, with the words that it had
  have hgo : reading x.st.autoState = true → (autoComb g x.st (x.input g f e)).ack = false →
      (x.step g f e).words = x.words →
      ((x.step g f e).st.autoState = .sendAck ∨ (x.step g f e).st.autoState = .waitReq →
        (x.step g f e).st.autoLastAddr.toNat = x.first + 4 * x.words + 4) →
          Asked (x.step g f e) := by
    intro hread hack hw hlast
    obtain ⟨ha, haddr⟩ := h.keeps (g := g) (f := f) hb he hread hack
    have hfirst : (x.step g f e).first = x.first :=
      first_step (ne_idle_of_selected (selected_of_reading hread))
    refine ⟨fun _ => ha, fun _ => ?_, fun hc => ?_⟩
    · rw [haddr, hfirst, hw]
    · rw [hlast hc, hfirst, hw]
  cases move (g := g) (i := x.input g f e) hr hb.cs with
  | stay hnext hs hkeeps hack =>
      have hst' : (x.step g f e).st.autoState = x.st.autoState := hnext
      have hlast : x.st.autoState = .sendAck ∨ x.st.autoState = .waitReq →
          (x.step g f e).st.autoLastAddr.toNat = x.first + 4 * x.words + 4 := by
        rw [autoLastAddr_step, hkeeps.latch]
        exact h.last
      have hw : (x.step g f e).words = x.words := by
        rcases words_stay hst' with hw | hcs
        · exact hw
        · rw [words_csOn (hst'.trans hcs)]
          exact (hplace.at hcs).symm
      by_cases hread : reading x.st.autoState = true
      · refine hgo hread ?_ hw (by rw [hst']; exact hlast)
        by_contra hc
        exact ne_idle_of_selected (selected_of_reading hread) (hack (by simpa using hc)).1
      · refine .of_waiting (by rw [hst']; simpa using hread) (fun hc => ?_)
        rw [hst'] at hc
        rw [first_step (by rw [hc]; rintro ⟨⟩), hw]
        exact hlast (Or.inr hc)
  | send q hq hs _ _ _ hnext _ hack =>
      have hst' : (x.step g f e).st.autoState = q.next := hnext
      have hfrom : x.st.autoState ≠ .boot →
          reading x.st.autoState = true ∧ q.next ≠ .sendAck ∧ q.next ≠ .waitReq ∧ q.next ≠ .csOn ∧
            x.st.autoState ≠ .waitReq := by
        intro hboot
        rcases sending_next hq with ⟨hb, -⟩ | ⟨j, hq', hf | ⟨k, hf⟩, -⟩ | ⟨hf, hq', -⟩ |
          ⟨hf | hf, hq'⟩ | ⟨j, hf, hq'⟩
        · exact absurd hb hboot
        all_goals
          rw [hf, hq']
          exact ⟨rfl, (by rintro ⟨⟩), (by rintro ⟨⟩), (by rintro ⟨⟩), (by rintro ⟨⟩)⟩
      by_cases hboot : x.st.autoState = .boot
      · have hq' : q.next = .idle := by
          simp only [sending, hboot] at hq
          rw [← Option.some.inj hq]
        exact .of_waiting (by rw [hst', hq']; rfl) (by rw [hst', hq']; rintro ⟨⟩)
      · obtain ⟨hread, h1, h2, h3, h4⟩ := hfrom hboot
        refine hgo hread hack (words_step (by rwa [hst']) h4) (fun hc => ?_)
        rw [hst'] at hc
        rcases hc with hc | hc
        · exact absurd hc h1
        · exact absurd hc h2
  | noBoot hst hnext =>
      have hst' : (x.step g f e).st.autoState = .idle := hnext
      exact .of_waiting (by rw [hst']; rfl) (by rw [hst']; rintro ⟨⟩)
  | select hst hv hwe hnext _ _ hack =>
      have hst' : (x.step g f e).st.autoState = .csOn := hnext
      obtain ⟨a, -, hreq, hmap, hout, hack', haddr⟩ := wait_of_map hb he hv hack
      refine ⟨fun _ => ⟨a, hout, hack', hmap, hreq ▸ hwe⟩, fun _ => ?_, fun hc => ?_⟩
      · have hfirst : (x.step g f e).first = (addr x.st).toNat := if_pos ⟨hst', hst⟩
        rw [haddr, hfirst, words_csOn hst']
        rfl
      · rw [hst'] at hc
        rcases hc with hc | hc <;> cases hc
  | command hst hnext _ _ hack =>
      have hst' : (x.step g f e).st.autoState = .cmd := hnext
      refine hgo (by rw [hst]; rfl) hack (words_step (by simp [hst']) (by simp [hst]))
        (fun hc => ?_)
      rw [hst'] at hc
      rcases hc with hc | hc <;> cases hc
  | byte j hst _ hnext _ _ hlatch hack =>
      have hst' : (x.step g f e).st.autoState = afterByte j := hnext
      have hread : reading x.st.autoState = true := by rw [hst]; rfl
      refine hgo hread hack (words_step ?_ (by simp [hst])) (fun hc => ?_)
      · rw [hst']
        fin_cases j <;> rintro ⟨⟩
      · -- the address that follows is kept with the last byte
        have hj : j = 3 := by
          rw [hst'] at hc
          fin_cases j <;> simp [afterByte] at hc ⊢
        have hlt := addr_lt x.st
        rw [autoLastAddr_step, hlatch, hj]
        simp only [beq_self_eq_true, if_true, BitVec.toNat_add, ← h.word hread]
        rw [Nat.mod_eq_of_lt]
        · rfl
        · simp
          omega
  | answer hst hnext _ hkeeps =>
      have hst' : (x.step g f e).st.autoState = .waitReq := hnext
      refine .of_waiting (by rw [hst']; rfl) (fun _ => ?_)
      rw [autoLastAddr_step, hkeeps.latch, first_step (by simp [hst]),
        words_step (by simp [hst']) (by simp [hst])]
      exact h.last (Or.inl hst)
  | goOn hst hv hwe hsame hnext _ _ hack =>
      have hst' : (x.step g f e).st.autoState = .dat 0 := hnext
      obtain ⟨a, -, hreq, hmap, hout, hack', haddr⟩ := wait_of_map hb he hv hack
      refine ⟨fun _ => ⟨a, hout, hack', hmap, hreq ▸ hwe⟩, fun _ => ?_, fun hc => ?_⟩
      · rw [haddr, hsame, h.last (Or.inr hst), first_step (by simp [hst]), words_goOn hst hst']
        omega
      · rw [hst'] at hc
        rcases hc with hc | hc <;> cases hc
  | release hst hnext =>
      have hst' : (x.step g f e).st.autoState = .recovery := hnext
      exact .of_waiting (by rw [hst']; rfl) (by rw [hst']; rintro ⟨⟩)
  | recovered hst hnext =>
      have hst' : (x.step g f e).st.autoState = .idle := hnext
      exact .of_waiting (by rw [hst']; rfl) (by rw [hst']; rintro ⟨⟩)

/-! ### The header goes out -/

theorem getLsbD_addrByte (a : BitVec 32) (j : Fin 4) {b : Nat} (hb : b < 8) :
    (addrByte a j).getLsbD b = a.toNat.testBit (8 * j.val + b) := by
  rw [addrByte, BitVec.getLsbD_extractLsb']
  simp [hb, BitVec.getLsbD]

/-- A command that belongs to the header sends its bits. -/
theorem header_send (hc : Count x) (ha : Asked x) {q : Sending} (hq : sending x.st = some q)
    (hboot : x.st.autoState ≠ .boot) (hlt : issued x < 8 + 8 * addrBytes x.st) :
    q.mode = 1 ∧ q.clks = 7 ∧
      ∀ j < 8, q.txd.getLsbD (7 - j) = headerBit x (issued x + j) := by
  obtain ⟨h3, h4⟩ := addrBytes_bounds x.st
  have hhdr : 8 + 8 * addrBytes x.st ≤ headerClocks x.st := Nat.le_add_right _ _
  -- a byte of the address, of which as many bytes have gone as stand above it
  have hadr : ∀ k : Fin 4, x.st.autoState = .adr k → ∀ j < 8,
      (addrByte (addr x.st) k).getLsbD (7 - j) = headerBit x (issued x + j) := by
    intro k hk j hj
    obtain ⟨hw, hfour⟩ := hc.place.at hk
    have hword := ha.word (by rw [hk]; rfl)
    have hiss : issued x = 8 * (addrBytes x.st - k.val) := by rw [issued, hk]
    have hkb : k.val < addrBytes x.st := by
      by_cases hk3 : k = 3
      · have : addrBytes x.st = 4 := if_pos (hfour hk3)
        omega
      · have : k.val ≠ 3 := fun hc3 => hk3 (Fin.ext hc3)
        omega
    rw [getLsbD_addrByte _ _ (by omega), hword, hw, hiss, headerBit, if_neg (by omega)]
    congr 1
    omega
  unfold sending at hq
  split at hq
  case h_1 hs => exact absurd hs hboot
  case h_9 => cases hq
  case h_7 hs =>
    rw [issued, hs] at hlt
    simp at hlt
  case h_8 j hs =>
    rw [issued, hs] at hlt
    simp only at hlt
    omega
  all_goals
    rename_i hs
    obtain rfl := Option.some.inj hq
    refine ⟨rfl, rfl, ?_⟩
  · intro j hj
    have hiss : issued x = 0 := by rw [issued, hs]
    rw [hiss, Nat.zero_add, headerBit, if_pos hj]
  · exact hadr 3 hs
  · exact hadr 2 hs
  · exact hadr 1 hs
  · exact hadr 0 hs

/-- A rising edge gives the flash the next bit of the header. -/
theorem mosi_of_rises (h : Header g f x) (hok : x.st.rxtx.Ok)
    (hsel : selected x.st.autoState = true) (hr : rises x.st.rxtx = true)
    (hlt : x.dev.clocks < 8 + 8 * addrBytes x.st) :
    mosi (x.step g f e).st = headerBit x x.dev.clocks := by
  have hpos := hok.left_pos_of_rises hr
  have hn := hok.not_start_of_rises hr
  have hsend : x.st.rxtx.sckSend = false := by
    simp only [rises, Bool.and_eq_true] at hr
    exact hok.not_recv_send hr.2
  have horeg : (x.step g f e).st.rxtx.oreg = x.st.rxtx.oreg := by
    simp [Sys.step, Spi.step, Rxtx.step, startCmd, hn, hsend]
  have hbit := h.line hsel 0 (by omega) (by omega)
  rw [hok.sck1_of_rises hr] at hbit
  unfold mosi
  rw [horeg]
  simpa using hbit

theorem left_of_falls {r : Rxtx} (hf : falls r = true) : left r ≤ 7 := by
  simp only [falls, Bool.and_eq_true, beq_iff_eq, Bool.not_eq_true'] at hf
  obtain ⟨⟨-, hs⟩, hn⟩ := hf
  have h7 : r.bitCount ≠ 7 := by
    intro hc
    simp [nextCmd, hs, hc] at hn
  have hlt : r.bitCount.toNat ≠ 7 := fun hc => h7 (BitVec.eq_of_toNat_eq hc)
  have := r.bitCount.isLt
  unfold left
  split_ifs <;> omega

/-- The bits that are still to go stand at the end of the register from which they are shifted. -/
theorem Header.line_step (h : Header g f x) (hc : Count x) (ha : Asked x) (hok : x.st.rxtx.Ok)
    (hsel : selected x.st.autoState = true) (hcs : csN (x.step g f e).st = false)
    (hcfg : (x.step g f e).st.autoCfg = x.st.autoCfg) (hfirst : (x.step g f e).first = x.first)
    (hsend : startCmd x.st.rxtx (cmdOut g x.st (x.input g f e)) = true →
      ∃ q, sending x.st = some q ∧ x.st.autoState ≠ .boot ∧
        (cmdOut g x.st (x.input g f e)).mode = q.mode ∧
        (cmdOut g x.st (x.input g f e)).clks = q.clks ∧
        (cmdOut g x.st (x.input g f e)).txd = q.txd) :
    (∀ j < left (x.step g f e).st.rxtx,
      (x.step g f e).dev.clocks + j < 8 + 8 * addrBytes (x.step g f e).st →
      (x.step g f e).st.rxtx.oreg.getLsbD
        (7 - (if (x.step g f e).st.rxtx.sck1 then 1 else 0) - j) =
          headerBit (x.step g f e) ((x.step g f e).dev.clocks + j)) ∧
      (0 < left (x.step g f e).st.rxtx →
        (x.step g f e).dev.clocks < 8 + 8 * addrBytes (x.step g f e).st →
        (x.step g f e).st.rxtx.cmdMode = 1) := by
  have hbit : ∀ n, headerBit (x.step g f e) n = headerBit x n := by
    intro n
    simp only [headerBit, autoCfgCmd, hcfg, hfirst, (lengths_congr hcfg).1]
  have hsck : (x.step g f e).st.rxtx.sck1 =
      if startCmd x.st.rxtx (cmdOut g x.st (x.input g f e)) || falls x.st.rxtx then false
      else if rises x.st.rxtx then true else x.st.rxtx.sck1 := sck1_step hok
  have horeg : (x.step g f e).st.rxtx.oreg =
      if startCmd x.st.rxtx (cmdOut g x.st (x.input g f e)) then
        (cmdOut g x.st (x.input g f e)).txd
      else if x.st.rxtx.sckSend then shiftOut x.st.rxtx.cmdMode x.st.rxtx.oreg
      else x.st.rxtx.oreg := rfl
  have hmode : (x.step g f e).st.rxtx.cmdMode =
      if startCmd x.st.rxtx (cmdOut g x.st (x.input g f e)) then
        (cmdOut g x.st (x.input g f e)).mode
      else x.st.rxtx.cmdMode := rfl
  rw [(lengths_congr hcfg).1]
  simp only [hbit]
  rw [dev_step hok hcs, hsck, horeg, hmode]
  by_cases hs : startCmd x.st.rxtx (cmdOut g x.st (x.input g f e)) = true
  · -- a new command, when the one before has no clocks left
    obtain ⟨q, hq, hboot, hqm, hqc, hqt⟩ := hsend hs
    have hz : left x.st.rxtx = 0 := by
      simp only [startCmd, Bool.and_eq_true] at hs
      exact left_of_nextCmd hs.1
    have hiss : x.dev.clocks = issued x := by
      have := hc.clocks hsel
      omega
    have hleft : left (x.step g f e).st.rxtx = (cmdOut g x.st (x.input g f e)).clks.toNat + 1 :=
      left_of_startCmd hok hs
    have hclks : (if rises x.st.rxtx then x.dev.rise f (mosi (x.step g f e).st)
        else if startCmd x.st.rxtx (cmdOut g x.st (x.input g f e)) ||
          falls x.st.rxtx then x.dev.fall
        else x.dev).clocks = issued x := by
      rw [rises_of_left hok hz, hs]
      exact hiss
    rw [hclks, hleft, hqc, hqt, hqm, hs]
    simp only [Bool.true_or, if_true, Bool.false_eq_true, if_false, Nat.sub_zero]
    refine ⟨fun j hj hlt => ?_, fun _ hlt => ?_⟩
    · obtain ⟨-, hseven, htxd⟩ := header_send hc ha hq hboot (by omega)
      rw [hseven] at hj
      exact htxd j hj
    · exact (header_send hc ha hq hboot hlt).1
  · simp only [Bool.not_eq_true] at hs
    have hleft : left (x.step g f e).st.rxtx =
        if rises x.st.rxtx then left x.st.rxtx - 1 else left x.st.rxtx := left_of_not_start hok hs
    rw [hleft, hs]
    simp only [Bool.false_eq_true, if_false, Bool.false_or]
    by_cases hr : rises x.st.rxtx = true
    · -- the bit has been taken
      have hsend' : x.st.rxtx.sckSend = false := by
        simp only [rises, Bool.and_eq_true] at hr
        exact hok.not_recv_send hr.2
      have hpos := hok.left_pos_of_rises hr
      rw [if_pos hr, if_pos hr, hsend', hok.not_falls_of_rises hr, hr]
      refine ⟨fun j hj hlt => ?_, fun _ hlt => ?_⟩
      · have hlt' : x.dev.clocks + 1 + j < 8 + 8 * addrBytes x.st := hlt
        have hbit' := h.line hsel (j + 1) (by omega) (by omega)
        rw [hok.sck1_of_rises hr] at hbit'
        show x.st.rxtx.oreg.getLsbD (7 - 1 - j) = headerBit x (x.dev.clocks + 1 + j)
        rw [show 7 - 1 - j = 7 - 0 - (j + 1) by omega, Nat.add_assoc, Nat.add_comm 1 j]
        exact hbit'
      · have hlt' : x.dev.clocks + 1 < 8 + 8 * addrBytes x.st := hlt
        exact h.mode hsel (by omega) (by omega)
    · simp only [Bool.not_eq_true] at hr
      rw [hr]
      simp only [Bool.false_eq_true, if_false]
      by_cases hf : falls x.st.rxtx = true
      · -- the next bit is put on the line
        have hsend' : x.st.rxtx.sckSend = true := by
          simp only [falls, Bool.and_eq_true] at hf
          exact hf.1.2
        have h7 := left_of_falls hf
        rw [hf, hsend']
        simp only [if_true, Bool.false_eq_true, if_false]
        refine ⟨fun j hj hlt => ?_, fun hpos hlt => h.mode hsel hpos hlt⟩
        have hlt' : x.dev.clocks + j < 8 + 8 * addrBytes x.st := hlt
        have hbit' := h.line hsel j hj hlt'
        rw [hok.sck1_of_falls hf] at hbit'
        have hone := h.mode hsel (by omega) (by omega)
        have hshift : shiftOut x.st.rxtx.cmdMode x.st.rxtx.oreg = x.st.rxtx.oreg <<< 1 := by
          rw [hone]
          rfl
        rw [hshift, BitVec.getLsbD_shiftLeft, ← show headerBit x (x.dev.clocks + j) =
          headerBit x (x.dev.fall.clocks + j) from rfl, ← hbit']
        simp only [if_true, show 7 - 0 - j < 8 by omega, show ¬7 - 0 - j < 1 by omega]
        rw [show 7 - 0 - j - 1 = 7 - 1 - j by omega]
        simp
      · simp only [Bool.not_eq_true] at hf
        rw [hf]
        simp only [Bool.false_eq_true, if_false]
        refine ⟨fun j hj hlt => ?_, fun hpos hlt => h.mode hsel hpos hlt⟩
        have hkeep : (if x.st.rxtx.sckSend then shiftOut x.st.rxtx.cmdMode x.st.rxtx.oreg
            else x.st.rxtx.oreg) = x.st.rxtx.oreg := by
          refine if_neg fun hsend' => ?_
          -- a pulse that is no falling edge ends the command
          have hst : x.st.rxtx.state = .data := by
            refine state_eq_data fun hc' => ?_
            rw [left_of_busIdle hc'] at hj
            omega
          have hn : nextCmd x.st.rxtx = true := by
            simp only [falls, hst, hsend'] at hf
            simpa using hf
          rw [left_of_nextCmd hn] at hj
          omega
        rw [hkeep]
        exact h.line hsel j hj hlt

/-- The address stays while the command is shifted in. -/
theorem rise_adr_of_command {d : Device} {bit : Bool} (h : d.clocks < 8) :
    (d.rise f bit).adr = d.adr := by
  unfold Device.rise
  cases f.decode d.cmd with
  | none => rfl
  | some c => exact if_neg (by omega)

theorem rise_adr_of_decode {d : Device} {bit : Bool} {c : ReadCmd} (h : f.decode d.cmd = some c) :
    (d.rise f bit).adr =
      if 8 ≤ d.clocks ∧ d.clocks < 8 + 8 * c.addrBytes then 2 * d.adr + bit.toNat else d.adr := by
  unfold Device.rise
  rw [h]

/-- The flash takes the command and the address. -/
theorem Header.taken_step (h : Header g f x) (hok : x.st.rxtx.Ok)
    (hsel : selected x.st.autoState = true) (hcs : csN (x.step g f e).st = false) :
    (x.step g f e).dev.cmd = autoCfgCmd x.st >>> (8 - (x.step g f e).dev.clocks) ∧
      (Suits g f x.st → (x.step g f e).dev.adr = x.first % 2 ^ (8 * addrBytes x.st) /
        2 ^ (8 * addrBytes x.st - ((x.step g f e).dev.clocks - 8))) := by
  have hcmd := h.cmd hsel
  rw [dev_step hok hcs]
  by_cases hr : rises x.st.rxtx = true
  · rw [if_pos hr]
    refine ⟨?_, fun hsuits => ?_⟩
    · show (if x.dev.clocks < 8 then _ else x.dev.cmd) =
          autoCfgCmd x.st >>> (8 - (x.dev.clocks + 1))
      split_ifs with hlt
      · rw [mosi_of_rises h hok hsel hr (by omega), headerBit, if_pos hlt, hcmd, shift_bits _ hlt]
      · rw [hcmd]
        congr 1
        omega
    · have hadr := h.adr hsel hsuits
      show (x.dev.rise f (mosi (x.step g f e).st)).adr =
        _ / 2 ^ (8 * addrBytes x.st - (x.dev.clocks + 1 - 8))
      by_cases hlt : x.dev.clocks < 8
      · -- a bit of the command
        rw [rise_adr_of_command hlt, hadr]
        congr 2
        omega
      · have hdec : f.decode x.dev.cmd =
            some ⟨addrBytes x.st, dummyClocks x.st, linesOf (autoCfgMode x.st)⟩ := by
          rw [hcmd, show 8 - x.dev.clocks = 0 by omega, BitVec.ushiftRight_zero]
          exact hsuits.decode
        rw [rise_adr_of_decode hdec]
        simp only
        split_ifs with hin
        · -- a bit of the address
          rw [mosi_of_rises h hok hsel hr hin.2, headerBit, if_neg hlt, hadr]
          have hm : 0 < 8 * addrBytes x.st - (x.dev.clocks - 8) := by omega
          have hbit : x.first.testBit (8 * addrBytes x.st - 1 - (x.dev.clocks - 8)) =
              (x.first % 2 ^ (8 * addrBytes x.st)).testBit
                (8 * addrBytes x.st - (x.dev.clocks - 8) - 1) := by
            rw [Nat.testBit_mod_two_pow, Nat.sub_right_comm]
            simp [show 8 * addrBytes x.st - (x.dev.clocks - 8) - 1 < 8 * addrBytes x.st by omega]
          rw [hbit, div_bits _ hm]
          congr 2
          omega
        · rw [hadr]
          congr 2
          omega
  · rw [if_neg hr]
    split_ifs
    · exact ⟨hcmd, h.adr hsel⟩
    · exact ⟨hcmd, h.adr hsel⟩

/-- Of a flash that is just selected nothing is known yet but that it has taken nothing. -/
theorem Header.of_clear (hdev : x.dev = .clear) (hz : left x.st.rxtx = 0) : Header g f x := by
  refine ⟨fun _ j hj => ?_, fun _ hpos => ?_, fun _ => ?_, fun _ _ => ?_⟩
  · omega
  · omega
  · rw [hdev]
    show 0#8 = autoCfgCmd x.st >>> 8
    rw [BitVec.ushiftRight_eq_zero (Nat.le_refl 8)]
  · rw [hdev]
    show 0 = _ / 2 ^ (8 * addrBytes x.st - 0)
    rw [Nat.sub_zero, Nat.div_eq_of_lt]
    exact Nat.mod_lt _ (by positivity)

theorem Header.of_not_selected (hsel : selected x.st.autoState = false) : Header g f x := by
  refine ⟨fun hc => ?_, fun hc => ?_, fun hc => ?_, fun hc => ?_⟩ <;>
    · rw [hsel] at hc
      cases hc

/-- Between two states in which the flash is selected the configuration and the first address
stay. -/
theorem Header.of_selected (h : Header g f x) (hc : Count x) (ha : Asked x) (hb : Bus x)
    (hb' : Bus (x.step g f e)) (hok : x.st.rxtx.Ok) (hsel : selected x.st.autoState = true)
    (hsel' : selected (x.step g f e).st.autoState = true)
    (hsend : startCmd x.st.rxtx (cmdOut g x.st (x.input g f e)) = true →
      ∃ q, sending x.st = some q ∧ x.st.autoState ≠ .boot ∧
        (cmdOut g x.st (x.input g f e)).mode = q.mode ∧
        (cmdOut g x.st (x.input g f e)).clks = q.clks ∧
        (cmdOut g x.st (x.input g f e)).txd = q.txd) : Header g f (x.step g f e) := by
  have hidle := ne_idle_of_selected hsel
  have hcfg := autoCfg_step (g := g) (f := f) (e := e) hidle (hb.not_reset hidle)
  have hfirst : (x.step g f e).first = x.first := first_step hidle
  have hcs : csN (x.step g f e).st = false := by rw [csN_of_selected hb', hsel']; rfl
  obtain ⟨hline, hmode⟩ := h.line_step hc ha hok hsel hcs hcfg hfirst hsend
  obtain ⟨hcmd, hadr⟩ := h.taken_step (e := e) hok hsel hcs
  refine ⟨fun _ => hline, fun _ => hmode, fun _ => ?_, fun _ hsuits => ?_⟩
  · rw [hcmd]
    simp only [autoCfgCmd, hcfg]
  · rw [hadr (hsuits.congr hcfg), hfirst, (lengths_congr hcfg).1]

theorem Header.step (h : Header g f x) (hc : Count x) (ha : Asked x) (hb : Bus x)
    (hb' : Bus (x.step g f e)) (hok : x.st.rxtx.Ok) (hquiet : StartsQuiet g f x e) :
    Header g f (x.step g f e) := by
  cases hsel' : selected (x.step g f e).st.autoState with
  | false => exact .of_not_selected hsel'
  | true =>
      have hr : ctrlReset x.st = false := by
        by_contra hr
        have hnext : (x.step g f e).st.autoState = .boot := by
          simp only [Bool.not_eq_false] at hr
          simp [autoState_step, autoComb, hr, AutoOut.default]
        rw [hnext] at hsel'
        cases hsel'
      have hno : startCmd x.st.rxtx (cmdOut g x.st (x.input g f e)) = false →
          startCmd x.st.rxtx (cmdOut g x.st (x.input g f e)) = true →
          ∃ q, sending x.st = some q ∧ x.st.autoState ≠ .boot ∧
            (cmdOut g x.st (x.input g f e)).mode = q.mode ∧
            (cmdOut g x.st (x.input g f e)).clks = q.clks ∧
            (cmdOut g x.st (x.input g f e)).txd = q.txd := by
        intro hs hs'
        rw [hs] at hs'
        cases hs'
      rw [autoState_step] at hsel'
      cases move (g := g) (i := x.input g f e) hr hb.cs with
      | stay hnext hs =>
          exact h.of_selected hc ha hb hb' hok (by rwa [hnext] at hsel') hsel' (hno hs)
      | send q hq hs hmode hclks htxd hnext =>
          have hboot : x.st.autoState ≠ .boot := by
            intro hc'
            simp only [sending, hc'] at hq
            rw [hnext, ← Option.some.inj hq] at hsel'
            cases hsel'
          exact h.of_selected hc ha hb hb' hok (sending_selected hq hboot).1 hsel'
            (fun _ => ⟨q, hq, hboot, hmode, hclks, htxd⟩)
      | noBoot _ hnext => rw [hnext] at hsel'; cases hsel'
      | select hst hv hwe hnext hs =>
          have hz := hquiet hst hv hwe
          have hcs : csN (x.step g f e).st = false := by
            rw [csN_of_selected hb', autoState_step, hsel']
            rfl
          exact .of_clear (dev_select hok hs hz (hc.clear (by rw [hst]; rfl)) hcs)
            (left_zero_step hok hs hz)
      | command hst _ hs => exact h.of_selected hc ha hb hb' hok (by rw [hst]; rfl) hsel' (hno hs)
      | byte j hst _ _ hs => exact h.of_selected hc ha hb hb' hok (by rw [hst]; rfl) hsel' (hno hs)
      | answer hst _ hs => exact h.of_selected hc ha hb hb' hok (by rw [hst]; rfl) hsel' (hno hs)
      | goOn hst _ _ _ _ hs =>
          exact h.of_selected hc ha hb hb' hok (by rw [hst]; rfl) hsel' (hno hs)
      | release _ hnext => rw [hnext] at hsel'; cases hsel'
      | recovered _ hnext => rw [hnext] at hsel'; cases hsel'

end

end Microwatt.Spi
