import Microwatt.Spi.Reads

/-!
# Every access is answered

The clock of the shifter never stops, so that each command is taken sooner or later and each byte
comes; the machine goes on from state to state until it answers the access that waits.
-/

namespace Microwatt.Spi

open Clocked Soc

/-! ## The clock -/

/-- The changes of the internal clock that are to come before the shifter can take a command. -/
def halves (r : Rxtx) : Nat :=
  if nextCmd r then 0
  else if left r = 0 then (if r.sck0 then 1 else 2)
  else 2 * left r + (if r.sck0 then (if r.sckRecv then 0 else 2) else 1)

section

variable {r : Rxtx} {c : Cmd} {dataLines : Nat} {dat : BitVec 4}

theorem halves_of_nextCmd (hn : nextCmd r = true) : halves r = 0 :=
  if_pos hn

theorem halves_of_left_zero (hn : nextCmd r = false) (hl : left r = 0) :
    halves r = if r.sck0 then 1 else 2 := by
  simp [halves, hn, hl]

theorem halves_of_left_pos (hl : 0 < left r) :
    halves r = 2 * left r + (if r.sck0 then (if r.sckRecv then 0 else 2) else 1) := by
  have hn : nextCmd r = false := by
    by_contra hc
    rw [left_of_nextCmd (by simpa using hc)] at hl
    omega
  simp [halves, hn, show left r ≠ 0 by omega]

/-- A shifter that has finished is ready at the falling edge. -/
theorem Rxtx.Ok.ready (h : r.Ok) (hl : left r = 0) (hs : r.sckSend = true) : nextCmd r = true := by
  have h7 : r.bitCount = 7 := by
    cases hst : r.state with
    | standby =>
        rcases (h.standby hst).2 with h7 | ⟨-, hno⟩
        · exact h7
        · rw [hs] at hno
          cases hno
    | data =>
        unfold left at hl
        split_ifs at hl with hc
        rcases hc with hc | ⟨h7, -⟩
        · rw [hst] at hc
          cases hc
        · exact h7
  simp [nextCmd, hs, h7]

theorem Rxtx.Ok.rises_of_recv (hl : 0 < left r) (hr : r.sckRecv = true) : rises r = true := by
  have hst : r.state = .data := by
    refine state_eq_data fun hc => ?_
    rw [left_of_busIdle hc] at hl
    omega
  simp [rises, hst, hr]

/-- The clock changes when the counter reaches the divider. -/
theorem halves_change (h : r.Ok) (hn : nextCmd r = false) (hcount : r.counter = r.clkDiv) :
    halves (r.step c dataLines dat) < halves r := by
  have hs : startCmd r c = false := by simp [startCmd, hn]
  have hleft : left (r.step c dataLines dat) = if rises r then left r - 1 else left r :=
    left_of_not_start h hs
  have hsck : (r.step c dataLines dat).sck0 = !r.sck0 := if_pos hcount
  have hsend : (r.step c dataLines dat).sckSend = r.sck0 := if_pos hcount
  have hrecv : (r.step c dataLines dat).sckRecv = !r.sck0 := if_pos hcount
  have hok' : (r.step c dataLines dat).Ok := h.step
  by_cases hl : left r = 0
  · rw [rises_of_left h hl, hl] at hleft
    rw [halves_of_left_zero hn hl]
    cases h0 : r.sck0 with
    | true =>
        rw [h0] at hsend
        rw [halves_of_nextCmd (hok'.ready hleft hsend)]
        exact Nat.zero_lt_one
    | false =>
        by_cases hn' : nextCmd (r.step c dataLines dat) = true
        · rw [halves_of_nextCmd hn']
          exact Nat.zero_lt_two
        · rw [halves_of_left_zero (by simpa using hn') hleft, hsck, h0]
          exact Nat.one_lt_two
  · rw [halves_of_left_pos (r := r) (by omega)]
    cases hr : r.sckRecv with
    | true =>
        have h0 := h.recv hr
        rw [Rxtx.Ok.rises_of_recv (by omega) hr, if_pos rfl] at hleft
        rw [h0] at hsend hsck
        by_cases hl' : left (r.step c dataLines dat) = 0
        · rw [halves_of_nextCmd (hok'.ready hl' hsend)]
          omega
        · rw [halves_of_left_pos (by omega), hsck, h0]
          simp only [Bool.not_true, Bool.false_eq_true, if_false, if_true]
          omega
    | false =>
        have hno : rises r = false := by simp [rises, hr]
        rw [hno] at hleft
        simp only [Bool.false_eq_true, if_false] at hleft ⊢
        rw [halves_of_left_pos (by omega), hsck, hrecv, hleft]
        cases r.sck0 <;> simp

/-- Until then it goes on counting. -/
theorem halves_keep (h : r.Ok) (hn : nextCmd r = false) (hcount : r.counter ≠ r.clkDiv) :
    halves (r.step c dataLines dat) ≤ halves r := by
  have hs : startCmd r c = false := by simp [startCmd, hn]
  have hleft : left (r.step c dataLines dat) = if rises r then left r - 1 else left r :=
    left_of_not_start h hs
  have hsck : (r.step c dataLines dat).sck0 = r.sck0 := if_neg hcount
  have hsend : (r.step c dataLines dat).sckSend = false := if_neg hcount
  have hrecv : (r.step c dataLines dat).sckRecv = false := if_neg hcount
  have hn' : nextCmd (r.step c dataLines dat) = false := by simp [nextCmd, hsend]
  by_cases hl : left r = 0
  · rw [rises_of_left h hl, hl] at hleft
    rw [halves_of_left_zero hn hl, halves_of_left_zero hn' hleft, hsck]
  · rw [halves_of_left_pos (r := r) (by omega)]
    cases hr : r.sckRecv with
    | true =>
        have h0 := h.recv hr
        rw [Rxtx.Ok.rises_of_recv (by omega) hr, if_pos rfl] at hleft
        rw [h0] at hsck
        by_cases hl' : left (r.step c dataLines dat) = 0
        · rw [halves_of_left_zero hn' hl', hsck]
          simp only [if_true]
          omega
        · rw [halves_of_left_pos (by omega), hsck, h0, hrecv]
          simp only [Bool.false_eq_true, if_false, if_true]
          omega
    | false =>
        have hno : rises r = false := by simp [rises, hr]
        rw [hno] at hleft
        simp only [Bool.false_eq_true, if_false] at hleft ⊢
        rw [halves_of_left_pos (by omega), hsck, hrecv, hleft]
        simp

theorem halves_step (h : r.Ok) (hn : nextCmd r = false) :
    halves (r.step c dataLines dat) < halves r ∨
      (halves (r.step c dataLines dat) = halves r ∧
        (r.step c dataLines dat).clkDiv - (r.step c dataLines dat).counter <
          r.clkDiv - r.counter) := by
  by_cases hcount : r.counter = r.clkDiv
  · exact Or.inl (halves_change h hn hcount)
  · have hkeep : halves (r.step c dataLines dat) ≤ halves r := halves_keep h hn hcount
    rcases Nat.lt_or_eq_of_le hkeep with hlt | heq
    · exact Or.inl hlt
    · refine Or.inr ⟨heq, ?_⟩
      have hdiv : (r.step c dataLines dat).clkDiv = r.clkDiv := if_neg hcount
      have hcnt : (r.step c dataLines dat).counter = r.counter + 1 := if_neg hcount
      have := h.count
      rw [hdiv, hcnt]
      omega

end

/-! ## The machine -/

section

variable {g : Config} {f : Flash} {x : Sys} {e : Edge}

/-- The states on the way of an access.  An access to the registers has to wait for the end of a
read. -/
def order (map : Bool) (a : AutoState) : Nat :=
  (if !map && reading a then 20 else 0) +
    match a with
    | .sendAck => 1
    | .datData j => 8 - 2 * j.val
    | .dat j => 9 - 2 * j.val
    | .dummy => 10
    | .adr j => 11 + j.val
    | .cmd => 15
    | .csOn => 16
    | .idle => 17
    | .boot => 18
    | .recovery => 19
    | .waitReq => 20

/-- What a state waits for. -/
def waiting (s : State) : Nat :=
  match s.autoState with
  | .csOn | .recovery => s.autoCnt
  | .datData _ => if s.rxtx.dAck then 0 else if s.rxtx.datAckL then 1 else halves s.rxtx + 2
  | .idle => if busIdle s.rxtx then 0 else halves s.rxtx + 1
  | _ => halves s.rxtx

/-- The rank of the access under way; the ack has the lowest one. -/
def rank (map : Bool) (x : Sys) : ℕ ×ₗ (ℕ ×ₗ ℕ) :=
  if x.st.wbOut.ack then toLex (0, toLex (0, 0))
  else toLex (order map x.st.autoState,
    toLex (waiting x.st, x.st.rxtx.clkDiv - x.st.rxtx.counter))

theorem order_pos (map : Bool) (a : AutoState) : 0 < order map a := by
  cases a with
  | datData j =>
      have := j.isLt
      simp only [order]
      omega
  | dat j =>
      have := j.isLt
      simp only [order]
      omega
  | _ => simp [order]

/-- Each command leads on. -/
theorem order_send {s : State} {q : Sending} (hq : sending s = some q) (map : Bool) :
    order map q.next < order map s.autoState := by
  unfold sending at hq
  split at hq
  case h_9 => cases hq
  all_goals
    rename_i hs
    obtain rfl := Option.some.inj hq
    rw [hs]
  · simp [order, reading, selected]
  · split_ifs <;> simp [order, reading, selected]
  · simp [order, reading, selected]
  · simp [order, reading, selected]
  · simp [order, reading, selected]
  · split_ifs <;> simp [order, reading, selected]
  · simp [order, reading, selected]
  · rename_i j
    have := j.isLt
    simp only [order, reading, selected]
    simp
    omega

/-- A state that sends waits for the shifter only. -/
theorem not_ready_of_stay {s : State} {i : Input} (hr : ctrlReset s = false) {q : Sending}
    (hq : sending s = some q) (hnext : (autoComb g s i).next = s.autoState) :
    nextCmd s.rxtx = false := by
  by_contra hn
  simp only [Bool.not_eq_false] at hn
  have hq' : (autoComb g s i).next = q.next := by
    unfold sending at hq
    split at hq
    case h_1 hst =>
      obtain rfl := Option.some.inj hq
      cases hb : g.bootClocks <;> simp [autoComb, hr, hst, hb, hn, AutoOut.default]
    case h_9 => cases hq
    all_goals
      rename_i hst
      obtain rfl := Option.some.inj hq
      simp [autoComb, hr, hst, hn, AutoOut.default]
  have hlt := order_send hq true
  rw [← hq', hnext] at hlt
  omega

theorem rxtx_step {s : State} {i : Input} :
    (Spi.step g s i).rxtx = s.rxtx.step (cmdOut g s i) g.dataLines i.sdatI := rfl

theorem autoCnt_step {s : State} {i : Input} :
    (Spi.step g s i).autoCnt = (autoComb g s i).cntNext := rfl

section

variable {s : State} {i : Input} {map : Bool}

/-- A state that is not left waits for something that comes nearer. -/
theorem waiting_stay (hr : ctrlReset s = false) (hcs : ctrlCs s = false) (hok : s.rxtx.Ok)
    (hacks : Acks s) (hmap : wbMapValid s i = map) (hreg : wbRegValid s i = !map)
    (hrsp : (wbRsp g s i).ack = false)
    (hnext : (autoComb g s i).next = s.autoState)
    (hs : startCmd s.rxtx (cmdOut g s i) = false)
    (hbyte : ∀ j, s.autoState = .datData j → s.rxtx.dAck = false) :
    waiting (Spi.step g s i) < waiting s ∨
      (waiting (Spi.step g s i) = waiting s ∧
        (Spi.step g s i).rxtx.clkDiv - (Spi.step g s i).rxtx.counter <
          s.rxtx.clkDiv - s.rxtx.counter) := by
  have hst' : (Spi.step g s i).autoState = s.autoState := hnext
  -- a state that waits for the shifter
  have hsend : ∀ q, sending s = some q →
      waiting s = halves s.rxtx → waiting (Spi.step g s i) = halves (Spi.step g s i).rxtx →
      waiting (Spi.step g s i) < waiting s ∨
        (waiting (Spi.step g s i) = waiting s ∧
          (Spi.step g s i).rxtx.clkDiv - (Spi.step g s i).rxtx.counter <
            s.rxtx.clkDiv - s.rxtx.counter) := by
    intro q hq h1 h2
    rw [h1, h2]
    exact halves_step hok (not_ready_of_stay hr hq hnext)
  cases hst : s.autoState with
  | boot =>
      exact hsend _ (by simp only [sending, hst]; rfl) (by simp [waiting, hst])
        (by simp [waiting, hst', hst])
  | cmd =>
      exact hsend _ (by simp only [sending, hst]; rfl) (by simp [waiting, hst])
        (by simp [waiting, hst', hst])
  | adr j =>
      obtain ⟨q, hq⟩ : ∃ q, sending s = some q := by
        unfold sending
        rw [hst]
        fin_cases j <;> exact ⟨_, rfl⟩
      exact hsend q hq (by simp [waiting, hst]) (by simp [waiting, hst', hst])
  | dummy =>
      exact hsend _ (by simp only [sending, hst]; rfl) (by simp [waiting, hst])
        (by simp [waiting, hst', hst])
  | dat j =>
      exact hsend _ (by simp only [sending, hst]; rfl) (by simp [waiting, hst])
        (by simp [waiting, hst', hst])
  | csOn =>
      have hcnt : s.autoCnt ≠ 0 := by
        intro hc
        rw [hst] at hnext
        simp [autoComb, hr, hst, hc, AutoOut.default] at hnext
      have hcnt' : (Spi.step g s i).autoCnt = s.autoCnt - 1 := by
        simp [autoCnt_step, autoComb, hr, hst, hcnt, AutoOut.default]
      left
      simp only [waiting, hst', hst, hcnt']
      omega
  | recovery =>
      have hcnt : s.autoCnt ≠ 0 := by
        intro hc
        rw [hst] at hnext
        simp [autoComb, hr, hst, hc, AutoOut.default] at hnext
      have hcnt' : (Spi.step g s i).autoCnt = s.autoCnt - 1 := by
        simp [autoCnt_step, autoComb, hr, hst, hcnt, AutoOut.default]
      left
      simp only [waiting, hst', hst, hcnt']
      omega
  | sendAck =>
      rw [hst] at hnext
      simp [autoComb, hr, hst, AutoOut.default] at hnext
  | waitReq =>
      -- the access ends the wait
      have hany : (wbMapValid s i || wbRegValid s i) = true := by
        rw [hmap, hreg]
        cases map <;> rfl
      rw [hst] at hnext
      simp only [autoComb, hr, hst, hany, AutoOut.default] at hnext
      split_ifs at hnext <;> simp_all
  | idle =>
      -- an access to the registers waits for the shifter to finish
      have hm : map = false := by
        by_contra hc
        simp only [Bool.not_eq_false] at hc
        rw [hc] at hmap
        have hack := (wbRsp_of_map (g := g) hmap hcs).1
        rw [hrsp] at hack
        rw [hst] at hnext
        cases hw : s.wbReq.we with
        | true => simp [autoComb, hr, hst, hmap, hcs, hw, AutoOut.default] at hack
        | false => simp [autoComb, hr, hst, hmap, hcs, hw, AutoOut.default] at hnext
      rw [hm] at hmap hreg
      have hready := (wbRsp_of_reg (g := g) hmap hreg hcs).1
      rw [hrsp] at hready
      have hbusy : busIdle s.rxtx = false := by
        simpa [regReady, hst] using hready.symm
      have hw : waiting s = halves s.rxtx + 1 := by simp [waiting, hst, hbusy]
      have hw' : waiting (Spi.step g s i) =
          if busIdle (Spi.step g s i).rxtx then 0 else halves (Spi.step g s i).rxtx + 1 := by
        simp only [waiting, hst', hst]
      rw [hw, hw']
      by_cases hn : nextCmd s.rxtx = true
      · have hend : endCmd s.rxtx (cmdOut g s i) = true := by
          simp only [startCmd, hn, Bool.true_and] at hs
          simp [endCmd, hn, hs]
        left
        rw [if_pos]
        · omega
        · simp [busIdle, rxtx_step, Rxtx.step, hs, hend]
      · simp only [Bool.not_eq_true] at hn
        have hstep : halves (Spi.step g s i).rxtx < halves s.rxtx ∨
            (halves (Spi.step g s i).rxtx = halves s.rxtx ∧
              (Spi.step g s i).rxtx.clkDiv - (Spi.step g s i).rxtx.counter <
                s.rxtx.clkDiv - s.rxtx.counter) := halves_step hok hn
        split_ifs
        · left
          omega
        · omega
  | datData j =>
      have hd := hbyte j hst
      have hw : waiting s = if s.rxtx.datAckL then 1 else halves s.rxtx + 2 := by
        simp [waiting, hst, hd]
      have hw' : waiting (Spi.step g s i) =
          if (Spi.step g s i).rxtx.dAck then 0 else if (Spi.step g s i).rxtx.datAckL then 1
          else halves (Spi.step g s i).rxtx + 2 := by
        simp only [waiting, hst', hst]
      have hd' : (Spi.step g s i).rxtx.dAck = s.rxtx.datAckL := rfl
      rw [hw, hw', hd']
      obtain ⟨-, -, ⟨hpos, hl, -⟩ | ⟨-, hl, -⟩ | ⟨-, -, hdack, -⟩⟩ := hacks.data j hst
      · have hn : nextCmd s.rxtx = false := by
          by_contra hc
          rw [left_of_nextCmd (by simpa using hc)] at hpos
          omega
        have hstep : halves (Spi.step g s i).rxtx < halves s.rxtx ∨
            (halves (Spi.step g s i).rxtx = halves s.rxtx ∧
              (Spi.step g s i).rxtx.clkDiv - (Spi.step g s i).rxtx.counter <
                s.rxtx.clkDiv - s.rxtx.counter) := halves_step hok hn
        rw [hl]
        simp only [Bool.false_eq_true, if_false]
        split_ifs
        · left
          omega
        · omega
      · left
        simp [hl]
      · rw [hd] at hdack
        cases hdack

/-- The next state is nearer to the answer, or what this one waits for is. -/
theorem approach (hr : ctrlReset s = false) (hcs : ctrlCs s = false) (hok : s.rxtx.Ok)
    (hacks : Acks s) (hmap : wbMapValid s i = map) (hreg : wbRegValid s i = !map)
    (hrsp : (wbRsp g s i).ack = false) :
    order map (Spi.step g s i).autoState < order map s.autoState ∨
      (order map (Spi.step g s i).autoState = order map s.autoState ∧
        (waiting (Spi.step g s i) < waiting s ∨
          (waiting (Spi.step g s i) = waiting s ∧
            (Spi.step g s i).rxtx.clkDiv - (Spi.step g s i).rxtx.counter <
              s.rxtx.clkDiv - s.rxtx.counter))) := by
  have hstate : (Spi.step g s i).autoState = (autoComb g s i).next := rfl
  rw [hstate]
  cases move (g := g) (i := i) hr hcs with
  | stay hnext hs _ _ hbyte =>
      exact Or.inr ⟨by rw [hnext], waiting_stay hr hcs hok hacks hmap hreg hrsp hnext hs hbyte⟩
  | send q hq _ _ _ _ hnext =>
      left
      rw [hnext]
      exact order_send hq _
  | noBoot hst hnext => left; rw [hst, hnext]; simp [order, reading, selected]
  | select hst hv _ hnext =>
      left
      rw [← hmap, hv, hst, hnext]
      simp [order]
  | command hst hnext => left; rw [hst, hnext]; simp [order, reading, selected]
  | byte j hst _ hnext =>
      left
      rw [hst, hnext]
      fin_cases j <;> simp [order, reading, selected, afterByte]
  | answer hst hnext _ _ hauto =>
      -- the answer to a read that is no longer asked for
      have hm : map = false := by
        by_contra hc
        simp only [Bool.not_eq_false] at hc
        rw [hc] at hmap
        rw [(wbRsp_of_map (g := g) hmap hcs).1, hauto] at hrsp
        cases hrsp
      left
      rw [hm, hst, hnext]
      simp [order, reading, selected]
  | goOn hst hv _ _ hnext =>
      left
      rw [← hmap, hv, hst, hnext]
      simp [order]
  | release hst hnext => left; rw [hst, hnext]; simp [order, reading, selected]
  | recovered hst hnext => left; rw [hst, hnext]; simp [order, reading, selected]

end

theorem rank_step {a : Access} (hb : Bus x) (he : OneAtATime x e) (hok : x.st.rxtx.Ok)
    (hacks : Acks x.st) (hnow : x.outstanding = some a) (hwait : x.st.wbOut.ack = false) :
    (x.step g f e).outstanding = some a ∧ rank a.map (x.step g f e) < rank a.map x := by
  have hrank : rank a.map x = toLex (order a.map x.st.autoState,
      toLex (waiting x.st, x.st.rxtx.clkDiv - x.st.rxtx.counter)) := by simp [rank, hwait]
  have hvalid := hb.wbValid_of_pending hnow hwait
  cases bus_move (g := g) (f := f) hb he with
  | idle hv => rw [hvalid] at hv; cases hv
  | accept _ _ hv => rw [hvalid] at hv; cases hv
  | answer b hb' _ _ hout hack =>
      obtain rfl : b = a := Option.some.inj (hb'.symm.trans hnow)
      refine ⟨hout, ?_⟩
      have hrank' : rank b.map (x.step g f e) = toLex (0, toLex (0, 0)) := by simp [rank, hack]
      rw [hrank, hrank', Prod.Lex.toLex_lt_toLex]
      exact Or.inl (order_pos _ _)
  | wait b hb' _ hrsp hout hack =>
      obtain rfl : b = a := Option.some.inj (hb'.symm.trans hnow)
      refine ⟨hout, ?_⟩
      have hrank' : rank b.map (x.step g f e) = toLex (order b.map (x.step g f e).st.autoState,
          toLex (waiting (x.step g f e).st,
            (x.step g f e).st.rxtx.clkDiv - (x.step g f e).st.rxtx.counter)) := by simp [rank, hack]
      obtain ⟨hmap, hreg⟩ := selects_of_pending (g := g) (f := f) hb he hnow hwait
      have hr : ctrlReset x.st = false := by
        by_contra hc
        have := (hb.reset (by simpa using hc)).1
        rw [hwait] at this
        cases this
      rw [hrank, hrank', Prod.Lex.toLex_lt_toLex, Prod.Lex.toLex_lt_toLex]
      exact approach hr hb.cs hok hacks hmap hreg hrsp

/-! ## Reads of the memory map -/

/-- A read that is answered has the four bytes at its address, and the flash is given up after whole
bytes. -/
structure Served (g : Config) (f : Flash) (x : Sys) : Prop where
  word : ∀ a, x.outstanding = some a → x.st.wbOut.ack = true → a.map = true → a.req.we = false →
    Suits g f x.st → a.Fits x.st → x.st.wbOut.dat = f.word a.addr
  whole : ∀ e, OneAtATime x e → csN x.st = false → csN (x.step g f e).st = true →
    ∃ k, x.dev.clocks = headerClocks x.st + byteClocks x.st * k

/-- What an access needs to be answered. -/
structure Live (x : Sys) : Prop where
  ok : x.st.rxtx.Ok
  bus : Bus x
  acks : Acks x.st

theorem Live.step (h : Live x) (he : OneAtATime x e) : Live (x.step g f e) :=
  ⟨h.ok.step, h.bus.step he, h.acks.step h.ok h.bus⟩

theorem live_start {s : State} (h : State.Reset g s) : Live (Sys.start s) :=
  ⟨ok_of_reset h, bus_start h, acks_of_reset h⟩

/-- In a run in which no read of the map starts while a byte is on its way to the flash, every read
is answered with the bytes at its address, by a new command or by going on with the last one, and
the flash is never given up in the middle of a byte.  In every run each access is answered in the
end. -/
theorem map_reads_served {s : State} (h : State.Reset g s) :
    (∀ es, Along (Sys.step g f) (fun x e => OneAtATime x e ∧ StartsQuiet g f x e) (Sys.start s) es →
      Served g f (run (Sys.step g f) (Sys.start s) es)) ∧
    (∀ input : Nat → Edge, (∀ n, OneAtATime (sysAt g f s input n) (input n)) →
      ∀ n a, (sysAt g f s input n).outstanding = some a →
        ∃ m, n ≤ m ∧ (sysAt g f s input m).outstanding = some a ∧
          (sysAt g f s input m).st.wbOut.ack = true) := by
  refine ⟨fun es hes => ?_, fun input hin n a ha => ?_⟩
  · have hgood : Good g f (run (Sys.step g f) (Sys.start s) es) :=
      Along.invariant (fun x e he hx => hx.step he.1 he.2) hes (good_start h)
    refine ⟨fun a ha hack hmap hwe hs hf => hgood.reply hack a ha hmap hwe hs hf, fun e he => ?_⟩
    exact hgood.whole_bytes he
  · have hlive : ∀ m, Live (sysAt g f s input m) := fun m =>
      trace_invariant Live 0 (fun k _ hk => hk.step (hin k)) (live_start h) m (Nat.zero_le _)
    obtain ⟨m, hm, hout, hack⟩ := eventually_of_rank
      (fun k => (sysAt g f s input k).outstanding = some a)
      (fun k => (sysAt g f s input k).outstanding = some a ∧
        (sysAt g f s input k).st.wbOut.ack = true)
      (fun k => rank a.map (sysAt g f s input k)) (fun _ => ()) (fun _ _ => True)
      (fun k hk hno => by
        have hwait : (sysAt g f s input k).st.wbOut.ack = false := by
          by_contra hc
          exact hno ⟨hk, by simpa using hc⟩
        obtain ⟨hout, hlt⟩ := rank_step (g := g) (f := f) (hlive k).bus (hin k) (hlive k).ok
          (hlive k).acks hk hwait
        exact ⟨hout, Or.inl hlt⟩)
      (fun k _ => ⟨k, le_rfl, trivial⟩) n ha
    exact ⟨m, hm, hout, hack⟩

end

/-! ## A read after a reset -/

/-- Four data lines, quad reads and the fastest clock. -/
def quadConfig : Config := ⟨0, true, true, 4⟩

/-- A flash that knows the quad read. -/
def quadFlash : Flash where
  mem a := BitVec.ofNat 8 (0xa5 + a)
  decode c := if c = 0x6b then some ⟨3, 8, 4⟩ else none

def wbIdle : WbIoMasterOut := ⟨0, 0, 0, false, false, false⟩

/-- The state after a reset, with zeros in the registers that have none. -/
def State.zero (g : Config) : State where
  ctrlReg := BitVec.ofNat 8 g.defClkDiv ++ 0#8
  autoCfg := defaultCfg g
  pendingRead := false
  wbReq := wbIdle
  wbStash := wbIdle
  wbOut := ⟨0, false, false⟩
  autoData := 0
  autoCnt := 0
  autoState := .boot
  autoLastAddr := 0
  rxtx := ⟨true, true, 0, 0, false, false, 0, 0, false, false, false, 0, 0, .standby⟩

theorem State.zero_reset : State.Reset quadConfig (State.zero quadConfig) := by
  constructor <;> decide

/-- A read of the word at address 12. -/
def readWord : Access := ⟨true, ⟨3, 0, 15, true, true, false⟩⟩

/-- The read in cycle `k`. -/
def readAt (k n : Nat) : Edge :=
  ⟨if n = k then readWord.req else wbIdle, false, true, 0⟩

instance (x : Sys) (e : Edge) : Decidable (OneAtATime x e) :=
  decidable_of_iff
    ((e.wbIn.cyc = true → e.wbIn.stb = true →
      (x.outstanding = none ∨ x.st.wbOut.ack = true) ∧ e.wbSelReg = !e.wbSelMap ∧
        Access.KeepsCs ⟨e.wbSelMap, e.wbIn⟩) ∧
      ∀ a ∈ x.outstanding, x.st.wbOut.ack = false → e.wbSelMap = a.map ∧ e.wbSelReg = !a.map)
    ⟨fun h => ⟨h.1, h.2⟩, fun h => ⟨h.issue, h.held⟩⟩

instance (g : Config) (f : Flash) (x : Sys) (e : Edge) : Decidable (StartsQuiet g f x e) :=
  inferInstanceAs (Decidable (_ → _ → _ → _))

theorem suits_quad {s : State} (h : s.autoCfg = defaultCfg quadConfig) :
    Suits quadConfig quadFlash s := by
  constructor <;> simp only [autoCfgCmd, addrBytes, autoCfgAddr4, dummyClocks, autoCfgDummies,
    autoCfgMode, h] <;> decide

/-- The system after a read in the first cycle has been answered. -/
def earlyRead : Sys :=
  run (Sys.step quadConfig quadFlash) (Sys.start (State.zero quadConfig))
    ((List.range 122).map (readAt 0))

/-- A read in the first cycle after a reset is started while the dummy clocks are on their way, so
that the flash takes these for the command. -/
theorem early_read_wrong :
    Along (Sys.step quadConfig quadFlash) OneAtATime (Sys.start (State.zero quadConfig))
      ((List.range 122).map (readAt 0)) ∧
    ¬Served quadConfig quadFlash earlyRead := by
  refine ⟨by decide +kernel, fun h => ?_⟩
  obtain ⟨hout, hack, hcfg, hne⟩ : earlyRead.outstanding = some readWord ∧
      earlyRead.st.wbOut.ack = true ∧ earlyRead.st.autoCfg = defaultCfg quadConfig ∧
      earlyRead.st.wbOut.dat ≠ quadFlash.word readWord.addr := by
    decide +kernel
  refine hne (h.word readWord hout hack rfl rfl (suits_quad hcfg) ?_)
  have hb : addrBytes earlyRead.st = 3 := by
    unfold addrBytes autoCfgAddr4
    rw [hcfg]
    decide
  unfold Access.Fits
  rw [hb]
  decide

/-- The read is the only access. -/
theorem oneAtATime_readAt (n : Nat) :
    OneAtATime (sysAt quadConfig quadFlash (State.zero quadConfig) (readAt 20) n)
      (readAt 20 n) := by
  rcases Nat.lt_or_ge n 21 with hn | hn
  · have hall : ∀ m < 21,
        OneAtATime (sysAt quadConfig quadFlash (State.zero quadConfig) (readAt 20) m)
          (readAt 20 m) := by
      decide +kernel
    exact hall n hn
  · have hstb : ∀ m, 21 ≤ m → (readAt 20 m).wbIn.stb = false := by
      intro m hm
      have : readAt 20 m = ⟨wbIdle, false, true, 0⟩ := by
        simp [readAt, show m ≠ 20 by omega]
      rw [this]
      rfl
    have honly : ∀ a ∈ (sysAt quadConfig quadFlash (State.zero quadConfig) (readAt 20)
        n).outstanding, a = readWord := by
      refine trace_invariant (fun x : Sys => ∀ a ∈ x.outstanding, a = readWord) 21 ?_
        (by decide +kernel) n hn
      intro m hm hx a ha
      have hacc : accepts (sysAt quadConfig quadFlash (State.zero quadConfig) (readAt 20) m)
          (readAt 20 m) = false := by simp [accepts, hstb m hm]
      refine hx a ?_
      simp only [Sys.step] at ha
      rw [if_neg (by rw [← sysAt, hacc]; simp)] at ha
      split_ifs at ha
      · cases ha
      · exact ha
    refine ⟨fun _ hs => ?_, fun a ha _ => ?_⟩
    · rw [hstb n hn] at hs
      cases hs
    · rw [honly a ha]
      exact ⟨rfl, rfl⟩

/-- The same read some cycles later. -/
theorem read_served :
    Served quadConfig quadFlash (run (Sys.step quadConfig quadFlash)
      (Sys.start (State.zero quadConfig)) ((List.range 130).map (readAt 20))) ∧
    ∃ m, 21 ≤ m ∧
      (sysAt quadConfig quadFlash (State.zero quadConfig) (readAt 20) m).outstanding =
        some readWord ∧
      (sysAt quadConfig quadFlash (State.zero quadConfig) (readAt 20) m).st.wbOut.ack = true :=
  ⟨(map_reads_served State.zero_reset).1 ((List.range 130).map (readAt 20)) (by decide +kernel),
    (map_reads_served State.zero_reset).2 (readAt 20) oneAtATime_readAt 21 readWord
      (by decide +kernel)⟩

end Microwatt.Spi
