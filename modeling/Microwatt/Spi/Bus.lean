import Microwatt.Spi.Flash

/-!
# The machine and the bus

What the automatic machine can do at an edge, and what the registers of the bus hold: an access that
has been accepted stands in the request register until its ack, and nothing is ever put aside.
-/

namespace Microwatt.Spi

open Soc

/-! ## Moves -/

/-- A command of the automatic machine, and the state that follows when it is taken. -/
structure Sending where
  mode : BitVec 3
  clks : BitVec 3
  txd : BitVec 8
  next : AutoState

/-- The command that a state sends. -/
def sending (s : State) : Option Sending :=
  match s.autoState with
  | .boot => some ⟨1, 7, 0, .idle⟩
  | .cmd => some ⟨1, 7, autoCfgCmd s, if autoCfgAddr4 s then .adr 3 else .adr 2⟩
  | .adr 3 => some ⟨1, 7, addrByte (addr s) 3, .adr 2⟩
  | .adr 2 => some ⟨1, 7, addrByte (addr s) 2, .adr 1⟩
  | .adr 1 => some ⟨1, 7, addrByte (addr s) 1, .adr 0⟩
  | .adr 0 => some ⟨1, 7, addrByte (addr s) 0, if autoCfgDummies s = 0 then .dat 0 else .dummy⟩
  | .dummy => some ⟨1, autoCfgDummies s, 0, .dat 0⟩
  | .dat j => some ⟨autoCfgMode s ++ 0#1, modeToClks (autoCfgMode s), 0, .datData j⟩
  | _ => none

/-- The state after a byte of data. -/
def afterByte (j : Fin 4) : AutoState :=
  match j with
  | 0 => .dat 1
  | 1 => .dat 2
  | 2 => .dat 3
  | 3 => .sendAck

/-- The outputs that do not change anything. -/
structure AutoOut.Keeps (o : AutoOut) (s : State) : Prop where
  data : o.dataNext = s.autoData
  latch : o.latchAdr = false

/-- What the machine does at an edge, with neither a reset nor the manual select. -/
inductive Move (g : Config) (s : State) (i : Input) : Prop where
  | stay (next : (autoComb g s i).next = s.autoState)
      (start : startCmd s.rxtx (cmdOut g s i) = false) (keeps : (autoComb g s i).Keeps s)
      (ack : (autoComb g s i).ack = true → s.autoState = .idle ∧ s.wbReq.we = true)
      (byte : ∀ j, s.autoState = .datData j → s.rxtx.dAck = false)
  | send (q : Sending) (state : sending s = some q) (start : startCmd s.rxtx (cmdOut g s i) = true)
      (mode : (cmdOut g s i).mode = q.mode) (clks : (cmdOut g s i).clks = q.clks)
      (txd : (cmdOut g s i).txd = q.txd) (next : (autoComb g s i).next = q.next)
      (keeps : (autoComb g s i).Keeps s) (ack : (autoComb g s i).ack = false)
  | noBoot (state : s.autoState = .boot) (next : (autoComb g s i).next = .idle)
      (start : startCmd s.rxtx (cmdOut g s i) = false) (keeps : (autoComb g s i).Keeps s)
      (ack : (autoComb g s i).ack = false)
  | select (state : s.autoState = .idle) (valid : wbMapValid s i = true) (read : s.wbReq.we = false)
      (next : (autoComb g s i).next = .csOn)
      (start : startCmd s.rxtx (cmdOut g s i) = false) (keeps : (autoComb g s i).Keeps s)
      (ack : (autoComb g s i).ack = false)
  | command (state : s.autoState = .csOn) (next : (autoComb g s i).next = .cmd)
      (start : startCmd s.rxtx (cmdOut g s i) = false) (keeps : (autoComb g s i).Keeps s)
      (ack : (autoComb g s i).ack = false)
  | byte (j : Fin 4) (state : s.autoState = .datData j) (valid : s.rxtx.dAck = true)
      (next : (autoComb g s i).next = afterByte j)
      (start : startCmd s.rxtx (cmdOut g s i) = false)
      (data : (autoComb g s i).dataNext = setByte s.autoData j s.rxtx.ireg)
      (latch : (autoComb g s i).latchAdr = (j == 3)) (ack : (autoComb g s i).ack = false)
  | answer (state : s.autoState = .sendAck) (next : (autoComb g s i).next = .waitReq)
      (start : startCmd s.rxtx (cmdOut g s i) = false) (keeps : (autoComb g s i).Keeps s)
      (ack : (autoComb g s i).ack = true)
  | goOn (state : s.autoState = .waitReq) (valid : wbMapValid s i = true)
    (read : s.wbReq.we = false)
      (same : addr s = s.autoLastAddr) (next : (autoComb g s i).next = .dat 0)
      (start : startCmd s.rxtx (cmdOut g s i) = false) (keeps : (autoComb g s i).Keeps s)
      (ack : (autoComb g s i).ack = false)
  | release (state : s.autoState = .waitReq) (next : (autoComb g s i).next = .recovery)
      (start : startCmd s.rxtx (cmdOut g s i) = false) (keeps : (autoComb g s i).Keeps s)
      (ack : (autoComb g s i).ack = false)
  | recovered (state : s.autoState = .recovery) (next : (autoComb g s i).next = .idle)
      (start : startCmd s.rxtx (cmdOut g s i) = false) (keeps : (autoComb g s i).Keeps s)
      (ack : (autoComb g s i).ack = false)

section

variable {g : Config} {s : State} {i : Input}

theorem startCmd_auto (hcs : ctrlCs s = false) :
    startCmd s.rxtx (cmdOut g s i) = (nextCmd s.rxtx && (autoComb g s i).cmdValid) := by
  simp [startCmd, cmdOut, hcs]

theorem sending_ne_datData {q : Sending} (hq : sending s = some q) (j : Fin 4) :
    s.autoState ≠ .datData j := by
  intro hj
  unfold sending at hq
  rw [hj] at hq
  cases hq

/-- A byte of data is read by a command of its own, and all others only write. -/
theorem sending_mode {q : Sending} (hq : sending s = some q) :
    (∃ j, s.autoState = .dat j ∧
      q = ⟨autoCfgMode s ++ 0#1, modeToClks (autoCfgMode s), 0, .datData j⟩) ∨
    (q.mode = 1 ∧ ∀ j, q.next ≠ .datData j) := by
  unfold sending at hq
  split at hq
  case h_8 j hst => exact Or.inl ⟨j, hst, (Option.some.inj hq).symm⟩
  case h_9 => cases hq
  all_goals
    obtain rfl := Option.some.inj hq
    refine Or.inr ⟨rfl, fun j => ?_⟩
    first | (split_ifs <;> simp) | simp

/-- Where a command leads. -/
theorem sending_next {q : Sending} (hq : sending s = some q) :
    (s.autoState = .boot ∧ q.next = .idle) ∨
    (∃ j, q.next = .adr j ∧ (s.autoState = .cmd ∨ ∃ k, s.autoState = .adr k) ∧
      (j = 3 → autoCfgAddr4 s = true)) ∨
    (s.autoState = .adr 0 ∧ q.next = .dummy ∧ autoCfgDummies s ≠ 0) ∨
    ((s.autoState = .adr 0 ∨ s.autoState = .dummy) ∧ q.next = .dat 0) ∨
    (∃ j, s.autoState = .dat j ∧ q.next = .datData j) := by
  unfold sending at hq
  split at hq
  case h_9 => cases hq
  all_goals
    rename_i hs
    obtain rfl := Option.some.inj hq
  · exact Or.inl ⟨hs, rfl⟩
  · refine Or.inr (Or.inl ?_)
    cases ha : autoCfgAddr4 s with
    | true => exact ⟨3, by simp, Or.inl hs, fun _ => rfl⟩
    | false => exact ⟨2, by simp, Or.inl hs, by simp⟩
  · exact Or.inr (Or.inl ⟨2, rfl, Or.inr ⟨3, hs⟩, by simp⟩)
  · exact Or.inr (Or.inl ⟨1, rfl, Or.inr ⟨2, hs⟩, by simp⟩)
  · exact Or.inr (Or.inl ⟨0, rfl, Or.inr ⟨1, hs⟩, by simp⟩)
  · by_cases hd : autoCfgDummies s = 0
    · exact Or.inr (Or.inr (Or.inr (Or.inl ⟨Or.inl hs, if_pos hd⟩)))
    · exact Or.inr (Or.inr (Or.inl ⟨hs, if_neg hd, hd⟩))
  · exact Or.inr (Or.inr (Or.inr (Or.inl ⟨Or.inr hs, rfl⟩)))
  · exact Or.inr (Or.inr (Or.inr (Or.inr ⟨_, hs, rfl⟩)))

/-- A state that sends goes on when the shifter is ready. -/
theorem move_of_sending (hr : ctrlReset s = false) (hcs : ctrlCs s = false) {q : Sending}
    (hq : sending s = some q) (hboot : s.autoState = .boot → g.bootClocks = true) : Move g s i := by
  have hkeeps : (autoComb g s i).Keeps s ∧ (autoComb g s i).ack = false ∧
      (cmdOut g s i).mode = q.mode ∧ (cmdOut g s i).clks = q.clks ∧ (cmdOut g s i).txd = q.txd ∧
      (autoComb g s i).cmdValid = true ∧
      (autoComb g s i).next = (if nextCmd s.rxtx then q.next else s.autoState) := by
    unfold sending at hq
    split at hq
    case h_1 hst =>
      obtain rfl := Option.some.inj hq
      refine ⟨⟨?_, ?_⟩, ?_⟩ <;> simp [cmdOut, hcs, autoComb, hr, hst, hboot hst, AutoOut.default]
    case h_9 => cases hq
    all_goals
      rename_i hst
      obtain rfl := Option.some.inj hq
      refine ⟨⟨?_, ?_⟩, ?_⟩ <;> simp [cmdOut, hcs, autoComb, hr, hst, AutoOut.default]
  obtain ⟨hk, hack, hmode, hclks, htxd, hvalid, hnext⟩ := hkeeps
  by_cases hn : nextCmd s.rxtx = true
  · refine .send q hq ?_ hmode hclks htxd (by rw [hnext, if_pos hn]) hk hack
    rw [startCmd_auto hcs, hn, hvalid]
    rfl
  · refine .stay (by rw [hnext, if_neg hn]) ?_ hk (fun h => ?_) (fun j hj => ?_)
    · rw [startCmd_auto hcs]
      simp [hn]
    · rw [hack] at h
      cases h
    · exact absurd hj (sending_ne_datData hq j)

/-- A state that waits for something other than the shifter. -/
theorem move_of_waiting (hcs : ctrlCs s = false) (hvalid : (autoComb g s i).cmdValid = false)
    (hnext : (autoComb g s i).next = s.autoState) (hkeeps : (autoComb g s i).Keeps s)
    (hack : (autoComb g s i).ack = false)
    (hbyte : ∀ j, s.autoState = .datData j → s.rxtx.dAck = false) :
    Move g s i := by
  refine .stay hnext ?_ hkeeps (fun h => ?_) hbyte
  · rw [startCmd_auto hcs, hvalid, Bool.and_false]
  · rw [hack] at h
    cases h

theorem move (hr : ctrlReset s = false) (hcs : ctrlCs s = false) : Move g s i := by
  have hquiet : (autoComb g s i).cmdValid = false → startCmd s.rxtx (cmdOut g s i) = false := by
    intro h
    rw [startCmd_auto hcs, h, Bool.and_false]
  cases hst : s.autoState with
  | boot =>
      cases hb : g.bootClocks with
      | true =>
          exact move_of_sending hr hcs (q := ⟨1, 7, 0, .idle⟩) (by simp [sending, hst])
            (fun _ => hb)
      | false =>
          refine .noBoot hst ?_ (hquiet ?_) ⟨?_, ?_⟩ ?_ <;>
            simp [autoComb, hr, hst, hb, AutoOut.default]
  | idle =>
      by_cases hm : wbMapValid s i = true
      · cases hw : s.wbReq.we with
        | true =>
            refine .stay ?_ (hquiet ?_) ⟨?_, ?_⟩ (fun _ => ⟨hst, hw⟩) (by simp [hst]) <;>
              simp [autoComb, hr, hst, hm, hcs, hw, AutoOut.default]
        | false =>
            refine .select hst hm hw ?_ (hquiet ?_) ⟨?_, ?_⟩ ?_ <;>
              simp [autoComb, hr, hst, hm, hcs, hw, AutoOut.default]
      · refine move_of_waiting hcs ?_ ?_ ⟨?_, ?_⟩ ?_ (by simp [hst]) <;>
          simp [autoComb, hr, hst, hm, AutoOut.default]
  | csOn =>
      by_cases hc : s.autoCnt = 0
      · refine .command hst ?_ (hquiet ?_) ⟨?_, ?_⟩ ?_ <;>
          simp [autoComb, hr, hst, hc, AutoOut.default]
      · refine move_of_waiting hcs ?_ ?_ ⟨?_, ?_⟩ ?_ (by simp [hst]) <;>
          simp [autoComb, hr, hst, hc, AutoOut.default]
  | cmd => exact move_of_sending hr hcs (by simp only [sending, hst]; rfl) (by simp [hst])
  | adr j =>
      obtain ⟨q, hq⟩ : ∃ q, sending s = some q := by
        unfold sending
        rw [hst]
        fin_cases j <;> exact ⟨_, rfl⟩
      exact move_of_sending hr hcs hq (by simp [hst])
  | dummy => exact move_of_sending hr hcs (by simp only [sending, hst]; rfl) (by simp [hst])
  | dat j => exact move_of_sending hr hcs (by simp only [sending, hst]; rfl) (by simp [hst])
  | datData j =>
      cases hd : s.rxtx.dAck with
      | true =>
          refine .byte j hst hd ?_ (hquiet ?_) ?_ ?_ ?_
          · fin_cases j <;> simp [autoComb, hr, hst, hd, AutoOut.default, afterByte]
          all_goals simp [autoComb, hr, hst, hd, AutoOut.default]
      | false =>
          refine move_of_waiting hcs ?_ ?_ ⟨?_, ?_⟩ ?_ (fun _ _ => hd) <;>
            simp [autoComb, hr, hst, hd, AutoOut.default]
  | sendAck =>
      refine .answer hst ?_ (hquiet ?_) ⟨?_, ?_⟩ ?_ <;> simp [autoComb, hr, hst, AutoOut.default]
  | waitReq =>
      by_cases hgo : wbMapValid s i = true ∧ addr s = s.autoLastAddr ∧ s.wbReq.we = false
      · obtain ⟨hm, ha, hw⟩ := hgo
        refine .goOn hst hm hw ha ?_ (hquiet ?_) ⟨?_, ?_⟩ ?_ <;>
          simp [autoComb, hr, hst, hm, hw, reqIsNext, ha, AutoOut.default]
      · have hgo' : (wbMapValid s i && reqIsNext s && !s.wbReq.we) = false := by
          by_contra hc
          simp only [Bool.not_eq_false, Bool.and_eq_true, reqIsNext, beq_iff_eq,
            Bool.not_eq_true'] at hc
          exact hgo ⟨hc.1.1, hc.1.2, hc.2⟩
        by_cases hrel : (wbMapValid s i || wbRegValid s i || s.autoCnt == 0) = true
        · refine .release hst ?_ (hquiet ?_) ⟨?_, ?_⟩ ?_ <;>
            simp only [autoComb, hr, hst, hgo', hrel, AutoOut.default] <;> rfl
        · simp only [Bool.not_eq_true] at hrel
          refine move_of_waiting hcs ?_ ?_ ⟨?_, ?_⟩ ?_ (by simp [hst]) <;>
            simp only [autoComb, hr, hst, hgo', hrel, AutoOut.default] <;> rfl
  | recovery =>
      by_cases hc : s.autoCnt = 0
      · refine .recovered hst ?_ (hquiet ?_) ⟨?_, ?_⟩ ?_ <;>
          simp [autoComb, hr, hst, hc, AutoOut.default]
      · refine move_of_waiting hcs ?_ ?_ ⟨?_, ?_⟩ ?_ (by simp [hst]) <;>
          simp [autoComb, hr, hst, hc, AutoOut.default]

end

/-! ## The bus -/

/-- The registers of the bus between edges. -/
structure Bus (x : Sys) : Prop where
  stash : x.st.wbStash.stb = false
  free : (x.outstanding = none ∨ x.st.wbOut.ack = true) →
    wbValid x.st = false ∧ x.st.wbOut.stall = false
  pending : ∀ a, x.outstanding = some a → x.st.wbOut.ack = false →
    x.st.wbReq = a.req ∧ a.req.cyc = true ∧ a.req.stb = true
  answers : x.st.wbOut.ack = true → x.outstanding ≠ none
  keepsCs : ∀ a, x.outstanding = some a → a.KeepsCs
  cs : ctrlCs x.st = false
  reset : ctrlReset x.st = true → x.st.wbOut.ack = true ∧ x.st.autoState = .idle

/-- What the bus does at an edge. -/
inductive BusMove (g : Config) (f : Flash) (x : Sys) (e : Edge) : Prop where
  | idle (invalid : wbValid x.st = false) (out : (x.step g f e).outstanding = none)
      (ack : (x.step g f e).st.wbOut.ack = false) (stall : (x.step g f e).st.wbOut.stall = false)
      (req : wbValid (x.step g f e).st = false)
  | accept (cyc : e.wbIn.cyc = true) (stb : e.wbIn.stb = true) (invalid : wbValid x.st = false)
      (out : (x.step g f e).outstanding = some ⟨e.wbSelMap, e.wbIn⟩)
      (ack : (x.step g f e).st.wbOut.ack = false) (req : (x.step g f e).st.wbReq = e.wbIn)
  | answer (a : Access) (now : x.outstanding = some a) (waits : x.st.wbOut.ack = false)
      (rsp : (wbRsp g x.st (x.input g f e)).ack = true)
      (out : (x.step g f e).outstanding = some a)
      (ack : (x.step g f e).st.wbOut.ack = true) (stall : (x.step g f e).st.wbOut.stall = false)
      (dat : (x.step g f e).st.wbOut.dat = (wbRsp g x.st (x.input g f e)).dat)
      (req : wbValid (x.step g f e).st = false)
  | wait (a : Access) (now : x.outstanding = some a) (waits : x.st.wbOut.ack = false)
      (rsp : (wbRsp g x.st (x.input g f e)).ack = false)
      (out : (x.step g f e).outstanding = some a)
      (ack : (x.step g f e).st.wbOut.ack = false)
      (req : (x.step g f e).st.wbReq = x.st.wbReq)

section

variable {g : Config} {f : Flash} {x : Sys} {e : Edge}

theorem wbRsp_of_invalid {s : State} {i : Input} (hv : wbValid s = false) (hcs : ctrlCs s = false) :
    (wbRsp g s i).ack = false ∧ (wbRsp g s i).stall = false := by
  simp [wbRsp, wbMapValid, wbRegValid, hv, hcs]

/-- A request is answered as soon as it no longer stalls. -/
theorem wbRsp_of_map {s : State} {i : Input} (hm : wbMapValid s i = true) (hcs : ctrlCs s = false) :
    (wbRsp g s i).ack = (autoComb g s i).ack ∧ (wbRsp g s i).stall = !(autoComb g s i).ack ∧
      (wbRsp g s i).dat = s.autoData := by
  simp [wbRsp, hm, hcs]

theorem wbRsp_of_reg {s : State} {i : Input} (hm : wbMapValid s i = false)
    (hr : wbRegValid s i = true) (hcs : ctrlCs s = false) :
    (wbRsp g s i).ack = regReady s ∧ (wbRsp g s i).stall = !regReady s := by
  cases hready : regReady s <;> simp [wbRsp, hm, hr, hcs, hready]

theorem Bus.wbValid_of_pending (h : Bus x) {a : Access} (ha : x.outstanding = some a)
    (hack : x.st.wbOut.ack = false) : wbValid x.st = true := by
  obtain ⟨hreq, hcyc, hstb⟩ := h.pending a ha hack
  simp [wbValid, hreq, hcyc, hstb]

/-- The access under way is the one that the machine sees. -/
theorem Bus.pending_of_valid (h : Bus x) (hv : wbValid x.st = true) :
    ∃ a, x.outstanding = some a ∧ x.st.wbOut.ack = false ∧ x.st.wbReq = a.req := by
  cases hout : x.outstanding with
  | none =>
      rw [(h.free (Or.inl hout)).1] at hv
      cases hv
  | some a =>
      cases hack : x.st.wbOut.ack with
      | true =>
          rw [(h.free (Or.inr hack)).1] at hv
          cases hv
      | false => exact ⟨a, rfl, rfl, (h.pending a hout hack).1⟩

theorem selects_of_pending (h : Bus x) (he : OneAtATime x e) {a : Access}
    (ha : x.outstanding = some a) (hack : x.st.wbOut.ack = false) :
    wbMapValid x.st (x.input g f e) = a.map ∧ wbRegValid x.st (x.input g f e) = !a.map := by
  obtain ⟨hmap, hreg⟩ := he.held a ha hack
  have hv := h.wbValid_of_pending ha hack
  simp [wbMapValid, wbRegValid, Sys.input, hv, hmap, hreg]

theorem stall_of_pending (h : Bus x) (he : OneAtATime x e) {a : Access}
    (ha : x.outstanding = some a) (hack : x.st.wbOut.ack = false) :
    (wbRsp g x.st (x.input g f e)).stall = !(wbRsp g x.st (x.input g f e)).ack := by
  obtain ⟨hmap, hreg⟩ := selects_of_pending (g := g) (f := f) h he ha hack
  cases hm : a.map with
  | true =>
      rw [hm] at hmap
      obtain ⟨h1, h2, -⟩ := wbRsp_of_map (g := g) hmap h.cs
      rw [h1, h2]
  | false =>
      rw [hm] at hmap hreg
      obtain ⟨h1, h2⟩ := wbRsp_of_reg (g := g) hmap hreg h.cs
      rw [h1, h2]

theorem bus_move (h : Bus x) (he : OneAtATime x e) : BusMove g f x e := by
  by_cases hfree : x.outstanding = none ∨ x.st.wbOut.ack = true
  · obtain ⟨hv, hstall⟩ := h.free hfree
    obtain ⟨hrack, hrstall⟩ := wbRsp_of_invalid (g := g) (i := x.input g f e) hv h.cs
    have hin : (x.input g f e).wbIn = e.wbIn := rfl
    by_cases hissue : e.wbIn.cyc = true ∧ e.wbIn.stb = true
    · obtain ⟨hcyc, hstb⟩ := hissue
      refine .accept hcyc hstb hv ?_ ?_ ?_
      · simp [Sys.step, accepts, hcyc, hstb, hstall]
      · simp [Sys.step, Spi.step, hrack, hrstall, hstall]
      · simp [Sys.step, Spi.step, hrstall, hstall, hin, hcyc]
    · have hacc : accepts x e = false := by
        simp only [accepts, Bool.and_eq_false_iff]
        cases hcyc : e.wbIn.cyc <;> cases hstb : e.wbIn.stb <;> simp_all
      refine .idle hv ?_ ?_ ?_ ?_
      · rcases hfree with hnone | hack
        · simp [Sys.step, hacc, hnone]
        · simp [Sys.step, hacc, hack]
      · simp [Sys.step, Spi.step, hrack, hrstall, hstall]
      · simp [Sys.step, Spi.step, hrstall, hstall]
      · simp only [Sys.step, Spi.step, hrstall, hstall, hin, wbValid]
        cases hcyc : e.wbIn.cyc <;> cases hstb : e.wbIn.stb <;> simp_all
  · obtain ⟨a, ha⟩ : ∃ a, x.outstanding = some a :=
      Option.ne_none_iff_exists'.1 fun hc => hfree (Or.inl hc)
    have hack : x.st.wbOut.ack = false := by
      by_contra hc
      exact hfree (Or.inr (by simpa using hc))
    have hnot : ¬(e.wbIn.cyc = true ∧ e.wbIn.stb = true) := fun hc => hfree (he.issue hc.1 hc.2).1
    have hstop : (e.wbIn.cyc && e.wbIn.stb) = false := by
      cases hcyc : e.wbIn.cyc <;> cases hstb : e.wbIn.stb <;> simp_all
    have hacc : accepts x e = false := by simp [accepts, hstop]
    have hout : (x.step g f e).outstanding = some a := by simp [Sys.step, hacc, hack, ha]
    have hin : (x.input g f e).wbIn = e.wbIn := rfl
    have hstall := stall_of_pending (g := g) (f := f) h he ha hack
    cases hrack : (wbRsp g x.st (x.input g f e)).ack with
    | true =>
        rw [hrack] at hstall
        refine .answer a ha hack hrack hout ?_ ?_ ?_ ?_
        · cases hs : x.st.wbOut.stall <;> simp [Sys.step, Spi.step, hstall, hrack, hs]
        · cases hs : x.st.wbOut.stall <;> simp [Sys.step, Spi.step, hstall, hs]
        · cases hs : x.st.wbOut.stall <;> simp [Sys.step, Spi.step, hstall, hs]
        · cases hs : x.st.wbOut.stall with
          | true => simp [Sys.step, Spi.step, hstall, hs, wbValid, h.stash]
          | false =>
              simp only [Sys.step, Spi.step, hstall, hs, wbValid, hin]
              cases hcyc : e.wbIn.cyc <;> cases hstb : e.wbIn.stb <;> simp_all
    | false =>
        rw [hrack] at hstall
        refine .wait a ha hack hrack hout ?_ ?_
        · simp only [Sys.step, Spi.step, hstall, hin]
          split_ifs <;> simp_all
        · simp [Sys.step, Spi.step, hstall]

/-! ### The registers -/

theorem getLsbD_selMask (sel : BitVec 4) {n : Nat} (hn : n < 32) :
    (selMask sel).getLsbD n = sel.getLsbD (n / 8) := by
  have hsplit : n / 8 = 0 ∨ n / 8 = 1 ∨ n / 8 = 2 ∨ n / 8 = 3 := by omega
  have hbyte : ∀ (b : Bool) (m : Nat), m < 8 →
      ((BitVec.ofBool b).signExtend 8).getLsbD m = b := by
    intro b m hm
    rw [BitVec.getLsbD_signExtend]
    cases b <;> simp [hm]
  unfold selMask
  simp only [BitVec.getLsbD_append]
  rcases hsplit with h | h | h | h
  · rw [if_pos (by omega), h, hbyte _ _ (by omega)]
  · rw [if_neg (by omega), if_pos (by omega), h, hbyte _ _ (by omega)]
  · rw [if_neg (by omega), if_neg (by omega), if_pos (by omega), h, hbyte _ _ (by omega)]
  · rw [if_neg (by omega), if_neg (by omega), if_neg (by omega), h, hbyte _ _ (by omega)]

theorem getLsbD_regWr {w : Nat} (r : BitVec w) (q : WbIoMasterOut) {n : Nat} (hn : n < w)
    (hw : w ≤ 32) :
    (regWr r q).getLsbD n = if q.sel.getLsbD (n / 8) then q.dat.getLsbD n else r.getLsbD n := by
  have hmask := getLsbD_selMask q.sel (n := n) (by omega)
  unfold regWr
  simp only [BitVec.getLsbD_or, BitVec.getLsbD_and, BitVec.getLsbD_not,
    BitVec.getLsbD_setWidth, hmask]
  cases q.sel.getLsbD (n / 8) <;> simp [hn]

/-- A reset clears the low bits of the control register. -/
theorem getLsbD_defaultCtrl (s : State) {n : Nat} (hn : n < 4) :
    (defaultCtrl g s).getLsbD n = false := by
  unfold defaultCtrl
  simp only [BitVec.getLsbD_append]
  rw [if_pos (by omega), if_pos hn]
  exact BitVec.getLsbD_zero

/-- The control register is written by an access to it, and else only its reset bit goes away. -/
theorem ctrl_step (h : Bus x) :
    ((x.step g f e).st.ctrlReg = regWr x.st.ctrlReg x.st.wbReq ∧
        writes x.st (x.input g f e) spiRegCtrl = true) ∨
      (ctrlCs (x.step g f e).st = false ∧ ctrlReset (x.step g f e).st = false) := by
  by_cases hw : writes x.st (x.input g f e) spiRegCtrl = true
  · exact Or.inl ⟨by simp [Sys.step, Spi.step, hw], hw⟩
  · refine Or.inr ?_
    have hreg : (x.step g f e).st.ctrlReg =
        if ctrlReset x.st then defaultCtrl g x.st else x.st.ctrlReg := by
      simp [Sys.step, Spi.step, hw]
    unfold ctrlCs ctrlReset
    rw [hreg]
    split_ifs with hr
    · exact ⟨getLsbD_defaultCtrl x.st (by omega), getLsbD_defaultCtrl x.st (by omega)⟩
    · exact ⟨h.cs, by simpa [ctrlReset] using hr⟩

/-- The registers are written in the idle state. -/
theorem idle_of_writes {s : State} {i : Input} {reg : BitVec 3} (hw : writes s i reg = true) :
    s.autoState = .idle ∧ wbRegValid s i = true ∧ s.wbReq.we = true ∧ wbReg s i = reg ∧
      regReady s = true := by
  simp only [writes, Bool.and_eq_true, beq_iff_eq] at hw
  obtain ⟨⟨⟨hr, hwe⟩, hready⟩, hreg⟩ := hw
  have hst := hready
  simp only [regReady, Bool.and_eq_true, beq_iff_eq] at hst
  exact ⟨hst.1, hr, hwe, hreg, hready⟩

/-- The access that writes a register is answered at the same edge, and the machine stays idle. -/
theorem answered_of_writes (h : Bus x) (he : OneAtATime x e) {reg : BitVec 3}
    (hw : writes x.st (x.input g f e) reg = true) :
    ∃ a, x.outstanding = some a ∧ a.map = false ∧ x.st.wbReq = a.req ∧
      (x.step g f e).st.wbOut.ack = true ∧ (x.step g f e).st.autoState = .idle := by
  obtain ⟨hidle, hreg, -, -, hready⟩ := idle_of_writes hw
  have hv : wbValid x.st = true := by
    simp only [wbRegValid, Bool.and_eq_true] at hreg
    exact hreg.1
  obtain ⟨a, ha, hack, hreq⟩ := h.pending_of_valid hv
  obtain ⟨hmap, hreg'⟩ := selects_of_pending (g := g) (f := f) h he ha hack
  have hm : a.map = false := by simpa [hreg] using hreg'
  rw [hm] at hmap
  have hrack : (wbRsp g x.st (x.input g f e)).ack = true := by
    rw [(wbRsp_of_reg (g := g) hmap hreg h.cs).1, hready]
  have hr : ctrlReset x.st = false := by
    by_contra hc
    have := (h.reset (by simpa using hc)).1
    rw [hack] at this
    cases this
  refine ⟨a, ha, hm, hreq, ?_, ?_⟩
  · cases bus_move (g := g) (f := f) h he with
    | idle hv' => rw [hv] at hv'; cases hv'
    | accept _ _ hv' => rw [hv] at hv'; cases hv'
    | answer _ _ _ _ _ hack' => exact hack'
    | wait _ _ _ hrack' => rw [hrack] at hrack'; cases hrack'
  · show (autoComb g x.st (x.input g f e)).next = .idle
    simp [autoComb, hr, hidle, hmap, AutoOut.default]

theorem Bus.step (h : Bus x) (he : OneAtATime x e) : Bus (x.step g f e) := by
  have hmove := bus_move (g := g) (f := f) h he
  refine ⟨?_, ?_, ?_, ?_, ?_, ?_, ?_⟩
  · -- nothing is put aside
    have hno : ((wbRsp g x.st (x.input g f e)).stall && !x.st.wbOut.stall && e.wbIn.cyc &&
        e.wbIn.stb) = false := by
      by_contra hc
      simp only [Bool.not_eq_false, Bool.and_eq_true] at hc
      obtain ⟨⟨⟨hs, -⟩, hcyc⟩, hstb⟩ := hc
      have hv := (h.free (he.issue hcyc hstb).1).1
      rw [(wbRsp_of_invalid (g := g) hv h.cs).2] at hs
      cases hs
    have hin : (x.input g f e).wbIn = e.wbIn := rfl
    simp only [Sys.step, Spi.step, hin, hno]
    exact h.stash
  · intro hfree
    cases hmove with
    | idle _ _ _ hs hr => exact ⟨hr, hs⟩
    | answer _ _ _ _ _ _ hs _ hr => exact ⟨hr, hs⟩
    | accept _ _ _ hout hack => simp [hout, hack] at hfree
    | wait _ _ _ _ hout hack => simp [hout, hack] at hfree
  · intro a ha hack
    cases hmove with
    | idle _ hout => rw [hout] at ha; cases ha
    | answer _ _ _ _ _ hack' => rw [hack'] at hack; cases hack
    | accept hcyc hstb _ hout _ hreq =>
        rw [hout] at ha
        obtain rfl := Option.some.inj ha
        exact ⟨hreq, hcyc, hstb⟩
    | wait b hb hback _ hout _ hreq =>
        rw [hout] at ha
        obtain rfl := Option.some.inj ha
        rw [hreq]
        exact h.pending b hb hback
  · intro hack
    cases hmove with
    | idle _ _ hack' => rw [hack'] at hack; cases hack
    | answer _ _ _ _ hout => simp [hout]
    | accept _ _ _ hout => simp [hout]
    | wait _ _ _ _ hout => simp [hout]
  · intro a ha
    cases hmove with
    | idle _ hout => rw [hout] at ha; cases ha
    | answer b hb _ _ hout =>
        rw [hout] at ha
        obtain rfl := Option.some.inj ha
        exact h.keepsCs b hb
    | accept hcyc hstb _ hout =>
        rw [hout] at ha
        obtain rfl := Option.some.inj ha
        exact (he.issue hcyc hstb).2.2
    | wait b hb _ _ hout =>
        rw [hout] at ha
        obtain rfl := Option.some.inj ha
        exact h.keepsCs b hb
  · rcases ctrl_step (g := g) (f := f) (e := e) h with ⟨hreg, hw⟩ | ⟨hcs, -⟩
    · obtain ⟨a, ha, hm, hreq, -⟩ := answered_of_writes h he hw
      obtain ⟨-, hrv, hwe, hwreg, -⟩ := idle_of_writes hw
      have hadr : a.req.adr.extractLsb' 0 3 = spiRegCtrl := by
        rw [← hwreg, ← hreq]
        simp [wbReg, hrv]
      have hcs := h.cs
      unfold ctrlCs at hcs ⊢
      rw [hreg, getLsbD_regWr _ _ (by omega) (by omega), hcs, hreq]
      split_ifs with hsel
      · exact h.keepsCs a ha hm (hreq ▸ hwe) hadr hsel
      · rfl
    · exact hcs
  · intro hr
    rcases ctrl_step (g := g) (f := f) (e := e) h with ⟨-, hw⟩ | ⟨-, hr'⟩
    · obtain ⟨a, -, -, -, hack, hidle⟩ := answered_of_writes h he hw
      exact ⟨hack, hidle⟩
    · rw [hr'] at hr
      cases hr

/-- The configuration is changed in the idle state only. -/
theorem autoCfg_edge {s : State} {i : Input} (hst : s.autoState ≠ .idle)
    (hr : ctrlReset s = false) :
    (Spi.step g s i).autoCfg = s.autoCfg := by
  have hw : writes s i spiRegAutoCfg = false := by
    by_contra hc
    exact hst (idle_of_writes (by simpa using hc)).1
  simp [Spi.step, hw, hr]

theorem autoCfg_step (hst : x.st.autoState ≠ .idle) (hr : ctrlReset x.st = false) :
    (x.step g f e).st.autoCfg = x.st.autoCfg :=
  autoCfg_edge hst hr

theorem Bus.not_reset (h : Bus x) (hst : x.st.autoState ≠ .idle) : ctrlReset x.st = false := by
  by_contra hc
  exact hst (h.reset (by simpa using hc)).2

theorem Bus.csN_eq (h : Bus x) : csN x.st = !autoCs x.st := by
  simp [csN, h.cs]

theorem bus_start {s : State} (h : State.Reset g s) : Bus (Sys.start s) where
  stash := h.stash
  free _ := ⟨by simp [wbValid, Sys.start, h.wbReq], h.out.2⟩
  pending a ha := by cases ha
  answers ha := by
    have := h.out.1
    simp_all [Sys.start]
  keepsCs a ha := by cases ha
  cs := by
    show ctrlCs s = false
    rw [ctrlCs, h.ctrlReg]
    exact getLsbD_defaultCtrl s (by omega)
  reset hr := by
    have hlow : ctrlReset s = true := hr
    rw [ctrlReset, h.ctrlReg, getLsbD_defaultCtrl s (by omega)] at hlow
    cases hlow

end

end Microwatt.Spi
