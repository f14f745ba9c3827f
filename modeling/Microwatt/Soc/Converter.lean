import Microwatt.Lib.Fair
import Microwatt.Soc.SlaveIo

/-!
# 64-bit accesses as 32-bit accesses

What the I/O latch is for, as a machine of its own: an access is taken, its halves are requested
from the device and answered one after the other, and the access is acked with what the device has
answered.  The latch follows this machine for every device that answers each request once.
-/

namespace Microwatt.Soc

open Clocked

/-- The halves of a 64-bit word. -/
inductive Half where
  | low
  | high
deriving DecidableEq

namespace Half

def sel (s : ByteSel) : Half → BitVec 4
  | low => s.extractLsb' 0 4
  | high => s.extractLsb' 4 4

def word (d : Dword) : Half → BitVec 32
  | low => d.extractLsb' 0 32
  | high => d.extractLsb' 32 32

/-- The low bit of the address on the 32-bit bus. -/
def bit : Half → BitVec 1
  | low => 0#1
  | high => 1#1

end Half

/-- The halves of an access that select a byte. -/
def nonEmpty (a : WishboneMasterOut) : List Half :=
  [Half.low, Half.high].filter fun h => h.sel a.sel != 0

/-- The halves that are requested: an access that selects no byte makes a request all the same. -/
def issued (a : WishboneMasterOut) : List Half :=
  if nonEmpty a = [] then [.high] else nonEmpty a

/-- A request on the 32-bit bus. -/
structure Request where
  adr : BitVec 30
  dat : BitVec 32
  sel : BitVec 4
  we : Bool
deriving DecidableEq

/-- The request for a half of an access. -/
def requestOf (a : WishboneMasterOut) (h : Half) : Request :=
  ⟨a.adr ++ h.bit, h.word a.dat, h.sel a.sel, a.we⟩

/-- What can be seen on the two buses. -/
inductive Event where
  | reset
  | accept (a : WishboneMasterOut)
  | request (r : Request)
  | answer (d : BitVec 32)
  | ack (d : Dword)
deriving DecidableEq

/-- The converter, between accesses or at one of them: the halves that are not done, whether the
device has the first of them, and what it has answered for the others. -/
inductive Converter where
  | idle
  | busy (a : WishboneMasterOut) (left : List Half) (asked : Bool) (got : Half → Option (BitVec 32))

namespace Converter

/-- The events that are allowed.  `parts` tells which halves of an access are requested. -/
def next (parts : WishboneMasterOut → List Half) : Converter → Event → Option Converter
  | _, .reset => some .idle
  | .idle, .accept a => some (.busy a (parts a) false fun _ => none)
  | .busy a (h :: left) false got, .request r =>
      if r = requestOf a h then some (.busy a (h :: left) true got) else none
  | .busy a (h :: left) true got, .answer d =>
      some (.busy a left false (Function.update got h (some d)))
  | .busy _ [] false got, .ack d =>
      if ∀ h ∈ [Half.low, Half.high], ∀ w ∈ got h, h.word d = w then some .idle else none
  | _, _ => none

/-- The converter after a sequence of events. -/
def after (parts : WishboneMasterOut → List Half) (q : Converter) (l : List Event) :
    Option Converter :=
  l.foldlM (next parts) q

end Converter

/-- Every event of the sequence is allowed. -/
def Legal (parts : WishboneMasterOut → List Half) (l : List Event) : Prop :=
  (Converter.after parts .idle l).isSome = true

instance (parts : WishboneMasterOut → List Half) (l : List Event) : Decidable (Legal parts l) :=
  inferInstanceAs (Decidable (_ = _))

section

variable (s : State) (i : Input)

/-- An access is accepted from the 64-bit bus. -/
def accepts : Bool :=
  !i.socReset && i.wbIoIn.cyc && i.wbIoIn.stb && !s.wbIoOut.stall

/-- The device accepts a request. -/
def deviceAccepts : Bool :=
  !i.socReset && s.wbSioOut.cyc && s.wbSioOut.stb && !(wbSioIn s i).stall

/-- The device answers. -/
def deviceAnswers : Bool :=
  !i.socReset && (wbSioIn s i).ack

/-- What is on the 32-bit bus. -/
def State.request : Request :=
  ⟨s.wbSioOut.adr, s.wbSioOut.dat, s.wbSioOut.sel, s.wbSioOut.we⟩

/-- The events of a cycle. -/
def cycleEvents : List Event :=
  if i.socReset then [.reset]
  else
    (if s.wbIoOut.ack then [Event.ack s.wbIoOut.dat] else []) ++
    (if accepts s i then [Event.accept i.wbIoIn] else []) ++
    (if deviceAccepts s i then [Event.request s.request] else []) ++
    (if deviceAnswers s i then [Event.answer (wbSioIn s i).dat] else [])

end

/-- The latch with what has happened on its buses, and the number of requests without an answer. -/
structure Sys where
  st : State
  log : List Event
  unanswered : Nat

namespace Sys

variable (c : Config) (x : Sys) (i : Input)

def start (s : State) : Sys := ⟨s, [], 0⟩

def step : Sys where
  st := Soc.step c x.st i
  log := x.log ++ cycleEvents x.st i
  unanswered :=
    if i.socReset then 0
    else x.unanswered + (deviceAccepts x.st i).toNat - (deviceAnswers x.st i).toNat

/-- The device answers a request that it has accepted, each of them once. -/
def Answering : Prop :=
  deviceAnswers x.st i = true → 0 < x.unanswered ∨ deviceAccepts x.st i = true

instance : Decidable (Answering x i) :=
  inferInstanceAs (Decidable (_ → _))

end Sys

/-! ## The latch follows the converter -/

/-- What the latch has on the 32-bit bus while a half of an access is under way. -/
structure Asking (s : State) (n : Nat) (a : WishboneMasterOut) (h : Half) (asked : Bool) :
    Prop where
  request : s.request = requestOf a h
  cyc : s.wbSioOut.cyc = true
  stb : s.wbSioOut.stb = !asked
  unanswered : n = asked.toNat
  ack : s.wbIoOut.ack = false
  stall : s.wbIoOut.stall = true

/-- Between accesses nothing is requested. -/
structure Resting (s : State) (n : Nat) : Prop where
  state : s.state = .idle
  stb : s.wbSioOut.stb = false
  unanswered : n = 0
  stall : s.wbIoOut.stall = false

/-- The answer to the low half stands in the word for the 64-bit bus. -/
def Holds (d : Dword) (got : Half → Option (BitVec 32)) : Prop :=
  ∀ h w, got h = some w → h.word d = w

/-- Where the latch stands when the converter stands there. -/
inductive Sim (s : State) (n : Nat) : Converter → Prop where
  | idle : Resting s n → s.wbIoOut.ack = false → Sim s n .idle
  | done {a got} : Resting s n → s.wbIoOut.ack = true → Holds s.wbIoOut.dat got →
      Sim s n (.busy a [] false got)
  | low {a asked} : s.state = .waitAckBot → Asking s n a .low asked →
      s.hasTop = (Half.high.sel a.sel != 0) → s.datLatch = Half.high.word a.dat →
      s.selLatch = Half.high.sel a.sel →
      Sim s n (.busy a (.low :: if s.hasTop then [.high] else []) asked fun _ => none)
  | high {a asked got} : s.state = .waitAckTop → Asking s n a .high asked →
      Holds s.wbIoOut.dat got → got .high = none → Sim s n (.busy a [.high] asked got)

section

variable {c : Config} {s : State} {i : Input} {n : Nat} {a : WishboneMasterOut}
  {got : Half → Option (BitVec 32)}

theorem issued_eq (a : WishboneMasterOut) : issued a =
    if Half.low.sel a.sel != 0 then
      .low :: if Half.high.sel a.sel != 0 then [.high] else []
    else [.high] := by
  unfold issued nonEmpty
  cases hl : Half.low.sel a.sel != 0 <;> cases hh : Half.high.sel a.sel != 0 <;>
    simp only [List.filter_cons, List.filter_nil, hl, hh, Bool.false_eq_true, if_true, if_false] <;>
    rfl

@[simp] theorem low_word_append (u v : BitVec 32) : Half.low.word (u ++ v) = v := by
  exact BitVec.extractLsb'_append_eq_right

@[simp] theorem high_word_append (u v : BitVec 32) : Half.high.word (u ++ v) = u := by
  exact BitVec.extractLsb'_append_eq_left

theorem Holds.none (d : Dword) : Holds d fun _ => none := by
  intro h w hw
  cases hw

/-- The half that was waited for comes into the word, and the other one stays. -/
theorem Holds.update {d d' : Dword} {h : Half} {w : BitVec 32} (hold : Holds d got)
    (hh : h.word d' = w) (hother : ∀ k, k ≠ h → k.word d' = k.word d) :
    Holds d' (Function.update got h (some w)) := by
  intro k v hv
  by_cases hk : k = h
  · subst hk
    rw [Function.update_self, Option.some_inj] at hv
    rw [hh, hv]
  · rw [Function.update_of_ne hk] at hv
    rw [hother k hk, hold k v hv]

/-- The number of requests without an answer after a cycle. -/
def unansweredNext (s : State) (i : Input) (n : Nat) : Nat :=
  if i.socReset then 0 else n + (deviceAccepts s i).toNat - (deviceAnswers s i).toNat

/-- While a half is under way, the request is accepted, or not yet, and then answered, or not
yet. -/
theorem Asking.cycle {h : Half} {asked : Bool} (ha : Asking s n a h asked)
    (hr : i.socReset = false) (hans : deviceAnswers s i = true → 0 < n ∨ deviceAccepts s i = true)
    (left : List Half) (got : Half → Option (BitVec 32)) :
    (deviceAnswers s i = false ∧ ∃ asked',
      Converter.after issued (.busy a (h :: left) asked got) (cycleEvents s i) =
        some (.busy a (h :: left) asked' got) ∧
      (s.wbSioOut.stb && (wbSioIn s i).stall) = !asked' ∧
      unansweredNext s i n = asked'.toNat) ∨
    (deviceAnswers s i = true ∧
      Converter.after issued (.busy a (h :: left) asked got) (cycleEvents s i) =
        some (.busy a left false (Function.update got h (some (wbSioIn s i).dat))) ∧
      (s.wbSioOut.stb && (wbSioIn s i).stall) = false ∧ unansweredNext s i n = 0) := by
  have hacc : accepts s i = false := by simp [accepts, ha.stall]
  have hev : cycleEvents s i =
      (if deviceAccepts s i then [Event.request (requestOf a h)] else []) ++
      (if deviceAnswers s i then [.answer (wbSioIn s i).dat] else []) := by
    simp [cycleEvents, hr, ha.ack, hacc, ha.request]
  have hdev : deviceAccepts s i = (!asked && !(wbSioIn s i).stall) := by
    simp [deviceAccepts, hr, ha.cyc, ha.stb]
  have hn := ha.unanswered
  cases asked with
  | true =>
      -- the device has the request
      have hno : deviceAccepts s i = false := by simp [hdev]
      cases hd : deviceAnswers s i with
      | false =>
          refine Or.inl ⟨rfl, true, ?_, ?_, ?_⟩
          · simp [hev, hno, hd, Converter.after]
          · simp [ha.stb]
          · simp [unansweredNext, hr, hno, hd, hn]
      | true =>
          refine Or.inr ⟨rfl, ?_, ?_, ?_⟩
          · simp [hev, hno, hd, Converter.after, Converter.next]
          · simp [ha.stb]
          · simp [unansweredNext, hr, hno, hd, hn]
  | false =>
      cases hs : (wbSioIn s i).stall with
      | true =>
          have hno : deviceAccepts s i = false := by simp [hdev, hs]
          have hd : deviceAnswers s i = false := by
            by_contra hc
            have := hans (by simpa using hc)
            rw [hno, hn] at this
            simp at this
          refine Or.inl ⟨hd, false, ?_, ?_, ?_⟩
          · simp [hev, hno, hd, Converter.after]
          · simp [ha.stb]
          · simp [unansweredNext, hr, hno, hd, hn]
      | false =>
          have hyes : deviceAccepts s i = true := by simp [hdev, hs]
          cases hd : deviceAnswers s i with
          | false =>
              refine Or.inl ⟨rfl, true, ?_, ?_, ?_⟩
              · simp [hev, hyes, hd, Converter.after, Converter.next]
              · simp
              · simp [unansweredNext, hr, hyes, hd, hn]
          | true =>
              refine Or.inr ⟨rfl, ?_, ?_, ?_⟩
              · simp [hev, hyes, hd, Converter.after, Converter.next]
              · simp
              · simp [unansweredNext, hr, hyes, hd, hn]

theorem sim_reset (hr : i.socReset = true) :
    Sim (Soc.step c s i) (unansweredNext s i n) .idle := by
  refine .idle ⟨?_, ?_, ?_, ?_⟩ ?_ <;> simp [Soc.step, hr, resetLatch, unansweredNext]

/-- A latch at rest stays so until there is an access. -/
theorem Resting.rest (h : Resting s n) (hr : i.socReset = false) (hacc : accepts s i = false)
    (hans : deviceAnswers s i = false) : Sim (Soc.step c s i) (unansweredNext s i n) .idle := by
  have hno : (i.wbIoIn.cyc && i.wbIoIn.stb) = false := by
    simpa [accepts, hr, h.stall] using hacc
  have hl : latch s i = { s with wbIoOut := { s.wbIoOut with ack := false } } := by
    simp [latch, h.state, hno]
  have hdev : deviceAccepts s i = false := by simp [deviceAccepts, h.stb]
  refine .idle ⟨?_, ?_, ?_, ?_⟩ ?_
  · simp [Soc.step, hr, hl, h.state]
  · simp [Soc.step, hr, hl, h.stb]
  · simp [unansweredNext, hr, hdev, hans, h.unanswered]
  · simp [Soc.step, hr, hl, h.stall]
  · simp [Soc.step, hr, hl]

/-- The first half goes out. -/
theorem Resting.start (h : Resting s n) (hr : i.socReset = false) (hacc : accepts s i = true)
    (hans : deviceAnswers s i = false) : Sim (Soc.step c s i) (unansweredNext s i n)
      (.busy i.wbIoIn (issued i.wbIoIn) false fun _ => none) := by
  have hyes : (i.wbIoIn.cyc && i.wbIoIn.stb) = true := by
    simpa [accepts, hr, h.stall] using hacc
  have hl : latch s i = startAccess s i := by simp [latch, h.state, hyes]
  have hcyc : doCyc s i = true := by
    simp only [Bool.and_eq_true] at hyes
    simp [doCyc, hr, h.state, hyes.1, hyes.2]
  have hdev : deviceAccepts s i = false := by simp [deviceAccepts, h.stb]
  have hn : unansweredNext s i n = 0 := by
    simp [unansweredNext, hr, hdev, hans, h.unanswered]
  rw [issued_eq]
  cases hlow : Half.low.sel i.wbIoIn.sel != 0 with
  | true =>
      have hlow' : (i.wbIoIn.sel.extractLsb' 0 4 != 0) = true := hlow
      have htop : (Soc.step c s i).hasTop = (Half.high.sel i.wbIoIn.sel != 0) := by
        simp [Soc.step, hr, hl, startAccess, Half.sel]
      rw [if_pos rfl, ← htop]
      refine .low ?_ ⟨?_, ?_, ?_, hn, ?_, ?_⟩ htop ?_ ?_
      · simp only [Soc.step, hr, hl, startAccess, hlow']
        rfl
      · simp only [Soc.step, hr, hl, startAccess, hlow', State.request]
        rfl
      · simp [Soc.step, hcyc]
      · simp [Soc.step, hr, hl, startAccess]
      · simp [Soc.step, hr, hl, startAccess]
      · simp [Soc.step, hr, hl, startAccess]
      · simp [Soc.step, hr, hl, startAccess, Half.word]
      · simp [Soc.step, hr, hl, startAccess, Half.sel]
  | false =>
      have hlow' : (i.wbIoIn.sel.extractLsb' 0 4 != 0) = false := hlow
      rw [if_neg (by simp)]
      refine .high ?_ ⟨?_, ?_, ?_, hn, ?_, ?_⟩ (Holds.none _) rfl
      · simp only [Soc.step, hr, hl, startAccess, hlow']
        rfl
      · simp only [Soc.step, hr, hl, startAccess, hlow', State.request]
        rfl
      · simp [Soc.step, hcyc]
      · simp [Soc.step, hr, hl, startAccess]
      · simp [Soc.step, hr, hl, startAccess]
      · simp [Soc.step, hr, hl, startAccess]

/-- At rest the device has nothing to answer. -/
theorem Resting.no_answer (h : Resting s n)
    (hans : deviceAnswers s i = true → 0 < n ∨ deviceAccepts s i = true) :
    deviceAnswers s i = false := by
  by_contra hc
  have := hans (by simpa using hc)
  simp [h.unanswered, deviceAccepts, h.stb] at this

/-- The cycle of a latch at rest, once the ack has been seen. -/
theorem Resting.cycle (h : Resting s n) (hr : i.socReset = false)
    (hans : deviceAnswers s i = true → 0 < n ∨ deviceAccepts s i = true) {q : Converter}
    (hack : Converter.after issued q (if s.wbIoOut.ack then [.ack s.wbIoOut.dat] else []) =
      some .idle) :
    ∃ q', Converter.after issued q (cycleEvents s i) = some q' ∧
      Sim (Soc.step c s i) (unansweredNext s i n) q' := by
  have hno := h.no_answer hans
  have hdev : deviceAccepts s i = false := by simp [deviceAccepts, h.stb]
  have hev : cycleEvents s i = (if s.wbIoOut.ack then [Event.ack s.wbIoOut.dat] else []) ++
      (if accepts s i then [.accept i.wbIoIn] else []) := by
    simp [cycleEvents, hr, hno, hdev]
  have happ : Converter.after issued q (cycleEvents s i) =
      Converter.after issued .idle (if accepts s i then [.accept i.wbIoIn] else []) := by
    rw [hev]
    unfold Converter.after at hack ⊢
    rw [List.foldlM_append, hack]
    rfl
  rw [happ]
  cases hacc : accepts s i with
  | false => exact ⟨.idle, rfl, h.rest hr hacc hno⟩
  | true => exact ⟨_, rfl, h.start hr hacc hno⟩

/-- While a half is under way, the access to the device goes on until its last answer. -/
theorem cyc_kept (hr : i.socReset = false) (hst : s.state ≠ .idle) (hend : lastAck s i = false) :
    (Soc.step c s i).wbSioOut.cyc = s.wbSioOut.cyc := by
  simp [Soc.step, doCyc, endCyc, hst, hr, hend]

theorem ack_of_answers (hr : i.socReset = false) : (wbSioIn s i).ack = deviceAnswers s i := by
  simp [deviceAnswers, hr]

/-- A half that is not answered yet stays. -/
theorem Asking.keep {h : Half} {asked asked' : Bool} (ha : Asking s n a h asked)
    (hr : i.socReset = false) (hl : latch s i =
      { s with wbSioOut := { s.wbSioOut with stb := s.wbSioOut.stb && (wbSioIn s i).stall } })
    (hst : s.state ≠ .idle) (hno : deviceAnswers s i = false)
    (hstb : (s.wbSioOut.stb && (wbSioIn s i).stall) = !asked')
    (hn : unansweredNext s i n = asked'.toNat) :
    Asking (Soc.step c s i) (unansweredNext s i n) a h asked' := by
  have hend : lastAck s i = false := by simp [lastAck, ack_of_answers hr, hno]
  refine ⟨?_, ?_, ?_, hn, ?_, ?_⟩
  · rw [← ha.request]
    simp [Soc.step, hr, hl, State.request]
  · rw [cyc_kept hr hst hend]
    exact ha.cyc
  · simp [Soc.step, hr, hl, hstb]
  · simp [Soc.step, hr, hl, ha.ack]
  · simp [Soc.step, hr, hl, ha.stall]

/-- The last answer of an access: the ack is next. -/
theorem sim_finish (hr : i.socReset = false) {v : State} (hl : latch s i = finishAccess v)
    (hstb : v.wbSioOut.stb = false) (hn : unansweredNext s i n = 0)
    (hold : Holds v.wbIoOut.dat got) :
    Sim (Soc.step c s i) (unansweredNext s i n) (.busy a [] false got) := by
  refine .done ⟨?_, ?_, hn, ?_⟩ ?_ ?_
  · simp [Soc.step, hr, hl, finishAccess]
  · simp [Soc.step, hr, hl, finishAccess, hstb]
  · simp [Soc.step, hr, hl, finishAccess]
  · simp [Soc.step, hr, hl, finishAccess]
  · simpa [Soc.step, hr, hl, finishAccess] using hold

/-- The low half under way. -/
theorem sim_low {asked : Bool} (hst : s.state = .waitAckBot) (ha : Asking s n a .low asked)
    (htop : s.hasTop = (Half.high.sel a.sel != 0)) (hdat : s.datLatch = Half.high.word a.dat)
    (hsel : s.selLatch = Half.high.sel a.sel) (hr : i.socReset = false)
    (hans : deviceAnswers s i = true → 0 < n ∨ deviceAccepts s i = true) :
    ∃ q', Converter.after issued
        (.busy a (.low :: if s.hasTop then [.high] else []) asked fun _ => none)
        (cycleEvents s i) = some q' ∧
      Sim (Soc.step c s i) (unansweredNext s i n) q' := by
  have hne : s.state ≠ .idle := by simp [hst]
  have hack := @ack_of_answers s i hr
  obtain ⟨hno, asked', hq, hstb, hn⟩ | ⟨hyes, hq, hstb, hn⟩ :=
    ha.cycle hr hans (if s.hasTop then [.high] else []) fun _ => none
  · have hl : latch s i = { s with
        wbSioOut := { s.wbSioOut with stb := s.wbSioOut.stb && (wbSioIn s i).stall } } := by
      simp [latch, hst, hack, hno]
    have hkeep : Asking (Soc.step c s i) (unansweredNext s i n) a .low asked' :=
      ha.keep hr hl hne hno hstb hn
    have hsame : (Soc.step c s i).hasTop = s.hasTop := by simp [Soc.step, hr, hl]
    refine ⟨_, hq, ?_⟩
    rw [← hsame]
    refine .low ?_ hkeep ?_ ?_ ?_
    · simp [Soc.step, hr, hl, hst]
    · rw [hsame, htop]
    · simp [Soc.step, hr, hl, hdat]
    · simp [Soc.step, hr, hl, hsel]
  · -- the answer goes into the low half of the word
    have hold : Holds (s.wbIoOut.dat.extractLsb' 32 32 ++ (wbSioIn s i).dat)
        (Function.update (fun _ => none) .low (some (wbSioIn s i).dat)) := by
      refine (Holds.none s.wbIoOut.dat).update (low_word_append _ _) fun k hk => ?_
      cases k with
      | low => exact absurd rfl hk
      | high => exact high_word_append _ _
    cases htop' : s.hasTop with
    | false =>
        rw [htop'] at hq
        refine ⟨_, hq, ?_⟩
        have hl : latch s i = finishAccess { s with
            wbIoOut := { s.wbIoOut with
              dat := s.wbIoOut.dat.extractLsb' 32 32 ++ (wbSioIn s i).dat }
            wbSioOut := { s.wbSioOut with stb := s.wbSioOut.stb && (wbSioIn s i).stall } } := by
          simp [latch, hst, hack, hyes, htop']
        exact sim_finish hr hl hstb hn hold
    | true =>
        rw [htop'] at hq
        refine ⟨_, hq, ?_⟩
        have hl : latch s i = { s with
            state := .waitAckTop
            wbIoOut := { s.wbIoOut with
              dat := s.wbIoOut.dat.extractLsb' 32 32 ++ (wbSioIn s i).dat }
            wbSioOut := { s.wbSioOut with
              dat := s.datLatch
              sel := s.selLatch
              adr := s.wbSioOut.adr.extractLsb' 1 29 ++ 1#1
              stb := true } } := by
          simp [latch, hst, hack, hyes, htop']
        have hend : lastAck s i = false := by simp [lastAck, hst, htop']
        have hadr : s.wbSioOut.adr = a.adr ++ 0#1 := congrArg Request.adr ha.request
        have hwe : s.wbSioOut.we = a.we := congrArg Request.we ha.request
        refine .high ?_ ⟨?_, ?_, ?_, hn, ?_, ?_⟩ ?_ rfl
        · simp [Soc.step, hr, hl]
        · have hreq : (Soc.step c s i).request =
              ⟨s.wbSioOut.adr.extractLsb' 1 29 ++ 1#1, s.datLatch, s.selLatch, s.wbSioOut.we⟩ := by
            simp [Soc.step, hr, hl, State.request]
          rw [hreq, hadr, hdat, hsel, hwe, BitVec.extractLsb'_append_eq_left]
          rfl
        · rw [cyc_kept hr hne hend]
          exact ha.cyc
        · simp [Soc.step, hr, hl]
        · simp [Soc.step, hr, hl, ha.ack]
        · simp [Soc.step, hr, hl, ha.stall]
        · simpa [Soc.step, hr, hl] using hold

/-- The high half under way. -/
theorem sim_high {asked : Bool} (hst : s.state = .waitAckTop) (ha : Asking s n a .high asked)
    (hold : Holds s.wbIoOut.dat got) (hgot : got .high = none) (hr : i.socReset = false)
    (hans : deviceAnswers s i = true → 0 < n ∨ deviceAccepts s i = true) :
    ∃ q', Converter.after issued (.busy a [.high] asked got) (cycleEvents s i) = some q' ∧
      Sim (Soc.step c s i) (unansweredNext s i n) q' := by
  have hne : s.state ≠ .idle := by simp [hst]
  have hack := @ack_of_answers s i hr
  obtain ⟨hno, asked', hq, hstb, hn⟩ | ⟨hyes, hq, hstb, hn⟩ := ha.cycle hr hans [] got
  · have hl : latch s i = { s with
        wbSioOut := { s.wbSioOut with stb := s.wbSioOut.stb && (wbSioIn s i).stall } } := by
      simp [latch, hst, hack, hno]
    refine ⟨_, hq, .high ?_ (ha.keep hr hl hne hno hstb hn) ?_ hgot⟩
    · simp [Soc.step, hr, hl, hst]
    · simpa [Soc.step, hr, hl] using hold
  · have hl : latch s i = finishAccess { s with
        wbIoOut := { s.wbIoOut with
          dat := (wbSioIn s i).dat ++ s.wbIoOut.dat.extractLsb' 0 32 }
        wbSioOut := { s.wbSioOut with stb := s.wbSioOut.stb && (wbSioIn s i).stall } } := by
      simp [latch, hst, hack, hyes]
    have hold' : Holds ((wbSioIn s i).dat ++ s.wbIoOut.dat.extractLsb' 0 32)
        (Function.update got .high (some (wbSioIn s i).dat)) := by
      refine hold.update (high_word_append _ _) fun k hk => ?_
      cases k with
      | low => exact low_word_append _ _
      | high => exact absurd rfl hk
    exact ⟨_, hq, sim_finish hr hl hstb hn hold'⟩

/-- One cycle of the latch is allowed by the converter. -/
theorem Sim.step {q : Converter} (h : Sim s n q)
    (hans : deviceAnswers s i = true → 0 < n ∨ deviceAccepts s i = true) :
    ∃ q', Converter.after issued q (cycleEvents s i) = some q' ∧
      Sim (Soc.step c s i) (unansweredNext s i n) q' := by
  cases hr : i.socReset with
  | true =>
      refine ⟨.idle, ?_, sim_reset hr⟩
      simp [cycleEvents, hr, Converter.after, Converter.next]
  | false =>
      cases h with
      | idle hrest hack =>
          refine hrest.cycle hr hans ?_
          simp [hack, Converter.after]
      | @done a got hrest hack hold =>
          refine hrest.cycle hr hans ?_
          have hall : ∀ h ∈ [Half.low, Half.high], ∀ w ∈ got h, h.word s.wbIoOut.dat = w :=
            fun h _ w hw => hold h w hw
          have hnext : Converter.next issued (.busy a [] false got) (.ack s.wbIoOut.dat) =
              some .idle := if_pos hall
          simp [hack, Converter.after, hnext]
      | low hst ha htop hdat hsel => exact sim_low hst ha htop hdat hsel hr hans
      | high hst ha hold hgot => exact sim_high hst ha hold hgot hr hans

end

/-! ## Whole runs -/

/-- The latch before edge `n` of an infinite run. -/
def sysAt (c : Config) (s : State) (input : Nat → Input) (n : Nat) : Sys :=
  trace (Sys.step c) (Sys.start s) input n

/-- The device accepts what is requested and answers what it has accepted, sooner or later. -/
structure Fair (c : Config) (s : State) (input : Nat → Input) : Prop where
  accepts : ∀ n, (sysAt c s input n).st.wbSioOut.stb = true →
    ∃ m, n ≤ m ∧ (wbSioIn (sysAt c s input m).st (input m)).stall = false
  answers : ∀ n, 0 < (sysAt c s input n).unanswered →
    ∃ m, n ≤ m ∧ (wbSioIn (sysAt c s input m).st (input m)).ack = true

section

variable {c : Config} {s : State} {input : Nat → Input}

/-- The converter allows the events so far, and the latch is where it is. -/
def Followed (x : Sys) : Prop :=
  ∃ q, Converter.after issued .idle x.log = some q ∧ Sim x.st x.unanswered q

theorem after_append (parts : WishboneMasterOut → List Half) (q : Converter) (l l' : List Event) :
    Converter.after parts q (l ++ l') =
      (Converter.after parts q l).bind fun q' => Converter.after parts q' l' :=
  List.foldlM_append ..

theorem Followed.step {x : Sys} {i : Input} (h : Followed x) (hans : x.Answering i) :
    Followed (x.step c i) := by
  obtain ⟨q, hq, hsim⟩ := h
  obtain ⟨q', hq', hsim'⟩ := hsim.step (c := c) hans
  refine ⟨q', ?_, hsim'⟩
  show Converter.after issued .idle (x.log ++ cycleEvents x.st i) = some q'
  rw [after_append, hq]
  exact hq'

theorem followed_reset {i : Input} (hr : i.socReset = true) :
    Followed ((Sys.start s).step c i) := by
  refine ⟨.idle, ?_, sim_reset hr⟩
  simp [Sys.step, Sys.start, cycleEvents, hr, Converter.after, Converter.next]

theorem followed (h0 : (input 0).socReset = true)
    (hans : ∀ n, (sysAt c s input n).Answering (input n)) (n : Nat) (hn : 1 ≤ n) :
    Followed (sysAt c s input n) :=
  trace_invariant Followed 1 (fun m _ h => h.step (hans m)) (followed_reset h0) n hn

/-! ## Every access is acked -/

/-- The steps that an access still needs. -/
def stepsLeft (s : State) : Nat :=
  match s.state with
  | .idle => 0
  | .waitAckTop => if s.wbSioOut.stb then 2 else 1
  | .waitAckBot => if s.wbSioOut.stb then 4 else 3

/-- What the latch waits for: nothing, the request to be accepted (`true`), or the answer. -/
def waitsFor (s : State) : Option Bool :=
  if s.state = .idle then none else some s.wbSioOut.stb

/-- The device does what the latch waits for. -/
def Helps (w : Option Bool) (s : State) (i : Input) : Prop :=
  match w with
  | none => True
  | some true => (wbSioIn s i).stall = false
  | some false => (wbSioIn s i).ack = true

/-- One cycle of an access takes it further, or nothing comes from the device. -/
theorem stepsLeft_step {s : State} {i : Input} (hr : i.socReset = false) (hst : s.state ≠ .idle) :
    ((Soc.step c s i).state ≠ .idle ∨ (Soc.step c s i).wbIoOut.ack = true) ∧
    (stepsLeft (Soc.step c s i) < stepsLeft s ∨
      (stepsLeft (Soc.step c s i) = stepsLeft s ∧
        waitsFor (Soc.step c s i) = waitsFor s ∧ ¬Helps (waitsFor s) s i)) := by
  have hstate : (Soc.step c s i).state = (latch s i).state := by simp [Soc.step, hr]
  have hstb : (Soc.step c s i).wbSioOut.stb = (latch s i).wbSioOut.stb := by simp [Soc.step, hr]
  have hack : (Soc.step c s i).wbIoOut.ack = (latch s i).wbIoOut.ack := by simp [Soc.step, hr]
  simp only [stepsLeft, waitsFor, hstate, hstb, hack]
  cases hs : s.state with
  | idle => exact absurd hs hst
  | waitAckBot =>
      cases ha : (wbSioIn s i).ack with
      | true =>
          cases htop : s.hasTop with
          | true =>
              simp only [latch, hs, ha, htop, if_true]
              refine ⟨by simp, Or.inl ?_⟩
              split_ifs <;> omega
          | false =>
              simp only [latch, hs, ha, htop, if_true, Bool.false_eq_true, if_false, finishAccess]
              refine ⟨by simp, Or.inl ?_⟩
              split_ifs <;> omega
      | false =>
          simp only [latch, hs, ha, Bool.false_eq_true, if_false]
          cases s.wbSioOut.stb <;> cases hstall : (wbSioIn s i).stall <;>
            simp [Helps, ha, hstall]
  | waitAckTop =>
      cases ha : (wbSioIn s i).ack with
      | true =>
          simp only [latch, hs, ha, if_true, finishAccess]
          refine ⟨by simp, Or.inl ?_⟩
          split_ifs <;> omega
      | false =>
          simp only [latch, hs, ha, Bool.false_eq_true, if_false]
          cases s.wbSioOut.stb <;> cases hstall : (wbSioIn s i).stall <;>
            simp [Helps, ha, hstall]

/-- A half without its answer is requested, or the device has it. -/
theorem Followed.unanswered_of_busy {x : Sys} (h : Followed x) (hst : x.st.state ≠ .idle)
    (hstb : x.st.wbSioOut.stb = false) : 0 < x.unanswered := by
  obtain ⟨q, -, hsim⟩ := h
  cases hsim with
  | idle hrest _ => exact absurd hrest.state hst
  | done hrest _ _ => exact absurd hrest.state hst
  | @low a asked _ ha _ _ _ =>
      have hasked : asked = true := by simpa [hstb] using ha.stb
      simp [ha.unanswered, hasked]
  | @high a asked _ _ ha _ _ =>
      have hasked : asked = true := by simpa [hstb] using ha.stb
      simp [ha.unanswered, hasked]

theorem access_ends (h0 : (input 0).socReset = true)
    (hans : ∀ n, (sysAt c s input n).Answering (input n)) (hfair : Fair c s input) {n : Nat}
    (hn : 1 ≤ n) (hst : (sysAt c s input n).st.state ≠ .idle) :
    ∃ m, n ≤ m ∧
      ((sysAt c s input m).st.wbIoOut.ack = true ∨ (input m).socReset = true) := by
  let x := sysAt c s input
  let P : Nat → Prop := fun k => 1 ≤ k ∧ ((x k).st.state ≠ .idle ∨ (x k).st.wbIoOut.ack = true)
  refine eventually_of_rank P (fun k => (x k).st.wbIoOut.ack = true ∨ (input k).socReset = true)
    (fun k => stepsLeft (x k).st) (fun k => waitsFor (x k).st)
    (fun w k => Helps w (x k).st (input k)) ?_ ?_ n ⟨hn, Or.inl hst⟩
  · rintro k ⟨-, hbusy⟩ hno
    simp only [not_or, Bool.not_eq_true] at hno
    have hst' : (x k).st.state ≠ .idle := hbusy.resolve_right (by simp [hno.1])
    obtain ⟨hbusy', hrank⟩ := stepsLeft_step (c := c) hno.2 hst'
    exact ⟨⟨by omega, hbusy'⟩, hrank⟩
  · rintro k ⟨hk, -⟩
    by_cases hidle : (x k).st.state = .idle
    · exact ⟨k, le_rfl, by simp [waitsFor, hidle, Helps]⟩
    · cases hstb : (x k).st.wbSioOut.stb with
      | true =>
          obtain ⟨m, hm, hs⟩ := hfair.accepts k hstb
          exact ⟨m, hm, by simpa [waitsFor, hidle, hstb, Helps] using hs⟩
      | false =>
          obtain ⟨m, hm, ha⟩ :=
            hfair.answers k ((followed h0 hans k hk).unanswered_of_busy hidle hstb)
          exact ⟨m, hm, by simpa [waitsFor, hidle, hstb, Helps] using ha⟩

/-- Every access is split as the converter says, whatever the device's timing, and it is acked. -/
theorem accesses_split (c : Config) (s : State) (input : Nat → Input)
    (h0 : (input 0).socReset = true) (hans : ∀ n, (sysAt c s input n).Answering (input n)) :
    (∀ n, Legal issued (sysAt c s input n).log) ∧
    (Fair c s input → ∀ n, accepts (sysAt c s input n).st (input n) = true → ∃ m, n < m ∧
      ((sysAt c s input m).st.wbIoOut.ack = true ∨ (input m).socReset = true)) := by
  constructor
  · intro n
    rcases Nat.eq_zero_or_pos n with rfl | hn
    · rfl
    · obtain ⟨q, hq, -⟩ := followed h0 hans n hn
      simp [Legal, hq]
  · intro hfair n hacc
    have hr : (input n).socReset = false := by
      simp only [accepts, Bool.and_eq_true, Bool.not_eq_true'] at hacc
      exact hacc.1.1.1
    have hn : 1 ≤ n := by
      rcases Nat.eq_zero_or_pos n with rfl | hn
      · rw [h0] at hr
        cases hr
      · exact hn
    obtain ⟨q, -, hsim⟩ := followed h0 hans n hn
    have hidle : (sysAt c s input n).st.state = .idle := by
      simp only [accepts, Bool.and_eq_true, Bool.not_eq_true'] at hacc
      cases hsim with
      | idle hrest _ => exact hrest.state
      | done hrest _ _ => exact hrest.state
      | low _ ha _ _ _ => exact absurd hacc.2 (by simp [ha.stall])
      | high _ ha _ _ => exact absurd hacc.2 (by simp [ha.stall])
    have hstart : doCyc (sysAt c s input n).st (input n) = true := by
      simp only [accepts, Bool.and_eq_true, Bool.not_eq_true'] at hacc
      simp [doCyc, hr, hidle, hacc.1.1.2, hacc.1.2]
    obtain ⟨m, hm, hend⟩ := access_ends h0 hans hfair (Nat.le_succ_of_le hn)
      (step_of_start (c := c) hstart).1
    exact ⟨m, hm, hend⟩

end

/-! ## Two runs -/

/-- No access, and nothing from the devices. -/
def Input.quiet : Input where
  socReset := false
  wbIoIn := ⟨0, 0, 0, false, false, false⟩
  deviceOut _ := ⟨0, false, false⟩

def Input.reset : Input :=
  { Input.quiet with socReset := true }

/-- An access to the UART at `0xC0002000` that writes `dat`. -/
def Input.write (dat : Dword) (sel : ByteSel) : Input :=
  { Input.quiet with wbIoIn := ⟨0x18000400, dat, sel, true, true, true⟩ }

def Input.stalled : Input :=
  { Input.quiet with deviceOut _ := ⟨0, false, true⟩ }

def Input.answered (dat : BitVec 32) : Input :=
  { Input.quiet with deviceOut _ := ⟨dat, true, false⟩ }

/-- A device that does not ack does what it should. -/
theorem answering_of_silent {x : Sys} {i : Input} (h : ∀ d, (i.deviceOut d).ack = false) :
    x.Answering i := by
  intro hans
  simp only [deviceAnswers, Bool.and_eq_true, Bool.not_eq_true'] at hans
  obtain ⟨hr, hack⟩ := hans
  unfold wbSioIn at hack
  split_ifs at hack with hnone
  · simp only [Bool.and_eq_true] at hack
    exact Or.inr (by simp [deviceAccepts, hr, hack.1, hack.2, wbSioIn, hnone])
  · rw [h] at hack
    cases hack

/-- A write of both halves: the device stalls the low one for a cycle and answers it later, and it
answers the high one at once. -/
def bothHalves : Nat → Input
  | 1 => .write 0x1122334455667788 0xff
  | 2 => .stalled
  | 4 => .answered 0xa
  | 5 => .answered 0xb
  | 0 => .reset
  | _ => .quiet

/-- A write that selects no byte. -/
def noByte : Nat → Input
  | 0 => .reset
  | 1 => .write 0 0
  | 2 => .answered 0
  | _ => .quiet

theorem answering_bothHalves (n : Nat) :
    (sysAt ⟨true, true, true⟩ State.cold bothHalves n).Answering (bothHalves n) :=
  match n with
  | 0 => answering_of_silent fun _ => rfl
  | 1 => answering_of_silent fun _ => rfl
  | 2 => answering_of_silent fun _ => rfl
  | 3 => answering_of_silent fun _ => rfl
  | 4 => by decide +kernel
  | 5 => by decide +kernel
  | _ + 6 => answering_of_silent fun _ => rfl

/-- After the access the latch stays at rest. -/
theorem resting_bothHalves (n : Nat) (hn : 7 ≤ n) :
    Sim (sysAt ⟨true, true, true⟩ State.cold bothHalves n).st
      (sysAt ⟨true, true, true⟩ State.cold bothHalves n).unanswered .idle := by
  refine trace_invariant (fun x : Sys => Sim x.st x.unanswered .idle) 7 ?_ ?_ n hn
  · intro m hm h
    obtain ⟨k, rfl⟩ : ∃ k, m = k + 7 := ⟨m - 7, by omega⟩
    have hq : bothHalves (k + 7) = .quiet := rfl
    rw [hq]
    cases h with
    | idle hrest hack =>
        exact hrest.rest rfl rfl (hrest.no_answer (answering_of_silent fun _ => rfl))
  · exact .idle ⟨by decide +kernel, by decide +kernel, by decide +kernel, by decide +kernel⟩
      (by decide +kernel)

theorem fair_bothHalves : Fair ⟨true, true, true⟩ State.cold bothHalves where
  accepts n _ := by
    refine ⟨n + 7, by omega, ?_⟩
    have hq : bothHalves (n + 7) = .quiet := rfl
    rw [hq]
    unfold wbSioIn
    split_ifs <;> rfl
  answers n hn := by
    by_cases hle : n ≤ 4
    · exact ⟨4, hle, by decide +kernel⟩
    · by_cases hle' : n ≤ 5
      · exact ⟨5, hle', by decide +kernel⟩
      · exfalso
        by_cases h6 : n = 6
        · subst h6
          exact absurd hn (by decide +kernel)
        · have hsim := resting_bothHalves n (by omega)
          cases hsim with
          | idle hrest _ => exact hn.ne' hrest.unanswered

/-- Both halves are written one after the other, and then comes the ack. -/
theorem both_halves_written :
    (∀ n, Legal issued (sysAt ⟨true, true, true⟩ State.cold bothHalves n).log) ∧
    (sysAt ⟨true, true, true⟩ State.cold bothHalves 7).log =
      [.reset, .accept ⟨0x18000400, 0x1122334455667788, 0xff, true, true, true⟩,
        .request ⟨0x30000800, 0x55667788, 0xf, true⟩, .answer 0xa,
        .request ⟨0x30000801, 0x11223344, 0xf, true⟩, .answer 0xb, .ack 0xb0000000a] ∧
    ∃ m, 1 < m ∧
      ((sysAt ⟨true, true, true⟩ State.cold bothHalves m).st.wbIoOut.ack = true ∨
        (bothHalves m).socReset = true) := by
  obtain ⟨hlegal, hacked⟩ :=
    accesses_split ⟨true, true, true⟩ State.cold bothHalves rfl answering_bothHalves
  exact ⟨hlegal, by decide +kernel, hacked fair_bothHalves 1 (by decide +kernel)⟩

/-- For an access that selects no byte the device gets a request all the same. -/
theorem no_byte_requested :
    (noByte 0).socReset = true ∧
    (∀ n, (sysAt ⟨true, true, true⟩ State.cold noByte n).Answering (noByte n)) ∧
    ¬Legal nonEmpty (sysAt ⟨true, true, true⟩ State.cold noByte 3).log := by
  refine ⟨rfl, fun n => ?_, by decide +kernel⟩
  match n with
  | 0 => exact answering_of_silent fun _ => rfl
  | 1 => exact answering_of_silent fun _ => rfl
  | 2 => decide +kernel
  | _ + 3 => exact answering_of_silent fun _ => rfl

end Microwatt.Soc
