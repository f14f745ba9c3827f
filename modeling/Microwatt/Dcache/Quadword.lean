import Microwatt.Dcache.Stores
import Microwatt.Dcache.Progress

/-!
# Aligned quadwords

An aligned quadword access comes as two requests with `atomic_qw`, the first
doubleword and then the last.  An observer of the dcache keeps the first request
from when it is looked up and not refused until the second is looked up.

Of a quadword store it records how far it is on the bus: the first doubleword has
been put there and the second has not (`firstOut`), or the second has and its strobe
has not been accepted (`secondOut`).  Of a quadword load it records where the first
doubleword was read from: the bus, or one or more ways of a set; the record is lost
when the tag of such a way is written, for then the way holds another line.
-/

namespace Microwatt.Dcache

variable {g : Geometry}

/-! ## Events -/

/-- The first doubleword of an aligned quadword. -/
def isFirstHalf (p : Loadstore1ToDcache) : Bool :=
  p.atomicQw && p.atomicFirst

/-- The second doubleword of an aligned quadword. -/
def isSecondHalf (p : Loadstore1ToDcache) : Bool :=
  p.atomicQw && !p.atomicFirst

/-- `p` is the second half of the access that `f` is the first half of. -/
def SecondOf (f p : Loadstore1ToDcache) : Prop :=
  isSecondHalf p = true ∧ p.load = f.load ∧ p.reserve = f.reserve ∧ p.virtMode = f.virtMode ∧
    f.addr &&& 15#64 = 0#64 ∧ p.addr = f.addr + 8#64

instance (f p : Loadstore1ToDcache) : Decidable (SecondOf f p) :=
  inferInstanceAs (Decidable (_ ∧ _))

/-- The edge puts a store, not a dcbz, on the bus. -/
def sendsStore (s : State g) (i : Input) : Bool :=
  match s.r1.state with
  | .idle => (curReq s i).plainStore
  | .storeWaitAck => mergeNow s i
  | .doStcx => !stcxLost s && !i.wishboneIn.stall
  | _ => false

/-- Where the data of a load comes from. -/
inductive Origin (g : Geometry) where
  | bus
  | line (ix : Index g) (ways : WayExpand g)
  | lost

/-- A load gets its data in this cycle: as a hit, from a row of a reload, or by a
non-cacheable read. -/
def loadFrom (s : State g) (i : Input) : Option (Origin g) :=
  if reqOp s i == .loadHit then some (.line (reqIndex s) (reqHitWays s i))
  else if i.wishboneIn.ack && (curReq s i).opLmiss then
    if s.r1.state == .reloadWaitAck && reloadMatch s i then
      some (.line s.r1.storeIndex s.r1.storeWays)
    else if s.r1.state == .ncLoadWaitAck then some .bus
    else none
  else none

/-- The tag of one of the ways is written at this edge. -/
def Origin.overwritten (o : Origin g) (s : State g) : Bool :=
  match o with
  | .line ix ways => s.r1.writeTag && ix == s.r1.storeIndex && ways (replaceWay s)
  | _ => false

/-! ## The observer -/

/-- How far a quadword store is on the bus. -/
inductive OnBus where
  | none
  | firstOut
  | secondOut
deriving DecidableEq

/-- The dcache with what is observed of quadwords, and the acks that the slave
owes. -/
structure QuadTrace (g : Geometry) where
  st : State g
  owed : Nat
  first : Option Loadstore1ToDcache
  out : OnBus
  origin : Origin g

namespace QuadTrace

def init (s : State g) : QuadTrace g where
  st := s
  owed := 0
  first := none
  out := .none
  origin := .bus

def nextFirst (t : QuadTrace g) (i : Input) : Option Loadstore1ToDcache :=
  if reqGo t.st i then
    if isFirstHalf t.st.r0.req && reqOp t.st i != .bad then some t.st.r0.req else none
  else t.first

def nextOut (t : QuadTrace g) (i : Input) : OnBus :=
  if sendsStore t.st i then
    if !(curReq t.st i).lastDw then .firstOut
    else if t.out = .firstOut then .secondOut
    else .none
  else if t.out = .secondOut ∧ i.wishboneIn.stall = false then .none
  else t.out

/-- The origin of the first doubleword, before the tag RAM is written. -/
def readOrigin (t : QuadTrace g) (i : Input) : Origin g :=
  match loadFrom t.st i with
  | some o => if (curReq t.st i).firstDw && !(curReq t.st i).lastDw then o else t.origin
  | none => t.origin

def nextOrigin (t : QuadTrace g) (i : Input) : Origin g :=
  if (t.readOrigin i).overwritten t.st then .lost else t.readOrigin i

def step (t : QuadTrace g) (i : Input) : QuadTrace g where
  st := Dcache.step t.st i
  owed := owedNext t.st i t.owed
  first := t.nextFirst i
  out := t.nextOut i
  origin := t.nextOrigin i

end QuadTrace

/-! ## What loadstore1, the MMU and the slave promise -/

/-- The requests of an aligned quadword come one after the other, and the DTLB is
not changed between them.  They are plain loads and stores.  The slave acks only
what it has taken. -/
structure FromLoadstore1 (t : QuadTrace g) (i : Input) : Prop where
  half : reqGo t.st i = true → t.st.r0.req.atomicQw = true →
    t.st.r0.req.sync = false ∧ t.st.r0.req.touch = false ∧ t.st.r0.req.tlbProbe = false ∧
      t.st.r0.req.flush = false ∧ t.st.r0.req.dcbz = false ∧
      t.st.r0.req.atomicLast = !t.st.r0.req.atomicFirst
  second : reqGo t.st i = true → ∀ f ∈ t.first, SecondOf f t.st.r0.req ∧
    (f.virtMode = true → tlbHitWay t.st = t.st.r1.req.tlbWay)
  first : reqGo t.st i = true → isSecondHalf t.st.r0.req = true → t.first ≠ none
  dtlb : t.first ≠ none ∨ (reqGo t.st i = true ∧ isFirstHalf t.st.r0.req = true) →
    i.mIn.tlbld = false ∧ i.mIn.tlbie = false
  ack : AckIsOwed i t.owed

instance (t : QuadTrace g) (i : Input) : Decidable (FromLoadstore1 t i) :=
  decidable_of_iff
    ((reqGo t.st i = true → t.st.r0.req.atomicQw = true →
        t.st.r0.req.sync = false ∧ t.st.r0.req.touch = false ∧ t.st.r0.req.tlbProbe = false ∧
          t.st.r0.req.flush = false ∧ t.st.r0.req.dcbz = false ∧
          t.st.r0.req.atomicLast = !t.st.r0.req.atomicFirst) ∧
      (reqGo t.st i = true → ∀ f ∈ t.first, SecondOf f t.st.r0.req ∧
        (f.virtMode = true → tlbHitWay t.st = t.st.r1.req.tlbWay)) ∧
      (reqGo t.st i = true → isSecondHalf t.st.r0.req = true → t.first ≠ none) ∧
      (t.first ≠ none ∨ (reqGo t.st i = true ∧ isFirstHalf t.st.r0.req = true) →
        i.mIn.tlbld = false ∧ i.mIn.tlbie = false) ∧
      AckIsOwed i t.owed)
    ⟨fun ⟨a, b, c, d, e⟩ => ⟨a, b, c, d, e⟩, fun ⟨a, b, c, d, e⟩ => ⟨a, b, c, d, e⟩⟩

/-! ## Atomicity -/

/-- A quadword store on the bus.  From its first strobe until its second is
accepted the cycle is held; in between nothing else is sent and the second half is
neither refused nor fails; and no second half is sent without the first. -/
structure StoreAtomic (t : QuadTrace g) (i : Input) : Prop where
  sent : sendsStore t.st i = true → (wishboneOut (step t.st i)).cyc = true ∧
    (wishboneOut (step t.st i)).stb = true ∧ (wishboneOut (step t.st i)).we = true
  held : t.out ≠ .none → (wishboneOut t.st).cyc = true
  strobe : t.out = .secondOut → (wishboneOut t.st).stb = true
  next : t.out = .firstOut → sendsStore t.st i = true → (curReq t.st i).firstDw = false
  both : t.out = .firstOut → reqOp t.st i ≠ .bad ∧ (dOut (step t.st i)).storeDone = true
  neither : sendsStore t.st i = true → (curReq t.st i).firstDw = false → t.out = .firstOut

/-- The second doubleword of a quadword load whose first doubleword was read from a
line is read from the same ways, which have held the same line since. -/
def LoadAtomic (t : QuadTrace g) (i : Input) : Prop :=
  ∀ o, loadFrom t.st i = some o → (curReq t.st i).firstDw = false →
    t.origin = .bus ∨ o = t.origin

/-! ## What breaks it -/

/-- A set of ways has at most one element. -/
def AtMostOne (ways : WayExpand g) : Prop :=
  ∀ w w', ways w = true → ways w' = true → w = w'

/-- The second half of a store whose first half is on the bus is permitted, so that no
watchpoint of its own stops it, is not refused as non-cacheable, and in real mode is to
an address that the bus can carry. -/
def SecondStoreGood (t : QuadTrace g) (i : Input) : Prop :=
  t.out = .firstOut → reqGo t.st i = true →
    accessOk t.st i = true ∧
      (reqNc t.st && (reqIsHit t.st i || t.st.r0.req.reserve)) = false ∧
      (t.st.r0.req.virtMode = false → t.st.r0.req.addr.extractLsb' 32 24 = 0#24)

/-- A half of a quadword load is found in one way at most, and if it waits for a row
of a reload, that reload fills one way. -/
def OneWay (s : State g) (i : Input) : Prop :=
  reqGo s i = true → s.r0.req.load = true → s.r0.req.atomicQw = true →
    AtMostOne (reqHitWays s i) ∧ (reqHitReload s i = true → AtMostOne s.r1.storeWays)

/-- The first half of a quadword load does not hit, in the cycle in which a tag is
written, the way that is about to be reloaded. -/
def NotReplaced (s : State g) (i : Input) : Prop :=
  reqGo s i = true → s.r0.req.load = true → isFirstHalf s.r0.req = true →
    s.r1.writeTag = true → reqIndex s = s.r1.storeIndex →
      reqHitWays s i (replaceWay s) = false ∧ reqHitReload s i = false

/-- A reload does not end in the cycle in which the first half of a quadword load
hits, or between it and the second half, unless it is the line of that load that was
reloaded. -/
def NoReloadEnd (t : QuadTrace g) (i : Input) : Prop :=
  t.st.r1.state = .reloadWaitAck → reloadLast t.st i = true →
    (reqGo t.st i = true → t.st.r0.req.load = true → isFirstHalf t.st.r0.req = true →
      reqIsHit t.st i = true → reqHitWays t.st i = t.st.r1.storeWays) ∧
    (∀ f ∈ t.first, f.load = true → t.st.r1.full = false → reqGo t.st i = false →
      t.st.r1.prevHitWays = t.st.r1.storeWays)

/-- None of these happens. -/
structure Undisturbed (t : QuadTrace g) (i : Input) : Prop where
  secondStore : SecondStoreGood t i
  oneWay : OneWay t.st i
  notReplaced : NotReplaced t.st i
  reloadEnd : NoReloadEnd t i

instance (ways : WayExpand g) : Decidable (AtMostOne ways) :=
  inferInstanceAs (Decidable (∀ _ _, _ → _ → _))

instance (t : QuadTrace g) (i : Input) : Decidable (SecondStoreGood t i) :=
  inferInstanceAs (Decidable (_ → _ → _ ∧ _ ∧ (_ → _)))

instance (s : State g) (i : Input) : Decidable (OneWay s i) :=
  inferInstanceAs (Decidable (_ → _ → _ → _ ∧ (_ → _)))

instance (s : State g) (i : Input) : Decidable (NotReplaced s i) :=
  inferInstanceAs (Decidable (_ → _ → _ → _ → _ → _ ∧ _))

instance (t : QuadTrace g) (i : Input) : Decidable (NoReloadEnd t i) :=
  inferInstanceAs (Decidable (_ → _ → (_ → _ → _ → _ → _) ∧ (∀ f ∈ t.first, _)))

instance (t : QuadTrace g) (i : Input) : Decidable (Undisturbed t i) :=
  decidable_of_iff
    (SecondStoreGood t i ∧ OneWay t.st i ∧ NotReplaced t.st i ∧ NoReloadEnd t i)
    ⟨fun ⟨a, b, c, d⟩ => ⟨a, b, c, d⟩, fun ⟨a, b, c, d⟩ => ⟨a, b, c, d⟩⟩

end Microwatt.Dcache
