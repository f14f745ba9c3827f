import Mathlib.Tactic

/-!
# Runs of a synchronous machine

A clocked unit is a step function from the registers and the inputs of a cycle
to the registers after the edge.  A run is a list of inputs, one for each edge.
Assumptions on the environment, and conditions under which a property holds, are
predicates of the registers and the inputs of one cycle that hold along the run.
-/

namespace Clocked

variable {σ ι : Type*} {step : σ → ι → σ}

/-- A guarded assignment keeps what both of its branches keep. -/
theorem ite_keeps {α β : Type*} {f : α → β} {c : Prop} [Decidable c] {a b : α} {x : β}
    (ha : f a = x) (hb : f b = x) : f (if c then a else b) = x := by
  split <;> assumption

/-- The registers after the edges of a run. -/
def run (step : σ → ι → σ) (s : σ) (is : List ι) : σ :=
  is.foldl step s

/-- `ok` holds at every edge of the run. -/
def Along (step : σ → ι → σ) (ok : σ → ι → Prop) : σ → List ι → Prop
  | _, [] => True
  | s, i :: is => ok s i ∧ Along step ok (step s i) is

/-- A decidable assumption can be checked along a given run. -/
def Along.decidable (step : σ → ι → σ) {ok : σ → ι → Prop} (dec : ∀ s i, Decidable (ok s i)) :
    ∀ s is, Decidable (Along step ok s is)
  | _, [] => .isTrue trivial
  | s, i :: is =>
      have := dec s i
      have := Along.decidable step dec (step s i) is
      inferInstanceAs (Decidable (_ ∧ _))

instance {ok : σ → ι → Prop} [dec : ∀ s i, Decidable (ok s i)] (s : σ) (is : List ι) :
    Decidable (Along step ok s is) :=
  Along.decidable step dec s is

@[simp] theorem run_nil (s : σ) : run step s [] = s := rfl

@[simp] theorem run_cons (s : σ) (i : ι) (is : List ι) :
    run step s (i :: is) = run step (step s i) is := rfl

/-- A predicate that one edge preserves holds at the end of every run. -/
theorem Along.invariant {ok : σ → ι → Prop} {Inv : σ → Prop}
    (hstep : ∀ s i, ok s i → Inv s → Inv (step s i)) {s : σ} {is : List ι}
    (hok : Along step ok s is) (hs : Inv s) : Inv (run step s is) := by
  induction is generalizing s with
  | nil => exact hs
  | cons i is ih => exact ih hok.2 (hstep s i hok.1 hs)

/-- A weaker assumption holds along the same run. -/
theorem Along.mono {ok ok' : σ → ι → Prop} (himp : ∀ s i, ok s i → ok' s i) {s : σ}
    {is : List ι} (hok : Along step ok s is) : Along step ok' s is := by
  induction is generalizing s with
  | nil => trivial
  | cons i is ih => exact ⟨himp s i hok.1, ih hok.2⟩

/-- What holds in every state that satisfies an invariant holds along the run. -/
theorem Along.strengthen {ok ok' : σ → ι → Prop} {Inv : σ → Prop}
    (hstep : ∀ s i, ok s i → Inv s → Inv (step s i))
    (himp : ∀ s i, Inv s → ok s i → ok' s i) {s : σ} {is : List ι}
    (hok : Along step ok s is) (hs : Inv s) : Along step ok' s is := by
  induction is generalizing s with
  | nil => trivial
  | cons i is ih => exact ⟨himp s i hs hok.1, ih hok.2 (hstep s i hok.1 hs)⟩

end Clocked
