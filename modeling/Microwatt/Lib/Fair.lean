import Microwatt.Lib.Run

/-!
# Progress along infinite runs

An infinite run is driven by an input for every edge.  Progress is proved with a
rank in a well-founded order: as long as the goal has not been reached, every edge
lowers the rank or leaves the machine waiting, with the same rank, for the same
kind of event of the environment.  If each kind of event happens sooner or later
while the machine waits for it, the goal is reached.
-/

namespace Clocked

variable {σ ι : Type*} {step : σ → ι → σ}

/-- The state before edge `n` of an infinite run. -/
def trace (step : σ → ι → σ) (s : σ) (input : Nat → ι) : Nat → σ
  | 0 => s
  | n + 1 => step (trace step s input n) (input n)

/-- The state after the first edges of an infinite run. -/
theorem trace_eq_run (s : σ) (input : Nat → ι) (n : Nat) :
    trace step s input n = run step s ((List.range n).map input) := by
  induction n with
  | zero => rfl
  | succ n ih =>
      rw [trace, ih, List.range_succ, List.map_append, run, run, List.foldl_append]
      rfl

/-- What holds before one edge and is preserved by it holds before every later
edge. -/
theorem trace_invariant (Inv : σ → Prop) {s : σ} {input : Nat → ι} (start : Nat)
    (hstep : ∀ n, start ≤ n → Inv (trace step s input n) →
      Inv (step (trace step s input n) (input n)))
    (hs : Inv (trace step s input start)) (n : Nat) (hn : start ≤ n) :
    Inv (trace step s input n) := by
  induction n, hn using Nat.le_induction with
  | base => exact hs
  | succ n hn ih => exact hstep n hn ih

section Rank

variable {α κ : Type*} [Preorder α] (P Q : Nat → Prop) (rank : Nat → α) (mode : Nat → κ)
  (helpful : κ → Nat → Prop)

/-- Until the event it waits for comes, a machine keeps its rank or lowers it. -/
theorem lower_of_helpful
    (hstep : ∀ n, P n → ¬Q n → P (n + 1) ∧
      (rank (n + 1) < rank n ∨
        (rank (n + 1) = rank n ∧ mode (n + 1) = mode n ∧ ¬helpful (mode n) n)))
    (k : Nat) :
    ∀ n, P n → helpful (mode n) (n + k) →
      (∃ m, n ≤ m ∧ Q m) ∨ ∃ m, n ≤ m ∧ P m ∧ rank m < rank n := by
  induction k with
  | zero =>
      intro n hP hhelp
      by_cases hQ : Q n
      · exact Or.inl ⟨n, le_rfl, hQ⟩
      · obtain ⟨hP', hlt | ⟨-, -, hno⟩⟩ := hstep n hP hQ
        · exact Or.inr ⟨n + 1, by omega, hP', hlt⟩
        · exact absurd hhelp hno
  | succ k ih =>
      intro n hP hhelp
      by_cases hQ : Q n
      · exact Or.inl ⟨n, le_rfl, hQ⟩
      · obtain ⟨hP', hlt | ⟨hrank, hmode, -⟩⟩ := hstep n hP hQ
        · exact Or.inr ⟨n + 1, by omega, hP', hlt⟩
        · have hhelp' : helpful (mode (n + 1)) (n + 1 + k) := by
            rw [hmode]
            have hidx : n + 1 + k = n + (k + 1) := by omega
            rw [hidx]
            exact hhelp
          rw [← hrank]
          rcases ih (n + 1) hP' hhelp' with ⟨m, hm, hQm⟩ | ⟨m, hm, hPm, hlt⟩
          · exact Or.inl ⟨m, by omega, hQm⟩
          · exact Or.inr ⟨m, by omega, hPm, hlt⟩

/-- The rank cannot go down forever, so the goal is reached. -/
theorem eventually_of_rank [WellFoundedLT α]
    (hstep : ∀ n, P n → ¬Q n → P (n + 1) ∧
      (rank (n + 1) < rank n ∨
        (rank (n + 1) = rank n ∧ mode (n + 1) = mode n ∧ ¬helpful (mode n) n)))
    (hfair : ∀ n, P n → ∃ m, n ≤ m ∧ helpful (mode n) m) (n : Nat) (hP : P n) :
    ∃ m, n ≤ m ∧ Q m := by
  obtain ⟨a, ha⟩ : ∃ a, rank n = a := ⟨rank n, rfl⟩
  induction a using WellFoundedLT.induction generalizing n with
  | ind a ih =>
      obtain ⟨m, hm, hhelp⟩ := hfair n hP
      obtain ⟨k, rfl⟩ : ∃ k, m = n + k := ⟨m - n, by omega⟩
      rcases lower_of_helpful P Q rank mode helpful hstep k n hP hhelp with hQ | ⟨m', hm', hP', hlt⟩
      · exact hQ
      · rw [ha] at hlt
        obtain ⟨m'', hle, hQ⟩ := ih (rank m') hlt m' hP' rfl
        exact ⟨m'', by omega, hQ⟩

/-- What each edge keeps until an event holds up to the first such event. -/
theorem holds_until_first (hstep : ∀ n, P n → ¬Q n → P (n + 1)) {n : Nat} (hP : P n)
    (hQ : ∃ m, n ≤ m ∧ Q m) : ∃ m, n ≤ m ∧ Q m ∧ ∀ j, n ≤ j → j ≤ m → P j := by
  classical
  obtain ⟨hnm, hm⟩ := Nat.find_spec hQ
  refine ⟨Nat.find hQ, hnm, hm, fun j hnj => ?_⟩
  induction j, hnj using Nat.le_induction with
  | base => exact fun _ => hP
  | succ j hnj ih =>
      intro hjm
      exact hstep j (ih (by omega)) fun hj => Nat.find_min hQ (by omega) ⟨hnj, hj⟩

end Rank

/-! ## Bounds -/

section Bound

variable {total done rank : Nat → Nat} {K N : Nat}

/-- While something is owed, each edge up to `N` answers some of it or lowers the rank, which is
below `K`, so that some of it is answered within `K` edges. -/
theorem answered_within (htotal : Monotone total) (hdone : Monotone done)
    (hrank : ∀ n ≤ N, rank n < K)
    (hstep : ∀ n < N, done n < total n → done n < done (n + 1) ∨ rank (n + 1) < rank n) {n : Nat}
    (hn : n + K ≤ N) (howed : done n < total n) : done n < done (n + K) := by
  have hdown : ∀ k ≤ K, done n < done (n + k) ∨ rank (n + k) + k ≤ rank n := by
    intro k hk
    induction k with
    | zero => exact Or.inr le_rfl
    | succ k ih =>
        have hle : done (n + k) ≤ done (n + (k + 1)) := hdone (by omega)
        rcases ih (by omega) with hlt | hr
        · exact Or.inl (by omega)
        · by_cases hmore : done n < done (n + k)
          · exact Or.inl (by omega)
          · have hstill : total n ≤ total (n + k) := htotal (by omega)
            rcases hstep (n + k) (by omega) (by omega) with hlt | hlow
            · exact Or.inl (lt_of_le_of_lt (hdone (by omega)) hlt)
            · right
              show rank (n + k + 1) + (k + 1) ≤ rank n
              omega
  rcases hdown K le_rfl with h | h
  · exact h
  · have := hrank n (by omega)
    omega

/-- What is owed is answered piece by piece. -/
theorem all_answered_within (htotal : Monotone total) (hdone : Monotone done)
    (hserve : ∀ n, n + K ≤ N → done n < total n → done n < done (n + K)) {T : Nat} (d : Nat) :
    ∀ n, n + d * K ≤ N → T ≤ total n → T ≤ done n + d → T ≤ done (n + d * K) := by
  induction d with
  | zero => intro n _ _ hT; simpa using hT
  | succ d ih =>
      intro n hn hle hT
      have hsplit : n + (d + 1) * K = n + K + d * K := by ring
      rw [hsplit] at hn ⊢
      by_cases howed : done n < total n
      · have hlt := hserve n (by omega) howed
        exact ih (n + K) hn (hle.trans (htotal (by omega))) (by omega)
      · have hle' : done n ≤ done (n + K + d * K) := hdone (by omega)
        omega

end Bound

end Clocked
