import Mathlib.Tactic

/-!
# Loops over an index range

Two kinds of loop that hardware descriptions write over all ways of a set: one in
which the last matching index wins, and one that ORs the words of all matching
indices.
-/

namespace Select

variable {α β : Type*} {w : Nat}

/-- The last match decides; without a match the initial value stays. -/
theorem foldl_last_cases (p : α → Bool) (f : α → β) (b : β) (l : List α) :
    (∀ x ∈ l, p x = false) ∧ l.foldl (fun acc x => if p x then f x else acc) b = b ∨
      ∃ x ∈ l, p x = true ∧ l.foldl (fun acc x => if p x then f x else acc) b = f x := by
  induction l using List.reverseRecOn with
  | nil => exact Or.inl ⟨by simp, rfl⟩
  | append_singleton l x ih =>
      cases hx : p x with
      | true => exact Or.inr ⟨x, by simp, hx, by simp [hx]⟩
      | false =>
          have hfold : (l ++ [x]).foldl (fun acc x => if p x then f x else acc) b =
              l.foldl (fun acc x => if p x then f x else acc) b := by simp [hx]
          rw [hfold]
          rcases ih with ⟨hnone, hb⟩ | ⟨y, hy, hpy, hfy⟩
          · refine Or.inl ⟨fun y hy => ?_, hb⟩
            rcases List.mem_append.mp hy with hy | hy
            · exact hnone y hy
            · rw [List.mem_singleton.mp hy, hx]
          · exact Or.inr ⟨y, List.mem_append_left _ hy, hpy, hfy⟩

/-- A loop that finds no match keeps its initial value. -/
theorem foldl_or_eq_self (p : α → Bool) (f : α → BitVec w) (b : BitVec w) (l : List α)
    (hnone : ∀ x ∈ l, p x = false) :
    l.foldl (fun acc x => if p x then acc ||| f x else acc) b = b := by
  induction l generalizing b with
  | nil => rfl
  | cons x l ih =>
      rw [List.foldl_cons, hnone x (by simp)]
      exact ih b fun y hy => hnone y (by simp [hy])

/-- Bit by bit, the loop is a disjunction over the matches. -/
theorem getLsbD_foldl_or (p : α → Bool) (f : α → BitVec w) (b : BitVec w) (l : List α) (k : Nat) :
    (l.foldl (fun acc x => if p x then acc ||| f x else acc) b).getLsbD k =
      (b.getLsbD k || l.any fun x => p x && (f x).getLsbD k) := by
  induction l generalizing b with
  | nil => simp
  | cons x l ih =>
      rw [List.foldl_cons, ih, List.any_cons]
      cases p x <;> simp [Bool.or_assoc]

/-- With a single match the OR of all words is the matching one. -/
theorem foldl_or_eq_of_unique (p : α → Bool) (f : α → BitVec w) {l : List α} (hl : l.Nodup)
    {x : α} (hx : x ∈ l) (hpx : p x = true) (huniq : ∀ y ∈ l, p y = true → y = x) :
    l.foldl (fun acc x => if p x then acc ||| f x else acc) 0 = f x := by
  obtain ⟨l₁, l₂, rfl⟩ := List.append_of_mem hx
  have hnone : ∀ y ∈ l₁ ++ l₂, p y = false := by
    intro y hy
    by_contra hp
    have hyx : y = x := huniq y (by simp at hy ⊢; tauto) (by simpa using hp)
    rw [hyx] at hy
    exact (List.nodup_middle.mp hl).notMem hy
  rw [List.foldl_append, foldl_or_eq_self p f 0 l₁ fun y hy => hnone y (by simp [hy]),
    List.foldl_cons, hpx, foldl_or_eq_self p f _ l₂ fun y hy => hnone y (by simp [hy])]
  simp

end Select
