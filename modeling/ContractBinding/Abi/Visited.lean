/-!
# Walks that pass no place twice

A walk along links keeps the places it has visited and stops at the first that it would visit
again. Every step takes one place away from those that are left, so every walk ends.
-/

namespace ContractBinding.Abi

universe u

variable {α : Type u} [DecidableEq α] {visited later : List α}

/-- How many of the places are not visited. -/
def unvisited (places visited : List α) : Nat := places.countP fun p => p ∉ visited

/-- Visiting more places leaves no more of them. -/
theorem unvisited_le (places : List α) (hsub : ∀ q ∈ visited, q ∈ later) :
    unvisited places later ≤ unvisited places visited := by
  apply List.countP_mono_left
  intro q _ hq
  simp only [decide_eq_true_eq] at hq ⊢
  exact fun hm => hq (hsub q hm)

/-- Visiting a new place as well leaves fewer. -/
theorem unvisited_lt {places : List α} (hsub : ∀ q ∈ visited, q ∈ later) {p : α}
    (hp : p ∈ places) (hv : p ∉ visited) (hl : p ∈ later) :
    unvisited places later < unvisited places visited := by
  induction places with
  | nil => cases hp
  | cons q rest ih =>
    by_cases hq : q = p
    · subst hq
      have hle := unvisited_le rest hsub
      simp only [unvisited, List.countP_cons, decide_eq_true_eq] at hle ⊢
      rw [if_pos hv, if_neg (not_not_intro hl)]
      omega
    · have hr : p ∈ rest := (List.mem_cons.1 hp).resolve_left (Ne.symm hq)
      have hlt := ih hr
      have hkeep : q ∉ later → q ∉ visited := fun h hm => h (hsub q hm)
      simp only [unvisited, List.countP_cons, decide_eq_true_eq] at hlt ⊢
      split
      · next h =>
        rw [if_pos (hkeep h)]
        omega
      · omega

/-- Visiting one new place leaves fewer. -/
theorem unvisited_cons_lt {places : List α} {p : α} (hp : p ∈ places) (hv : p ∉ visited) :
    unvisited places (p :: visited) < unvisited places visited :=
  unvisited_lt (fun _ => List.mem_cons_of_mem p) hp hv (List.mem_cons_self ..)

/-- No more places are left than there are. -/
theorem unvisited_le_length (places visited : List α) :
    unvisited places visited ≤ places.length := List.countP_le_length

end ContractBinding.Abi
