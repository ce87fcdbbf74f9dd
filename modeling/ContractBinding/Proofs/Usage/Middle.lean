import ContractBinding.Usage.Ledger
import Mathlib.Algebra.BigOperators.Group.List.Basic
import Mathlib.Algebra.GroupWithZero.Nat
import Mathlib.Data.List.Perm.Basic

/-!
# The middle of samples

The middle of samples is one of them or two, with as many samples below it as above it. It is the
same in whatever order the samples came, and so are their median and their mean.
-/

namespace ContractBinding.Usage

open Decimal (Binary64)

variable {samples other low mid high : List Nat}

/-- What is in the middle of samples: one of an odd number, two of an even number, and of what is
left half is at most the middle and half at least. -/
structure IsMiddle (samples mid : List Nat) : Prop where
  length_eq : mid.length = if samples.length % 2 = 0 then 2 else 1
  mem : ∀ m ∈ mid, m ∈ samples
  half_le : ∀ m ∈ mid, samples.length ≤ 2 * samples.countP fun a => a ≤ m
  half_ge : ∀ m ∈ mid, samples.length ≤ 2 * samples.countP fun a => m ≤ a
  parted : ∃ low high, samples.Perm (low ++ mid ++ high) ∧ low.length = high.length ∧
    (∀ a ∈ low, ∀ m ∈ mid, a ≤ m) ∧ ∀ m ∈ mid, ∀ b ∈ high, m ≤ b

/-- Samples in order. -/
theorem pairwise_sorted (samples : List Nat) : samples.mergeSort.Pairwise (· ≤ ·) := by
  have hsorted : samples.mergeSort.Pairwise fun a b => decide (a ≤ b) = true :=
    List.pairwise_mergeSort
      (fun _ _ _ h h' => by simpa using Nat.le_trans (of_decide_eq_true h) (of_decide_eq_true h'))
      (fun a b => by simpa using Nat.le_total a b) samples
  exact hsorted.imp of_decide_eq_true

/-- There is one way to put samples in order. -/
theorem mergeSort_eq_of_perm (h : samples.Perm other) : samples.mergeSort = other.mergeSort := by
  have hperm : samples.mergeSort.Perm other.mergeSort :=
    (List.mergeSort_perm samples _).trans (h.trans (List.mergeSort_perm other _).symm)
  exact hperm.eq_of_pairwise (fun _ _ _ _ => Nat.le_antisymm) (pairwise_sorted samples)
    (pairwise_sorted other)

-- One side and a sample of the middle are half of all samples.
private theorem half_of_parted (hperm : samples.Perm (low ++ mid ++ high))
    (hbalanced : low.length = high.length) (hmost : mid.length ≤ 2) {p : Nat → Bool} {m : Nat}
    (hm : m ∈ mid) (hp : p m = true) (hside : (∀ a ∈ low, p a = true) ∨ ∀ b ∈ high, p b = true) :
    samples.length ≤ 2 * samples.countP p := by
  have hmid : 0 < mid.countP p := List.countP_pos_iff.2 ⟨m, hm, hp⟩
  have hlength := hperm.length_eq
  simp only [List.length_append] at hlength
  rw [hperm.countP_eq, List.countP_append, List.countP_append]
  rcases hside with hlow | hhigh
  · have := List.countP_eq_length.2 hlow
    omega
  · have := List.countP_eq_length.2 hhigh
    omega

/-- Where equally many samples are on either side, what is left is the middle. -/
theorem isMiddle_of_parted (hperm : samples.Perm (low ++ mid ++ high))
    (hbalanced : low.length = high.length) (hbelow : ∀ a ∈ low, ∀ m ∈ mid, a ≤ m)
    (habove : ∀ m ∈ mid, ∀ b ∈ high, m ≤ b) (hmid : mid ≠ []) (hmost : mid.length ≤ 2) :
    IsMiddle samples mid := by
  have hpos := List.length_pos_iff.2 hmid
  have hlength := hperm.length_eq
  simp only [List.length_append] at hlength
  refine ⟨?_, ?_, ?_, ?_, ⟨low, high, hperm, hbalanced, hbelow, habove⟩⟩
  · split <;> omega
  · intro m hm
    exact hperm.mem_iff.2 (List.mem_append_left _ (List.mem_append_right _ hm))
  · intro m hm
    refine half_of_parted hperm hbalanced hmost hm (decide_eq_true (Nat.le_refl m)) (.inl ?_)
    exact fun a ha => decide_eq_true (hbelow a ha m hm)
  · intro m hm
    refine half_of_parted hperm hbalanced hmost hm (decide_eq_true (Nat.le_refl m)) (.inr ?_)
    exact fun b hb => decide_eq_true (habove m hm b hb)

/-- Of samples in order, those left between equally many at both ends are the middle. -/
theorem isMiddle_take_drop {sorted : List Nat} (hsorted : sorted.Pairwise (· ≤ ·))
    {start size : Nat} (hsize : sorted.length = 2 * start + size) (hpos : 0 < size)
    (hmost : size ≤ 2) :
    IsMiddle sorted ((sorted.drop start).take size) := by
  have hsplit : sorted.take start ++ (sorted.drop start).take size ++ sorted.drop (start + size) =
      sorted := by
    rw [List.append_assoc, ← List.drop_drop, List.take_append_drop, List.take_append_drop]
  have hmid : ((sorted.drop start).take size).length = size := by
    rw [List.length_take, List.length_drop]
    omega
  rw [← hsplit, List.pairwise_append, List.pairwise_append] at hsorted
  obtain ⟨⟨-, -, hbelow⟩, -, habove⟩ := hsorted
  refine isMiddle_of_parted (.of_eq hsplit.symm) ?_ hbelow ?_ ?_ (hmid.symm ▸ hmost)
  · rw [List.length_take, List.length_drop]
    omega
  · exact fun m hm b hb => habove m (List.mem_append_right _ hm) b hb
  · exact List.ne_nil_of_length_pos (by rwa [hmid])

/-- The middle is a matter of the samples and not of their order. -/
theorem IsMiddle.of_perm (h : IsMiddle samples mid) (hperm : other.Perm samples) :
    IsMiddle other mid := by
  obtain ⟨hlength, hmem, hle, hge, low, high, hparted, hrest⟩ := h
  have hsize := hperm.length_eq
  refine ⟨hsize ▸ hlength, fun m hm => hperm.mem_iff.2 (hmem m hm), fun m hm => ?_, fun m hm => ?_,
    low, high, hperm.trans hparted, hrest⟩
  · rw [hsize, hperm.countP_eq]
    exact hle m hm
  · rw [hsize, hperm.countP_eq]
    exact hge m hm

/-- Samples have the middle that is computed for them. -/
theorem isMiddle_middle (h : samples ≠ []) : IsMiddle samples (middle samples) := by
  have hperm := List.mergeSort_perm samples fun a b => decide (a ≤ b)
  have hpos : 0 < samples.mergeSort.length := by
    rw [hperm.length_eq]
    exact List.length_pos_iff.2 h
  refine IsMiddle.of_perm ?_ hperm.symm
  unfold middle
  dsimp only
  split
  · exact isMiddle_take_drop (pairwise_sorted samples) (by omega) (by omega) (by omega)
  · exact isMiddle_take_drop (pairwise_sorted samples) (by omega) (by omega) (by omega)

/-- The middle of samples does not depend on their order. -/
theorem middle_eq_of_perm (h : samples.Perm other) : middle samples = middle other := by
  unfold middle
  rw [mergeSort_eq_of_perm h]

/-- The mean of samples is converted from their sum. -/
theorem mean_eq (h : samples ≠ []) :
    mean samples = (Binary64.ofInt samples.sum).div (Binary64.ofInt samples.length) := by
  unfold mean
  rw [← List.sum_eq_foldl]
  simp [h]

/-- The mean of samples does not depend on their order. -/
theorem mean_eq_of_perm (h : samples.Perm other) : mean samples = mean other := by
  unfold mean
  rw [← List.sum_eq_foldl, ← List.sum_eq_foldl, h.sum_nat, h.length_eq, h.isEmpty_eq]

/-- The median of samples does not depend on their order. -/
theorem median_eq_of_perm (h : samples.Perm other) : median samples = median other := by
  unfold median
  rw [middle_eq_of_perm h]

/-- The median of samples is converted from the sum of the middle. -/
theorem exists_middle (h : samples ≠ []) : ∃ mid, IsMiddle samples mid ∧
    median samples = (Binary64.ofInt mid.sum).div (Binary64.ofInt mid.length) := by
  have hmid := isMiddle_middle h
  refine ⟨middle samples, hmid, mean_eq (List.ne_nil_of_length_pos ?_)⟩
  rw [hmid.length_eq]
  split <;> decide

end ContractBinding.Usage
