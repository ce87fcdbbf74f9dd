import ContractBinding.Proofs.Token.AssetText

/-!
# Arithmetic of amounts

However many amounts are added and subtracted, the symbol stays, the units are the exact sum of the
steps that were not refused, and the text of what has come out reads back. Only the least amount,
which arithmetic can come to, has a text that is not read.
-/

namespace ContractBinding.Token.Asset

/-- A step of arithmetic: an amount is added or subtracted. -/
inductive Step where
  | add (b : Asset)
  | sub (b : Asset)

namespace Step

/-- The amount that is added or subtracted. -/
def operand : Step → Asset
  | add b => b
  | sub b => b

/-- How many units are added. -/
def change : Step → Int
  | add b => b.units
  | sub b => -b.units

/-- What a step makes of an amount. -/
def result (a : Asset) : Step → Except AssetFault Asset
  | add b => a.add b
  | sub b => a.sub b

end Step

/-- The amount after a step; a step that is refused leaves it. -/
def next (a : Asset) (step : Step) : Asset :=
  match step.result a with
  | .ok b => b
  | .error _ => a

/-- The amount after some steps. -/
def after (a : Asset) (steps : List Step) : Asset := steps.foldl next a

/-- The steps that are not refused. -/
def taken (a : Asset) : List Step → List Step
  | [] => []
  | step :: rest =>
    match step.result a with
    | .ok b => step :: taken b rest
    | .error _ => taken a rest

/-- How many units some steps add together. -/
def balance : List Step → Int
  | [] => 0
  | step :: rest => step.change + balance rest

variable {a b : Asset} {step : Step}

/-- Two amounts combine exactly if they have one symbol. -/
theorem checkSame_eq_ok_iff : checkSame a b = .ok () ↔ b.symbol = a.symbol := by
  unfold checkSame
  constructor
  · intro h
    split at h
    · cases h
    · next hcode =>
      split at h
      · cases h
      · next hprecision =>
        exact (Symbol.eq_of_parts (not_not.1 hprecision) (not_not.1 hcode)).symm
  · intro h
    rw [h, if_neg (by simp), if_neg (by simp)]

/-- A step succeeds exactly with the exact result, where that is an amount of the same symbol. -/
theorem Step.result_eq_ok_iff : step.result a = .ok b ↔
    step.operand.symbol = a.symbol ∧ b.symbol = a.symbol ∧ b.units = a.units + step.change := by
  cases step with
  | add other =>
    rw [result, Asset.add, Outcome.check_bind_eq_ok_iff, checkSame_eq_ok_iff, ofUnits_eq_ok_iff]
    exact and_congr_right fun _ => and_comm
  | sub other =>
    rw [result, Asset.sub, Outcome.check_bind_eq_ok_iff, checkSame_eq_ok_iff, ofUnits_eq_ok_iff,
      Int.sub_eq_add_neg]
    exact and_congr_right fun _ => and_comm

theorem next_of_ok (h : step.result a = .ok b) : next a step = b := by
  rw [next, h]

theorem next_of_error {fault : AssetFault} (h : step.result a = .error fault) :
    next a step = a := by
  rw [next, h]

/-- A run keeps the symbol, and adds up the steps that are not refused. -/
theorem after_eq (a : Asset) (steps : List Step) : (after a steps).symbol = a.symbol ∧
    (after a steps).units = a.units + balance (taken a steps) := by
  induction steps generalizing a with
  | nil => exact ⟨rfl, (Int.add_zero _).symm⟩
  | cons step rest ih =>
    rw [after, List.foldl_cons, ← after, taken]
    cases hstep : step.result a with
    | error fault =>
      rw [next_of_error hstep]
      exact ih a
    | ok b =>
      obtain ⟨-, hsymbol, hunits⟩ := Step.result_eq_ok_iff.1 hstep
      obtain ⟨hsymbols, hsum⟩ := ih b
      rw [next_of_ok hstep, hsymbols, hsum, hunits, balance, Int.add_assoc]
      exact ⟨hsymbol, rfl⟩

/-- Arithmetic on amounts is exact and can be written down. Whatever is added and subtracted, the
symbol stays and the units are those of the start with the steps that are not refused; a step
succeeds exactly with the exact result, and leaves the amount where it is refused; and the text of
the amount reads back, unless it is the least amount, whose text is an overflow. -/
theorem after_exact (a : Asset) (steps : List Step) :
    (after a steps).symbol = a.symbol ∧
    (after a steps).units = a.units + balance (taken a steps) ∧
    (∀ (step : Step) (b : Asset), step.result (after a steps) = .ok b ↔
      step.operand.symbol = a.symbol ∧ b.symbol = a.symbol ∧
        b.units = (after a steps).units + step.change) ∧
    (∀ (step : Step) (b : Asset), step.result (after a steps) = .ok b →
      after a (steps ++ [step]) = b) ∧
    (∀ (step : Step) (fault : AssetFault), step.result (after a steps) = .error fault →
      after a (steps ++ [step]) = after a steps) ∧
    ((after a steps).units = leastUnits ∧ parse (after a steps).text = .error .overflow ∨
      leastUnits < (after a steps).units ∧ parse (after a steps).text = .ok (after a steps)) := by
  obtain ⟨hsymbol, hunits⟩ := after_eq a steps
  have hconcat (step : Step) : after a (steps ++ [step]) = next (after a steps) step := by
    rw [after, List.foldl_concat, ← after]
  refine ⟨hsymbol, hunits, fun step b => ?_, fun step b h => ?_, fun step fault h => ?_,
    parse_text_cases _⟩
  · rw [Step.result_eq_ok_iff, hsymbol]
  · rw [hconcat, next_of_ok h]
  · rw [hconcat, next_of_error h]

/-- Two steps are taken, and one is refused for its precision. -/
theorem after_exact_eos :
    let eos : Symbol := ⟨4, "EOS", by decide, by decide⟩
    let stake : Asset := ⟨25000, eos, by decide, by decide⟩
    let coarse : Asset := ⟨1, ⟨2, "EOS", by decide, by decide⟩, by decide, by decide⟩
    let rest := after stake [.add coarse, .sub stake, .sub stake]
    rest.units = -25000 ∧ parse rest.text = .ok rest := by
  intro eos stake coarse rest
  have hunits : rest.units = -25000 := by decide
  refine ⟨hunits, ?_⟩
  have hread := (after_exact stake [.add coarse, .sub stake, .sub stake]).2.2.2.2.2
  rcases hread with ⟨hleast, -⟩ | ⟨-, hread⟩
  · exact absurd (hunits.symm.trans hleast) (by decide)
  · exact hread

/-- An amount that has been read comes to one that is not, in one step. -/
theorem leastUnits_not_read : ∃ a b, parse "-922337203685477.5807 EOS" = .ok a ∧
    parse "0.0001 EOS" = .ok b ∧ (Step.sub b).result a = .ok (after a [.sub b]) ∧
      parse (after a [.sub b]).text ≠ .ok (after a [.sub b]) := by
  let eos : Symbol := ⟨4, "EOS", by decide, by decide⟩
  refine ⟨⟨-greatestUnits, eos, by decide, by decide⟩, ⟨1, eos, by decide, by decide⟩,
    by decide +kernel, by decide +kernel, by rfl, ?_⟩
  intro h
  exact absurd (leastUnits_lt_of_parse h) (by decide)

end ContractBinding.Token.Asset
