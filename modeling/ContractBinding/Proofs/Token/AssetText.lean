import ContractBinding.Proofs.Token.Reading

/-!
# Texts of amounts

The text of an amount means the amount, so it reads back, but for the least amount: a text gives the
magnitude first, and the magnitude of the least amount is one too great.
-/

namespace ContractBinding.Token.Asset

/-- What an amount is written of. -/
def written (a : Asset) : Written where
  negative := decide (a.units < 0)
  whole := Text.digitsOf (a.units.natAbs / a.symbol.scale)
  decimals := if a.symbol.precision = 0 then []
    else Text.zeroPadded a.symbol.precision (a.units.natAbs % a.symbol.scale)
  code := a.symbol.code.toList

variable (a : Asset)

/-- There are as many decimals as the symbol has. -/
theorem length_decimals_written : a.written.decimals.length = a.symbol.precision := by
  unfold written
  dsimp only
  split
  · next hp => rw [hp, List.length_nil]
  · next hp =>
    have hfits : a.units.natAbs % a.symbol.scale < 10 ^ a.symbol.precision :=
      Nat.mod_lt _ (Nat.pow_pos (by decide))
    exact Text.length_zeroPadded (Nat.pos_of_ne_zero hp) hfits

theorem chars_eq : a.chars = a.written.chars := by
  have hpoint : Written.pointed a.written.decimals = if a.symbol.precision = 0 then [] else
      '.' :: Text.zeroPadded a.symbol.precision (a.units.natAbs % a.symbol.scale) := by
    by_cases hp : a.symbol.precision = 0
    · simp [Written.pointed, written, hp]
    · simp [Written.pointed, written, hp, Text.zeroPadded_ne_nil]
  unfold chars Written.chars Written.number
  rw [hpoint]
  by_cases hneg : a.units < 0 <;> simp [Written.signed, written, hneg]

/-- An amount is written as one. -/
theorem isAmount_written : a.written.IsAmount := by
  obtain ⟨hone, hseven, hupper⟩ := isCode_iff.1 a.symbol.isCode_code
  refine ⟨⟨Nat.toDigits_ne_nil, fun c => Text.isDigit_of_mem_digitsOf, fun c hc => ?_⟩, ?_, hone,
    hseven, hupper⟩
  · unfold written at hc
    dsimp only at hc
    split at hc
    · cases hc
    · exact Text.isDigit_of_mem_zeroPadded hc
  · rw [length_decimals_written a]
    exact a.symbol.precision_le

/-- The whole part and the decimals spell the magnitude. -/
theorem magnitude_written : a.written.magnitude = a.units.natAbs := by
  have hdecimals : Text.ofDigits a.written.decimals = a.units.natAbs % a.symbol.scale := by
    unfold written
    dsimp only
    split
    · next hp =>
      rw [Symbol.scale, hp, Nat.pow_eq, Nat.pow_zero, Nat.mod_one]
      rfl
    · rw [Text.ofDigits_zeroPadded]
  have hwhole : Text.ofDigits a.written.whole = a.units.natAbs / a.symbol.scale :=
    Text.ofDigits_digitsOf _
  rw [Written.magnitude, length_decimals_written, hwhole, hdecimals]
  exact Nat.div_add_mod' _ _

/-- An amount is written as the one that it is. -/
theorem means_written : a.written.Means a := by
  refine ⟨(length_decimals_written a).symm, rfl, ?_⟩
  rw [Written.units, magnitude_written]
  simp only [written, decide_eq_true_eq]
  split <;> omega

theorem trim_text : (Text.trim a.text).toList = a.written.chars := by
  rw [Text.trim, String.toList_ofList, text, String.toList_ofList, chars_eq,
    (isAmount_written a).trimChars_chars]

/-- The text of the least amount is an overflow, and no other is. -/
theorem parse_text_cases : a.units = leastUnits ∧ parse a.text = .error .overflow ∨
    leastUnits < a.units ∧ parse a.text = .ok a := by
  have hl := leastUnits_eq
  have hleast := a.leastUnits_le
  have hmost := a.le_greatestUnits
  have hmagnitude := magnitude_written a
  rcases parse_of_written (trim_text a) (isAmount_written a) with
    ⟨hgreat, hrefused⟩ | ⟨hfits, b, hmeans, hread⟩
  · exact .inl ⟨by omega, hrefused⟩
  · rw [hmeans.unique (means_written a)] at hread
    exact .inr ⟨by omega, hread⟩

variable {a}

/-- The text of an amount other than the least reads back. -/
theorem parse_text (h : leastUnits < a.units) : parse a.text = .ok a := by
  rcases parse_text_cases a with ⟨heq, -⟩ | ⟨-, hread⟩
  · exact absurd heq (Int.ne_of_gt h)
  · exact hread

/-- No text reads as the least amount. -/
theorem leastUnits_lt_of_parse {s : String} (h : parse s = .ok a) : leastUnits < a.units := by
  obtain ⟨w, -, -, hfits, hmeans⟩ := parse_eq_ok_iff.1 h
  have hl := leastUnits_eq
  rw [hmeans.units_eq, Written.units]
  split <;> omega

end ContractBinding.Token.Asset
