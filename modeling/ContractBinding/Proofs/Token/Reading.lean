import ContractBinding.Proofs.Token.Written

/-!
# Reading amounts

The text of an amount is read exactly, or refused because its number is beyond 64 bits. Operations
that are not checked stay within 64 bits, whatever the text, so nothing hangs on what they would do
beyond.
-/

namespace ContractBinding.Token

/-- A code is one to seven upper-case letters. -/
theorem isCode_iff {code : List Char} : isCode code = true ↔
    1 ≤ code.length ∧ code.length ≤ 7 ∧ ∀ c ∈ code, c.isUpper = true := by
  have hne : code.isEmpty = false ↔ 1 ≤ code.length :=
    List.isEmpty_eq_false_iff.trans List.length_pos_iff.symm
  simp only [isCode, Bool.and_eq_true, Bool.not_eq_true', hne, decide_eq_true_eq,
    List.all_eq_true, and_assoc]

/-- The symbol of a precision and a code has these. -/
theorem Symbol.make_eq_ok_iff {precision : Nat} {code : String} {symbol : Symbol} :
    make precision code = .ok symbol ↔ symbol.precision = precision ∧ symbol.code = code := by
  unfold make
  constructor
  · intro h
    split at h
    · split at h
      · cases h
        exact ⟨rfl, rfl⟩
      · cases h
    · cases h
  · rintro ⟨rfl, rfl⟩
    rw [dif_pos symbol.precision_le, dif_pos symbol.isCode_code]

/-- A symbol is not refused for an overflow. -/
theorem Symbol.make_ne_overflow {precision : Nat} {code : String} :
    make precision code ≠ .error .overflow := by
  unfold make
  split
  · split <;> simp
  · simp

/-- The least number of units is one further from zero than the greatest. -/
theorem leastUnits_eq : leastUnits = -greatestUnits - 1 := by decide

/-- The scale has 64 bits. -/
theorem Symbol.scale_bounds (symbol : Symbol) :
    1 ≤ symbol.scale ∧ (symbol.scale : Int) ≤ greatestUnits := by
  have hle : symbol.scale ≤ 10 ^ maxPrecision :=
    Nat.pow_le_pow_right (by decide) symbol.precision_le
  have hmost : ((10 ^ maxPrecision : Nat) : Int) ≤ greatestUnits := by decide
  have hone : 0 < symbol.scale := Nat.pow_pos (by decide)
  exact ⟨hone, by omega⟩

/-- A result of 64 bits is exact. -/
theorem settle_of_fits {overrun : Overrun} {exact : Int}
    (h : leastUnits ≤ exact ∧ exact ≤ greatestUnits) : settle overrun exact = .ok exact :=
  if_pos h

/-- A checked operation that would come out too great is refused. -/
theorem settle_refuse {exact : Int} (h : greatestUnits < exact) :
    settle .refuse exact = .error .overflow :=
  if_neg fun hfits => Int.not_lt.2 hfits.2 h

namespace Asset

/-- The amount of a number of units has these units. -/
theorem ofUnits_eq_ok_iff {units : Int} {symbol : Symbol} {a : Asset} :
    ofUnits units symbol = .ok a ↔ a.units = units ∧ a.symbol = symbol := by
  unfold ofUnits
  constructor
  · intro h
    split at h
    · cases h
      exact ⟨rfl, rfl⟩
    · simp at h
  · rintro ⟨rfl, rfl⟩
    exact dif_pos ⟨a.leastUnits_le, a.le_greatestUnits⟩

/-- The units of a number are exact, or refused because they are beyond 64 bits. -/
theorem unitsOf_eq (overrun : Overrun) (symbol : Symbol) (negative : Bool)
    (whole decimals : List Char) : unitsOf overrun symbol negative whole decimals =
      let magnitude : Int := Text.ofDigits whole * symbol.scale + Text.ofDigits decimals
      if greatestUnits < magnitude then .error .overflow
      else .ok (if negative then -magnitude else magnitude) := by
  obtain ⟨hone, hscale⟩ := symbol.scale_bounds
  have hl := leastUnits_eq
  -- No operand is greater than the magnitude, so where one is refused, the magnitude is too great.
  have hproduct : (Text.ofDigits whole : Int) ≤ Text.ofDigits whole * symbol.scale := by
    exact_mod_cast Nat.le_mul_of_pos_right _ hone
  have hnonneg : (0 : Int) ≤ Text.ofDigits whole ∧ (0 : Int) ≤ Text.ofDigits decimals := by omega
  unfold unitsOf
  dsimp only
  by_cases hwhole : greatestUnits < Text.ofDigits whole
  · rw [settle_refuse hwhole, if_pos (by omega)]
    rfl
  rw [settle_of_fits (by omega), Outcome.ok_bind]
  by_cases hdecimals : greatestUnits < Text.ofDigits decimals
  · rw [settle_refuse hdecimals, if_pos (by omega)]
    rfl
  rw [settle_of_fits (by omega), Outcome.ok_bind, settle_of_fits (by omega), Outcome.ok_bind]
  by_cases hprod : greatestUnits < Text.ofDigits whole * symbol.scale
  · rw [settle_refuse hprod, if_pos (by omega)]
    rfl
  rw [settle_of_fits (by omega), Outcome.ok_bind]
  by_cases hsum : greatestUnits < Text.ofDigits whole * symbol.scale + Text.ofDigits decimals
  · rw [settle_refuse hsum, if_pos hsum]
    rfl
  rw [settle_of_fits (by omega), Outcome.ok_bind, if_neg hsum]
  split
  · exact settle_of_fits (by omega)
  · rfl

variable {s : String} {w : Written} {a : Asset}

/-- Nothing hangs on what operations that are not checked would do beyond 64 bits. -/
theorem parseWith_eq (overrun : Overrun) (s : String) : parseWith overrun s = parse s := by
  unfold parse parseWith
  simp only [unitsOf_eq]

/-- The text of an amount reads as the amount that it means, or is refused because its number is
beyond 64 bits. -/
theorem parse_of_written (hs : (Text.trim s).toList = w.chars) (hw : w.IsAmount) :
    greatestUnits < w.magnitude ∧ parse s = .error .overflow ∨
      w.magnitude ≤ greatestUnits ∧ ∃ a, w.Means a ∧ parse s = .ok a := by
  have hcode : isCode (String.ofList w.code).toList = true := by
    rw [String.toList_ofList]
    exact isCode_iff.2 ⟨hw.one_le_length_code, hw.length_code_le, hw.isUpper_code⟩
  let symbol : Symbol := ⟨w.decimals.length, String.ofList w.code, hw.length_decimals_le, hcode⟩
  have hmake : Symbol.make w.decimals.length (String.ofList w.code) = .ok symbol :=
    Symbol.make_eq_ok_iff.2 ⟨rfl, rfl⟩
  have hcount : ¬ 255 < w.decimals.length := by
    have := hw.length_decimals_le
    omega
  have hmagnitude : (Text.ofDigits w.whole : Int) * symbol.scale + Text.ofDigits w.decimals =
      w.magnitude := by
    simp [Written.magnitude, symbol, Symbol.scale]
  have hread : parse s =
      if greatestUnits < w.magnitude then .error .overflow else ofUnits w.units symbol := by
    rw [parse, parseWith, split_of_written hs hw.toIsDecimal, if_neg hcount]
    simp only [Except.mapError, Outcome.ok_bind, hmake, unitsOf_eq, hmagnitude, Written.units]
    split <;> rfl
  by_cases hgreat : greatestUnits < w.magnitude
  · exact .inl ⟨hgreat, hread.trans (if_pos hgreat)⟩
  · have hl := leastUnits_eq
    have hfits : leastUnits ≤ w.units ∧ w.units ≤ greatestUnits := by
      unfold Written.units
      split <;> omega
    exact .inr ⟨Int.not_lt.1 hgreat, ⟨w.units, symbol, hfits.1, hfits.2⟩,
      ⟨rfl, String.toList_ofList, rfl⟩, hread.trans ((if_neg hgreat).trans (dif_pos hfits))⟩

/-- A text that is read, or refused for an overflow, is the text of an amount. -/
theorem exists_written_of_parse (h : (∃ a, parse s = .ok a) ∨ parse s = .error .overflow) :
    ∃ w : Written, w.IsAmount ∧ (Text.trim s).toList = w.chars := by
  unfold parse parseWith at h
  cases hsplit : split s with
  | error fault => simp [hsplit, Except.mapError, bind, Except.bind] at h
  | ok parts =>
    obtain ⟨negative, whole, decimals, code⟩ := parts
    obtain ⟨hchars, hdecimal, -⟩ := written_of_split (w := ⟨negative, whole, decimals, code⟩) hsplit
    cases hmake : Symbol.make decimals.length (String.ofList code) with
    | error fault =>
      have hfault : fault = .overflow := by
        simpa [hsplit, hmake, Except.mapError, bind, Except.bind] using h
      exact absurd (hfault ▸ hmake) Symbol.make_ne_overflow
    | ok symbol =>
      obtain ⟨hprecision, hcode⟩ := Symbol.make_eq_ok_iff.1 hmake
      have hletters := symbol.isCode_code
      rw [hcode, String.toList_ofList, isCode_iff] at hletters
      obtain ⟨hone, hseven, hupper⟩ := hletters
      exact ⟨⟨negative, whole, decimals, code⟩,
        ⟨hdecimal, hprecision ▸ symbol.precision_le, hone, hseven, hupper⟩, hchars⟩

/-- A text reads as an amount exactly if it means it, in 64 bits without its sign. -/
theorem parse_eq_ok_iff : parse s = .ok a ↔ ∃ w : Written, w.IsAmount ∧
    (Text.trim s).toList = w.chars ∧ w.magnitude ≤ greatestUnits ∧ w.Means a := by
  constructor
  · intro h
    obtain ⟨w, hw, hs⟩ := exists_written_of_parse (.inl ⟨a, h⟩)
    rcases parse_of_written hs hw with ⟨-, hrefused⟩ | ⟨hfits, b, hmeans, hread⟩
    · cases h.symm.trans hrefused
    · cases h.symm.trans hread
      exact ⟨w, hw, hs, hfits, hmeans⟩
  · rintro ⟨w, hw, hs, hfits, hmeans⟩
    rcases parse_of_written hs hw with ⟨hgreat, -⟩ | ⟨-, b, hmeans', hread⟩
    · exact absurd hfits (Int.not_le.2 hgreat)
    · rw [hread, hmeans.unique hmeans']

/-- A text is refused for an overflow exactly if it is that of an amount beyond 64 bits. -/
theorem parse_eq_overflow_iff : parse s = .error .overflow ↔ ∃ w : Written, w.IsAmount ∧
    (Text.trim s).toList = w.chars ∧ greatestUnits < w.magnitude := by
  constructor
  · intro h
    obtain ⟨w, hw, hs⟩ := exists_written_of_parse (.inr h)
    rcases parse_of_written hs hw with ⟨hgreat, -⟩ | ⟨-, b, -, hread⟩
    · exact ⟨w, hw, hs, hgreat⟩
    · cases h.symm.trans hread
  · rintro ⟨w, hw, hs, hgreat⟩
    rcases parse_of_written hs hw with ⟨-, hrefused⟩ | ⟨hfits, -⟩
    · exact hrefused
    · exact absurd hfits (Int.not_le.2 hgreat)

/-- Where there are more than eighteen decimals, there is no scale to compute. -/
theorem parseWith_of_manyDecimals (overrun : Overrun) (hs : (Text.trim s).toList = w.chars)
    (hw : w.IsDecimal) (h : 18 < w.decimals.length) :
    parseWith overrun s = .error (if 255 < w.decimals.length then .malformed s .tooManyDecimals
      else .precision w.decimals.length) := by
  rw [parseWith, split_of_written hs hw]
  split
  · rfl
  · have hmake : Symbol.make w.decimals.length (String.ofList w.code) =
        .error (.precision w.decimals.length) := dif_neg (Nat.not_le.2 h)
    rw [Except.mapError, Outcome.ok_bind]
    dsimp only
    rw [hmake]
    rfl

/-- Reading amounts is exact. Exactly the texts of amounts within 64 bits are read, each as the
amount that it means; those beyond are refused for an overflow, and no other text is. No operation
that is not checked leaves the 64 bits, for then the outcome would hang on what it does there; and
more than eighteen decimals are refused before there is a scale. -/
theorem parse_exact :
    (∀ s a, parse s = .ok a ↔ ∃ w : Written, w.IsAmount ∧ (Text.trim s).toList = w.chars ∧
      w.magnitude ≤ greatestUnits ∧ w.Means a) ∧
    (∀ s (w : Written), w.IsAmount → (Text.trim s).toList = w.chars →
      greatestUnits < w.magnitude ∧ parse s = .error .overflow ∨
        w.magnitude ≤ greatestUnits ∧ ∃ a, w.Means a ∧ parse s = .ok a) ∧
    (∀ s, parse s = .error .overflow ↔ ∃ w : Written, w.IsAmount ∧
      (Text.trim s).toList = w.chars ∧ greatestUnits < w.magnitude) ∧
    (∀ overrun s, parseWith overrun s = parse s) ∧
    ∀ overrun s (w : Written), w.IsDecimal → (Text.trim s).toList = w.chars →
      18 < w.decimals.length → parseWith overrun s =
        .error (if 255 < w.decimals.length then .malformed s .tooManyDecimals
          else .precision w.decimals.length) :=
  ⟨fun _ _ => parse_eq_ok_iff, fun _ _ hw hs => parse_of_written hs hw,
    fun _ => parse_eq_overflow_iff, parseWith_eq,
    fun overrun _ _ hw hs h => parseWith_of_manyDecimals overrun hs hw h⟩

/-- The greatest debt of a token with eighteen decimals; one unit more is an overflow. -/
theorem parse_exact_greatestDebt :
    (∃ a, a.units = -greatestUnits ∧ parse " -09.223372036854775807 EOS" = .ok a) ∧
      parse " -09.223372036854775808 EOS" = .error .overflow := by
  let debt (last : Char) : Written :=
    ⟨true, "09".toList, "22337203685477580".toList ++ [last], "EOS".toList⟩
  have hdebt (last : Char) (h : last.isDigit = true) : (debt last).IsAmount := by
    refine ⟨⟨?_, ?_, ?_⟩, ?_, ?_, ?_, ?_⟩ <;> simp [debt, h]
  constructor
  · have hs : (Text.trim " -09.223372036854775807 EOS").toList = (debt '7').chars := by decide
    rcases parse_exact.2.1 _ _ (hdebt _ (by decide)) hs with ⟨hgreat, -⟩ | ⟨-, a, hmeans, ha⟩
    · exact absurd hgreat (by decide)
    · exact ⟨a, hmeans.units_eq.trans (by decide), ha⟩
  · have hs : (Text.trim " -09.223372036854775808 EOS").toList = (debt '8').chars := by decide
    rcases parse_exact.2.1 _ _ (hdebt _ (by decide)) hs with ⟨-, hrefused⟩ | ⟨hfits, -⟩
    · exact hrefused
    · exact absurd hfits (by decide)

end Asset

end ContractBinding.Token
