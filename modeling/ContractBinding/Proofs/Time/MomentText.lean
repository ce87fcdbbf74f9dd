import ContractBinding.Proofs.Text.Digits
import ContractBinding.Proofs.Text.Trim
import ContractBinding.Time.Moment
import Mathlib.Tactic.SplitIfs

/-!
# Texts of moments

Years are read in four digits, so no moment that has been read lies beyond them. Its text reads
back, but for the last thousand of the negative years: there the sign takes the place of a digit.
-/

namespace ContractBinding.Time.Moment

variable {m : Moment}

/-- A moment of its own parts is the moment. -/
theorem make?_eq_some_iff {year : Int} {month day hour minute second : Nat} :
    make? year month day hour minute second = some m ↔
      m.year = year ∧ m.month = month ∧ m.day = day ∧ m.hour = hour ∧ m.minute = minute ∧
        m.second = second := by
  unfold make?
  constructor
  · intro h
    split at h
    · cases h
      exact ⟨rfl, rfl, rfl, rfl, rfl, rfl⟩
    · simp at h
  · rintro ⟨rfl, rfl, rfl, rfl, rfl, rfl⟩
    exact dif_pos m.legal

/-- What is read in four digits is less than ten thousand. -/
theorem year_bounds_of_parseUnsigned? {negative : Bool} {cs : List Char}
    (h : parseUnsigned? negative cs = some m) : -9999 ≤ m.year ∧ m.year ≤ 9999 := by
  unfold parseUnsigned? at h
  split at h
  · simp only [Option.bind_eq_bind, Option.bind_eq_some_iff] at h
    obtain ⟨year, hyear, _, -, _, -, _, -, _, -, _, -, h⟩ := h
    have hlt := Text.natural?_lt hyear
    simp only [List.length_cons, List.length_nil] at hlt
    rw [(make?_eq_some_iff.1 h).1]
    split <;> omega
  · simp at h

/-- No text reads as a moment of a year of more than four digits. -/
theorem year_bounds_of_parse? {s : String} (h : parse? s = some m) :
    -9999 ≤ m.year ∧ m.year ≤ 9999 := by
  have hwhole {cs : List Char} (h : parseWhole? cs = some m) :
      -9999 ≤ m.year ∧ m.year ≤ 9999 := by
    unfold parseWhole? at h
    split at h <;> exact year_bounds_of_parseUnsigned? h
  unfold parse? at h
  split at h
  · exact hwhole h
  · split at h
    · exact hwhole h
    · simp at h

/-- The parts of a moment, but for its year, have two digits. -/
theorem parts_lt (m : Moment) :
    m.month < 100 ∧ m.day < 100 ∧ m.hour < 100 ∧ m.minute < 100 ∧ m.second < 100 := by
  have hlegal := m.legal
  simp only [isMoment, Bool.and_eq_true, decide_eq_true_eq] at hlegal
  obtain ⟨⟨⟨⟨hday, hdays⟩, hhour⟩, hminute⟩, hsecond⟩ := hlegal
  have hmonth : daysInMonth m.year m.month ≤ 31 ∧
      (m.month ≤ 12 ∨ daysInMonth m.year m.month = 0) := by
    unfold daysInMonth
    split_ifs <;> omega
  omega

-- Two digits are two characters.
private theorem exists_twoDigits {n : Nat} (h : n < 100) :
    ∃ a b, Text.zeroPadded 2 n = [a, b] ∧ Text.natural? [a, b] = some n := by
  obtain ⟨a, b, hab⟩ := List.length_eq_two.1 (Text.length_zeroPadded (by decide : 0 < 2) h)
  exact ⟨a, b, hab, hab ▸ Text.natural?_zeroPadded⟩

-- Four digits are four characters.
private theorem exists_fourDigits {n : Nat} (h : n < 10000) :
    ∃ a b c d, Text.zeroPadded 4 n = [a, b, c, d] ∧ Text.natural? [a, b, c, d] = some n := by
  have hlength := Text.length_zeroPadded (by decide : 0 < 4) h
  match hz : Text.zeroPadded 4 n, hlength with
  | [a, b, c, d], _ => exact ⟨a, b, c, d, rfl, hz ▸ Text.natural?_zeroPadded⟩

/-- The text of a moment behind its year. -/
def clockChars (m : Moment) : List Char :=
  '-' :: Text.zeroPadded 2 m.month ++ '-' :: Text.zeroPadded 2 m.day ++
    'T' :: Text.zeroPadded 2 m.hour ++ ':' :: Text.zeroPadded 2 m.minute ++
    ':' :: Text.zeroPadded 2 m.second

theorem chars_eq (m : Moment) : m.chars = yearChars m.year ++ m.clockChars := by
  simp [chars, clockChars]

theorem length_clockChars (m : Moment) : m.clockChars.length = 15 := by
  obtain ⟨hmonth, hday, hhour, hminute, hsecond⟩ := m.parts_lt
  have htwo {n : Nat} (h : n < 100) : (Text.zeroPadded 2 n).length = 2 :=
    Text.length_zeroPadded (by decide) h
  simp [clockChars, htwo hmonth, htwo hday, htwo hhour, htwo hminute, htwo hsecond]

/-- A year of four digits reads back with the moment. -/
theorem parseUnsigned?_append {negative : Bool} {n : Nat} (hn : n < 10000)
    (hyear : m.year = if negative then -(n : Int) else n) :
    parseUnsigned? negative (Text.zeroPadded 4 n ++ m.clockChars) = some m := by
  obtain ⟨hmonth, hday, hhour, hminute, hsecond⟩ := m.parts_lt
  obtain ⟨y1, y2, y3, y4, hy, hn⟩ := exists_fourDigits hn
  obtain ⟨o1, o2, ho, hmonth⟩ := exists_twoDigits hmonth
  obtain ⟨d1, d2, hd, hday⟩ := exists_twoDigits hday
  obtain ⟨h1, h2, hh, hhour⟩ := exists_twoDigits hhour
  obtain ⟨i1, i2, hi, hminute⟩ := exists_twoDigits hminute
  obtain ⟨s1, s2, hs, hsecond⟩ := exists_twoDigits hsecond
  rw [clockChars, hy, ho, hd, hh, hi, hs]
  simp only [List.cons_append, List.nil_append, parseUnsigned?, hn, hmonth, hday, hhour, hminute,
    hsecond, Option.bind_eq_bind, Option.bind_some]
  exact make?_eq_some_iff.2 ⟨hyear, rfl, rfl, rfl, rfl, rfl⟩

/-- A moment is read from nineteen characters. -/
theorem length_of_parseUnsigned? {negative : Bool} {cs : List Char}
    (h : parseUnsigned? negative cs = some m) : cs.length = 19 := by
  unfold parseUnsigned? at h
  split at h
  · rfl
  · cases h

private theorem not_mem_zeroPadded {c : Char} (hc : c.isDigit = false) (width n : Nat) :
    c ∉ Text.zeroPadded width n :=
  Text.not_mem_of_isDigit hc fun _ => Text.isDigit_of_mem_zeroPadded

/-- There is no fraction in the text of a moment. -/
theorem parse?_text_eq (m : Moment) :
    parse? m.text = parseWhole? (yearChars m.year ++ m.clockChars) := by
  have hdigits := not_mem_zeroPadded (by decide : '.'.isDigit = false)
  have hyear : '.' ∉ yearChars m.year := by
    unfold yearChars
    split <;> simp [hdigits]
  have hpoint : '.' ∉ yearChars m.year ++ m.clockChars := by
    simp [clockChars, hyear, hdigits]
  rw [parse?, text, String.toList_ofList, chars_eq, Text.cut?_eq_none_iff.2 hpoint]

private theorem parseWhole?_eq {c : Char} {cs : List Char} (hminus : c ≠ '-') (hplus : c ≠ '+') :
    parseWhole? (c :: cs) = parseUnsigned? false (c :: cs) := by
  unfold parseWhole?
  split
  · next heq => exact absurd (List.cons.inj heq).1 hminus
  · next heq => exact absurd (List.cons.inj heq).1 hplus
  · rfl

/-- The text of a moment of a year of four digits reads back. -/
theorem parse?_text (hl : 0 ≤ m.year) (hu : m.year ≤ 9999) : parse? m.text = some m := by
  have hne : Text.zeroPadded 4 m.year.natAbs ≠ [] := Text.zeroPadded_ne_nil
  obtain ⟨c, rest, hcons⟩ := List.exists_cons_of_ne_nil hne
  have hc : c.isDigit = true := Text.isDigit_of_mem_zeroPadded (hcons ▸ List.mem_cons_self ..)
  have hminus : c ≠ '-' := by
    rintro rfl
    simp at hc
  have hplus : c ≠ '+' := by
    rintro rfl
    simp at hc
  rw [parse?_text_eq, yearChars, if_neg (Int.not_lt.2 hl), hcons, List.cons_append,
    parseWhole?_eq hminus hplus, ← List.cons_append, ← hcons]
  exact parseUnsigned?_append (by omega) (Int.natAbs_of_nonneg hl).symm

/-- So does that of a year of four digits and a sign. -/
theorem parse?_text_of_le (hl : -9999 ≤ m.year) (hu : m.year ≤ -1000) :
    parse? m.text = some m := by
  have hdigits : ¬ (Text.digitsOf m.year.natAbs).length ≤ 3 := by
    rw [Text.digitsOf, Nat.length_toDigits_le_iff (by decide) (by decide)]
    omega
  have hpadded : Text.zeroPadded 3 m.year.natAbs = Text.zeroPadded 4 m.year.natAbs := by
    rw [Text.zeroPadded, Text.zeroPadded, Nat.sub_eq_zero_of_le (by omega),
      Nat.sub_eq_zero_of_le (by omega)]
  rw [parse?_text_eq, yearChars, if_pos (by omega), hpadded, List.cons_append, parseWhole?]
  refine parseUnsigned?_append (by omega) ?_
  rw [if_pos rfl]
  omega

/-- Where the sign takes the place of a digit, the text is not read. -/
theorem parse?_text_eq_none (hl : -1000 < m.year) (hu : m.year < 0) : parse? m.text = none := by
  rw [parse?_text_eq, yearChars, if_pos hu, List.cons_append, parseWhole?,
    Option.eq_none_iff_forall_ne_some]
  intro other h
  have hyear : (Text.zeroPadded 3 m.year.natAbs).length = 3 :=
    Text.length_zeroPadded (by decide) (by omega)
  have hlength := length_of_parseUnsigned? h
  rw [List.length_append, hyear, length_clockChars] at hlength
  omega

/-- The text of a moment that has been read reads as the moment again, unless its year is one of the
last thousand before the year zero, and then it is not read at all. -/
theorem text_reads_back {s : String} (h : parse? s = some m) :
    parse? m.text = if -1000 < m.year ∧ m.year < 0 then none else some m := by
  obtain ⟨hleast, hmost⟩ := year_bounds_of_parse? h
  split
  · next hyear => exact parse?_text_eq_none hyear.1 hyear.2
  · next hyear =>
    by_cases hl : 0 ≤ m.year
    · exact parse?_text hl hmost
    · exact parse?_text_of_le hleast (by omega)

/-- The noon of a leap day long before the year zero, read with a fraction and written without. -/
theorem text_reads_back_leapDay :
    let noon : Moment := ⟨-4004, 2, 29, 12, 0, 0, by decide⟩
    parse? "-4004-02-29T12:00:00.250" = some noon ∧ parse? noon.text = some noon := by
  intro noon
  have h : parse? "-4004-02-29T12:00:00.250" = some noon := by decide
  refine ⟨h, ?_⟩
  rw [text_reads_back h]
  decide

/-- The text of a moment of the year before zero is not read. -/
theorem yearBeforeZero_not_read : ∃ m, parse? "-0001-05-01T12:30:00" = some m ∧
    m.text = "-001-05-01T12:30:00" ∧ parse? m.text = none := by
  refine ⟨⟨-1, 5, 1, 12, 30, 0, by decide⟩, by decide, by decide, ?_⟩
  exact parse?_text_eq_none (by decide) (by decide)

end ContractBinding.Time.Moment
