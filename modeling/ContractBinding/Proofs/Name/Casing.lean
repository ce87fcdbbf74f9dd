import ContractBinding.Name.Casing
import Mathlib.Logic.Function.Basic

/-!
# Cased and derived names

Casing a name keeps its ASCII letters and digits, in whatever case, and nothing else. The method
that takes an object has the name of its action before its last letter, and no accessor of a table
has the name of such a method.
-/

namespace ContractBinding.Name

/-- The case of a character does not matter for being a letter or a digit. -/
theorem isAlphanum_toUpper {c : Char} (h : c.isAlphanum = true) : c.toUpper.isAlphanum = true := by
  unfold Char.toUpper
  split
  · next hlower =>
    -- The difference of the cases wraps around: adding it takes 32 away.
    have hbounds : 97 ≤ c.val.toNat ∧ c.val.toNat ≤ 122 := hlower
    have hstep : ('A'.val - 'a'.val).toNat = 2 ^ 32 - 32 := rfl
    have hval : (c.val + ('A'.val - 'a'.val)).toNat = c.val.toNat - 32 := by
      rw [UInt32.toNat_add, hstep]
      omega
    have hupper : 65 ≤ (c.val + ('A'.val - 'a'.val)).toNat ∧
        (c.val + ('A'.val - 'a'.val)).toNat ≤ 90 := by omega
    have hcased : (c.val + ('A'.val - 'a'.val)).toNat.isValidChar := .inl (by omega)
    have hisUpper : (Char.mk _ hcased).isUpper = true := decide_eq_true hupper
    show (((Char.mk _ hcased).isUpper || _) || _) = true
    rw [hisUpper]
    rfl
  · exact h

/-- The case of a character does not matter for being a letter or a digit, either way. -/
theorem isAlphanum_toLower {c : Char} (h : c.isAlphanum = true) : c.toLower.isAlphanum = true := by
  unfold Char.toLower
  split
  · next hupper =>
    have hbounds : 65 ≤ c.val.toNat ∧ c.val.toNat ≤ 90 := hupper
    have hstep : ('a'.val - 'A'.val).toNat = 32 := rfl
    have hval : (c.val + ('a'.val - 'A'.val)).toNat = c.val.toNat + 32 := by
      rw [UInt32.toNat_add, hstep]
      omega
    have hlower : 97 ≤ (c.val + ('a'.val - 'A'.val)).toNat ∧
        (c.val + ('a'.val - 'A'.val)).toNat ≤ 122 := by omega
    have hcased : (c.val + ('a'.val - 'A'.val)).toNat.isValidChar := .inl (by omega)
    have hisLower : (Char.mk _ hcased).isLower = true :=
      Bool.and_eq_true_iff.2 ⟨decide_eq_true hlower.1, decide_eq_true hlower.2⟩
    show ((_ || (Char.mk _ hcased).isLower) || _) = true
    rw [hisLower, Bool.or_true, Bool.true_or]
  · exact h

/-- What holds of the words that follow and of the word that ends, unless it is empty, holds of all
of them. -/
theorem forall_mem_endWord {P : List Char → Prop} {word : List Char} {words : List (List Char)}
    (hword : word ≠ [] → P word) (hwords : ∀ w ∈ words, P w) : ∀ w ∈ endWord word words, P w := by
  unfold endWord
  split
  · exact hwords
  · next hne =>
    refine List.forall_mem_cons.2 ⟨hword ?_, hwords⟩
    rintro rfl
    exact hne rfl

/-- Every character of the words is a letter or a digit, if those already read are. -/
theorem isAlphanum_of_mem_wordsFrom {word cs : List Char} (hw : ∀ c ∈ word, c.isAlphanum = true) :
    ∀ w ∈ wordsFrom word cs, ∀ c ∈ w, c.isAlphanum = true := by
  fun_induction wordsFrom word cs with
  | case1 word => exact forall_mem_endWord (fun _ => hw) (by simp)
  | case2 word rest ih =>
    have hmark : ∀ c ∈ arrayWord, c.isAlphanum = true := List.all_eq_true.1 (by decide)
    exact forall_mem_endWord (fun _ => hw) (List.forall_mem_cons.2 ⟨hmark, ih (by simp)⟩)
  | case3 word c rest _ hc ih =>
    refine ih ?_
    intro d hd
    rcases List.mem_append.1 hd with hd | hd
    · exact hw d hd
    · rw [List.mem_singleton.1 hd]
      exact hc
  | case4 word c rest _ _ ih => exact forall_mem_endWord (fun _ => hw) (ih (by simp))

/-- A capitalised word is made of letters and digits, if the word is. -/
theorem isAlphanum_of_mem_capitalize {word : List Char} (hw : ∀ c ∈ word, c.isAlphanum = true) :
    ∀ c ∈ capitalize word, c.isAlphanum = true := by
  cases word with
  | nil => exact hw
  | cons first rest =>
    rw [List.forall_mem_cons] at hw
    exact List.forall_mem_cons.2 ⟨isAlphanum_toUpper hw.1, hw.2⟩

/-- A word that starts in lower case is made of letters and digits, if the word is. -/
theorem isAlphanum_of_mem_uncapitalize {word : List Char} (hw : ∀ c ∈ word, c.isAlphanum = true) :
    ∀ c ∈ uncapitalize word, c.isAlphanum = true := by
  cases word with
  | nil => exact hw
  | cons first rest =>
    rw [List.forall_mem_cons] at hw
    exact List.forall_mem_cons.2 ⟨isAlphanum_toLower hw.1, hw.2⟩

/-- A cased name is made of letters and digits. -/
theorem isAlphanum_of_mem_pascalChars {name : List Char} {c : Char} (h : c ∈ pascalChars name) :
    c.isAlphanum = true := by
  obtain ⟨w, hw, hc⟩ := List.mem_flatMap.1 h
  exact isAlphanum_of_mem_capitalize (isAlphanum_of_mem_wordsFrom (by simp) w hw) c hc

/-- A cased name is made of letters and digits, also where its first word starts in lower case. -/
theorem isAlphanum_of_mem_camelChars {name : List Char} {c : Char} (h : c ∈ camelChars name) :
    c.isAlphanum = true := by
  have hwords : ∀ w ∈ words name, ∀ c ∈ w, c.isAlphanum = true :=
    isAlphanum_of_mem_wordsFrom (by simp)
  unfold camelChars at h
  split at h
  · simp at h
  · next first rest hsplit =>
    rw [hsplit, List.forall_mem_cons] at hwords
    rcases List.mem_append.1 h with hfirst | hrest
    · exact isAlphanum_of_mem_uncapitalize hwords.1 c hfirst
    · obtain ⟨w, hw, hc⟩ := List.mem_flatMap.1 hrest
      exact isAlphanum_of_mem_capitalize (hwords.2 w hw) c hc

/-- No two actions have object methods of one name. -/
theorem objectMethod_injective : Function.Injective objectMethod := by
  intro a b h
  have hchars := congrArg String.toList h
  rw [objectMethod, objectMethod, String.toList_append, String.toList_append,
    List.append_cancel_right_eq] at hchars
  exact String.toList_injective hchars

/-- No accessor has the name of an object method: they end in different letters. -/
theorem tableAccessor_ne_objectMethod (table action : String) :
    tableAccessor table ≠ objectMethod action := by
  intro h
  have hlast := congrArg (fun name => name.toList.getLast?) h
  simp [tableAccessor, objectMethod] at hlast

end ContractBinding.Name
