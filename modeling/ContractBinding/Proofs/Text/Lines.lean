import Mathlib.Data.List.Infix

/-!
# Lines of a text

A text that is put together from parts has a line for each part, where the parts before it end with
lines; and such a line stays where more text is added.
-/

namespace ContractBinding.Text

/-- A text ends with a line. -/
def EndsLine (text : String) : Prop := ['\n'] <:+ text.toList

/-- A text has a line that starts so. -/
def HasLine (text start : String) : Prop := '\n' :: start.toList <:+: text.toList

/-- A text that is added ends the line where it ends one. -/
theorem EndsLine.append {text : String} (h : EndsLine text) (front : String) :
    EndsLine (front ++ text) := by
  rw [EndsLine, String.toList_append]
  exact h.trans (List.suffix_append _ _)

/-- Texts before a last one are each followed by the separator. -/
theorem intercalate_concat (separator : String) (texts : List String) (last : String) :
    separator.intercalate (texts ++ [last]) =
      String.join (texts.map (· ++ separator)) ++ last := by
  induction texts with
  | nil => simp
  | cons first rest ih =>
    rw [List.cons_append, List.map_cons, String.join_cons, String.append_assoc, ← ih]
    cases rest with
    | nil => simp [String.append_assoc]
    | cons second rest => simp [String.append_assoc]

/-- Of texts that end with lines, each starts on a line of its own. -/
theorem hasLine_join {texts : List String} (hends : ∀ t ∈ texts, EndsLine t) {front : String}
    (hfront : EndsLine front) {t : String} (ht : t ∈ texts) :
    HasLine (front ++ String.join texts) t := by
  induction texts generalizing front with
  | nil => cases ht
  | cons first rest ih =>
    rw [List.forall_mem_cons] at hends
    have hsplit : (front ++ String.join (first :: rest)).toList =
        (front ++ first ++ String.join rest).toList := by
      simp [String.toList_append, String.toList_join]
    rw [HasLine, hsplit]
    rcases List.mem_cons.1 ht with rfl | hrest
    · obtain ⟨before, hbefore⟩ := hfront
      refine ⟨before, (String.join rest).toList, ?_⟩
      rw [String.toList_append, String.toList_append, ← hbefore]
      simp
    · exact ih hends.2 (hends.1.append front) hrest

namespace HasLine

variable {text start more : String}

/-- A line that starts so starts with less, too. -/
theorem of_append (h : HasLine text (start ++ more)) : HasLine text start := by
  have hstart : '\n' :: start.toList <+: '\n' :: (start ++ more).toList := by
    rw [String.toList_append]
    exact (List.prefix_cons_inj _).2 (List.prefix_append _ _)
  exact hstart.isInfix.trans h

/-- A line of a part is a line of every text in which the part starts a line. -/
theorem trans {part : String} (h : HasLine part start) (hpart : HasLine text part) :
    HasLine text start :=
  List.IsInfix.trans h ((List.suffix_cons '\n' _).isInfix.trans hpart)

/-- A line stays where text is added behind it. -/
theorem append_right (h : HasLine text start) (back : String) : HasLine (text ++ back) start := by
  rw [HasLine, String.toList_append]
  exact List.IsInfix.trans h (List.prefix_append _ _).isInfix

/-- A line stays where text is added in front of it. -/
theorem append_left (h : HasLine text start) (front : String) : HasLine (front ++ text) start := by
  rw [HasLine, String.toList_append]
  exact List.IsInfix.trans h (List.suffix_append _ _).isInfix

end HasLine

/-- Under a title of its own, every item of a section starts a line. -/
theorem hasLine_section {α : Type} {itemText : α → String} {title : String} {items : List α}
    (htitle : EndsLine title) (hends : ∀ item, EndsLine (itemText item)) {item : α}
    (hitem : item ∈ items) :
    HasLine (title ++ String.join (items.map itemText)) (itemText item) := by
  have htexts : ∀ t ∈ items.map itemText, EndsLine t :=
    List.forall_mem_map.2 fun other _ => hends other
  exact hasLine_join htexts htitle (List.mem_map_of_mem hitem)

end ContractBinding.Text
