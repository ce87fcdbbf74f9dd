import ContractBinding.Disk.Tree

/-!
# Where paths lead

A path is followed part by part. The parts alone say which places are passed and which place is
reached; the tree only says whether every place that is passed is a directory. A name pushed onto a
path leads one place deeper.
-/

namespace ContractBinding.Disk

namespace Tree

variable {here p q : Place} {parts more : List String}

/-- The place that the parts of a path reach, whatever is there. -/
def goal (here : Place) (parts : List String) : Place := parts.foldl next here

/-- The places that the parts of a path pass before they reach theirs. -/
def passed (here : Place) : List String → List Place
  | [] => []
  | part :: rest => here :: passed (next here part) rest

theorem goal_append (here : Place) (parts more : List String) :
    goal here (parts ++ more) = goal (goal here parts) more :=
  List.foldl_append

theorem passed_append (here : Place) (parts more : List String) :
    passed here (parts ++ more) = passed here parts ++ passed (goal here parts) more := by
  induction parts generalizing here with
  | nil => rfl
  | cons part rest ih => exact congrArg (here :: ·) (ih (next here part))

/-- A place that is passed or reached. -/
def OnWay (here : Place) (parts : List String) (q : Place) : Prop :=
  q ∈ passed here parts ∨ q = goal here parts

theorem onWay_nil : OnWay here [] q ↔ q = here := by simp [OnWay, passed, goal]

theorem onWay_cons {part : String} :
    OnWay here (part :: parts) q ↔ q = here ∨ OnWay (next here part) parts q := by
  simp [OnWay, passed, goal, or_assoc]

theorem onWay_here (here : Place) (parts : List String) : OnWay here parts here := by
  cases parts with
  | nil => exact onWay_nil.2 rfl
  | cons part rest => exact onWay_cons.2 (.inl rfl)

/-- The last part passes all that lies on the way of the others. -/
theorem mem_passed_concat {part : String} :
    q ∈ passed here (parts ++ [part]) ↔ OnWay here parts q := by
  rw [passed_append, List.mem_append]
  simp [passed, OnWay]

/-- Parts that pass and reach the same places, wherever they begin. -/
def SameWay (parts more : List String) : Prop :=
  ∀ here, goal here parts = goal here more ∧ ∀ q, OnWay here parts q ↔ OnWay here more q

namespace SameWay

theorem refl (parts : List String) : SameWay parts parts := fun _ => ⟨rfl, fun _ => Iff.rfl⟩

theorem symm (h : SameWay parts more) : SameWay more parts :=
  fun here => ⟨(h here).1.symm, fun q => ((h here).2 q).symm⟩

theorem trans {rest : List String} (h : SameWay parts more) (h' : SameWay more rest) :
    SameWay parts rest :=
  fun here => ⟨(h here).1.trans (h' here).1, fun q => ((h here).2 q).trans ((h' here).2 q)⟩

/-- A part that says nothing changes no way. -/
theorem concat_idle {part : String} (h : part = "" ∨ part = ".") (parts : List String) :
    SameWay (parts ++ [part]) parts := by
  intro here
  have hgoal : goal here (parts ++ [part]) = goal here parts := by
    rw [goal_append]
    exact if_pos h
  refine ⟨hgoal, fun q => ?_⟩
  rw [OnWay, mem_passed_concat, hgoal]
  exact or_iff_left_of_imp .inr

end SameWay

/-- A path can be followed exactly where it passes nothing but directories. -/
theorem walk_eq_ok_iff (t : Tree) :
    t.walk here parts = .ok p ↔
      (∀ q ∈ passed here parts, t.get? q = some .directory) ∧ p = goal here parts := by
  induction parts generalizing here with
  | nil => simp [walk, passed, goal, eq_comm]
  | cons part rest ih =>
    rw [passed, List.forall_mem_cons, walk]
    cases hnode : t.get? here with
    | none => simp
    | some node =>
      cases node with
      | directory => simp [ih, goal]
      | file bytes => simp

end Tree

/-- A name that can stand between slashes and leads to a place of its own. -/
def IsName (name : String) : Prop :=
  name ≠ "" ∧ name ≠ "." ∧ name ≠ ".." ∧ '/' ∉ name.toList

instance (name : String) : Decidable (IsName name) := inferInstanceAs (Decidable (_ ∧ _))

/-- What is longer than the two dots is a name unless it has a slash. -/
theorem isName_of_length {name : String} (hlength : 3 ≤ name.toList.length)
    (hslash : '/' ∉ name.toList) : IsName name := by
  refine ⟨?_, ?_, ?_, hslash⟩ <;> rintro rfl <;> simp at hlength

theorem Tree.next_of_isName {name : String} (h : IsName name) (here : Place) :
    next here name = here ++ [name] := by
  obtain ⟨hempty, hdot, hup, -⟩ := h
  simp [next, hempty, hdot, hup]

namespace FilePath

open Disk.Tree (goal passed OnWay SameWay next)

variable {p path : FilePath} {name : String} {here q : Place}

/-- The parts between the slashes of a text. -/
def partsOf (cs : List Char) : List String := (Text.pieces '/' cs).map String.ofList

theorem partsOf_append_cons (front back : List Char) :
    partsOf (front ++ '/' :: back) = partsOf front ++ partsOf back := by
  rw [partsOf, Text.pieces_append_cons, List.map_append]
  rfl

/-- The place where following a path begins. -/
def start (path : FilePath) (here : Place) : Place := if path.isAbsolute then [] else here

/-- The place that a path reaches from a directory. -/
def place (path : FilePath) (here : Place) : Place := goal (path.start here) path.parts

/-- The places that a path passes from a directory. -/
def way (path : FilePath) (here : Place) : List Place := passed (path.start here) path.parts

/-- The text of a path up to where a name is put. -/
def opened (p : FilePath) : List Char :=
  if p.text.toList.getLast?.all (· = '/') then p.text.toList else p.text.toList ++ ['/']

/-- A path is opened by a slash at its end, unless it is empty. -/
theorem opened_cases (p : FilePath) :
    (p.text.toList = [] ∧ p.opened = []) ∨ ∃ front, p.opened = front ++ ['/'] ∧
      p.text.toList ≠ [] ∧ (p.text.toList = front ∨ p.text.toList = front ++ ['/']) := by
  unfold opened
  rcases List.eq_nil_or_concat p.text.toList with htext | ⟨front, c, htext⟩
  · exact .inl ⟨htext, by simp [htext]⟩
  · by_cases hc : c = '/'
    · exact .inr ⟨front, by simp [htext, hc], by simp [htext], .inr (by simp [htext, hc])⟩
    · exact .inr ⟨front ++ [c], by simp [htext, hc], by simp [htext], .inl (by simp [htext])⟩

section Push

variable (hn : IsName name)
include hn

theorem toList_push (p : FilePath) : (p.push name).text.toList = p.opened ++ name.toList := by
  have hrelative : (FilePath.mk name).isAbsolute = false := by
    refine decide_eq_false fun hhead => hn.2.2.2 ?_
    obtain ⟨rest, hrest⟩ := List.head?_eq_some_iff.1 hhead
    exact hrest ▸ List.mem_cons_self
  unfold push opened
  rw [hrelative, if_neg Bool.false_ne_true]
  split <;> simp

theorem text_push_ne_empty (p : FilePath) : (p.push name).text ≠ "" := by
  intro h
  have hchars := toList_push hn p
  rw [h] at hchars
  exact hn.1 (by simpa using (List.append_eq_nil_iff.1 hchars.symm).2)

/-- The name stands behind parts that lead where the path leads. -/
theorem parts_push (p : FilePath) :
    ∃ front, (p.push name).parts = front ++ [name] ∧ partsOf p.opened = front ++ [""] ∧
      SameWay p.parts front := by
  have hname : partsOf name.toList = [name] := by
    rw [partsOf, Text.pieces_of_not_mem hn.2.2.2]
    simp
  have hparts : (p.push name).parts = partsOf (p.opened ++ name.toList) := by
    rw [← toList_push hn p]
    rfl
  rcases opened_cases p with ⟨htext, hopened⟩ | ⟨front, hopened, -, htext⟩
  · refine ⟨[], by rw [hparts, hopened, List.nil_append, hname]; rfl, by rw [hopened]; rfl, ?_⟩
    show SameWay (partsOf p.text.toList) _
    rw [htext]
    exact .concat_idle (.inl rfl) []
  · refine ⟨partsOf front, ?_, by rw [hopened, partsOf_append_cons]; rfl, ?_⟩
    · rw [hparts, hopened, List.append_assoc, List.singleton_append, partsOf_append_cons, hname]
    · show SameWay (partsOf p.text.toList) _
      rcases htext with htext | htext
      · rw [htext]
        exact .refl _
      · rw [htext, partsOf_append_cons]
        exact .concat_idle (.inl rfl) (partsOf front)

theorem start_push (p : FilePath) (here : Place) : (p.push name).start here = p.start here := by
  have habsolute : (p.push name).isAbsolute = p.isAbsolute := by
    unfold isAbsolute
    rw [toList_push hn]
    rcases opened_cases p with ⟨htext, hopened⟩ | ⟨front, hopened, hne, htext⟩
    · have hhead : name.toList.head? ≠ some '/' := by
        intro hhead
        obtain ⟨rest, hrest⟩ := List.head?_eq_some_iff.1 hhead
        exact hn.2.2.2 (hrest ▸ List.mem_cons_self)
      simp [htext, hopened, hhead]
    · cases front with
      | nil => simp_all
      | cons c rest => rcases htext with htext | htext <;> simp [htext, hopened]
  rw [start, start, habsolute]

theorem place_push (p : FilePath) (here : Place) :
    (p.push name).place here = p.place here ++ [name] := by
  obtain ⟨front, hpush, -, hway⟩ := parts_push hn p
  unfold place
  rw [start_push hn, hpush, Tree.goal_append, (hway (p.start here)).1]
  exact Tree.next_of_isName hn _

/-- Going on to a name passes the path before it. -/
theorem mem_way_push (p : FilePath) :
    q ∈ (p.push name).way here ↔ OnWay (p.start here) p.parts q := by
  obtain ⟨front, hpush, -, hway⟩ := parts_push hn p
  unfold way
  rw [start_push hn, hpush, Tree.mem_passed_concat, (hway (p.start here)).2]

end Push

end FilePath

end ContractBinding.Disk
