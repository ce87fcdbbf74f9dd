import ContractBinding.Proofs.Disk.Way

/-!
# Names at the end of paths

A path with a name pushed onto it has that name as its file name, and what is above it lies on the
same way. Giving a path another extension renames its last part; a path without a file name leads to
a directory.
-/

namespace ContractBinding.Disk.FilePath

open Disk.Tree (OnWay SameWay)

variable {p : FilePath} {name extension : String} {here q : Place}

private theorem ext_toList {p q : FilePath} (h : p.text.toList = q.text.toList) : p = q := by
  cases p
  cases q
  simpa using String.toList_injective h

/-- A name with another extension. -/
def renamed (name extension : String) : String :=
  String.ofList (stemOf name.toList) ++ "." ++ extension

/-- A stem is not empty, and all its characters are in the name. -/
theorem stemOf_cases (name : List Char) :
    stemOf name = name ∨ stemOf name ≠ [] ∧ stemOf name ⊆ name := by
  unfold stemOf
  split
  · exact .inl rfl
  · next extension stem hcut =>
    split
    · exact .inl rfl
    · next hstem =>
      obtain ⟨hname, -⟩ := Text.cut?_eq_some hcut
      refine .inr ⟨by simpa using hstem, fun c hc => ?_⟩
      have : c ∈ name.reverse := by
        rw [hname]
        simp [List.mem_reverse.1 hc]
      exact List.mem_reverse.1 this

theorem isName_renamed (hn : IsName name) (hslash : '/' ∉ extension.toList)
    (hextension : extension ≠ "") : IsName (renamed name extension) := by
  have hchars : (renamed name extension).toList =
      stemOf name.toList ++ '.' :: extension.toList := by simp [renamed]
  have hname : name.toList ≠ [] := by simpa using hn.1
  have hstem : stemOf name.toList ≠ [] ∧ '/' ∉ stemOf name.toList := by
    rcases stemOf_cases name.toList with h | ⟨hne, hsub⟩
    · rw [h]
      exact ⟨hname, hn.2.2.2⟩
    · exact ⟨hne, fun h => hn.2.2.2 (hsub h)⟩
  refine isName_of_length ?_ ?_
  · have hs := List.length_pos_iff.2 hstem.1
    have he : 0 < extension.toList.length := List.length_pos_iff.2 (by simpa using hextension)
    rw [hchars, List.length_append, List.length_cons]
    omega
  · rw [hchars]
    simp [hstem.2, hslash]

/-- Two names get one new name exactly where they have one stem. -/
theorem renamed_eq_iff {other : String} :
    renamed name extension = renamed other extension ↔
      stemOf name.toList = stemOf other.toList := by
  rw [renamed, renamed, String.append_left_inj, String.append_left_inj, String.ofList_inj]

/-- What a path is opened by is nothing or ends in a slash. -/
theorem reverse_opened (p : FilePath) :
    p.opened.reverse = [] ∨ ∃ rest, p.opened.reverse = '/' :: rest := by
  rcases opened_cases p with ⟨-, h⟩ | ⟨front, h, -⟩
  · exact .inl (by rw [h]; rfl)
  · exact .inr ⟨front.reverse, by rw [h]; simp⟩

section Push

variable (hn : IsName name)
include hn

theorem reversed_push (p : FilePath) :
    (p.push name).reversed = name.toList.reverse ++ p.opened.reverse := by
  rw [reversed, toList_push hn, List.reverse_append]
  obtain ⟨hempty, hdot, -, hslash⟩ := hn
  obtain ⟨c, cs, hname⟩ :=
    List.exists_cons_of_ne_nil (l := name.toList.reverse) (by simpa using hempty)
  have hmem (d : Char) (hd : d ∈ c :: cs) : d ≠ '/' := by
    rintro rfl
    exact hslash (List.mem_reverse.1 (hname ▸ hd))
  rw [hname, List.cons_append]
  unfold dropIdle
  split
  · next h => exact absurd (List.cons.inj h).1 (hmem c (by simp))
  · next rest h =>
    obtain ⟨rfl, hrest⟩ := List.cons.inj h
    cases cs with
    | nil =>
      have : name = "." := by
        apply String.toList_injective
        rw [← List.reverse_reverse name.toList, hname]
        rfl
      exact absurd this hdot
    | cons d ds => exact absurd (List.cons.inj hrest).1 (hmem d (by simp))
  · rfl

theorem ne_slash_of_isName : ∀ c ∈ name.toList.reverse, decide (c ≠ '/') = true := by
  intro c hc
  simp only [decide_eq_true_eq]
  rintro rfl
  exact hn.2.2.2 (List.mem_reverse.1 hc)

theorem lastPart_push (p : FilePath) : (p.push name).lastPart = name.toList.reverse := by
  rw [lastPart, reversed_push hn, List.takeWhile_append_of_pos (ne_slash_of_isName hn)]
  rcases reverse_opened p with h | ⟨rest, h⟩ <;> simp [h]

theorem fileName?_push (p : FilePath) : (p.push name).fileName? = some name := by
  have hreverse (cs : List Char) (h : name.toList.reverse = cs.reverse) :
      name = String.ofList cs := by
    apply String.toList_injective
    simpa using h
  have hempty : name.toList.reverse ≠ [] := by simpa using hn.1
  have hdot : name.toList.reverse ≠ ['.'] := fun h => hn.2.1 (hreverse ['.'] h)
  have hup : name.toList.reverse ≠ ['.', '.'] := fun h => hn.2.2.1 (hreverse ['.', '.'] h)
  simpa [fileName?, lastPart_push hn, hdot, hup] using hempty

theorem dropWhile_reversed_push (p : FilePath) :
    (p.push name).reversed.dropWhile (· ≠ '/') = p.opened.reverse := by
  rw [reversed_push hn, List.dropWhile_append_of_pos (ne_slash_of_isName hn)]
  rcases reverse_opened p with h | ⟨rest, h⟩ <;> simp [h]

/-- Giving a path another extension renames its last part. -/
theorem withExtension_push (hrenamed : IsName (renamed name extension)) (p : FilePath) :
    (p.push name).withExtension extension = p.push (renamed name extension) := by
  apply ext_toList
  rw [toList_push hrenamed]
  simp only [withExtension, fileName?_push hn, dropWhile_reversed_push hn, List.reverse_reverse]
  simp [renamed]

end Push

/-- Dropping what says nothing at the end of a path changes nothing of its way. -/
theorem sameWay_dropIdle (cs : List Char) :
    SameWay (partsOf (dropIdle cs).reverse) (partsOf cs.reverse) := by
  fun_induction dropIdle cs with
  | case1 c rest ih =>
    have hparts : partsOf ('/' :: c :: rest).reverse = partsOf (c :: rest).reverse ++ [""] := by
      rw [List.reverse_cons, partsOf_append_cons]
      rfl
    rw [hparts]
    exact ih.trans (SameWay.concat_idle (.inl rfl) _).symm
  | case2 rest ih =>
    have hslash : partsOf ('/' :: rest).reverse = partsOf rest.reverse ++ [""] := by
      rw [List.reverse_cons, partsOf_append_cons]
      rfl
    have hdot : partsOf ('.' :: '/' :: rest).reverse = partsOf rest.reverse ++ ["."] := by
      rw [List.reverse_cons, List.reverse_cons, List.append_assoc, List.singleton_append,
        partsOf_append_cons]
      rfl
    rw [hslash] at ih
    rw [hdot]
    exact (ih.trans (.concat_idle (.inl rfl) _)).trans (SameWay.concat_idle (.inr rfl) _).symm
  | case3 => exact .refl _

/-- Something is left of a path that is not empty: its beginning. -/
theorem exists_dropIdle {c : Char} (cs : List Char) :
    ∃ rest, (dropIdle (cs ++ [c])).reverse = c :: rest := by
  have hsuffix (ds : List Char) (hne : ds ≠ []) : dropIdle ds <:+ ds ∧ dropIdle ds ≠ [] := by
    fun_induction dropIdle ds with
    | case1 d rest ih =>
      obtain ⟨h, hne⟩ := ih (by simp)
      exact ⟨h.trans (List.suffix_cons _ _), hne⟩
    | case2 rest ih =>
      obtain ⟨h, hne⟩ := ih (by simp)
      exact ⟨h.trans (List.suffix_cons _ _), hne⟩
    | case3 => exact ⟨List.suffix_refl _, hne⟩
  obtain ⟨h, hne⟩ := hsuffix (cs ++ [c]) (by simp)
  obtain ⟨d, ds, hd⟩ :=
    List.exists_cons_of_ne_nil (l := (dropIdle (cs ++ [c])).reverse) (by simpa using hne)
  have hprefix := List.reverse_prefix.2 h
  rw [hd, List.reverse_append] at hprefix
  exact ⟨ds, by rw [hd, (List.cons_prefix_cons.1 hprefix).1]⟩

/-- What is above a name lies on the same way: everything that the name's path passes. -/
theorem exists_parent_push (hn : IsName name) (p : FilePath) (here : Place) :
    ∃ parent, (p.push name).parent? = some parent ∧ (parent.text = "" ↔ p.text = "") ∧
      parent.start here = p.start here ∧ parent.place here = p.place here ∧
      ∀ q, OnWay (parent.start here) parent.parts q ↔ q ∈ (p.push name).way here := by
  have hlast : (p.push name).lastPart.isEmpty = false := by
    rw [lastPart_push hn]
    simpa using hn.1
  obtain ⟨front, hpush, hopened, hway⟩ := parts_push hn p
  let parent : FilePath := ⟨String.ofList (dropIdle p.opened.reverse).reverse⟩
  have hparent : (p.push name).parent? = some parent := by
    rw [parent?, hlast, if_neg Bool.false_ne_true, dropWhile_reversed_push hn]
  have hsame : SameWay parent.parts p.parts := by
    have hidle := sameWay_dropIdle p.opened.reverse
    rw [List.reverse_reverse, hopened] at hidle
    have hparts : parent.parts = partsOf (dropIdle p.opened.reverse).reverse := by
      simp [parent, parts, partsOf]
    rw [hparts]
    exact (hidle.trans (.concat_idle (.inl rfl) front)).trans hway.symm
  have hhead : parent.text.toList.head? = p.text.toList.head? := by
    show (String.ofList _).toList.head? = _
    rw [String.toList_ofList]
    rcases opened_cases p with ⟨htext, hopened⟩ | ⟨-, -, hne, -⟩
    · rw [htext, hopened]
      rfl
    · obtain ⟨c, rest, htext⟩ := List.exists_cons_of_ne_nil hne
      obtain ⟨more, hmore⟩ : ∃ more, p.opened = c :: more := by
        rw [opened, htext]
        split <;> simp
      obtain ⟨_, hdrop⟩ := exists_dropIdle (c := c) more.reverse
      rw [hmore, List.reverse_cons, hdrop, htext]
      rfl
  have hstart : parent.start here = p.start here := by
    rw [start, start, isAbsolute, isAbsolute, hhead]
  refine ⟨parent, hparent, ?_, hstart, ?_, fun q => ?_⟩
  · rw [← String.toList_eq_nil_iff, ← String.toList_eq_nil_iff, ← List.head?_eq_none_iff, hhead,
      List.head?_eq_none_iff]
  · rw [place, place, hstart, (hsame _).1]
  · rw [mem_way_push hn, hstart, (hsame _).2]

private theorem opened_eq_of_ends {front : List Char} (h : front = [] ∨ ∃ cs, front = cs ++ ['/']) :
    (FilePath.mk (String.ofList front)).opened = front := by
  rcases h with rfl | ⟨cs, rfl⟩
  · rfl
  · simp [opened]

/-- A path ends in a name, or in a part that leads to no place of its own. One that ends by going
up has no file name. -/
theorem exists_push_or_idle (p : FilePath) :
    (∃ d name, IsName name ∧ p = push d name) ∨
      ∃ front part, p.parts = front ++ [part] ∧
        (part = "" ∨ part = "." ∨ part = ".." ∧ p.fileName? = none) := by
  obtain ⟨front, last, htext, hfront, hlast⟩ : ∃ front last, p.text.toList = front ++ last ∧
      (front = [] ∨ ∃ cs, front = cs ++ ['/']) ∧ '/' ∉ last := by
    cases hcut : Text.cut? '/' p.text.toList.reverse with
    | none =>
      exact ⟨[], p.text.toList, rfl, .inl rfl,
        fun h => Text.cut?_eq_none_iff.1 hcut (List.mem_reverse.2 h)⟩
    | some r =>
      obtain ⟨htext, hslash⟩ := Text.cut?_eq_some hcut
      have := congrArg List.reverse htext
      exact ⟨r.2.reverse ++ ['/'], r.1.reverse, by simpa using this, .inr ⟨_, rfl⟩,
        by simpa using hslash⟩
  by_cases hname : IsName (String.ofList last)
  · refine .inl ⟨⟨String.ofList front⟩, _, hname, ext_toList ?_⟩
    rw [toList_push hname, opened_eq_of_ends hfront, htext, String.toList_ofList]
  · refine .inr ?_
    have hpart : String.ofList last = "" ∨ String.ofList last = "." ∨
        String.ofList last = ".." ∧ p.fileName? = none := by
      refine Decidable.byContradiction fun hno => ?_
      rw [not_or, not_or] at hno
      refine hname ⟨hno.1, hno.2.1, fun hup => hno.2.2 ⟨hup, ?_⟩, by simpa using hlast⟩
      obtain rfl : last = ['.', '.'] := by simpa using congrArg String.toList hup
      have hpart : p.lastPart = ['.', '.'] := by
        rw [lastPart, reversed, htext]
        rcases hfront with rfl | ⟨cs, rfl⟩ <;> simp [dropIdle]
      simp [fileName?, hpart]
    have hparts : p.parts = partsOf (front ++ last) := by rw [← htext]; rfl
    have hone : partsOf last = [String.ofList last] := by
      rw [partsOf, Text.pieces_of_not_mem hlast]
      rfl
    rcases hfront with rfl | ⟨cs, rfl⟩
    · exact ⟨[], _, by rw [hparts]; exact hone, hpart⟩
    · refine ⟨partsOf cs, _, ?_, hpart⟩
      rw [hparts, List.append_assoc, List.singleton_append, partsOf_append_cons, hone]

theorem isName_of_fileName? (h : p.fileName? = some name) : IsName name := by
  simp only [fileName?] at h
  split at h
  · simp at h
  · next hlast =>
    simp only [Bool.or_eq_true, decide_eq_true_eq, not_or, Bool.not_eq_true] at hlast
    obtain ⟨⟨hempty, hdot⟩, hup⟩ := hlast
    cases h
    have hreverse (cs : List Char) (h : String.ofList p.lastPart.reverse = String.ofList cs) :
        p.lastPart = cs.reverse := by
      rw [← String.ofList_inj.1 h, List.reverse_reverse]
    refine ⟨fun h => ?_, fun h => hdot (hreverse ['.'] h), fun h => hup (hreverse ['.', '.'] h),
      fun h => ?_⟩
    · rw [hreverse [] h] at hempty
      simp at hempty
    · rw [String.toList_ofList, List.mem_reverse] at h
      simpa using List.all_eq_true.1 (List.all_takeWhile (l := p.reversed)) _ h

/-- A path that is given another extension has a new name at its end, unless it has no name. -/
theorem withExtension_cases (p : FilePath) (hslash : '/' ∉ extension.toList)
    (hextension : extension ≠ "") :
    (p.fileName? = none ∧ p.withExtension extension = p) ∨
      ∃ d name, IsName name ∧ p.withExtension extension = push d (renamed name extension) := by
  cases hname : p.fileName? with
  | none => exact .inl ⟨rfl, by simp [withExtension, hname]⟩
  | some name =>
    right
    have hn := isName_of_fileName? hname
    refine ⟨⟨String.ofList (p.reversed.dropWhile (· ≠ '/')).reverse⟩, _, hn, ext_toList ?_⟩
    rw [toList_push (isName_renamed hn hslash hextension), opened_eq_of_ends]
    · simp [withExtension, hname, renamed]
    · cases hrest : p.reversed.dropWhile (· ≠ '/') with
      | nil => exact .inl rfl
      | cons c cs =>
        have hc := List.head_dropWhile_not (p := fun c => decide (c ≠ '/')) (l := p.reversed)
          (by rw [hrest]; simp)
        simp only [hrest, List.head_cons, decide_eq_false_iff_not, ne_eq, Decidable.not_not] at hc
        exact .inr ⟨cs.reverse, by rw [hc]; simp⟩

end ContractBinding.Disk.FilePath
