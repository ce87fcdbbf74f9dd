import ContractBinding.Proofs.Abi.Faithful

/-!
# Fields along base links

The fields of a resolved struct are those of its base and then its own. Base links of a resolved
graph lead upward to a struct without a base, and on this way each field is an own field of one
struct, which is the one that it is declared in.
-/

namespace ContractBinding.Abi

/-- A struct is the one that the base of another names. -/
def Graph.IsBase (g : Graph) (parent s : Struct) : Prop :=
  ∃ base, s.base = some base ∧ g.struct? base = some parent

/-- A struct followed by its ancestors, the nearest first. -/
inductive Graph.Lineage (g : Graph) : Struct → List Struct → Prop where
  | root {s : Struct} (h : s.base = none) : Lineage g s [s]
  | child {s parent : Struct} {above : List Struct} (h : g.IsBase parent s)
    (hl : Lineage g parent above) : Lineage g s (s :: above)

namespace Graph

variable {g : Graph} {s t parent : Struct} {line other : List Struct}

/-- A base names one struct. -/
theorem IsBase.unique {p : Struct} (h : g.IsBase parent s) (hp : g.IsBase p s) : parent = p := by
  obtain ⟨base, hbase, hparent⟩ := h
  obtain ⟨base', hbase', hp⟩ := hp
  cases hbase.symm.trans hbase'
  exact Option.some.inj (hparent.symm.trans hp)

/-- A struct has one lineage. -/
theorem Lineage.unique (h : g.Lineage s line) (ho : g.Lineage s other) : line = other := by
  induction h generalizing other with
  | root hnone =>
    cases ho with
    | root _ => rfl
    | child hbase _ =>
      obtain ⟨base, hsome, -⟩ := hbase
      simp [hnone] at hsome
  | child hbase _ ih =>
    cases ho with
    | root hnone =>
      obtain ⟨base, hsome, -⟩ := hbase
      simp [hnone] at hsome
    | child hbase' hl =>
      cases hbase.unique hbase'
      rw [ih hl]

/-- The ancestors of a struct are structs of the graph. -/
theorem Lineage.mem (h : g.Lineage s line) (hparents : ∀ name p, g.struct? name = some p →
    p ∈ g.structs) (hs : s ∈ g.structs) : ∀ t ∈ line, t ∈ g.structs := by
  induction h with
  | root _ => simpa using hs
  | child hbase _ ih =>
    obtain ⟨base, -, hparent⟩ := hbase
    exact List.forall_mem_cons.2 ⟨hs, ih (hparents base _ hparent)⟩

/-- Base links from a struct that has a lineage come to an end. -/
theorem Lineage.acc (h : g.Lineage s line) : Acc g.IsBase s := by
  induction h with
  | root hnone =>
    refine ⟨_, fun parent hbase => ?_⟩
    obtain ⟨base, hsome, -⟩ := hbase
    simp [hnone] at hsome
  | child hbase _ ih =>
    refine ⟨_, fun parent hparent => ?_⟩
    rwa [hparent.unique hbase]

end Graph

/-! ### The walk that resolves a struct -/

section Walk

variable {doc : Document} {g : Graph} {own : List OwnStruct}

/-- A struct of the graph is made of one that has been resolved so far. -/
structure MadeOf (s : Struct) (o : OwnStruct) : Prop where
  name : s.name = o.name
  base : s.base = o.base
  ownFields : s.ownFields = o.fields

/-- A struct resolves to one that is made of it. -/
theorem madeOf_of_resolveStruct {index : Index} {position : Nat} {o : OwnStruct} {s : Struct}
    (h : resolveStruct index own position o = .ok s) : MadeOf s o := by
  obtain ⟨above, -, -, rfl⟩ := resolveStruct_eq_ok_iff.1 h
  exact ⟨rfl, rfl, rfl⟩

/-- A walk that ends finds the lineage of a struct in the graph. -/
theorem exists_lineage_of_ancestors (hg : ResolvedTypes doc g)
    (hplaces : ∀ (position : Nat) (o : OwnStruct), own[position]? = some o →
      ∃ s, g.structs[position]? = some s ∧ MadeOf s o)
    {start : String} {visited : List Nat} {o : OwnStruct} {above : List OwnStruct}
    (h : ancestors doc.declarations own start visited o = .ok above) {s : Struct}
    (hs : MadeOf s o) : ∃ line, g.Lineage s line ∧ List.Forall₂ MadeOf line (o :: above) := by
  fun_induction ancestors doc.declarations own start visited o generalizing s above with
  | case1 visited o hnone =>
    cases h
    exact ⟨[s], .root (hs.base.trans hnone), .cons hs .nil⟩
  | case2 => simp at h
  | case3 => simp at h
  | case4 visited o base hb position hl hv parent hparent ih =>
    obtain ⟨farther, hfarther, hr⟩ := Outcome.bind_eq_ok_iff.1 h
    cases Outcome.pure_eq_ok_iff.1 hr
    obtain ⟨p, hposition, hp⟩ := hplaces position parent hparent
    obtain ⟨line, hline, hpairs⟩ := ih hfarther hp
    have hfound : g.struct? base = some p := by
      refine Graph.struct?_eq_some_iff_place.2 ⟨position, ?_, hposition⟩
      rw [Graph.decl?, hg.index, hl]
    exact ⟨s :: line, .child ⟨base, hs.base.trans hb, hfound⟩ hline, .cons hs hpairs⟩
  | case5 => simp at h

end Walk

namespace ResolvedTypes

variable {doc : Document} {g : Graph} {s t parent : Struct} {line : List Struct} {f : Field}

/-- A struct of a resolved graph has a lineage, and its fields are the own fields of it, those of
the farthest ancestor first. -/
theorem exists_lineage (h : ResolvedTypes doc g) (hs : s ∈ g.structs) :
    ∃ line, g.Lineage s line ∧ s.fields = line.reverse.flatMap Struct.ownFields := by
  obtain ⟨own, position, o, -, hstructs, ho, hr⟩ := h.exists_resolveStruct hs
  have hplaces : ∀ (position : Nat) (o : OwnStruct), own[position]? = some o →
      ∃ s, g.structs[position]? = some s ∧ MadeOf s o := by
    intro position o ho
    have hzip : own.zipIdx[position]? = some (o, position) := by
      rw [List.getElem?_zipIdx, ho, Option.map_some, Nat.zero_add]
    obtain ⟨s, hs, hr⟩ := Outcome.getElem?_right (Outcome.mapM_eq_ok_iff.1 hstructs) hzip
    exact ⟨s, hs, madeOf_of_resolveStruct hr⟩
  obtain ⟨above, hwalk, -, hresolved⟩ := resolveStruct_eq_ok_iff.1 hr
  obtain ⟨line, hline, hpairs⟩ :=
    exists_lineage_of_ancestors h hplaces hwalk (madeOf_of_resolveStruct hr)
  refine ⟨line, hline, ?_⟩
  have hfields : line.map Struct.ownFields = (o :: above).map OwnStruct.fields :=
    Outcome.map_eq_map hpairs fun _ _ hmade => hmade.ownFields
  rw [hresolved, List.flatMap_def, List.flatMap_def, List.map_reverse, List.map_reverse, hfields]

/-- The fields of a struct are the own fields of its lineage, from the farthest ancestor down. -/
theorem fields_eq_of_lineage (h : ResolvedTypes doc g) (hs : s ∈ g.structs)
    (hl : g.Lineage s line) : s.fields = line.reverse.flatMap Struct.ownFields := by
  obtain ⟨found, hfound, hfields⟩ := h.exists_lineage hs
  rw [hl.unique hfound, hfields]

/-- The fields of a struct are those of a lineage in the document, each read from its token. -/
theorem exists_declLineage (h : ResolvedTypes doc g) (hs : s ∈ g.structs) :
    ∃ decl ∈ doc.structs, decl.name = s.name ∧ ∃ line, doc.Lineage decl line ∧
      List.Forall₂ (fun (d : FieldDecl) (f : Field) => FieldType.parse d.token = .ok f.type)
        (line.reverse.flatMap StructDecl.fields) s.fields := by
  obtain ⟨own, position, o, hp, -, ho, hr⟩ := h.exists_resolveStruct hs
  obtain ⟨decl, hdecl, hfirst⟩ := hp.decl_of_own ho
  obtain ⟨above, hwalk, -, rfl⟩ := resolveStruct_eq_ok_iff.1 hr
  obtain ⟨line, hline, hpairs⟩ := lineage_of_ancestors hp hwalk hfirst
  refine ⟨decl, List.mem_of_getElem? hdecl, (resolveOwn_eq_ok_iff.1 hfirst).1.symm, line, hline, ?_⟩
  refine List.rel_flatMap (List.rel_reverse hpairs) fun d o hr => ?_
  refine (Outcome.mapM_eq_ok_iff.1 (resolveOwn_eq_ok_iff.1 hr).2.2).imp fun f field hf => ?_
  exact (resolveToken_eq_ok_iff.1 (resolveField_eq_ok_iff.1 hf).2.2).1

/-- A struct without a base has its own fields. -/
theorem fields_eq_of_root (h : ResolvedTypes doc g) (hs : s ∈ g.structs) (hb : s.base = none) :
    s.fields = s.ownFields := by
  simpa using h.fields_eq_of_lineage hs (.root hb)

/-- A base of a struct is a struct of the graph, and the fields of the struct are those of the base
and then its own. -/
theorem fields_eq_of_base (h : ResolvedTypes doc g) (hs : s ∈ g.structs) {base : String}
    (hb : s.base = some base) :
    ∃ parent, g.struct? base = some parent ∧ s.fields = parent.fields ++ s.ownFields := by
  obtain ⟨line, hline, hfields⟩ := h.exists_lineage hs
  cases hline with
  | root hnone => simp [hb] at hnone
  | @child _ parent above hbase hl =>
    obtain ⟨base', hbase', hparent⟩ := hbase
    cases hb.symm.trans hbase'
    refine ⟨parent, hparent, ?_⟩
    rw [hfields, h.fields_eq_of_lineage (h.struct?_eq_some_iff.1 hparent).1 hl, List.reverse_cons,
      List.flatMap_append, List.flatMap_singleton]

/-- Base links are well-founded: the way up from every struct ends. -/
theorem wellFounded_isBase (h : ResolvedTypes doc g) : WellFounded g.IsBase := by
  refine ⟨fun s => ⟨_, fun parent hbase => ?_⟩⟩
  obtain ⟨base, -, hparent⟩ := hbase
  obtain ⟨line, hline, -⟩ := h.exists_lineage (h.struct?_eq_some_iff.1 hparent).1
  exact hline.acc

/-- The structs of a graph have different names. -/
theorem eq_of_name_eq (h : ResolvedTypes doc g) (hs : s ∈ g.structs) (ht : t ∈ g.structs)
    (hname : s.name = t.name) : s = t :=
  Option.some.inj ((h.struct?_eq_some_iff.2 ⟨hs, hname⟩).symm.trans
    (h.struct?_eq_some_iff.2 ⟨ht, rfl⟩))

/-- An own field is declared in its struct. -/
theorem declaredIn_of_ownFields (h : ResolvedTypes doc g) (hs : s ∈ g.structs)
    (hf : f ∈ s.ownFields) : f.declaredIn = s.name := by
  obtain ⟨own, position, o, hp, -, ho, hr⟩ := h.exists_resolveStruct hs
  have hmade := madeOf_of_resolveStruct hr
  obtain ⟨decl, -, hr⟩ := hp.decl_of_own ho
  obtain ⟨hname, -, hfields⟩ := resolveOwn_eq_ok_iff.1 hr
  rw [hmade.ownFields] at hf
  obtain ⟨fdecl, -, hr⟩ := Outcome.exists_mem_left (Outcome.mapM_eq_ok_iff.1 hfields) hf
  rw [(resolveField_eq_ok_iff.1 hr).2.1, hmade.name, hname]

/-- On the way up from a struct, each of its fields is an own field of the struct that it is
declared in and of no other. -/
theorem exists_declaring (h : ResolvedTypes doc g) (hs : s ∈ g.structs) (hl : g.Lineage s line)
    (hf : f ∈ s.fields) : ∃ t ∈ line, g.struct? f.declaredIn = some t ∧
      ∀ u ∈ line, f ∈ u.ownFields ↔ u = t := by
  have hmem := hl.mem (fun _ _ hp => (h.struct?_eq_some_iff.1 hp).1) hs
  rw [h.fields_eq_of_lineage hs hl, List.mem_flatMap] at hf
  obtain ⟨t, ht, hft⟩ := hf
  rw [List.mem_reverse] at ht
  have hdeclared := h.declaredIn_of_ownFields (hmem t ht) hft
  refine ⟨t, ht, h.struct?_eq_some_iff.2 ⟨hmem t ht, hdeclared.symm⟩, fun u hu => ?_⟩
  refine ⟨fun hfu => ?_, ?_⟩
  · exact h.eq_of_name_eq (hmem u hu) (hmem t ht)
      ((h.declaredIn_of_ownFields (hmem u hu) hfu).symm.trans hdeclared)
  · rintro rfl
    exact hft

end ResolvedTypes

end ContractBinding.Abi
