import ContractBinding.Proofs.Abi.Tokens

/-!
# Base links

A struct resolves when the walk along base links from it ends and the fields of its lineage have
distinct names. The walks from all structs end exactly when every base is declared and no struct
is its own ancestor, and each of them then finds the lineage of its struct.
-/

namespace ContractBinding.Abi

open Relation

/-- A struct resolves so far to one of its name and base, field by field. -/
theorem resolveOwn_eq_ok_iff {index : Index} {decl : StructDecl} {o : OwnStruct} :
    resolveOwn index decl = .ok o ↔
      o.name = decl.name ∧ o.base = decl.base? ∧
        decl.fields.mapM (resolveField index decl.name) = .ok o.fields := by
  unfold resolveOwn
  simp only [Outcome.bind_eq_ok_iff, Outcome.pure_eq_ok_iff]
  constructor
  · rintro ⟨fields, h, rfl⟩
    dsimp only
    exact ⟨rfl, rfl, h⟩
  · rintro ⟨hname, hbase, h⟩
    exact ⟨o.fields, h, by rw [← hname, ← hbase]⟩

/-- Fields of one name are refused; all others are added in order. -/
theorem mergeFields_eq_ok_iff {struct : String} {merged fields all : List Field} :
    mergeFields struct merged fields = .ok all ↔
      all = merged ++ fields ∧ (fields.map Field.name).Nodup ∧
        ∀ name ∈ fields.map Field.name, name ∉ merged.map Field.name := by
  induction fields generalizing merged with
  | nil => simp [mergeFields, eq_comm]
  | cons f rest ih =>
    unfold mergeFields
    cases hf : merged.find? fun earlier => earlier.name = f.name with
    | some earlier =>
      have hm : f.name ∈ merged.map Field.name :=
        List.mem_map.2 ⟨earlier, List.mem_of_find?_eq_some hf, by simpa using List.find?_some hf⟩
      exact iff_of_false (by simp) fun h => h.2.2 f.name (List.mem_cons_self ..) hm
    | none =>
      have hnew := find?_name_eq_none_iff.1 hf
      have hlater (other : String) : other ∈ (merged ++ [f]).map Field.name ↔
          other = f.name ∨ other ∈ merged.map Field.name := by
        rw [List.map_append, List.mem_append, or_comm]
        simp
      dsimp only
      rw [ih, distinct_cons_iff hnew hlater, List.map_cons, List.append_assoc,
        List.singleton_append]

/-- A struct resolves when its lineage is found and has distinct fields, which are then its own
after those of its ancestors. -/
theorem resolveStruct_eq_ok_iff {index : Index} {own : List OwnStruct} {position : Nat}
    {o : OwnStruct} {s : Struct} :
    resolveStruct index own position o = .ok s ↔
      ∃ above, ancestors index own o.name [position] o = .ok above ∧
        (((o :: above).reverse.flatMap OwnStruct.fields).map Field.name).Nodup ∧
        s = ⟨o.name, o.base, o.fields, (o :: above).reverse.flatMap OwnStruct.fields⟩ := by
  unfold resolveStruct
  simp only [Outcome.bind_eq_ok_iff, Outcome.pure_eq_ok_iff, mergeFields_eq_ok_iff,
    List.nil_append, List.map_nil, List.not_mem_nil, not_false_eq_true, implies_true, and_true]
  constructor
  · rintro ⟨above, ha, fields, ⟨rfl, hd⟩, rfl⟩
    exact ⟨above, ha, hd, rfl⟩
  · rintro ⟨above, ha, hd, rfl⟩
    exact ⟨above, ha, _, ⟨rfl, hd⟩, rfl⟩

/-- One step of the walk along bases: from a struct to a base that is not visited. -/
inductive BaseStep (index : Index) (own : List OwnStruct) :
    List Nat × OwnStruct → List Nat × OwnStruct → Prop where
  | follow {visited : List Nat} {s parent : OwnStruct} {base : String} {position : Nat}
    (hb : s.base = some base) (hl : index.lookup base = some (.struct position))
    (hv : position ∉ visited) (hparent : own[position]? = some parent) :
    BaseStep index own (visited, s) (position :: visited, parent)

/-- The walk takes such steps. -/
theorem BaseStep.ancestors_eq {index : Index} {own : List OwnStruct} {start : String}
    {before after : List Nat × OwnStruct} (h : BaseStep index own before after) :
    ancestors index own start before.1 before.2 =
      (ancestors index own start after.1 after.2).map (after.2 :: ·) := by
  obtain ⟨hb, hl, hv, hparent⟩ := h
  conv_lhs => unfold ancestors
  split
  next hnone => simp [hb] at hnone
  next base hbase =>
    obtain rfl : _ = base := Option.some.inj (hb.symm.trans hbase)
    split
    next position hlookup =>
      obtain rfl := Decl.struct.inj (Option.some.inj (hl.symm.trans hlookup))
      rw [dif_neg hv]
      split
      next hfind => simp [hparent] at hfind
      next parent hfind =>
        obtain rfl := Option.some.inj (hparent.symm.trans hfind)
        exact bind_pure_comp ..
    next hother => exact absurd hl (hother _)

/-- Every walk along bases ends, whatever the links are. -/
theorem baseStep_wellFounded (index : Index) (own : List OwnStruct) :
    WellFounded fun after before => BaseStep index own before after := by
  refine Subrelation.wf ?_
    (measure fun state : List Nat × OwnStruct => unvisited (List.range own.length) state.1).wf
  rintro _ _ ⟨-, -, hv, hparent⟩
  obtain ⟨hlt, -⟩ := List.getElem?_eq_some_iff.1 hparent
  exact unvisited_cons_lt (List.mem_range.2 hlt) hv

section Walk

variable {doc : Document} {own : List OwnStruct}

/-- The structs of a document whose names are distinct, each resolved so far. -/
structure Prepared (doc : Document) (own : List OwnStruct) : Prop where
  distinct : doc.typeNames.Nodup
  resolved : doc.structs.mapM (resolveOwn doc.declarations) = .ok own

namespace Prepared

/-- The struct of a name is found where the document has it. -/
theorem lookup_iff (hp : Prepared doc own) {name : String} {position : Nat} :
    doc.declarations.lookup name = some (.struct position) ↔
      doc.structs[position]?.map StructDecl.name = some name :=
  Document.lookup_declarations_iff hp.distinct

theorem decl_of_own (hp : Prepared doc own) {position : Nat} {o : OwnStruct}
    (h : own[position]? = some o) :
    ∃ s, doc.structs[position]? = some s ∧ resolveOwn doc.declarations s = .ok o :=
  Outcome.getElem?_left (Outcome.mapM_eq_ok_iff.1 hp.resolved) h

theorem own_of_decl (hp : Prepared doc own) {position : Nat} {s : StructDecl}
    (h : doc.structs[position]? = some s) :
    ∃ o, own[position]? = some o ∧ resolveOwn doc.declarations s = .ok o :=
  Outcome.getElem?_right (Outcome.mapM_eq_ok_iff.1 hp.resolved) h

/-- What is found by the name of a struct has been resolved from the struct of this name. -/
theorem decl_of_lookup (hp : Prepared doc own) {name : String} {position : Nat} {o : OwnStruct}
    (hl : doc.declarations.lookup name = some (.struct position)) (h : own[position]? = some o) :
    ∃ s, doc.structs[position]? = some s ∧ s.name = name ∧
      resolveOwn doc.declarations s = .ok o := by
  obtain ⟨s, hpos, hs⟩ := hp.decl_of_own h
  have hname := hp.lookup_iff.1 hl
  rw [hpos] at hname
  exact ⟨s, hpos, Option.some.inj hname, hs⟩

theorem structs_distinct (hp : Prepared doc own) : (doc.structs.map StructDecl.name).Nodup :=
  Document.structs_distinct hp.distinct

end Prepared

/-- A walk that ends finds a lineage. -/
theorem lineage_of_ancestors (hp : Prepared doc own) {start : String} {visited : List Nat}
    {o : OwnStruct} {above : List OwnStruct}
    (h : ancestors doc.declarations own start visited o = .ok above) {s : StructDecl}
    (hs : resolveOwn doc.declarations s = .ok o) :
    ∃ line, doc.Lineage s line ∧
      List.Forall₂ (fun s o => resolveOwn doc.declarations s = .ok o) line (o :: above) := by
  have hbase := (resolveOwn_eq_ok_iff.1 hs).2.1
  fun_induction ancestors doc.declarations own start visited o generalizing s above with
  | case1 visited o hnone =>
    cases h
    exact ⟨[s], .root (by rw [← hbase, hnone]), .cons hs .nil⟩
  | case2 => simp at h
  | case3 => simp at h
  | case4 visited o base hb position hl hv parent hparent ih =>
    obtain ⟨farther, hfarther, hr⟩ := Outcome.bind_eq_ok_iff.1 h
    cases Outcome.pure_eq_ok_iff.1 hr
    obtain ⟨p, hpos, rfl, hown⟩ := hp.decl_of_lookup hl hparent
    obtain ⟨line, hline, hpairs⟩ := ih hfarther hown (resolveOwn_eq_ok_iff.1 hown).2.1
    refine ⟨s :: line, .child ?_ (List.mem_of_getElem? hpos) hline, .cons hs hpairs⟩
    rw [← hbase, hb]
  | case5 => simp at h

/-- A walk that ends passes no struct that was visited before it. -/
theorem not_mem_visited_of_ancestors (hp : Prepared doc own) {start : String}
    {visited : List Nat} {o : OwnStruct} {above : List OwnStruct}
    (h : ancestors doc.declarations own start visited o = .ok above) {next passed : String}
    (hnext : o.base = some next) (hlink : ReflTransGen doc.BaseLink next passed) {position : Nat}
    (hpassed : doc.structs[position]?.map StructDecl.name = some passed) :
    position ∉ visited := by
  fun_induction ancestors doc.declarations own start visited o generalizing next above with
  | case1 visited o hnone => simp [hnone] at hnext
  | case2 => simp at h
  | case3 => simp at h
  | case4 visited o base hb found hl hv parent hparent ih =>
    cases hb.symm.trans hnext
    obtain ⟨farther, hfarther, -⟩ := Outcome.bind_eq_ok_iff.1 h
    rcases hlink.cases_head with rfl | ⟨c, ⟨decl, hm, hname, hbase⟩, hrest⟩
    · cases hl.symm.trans (hp.lookup_iff.2 hpassed)
      exact hv
    · obtain ⟨p, hpos, hpname, hown⟩ := hp.decl_of_lookup hl hparent
      have hsame : decl = p := List.inj_on_of_nodup_map hp.structs_distinct hm
        (List.mem_of_getElem? hpos) (hname.trans hpname.symm)
      have hpbase : parent.base = some c := by
        rw [(resolveOwn_eq_ok_iff.1 hown).2.1, ← hsame, hbase]
      have hout := ih hfarther hpbase hrest
      exact fun hm => hout (List.mem_cons_of_mem _ hm)
  | case5 => simp at h

/-- Where bases are declared and links have no cycle, a walk that follows links from all it has
visited ends. -/
theorem exists_ancestors (hp : Prepared doc own)
    (hdeclared : ∀ s ∈ doc.structs, ∀ base, s.base? = some base →
      base ∈ doc.structs.map StructDecl.name)
    (hacyclic : ∀ name, ¬ TransGen doc.BaseLink name name) (start : String) {visited : List Nat}
    {s : StructDecl} {o : OwnStruct} (hm : s ∈ doc.structs)
    (hs : resolveOwn doc.declarations s = .ok o)
    (hvisited : ∀ v ∈ visited, ∀ name, doc.structs[v]?.map StructDecl.name = some name →
      ReflTransGen doc.BaseLink name s.name) :
    ∃ above, ancestors doc.declarations own start visited o = .ok above := by
  have hbase := (resolveOwn_eq_ok_iff.1 hs).2.1
  fun_induction ancestors doc.declarations own start visited o generalizing s with
  | case1 visited o hnone => exact ⟨[], rfl⟩
  | case2 visited o base hb position hl hv =>
    have hback := hvisited position hv base (hp.lookup_iff.1 hl)
    exact absurd (TransGen.tail' hback ⟨s, hm, rfl, hbase.symm.trans hb⟩) (hacyclic base)
  | case3 visited o base hb position hl hv hnone =>
    obtain ⟨p, hpos, -⟩ := Option.map_eq_some_iff.1 (hp.lookup_iff.1 hl)
    obtain ⟨parent, hparent, -⟩ := hp.own_of_decl hpos
    simp [hnone] at hparent
  | case4 visited o base hb position hl hv parent hparent ih =>
    obtain ⟨p, hpos, rfl, hown⟩ := hp.decl_of_lookup hl hparent
    have hlink : doc.BaseLink s.name p.name := ⟨s, hm, rfl, hbase.symm.trans hb⟩
    have hstep : ∀ v ∈ position :: visited, ∀ name,
        doc.structs[v]?.map StructDecl.name = some name →
          ReflTransGen doc.BaseLink name p.name := by
      intro v hv name hname
      rcases List.mem_cons.1 hv with rfl | hv
      · rw [hpos] at hname
        cases hname
        exact .refl
      · exact (hvisited v hv name hname).tail hlink
    obtain ⟨farther, hfarther⟩ := ih (List.mem_of_getElem? hpos) hown hstep
      (resolveOwn_eq_ok_iff.1 hown).2.1
    rw [hfarther]
    exact ⟨_, rfl⟩
  | case5 visited o base hb hno =>
    have hin := hdeclared s hm base (hbase.symm.trans hb)
    obtain ⟨p, hpm, hname⟩ := List.mem_map.1 hin
    obtain ⟨position, hpos⟩ := List.mem_iff_getElem?.1 hpm
    exact absurd (hp.lookup_iff.2 (by rw [hpos, Option.map_some, hname])) (hno position)

end Walk

/-- Where names are distinct, a struct has one lineage. -/
theorem Document.Lineage.unique {doc : Document} (hd : (doc.structs.map StructDecl.name).Nodup)
    {s : StructDecl} {l m : List StructDecl} (hl : doc.Lineage s l) (hm : doc.Lineage s m) :
    l = m := by
  induction hl generalizing m with
  | root h =>
    cases hm with
    | root _ => rfl
    | child h' _ _ => simp [h] at h'
  | child h hp _ ih =>
    cases hm with
    | root h' => simp [h'] at h
    | child h' hp' hl' =>
      have hname := Option.some.inj (h.symm.trans h')
      cases List.inj_on_of_nodup_map hd hp hp' hname
      rw [ih hl']

/-- Resolved fields have the names of the document. -/
theorem map_name_fields {index : Index} {struct : String} {decls : List FieldDecl}
    {fields : List Field} (h : decls.mapM (resolveField index struct) = .ok fields) :
    fields.map Field.name = decls.map FieldDecl.name :=
  (Outcome.map_eq_map (Outcome.mapM_eq_ok_iff.1 h)
    fun _ _ hr => (resolveField_eq_ok_iff.1 hr).1.symm).symm

/-- The fields of a lineage have the names of the document, the farthest ancestor first. -/
theorem map_name_lineage_fields {index : Index} {line : List StructDecl} {own : List OwnStruct}
    (h : List.Forall₂ (fun s o => resolveOwn index s = .ok o) line own) :
    ((own.reverse.flatMap OwnStruct.fields).map Field.name).Perm
      ((line.flatMap StructDecl.fields).map FieldDecl.name) := by
  rw [List.map_flatMap, List.map_flatMap]
  refine ((List.reverse_perm own).flatMap_right _).trans (List.Perm.of_eq ?_)
  rw [List.flatMap_def, List.flatMap_def]
  congr 1
  exact (Outcome.map_eq_map h
    fun _ _ hr => (map_name_fields (resolveOwn_eq_ok_iff.1 hr).2.2).symm).symm

/-- The fields of a struct resolve exactly when they denote types. -/
theorem exists_resolveOwn_iff {doc : Document} {s : StructDecl} :
    (∃ o, resolveOwn doc.declarations s = .ok o) ↔ ∀ f ∈ s.fields, doc.Denotes f.token := by
  have hfields : (∃ o, resolveOwn doc.declarations s = .ok o) ↔
      ∃ fields, s.fields.mapM (resolveField doc.declarations s.name) = .ok fields := by
    simp only [resolveOwn_eq_ok_iff]
    constructor
    · rintro ⟨o, -, -, h⟩
      exact ⟨o.fields, h⟩
    · rintro ⟨fields, h⟩
      refine ⟨⟨s.name, s.base?, fields⟩, ?_⟩
      dsimp only
      exact ⟨rfl, rfl, h⟩
  rw [hfields, Outcome.exists_mapM_eq_ok_iff]
  apply forall₂_congr
  intro f _
  rw [← Document.exists_resolveToken_iff (.structField s.name f.name)]
  simp only [resolveField_eq_ok_iff]
  constructor
  · rintro ⟨r, -, -, h⟩
    exact ⟨r.type, h⟩
  · rintro ⟨type, h⟩
    exact ⟨⟨f.name, type, s.name⟩, rfl, rfl, h⟩

/-- A struct resolves exactly when the walk from it ends and its lineage has distinct fields. -/
theorem exists_resolveStruct_iff {index : Index} {own : List OwnStruct} {position : Nat}
    {o : OwnStruct} :
    (∃ s, resolveStruct index own position o = .ok s) ↔
      ∃ above, ancestors index own o.name [position] o = .ok above ∧
        (((o :: above).reverse.flatMap OwnStruct.fields).map Field.name).Nodup := by
  simp only [resolveStruct_eq_ok_iff]
  constructor
  · rintro ⟨_, above, ha, hd, -⟩
    exact ⟨above, ha, hd⟩
  · rintro ⟨above, ha, hd⟩
    exact ⟨_, above, ha, hd, rfl⟩

/-- The bases of a document are declared, no struct is its own ancestor, and no lineage has two
fields of one name. -/
structure Document.BasesSound (doc : Document) : Prop where
  declared : ∀ s ∈ doc.structs, ∀ base, s.base? = some base →
    base ∈ doc.structs.map StructDecl.name
  acyclic : ∀ name, ¬ TransGen doc.BaseLink name name
  fields_distinct : ∀ s ∈ doc.structs, ∀ line, doc.Lineage s line →
    ((line.flatMap StructDecl.fields).map FieldDecl.name).Nodup

namespace Prepared

variable {doc : Document} {own : List OwnStruct}

/-- Where all structs resolve, the walk from each of them ends, and the fields that it comes to have
distinct names. -/
theorem exists_walk (hp : Prepared doc own)
    (h : ∀ position o, own[position]? = some o →
      ∃ s, resolveStruct doc.declarations own position o = .ok s)
    {s : StructDecl} (hs : s ∈ doc.structs) : ∃ position o above,
      doc.structs[position]? = some s ∧ resolveOwn doc.declarations s = .ok o ∧
      ancestors doc.declarations own o.name [position] o = .ok above ∧
      (((o :: above).reverse.flatMap OwnStruct.fields).map Field.name).Nodup := by
  obtain ⟨position, hpos⟩ := List.mem_iff_getElem?.1 hs
  obtain ⟨o, ho, hr⟩ := hp.own_of_decl hpos
  obtain ⟨above, ha, hd⟩ := exists_resolveStruct_iff.1 (h position o ho)
  exact ⟨position, o, above, hpos, hr, ha, hd⟩

/-- Where all structs resolve, their bases are sound. -/
theorem basesSound (hp : Prepared doc own)
    (h : ∀ position o, own[position]? = some o →
      ∃ s, resolveStruct doc.declarations own position o = .ok s) : doc.BasesSound := by
  constructor
  case declared =>
    intro s hs base hbase
    obtain ⟨position, o, above, -, hr, ha, -⟩ := hp.exists_walk h hs
    obtain ⟨line, hline, -⟩ := lineage_of_ancestors hp ha hr
    cases hline with
    | root hnone => simp [hnone] at hbase
    | child hparent hm _ =>
      cases hparent.symm.trans hbase
      exact List.mem_map_of_mem hm
  case acyclic =>
    intro name hcycle
    obtain ⟨next, ⟨s, hs, rfl, hbase⟩, hback⟩ := TransGen.head'_iff.1 hcycle
    obtain ⟨position, o, above, hpos, hr, ha, -⟩ := hp.exists_walk h hs
    have hout := not_mem_visited_of_ancestors hp ha
      ((resolveOwn_eq_ok_iff.1 hr).2.1.trans hbase) hback (by rw [hpos, Option.map_some])
    exact hout (List.mem_singleton_self _)
  case fields_distinct =>
    intro s hs line hline
    obtain ⟨position, o, above, -, hr, ha, hd⟩ := hp.exists_walk h hs
    obtain ⟨found, hfound, hpairs⟩ := lineage_of_ancestors hp ha hr
    rw [hline.unique hp.structs_distinct hfound]
    exact (map_name_lineage_fields hpairs).nodup_iff.1 hd

/-- Where bases are sound, every struct resolves. -/
theorem exists_resolveStruct (hp : Prepared doc own) (hb : doc.BasesSound) {position : Nat}
    {o : OwnStruct} (ho : own[position]? = some o) :
    ∃ s, resolveStruct doc.declarations own position o = .ok s := by
  obtain ⟨s, hpos, hr⟩ := hp.decl_of_own ho
  have hs := List.mem_of_getElem? hpos
  have hvisited : ∀ v ∈ [position], ∀ name, doc.structs[v]?.map StructDecl.name = some name →
      ReflTransGen doc.BaseLink name s.name := by
    intro v hv name hname
    cases List.mem_singleton.1 hv
    rw [hpos] at hname
    cases hname
    exact .refl
  obtain ⟨above, ha⟩ := exists_ancestors hp hb.declared hb.acyclic o.name hs hr hvisited
  obtain ⟨line, hline, hpairs⟩ := lineage_of_ancestors hp ha hr
  have hd := (map_name_lineage_fields hpairs).nodup_iff.2 (hb.fields_distinct s hs line hline)
  exact exists_resolveStruct_iff.2 ⟨above, ha, hd⟩

end Prepared

/-- Structs resolve in two rounds: first by themselves and then with their ancestors. -/
theorem resolveStructs_eq_ok_iff {index : Index} {decls : List StructDecl}
    {structs : List Struct} :
    resolveStructs index decls = .ok structs ↔ ∃ own, decls.mapM (resolveOwn index) = .ok own ∧
      own.zipIdx.mapM (fun e => resolveStruct index own e.2 e.1) = .ok structs := by
  unfold resolveStructs
  rw [Outcome.bind_eq_ok_iff]

/-- The structs of a document of distinct names resolve exactly when their fields denote types and
their bases are sound. -/
theorem exists_resolveStructs_iff {doc : Document} (hd : doc.typeNames.Nodup) :
    (∃ structs, resolveStructs doc.declarations doc.structs = .ok structs) ↔
      (∀ s ∈ doc.structs, ∀ f ∈ s.fields, doc.Denotes f.token) ∧ doc.BasesSound := by
  have hfirst : (∃ own, doc.structs.mapM (resolveOwn doc.declarations) = .ok own) ↔
      ∀ s ∈ doc.structs, ∀ f ∈ s.fields, doc.Denotes f.token := by
    rw [Outcome.exists_mapM_eq_ok_iff]
    exact forall₂_congr fun s _ => exists_resolveOwn_iff
  have hsecond (own : List OwnStruct) :
      (∃ structs, own.zipIdx.mapM (fun e => resolveStruct doc.declarations own e.2 e.1) =
        .ok structs) ↔ ∀ position o, own[position]? = some o →
          ∃ s, resolveStruct doc.declarations own position o = .ok s := by
    rw [Outcome.exists_mapM_eq_ok_iff]
    constructor
    · intro h position o ho
      exact h (o, position) (List.mk_mem_zipIdx_iff_getElem?.2 ho)
    · rintro h ⟨o, position⟩ hm
      exact h position o (List.mk_mem_zipIdx_iff_getElem?.1 hm)
  simp only [resolveStructs_eq_ok_iff]
  rw [← hfirst]
  constructor
  · rintro ⟨structs, own, hown, hstructs⟩
    have hp : Prepared doc own := ⟨hd, hown⟩
    exact ⟨⟨own, hown⟩, hp.basesSound ((hsecond own).1 ⟨structs, hstructs⟩)⟩
  · rintro ⟨⟨own, hown⟩, hb⟩
    have hp : Prepared doc own := ⟨hd, hown⟩
    obtain ⟨structs, hstructs⟩ := (hsecond own).2 fun _ _ => hp.exists_resolveStruct hb
    exact ⟨structs, own, hown, hstructs⟩

end ContractBinding.Abi
