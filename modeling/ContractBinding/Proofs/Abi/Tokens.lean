import ContractBinding.Proofs.Abi.Names
import ContractBinding.Proofs.Type.Marks

/-!
# Resolved tokens

A token resolves exactly when it denotes a type of the document, and in an alias or a branch only
without marks. Aliases, variants and the fields of structs resolve token by token and keep their
names and their order.
-/

namespace ContractBinding.Abi

/-- Every name below the arrays of a type is among the given names. -/
def Closed (names : List String) (expr : TypeExpr) : Prop :=
  ∀ name, expr.namedRef? = some name → name ∈ names

/-- A token resolves to the type that it is read as, whose name is in the index. -/
theorem resolveToken_eq_ok_iff {index : Index} {site : Site} {token : String} {type : FieldType} :
    resolveToken index site token = .ok type ↔
      FieldType.parse token = .ok type ∧ Closed (index.map Prod.fst) type.expr := by
  unfold resolveToken
  rw [Outcome.bind_eq_ok_iff]
  simp only [Outcome.mapError_eq_ok_iff, Closed, ← isSome_lookup_iff]
  constructor
  · rintro ⟨read, hread, h⟩
    split at h
    · next name hname =>
      split at h
      · next hin =>
        cases h
        refine ⟨hread, ?_⟩
        intro other hother
        cases hname.symm.trans hother
        exact hin
      · simp at h
    · next hnone =>
      cases h
      exact ⟨hread, fun other hother => by simp [hnone] at hother⟩
  · rintro ⟨hread, hclosed⟩
    refine ⟨type, hread, ?_⟩
    split
    · next name hname => rw [if_pos (hclosed name hname)]
    · rfl

/-- A plain token resolves to the type that it is read as, if it bears no mark. -/
theorem resolvePlain_eq_ok_iff {index : Index} {site : Site} {token : String} {expr : TypeExpr} :
    resolvePlain index site token = .ok expr ↔
      FieldType.parse token = .ok ⟨expr, false, false⟩ ∧ Closed (index.map Prod.fst) expr := by
  unfold resolvePlain
  simp only [Outcome.bind_eq_ok_iff, resolveToken_eq_ok_iff]
  constructor
  · rintro ⟨⟨e, ext, opt⟩, ⟨hread, hclosed⟩, h⟩
    cases ext <;> cases opt <;> simp at h
    subst h
    exact ⟨hread, hclosed⟩
  · rintro ⟨hread, hclosed⟩
    exact ⟨_, ⟨hread, hclosed⟩, rfl⟩

namespace Document

variable {doc : Document} {token : String}

/-- The tokens of fields that resolve are those that denote a type. -/
theorem exists_resolveToken_iff (site : Site) :
    (∃ type, resolveToken doc.declarations site token = .ok type) ↔ doc.Denotes token := by
  simp only [resolveToken_eq_ok_iff, map_fst_declarations, Denotes, Closed]

/-- The tokens of aliases and branches that resolve are those that denote a type and bear no
mark. -/
theorem exists_resolvePlain_iff (site : Site) :
    (∃ expr, resolvePlain doc.declarations site token = .ok expr) ↔
      doc.Denotes token ∧ Unmarked token := by
  simp only [resolvePlain_eq_ok_iff, map_fst_declarations]
  constructor
  · rintro ⟨expr, hread, hclosed⟩
    exact ⟨⟨_, hread, hclosed⟩, (FieldType.unmarked_iff_of_parse hread).2 ⟨rfl, rfl⟩⟩
  · rintro ⟨⟨⟨expr, ext, opt⟩, hread, hclosed⟩, hplain⟩
    obtain ⟨hext, hopt⟩ := (FieldType.unmarked_iff_of_parse hread).1 hplain
    dsimp only at hext hopt
    subst hext
    subst hopt
    exact ⟨expr, hread, hclosed⟩

end Document

/-- An alias resolves to one of its name, with the type of its token. -/
theorem resolveAlias_eq_ok_iff {index : Index} {decl : AliasDecl} {a : Alias} :
    resolveAlias index decl = .ok a ↔ a.name = decl.name ∧
      resolvePlain index (.entry .alias decl.name) decl.target = .ok a.target := by
  unfold resolveAlias
  simp only [Outcome.bind_eq_ok_iff, Outcome.pure_eq_ok_iff]
  constructor
  · rintro ⟨target, h, rfl⟩
    exact ⟨rfl, h⟩
  · rintro ⟨hname, h⟩
    exact ⟨a.target, h, by rw [← hname]⟩

/-- A branch resolves to one of its position, with the type of its token. -/
theorem resolveBranch_eq_ok_iff {index : Index} {variant : String} {entry : String × Nat}
    {b : Branch} :
    resolveBranch index variant entry = .ok b ↔
      b.index = entry.2 ∧ resolvePlain index (.entry .variant variant) entry.1 = .ok b.type := by
  unfold resolveBranch
  simp only [Outcome.bind_eq_ok_iff, Outcome.pure_eq_ok_iff]
  constructor
  · rintro ⟨type, h, rfl⟩
    exact ⟨rfl, h⟩
  · rintro ⟨hindex, h⟩
    exact ⟨b.type, h, by rw [← hindex]⟩

/-- A variant that offers a type resolves to one of its name, branch by branch. -/
theorem resolveVariant_eq_ok_iff {index : Index} {decl : VariantDecl} {v : Variant} :
    resolveVariant index decl = .ok v ↔
      decl.types ≠ [] ∧ v.name = decl.name ∧
        decl.types.zipIdx.mapM (resolveBranch index decl.name) = .ok v.branches := by
  unfold resolveVariant
  split
  · next he => simp [List.isEmpty_iff.1 he]
  · next he =>
    simp only [Outcome.bind_eq_ok_iff, Outcome.pure_eq_ok_iff]
    constructor
    · rintro ⟨branches, h, rfl⟩
      exact ⟨by simpa using he, rfl, h⟩
    · rintro ⟨-, hname, h⟩
      exact ⟨v.branches, h, by rw [← hname]⟩

/-- A field resolves to one of its name, declared in its struct, with the type of its token. -/
theorem resolveField_eq_ok_iff {index : Index} {struct : String} {decl : FieldDecl} {f : Field} :
    resolveField index struct decl = .ok f ↔
      f.name = decl.name ∧ f.declaredIn = struct ∧
        resolveToken index (.structField struct decl.name) decl.token = .ok f.type := by
  unfold resolveField
  simp only [Outcome.bind_eq_ok_iff, Outcome.pure_eq_ok_iff]
  constructor
  · rintro ⟨type, h, rfl⟩
    exact ⟨rfl, rfl, h⟩
  · rintro ⟨hname, hin, h⟩
    exact ⟨f.type, h, by rw [← hname, ← hin]⟩

namespace Document

variable {doc : Document}

/-- The aliases of a document resolve exactly when their tokens denote types and bear no mark. -/
theorem exists_resolveAliases_iff :
    (∃ aliases, doc.aliases.mapM (resolveAlias doc.declarations) = .ok aliases) ↔
      ∀ a ∈ doc.aliases, doc.Denotes a.target ∧ Unmarked a.target := by
  rw [Outcome.exists_mapM_eq_ok_iff]
  apply forall₂_congr
  intro a _
  rw [← exists_resolvePlain_iff (.entry .alias a.name)]
  simp only [resolveAlias_eq_ok_iff]
  constructor
  · rintro ⟨r, -, h⟩
    exact ⟨r.target, h⟩
  · rintro ⟨target, h⟩
    exact ⟨⟨a.name, target⟩, rfl, h⟩

/-- The branches of a variant resolve exactly when their tokens denote types and bear no mark. -/
theorem exists_resolveBranches_iff (variant : String) {types : List String} :
    (∃ branches, types.zipIdx.mapM (resolveBranch doc.declarations variant) = .ok branches) ↔
      ∀ token ∈ types, doc.Denotes token ∧ Unmarked token := by
  have hbranch (entry : String × Nat) :
      (∃ b, resolveBranch doc.declarations variant entry = .ok b) ↔
        doc.Denotes entry.1 ∧ Unmarked entry.1 := by
    rw [← exists_resolvePlain_iff (.entry .variant variant)]
    simp only [resolveBranch_eq_ok_iff]
    constructor
    · rintro ⟨b, -, h⟩
      exact ⟨b.type, h⟩
    · rintro ⟨type, h⟩
      exact ⟨⟨entry.2, type⟩, rfl, h⟩
  rw [Outcome.exists_mapM_eq_ok_iff]
  simp only [hbranch]
  constructor
  · intro h token hm
    obtain ⟨position, hpos⟩ := List.mem_iff_getElem?.1 hm
    exact h (token, position) (List.mk_mem_zipIdx_iff_getElem?.2 hpos)
  · rintro h ⟨token, position⟩ hm
    exact h token (List.mem_of_getElem? (List.mk_mem_zipIdx_iff_getElem?.1 hm))

/-- The variants of a document resolve exactly when each offers a type and their tokens denote
types and bear no mark. -/
theorem exists_resolveVariants_iff :
    (∃ variants, doc.variants.mapM (resolveVariant doc.declarations) = .ok variants) ↔
      ∀ v ∈ doc.variants, v.types ≠ [] ∧ ∀ token ∈ v.types, doc.Denotes token ∧ Unmarked token := by
  rw [Outcome.exists_mapM_eq_ok_iff]
  apply forall₂_congr
  intro v _
  rw [← exists_resolveBranches_iff v.name]
  simp only [resolveVariant_eq_ok_iff]
  constructor
  · rintro ⟨r, hne, -, h⟩
    exact ⟨hne, r.branches, h⟩
  · rintro ⟨hne, branches, h⟩
    exact ⟨⟨v.name, branches⟩, hne, rfl, h⟩

end Document

end ContractBinding.Abi
