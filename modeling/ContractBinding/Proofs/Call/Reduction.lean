import ContractBinding.Call.Preparation
import Mathlib.Logic.Relation

/-!
# Reducing values

Reducing walks a value along a type: items along the element type, entries along the declared
fields of a struct, the payload of a variant along its branch. A variant that comes to a type of
variants with no branch at its position is stray. The value is refused for the first stray variant
of its walk, and without one it reduces to its wire form, whether or not it has its type.
-/

namespace ContractBinding

namespace CallFault

/-- The arguments miss what is taken. -/
def IsArity : CallFault → Prop
  | .arity _ _ => True
  | _ => False

/-- A variant has no branch of a tag. -/
def IsDiscriminant : CallFault → Prop
  | .discriminant _ _ _ => True
  | _ => False

end CallFault

namespace Call

open Relation (ReflTransGen)

variable (g : Abi.Graph)

mutual

/-- What a walk of a value along a type comes to, each value with its type: the value itself, and
then what the walks of its parts come to. -/
def walk (expr : TypeExpr) (value : HostValue) : List (TypeExpr × HostValue) :=
  (expr, value) :: match g.behind expr, value with
    | .array element, .array items => walkItems element items
    | .named name, .struct entries =>
      match g.struct? name with
      | none => []
      | some s => walkEntries s entries
    | .named name, .variant position payload =>
      match (g.variant? name).bind fun v => v.branch? position with
      | none => []
      | some b => walk b.type payload
    | _, _ => []

/-- What the walks of items of one type come to. -/
def walkItems (element : TypeExpr) : List HostValue → List (TypeExpr × HostValue)
  | [] => []
  | item :: rest => walk element item ++ walkItems element rest

/-- What the walks of the entries of a struct come to; one that is not declared has no type. -/
def walkEntries (s : Abi.Struct) : List (String × HostValue) → List (TypeExpr × HostValue)
  | [] => []
  | (key, value) :: rest =>
    (match s.field? key with
      | none => []
      | some f => walk f.type.expr value) ++ walkEntries s rest

end

/-- From a value at a type one step down to a part of the value at its own type. -/
inductive Below : TypeExpr × HostValue → TypeExpr × HostValue → Prop where
  | item {expr element : TypeExpr} {items : List HostValue} {item : HostValue}
    (ht : g.behind expr = .array element) (hi : item ∈ items) :
    Below (expr, .array items) (element, item)
  | field {expr : TypeExpr} {name key : String} {s : Abi.Struct} {f : Abi.Field}
    {entries : List (String × HostValue)} {value : HostValue} (ht : g.behind expr = .named name)
    (hs : g.struct? name = some s) (he : (key, value) ∈ entries) (hf : s.field? key = some f) :
    Below (expr, .struct entries) (f.type.expr, value)
  | payload {expr : TypeExpr} {name : String} {v : Abi.Variant} {b : Abi.Branch}
    {position : Nat} {payload : HostValue} (ht : g.behind expr = .named name)
    (hv : g.variant? name = some v) (hb : v.branch? position = some b) :
    Below (expr, .variant position payload) (b.type, payload)

/-- The fault of a variant at a type of variants that has no branch at its position. -/
def stray? : TypeExpr × HostValue → Option CallFault
  | (expr, .variant position _) =>
    match g.behind expr with
    | .named name => (g.variant? name).bind fun v =>
      if position < v.branches.length then none
      else some (.discriminant v.name (.int position) v.branches.length)
    | _ => none
  | _ => none

/-- A result, unless there is a stray variant among what a walk has come to: then the fault of the
first of them. -/
def unlessStray {α : Type} (visits : List (TypeExpr × HostValue)) (result : α) :
    Except CallFault α :=
  (visits.findSome? (stray? g)).elim (.ok result) .error

variable {g}

theorem walkItems_eq_flatMap (element : TypeExpr) (items : List HostValue) :
    walkItems g element items = items.flatMap (walk g element) := by
  induction items with
  | nil => rfl
  | cons item rest ih => rw [walkItems, ih, List.flatMap_cons]

theorem walkEntries_eq_flatMap (s : Abi.Struct) (entries : List (String × HostValue)) :
    walkEntries g s entries = entries.flatMap fun e =>
      match s.field? e.1 with
      | none => []
      | some f => walk g f.type.expr e.2 := by
  induction entries with
  | nil => rfl
  | cons e rest ih => rw [walkEntries, ih, List.flatMap_cons]

/-! ### What a reduction gives -/

section Reduction

variable {α β : Type} {a : α} {b : β} {visits first second : List (TypeExpr × HostValue)}
  {expr : TypeExpr} {value : HostValue}

/-- What is no stray variant itself is refused for what comes later. -/
theorem unlessStray_cons {visit : TypeExpr × HostValue} (h : stray? g visit = none) :
    unlessStray g (visit :: visits) a = unlessStray g visits a := by
  unfold unlessStray
  rw [List.findSome?_cons, h]

/-- The result may be seen in another way. -/
theorem unlessStray_map (f : α → β) :
    (unlessStray g visits a).map f = unlessStray g visits (f a) := by
  unfold unlessStray
  cases visits.findSome? (stray? g) <;> rfl

/-- The next walk starts where the first has found no stray variant. -/
theorem unlessStray_bind {k : α → Except CallFault β} (hk : k a = unlessStray g second b) :
    (unlessStray g first a >>= k) = unlessStray g (first ++ second) b := by
  unfold unlessStray at hk ⊢
  rw [List.findSome?_append]
  cases first.findSome? (stray? g) with
  | none => exact hk
  | some fault => rfl

mutual

/-- A value reduces to its wire form unless a stray variant is on its walk. -/
theorem reduce_eq_walk (expr : TypeExpr) (value : HostValue) :
    reduce g expr value = unlessStray g (walk g expr value) value.toWire := by
  cases value with
  | array items =>
    have hself : stray? g (expr, .array items) = none := rfl
    unfold reduce walk
    rw [unlessStray_cons hself]
    cases g.behind expr with
    | array element =>
      dsimp only
      rw [reduceItems_eq_walk element items, unlessStray_map]
      rfl
    | primitive _ | named _ => rfl
  | struct entries =>
    have hself : stray? g (expr, .struct entries) = none := rfl
    unfold reduce walk
    rw [unlessStray_cons hself]
    cases g.behind expr with
    | named name =>
      dsimp only
      cases g.struct? name with
      | none => rfl
      | some s =>
        dsimp only
        rw [reduceEntries_eq_walk s entries, unlessStray_map]
        rfl
    | primitive _ | array _ => rfl
  | variant position payload =>
    unfold reduce walk
    cases ht : g.behind expr with
    | named name =>
      cases hv : g.variant? name with
      | none =>
        rw [unlessStray_cons (by simp [stray?, ht, hv])]
        simp only [hv]
        rfl
      | some v =>
        cases hb : v.branch? position with
        | none =>
          have hfew := Nat.not_lt.2 (List.getElem?_eq_none_iff.1 hb)
          simp [unlessStray, stray?, ht, hv, hb, hfew]
        | some b =>
          have hlt := (List.getElem?_eq_some_iff.1 hb).1
          rw [unlessStray_cons (by simp [stray?, ht, hv, hlt])]
          simp only [hv, hb, Option.bind_some]
          rw [reduce_eq_walk b.type payload]
          exact unlessStray_map fun wire => Json.array [.int position, wire]
    | primitive _ | array _ =>
      rw [unlessStray_cons (by simp [stray?, ht])]
      rfl
  | wire _ | bool _ | moment _ | asset _ | account _ =>
    unfold reduce walk
    cases g.behind expr <;> rfl

/-- Items of one type reduce to their wire forms unless a stray variant is on their walks. -/
theorem reduceItems_eq_walk (element : TypeExpr) (items : List HostValue) :
    reduceItems g element items =
      unlessStray g (walkItems g element items) (HostValue.itemsToWire items) := by
  match items with
  | [] => rfl
  | item :: rest =>
    rw [reduceItems, walkItems, reduce_eq_walk element item, reduceItems_eq_walk element rest]
    refine unlessStray_bind ?_
    exact unlessStray_map (HostValue.toWire item :: ·)

theorem reduceEntries_eq_walk (s : Abi.Struct) (entries : List (String × HostValue)) :
    reduceEntries g s entries =
      unlessStray g (walkEntries g s entries) (HostValue.entriesToWire entries) := by
  match entries with
  | [] => rfl
  | (key, value) :: rest =>
    rw [reduceEntries, walkEntries, reduceEntries_eq_walk s rest]
    cases s.field? key with
    | none => exact unlessStray_map ((key, value.toWire) :: ·)
    | some f =>
      dsimp only
      rw [reduce_eq_walk f.type.expr value]
      refine unlessStray_bind ?_
      exact unlessStray_map ((key, value.toWire) :: ·)

end

/-- A walk comes to the value itself. -/
theorem self_mem_walk : (expr, value) ∈ walk g expr value := by
  unfold walk
  exact List.mem_cons_self ..

/-- A walk comes to all that a walk from one step down comes to. -/
theorem walk_subset_of_below {above below : TypeExpr × HostValue} (h : Below g above below) :
    walk g below.1 below.2 ⊆ walk g above.1 above.2 := by
  intro visit hvisit
  unfold walk
  refine List.mem_cons_of_mem _ ?_
  cases h with
  | item ht hi =>
    simp only [ht, walkItems_eq_flatMap]
    exact List.mem_flatMap.2 ⟨_, hi, hvisit⟩
  | field ht hs he hf =>
    simp only [ht, hs, walkEntries_eq_flatMap]
    refine List.mem_flatMap.2 ⟨_, he, ?_⟩
    simpa only [hf] using hvisit
  | payload ht hv hb => simpa only [ht, hv, Option.bind_some, hb] using hvisit

mutual

/-- All that a walk comes to lies below. -/
theorem reach_of_mem_walk (expr : TypeExpr) (value : HostValue) :
    ∀ visit ∈ walk g expr value, ReflTransGen (Below g) (expr, value) visit := by
  unfold walk
  refine List.forall_mem_cons.2 ⟨.refl, fun visit hvisit => ?_⟩
  split at hvisit
  · next element items ht =>
    obtain ⟨item, hi, hreach⟩ := reach_of_mem_walkItems element items visit hvisit
    exact .head (.item ht hi) hreach
  · next name entries ht =>
    cases hs : g.struct? name with
    | none => simp [hs] at hvisit
    | some s =>
      simp only [hs] at hvisit
      obtain ⟨key, value, he, f, hf, hreach⟩ := reach_of_mem_walkEntries s entries visit hvisit
      exact .head (.field ht hs he hf) hreach
  · next name position payload ht =>
    split at hvisit
    · cases hvisit
    · next b hb =>
      obtain ⟨v, hv, hb⟩ := Option.bind_eq_some_iff.1 hb
      exact .head (.payload ht hv hb) (reach_of_mem_walk b.type payload visit hvisit)
  · cases hvisit

theorem reach_of_mem_walkItems (element : TypeExpr) (items : List HostValue) :
    ∀ visit ∈ walkItems g element items,
      ∃ item ∈ items, ReflTransGen (Below g) (element, item) visit := by
  match items with
  | [] => exact nofun
  | item :: rest =>
    intro visit hvisit
    rcases List.mem_append.1 hvisit with hfirst | hlater
    · exact ⟨item, List.mem_cons_self .., reach_of_mem_walk element item visit hfirst⟩
    · obtain ⟨other, ho, hreach⟩ := reach_of_mem_walkItems element rest visit hlater
      exact ⟨other, List.mem_cons_of_mem _ ho, hreach⟩

theorem reach_of_mem_walkEntries (s : Abi.Struct) (entries : List (String × HostValue)) :
    ∀ visit ∈ walkEntries g s entries, ∃ key value, (key, value) ∈ entries ∧
      ∃ f, s.field? key = some f ∧ ReflTransGen (Below g) (f.type.expr, value) visit := by
  match entries with
  | [] => exact nofun
  | (key, value) :: rest =>
    intro visit hvisit
    unfold walkEntries at hvisit
    rcases List.mem_append.1 hvisit with hfirst | hlater
    · split at hfirst
      · cases hfirst
      · next f hf =>
        exact ⟨key, value, List.mem_cons_self .., f, hf,
          reach_of_mem_walk f.type.expr value visit hfirst⟩
    · obtain ⟨key', value', he, f, hf, hreach⟩ := reach_of_mem_walkEntries s rest visit hlater
      exact ⟨key', value', List.mem_cons_of_mem _ he, f, hf, hreach⟩

end

/-- A walk comes to what lies below and to nothing else. -/
theorem mem_walk_iff {visit : TypeExpr × HostValue} :
    visit ∈ walk g expr value ↔ ReflTransGen (Below g) (expr, value) visit := by
  refine ⟨reach_of_mem_walk expr value visit, fun h => ?_⟩
  generalize hstart : (expr, value) = start at h
  induction h using ReflTransGen.head_induction_on generalizing expr value with
  | refl =>
    subst hstart
    exact self_mem_walk
  | @head _ below hbelow _ ih =>
    subst hstart
    exact walk_subset_of_below hbelow (ih rfl)

/-- What a stray variant is refused for. -/
theorem isDiscriminant_of_stray? {visit : TypeExpr × HostValue} {fault : CallFault}
    (h : stray? g visit = some fault) : fault.IsDiscriminant := by
  unfold stray? at h
  split at h
  · split at h
    · obtain ⟨v, -, hv⟩ := Option.bind_eq_some_iff.1 h
      split at hv
      · cases hv
      · cases hv
        trivial
    · cases h
  · cases h

/-- A result is withheld for the first stray variant, if there is one. -/
theorem unlessStray_cases (visits : List (TypeExpr × HostValue)) (a : α) :
    unlessStray g visits a = .ok a ∧ (∀ visit ∈ visits, stray? g visit = none) ∨
      ∃ before visit after fault, visits = before ++ visit :: after ∧
        (∀ earlier ∈ before, stray? g earlier = none) ∧ stray? g visit = some fault ∧
        unlessStray g visits a = .error fault := by
  unfold unlessStray
  cases hfirst : visits.findSome? (stray? g) with
  | none => exact .inl ⟨rfl, List.findSome?_eq_none_iff.1 hfirst⟩
  | some fault =>
    obtain ⟨before, visit, after, hvisits, hfault, hbefore⟩ :=
      List.findSome?_eq_some_iff.1 hfirst
    exact .inr ⟨before, visit, after, fault, hvisits, hbefore, hfault, rfl⟩

/-- What a value reduces to is its wire form. -/
theorem eq_toWire_of_reduce {wire : Json} (h : reduce g expr value = .ok wire) :
    wire = value.toWire := by
  rw [reduce_eq_walk] at h
  rcases unlessStray_cases (walk g expr value) value.toWire with
    ⟨hok, -⟩ | ⟨_, _, _, _, -, -, -, he⟩
  · exact Except.ok.inj (h.symm.trans hok)
  · cases h.symm.trans he

/-- A value is refused for its variants alone. -/
theorem isDiscriminant_of_reduce {fault : CallFault} (h : reduce g expr value = .error fault) :
    fault.IsDiscriminant := by
  rw [reduce_eq_walk] at h
  rcases unlessStray_cases (walk g expr value) value.toWire with
    ⟨hok, -⟩ | ⟨_, _, _, _, -, -, hfault, he⟩
  · cases h.symm.trans hok
  · cases h.symm.trans he
    exact isDiscriminant_of_stray? hfault

/-- A value is refused exactly where its walk comes to a stray variant. -/
theorem exists_reduce_eq_error_iff : (∃ fault, reduce g expr value = .error fault) ↔
    ∃ visit ∈ walk g expr value, (stray? g visit).isSome = true := by
  rw [reduce_eq_walk]
  rcases unlessStray_cases (g := g) (walk g expr value) value.toWire with
    ⟨hok, hnone⟩ | ⟨before, visit, after, fault, hvisits, -, hfault, he⟩
  · refine iff_of_false (by simp [hok]) ?_
    rintro ⟨visit, hvisit, hstray⟩
    simp [hnone visit hvisit] at hstray
  · exact iff_of_true ⟨fault, he⟩ ⟨visit, by simp [hvisits], by simp [hfault]⟩

/-- A value reduces to its wire form where nothing below it is stray. -/
theorem reduce_of_forall_reach
    (h : ∀ visit, ReflTransGen (Below g) (expr, value) visit → stray? g visit = none) :
    reduce g expr value = .ok value.toWire := by
  rw [reduce_eq_walk]
  rcases unlessStray_cases (g := g) (walk g expr value) value.toWire with
    ⟨hok, -⟩ | ⟨before, visit, after, fault, hvisits, -, hfault, -⟩
  · exact hok
  · have hreach : ReflTransGen (Below g) (expr, value) visit :=
      mem_walk_iff.1 (by simp [hvisits])
    cases (h visit hreach).symm.trans hfault

end Reduction

/-- A value reduces to its wire form or is refused for a variant. It is refused exactly where a
stray variant lies below it, and for the first that the walk of the value comes to. -/
theorem reduce_eq_unlessStray (g : Abi.Graph) (expr : TypeExpr) (value : HostValue) :
    (reduce g expr value = .ok value.toWire ∨
      ∃ fault, fault.IsDiscriminant ∧ reduce g expr value = .error fault) ∧
    ((∃ fault, reduce g expr value = .error fault) ↔
      ∃ visit, ReflTransGen (Below g) (expr, value) visit ∧ (stray? g visit).isSome = true) ∧
    reduce g expr value = unlessStray g (walk g expr value) value.toWire ∧
    ∀ visit, visit ∈ walk g expr value ↔ ReflTransGen (Below g) (expr, value) visit := by
  refine ⟨?_, ?_, reduce_eq_walk expr value, fun _ => mem_walk_iff⟩
  · cases h : reduce g expr value with
    | ok wire => exact .inl (congrArg _ (eq_toWire_of_reduce h))
    | error fault => exact .inr ⟨fault, isDiscriminant_of_reduce h, rfl⟩
  · rw [exists_reduce_eq_error_iff]
    exact exists_congr fun _ => and_congr_left fun _ => mem_walk_iff

end Call

end ContractBinding
