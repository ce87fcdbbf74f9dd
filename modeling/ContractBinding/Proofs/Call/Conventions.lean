import ContractBinding.Proofs.Abi.Faithful
import ContractBinding.Proofs.Call.FieldData

/-!
# The two calling conventions

An action takes the values of its fields in order or under their names. Both ways lead to the
same data, or to refusals of the same kind at the same field.
-/

namespace ContractBinding.Call

open Abi (Action Field Graph)

variable {doc : Abi.Document} {g : Graph} {action : Action}
  {values : List (String × HostValue)} {slots : List (Option HostValue)}

/-- Arguments in order give each field what the values have under its name. -/
theorem positionalData_of_inOrder {dropped : Nat}
    (hslots : slots ++ List.replicate dropped none =
      action.fields.map fun f => values.lookup f.name)
    (hleast : action.requiredArity ≤ slots.length) :
    positionalData g action slots =
      (action.fields.mapM fun f => fieldEntry g action .emptySlot f (values.lookup f.name)).map
        fun entries => Keyed.ofList entries.reduceOption := by
  have hlength : slots.length + dropped = action.fields.length := by
    simpa using congrArg List.length hslots
  have hpad : action.fields.length - slots.length = dropped := by omega
  rw [positionalData_eq hleast (by omega), hpad, hslots, ← List.map_prod_left_eq_zip,
    List.mapM_map]
  rfl

/-- An object gives each field the value under its name, and may have no other. -/
theorem objectData_of_declared (hd : (action.fields.map Field.name).Nodup)
    (hdeclared : ∀ e ∈ values, e.1 ∈ action.fields.map Field.name) :
    objectData g action values =
      (action.fields.mapM fun f =>
        fieldEntry g action .missingField f (values.lookup f.name)).map
        fun entries => Keyed.ofList entries.reduceOption := by
  have hleft : values.filter (fun e => e.1 ∉ action.fields.map Field.name) = [] := by
    rw [List.filter_eq_nil_iff]
    intro e he
    simpa using hdeclared e he
  rw [objectData_eq hd, hleft]
  rfl

/-- Two faults are of one kind: no or no right value for a field, or the same unknown branch. -/
def SameKind (a b : CallFault) : Prop := (a.IsArity ∧ b.IsArity) ∨ (a.IsDiscriminant ∧ a = b)

/-- A field that one convention refuses is refused by the other, in its own words where the value
is missing. -/
theorem Refused.alike {missing : String → Mismatch} {f : Field} {slot : Option HostValue}
    {fault : CallFault} (h : Refused g action missing f slot fault)
    (words : String → Mismatch) :
    ∃ other, Refused g action words f slot other ∧ SameKind fault other := by
  cases h with
  | value h hd => exact ⟨fault, .value h hd, .inr ⟨hd, rfl⟩⟩
  | missing he ho => exact ⟨_, .missing he ho, .inl ⟨trivial, trivial⟩⟩

/-- The two conventions come to one end: the same data, or a refusal at the same field. -/
inductive Agree (g : Graph) (action : Action) (values : List (String × HostValue))
    (slots : List (Option HostValue)) : Prop where
  | data {data : List (String × Json)}
    (hp : positionalData g action slots = .ok data)
    (ho : objectData g action values = .ok data)
    (hc : Carries g action.fields (fun f => values.lookup f.name) data)
  | fault {before after : List Field} {f : Field} {positional object : CallFault}
    (hp : positionalData g action slots = .error positional)
    (ho : objectData g action values = .error object)
    (hk : SameKind positional object)
    -- The field is the first that cannot be sent.
    (hf : action.fields = before ++ f :: after)
    (hb : ∀ earlier ∈ before, ∃ wire, Sent g earlier (values.lookup earlier.name) wire)
    (hrp : Refused g action .emptySlot f (values.lookup f.name) positional)
    (hro : Refused g action .missingField f (values.lookup f.name) object)

/-- An action takes values for its fields in order, with empty slots at the end left away as far as
the least number of arguments allows, as it takes them under their names. -/
theorem conventions_agree (hg : Abi.resolve doc = .ok g) (ha : action ∈ g.actions)
    (hdeclared : ∀ e ∈ values, e.1 ∈ action.fields.map Field.name) {dropped : Nat}
    (hslots : slots ++ List.replicate dropped none =
      action.fields.map fun f => values.lookup f.name)
    (hleast : action.requiredArity ≤ slots.length) : Agree g action values slots := by
  have hd := (Abi.resolve_eq_ok_iff.1 hg).actionFields_distinct ha
  have hp := positionalData_of_inOrder (g := g) hslots hleast
  have ho := objectData_of_declared (g := g) hd hdeclared
  cases h : action.fields.mapM fun f =>
      fieldEntry g action .emptySlot f (values.lookup f.name) with
  | ok entries =>
    have hobject : (action.fields.mapM fun f =>
        fieldEntry g action .missingField f (values.lookup f.name)) = .ok entries := by
      simpa only [Outcome.mapM_eq_ok_iff, fieldEntry_eq_ok_iff] using h
    rw [h] at hp
    rw [hobject] at ho
    exact .data hp ho (carries_ofList hd h)
  | error fault =>
    obtain ⟨before, f, after, hf, hbefore, hfault⟩ := Outcome.mapM_eq_error_iff.1 h
    have hr := fieldEntry_eq_error_iff.1 hfault
    obtain ⟨other, hro, hk⟩ := hr.alike .missingField
    have hb : ∀ earlier ∈ before, ∃ wire, Sent g earlier (values.lookup earlier.name) wire := by
      intro earlier he
      obtain ⟨entry, hentry⟩ := hbefore earlier he
      obtain ⟨wire, hs, -⟩ := fieldEntry_eq_ok_iff.1 hentry
      exact ⟨wire, hs⟩
    have hobject : (action.fields.mapM fun f =>
        fieldEntry g action .missingField f (values.lookup f.name)) = .error other := by
      refine Outcome.mapM_eq_error_iff.2 ⟨before, f, after, hf, ?_, fieldEntry_of_refused hro⟩
      intro earlier he
      obtain ⟨wire, hs⟩ := hb earlier he
      exact ⟨_, fieldEntry_of_sent hs⟩
    rw [h] at hp
    rw [hobject] at ho
    exact .fault hp ho hk hf hb hr hro

/-- The action of the membership contract. -/
def join : Action :=
  ⟨"join", "member",
    [⟨"on", ⟨.named "flags", false, false⟩, "entry"⟩,
     ⟨"joined", ⟨.primitive .timePointSec, false, true⟩, "member"⟩,
     ⟨"prize", ⟨.named "reward", true, false⟩, "member"⟩], ""⟩

theorem join_conventions_agree :
    Abi.resolve Abi.membership = .ok Abi.membershipGraph ∧
      join ∈ Abi.membershipGraph.actions ∧
      Agree Abi.membershipGraph join [("on", .array [.bool true])]
        [some (.array [.bool true]), none] := by
  have hjoin : join ∈ Abi.membershipGraph.actions := by decide
  have hslots : [some (.array [.bool true]), none] ++ List.replicate 1 none =
      join.fields.map fun f => [("on", HostValue.array [.bool true])].lookup f.name := rfl
  refine ⟨Abi.resolve_membership, hjoin, ?_⟩
  exact conventions_agree Abi.resolve_membership hjoin (by simp [join]) hslots (by decide)

example : positionalData Abi.membershipGraph join [some (.array [.bool true]), none] =
    .ok [("joined", .null), ("on", .array [.bool true])] := by rfl

end ContractBinding.Call
