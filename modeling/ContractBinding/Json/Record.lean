import ContractBinding.Json.Written

/-!
# Records in JSON

A record has known keys in a fixed order. It is written as an object, in which a known key may
stand once and unknown keys do not count, or as a list of the values in order, from which values
may be missing at the end. Either way every known key gets a slot that is filled or empty.
-/

namespace ContractBinding.Json

universe u v

variable {α : Type u} {β : Type v}

/-- Why a text is no record. -/
inductive ReadFault where
  | notJson
  | notTheRecord
  deriving DecidableEq, Repr

/-- The reason in words. -/
def ReadFault.message : ReadFault → String
  | .notJson => "the text is not JSON"
  | .notTheRecord => "the value does not have the expected shape"

namespace Slot

/-- The slot of a key; none where the key stands twice. -/
def ofEntries? (entries : List (String × α)) (key : String) : Option (Option α) :=
  match entries.filter fun e => e.1 = key with
  | [] => some none
  | [(_, value)] => some (some value)
  | _ => none

/-- The slots of the known keys of an object. -/
def allOfEntries? (known : List String) (entries : List (String × α)) :
    Option (List (Option α)) :=
  known.mapM (ofEntries? entries)

/-- The slots of a list of values. -/
def allOfItems? (known : List String) (items : List α) : Option (List (Option α)) :=
  if known.length < items.length then none
  else some (items.map some ++ List.replicate (known.length - items.length) none)

/-- The value of a slot that has to be filled. -/
def required (decode : α → Option β) (slot : Option α) : Option β := slot.bind decode

/-- The value of a slot that may be empty. -/
def withDefault (default : β) (decode : α → Option β) : Option α → Option β
  | none => some default
  | some value => decode value

end Slot

/-- The slots of a record among values. -/
def slots? (known : List String) : Json → Option (List (Option Json))
  | .object entries => Slot.allOfEntries? known entries
  | .array items => Slot.allOfItems? known items
  | _ => none

/-- A value that may be null. -/
def nullable (decode : Json → Option β) : Json → Option (Option β)
  | .null => some none
  | value => (decode value).map some

def bool? : Json → Option Bool
  | .bool b => some b
  | _ => none

/-- The items of a list, each of them decoded. -/
def list? (decode : Json → Option β) : Json → Option (List β)
  | .array items => items.mapM decode
  | _ => none

namespace Written

/-- The slots of a record in a text; in a closed record no other key may stand. -/
def slots? (known : List String) (closed : Bool) : Written → Option (List (Option Written))
  | .object entries => do
    let entries ← entries.mapM fun (key, value) => key.map (·, value)
    if closed && entries.any (fun e => !known.contains e.1) then none
    else Slot.allOfEntries? known entries
  | .array items => Slot.allOfItems? known items
  | _ => none

/-- A value that may be null. -/
def nullable (decode : Written → Option β) : Written → Option (Option β)
  | .null => some none
  | value => (decode value).map some

def text? : Written → Option String
  | .text content => content
  | _ => none

def bool? : Written → Option Bool
  | .bool b => some b
  | _ => none

/-- The items of a list, each of them decoded. -/
def list? (decode : Written → Option β) : Written → Option (List β)
  | .array items => items.mapM decode
  | _ => none

/-- Read a text and decode its tree. -/
def decodeText (decode : Written → Option β) (s : String) : Except ReadFault β :=
  match read? s with
  | none => .error .notJson
  | some tree => match decode tree with
    | none => .error .notTheRecord
    | some value => .ok value

end Written

end ContractBinding.Json
