import ContractBinding.Account.Basic
import ContractBinding.Time.Moment
import ContractBinding.Token.Asset

/-!
# Host values

A host value is what a caller passes to an action and what a table row holds after it has been
read: values of the wire as they are, and the richer values that built-in types and variants
have. Every host value has a wire form.
-/

namespace ContractBinding

/-- A value of the host. -/
inductive HostValue where
  /-- A value of the wire, passed on as it is. -/
  | wire (value : Json)
  | bool (value : Bool)
  | moment (value : Time.Moment)
  | asset (value : Token.Asset)
  /-- On the wire an account is its name. -/
  | account (value : Account)
  | array (items : List HostValue)
  /-- The entries are in key order. -/
  | struct (entries : List (String × HostValue))
  /-- A branch of a variant by its position; on the wire a pair. -/
  | variant (branch : Nat) (value : HostValue)
  deriving Repr

namespace HostValue

instance : Inhabited HostValue := ⟨.wire .null⟩

mutual

/-- The wire form of a value. -/
def toWire : HostValue → Json
  | .wire value => value
  | .bool value => .bool value
  | .moment value => .text value.text
  | .asset value => .text value.text
  | .account value => .text value.name
  | .array items => .array (itemsToWire items)
  | .struct entries => .object (entriesToWire entries)
  | .variant branch value => .array [.int branch, value.toWire]

/-- The wire forms of the items. -/
def itemsToWire : List HostValue → List Json
  | [] => []
  | item :: rest => item.toWire :: itemsToWire rest

/-- The entries with their wire forms. -/
def entriesToWire : List (String × HostValue) → List (String × Json)
  | [] => []
  | (key, value) :: rest => (key, value.toWire) :: entriesToWire rest

end

theorem itemsToWire_eq_map (items : List HostValue) : itemsToWire items = items.map toWire := by
  induction items with
  | nil => rfl
  | cons item rest ih => rw [itemsToWire, ih, List.map_cons]

theorem entriesToWire_eq_map (entries : List (String × HostValue)) :
    entriesToWire entries = entries.map fun e => (e.1, e.2.toWire) := by
  induction entries with
  | nil => rfl
  | cons e rest ih => rw [entriesToWire, ih, List.map_cons]

end HostValue

end ContractBinding
