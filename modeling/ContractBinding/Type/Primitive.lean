/-!
# Built-in types

The types that every contract can use without declaring them. A built-in type has one class,
which alone decides its form in generated code and whether a table row holds a richer value
than the chain sends.
-/

namespace ContractBinding

/-- A built-in type. -/
inductive Primitive where
  | string | bytes | checksum | checksum160 | checksum256 | checksum512 | symbol
  | symbolCode | publicKey | signature | bool | name | actionName | scopeName | accountName
  | permissionName | tableName | int8 | int16 | int32 | uint8 | uint16 | uint32 | uint8T
  | uint16T | uint32T | varint32 | varuint32 | int64 | int128 | int256 | uint64 | uint128
  | uint256 | uint64T | uint128T | uint256T | float32 | float64 | float128 | asset
  | extendedAsset | extendedSymbol | timePointSec | timePoint | blockTimestampType
  deriving DecidableEq, Repr

/-- The built-in types whose values are richer on the host than on the wire. -/
inductive Reinterpretation where
  /-- `0` or `1` on the wire, a truth value on the host. -/
  | bool
  /-- A text without offset on the wire, a moment on the host. -/
  | timePointSec
  /-- A text on the wire, a token amount on the host. -/
  | asset
  deriving DecidableEq, Repr

/-- How a built-in type is represented on the host. -/
inductive HostClass where
  | text
  | nameLike
  /-- A number that a double holds without loss. -/
  | smallNumber
  /-- A number of 64 bits or more, which may be given as text. -/
  | wideNumber
  | extendedAsset
  | extendedSymbol
  | reinterpreted (kind : Reinterpretation)
  deriving DecidableEq, Repr

namespace Reinterpretation

/-- Every kind. -/
def all : List Reinterpretation := [.bool, .timePointSec, .asset]

/-- The type of the host value in generated code. -/
def hostType : Reinterpretation → String
  | .bool => "boolean"
  | .timePointSec => "Date"
  | .asset => "Asset"

end Reinterpretation

namespace Primitive

/-- Every built-in type. -/
def all : List Primitive :=
  [.string, .bytes, .checksum, .checksum160, .checksum256, .checksum512, .symbol, .symbolCode,
   .publicKey, .signature, .bool, .name, .actionName, .scopeName, .accountName, .permissionName,
   .tableName, .int8, .int16, .int32, .uint8, .uint16, .uint32, .uint8T, .uint16T, .uint32T,
   .varint32, .varuint32, .int64, .int128, .int256, .uint64, .uint128, .uint256, .uint64T,
   .uint128T, .uint256T, .float32, .float64, .float128, .asset, .extendedAsset, .extendedSymbol,
   .timePointSec, .timePoint, .blockTimestampType]

/-- The name of a built-in type in a contract. -/
def abiName : Primitive → String
  | .string => "string"
  | .bytes => "bytes"
  | .checksum => "checksum"
  | .checksum160 => "checksum160"
  | .checksum256 => "checksum256"
  | .checksum512 => "checksum512"
  | .symbol => "symbol"
  | .symbolCode => "symbol_code"
  | .publicKey => "public_key"
  | .signature => "signature"
  | .bool => "bool"
  | .name => "name"
  | .actionName => "action_name"
  | .scopeName => "scope_name"
  | .accountName => "account_name"
  | .permissionName => "permission_name"
  | .tableName => "table_name"
  | .int8 => "int8"
  | .int16 => "int16"
  | .int32 => "int32"
  | .uint8 => "uint8"
  | .uint16 => "uint16"
  | .uint32 => "uint32"
  | .uint8T => "uint8_t"
  | .uint16T => "uint16_t"
  | .uint32T => "uint32_t"
  | .varint32 => "varint32"
  | .varuint32 => "varuint32"
  | .int64 => "int64"
  | .int128 => "int128"
  | .int256 => "int256"
  | .uint64 => "uint64"
  | .uint128 => "uint128"
  | .uint256 => "uint256"
  | .uint64T => "uint64_t"
  | .uint128T => "uint128_t"
  | .uint256T => "uint256_t"
  | .float32 => "float32"
  | .float64 => "float64"
  | .float128 => "float128"
  | .asset => "asset"
  | .extendedAsset => "extended_asset"
  | .extendedSymbol => "extended_symbol"
  | .timePointSec => "time_point_sec"
  | .timePoint => "time_point"
  | .blockTimestampType => "block_timestamp_type"

/-- The built-in type of a name. -/
def ofName? (name : String) : Option Primitive := all.find? fun p => p.abiName = name

/-- The class of a built-in type. -/
def hostClass : Primitive → HostClass
  | .string | .bytes | .checksum | .checksum160 | .checksum256 | .checksum512 | .symbol
  | .symbolCode | .publicKey | .signature | .float128 | .timePoint | .blockTimestampType => .text
  | .name | .actionName | .scopeName | .accountName | .permissionName | .tableName => .nameLike
  | .int8 | .int16 | .int32 | .uint8 | .uint16 | .uint32 | .uint8T | .uint16T | .uint32T
  | .varint32 | .varuint32 | .float32 | .float64 => .smallNumber
  | .int64 | .int128 | .int256 | .uint64 | .uint128 | .uint256 | .uint64T | .uint128T
  | .uint256T => .wideNumber
  | .extendedAsset => .extendedAsset
  | .extendedSymbol => .extendedSymbol
  | .bool => .reinterpreted .bool
  | .timePointSec => .reinterpreted .timePointSec
  | .asset => .reinterpreted .asset

/-- The kind of richer value, if the type has one. -/
def reinterpretation? (p : Primitive) : Option Reinterpretation :=
  match p.hostClass with
  | .reinterpreted kind => some kind
  | _ => none

/-- The type of the host value in generated code. -/
def hostType (p : Primitive) : String :=
  match p.hostClass with
  | .text => "string"
  | .nameLike => "string|number"
  | .smallNumber => "number"
  | .wideNumber => "number|string"
  | .extendedAsset => "ExtendedAsset"
  | .extendedSymbol => "ExtendedSymbol"
  | .reinterpreted kind => kind.hostType

/-- A name reads back the type it belongs to. -/
theorem ofName?_abiName (p : Primitive) : ofName? p.abiName = some p := by cases p <;> decide

/-- Only a type's own name reads as that type. -/
theorem abiName_of_ofName? {name : String} {p : Primitive} (h : ofName? name = some p) :
    p.abiName = name := by
  simpa using List.find?_some h

end Primitive

end ContractBinding
