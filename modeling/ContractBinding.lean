import ContractBinding.Call.Handle
import ContractBinding.Disk.Tree
import ContractBinding.Main
import ContractBinding.Token.Extended
import ContractBinding.Proofs.Abi.Names
import ContractBinding.Proofs.Text.Trim
import ContractBinding.Proofs.Type.Grammar
import ContractBinding.Proofs.Type.Marks
import ContractBinding.Proofs.Type.Spelling
import ContractBinding.Proofs.Type.Token
import ContractBinding.Proofs.Abi.Tokens
import ContractBinding.Proofs.Abi.Aliases
import ContractBinding.Proofs.Abi.Bases
import ContractBinding.Proofs.Abi.Resolution
import ContractBinding.Proofs.Abi.Phases
import ContractBinding.Proofs.Abi.Acceptance
import ContractBinding.Proofs.Abi.Meaning
import ContractBinding.Proofs.Abi.Faithful
import ContractBinding.Proofs.Abi.Flattening
import ContractBinding.Proofs.Abi.Descent
import ContractBinding.Proofs.Abi.Finiteness
import ContractBinding.Proofs.Abi.Chain
import ContractBinding.Proofs.Table.Search
import ContractBinding.Proofs.Table.Rich
import ContractBinding.Proofs.Table.Finiteness
import ContractBinding.Proofs.Json.Part
import ContractBinding.Proofs.Json.Outline
import ContractBinding.Proofs.Table.Reading
import ContractBinding.Proofs.Table.Shape
import ContractBinding.Proofs.Text.Digits
import ContractBinding.Proofs.Token.Written
import ContractBinding.Proofs.Token.Reading
import ContractBinding.Proofs.Token.AssetText
import ContractBinding.Proofs.Token.Arithmetic
import ContractBinding.Proofs.Time.MomentText
import ContractBinding.Proofs.Table.RoundTrip
import ContractBinding.Proofs.Table.Rows
import ContractBinding.Proofs.Table.Conformance
import ContractBinding.Proofs.Table.Tags
import ContractBinding.Proofs.Table.Culprit
import ContractBinding.Proofs.Table.Frame
import ContractBinding.Proofs.Table.WireView
import ContractBinding.Proofs.Table.Misreading
import ContractBinding.Proofs.Call.Reduction
import ContractBinding.Proofs.Call.FieldData
import ContractBinding.Proofs.Call.Conventions
import ContractBinding.Proofs.Call.Acceptance
import ContractBinding.Proofs.Name.Identifier
import ContractBinding.Proofs.Name.Casing
import ContractBinding.Proofs.Name.Lexeme
import ContractBinding.Proofs.Name.Composition
import ContractBinding.Proofs.Name.Key
import ContractBinding.Proofs.Name.Parameters
import ContractBinding.Proofs.Binding.Signature
import ContractBinding.Proofs.Binding.ParameterOrder
import ContractBinding.Proofs.Call.Dispatch
import ContractBinding.Proofs.Call.Session
import ContractBinding.Proofs.Binding.Exports
import ContractBinding.Proofs.Binding.Heritage
import ContractBinding.Proofs.Binding.Pairs
import ContractBinding.Proofs.Binding.PairText
import ContractBinding.Proofs.Binding.Lexemes
import ContractBinding.Proofs.Binding.Keys
import ContractBinding.Proofs.Usage.Middle
import ContractBinding.Proofs.Usage.Summary
import ContractBinding.Proofs.Batch.Rerun
import ContractBinding.Proofs.Batch.Isolation
