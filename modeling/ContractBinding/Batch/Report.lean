import ContractBinding.Disk.FilePath
import ContractBinding.Json.Printer

/-!
# Batch reports

A batch reports what became of every file, as lines of text or as JSON. One failure makes the
batch fail, but stops none of the others.
-/

namespace ContractBinding.Batch

/-- What became of a file. -/
inductive Status where
  | written
  | unchanged
  | drift
  | failed
  deriving DecidableEq, Repr

namespace Status

/-- The word in a text report. -/
def word : Status → String
  | .written => "wrote"
  | .unchanged => "ok"
  | .drift => "drift"
  | .failed => "FAILED"

/-- The word in a JSON report. -/
def key : Status → String
  | .written => "written"
  | .unchanged => "unchanged"
  | .drift => "drift"
  | .failed => "failed"

/-- Whether a file counts as failed. -/
def isFailure : Status → Bool
  | .drift | .failed => true
  | .written | .unchanged => false

end Status

/-- What is reported of a file. -/
structure Entry where
  /-- The path from the root. -/
  abi : String
  out : Disk.FilePath
  contract : String
  status : Status
  error : Option String
  deriving DecidableEq, Repr

namespace Entry

/-- One line, and a second one if something went wrong. -/
def text (e : Entry) : String :=
  let word := e.status.word
  word ++ String.ofList (List.replicate (7 - word.length) ' ') ++ e.abi ++ " -> " ++
    e.out.text ++ "\n" ++ (e.error.map fun error => "  -> " ++ error ++ "\n").getD ""

/-- The entry in JSON, its keys in the order in which they are shown. -/
def json (e : Entry) : Json :=
  .object <|
    [ ("abi", .text e.abi),
      ("out", .text e.out.text),
      ("contract_name", .text e.contract),
      ("status", .text e.status.key) ] ++
    (e.error.map fun error => ("error", Json.text error)).toList

end Entry

/-- The version of the JSON report. -/
def reportVersion : String := "abibridge.batch.report@0.1.0"

/-- The report of a batch. -/
structure Report where
  check : Bool
  /-- In the order of the relative paths. -/
  entries : List Entry
  deriving DecidableEq, Repr

namespace Report

/-- The number of failed files. -/
def failed (r : Report) : Nat := r.entries.countP fun e => e.status.isFailure

/-- Whether nothing failed. -/
def ok (r : Report) : Bool := r.failed = 0

/-- The report as text. -/
def text (r : Report) : String := String.join (r.entries.map Entry.text)

/-- The report in JSON, its keys in the order in which they are shown. -/
def json (r : Report) : Json :=
  .object
    [ ("schema_version", .text reportVersion),
      ("ok", .bool r.ok),
      ("check", .bool r.check),
      ("failed", .int r.failed),
      ("entries", .array (r.entries.map Entry.json)) ]

/-- The lines of the JSON report. -/
def jsonText (r : Report) : String := r.json.pretty ++ "\n"

end Report

end ContractBinding.Batch
