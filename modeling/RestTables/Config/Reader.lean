import RestTables.Config.Basic
import RestTables.Json.Document

/-
Module: RestTables.Config.Reader
Purpose: Settings from JSON text. Settings that are not given keep their defaults, and names that are not
  settings are passed over.
Main exports: Config.parse
-/

namespace RestTables.Config

open Json Json.Reader

/-- A string, as a value that has been read. -/
def textOf : Json → Except Cause String
  | .str s => .ok s
  | v => .error (.wrongType (Found.of v) "a string")

/-- A list of strings, as a value that has been read. -/
def textsOf : Json → Except Cause (List String)
  | .arr items => items.mapM textOf
  | v => .error (.wrongType (Found.of v) "a sequence")

/-- One name or a list of names; the value may nest `depth` deep. -/
def oneOrMany (depth : Nat) : Reader (List String) := do
  let v ← plainValue depth
  match textOf v, textsOf v with
  | .ok one, _ => return [one]
  | _, .ok many => return many
  | .error one, .error many => failSomewhere (.neitherOneNorMany one many)

/-- How settings are read, in the order in which a list of them is understood. -/
def record : RecordReader Config :=
  { name := "struct AutoCrudConfig"
    isClosed := false
    fields :=
      [.of "base_url" (text "a string") (fun v c => { c with baseUrl := v }) true,
       .of "resources_url" (text "a string") (fun v c => { c with resourcesUrl := v }) true,
       .of "resources_url_enabled" flag (fun v c => { c with resourcesUrlEnabled := v }) true,
       .of "metadata_url" (text "a string") (fun v c => { c with metadataUrl := v }) true,
       .of "metadata_enabled" flag (fun v c => { c with metadataEnabled := v }) true,
       .of "read_only" flag (fun v c => { c with readOnly := v }) true,
       .of "fetch_enabled" flag (fun v c => { c with fetchEnabled := v }) true,
       .of "export_enabled" flag (fun v c => { c with exportEnabled := v }) true,
       .of "conditional_request_enabled" flag (fun v c => { c with conditionalRequestEnabled := v }) true,
       .of "query_string_filters_enabled" flag (fun v c => { c with queryStringFiltersEnabled := v }) true,
       .of "max_limit" (optional natural) (fun v c => { c with maxLimit := v }) true,
       .of "join" (choice (["outer", "inner"].zip [Join.outer, Join.inner]))
         (fun v c => { c with join := v }) true,
       .of "schema" (optional (text "a string")) (fun v c => { c with schema := v }) true,
       .of "exclude_tables" (oneOrMany (depthLimit - 1)) (fun v c => { c with excludeTables := v }) true,
       .of "csv_delimiter" character (fun v c => { c with csvDelimiter := v }) true] }

/-- Settings from JSON text. -/
def parse (bytes : List UInt8) : Except Failure Config :=
  document (record.read {} .ok) bytes

end RestTables.Config
