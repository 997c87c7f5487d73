import RestTables.Config.Basic
import RestTables.Number.Literal
import RestTables.Text.Split

/-
Module: RestTables.Config.Environment
Purpose: Settings from named variables. A variable that is not set, or says nothing that can be understood,
  leaves the default.
Main exports: Config.ofVariables
-/

namespace RestTables.Config

/-- The words for on and off; any other word changes nothing. -/
def switch (word : Option String) (otherwise : Bool) : Bool :=
  match word with
  | none => otherwise
  | some s =>
    let s := Text.lowerText s
    if ["1", "true", "yes", "on"].contains s then true
    else if ["0", "false", "no", "off"].contains s then false
    else otherwise

/-- A limit; zero and the word none stand for no limit. -/
def limitOf (s : String) (otherwise : Option Nat) : Option Nat :=
  match Number.readNat? 64 s.toList with
  | some 0 => none
  | some n => some n
  | none => if Text.sameFold s "none" then none else otherwise

/-- Names between commas, without blanks around them and without empty ones. -/
def namesOf (s : String) : List String :=
  (((Text.split [','] s.toList).map Text.trim).filter (!·.isEmpty)).map String.ofList

/-- Settings from variables. -/
def ofVariables (lookup : String → Option String) : Config :=
  let read := fun name => lookup ("AUTOCRUD_" ++ name)
  let start : Config := {}
  { start with
    readOnly := switch (read "READ_ONLY") start.readOnly
    fetchEnabled := switch (read "FETCH_ENABLED") start.fetchEnabled
    exportEnabled := switch (read "EXPORT_ENABLED") start.exportEnabled
    metadataEnabled := switch (read "METADATA_ENABLED") start.metadataEnabled
    resourcesUrlEnabled := switch (read "RESOURCES_URL_ENABLED") start.resourcesUrlEnabled
    conditionalRequestEnabled :=
      switch (read "CONDITIONAL_REQUEST_ENABLED") start.conditionalRequestEnabled
    queryStringFiltersEnabled :=
      switch (read "QUERY_STRING_FILTERS_ENABLED") start.queryStringFiltersEnabled
    baseUrl := ((read "BASE_URL").map fun s => String.ofList (Text.trimEndOf '/' s.toList)).getD start.baseUrl
    resourcesUrl := (read "RESOURCES_URL").getD start.resourcesUrl
    metadataUrl := (read "METADATA_URL").getD start.metadataUrl
    maxLimit :=
      match read "MAX_LIMIT" with
      | some s => limitOf s start.maxLimit
      | none => start.maxLimit
    join := ((read "JOIN").bind Join.read?).getD start.join
    schema := (read "DATABASE_SCHEMA").orElse fun _ => start.schema
    excludeTables := ((read "EXCLUDE_TABLES").map namesOf).getD start.excludeTables
    csvDelimiter := ((read "CSV_DELIMITER").bind fun s => s.toList.head?).getD start.csvDelimiter }

example : (ofVariables fun n => if n = "AUTOCRUD_MAX_LIMIT" then some "0" else none).maxLimit = none := by
  decide +kernel

end RestTables.Config
