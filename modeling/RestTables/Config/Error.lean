import RestTables.Storage.Error

/-
Module: RestTables.Config.Error
Purpose: Why a set of resources cannot be assembled.
Main exports: ConfigError, ConfigError.message
-/

namespace RestTables

/-- What is wrong with the declarations, or with the catalog they were to come from. -/
inductive ConfigError where
  | missingPrimaryKey (model : String)
  | duplicateField (model field : String)
  | duplicateModel (model : String)
  | duplicateUrl (url first second : String)
  | unknownModel (model relation target : String)
  | unknownKey (model relation column : String)
  | unsupportedBackend (backend : String)
  | storage (cause : StorageError)
deriving Repr, DecidableEq

namespace ConfigError

/-- The error in words. -/
def message : ConfigError → String
  | missingPrimaryKey model => s!"model '{model}' declares no primary key"
  | duplicateField model field => s!"model '{model}' declares field '{field}' more than once"
  | duplicateModel model => s!"model '{model}' is registered more than once"
  | duplicateUrl url first second => s!"url '{url}' is used by both '{first}' and '{second}'"
  | unknownModel model relation target =>
    s!"relation '{relation}' on '{model}' targets unknown model '{target}'"
  | unknownKey model relation column =>
    s!"relation '{relation}' on '{model}' uses unknown key column '{column}'"
  | unsupportedBackend backend => s!"schema reflection is not supported for {backend}"
  | storage cause => "database error during reflection: " ++ cause.message

end ConfigError

end RestTables
