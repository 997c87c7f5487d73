import RestTables.Json.Basic
import RestTables.Text.Hex
import RestTables.Text.Utf8

/-
Module: RestTables.Json.Printer
Purpose: JSON text without spaces. Strings escape the quote, the backslash and the controls; everything
  else stands as it is.
Main exports: Json.render, Json.text, Json.bytes
-/

namespace RestTables.Json

open Text

/-- One character of a string. -/
def escape (c : Char) : List Char :=
  match c with
  | '"' => ['\\', '"']
  | '\\' => ['\\', '\\']
  | '\x08' => ['\\', 'b']
  | '\x0c' => ['\\', 'f']
  | '\n' => ['\\', 'n']
  | '\r' => ['\\', 'r']
  | '\t' => ['\\', 't']
  | c =>
    if c.toNat < 32 then
      ['\\', 'u', '0', '0', Hex.digit (c.toNat / 16), Hex.digit (c.toNat % 16)]
    else [c]

/-- A string between its quotes. -/
def renderString (s : String) : List Char := '"' :: s.toList.flatMap escape ++ ['"']

/-- The text of a number. -/
def Number.text : Number → String
  | .int n => toString n
  | .float x => x.text?.getD "null"

mutual

/-- A value as characters. -/
def render : Json → List Char
  | .null => "null".toList
  | .bool true => "true".toList
  | .bool false => "false".toList
  | .num n => n.text.toList
  | .str s => renderString s
  | .arr items => '[' :: renderItems items ++ [']']
  | .obj members => '{' :: renderMembers members ++ ['}']

/-- Items with commas between them. -/
def renderItems : List Json → List Char
  | [] => []
  | [v] => render v
  | v :: rest => render v ++ ',' :: renderItems rest

/-- Members with commas between them. -/
def renderMembers : List (String × Json) → List Char
  | [] => []
  | [(k, v)] => renderString k ++ ':' :: render v
  | (k, v) :: rest => renderString k ++ ':' :: render v ++ ',' :: renderMembers rest

end

/-- The text of a value. -/
def text (v : Json) : String := String.ofList v.render

/-- The text of a value in bytes. -/
def bytes (v : Json) : List UInt8 := Utf8.encode v.render

example : (arr [null, bool true, nat 5, str "a\"\n"]).text = "[null,true,5,\"a\\\"\\n\"]" := by decide +kernel
example : (obj [("k", float (Binary64.ofInt 1)), ("l", obj [])]).text = "\x7b\"k\":1.0,\"l\":\x7b\x7d\x7d" := by
  decide +kernel

end RestTables.Json
