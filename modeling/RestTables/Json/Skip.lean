import RestTables.Json.Parser

/-
Module: RestTables.Json.Skip
Purpose: Passing over a value without keeping it. Strings are not checked for their characters, numbers not
  for their range, and values may nest as deep as they like.
Main exports: Reader.skipValue
-/

namespace RestTables.Json.Reader

/-- Passes over an escape, behind its backslash. -/
def skipEscape : Reader Unit := do
  match ← next with
  | none => fail .endInString
  | some 117 => discard fourHexDigits
  | some b => if (simpleEscape? b).isSome then pure () else fail .invalidEscape

/-- Passes over a string up to its closing quote; `fuel` bounds it. -/
def skipStringFrom : (fuel : Nat) → Reader Unit
  | 0 => fail .endInString
  | fuel + 1 => do
    match ← peek with
    | none => fail .endInString
    | some b =>
      if b = 34 then skip
      else if b = 92 then
        skip
        skipEscape
        skipStringFrom fuel
      else if b < 32 then fail .controlCharacter
      else
        skip
        skipStringFrom fuel

/-- Passes over a string, from its opening quote. -/
def skipString : Reader Unit := do
  skip
  skipStringFrom ((← remaining) + 1)

/-- Passes over the rest of a number from its exponent mark on. -/
def skipExponent : Reader Unit := do
  skip
  let sign ← peek
  if sign = some 43 ∨ sign = some 45 then skip
  match ← next with
  | some b => if isDigit b then discard digits else fail .invalidNumber
  | none => fail .invalidNumber

/-- Passes over what follows the whole part of a number. -/
def skipNumberEnd : Reader Unit := do
  match ← peek with
  | some 46 =>
    skip
    if (← digits).isEmpty then failAhead .invalidNumber
    let mark ← peek
    if mark = some 101 ∨ mark = some 69 then skipExponent
  | some 101 => skipExponent
  | some 69 => skipExponent
  | _ => pure ()

/-- Passes over a number, behind its sign. -/
def skipUnsigned : Reader Unit := do
  match ← next with
  | some 48 =>
    match ← peek with
    | some b => if isDigit b then failAhead .invalidNumber else skipNumberEnd
    | none => skipNumberEnd
  | some b =>
    if isDigit b then
      discard digits
      skipNumberEnd
    else fail .invalidNumber
  | none => fail .invalidNumber

/-- What a value lies in. -/
inductive Bracket where
  | list
  | object
deriving Repr, DecidableEq

/-- The byte that closes a bracket. -/
def Bracket.close : Bracket → UInt8
  | .list => 93
  | .object => 125

/-- The text ends inside a bracket. -/
def Bracket.unclosed : Bracket → Cause
  | .list => .endInList
  | .object => .endInObject

/-- Something else than a comma follows a value. -/
def Bracket.unseparated : Bracket → Cause
  | .list => .expectedListCommaOrEnd
  | .object => .expectedObjectCommaOrEnd

/-- Passes over a key and its colon. -/
def skipKey : Reader Unit := do
  match ← blanks with
  | none => failAhead .endInObject
  | some b =>
    if b = 34 then
      skipString
      colon
    else failAhead .keyMustBeString

/-- A value or the bracket that opens it; true when a value was passed over as a whole. -/
def skipOpening : Reader (Option Bracket) := do
  match ← blanks with
  | none => failAhead .endInValue
  | some b =>
    if b = 91 then
      skip
      return some .list
    else if b = 123 then
      skip
      return some .object
    else
      if b = 110 then
        skip
        literal [117, 108, 108]
      else if b = 116 then
        skip
        literal [114, 117, 101]
      else if b = 102 then
        skip
        literal [97, 108, 115, 101]
      else if b = 45 then
        skip
        skipUnsigned
      else if isDigit b then skipUnsigned
      else if b = 34 then skipString
      else failAhead .expectedValue
      return none

/-- Closes what can be closed. The answer is what is still open, behind a comma or an opening bracket;
`fuel` bounds the closing brackets. -/
def skipClosing : (fuel : Nat) → (open_ : List Bracket) → (afterValue : Bool) → Reader (List Bracket)
  | 0, open_, _ => return open_
  | _ + 1, [], _ => return []
  | fuel + 1, bracket :: outer, afterValue => do
    match ← blanks with
    | none => failAhead bracket.unclosed
    | some b =>
      if b = 44 && afterValue then
        skip
        return bracket :: outer
      else if b = bracket.close then
        skip
        skipClosing fuel outer true
      else if afterValue then failAhead bracket.unseparated
      else return bracket :: outer

/-- Passes over values until nothing is open any more; `fuel` bounds them. -/
def skipWithin : (fuel : Nat) → (open_ : List Bracket) → Reader Unit
  | 0, _ => failAhead .endInValue
  | fuel + 1, open_ => do
    let opened ← skipOpening
    let now := match opened with
      | some bracket => bracket :: open_
      | none => open_
    match ← skipClosing ((← remaining) + now.length + 1) now opened.isNone with
    | [] => pure ()
    | .list :: outer => skipWithin fuel (.list :: outer)
    | .object :: outer =>
      skipKey
      skipWithin fuel (.object :: outer)

/-- Passes over a value. -/
def skipValue : Reader Unit := do skipWithin ((← remaining) + 1) []

end RestTables.Json.Reader
