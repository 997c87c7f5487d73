/-
Module: RestTables.Text.Utf8
Purpose: Bytes and characters. `scan` reads bytes into characters and reports each longest broken piece
  once; the strict reader refuses broken pieces, the lenient one replaces each by U+FFFD.
Main exports: encode, scan, decode?, validLength, decodeLossy
-/

namespace RestTables.Text.Utf8

/-- The bytes of a text. -/
def encode (s : List Char) : List UInt8 := s.flatMap String.utf8EncodeChar

/-- Bytes that continue a character. -/
def isTail (b : UInt8) : Bool := 0x80 ≤ b && b ≤ 0xBF

/-- The bytes allowed after the first byte of a character of three bytes. -/
def secondOfThree (first second : UInt8) : Bool :=
  if first == 0xE0 then 0xA0 ≤ second && second ≤ 0xBF
  else if first == 0xED then 0x80 ≤ second && second ≤ 0x9F
  else isTail second

/-- The bytes allowed after the first byte of a character of four bytes. -/
def secondOfFour (first second : UInt8) : Bool :=
  if first == 0xF0 then 0x90 ≤ second && second ≤ 0xBF
  else if first == 0xF4 then 0x80 ≤ second && second ≤ 0x8F
  else isTail second

/-- The payload of a continuation byte. -/
def tailBits (b : UInt8) : Nat := b.toNat % 64

/-- The characters written by `bytes`, with `none` for each longest piece that starts a character and
cannot be finished, or that starts none. -/
def scan : (bytes : List UInt8) → List (Option Char)
  | [] => []
  | a :: r =>
    if a < 0x80 then some (Char.ofNat a.toNat) :: scan r
    else if 0xC2 ≤ a && a ≤ 0xDF then
      match r with
      | [] => [none]
      | b :: r' =>
        if isTail b then some (Char.ofNat (a.toNat % 32 * 64 + tailBits b)) :: scan r'
        else none :: scan (b :: r')
    else if 0xE0 ≤ a && a ≤ 0xEF then
      match r with
      | [] => [none]
      | b :: r' =>
        if !secondOfThree a b then none :: scan (b :: r')
        else match r' with
          | [] => [none]
          | c :: r'' =>
            if isTail c then
              some (Char.ofNat (a.toNat % 16 * 4096 + tailBits b * 64 + tailBits c)) :: scan r''
            else none :: scan (c :: r'')
    else if 0xF0 ≤ a && a ≤ 0xF4 then
      match r with
      | [] => [none]
      | b :: r' =>
        if !secondOfFour a b then none :: scan (b :: r')
        else match r' with
          | [] => [none]
          | c :: r'' =>
            if !isTail c then none :: scan (c :: r'')
            else match r'' with
              | [] => [none]
              | d :: r''' =>
                if isTail d then
                  some (Char.ofNat (a.toNat % 8 * 262144 + tailBits b * 4096 + tailBits c * 64 +
                    tailBits d)) :: scan r'''
                else none :: scan (d :: r''')
    else none :: scan r

/-- The text written by `bytes`, if they are UTF-8. -/
def decode? (bytes : List UInt8) : Option (List Char) := (scan bytes).mapM id

/-- How many bytes stand in front of the first broken piece. -/
def validLength (bytes : List UInt8) : Nat :=
  (encode (((scan bytes).takeWhile (·.isSome)).map (·.getD '\uFFFD'))).length

/-- The text written by `bytes`, with U+FFFD for each broken piece. -/
def decodeLossy (bytes : List UInt8) : List Char := (scan bytes).map (·.getD '\uFFFD')

/-- Strict and lenient reading agree where the strict one succeeds. -/
theorem decodeLossy_of_decode? {bytes : List UInt8} {s : List Char} (h : decode? bytes = some s) :
    decodeLossy bytes = s := by
  unfold decode? at h
  unfold decodeLossy
  generalize scan bytes = items at h
  induction items generalizing s with
  | nil => simpa using h
  | cons x xs ih =>
    cases x with
    | none => simp at h
    | some c =>
      simp only [List.mapM_cons, id_eq, Option.pure_def, Option.bind_eq_bind, Option.bind_some] at h
      cases hx : xs.mapM id with
      | none => simp [hx] at h
      | some t =>
        simp [hx] at h
        subst h
        simp [ih hx]

example : decode? [0xC3, 0xA9] = some ['é'] := by decide
example : validLength [0xC3, 0xA9, 0x61, 0xE2, 0x82] = 3 := by decide
example : decodeLossy [0xFF, 0x61, 0xE2, 0x82] = ['\uFFFD', 'a', '\uFFFD'] := by decide

end RestTables.Text.Utf8
