import Etp.Json.Basic
import Etp.Uuid

/-!
# Reading JSON text

A value is read from the front of a text; the rest of the text is returned with it.  Every value
takes at least one character, so the length of the text bounds the depth of the reading.
-/

namespace Etp.Json

/-- The characters after those that may stand between two values. -/
def skipBlank (cs : List Char) : List Char :=
  cs.dropWhile (fun c => c = ' ' || c = '\t' || c = '\n' || c = '\r')

/-- The character that an escape stands for. -/
def escaped? : Char → Option Char
  | '"' => some '"'
  | '\\' => some '\\'
  | '/' => some '/'
  | 'b' => some '\x08'
  | 'f' => some '\x0c'
  | 'n' => some '\n'
  | 'r' => some '\r'
  | 't' => some '\t'
  | _ => none

/-- The character that two halves of a surrogate pair stand for. -/
def paired (high low : Nat) : Char :=
  Char.ofNat (0x10000 + (high - 0xD800) * 1024 + (low - 0xDC00))

/-- Whether a number is the first half of a surrogate pair. -/
def isHighHalf (n : Nat) : Bool := 0xD800 ≤ n && n < 0xDC00

/-- Whether a number is the second half of a surrogate pair. -/
def isLowHalf (n : Nat) : Bool := 0xDC00 ≤ n && n < 0xE000

/-- Reads the characters of a text up to the closing quote; `high` is the first half of a surrogate
pair whose second half must follow. -/
def readTextFrom (high : Option Nat) : List Char → Option (List Char × List Char)
  | '"' :: rest => if high.isSome then none else some ([], rest)
  | '\\' :: 'u' :: a :: b :: c :: d :: rest => do
    let n ← hexNumber? [a, b, c, d]
    match high with
    | some h =>
      if isLowHalf n then
        let (cs, rest) ← readTextFrom none rest
        return (paired h n :: cs, rest)
      else none
    | none =>
      if isHighHalf n then readTextFrom (some n) rest
      else if isLowHalf n then none
      else
        let (cs, rest) ← readTextFrom none rest
        return (Char.ofNat n :: cs, rest)
  | '\\' :: e :: rest => do
    let c ← escaped? e
    if high.isSome then none
    else
      let (cs, rest) ← readTextFrom none rest
      return (c :: cs, rest)
  | c :: rest =>
    if high.isSome || c < ' ' then none
    else do
      let (cs, rest) ← readTextFrom none rest
      return (c :: cs, rest)
  | [] => none

/-- Reads the characters of a text up to the closing quote. -/
def readText (cs : List Char) : Option (String × List Char) :=
  (readTextFrom none cs).map (fun r => (String.ofList r.1, r.2))

/-- The digits at the front of a text, and the rest. -/
def spanDigits (cs : List Char) : List Nat × List Char :=
  ((cs.takeWhile Char.isDigit).map (fun c => c.toNat - 48), cs.dropWhile Char.isDigit)

/-- The number that some digits stand for. -/
def digitsValue (digits : List Nat) : Nat := digits.foldl (fun n d => n * 10 + d) 0

/-- The digits at the front of a text, at least one, and the rest. -/
def readDigits (cs : List Char) : Option (List Nat × List Char) :=
  let (digits, rest) := spanDigits cs
  if digits.isEmpty then none else some (digits, rest)

/-- Reads the digits before the point; only a single one may be zero at the front. -/
def readWhole (cs : List Char) : Option (List Nat × List Char) :=
  match readDigits cs with
  | some (0 :: _ :: _, _) => none
  | result => result

/-- Reads the point and the digits after it, if there is a point. -/
def readFraction : List Char → Option (Option (List Nat) × List Char)
  | '.' :: rest => (readDigits rest).map (fun r => (some r.1, r.2))
  | cs => some (none, cs)

/-- Reads the sign of an exponent: whether it is negative. -/
def readSign : List Char → Bool × List Char
  | '-' :: rest => (true, rest)
  | '+' :: rest => (false, rest)
  | cs => (false, cs)

/-- Reads the power of ten, if there is one. -/
def readExponent : List Char → Option (Option Int × List Char)
  | [] => some (none, [])
  | e :: rest =>
    if e = 'e' || e = 'E' then do
      let (negative, rest) := readSign rest
      let (digits, rest) ← readDigits rest
      let size : Int := digitsValue digits
      return (some (if negative then -size else size), rest)
    else some (none, e :: rest)

/-- Reads a number. -/
def readNumber (cs : List Char) : Option (Json × List Char) := do
  let (negative, cs) := match cs with
    | '-' :: rest => (true, rest)
    | cs => (false, cs)
  let (whole, cs) ← readWhole cs
  let (fraction, cs) ← readFraction cs
  let (exponent, cs) ← readExponent cs
  let value ← ofNumeral? ⟨negative, whole, fraction, exponent⟩
  return (value, cs)

mutual

/-- Reads a value; `depth` bounds the number of steps. -/
def readValue : (depth : Nat) → List Char → Option (Json × List Char)
  | 0, _ => none
  | depth + 1, cs =>
    match skipBlank cs with
    | 'n' :: 'u' :: 'l' :: 'l' :: rest => some (null, rest)
    | 't' :: 'r' :: 'u' :: 'e' :: rest => some (bool true, rest)
    | 'f' :: 'a' :: 'l' :: 's' :: 'e' :: rest => some (bool false, rest)
    | '"' :: rest => (readText rest).map (fun r => (text r.1, r.2))
    | '[' :: rest =>
      match skipBlank rest with
      | ']' :: rest => some (list [], rest)
      | rest => (readItems depth rest).map (fun r => (list r.1, r.2))
    | '\x7b' :: rest =>
      match skipBlank rest with
      | '\x7d' :: rest => some (object [], rest)
      | rest => (readFields depth rest).map (fun r => (object r.1, r.2))
    | cs => readNumber cs

/-- Reads the items of a list and the bracket that closes it. -/
def readItems : (depth : Nat) → List Char → Option (List Json × List Char)
  | 0, _ => none
  | depth + 1, cs => do
    let (item, rest) ← readValue depth cs
    match skipBlank rest with
    | ',' :: rest =>
      let (items, rest) ← readItems depth rest
      return (item :: items, rest)
    | ']' :: rest => return ([item], rest)
    | _ => none

/-- Reads the fields of an object and the brace that closes it. -/
def readFields : (depth : Nat) → List Char → Option (List (String × Json) × List Char)
  | 0, _ => none
  | depth + 1, cs => do
    match skipBlank cs with
    | '"' :: rest =>
      let (name, rest) ← readText rest
      match skipBlank rest with
      | ':' :: rest =>
        let (value, rest) ← readValue depth rest
        match skipBlank rest with
        | ',' :: rest =>
          let (fields, rest) ← readFields depth rest
          return ((name, value) :: fields, rest)
        | '\x7d' :: rest => return ([(name, value)], rest)
        | _ => none
      | _ => none
    | _ => none

end

/-- The value that a text consists of. -/
def parse (source : String) : Option Json :=
  match readValue (source.length + 1) source.toList with
  | some (value, rest) => if (skipBlank rest).isEmpty then some value else none
  | none => none

end Etp.Json
