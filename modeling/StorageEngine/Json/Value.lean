/-!
# JSON texts

Reading a JSON text into a value.  The grammar is the strict one: no comments, no trailing
commas, no leading zeros, and nothing but blanks after the value.  A string is kept as a list
of code points, in which an escape may have left half of a surrogate pair; such a string is
well-formed JSON, but spells no text.
-/

namespace StorageEngine

/-- A JSON value.  Of a number only this is kept: whether it is written as a natural number,
without sign, fraction and exponent, and if so which. -/
inductive Json where
  | null
  | bool (value : Bool)
  | number (natural : Option Nat)
  | string (points : List Nat)
  | array (items : List Json)
  | object (members : List (List Nat × Json))

namespace Json

/-! ## Blanks and literals -/

/-- Whether a character may stand between the parts of a JSON text. -/
def isBlank (c : Char) : Bool := c == ' ' || c == '\n' || c == '\t' || c == '\r'

/-- The text from its first character on that is no blank. -/
def skipBlanks (text : List Char) : List Char := text.dropWhile isBlank

/-- What follows `word` at the start of a text. -/
def afterWord? : List Char → List Char → Option (List Char)
  | [], text => some text
  | c :: word, d :: text => if c = d then afterWord? word text else none
  | _ :: _, [] => none

/-! ## Numbers -/

/-- The number that decimal digits spell. -/
def ofDigits (digits : List Char) : Nat :=
  digits.foldl (fun value digit => 10 * value + (digit.toNat - '0'.toNat)) 0

/-- The digits at the start of a text, of which there is at least one, and the rest. -/
def digits? (text : List Char) : Option (List Char × List Char) :=
  match text.takeWhile Char.isDigit with
  | [] => none
  | digits => some (digits, text.dropWhile Char.isDigit)

/-- Digits without a leading zero, and the rest. -/
def integer? (text : List Char) : Option (List Char × List Char) :=
  match digits? text with
  | some ('0' :: _ :: _, _) => none
  | found => found

/-- The rest after a fraction, if there is one: whether there is, and the rest. -/
def fraction? : List Char → Option (Bool × List Char)
  | '.' :: text => (digits? text).map fun (_, rest) => (true, rest)
  | text => some (false, text)

/-- The rest after an exponent, if there is one: whether there is, and the rest. -/
def exponent? : List Char → Option (Bool × List Char)
  | c :: text =>
    if c = 'e' || c = 'E' then
      let unsigned := match text with
        | '+' :: rest => rest
        | '-' :: rest => rest
        | rest => rest
      (digits? unsigned).map fun (_, rest) => (true, rest)
    else some (false, c :: text)
  | [] => some (false, [])

/-- A number without sign, and the rest. -/
def magnitude? (text : List Char) : Option (Option Nat × List Char) := do
  let (digits, text) ← integer? text
  let (hasFraction, text) ← fraction? text
  let (hasExponent, text) ← exponent? text
  return (if hasFraction || hasExponent then none else some (ofDigits digits), text)

/-- A number, and the rest. -/
def number? : List Char → Option (Option Nat × List Char)
  | '-' :: text => (magnitude? text).map fun (_, rest) => (none, rest)
  | text => magnitude? text

/-! ## Strings -/

/-- The value of a hexadecimal digit. -/
def hexDigit? (c : Char) : Option Nat :=
  if c.isDigit then some (c.toNat - '0'.toNat)
  else if 'a' ≤ c && c ≤ 'f' then some (c.toNat - 'a'.toNat + 10)
  else if 'A' ≤ c && c ≤ 'F' then some (c.toNat - 'A'.toNat + 10)
  else none

/-- The code point that an escape of one letter stands for. -/
def escape? : Char → Option Nat
  | '"' => some '"'.toNat
  | '\\' => some '\\'.toNat
  | '/' => some '/'.toNat
  | 'b' => some 8
  | 'f' => some 12
  | 'n' => some 10
  | 'r' => some 13
  | 't' => some 9
  | _ => none

/-- The code points up to the closing quote, each escaped unit for itself, and the rest. -/
def units? : List Char → Option (List Nat × List Char)
  | '"' :: text => some ([], text)
  | '\\' :: 'u' :: a :: b :: c :: d :: text => do
    let unit := 4096 * (← hexDigit? a) + 256 * (← hexDigit? b) + 16 * (← hexDigit? c)
      + (← hexDigit? d)
    let (units, rest) ← units? text
    return (unit :: units, rest)
  | '\\' :: c :: text => do
    let unit ← escape? c
    let (units, rest) ← units? text
    return (unit :: units, rest)
  | c :: text =>
    if c.toNat < 32 then none else do
      let (units, rest) ← units? text
      return (c.toNat :: units, rest)
  | [] => none

/-- Whether a code point is the first half of a surrogate pair. -/
def isLeading (point : Nat) : Bool := 0xD800 ≤ point && point < 0xDC00

/-- Whether a code point is the second half of a surrogate pair. -/
def isTrailing (point : Nat) : Bool := 0xDC00 ≤ point && point < 0xE000

/-- The code points with each surrogate pair replaced by what it stands for. -/
def joinPairs : List Nat → List Nat
  | a :: b :: rest =>
    if isLeading a && isTrailing b then
      (0x10000 + 1024 * (a - 0xD800) + (b - 0xDC00)) :: joinPairs rest
    else a :: joinPairs (b :: rest)
  | points => points

/-- The code points up to the closing quote, and the rest. -/
def string? (text : List Char) : Option (List Nat × List Char) :=
  (units? text).map fun (units, rest) => (joinPairs units, rest)

/-- Whether code points spell a text: none is half of a surrogate pair. -/
def isText (points : List Nat) : Bool :=
  points.all fun point => !isLeading point && !isTrailing point

/-! ## Values -/

mutual

/-- The value at the start of a text, and the rest. -/
def value? : Nat → List Char → Option (Json × List Char)
  | 0, _ => none
  | fuel + 1, text =>
    match skipBlanks text with
    | '"' :: text => (string? text).map fun (points, rest) => (.string points, rest)
    | '[' :: text =>
      match skipBlanks text with
      | ']' :: rest => some (.array [], rest)
      | text => (items? fuel text).map fun (items, rest) => (.array items, rest)
    | '{' :: text =>
      match skipBlanks text with
      | '}' :: rest => some (.object [], rest)
      | text => (members? fuel text).map fun (members, rest) => (.object members, rest)
    | 'n' :: text => (afterWord? "ull".toList text).map fun rest => (.null, rest)
    | 't' :: text => (afterWord? "rue".toList text).map fun rest => (.bool true, rest)
    | 'f' :: text => (afterWord? "alse".toList text).map fun rest => (.bool false, rest)
    | text => (number? text).map fun (natural, rest) => (.number natural, rest)

/-- The items of an array from the next one on, and what follows the array. -/
def items? : Nat → List Char → Option (List Json × List Char)
  | 0, _ => none
  | fuel + 1, text => do
    let (item, rest) ← value? fuel text
    match skipBlanks rest with
    | ',' :: text => (items? fuel text).map fun (items, rest) => (item :: items, rest)
    | ']' :: rest => some ([item], rest)
    | _ => none

/-- The members of an object from the next one on, and what follows the object. -/
def members? : Nat → List Char → Option (List (List Nat × Json) × List Char)
  | 0, _ => none
  | fuel + 1, text =>
    match skipBlanks text with
    | '"' :: text => do
      let (key, rest) ← string? text
      match skipBlanks rest with
      | ':' :: text => do
        let (value, rest) ← value? fuel text
        match skipBlanks rest with
        | ',' :: text =>
          (members? fuel text).map fun (members, rest) => ((key, value) :: members, rest)
        | '}' :: rest => some ([(key, value)], rest)
        | _ => none
      | _ => none
    | _ => none

end

/-- The value that a text spells.  Each step into a value, an array or an object reads a
character or stands at the start of one, so twice the length of the text bounds them. -/
def parse? (text : String) : Option Json :=
  match value? (2 * text.length + 2) text.toList with
  | some (value, rest) => if (skipBlanks rest).isEmpty then some value else none
  | none => none

end Json

end StorageEngine
