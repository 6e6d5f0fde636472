import MetadataGraph.Document.Json

/-!
# Reading JSON

`Json.read?` reads a whole text. Numbers are read digit by digit into 64 bits and scaled by a
power of ten afterwards, so a long decimal may end one step away from the nearest double.
-/

namespace MetadataGraph.Json

/-- What a reading step gives: its result and the rest of the text. -/
abbrev Read (α : Type) := List Char → Option (α × List Char)

/-- Pass over blanks. -/
def skipBlanks (text : List Char) : List Char :=
  text.dropWhile fun c => c == ' ' || c == '\n' || c == '\t' || c == '\r'

/-! ## Numbers -/

/-- Append digits to a number as long as it fits 64 bits; the number and the digits left over. -/
def appendDigits (number : Nat) : List Char → Nat × List Char
  | [] => (number, [])
  | c :: rest =>
    let longer := number * 10 + (c.toNat - '0'.toNat)
    if longer < UInt64.size then appendDigits longer rest else (number, c :: rest)

/-- A double divided by a power of ten, in steps of at most `10 ^ 308`. -/
def shrink (x : Binary64) (power : Nat) : Nat → Binary64
  | 0 => x.overPowerOfTen power
  | steps + 1 =>
    if power ≤ 308 then x.overPowerOfTen power
    else shrink (x.overPowerOfTen 308) (power - 308) steps

/-- The double nearest to `significand`, times a power of ten; none if that is too large. -/
def scaled? (significand : Nat) (power : Int) : Option Binary64 :=
  let x := Binary64.ofNat significand
  if significand = 0 then some x
  else if 308 < power then none
  else if 0 ≤ power then
    let product := x.timesPowerOfTen power.toNat
    if product.isInfinite then none else some product
  -- Two steps of `10 ^ 308` take every 64-bit number to zero.
  else if power < -1000 then some Binary64.zero
  else some (shrink x (-power).toNat 3)

/-- The value of a number from its parts. -/
def numberOf (negative : Bool) (whole : List Char) (fraction exponent : Option (List Char))
    (exponentNegative : Bool) : Json :=
  let (number, extra) := appendDigits 0 whole
  if extra.isEmpty && fraction.isNone && exponent.isNone then
    if !negative then integer number
    else if number = 0 ∨ 1 <<< 63 < number then float (Binary64.ofNat number).negate
    else integer (-(number : Int))
  else
    let (significand, dropped) := appendDigits number (fraction.getD [])
    let power := (extra.length : Int) - ((fraction.getD []).length - dropped.length : Nat)
    let exponentValue : Int := Nat.ofDigitChars 10 (exponent.getD []) 0
    let result :=
      if Int32.maxValue.toInt < exponentValue then
        if significand ≠ 0 ∧ !exponentNegative then none else some Binary64.zero
      else if exponentNegative then scaled? significand (power - exponentValue)
      else scaled? significand (power + exponentValue)
    match result with
    | none => unreadable
    | some x => float (if negative then x.negate else x)

/-- Take a run of digits, which must not be empty. -/
def readDigits : Read (List Char) := fun text =>
  let run := text.takeWhile Char.isDigit
  if run.isEmpty then none else some (run, text.drop run.length)

/-- Take the digits after a decimal point, if there is one. -/
def readFraction : Read (Option (List Char))
  | '.' :: rest => (readDigits rest).map fun (digits, rest) => (some digits, rest)
  | text => some (none, text)

/-- Take the sign and the digits of an exponent, if there is one. -/
def readExponent : Read (Option (List Char) × Bool) := fun text =>
  match text with
  | c :: rest =>
    if c = 'e' ∨ c = 'E' then
      let (negative, rest) :=
        match rest with
        | '+' :: rest => (false, rest)
        | '-' :: rest => (true, rest)
        | rest => (false, rest)
      (readDigits rest).map fun (digits, rest) => ((some digits, negative), rest)
    else some ((none, false), text)
  | [] => some ((none, false), [])

/-- Take a number; a zero does not lead other digits. -/
def readNumber : Read Json := fun text => do
  let (negative, text) :=
    match text with
    | '-' :: rest => (true, rest)
    | text => (false, text)
  let (whole, text) ← readDigits text
  if whole.head? = some '0' ∧ whole.length ≠ 1 then none
  else
    let (fraction, text) ← readFraction text
    let ((exponent, exponentNegative), text) ← readExponent text
    return (numberOf negative whole fraction exponent exponentNegative, text)

/-! ## Texts -/

/-- The value of a hexadecimal digit. -/
def hexValue? (c : Char) : Option Nat :=
  if c.isDigit then some (c.toNat - '0'.toNat)
  else if 'a' ≤ c ∧ c ≤ 'f' then some (c.toNat - 'a'.toNat + 10)
  else if 'A' ≤ c ∧ c ≤ 'F' then some (c.toNat - 'A'.toNat + 10)
  else none

/-- Take four hexadecimal digits. -/
def readHexQuad : Read Nat
  | a :: b :: c :: d :: rest => do
    let a ← hexValue? a
    let b ← hexValue? b
    let c ← hexValue? c
    let d ← hexValue? d
    return (((a * 16 + b) * 16 + c) * 16 + d, rest)
  | _ => none

/-- Take the code after a backslash and a `u`. None in place of a character marks half of a
surrogate pair. -/
def readUnicodeEscape : Read (Option Char) := fun text => do
  let (high, rest) ← readHexQuad text
  if 0xd800 ≤ high ∧ high < 0xdc00 then
    match rest with
    | '\\' :: 'u' :: after =>
      let (low, afterLow) ← readHexQuad after
      if 0xdc00 ≤ low ∧ low < 0xe000 then
        return (some (Char.ofNat (0x10000 + (high - 0xd800) * 0x400 + (low - 0xdc00))), afterLow)
      else return (none, rest)
    | _ => return (none, rest)
  else if 0xdc00 ≤ high ∧ high < 0xe000 then return (none, rest)
  else return (some (Char.ofNat high), rest)

/-- Take what a backslash stands before. -/
def readEscape : Read (Option Char)
  | '"' :: rest => some (some '"', rest)
  | '\\' :: rest => some (some '\\', rest)
  | '/' :: rest => some (some '/', rest)
  | 'b' :: rest => some (some '\x08', rest)
  | 'f' :: rest => some (some '\x0c', rest)
  | 'n' :: rest => some (some '\n', rest)
  | 'r' :: rest => some (some '\r', rest)
  | 't' :: rest => some (some '\t', rest)
  | 'u' :: rest => readUnicodeEscape rest
  | _ => none

/-- Take a text, of which the opening quote is already taken; `read` holds the characters so far in
reverse, none once one of them could not be read. -/
def readText : Nat → Option (List Char) → Read (Option String)
  | 0, _, _ => none
  | _ + 1, _, [] => none
  | fuel + 1, read, c :: rest =>
    if c = '"' then some (read.map fun chars => String.ofList chars.reverse, rest)
    else if c = '\\' then do
      let (next, rest) ← readEscape rest
      readText fuel (read.bind fun chars => next.map (· :: chars)) rest
    else if c.toNat < 0x20 then none
    else readText fuel (read.map (c :: ·)) rest

/-! ## Values -/

/-- Drop a literal's letters from the start of a text. -/
def readLiteral (letters : List Char) (value : Json) : Read Json := fun text =>
  if text.take letters.length = letters then some (value, text.drop letters.length) else none

mutual

/-- Take one value after blanks. -/
def readValue : Nat → Read Json
  | 0, _ => none
  | fuel + 1, text =>
    match skipBlanks text with
    | [] => none
    | '[' :: rest =>
      match skipBlanks rest with
      | ']' :: rest => some (array [], rest)
      | _ => readItems fuel [] rest
    | '\x7b' :: rest =>
      match skipBlanks rest with
      | '\x7d' :: rest => some (object [], rest)
      | _ => readMembers fuel (some []) rest
    | '"' :: rest =>
      (readText fuel (some []) rest).map fun (content, rest) =>
        ((content.map string).getD unreadable, rest)
    | 'n' :: rest => readLiteral ['u', 'l', 'l'] null rest
    | 't' :: rest => readLiteral ['r', 'u', 'e'] (boolean true) rest
    | 'f' :: rest => readLiteral ['a', 'l', 's', 'e'] (boolean false) rest
    | text => readNumber text

/-- Take items up to the closing bracket; `read` holds the items so far in reverse. -/
def readItems : Nat → List Json → Read Json
  | 0, _, _ => none
  | fuel + 1, read, text => do
    let (item, rest) ← readValue fuel text
    match skipBlanks rest with
    | ',' :: rest => readItems fuel (item :: read) rest
    | ']' :: rest => some (array (item :: read).reverse, rest)
    | _ => none

/-- Take members up to the closing brace; `read` holds the members so far in reverse, none once a
name could not be read. -/
def readMembers : Nat → Option (List (String × Json)) → Read Json
  | 0, _, _ => none
  | fuel + 1, read, text => do
    match skipBlanks text with
    | '"' :: rest =>
      let (name, rest) ← readText fuel (some []) rest
      match skipBlanks rest with
      | ':' :: rest =>
        let (value, rest) ← readValue fuel rest
        let read := read.bind fun members => name.map fun name => (name, value) :: members
        match skipBlanks rest with
        | ',' :: rest => readMembers fuel read rest
        | '\x7d' :: rest =>
          some ((read.map fun members => object members.reverse).getD unreadable, rest)
        | _ => none
      | _ => none
    | _ => none

end

/-- The tree of a text that holds one value and blanks around it. -/
def read? (text : String) : Option Json := do
  let chars := text.toList
  -- Every call takes a character or passes to a call that does.
  let (value, rest) ← readValue (2 * chars.length + 2) chars
  if (skipBlanks rest).isEmpty then return value else none

end MetadataGraph.Json
