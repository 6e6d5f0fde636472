import MetadataGraph.Pattern.Node
import MetadataGraph.Text.Blank
import MetadataGraph.Text.Letters

/-!
# Reading patterns

Patterns are written in the usual notation: alternatives, groups, classes in brackets, counted and
uncounted repetitions, escapes and inline flags. There is no look-around, no reference to a group
and no class by Unicode property. Whether a repetition prefers many or few is read and forgotten,
since only whether a text matches is of interest.
-/

namespace MetadataGraph.Pattern

/-! ## Reading steps -/

/-- The inline flags. -/
structure Flags where
  /-- Letters stand for both cases. -/
  ignoreCase : Bool
  /-- The anchors also match at lines. -/
  multiLine : Bool
  /-- A point also matches a line feed. -/
  dotAll : Bool
  /-- Blanks and comments are passed over. -/
  verbose : Bool
  /-- Lines also end in a carriage return. -/
  anyLineEnd : Bool
  deriving DecidableEq

/-- All flags off. -/
def Flags.none : Flags := ⟨false, false, false, false, false⟩

/-- What the reader keeps in mind. -/
structure ReaderState where
  /-- The pattern from here on. -/
  rest : List Char
  /-- The flags that hold here. -/
  flags : Flags
  /-- The number of capturing groups so far. -/
  groupCount : Nat
  /-- The names of the groups so far. -/
  groupNames : List String
  /-- More than the length of the pattern, which bounds the steps of every part of the reading. -/
  budget : Nat

/-- A step of the reader, which fails on a malformed pattern. -/
abbrev Parse := StateT ReaderState Option

namespace Parse

/-- Give up. -/
def fail {α : Type} : Parse α := StateT.lift Option.none

/-- The next character. -/
def peek? : Parse (Option Char) := return (← get).rest.head?

/-- Pass over one character. -/
def skip : Parse Unit := modify fun s => { s with rest := s.rest.drop 1 }

/-- Take the next character. -/
def next : Parse Char := do
  match ← peek? with
  | some c =>
    skip
    return c
  | Option.none => fail

/-- Drop blanks and comments, which go from a number sign to the end of the line. -/
def dropIgnored (inComment : Bool) : List Char → List Char
  | [] => []
  | c :: rest =>
    if inComment then dropIgnored (c != '\n') rest
    else if Text.isSpace c then dropIgnored false rest
    else if c == '#' then dropIgnored true rest
    else c :: rest

/-- Pass over blanks and comments if the flags say so. -/
def skipIgnored : Parse Unit :=
  modify fun s => if s.flags.verbose then { s with rest := dropIgnored false s.rest } else s

/-- Pass over one character and what is ignored after it. -/
def advance : Parse Unit := do
  skip
  skipIgnored

/-- The character that follows the next one. -/
def second? : Parse (Option Char) := return (← get).rest.tail.head?

/-- The first of some characters that is not blank and not the first number sign. -/
def firstVisible? (seenSign : Bool) : List Char → Option Char
  | [] => Option.none
  | c :: rest =>
    if Text.isSpace c then firstVisible? seenSign rest
    else if !seenSign && c == '#' then firstVisible? true rest
    else some c

/-- The character that follows the next one, over what is ignored; if there is only that, the
character right after it. -/
def secondVisible? : Parse (Option Char) := do
  let s ← get
  let after := s.rest.tail
  return if s.flags.verbose then (firstVisible? false after).or after.head? else after.head?

/-- Pass over given characters if they come next, and say whether they did. -/
def skipIf (chars : List Char) : Parse Bool := do
  let s ← get
  if s.rest.take chars.length = chars then
    set { s with rest := s.rest.drop chars.length }
    return true
  else return false

/-- Pass over one given character, which must come next. -/
def expect (c : Char) : Parse Unit := do
  if (← next) = c then return () else fail

/-- The number of steps that no part of the reading exceeds. -/
def budget : Parse Nat := return (← get).budget

end Parse

open Parse

/-! ## Characters and escapes -/

/-- The node of a character, which stands for both cases if the flags say so. -/
def charNode (c : Char) : Parse Node := do
  if (← get).flags.ignoreCase then
    let cls := CharClass.single c
    let folded := cls.foldCase
    return if folded = cls then .char c else .oneOf folded
  else return .char c

/-- The node of a point. -/
def dotNode (flags : Flags) : Node :=
  let excluded := if flags.dotAll then [] else if flags.anyLineEnd then ['\n', '\r'] else ['\n']
  .oneOf (CharClass.ofChars excluded).complement

/-- The node of a circumflex. -/
def startNode (flags : Flags) : Node :=
  .assertion (if !flags.multiLine then .textStart
    else if flags.anyLineEnd then .anyLineStart else .lineStart)

/-- The node of a dollar sign. -/
def endNode (flags : Flags) : Node :=
  .assertion (if !flags.multiLine then .textEnd
    else if flags.anyLineEnd then .anyLineEnd else .lineEnd)

/-- Whether a backslash before a character makes it stand for itself. -/
def isEscapable (c : Char) : Bool :=
  c.toNat < 0x80 && !c.isAlphanum && c != '<' && c != '>'

/-- The value of a hexadecimal digit. -/
def hexDigit? (c : Char) : Option Nat :=
  if c.isDigit then some (c.toNat - '0'.toNat)
  else if 'a' ≤ c ∧ c ≤ 'f' then some (c.toNat - 'a'.toNat + 10)
  else if 'A' ≤ c ∧ c ≤ 'F' then some (c.toNat - 'A'.toNat + 10)
  else Option.none

/-- The node of the character with a code; half of a surrogate pair is no character. -/
def codeNode (code : Nat) : Parse Node := do
  if h : code.isValidChar then charNode (Char.ofNatAux code h) else fail

/-- Take a fixed number of hexadecimal digits after `code`. -/
def readFixedHex (code : Nat) : Nat → Parse Nat
  | 0 => return code
  | count + 1 => do
    match (← peek?).bind hexDigit? with
    | some digit =>
      advance
      readFixedHex (code * 16 + digit) count
    | Option.none => fail

/-- Take hexadecimal digits up to a closing brace; `code` is the number so far, none before the
first digit. -/
def readBracedHex (code : Option Nat) : Nat → Parse Nat
  | 0 => fail
  | fuel + 1 => do
    match ← peek? with
    | Option.none => fail
    | some c =>
      if c = '\x7d' then
        advance
        StateT.lift code
      else
        match hexDigit? c with
        | some digit =>
          advance
          readBracedHex (some (code.getD 0 * 16 + digit)) fuel
        | Option.none => fail

/-- Take a character by its code: `count` digits or any number of them in braces. -/
def readHex (count : Nat) : Parse Node := do
  advance
  match ← peek? with
  | some '\x7b' =>
    advance
    codeNode (← readBracedHex Option.none (← budget))
  | _ => codeNode (← readFixedHex 0 count)

/-- Take the letters and hyphens up to a closing brace, in reverse. -/
def readBoundaryName (letters : List Char) : Nat → Parse (List Char)
  | 0 => fail
  | fuel + 1 => do
    match ← peek? with
    | some '\x7d' =>
      skip
      return letters
    | some c =>
      if c.isAlpha || c == '-' then
        advance
        readBoundaryName (c :: letters) fuel
      else fail
    | Option.none => fail

/-- Take what may follow the letter of a word boundary: the name of a special one in braces. Braces
that hold no name are left, they belong to a repetition. -/
def readWordBoundary : Parse Node := do
  let before ← get
  match ← peek? with
  | some '\x7b' =>
    advance
    match ← peek? with
    | Option.none => fail
    | some c =>
      if c.isAlpha || c == '-' then
        match String.ofList (← readBoundaryName [] (← budget)).reverse with
        | "start" => return .assertion .wordStart
        | "end" => return .assertion .wordEnd
        | "start-half" => return .assertion .wordStartHalf
        | "end-half" => return .assertion .wordEndHalf
        | _ => fail
      else
        set before
        return .assertion .wordBoundary
  | _ => return .assertion .wordBoundary

/-- Take what follows a backslash. -/
def readEscape : Parse Node := do
  match ← peek? with
  | Option.none => fail
  | some 'x' => readHex 2
  | some 'u' => readHex 4
  | some 'U' => readHex 8
  | some c =>
    skip
    match c with
    | 'd' => return .oneOf .digit
    | 's' => return .oneOf .space
    | 'w' => return .oneOf .word
    | 'D' => return .oneOf CharClass.digit.complement
    | 'S' => return .oneOf CharClass.space.complement
    | 'W' => return .oneOf CharClass.word.complement
    | 'a' => return .char '\x07'
    | 'f' => return .char '\x0c'
    | 't' => return .char '\t'
    | 'n' => return .char '\n'
    | 'r' => return .char '\r'
    | 'v' => return .char '\x0b'
    | 'A' => return .assertion .textStart
    | 'z' => return .assertion .textEnd
    | 'b' => readWordBoundary
    | 'B' => return .assertion .noWordBoundary
    | '<' => return .assertion .wordStart
    | '>' => return .assertion .wordEnd
    | c => if isEscapable c then charNode c else fail

/-- Take a node that is neither a group nor a class. -/
def readSimple : Parse Node := do
  let c ← next
  let flags := (← get).flags
  match c with
  | '\\' => readEscape
  | '.' => return dotNode flags
  | '^' => return startNode flags
  | '$' => return endNode flags
  | c => charNode c

/-! ## Classes in brackets -/

/-- Take a named class such as `[:alpha:]`, if there is one here. -/
def readNamedClass? : Parse (Option CharClass) := do
  let before ← get
  let giveUp : Parse (Option CharClass) := do
    set before
    return Option.none
  if !(← skipIf ['[', ':']) then giveUp
  else
    let negated ← skipIf ['^']
    let name := (← get).rest.takeWhile (· != ':')
    modify fun s => { s with rest := s.rest.drop name.length }
    if !(← skipIf [':', ']']) then giveUp
    else
      match CharClass.named? (String.ofList name) with
      | Option.none => giveUp
      | some cls => return some (if negated then cls.complement else cls)

/-- Take one item of a class. -/
def readClassItem : Parse Node := do
  match ← next with
  | '\\' => readEscape
  | c => return .char c

/-- The characters of a class item. -/
def itemClass : Node → Parse CharClass
  | .char c => return .single c
  | .oneOf cls => return cls
  | _ => fail

/-- The single character of a class item that ends a range. -/
def itemChar : Node → Parse Char
  | .char c => return c
  | _ => fail

/-- Take a class item or a range of two. A hyphen before the closing bracket or before another
hyphen makes no range. -/
def readClassRange : Parse CharClass := do
  let first ← readClassItem
  skipIgnored
  match ← peek? with
  | Option.none => fail
  | some '-' =>
    let after ← secondVisible?
    if after = some ']' ∨ after = some '-' then itemClass first
    else
      advance
      if (← peek?).isNone then fail
      else
        let last ← readClassItem
        let low ← itemChar first
        let high ← itemChar last
        if high < low then fail else return .between low high
  | some _ => itemClass first

/-- Take the hyphens that come first in a class; they stand for themselves. -/
def readLeadingHyphens (classes : List CharClass) : Nat → Parse (List CharClass)
  | 0 => fail
  | fuel + 1 => do
    match ← peek? with
    | some '-' =>
      advance
      if (← peek?).isNone then fail else readLeadingHyphens (.single '-' :: classes) fuel
    | _ => return classes

/-- Take the items of a class up to its closing bracket. Classes do not nest, and there are no
operations on them. -/
def readClassItems (classes : List CharClass) : Nat → Parse (List CharClass)
  | 0 => fail
  | fuel + 1 => do
    skipIgnored
    let following ← second?
    match ← peek? with
    | Option.none => fail
    | some '[' =>
      match ← readNamedClass? with
      | some cls => readClassItems (cls :: classes) fuel
      | Option.none => fail
    | some ']' =>
      skip
      return classes
    | some c =>
      if (c = '&' ∨ c = '-' ∨ c = '~') ∧ following = some c then fail
      else readClassItems ((← readClassRange) :: classes) fuel

/-- Take a class in brackets. A closing bracket that comes first stands for itself. -/
def readClass : Parse Node := do
  expect '['
  skipIgnored
  let negated := (← peek?) = some '^'
  if negated then advance
  let leading ← readLeadingHyphens [] (← budget)
  let leading ←
    if leading.isEmpty && (← peek?) = some ']' then
      advance
      pure [CharClass.single ']']
    else pure leading
  let cls := CharClass.union (← readClassItems leading (← budget))
  let cls := if (← get).flags.ignoreCase then cls.foldCase else cls
  return .oneOf (if negated then cls.complement else cls)

/-! ## Repetitions -/

/-- Take digits, passing over what is ignored after each; they come in reverse. -/
def readDigits (digits : List Char) : Nat → Parse (List Char)
  | 0 => fail
  | fuel + 1 => do
    match ← peek? with
    | some c =>
      if c.isDigit then
        advance
        readDigits (c :: digits) fuel
      else return digits
    | Option.none => return digits

/-- Pass over blanks, whatever the flags say. -/
def skipBlanks : Parse Unit := modify fun s => { s with rest := s.rest.dropWhile Text.isSpace }

/-- Take a number of at most 32 bits with blanks around it. -/
def readDecimal : Parse Nat := do
  skipBlanks
  let digits ← readDigits [] (← budget)
  skipBlanks
  let number := Nat.ofDigitChars 10 digits.reverse 0
  if digits.isEmpty ∨ UInt32.size ≤ number then fail else return number

/-- Take the bounds of a counted repetition after its opening brace. -/
def readBounds : Parse (Nat × Option Nat) := do
  expect '\x7b'
  skipIgnored
  if (← peek?).isNone then fail
  let least ← readDecimal
  let most ←
    if (← peek?) = some ',' then
      advance
      match ← peek? with
      | Option.none => fail
      | some '\x7d' => pure Option.none
      | some _ => pure (some (← readDecimal))
    else pure (some least)
  if (← peek?) ≠ some '\x7d' then fail
  advance
  if most.any (· < least) then fail else return (least, most)

/-- Put a repetition around the last of the nodes so far, which are in reverse. -/
def repeatLast (nodes : List Node) (least : Nat) (most : Option Nat) : Parse (List Node) :=
  match nodes with
  | [] => fail
  | node :: others => return .ofRepetition node least most :: others

/-- Take a repetition of the last of the nodes so far, which are in reverse. -/
def readRepetition (nodes : List Node) : Parse (List Node) := do
  let bounds : Nat × Option Nat ←
    match ← peek? with
    | some '?' =>
      skip
      pure (0, some 1)
    | some '*' =>
      skip
      pure (0, Option.none)
    | some '+' =>
      skip
      pure (1, Option.none)
    | _ => readBounds
  let _ ← skipIf ['?']
  repeatLast nodes bounds.1 bounds.2

/-! ## Groups -/

/-- Whether a character may stand in the name of a group. -/
def isNameChar (isFirst : Bool) (c : Char) : Bool :=
  if isFirst then c == '_' || Text.isLetter c
  else c == '_' || c == '.' || c == '[' || c == ']' || Text.isLetterOrNumeral c

/-- Take the name of a group and the bracket after it. No two groups have one name. -/
def readGroupName : Parse String := do
  let s ← get
  let name := s.rest.takeWhile (· != '>')
  let isProper :=
    match name with
    | [] => false
    | first :: others => isNameChar true first && others.all (isNameChar false)
  let text := String.ofList name
  if !isProper ∨ name.length = s.rest.length ∨ s.groupNames.contains text then fail
  else
    set { s with rest := s.rest.drop (name.length + 1), groupNames := text :: s.groupNames }
    return text

/-- The number of a capturing group that opens here. -/
def nextGroup : Parse Nat :=
  modifyGet fun s => (s.groupCount + 1, { s with groupCount := s.groupCount + 1 })

/-- The flags with one of them set; none for a letter that is no flag. Two flags have no effect on
whether a text matches. -/
def setFlag? (flags : Flags) (letter : Char) (value : Bool) : Option Flags :=
  match letter with
  | 'i' => some { flags with ignoreCase := value }
  | 'm' => some { flags with multiLine := value }
  | 's' => some { flags with dotAll := value }
  | 'x' => some { flags with verbose := value }
  | 'R' => some { flags with anyLineEnd := value }
  | 'U' | 'u' => some flags
  | _ => Option.none

/-- Take flags up to a colon or a closing parenthesis, which is left. `value` is what the flags are
set to, `seen` the letters so far. -/
def readFlags (flags : Flags) (value : Bool) (seen : List Char) : Nat → Parse Flags
  | 0 => fail
  | fuel + 1 => do
    match ← peek? with
    | Option.none => fail
    | some c =>
      if c = ':' ∨ c = ')' then
        if seen.head? = some '-' then fail else return flags
      else if seen.contains c then fail
      else if c = '-' then
        skip
        readFlags flags false (c :: seen) fuel
      else
        match setFlag? flags c value with
        | Option.none => fail
        | some flags =>
          skip
          readFlags flags value (c :: seen) fuel

/-- How a group starts. -/
inductive GroupStart where
  /-- A capturing group. -/
  | capturing (number : Nat) (name : Option String)
  /-- A group that only groups. -/
  | plain
  /-- No group: flags that hold up to the end of the group around. -/
  | flagsOnly

/-- Take the start of a group, flags included; a flags directive is taken whole. -/
def readGroupStart : Parse GroupStart := do
  expect '('
  skipIgnored
  for lookAround in [['?', '='], ['?', '!'], ['?', '<', '='], ['?', '<', '!']] do
    if ← skipIf lookAround then fail
  if ← skipIf ['?', 'P', '<'] then return .capturing (← nextGroup) (some (← readGroupName))
  else if ← skipIf ['?', '<'] then return .capturing (← nextGroup) (some (← readGroupName))
  else if ← skipIf ['?'] then
    let isEmpty := (← peek?) = some ')'
    let flags ← readFlags (← get).flags true [] (← budget)
    modify fun s => { s with flags }
    if (← next) = ')' then
      if isEmpty then fail else return .flagsOnly
    else return .plain
  else return .capturing (← nextGroup) Option.none

/-! ## Patterns -/

/-- The node of some alternatives and of the nodes of a last one, all in reverse. -/
def nodeOfAlternatives (alternatives nodes : List Node) : Node :=
  .ofAlternatives (.ofSequence nodes.reverse :: alternatives).reverse

/-- Take alternatives up to the end of the pattern or a closing parenthesis, which is left. `nodes`
are the nodes of the current alternative and `alternatives` the alternatives before it, both in
reverse; `depth` counts the groups around. -/
def readAlternatives (depth : Nat) (alternatives nodes : List Node) : Nat → Parse Node
  | 0 => fail
  | fuel + 1 => do
    if Node.maxDepth < depth then fail
    skipIgnored
    match ← peek? with
    | Option.none => return nodeOfAlternatives alternatives nodes
    | some ')' => if depth = 0 then fail else return nodeOfAlternatives alternatives nodes
    | some '|' =>
      skip
      readAlternatives depth (.ofSequence nodes.reverse :: alternatives) [] fuel
    | some '(' =>
      let outer := (← get).flags
      match ← readGroupStart with
      | .flagsOnly => readAlternatives depth alternatives nodes fuel
      | start =>
        let inner ← readAlternatives (depth + 1) [] [] fuel
        expect ')'
        modify fun s => { s with flags := outer }
        let node := match start with
          | .capturing number name => .group number name inner
          | _ => inner
        readAlternatives depth alternatives (node :: nodes) fuel
    | some '[' => readAlternatives depth alternatives ((← readClass) :: nodes) fuel
    | some c =>
      if c = '?' ∨ c = '*' ∨ c = '+' ∨ c = '\x7b' then
        readAlternatives depth alternatives (← readRepetition nodes) fuel
      else readAlternatives depth alternatives ((← readSimple) :: nodes) fuel

/-- The tree of a pattern, if it is well formed and within the bounds. -/
def parse? (source : String) : Option Node := do
  let chars := source.toList
  -- Every step takes a character, apart from the one at the end of each group.
  let (node, _) ← (readAlternatives 0 [] [] (2 * chars.length + 1)).run
    ⟨chars, .none, 0, [], chars.length + 1⟩
  if node.isWithinBounds then return node else Option.none

end MetadataGraph.Pattern
