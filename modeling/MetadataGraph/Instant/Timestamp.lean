import MetadataGraph.Instant.Calendar
import MetadataGraph.Text.Blank

/-!
# Timestamps

The text form of an instant, `2001-02-03T04:05:06.789Z`: universal time, with as many groups of
three fraction digits as are needed. Reading is more generous: it takes any offset from universal
time, white space between the parts and numbers without leading zeros.
-/

namespace MetadataGraph.Instant

/-! ## Writing -/

/-- A number with zeros in front, `width` digits at least. -/
def padded (width n : Nat) : String :=
  let digits := toString n
  String.ofList (List.replicate (width - digits.length) '0') ++ digits

/-- Four digits; outside the years 0 to 9999 a sign as well. -/
def yearText (year : Int) : String :=
  if 0 ≤ year ∧ year ≤ 9999 then padded 4 year.toNat
  else (if year < 0 then "-" else "+") ++ padded 4 year.natAbs

/-- The fraction of a second in 0, 3, 6 or 9 digits, as few as are exact. -/
def fractionText (nanos : Nat) : String :=
  if nanos = 0 then ""
  else if nanos % 1000000 = 0 then "." ++ padded 3 (nanos / 1000000)
  else if nanos % 1000 = 0 then "." ++ padded 6 (nanos / 1000)
  else "." ++ padded 9 nanos

/-- The timestamp of an instant. -/
def timestamp (t : Instant) : String :=
  let date := CalendarDate.ofDays (t.second / 86400)
  let ofDay := (t.second % 86400).toNat
  let isLeap := 1000000000 ≤ t.nanos
  let second := ofDay % 60 + (if isLeap then 1 else 0)
  yearText date.year ++ "-" ++ padded 2 date.month ++ "-" ++ padded 2 date.day
    ++ "T" ++ padded 2 (ofDay / 3600) ++ ":" ++ padded 2 (ofDay / 60 % 60) ++ ":" ++ padded 2 second
    ++ fractionText (t.nanos % 1000000000) ++ "Z"

/-! ## Reading -/

/-- A step of the reader: what it read and the rest of the text. -/
abbrev Reading (α : Type) := StateT (List Char) Option α

namespace Reading

/-- Pass over white space. -/
def skipSpace : Reading Unit := modify (·.dropWhile Text.isSpace)

/-- Take one character that passes a test. -/
def charWhere (accept : Char → Bool) : Reading Char := fun
  | c :: rest => if accept c then some (c, rest) else none
  | [] => none

/-- Take the longest run of digits, of which at most `limit` count, as a number with its length;
there must be one digit at least. -/
def digits (limit : Nat) : Reading (Nat × Nat) := fun text =>
  let run := (text.take limit).takeWhile Char.isDigit
  if run.isEmpty then none
  else some ((Nat.ofDigitChars 10 run 0, run.length), text.drop run.length)

/-- Take a number of one or two digits after white space. -/
def twoDigits : Reading Nat := do
  skipSpace
  return (← digits 2).1

/-- Take a year after white space: up to four digits, or any number of them after a sign. -/
def year : Reading Int := do
  skipSpace
  match ← get with
  | '-' :: rest =>
    set rest
    return -((← digits rest.length).1 : Int)
  | '+' :: rest =>
    set rest
    return (← digits rest.length).1
  | _ => return (← digits 4).1

/-- Take a separator after white space. -/
def separator (c : Char) : Reading Unit := do
  skipSpace
  let _ ← charWhere (· == c)

/-- Take the fraction of a second, if there is one, in nanoseconds; digits after the ninth are
passed over. -/
def fraction : Reading Nat := do
  match ← get with
  | '.' :: rest =>
    set rest
    let (n, count) ← digits 9
    modify (·.dropWhile Char.isDigit)
    return n * Nat.pow 10 (9 - count)
  | _ => return 0

/-- Take an offset from universal time in seconds: `Z`, `UTC` or hours and minutes with a sign. -/
def offset : Reading Int := do
  skipSpace
  let text ← get
  if (text.take 3).map Char.toUpper = ['U', 'T', 'C'] then
    set (text.drop 3)
    return 0
  let sign ← charWhere fun c => "Zz+-−".contains c
  if sign = 'Z' ∨ sign = 'z' then
    return 0
  let hourTens ← charWhere Char.isDigit
  let hourOnes ← charWhere Char.isDigit
  modify (·.dropWhile fun c => c == ':' || Text.isSpace c)
  let minuteTens ← charWhere fun c => c.isDigit && c ≤ '5'
  let minuteOnes ← charWhere Char.isDigit
  let hours := Nat.ofDigitChars 10 [hourTens, hourOnes] 0
  let minutes := Nat.ofDigitChars 10 [minuteTens, minuteOnes] 0
  guard (hours < 24)
  let seconds : Int := hours * 3600 + minutes * 60
  return if sign = '+' then seconds else -seconds

end Reading

/-- The instant at a second count and a nanosecond count, if it is in range. -/
def ofParts? (second : Int) (nanos : Nat) : Option Instant :=
  if h : nanos < 2000000000 ∧ -8334601228800 ≤ second ∧ second ≤ 8210266876799 then
    some ⟨second, nanos, h.1, h.2.1, h.2.2⟩
  else none

/-- Read a whole timestamp. -/
def readTimestamp : Reading Instant := do
  let year ← Reading.year
  Reading.separator '-'
  let month ← Reading.twoDigits
  Reading.separator '-'
  let day ← Reading.twoDigits
  let _ ← Reading.charWhere fun c => c == 't' || c == 'T' || c == ' '
  let hour ← Reading.twoDigits
  Reading.separator ':'
  let minute ← Reading.twoDigits
  Reading.separator ':'
  let second ← Reading.twoDigits
  let fraction ← Reading.fraction
  let offset ← Reading.offset
  Reading.skipSpace
  let date : CalendarDate := ⟨year, month, day⟩
  guard ((← get).isEmpty && date.isValid && -262143 ≤ year && year ≤ 262142)
  guard (hour < 24 && minute < 60 && second ≤ 60)
  -- The sixtieth second is held as a prolonged fifty-ninth.
  let ofMinute : Int := if second = 60 then 59 else second
  let nanos := if second = 60 then 1000000000 + fraction else fraction
  let wallSecond : Int := date.toDays * 86400 + hour * 3600 + minute * 60 + ofMinute
  StateT.lift (ofParts? (wallSecond - offset) nanos)

/-- The instant that a timestamp names. -/
def ofTimestamp? (text : String) : Option Instant :=
  (readTimestamp.run text.toList).map Prod.fst

end MetadataGraph.Instant
