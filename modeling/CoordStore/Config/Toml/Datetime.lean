import CoordStore.Config.Toml.Reader
/-!
# Dates and times of TOML

A TOML date-time is a date (`1979-05-27`), a time of day (`07:32:00.5`), or a date and a time
joined by `T`, `t` or a blank, with an offset from UTC (`Z`, `+01:00`) allowed after a time
that follows a date.

Fields must lie in their ranges: months 1 to 12, days up to the length of the month (February
has 29 days in leap years), hours 0 to 23, minutes 0 to 59, seconds 0 to 60. A time that
follows a date but does not read leaves the date alone. Fractions of a second keep nine
digits; further digits are dropped.

A date-time is written back as `YYYY-MM-DD`, `HH:MM:SS` with the fraction's digits up to the
last one that is not zero, and `Z` or a signed offset; a zero offset is written `+00:00`.
-/

namespace CoordStore.Config.Toml

open Reader

/-- A calendar date. -/
structure Date where
  year : Nat
  month : Nat
  day : Nat
  deriving DecidableEq, Repr

/-- A time of day, to the nanosecond. -/
structure Time where
  hour : Nat
  minute : Nat
  second : Nat
  nanosecond : Nat
  deriving DecidableEq, Repr

/-- An offset from UTC. -/
inductive Offset where
  /-- UTC itself, written `Z`. -/
  | utc
  /-- A number of minutes ahead of UTC (behind it when negative). -/
  | minutes (m : Int)
  deriving DecidableEq, Repr

/-- A date, a time, or both, with an offset for a time that follows a date. -/
structure Datetime where
  date : Option Date
  time : Option Time
  offset : Option Offset
  deriving DecidableEq, Repr

/-- A number in decimal with at least `width` digits, zeros in front. -/
def padded (width n : Nat) : String :=
  let ds := Nat.toDigits 10 n
  String.ofList (List.replicate (width - ds.length) '0' ++ ds)

/-- The date as `YYYY-MM-DD`. -/
def Date.text (d : Date) : String :=
  padded 4 d.year ++ "-" ++ padded 2 d.month ++ "-" ++ padded 2 d.day

/-- The time as `HH:MM:SS`, with the fraction when it is not zero, without trailing zeros. -/
def Time.text (t : Time) : String :=
  let clock := padded 2 t.hour ++ ":" ++ padded 2 t.minute ++ ":" ++ padded 2 t.second
  if t.nanosecond = 0 then clock
  else
    let digits := (padded 9 t.nanosecond).toList
    clock ++ "." ++ String.ofList (digits.reverse.dropWhile (· = '0')).reverse

/-- The offset as `Z` or `±HH:MM`; zero is `+00:00`. -/
def Offset.text : Offset → String
  | .utc => "Z"
  | .minutes m =>
    let sign := if m < 0 then "-" else "+"
    sign ++ padded 2 (m.natAbs / 60) ++ ":" ++ padded 2 (m.natAbs % 60)

/-- The date-time as TOML writes it. -/
def Datetime.text (d : Datetime) : String :=
  let date := (d.date.map Date.text).getD ""
  let joint := if d.date.isSome && d.time.isSome then "T" else ""
  date ++ joint ++ (d.time.map Time.text).getD "" ++ (d.offset.map Offset.text).getD ""

/-- The value of decimal digit characters. -/
def digitsValue (cs : List Char) : Nat :=
  cs.foldl (fun acc c => 10 * acc + (c.toNat - '0'.toNat)) 0

/-- Reads a field of two digits whose value must lie in `[lo, hi]`. -/
def twoDigits (lo hi : Nat) : Reader Nat :=
  checked (takeBetween 2 2 Char.isDigit) fun ds =>
    let v := digitsValue ds
    if lo ≤ v && v ≤ hi then .ok v else .error .outOfRange

/-- Whether a year is a leap year of the Gregorian calendar. -/
def isLeapYear (y : Nat) : Bool :=
  y % 4 = 0 && (y % 100 ≠ 0 || y % 400 = 0)

/-- The number of days of a month of a year. -/
def daysInMonth (y m : Nat) : Nat :=
  if m = 2 then (if isLeapYear y then 29 else 28)
  else if m = 4 || m = 6 || m = 9 || m = 11 then 30
  else 31

/-- Reads a date. Once the year and its dash are read, the rest must follow. -/
def fullDate : Reader Date := do
  let year := digitsValue (← takeBetween 4 4 Char.isDigit)
  token '-'
  let month ← commit (twoDigits 1 12)
  commit (token '-')
  let dayStart ← position
  let day ← commit (twoDigits 1 31)
  if day > daysInMonth year month then failAt true dayStart (some .outOfRange)
  else pure { year, month, day }

/-- Reads the fraction of a second after its point: nine digits at most are kept. -/
def secondFraction : Reader Nat := do
  token '.'
  let ds ← takeWhile1 Char.isDigit
  let kept := ds.take 9
  pure (digitsValue kept * Nat.pow 10 (9 - kept.length))

/-- Reads a time of day. Once the hour and its colon are read, the rest must follow. -/
def clockTime : Reader Time := do
  let hour ← twoDigits 0 23
  token ':'
  commit do
    let minute ← twoDigits 0 59
    token ':'
    let second ← twoDigits 0 60
    let nanosecond ← optional secondFraction
    pure { hour, minute, second, nanosecond := nanosecond.getD 0 }

/-- Reads an offset from UTC: `Z` in either case, or a sign, hours and minutes. -/
def timeOffset : Reader Offset :=
  labelled "time offset" <|
    orElse ((fun _ => Offset.utc) <$> satisfy (fun c => c = 'Z' || c = 'z')) do
      let sign ← satisfy (fun c => c = '+' || c = '-')
      commit do
        let h ← twoDigits 0 23
        token ':'
        let m ← twoDigits 0 59
        let minutes : Int := h * 60 + m
        pure (.minutes (if sign = '-' then -minutes else minutes))

/-- Reads a date-time: a date with an optional time and offset, or a time of day. -/
def dateTime : Reader Datetime :=
  orElse
    (labelled "date-time" do
      let date ← fullDate
      let rest ← optional do
        let _ ← satisfy (fun c => c = 'T' || c = 't' || c = ' ')
        let time ← clockTime
        let offset ← optional timeOffset
        pure (time, offset)
      match rest with
      | some (time, offset) => pure { date := some date, time := some time, offset }
      | none => pure { date := some date, time := none, offset := none })
    (labelled "time" ((fun t => { date := none, time := some t, offset := none }) <$> clockTime))

/-! ### Date-time text

A date-time can also be given as text, as in a table marked as a date-time. The text is cut
into pieces (runs of digits, the marks `-`, `:`, `.`, `T`, a blank, `Z`, `+`, and any other
character, which takes the rest of the text), and the pieces are read in turn: a date, then a
time after `T` or a blank, then an offset, all as in a TOML document, except that a fraction
may have any number of digits and an offset needs a date. A text that starts with digits and
a colon is a time. Each fault names the part it is in and what was expected there. -/

/-- A piece of date-time text. -/
inductive Piece where
  | digits (ds : List Char)
  | dash
  | colon
  | dot
  | letterT
  | blank
  | letterZ
  | plus
  /-- An unreadable character and all the text after it. -/
  | other
  deriving DecidableEq

/-- The next piece of date-time text and the text after it. -/
def nextPiece : List Char → Option (Piece × List Char)
  | [] => none
  | c :: rest =>
    if c.isDigit then
      some (.digits (c :: rest.takeWhile Char.isDigit), rest.dropWhile Char.isDigit)
    else match c with
      | '-' => some (.dash, rest)
      | ':' => some (.colon, rest)
      | '.' => some (.dot, rest)
      | 'T' | 't' => some (.letterT, rest)
      | ' ' => some (.blank, rest)
      | 'Z' | 'z' => some (.letterZ, rest)
      | '+' => some (.plus, rest)
      | _ => some (.other, [])

/-- A reader of date-time text, piece by piece. -/
abbrev TextReader := StateT (List Char) (Except Cause)

namespace TextReader

/-- Refuses the text: the part at fault and what was expected. -/
def fault {α : Type} (part : DatetimePart) (expected : Option String) : TextReader α :=
  throw (.badDatetime part expected)

/-- The next piece, if there is one, without taking it. -/
def peekPiece : TextReader (Option Piece) := do
  return (nextPiece (← get)).map (·.1)

/-- Takes the next piece; at the end of the text, the fault given. -/
def piece (part : DatetimePart) (expected : Option String) : TextReader Piece := do
  match nextPiece (← get) with
  | some (p, rest) => set rest; pure p
  | none => fault part expected

/-- Takes the next piece, which must be digits; otherwise the fault given. -/
def digits (part : DatetimePart) (expected : String) : TextReader (List Char) := do
  match ← piece part (some expected) with
  | .digits ds => pure ds
  | _ => fault part (some expected)

/-- Takes the next piece, which must be the mark given; otherwise the fault given. -/
def mark (p : Piece) (part : DatetimePart) (expected : String) : TextReader Unit := do
  if (← piece part (some expected)) ≠ p then fault part (some expected)

/-- Requires digits of a given length. -/
def sized (ds : List Char) (n : Nat) (part : DatetimePart) (expected : String) :
    TextReader Unit :=
  if ds.length = n then pure () else fault part (some expected)

/-- Reads a date: year, month and day with dashes between them, checked for their lengths
and ranges once all three are read. -/
def date : TextReader Date := do
  let year ← digits .whole "year or hour"
  mark .dash .whole "`-` (YYYY-MM) or `:` (HH:MM)"
  let month ← digits .date "month"
  mark .dash .date "`-` (MM-DD)"
  let day ← digits .date "day"
  sized year 4 .date "a four-digit year (YYYY)"
  sized month 2 .date "a two-digit month (MM)"
  sized day 2 .date "a two-digit day (DD)"
  let d : Date := { year := digitsValue year, month := digitsValue month, day := digitsValue day }
  if d.month < 1 || d.month > 12 then fault .date (some "month between 01 and 12")
  let most := daysInMonth d.year d.month
  if d.day < 1 || d.day > most then
    fault .date (some ("day between 01 and " ++ toString most))
  pure d

/-- Reads a time of day: hour, minute and second with colons between them and an optional
fraction, checked for their lengths and ranges once read. Nine digits of the fraction are
kept. -/
def time : TextReader Time := do
  let hour ← digits .time "hour"
  mark .colon .time "`:` (HH:MM)"
  let minute ← digits .time "minute"
  mark .colon .time "`:` (MM:SS)"
  let second ← digits .time "second"
  let fraction ← if (← peekPiece) = some .dot then do
      let _ ← piece .whole none
      some <$> digits .time "nanosecond"
    else pure none
  sized hour 2 .time "a two-digit hour (HH)"
  sized minute 2 .time "a two-digit minute (MM)"
  sized second 2 .time "a two-digit second (SS)"
  let t : Time :=
    { hour := digitsValue hour, minute := digitsValue minute, second := digitsValue second,
      nanosecond := match fraction with
        | some ds =>
          let kept := ds.take 9
          digitsValue kept * Nat.pow 10 (9 - kept.length)
        | none => 0 }
  if t.hour > 23 then fault .time (some "hour between 00 and 23")
  if t.minute > 59 then fault .time (some "minute between 00 and 59")
  if t.second > 60 then fault .time (some "second between 00 and 60")
  pure t

/-- Reads the offset after a sign. -/
def signedOffset (negative : Bool) : TextReader Offset := do
  let h ← digits .offset "hour"
  mark .colon .offset "`:` (HH:MM)"
  let m ← digits .offset "minute"
  sized h 2 .offset "a two-digit hour (HH)"
  sized m 2 .offset "a two-digit minute (MM)"
  if digitsValue h > 23 then fault .offset (some "hours between 00 and 23")
  if digitsValue m > 59 then fault .offset (some "minutes between 00 and 59")
  let minutes : Int := digitsValue h * 60 + digitsValue m
  pure (.minutes (if negative then -minutes else minutes))

/-- Reads a whole date-time text. -/
def datetime : TextReader Datetime := do
  let start ← get
  let d ← match nextPiece start with
    | some (.digits _, rest) =>
      if (nextPiece rest).map (·.1) = some .colon then pure none else some <$> date
    | _ => some <$> date
  let timed ← match d with
    | none => pure true
    | some _ => match ← peekPiece with
      | some .letterT | some .blank => do let _ ← piece .whole none; pure true
      | some _ => fault .dateTime (some "`T` between date and time")
      | none => pure false
  let t ← if timed then some <$> time else pure none
  let o ← if d.isSome && t.isSome then
      match ← peekPiece with
      | some .letterZ => do let _ ← piece .whole none; pure (some Offset.utc)
      | some .plus => do let _ ← piece .whole none; some <$> signedOffset false
      | some .dash => do let _ ← piece .whole none; some <$> signedOffset true
      | some _ => fault .offset (some "`Z`, +OFFSET, -OFFSET")
      | none => pure none
    else pure none
  if !(← get).isEmpty then fault .whole none
  pure { date := d, time := t, offset := o }

end TextReader

/-- The date-time a text names, or why it names none. -/
def Datetime.ofText (s : String) : Except Cause Datetime :=
  (TextReader.datetime.run s.toList).map (·.1)

end CoordStore.Config.Toml
