import SqlTemplate.Text.Digit

/-!
# Dates and times of day

A date of the proleptic Gregorian calendar, and a date with a time of day that may know its
offset from universal time. Two times with offsets are equal if they are the same instant; a
time without an offset equals none that has one. The written form is the ISO one.
-/

namespace SqlTemplate

/-- A date. -/
structure Date where
  year : Nat
  month : Nat
  day : Nat
  deriving DecidableEq, Repr

/-- A date with a time of day. -/
structure DateTime where
  date : Date
  hour : Nat
  minute : Nat
  second : Nat
  microsecond : Nat
  /-- Seconds east of universal time, if known. -/
  offset? : Option Int
  deriving DecidableEq, Repr

namespace Date

/-- A date as year, month and day of two digits and more, joined by hyphens. -/
def iso (d : Date) : Text :=
  Text.ofNatPadded 4 d.year ++ '-' :: Text.ofNatPadded 2 d.month ++ '-' :: Text.ofNatPadded 2 d.day

/-- Whether a year has a leap day. -/
def isLeap (year : Nat) : Bool := year % 4 == 0 && (year % 100 != 0 || year % 400 == 0)

/-- How many days of a year come before a month. -/
def daysBeforeMonth (year month : Nat) : Nat :=
  let lengths := [31, if isLeap year then 29 else 28, 31, 30, 31, 30, 31, 31, 30, 31, 30, 31]
  (lengths.take (month - 1)).foldl (· + ·) 0

/-- The number of a date, counted in days. -/
def dayNumber (d : Date) : Nat :=
  let years := d.year - 1
  years * 365 + years / 4 - years / 100 + years / 400 + daysBeforeMonth d.year d.month + d.day

/-- A date from its written form. -/
def ofText? : Text → Option Date
  | [a, b, c, d, '-', e, f, '-', g, h] =>
    if [a, b, c, d, e, f, g, h].all Text.isDigit then
      some ⟨Text.natOfDigits [a, b, c, d], Text.natOfDigits [e, f], Text.natOfDigits [g, h]⟩
    else none
  | _ => none

end Date

namespace DateTime

/-- Hours and minutes, and seconds if there are any, joined by colons. -/
def clock (seconds : Nat) : Text :=
  let minutes := seconds / 60
  Text.ofNatPadded 2 (minutes / 60) ++ ':' :: Text.ofNatPadded 2 (minutes % 60) ++
    if seconds % 60 = 0 then [] else ':' :: Text.ofNatPadded 2 (seconds % 60)

/-- An offset with its sign. -/
def offsetText (offset : Int) : Text := (if offset < 0 then '-' else '+') :: clock offset.natAbs

/-- A time in its written form, with `separator` between date and time of day. -/
def iso (separator : Char) (t : DateTime) : Text :=
  t.date.iso ++ separator :: Text.ofNatPadded 2 t.hour ++ ':' :: Text.ofNatPadded 2 t.minute ++
    ':' :: Text.ofNatPadded 2 t.second ++
    (if t.microsecond = 0 then [] else '.' :: Text.ofNatPadded 6 t.microsecond) ++
    (t.offset?.map offsetText).getD []

/-- Midnight at the beginning of a date. -/
def midnight (d : Date) : DateTime := ⟨d, 0, 0, 0, 0, none⟩

/-- The number of microseconds on the clock, or in universal time if the offset is known. -/
def instant (t : DateTime) : Int :=
  ((((t.date.dayNumber * 24 + t.hour) * 60 + t.minute) * 60 + t.second : Nat) -
    t.offset?.getD 0) * 1000000 + t.microsecond

/-- Whether two times are the same instant, or the same time of day if neither has an offset. -/
def sameInstant (s t : DateTime) : Bool :=
  s.offset?.isSome == t.offset?.isSome && s.instant == t.instant

/-- Numbers of two digits joined by colons, and the rest of the text. -/
def readClock : Text → List Nat × Text
  | a :: b :: ':' :: rest =>
    let (parts, rest) := readClock rest
    (Text.natOfDigits [a, b] :: parts, rest)
  | a :: b :: rest => ([Text.natOfDigits [a, b]], rest)
  | rest => ([], rest)

/-- An offset from its written form; no text means no offset. -/
def readOffset? : Text → Option (Option Int)
  | [] => some none
  | ['Z'] => some (some 0)
  | sign :: rest =>
    let (parts, rest) := readClock rest
    let seconds : Int :=
      parts.getD 0 0 * 3600 + parts.getD 1 0 * 60 + parts.getD 2 0
    if !rest.isEmpty then none
    else if sign = '+' then some (some seconds)
    else if sign = '-' then some (some (-seconds))
    else none

/-- A time from its written form; of a fraction of a second six digits count. -/
def ofText? (text : Text) : Option DateTime := do
  let date ← Date.ofText? (text.take 10)
  let (parts, rest) := readClock (text.drop 11)
  let (fraction, rest) :=
    match rest with
    | '.' :: rest => (rest.takeWhile Text.isDigit, rest.dropWhile Text.isDigit)
    | rest => ([], rest)
  let microsecond := Text.natOfDigits ((fraction ++ List.replicate 6 '0').take 6)
  let offset? ← readOffset? rest
  return ⟨date, parts.getD 0 0, parts.getD 1 0, parts.getD 2 0, microsecond, offset?⟩

end DateTime

end SqlTemplate
