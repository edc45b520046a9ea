import Classpath.Toml.Quoted

/-! # Dates and times

    A moment is a date, a time or both, and with both may come the distance
    from universal time.  Fractions of a second are kept to nine places;
    further digits are cut off. -/

namespace Classpath.Toml

/-- A day of the calendar. -/
structure Date where
  year : Nat
  month : Nat
  day : Nat
  deriving DecidableEq, Repr

/-- A time of the day. -/
structure Time where
  hour : Nat
  minute : Nat
  second : Nat
  nanosecond : Nat
  deriving DecidableEq, Repr

/-- The distance from universal time. -/
inductive Offset where
  | universal
  | minutes (n : Int)
  deriving DecidableEq, Repr

/-- A date, a time or both. -/
inductive Moment where
  | date (d : Date)
  | time (t : Time)
  | both (d : Date) (t : Time) (offset : Option Offset)
  deriving DecidableEq, Repr

/-- A number written with a fixed count of digits. -/
def fixed (count n : Nat) : List Char :=
  let digits := Nat.toDigits 10 n
  List.replicate (count - digits.length) '0' ++ digits

/-! ## The standard form -/

/-- A date in its standard form. -/
def Date.show (d : Date) : List Char :=
  fixed 4 d.year ++ '-' :: fixed 2 d.month ++ '-' :: fixed 2 d.day

/-- A time in its standard form, without zeros at the end of a fraction. -/
def Time.show (t : Time) : List Char :=
  let fraction := (fixed 9 t.nanosecond).reverse.dropWhile (· == '0')
  fixed 2 t.hour ++ ':' :: fixed 2 t.minute ++ ':' :: fixed 2 t.second
    ++ (if fraction.isEmpty then [] else '.' :: fraction.reverse)

/-- A distance in its standard form. -/
def Offset.show : Offset → List Char
  | .universal => ['Z']
  | .minutes n =>
      (if n < 0 then '-' else '+') :: fixed 2 (n.natAbs / 60)
        ++ ':' :: fixed 2 (n.natAbs % 60)

/-- A moment in its standard form. -/
def Moment.show : Moment → String
  | .date d => String.ofList d.show
  | .time t => String.ofList t.show
  | .both d t offset =>
      String.ofList (d.show ++ 'T' :: t.show ++ (offset.map Offset.show).getD [])

/-! ## Reading -/

/-- A number of exactly this many digits within these bounds. -/
def scanFixed (count least greatest : Nat) (s : List Char) : Scan Nat :=
  let digits := s.take count
  if digits.length = count ∧ digits.all Char.isDigit then
    let n := digits.foldl (fun n c => 10 * n + (c.toNat - '0'.toNat)) 0
    if least ≤ n ∧ n ≤ greatest then some (n, s.drop count) else none
  else none

/-- The text after a certain character. -/
def scanChar (c : Char) : List Char → Option (List Char)
  | [] => none
  | x :: rest => if x = c then some rest else none

/-- The number of days of a month. -/
def daysIn (year month : Nat) : Nat :=
  if month = 2 then
    if year % 4 = 0 ∧ (year % 100 ≠ 0 ∨ year % 400 = 0) then 29 else 28
  else if month = 4 ∨ month = 6 ∨ month = 9 ∨ month = 11 then 30
  else 31

/-- A date at the front of a text. -/
def scanDate (s : List Char) : Option (Date × List Char) := do
  let (year, s) ← scanFixed 4 0 9999 s
  let s ← scanChar '-' s
  let (month, s) ← scanFixed 2 1 12 s
  let s ← scanChar '-' s
  let (day, s) ← scanFixed 2 1 (daysIn year month) s
  pure (⟨year, month, day⟩, s)

/-- A fraction of a second in nanoseconds, or nothing. -/
def scanNanosecond : List Char → Nat × List Char
  | '.' :: s =>
      let digits := s.takeWhile Char.isDigit
      if digits.isEmpty then (0, '.' :: s)
      else
        let nine := (digits ++ List.replicate 9 '0').take 9
        (nine.foldl (fun n c => 10 * n + (c.toNat - '0'.toNat)) 0,
          s.drop digits.length)
  | s => (0, s)

/-- A time at the front of a text. -/
def scanTime (s : List Char) : Option (Time × List Char) := do
  let (hour, s) ← scanFixed 2 0 23 s
  let s ← scanChar ':' s
  let (minute, s) ← scanFixed 2 0 59 s
  let s ← scanChar ':' s
  let (second, s) ← scanFixed 2 0 60 s
  let (nanosecond, s) := scanNanosecond s
  pure (⟨hour, minute, second, nanosecond⟩, s)

/-- The hours and minutes of a distance from universal time. -/
def scanMinutes (s : List Char) : Option (Nat × List Char) := do
  let (hour, s) ← scanFixed 2 0 23 s
  let s ← scanChar ':' s
  let (minute, s) ← scanFixed 2 0 59 s
  pure (60 * hour + minute, s)

/-- A distance from universal time at the front of a text, or nothing. -/
def scanOffset (s : List Char) : Option Offset × List Char :=
  match s with
  | 'Z' :: rest | 'z' :: rest => (some .universal, rest)
  | '+' :: rest => match scanMinutes rest with
    | some (n, rest) => (some (.minutes n), rest)
    | none => (none, s)
  | '-' :: rest => match scanMinutes rest with
    | some (n, rest) => (some (.minutes (-n)), rest)
    | none => (none, s)
  | _ => (none, s)

/-- What separates a time from the date before it. -/
def isTimeMark (c : Char) : Bool := c == 'T' || c == 't' || c == ' '

/-- A time and a distance after a date, if they are there. -/
def scanAfterDate (d : Date) (s : List Char) : Moment × List Char :=
  match s with
  | c :: rest =>
      match if isTimeMark c then scanTime rest else none with
      | some (t, rest) =>
          let (offset, rest) := scanOffset rest
          (.both d t offset, rest)
      | none => (.date d, s)
  | [] => (.date d, s)

/-- A moment at the front of a text. -/
def scanMoment (s : List Char) : Option (Moment × List Char) :=
  match scanDate s with
  | some (d, rest) => some (scanAfterDate d rest)
  | none => (scanTime s).map fun (t, rest) => (.time t, rest)

end Classpath.Toml
