/-
Chronicle/Date.lean

Calendar dates of the proleptic Gregorian calendar, from year -262143 to 262142.

A date is written as year, month and day; years of up to four digits have no
sign, all others do.  Reading allows white space in front of every number and
every hyphen and at the end, one digit for month and day, and any number of
digits behind a sign of the year.
-/
import Chronicle.Text.Blank
import Chronicle.Text.Digits

namespace Chronicle

/-- Leap years have 29 days in February. -/
def isLeapYear (year : Int) : Bool :=
  (year % 4 == 0 && year % 100 != 0) || year % 400 == 0

/-- The number of days of a month. -/
def daysInMonth (year : Int) (month : Nat) : Nat :=
  if month = 2 then if isLeapYear year then 29 else 28
  else if month = 4 ∨ month = 6 ∨ month = 9 ∨ month = 11 then 30
  else 31

/-- A calendar date. -/
structure Date where
  year : Int
  month : Nat
  day : Nat
  year_mem : -262143 ≤ year ∧ year ≤ 262142
  month_mem : 1 ≤ month ∧ month ≤ 12
  day_mem : 1 ≤ day ∧ day ≤ daysInMonth year month

namespace Date

@[ext] theorem ext {a b : Date} (hy : a.year = b.year) (hm : a.month = b.month)
    (hd : a.day = b.day) : a = b := by
  cases a; cases b; simp_all

instance : DecidableEq Date := fun a b =>
  if h : a.year = b.year ∧ a.month = b.month ∧ a.day = b.day then
    isTrue (ext h.1 h.2.1 h.2.2)
  else isFalse fun hab => h (hab ▸ ⟨rfl, rfl, rfl⟩)

/-- The date of a year, a month and a day, if there is one. -/
def ofParts? (year : Int) (month day : Nat) : Option Date :=
  if hy : -262143 ≤ year ∧ year ≤ 262142 then
    if hm : 1 ≤ month ∧ month ≤ 12 then
      if hd : 1 ≤ day ∧ day ≤ daysInMonth year month then some ⟨year, month, day, hy, hm, hd⟩
      else none
    else none
  else none

/-- Whether a date comes after another one. -/
def isAfter (a b : Date) : Bool :=
  a.year > b.year || (a.year == b.year
    && (a.month > b.month || (a.month == b.month && a.day > b.day)))

/-! ### Writing -/

/-- The decimal digits of a number, filled up with zeros to a width. -/
def padded (width n : Nat) : List Char :=
  let ds := Nat.toDigits 10 n
  List.replicate (width - ds.length) '0' ++ ds

/-- The year, with a sign unless it has at most four digits and is not negative. -/
def yearText (year : Int) : List Char :=
  if 0 ≤ year ∧ year ≤ 9999 then padded 4 year.toNat
  else (if year < 0 then '-' else '+') :: padded 4 year.natAbs

/-- The date as text. -/
def toString (d : Date) : String :=
  String.ofList (yearText d.year ++ '-' :: padded 2 d.month ++ '-' :: padded 2 d.day)

instance : ToString Date := ⟨toString⟩

/-! ### Reading -/

/-- A number of at least one and at most `width` digits, and the rest. -/
def readNumber (width : Nat) (cs : List Char) : Option (Nat × List Char) :=
  let ds := (cs.take width).takeWhile Text.isDigit
  if ds.isEmpty then none else some (Text.number ds, cs.drop ds.length)

/-- A year behind white space: four digits at most without a sign. -/
def readYear (cs : List Char) : Option (Int × List Char) :=
  match Text.trimStart cs with
  | '-' :: rest => (readNumber rest.length rest).map fun r => (-(r.1 : Int), r.2)
  | '+' :: rest => (readNumber rest.length rest).map fun r => ((r.1 : Int), r.2)
  | rest => (readNumber 4 rest).map fun r => ((r.1 : Int), r.2)

/-- A hyphen behind white space, and then a number of one or two digits. -/
def readPart (cs : List Char) : Option (Nat × List Char) :=
  match Text.trimStart cs with
  | '-' :: rest => readNumber 2 (Text.trimStart rest)
  | _ => none

/-- The date that a text names. -/
def parse? (s : String) : Option Date := do
  let (year, rest) ← readYear s.toList
  let (month, rest) ← readPart rest
  let (day, rest) ← readPart rest
  if (Text.trimStart rest).isEmpty then ofParts? year month day else none

end Date

end Chronicle
