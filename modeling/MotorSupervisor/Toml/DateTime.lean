import MotorSupervisor.Decimal.Literal

/-!
# Dates and times of a document

The four kinds of date-time scalars: a date, a time, and a date with a time
with or without an offset.  Only well-formedness matters to this library, so
the readers return what follows the part they recognise.
-/

namespace MotorSupervisor
namespace Toml

/-- A number of exactly `count` decimal digits, and what follows it. -/
def fixedDigits? (count : Nat) (cs : List Char) : Option (Nat × List Char) :=
  let digits := cs.take count
  if digits.length = count then
    (ofDigits? 10 digits).map (·, cs.drop count)
  else none

/-- The text after one given character. -/
def after? (c : Char) : List Char → Option (List Char)
  | [] => none
  | d :: rest => if d = c then some rest else none

/-- Leap years of the Gregorian calendar. -/
def isLeapYear (year : Nat) : Bool :=
  year % 4 == 0 && (year % 100 != 0 || year % 400 == 0)

/-- Number of days of a month; `0` for a month that does not exist. -/
def daysInMonth (year month : Nat) : Nat :=
  if month = 2 then (if isLeapYear year then 29 else 28)
  else if month = 4 ∨ month = 6 ∨ month = 9 ∨ month = 11 then 30
  else if 1 ≤ month ∧ month ≤ 12 then 31
  else 0

/-- The text after a date. -/
def date? (cs : List Char) : Option (List Char) := do
  let (year, cs) ← fixedDigits? 4 cs
  let cs ← after? '-' cs
  let (month, cs) ← fixedDigits? 2 cs
  let cs ← after? '-' cs
  let (day, cs) ← fixedDigits? 2 cs
  if 1 ≤ day ∧ day ≤ daysInMonth year month then some cs else none

/-- The text after the optional fraction of a second. -/
def fraction? : List Char → Option (List Char)
  | '.' :: rest =>
      let (digits, rest) := spanDigits rest
      if digits.isEmpty then none else some rest
  | cs => some cs

/-- The text after a time of day; seconds are optional. -/
def time? (cs : List Char) : Option (List Char) := do
  let (hour, cs) ← fixedDigits? 2 cs
  let cs ← after? ':' cs
  let (minute, cs) ← fixedDigits? 2 cs
  if 23 < hour ∨ 59 < minute then none
  else
    match cs with
    | ':' :: rest =>
        let (second, rest) ← fixedDigits? 2 rest
        if 60 < second then none else fraction? rest
    | rest => some rest

/-- The offset from universal time, as a whole text. -/
def isOffset : List Char → Bool
  | ['Z'] => true
  | ['z'] => true
  | sign :: rest =>
      (sign == '+' || sign == '-') &&
        match time? rest with
        | some [] => rest.length == 5
        | _ => false
  | [] => false

/-- A date-time scalar of any kind. -/
def isDateTime (cs : List Char) : Bool :=
  match date? cs with
  | some [] => true
  | some (separator :: rest) =>
      (separator == 'T' || separator == 't' || separator == ' ') &&
        match time? rest with
        | some [] => true
        | some offset => isOffset offset
        | none => false
  | none =>
      match time? cs with
      | some [] => true
      | _ => false

end Toml
end MotorSupervisor
