/-
Dates and times of TOML documents.

* `date?`: a day of the calendar.
* `time?`: a time of day, with any number of digits behind the seconds.
* `moment?`: a date, a time, or both with a letter or a blank between them.
  What follows it is the answer.
-/

namespace Datapath.Toml

/-- Two digits for a number in some range, and what follows them. -/
def pair? (low high : Nat) : List Char → Option (Nat × List Char)
  | a :: b :: cs =>
    let n := 10 * (a.toNat - '0'.toNat) + (b.toNat - '0'.toNat)
    if a.isDigit ∧ b.isDigit ∧ low ≤ n ∧ n ≤ high then some (n, cs) else none
  | _ => none

/-- What follows one certain character. -/
def mark? (c : Char) : List Char → Option (List Char)
  | d :: cs => if c = d then some cs else none
  | [] => none

/-- The length of a month. -/
def monthLength (year month : Nat) : Nat :=
  if month = 2 then
    if year % 4 = 0 ∧ (year % 100 ≠ 0 ∨ year % 400 = 0) then 29 else 28
  else if month ∈ [4, 6, 9, 11] then 30
  else 31

/-- What follows a date: four digits for the year, two for the month and two
for the day. -/
def date? (cs : List Char) : Option (List Char) := do
  let (century, cs) ← pair? 0 99 cs
  let (year, cs) ← pair? 0 99 cs
  let (month, cs) ← pair? 1 12 (← mark? '-' cs)
  let (_, cs) ← pair? 1 (monthLength (100 * century + year) month) (← mark? '-' cs)
  return cs

/-- What follows a time of day. The last minute may have a sixty-first
second. -/
def time? (cs : List Char) : Option (List Char) := do
  let (_, cs) ← pair? 0 23 cs
  let (_, cs) ← pair? 0 59 (← mark? ':' cs)
  let (_, cs) ← pair? 0 60 (← mark? ':' cs)
  match cs with
  | '.' :: d :: rest => if d.isDigit then return rest.dropWhile Char.isDigit else return cs
  | _ => return cs

/-- What follows an offset from universal time, if there is one. -/
def skipOffset (cs : List Char) : List Char :=
  match cs with
  | 'Z' :: rest | 'z' :: rest => rest
  | '+' :: rest | '-' :: rest => (hours? rest).getD cs
  | _ => cs
where
  hours? (cs : List Char) : Option (List Char) := do
    let (_, cs) ← pair? 0 23 cs
    let (_, cs) ← pair? 0 59 (← mark? ':' cs)
    return cs

/-- What follows a date, a time or both. -/
def moment? (cs : List Char) : Option (List Char) :=
  match date? cs with
  | none => time? cs
  | some [] => some []
  | some (c :: rest) =>
    if c ∈ ['T', 't', ' '] then
      match time? rest with
      | some rest => some (skipOffset rest)
      | none => some (c :: rest)
    else some (c :: rest)

end Datapath.Toml
