import LineShell.Text.Words
import LineShell.Toml.Escape
import LineShell.Toml.Value

/-!
# Values without quotes

A bare word as a value is a truth value, a number, or a date or time.

* `ungroup` — a run of digits that may be grouped by underscores.
* `integer?` — whole numbers in decimal, hexadecimal, octal or binary.
* `float?` — numbers with a fraction or an exponent, and infinity and its like.
* `isDate` — dates, times, and both together.
* **`scalar?`** — the value of a word.
-/

namespace LineShell.Toml

/-! ## Digits -/

/-- The digits of a number, where underscores may only stand between two of them. -/
def ungroup (isDigit : Char → Bool) : List Char → Option (List Char)
  | [] => none
  | [c] => if isDigit c then some [c] else none
  | c :: d :: cs =>
    if !isDigit c then none
    else if d = '_' then (ungroup isDigit cs).map (c :: ·)
    else (ungroup isDigit (d :: cs)).map (c :: ·)

/-- The number that digits of a base stand for. -/
def ofDigits (base : Nat) (ds : List Char) : Nat :=
  ds.foldl (fun n c => base * n + (hexValue? c).getD 0) 0

def isDigitOf (base : Nat) (c : Char) : Bool :=
  (hexValue? c).any (· < base)

/-- A whole number without a sign, its underscores removed; only a lone zero begins with zero. -/
def decimal? (cs : List Char) : Option (List Char) :=
  (ungroup (isDigitOf 10) cs).bind fun ds =>
    if ds.head? = some '0' ∧ ds.length ≠ 1 then none else some ds

/-! ## Whole numbers -/

/-- A sign before a number: whether it is a minus, and what follows. -/
def splitSign : List Char → Bool × List Char
  | '-' :: cs => (true, cs)
  | '+' :: cs => (false, cs)
  | cs => (false, cs)

/-- The base that a number names, and its digits. -/
def splitBase? : List Char → Option (Nat × List Char)
  | '0' :: 'x' :: cs => some (16, cs)
  | '0' :: 'o' :: cs => some (8, cs)
  | '0' :: 'b' :: cs => some (2, cs)
  | _ => none

/-- A whole number.  One that names its base has no sign. -/
def integer? (cs : List Char) : Option Int :=
  match splitBase? cs with
  | some (base, ds) => (ungroup (isDigitOf base) ds).map fun ds => (ofDigits base ds : Int)
  | none =>
    let (negative, ds) := splitSign cs
    (decimal? ds).map fun ds => if negative then -(ofDigits 10 ds : Int) else ofDigits 10 ds

/-! ## Numbers with a fraction -/

/-- What stands before the first character of a class and what stands after it, where there is
one. -/
def cut (p : Char → Bool) (cs : List Char) : List Char × Option (List Char) :=
  (cs.takeWhile (!p ·), match cs.dropWhile (!p ·) with
    | [] => none
    | _ :: rest => some rest)

/-- A decimal number: its digits put together, and the power of ten that they are multiplied
by. -/
structure Scientific where
  digits : List Char
  exponent : Int
  deriving DecidableEq, Repr

def scientific? (cs : List Char) : Option Scientific := do
  let (mantissa, exponent) := cut (fun c => c == 'e' || c == 'E') cs
  let (whole, fraction) := cut (· == '.') mantissa
  let whole ← decimal? whole
  let places ← match fraction with
    | none => some []
    | some f => ungroup (isDigitOf 10) f
  let power ← match exponent with
    | none => if fraction = none then none else some 0
    | some e =>
      let (negative, ds) := splitSign e
      (ungroup (isDigitOf 10) ds).map fun ds =>
        if negative then -(ofDigits 10 ds : Int) else ofDigits 10 ds
  return ⟨whole ++ places, power - places.length⟩

/-- Numbers from here on are rounded away from every number of 64 bits with a fraction. -/
def floatBound : Nat :=
  Nat.pow 2 1024 - Nat.pow 2 970

/-- Whether a number is too large for 64 bits.  The number of its digits mostly tells without
a power being computed. -/
def Scientific.isTooLarge (x : Scientific) : Bool :=
  let ds := x.digits.dropWhile (· == '0')
  let n := ofDigits 10 ds
  let places := ds.length + x.exponent
  if ds = [] ∨ places < 300 then false
  else if 320 < places then true
  else match x.exponent with
    | .ofNat e => floatBound ≤ n * Nat.pow 10 e
    | .negSucc e => floatBound * Nat.pow 10 (e + 1) ≤ n

/-- A number that is not whole: whether it fits into 64 bits, as infinity and its like do. -/
def float? (cs : List Char) : Option Bool :=
  let (_, cs) := splitSign cs
  if cs = "inf".toList ∨ cs = "nan".toList then some true
  else (scientific? cs).map (!·.isTooLarge)

/-! ## Dates and times -/

/-- The number that a fixed count of digits at the front stands for, and what follows. -/
def fixed? (count : Nat) (cs : List Char) : Option (Nat × List Char) :=
  let ds := cs.take count
  if ds.length = count ∧ ds.all (isDigitOf 10) then some (ofDigits 10 ds, cs.drop count) else none

/-- What follows an expected character. -/
def expect? (c : Char) : List Char → Option (List Char)
  | d :: cs => if d = c then some cs else none
  | [] => none

def daysIn (year month : Nat) : Nat :=
  if month = 2 then
    if year % 4 = 0 ∧ (year % 100 ≠ 0 ∨ year % 400 = 0) then 29 else 28
  else if month ∈ [4, 6, 9, 11] then 30
  else 31

/-- A day of the calendar, and what follows it. -/
def afterDay? (cs : List Char) : Option (List Char) := do
  let (year, cs) ← fixed? 4 cs
  let (month, cs) ← fixed? 2 (← expect? '-' cs)
  let (day, cs) ← fixed? 2 (← expect? '-' cs)
  if 1 ≤ month ∧ month ≤ 12 ∧ 1 ≤ day ∧ day ≤ daysIn year month then some cs else none

/-- A fraction of a second, if there is one, and what follows it. -/
def afterFraction? : List Char → Option (List Char)
  | '.' :: cs =>
    let rest := cs.dropWhile (isDigitOf 10)
    if rest.length = cs.length then none else some rest
  | cs => some cs

/-- A time of day, its seconds left out or not, and what follows it. -/
def afterTime? (cs : List Char) : Option (List Char) := do
  let (hour, cs) ← fixed? 2 cs
  let (minute, cs) ← fixed? 2 (← expect? ':' cs)
  if 23 < hour ∨ 59 < minute then none
  else match cs with
    | ':' :: cs =>
      let (second, cs) ← fixed? 2 cs
      if 60 < second then none else afterFraction? cs
    | cs => some cs

/-- Whether a text is nothing or a distance from universal time. -/
def isOffset : List Char → Bool
  | [] | ['Z'] | ['z'] => true
  | c :: cs =>
    if c = '+' ∨ c = '-' then
      let time : Option (List Char) := do
        let (hour, cs) ← fixed? 2 cs
        let (minute, cs) ← fixed? 2 (← expect? ':' cs)
        if 23 < hour ∨ 59 < minute then none else some cs
      time = some []
    else false

def isDate (cs : List Char) : Bool :=
  match afterDay? cs with
  | some [] => true
  | some (c :: rest) => (c = 'T' || c = 't' || c = ' ') && (afterTime? rest).any isOffset
  | none => afterTime? cs = some []

/-! ## Values -/

def scalar? (cs : List Char) : Option Value :=
  if cs = "true".toList then some (.boolean true)
  else if cs = "false".toList then some (.boolean false)
  else match integer? cs, float? cs with
    | some n, _ => some (.integer n)
    | none, some fits => some (.float fits)
    | none, none => if isDate cs then some .date else none

end LineShell.Toml
