import TypeTraits.Toml.Text

/-!
# `TypeTraits.Toml.Number`: numbers of TOML

Whole numbers in four bases and decimals with a fraction or an exponent, each
read from exactly the characters given. Underscores may group the digits of a
number, each between two digits.

Numbers are held to a range: whole numbers to 64 bits, one of them the sign, and
positive decimals to those that do not round up to infinity in 64-bit floating
point (`Decimal.exceeds`).
-/

set_option autoImplicit false

namespace TypeTraits.Toml

/-! ### Digits -/

/-- Whether a group of digits can hold the character. -/
def isDigitOrUnderscore (c : Char) : Bool := c.isDigit || c == '_'

/-- The digits of a number whose underscores stand between two digits each. -/
def ungrouped? : List Char → Option (List Char)
  | [] => none
  | [c] => if c == '_' then none else some [c]
  | c :: '_' :: cs => if c == '_' then none else (ungrouped? cs).map (c :: ·)
  | c :: cs => if c == '_' then none else (ungrouped? cs).map (c :: ·)

/-- A whole number of a base, digits in groups. -/
def groupedNat? (base : Nat) (cs : List Char) : Option Nat := do
  natOfDigits? base (← ungrouped? cs)

/-- A decimal number without superfluous zeros in front. -/
def decimalNat? (cs : List Char) : Option Nat :=
  match cs with
  | '0' :: _ :: _ => none
  | cs => groupedNat? 10 cs

/-- Whether a number is negative, and the characters after its sign. -/
def sign : List Char → Bool × List Char
  | '+' :: cs => (false, cs)
  | '-' :: cs => (true, cs)
  | cs => (false, cs)

/-! ### Whole numbers -/

/-- The whole number of the characters, if it is one of 64 bits, one of them the sign. -/
def integer? (cs : List Char) : Option Int := do
  let n ← match cs with
    | '0' :: 'x' :: cs => (groupedNat? 16 cs).map Int.ofNat
    | '0' :: 'o' :: cs => (groupedNat? 8 cs).map Int.ofNat
    | '0' :: 'b' :: cs => (groupedNat? 2 cs).map Int.ofNat
    | cs =>
      let (isNegative, cs) := sign cs
      (decimalNat? cs).map fun n => if isNegative then -Int.ofNat n else Int.ofNat n
  if -0x8000000000000000 ≤ n ∧ n < 0x8000000000000000 then some n else none

/-! ### Decimals -/

/-- The number `digits` times ten to the `exponent`, perhaps negated. -/
structure Decimal where
  isNegative : Bool
  digits : Nat
  exponent : Int
deriving DecidableEq, Repr

/-- The least number that rounds to infinity: half a unit above the greatest finite one,
which is `2 ^ 54 - 1` times `2 ^ 970`. -/
def leastInfinite : Nat := 0x3fffffffffffff * Nat.pow 2 970

/-- Whether the absolute value of a decimal rounds to infinity. A value has at most as
many digits in front of the point as there are digits and places of the exponent, and
only where those are 309 does it have to be computed. -/
def Decimal.exceeds (d : Decimal) : Bool :=
  let size := (Nat.toDigits 10 d.digits).length
  let places := Int.ofNat size + d.exponent
  if d.digits == 0 || places < 309 then false
  else if places > 309 then true
  else if 0 ≤ d.exponent then leastInfinite ≤ d.digits * Nat.pow 10 d.exponent.toNat
  else leastInfinite * Nat.pow 10 (-d.exponent).toNat ≤ d.digits

/-- The exponent of the characters behind the digits; 0 if there are none. -/
def exponent? : List Char → Option Int
  | [] => some 0
  | c :: cs =>
    if c == 'e' || c == 'E' then
      let (isNegative, cs) := sign cs
      (groupedNat? 10 cs).map fun n => if isNegative then -Int.ofNat n else Int.ofNat n
    else none

/-- The decimal of the characters, which have a fraction, an exponent or both. -/
def decimal? (cs : List Char) : Option Decimal := do
  let (isNegative, cs) := sign cs
  let whole ← decimalNat? (cs.takeWhile isDigitOrUnderscore)
  let d ← match cs.dropWhile isDigitOrUnderscore with
    | [] => none
    | '.' :: rest => do
      let fraction ← ungrouped? (rest.takeWhile isDigitOrUnderscore)
      let digits ← natOfDigits? 10 fraction
      let exponent ← exponent? (rest.dropWhile isDigitOrUnderscore)
      some ⟨isNegative, whole * Nat.pow 10 fraction.length + digits,
        exponent - Int.ofNat fraction.length⟩
    | rest => (exponent? rest).map (⟨isNegative, whole, ·⟩)
  if !d.isNegative && d.exceeds then none else some d

/-- A number of floating point. -/
inductive Floating where
  | finite (d : Decimal)
  | infinite (isNegative : Bool)
  | notANumber
deriving DecidableEq, Repr

/-- The number of floating point of the characters. -/
def floating? (cs : List Char) : Option Floating :=
  let (isNegative, word) := sign cs
  if word == ['i', 'n', 'f'] then some (.infinite isNegative)
  else if word == ['n', 'a', 'n'] then some .notANumber
  else (decimal? cs).map .finite

end TypeTraits.Toml
