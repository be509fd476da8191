import Switchboard.Number.Power

/-!
# Numbers of 64 bits with a binary point

A `Binary64` is a sign and a magnitude `m · 2^e`, or an infinity, or no
number at all. The magnitudes in use are those with `m < 2^53` and
`-1074 ≤ e ≤ 971`, written with the largest `m` that fits: 53 bits are
used, unless the exponent is already the least one.

Arithmetic is exact and then rounded once: `ofRatio` rounds a quotient of
natural numbers to the nearest magnitude in use, a tie going to the even
`m`, and multiplication, division and the reading of a decimal numeral
are quotients handed to it.
-/

namespace Switchboard.Number

/-- A number of 64 bits with a binary point. -/
inductive Binary64 where
  /-- The number `± m · 2^e`. -/
  | finite (negative : Bool) (m : Nat) (e : Int)
  | infinity (negative : Bool)
  | nan
deriving DecidableEq, Repr, Inhabited

namespace Binary64

/-- The least exponent in use. -/
def minExponent : Int := -1074

/-- The largest exponent in use. -/
def maxExponent : Int := 971

/-- Zero, with a sign. -/
def zero (negative : Bool) : Binary64 := finite negative 0 minExponent

/-- The exponent of the leading binary digit of `num / den`, for positive
`num` and `den`: the quotient lies from `2^e` up to below `2^(e+1)`. -/
def leadingExponent (num den : Nat) : Int :=
  let e : Int := (Nat.log2 num : Int) - Nat.log2 den
  let below := if 0 ≤ e then num < den * twoTo e.toNat else num * twoTo (-e).toNat < den
  if below then e - 1 else e

/-- The natural number nearest to `num / den`; a tie goes to the even one. -/
def nearestEven (num den : Nat) : Nat :=
  let q := num / den
  let twice := 2 * (num % den)
  if twice < den then q else if den < twice then q + 1 else if q % 2 = 0 then q else q + 1

/-- **The number nearest to `± num / den`**, a tie going to the even
magnitude. Past the largest magnitude in use it is an infinity. -/
def ofRatio (negative : Bool) (num den : Nat) : Binary64 :=
  if num = 0 then zero negative
  else
    let e := max (leadingExponent num den - 52) minExponent
    let m := if 0 ≤ e then nearestEven num (den * twoTo e.toNat)
      else nearestEven (num * twoTo (-e).toNat) den
    let (m, e) := if m = twoTo 53 then (twoTo 52, e + 1) else (m, e)
    if maxExponent < e then infinity negative else finite negative m e

/-- A magnitude as a quotient of natural numbers. -/
def ratio (m : Nat) (e : Int) : Nat × Nat :=
  if 0 ≤ e then (m * twoTo e.toNat, 1) else (m, twoTo (-e).toNat)

/-- The number nearest to a natural number. -/
def ofNat (negative : Bool) (n : Nat) : Binary64 := ofRatio negative n 1

/-- **The number nearest to `± digits · 10^exponent`.** Exponents far
beyond the numbers in use are told apart first, so that the powers of ten
stay small: from `10^400` on there is only infinity, and below `2^-1200`
only zero. -/
def ofDecimal (negative : Bool) (digits : Nat) (exponent : Int) : Binary64 :=
  if digits = 0 then zero negative
  else if 0 ≤ exponent then
    if 400 < exponent then infinity negative
    else ofRatio negative (digits * tenTo exponent.toNat) 1
  else if Nat.log2 digits + 1201 < 3 * (-exponent).toNat then zero negative
  else ofRatio negative digits (tenTo (-exponent).toNat)

/-- Whether this is a zero of either sign. -/
def isZero : Binary64 → Bool
  | finite _ 0 _ => true
  | _ => false

/-- Whether this is an infinity. -/
def isInfinite : Binary64 → Bool
  | infinity _ => true
  | _ => false

/-- The number with the other sign. -/
def neg : Binary64 → Binary64
  | finite s m e => finite (!s) m e
  | infinity s => infinity !s
  | nan => nan

/-- The product with a positive finite magnitude, rounded once. -/
def scaleUp (x : Binary64) (m : Nat) (e : Int) : Binary64 :=
  match x with
  | finite s m' e' =>
    let (a, b) := ratio m' e'
    let (c, d) := ratio m e
    ofRatio s (a * c) (b * d)
  | other => other

/-- The quotient by a positive finite magnitude, rounded once. -/
def scaleDown (x : Binary64) (m : Nat) (e : Int) : Binary64 :=
  match x with
  | finite s m' e' =>
    let (a, b) := ratio m' e'
    let (c, d) := ratio m e
    ofRatio s (a * d) (b * c)
  | other => other

end Binary64

end Switchboard.Number
