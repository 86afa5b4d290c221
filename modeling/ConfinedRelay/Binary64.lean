/-!
The finite double-precision numbers that are not negative, as a mantissa below
`2 ^ 53` and a power of two from `-1074` to `971`. Arithmetic is exact arithmetic
on fractions followed by one rounding to the nearest such number, where a tie goes
to the even mantissa.
-/
namespace ConfinedRelay

/-- The number `mantissa * 2 ^ exponent`. -/
structure Binary64 where
  mantissa : Nat
  exponent : Int
  deriving DecidableEq, Repr

namespace Binary64

def mantissaLimit : Nat := Nat.pow 2 53

def leastExponent : Int := -1074

def greatestExponent : Int := 971

def zero : Binary64 := ⟨0, leastExponent⟩

/-- The integer nearest to a fraction, the even one of two. -/
def nearest (num den : Nat) : Nat :=
  let below := num / den
  let twice := 2 * (num % den)
  if twice < den ∨ twice = den ∧ below % 2 = 0 then below else below + 1

/-- The fraction `num / den * 2 ^ (-exponent)` as numerator and denominator. -/
def scaled (num den : Nat) (exponent : Int) : Nat × Nat :=
  (num * Nat.pow 2 (-exponent).toNat, den * Nat.pow 2 exponent.toNat)

/-- The exponent at which a positive fraction has the longest mantissa below the limit. -/
def fittingExponent (num den : Nat) : Int :=
  let guess := max ((num.log2 : Int) - den.log2 - 53) leastExponent
  let (n, d) := scaled num den guess
  if mantissaLimit ≤ n / d then guess + 1 else guess

/-- The number nearest to a fraction, if the fraction is not too large. -/
def ofRatio? (num den : Nat) : Option Binary64 :=
  if num = 0 then some zero
  else
    let exponent := fittingExponent num den
    let (n, d) := scaled num den exponent
    let mantissa := nearest n d
    let (mantissa, exponent) :=
      if mantissa = mantissaLimit then (mantissaLimit / 2, exponent + 1) else (mantissa, exponent)
    if greatestExponent < exponent then none else some ⟨mantissa, exponent⟩

def num (b : Binary64) : Nat := b.mantissa * Nat.pow 2 b.exponent.toNat

def den (b : Binary64) : Nat := Nat.pow 2 (-b.exponent).toNat

def times? (a b : Binary64) : Option Binary64 := ofRatio? (a.num * b.num) (a.den * b.den)

def over? (a b : Binary64) : Option Binary64 := ofRatio? (a.num * b.den) (a.den * b.num)

/-- The largest power of ten that is not too large. -/
def tenLimit : Nat := 308

def powerOfTen (n : Nat) : Binary64 := (ofRatio? (Nat.pow 10 n) 1).getD zero

/-- Divide so many times by the largest power of ten, while something is left. -/
def shrink? : Nat → Binary64 → Option Binary64
  | 0, b => some b
  | n + 1, b =>
    if b.mantissa = 0 then some b
    else (b.over? (powerOfTen tenLimit)).bind (shrink? n)

/-- Multiply by a power of ten in one rounding. A power far below one is reached in
several divisions, each of them rounded. -/
def timesTen? (b : Binary64) (exponent : Int) : Option Binary64 :=
  if b.mantissa = 0 then some b
  else if (tenLimit : Int) < exponent then none
  else if 0 ≤ exponent then b.times? (powerOfTen exponent.toNat)
  else
    let below := (-exponent).toNat
    let rounds := (below - 1) / tenLimit
    (shrink? rounds b).bind fun c => c.over? (powerOfTen (below - rounds * tenLimit))

end Binary64
end ConfinedRelay
