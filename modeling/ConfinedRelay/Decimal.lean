import ConfinedRelay.Binary64

/-!
Decimal text of double-precision numbers. Of the decimals that read back as the
same number the one with the fewest digits is written, and of those the nearest.
It is found on the coarsest decimal grid that has a point among the reals that
round to the number.
-/
namespace ConfinedRelay

/-- The number `digits * 10 ^ exponent`. -/
structure Decimal where
  digits : Nat
  exponent : Int
  deriving DecidableEq, Repr

namespace Binary64

/-- The multiple of `10 ^ exponent` nearest to a number among those that round to
it. The reals that do reach half way to the number's neighbours. The ends belong
to them if the mantissa is even. -/
def onGrid? (b : Binary64) (exponent : Int) : Option Decimal :=
  let unit := Nat.pow 2 (b.exponent - 2).toNat * Nat.pow 10 (-exponent).toNat
  let den := Nat.pow 2 (2 - b.exponent).toNat * Nat.pow 10 exponent.toNat
  let gap := if b.mantissa = mantissaLimit / 2 ∧ leastExponent < b.exponent then 1 else 2
  let value := 4 * b.mantissa * unit
  let low := (4 * b.mantissa - gap) * unit
  let high := (4 * b.mantissa + 2) * unit
  let readsBack (d : Nat) : Bool :=
    if b.mantissa % 2 = 0 then low ≤ d * den && d * den ≤ high
    else low < d * den && d * den < high
  let near := nearest value den
  let below := value / den
  ([near, below, below + 1].find? fun d => d ≠ 0 && readsBack d).map (⟨·, exponent⟩)

/-- The exponents of the decimal grids, the coarsest first. -/
def gridExponents : List Int := (List.range 633).map fun (i : Nat) => (308 : Int) - i

def shortest (b : Binary64) : Decimal :=
  if b.mantissa = 0 then ⟨0, 0⟩ else (gridExponents.findSome? b.onGrid?).getD ⟨0, 0⟩

end Binary64

namespace Decimal

/-- An integer with its sign written before it in any case. -/
def signed (n : Int) : List Char :=
  (if n < 0 then '-' else '+') :: Nat.toDigits 10 n.natAbs

/-- The text of a decimal. It is positional while the point lies within sixteen
digits of the first one and at most five zeros stand before that, and otherwise
scientific. The power of ten carries its sign, a plus sign too. -/
def text (d : Decimal) : List Char :=
  let digits := Nat.toDigits 10 d.digits
  let point := digits.length + d.exponent
  if d.digits = 0 then ['0', '.', '0']
  else if 0 ≤ d.exponent ∧ point ≤ 16 then
    digits ++ List.replicate d.exponent.toNat '0' ++ ['.', '0']
  else if 0 < point ∧ point ≤ 16 then
    digits.take point.toNat ++ '.' :: digits.drop point.toNat
  else if -5 < point ∧ point ≤ 0 then
    ['0', '.'] ++ List.replicate (-point).toNat '0' ++ digits
  else
    let power := signed (point - 1)
    match digits with
    | [first] => first :: 'e' :: power
    | first :: others => first :: '.' :: others ++ 'e' :: power
    | [] => power

end Decimal
end ConfinedRelay
