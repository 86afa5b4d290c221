import ConfinedRelay.Decimal

/-!
Numerals of JSON and the numbers that they stand for. An integer that fits a
signed or unsigned word is exact. Any other numeral is a double-precision number.
Its digits are gathered while they fit an unsigned word, and the result is scaled
by a power of ten, so it may differ from the nearest number in the last places. A
numeral whose number would be infinite has none.
-/
namespace ConfinedRelay.Json

/-- A numeral: its sign, the digits before and after its point, and its power of ten. -/
structure Numeral where
  negative : Bool
  whole : List Nat
  fraction : List Nat
  exponent : Option Int
  deriving DecidableEq, Repr

inductive Number where
  | integer (n : Int)
  | floating (negative : Bool) (magnitude : Binary64)
  deriving DecidableEq, Repr

/-- The digits that a text begins with, and the text behind them. -/
def digits (s : List Char) : List Nat × List Char :=
  ((s.takeWhile Char.isDigit).map fun c => c.toNat - 48, s.dropWhile Char.isDigit)

theorem length_digits (s : List Char) : (digits s).1.length + (digits s).2.length = s.length := by
  unfold digits
  rw [List.length_map, ← List.length_append, List.takeWhile_append_dropWhile]

def ofDigits (ds : List Nat) : Nat := ds.foldl (fun n d => n * 10 + d) 0

def sign (s : List Char) : Bool × List Char :=
  match s with
  | '-' :: rest => (true, rest)
  | _ => (false, s)

/-- The digits behind a point, if there is a point. -/
def fraction? (s : List Char) : Option (List Nat × List Char) :=
  match s with
  | '.' :: rest => if (digits rest).1 = [] then none else some (digits rest)
  | _ => some ([], s)

/-- The power of ten behind the letter for it, if there is that letter. -/
def exponent? (s : List Char) : Option (Option Int × List Char) :=
  match s with
  | [] => some (none, [])
  | c :: rest =>
    if c = 'e' ∨ c = 'E' then
      let (negative, rest) :=
        match rest with
        | '-' :: rest => (true, rest)
        | '+' :: rest => (false, rest)
        | _ => (false, rest)
      if (digits rest).1 = [] then none
      else
        let power : Int := ofDigits (digits rest).1
        some (some (if negative then -power else power), (digits rest).2)
    else some (none, s)

/-- The numeral that a text begins with, and the text behind it. No digit may
follow a leading zero. -/
def numeral? (s : List Char) : Option (Numeral × List Char) :=
  let (negative, s) := sign s
  let (whole, s) := digits s
  if whole = [] ∨ whole.head? = some 0 ∧ 1 < whole.length then none
  else
    match fraction? s with
    | none => none
    | some (fraction, s) =>
      match exponent? s with
      | none => none
      | some (exponent, s) => some (⟨negative, whole, fraction, exponent⟩, s)

theorem length_sign (s : List Char) : (sign s).2.length ≤ s.length := by
  unfold sign
  split <;> simp

theorem length_of_fraction? {s rest : List Char} {ds : List Nat}
    (h : fraction? s = some (ds, rest)) : rest.length ≤ s.length := by
  unfold fraction? at h
  split at h
  · rename_i r
    split at h
    · simp at h
    · have hd := length_digits r
      rw [Option.some.inj h] at hd
      simp only [List.length_cons] at *
      omega
  · simp_all

theorem length_of_exponent? {s rest : List Char} {e : Option Int}
    (h : exponent? s = some (e, rest)) : rest.length ≤ s.length := by
  unfold exponent? at h
  split at h
  · simp_all
  · rename_i c r
    split at h
    · split at h
      rename_i negative r' heq
      have hr : r'.length ≤ r.length := by
        split at heq <;> obtain ⟨-, rfl⟩ := Prod.mk.inj heq <;> simp
      split at h
      · simp at h
      · have hd := length_digits r'
        rw [← (Prod.mk.inj (Option.some.inj h)).2]
        simp only [List.length_cons]
        omega
    · obtain ⟨-, rfl⟩ := Prod.mk.inj (Option.some.inj h)
      exact Nat.le_refl _

theorem length_of_numeral? {s rest : List Char} {n : Numeral}
    (h : numeral? s = some (n, rest)) : rest.length < s.length := by
  unfold numeral? at h
  have hs := length_sign s
  have hd := length_digits (sign s).2
  simp only at h
  split at h
  · simp at h
  · rename_i hw
    have hpos : 0 < (digits (sign s).2).1.length :=
      List.length_pos_iff.2 fun e => hw (Or.inl e)
    split at h
    · simp at h
    · rename_i hf
      have hf := length_of_fraction? hf
      split at h
      · simp at h
      · rename_i he
        have he := length_of_exponent? he
        rw [← (Prod.mk.inj (Option.some.inj h)).2]
        omega

namespace Numeral

/-- The largest unsigned word. -/
def wordLimit : Nat := UInt64.size - 1

/-- Append digits to a number while it stays a word, and give back the others. -/
def gather (n : Nat) : List Nat → Nat × List Nat
  | [] => (n, [])
  | d :: ds => if n * 10 + d ≤ wordLimit then gather (n * 10 + d) ds else (n, d :: ds)

/-- The double-precision number of a numeral's digits and its power of ten. -/
def magnitude? (n : Numeral) : Option Binary64 := do
  let (significand, dropped) := gather 0 n.whole
  let (significand, ignored) := gather significand n.fraction
  let taken := n.fraction.length - ignored.length
  let exponent := (dropped.length : Int) - taken + n.exponent.getD 0
  (← Binary64.ofRatio? significand 1).timesTen? exponent

/-- The number that a numeral stands for, unless it is out of range. -/
def number? (n : Numeral) : Option Number :=
  let value := ofDigits n.whole
  if n.fraction = [] ∧ n.exponent = none ∧ n.negative = false ∧ value ≤ wordLimit then
    some (.integer value)
  else if n.fraction = [] ∧ n.exponent = none ∧ n.negative = true ∧ 0 < value ∧
      value ≤ Nat.pow 2 63 then
    some (.integer (-value))
  else n.magnitude?.map (.floating n.negative)

end Numeral

/-- The text of a number in messages. -/
def Number.text : Number → String
  | integer n => toString n
  | floating negative b =>
    String.ofList ((if negative then ['-'] else []) ++ b.shortest.text)

end ConfinedRelay.Json
