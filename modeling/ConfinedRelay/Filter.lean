import ConfinedRelay.Event
import ConfinedRelay.Text.Alphanumeric
import ConfinedRelay.Text.Bytes
import ConfinedRelay.Text.Pieces
import ConfinedRelay.Text.White

/-!
Filters for events, written as rules between commas. A rule has a threshold and may
name a target, which then has to begin the event's target. In brackets it may ask
for a span to stand in, for a field, or for both. No event stands in a span, so a
rule that asks for one applies to none, and neither does one that compares a field
with a value, which only the fields of spans are. Of the rules that apply the one
with the longest target decides about an event, a rule without a target last; of
two with one target one that asks for a field decides first, and of equals the later
one. An event passes if its level is within the threshold of the rule that decides.
Where no rule does it is held back.
-/
namespace ConfinedRelay

/-- The most detailed level that passes, if any level does. -/
structure Threshold where
  level : Option Level
  deriving DecidableEq, Repr

namespace Threshold

def off : Threshold := ⟨none⟩

def upTo (l : Level) : Threshold := ⟨some l⟩

def admits (t : Threshold) (l : Level) : Bool :=
  match t.level with
  | none => false
  | some limit => l.rank ≤ limit.rank

/-- The thresholds in order. Each is known by its place in this list and by its name. -/
def named : List (String × Threshold) :=
  [("off", off), ("error", upTo .error), ("warn", upTo .warn), ("info", upTo .info),
   ("debug", upTo .debug), ("trace", upTo .trace)]

/-- The value of an unsigned decimal numeral, which may carry a plus sign. -/
def numeral? (s : List Char) : Option Nat :=
  let digits := match s with
    | '+' :: rest => rest
    | _ => s
  if digits ≠ [] ∧ digits.all Char.isDigit then
    some (digits.foldl (fun n c => n * 10 + (c.toNat - 48)) 0)
  else none

/-- Read a threshold by its number, or by its name with ASCII letters of any case. -/
def ofText? (s : List Char) : Option Threshold :=
  match numeral? s with
  | some n => named[n]?.map (·.2)
  | none => named.lookup (String.ofList (s.map Char.toLower))

end Threshold

inductive FilterError where
  | badRule
  | badField (complaint : String)
  | badThreshold
  deriving DecidableEq, Repr

def FilterError.message : FilterError → String
  | badRule => "invalid filter directive"
  | badField complaint => "invalid field filter: " ++ complaint
  | badThreshold =>
    "error parsing level filter: expected one of \"off\", \"error\", \"warn\", \"info\", "
      ++ "\"debug\", \"trace\", or a number 0-5"

/-- What a field can be compared with: numbers and patterns of some syntax, which is
left open. Only what is said against a text that is neither makes a difference. -/
class PatternSyntax where
  complaint? : List Char → Option String

/-- What a rule asks of a field: that there is one of this name and, where a value is
given, that it compares with that. -/
structure FieldTest where
  name : List Char
  value : Option (List Char) := none
  deriving DecidableEq, Repr

structure Rule where
  target : Option (List Char)
  span : Option (List Char) := none
  field : Option FieldTest := none
  threshold : Threshold
  deriving DecidableEq, Repr

/-- Read what is asked of a field. Behind a second equals sign nothing counts. -/
def FieldTest.ofText [PatternSyntax] (s : List Char) : Except FilterError FieldTest :=
  let name := s.takeWhile (· ≠ '=')
  match s.dropWhile (· ≠ '=') with
  | [] => .ok { name }
  | _ :: rest =>
    let value := rest.takeWhile (· ≠ '=')
    match PatternSyntax.complaint? value with
    | none => .ok { name, value := some value }
    | some complaint => .error (.badField complaint)

/-- How specific a rule is: first by its target, then by its field. -/
structure Specificity where
  target : Nat
  field : String
  deriving DecidableEq, Repr

namespace Specificity

instance : LE Specificity where
  le a b := a.target < b.target ∨ a.target = b.target ∧ a.field ≤ b.field

instance : LT Specificity where
  lt a b := ¬ b ≤ a

instance (a b : Specificity) : Decidable (a ≤ b) :=
  inferInstanceAs (Decidable (a.target < b.target ∨ a.target = b.target ∧ a.field ≤ b.field))

theorem le_refl (a : Specificity) : a ≤ a := .inr ⟨rfl, String.le_refl a.field⟩

theorem le_trans {a b c : Specificity} (h : a ≤ b) (h' : b ≤ c) : a ≤ c := by
  rcases h with h | ⟨ht, hf⟩
  · rcases h' with h' | ⟨ht', _⟩
    · exact .inl (Nat.lt_trans h h')
    · exact .inl (ht' ▸ h)
  · rcases h' with h' | ⟨ht', hf'⟩
    · exact .inl (ht ▸ h')
    · exact .inr ⟨ht.trans ht', String.le_trans hf hf'⟩

theorem not_le {a b : Specificity} : ¬ a ≤ b ↔ b < a := Iff.rfl

theorem le_of_lt {a b : Specificity} (h : a < b) : a ≤ b := by
  rcases Nat.lt_trichotomy a.target b.target with ht | ht | ht
  · exact .inl ht
  · rcases String.le_total a.field b.field with hf | hf
    · exact .inr ⟨ht, hf⟩
    · exact absurd (.inr ⟨ht.symm, hf⟩) h
  · exact absurd (.inl ht) h

end Specificity

namespace Rule

/-- The characters that a rule may begin with, apart from white space and a bracket. -/
def mayBegin (c : Char) : Bool := Text.isAlphanumeric c || c == '-' || c == ':' || c == '_'

/-- The characters that end the target of a rule. -/
def isMark (c : Char) : Bool := c == '=' || c == '['

/-- The characters that end the name of a span. -/
def endsSpan (c : Char) : Bool := c == ']' || c == '\x7b'

/-- Take a part of a rule from the text as it stands, at the bytes where the text
without white space around it has the part. -/
def partAt (piece : List Char) (start : Nat) (part : List Char) : Except FilterError (List Char) :=
  match Text.slice? start (Text.width part) piece with
  | some s => .ok s
  | none => .error .badRule

/-- Read the threshold from this byte on. A missing one lets everything pass. -/
def thresholdAt (piece : List Char) (start : Nat) : Except FilterError Threshold :=
  match Text.dropBytes? start piece with
  | none => .error .badRule
  | some [] => .ok (.upTo .trace)
  | some level =>
    match Threshold.ofText? level with
    | some threshold => .ok threshold
    | none => .error .badThreshold

/-- Read the threshold behind a bracket that ends at this byte. -/
def thresholdBehind (piece : List Char) (start : Nat) : List Char → Except FilterError Threshold
  | [] => .ok (.upTo .trace)
  | c :: _ => if c = '=' then thresholdAt piece (start + 1) else .error .badRule

/-- Read the bracket that closes behind a field, and the threshold behind it. -/
def thresholdBehindField (piece : List Char) (start : Nat) :
    List Char → Except FilterError Threshold
  | [] => .error .badRule
  | c :: rest => if c = ']' then thresholdBehind piece (start + 1) rest else .error .badRule

/-- Read what stands behind the brace that opens the field of a rule. -/
def readField [PatternSyntax] (piece : List Char) (target span : Option (List Char))
    (start : Nat) (inner : List Char) : Except FilterError Rule :=
  let test := inner.takeWhile (· ≠ '\x7d')
  match inner.dropWhile (· ≠ '\x7d') with
  | [] => .error .badRule
  | _ :: rest =>
    if test = [] then .error .badRule
    else do
      let text ← partAt piece start test
      let field ← FieldTest.ofText text
      let threshold ← thresholdBehindField piece (start + Text.width test + 1) rest
      .ok { target, span, field := some field, threshold }

/-- Read what stands behind the opening bracket of a rule. -/
def readBrackets [PatternSyntax] (piece : List Char) (target : Option (List Char)) (start : Nat)
    (inner : List Char) : Except FilterError Rule :=
  let name := inner.takeWhile (!endsSpan ·)
  match inner.dropWhile (!endsSpan ·) with
  | [] => .error .badRule
  | c :: rest => do
    let span ← partAt piece start name
    if c = ']' then do
      let threshold ← thresholdBehind piece (start + Text.width name + 1) rest
      .ok { target, span := some span, threshold }
    else
      readField piece target (if name = [] then none else some span)
        (start + Text.width name + 1) rest

/-- Read a rule. Its target ends at an equals sign, with the threshold behind it, or
at a bracket. Without either the whole is a threshold if it reads as one and else a
target, and white space is part of what it stands in. White space in front shifts
every part of the rule by its bytes to the left, and it is no rule if a part then
begins or ends within a character. -/
def ofPiece [PatternSyntax] (piece : List Char) : Except FilterError Rule :=
  let text := Text.trim piece
  let target := text.takeWhile (!isMark ·)
  if text.head?.any fun c => mayBegin c || c == '[' then
    match text.dropWhile (!isMark ·) with
    | [] =>
      match Threshold.ofText? piece with
      | some threshold => .ok { target := none, threshold }
      | none => .ok { target := some piece, threshold := .upTo .trace }
    | c :: inner => do
      let named ← partAt piece 0 target
      if c = '=' then do
        let threshold ← thresholdAt piece (Text.width target + 1)
        .ok { target := some named, threshold }
      else
        readBrackets piece (if target = [] then none else some named) (Text.width target + 1) inner
  else .error .badRule

/-- A rule applies to the events whose target begins with its own, and which have the
field that it asks for. -/
def applies (r : Rule) (e : Event) : Bool :=
  r.target.all (·.isPrefixOf e.target.name.toList) && r.span.isNone &&
    r.field.all fun f => f.value.isNone && e.fieldNames.contains (String.ofList f.name)

/-- A longer target is more specific, and no target is least so. Of rules with one
target the one with a field is, and among those the name of the field decides. -/
def specificity (r : Rule) : Specificity where
  target := r.target.elim 0 (·.length + 1)
  field := r.field.elim "" fun f => String.ofList f.name

end Rule

structure Filter where
  rules : List Rule
  deriving DecidableEq, Repr

namespace Filter

/-- The rule of a filter that gives none: errors pass, whatever their target. -/
def fallback : Rule := { target := none, threshold := .upTo .error }

/-- The pieces of a filter that count. -/
def pieces (text : String) : List (List Char) :=
  (Text.pieces ',' text.toList).filter (· ≠ [])

/-- Read a filter. The first rule that cannot be read decides the error. -/
def ofText [PatternSyntax] (text : String) : Except FilterError Filter :=
  match (pieces text).mapM Rule.ofPiece with
  | .error e => .error e
  | .ok [] => .ok ⟨[fallback]⟩
  | .ok rules => .ok ⟨rules⟩

/-- Of two rules that apply, the more specific one, or the later of equals. -/
def prefer (earlier : Option Rule) (later : Rule) : Option Rule :=
  match earlier with
  | none => some later
  | some r => if r.specificity ≤ later.specificity then some later else some r

/-- The rule that decides about an event. -/
def deciding (f : Filter) (e : Event) : Option Rule :=
  (f.rules.filter (·.applies e)).foldl prefer none

def admits (f : Filter) (e : Event) : Bool :=
  match f.deciding e with
  | none => false
  | some r => r.threshold.admits e.level

end Filter
end ConfinedRelay
