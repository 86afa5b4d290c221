import ConfinedRelay.Json.Token

/-!
Skipping a value. The tokens of a value are checked one by one against the
brackets that are open, the innermost first, and what may come next. Strings are
not looked into, so one with a surrogate alone is skipped, and numbers may be of
any size.
-/
namespace ConfinedRelay.Json

inductive Bracket where
  | array
  | object
  deriving DecidableEq, Repr

inductive Expected where
  | value
  /-- A value, or the end of an array without elements. -/
  | firstElement
  /-- A name, or the end of an object without members. -/
  | firstName
  | name
  | colon
  /-- A comma or the closing bracket behind a value. -/
  | separator
  deriving DecidableEq, Repr

/-- The state after the token that begins a value. -/
def beginValue (brackets : List Bracket) : Token → Option (List Bracket × Expected)
  | .null | .bool _ | .number _ | .string _ => some (brackets, .separator)
  | .openArray => some (.array :: brackets, .firstElement)
  | .openObject => some (.object :: brackets, .firstName)
  | _ => none

/-- The state after a token inside open brackets. -/
def step (brackets : List Bracket) : Expected → Token → Option (List Bracket × Expected)
  | .firstElement, .closeArray => some (brackets.tail, .separator)
  | .value, token | .firstElement, token => beginValue brackets token
  | .firstName, .closeObject => some (brackets.tail, .separator)
  | .name, .string _ | .firstName, .string _ => some (brackets, .colon)
  | .colon, .colon => some (brackets, .value)
  | .separator, token =>
    match brackets, token with
    | .array :: _, .comma => some (brackets, .value)
    | .object :: _, .comma => some (brackets, .name)
    | .array :: outer, .closeArray => some (outer, .separator)
    | .object :: outer, .closeObject => some (outer, .separator)
    | _, _ => none
  | _, _ => none

/-- The tokens behind the value that ends when no bracket is open any more. -/
def skip (brackets : List Bracket) (expected : Expected) : List Token → Option (List Token)
  | [] => none
  | token :: rest =>
    match step brackets expected token with
    | none => none
    | some ([], .separator) => some rest
    | some (brackets, expected) => skip brackets expected rest

/-- The tokens behind the value that comes next. -/
def skipValue (tokens : List Token) : Option (List Token) := skip [] .value tokens

theorem length_of_skip {brackets : List Bracket} {expected : Expected} {tokens rest : List Token}
    (h : skip brackets expected tokens = some rest) : rest.length < tokens.length := by
  fun_induction skip brackets expected tokens with
  | case1 => simp at h
  | case2 => simp at h
  | case3 => simp_all
  | case4 _ _ _ _ _ _ _ _ ih => exact Nat.lt_succ_of_lt (ih h)

end ConfinedRelay.Json
