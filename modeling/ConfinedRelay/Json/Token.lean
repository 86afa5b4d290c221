import ConfinedRelay.Json.Literal
import ConfinedRelay.Json.Numeral

/-!
The tokens of a JSON text from left to right. Where the text goes on with
something that is no token the list ends with `bad`, so a reader of tokens meets
that fault only when it gets there.
-/
namespace ConfinedRelay.Json

inductive Token where
  | openObject | closeObject | openArray | closeArray | colon | comma
  | null
  | bool (b : Bool)
  | number (n : Numeral)
  /-- A string, with its characters unless it holds a surrogate alone. -/
  | string (text : Option (List Char))
  | bad
  deriving DecidableEq, Repr

def isBlank (c : Char) : Bool := c = ' ' || c = '\n' || c = '\t' || c = '\r'

def punctuation? (c : Char) : Option Token :=
  if c = '\x7b' then some .openObject
  else if c = '\x7d' then some .closeObject
  else if c = '[' then some .openArray
  else if c = ']' then some .closeArray
  else if c = ':' then some .colon
  else if c = ',' then some .comma
  else none

def word? : List Char → Option (Token × List Char)
  | 'n' :: 'u' :: 'l' :: 'l' :: rest => some (.null, rest)
  | 't' :: 'r' :: 'u' :: 'e' :: rest => some (.bool true, rest)
  | 'f' :: 'a' :: 'l' :: 's' :: 'e' :: rest => some (.bool false, rest)
  | _ => none

/-- The token that a text without leading blanks begins with, and the text behind it. -/
def token? (c : Char) (rest : List Char) : Option (Token × List Char) :=
  match punctuation? c with
  | some token => some (token, rest)
  | none =>
    if c = '"' then (elements? rest).map fun p => (.string (characters? p.1), p.2)
    else if c = '-' || c.isDigit then (numeral? (c :: rest)).map fun p => (.number p.1, p.2)
    else word? (c :: rest)

theorem length_of_word? {s rest : List Char} {token : Token} (h : word? s = some (token, rest)) :
    rest.length < s.length := by
  unfold word? at h
  split at h <;> simp_all <;> omega

theorem length_of_token? {c : Char} {s rest : List Char} {token : Token}
    (h : token? c s = some (token, rest)) : rest.length ≤ s.length := by
  unfold token? at h
  split at h
  · simp_all
  · split at h
    · obtain ⟨p, hp, he⟩ := Option.map_eq_some_iff.1 h
      have := length_of_elements? hp
      rw [(Prod.mk.inj he).2] at this
      omega
    · split at h
      · obtain ⟨p, hp, he⟩ := Option.map_eq_some_iff.1 h
        have := length_of_numeral? hp
        rw [(Prod.mk.inj he).2] at this
        simp only [List.length_cons] at this
        omega
      · have := length_of_word? h
        simp only [List.length_cons] at this
        omega

def tokens : List Char → List Token
  | [] => []
  | c :: rest =>
    if isBlank c then tokens rest
    else
      match _h : token? c rest with
      | none => [.bad]
      | some (token, behind) => token :: tokens behind
termination_by s => s.length
decreasing_by
  · simp
  · have := length_of_token? _h
    simp only [List.length_cons]
    omega

@[simp] theorem tokens_nil : tokens [] = [] := by
  rw [tokens]

theorem tokens_blank {c : Char} {rest : List Char} (hb : isBlank c = true) :
    tokens (c :: rest) = tokens rest := by
  rw [tokens, if_pos hb]

theorem tokens_token {c : Char} {rest behind : List Char} {token : Token}
    (hb : isBlank c = false) (h : token? c rest = some (token, behind)) :
    tokens (c :: rest) = token :: tokens behind := by
  rw [tokens, if_neg (by simp [hb])]
  split <;> simp_all

end ConfinedRelay.Json
