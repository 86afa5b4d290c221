/-!
String literals of JSON. Writing escapes the quote, the backslash and the controls
below the blank, with short forms where there are some, and leaves every other
character as it is.

Reading takes two steps. The first cuts a literal into its elements, which are
characters and numbered UTF-16 units. The second joins the units of surrogate
pairs. It fails on a surrogate alone, where the text has no characters although
the literal is well formed.
-/
namespace ConfinedRelay.Json

def escape (c : Char) : List Char :=
  if c = '"' then ['\\', '"']
  else if c = '\\' then ['\\', '\\']
  else if c = '\x08' then ['\\', 'b']
  else if c = '\x0c' then ['\\', 'f']
  else if c = '\n' then ['\\', 'n']
  else if c = '\r' then ['\\', 'r']
  else if c = '\t' then ['\\', 't']
  else if c.toNat < 0x20 then
    ['\\', 'u', '0', '0', Nat.digitChar (c.toNat / 16), Nat.digitChar (c.toNat % 16)]
  else [c]

/-- The literal of a text. -/
def literal (s : List Char) : List Char := '"' :: s.flatMap escape ++ ['"']

inductive Element where
  | char (c : Char)
  | unit (n : Nat)
  deriving DecidableEq, Repr

def hexValue? (c : Char) : Option Nat :=
  if '0' ≤ c ∧ c ≤ '9' then some (c.toNat - 48)
  else if 'a' ≤ c ∧ c ≤ 'f' then some (c.toNat - 87)
  else if 'A' ≤ c ∧ c ≤ 'F' then some (c.toNat - 55)
  else none

def unit? (a b c d : Char) : Option Nat := do
  some (((← hexValue? a) * 16 + (← hexValue? b)) * 256 + (← hexValue? c) * 16 + (← hexValue? d))

/-- The character that a short escape stands for. -/
def shortEscape? (c : Char) : Option Char :=
  if c = '"' ∨ c = '\\' ∨ c = '/' then some c
  else if c = 'b' then some '\x08'
  else if c = 'f' then some '\x0c'
  else if c = 'n' then some '\n'
  else if c = 'r' then some '\r'
  else if c = 't' then some '\t'
  else none

/-- The elements of a literal whose opening quote is behind us, and the text after
its closing quote. -/
def elements? : List Char → Option (List Element × List Char)
  | [] => none
  | '"' :: rest => some ([], rest)
  | '\\' :: 'u' :: a :: b :: c :: d :: rest =>
    match unit? a b c d with
    | none => none
    | some n => (elements? rest).map fun p => (.unit n :: p.1, p.2)
  | '\\' :: c :: rest =>
    match shortEscape? c with
    | none => none
    | some e => (elements? rest).map fun p => (.char e :: p.1, p.2)
  | c :: rest =>
    if c.toNat < 0x20 then none
    else (elements? rest).map fun p => (.char c :: p.1, p.2)

theorem length_of_elements? {s rest : List Char} {es : List Element}
    (h : elements? s = some (es, rest)) : rest.length < s.length := by
  fun_induction elements? s generalizing es with
  | case1 => simp at h
  | case2 => simp_all
  | case3 => simp at h
  | case4 a b c d r n hn ih =>
    obtain ⟨⟨es', r'⟩, hp, he⟩ := Option.map_eq_some_iff.1 h
    obtain ⟨rfl, rfl⟩ := Prod.mk.inj he
    have hlt : r'.length < r.length := ih hp
    simp only [List.length_cons]
    omega
  | case5 => simp at h
  | case6 c r _ e _ ih =>
    obtain ⟨⟨es', r'⟩, hp, he⟩ := Option.map_eq_some_iff.1 h
    obtain ⟨rfl, rfl⟩ := Prod.mk.inj he
    have hlt : r'.length < r.length := ih hp
    simp only [List.length_cons]
    omega
  | case7 => simp at h
  | case8 c r _ _ _ _ ih =>
    obtain ⟨⟨es', r'⟩, hp, he⟩ := Option.map_eq_some_iff.1 h
    obtain ⟨rfl, rfl⟩ := Prod.mk.inj he
    have hlt : r'.length < r.length := ih hp
    simp only [List.length_cons]
    omega

def isHighSurrogate (n : Nat) : Bool := 0xD800 ≤ n && n < 0xDC00

def isLowSurrogate (n : Nat) : Bool := 0xDC00 ≤ n && n < 0xE000

/-- The character of a surrogate pair. -/
def paired (high low : Nat) : Char :=
  Char.ofNat (0x10000 + (high - 0xD800) * 0x400 + (low - 0xDC00))

/-- The characters of a literal's elements, unless a surrogate stands alone. -/
def characters? : List Element → Option (List Char)
  | [] => some []
  | .char c :: rest => (characters? rest).map (c :: ·)
  | .unit n :: rest =>
    if isLowSurrogate n then none
    else if isHighSurrogate n then
      match rest with
      | .unit m :: rest =>
        if isLowSurrogate m then (characters? rest).map (paired n m :: ·) else none
      | _ => none
    else (characters? rest).map (Char.ofNat n :: ·)

end ConfinedRelay.Json
