import ConfinedRelay.Json.Token

/-!
All the ways to write a text as a JSON string. Every character but the quote, the backslash
and the controls stands for itself; eight have a short form behind a backslash; and any
UTF-16 unit can be given by its number in four hexadecimal digits. The reader takes each of
these spellings for what it means, whatever comes behind it, and the writer writes one of
them.
-/
namespace ConfinedRelay.Json

/-- The characters that may stand behind a backslash, each with what the two mean. -/
def shortForms : List (Char × Char) :=
  [('"', '"'), ('\\', '\\'), ('/', '/'), ('b', '\x08'), ('f', '\x0c'), ('n', '\n'), ('r', '\r'),
   ('t', '\t')]

/-- A hexadecimal digit with this value, in lower or upper case. -/
def IsHexDigit (c : Char) (v : Nat) : Prop :=
  v < 16 ∧ (c = Nat.digitChar v ∨ c = (Nat.digitChar v).toUpper)

/-- The ways to write one element of a literal. -/
inductive Spelling : Element → List Char → Prop
  | plain {c : Char} : c ≠ '"' → c ≠ '\\' → 0x20 ≤ c.toNat → Spelling (.char c) [c]
  | short {c e : Char} : (c, e) ∈ shortForms → Spelling (.char e) ['\\', c]
  | unit {a b c d : Char} {i j k l : Nat} : IsHexDigit a i → IsHexDigit b j → IsHexDigit c k →
      IsHexDigit d l → Spelling (.unit (((i * 16 + j) * 16 + k) * 16 + l)) ['\\', 'u', a, b, c, d]

/-- The ways to write elements in a row. -/
inductive Spellings : List Element → List Char → Prop
  | nil : Spellings [] []
  | cons {e : Element} {es : List Element} {s t : List Char} : Spelling e s → Spellings es t →
      Spellings (e :: es) (s ++ t)

/-- A literal with these elements, in its quotes. -/
def IsLiteral (es : List Element) (text : List Char) : Prop :=
  ∃ body, Spellings es body ∧ text = '"' :: body ++ ['"']

/-- What the elements of a literal mean. A unit outside the surrogates is the character with
its number, and two surrogates are the character of the pair. -/
inductive Means : List Element → List Char → Prop
  | nil : Means [] []
  | char {es : List Element} {s : List Char} (c : Char) : Means es s →
      Means (.char c :: es) (c :: s)
  | unit {es : List Element} {s : List Char} {n : Nat} : n < 0xD800 ∨ 0xE000 ≤ n → Means es s →
      Means (.unit n :: es) (Char.ofNat n :: s)
  | pair {es : List Element} {s : List Char} {high low : Nat} : high < 0x400 → low < 0x400 →
      Means es s → Means (.unit (0xD800 + high) :: .unit (0xDC00 + low) :: es)
        (Char.ofNat (0x10000 + high * 0x400 + low) :: s)

/-- A literal that means this text. -/
def Denotes (literal : List Char) (s : List Char) : Prop :=
  ∃ es, IsLiteral es literal ∧ Means es s

section Reading

theorem hexValue?_of_isHexDigit {c : Char} {v : Nat} (h : IsHexDigit c v) :
    hexValue? c = some v := by
  have hall : ∀ v < 16, hexValue? (Nat.digitChar v) = some v ∧
      hexValue? (Nat.digitChar v).toUpper = some v := by decide
  obtain ⟨hv, rfl | rfl⟩ := h
  · exact (hall v hv).1
  · exact (hall v hv).2

theorem shortEscape?_of_mem {c e : Char} (h : (c, e) ∈ shortForms) : shortEscape? c = some e := by
  have hall : ∀ p ∈ shortForms, shortEscape? p.1 = some p.2 := by decide
  exact hall (c, e) h

theorem unit?_of_isHexDigit {a b c d : Char} {i j k l : Nat} (ha : IsHexDigit a i)
    (hb : IsHexDigit b j) (hc : IsHexDigit c k) (hd : IsHexDigit d l) :
    unit? a b c d = some (((i * 16 + j) * 16 + k) * 16 + l) := by
  simp only [unit?, hexValue?_of_isHexDigit ha, hexValue?_of_isHexDigit hb,
    hexValue?_of_isHexDigit hc, hexValue?_of_isHexDigit hd, Option.bind_eq_bind, Option.bind_some,
    Option.some.injEq]
  omega

/-- The reader takes the first element off a body. -/
theorem elements?_of_spelling {e : Element} {s : List Char} (h : Spelling e s)
    (rest : List Char) :
    elements? (s ++ rest) = (elements? rest).map fun p => (e :: p.1, p.2) := by
  cases h with
  | @plain c hq hb hc =>
    rw [List.singleton_append, elements?, if_neg (Nat.not_lt.2 hc)]
    · exact hq
    · exact fun _ _ _ _ _ h _ => hb h
    · exact fun _ _ h _ => hb h
  | @short c e hm =>
    have hu : c ≠ 'u' := by
      rintro rfl
      simp [shortForms] at hm
    rw [List.cons_append, List.singleton_append, elements?, shortEscape?_of_mem hm]
    exact fun _ _ _ _ _ he => absurd he hu
  | unit ha hb hc hd =>
    simp [elements?, unit?_of_isHexDigit ha hb hc hd]

theorem elements?_of_spellings {es : List Element} {body : List Char} (h : Spellings es body)
    (rest : List Char) : elements? (body ++ '"' :: rest) = some (es, rest) := by
  induction h with
  | nil => rfl
  | cons hs _ ih =>
    rw [List.append_assoc, elements?_of_spelling hs, ih]
    rfl

theorem isLowSurrogate_iff (n : Nat) : isLowSurrogate n = true ↔ 0xDC00 ≤ n ∧ n < 0xE000 := by
  simp [isLowSurrogate]

theorem isHighSurrogate_iff (n : Nat) : isHighSurrogate n = true ↔ 0xD800 ≤ n ∧ n < 0xDC00 := by
  simp [isHighSurrogate]

theorem characters?_of_means {es : List Element} {s : List Char} (h : Means es s) :
    characters? es = some s := by
  induction h with
  | nil => rfl
  | char c _ ih => simp [characters?, ih]
  | @unit es s n hn _ ih =>
    have hlow : ¬ isLowSurrogate n = true := by
      rw [isLowSurrogate_iff]
      omega
    have hhigh : ¬ isHighSurrogate n = true := by
      rw [isHighSurrogate_iff]
      omega
    rw [characters?.eq_def]
    simp [hlow, hhigh, ih]
  | @pair es s high low hh hl _ ih =>
    have hlow : ¬ isLowSurrogate (0xD800 + high) = true := by
      rw [isLowSurrogate_iff]
      omega
    have hhigh : isHighSurrogate (0xD800 + high) = true := by
      rw [isHighSurrogate_iff]
      omega
    have hsecond : isLowSurrogate (0xDC00 + low) = true := by
      rw [isLowSurrogate_iff]
      omega
    have hpaired : paired (0xD800 + high) (0xDC00 + low) =
        Char.ofNat (0x10000 + high * 0x400 + low) := by
      simp [paired]
    rw [characters?.eq_def]
    simp [hlow, hhigh, hsecond, hpaired, ih]

theorem tokens_literal {es : List Element} {text : List Char} (h : IsLiteral es text)
    (rest : List Char) : tokens (text ++ rest) = .string (characters? es) :: tokens rest := by
  obtain ⟨body, hb, rfl⟩ := h
  have ht : token? '"' (body ++ '"' :: rest) = some (.string (characters? es), rest) := by
    simp [token?, punctuation?, elements?_of_spellings hb]
  rw [List.append_assoc, List.cons_append, List.singleton_append]
  exact tokens_token rfl ht

theorem tokens_denotes {text s : List Char} (h : Denotes text s) (rest : List Char) :
    tokens (text ++ rest) = .string (some s) :: tokens rest := by
  obtain ⟨es, hl, hm⟩ := h
  rw [tokens_literal hl, characters?_of_means hm]

end Reading

section Controls

theorem le_toNat_of_isHexDigit {c : Char} {v : Nat} (h : IsHexDigit c v) : 0x20 ≤ c.toNat := by
  have hall : ∀ v < 16, 0x20 ≤ (Nat.digitChar v).toNat ∧
      0x20 ≤ (Nat.digitChar v).toUpper.toNat := by decide
  obtain ⟨hv, rfl | rfl⟩ := h
  · exact (hall v hv).1
  · exact (hall v hv).2

theorem le_toNat_of_spelling {e : Element} {s : List Char} (h : Spelling e s) :
    ∀ c ∈ s, 0x20 ≤ c.toNat := by
  cases h with
  | plain _ _ hc => simpa using hc
  | short hm =>
    have hall : ∀ p ∈ shortForms, 0x20 ≤ p.1.toNat := by decide
    simpa using hall _ hm
  | unit ha hb hc hd =>
    simp [le_toNat_of_isHexDigit ha, le_toNat_of_isHexDigit hb, le_toNat_of_isHexDigit hc,
      le_toNat_of_isHexDigit hd]

theorem le_toNat_of_spellings {es : List Element} {body : List Char} (h : Spellings es body) :
    ∀ c ∈ body, 0x20 ≤ c.toNat := by
  induction h with
  | nil => simp
  | cons hs _ ih =>
    intro c hc
    exact (List.mem_append.1 hc).elim (le_toNat_of_spelling hs c) (ih c)

/-- No control stands in a literal, however its text is spelled. -/
theorem le_toNat_of_isLiteral {es : List Element} {text : List Char} (h : IsLiteral es text) :
    ∀ c ∈ text, 0x20 ≤ c.toNat := by
  obtain ⟨body, hb, rfl⟩ := h
  have hbody := le_toNat_of_spellings hb
  simpa [or_imp, forall_and] using hbody

end Controls

section Writing

theorem exists_spelling_of_short {c e : Char} (h : (c, e) ∈ shortForms) :
    ∃ el, Spelling el ['\\', c] ∧ ∀ es s, Means es s → Means (el :: es) (e :: s) :=
  ⟨.char e, .short h, fun _ _ => .char e⟩

theorem exists_spelling_of_control {c : Char} (hc : c.toNat < 0x20) :
    ∃ e, Spelling e ['\\', 'u', '0', '0', Nat.digitChar (c.toNat / 16),
        Nat.digitChar (c.toNat % 16)] ∧ ∀ es s, Means es s → Means (e :: es) (c :: s) := by
  have hdigit : ∀ v < 16, IsHexDigit (Nat.digitChar v) v := fun v hv => ⟨hv, .inl rfl⟩
  have hs := Spelling.unit (hdigit 0 (by decide)) (hdigit 0 (by decide))
    (hdigit (c.toNat / 16) (by omega)) (hdigit (c.toNat % 16) (by omega))
  have hn : ((0 * 16 + 0) * 16 + c.toNat / 16) * 16 + c.toNat % 16 = c.toNat := by omega
  rw [hn] at hs
  refine ⟨_, hs, fun es s hm => ?_⟩
  have hu := Means.unit (n := c.toNat) (.inl (by omega)) hm
  rwa [Char.ofNat_toNat] at hu

/-- The writer spells every character in one of the ways. -/
theorem exists_spelling_escape (c : Char) :
    ∃ e, Spelling e (escape c) ∧ ∀ es s, Means es s → Means (e :: es) (c :: s) := by
  unfold escape
  split
  · subst_vars
    exact exists_spelling_of_short (by decide)
  split
  · subst_vars
    exact exists_spelling_of_short (by decide)
  split
  · subst_vars
    exact exists_spelling_of_short (by decide)
  split
  · subst_vars
    exact exists_spelling_of_short (by decide)
  split
  · subst_vars
    exact exists_spelling_of_short (by decide)
  split
  · subst_vars
    exact exists_spelling_of_short (by decide)
  split
  · subst_vars
    exact exists_spelling_of_short (by decide)
  split
  · exact exists_spelling_of_control ‹_›
  · exact ⟨_, .plain ‹_› ‹_› (by omega), fun _ _ => .char _⟩

theorem exists_spellings_escape (s : List Char) :
    ∃ es, Spellings es (s.flatMap escape) ∧ Means es s := by
  induction s with
  | nil => exact ⟨[], .nil, .nil⟩
  | cons c rest ih =>
    obtain ⟨e, hs, hm⟩ := exists_spelling_escape c
    obtain ⟨es, hes, hrest⟩ := ih
    exact ⟨e :: es, .cons hs hes, hm es rest hrest⟩

/-- The literal that is written for a text means that text. -/
theorem denotes_literal (s : List Char) : Denotes (literal s) s := by
  obtain ⟨es, hs, hm⟩ := exists_spellings_escape s
  exact ⟨es, ⟨_, hs, rfl⟩, hm⟩

end Writing

end ConfinedRelay.Json
