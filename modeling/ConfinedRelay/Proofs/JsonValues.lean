import ConfinedRelay.Json.Skip
import ConfinedRelay.Proofs.JsonLiterals

/-!
Well-formed JSON values as texts, by the grammar of JSON alone: words, numerals of any size,
literals of any elements, and arrays and objects of any depth with blanks between their
parts. Whoever skips a value comes out exactly behind such a text, in whatever brackets it
stands.
-/
namespace ConfinedRelay.Json

section Numerals

/-- One digit or more. -/
def AreDigits (s : List Char) : Prop := s ≠ [] ∧ ∀ c ∈ s, c.isDigit = true

/-- The digits before a point. Only zero itself begins with a zero. -/
inductive IsWhole : List Char → Prop
  | zero : IsWhole ['0']
  | digits {c : Char} {ds : List Char} : c ≠ '0' → AreDigits (c :: ds) → IsWhole (c :: ds)

inductive IsFraction : List Char → Prop
  | none : IsFraction []
  | digits {ds : List Char} : AreDigits ds → IsFraction ('.' :: ds)

inductive IsExponent : List Char → Prop
  | none : IsExponent []
  | digits {c : Char} {sign ds : List Char} : c = 'e' ∨ c = 'E' →
      sign = [] ∨ sign = ['+'] ∨ sign = ['-'] → AreDigits ds → IsExponent (c :: (sign ++ ds))

inductive IsNumeral : List Char → Prop
  | mk {minus whole fraction exponent : List Char} : minus = [] ∨ minus = ['-'] → IsWhole whole →
      IsFraction fraction → IsExponent exponent →
      IsNumeral (minus ++ (whole ++ (fraction ++ exponent)))

/-- Behind a value its text may end, or a blank, a comma or a closing bracket may come. -/
def EndsValue (rest : List Char) : Prop :=
  ∀ c, rest.head? = some c → isBlank c = true ∨ c = ',' ∨ c = ']' ∨ c = '\x7d'

theorem IsWhole.areDigits {s : List Char} (h : IsWhole s) : AreDigits s := by
  cases h with
  | zero => exact ⟨by simp, by simp [Char.isDigit]⟩
  | digits _ hd => exact hd

/-- Digits are read up to the first character that is none. -/
theorem digits_append {ds rest : List Char} (hd : ∀ c ∈ ds, c.isDigit = true)
    (hr : ∀ c, rest.head? = some c → c.isDigit = false) :
    digits (ds ++ rest) = (ds.map fun c => c.toNat - 48, rest) := by
  have ht : rest.takeWhile Char.isDigit = [] ∧ rest.dropWhile Char.isDigit = rest := by
    cases rest with
    | nil => exact ⟨rfl, rfl⟩
    | cons c later => simp [hr c rfl]
  unfold digits
  rw [List.takeWhile_append_of_pos hd, List.dropWhile_append_of_pos hd, ht.1, ht.2,
    List.append_nil]

theorem not_isDigit_of_endsValue {rest : List Char} (h : EndsValue rest) (c : Char)
    (hc : rest.head? = some c) : c.isDigit = false ∧ c ≠ '.' ∧ c ≠ 'e' ∧ c ≠ 'E' := by
  rcases h c hc with hb | rfl | rfl | rfl
  · simp only [isBlank, Bool.or_eq_true, decide_eq_true_eq] at hb
    rcases hb with ((rfl | rfl) | rfl) | rfl <;> decide
  · decide
  · decide
  · decide

theorem exponent?_of_endsValue {rest : List Char} (hr : EndsValue rest) :
    exponent? rest = some (none, rest) := by
  cases rest with
  | nil => rfl
  | cons c later =>
    obtain ⟨_, _, he, hE⟩ := not_isDigit_of_endsValue hr c rfl
    simp [exponent?, he, hE]

/-- The power of ten is the same whatever comes behind the numeral. -/
theorem exponent?_append {exponent : List Char} (h : IsExponent exponent) :
    ∃ power, ∀ rest, EndsValue rest → exponent? (exponent ++ rest) = some (power, rest) := by
  cases h with
  | none => exact ⟨.none, fun _ => exponent?_of_endsValue⟩
  | @digits c sign ds hc hs hd =>
    have hds : ∀ rest, EndsValue rest →
        digits (ds ++ rest) = (ds.map fun c => c.toNat - 48, rest) := fun rest hr =>
      digits_append hd.2 fun c hc => (not_isDigit_of_endsValue hr c hc).1
    rcases hs with rfl | rfl | rfl
    · -- the first digit is no sign
      refine ⟨some (ofDigits (ds.map fun c => c.toNat - 48)), fun rest hr => ?_⟩
      have hds := hds rest hr
      obtain ⟨d, later, rfl⟩ := List.exists_cons_of_ne_nil hd.1
      have hdigit := hd.2 d List.mem_cons_self
      have hplus : d ≠ '+' := by rintro rfl; simp [Char.isDigit] at hdigit
      have hminus : d ≠ '-' := by rintro rfl; simp [Char.isDigit] at hdigit
      simp only [exponent?, List.cons_append, List.nil_append, if_pos hc]
      split <;> simp_all
    · refine ⟨some (ofDigits (ds.map fun c => c.toNat - 48)), fun rest hr => ?_⟩
      simp [exponent?, hc, hds rest hr, hd.1]
    · refine ⟨some (-ofDigits (ds.map fun c => c.toNat - 48)), fun rest hr => ?_⟩
      simp [exponent?, hc, hds rest hr, hd.1]

theorem fraction?_of_head? {rest : List Char} (hr : rest.head? ≠ some '.') :
    fraction? rest = some ([], rest) := by
  unfold fraction?
  split <;> simp_all

theorem fraction?_append {fraction : List Char} (h : IsFraction fraction) :
    ∃ ds, ∀ rest, (∀ c, rest.head? = some c → c.isDigit = false ∧ c ≠ '.') →
      fraction? (fraction ++ rest) = some (ds, rest) := by
  cases h with
  | none => exact ⟨[], fun rest hr => fraction?_of_head? fun hc => (hr _ hc).2 rfl⟩
  | @digits ds hd =>
    refine ⟨ds.map fun c => c.toNat - 48, fun rest hr => ?_⟩
    have hds := digits_append hd.2 fun c hc => (hr c hc).1
    simp [fraction?, hds, hd.1]

/-- Behind the digits of the fraction no digit and no point can follow. -/
theorem head?_exponent_append {exponent rest : List Char} (h : IsExponent exponent)
    (hr : EndsValue rest) (c : Char) (hc : (exponent ++ rest).head? = some c) :
    c.isDigit = false ∧ c ≠ '.' := by
  cases h with
  | none => exact ⟨(not_isDigit_of_endsValue hr c hc).1, (not_isDigit_of_endsValue hr c hc).2.1⟩
  | digits he _ _ =>
    obtain rfl := Option.some.inj hc
    rcases he with rfl | rfl <;> decide

theorem head?_fraction_append {fraction rest : List Char} (h : IsFraction fraction)
    (hr : ∀ c, rest.head? = some c → c.isDigit = false ∧ c ≠ '.') (c : Char)
    (hc : (fraction ++ rest).head? = some c) : c.isDigit = false := by
  cases h with
  | none => exact (hr c hc).1
  | digits _ =>
    obtain rfl := Option.some.inj hc
    decide

theorem sign_of_head? {s : List Char} (hs : s.head? ≠ some '-') : sign s = (false, s) := by
  unfold sign
  split <;> simp_all

theorem sign_append {minus : List Char} (hm : minus = [] ∨ minus = ['-']) :
    ∃ negative, ∀ s, s.head? ≠ some '-' → sign (minus ++ s) = (negative, s) := by
  rcases hm with rfl | rfl
  · exact ⟨false, fun s => sign_of_head?⟩
  · exact ⟨true, fun s _ => rfl⟩

theorem IsWhole.admissible {whole : List Char} (h : IsWhole whole) :
    ¬ (whole.map (fun c => c.toNat - 48) = [] ∨
      (whole.map fun c => c.toNat - 48).head? = some 0 ∧
        1 < (whole.map fun c => c.toNat - 48).length) := by
  cases h with
  | zero => simp
  | @digits c ds hz hd =>
    have hdigit := hd.2 c List.mem_cons_self
    simp only [Char.isDigit, Bool.and_eq_true, decide_eq_true_eq] at hdigit
    have hne : c.toNat ≠ 48 := fun h => hz (Char.toNat_inj.1 h)
    have hle : 48 ≤ c.toNat := hdigit.1
    simp
    omega

theorem IsWhole.head?_append {whole : List Char} (h : IsWhole whole) (rest : List Char) :
    (whole ++ rest).head? ≠ some '-' := by
  obtain ⟨d, later, rfl⟩ := List.exists_cons_of_ne_nil h.areDigits.1
  have hdigit := h.areDigits.2 d List.mem_cons_self
  rintro hc
  obtain rfl := Option.some.inj hc
  simp [Char.isDigit] at hdigit

theorem IsWhole.isNumeral {whole : List Char} (h : IsWhole whole) : IsNumeral whole := by
  simpa using IsNumeral.mk (.inl rfl) h .none .none

/-- Digits alone are the numeral of these digits. -/
theorem numeral?_whole {whole rest : List Char} (h : IsWhole whole) (hr : EndsValue rest) :
    numeral? (whole ++ rest) =
      some (⟨false, whole.map fun c => c.toNat - 48, [], none⟩, rest) := by
  have hsign := sign_of_head? (h.head?_append rest)
  have hdigits := digits_append h.areDigits.2 fun c hc => (not_isDigit_of_endsValue hr c hc).1
  have hfraction := fraction?_of_head? fun hc => (not_isDigit_of_endsValue hr _ hc).2.1 rfl
  simp only [numeral?, hsign, hdigits, if_neg h.admissible, hfraction, exponent?_of_endsValue hr]

/-- The reader takes a whole numeral and nothing behind it. -/
theorem numeral?_append {s : List Char} (h : IsNumeral s) :
    ∃ n, ∀ rest, EndsValue rest → numeral? (s ++ rest) = some (n, rest) := by
  obtain @⟨minus, whole, fraction, exponent, hm, hw, hf, he⟩ := h
  obtain ⟨negative, hsign⟩ := sign_append hm
  obtain ⟨ds, hfraction⟩ := fraction?_append hf
  obtain ⟨power, hexponent⟩ := exponent?_append he
  refine ⟨⟨negative, whole.map fun c => c.toNat - 48, ds, power⟩, fun rest hr => ?_⟩
  have htail := head?_exponent_append he hr
  have hdigits := digits_append hw.areDigits.2 (head?_fraction_append hf htail)
  have hminus := hw.head?_append (fraction ++ (exponent ++ rest))
  simp only [numeral?, List.append_assoc, hsign _ hminus, hdigits, if_neg hw.admissible,
    hfraction _ htail, hexponent _ hr]

end Numerals

section Tokens

def Blanks (s : List Char) : Prop := ∀ c ∈ s, isBlank c = true

theorem tokens_blanks {blanks : List Char} (h : Blanks blanks) (rest : List Char) :
    tokens (blanks ++ rest) = tokens rest := by
  induction blanks with
  | nil => rfl
  | cons c later ih =>
    rw [List.cons_append, tokens_blank (h c List.mem_cons_self)]
    exact ih fun d hd => h d (List.mem_cons_of_mem c hd)

theorem tokens_of_blanks {blanks : List Char} (h : Blanks blanks) : tokens blanks = [] := by
  have ht := tokens_blanks h []
  rwa [List.append_nil, tokens_nil] at ht

theorem tokens_punctuation {c : Char} {token : Token} (h : punctuation? c = some token)
    (rest : List Char) : tokens (c :: rest) = token :: tokens rest := by
  have hb : isBlank c = false := by
    cases hc : isBlank c with
    | false => rfl
    | true =>
      simp only [isBlank, Bool.or_eq_true, decide_eq_true_eq] at hc
      rcases hc with ((rfl | rfl) | rfl) | rfl <;> simp [punctuation?] at h
  exact tokens_token hb (by simp [token?, h])

/-- The words of JSON. -/
def words : List (List Char) := ["null".toList, "true".toList, "false".toList]

/-- A token that is a value on its own. -/
def Token.IsScalar : Token → Prop
  | .null | .bool _ | .number _ | .string _ => True
  | _ => False

theorem tokens_word {word : List Char} (h : word ∈ words) :
    ∃ token : Token, token.IsScalar ∧ ∀ rest, tokens (word ++ rest) = token :: tokens rest := by
  simp only [words, List.mem_cons, List.not_mem_nil, or_false] at h
  rcases h with rfl | rfl | rfl
  · exact ⟨.null, trivial, fun _ => tokens_token rfl rfl⟩
  · exact ⟨.bool true, trivial, fun _ => tokens_token rfl rfl⟩
  · exact ⟨.bool false, trivial, fun _ => tokens_token rfl rfl⟩

theorem plain_of_isDigit {c : Char} (h : c.isDigit = true) :
    isBlank c = false ∧ punctuation? c = none ∧ c ≠ '"' := by
  have hall : ∀ n < 58, 48 ≤ n → isBlank (Char.ofNat n) = false ∧
      punctuation? (Char.ofNat n) = none ∧ Char.ofNat n ≠ '"' := by decide
  simp only [Char.isDigit, Bool.and_eq_true, decide_eq_true_eq] at h
  have hle : 48 ≤ c.toNat := h.1
  have hge : c.toNat ≤ 57 := h.2
  have hc := hall c.toNat (by omega) hle
  rwa [Char.ofNat_toNat] at hc

theorem exists_cons_of_isNumeral {s : List Char} (h : IsNumeral s) :
    ∃ c later, s = c :: later ∧ (c = '-' ∨ c.isDigit = true) := by
  obtain @⟨minus, whole, fraction, exponent, hm, hw, _, _⟩ := h
  rcases hm with rfl | rfl
  · obtain ⟨d, later, rfl⟩ := List.exists_cons_of_ne_nil hw.areDigits.1
    exact ⟨d, _, rfl, .inr (hw.areDigits.2 d List.mem_cons_self)⟩
  · exact ⟨'-', _, rfl, .inl rfl⟩

theorem tokens_of_numeral? {s rest : List Char} {n : Numeral} (h : IsNumeral s)
    (hn : numeral? (s ++ rest) = some (n, rest)) :
    tokens (s ++ rest) = .number n :: tokens rest := by
  obtain ⟨c, later, rfl, hc⟩ := exists_cons_of_isNumeral h
  have hplain : isBlank c = false ∧ punctuation? c = none ∧ c ≠ '"' := by
    rcases hc with rfl | hdigit
    · decide
    · exact plain_of_isDigit hdigit
  obtain ⟨hblank, hpunctuation, hquote⟩ := hplain
  rw [List.cons_append] at hn ⊢
  have ht : token? c (later ++ rest) = some (.number n, rest) := by
    rw [token?, hpunctuation]
    simp [hquote, hc, hn]
  exact tokens_token hblank ht

theorem tokens_numeral {s : List Char} (h : IsNumeral s) :
    ∃ n, ∀ rest, EndsValue rest → tokens (s ++ rest) = .number n :: tokens rest := by
  obtain ⟨n, hn⟩ := numeral?_append h
  exact ⟨n, fun rest hr => tokens_of_numeral? h (hn rest hr)⟩

end Tokens

section Skipping

/-- The parts that values are built from. -/
inductive Part where
  | value
  /-- One element or more, with commas between them. -/
  | elements
  /-- One member or more, with commas between them. -/
  | members

/-- The well-formed texts of each part. -/
inductive WellFormed : Part → List Char → Prop
  | word {s : List Char} : s ∈ words → WellFormed .value s
  | numeral {s : List Char} : IsNumeral s → WellFormed .value s
  | literal {es : List Element} {s : List Char} : IsLiteral es s → WellFormed .value s
  | emptyArray {b : List Char} : Blanks b → WellFormed .value ('[' :: (b ++ [']']))
  | array {s : List Char} : WellFormed .elements s → WellFormed .value ('[' :: (s ++ [']']))
  | emptyObject {b : List Char} : Blanks b → WellFormed .value ('\x7b' :: (b ++ ['\x7d']))
  | object {s : List Char} : WellFormed .members s → WellFormed .value ('\x7b' :: (s ++ ['\x7d']))
  | lastElement {b₁ b₂ v : List Char} : Blanks b₁ → WellFormed .value v → Blanks b₂ →
      WellFormed .elements (b₁ ++ (v ++ b₂))
  | element {b₁ b₂ v s : List Char} : Blanks b₁ → WellFormed .value v → Blanks b₂ →
      WellFormed .elements s → WellFormed .elements (b₁ ++ (v ++ (b₂ ++ ',' :: s)))
  | lastMember {es : List Element} {b₁ b₂ b₃ b₄ k v : List Char} : Blanks b₁ → IsLiteral es k →
      Blanks b₂ → Blanks b₃ → WellFormed .value v → Blanks b₄ →
      WellFormed .members (b₁ ++ (k ++ (b₂ ++ ':' :: (b₃ ++ (v ++ b₄)))))
  | member {es : List Element} {b₁ b₂ b₃ b₄ k v s : List Char} : Blanks b₁ → IsLiteral es k →
      Blanks b₂ → Blanks b₃ → WellFormed .value v → Blanks b₄ → WellFormed .members s →
      WellFormed .members (b₁ ++ (k ++ (b₂ ++ ':' :: (b₃ ++ (v ++ (b₄ ++ ',' :: s))))))

theorem endsValue_append {b rest : List Char} (hb : Blanks b) (hr : EndsValue rest) :
    EndsValue (b ++ rest) := by
  cases b with
  | nil => exact hr
  | cons c later =>
    intro d hd
    obtain rfl := Option.some.inj hd
    exact .inl (hb c List.mem_cons_self)

theorem endsValue_cons {c : Char} {rest : List Char} (hc : c = ',' ∨ c = ']' ∨ c = '\x7d') :
    EndsValue (c :: rest) := by
  intro d hd
  obtain rfl := Option.some.inj hd
  exact .inr hc

/-- Where skipping goes on behind a value that stands in these brackets. -/
def resume (brackets : List Bracket) (behind : List Token) : Option (List Token) :=
  match brackets with
  | [] => some behind
  | _ :: _ => skip brackets .separator behind

/-- The places where a value may begin. -/
def Expected.AwaitsValue (e : Expected) : Prop := e = .value ∨ e = .firstElement

/-- Any token but a closing bracket does the same in both of these places. -/
theorem beginValue_of_awaitsValue {e : Expected} (he : e.AwaitsValue) {token : Token}
    (ht : token ≠ .closeArray) (brackets : List Bracket) :
    step brackets e token = beginValue brackets token := by
  rcases he with rfl | rfl
  · rfl
  · cases token <;> first | rfl | exact absurd rfl ht

theorem skip_scalar {token : Token} (ht : token.IsScalar) {e : Expected} (he : e.AwaitsValue)
    (brackets : List Bracket) (behind : List Token) :
    skip brackets e (token :: behind) = resume brackets behind := by
  have hb : beginValue brackets token = some (brackets, .separator) := by
    cases token <;> first | rfl | exact absurd ht id
  have hc : token ≠ .closeArray := by rintro rfl; exact ht
  rw [skip, beginValue_of_awaitsValue he hc, hb]
  cases brackets <;> rfl

theorem skip_openArray {e : Expected} (he : e.AwaitsValue) (brackets : List Bracket)
    (behind : List Token) :
    skip brackets e (.openArray :: behind) = skip (.array :: brackets) .firstElement behind := by
  rw [skip, beginValue_of_awaitsValue he (by simp)]
  rfl

theorem skip_openObject {e : Expected} (he : e.AwaitsValue) (brackets : List Bracket)
    (behind : List Token) :
    skip brackets e (.openObject :: behind) = skip (.object :: brackets) .firstName behind := by
  rw [skip, beginValue_of_awaitsValue he (by simp)]
  rfl

theorem skip_closeArray {e : Expected} (he : e = .firstElement ∨ e = .separator)
    (outer : List Bracket) (behind : List Token) :
    skip (.array :: outer) e (.closeArray :: behind) = resume outer behind := by
  rcases he with rfl | rfl <;> cases outer <;> rfl

theorem skip_closeObject {e : Expected} (he : e = .firstName ∨ e = .separator)
    (outer : List Bracket) (behind : List Token) :
    skip (.object :: outer) e (.closeObject :: behind) = resume outer behind := by
  rcases he with rfl | rfl <;> cases outer <;> rfl

/-- The name of a member with its colon. -/
theorem skip_name {e : Expected} (he : e = .name ∨ e = .firstName) (outer : List Bracket)
    (text : Option (List Char)) (behind : List Token) :
    skip (.object :: outer) e (.string text :: .colon :: behind) =
      skip (.object :: outer) .value behind := by
  rcases he with rfl | rfl <;> rfl

/-- What skipping does at a text of each part, whatever comes behind the text. -/
def Skipped : Part → List Char → Prop
  | .value, s => ∀ brackets e rest, e.AwaitsValue → EndsValue rest →
      skip brackets e (tokens (s ++ rest)) = resume brackets (tokens rest)
  | .elements, s => ∀ outer e rest, e.AwaitsValue →
      skip (.array :: outer) e (tokens (s ++ ']' :: rest)) = resume outer (tokens rest)
  | .members, s => ∀ outer e rest, e = .name ∨ e = .firstName →
      skip (.object :: outer) e (tokens (s ++ '\x7d' :: rest)) = resume outer (tokens rest)

/-- The induction is on the grammar; the brackets around the part and the text behind it are
arbitrary. -/
theorem skipped {part : Part} {s : List Char} (h : WellFormed part s) : Skipped part s := by
  induction h with
  | word hw =>
    intro brackets e rest he _
    obtain ⟨token, ht, hs⟩ := tokens_word hw
    rw [hs]
    exact skip_scalar ht he brackets _
  | numeral hn =>
    intro brackets e rest he hr
    obtain ⟨n, hs⟩ := tokens_numeral hn
    have ht : (Token.number n).IsScalar := trivial
    rw [hs rest hr]
    exact skip_scalar ht he brackets _
  | @literal es s hl =>
    intro brackets e rest he _
    have ht : (Token.string (characters? es)).IsScalar := trivial
    rw [tokens_literal hl]
    exact skip_scalar ht he brackets _
  | emptyArray hb =>
    intro brackets e rest he _
    simp only [List.cons_append, List.append_assoc, List.nil_append]
    rw [tokens_punctuation rfl, tokens_blanks hb, tokens_punctuation rfl, skip_openArray he]
    exact skip_closeArray (.inl rfl) brackets _
  | array _ ih =>
    intro brackets e rest he _
    simp only [List.cons_append, List.append_assoc, List.nil_append]
    rw [tokens_punctuation rfl, skip_openArray he]
    exact ih brackets .firstElement rest (.inr rfl)
  | emptyObject hb =>
    intro brackets e rest he _
    simp only [List.cons_append, List.append_assoc, List.nil_append]
    rw [tokens_punctuation rfl, tokens_blanks hb, tokens_punctuation rfl, skip_openObject he]
    exact skip_closeObject (.inl rfl) brackets _
  | object _ ih =>
    intro brackets e rest he _
    simp only [List.cons_append, List.append_assoc, List.nil_append]
    rw [tokens_punctuation rfl, skip_openObject he]
    exact ih brackets .firstName rest (.inr rfl)
  | @lastElement b₁ b₂ v hb₁ _ hb₂ ih =>
    intro outer e rest he
    have hr : EndsValue (b₂ ++ ']' :: rest) :=
      endsValue_append hb₂ (endsValue_cons (.inr (.inl rfl)))
    simp only [List.append_assoc]
    rw [tokens_blanks hb₁, ih _ e _ he hr, tokens_blanks hb₂, tokens_punctuation rfl]
    exact skip_closeArray (.inr rfl) outer _
  | @element b₁ b₂ v s hb₁ _ hb₂ _ ih ihs =>
    intro outer e rest he
    have hr : EndsValue (b₂ ++ ',' :: (s ++ ']' :: rest)) :=
      endsValue_append hb₂ (endsValue_cons (.inl rfl))
    simp only [List.cons_append, List.append_assoc]
    rw [tokens_blanks hb₁, ih _ e _ he hr, tokens_blanks hb₂, tokens_punctuation rfl]
    exact ihs outer .value rest (.inl rfl)
  | @lastMember es b₁ b₂ b₃ b₄ k v hb₁ hk hb₂ hb₃ _ hb₄ ih =>
    intro outer e rest he
    have hr : EndsValue (b₄ ++ '\x7d' :: rest) :=
      endsValue_append hb₄ (endsValue_cons (.inr (.inr rfl)))
    simp only [List.cons_append, List.append_assoc]
    rw [tokens_blanks hb₁, tokens_literal hk, tokens_blanks hb₂, tokens_punctuation rfl,
      skip_name he, tokens_blanks hb₃, ih _ .value _ (.inl rfl) hr, tokens_blanks hb₄,
      tokens_punctuation rfl]
    exact skip_closeObject (.inr rfl) outer _
  | @member es b₁ b₂ b₃ b₄ k v s hb₁ hk hb₂ hb₃ _ hb₄ _ ih ihs =>
    intro outer e rest he
    have hr : EndsValue (b₄ ++ ',' :: (s ++ '\x7d' :: rest)) :=
      endsValue_append hb₄ (endsValue_cons (.inl rfl))
    simp only [List.cons_append, List.append_assoc]
    rw [tokens_blanks hb₁, tokens_literal hk, tokens_blanks hb₂, tokens_punctuation rfl,
      skip_name he, tokens_blanks hb₃, ih _ .value _ (.inl rfl) hr, tokens_blanks hb₄,
      tokens_punctuation rfl]
    exact ihs outer .name rest (.inl rfl)

/-- A value of any size and depth is skipped as one. -/
theorem skipValue_of_wellFormed {v : List Char} (h : WellFormed .value v) {rest : List Char}
    (hr : EndsValue rest) : skipValue (tokens (v ++ rest)) = some (tokens rest) :=
  skipped h [] .value rest (.inl rfl) hr

/-- The tokens of a well-formed text are its own: they do not depend on what comes behind it. -/
theorem exists_tokens {part : Part} {s : List Char} (h : WellFormed part s) :
    ∃ ts, ∀ rest, EndsValue rest → tokens (s ++ rest) = ts ++ tokens rest := by
  induction h with
  | word hw =>
    obtain ⟨token, _, hs⟩ := tokens_word hw
    exact ⟨[token], fun rest _ => hs rest⟩
  | numeral hn =>
    obtain ⟨n, hs⟩ := tokens_numeral hn
    exact ⟨[.number n], hs⟩
  | @literal es s hl => exact ⟨[.string (characters? es)], fun rest _ => tokens_literal hl rest⟩
  | emptyArray hb =>
    refine ⟨[.openArray, .closeArray], fun rest _ => ?_⟩
    simp only [List.cons_append, List.append_assoc, List.nil_append]
    rw [tokens_punctuation rfl, tokens_blanks hb, tokens_punctuation rfl]
  | array _ ih =>
    obtain ⟨ts, ht⟩ := ih
    refine ⟨.openArray :: (ts ++ [.closeArray]), fun rest _ => ?_⟩
    simp only [List.cons_append, List.append_assoc, List.nil_append]
    rw [tokens_punctuation rfl, ht _ (endsValue_cons (.inr (.inl rfl))), tokens_punctuation rfl]
  | emptyObject hb =>
    refine ⟨[.openObject, .closeObject], fun rest _ => ?_⟩
    simp only [List.cons_append, List.append_assoc, List.nil_append]
    rw [tokens_punctuation rfl, tokens_blanks hb, tokens_punctuation rfl]
  | object _ ih =>
    obtain ⟨ts, ht⟩ := ih
    refine ⟨.openObject :: (ts ++ [.closeObject]), fun rest _ => ?_⟩
    simp only [List.cons_append, List.append_assoc, List.nil_append]
    rw [tokens_punctuation rfl, ht _ (endsValue_cons (.inr (.inr rfl))), tokens_punctuation rfl]
  | lastElement hb₁ _ hb₂ ih =>
    obtain ⟨ts, ht⟩ := ih
    refine ⟨ts, fun rest hr => ?_⟩
    simp only [List.append_assoc]
    rw [tokens_blanks hb₁, ht _ (endsValue_append hb₂ hr), tokens_blanks hb₂]
  | element hb₁ _ hb₂ _ ih ihs =>
    obtain ⟨ts, ht⟩ := ih
    obtain ⟨us, hu⟩ := ihs
    refine ⟨ts ++ .comma :: us, fun rest hr => ?_⟩
    simp only [List.cons_append, List.append_assoc]
    rw [tokens_blanks hb₁, ht _ (endsValue_append hb₂ (endsValue_cons (.inl rfl))),
      tokens_blanks hb₂, tokens_punctuation rfl, hu _ hr]
  | @lastMember es _ _ _ _ _ _ hb₁ hk hb₂ hb₃ _ hb₄ ih =>
    obtain ⟨ts, ht⟩ := ih
    refine ⟨.string (characters? es) :: .colon :: ts, fun rest hr => ?_⟩
    simp only [List.cons_append, List.append_assoc]
    rw [tokens_blanks hb₁, tokens_literal hk, tokens_blanks hb₂, tokens_punctuation rfl,
      tokens_blanks hb₃, ht _ (endsValue_append hb₄ hr), tokens_blanks hb₄]
  | @member es _ _ _ _ _ _ _ hb₁ hk hb₂ hb₃ _ hb₄ _ ih ihs =>
    obtain ⟨ts, ht⟩ := ih
    obtain ⟨us, hu⟩ := ihs
    refine ⟨.string (characters? es) :: .colon :: (ts ++ .comma :: us), fun rest hr => ?_⟩
    simp only [List.cons_append, List.append_assoc]
    rw [tokens_blanks hb₁, tokens_literal hk, tokens_blanks hb₂, tokens_punctuation rfl,
      tokens_blanks hb₃, ht _ (endsValue_append hb₄ (endsValue_cons (.inl rfl))),
      tokens_blanks hb₄, tokens_punctuation rfl, hu _ hr]

/-- A value has tokens of its own, and they are one value. -/
theorem exists_tokens_of_value {v : List Char} (h : WellFormed .value v) :
    ∃ ts, skipValue ts = some [] ∧
      ∀ rest, EndsValue rest → tokens (v ++ rest) = ts ++ tokens rest := by
  obtain ⟨ts, ht⟩ := exists_tokens h
  have hend : EndsValue [] := by simp [EndsValue]
  refine ⟨ts, ?_, ht⟩
  have hs := skipValue_of_wellFormed h hend
  rwa [ht [] hend, tokens_nil, List.append_nil] at hs

end Skipping
end ConfinedRelay.Json
