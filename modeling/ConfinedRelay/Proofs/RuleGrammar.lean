import ConfinedRelay.Filter
import Mathlib.Data.List.Forall2
import Mathlib.Data.List.TakeWhile

/-!
How the rules of a filter are written. A rule that does not begin with white space is read if
it is written as the grammar says, and then it is what the grammar says. A text is read as a
filter if all of its pieces are.
-/
namespace ConfinedRelay

namespace Text

theorem width_add_one (s : List Char) (c : Char) (hc : c.utf8Size = 1) :
    width s + 1 = width (s ++ [c]) := by
  rw [width_append, width_cons, width_nil, hc]

theorem exists_trimEnd (s : List Char) :
    ∃ tail, s = trimEnd s ++ tail ∧ ∀ c ∈ tail, isWhite c = true := by
  refine ⟨(s.reverse.takeWhile isWhite).reverse, ?_, ?_⟩
  · rw [trimEnd, ← List.reverse_append, List.takeWhile_append_dropWhile, List.reverse_reverse]
  · intro c hc
    exact List.mem_takeWhile_imp (List.mem_reverse.1 hc)

theorem trimEnd_of_white {s : List Char} (h : ∀ c ∈ s, isWhite c = true) : trimEnd s = [] := by
  rw [trimEnd, List.dropWhile_eq_nil_iff.2 fun c hc => h c (List.mem_reverse.1 hc),
    List.reverse_nil]

/-- A text of white space alone, or one that begins as it does without that at its end. -/
theorem trimEnd_eq (s : List Char) : (∀ c ∈ s, isWhite c = true) ∧ trimEnd s = [] ∨
    ∃ c rest trimmed, s = c :: rest ∧ (¬ ∀ d ∈ c :: rest, isWhite d = true) ∧
      trimEnd s = c :: trimmed := by
  by_cases h : ∀ c ∈ s, isWhite c = true
  · exact .inl ⟨h, trimEnd_of_white h⟩
  · obtain ⟨tail, hs, htail⟩ := exists_trimEnd s
    cases ht : trimEnd s with
    | nil => exact absurd (hs ▸ ht ▸ htail) h
    | cons c trimmed =>
      rw [ht, List.cons_append] at hs
      exact .inr ⟨c, _, trimmed, hs, hs ▸ h, rfl⟩

/-- What stands in front of a character that is not white is not touched. -/
theorem trimEnd_append_cons {c : Char} (hc : isWhite c = false) (s t : List Char) :
    trimEnd (s ++ c :: t) = s ++ c :: trimEnd t := by
  simp only [trimEnd, List.reverse_append, List.reverse_cons, List.append_assoc,
    List.dropWhile_append, List.singleton_append]
  cases hd : t.reverse.dropWhile isWhite with
  | nil => simp [hc]
  | cons d rest => simp

theorem mem_of_mem_trimEnd {s : List Char} {c : Char} (h : c ∈ trimEnd s) : c ∈ s := by
  obtain ⟨tail, hs, _⟩ := exists_trimEnd s
  rw [hs]
  exact List.mem_append_left _ h

/-- A text that does not begin with white space is only cut at its end. -/
theorem trim_of_head {s : List Char} (h : ∀ c ∈ s.head?, isWhite c = false) :
    trim s = trimEnd s := by
  rw [trim]
  cases s with
  | nil => rfl
  | cons c s => rw [List.dropWhile_cons_of_neg (by simp [h c rfl])]

theorem head?_trimEnd {s : List Char} (h : ∀ c ∈ s.head?, isWhite c = false) :
    (trimEnd s).head? = s.head? := by
  rcases trimEnd_eq s with ⟨hw, htrim⟩ | ⟨c, rest, trimmed, rfl, _, htrim⟩
  · cases s with
    | nil => rfl
    | cons c s => simpa [hw c List.mem_cons_self] using h c rfl
  · rw [htrim, List.head?_cons, List.head?_cons]

section Marks

variable {isMark : Char → Bool} {front : List Char} {mark : Char}

theorem dropWhile_trimEnd_of_unmarked {s : List Char} (h : ∀ c ∈ s, isMark c = false) :
    (trimEnd s).dropWhile (!isMark ·) = [] := by
  rw [List.dropWhile_eq_nil_iff]
  intro c hc
  rw [h c (mem_of_mem_trimEnd hc), Bool.not_false]

variable (hfront : ∀ c ∈ front, isMark c = false) (hmark : isMark mark = true)
  (hwhite : isWhite mark = false)
include hfront hmark hwhite

theorem takeWhile_trimEnd (rest : List Char) :
    (trimEnd (front ++ mark :: rest)).takeWhile (!isMark ·) = front := by
  rw [trimEnd_append_cons hwhite, List.takeWhile_append_of_pos (by simpa using hfront),
    List.takeWhile_cons_of_neg (by simp [hmark]), List.append_nil]

theorem dropWhile_trimEnd (rest : List Char) :
    (trimEnd (front ++ mark :: rest)).dropWhile (!isMark ·) = mark :: trimEnd rest := by
  rw [trimEnd_append_cons hwhite, List.dropWhile_append_of_pos (by simpa using hfront),
    List.dropWhile_cons_of_neg (by simp [hmark])]

end Marks

/-- A text without marks, or cut at its first mark. -/
theorem unmarked_or_marked (isMark : Char → Bool) (s : List Char) :
    (∀ c ∈ s, isMark c = false) ∨ ∃ front mark rest, s = front ++ mark :: rest ∧
      (∀ c ∈ front, isMark c = false) ∧ isMark mark = true := by
  cases h : s.find? isMark with
  | none => exact .inl (by simpa using h)
  | some mark =>
    obtain ⟨hmark, front, rest, hs, hfront⟩ := List.find?_eq_some_iff_append.1 h
    exact .inr ⟨front, mark, rest, hs, by simpa using hfront, hmark⟩

end Text

theorem bind_eq_ok_iff {ε α β : Type} {x : Except ε α} {f : α → Except ε β} {b : β} :
    (x >>= f) = .ok b ↔ ∃ a, x = .ok a ∧ f a = .ok b := by
  cases x <;> simp [bind, Except.bind]

/-- A threshold as it stands behind an equals sign. -/
inductive Threshold.Written : List Char → Threshold → Prop
  | every : Written [] (.upTo .trace)
  | level {s : List Char} {t : Threshold} : s ≠ [] → ofText? s = some t → Written s t

/-- What is asked of a field, as it stands between braces. -/
inductive FieldTest.Written [PatternSyntax] : List Char → FieldTest → Prop
  | name {s : List Char} : s ≠ [] → '=' ∉ s → Written s { name := s }
  | value {name value rest : List Char} : '=' ∉ name → '=' ∉ value →
      (rest = [] ∨ ∃ more, rest = '=' :: more) → PatternSyntax.complaint? value = none →
      Written (name ++ '=' :: (value ++ rest)) { name, value := some value }

section Fields

variable [PatternSyntax]

theorem FieldTest.Written.ne_nil {s : List Char} {f : FieldTest} (h : f.Written s) : s ≠ [] := by
  cases h with
  | name hs => exact hs
  | value => simp

theorem FieldTest.ofText_of_not_mem {s : List Char} (h : '=' ∉ s) :
    ofText s = .ok { name := s } := by
  have hall : ∀ c ∈ s, decide (c ≠ '=') = true := by
    intro c hc
    exact decide_eq_true fun heq => h (heq ▸ hc)
  rw [ofText, List.dropWhile_eq_nil_iff.2 hall, List.takeWhile_eq_self_iff.2 hall]

theorem FieldTest.ofText_append_eq_ok_iff {name : List Char} (h : '=' ∉ name) (rest : List Char)
    (f : FieldTest) : ofText (name ++ '=' :: rest) = .ok f ↔
      PatternSyntax.complaint? (rest.takeWhile (· ≠ '=')) = none ∧
        f = { name, value := some (rest.takeWhile (· ≠ '=')) } := by
  have hall : ∀ c ∈ name, decide (c ≠ '=') = true := by
    intro c hc
    exact decide_eq_true fun heq => h (heq ▸ hc)
  rw [ofText, List.dropWhile_append_of_pos hall, List.takeWhile_append_of_pos hall,
    List.dropWhile_cons_of_neg (by simp), List.takeWhile_cons_of_neg (by simp), List.append_nil]
  dsimp only
  cases PatternSyntax.complaint? (rest.takeWhile (· ≠ '=')) <;> simp [eq_comm]

theorem FieldTest.ofText_eq_ok_iff {s : List Char} (hs : s ≠ []) (f : FieldTest) :
    ofText s = .ok f ↔ Written s f := by
  constructor
  · intro h
    rcases Text.unmarked_or_marked (· == '=') s with hall | ⟨name, c, rest, rfl, hname, hc⟩
    · have hmem : '=' ∉ s := fun hm => by simpa using hall '=' hm
      rw [ofText_of_not_mem hmem, Except.ok.injEq] at h
      exact h ▸ .name hs hmem
    · obtain rfl : c = '=' := by simpa using hc
      have hmem : '=' ∉ name := fun hm => by simpa using hname '=' hm
      obtain ⟨hc, rfl⟩ := (ofText_append_eq_ok_iff hmem rest f).1 h
      have hsplit : rest.takeWhile (· ≠ '=') ++ rest.dropWhile (· ≠ '=') = rest :=
        List.takeWhile_append_dropWhile
      have hvalue : '=' ∉ rest.takeWhile (· ≠ '=') :=
        fun hm => by simpa using List.mem_takeWhile_imp hm
      have hrest : rest.dropWhile (· ≠ '=') = [] ∨
          ∃ more, rest.dropWhile (· ≠ '=') = '=' :: more := by
        cases hd : rest.dropWhile (· ≠ '=') with
        | nil => exact .inl rfl
        | cons d more =>
          have hne : rest.dropWhile (· ≠ '=') ≠ [] := hd ▸ List.cons_ne_nil d more
          have hhead := List.head_dropWhile_not (· ≠ '=') hne
          simp only [hd, List.head_cons] at hhead
          exact .inr ⟨more, by simpa using hhead⟩
      have hw := Written.value hmem hvalue hrest hc
      rwa [hsplit] at hw
  · rintro (⟨_, hmem⟩ | @⟨name, value, rest, hname, hvalue, hrest, hc⟩)
    · exact ofText_of_not_mem hmem
    · have htake : (value ++ rest).takeWhile (· ≠ '=') = value := by
        rw [List.takeWhile_append_of_pos]
        · rcases hrest with rfl | ⟨more, rfl⟩ <;> simp
        · exact fun c hm => decide_eq_true fun heq => hvalue (heq ▸ hm)
      rw [ofText_append_eq_ok_iff hname, htake]
      exact ⟨hc, rfl⟩

end Fields

namespace Rule

/-- What stands behind the brackets of a rule: white space, or its threshold. -/
inductive Closing : List Char → Threshold → Prop
  | white {s : List Char} : (∀ c ∈ s, Text.isWhite c = true) → Closing s (.upTo .trace)
  | threshold {level : List Char} {t : Threshold} : t.Written level → Closing ('=' :: level) t

/-- What stands behind the bracket that opens: a span, a field or both, and then the closing. -/
inductive Inside [PatternSyntax] :
    List Char → Option (List Char) → Option FieldTest → Threshold → Prop
  | span {name s : List Char} {t : Threshold} : (∀ c ∈ name, endsSpan c = false) → Closing s t →
      Inside (name ++ ']' :: s) (some name) none t
  | field {name text s : List Char} {test : FieldTest} {t : Threshold} :
      (∀ c ∈ name, endsSpan c = false) → '\x7d' ∉ text → test.Written text → Closing s t →
      Inside (name ++ '\x7b' :: (text ++ '\x7d' :: ']' :: s))
        (if name = [] then none else some name) (some test) t

/-- A text that can be the target of a rule. -/
structure IsTarget (s : List Char) : Prop where
  begins : ∃ c ∈ s.head?, mayBegin c = true
  marks : ∀ c ∈ s, isMark c = false

/-- A rule as it is written: a threshold alone, or a target or brackets or both, and then the
threshold. -/
inductive Written [PatternSyntax] : List Char → Rule → Prop
  | threshold {s : List Char} {t : Threshold} : IsTarget s → Threshold.ofText? s = some t →
      Written s { target := none, threshold := t }
  | target {s : List Char} : IsTarget s → Threshold.ofText? s = none →
      Written s { target := some s, threshold := .upTo .trace }
  | level {s level : List Char} {t : Threshold} : IsTarget s → t.Written level →
      Written (s ++ '=' :: level) { target := some s, threshold := t }
  | brackets {s inner : List Char} {span : Option (List Char)} {field : Option FieldTest}
      {t : Threshold} : s = [] ∨ IsTarget s → Inside inner span field t →
      Written (s ++ '[' :: inner)
        { target := if s = [] then none else some s, span, field, threshold := t }

/-- What the first character of a rule has to be. -/
theorem IsTarget.head?_append {s : List Char} (h : IsTarget s) (rest : List Char) :
    ((s ++ rest).head?.any fun c => mayBegin c || c == '[') = true := by
  obtain ⟨c, hc, hbegin⟩ := h.begins
  rw [List.head?_append_of_ne_nil _ (by rintro rfl; cases hc), Option.mem_def.1 hc]
  simp [hbegin]

theorem isTarget_of_head? {s rest : List Char} (hne : s ≠ []) (hmarks : ∀ c ∈ s, isMark c = false)
    (h : ((s ++ rest).head?.any fun c => mayBegin c || c == '[') = true) : IsTarget s := by
  refine ⟨?_, hmarks⟩
  cases s with
  | nil => exact absurd rfl hne
  | cons c s =>
    have hc := hmarks c List.mem_cons_self
    simp only [isMark, Bool.or_eq_false_iff] at hc
    refine ⟨c, rfl, ?_⟩
    simpa [hc.2] using h

section Parts

theorem partAt_eq (front part rest : List Char) :
    partAt (front ++ (part ++ rest)) (Text.width front) part = .ok part := by
  rw [partAt, Text.slice?_width]

theorem thresholdAt_eq_ok_iff (front level : List Char) (t : Threshold) :
    thresholdAt (front ++ level) (Text.width front) = .ok t ↔ t.Written level := by
  rw [thresholdAt, Text.dropBytes?_width]
  cases level with
  | nil =>
    constructor
    · intro h
      obtain rfl := Except.ok.inj h
      exact .every
    · rintro (_ | ⟨hne, _⟩)
      · rfl
      · exact absurd rfl hne
  | cons c level =>
    dsimp only
    constructor
    · intro h
      cases ht : Threshold.ofText? (c :: level) with
      | none => simp [ht] at h
      | some t' =>
        simp only [ht, Except.ok.injEq] at h
        exact .level (List.cons_ne_nil c level) (h ▸ ht)
    · rintro (_ | ⟨_, ht⟩)
      simp [ht]

theorem thresholdBehind_eq_ok_iff (front s : List Char) (t : Threshold) :
    thresholdBehind (front ++ s) (Text.width front) (Text.trimEnd s) = .ok t ↔ Closing s t := by
  rcases Text.trimEnd_eq s with ⟨hw, htrim⟩ | ⟨c, rest, trimmed, rfl, hw, htrim⟩
  · rw [htrim]
    constructor
    · intro h
      obtain rfl := Except.ok.inj h
      exact .white hw
    · rintro (_ | _)
      · rfl
      · simp [Text.isWhite] at hw
  · rw [htrim, thresholdBehind]
    split
    · subst c
      rw [List.append_cons, Text.width_add_one front '=' rfl, thresholdAt_eq_ok_iff]
      constructor
      · exact .threshold
      · rintro (hall | ht)
        · exact absurd hall hw
        · exact ht
    · rename_i hc
      constructor
      · intro h
        cases h
      · rintro (hall | _)
        · exact absurd hall hw
        · exact absurd rfl hc

theorem thresholdBehindField_eq_ok_iff (front s : List Char) (t : Threshold) :
    thresholdBehindField (front ++ s) (Text.width front) (Text.trimEnd s) = .ok t ↔
      ∃ rest, s = ']' :: rest ∧ Closing rest t := by
  rcases Text.trimEnd_eq s with ⟨hw, htrim⟩ | ⟨c, rest, trimmed, rfl, hw, htrim⟩
  · rw [htrim]
    constructor
    · intro h
      cases h
    · rintro ⟨rest, rfl, _⟩
      simp [Text.isWhite] at hw
  · by_cases hc : c = ']'
    · subst c
      rw [show Text.trimEnd (']' :: rest) = ']' :: Text.trimEnd rest from
        Text.trimEnd_append_cons (by decide) [] rest, thresholdBehindField, if_pos rfl,
        List.append_cons, Text.width_add_one front ']' rfl, thresholdBehind_eq_ok_iff]
      simp
    · rw [htrim, thresholdBehindField, if_neg hc]
      constructor
      · intro h
        cases h
      · rintro ⟨_, heq, _⟩
        exact absurd (List.cons.inj heq).1 hc

end Parts

section Reading

variable [PatternSyntax]

theorem readField_of_not_mem (piece : List Char) (target span : Option (List Char)) (start : Nat)
    {inner : List Char} (h : '\x7d' ∉ inner) :
    readField piece target span start inner = .error .badRule := by
  have hall : ∀ c ∈ inner, decide (c ≠ '\x7d') = true := by
    intro c hc
    exact decide_eq_true fun heq => h (heq ▸ hc)
  rw [readField, List.dropWhile_eq_nil_iff.2 hall]

/-- The text of a field that ends, and what stands behind it. -/
theorem readField_append_eq_ok_iff (front : List Char) {text : List Char} (h : '\x7d' ∉ text)
    (s : List Char) (target span : Option (List Char)) (r : Rule) :
    readField (front ++ (text ++ '\x7d' :: s)) target span (Text.width front)
        (text ++ '\x7d' :: Text.trimEnd s) = .ok r ↔
      ∃ test rest t, test.Written text ∧ s = ']' :: rest ∧ Closing rest t ∧
        r = { target, span, field := some test, threshold := t } := by
  have hall : ∀ c ∈ text, decide (c ≠ '\x7d') = true := by
    intro c hc
    exact decide_eq_true fun heq => h (heq ▸ hc)
  rw [readField, List.dropWhile_append_of_pos hall, List.takeWhile_append_of_pos hall,
    List.dropWhile_cons_of_neg (by simp), List.takeWhile_cons_of_neg (by simp), List.append_nil]
  dsimp only
  rw [partAt_eq]
  by_cases hne : text = []
  · subst text
    rw [if_pos rfl]
    constructor
    · intro h
      cases h
    · rintro ⟨test, _, _, ht, _⟩
      exact absurd rfl ht.ne_nil
  · rw [if_neg hne]
    simp only [bind_eq_ok_iff, Except.ok.injEq, exists_eq_left', FieldTest.ofText_eq_ok_iff hne]
    rw [← List.append_assoc, ← Text.width_append, List.append_cons,
      Text.width_add_one (front ++ text) '\x7d' rfl]
    simp only [thresholdBehindField_eq_ok_iff]
    constructor
    · rintro ⟨test, ht, t, ⟨rest, hs, hclosing⟩, rfl⟩
      exact ⟨test, rest, t, ht, hs, hclosing, rfl⟩
    · rintro ⟨test, rest, t, ht, hs, hclosing, rfl⟩
      exact ⟨test, ht, t, ⟨rest, hs, hclosing⟩, rfl⟩

theorem readField_eq_ok_iff (front s : List Char) (target span : Option (List Char)) (r : Rule) :
    readField (front ++ s) target span (Text.width front) (Text.trimEnd s) = .ok r ↔
      ∃ text rest test t, s = text ++ '\x7d' :: ']' :: rest ∧ '\x7d' ∉ text ∧
        FieldTest.Written text test ∧ Closing rest t ∧
        r = { target, span, field := some test, threshold := t } := by
  constructor
  · intro h
    rcases Text.unmarked_or_marked (· == '\x7d') s with hall | ⟨text, c, s, rfl, htext, hc⟩
    · have hmem : '\x7d' ∉ Text.trimEnd s :=
        fun hm => by simpa using hall '\x7d' (Text.mem_of_mem_trimEnd hm)
      rw [readField_of_not_mem _ _ _ _ hmem] at h
      cases h
    · obtain rfl : c = '\x7d' := by simpa using hc
      have hmem : '\x7d' ∉ text := fun hm => by simpa using htext '\x7d' hm
      rw [Text.trimEnd_append_cons rfl, readField_append_eq_ok_iff front hmem] at h
      obtain ⟨test, rest, t, ht, rfl, hclosing, rfl⟩ := h
      exact ⟨text, rest, test, t, rfl, hmem, ht, hclosing, rfl⟩
  · rintro ⟨text, rest, test, t, rfl, hmem, ht, hclosing, rfl⟩
    rw [Text.trimEnd_append_cons rfl, readField_append_eq_ok_iff front hmem]
    exact ⟨test, rest, t, ht, rfl, hclosing, rfl⟩

section Brackets

variable (front : List Char) {name : List Char} (hname : ∀ c ∈ name, endsSpan c = false)
  (s : List Char) (target : Option (List Char)) (r : Rule)
include hname

theorem readBrackets_span_eq_ok_iff :
    readBrackets (front ++ (name ++ ']' :: s)) target (Text.width front)
        (Text.trimEnd (name ++ ']' :: s)) = .ok r ↔
      ∃ t, Closing s t ∧ r = { target, span := some name, threshold := t } := by
  rw [readBrackets, Text.dropWhile_trimEnd hname rfl rfl, Text.takeWhile_trimEnd hname rfl rfl]
  simp only [partAt_eq, bind_eq_ok_iff, Except.ok.injEq, exists_eq_left', ↓reduceIte]
  rw [← List.append_assoc, List.append_cons, ← Text.width_append,
    Text.width_add_one (front ++ name) ']' rfl]
  simp only [thresholdBehind_eq_ok_iff, @eq_comm _ _ r]

theorem readBrackets_field_eq_ok_iff :
    readBrackets (front ++ (name ++ '\x7b' :: s)) target (Text.width front)
        (Text.trimEnd (name ++ '\x7b' :: s)) = .ok r ↔
      ∃ text rest test t, s = text ++ '\x7d' :: ']' :: rest ∧ '\x7d' ∉ text ∧
        FieldTest.Written text test ∧ Closing rest t ∧
        r = { target, span := if name = [] then none else some name, field := some test,
              threshold := t } := by
  rw [readBrackets, Text.dropWhile_trimEnd hname rfl rfl, Text.takeWhile_trimEnd hname rfl rfl]
  simp only [partAt_eq, bind_eq_ok_iff, Except.ok.injEq, exists_eq_left', Char.reduceEq,
    ↓reduceIte]
  rw [← List.append_assoc, List.append_cons, ← Text.width_append,
    Text.width_add_one (front ++ name) '\x7b' rfl]
  exact readField_eq_ok_iff (front ++ name ++ ['\x7b']) s target _ r

end Brackets

theorem readBrackets_eq_ok_iff (front s : List Char) (target : Option (List Char)) (r : Rule) :
    readBrackets (front ++ s) target (Text.width front) (Text.trimEnd s) = .ok r ↔
      ∃ span field t, Inside s span field t ∧ r = { target, span, field, threshold := t } := by
  constructor
  · intro h
    rcases Text.unmarked_or_marked endsSpan s with hall | ⟨name, c, s, rfl, hname, hc⟩
    · rw [readBrackets, Text.dropWhile_trimEnd_of_unmarked hall] at h
      cases h
    · simp only [endsSpan, Bool.or_eq_true, beq_iff_eq] at hc
      rcases hc with rfl | rfl
      · rw [readBrackets_span_eq_ok_iff front hname] at h
        obtain ⟨t, hclosing, rfl⟩ := h
        exact ⟨some name, none, t, .span hname hclosing, rfl⟩
      · rw [readBrackets_field_eq_ok_iff front hname] at h
        obtain ⟨text, rest, test, t, rfl, hmem, ht, hclosing, rfl⟩ := h
        exact ⟨_, some test, t, .field hname hmem ht hclosing, rfl⟩
  · rintro ⟨span, field, t, hinside, rfl⟩
    cases hinside with
    | span hname hclosing =>
      rw [readBrackets_span_eq_ok_iff front hname]
      exact ⟨t, hclosing, rfl⟩
    | field hname hmem ht hclosing =>
      rw [readBrackets_field_eq_ok_iff front hname]
      exact ⟨_, _, _, t, rfl, hmem, ht, hclosing, rfl⟩

section Pieces

variable {s : List Char} (r : Rule)

theorem ofPiece_target_eq_ok_iff (hw : ∀ c ∈ s.head?, Text.isWhite c = false) (hs : IsTarget s) :
    ofPiece s = .ok r ↔
      (∃ t, Threshold.ofText? s = some t ∧ r = { target := none, threshold := t }) ∨
        Threshold.ofText? s = none ∧ r = { target := some s, threshold := .upTo .trace } := by
  have hbegin := hs.head?_append []
  rw [List.append_nil] at hbegin
  rw [ofPiece, Text.trim_of_head hw, Text.head?_trimEnd hw, if_pos hbegin,
    Text.dropWhile_trimEnd_of_unmarked hs.marks]
  dsimp only
  cases Threshold.ofText? s <;> simp [eq_comm]

theorem ofPiece_level_eq_ok_iff (level : List Char)
    (hw : ∀ c ∈ (s ++ '=' :: level).head?, Text.isWhite c = false) (hs : IsTarget s) :
    ofPiece (s ++ '=' :: level) = .ok r ↔
      ∃ t, Threshold.Written level t ∧ r = { target := some s, threshold := t } := by
  rw [ofPiece, Text.trim_of_head hw, Text.head?_trimEnd hw, if_pos (hs.head?_append _),
    Text.dropWhile_trimEnd hs.marks rfl rfl, Text.takeWhile_trimEnd hs.marks rfl rfl]
  have hpart : partAt (s ++ '=' :: level) 0 s = .ok s := partAt_eq [] s _
  simp only [hpart, bind_eq_ok_iff, Except.ok.injEq, exists_eq_left', ↓reduceIte]
  rw [List.append_cons, Text.width_add_one s '=' rfl]
  simp only [thresholdAt_eq_ok_iff, @eq_comm _ _ r]

theorem ofPiece_brackets_eq_ok_iff (inner : List Char)
    (hw : ∀ c ∈ (s ++ '[' :: inner).head?, Text.isWhite c = false) (hs : s = [] ∨ IsTarget s) :
    ofPiece (s ++ '[' :: inner) = .ok r ↔
      ∃ span field t, Inside inner span field t ∧
        r = { target := if s = [] then none else some s, span, field, threshold := t } := by
  have hbegin : ((s ++ '[' :: inner).head?.any fun c => mayBegin c || c == '[') = true := by
    rcases hs with rfl | hs
    · simp
    · exact hs.head?_append _
  have hmarks : ∀ c ∈ s, isMark c = false := by
    rcases hs with rfl | hs
    · simp
    · exact hs.marks
  rw [ofPiece, Text.trim_of_head hw, Text.head?_trimEnd hw, if_pos hbegin,
    Text.dropWhile_trimEnd hmarks rfl rfl, Text.takeWhile_trimEnd hmarks rfl rfl]
  have hpart : partAt (s ++ '[' :: inner) 0 s = .ok s := partAt_eq [] s _
  simp only [hpart, bind_eq_ok_iff, Except.ok.injEq, exists_eq_left', Char.reduceEq, ↓reduceIte]
  rw [List.append_cons, Text.width_add_one s '[' rfl, readBrackets_eq_ok_iff]

/-- A rule is read if it is written as the grammar says, and not otherwise. -/
theorem ofPiece_eq_ok_iff {piece : List Char} (hw : ∀ c ∈ piece.head?, Text.isWhite c = false) :
    ofPiece piece = .ok r ↔ Written piece r := by
  constructor
  · intro h
    have hbegin : (piece.head?.any fun c => mayBegin c || c == '[') = true := by
      rw [ofPiece, Text.trim_of_head hw, Text.head?_trimEnd hw] at h
      split at h
      · assumption
      · cases h
    rcases Text.unmarked_or_marked isMark piece with hall | ⟨s, c, rest, rfl, hmarks, hc⟩
    · have hne : piece ≠ [] := by
        rintro rfl
        cases hbegin
      have hs : IsTarget piece :=
        isTarget_of_head? hne hall ((List.append_nil piece).symm ▸ hbegin)
      rcases (ofPiece_target_eq_ok_iff r hw hs).1 h with ⟨t, ht, rfl⟩ | ⟨ht, rfl⟩
      · exact .threshold hs ht
      · exact .target hs ht
    · have hs : s = [] ∨ IsTarget s := by
        by_cases hne : s = []
        · exact .inl hne
        · exact .inr (isTarget_of_head? hne hmarks hbegin)
      simp only [isMark, Bool.or_eq_true, beq_iff_eq] at hc
      rcases hc with rfl | rfl
      · rcases hs with rfl | hs
        · have hcannot : (mayBegin '=' || '=' == '[') = false := by decide +kernel
          rw [List.nil_append, List.head?_cons, Option.any_some, hcannot] at hbegin
          cases hbegin
        · obtain ⟨t, ht, rfl⟩ := (ofPiece_level_eq_ok_iff r rest hw hs).1 h
          exact .level hs ht
      · obtain ⟨span, field, t, hinside, rfl⟩ := (ofPiece_brackets_eq_ok_iff r rest hw hs).1 h
        exact .brackets hs hinside
  · intro h
    cases h with
    | threshold hs ht =>
      rw [ofPiece_target_eq_ok_iff _ hw hs]
      exact .inl ⟨_, ht, rfl⟩
    | target hs ht =>
      rw [ofPiece_target_eq_ok_iff _ hw hs]
      exact .inr ⟨ht, rfl⟩
    | level hs ht =>
      rw [ofPiece_level_eq_ok_iff _ _ hw hs]
      exact ⟨_, ht, rfl⟩
    | brackets hs hinside =>
      rw [ofPiece_brackets_eq_ok_iff _ _ hw hs]
      exact ⟨_, _, _, hinside, rfl⟩

end Pieces

end Reading

end Rule

namespace Filter

variable [PatternSyntax]

/-- What a text gives that can be read: one rule for each of its pieces, or the fallback
where it has none. A piece that does not begin with white space is a rule as it is written. -/
def Reads (text : String) (rules : List Rule) : Prop :=
  pieces text = [] ∧ rules = [fallback] ∨
    pieces text ≠ [] ∧ List.Forall₂
      (fun piece rule => Rule.ofPiece piece = .ok rule ∧
        ((∀ c ∈ piece.head?, Text.isWhite c = false) → Rule.Written piece rule))
      (pieces text) rules

theorem mapM_ofPiece_eq_ok_iff (pieces : List (List Char)) (rules : List Rule) :
    pieces.mapM Rule.ofPiece = .ok rules ↔
      List.Forall₂ (fun piece rule => Rule.ofPiece piece = .ok rule) pieces rules := by
  induction pieces generalizing rules with
  | nil => cases rules <;> simp [pure, Except.pure]
  | cons piece later ih =>
    rw [List.mapM_cons]
    cases hp : Rule.ofPiece piece with
    | error e => cases rules <;> simp [bind, Except.bind, hp]
    | ok rule =>
      cases hl : later.mapM Rule.ofPiece with
      | error e => cases rules <;> simp [bind, Except.bind, ← ih, hl, hp]
      | ok others => cases rules <;> simp [bind, Except.bind, pure, Except.pure, ← ih, hl, hp]

theorem reads_of_ofText {text : String} {f : Filter} (h : ofText text = .ok f) :
    Reads text f.rules := by
  unfold ofText at h
  cases hm : (pieces text).mapM Rule.ofPiece with
  | error e => simp [hm] at h
  | ok rules =>
    have hall := (mapM_ofPiece_eq_ok_iff _ _).1 hm
    cases rules with
    | nil =>
      simp only [hm, Except.ok.injEq] at h
      exact .inl ⟨List.forall₂_nil_right_iff.1 hall, by rw [← h]⟩
    | cons rule others =>
      simp only [hm, Except.ok.injEq] at h
      subst f
      refine .inr ⟨?_, hall.imp fun piece rule hr => ⟨hr, fun hw => ?_⟩⟩
      · intro hnil
        rw [hnil] at hall
        cases hall
      · exact (Rule.ofPiece_eq_ok_iff rule hw).1 hr

end Filter
end ConfinedRelay
