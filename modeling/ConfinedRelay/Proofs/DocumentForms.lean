import ConfinedRelay.Proofs.SettingsDocuments

/-!
The two forms of a settings document. What is read of a value depends on its tokens alone, so
an array of values and an object that gives the same values to the first settings by name are
read alike: both give the same settings, or both meet the same problem first.
-/
namespace ConfinedRelay

open Json (Token tokens skipValue Denotes Blanks EndsValue WellFormed)

/-- A setting with the value that it has where nothing is given. -/
def Settings.IsDefault (s : Settings) : SettingName → Prop
  | .inputPath => s.inputPath = ({} : Settings).inputPath
  | .logFilter => s.logFilter = ({} : Settings).logFilter
  | .logFormat => s.logFormat = ({} : Settings).logFormat

namespace Document

section Values

/-- Reading behaves alike in front of everything that may follow these tokens, and where it
succeeds it stops right behind them. -/
def Uniform {α : Type} (read : List Token → Except DocumentError (α × List Token))
    (ts : List Token) : Prop :=
  ∃ r : Except DocumentError α, ∀ behind, read (ts ++ behind) = r.map (·, behind)

theorem Uniform.map {α β : Type} (f : α → β)
    {read : List Token → Except DocumentError (α × List Token)}
    {read' : List Token → Except DocumentError (β × List Token)} {ts : List Token}
    (h : Uniform read ts) (hf : ∀ us, read' us = (read us).map fun p => (f p.1, p.2)) :
    Uniform read' ts := by
  obtain ⟨r, hr⟩ := h
  refine ⟨r.map f, fun behind => ?_⟩
  rw [hf, hr]
  cases r <;> rfl

variable {ts us : List Token}

theorem skipValue_nil : skipValue [] ≠ some us := by
  simp [skipValue, Json.skip]

/-- A text is one token. -/
theorem eq_nil_of_string {s : Option (List Char)} (h : skipValue (.string s :: ts) = some []) :
    ts = [] :=
  Option.some.inj h

theorem uniform_readText (demand : Demand) (h : skipValue ts = some []) :
    Uniform (readText demand) ts := by
  cases ts with
  | nil => exact absurd h skipValue_nil
  | cons token ts =>
    cases token with
    | string s =>
      cases s with
      | none => exact ⟨.error (refuse (.string none) demand), fun _ => rfl⟩
      | some s =>
        obtain rfl := eq_nil_of_string h
        exact ⟨.ok s, fun _ => rfl⟩
    | _ => exact ⟨.error (refuse _ demand), fun _ => rfl⟩

/-- Behind the name of a variant the brackets close at the end of the value, if it is null. -/
theorem uniform_nextUnit (h : Json.skip [.object] .colon ts = some []) :
    Uniform (fun us => (nextUnit us).map (Prod.mk ())) ts := by
  cases ts with
  | nil => cases h
  | cons token ts =>
    cases token with
    | colon =>
      cases ts with
      | nil => cases h
      | cons token ts =>
        cases token with
        | null =>
          cases ts with
          | nil => cases h
          | cons token ts =>
            cases token with
            | closeObject =>
              obtain rfl : ts = [] := Option.some.inj h
              exact ⟨.ok (), fun _ => rfl⟩
            | _ => exact ⟨.error .malformed, fun _ => rfl⟩
        | _ => exact ⟨.error (refuse _ .unit), fun _ => rfl⟩
    | _ => cases h

theorem uniform_readFormat (h : skipValue ts = some []) : Uniform readFormat ts := by
  cases ts with
  | nil => exact absurd h skipValue_nil
  | cons token ts =>
    cases token with
    | string s =>
      cases s with
      | none => exact ⟨.error .malformed, fun _ => rfl⟩
      | some s =>
        obtain rfl := eq_nil_of_string h
        refine ⟨formatNamed s, fun behind => ?_⟩
        cases hf : formatNamed s <;> simp [readFormat, hf, bind, Except.bind, Except.map]
    | openObject =>
      cases ts with
      | nil => cases h
      | cons token ts =>
        cases token with
        | string s =>
          cases s with
          | none => exact ⟨.error .malformed, fun _ => rfl⟩
          | some s =>
            cases hf : formatNamed s with
            | error e =>
              refine ⟨.error e, fun behind => ?_⟩
              simp [readFormat, hf, bind, Except.bind, Except.map]
            | ok f =>
              obtain ⟨r, hr⟩ := uniform_nextUnit h
              refine ⟨r.map fun _ => f, fun behind => ?_⟩
              have hu := hr behind
              cases hn : nextUnit (ts ++ behind) <;> cases r <;>
                simp_all [readFormat, bind, Except.bind, Except.map]
        | _ => exact ⟨.error .malformed, fun _ => rfl⟩
    | _ => exact ⟨.error .malformed, fun _ => rfl⟩

theorem Draft.uniform_read (d : Draft) (name : SettingName) (h : skipValue ts = some []) :
    Uniform (d.read name) ts := by
  cases name with
  | inputPath =>
    refine (uniform_readText .path h).map
      (fun s => { d with inputPath := some (String.ofList s) }) fun us => ?_
    change Except.bind _ _ = _
    cases readText .path us <;> rfl
  | logFilter =>
    refine (uniform_readText .text h).map
      (fun s => { d with logFilter := some (String.ofList s) }) fun us => ?_
    change Except.bind _ _ = _
    cases readText .text us <;> rfl
  | logFormat =>
    refine (uniform_readFormat h).map (fun f => { d with logFormat := some f }) fun us => ?_
    change Except.bind _ _ = _
    cases readFormat us <;> rfl

end Values

section Forms

/-- The ways to write values in a row, with commas between them. -/
inductive Elements : List (List Char) → List Char → Prop
  | last {b₁ b₂ v : List Char} : Blanks b₁ → WellFormed .value v → Blanks b₂ →
      Elements [v] (b₁ ++ (v ++ b₂))
  | cons {b₁ b₂ v s : List Char} {vs : List (List Char)} : Blanks b₁ → WellFormed .value v →
      Blanks b₂ → Elements vs s → Elements (v :: vs) (b₁ ++ (v ++ (b₂ ++ ',' :: s)))

/-- The ways to write members that give values to the first of these settings, in this order. -/
inductive Members : List SettingName → List (List Char) → List Char → Prop
  | last {n : SettingName} {names : List SettingName} {b₁ b₂ b₃ b₄ k v : List Char} : Blanks b₁ →
      Denotes k n.text.toList → Blanks b₂ → Blanks b₃ → WellFormed .value v → Blanks b₄ →
      Members (n :: names) [v] (b₁ ++ (k ++ (b₂ ++ ':' :: (b₃ ++ (v ++ b₄)))))
  | cons {n : SettingName} {names : List SettingName} {b₁ b₂ b₃ b₄ k v s : List Char}
      {vs : List (List Char)} : Blanks b₁ → Denotes k n.text.toList → Blanks b₂ → Blanks b₃ →
      WellFormed .value v → Blanks b₄ → Members names vs s →
      Members (n :: names) (v :: vs)
        (b₁ ++ (k ++ (b₂ ++ ':' :: (b₃ ++ (v ++ (b₄ ++ ',' :: s))))))

/-- The documents that are arrays of these values. -/
inductive IsArray : List (List Char) → List Char → Prop
  | empty {b₁ b₂ b₃ : List Char} : Blanks b₁ → Blanks b₂ → Blanks b₃ →
      IsArray [] (b₁ ++ '[' :: (b₂ ++ ']' :: b₃))
  | elements {vs : List (List Char)} {b₁ b₂ s : List Char} : Blanks b₁ → Elements vs s →
      Blanks b₂ → IsArray vs (b₁ ++ '[' :: (s ++ ']' :: b₂))

/-- The documents that are objects and give these values to the first of these settings. -/
inductive IsObject (names : List SettingName) : List (List Char) → List Char → Prop
  | empty {b₁ b₂ b₃ : List Char} : Blanks b₁ → Blanks b₂ → Blanks b₃ →
      IsObject names [] (b₁ ++ '\x7b' :: (b₂ ++ '\x7d' :: b₃))
  | members {vs : List (List Char)} {b₁ b₂ s : List Char} : Blanks b₁ → Members names vs s →
      Blanks b₂ → IsObject names vs (b₁ ++ '\x7b' :: (s ++ '\x7d' :: b₂))

end Forms

section Reading

variable {d e : Draft} {n : SettingName} {names : List SettingName} {first : Bool}
  {v b rest : List Char} {r : Except DocumentError Draft} {ts us : List Token}

/-- Every value has one reading for a setting, whatever comes behind it. -/
theorem Draft.exists_reading (d : Draft) (n : SettingName) (hv : WellFormed .value v) :
    ∃ r : Except DocumentError Draft, ∀ rest, EndsValue rest →
      d.read n (tokens (v ++ rest)) = r.map (·, tokens rest) := by
  obtain ⟨ts, hone, ht⟩ := Json.exists_tokens_of_value hv
  obtain ⟨r, hr⟩ := d.uniform_read n hone
  exact ⟨r, fun rest hrest => by rw [ht rest hrest, hr]⟩

/-- Reading a setting gives no other setting. -/
theorem Draft.has_of_read (h : d.read n ts = .ok (e, us)) {m : SettingName} (hm : m ≠ n) :
    e.has m = d.has m := by
  cases n with
  | inputPath =>
    cases hr : readText .path ts <;> simp [read, hr, bind, Except.bind] at h
    obtain ⟨rfl, -⟩ := h
    cases m <;> first | rfl | contradiction
  | logFilter =>
    cases hr : readText .text ts <;> simp [read, hr, bind, Except.bind] at h
    obtain ⟨rfl, -⟩ := h
    cases m <;> first | rfl | contradiction
  | logFormat =>
    cases hr : readFormat ts <;> simp [read, hr, bind, Except.bind] at h
    obtain ⟨rfl, -⟩ := h
    cases m <;> first | rfl | contradiction

theorem separated_first (us : List Token) : separated true us = some us := rfl

theorem separated_comma (us : List Token) : separated false (.comma :: us) = some us := rfl

theorem readElements_end (first : Bool) (d : Draft) (names : List SettingName) (us : List Token) :
    readElements first d names (.closeArray :: us) = .ok (d, us) := by
  cases names <;> rfl

/-- An element is read for the setting whose turn it is. -/
theorem readElements_element (names : List SettingName) (hb : Blanks b)
    (hv : WellFormed .value v) (hr : EndsValue rest)
    (h : d.read n (tokens (v ++ rest)) = r.map (·, tokens rest))
    (hs : separated first us = some (tokens (b ++ (v ++ rest)))) :
    readElements first d (n :: names) us =
      r.bind fun d => readElements false d names (tokens rest) := by
  have hskip := Json.skipValue_of_wellFormed hv hr
  rw [Json.tokens_blanks hb] at hs
  have hc : ∀ behind, us ≠ .closeArray :: behind := by
    rintro behind rfl
    cases first with
    | false => cases hs
    | true =>
      rw [← Option.some.inj hs] at hskip
      cases hskip
  rw [readElements]
  · rw [hs]
    simp only [h]
    cases r <;> rfl
  · exact hc

/-- A member is read for the setting with its name, if that is still to be given. -/
theorem readMembers_setting {b₁ b₂ b₃ k : List Char} (hb₁ : Blanks b₁)
    (hk : Denotes k n.text.toList) (hb₂ : Blanks b₂) (hb₃ : Blanks b₃) (hd : d.has n = false)
    (h : d.read n (tokens (v ++ rest)) = r.map (·, tokens rest))
    (hs : separated first us =
      some (tokens (b₁ ++ (k ++ (b₂ ++ ':' :: (b₃ ++ (v ++ rest))))))) :
    readMembers first d us = r.bind fun d => readMembers false d (tokens rest) := by
  rw [Json.tokens_blanks hb₁, Json.tokens_denotes hk, Json.tokens_blanks hb₂,
    Json.tokens_punctuation rfl, Json.tokens_blanks hb₃] at hs
  have hc : ∀ behind, us ≠ .closeObject :: behind := by
    rintro behind rfl
    cases first <;> cases hs
  have hm : readMember d n.text.toList (.colon :: tokens (v ++ rest)) =
      r.map (·, tokens rest) := by
    simp [readMember, hd, h]
  rw [readMembers_member hc hs, hm]
  cases r <;> rfl

/-- An element and the member with the same value are read to the same draft, which has nothing
new but the setting whose turn it is. -/
theorem turn_alike {b₁ b₂ c₁ c₂ c₃ c₄ k rest₁ rest₂ : List Char} (names : List SettingName)
    (hv : WellFormed .value v) (hd : d.has n = false) (hb₁ : Blanks b₁) (hb₂ : Blanks b₂)
    (hr₁ : EndsValue rest₁) (hc₁ : Blanks c₁) (hk : Denotes k n.text.toList) (hc₂ : Blanks c₂)
    (hc₃ : Blanks c₃) (hc₄ : Blanks c₄) (hr₂ : EndsValue rest₂)
    (hus : separated first us = some (tokens (b₁ ++ (v ++ (b₂ ++ rest₁)))))
    (hts : separated first ts =
      some (tokens (c₁ ++ (k ++ (c₂ ++ ':' :: (c₃ ++ (v ++ (c₄ ++ rest₂)))))))) :
    ∃ r : Except DocumentError Draft,
      readElements first d (n :: names) us =
        (r.bind fun d => readElements false d names (tokens rest₁)) ∧
      readMembers first d ts = (r.bind fun d => readMembers false d (tokens rest₂)) ∧
      ∀ e, r = .ok e → ∀ m ≠ n, e.has m = d.has m := by
  have hr₁ := Json.endsValue_append hb₂ hr₁
  have hr₂ := Json.endsValue_append hc₄ hr₂
  obtain ⟨r, hr⟩ := d.exists_reading n hv
  have he := readElements_element names hb₁ hv hr₁ (hr _ hr₁) hus
  have hm := readMembers_setting hc₁ hk hc₂ hc₃ hd (hr _ hr₂) hts
  rw [Json.tokens_blanks hb₂] at he
  rw [Json.tokens_blanks hc₄] at hm
  refine ⟨r, he, hm, ?_⟩
  rintro e rfl m hne
  exact Draft.has_of_read (hr _ hr₁) hne

/-- The two readers keep step, and give nothing but the settings that have a value. The
induction is on the elements: at each of them the draft is the same, and the setting whose turn
it is has not been given. -/
theorem read_alike {vs : List (List Char)} {s t rest₁ rest₂ : List Char} (hs : Elements vs s)
    (ht : Members names vs t) (hn : names.Nodup) (hd : ∀ n ∈ names, d.has n = false)
    (hus : separated first us = some (tokens (s ++ ']' :: rest₁)))
    (hts : separated first ts = some (tokens (t ++ '\x7d' :: rest₂))) :
    ∃ r : Except DocumentError Draft, readElements first d names us = r.map (·, tokens rest₁) ∧
      readMembers first d ts = r.map (·, tokens rest₂) ∧
      ∀ e, r = .ok e → ∀ m ∉ names.take vs.length, e.has m = d.has m := by
  induction hs generalizing names t d first us ts with
  | @last b₁ b₂ v hb₁ hv hb₂ =>
    cases ht with
    | @last n names c₁ c₂ c₃ c₄ k _ hc₁ hk hc₂ hc₃ _ hc₄ =>
      have hr₁ : EndsValue (']' :: rest₁) := Json.endsValue_cons (.inr (.inl rfl))
      have hr₂ : EndsValue ('\x7d' :: rest₂) := Json.endsValue_cons (.inr (.inr rfl))
      simp only [List.cons_append, List.append_assoc] at hus hts
      obtain ⟨r, he, hm, hkeep⟩ := turn_alike names hv (hd n List.mem_cons_self) hb₁ hb₂ hr₁ hc₁ hk
        hc₂ hc₃ hc₄ hr₂ hus hts
      rw [Json.tokens_punctuation rfl] at he
      rw [Json.tokens_punctuation rfl] at hm
      refine ⟨r, he.trans ?_, hm.trans ?_, fun e hr m hm => hkeep e hr m (by simpa using hm)⟩
      · simp only [readElements_end]
        cases r <;> rfl
      · simp only [readMembers_end]
        cases r <;> rfl
    | cons _ _ _ _ _ _ hm => cases hm
  | @cons b₁ b₂ v s vs hb₁ hv hb₂ hs ih =>
    cases ht with
    | last => cases hs
    | @cons n names c₁ c₂ c₃ c₄ k _ t _ hc₁ hk hc₂ hc₃ _ hc₄ ht =>
      have hr₁ : EndsValue (',' :: (s ++ ']' :: rest₁)) := Json.endsValue_cons (.inl rfl)
      have hr₂ : EndsValue (',' :: (t ++ '\x7d' :: rest₂)) := Json.endsValue_cons (.inl rfl)
      simp only [List.cons_append, List.append_assoc] at hus hts
      obtain ⟨r, he, hm, hkeep⟩ := turn_alike names hv (hd n List.mem_cons_self) hb₁ hb₂ hr₁ hc₁ hk
        hc₂ hc₃ hc₄ hr₂ hus hts
      rw [Json.tokens_punctuation rfl] at he hm
      cases r with
      | error problem => exact ⟨.error problem, he, hm, fun _ he => by cases he⟩
      | ok e =>
        obtain ⟨hnew, hn⟩ := List.nodup_cons.1 hn
        have hkeep := hkeep e rfl
        have hd : ∀ m ∈ names, e.has m = false := by
          intro m hm
          rw [hkeep m (ne_of_mem_of_not_mem hm hnew)]
          exact hd m (List.mem_cons_of_mem n hm)
        obtain ⟨r, hrs, hrm, hrest⟩ := ih ht hn hd (separated_comma _) (separated_comma _)
        refine ⟨r, he.trans hrs, hm.trans hrm, fun f hf m hm => ?_⟩
        rw [List.length_cons, List.take_succ_cons, List.mem_cons, not_or] at hm
        rw [hrest f hf m hm.2, hkeep m hm.1]

theorem Draft.isDefault_of_missing (h : d.has n = false) : d.settings.IsDefault n := by
  cases n <;> simp_all [has, Settings.IsDefault, settings]

/-- An array and an object that give the same values to the first settings are read alike, and
the other settings have their defaults. -/
theorem read_of_forms {vs : List (List Char)} {array object : List Char}
    (ha : IsArray vs array) (ho : IsObject SettingName.all vs object) :
    read (tokens array) = read (tokens object) ∧
      ∀ s, read (tokens array) = .ok s → ∀ n ∉ SettingName.all.take vs.length, s.IsDefault n := by
  cases ha with
  | empty ha₁ ha₂ ha₃ =>
    cases ho with
    | empty hb₁ hb₂ hb₃ =>
      rw [Json.tokens_blanks ha₁, Json.tokens_punctuation rfl, Json.tokens_blanks ha₂,
        Json.tokens_punctuation rfl, Json.tokens_of_blanks ha₃, Json.tokens_blanks hb₁,
        Json.tokens_punctuation rfl, Json.tokens_blanks hb₂, Json.tokens_punctuation rfl,
        Json.tokens_of_blanks hb₃]
      simp only [read, readElements_end, readMembers_end]
      refine ⟨trivial, fun s hs n _ => ?_⟩
      obtain rfl := Except.ok.inj hs
      exact Draft.isDefault_of_missing (by cases n <;> rfl)
    | members _ hm _ => cases hm
  | @elements _ a₁ a₂ s ha₁ hs ha₂ =>
    cases ho with
    | empty => cases hs
    | @members _ b₁ b₂ t hb₁ ht hb₂ =>
      have hn : SettingName.all.Nodup := by decide
      have hd : ∀ n, Draft.has {} n = false := fun n => by cases n <;> rfl
      obtain ⟨r, hr, hr', hmissing⟩ := read_alike hs ht hn (fun n _ => hd n)
        (separated_first (tokens (s ++ ']' :: a₂))) (separated_first (tokens (t ++ '\x7d' :: b₂)))
      rw [Json.tokens_blanks ha₁, Json.tokens_punctuation rfl, Json.tokens_blanks hb₁,
        Json.tokens_punctuation rfl]
      simp only [read, hr, hr', Json.tokens_of_blanks ha₂, Json.tokens_of_blanks hb₂]
      refine ⟨trivial, fun s hs n hn => ?_⟩
      cases r with
      | error problem => cases hs
      | ok e =>
        obtain rfl := Except.ok.inj hs
        exact Draft.isDefault_of_missing ((hmissing e rfl n hn).trans (hd n))

end Reading

section Plain

/-- The array of these values without blanks. -/
def plainArray (vs : List (List Char)) : List Char := '[' :: (Text.glue ',' vs ++ [']'])

def plainMember (n : SettingName) (v : List Char) : List Char :=
  Json.literal n.text.toList ++ ':' :: v

/-- The object that gives these values to the first of these settings, without blanks. -/
def plainObject (names : List SettingName) (vs : List (List Char)) : List Char :=
  '\x7b' :: (Text.glue ',' (List.zipWith plainMember names vs) ++ ['\x7d'])

theorem blanks_nil : Blanks [] := by
  simp [Blanks]

theorem elements_glue {v : List Char} {vs : List (List Char)}
    (h : ∀ w ∈ v :: vs, WellFormed .value w) : Elements (v :: vs) (Text.glue ',' (v :: vs)) := by
  induction vs generalizing v with
  | nil =>
    obtain ⟨hv, -⟩ := List.forall_mem_cons.1 h
    simpa [Text.glue] using Elements.last blanks_nil hv blanks_nil
  | cons w rest ih =>
    obtain ⟨hv, hrest⟩ := List.forall_mem_cons.1 h
    exact .cons blanks_nil hv blanks_nil (ih hrest)

theorem members_glue {n : SettingName} {names : List SettingName} {v : List Char}
    {vs : List (List Char)} (h : ∀ w ∈ v :: vs, WellFormed .value w)
    (hk : vs.length ≤ names.length) :
    Members (n :: names) (v :: vs)
      (Text.glue ',' (List.zipWith plainMember (n :: names) (v :: vs))) := by
  induction vs generalizing n names v with
  | nil =>
    obtain ⟨hv, -⟩ := List.forall_mem_cons.1 h
    simpa [Text.glue, plainMember] using
      Members.last blanks_nil (Json.denotes_literal n.text.toList) blanks_nil blanks_nil hv
        blanks_nil
  | cons w rest ih =>
    obtain ⟨hv, hrest⟩ := List.forall_mem_cons.1 h
    cases names with
    | nil => cases hk
    | cons m names =>
      have hs := Members.cons blanks_nil (Json.denotes_literal n.text.toList) blanks_nil blanks_nil
        hv blanks_nil (ih (n := m) hrest (Nat.le_of_succ_le_succ hk))
      simpa [Text.glue, plainMember] using hs

theorem isArray_plainArray {vs : List (List Char)} (h : ∀ v ∈ vs, WellFormed .value v) :
    IsArray vs (plainArray vs) := by
  cases vs with
  | nil => exact .empty blanks_nil blanks_nil blanks_nil
  | cons v rest => exact .elements blanks_nil (elements_glue h) blanks_nil

theorem isObject_plainObject {names : List SettingName} {vs : List (List Char)}
    (h : ∀ v ∈ vs, WellFormed .value v) (hk : vs.length ≤ names.length) :
    IsObject names vs (plainObject names vs) := by
  cases vs with
  | nil => simpa [plainObject, Text.glue] using IsObject.empty blanks_nil blanks_nil blanks_nil
  | cons v rest =>
    cases names with
    | nil => cases hk
    | cons n names =>
      exact .members blanks_nil (members_glue h (Nat.le_of_succ_le_succ hk)) blanks_nil

end Plain

end Document

namespace Settings

/-- A row of at most as many values as there are settings can be given as an array, or as an
object that gives them by name. However the two are spelled, they have the same outcome, and
where that is settings, those that got no value have their defaults. -/
theorem ofDocument_of_forms {values : List (List Char)}
    (hk : values.length ≤ SettingName.all.length) (hv : ∀ v ∈ values, WellFormed .value v) :
    Document.IsArray values (Document.plainArray values) ∧
    Document.IsObject SettingName.all values (Document.plainObject SettingName.all values) ∧
    ∀ array object : String, Document.IsArray values array.toList →
      Document.IsObject SettingName.all values object.toList →
      ofDocument array = ofDocument object ∧
      ∀ s, ofDocument array = .ok s →
        ∀ n ∉ SettingName.all.take values.length, s.IsDefault n :=
  ⟨Document.isArray_plainArray hv, Document.isObject_plainObject hv hk,
    fun _ _ ha ho => Document.read_of_forms ha ho⟩

/-- The second value has the wrong type and the third is no format. Either document reports the
second. -/
theorem ofDocument_of_forms_with_two_problems :
    let values : List (List Char) := [['"', 'a', '"'], ['[', '\x7b', '\x7d', ']'], ['7']]
    let array := "[\"a\",[\x7b\x7d],7]"
    let object := "\x7b\"input_path\":\"a\",\"log_filter\":[\x7b\x7d],\"log_format\":7\x7d"
    values.length ≤ SettingName.all.length ∧ (∀ v ∈ values, WellFormed .value v) ∧
      Document.IsArray values array.toList ∧
      Document.IsObject SettingName.all values object.toList ∧
      ofDocument object = ofDocument array ∧
      ofDocument array = .error (.wrongType .sequence .text) := by
  intro values array object
  have hnone := Document.blanks_nil
  have hpath : WellFormed .value ['"', 'a', '"'] := by
    obtain ⟨es, hl, -⟩ := Json.denotes_literal ['a']
    exact .literal hl
  have hfilter : WellFormed .value ['[', '\x7b', '\x7d', ']'] :=
    .array (.lastElement hnone (.emptyObject hnone) hnone)
  have hformat : WellFormed .value ['7'] := by
    have hdigits : Json.AreDigits ['7'] := by simp [Json.AreDigits, Char.isDigit]
    exact .numeral (.mk (.inl rfl) (.digits (by decide) hdigits) .none .none)
  have hvalues : ∀ v ∈ values, WellFormed .value v := by
    simp [values, hpath, hfilter, hformat]
  have hk : values.length ≤ SettingName.all.length := by decide
  obtain ⟨harray, hobject, hsame⟩ := ofDocument_of_forms hk hvalues
  have hone : Document.plainArray values = array.toList := by decide
  have htwo : Document.plainObject SettingName.all values = object.toList := by decide
  rw [hone] at harray
  rw [htwo] at hobject
  exact ⟨hk, hvalues, harray, hobject, (hsame array object harray hobject).1.symm,
    by decide +kernel⟩

end Settings
end ConfinedRelay
