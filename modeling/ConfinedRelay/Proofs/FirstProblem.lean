import ConfinedRelay.Proofs.SettingsDocuments

/-!
Settings documents with a problem. The reader goes from left to right and stops at the first
problem, so the text up to there decides. A setting that comes again is a problem once its name
has been read, and a value that cannot be a text is one once it has begun. What comes behind
makes no difference, and need not be JSON.
-/
namespace ConfinedRelay

open Json (Token tokens Denotes Blanks EndsValue)

/-- The ways to begin a document that is an object with these members, up to the place where
the name of the next one stands. -/
inductive Assignment.Lead : List Assignment → List Char → Prop
  | empty {b₁ b₂ : List Char} : Blanks b₁ → Blanks b₂ → Lead [] (b₁ ++ '\x7b' :: b₂)
  | members {es : List Assignment} {b₁ b₂ s : List Char} : Blanks b₁ → Members es s → Blanks b₂ →
      Lead es (b₁ ++ '\x7b' :: (s ++ ',' :: b₂))

/-- What is asked for at the value of a setting that is a text. -/
def SettingName.demand? : SettingName → Option Demand
  | inputPath => some .path
  | logFilter => some .text
  | logFormat => none

/-- How the values begin that are neither texts nor numbers. Each is known by what is here. -/
def Shape.beginnings : List (List Char × Shape) :=
  [("[".toList, sequence), ("\x7b".toList, map), ("null".toList, null),
   ("true".toList, boolean true), ("false".toList, boolean false)]

namespace Document

variable {d : Draft} {n : SettingName} {es : List Assignment} {lead k rest : List Char}

theorem Draft.has_foldl_put (d : Draft) (es : List Assignment) (n : SettingName) :
    (es.foldl Draft.put d).has n = true ↔
      d.has n = true ∨ n ∈ es.filterMap Assignment.setting? := by
  induction es generalizing d with
  | nil => simp
  | cons e rest ih =>
    rw [List.foldl_cons, ih, has_put]
    simp [List.mem_filterMap, or_assoc]

/-- The settings that the members so far have given, and no others. -/
theorem Draft.has_of_members (es : List Assignment) (n : SettingName) :
    (es.foldl Draft.put {}).has n = true ↔ n ∈ es.filterMap Assignment.setting? := by
  have hnone : has {} n = false := by cases n <;> rfl
  simp [has_foldl_put, hnone]

/-- A problem behind the name of a member ends the reading of the document. -/
theorem read_of_lead {e : DocumentError} {key : List Char} (hl : Assignment.Lead es lead)
    (hn : (es.filterMap Assignment.setting?).Nodup) (hk : Denotes k key)
    (h : readMember (es.foldl Draft.put {}) key (tokens rest) = .error e) :
    read (tokens (lead ++ (k ++ rest))) = .error e := by
  have hname : ∀ (first : Bool) (ts : List Token), (∀ behind, ts ≠ .closeObject :: behind) →
      separated first ts = some (.string (some key) :: tokens rest) →
      readMembers first (es.foldl Draft.put {}) ts = .error e := by
    intro first ts hc hs
    rw [readMembers_member hc hs, h]
  cases hl with
  | @empty b₁ b₂ hb₁ hb₂ =>
    simp only [List.cons_append, List.append_assoc]
    rw [Json.tokens_blanks hb₁, Json.tokens_punctuation rfl, Json.tokens_blanks hb₂,
      Json.tokens_denotes hk]
    have hr : readMembers true {} (.string (some key) :: tokens rest) = .error e :=
      hname true _ (by simp) rfl
    simp only [read, hr]
  | @members es b₁ b₂ s hb₁ hm hb₂ =>
    have hend : EndsValue (',' :: (b₂ ++ (k ++ rest))) := Json.endsValue_cons (.inl rfl)
    simp only [List.cons_append, List.append_assoc]
    have hr : readMembers true {} (tokens (s ++ ',' :: (b₂ ++ (k ++ rest)))) = .error e := by
      rw [readMembers_of_members hm (awaits_of_nodup hn) hend rfl, Json.tokens_punctuation rfl,
        Json.tokens_blanks hb₂, Json.tokens_denotes hk]
      exact hname false _ (by simp) rfl
    rw [Json.tokens_blanks hb₁, Json.tokens_punctuation rfl]
    simp only [read, hr]

theorem readMember_again (hd : d.has n = true) (us : List Token) :
    readMember d n.text.toList us = .error (.duplicateSetting n) := by
  simp [readMember, hd]

/-- The token at the beginning of a value that is neither a text nor a number. -/
theorem exists_token_of_beginning {start : List Char} {shape : Shape}
    (h : (start, shape) ∈ Shape.beginnings) :
    ∃ token : Token, Shape.ofToken? token = some shape ∧ (∀ s, token ≠ .string s) ∧
      ∀ rest, tokens (start ++ rest) = token :: tokens rest := by
  simp only [Shape.beginnings, List.mem_cons, List.not_mem_nil, or_false, Prod.mk.injEq] at h
  rcases h with ⟨rfl, rfl⟩ | ⟨rfl, rfl⟩ | ⟨rfl, rfl⟩ | ⟨rfl, rfl⟩ | ⟨rfl, rfl⟩
  · exact ⟨.openArray, rfl, by simp, fun _ => Json.tokens_punctuation rfl _⟩
  · exact ⟨.openObject, rfl, by simp, fun _ => Json.tokens_punctuation rfl _⟩
  · exact ⟨.null, rfl, by simp, fun _ => Json.tokens_token rfl rfl⟩
  · exact ⟨.bool true, rfl, by simp, fun _ => Json.tokens_token rfl rfl⟩
  · exact ⟨.bool false, rfl, by simp, fun _ => Json.tokens_token rfl rfl⟩

theorem readMember_refused {demand : Demand} {shape : Shape} {token : Token}
    (hd : d.has n = false) (hn : n.demand? = some demand)
    (ht : Shape.ofToken? token = some shape) (hs : ∀ s, token ≠ .string s) (us : List Token) :
    readMember d n.text.toList (.colon :: token :: us) = .error (.wrongType shape demand) := by
  have hr : readText demand (token :: us) = .error (.wrongType shape demand) := by
    rw [readText]
    · simp [refuse, ht]
    · exact fun s => hs (some s)
  cases n with
  | inputPath =>
    obtain rfl := Option.some.inj hn
    simp [readMember, hd, Draft.read, hr, bind, Except.bind]
  | logFilter =>
    obtain rfl := Option.some.inj hn
    simp [readMember, hd, Draft.read, hr, bind, Except.bind]
  | logFormat => cases hn

end Document

/-- Members that give settings, no two of them the same one, and then the name of a setting. If
that setting has been given, it is reported as repeated, whatever comes behind the name. If it
has not, is a text, and its value begins as no text does, that is reported, whatever comes
behind the beginning. -/
theorem Settings.ofDocument_of_problem {es : List Assignment} {lead k : List Char}
    {n : SettingName} (hl : Assignment.Lead es lead)
    (hn : (es.filterMap Assignment.setting?).Nodup) (hk : Denotes k n.text.toList) :
    (n ∈ es.filterMap Assignment.setting? → ∀ rest : List Char,
      ofDocument (String.ofList (lead ++ (k ++ rest))) = .error (.duplicateSetting n)) ∧
    (n ∉ es.filterMap Assignment.setting? → ∀ demand, n.demand? = some demand →
      ∀ start shape, (start, shape) ∈ Shape.beginnings → ∀ b₁ b₂, Blanks b₁ → Blanks b₂ →
        ∀ rest : List Char,
          ofDocument (String.ofList (lead ++ (k ++ (b₁ ++ ':' :: (b₂ ++ (start ++ rest)))))) =
            .error (.wrongType shape demand)) := by
  constructor
  · intro hgiven rest
    rw [ofDocument, String.toList_ofList]
    exact Document.read_of_lead hl hn hk
      (Document.readMember_again ((Document.Draft.has_of_members es n).2 hgiven) _)
  · intro hnew demand hdemand start shape hstart b₁ b₂ hb₁ hb₂ rest
    obtain ⟨token, htoken, hstring, ht⟩ := Document.exists_token_of_beginning hstart
    have hd : (es.foldl Document.Draft.put {}).has n = false := by
      rwa [← Bool.not_eq_true, Document.Draft.has_of_members]
    rw [ofDocument, String.toList_ofList]
    refine Document.read_of_lead hl hn hk ?_
    rw [Json.tokens_blanks hb₁, Json.tokens_punctuation rfl, Json.tokens_blanks hb₂, ht]
    exact Document.readMember_refused hd hdemand htoken hstring _

/-- The path comes again with a letter of its name given by a number, and the text ends there;
the filter begins as an array that is never closed. -/
theorem Settings.ofDocument_of_problem_cut_off :
    let lead := "\x7b\"input_path\":\"a\", \"x\":[\x7b\x7d],".toList
    let entries : List Assignment := [.inputPath "a", .unknown ['x']]
    let again := ['"', '\\', 'u', '0', '0', '6', '9'] ++ "nput_path\"".toList
    Assignment.Lead entries lead ∧ (entries.filterMap Assignment.setting?).Nodup ∧
      Denotes again SettingName.inputPath.text.toList ∧
      ofDocument (String.ofList (lead ++ (again ++ []))) = .error (.duplicateSetting .inputPath) ∧
      ofDocument (String.ofList (lead ++ (Json.literal SettingName.logFilter.text.toList ++
        ([' '] ++ ':' :: ([] ++ (['['] ++ ['?'])))))) = .error (.wrongType .sequence .text) := by
  intro lead entries again
  have hnone : Blanks [] := by simp [Blanks]
  have hblank : Blanks [' '] := by simp [Blanks, Json.isBlank]
  have hvalue : Json.WellFormed .value ['[', '\x7b', '\x7d', ']'] :=
    .array (.lastElement hnone (.emptyObject hnone) hnone)
  have hname : ∀ n : SettingName, n.text.toList ≠ ['x'] := by
    intro n
    cases n <;> decide
  have hpath := Assignment.Member.mk (Json.denotes_literal _) hnone hnone
    (.inputPath (Json.denotes_literal "a".toList))
  have hunknown := Assignment.Member.mk (Json.denotes_literal _) hnone hnone
    (.unknown hname hvalue)
  have hlead : Assignment.Lead entries lead := by
    have h := Assignment.Lead.members hnone
      (.cons hnone hpath hnone (.last hblank hunknown hnone)) hnone
    refine cast (congrArg (Assignment.Lead entries) ?_) h
    decide
  have hnodup : (entries.filterMap Assignment.setting?).Nodup := by decide
  have hagain : Denotes again SettingName.inputPath.text.toList := by
    have hdigit : ∀ v < 16, Json.IsHexDigit (Nat.digitChar v) v := fun v hv => ⟨hv, .inl rfl⟩
    have hunit := Json.Spelling.unit (hdigit 0 (by decide)) (hdigit 0 (by decide))
      (hdigit 6 (by decide)) (hdigit 9 (by decide))
    obtain ⟨es, hs, hm⟩ := Json.exists_spellings_escape "nput_path".toList
    exact ⟨_, ⟨_, .cons hunit hs, rfl⟩, .unit (.inl (by decide)) hm⟩
  have htwice := (ofDocument_of_problem hlead hnodup hagain).1 (by decide) []
  have hnew := Json.denotes_literal SettingName.logFilter.text.toList
  have hfilter := (ofDocument_of_problem hlead hnodup hnew).2 (by decide) .text rfl ['[']
    .sequence (by decide) [' '] [] hblank hnone ['?']
  exact ⟨hlead, hnodup, hagain, htwice, hfilter⟩

end ConfinedRelay
