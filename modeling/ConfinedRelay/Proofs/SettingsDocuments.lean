import ConfinedRelay.Proofs.JsonValues
import ConfinedRelay.Settings.Document
import Mathlib.Data.List.Pairwise
import Mathlib.Data.List.Perm.Basic

/-!
Settings documents that are objects. Each member gives one of the settings or is unknown,
and may be spelled in any of the ways of JSON. Such a document is read as the defaults with
its members applied, so neither the order of the members nor what is unknown makes a
difference. The document that is written for settings is one of these, and gives the
settings back.
-/
namespace ConfinedRelay

open Json (Token tokens Denotes Blanks EndsValue WellFormed)

/-- What a member of a document gives. -/
inductive Assignment where
  | inputPath (path : String)
  | logFilter (filter : String)
  | logFormat (format : LineFormat)
  | unknown (name : List Char)
  deriving DecidableEq, Repr

namespace Assignment

def setting? : Assignment → Option SettingName
  | inputPath _ => some .inputPath
  | logFilter _ => some .logFilter
  | logFormat _ => some .logFormat
  | unknown _ => none

def name (e : Assignment) : List Char :=
  match e with
  | inputPath _ => SettingName.inputPath.text.toList
  | logFilter _ => SettingName.logFilter.text.toList
  | logFormat _ => SettingName.logFormat.text.toList
  | unknown name => name

/-- Settings with one of them replaced by what a member gives. -/
def apply (e : Assignment) (s : Settings) : Settings :=
  match e with
  | inputPath path => { s with inputPath := path }
  | logFilter filter => { s with logFilter := filter }
  | logFormat format => { s with logFormat := format }
  | unknown _ => s

/-- The ways to write the value of a member. A format is its text, or an object with the
text as the name of its one member and null as the value. -/
inductive Value : Assignment → List Char → Prop
  | inputPath {path : String} {v : List Char} : Denotes v path.toList → Value (inputPath path) v
  | logFilter {filter : String} {v : List Char} : Denotes v filter.toList →
      Value (logFilter filter) v
  | formatText {format : LineFormat} {v : List Char} : Denotes v format.text.toList →
      Value (logFormat format) v
  | formatObject {format : LineFormat} {b₁ b₂ b₃ b₄ k : List Char} : Blanks b₁ →
      Denotes k format.text.toList → Blanks b₂ → Blanks b₃ → Blanks b₄ →
      Value (logFormat format)
        ('\x7b' :: (b₁ ++ (k ++ (b₂ ++ ':' :: (b₃ ++
          'n' :: 'u' :: 'l' :: 'l' :: (b₄ ++ ['\x7d']))))))
  | unknown {name v : List Char} : (∀ n : SettingName, n.text.toList ≠ name) →
      WellFormed .value v → Value (unknown name) v

/-- The ways to write a whole member. -/
inductive Member (e : Assignment) : List Char → Prop
  | mk {b₁ b₂ k v : List Char} : Denotes k e.name → Blanks b₁ → Blanks b₂ → Value e v →
      Member e (k ++ (b₁ ++ ':' :: (b₂ ++ v)))

/-- The ways to write one member or more, with commas between them. -/
inductive Members : List Assignment → List Char → Prop
  | last {e : Assignment} {b₁ b₂ m : List Char} : Blanks b₁ → Member e m → Blanks b₂ →
      Members [e] (b₁ ++ (m ++ b₂))
  | cons {e : Assignment} {es : List Assignment} {b₁ b₂ m s : List Char} : Blanks b₁ →
      Member e m → Blanks b₂ → Members es s → Members (e :: es) (b₁ ++ (m ++ (b₂ ++ ',' :: s)))

/-- The documents that are objects with these members. -/
inductive Object : List Assignment → List Char → Prop
  | empty {b₁ b₂ b₃ : List Char} : Blanks b₁ → Blanks b₂ → Blanks b₃ →
      Object [] (b₁ ++ '\x7b' :: (b₂ ++ '\x7d' :: b₃))
  | members {es : List Assignment} {b₁ b₂ s : List Char} : Blanks b₁ → Members es s → Blanks b₂ →
      Object es (b₁ ++ '\x7b' :: (s ++ '\x7d' :: b₂))

/-- Members that do not give the same setting. -/
def Differ (e f : Assignment) : Prop :=
  ∀ n, e.setting? = some n → ∀ m, f.setting? = some m → n ≠ m

instance : Std.Symm Differ := ⟨fun _ _ h n hn m hm => (h m hm n hn).symm⟩

theorem apply_apply_of_differ {e f : Assignment} (h : Differ e f) (s : Settings) :
    f.apply (e.apply s) = e.apply (f.apply s) := by
  cases e <;> cases f <;> first | rfl | exact absurd rfl (h _ rfl _ rfl)

/-- Members for different settings may be applied in any order. -/
theorem foldl_apply_of_perm {es fs : List Assignment} (hp : es.Perm fs)
    (hn : (es.filterMap setting?).Nodup) (s : Settings) :
    es.foldl (fun s e => e.apply s) s = fs.foldl (fun s e => e.apply s) s := by
  have hdiffer : es.Pairwise Differ := List.pairwise_filterMap.1 hn
  apply hp.foldl_eq'
  intro e he f hf s
  by_cases hne : e = f
  · rw [hne]
  · exact apply_apply_of_differ (hdiffer.forall he hf hne) s

/-- What is unknown changes nothing. -/
theorem foldl_apply_filter (es : List Assignment) (s : Settings) :
    (es.filter (·.setting?.isSome)).foldl (fun s e => e.apply s) s =
      es.foldl (fun s e => e.apply s) s := by
  induction es generalizing s with
  | nil => rfl
  | cons e rest ih => cases e <;> exact ih _

end Assignment

namespace Document

/-- A draft with what a member gives. -/
def Draft.put (d : Draft) : Assignment → Draft
  | .inputPath path => { d with inputPath := some path }
  | .logFilter filter => { d with logFilter := some filter }
  | .logFormat format => { d with logFormat := some format }
  | .unknown _ => d

theorem Draft.settings_put (d : Draft) (e : Assignment) :
    (d.put e).settings = e.apply d.settings := by
  cases e <;> rfl

theorem Draft.has_put (d : Draft) (e : Assignment) (n : SettingName) :
    (d.put e).has n = (d.has n || decide (e.setting? = some n)) := by
  cases e <;> cases n <;> simp [put, has, Assignment.setting?]

theorem Draft.settings_foldl_put (d : Draft) (es : List Assignment) :
    (es.foldl Draft.put d).settings = es.foldl (fun s e => e.apply s) d.settings := by
  induction es generalizing d with
  | nil => rfl
  | cons e rest ih => rw [List.foldl_cons, List.foldl_cons, ih, Draft.settings_put]

/-- None of the settings that are to come has been given, and none comes twice. -/
structure Awaits (d : Draft) (es : List Assignment) : Prop where
  missing : ∀ n ∈ es.filterMap Assignment.setting?, d.has n = false
  once : (es.filterMap Assignment.setting?).Nodup

theorem Awaits.head {d : Draft} {e : Assignment} {es : List Assignment} (h : Awaits d (e :: es))
    {n : SettingName} (hn : e.setting? = some n) : d.has n = false := by
  apply h.missing
  rw [List.filterMap_cons_some hn]
  exact List.mem_cons_self

theorem Awaits.tail {d : Draft} {e : Assignment} {es : List Assignment} (h : Awaits d (e :: es)) :
    Awaits (d.put e) es := by
  cases hn : e.setting? with
  | none =>
    have hmissing := h.missing
    have honce := h.once
    rw [List.filterMap_cons_none hn] at hmissing honce
    refine ⟨fun m hm => ?_, honce⟩
    rw [Draft.has_put, hmissing m hm, hn]
    rfl
  | some n =>
    have hmissing := h.missing
    have honce := h.once
    rw [List.filterMap_cons_some hn] at hmissing honce
    refine ⟨fun m hm => ?_, (List.nodup_cons.1 honce).2⟩
    have hne : n ≠ m := by
      rintro rfl
      exact (List.nodup_cons.1 honce).1 hm
    rw [Draft.has_put, hmissing m (List.mem_cons_of_mem n hm), hn]
    simp [hne]

section Reading

variable {d : Draft} {e : Assignment} {es : List Assignment} {rest : List Char}

theorem readFormat_of_text {format : LineFormat} {v : List Char}
    (h : Denotes v format.text.toList) (rest : List Char) :
    readFormat (tokens (v ++ rest)) = .ok (format, tokens rest) := by
  rw [Json.tokens_denotes h]
  simp [readFormat, formatNamed, bind, Except.bind]

theorem readFormat_of_object {format : LineFormat} {b₁ b₂ b₃ b₄ k : List Char} (h₁ : Blanks b₁)
    (hk : Denotes k format.text.toList) (h₂ : Blanks b₂) (h₃ : Blanks b₃) (h₄ : Blanks b₄)
    (rest : List Char) :
    readFormat (tokens
      ('\x7b' :: (b₁ ++ (k ++ (b₂ ++ ':' :: (b₃ ++
        'n' :: 'u' :: 'l' :: 'l' :: (b₄ ++ '\x7d' :: rest))))))) = .ok (format, tokens rest) := by
  have hnull : ∀ s, tokens ('n' :: 'u' :: 'l' :: 'l' :: s) = .null :: tokens s :=
    fun s => Json.tokens_token rfl rfl
  rw [Json.tokens_punctuation rfl, Json.tokens_blanks h₁, Json.tokens_denotes hk,
    Json.tokens_blanks h₂, Json.tokens_punctuation rfl, Json.tokens_blanks h₃, hnull,
    Json.tokens_blanks h₄, Json.tokens_punctuation rfl]
  simp [readFormat, formatNamed, nextUnit, bind, Except.bind]

/-- The value of a member is read behind its name and its colon. -/
theorem readMember_value {v : List Char} (hv : e.Value v)
    (hd : ∀ n, e.setting? = some n → d.has n = false) (hr : EndsValue rest) :
    readMember d e.name (.colon :: tokens (v ++ rest)) = .ok (d.put e, tokens rest) := by
  cases hv with
  | @inputPath path v ht =>
    have hn : SettingName.ofText? (String.ofList (Assignment.inputPath path).name) =
        some .inputPath := rfl
    simp [readMember, hn, hd _ rfl, Draft.read, Json.tokens_denotes ht, readText, bind,
      Except.bind, Draft.put]
  | @logFilter filter v ht =>
    have hn : SettingName.ofText? (String.ofList (Assignment.logFilter filter).name) =
        some .logFilter := rfl
    simp [readMember, hn, hd _ rfl, Draft.read, Json.tokens_denotes ht, readText, bind,
      Except.bind, Draft.put]
  | @formatText format v ht =>
    have hn : SettingName.ofText? (String.ofList (Assignment.logFormat format).name) =
        some .logFormat := rfl
    simp [readMember, hn, hd _ rfl, Draft.read, readFormat_of_text ht, bind, Except.bind,
      Draft.put]
  | @formatObject format b₁ b₂ b₃ b₄ k h₁ hk h₂ h₃ h₄ =>
    have hn : SettingName.ofText? (String.ofList (Assignment.logFormat format).name) =
        some .logFormat := rfl
    have hf := readFormat_of_object h₁ hk h₂ h₃ h₄ rest
    simp only [List.cons_append, List.append_assoc, List.nil_append]
    simp [readMember, hn, hd _ rfl, Draft.read, hf, bind, Except.bind, Draft.put]
  | @unknown name v hname hw =>
    have hn : SettingName.ofText? (String.ofList (Assignment.unknown name).name) = none := by
      cases ht : SettingName.ofText? (String.ofList (Assignment.unknown name).name) with
      | none => rfl
      | some n =>
        refine absurd ?_ (hname n)
        rw [SettingName.ofText?_eq_some ht, String.toList_ofList]
        rfl
    simp [readMember, hn, Json.skipValue_of_wellFormed hw hr, Draft.put]

/-- One member is read, and the reader stands at what follows it. -/
theorem readMembers_of_member {b m : List Char} (hb : Blanks b) (hm : e.Member m)
    (hd : ∀ n, e.setting? = some n → d.has n = false) (hr : EndsValue rest) {first : Bool}
    {ts : List Token} (hs : separated first ts = some (tokens (b ++ (m ++ rest)))) :
    readMembers first d ts = readMembers false (d.put e) (tokens rest) := by
  obtain @⟨b₁, b₂, k, v, hk, hb₁, hb₂, hv⟩ := hm
  have ht : tokens (b ++ (k ++ (b₁ ++ ':' :: (b₂ ++ v)) ++ rest)) =
      .string (some e.name) :: .colon :: tokens (v ++ rest) := by
    simp only [List.cons_append, List.append_assoc]
    rw [Json.tokens_blanks hb, Json.tokens_denotes hk, Json.tokens_blanks hb₁,
      Json.tokens_punctuation rfl, Json.tokens_blanks hb₂]
  rw [ht] at hs
  have hc : ∀ behind, ts ≠ .closeObject :: behind := by
    rintro behind rfl
    cases first <;> simp [separated] at hs
  rw [readMembers_member hc hs, readMember_value hv hd hr]

/-- The induction is on the members; the draft gathers what they give. -/
theorem readMembers_of_members {s : List Char} (h : Assignment.Members es s) (ha : Awaits d es)
    (hr : EndsValue rest) {first : Bool} {ts : List Token}
    (hs : separated first ts = some (tokens (s ++ rest))) :
    readMembers first d ts = readMembers false (es.foldl Draft.put d) (tokens rest) := by
  induction h generalizing d first ts with
  | @last e b₁ b₂ m hb₁ hm hb₂ =>
    have hr := Json.endsValue_append hb₂ hr
    simp only [List.append_assoc] at hs
    rw [readMembers_of_member hb₁ hm (fun n => ha.head) hr hs, Json.tokens_blanks hb₂]
    rfl
  | @cons e es b₁ b₂ m s hb₁ hm hb₂ _ ih =>
    have hr : EndsValue (b₂ ++ ',' :: (s ++ rest)) :=
      Json.endsValue_append hb₂ (Json.endsValue_cons (.inl rfl))
    simp only [List.cons_append, List.append_assoc] at hs
    rw [readMembers_of_member hb₁ hm (fun n => ha.head) hr hs, Json.tokens_blanks hb₂,
      Json.tokens_punctuation rfl, ih ha.tail rfl]
    rfl

/-- Before anything is read every setting is awaited, as long as none comes twice. -/
theorem awaits_of_nodup (hn : (es.filterMap Assignment.setting?).Nodup) : Awaits {} es :=
  ⟨fun n _ => by cases n <;> rfl, hn⟩

/-- An object gives the defaults with its members applied. -/
theorem read_of_object {document : List Char} (h : Assignment.Object es document)
    (hn : (es.filterMap Assignment.setting?).Nodup) :
    read (tokens document) = .ok (es.foldl (fun s e => e.apply s) {}) := by
  cases h with
  | empty hb₁ hb₂ hb₃ =>
    rw [Json.tokens_blanks hb₁, Json.tokens_punctuation rfl, Json.tokens_blanks hb₂,
      Json.tokens_punctuation rfl, Json.tokens_of_blanks hb₃]
    simp only [read, readMembers_end]
    rfl
  | @members _ b₁ b₂ s hb₁ hm hb₂ =>
    have hend : EndsValue ('\x7d' :: b₂) := Json.endsValue_cons (.inr (.inr rfl))
    have hr : readMembers true {} (tokens (s ++ '\x7d' :: b₂)) =
        .ok (es.foldl Draft.put {}, tokens b₂) := by
      rw [readMembers_of_members hm (awaits_of_nodup hn) hend rfl, Json.tokens_punctuation rfl,
        readMembers_end]
    rw [Json.tokens_blanks hb₁, Json.tokens_punctuation rfl]
    simp only [read, hr, Json.tokens_of_blanks hb₂, Draft.settings_foldl_put]
    rfl

end Reading

end Document

namespace Settings

/-- What is held once a document has been read: the settings that it gives, or those that
were held before if it gives none. -/
def load (held : Settings) (document : String) : Settings :=
  match ofDocument document with
  | .ok s => s
  | .error _ => held

theorem load_of_ok {document : String} {s : Settings} (h : ofDocument document = .ok s)
    (held : Settings) : held.load document = s := by
  simp [load, h]

/-- An object is read as the defaults with its members applied. Other objects with the same
settings among their members are read alike, whatever their order and whatever is unknown. -/
theorem ofDocument_of_object {document : String} {entries : List Assignment}
    (h : Assignment.Object entries document.toList)
    (hn : (entries.filterMap Assignment.setting?).Nodup) :
    ofDocument document = .ok (entries.foldl (fun s e => e.apply s) {}) ∧
    (∀ held : Settings, held.load document = entries.foldl (fun s e => e.apply s) {}) ∧
    ∀ (other : String) (others : List Assignment), Assignment.Object others other.toList →
      (others.filter (·.setting?.isSome)).Perm (entries.filter (·.setting?.isSome)) →
      ofDocument other = ofDocument document := by
  have hread := Document.read_of_object h hn
  refine ⟨hread, load_of_ok hread, ?_⟩
  intro other others ho hp
  have hsame : ∀ es : List Assignment,
      (es.filter (·.setting?.isSome)).filterMap Assignment.setting? =
        es.filterMap Assignment.setting? := by
    intro es
    rw [List.filterMap_filter]
    congr 1
    funext e
    cases e <;> rfl
  have hsettings : (others.filterMap Assignment.setting?).Nodup := by
    rw [← hsame others, (hp.filterMap Assignment.setting?).nodup_iff, hsame entries]
    exact hn
  have hfold := Assignment.foldl_apply_of_perm hp (by rwa [hsame others]) {}
  rw [Assignment.foldl_apply_filter, Assignment.foldl_apply_filter] at hfold
  rw [ofDocument, Document.read_of_object ho hsettings, hfold]
  exact hread.symm

/-- A document with an unknown member, whose name is given by a number, and one setting. -/
theorem ofDocument_of_object_with_unknown :
    let document := "\x7b\"\\u0061\":[-1.5e3,\x7b\x7d], \"log_format\":\"json\"\x7d"
    let entries : List Assignment := [.unknown ['a'], .logFormat .json]
    Assignment.Object entries document.toList ∧ (entries.filterMap Assignment.setting?).Nodup ∧
      ofDocument document = .ok { logFormat := .json } := by
  intro document entries
  have hnone : Blanks [] := by simp [Blanks]
  have hblank : Blanks [' '] := by simp [Blanks, Json.isBlank]
  have hkey : Denotes ['"', '\\', 'u', '0', '0', '6', '1', '"'] ['a'] := by
    have hdigit : ∀ v < 16, Json.IsHexDigit (Nat.digitChar v) v := fun v hv => ⟨hv, .inl rfl⟩
    have hunit := Json.Spelling.unit (hdigit 0 (by decide)) (hdigit 0 (by decide))
      (hdigit 6 (by decide)) (hdigit 1 (by decide))
    exact ⟨_, ⟨_, .cons hunit .nil, rfl⟩, .unit (.inl (by decide)) .nil⟩
  have hnumeral : Json.IsNumeral ['-', '1', '.', '5', 'e', '3'] := by
    have hdigit : ∀ c, c.isDigit = true → Json.AreDigits [c] := by simp [Json.AreDigits]
    exact .mk (.inr rfl) (.digits (by decide) (hdigit '1' rfl)) (.digits (hdigit '5' rfl))
      (.digits (.inl rfl) (.inl rfl) (hdigit '3' rfl))
  have harray : WellFormed .value
      ('[' :: (['-', '1', '.', '5', 'e', '3', ',', '\x7b', '\x7d'] ++ [']'])) :=
    .array (.element hnone (.numeral hnumeral) hnone
      (.lastElement hnone (.emptyObject hnone) hnone))
  have hname : ∀ n : SettingName, n.text.toList ≠ ['a'] := by
    intro n
    cases n <;> decide
  have hunknown := Assignment.Member.mk hkey hnone hnone (.unknown hname harray)
  have hformat := Assignment.Member.mk (e := .logFormat .json) (Json.denotes_literal _) hnone hnone
    (.formatText (Json.denotes_literal _))
  have hobject : Assignment.Object entries document.toList := by
    have h := Assignment.Object.members hnone
      (.cons hnone hunknown hnone (.last hblank hformat hnone)) hnone
    refine cast (congrArg (Assignment.Object entries) ?_) h
    decide
  have hn : (entries.filterMap Assignment.setting?).Nodup := by decide
  exact ⟨hobject, hn, (ofDocument_of_object hobject hn).1⟩

/-- The document that is written for settings has a member for each of them. -/
theorem object_render (s : Settings) :
    Assignment.Object [.inputPath s.inputPath, .logFilter s.logFilter, .logFormat s.logFormat]
      s.render := by
  have hnone : Blanks [] := by simp [Blanks]
  have hpath := Assignment.Member.mk (Json.denotes_literal _) hnone hnone
    (.inputPath (Json.denotes_literal s.inputPath.toList))
  have hfilter := Assignment.Member.mk (Json.denotes_literal _) hnone hnone
    (.logFilter (Json.denotes_literal s.logFilter.toList))
  have hformat := Assignment.Member.mk (Json.denotes_literal _) hnone hnone
    (.formatText (Json.denotes_literal s.logFormat.text.toList))
  have h := Assignment.Object.members hnone
    (.cons hnone hpath hnone (.cons hnone hfilter hnone (.last hnone hformat hnone))) hnone
  simpa [render, LineFormat.render, Assignment.name] using h

/-- Settings come back from the document that is written for them, so different settings
are written differently. -/
theorem ofDocument_render (s : Settings) :
    ofDocument (String.ofList s.render) = .ok s ∧
    (∀ held : Settings, held.load (String.ofList s.render) = s) ∧
    ∀ t : Settings, t.render = s.render → t = s := by
  have hread : ∀ t : Settings, ofDocument (String.ofList t.render) = .ok t := by
    intro t
    have hn : SettingName.all.Nodup := by decide
    rw [ofDocument, String.toList_ofList, Document.read_of_object (object_render t) hn]
    rfl
  refine ⟨hread s, load_of_ok (hread s), ?_⟩
  intro t ht
  have hboth := hread t
  rw [ht, hread s] at hboth
  exact (Except.ok.inj hboth).symm

end Settings
end ConfinedRelay
