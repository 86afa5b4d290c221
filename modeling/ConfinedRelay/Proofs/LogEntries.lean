import ConfinedRelay.LogLine
import ConfinedRelay.Proofs.JsonValues

/-!
What a line of the log says about its event. In the compact format it is a text that is fixed
but for what the event carries. In JSON it is one object, and whatever texts the event carries,
the object holds no newline, and the level, the target, the message and the fields of the event
can be told from it.
-/
namespace ConfinedRelay

open Json (Token tokens Blanks EndsValue WellFormed)

section Wording

variable (terminal : Bool)

/-- A text between the codes that change how a terminal shows it. -/
def coded (code text : String) : String :=
  if terminal then "\x1b[" ++ code ++ "m" ++ text ++ "\x1b[0m" else text

/-- What a compact line begins with: how grave it is, in a colour, and where it comes from. -/
def heading (colour level target : String) : String :=
  coded terminal colour level ++ " " ++ coded terminal "2" target ++ coded terminal "2" ":" ++ " "

def labelled (name value : String) : String :=
  " " ++ coded terminal "3" name ++ coded terminal "2" "=" ++ value

/-- A compact line word by word. -/
def Event.wording : Event → String
  | opened path =>
    heading terminal "34" "DEBUG" "sandbox_relay::resource" ++ "opened sandboxed resource" ++
      labelled terminal "path" path
  | openFailed path fault =>
    heading terminal "33" " WARN" "sandbox_relay::resource" ++
      "sandboxed resource could not be opened" ++
      labelled terminal "path" path ++ labelled terminal "error" fault.text
  | readFailed path offset fault =>
    heading terminal "33" " WARN" "sandbox_relay::resource" ++ "read failed" ++
      labelled terminal "path" path ++ labelled terminal "offset" (toString offset) ++
      labelled terminal "error" fault.text
  | writeRejected offset fault =>
    heading terminal "33" " WARN" "sandbox_relay::sink" ++ "output sink rejected write" ++
      labelled terminal "offset" (toString offset) ++ labelled terminal "error" fault.text
  | completed path units =>
    heading terminal "34" "DEBUG" "sandbox_relay::relay" ++ "relay complete" ++
      labelled terminal "path" path ++ labelled terminal "units" (toString units)

theorem toList_coded (code text : String) : (coded terminal code text).toList =
    if terminal then '\x1b' :: '[' :: code.toList ++ 'm' :: text.toList ++ ['\x1b', '[', '0', 'm']
    else text.toList := by
  cases terminal <;> simp [coded]

theorem compact_eq_wording (e : Event) : e.compact terminal = (e.wording terminal).toList := by
  cases e <;> cases terminal <;>
    simp [Event.compact, Event.wording, heading, labelled, toList_coded, Look.paint, Event.level,
      Event.target, Event.message, Event.fields, Level.look, Look.code, Level.name, Target.name,
      FieldValue.display]

end Wording

/-- What a line of the log tells about an event. -/
structure LogEntry where
  level : Level
  target : Target
  message : String
  fields : List Field
  deriving DecidableEq, Repr

def Level.ofName? (name : String) : Option Level :=
  [error, warn, info, debug, trace].find? fun l => l.name = name

def Target.ofName? (name : String) : Option Target :=
  [resource, sink, relay].find? fun t => t.name = name

namespace LogEntry

/-- The text of the field with this name. -/
def text? (fields : List Field) (name : String) : Option String :=
  fields.findSome? fun f =>
    match f.value with
    | .text t => if f.name = name then some t else none
    | .count _ => none

/-- A text, or a natural number of any size in its digits. -/
def value? : Token → Option FieldValue
  | .string (some s) => some (.text (String.ofList s))
  | .number ⟨false, whole, [], none⟩ => some (.count (Json.ofDigits whole))
  | _ => none

/-- The members of an object behind its opening bracket. The object ends the text. -/
def members? : List Token → Option (List Field)
  | [.string (some name), .colon, token, .closeObject] => do
    let value ← value? token
    some [⟨String.ofList name, value⟩]
  | .string (some name) :: .colon :: token :: .comma :: rest => do
    let value ← value? token
    let fields ← members? rest
    some (⟨String.ofList name, value⟩ :: fields)
  | _ => none

/-- The members of a JSON object whose values are texts and natural numbers. -/
def fields? (object : List Char) : Option (List Field) :=
  match tokens object with
  | [.openObject, .closeObject] => some []
  | .openObject :: rest => members? rest
  | _ => none

/-- The names of what every event has. Any other name is the name of a field. -/
def reserved : List String := ["level", "target", "message"]

/-- Make an entry of fields by their names. -/
def ofFields? (fields : List Field) : Option LogEntry := do
  let level ← (text? fields "level").bind Level.ofName?
  let target ← (text? fields "target").bind Target.ofName?
  let message ← text? fields "message"
  some ⟨level, target, message, fields.filter fun f => f.name ∉ reserved⟩

/-- Read an entry from an object that does not repeat a name. -/
def ofJson? (object : List Char) : Option LogEntry :=
  match fields? object with
  | none => none
  | some fields => if (fields.map Field.name).Nodup then ofFields? fields else none

end LogEntry

namespace Event

def entry (e : Event) : LogEntry := ⟨e.level, e.target, e.message, e.fields⟩

/-- A text without a newline that is one JSON object without a repeated name, and from which an
event can be told. -/
structure ToldBy (e : Event) (text : List Char) : Prop where
  newline : '\n' ∉ text
  object : ∃ members, WellFormed .members members ∧ text = '\x7b' :: (members ++ ['\x7d'])
  names : ∃ fields, LogEntry.fields? text = some fields ∧ (fields.map Field.name).Nodup
  entry : LogEntry.ofJson? text = some e.entry

end Event

section Naturals

theorem Json.isWhole_toDigits (n : Nat) : IsWhole (Nat.toDigits 10 n) := by
  have hfirst : ∀ n, 0 < n → ∃ c ds, Nat.toDigits 10 n = c :: ds ∧ c ≠ '0' := by
    intro n hn
    induction n using Nat.strongRecOn with
    | ind n ih =>
      by_cases hsmall : n < 10
      · have hall : ∀ n < 10, 0 < n → Nat.digitChar n ≠ '0' := by decide
        exact ⟨_, [], Nat.toDigits_of_lt_base hsmall, hall n hsmall hn⟩
      · obtain ⟨c, ds, hds, hc⟩ := ih (n / 10) (by omega) (by omega)
        refine ⟨c, ds ++ [(n % 10).digitChar], ?_, hc⟩
        rw [Nat.toDigits_of_base_le (by decide) (by omega), hds, List.cons_append]
  cases n with
  | zero => exact .zero
  | succ n =>
    obtain ⟨c, ds, hds, hc⟩ := hfirst (n + 1) (Nat.succ_pos n)
    rw [hds]
    refine .digits hc ⟨List.cons_ne_nil c ds, fun d hd => ?_⟩
    exact Nat.isDigit_of_mem_toDigits (by decide) (by decide) (hds ▸ hd)

theorem Json.ofDigits_toDigits (n : Nat) :
    ofDigits ((Nat.toDigits 10 n).map fun c => c.toNat - 48) = n := by
  have h := Nat.ofDigitChars_ten_toDigits (n := n)
  rw [Nat.ofDigitChars_eq_foldl] at h
  simpa [ofDigits, List.foldl_map, Nat.mul_comm] using h

end Naturals

section Values

theorem Json.newline_not_mem_literal (s : List Char) : '\n' ∉ literal s := by
  obtain ⟨es, hl, -⟩ := denotes_literal s
  intro h
  exact absurd (le_toNat_of_isLiteral hl _ h) (by decide)

theorem FieldValue.json_count (n : Nat) : (count n).json = Nat.toDigits 10 n := by
  rw [json, Nat.toString_eq_ofList_toDigits, String.toList_ofList]

theorem FieldValue.newline_not_mem_json (v : FieldValue) : '\n' ∉ v.json := by
  cases v with
  | text t => exact Json.newline_not_mem_literal t.toList
  | count n =>
    rw [json_count]
    intro h
    have hdigit := Nat.isDigit_of_mem_toDigits (by decide) (by decide) h
    simp [Char.isDigit] at hdigit

theorem FieldValue.wellFormed_json (v : FieldValue) : WellFormed .value v.json := by
  cases v with
  | text t =>
    obtain ⟨es, hl, -⟩ := Json.denotes_literal t.toList
    exact .literal hl
  | count n =>
    rw [json_count]
    exact .numeral (Json.isWhole_toDigits n).isNumeral

/-- The value of a field is one token, which gives it back. -/
theorem FieldValue.exists_token (v : FieldValue) :
    ∃ token, LogEntry.value? token = some v ∧
      ∀ rest, EndsValue rest → tokens (v.json ++ rest) = token :: tokens rest := by
  cases v with
  | text t =>
    refine ⟨.string (some t.toList), ?_, fun rest _ => ?_⟩
    · simp [LogEntry.value?]
    · exact Json.tokens_denotes (Json.denotes_literal t.toList) rest
  | count n =>
    refine ⟨.number ⟨false, (Nat.toDigits 10 n).map fun c => c.toNat - 48, [], none⟩, ?_,
      fun rest hr => ?_⟩
    · simp [LogEntry.value?, Json.ofDigits_toDigits]
    · have hw := Json.isWhole_toDigits n
      rw [json_count]
      exact Json.tokens_of_numeral? hw.isNumeral (Json.numeral?_whole hw hr)

end Values

section Objects

/-- A field as a member of an object. -/
def Field.json (f : Field) : List Char := Json.literal f.name.toList ++ ':' :: f.value.json

theorem Field.newline_not_mem_json (f : Field) : '\n' ∉ f.json := by
  simp [json, Json.newline_not_mem_literal, FieldValue.newline_not_mem_json]

theorem wellFormed_fields (f : Field) (fs : List Field) :
    WellFormed .members (Text.glue ',' ((f :: fs).map Field.json)) := by
  have hnone : Blanks [] := by simp [Blanks]
  induction fs generalizing f with
  | nil =>
    obtain ⟨es, hl, -⟩ := Json.denotes_literal f.name.toList
    simpa [Text.glue, Field.json] using
      WellFormed.lastMember hnone hl hnone hnone f.value.wellFormed_json hnone
  | cons g rest ih =>
    obtain ⟨es, hl, -⟩ := Json.denotes_literal f.name.toList
    simpa [Text.glue, Field.json] using
      WellFormed.member hnone hl hnone hnone f.value.wellFormed_json hnone (ih g)

/-- The members that are written are read. The induction is on the fields behind the first. -/
theorem members?_fields (f : Field) (fs : List Field) :
    LogEntry.members? (tokens (Text.glue ',' ((f :: fs).map Field.json) ++ ['\x7d'])) =
      some (f :: fs) := by
  induction fs generalizing f with
  | nil =>
    obtain ⟨token, hvalue, ht⟩ := f.value.exists_token
    have hend : EndsValue ['\x7d'] := Json.endsValue_cons (.inr (.inr rfl))
    simp only [List.map_cons, List.map_nil, Text.glue, Field.json, List.cons_append,
      List.append_assoc]
    rw [Json.tokens_denotes (Json.denotes_literal _), Json.tokens_punctuation rfl, ht _ hend,
      Json.tokens_punctuation rfl, Json.tokens_nil]
    simp [LogEntry.members?, hvalue]
  | cons g rest ih =>
    obtain ⟨token, hvalue, ht⟩ := f.value.exists_token
    have hend : EndsValue (',' :: (Text.glue ',' ((g :: rest).map Field.json) ++ ['\x7d'])) :=
      Json.endsValue_cons (.inl rfl)
    rw [List.map_cons, Text.glue_cons _ _ (by simp), Field.json]
    simp only [List.cons_append, List.append_assoc]
    rw [Json.tokens_denotes (Json.denotes_literal _), Json.tokens_punctuation rfl, ht _ hend,
      Json.tokens_punctuation rfl]
    have hrest := ih g
    rw [List.map_cons] at hrest
    simp [LogEntry.members?, hvalue, hrest]

end Objects

namespace Event

theorem members_ne_nil (e : Event) : e.members ≠ [] := by
  simp [members]

theorem json_eq (e : Event) :
    e.json = '\x7b' :: (Text.glue ',' (e.members.map Field.json) ++ ['\x7d']) :=
  rfl

theorem newline_not_mem_json (e : Event) : '\n' ∉ e.json := by
  rw [json_eq]
  intro h
  simp only [List.mem_cons, List.mem_append, List.not_mem_nil, or_false] at h
  rcases h with h | h | h
  · exact absurd h (by decide)
  · rcases Text.mem_of_mem_glue h with hc | ⟨p, hp, hc⟩
    · exact absurd hc (by decide)
    · obtain ⟨f, -, rfl⟩ := List.mem_map.1 hp
      exact f.newline_not_mem_json hc
  · exact absurd h (by decide)

theorem fields?_json (e : Event) : LogEntry.fields? e.json = some e.members := by
  obtain ⟨f, fs, hm⟩ := List.exists_cons_of_ne_nil e.members_ne_nil
  have hmembers := members?_fields f fs
  rw [json_eq, hm, LogEntry.fields?, Json.tokens_punctuation rfl]
  split
  · simp_all [LogEntry.members?]
  · simp_all
  · simp_all

theorem nodup_names (e : Event) : (e.members.map Field.name).Nodup := by
  cases e <;> simp [members, fields]

theorem ofFields?_members (e : Event) : LogEntry.ofFields? e.members = some e.entry := by
  have hlevel : Level.ofName? e.level.name = some e.level := by cases e <;> rfl
  have htarget : Target.ofName? e.target.name = some e.target := by cases e <;> rfl
  have htext : LogEntry.text? e.members "level" = some e.level.name ∧
      LogEntry.text? e.members "target" = some e.target.name ∧
      LogEntry.text? e.members "message" = some e.message := by
    cases e <;> exact ⟨rfl, rfl, rfl⟩
  have hfields : (e.members.filter fun f => !decide (f.name ∈ LogEntry.reserved)) = e.fields := by
    cases e <;> rfl
  simp [LogEntry.ofFields?, htext, hlevel, htarget, hfields, entry]

theorem ofJson?_json (e : Event) : LogEntry.ofJson? e.json = some e.entry := by
  rw [LogEntry.ofJson?, e.fields?_json]
  exact (if_pos e.nodup_names).trans e.ofFields?_members

/-- Every event is told by its line. -/
theorem toldBy_json (e : Event) : e.ToldBy e.json where
  newline := e.newline_not_mem_json
  object := by
    obtain ⟨f, fs, hm⟩ := List.exists_cons_of_ne_nil e.members_ne_nil
    exact ⟨_, wellFormed_fields f fs, by rw [json_eq, hm]⟩
  names := ⟨e.members, e.fields?_json, e.nodup_names⟩
  entry := e.ofJson?_json

/-- A line that renders an event: word by word, or as an object that tells the event, and
then a newline. -/
inductive Rendering (terminal : Bool) (e : Event) : LineFormat → List Char → Prop
  | compact : Rendering terminal e .compact ((e.wording terminal).toList ++ ['\n'])
  | json {text : List Char} : e.ToldBy text → Rendering terminal e .json (text ++ ['\n'])

theorem rendering_line (format : LineFormat) (terminal : Bool) (e : Event) :
    e.Rendering terminal format (format.line terminal e) := by
  cases format with
  | compact =>
    rw [LineFormat.line, compact_eq_wording]
    exact .compact
  | json => exact .json e.toldBy_json

end Event

end ConfinedRelay
