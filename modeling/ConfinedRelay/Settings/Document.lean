import ConfinedRelay.Json.Skip
import ConfinedRelay.Settings
import ConfinedRelay.Text.Quoted

/-!
Settings as JSON documents. A document is an object with the settings by name, or
an array with their values in order. What is missing takes its default, and unknown
members are skipped. A document is read from left to right and the first problem
decides. A repeated setting is a problem as soon as its name is read, and a value
of the wrong type as soon as the type is known.
-/
namespace ConfinedRelay

open Json (Token)

namespace Settings

/-- The settings as a JSON object without blanks. -/
def render (s : Settings) : List Char :=
  let member (n : SettingName) (value : List Char) := Json.literal n.text.toList ++ ':' :: value
  '\x7b' :: member .inputPath (Json.literal s.inputPath.toList) ++
    ',' :: member .logFilter (Json.literal s.logFilter.toList) ++
    ',' :: member .logFormat s.logFormat.render ++ ['\x7d']

end Settings

/-- A value of a document as far as its type is concerned. -/
inductive Shape where
  | null
  | boolean (b : Bool)
  | number (n : Json.Number)
  | string (s : List Char)
  | sequence
  | map
  deriving DecidableEq, Repr

namespace Shape

/-- The shape of the value that a token begins, if the token can begin a value. -/
def ofToken? : Token → Option Shape
  | .null => some null
  | .bool b => some (boolean b)
  | .number n => n.number?.map number
  | .string s => s.map string
  | .openArray => some sequence
  | .openObject => some map
  | _ => none

def text : Shape → String
  | null => "null"
  | boolean b => "boolean `" ++ toString b ++ "`"
  | number (.integer n) => "integer `" ++ Json.Number.text (.integer n) ++ "`"
  | number n => "floating point `" ++ n.text ++ "`"
  | string s => "string " ++ String.ofList (Text.quoted s)
  | sequence => "sequence"
  | map => "map"

end Shape

/-- What a reader asks for. -/
inductive Demand where
  | settings
  | path
  | text
  | unit
  deriving DecidableEq, Repr

def Demand.description : Demand → String
  | settings => "struct RelayConfig"
  | path => "a UTF-8 path string"
  | text => "a string"
  | unit => "unit"

inductive DocumentError where
  | malformed
  | duplicateSetting (name : SettingName)
  | wrongType (found : Shape) (demand : Demand)
  | unknownVariant (name : List Char)
  deriving DecidableEq, Repr

/-- The message about a document that is JSON as far as it was read, but has the wrong shape. -/
def DocumentError.message? : DocumentError → Option String
  | malformed => none
  | duplicateSetting name => some ("duplicate field `" ++ name.text ++ "`")
  | wrongType found demand =>
    some ("invalid type: " ++ found.text ++ ", expected " ++ demand.description)
  | unknownVariant name =>
    some ("unknown variant `" ++ String.ofList name ++ "`, expected `json` or `compact`")

namespace Document

/-- The problem with a token at which something else is asked for. -/
def refuse (token : Token) (demand : Demand) : DocumentError :=
  match Shape.ofToken? token with
  | some shape => .wrongType shape demand
  | none => .malformed

def readText (demand : Demand) : List Token → Except DocumentError (List Char × List Token)
  | .string (some s) :: rest => .ok (s, rest)
  | token :: _ => .error (refuse token demand)
  | [] => .error .malformed

def formatNamed (s : List Char) : Except DocumentError LineFormat :=
  match LineFormat.ofText? (String.ofList s) with
  | some f => .ok f
  | none => .error (.unknownVariant s)

/-- Null and then the closing bracket, behind the name of a variant in an object. -/
def nextUnit : List Token → Except DocumentError (List Token)
  | .colon :: .null :: .closeObject :: rest => .ok rest
  | .colon :: .null :: _ => .error .malformed
  | .colon :: token :: _ => .error (refuse token .unit)
  | _ => .error .malformed

/-- A format is its text, or an object with the text as its only name and null as
the value. As in every object the name has to be a string; where it is none the document
is malformed. -/
def readFormat : List Token → Except DocumentError (LineFormat × List Token)
  | .string (some s) :: rest => do
    let format ← formatNamed s
    .ok (format, rest)
  | .openObject :: .string (some s) :: tokens => do
    let format ← formatNamed s
    let rest ← nextUnit tokens
    .ok (format, rest)
  | _ => .error .malformed

/-- The settings that a document has given so far. -/
structure Draft where
  inputPath : Option String := none
  logFilter : Option String := none
  logFormat : Option LineFormat := none
  deriving DecidableEq, Repr

namespace Draft

def has (d : Draft) : SettingName → Bool
  | .inputPath => d.inputPath.isSome
  | .logFilter => d.logFilter.isSome
  | .logFormat => d.logFormat.isSome

/-- The settings of a draft, with defaults for what is missing. -/
def settings (d : Draft) : Settings :=
  let default : Settings := {}
  ⟨d.inputPath.getD default.inputPath, d.logFilter.getD default.logFilter,
    d.logFormat.getD default.logFormat⟩

/-- Read the value of a setting into the draft. -/
def read (d : Draft) (name : SettingName) (tokens : List Token) :
    Except DocumentError (Draft × List Token) :=
  match name with
  | .inputPath => do
    let (s, rest) ← readText .path tokens
    .ok ({ d with inputPath := some (String.ofList s) }, rest)
  | .logFilter => do
    let (s, rest) ← readText .text tokens
    .ok ({ d with logFilter := some (String.ofList s) }, rest)
  | .logFormat => do
    let (f, rest) ← readFormat tokens
    .ok ({ d with logFormat := some f }, rest)

end Draft

/-- Read one member of an object behind its name. -/
def readMember (d : Draft) (key : List Char) (tokens : List Token) :
    Except DocumentError (Draft × List Token) :=
  match SettingName.ofText? (String.ofList key) with
  | some name =>
    if d.has name then .error (.duplicateSetting name)
    else
      match tokens with
      | .colon :: tokens => d.read name tokens
      | _ => .error .malformed
  | none =>
    match tokens with
    | .colon :: tokens =>
      match Json.skipValue tokens with
      | some rest => .ok (d, rest)
      | none => .error .malformed
    | _ => .error .malformed

theorem length_of_readText {demand : Demand} {tokens rest : List Token} {s : List Char}
    (h : readText demand tokens = .ok (s, rest)) : rest.length < tokens.length := by
  unfold readText at h
  split at h <;> simp_all

theorem length_of_nextUnit {tokens rest : List Token} (h : nextUnit tokens = .ok rest) :
    rest.length < tokens.length := by
  unfold nextUnit at h
  split at h <;> simp_all
  omega

theorem length_of_readFormat {tokens rest : List Token} {f : LineFormat}
    (h : readFormat tokens = .ok (f, rest)) : rest.length < tokens.length := by
  unfold readFormat at h
  split at h
  · rename_i s tokens
    cases hf : formatNamed s <;> simp_all [bind, Except.bind]
  · rename_i s tokens
    cases hf : formatNamed s with
    | error e => simp [hf, bind, Except.bind] at h
    | ok f =>
      cases hu : nextUnit tokens with
      | error e => simp [hf, hu, bind, Except.bind] at h
      | ok rest' =>
        have := length_of_nextUnit hu
        simp only [hf, hu, bind, Except.bind, Except.ok.injEq, Prod.mk.injEq] at h
        rw [← h.2, List.length_cons, List.length_cons]
        omega
  · simp at h

theorem Draft.length_of_read {d e : Draft} {name : SettingName} {tokens rest : List Token}
    (h : d.read name tokens = .ok (e, rest)) : rest.length < tokens.length := by
  cases name
  case logFormat =>
    cases hf : readFormat tokens with
    | error e => simp [read, hf, bind, Except.bind] at h
    | ok p =>
      obtain ⟨f, behind⟩ := p
      have := length_of_readFormat hf
      simp only [read, hf, bind, Except.bind, Except.ok.injEq, Prod.mk.injEq] at h
      rwa [← h.2]
  case inputPath =>
    cases ht : readText .path tokens with
    | error e => simp [read, ht, bind, Except.bind] at h
    | ok p =>
      obtain ⟨s, behind⟩ := p
      have := length_of_readText ht
      simp only [read, ht, bind, Except.bind, Except.ok.injEq, Prod.mk.injEq] at h
      rwa [← h.2]
  case logFilter =>
    cases ht : readText .text tokens with
    | error e => simp [read, ht, bind, Except.bind] at h
    | ok p =>
      obtain ⟨s, behind⟩ := p
      have := length_of_readText ht
      simp only [read, ht, bind, Except.bind, Except.ok.injEq, Prod.mk.injEq] at h
      rwa [← h.2]

theorem length_of_readMember {d e : Draft} {key : List Char} {tokens rest : List Token}
    (h : readMember d key tokens = .ok (e, rest)) : rest.length < tokens.length := by
  unfold readMember at h
  split at h
  · split at h
    · simp at h
    · split at h
      · have := Draft.length_of_read h
        simp only [List.length_cons]
        omega
      · simp at h
  · split at h
    · split at h
      · rename_i hs
        have := Json.length_of_skip hs
        simp only [Except.ok.injEq, Prod.mk.injEq] at h
        rw [← h.2, List.length_cons]
        omega
      · simp at h
    · simp at h

/-- The tokens of a member or an element. A comma stands before each but the first. -/
def separated (first : Bool) (tokens : List Token) : Option (List Token) :=
  match first, tokens with
  | true, tokens => some tokens
  | false, .comma :: tokens => some tokens
  | false, _ => none

theorem length_of_separated {first : Bool} {tokens rest : List Token}
    (h : separated first tokens = some rest) : rest.length ≤ tokens.length := by
  unfold separated at h
  split at h <;> simp_all

/-- Read the members of an object up to its end. -/
def readMembers (first : Bool) (d : Draft) (tokens : List Token) :
    Except DocumentError (Draft × List Token) :=
  match tokens with
  | .closeObject :: rest => .ok (d, rest)
  | tokens =>
    match _hs : separated first tokens with
    | some (.string (some key) :: behind) =>
      match _hm : readMember d key behind with
      | .error e => .error e
      | .ok (d, rest) => readMembers false d rest
    | _ => .error .malformed
termination_by tokens.length
decreasing_by
  have hs := length_of_separated _hs
  have hm := length_of_readMember _hm
  simp only [List.length_cons] at hs
  omega

theorem readMembers_end (first : Bool) (d : Draft) (rest : List Token) :
    readMembers first d (.closeObject :: rest) = .ok (d, rest) := by
  rw [readMembers]

theorem readMembers_member {first : Bool} {d : Draft} {key : List Char}
    {tokens behind : List Token} (hc : ∀ rest, tokens ≠ .closeObject :: rest)
    (hs : separated first tokens = some (.string (some key) :: behind)) :
    readMembers first d tokens =
      match readMember d key behind with
      | .error e => .error e
      | .ok (d, rest) => readMembers false d rest := by
  rw [readMembers]
  · split
    · rename_i hs'
      obtain ⟨rfl, rfl⟩ : _ = key ∧ _ = behind := by simpa [hs] using hs'.symm
      split <;> simp_all
    · simp_all
  · exact hc

/-- Read the elements of an array, one for each of the settings at most, up to its
end. -/
def readElements (first : Bool) (d : Draft) :
    List SettingName → List Token → Except DocumentError (Draft × List Token)
  | _, .closeArray :: rest => .ok (d, rest)
  | [], _ => .error .malformed
  | name :: names, tokens =>
    match separated first tokens with
    | none => .error .malformed
    | some tokens =>
      match d.read name tokens with
      | .error e => .error e
      | .ok (d, rest) => readElements false d names rest

/-- Read a document in either form. Nothing may follow it. -/
def read (tokens : List Token) : Except DocumentError Settings :=
  let reading :=
    match tokens with
    | .openObject :: tokens => readMembers true {} tokens
    | .openArray :: tokens => readElements true {} SettingName.all tokens
    | token :: _ => .error (refuse token .settings)
    | [] => .error .malformed
  match reading with
  | .error e => .error e
  | .ok (d, []) => .ok d.settings
  | .ok (_, _ :: _) => .error .malformed

end Document

/-- The settings that a document gives. -/
def Settings.ofDocument (document : String) : Except DocumentError Settings :=
  Document.read (Json.tokens document.toList)

end ConfinedRelay
