import ConfinedRelay.Json.Literal
import ConfinedRelay.Path

/-!
The settings of a relay: the path of its resource, the filter for its log and the
format in which the log is written.
-/
namespace ConfinedRelay

inductive LineFormat where
  | json
  | compact
  deriving DecidableEq, Repr

namespace LineFormat

def all : List LineFormat := [json, compact]

def text : LineFormat → String
  | json => "json"
  | compact => "compact"

/-- The format with exactly this text. -/
def ofText? (t : String) : Option LineFormat := all.find? fun f => f.text = t

/-- The format with this text, where the case of ASCII letters is free. -/
def ofAnyCase? (t : String) : Option LineFormat :=
  ofText? (String.ofList (t.toList.map Char.toLower))

def render (f : LineFormat) : List Char := Json.literal f.text.toList

@[simp] theorem ofText?_text (f : LineFormat) : ofText? f.text = some f := by
  cases f <;> rfl

theorem ofText?_eq_some {t : String} {f : LineFormat} (h : ofText? t = some f) : f.text = t := by
  simpa using List.find?_some h

end LineFormat

structure Settings where
  inputPath : String := "/sandbox/input.txt"
  logFilter : String := "error"
  logFormat : LineFormat := .compact
  deriving DecidableEq, Repr

namespace Settings

/-- Settings are the same if their paths are and the rest is equal. -/
def Same (s t : Settings) : Prop :=
  Path.Same s.inputPath t.inputPath ∧ s.logFilter = t.logFilter ∧ s.logFormat = t.logFormat

instance (s t : Settings) : Decidable (Same s t) :=
  inferInstanceAs (Decidable (_ ∧ _ ∧ _))

/-- The directory and the name that the input path is opened by. -/
def location (s : Settings) : Option Location := Path.split s.inputPath

end Settings

/-- The names of the settings in a document, in the order in which they are written. -/
inductive SettingName where
  | inputPath
  | logFilter
  | logFormat
  deriving DecidableEq, Repr

namespace SettingName

def all : List SettingName := [inputPath, logFilter, logFormat]

def text : SettingName → String
  | inputPath => "input_path"
  | logFilter => "log_filter"
  | logFormat => "log_format"

def ofText? (t : String) : Option SettingName := all.find? fun n => n.text = t

@[simp] theorem ofText?_text (n : SettingName) : ofText? n.text = some n := by
  cases n <;> rfl

theorem ofText?_eq_some {t : String} {n : SettingName} (h : ofText? t = some n) : n.text = t := by
  simpa using List.find?_some h

end SettingName
end ConfinedRelay
