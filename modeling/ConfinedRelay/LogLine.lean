import ConfinedRelay.Event
import ConfinedRelay.Settings

/-!
Events as lines of a log, in either format. The compact format writes texts as
they are, and for a terminal it sets off what is not text of the event by colours
and styles. The JSON format writes an object in which the fields stand between the
message and the target, and no colours.
-/
namespace ConfinedRelay

/-- The codes of a terminal that say how text looks. -/
inductive Look where
  | dim | italic | red | green | yellow | blue | purple
  deriving DecidableEq, Repr

def Look.code : Look → String
  | dim => "2"
  | italic => "3"
  | red => "31"
  | green => "32"
  | yellow => "33"
  | blue => "34"
  | purple => "35"

/-- Text for a terminal, which looks as said and leaves what follows as it was. Without
a terminal it is the text alone. -/
def Look.paint (look : Look) (terminal : Bool) (text : List Char) : List Char :=
  if terminal then
    '\x1b' :: '[' :: look.code.toList ++ 'm' :: text ++ ['\x1b', '[', '0', 'm']
  else text

def Level.look : Level → Look
  | error => .red
  | warn => .yellow
  | info => .green
  | debug => .blue
  | trace => .purple

def FieldValue.json : FieldValue → List Char
  | text t => Json.literal t.toList
  | count n => (toString n).toList

namespace Event

/-- The level at the right of five columns, the target, the message and the fields. -/
def compact (e : Event) (terminal : Bool) : List Char :=
  let level := e.level.name.toList
  let field (f : Field) :=
    ' ' :: Look.italic.paint terminal f.name.toList ++ Look.dim.paint terminal ['='] ++
      f.value.display.toList
  e.level.look.paint terminal (List.replicate (5 - level.length) ' ' ++ level) ++
    ' ' :: Look.dim.paint terminal e.target.name.toList ++ Look.dim.paint terminal [':'] ++
    ' ' :: e.message.toList ++ e.fields.flatMap field

/-- The members of the object that stands for an event. -/
def members (e : Event) : List Field :=
  [⟨"level", .text e.level.name⟩, ⟨"message", .text e.message⟩] ++ e.fields ++
    [⟨"target", .text e.target.name⟩]

def json (e : Event) : List Char :=
  let member (f : Field) := Json.literal f.name.toList ++ ':' :: f.value.json
  '\x7b' :: Text.glue ',' (e.members.map member) ++ ['\x7d']

end Event

/-- The line of an event, with the newline that ends it. -/
def LineFormat.line (format : LineFormat) (terminal : Bool) (e : Event) : List Char :=
  match format with
  | compact => e.compact terminal ++ ['\n']
  | json => e.json ++ ['\n']

end ConfinedRelay
