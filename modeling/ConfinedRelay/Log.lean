import ConfinedRelay.Filter
import ConfinedRelay.LogLine

/-!
The log of a process, which goes to standard error. A process has one slot for what
takes its events. The first start of the log that succeeds puts a recorder there,
which stays for ever, and later starts succeed without effect. Someone else may have
taken the slot before. A start that fails changes nothing.
-/
namespace ConfinedRelay

/-- What writes the events that pass a filter, in one format, to a terminal or not. -/
structure Recorder where
  filter : Filter
  format : LineFormat
  terminal : Bool
  deriving DecidableEq, Repr

def Recorder.written (r : Recorder) (events : List Event) : List Char :=
  (events.filter r.filter.admits).flatMap (r.format.line r.terminal)

inductive Slot where
  | free
  | foreign
  | recorder (r : Recorder)
  deriving DecidableEq, Repr

inductive LogError where
  | filter (e : FilterError)
  | slotTaken
  deriving DecidableEq, Repr

def LogError.message : LogError → String
  | filter e => "invalid log filter: " ++ e.message
  | slotTaken =>
    "failed to install telemetry subscriber: "
      ++ "a global default trace dispatcher has already been set"

/-- What takes the events, whether a start has succeeded, and whether standard error is
a terminal. -/
structure Log where
  slot : Slot := .free
  started : Bool := false
  terminal : Bool := false
  deriving DecidableEq, Repr

namespace Log

variable [PatternSyntax]

/-- Put a recorder for these settings into the slot. The filter is read before the
slot is tried. -/
def claim (l : Log) (s : Settings) : Except LogError Log :=
  match Filter.ofText s.logFilter with
  | .error e => .error (.filter e)
  | .ok filter =>
    match l.slot with
    | .free =>
      .ok { l with slot := .recorder ⟨filter, s.logFormat, l.terminal⟩, started := true }
    | .foreign | .recorder _ => .error .slotTaken

def start (l : Log) (s : Settings) : Except LogError Unit × Log :=
  if l.started then (.ok (), l)
  else
    match l.claim s with
    | .error e => (.error e, l)
    | .ok started => (.ok (), started)

/-- Someone else takes the slot, if it is free. -/
def occupy (l : Log) : Bool × Log :=
  match l.slot with
  | .free => (true, { l with slot := .foreign })
  | .foreign | .recorder _ => (false, l)

/-- What is written about events. -/
def written (l : Log) (events : List Event) : List Char :=
  match l.slot with
  | .free | .foreign => []
  | .recorder r => r.written events

end Log

/-- Where nothing is known about patterns every text is taken for one. -/
instance (priority := low) PatternSyntax.free : PatternSyntax := ⟨fun _ => none⟩

end ConfinedRelay
