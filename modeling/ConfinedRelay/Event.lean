import ConfinedRelay.Failure

/-!
What the relay reports while it works. An event says what happened and carries
the facts about it. From the event follow its level, the target it is filed
under, a fixed message and the fields in the order in which they are written.
-/
namespace ConfinedRelay

/-- From the gravest to the most detailed. -/
inductive Level where
  | error | warn | info | debug | trace
  deriving DecidableEq, Repr

namespace Level

/-- The higher the rank, the more detailed the level. -/
def rank : Level → Nat
  | error => 1
  | warn => 2
  | info => 3
  | debug => 4
  | trace => 5

def name : Level → String
  | error => "ERROR"
  | warn => "WARN"
  | info => "INFO"
  | debug => "DEBUG"
  | trace => "TRACE"

end Level

/-- The part of the relay that an event is filed under. -/
inductive Target where
  | resource | sink | relay
  deriving DecidableEq, Repr

def Target.name : Target → String
  | resource => "sandbox_relay::resource"
  | sink => "sandbox_relay::sink"
  | relay => "sandbox_relay::relay"

inductive FieldValue where
  | text (t : String)
  | count (n : Nat)
  deriving DecidableEq, Repr

def FieldValue.display : FieldValue → String
  | text t => t
  | count n => toString n

structure Field where
  name : String
  value : FieldValue
  deriving DecidableEq, Repr

inductive Event where
  | opened (path : String)
  | openFailed (path : String) (fault : Fault)
  | readFailed (path : String) (offset : Nat) (fault : Fault)
  | writeRejected (offset : Nat) (fault : Fault)
  | completed (path : String) (units : Nat)
  deriving DecidableEq, Repr

namespace Event

def level : Event → Level
  | opened .. | completed .. => .debug
  | openFailed .. | readFailed .. | writeRejected .. => .warn

def target : Event → Target
  | opened .. | openFailed .. | readFailed .. => .resource
  | writeRejected .. => .sink
  | completed .. => .relay

def message : Event → String
  | opened .. => "opened sandboxed resource"
  | openFailed .. => "sandboxed resource could not be opened"
  | readFailed .. => "read failed"
  | writeRejected .. => "output sink rejected write"
  | completed .. => "relay complete"

def fields : Event → List Field
  | opened path => [⟨"path", .text path⟩]
  | openFailed path f => [⟨"path", .text path⟩, ⟨"error", .text f.text⟩]
  | readFailed path offset f =>
    [⟨"path", .text path⟩, ⟨"offset", .count offset⟩, ⟨"error", .text f.text⟩]
  | writeRejected offset f => [⟨"offset", .count offset⟩, ⟨"error", .text f.text⟩]
  | completed path units => [⟨"path", .text path⟩, ⟨"units", .count units⟩]

/-- The names of all fields, of which the message is the first. -/
def fieldNames (e : Event) : List String := "message" :: e.fields.map Field.name

/-- The event that reports a failure. -/
def ofFailure : Failure → Event
  | .opening path f => openFailed path f
  | .reading path offset f => readFailed path offset f
  | .writing offset f => writeRejected offset f

end Event

end ConfinedRelay
