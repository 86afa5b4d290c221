import ConfinedRelay.OpenFile

/-!
A session is a host and the handles opened on it, numbered in the order in which
they were opened. Requests edit the host, open a resource, read from a handle,
transfer what a path leads to, or transfer a scripted source. Every request is
answered, and the events that it causes come with the answer.
-/
namespace ConfinedRelay

structure Session where
  host : Host
  handles : Array (Handle BufferedFile) := #[]

inductive Request where
  | edit (e : Edit)
  | «open» (path : String)
  | read (handle : Nat) (limit : Option Nat)
  | run (path : String) (device : ScriptedDevice)
  | transfer (path : String) (source : ScriptedSource) (device : ScriptedDevice)

inductive Reply where
  | edited
  | opened (answer : Except Failure Nat)
  | read (portion : Portion) (handle : Handle BufferedFile)
  | noHandle
  | ran (answer : Except Failure Report) (device : ScriptedDevice)
  | transferred (answer : Except Failure Report) (source : ScriptedSource)
      (device : ScriptedDevice)

namespace Session

def «open» (s : Session) (path : String) : Turn Session Reply :=
  let opening := s.host.open path
  match opening.answer with
  | .error failure =>
    { answer := .opened (.error failure), next := s, events := [opening.event] }
  | .ok handle =>
    { answer := .opened (.ok s.handles.size)
      next := { s with handles := s.handles.push handle }
      events := [opening.event] }

/-- Read from a handle what its object holds now. -/
def read (s : Session) (i : Nat) (limit : Option Nat) : Turn Session Reply :=
  match s.handles[i]? with
  | none => { answer := .noHandle, next := s }
  | some handle =>
    let reading := (handle.mapSource s.host.view).nextUnits limit
    let handle := reading.next.mapSource FileView.file
    { answer := .read reading.answer handle
      next := { s with handles := s.handles.setIfInBounds i handle }
      events := reading.events }

def perform (s : Session) : Request → Turn Session Reply
  | .edit e => { answer := .edited, next := { s with host := s.host.edit e } }
  | .open path => s.open path
  | .read i limit => s.read i limit
  | .run path device =>
    let turn := s.host.run path device
    { answer := .ran turn.answer turn.next, next := s, events := turn.events }
  | .transfer path source device =>
    let turn := Transfer.run ⟨⟨path, source, 0, .streaming⟩, ⟨device, 0⟩⟩
    { answer := .transferred turn.answer turn.next.handle.source turn.next.output.device
      next := s
      events := turn.events }

end Session
end ConfinedRelay
