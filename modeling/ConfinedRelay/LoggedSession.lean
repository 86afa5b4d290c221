import ConfinedRelay.Log
import ConfinedRelay.Session

/-!
A session with the log of its process. An action starts the log, lets someone else
take its place, or carries out a request. What the log writes about a request goes
to standard error.
-/
namespace ConfinedRelay

structure LoggedSession where
  session : Session
  log : Log := {}

inductive Action where
  | start (s : Settings)
  | occupy
  | request (r : Request)

inductive Outcome where
  | started (answer : Except LogError Unit)
  | occupied (free : Bool)
  | replied (r : Reply)

/-- The outcome of an action, the session afterwards, and what was written to
standard error. -/
structure Effect where
  outcome : Outcome
  next : LoggedSession
  written : List Char := []

def LoggedSession.perform [PatternSyntax] (l : LoggedSession) : Action → Effect
  | .start s =>
    let (answer, log) := l.log.start s
    { outcome := .started answer, next := { l with log } }
  | .occupy =>
    let (free, log) := l.log.occupy
    { outcome := .occupied free, next := { l with log } }
  | .request r =>
    let turn := l.session.perform r
    { outcome := .replied turn.answer
      next := { l with session := turn.next }
      written := l.log.written turn.events }

end ConfinedRelay
