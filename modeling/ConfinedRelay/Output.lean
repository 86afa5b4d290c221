import ConfinedRelay.Device
import ConfinedRelay.Turn

/-!
An append-only output over a device. It counts the units that the device has
accepted. A device that takes nothing refuses the unit, which is a failure and
not tried again, whereas an interrupted write is made again. A failure is
forgotten: the next unit is offered as if nothing had happened.
-/
namespace ConfinedRelay

structure Output (δ : Type) where
  device : δ
  written : Nat := 0

/-- How many of the units offered were accepted, and the failure that stopped it. -/
structure Acceptance where
  accepted : Nat
  failure : Option Failure
  deriving DecidableEq, Repr

namespace Output

variable {δ : Type}

/-- The fault of a device that takes nothing. -/
def refusal : Fault := .described .writeZero "output sink accepted no bytes"

/-- Report a fault and fail with it. -/
def reject (o : Output δ) (f : Fault) : Turn (Output δ) (Except Failure Unit) :=
  { answer := .error (.writing o.written f)
    next := o
    events := [.writeRejected o.written f] }

variable [UnitDevice δ]

/-- Write exactly one unit. -/
def append (o : Output δ) (b : UInt8) : Turn (Output δ) (Except Failure Unit) :=
  match UnitDevice.settle o.device b with
  | (.count 0, device) => { o with device }.reject refusal
  | (.count (_ + 1), device) => { answer := .ok (), next := ⟨device, o.written + 1⟩ }
  | (.fault f, device) => { o with device }.reject f

/-- Write units in order and stop at the first failure. -/
def appendAll (o : Output δ) : List UInt8 → Turn (Output δ) Acceptance
  | [] => { answer := ⟨0, none⟩, next := o }
  | b :: rest =>
    let turn := o.append b
    match turn.answer with
    | .error failure => { turn with answer := ⟨0, some failure⟩ }
    | .ok () =>
      let later := turn.next.appendAll rest
      { later with
        answer := ⟨later.answer.accepted + 1, later.answer.failure⟩
        events := turn.events ++ later.events }

/-- Flush the device. A fault here is a failure whatever its kind. -/
def close (o : Output δ) : Turn (Output δ) (Except Failure Unit) :=
  match UnitDevice.flush o.device with
  | (none, device) => { answer := .ok (), next := { o with device } }
  | (some f, device) => { o with device }.reject f

end Output
end ConfinedRelay
