import ConfinedRelay.Transfer

/-!
The outcome of opening a resource: a handle on what was found, or the failure to
find it. Either is reported by one event. An opened resource can be transferred to
a device, which is not touched when there is none.
-/
namespace ConfinedRelay

structure Opening (σ : Type) where
  answer : Except Failure (Handle σ)
  event : Event

namespace Opening

variable {σ τ δ : Type}

/-- The outcome for a path that leads to a source or to a fault. -/
def of (path : String) : Except Fault σ → Opening σ
  | .ok source => ⟨.ok ⟨path, source, 0, .streaming⟩, .opened path⟩
  | .error f => ⟨.error (.opening path f), .openFailed path f⟩

/-- The same outcome with the source seen in another way. -/
def mapSource (f : σ → τ) (o : Opening σ) : Opening τ :=
  ⟨o.answer.map (Handle.mapSource f), o.event⟩

/-- Transfer what was opened to a device. -/
def transfer [ByteSource σ] [UnitDevice δ] (o : Opening σ) (device : δ) :
    Turn δ (Except Failure Report) :=
  match o.answer with
  | .error failure => { answer := .error failure, next := device, events := [o.event] }
  | .ok handle =>
    let transfer := Transfer.run ⟨handle, ⟨device, 0⟩⟩
    { answer := transfer.answer
      next := transfer.next.output.device
      events := o.event :: transfer.events }

end Opening
end ConfinedRelay
