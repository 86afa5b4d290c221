import ConfinedRelay.Handle
import ConfinedRelay.Output

/-!
A transfer copies every unit of a resource to an output, one at a time and in
order, and stops at the first failure. The output is flushed only after the
resource has been read to its end, and what it has accepted stays there.
-/
namespace ConfinedRelay

structure Report where
  units : Nat
  deriving DecidableEq, Repr

structure Transfer (σ δ : Type) where
  handle : Handle σ
  output : Output δ

namespace Transfer

variable {σ δ : Type} [ByteSource σ] [UnitDevice δ]

/-- Copy units until the resource ends or something fails. -/
def copy (t : Transfer σ δ) : Turn (Transfer σ δ) (Except Failure Unit) :=
  let reading := t.handle.nextUnit
  match _hb : t.handle.nextUnit.answer with
  | .error failure =>
    { answer := .error failure, next := ⟨reading.next, t.output⟩, events := reading.events }
  | .ok none =>
    { answer := .ok (), next := ⟨reading.next, t.output⟩, events := reading.events }
  | .ok (some b) =>
    let writing := t.output.append b
    match writing.answer with
    | .error failure =>
      { answer := .error failure
        next := ⟨reading.next, writing.next⟩
        events := reading.events ++ writing.events }
    | .ok () =>
      let rest := copy ⟨reading.next, writing.next⟩
      { rest with events := reading.events ++ writing.events ++ rest.events }
termination_by ByteSource.remaining t.handle.source
decreasing_by exact Handle.remaining_nextUnit _hb

theorem copy_of_failed {t : Transfer σ δ} {failure : Failure}
    (h : t.handle.nextUnit.answer = .error failure) :
    t.copy =
      { answer := .error failure
        next := ⟨t.handle.nextUnit.next, t.output⟩
        events := t.handle.nextUnit.events } := by
  rw [copy]
  split <;> simp_all

theorem copy_of_ended {t : Transfer σ δ} (h : t.handle.nextUnit.answer = .ok none) :
    t.copy =
      { answer := .ok ()
        next := ⟨t.handle.nextUnit.next, t.output⟩
        events := t.handle.nextUnit.events } := by
  rw [copy]
  split <;> simp_all

theorem copy_of_rejected {t : Transfer σ δ} {b : UInt8} {failure : Failure}
    (h : t.handle.nextUnit.answer = .ok (some b))
    (hw : (t.output.append b).answer = .error failure) :
    t.copy =
      { answer := .error failure
        next := ⟨t.handle.nextUnit.next, (t.output.append b).next⟩
        events := t.handle.nextUnit.events ++ (t.output.append b).events } := by
  rw [copy]
  split <;> simp_all

theorem copy_of_accepted {t : Transfer σ δ} {b : UInt8}
    (h : t.handle.nextUnit.answer = .ok (some b)) (hw : (t.output.append b).answer = .ok ()) :
    t.copy =
      let rest := copy ⟨t.handle.nextUnit.next, (t.output.append b).next⟩
      { rest with
        events := t.handle.nextUnit.events ++ (t.output.append b).events ++ rest.events } := by
  rw [copy]
  split <;> simp_all

/-- Copy everything, flush the output and report the number of units. -/
def run (t : Transfer σ δ) : Turn (Transfer σ δ) (Except Failure Report) :=
  let copying := t.copy
  match copying.answer with
  | .error failure => { copying with answer := .error failure }
  | .ok () =>
    let closing := copying.next.output.close
    let next := { copying.next with output := closing.next }
    match closing.answer with
    | .error failure =>
      { answer := .error failure, next, events := copying.events ++ closing.events }
    | .ok () =>
      let units := copying.next.output.written
      { answer := .ok ⟨units⟩
        next
        events := copying.events ++ closing.events ++ [.completed t.handle.path units] }

end Transfer
end ConfinedRelay
