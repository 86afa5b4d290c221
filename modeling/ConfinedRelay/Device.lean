import ConfinedRelay.Fault
import ConfinedRelay.Script

/-!
Devices that take bytes. A write answers with the count of bytes taken, where
zero means that the device refuses, or with a fault. A device carries a measure
that falls with every interruption, so whoever repeats interrupted writes comes
to an end.

A `ChunkDevice` takes any number of bytes in one call, a `UnitDevice` one byte.
-/
namespace ConfinedRelay

inductive WriteAnswer where
  | count (n : Nat)
  | fault (f : Fault)
  deriving DecidableEq, Repr

namespace WriteAnswer

/-- An interrupted write decides nothing and is made again. -/
def IsInterruption : WriteAnswer → Prop
  | fault f => f.IsInterruption
  | count _ => False

instance (a : WriteAnswer) : Decidable a.IsInterruption :=
  match a with
  | fault f => inferInstanceAs (Decidable f.IsInterruption)
  | count _ => inferInstanceAs (Decidable False)

@[simp] theorem isInterruption_fault (f : Fault) :
    (fault f).IsInterruption ↔ f.IsInterruption := Iff.rfl
@[simp] theorem not_isInterruption_count (n : Nat) : ¬ (count n).IsInterruption := id

end WriteAnswer

class ChunkDevice (δ : Type) where
  write : δ → List UInt8 → WriteAnswer × δ
  flush : δ → Option Fault × δ
  /-- Bounds the interruptions still to come. -/
  patience : δ → Nat
  patience_le (d : δ) (chunk : List UInt8) : patience (write d chunk).2 ≤ patience d
  patience_lt (d : δ) (chunk : List UInt8) :
    (write d chunk).1.IsInterruption → patience (write d chunk).2 < patience d

class UnitDevice (δ : Type) where
  write : δ → UInt8 → WriteAnswer × δ
  flush : δ → Option Fault × δ
  /-- Bounds the interruptions still to come. -/
  patience : δ → Nat
  patience_lt (d : δ) (b : UInt8) :
    (write d b).1.IsInterruption → patience (write d b).2 < patience d

instance (priority := low) ChunkDevice.toUnitDevice {δ : Type} [ChunkDevice δ] :
    UnitDevice δ where
  write d b := ChunkDevice.write d [b]
  flush := ChunkDevice.flush
  patience := ChunkDevice.patience
  patience_lt d b := ChunkDevice.patience_lt d [b]

namespace UnitDevice

variable {δ : Type} [UnitDevice δ]

/-- Write until the answer is not an interruption. -/
def settle (d : δ) (b : UInt8) : WriteAnswer × δ :=
  if (write d b).1.IsInterruption then settle (write d b).2 b else write d b
termination_by patience d
decreasing_by exact patience_lt d b ‹_›

theorem settle_of_interruption {d : δ} {b : UInt8} (h : (write d b).1.IsInterruption) :
    settle d b = settle (write d b).2 b := by
  rw [settle, if_pos h]

theorem settle_of_not_interruption {d : δ} {b : UInt8} (h : ¬ (write d b).1.IsInterruption) :
    settle d b = write d b := by
  rw [settle, if_neg h]

theorem not_isInterruption_settle (d : δ) (b : UInt8) : ¬ (settle d b).1.IsInterruption := by
  fun_induction settle d b with
  | case1 d h ih => exact ih
  | case2 d h => exact h

end UnitDevice

/-- What a scripted device does when it is asked to write: take all bytes, report
a count of its own, or fail. -/
inductive WriteReply where
  | all
  | claim (n : Nat)
  | fault (f : Fault)
  deriving DecidableEq, Repr

def WriteReply.answer (chunk : List UInt8) : WriteReply → WriteAnswer
  | all => .count chunk.length
  | claim n => .count n
  | fault f => .fault f

/-- Which bytes a device keeps that gives this answer: all of them, unless it
refuses or fails. -/
def WriteAnswer.kept (chunk : List UInt8) : WriteAnswer → List UInt8
  | .count 0 => []
  | .count (_ + 1) => chunk
  | .fault _ => []

/-- A device that answers by two scripts, one for writes and one for the flushes
that fail, and then accepts everything. It keeps what it takes and counts its calls. -/
structure ScriptedDevice where
  replies : Script WriteReply := {}
  flushes : Script Fault := {}
  stored : Array UInt8 := #[]
  writeCalls : Nat := 0
  flushCalls : Nat := 0

namespace ScriptedDevice

/-- The next reply and the device without it. -/
def takeReply (d : ScriptedDevice) : WriteReply × ScriptedDevice :=
  match d.replies.next? with
  | none => (.all, d)
  | some (reply, replies) => (reply, { d with replies })

def write (d : ScriptedDevice) (chunk : List UInt8) : WriteAnswer × ScriptedDevice :=
  let (reply, d) := d.takeReply
  let answer := reply.answer chunk
  (answer, { d with
    stored := d.stored ++ answer.kept chunk
    writeCalls := d.writeCalls + 1 })

def flush (d : ScriptedDevice) : Option Fault × ScriptedDevice :=
  let d := { d with flushCalls := d.flushCalls + 1 }
  match d.flushes.next? with
  | none => (none, d)
  | some (f, flushes) => (some f, { d with flushes })

theorem length_takeReply (d : ScriptedDevice) :
    d.takeReply.2.replies.length ≤ d.replies.length := by
  unfold takeReply
  split
  · exact Nat.le_refl _
  · rename_i heq
    simp [Script.length_of_next? heq]

theorem length_takeReply_lt {d : ScriptedDevice} (h : d.takeReply.1 ≠ .all) :
    d.takeReply.2.replies.length < d.replies.length := by
  unfold takeReply at h ⊢
  split
  · simp_all
  · rename_i heq
    simp [Script.length_of_next? heq]

theorem answer_all (chunk : List UInt8) :
    WriteReply.all.answer chunk = .count chunk.length := rfl

instance : ChunkDevice ScriptedDevice where
  write := write
  flush := flush
  patience d := d.replies.length
  patience_le d _ := length_takeReply d
  patience_lt d chunk h := length_takeReply_lt fun he => by simp [write, he, answer_all] at h

end ScriptedDevice

/-- A device that fails every write with the same fault. -/
structure BrokenDevice where
  fault : Fault
  not_interruption : ¬ fault.IsInterruption

namespace BrokenDevice

/-- A device without room. -/
def full : BrokenDevice := ⟨.system .noSpace, by decide⟩

instance : ChunkDevice BrokenDevice where
  write d _ := (.fault d.fault, d)
  flush d := (none, d)
  patience _ := 0
  patience_le _ _ := Nat.le_refl 0
  patience_lt d _ h := absurd h d.not_interruption

end BrokenDevice
end ConfinedRelay
