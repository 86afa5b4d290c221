import ConfinedRelay.Fault
import ConfinedRelay.Script

/-!
Sources of bytes, asked for one byte at a time. A source answers with a byte,
with its end, or with a fault. It carries a measure that falls with every byte
and with every interruption, so whoever repeats interrupted calls, or reads on
until the end, comes to an end too.
-/
namespace ConfinedRelay

inductive ReadAnswer where
  | unit (b : UInt8)
  | ended
  | fault (f : Fault)
  deriving DecidableEq, Repr

namespace ReadAnswer

/-- An interrupted read decides nothing and is made again. -/
def IsInterruption : ReadAnswer → Prop
  | fault f => f.IsInterruption
  | _ => False

instance (a : ReadAnswer) : Decidable a.IsInterruption :=
  match a with
  | fault f => inferInstanceAs (Decidable f.IsInterruption)
  | unit _ | ended => inferInstanceAs (Decidable False)

@[simp] theorem isInterruption_fault (f : Fault) :
    (fault f).IsInterruption ↔ f.IsInterruption := Iff.rfl
@[simp] theorem not_isInterruption_unit (b : UInt8) : ¬ (unit b).IsInterruption := id
@[simp] theorem not_isInterruption_ended : ¬ ended.IsInterruption := id

end ReadAnswer

class ByteSource (σ : Type) where
  read : σ → ReadAnswer × σ
  /-- Bounds the bytes and the interruptions still to come. -/
  remaining : σ → Nat
  remaining_of_unit (s : σ) (b : UInt8) :
    (read s).1 = .unit b → remaining (read s).2 < remaining s
  remaining_of_interruption (s : σ) :
    (read s).1.IsInterruption → remaining (read s).2 < remaining s

namespace ByteSource

variable {σ : Type} [ByteSource σ]

/-- Read until the answer is not an interruption. -/
def settle (s : σ) : ReadAnswer × σ :=
  if (read s).1.IsInterruption then settle (read s).2 else read s
termination_by remaining s
decreasing_by exact remaining_of_interruption s ‹_›

theorem settle_of_interruption {s : σ} (h : (read s).1.IsInterruption) :
    settle s = settle (read s).2 := by
  rw [settle, if_pos h]

theorem settle_of_not_interruption {s : σ} (h : ¬ (read s).1.IsInterruption) :
    settle s = read s := by
  rw [settle, if_neg h]

theorem not_isInterruption_settle (s : σ) : ¬ (settle s).1.IsInterruption := by
  fun_induction settle s with
  | case1 s h ih => exact ih
  | case2 s h => exact h

theorem remaining_settle_of_unit {s : σ} {b : UInt8} (h : (settle s).1 = .unit b) :
    remaining (settle s).2 < remaining s := by
  fun_induction settle s with
  | case1 s hi ih => exact Nat.lt_trans (ih h) (remaining_of_interruption s hi)
  | case2 s _ => exact remaining_of_unit s b h

end ByteSource

/-- What a scripted source does when it is called: report a count of bytes,
with or without storing one, or fail. -/
inductive ReadReply where
  | count (n : Nat) (stored : Option UInt8)
  | fault (f : Fault)
  deriving DecidableEq, Repr

/-- The caller's cell holds zero before the call, so that is the byte read when a
positive count comes without a stored byte. -/
def ReadReply.answer : ReadReply → ReadAnswer
  | count 0 _ => .ended
  | count (_ + 1) stored => .unit (stored.getD 0)
  | fault f => .fault f

/-- A source that answers by a script and then reports its end for ever. -/
structure ScriptedSource where
  replies : Script ReadReply := {}
  calls : Nat := 0

namespace ScriptedSource

def read (s : ScriptedSource) : ReadAnswer × ScriptedSource :=
  match s.replies.next? with
  | none => (.ended, { s with calls := s.calls + 1 })
  | some (reply, replies) => (reply.answer, ⟨replies, s.calls + 1⟩)

@[simp] theorem calls_read (s : ScriptedSource) : s.read.2.calls = s.calls + 1 := by
  unfold read
  split <;> rfl

theorem length_read {s : ScriptedSource} (h : s.read.1 ≠ .ended) :
    s.read.2.replies.length < s.replies.length := by
  unfold read at h ⊢
  split
  · simp_all
  · rename_i heq
    simp [Script.length_of_next? heq]

instance : ByteSource ScriptedSource where
  read := read
  remaining s := s.replies.length
  remaining_of_unit s b h := length_read (by simp [h])
  remaining_of_interruption s h := length_read fun he => by simp [he] at h

end ScriptedSource
end ConfinedRelay
