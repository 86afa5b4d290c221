import ConfinedRelay.Output

/-!
How a scripted device decides about a unit. Interrupted replies are passed over, and
the first other one decides: the unit is kept, or it is refused with a fault. Where the
script is used up the unit is kept.
-/
namespace ConfinedRelay
namespace WriteReply

def isInterruption : WriteReply → Bool
  | fault f => decide f.IsInterruption
  | all | claim _ => false

/-- The fault with which a reply refuses a unit. -/
def refusal? : WriteReply → Option Fault
  | all => none
  | claim 0 => some Output.refusal
  | claim (_ + 1) => none
  | fault f => some f

/-- What an output answers that has written so many units before the reply. -/
def verdict (written : Nat) (r : WriteReply) : Except Failure Unit :=
  match r.refusal? with
  | none => .ok ()
  | some f => .error (.writing written f)

/-- The reply that decides about the next unit. -/
def deciding (replies : List WriteReply) : WriteReply :=
  (replies.find? (!·.isInterruption)).getD all

@[simp] theorem isInterruption_all : all.isInterruption = false := rfl
@[simp] theorem isInterruption_claim (n : Nat) : (claim n).isInterruption = false := rfl
@[simp] theorem isInterruption_fault (f : Fault) :
    (fault f).isInterruption = decide f.IsInterruption := rfl

theorem isInterruption_answer (r : WriteReply) (chunk : List UInt8) :
    (r.answer chunk).IsInterruption ↔ r.isInterruption = true := by
  cases r <;> simp [answer]

/-- A unit is kept unless it is refused. -/
theorem kept_answer (r : WriteReply) (b : UInt8) :
    (r.answer [b]).kept [b] = if r.refusal?.isSome then [] else [b] := by
  cases r with
  | all => rfl
  | claim n => cases n <;> rfl
  | fault f => rfl

theorem deciding_of_interruption {r : WriteReply} (later : List WriteReply)
    (h : r.isInterruption = true) : deciding (r :: later) = deciding later := by
  simp [deciding, h]

theorem deciding_of_not_interruption {r : WriteReply} (later : List WriteReply)
    (h : r.isInterruption = false) : deciding (r :: later) = r := by
  simp [deciding, h]

end WriteReply

namespace ScriptedDevice

open UnitDevice (settle)

theorem write_of_nil {d : ScriptedDevice} (h : d.replies.toList = []) (b : UInt8) :
    UnitDevice.write d b = (.count 1, { d with
      stored := d.stored ++ [b]
      writeCalls := d.writeCalls + 1 }) := by
  change d.write [b] = _
  simp [write, takeReply, Script.next?_of_nil h, WriteReply.answer, WriteAnswer.kept]

theorem write_of_cons {d : ScriptedDevice} {r : WriteReply} {later : List WriteReply}
    (h : d.replies.toList = r :: later) (b : UInt8) :
    ∃ replies : Script WriteReply, replies.toList = later ∧
      UnitDevice.write d b = (r.answer [b], { d with
        replies
        stored := d.stored ++ (r.answer [b]).kept [b]
        writeCalls := d.writeCalls + 1 }) := by
  obtain ⟨replies, hl, hn⟩ := Script.next?_of_cons h
  refine ⟨replies, hl, ?_⟩
  change d.write [b] = _
  simp [write, takeReply, hn]

/-- A write that is repeated until it is decided: what is answered, which replies are
left, what is stored, and how often the device is called for it. -/
structure Decides (d : ScriptedDevice) (b : UInt8) (replies : List WriteReply) : Prop where
  answer : (settle d b).1 = (WriteReply.deciding replies).answer [b]
  left : (settle d b).2.replies.toList = (replies.dropWhile (·.isInterruption)).tail
  calls : (settle d b).2.writeCalls =
    d.writeCalls + (replies.takeWhile (·.isInterruption)).length + 1
  stored : (settle d b).2.stored =
    d.stored ++ ((WriteReply.deciding replies).answer [b]).kept [b]
  flushes : (settle d b).2.flushes = d.flushes
  flushCalls : (settle d b).2.flushCalls = d.flushCalls

/-- The induction is on the replies that are left; every interruption leaves one fewer. -/
theorem decides {d : ScriptedDevice} {replies : List WriteReply} (h : d.replies.toList = replies)
    (b : UInt8) : d.Decides b replies := by
  induction replies generalizing d with
  | nil =>
    have hw := write_of_nil h b
    have hs : settle d b = UnitDevice.write d b :=
      UnitDevice.settle_of_not_interruption (by simp [hw])
    constructor
    · rw [hs, hw]
      rfl
    · simp [hs, hw, h]
    · simp [hs, hw]
    · rw [hs, hw]
      rfl
    · rw [hs, hw]
    · rw [hs, hw]
  | cons r later ih =>
    obtain ⟨replies, hl, hw⟩ := write_of_cons h b
    cases hi : r.isInterruption with
    | true =>
      have hk : (r.answer [b]).kept [b] = [] := by
        cases r <;> simp_all [WriteReply.answer, WriteAnswer.kept]
      have hs : settle d b = settle (UnitDevice.write d b).2 b :=
        UnitDevice.settle_of_interruption (by simp [hw, r.isInterruption_answer, hi])
      have hn := ih (d := (UnitDevice.write d b).2) (by rw [hw]; exact hl)
      constructor
      · rw [hs, hn.answer, WriteReply.deciding_of_interruption later hi]
      · simp [hs, hn.left, hi]
      · rw [hs, hn.calls]
        simp only [hw, List.takeWhile_cons, hi, if_true, List.length_cons]
        omega
      · rw [hs, hn.stored, hw, hk, WriteReply.deciding_of_interruption later hi]
        simp
      · rw [hs, hn.flushes, hw]
      · rw [hs, hn.flushCalls, hw]
    | false =>
      have hs : settle d b = UnitDevice.write d b :=
        UnitDevice.settle_of_not_interruption (by simp [hw, r.isInterruption_answer, hi])
      have hd := WriteReply.deciding_of_not_interruption later hi
      constructor
      · rw [hs, hw, hd]
      · simp [hs, hw, hi, hl]
      · simp [hs, hw, hi]
      · rw [hs, hw, hd]
      · rw [hs, hw]
      · rw [hs, hw]

end ScriptedDevice
end ConfinedRelay
