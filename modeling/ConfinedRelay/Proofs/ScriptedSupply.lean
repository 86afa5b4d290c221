import ConfinedRelay.Proofs.Supply

/-!
The supply of a scripted source, read off its script: the bytes of the replies before
the first that ends the source or fails, interruptions aside.
-/
namespace ConfinedRelay
namespace ReadReply

/-- The byte that comes with a positive count, a zero where none was stored. -/
def unit? : ReadReply → Option UInt8
  | count 0 _ => none
  | count (_ + 1) none => some 0
  | count (_ + 1) (some b) => some b
  | fault _ => none

def fault? : ReadReply → Option Fault
  | count _ _ => none
  | fault f => some f

/-- A reply that settles what becomes of the source: its end, or a fault other than
an interruption. -/
def isFinal : ReadReply → Bool
  | count 0 _ => true
  | count (_ + 1) _ => false
  | fault f => !decide f.IsInterruption

@[simp] theorem unit?_count (n : Nat) (stored : Option UInt8) :
    (count (n + 1) stored).unit? = some (stored.getD 0) := by cases stored <;> rfl
@[simp] theorem unit?_fault (f : Fault) : (fault f).unit? = none := rfl
@[simp] theorem isFinal_fault (f : Fault) :
    (fault f).isFinal = !decide f.IsInterruption := rfl

theorem isFinal_of_unit {r : ReadReply} {b : UInt8} (hu : r.unit? = some b) :
    r.isFinal = false := by
  cases r with
  | count n stored =>
    cases n with
    | zero => simp [unit?] at hu
    | succ n => rfl
  | fault f => simp at hu

theorem answer_of_unit {r : ReadReply} {b : UInt8} (hu : r.unit? = some b) :
    r.answer = .unit b := by
  cases r with
  | count n stored =>
    cases n with
    | zero => simp [unit?] at hu
    | succ n => simpa [answer] using hu
  | fault f => simp at hu

theorem not_isInterruption_of_final {r : ReadReply} (hf : r.isFinal = true) :
    ¬ r.answer.IsInterruption := by
  cases r with
  | count n stored => cases n <;> simp [answer]
  | fault f => simpa [answer] using hf

/-- A reply that settles nothing and brings no unit is an interruption. -/
theorem isInterruption_of_passed {r : ReadReply} (hf : r.isFinal = false)
    (hu : r.unit? = none) : r.answer.IsInterruption := by
  cases r with
  | count n stored =>
    cases n with
    | zero => simp [isFinal] at hf
    | succ n => simp at hu
  | fault f => simpa [answer] using hf

end ReadReply

def Supply.ofReplies (replies : List ReadReply) : Supply where
  units := (replies.takeWhile (!·.isFinal)).filterMap ReadReply.unit?
  fault := (replies.find? (·.isFinal)).bind ReadReply.fault?

namespace Supply

variable (later : List ReadReply) {r : ReadReply}

theorem ofReplies_of_final (hf : r.isFinal = true) :
    ofReplies (r :: later) = { fault := r.fault? } := by
  simp [ofReplies, hf]

theorem ofReplies_of_unit {b : UInt8} (hu : r.unit? = some b) :
    ofReplies (r :: later) = (ofReplies later).cons b := by
  simp [ofReplies, cons, ReadReply.isFinal_of_unit hu, hu]

theorem ofReplies_of_passed (hf : r.isFinal = false) (hu : r.unit? = none) :
    ofReplies (r :: later) = ofReplies later := by
  simp [ofReplies, hf, hu]

end Supply

namespace ScriptedSource

open ByteSource (settle exhaust supply spent)

theorem read_of_nil {s : ScriptedSource} (h : s.replies.toList = []) :
    ByteSource.read s = (.ended, { s with calls := s.calls + 1 }) := by
  change s.read = _
  simp [read, Script.next?_of_nil h]

theorem read_of_cons {s : ScriptedSource} {reply : ReadReply} {later : List ReadReply}
    (h : s.replies.toList = reply :: later) :
    ∃ replies : Script ReadReply, replies.toList = later ∧
      ByteSource.read s = (reply.answer, ⟨replies, s.calls + 1⟩) := by
  obtain ⟨replies, hl, hn⟩ := Script.next?_of_cons h
  refine ⟨replies, hl, ?_⟩
  change s.read = _
  simp [read, hn]

section Step

variable {s next : ScriptedSource} {r : ReadReply}

theorem exhaust_of_final (hr : ByteSource.read s = (r.answer, next)) (hf : r.isFinal = true) :
    exhaust s = ({ fault := r.fault? }, next) := by
  have hi : ¬ (ByteSource.read s).1.IsInterruption := by
    rw [hr]
    exact ReadReply.not_isInterruption_of_final hf
  have hs := (ByteSource.settle_of_not_interruption hi).trans hr
  cases r with
  | count n stored =>
    cases n with
    | zero => exact ByteSource.exhaust_of_ended hs
    | succ n => simp [ReadReply.isFinal] at hf
  | fault f => exact ByteSource.exhaust_of_fault hs

theorem exhaust_of_unit {b : UInt8} (hr : ByteSource.read s = (r.answer, next))
    (hu : r.unit? = some b) : exhaust s = ((supply next).cons b, spent next) := by
  rw [ReadReply.answer_of_unit hu] at hr
  have hi : ¬ (ByteSource.read s).1.IsInterruption := by simp [hr]
  exact ByteSource.exhaust_of_unit ((ByteSource.settle_of_not_interruption hi).trans hr)

theorem exhaust_of_passed (hr : ByteSource.read s = (r.answer, next)) (hf : r.isFinal = false)
    (hu : r.unit? = none) : exhaust s = exhaust next := by
  have hi : (ByteSource.read s).1.IsInterruption := by
    rw [hr]
    exact ReadReply.isInterruption_of_passed hf hu
  rw [ByteSource.exhaust_of_interruption hi, hr]

end Step

/-- A scripted source gives what its script says, and when that is used up, just the
replies up to the final one are gone. -/
structure Follows (s : ScriptedSource) (replies : List ReadReply) : Prop where
  supply : supply s = .ofReplies replies
  calls : (spent s).calls = s.calls + (replies.takeWhile (!·.isFinal)).length + 1
  left : (spent s).replies.toList = (replies.dropWhile (!·.isFinal)).tail

theorem follows_nil {s : ScriptedSource} (h : s.replies.toList = []) : s.Follows [] := by
  have hr := read_of_nil h
  have hi : ¬ (ByteSource.read s).1.IsInterruption := by simp [hr]
  have he := ByteSource.exhaust_of_ended ((ByteSource.settle_of_not_interruption hi).trans hr)
  constructor
  · rw [supply, he]
    rfl
  · rw [spent, he]
    rfl
  · rw [spent, he]
    exact h

/-- The induction is on the replies that are left; an interruption and a unit each
leave one fewer. -/
theorem follows {s : ScriptedSource} {replies : List ReadReply} (h : s.replies.toList = replies) :
    s.Follows replies := by
  induction replies generalizing s with
  | nil => exact follows_nil h
  | cons r later ih =>
    obtain ⟨replies, hl, hr⟩ := read_of_cons h
    have ht := ih (s := ⟨replies, s.calls + 1⟩) hl
    cases hf : r.isFinal with
    | true =>
      have he := exhaust_of_final hr hf
      constructor
      · rw [supply, he, Supply.ofReplies_of_final later hf]
      · simp [spent, he, hf]
      · simp [spent, he, hf, hl]
    | false =>
      have hspent : spent s = spent ⟨replies, s.calls + 1⟩ := by
        cases hu : r.unit? with
        | some b => rw [spent, exhaust_of_unit hr hu]
        | none => rw [spent, exhaust_of_passed hr hf hu, spent]
      constructor
      · cases hu : r.unit? with
        | some b =>
          rw [supply, exhaust_of_unit hr hu, ht.supply, Supply.ofReplies_of_unit later hu]
        | none =>
          rw [supply, exhaust_of_passed hr hf hu, ← supply, ht.supply,
            Supply.ofReplies_of_passed later hf hu]
      · rw [hspent, ht.calls, List.takeWhile_cons, hf]
        simp only [Bool.not_false, if_true, List.length_cons]
        omega
      · rw [hspent, ht.left, List.dropWhile_cons, hf]
        rfl

/-- The source that gives these bytes, one a call, and then ends. -/
def ofBytes (bytes : List UInt8) : ScriptedSource where
  replies := .ofList (bytes.map fun b => .count 1 (some b))

theorem supply_ofBytes (bytes : List UInt8) : supply (ofBytes bytes) = { units := bytes } := by
  rw [(follows rfl).supply, ofBytes, Script.toList_ofList]
  induction bytes with
  | nil => rfl
  | cons b rest ih =>
    rw [List.map_cons, Supply.ofReplies_of_unit _ rfl, ih]
    rfl

end ScriptedSource
end ConfinedRelay
