import ConfinedRelay.Proofs.Decisions
import ConfinedRelay.Proofs.WordCounts

/-!
Writing units to an output one after another, whatever became of those before. The
output counts the units that its device accepted, and the device stores just these, in
order. A refused unit leaves no trace but its reply, and the next unit meets the next
reply.
-/
namespace ConfinedRelay

/-- The replies still to come that are no interruptions. -/
def ScriptedDevice.decisions (d : ScriptedDevice) : List WriteReply :=
  d.replies.toList.filter (!·.isInterruption)

theorem ScriptedDevice.deciding_eq (d : ScriptedDevice) :
    WriteReply.deciding d.replies.toList = d.decisions[0]?.getD .all := by
  rw [WriteReply.deciding, ← List.head?_filter, List.head?_eq_getElem?]
  rfl

namespace WriteReply

theorem decisions_left (replies : List WriteReply) :
    (replies.dropWhile (·.isInterruption)).tail.filter (!·.isInterruption) =
      (replies.filter (!·.isInterruption)).tail := by
  induction replies with
  | nil => rfl
  | cons r later ih => cases hr : r.isInterruption <;> simp [hr, ih]

/-- Of the replies that one unit uses up, all but the last are interruptions. -/
theorem exists_consumed (replies : List WriteReply) :
    ∃ consumed, replies = consumed ++ (replies.dropWhile (·.isInterruption)).tail ∧
      consumed.countP (·.isInterruption) = (replies.takeWhile (·.isInterruption)).length := by
  induction replies with
  | nil => exact ⟨[], rfl, rfl⟩
  | cons r later ih =>
    cases hr : r.isInterruption with
    | true =>
      obtain ⟨consumed, hl, hc⟩ := ih
      refine ⟨r :: consumed, ?_, ?_⟩
      · simpa [hr] using hl
      · simp [hr, hc]
    | false => exact ⟨[r], by simp [hr], by simp [hr]⟩

end WriteReply

namespace Output

open WriteReply (deciding)

/-- Write every unit, also behind one that was refused. -/
def appendEach {δ : Type} [UnitDevice δ] (o : Output δ) :
    List UInt8 → Turn (Output δ) (List (Except Failure Unit))
  | [] => { answer := [], next := o }
  | b :: rest =>
    let turn := o.append b
    let later := turn.next.appendEach rest
    { answer := turn.answer :: later.answer
      next := later.next
      events := turn.events ++ later.events }

/-- The units that were accepted, in the order of the calls. -/
def accepted (units : List UInt8) (answers : List (Except Failure Unit)) : List UInt8 :=
  ((units.zip answers).filter (·.2.isOk)).map (·.1)

theorem accepted_append (units later : List UInt8) (answers rest : List (Except Failure Unit))
    (h : units.length = answers.length) :
    accepted (units ++ later) (answers ++ rest) =
      accepted units answers ++ accepted later rest := by
  simp [accepted, List.zip_append h]

/-- The reply that decides about a unit decides what the output does with it. -/
theorem append_scripted (o : Output ScriptedDevice) (b : UInt8) :
    o.append b =
      match (deciding o.device.replies.toList).refusal? with
      | none => { answer := .ok (), next := ⟨(UnitDevice.settle o.device b).2, o.written + 1⟩ }
      | some f => { o with device := (UnitDevice.settle o.device b).2 }.reject f := by
  have ha := (ScriptedDevice.decides (d := o.device) rfl b).answer
  rcases hs : UnitDevice.settle o.device b with ⟨answer, device⟩
  rw [hs] at ha
  simp only at ha
  subst ha
  cases hr : deciding o.device.replies.toList with
  | all => simp [append, hs, hr, WriteReply.answer, WriteReply.refusal?]
  | claim n => cases n <;> simp [append, hs, hr, WriteReply.answer, WriteReply.refusal?]
  | fault f => simp [append, hs, hr, WriteReply.answer, WriteReply.refusal?]

/-- What one unit does to an output over a scripted device. -/
structure Appended (o : Output ScriptedDevice) (b : UInt8) : Prop where
  answer : (o.append b).answer = (deciding o.device.replies.toList).verdict o.written
  written : (o.append b).next.written =
    o.written + if (o.append b).answer.isOk then 1 else 0
  stored : (o.append b).next.device.stored.toList =
    o.device.stored.toList ++ accepted [b] [(o.append b).answer]
  device : (o.append b).next.device = (UnitDevice.settle o.device b).2

theorem appended (o : Output ScriptedDevice) (b : UInt8) : o.Appended b := by
  have hd := ScriptedDevice.decides (d := o.device) rfl b
  have hk := hd.stored
  rw [WriteReply.kept_answer] at hk
  have hu := append_scripted o b
  cases hr : (deciding o.device.replies.toList).refusal? with
  | none =>
    simp only [hr, Option.isSome_none, Bool.false_eq_true, if_false] at hu hk
    constructor
    · rw [hu, WriteReply.verdict, hr]
    · rw [hu]
      rfl
    · rw [hu]
      simp [hk, accepted, Except.isOk, Except.toBool]
    · rw [hu]
  | some f =>
    simp only [hr, Option.isSome_some, if_true] at hu hk
    constructor
    · rw [hu, WriteReply.verdict, hr]
      rfl
    · rw [hu]
      rfl
    · rw [hu]
      simp [reject, hk, accepted, Except.isOk, Except.toBool]
    · rw [hu]
      rfl

/-- One unit takes one reply away from those that decide. -/
theorem decisions_append (o : Output ScriptedDevice) (b : UInt8) :
    (o.append b).next.device.decisions = o.device.decisions.tail := by
  have hd := ScriptedDevice.decides (d := o.device) rfl b
  rw [ScriptedDevice.decisions, (appended o b).device, hd.left, WriteReply.decisions_left]
  rfl

/-- What a row of units has done to an output, told from where the output began. -/
structure Account (o : Output ScriptedDevice) (units : List UInt8)
    (turn : Turn (Output ScriptedDevice) (List (Except Failure Unit))) : Prop where
  length : turn.answer.length = units.length
  answer : ∀ i < units.length, turn.answer[i]? =
    some ((o.device.decisions[i]?.getD .all).verdict
      (o.written + (turn.answer.take i).countP (·.isOk)))
  written : turn.next.written = o.written + turn.answer.countP (·.isOk)
  stored : turn.next.device.stored.toList =
    o.device.stored.toList ++ accepted units turn.answer
  calls : ∃ consumed, o.device.replies.toList = consumed ++ turn.next.device.replies.toList ∧
    turn.next.device.writeCalls =
      o.device.writeCalls + units.length + consumed.countP (·.isInterruption)
  flushes : turn.next.device.flushes = o.device.flushes
  flushCalls : turn.next.device.flushCalls = o.device.flushCalls

theorem account_nil (o : Output ScriptedDevice) : o.Account [] (o.appendEach []) := by
  constructor
  · rfl
  · intro i hi
    simp at hi
  · simp [appendEach]
  · simp [appendEach, accepted]
  · exact ⟨[], rfl, rfl⟩
  · rfl
  · rfl

/-- A unit in front shifts the replies, and the counts if it is accepted. -/
theorem account_cons {o : Output ScriptedDevice} {b : UInt8} {rest : List UInt8}
    (hr : (o.append b).next.Account rest ((o.append b).next.appendEach rest)) :
    o.Account (b :: rest) (o.appendEach (b :: rest)) := by
  have hd := ScriptedDevice.decides (d := o.device) rfl b
  have ha := appended o b
  constructor
  · simp [appendEach, hr.length]
  · intro i hi
    cases i with
    | zero =>
      rw [List.take_zero, List.countP_nil, Nat.add_zero, ← ScriptedDevice.deciding_eq]
      exact congrArg some ha.answer
    | succ i =>
      have hi' : i < rest.length := by simpa using hi
      simp only [appendEach, List.getElem?_cons_succ, List.take_succ_cons, List.countP_cons,
        hr.answer i hi', decisions_append, ha.written, List.getElem?_tail]
      congr 2
      omega
  · simp only [appendEach, hr.written, ha.written, List.countP_cons]
    omega
  · simp only [appendEach, hr.stored, ha.stored, List.append_assoc]
    congr 1
    exact (accepted_append [b] rest [(o.append b).answer] _ rfl).symm
  · obtain ⟨first, hf, hc⟩ := WriteReply.exists_consumed o.device.replies.toList
    obtain ⟨later, hl, hw⟩ := hr.calls
    refine ⟨first ++ later, ?_, ?_⟩
    · rw [List.append_assoc]
      change _ = first ++ (later ++ ((o.append b).next.appendEach rest).next.device.replies.toList)
      rw [← hl, ha.device, hd.left]
      exact hf
    · change ((o.append b).next.appendEach rest).next.device.writeCalls = _
      rw [hw, ha.device, hd.calls, List.countP_append, hc, List.length_cons]
      omega
  · exact hr.flushes.trans (by rw [ha.device, hd.flushes])
  · exact hr.flushCalls.trans (by rw [ha.device, hd.flushCalls])

theorem appendEach_account (o : Output ScriptedDevice) (units : List UInt8) :
    o.Account units (o.appendEach units) := by
  induction units generalizing o with
  | nil => exact account_nil o
  | cons b rest ih => exact account_cons (ih (o.append b).next)

/-- Closing asks the device for one flush and writes nothing. -/
structure Closed (o : Output ScriptedDevice) : Prop where
  answer : o.close.answer =
    match o.device.flushes.toList with
    | [] => .ok ()
    | f :: _ => .error (.writing o.written f)
  written : o.close.next.written = o.written
  stored : o.close.next.device.stored = o.device.stored
  writeCalls : o.close.next.device.writeCalls = o.device.writeCalls
  flushCalls : o.close.next.device.flushCalls = o.device.flushCalls + 1

theorem closed (o : Output ScriptedDevice) : o.Closed := by
  cases hf : o.device.flushes.toList with
  | nil =>
    have hu : UnitDevice.flush o.device =
        (none, { o.device with flushCalls := o.device.flushCalls + 1 }) := by
      change o.device.flush = _
      simp [ScriptedDevice.flush, Script.next?_of_nil hf]
    constructor <;> simp [close, hu, hf]
  | cons f later =>
    obtain ⟨flushes, _, hn⟩ := Script.next?_of_cons hf
    have hu : UnitDevice.flush o.device =
        (some f, { o.device with flushes, flushCalls := o.device.flushCalls + 1 }) := by
      change o.device.flush = _
      simp [ScriptedDevice.flush, hn]
    constructor <;> simp [close, hu, hf, reject]

/-- A unit fails exactly when the device takes nothing or has a fault that is no
interruption. -/
theorem append_eq_error_iff (o : Output ScriptedDevice) (b : UInt8) (failure : Failure) :
    (o.append b).answer = .error failure ↔ ∃ f, failure = .writing o.written f ∧
      (deciding o.device.replies.toList = .claim 0 ∧ f = refusal ∨
        deciding o.device.replies.toList = .fault f) := by
  rw [(appended o b).answer]
  cases deciding o.device.replies.toList with
  | all => simp [WriteReply.verdict, WriteReply.refusal?]
  | claim n =>
    cases n with
    | zero => simp [WriteReply.verdict, WriteReply.refusal?, eq_comm]
    | succ n => simp [WriteReply.verdict, WriteReply.refusal?]
  | fault f => simp [WriteReply.verdict, WriteReply.refusal?, eq_comm]

/-- Any row of units offered to a fresh output, then one more unit, or the end. -/
theorem appendEach_scripted (writes : Script WriteReply) (flushes : Script Fault)
    (units : List UInt8) :
    let decisions := writes.toList.filter (!·.isInterruption)
    let turn := (Output.mk ({ replies := writes, flushes } : ScriptedDevice) 0).appendEach units
    let o := turn.next
    turn.answer.length = units.length ∧
    o.written = turn.answer.countP (·.isOk) ∧
    o.device.stored.toList = accepted units turn.answer ∧
    -- the unit with number i meets the i-th reply that is no interruption
    (∀ i < units.length, turn.answer[i]? =
      some ((decisions[i]?.getD .all).verdict ((turn.answer.take i).countP (·.isOk)))) ∧
    (∃ consumed, writes.toList = consumed ++ o.device.replies.toList ∧
      o.device.writeCalls = turn.answer.countP (·.isOk) + turn.answer.countP (!·.isOk) +
        consumed.countP (·.isInterruption)) ∧
    (turn.answer.countP (·.isOk) < UInt64.size →
      (wordCount (·.isOk) 0 turn.answer).toNat = o.written) ∧
    refusal.kind = .writeZero ∧
    (∀ b failure, (o.append b).answer = .error failure ↔ ∃ f, failure = .writing o.written f ∧
      (deciding o.device.replies.toList = .claim 0 ∧ f = refusal ∨
        deciding o.device.replies.toList = .fault f)) ∧
    (∀ b failure, (o.append b).answer = .error failure →
      (o.append b).next.written = o.written ∧
      (o.append b).next.device.stored = o.device.stored) ∧
    o.close.answer = (match flushes.toList with
      | [] => .ok ()
      | f :: _ => .error (.writing o.written f)) ∧
    o.close.next.written = o.written ∧
    o.close.next.device.stored = o.device.stored ∧
    o.close.next.device.writeCalls = o.device.writeCalls ∧
    o.device.flushCalls = 0 ∧ o.close.next.device.flushCalls = 1 := by
  intro decisions turn o
  have ha := appendEach_account (Output.mk { replies := writes, flushes } 0) units
  have hc := closed o
  have hw : o.written = turn.answer.countP (·.isOk) := by simpa using ha.written
  refine ⟨ha.length, hw, by simpa using ha.stored, ?_, ?_, ?_, rfl, append_eq_error_iff o, ?_,
    ?_, hc.written, hc.stored, hc.writeCalls, ha.flushCalls, ?_⟩
  · intro i hi
    have hi' := ha.answer i hi
    rw [Nat.zero_add] at hi'
    exact hi'
  · obtain ⟨consumed, hl, hcalls⟩ := ha.calls
    refine ⟨consumed, hl, ?_⟩
    have hsum := List.length_eq_countP_add_countP (·.isOk) (l := turn.answer)
    simp only [Bool.not_eq_true, Bool.decide_eq_false] at hsum
    change o.device.writeCalls = 0 + units.length + _ at hcalls
    rw [hcalls, ← hsum, ha.length, Nat.zero_add]
  · intro hlt
    rw [hw, toNat_wordCount_zero _ hlt]
  · intro b failure hb
    have hn := appended o b
    refine ⟨?_, ?_⟩
    · simpa [hb, Except.isOk, Except.toBool] using hn.written
    · apply Array.toList_inj.1
      simpa [hb, accepted, Except.isOk, Except.toBool] using hn.stored
  · rw [hc.answer, ha.flushes]
  · rw [hc.flushCalls, ha.flushCalls]

end Output
end ConfinedRelay
