import ConfinedRelay.Proofs.Reads
import ConfinedRelay.Transfer

/-!
A transfer takes turns at reading and writing. Its outcome is that of an output to
which the whole supply of the source is given at once: the units are written up to the
first refusal, and only when there is none does the end of the supply count. So two
sources with one supply are transferred alike.
-/
namespace ConfinedRelay

/-- What becomes of a transfer whose units were all written. -/
def Supply.outcome (s : Supply) (path : String) : Except Failure Unit :=
  match s.fault with
  | none => .ok ()
  | some f => .error (.reading path s.units.length f)

/-- The event of an answer, which is only reported if it is a failure. -/
def Event.ofAnswer {α : Type} : Except Failure α → List Event
  | .error failure => [ofFailure failure]
  | .ok _ => []

namespace Output

variable {δ : Type} [UnitDevice δ]

theorem appendAll_of_rejected {o : Output δ} {b : UInt8} {failure : Failure}
    (h : (o.append b).answer = .error failure) (rest : List UInt8) :
    o.appendAll (b :: rest) = { o.append b with answer := ⟨0, some failure⟩ } := by
  simp [appendAll, h]

theorem appendAll_of_accepted {o : Output δ} {b : UInt8} (h : (o.append b).answer = .ok ())
    (rest : List UInt8) :
    o.appendAll (b :: rest) =
      let later := (o.append b).next.appendAll rest
      { answer := ⟨later.answer.accepted + 1, later.answer.failure⟩
        next := later.next
        events := (o.append b).events ++ later.events } := by
  simp [appendAll, h]

theorem writing_of_append {o : Output δ} {b : UInt8} {failure : Failure}
    (h : (o.append b).answer = .error failure) : ∃ n f, failure = .writing n f := by
  unfold append at h
  split at h
  · exact ⟨_, _, (Except.error.inj h).symm⟩
  · simp at h
  · exact ⟨_, _, (Except.error.inj h).symm⟩

theorem writing_of_close {o : Output δ} {failure : Failure}
    (h : o.close.answer = .error failure) : ∃ n f, failure = .writing n f := by
  unfold close at h
  split at h
  · simp at h
  · exact ⟨_, _, (Except.error.inj h).symm⟩

theorem writing_of_appendAll {o : Output δ} {units : List UInt8} {failure : Failure}
    (h : (o.appendAll units).answer.failure = some failure) :
    ∃ n f, failure = .writing n f := by
  induction units generalizing o with
  | nil => simp [appendAll] at h
  | cons b rest ih =>
    cases hw : (o.append b).answer with
    | error refused =>
      rw [appendAll_of_rejected hw] at h
      obtain rfl := Option.some.inj h
      exact writing_of_append hw
    | ok u =>
      rw [appendAll_of_accepted hw] at h
      exact ih h

/-- An append reports just its failure. -/
theorem events_append (o : Output δ) (b : UInt8) :
    (o.append b).events = Event.ofAnswer (o.append b).answer := by
  unfold append
  split <;> rfl

theorem events_close (o : Output δ) : o.close.events = Event.ofAnswer o.close.answer := by
  unfold close
  split <;> rfl

theorem events_appendAll (o : Output δ) (units : List UInt8) :
    (o.appendAll units).events = (o.appendAll units).answer.failure.toList.map Event.ofFailure := by
  induction units generalizing o with
  | nil => rfl
  | cons b rest ih =>
    have he := events_append o b
    cases hw : (o.append b).answer with
    | error failure =>
      rw [appendAll_of_rejected hw, he, hw]
      rfl
    | ok u =>
      rw [hw] at he
      rw [appendAll_of_accepted hw, he]
      exact ih _

/-- Take a whole supply: write its units, and close behind the last one. -/
def receive (o : Output δ) (path : String) (s : Supply) :
    Turn (Output δ) (Except Failure Report) :=
  let writing := o.appendAll s.units
  match writing.answer.failure, s.fault with
  | some failure, _ => { writing with answer := .error failure }
  | none, some f =>
    { answer := .error (.reading path s.units.length f)
      next := writing.next
      events := writing.events ++ s.reports path }
  | none, none =>
    let closing := writing.next.close
    match closing.answer with
    | .error failure =>
      { answer := .error failure
        next := closing.next
        events := writing.events ++ closing.events }
    | .ok () =>
      { answer := .ok ⟨writing.next.written⟩
        next := closing.next
        events := writing.events ++ closing.events ++
          [.completed path writing.next.written] }

section Receive

variable {o : Output δ} {s : Supply}

theorem receive_of_refused (path : String) {failure : Failure}
    (hw : (o.appendAll s.units).answer.failure = some failure) :
    o.receive path s = { o.appendAll s.units with answer := .error failure } := by
  simp [receive, hw]

theorem receive_of_fault (path : String) {f : Fault}
    (hw : (o.appendAll s.units).answer.failure = none) (hf : s.fault = some f) :
    o.receive path s =
      { answer := .error (.reading path s.units.length f)
        next := (o.appendAll s.units).next
        events := (o.appendAll s.units).events ++ s.reports path } := by
  simp [receive, hw, hf]

theorem receive_of_unclosed (path : String) {failure : Failure}
    (hw : (o.appendAll s.units).answer.failure = none) (hf : s.fault = none)
    (hc : (o.appendAll s.units).next.close.answer = .error failure) :
    o.receive path s =
      { answer := .error failure
        next := (o.appendAll s.units).next.close.next
        events := (o.appendAll s.units).events ++ (o.appendAll s.units).next.close.events } := by
  simp [receive, hw, hf, hc]

theorem receive_of_closed (path : String)
    (hw : (o.appendAll s.units).answer.failure = none) (hf : s.fault = none)
    (hc : (o.appendAll s.units).next.close.answer = .ok ()) :
    o.receive path s =
      { answer := .ok ⟨(o.appendAll s.units).next.written⟩
        next := (o.appendAll s.units).next.close.next
        events := (o.appendAll s.units).events ++ (o.appendAll s.units).next.close.events ++
          [.completed path (o.appendAll s.units).next.written] } := by
  simp [receive, hw, hf, hc]

/-- What could be opened is never said to be unopened. -/
theorem receive_ne_opening (o : Output δ) (path : String) (s : Supply) (p : String) (f : Fault) :
    (o.receive path s).answer ≠ .error (.opening p f) := by
  intro h
  cases hw : (o.appendAll s.units).answer.failure with
  | some failure =>
    obtain ⟨n, g, rfl⟩ := writing_of_appendAll hw
    simp [receive_of_refused path hw] at h
  | none =>
    cases hf : s.fault with
    | some g => simp [receive_of_fault path hw hf] at h
    | none =>
      cases hc : (o.appendAll s.units).next.close.answer with
      | error failure =>
        obtain ⟨n, g, rfl⟩ := writing_of_close hc
        simp [receive_of_unclosed path hw hf hc] at h
      | ok u => simp [receive_of_closed path hw hf hc] at h

end Receive

end Output

theorem Handle.reads_succ_next {σ : Type} [ByteSource σ] (h : Handle σ) (n : Nat) :
    (h.reads (n + 1)).next = (h.nextUnit.next.reads n).next := by
  induction n with
  | zero => rfl
  | succ n ih => exact congrArg (·.nextUnit.next) ih

namespace Transfer

open ByteSource (supply)

variable {σ δ : Type} [ByteSource σ] [UnitDevice δ]

/-- Where copying leads when these units and the end of the supply are to come. -/
structure Copied (path : String) (s : Supply) (units : List UInt8) (h : Handle σ)
    (o : Output δ) : Prop where
  answer : (copy ⟨h, o⟩).answer =
    match (o.appendAll units).answer.failure with
    | some failure => .error failure
    | none => s.outcome path
  handle : (copy ⟨h, o⟩).next.handle =
    (h.reads ((o.appendAll units).answer.accepted + 1)).next
  output : (copy ⟨h, o⟩).next.output = (o.appendAll units).next
  events : (copy ⟨h, o⟩).events = (o.appendAll units).events ++
    match (o.appendAll units).answer.failure with
    | some _ => []
    | none => s.reports path

theorem copied_nil {path : String} {s : σ} {n : Nat} {h : Handle σ}
    (hr : h.HasRead path s n) (hn : n = (supply s).units.length) (o : Output δ) :
    Copied path (supply s) [] h o := by
  have hread := Handle.reading_of_eq hr hn
  have ha := hread.answer
  have he := hread.events
  rw [Supply.answer, List.getElem?_eq_none (Nat.le_of_eq hn.symm), Supply.conclusion] at ha
  rw [if_pos hn] at he
  have hc : copy ⟨h, o⟩ =
      { answer := (supply s).outcome path
        next := ⟨h.nextUnit.next, o⟩
        events := (supply s).reports path } := by
    rw [← he]
    cases hf : (supply s).fault with
    | none =>
      rw [hf] at ha
      rw [copy_of_ended ha, Supply.outcome, hf]
    | some f =>
      rw [hf] at ha
      rw [copy_of_failed ha, Supply.outcome, hf]
  constructor <;> rw [hc] <;> rfl

/-- The induction is on the units to come; each of them costs one read and one write. -/
theorem copied {path : String} {s : σ} {n : Nat} {h : Handle σ} {units : List UInt8}
    (hr : h.HasRead path s n) (hn : n ≤ (supply s).units.length)
    (hu : (supply s).units.drop n = units) (o : Output δ) :
    Copied path (supply s) units h o := by
  induction units generalizing n h o with
  | nil => exact copied_nil hr (Nat.le_antisymm hn (List.drop_eq_nil_iff.1 hu)) o
  | cons b rest ih =>
    have hlt : n < (supply s).units.length := by
      have hlen := congrArg List.length hu
      simp only [List.length_drop, List.length_cons] at hlen
      omega
    rw [List.drop_eq_getElem_cons hlt] at hu
    obtain ⟨rfl, hrest⟩ := List.cons.inj hu
    have hread := Handle.reading_of_lt hr hlt
    have ha := hread.answer
    have he := hread.events
    rw [Supply.answer, List.getElem?_eq_getElem hlt] at ha
    rw [if_neg (Nat.ne_of_lt hlt)] at he
    cases hw : (o.append (supply s).units[n]).answer with
    | error failure =>
      have hc := copy_of_rejected (t := ⟨h, o⟩) ha hw
      have hl := Output.appendAll_of_rejected hw rest
      constructor
      · rw [hc, hl]
      · rw [hc, hl]
        rfl
      · rw [hc, hl]
      · simp [hc, hl, he]
    | ok u =>
      have hc := copy_of_accepted (t := ⟨h, o⟩) ha hw
      have hl := Output.appendAll_of_accepted hw rest
      have hn := ih hread.next hlt hrest (o.append (supply s).units[n]).next
      constructor
      · rw [hc, hl]
        exact hn.answer
      · rw [hc, hl, Handle.reads_succ_next]
        exact hn.handle
      · rw [hc, hl]
        exact hn.output
      · rw [hc, hl]
        simp [he, hn.events]

/-- What a transfer from a fresh handle shares with the reception of its supply. -/
structure Received (path : String) (s : σ) (o : Output δ) : Prop where
  answer : (run ⟨⟨path, s, 0, .streaming⟩, o⟩).answer = (o.receive path (supply s)).answer
  output : (run ⟨⟨path, s, 0, .streaming⟩, o⟩).next.output = (o.receive path (supply s)).next
  events : (run ⟨⟨path, s, 0, .streaming⟩, o⟩).events = (o.receive path (supply s)).events
  handle : (run ⟨⟨path, s, 0, .streaming⟩, o⟩).next.handle =
    ((Handle.mk path s 0 .streaming).reads
      ((o.appendAll (supply s).units).answer.accepted + 1)).next

theorem received (path : String) (s : σ) (o : Output δ) : Received path s o := by
  obtain ⟨ha, hh, ho, he⟩ := copied (Handle.hasRead_zero path s) (Nat.zero_le _) List.drop_zero o
  cases hw : (o.appendAll (supply s).units).answer.failure with
  | some failure =>
    rw [hw] at ha he
    have hr := Output.receive_of_refused path hw
    constructor
    · simp [run, hr, ha]
    · simp [run, hr, ha, ho]
    · simp [run, hr, ha, he]
    · simp [run, ha, hh]
  | none =>
    rw [hw, Supply.outcome] at ha
    rw [hw] at he
    cases hf : (supply s).fault with
    | some f =>
      rw [hf] at ha
      have hr := Output.receive_of_fault path hw hf
      constructor
      · simp [run, hr, ha]
      · simp [run, hr, ha, ho]
      · simp [run, hr, ha, he]
      · simp [run, ha, hh]
    | none =>
      rw [hf] at ha
      rw [Supply.reports, hf] at he
      cases hc : (o.appendAll (supply s).units).next.close.answer with
      | error failure =>
        have hr := Output.receive_of_unclosed path hw hf hc
        constructor
        · simp [run, hr, ha, ho, hc]
        · simp [run, hr, ha, ho, hc]
        · simp [run, hr, ha, ho, hc, he]
        · simp [run, ha, hh, ho, hc]
      | ok u =>
        have hr := Output.receive_of_closed path hw hf hc
        constructor
        · simp [run, hr, ha, ho, hc]
        · simp [run, hr, ha, ho, hc]
        · simp [run, hr, ha, ho, hc, he]
        · simp [run, ha, hh, ho, hc]

end Transfer
end ConfinedRelay
