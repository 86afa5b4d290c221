import ConfinedRelay.Proofs.ExactConsumption

/-!
Where an interruption counts. A read and a write that are interrupted are made again, so
for both of them a script says the same with interruptions and without. A flush is made
once, and its fault is a failure of whatever kind. An interrupted flush is therefore the one
interruption that a transfer fails with.
-/
namespace ConfinedRelay

/-- The second row is the first one with further answers of a kind put in, anywhere. -/
inductive Interspersed {α : Type} (p : α → Bool) : List α → List α → Prop
  | nil : Interspersed p [] []
  | keep (a : α) {answers more : List α} (h : Interspersed p answers more) :
      Interspersed p (a :: answers) (a :: more)
  | put {a : α} {answers more : List α} (ha : p a = true) (h : Interspersed p answers more) :
      Interspersed p answers (a :: more)

namespace Interspersed

variable {α : Type} {p : α → Bool} {answers more : List α}

theorem filter_eq (h : Interspersed p answers more) :
    more.filter (!p ·) = answers.filter (!p ·) := by
  induction h with
  | nil => rfl
  | keep a _ ih => rw [List.filter_cons, List.filter_cons, ih]
  | put ha _ ih => simp [ha, ih]

theorem head?_cases (h : Interspersed p answers more) :
    more.head? = answers.head? ∨ ∃ a, more.head? = some a ∧ p a = true := by
  cases h with
  | nil => exact .inl rfl
  | keep a _ => exact .inl rfl
  | put ha _ => exact .inr ⟨_, rfl, ha⟩

end Interspersed

namespace Supply

/-- A supply is the same without the interruptions of its replies. -/
theorem ofReplies_filter (replies : List ReadReply) :
    ofReplies (replies.filter (!·.isInterruption)) = ofReplies replies := by
  induction replies with
  | nil => rfl
  | cons r later ih =>
    cases hi : r.isInterruption with
    | true =>
      obtain ⟨hf, hu⟩ := ReadReply.passed_of_interruption hi
      rw [ofReplies_of_passed later hf hu, List.filter_cons_of_neg (by simp [hi]), ih]
    | false =>
      rw [List.filter_cons_of_pos (by simp [hi])]
      cases hf : r.isFinal with
      | true => rw [ofReplies_of_final _ hf, ofReplies_of_final _ hf]
      | false =>
        cases hu : r.unit? with
        | some b => rw [ofReplies_of_unit _ hu, ofReplies_of_unit _ hu, ih]
        | none => rw [ofReplies_of_passed _ hf hu, ofReplies_of_passed _ hf hu, ih]

theorem not_isInterruption_of_ofReplies {replies : List ReadReply} {f : Fault}
    (h : (ofReplies replies).fault = some f) : ¬ f.IsInterruption := by
  obtain ⟨r, hr, hf⟩ := Option.bind_eq_some_iff.1 h
  have hfinal := List.find?_some hr
  cases r with
  | count n stored => simp [ReadReply.fault?] at hf
  | fault g =>
    obtain rfl : g = f := by simpa [ReadReply.fault?] using hf
    simpa using hfinal

end Supply

theorem WriteReply.not_isInterruption_of_refusal {r : WriteReply} {f : Fault}
    (hr : r.isInterruption = false) (h : r.refusal? = some f) : ¬ f.IsInterruption := by
  cases r with
  | all => simp [refusal?] at h
  | claim n =>
    cases n with
    | zero =>
      obtain rfl : Output.refusal = f := by simpa [refusal?] using h
      decide
    | succ n => simp [refusal?] at h
  | fault g =>
    obtain rfl : g = f := by simpa [refusal?] using h
    simpa using hr

/-- Where no reply is an interruption, the first refusal is none. -/
theorem not_isInterruption_of_firstRefusal {replies : List WriteReply} {k : Nat} {f : Fault}
    (hr : ∀ r ∈ replies, r.isInterruption = false) (h : firstRefusal replies = some (k, f)) :
    ¬ f.IsInterruption := by
  induction replies generalizing k with
  | nil => simp [firstRefusal] at h
  | cons r later ih =>
    cases hf : r.refusal? with
    | some g =>
      rw [firstRefusal_of_refused later hf] at h
      obtain ⟨-, rfl⟩ := Prod.mk.inj (Option.some.inj h)
      exact r.not_isInterruption_of_refusal (hr r List.mem_cons_self) hf
    | none =>
      rw [firstRefusal_of_accepted later hf] at h
      obtain ⟨⟨j, g⟩, hlater, heq⟩ := Option.map_eq_some_iff.1 h
      obtain ⟨-, rfl⟩ := Prod.mk.inj heq
      exact ih (fun q hq => hr q (List.mem_cons_of_mem r hq)) hlater

namespace Upshot

/-- What the flush makes of a transfer that comes to it. -/
def flushed (units : List UInt8) (flushes : List Fault) : Upshot :=
  match flushes.head? with
  | some f => ⟨.error (.writing units.length f), units, 1⟩
  | none => ⟨.ok ⟨units.length⟩, units, 1⟩

/-- A transfer fails in front of the flush, with no interruption, or it comes to it. -/
theorem ofSupply_cases (path : String) {s : Supply} (writes : List WriteReply)
    (hs : ∀ f, s.fault = some f → ¬ f.IsInterruption) :
    (∃ failure stored, ¬ failure.fault.IsInterruption ∧
      ∀ flushes, ofSupply path s writes flushes = ⟨.error failure, stored, 0⟩) ∨
    ∀ flushes, ofSupply path s writes flushes = flushed s.units flushes := by
  cases hr : firstRefusal ((writes.filter (!·.isInterruption)).take s.units.length) with
  | some p =>
    refine .inl ⟨.writing p.1 p.2, s.units.take p.1, ?_, fun flushes => by simp [ofSupply, hr]⟩
    apply not_isInterruption_of_firstRefusal ?_ hr
    intro r hm
    simpa using (List.mem_filter.1 (List.mem_of_mem_take hm)).2
  | none =>
    cases hf : s.fault with
    | some f =>
      refine .inl ⟨.reading path s.units.length f, s.units, hs f hf, fun flushes => ?_⟩
      simp [ofSupply, hr, hf]
    | none =>
      refine .inr fun flushes => ?_
      cases flushes <;> simp [ofSupply, hr, hf, flushed]

section Answers

variable {s : Supply} (hs : ∀ f, s.fault = some f → ¬ f.IsInterruption)
include hs

theorem interrupted_iff (path : String) (writes : List WriteReply) (flushes : List Fault)
    (failure : Failure) :
    (ofSupply path s writes flushes).answer = .error failure ∧ failure.fault.IsInterruption ↔
      (ofSupply path s writes flushes).flushCalls = 1 ∧ ∃ f, flushes.head? = some f ∧
        f.IsInterruption ∧ failure = .writing s.units.length f := by
  obtain ⟨refused, stored, hn, hu⟩ | hu := ofSupply_cases path writes hs
  · rw [hu]
    constructor
    · rintro ⟨he, hi⟩
      obtain rfl := Except.error.inj he
      exact absurd hi hn
    · rintro ⟨hcalls, -⟩
      exact absurd hcalls Nat.zero_ne_one
  · rw [hu, flushed]
    cases flushes.head? with
    | none => simp
    | some f =>
      constructor
      · rintro ⟨he, hi⟩
        obtain rfl := Except.error.inj he
        exact ⟨rfl, f, rfl, hi, rfl⟩
      · rintro ⟨-, g, hg, hi, rfl⟩
        obtain rfl := Option.some.inj hg
        exact ⟨rfl, hi⟩

theorem ofSupply_interspersed (path : String) {writes writes' : List WriteReply}
    {flushes flushes' : List Fault} (hw : Interspersed WriteReply.isInterruption writes writes')
    (hf : Interspersed (decide ·.IsInterruption) flushes flushes') :
    let u := ofSupply path s writes flushes
    let v := ofSupply path s writes' flushes'
    v.stored = u.stored ∧ v.flushCalls = u.flushCalls ∧
      (v.answer = u.answer ∨
        u.flushCalls = 1 ∧ ∃ f, flushes'.head? = some f ∧ f.IsInterruption ∧
          v.answer = .error (.writing s.units.length f)) := by
  intro u v
  -- the replies to the writes say the same, so only those to the flush can differ
  have hv : v = ofSupply path s writes flushes' := by simp only [v, ofSupply, hw.filter_eq]
  obtain ⟨refused, stored, -, hu⟩ | hu := ofSupply_cases path writes hs
  · rw [hv.trans (hu flushes'), show u = _ from hu flushes]
    exact ⟨rfl, rfl, .inl rfl⟩
  · rw [hv.trans (hu flushes'), show u = _ from hu flushes, flushed, flushed]
    obtain hhead | ⟨f, hhead, hi⟩ := hf.head?_cases
    · rw [hhead]
      exact ⟨rfl, rfl, .inl rfl⟩
    · rw [hhead]
      cases flushes.head? <;> exact ⟨rfl, rfl, .inr ⟨rfl, f, rfl, by simpa using hi, rfl⟩⟩

end Answers

end Upshot

namespace Transfer

variable (path : String) (reads : Script ReadReply) (writes : Script WriteReply)
  (flushes : Script Fault)

/-- Only an interrupted flush makes a transfer fail with an interruption. Wherever further
interruptions are put in, the same bytes are stored, and the answer is the same one unless
the flush is interrupted. -/
theorem run_interrupted :
    let units := (Supply.ofReplies reads.toList).units
    let turn := (scripted path reads writes flushes).run
    let device := turn.next.output.device
    (∀ failure, turn.answer = .error failure ∧ failure.fault.IsInterruption ↔
      device.flushCalls = 1 ∧ ∃ f, flushes.toList.head? = some f ∧ f.IsInterruption ∧
        failure = .writing units.length f) ∧
    ∀ reads' writes' flushes',
      Interspersed ReadReply.isInterruption reads.toList reads'.toList →
      Interspersed WriteReply.isInterruption writes.toList writes'.toList →
      Interspersed (decide ·.IsInterruption) flushes.toList flushes'.toList →
      let other := (scripted path reads' writes' flushes').run
      other.next.output.device.stored = device.stored ∧
      other.next.output.device.flushCalls = device.flushCalls ∧
      (other.answer = turn.answer ∨
        device.flushCalls = 1 ∧ ∃ f, flushes'.toList.head? = some f ∧ f.IsInterruption ∧
          other.answer = .error (.writing units.length f)) := by
  intro units turn device
  have hs (f : Fault) (h : (Supply.ofReplies reads.toList).fault = some f) :=
    Supply.not_isInterruption_of_ofReplies h
  have hseen := seen_scripted path reads writes flushes
  constructor
  · intro failure
    have hi := Upshot.interrupted_iff hs path writes.toList flushes.toList failure
    rw [← hseen] at hi
    exact hi
  · intro reads' writes' flushes' hr hw hf other
    have hother := seen_scripted path reads' writes' flushes'
    have hl := Upshot.ofSupply_interspersed hs path hw hf
    rw [← Supply.ofReplies_filter, hr.filter_eq, Supply.ofReplies_filter] at hother
    rw [← hseen, ← hother] at hl
    obtain ⟨hstored, hcalls, ha⟩ := hl
    exact ⟨Array.toList_inj.1 hstored, hcalls, ha⟩

/-- An interrupted flush fails a transfer that goes well without it. -/
theorem run_fails_with_interruption :
    let reads : Script ReadReply := .ofList [.count 1 (some 104), .count 1 (some 105)]
    let interrupted : Script Fault := .ofList [.plain .interrupted]
    (scripted "in" reads {} {}).run.answer = .ok ⟨2⟩ ∧
      Interspersed (decide ·.IsInterruption) (Script.toList {}) interrupted.toList ∧
      (scripted "in" reads {} interrupted).run.answer =
        .error (.writing 2 (.plain .interrupted)) := by
  intro reads interrupted
  refine ⟨?_, .put rfl .nil, ?_⟩
  · exact congrArg Upshot.answer (seen_scripted "in" reads {} {})
  · exact congrArg Upshot.answer (seen_scripted "in" reads {} interrupted)

end Transfer
end ConfinedRelay
