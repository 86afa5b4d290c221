import ConfinedRelay.Proofs.Appends
import ConfinedRelay.Proofs.Reception

/-!
What a transfer between scripts comes to, told from the scripts alone. The units of the
source meet the deciding replies of the device one by one. The first refusal among these
ends the transfer; otherwise the end of the source does, and after a good end the flush.
-/
namespace ConfinedRelay

/-- The first reply that refuses, counted from zero, and its fault. -/
def firstRefusal : List WriteReply → Option (Nat × Fault)
  | [] => none
  | r :: later =>
    match r.refusal? with
    | some f => some (0, f)
    | none => (firstRefusal later).map fun p => (p.1 + 1, p.2)

theorem firstRefusal_of_refused {r : WriteReply} {f : Fault} (later : List WriteReply)
    (h : r.refusal? = some f) : firstRefusal (r :: later) = some (0, f) := by
  simp [firstRefusal, h]

theorem firstRefusal_of_accepted {r : WriteReply} (later : List WriteReply)
    (h : r.refusal? = none) :
    firstRefusal (r :: later) = (firstRefusal later).map fun p => (p.1 + 1, p.2) := by
  simp [firstRefusal, h]

theorem firstRefusal_eq_none {replies : List WriteReply}
    (h : ∀ r ∈ replies, r.refusal? = none) : firstRefusal replies = none := by
  induction replies with
  | nil => rfl
  | cons r later ih =>
    rw [firstRefusal_of_accepted later (h r List.mem_cons_self),
      ih fun q hq => h q (List.mem_cons_of_mem r hq)]
    rfl

/-- What is seen of a transfer from outside. -/
structure Upshot where
  answer : Except Failure Report
  stored : List UInt8
  flushCalls : Nat

namespace Upshot

/-- The upshot foretold from a supply and from what the device has in store. -/
def ofSupply (path : String) (s : Supply) (writes : List WriteReply) (flushes : List Fault) :
    Upshot :=
  let met := (writes.filter (!·.isInterruption)).take s.units.length
  match firstRefusal met with
  | some (k, f) => ⟨.error (.writing k f), s.units.take k, 0⟩
  | none =>
    match s.fault, flushes with
    | some f, _ => ⟨.error (.reading path s.units.length f), s.units, 0⟩
    | none, f :: _ => ⟨.error (.writing s.units.length f), s.units, 1⟩
    | none, [] => ⟨.ok ⟨s.units.length⟩, s.units, 1⟩

theorem ofSupply_of_accepting (path : String) (units : List UInt8) {writes : List WriteReply}
    (h : ∀ r ∈ writes, r.isInterruption ∨ r.refusal? = none) :
    ofSupply path { units } writes [] = ⟨.ok ⟨units.length⟩, units, 1⟩ := by
  have hr : firstRefusal ((writes.filter (!·.isInterruption)).take units.length) = none := by
    apply firstRefusal_eq_none
    intro r hm
    obtain ⟨hw, hi⟩ := List.mem_filter.1 (List.mem_of_mem_take hm)
    cases h r hw with
    | inl hinterrupted => simp [hinterrupted] at hi
    | inr hkept => exact hkept
  simp [ofSupply, hr]

/-- The upshot that is seen. -/
def seen (answer : Except Failure Report) (d : ScriptedDevice) : Upshot :=
  ⟨answer, d.stored.toList, d.flushCalls⟩

end Upshot

namespace Output

open WriteReply (deciding)

/-- How far a scripted device takes a row of units. -/
structure Taken (o : Output ScriptedDevice) (units : List UInt8)
    (refused : Option (Nat × Fault)) : Prop where
  accepted : (o.appendAll units).answer.accepted = (refused.map (·.1)).getD units.length
  failure : (o.appendAll units).answer.failure =
    refused.map fun p => .writing (o.written + p.1) p.2
  written : (o.appendAll units).next.written =
    o.written + (o.appendAll units).answer.accepted
  stored : (o.appendAll units).next.device.stored.toList =
    o.device.stored.toList ++ units.take (o.appendAll units).answer.accepted
  flushes : (o.appendAll units).next.device.flushes = o.device.flushes
  flushCalls : (o.appendAll units).next.device.flushCalls = o.device.flushCalls

/-- A refused unit is the last one that is offered. -/
theorem taken_of_refused {o : Output ScriptedDevice} {b : UInt8} {f : Fault} (rest : List UInt8)
    (hf : (deciding o.device.replies.toList).refusal? = some f) :
    o.Taken (b :: rest) (some (0, f)) := by
  have hd := ScriptedDevice.decides (d := o.device) rfl b
  have hn := appended o b
  have ha := hn.answer
  rw [WriteReply.verdict, hf] at ha
  have hw := hn.written
  have hs := hn.stored
  rw [ha] at hw hs
  have hl := appendAll_of_rejected ha rest
  constructor
  · simp [hl]
  · simp [hl]
  · rw [hl]
    exact hw
  · rw [hl]
    exact hs
  · rw [hl, hn.device, hd.flushes]
  · rw [hl, hn.device, hd.flushCalls]

/-- An accepted unit stands before those that follow it. -/
theorem taken_of_accepted {o : Output ScriptedDevice} {b : UInt8} {rest : List UInt8}
    {refused : Option (Nat × Fault)} (hf : (deciding o.device.replies.toList).refusal? = none)
    (hr : (o.append b).next.Taken rest refused) :
    o.Taken (b :: rest) (refused.map fun p => (p.1 + 1, p.2)) := by
  have hd := ScriptedDevice.decides (d := o.device) rfl b
  have hn := appended o b
  have ha := hn.answer
  rw [WriteReply.verdict, hf] at ha
  have hw : (o.append b).next.written = o.written + 1 := by
    rw [hn.written, ha]
    rfl
  have hs : (o.append b).next.device.stored.toList = o.device.stored.toList ++ [b] := by
    rw [hn.stored, ha]
    rfl
  have hl := appendAll_of_accepted ha rest
  constructor
  · simp only [hl, hr.accepted]
    cases refused <;> rfl
  · simp only [hl, hr.failure, hw]
    cases refused with
    | none => rfl
    | some p =>
      simp only [Option.map_some]
      congr 2
      omega
  · simp only [hl, hr.written, hw]
    omega
  · simp only [hl, hr.stored, hs, List.take_succ_cons, List.append_assoc, List.singleton_append]
  · simp only [hl, hr.flushes, hn.device, hd.flushes]
  · simp only [hl, hr.flushCalls, hn.device, hd.flushCalls]

theorem taken (o : Output ScriptedDevice) (units : List UInt8) :
    o.Taken units (firstRefusal (o.device.decisions.take units.length)) := by
  induction units generalizing o with
  | nil => constructor <;> simp [appendAll, firstRefusal]
  | cons b rest ih =>
    have hr := ih (o.append b).next
    have hz := o.device.deciding_eq
    rw [decisions_append] at hr
    cases hd : o.device.decisions with
    | nil =>
      rw [hd] at hz hr
      simpa [firstRefusal] using taken_of_accepted (by rw [hz]; rfl) hr
    | cons r later =>
      rw [hd] at hz hr
      rw [List.length_cons, List.take_succ_cons]
      cases hf : r.refusal? with
      | none =>
        rw [firstRefusal_of_accepted _ hf]
        exact taken_of_accepted (by rw [hz]; exact hf) hr
      | some f =>
        rw [firstRefusal_of_refused _ hf]
        exact taken_of_refused rest (by rw [hz]; exact hf)

theorem receive_scripted {o : Output ScriptedDevice} (hw : o.written = 0)
    (hs : o.device.stored = #[]) (hn : o.device.flushCalls = 0) (path : String) (s : Supply) :
    Upshot.seen (o.receive path s).answer (o.receive path s).next.device =
      .ofSupply path s o.device.replies.toList o.device.flushes.toList := by
  have ht := taken o s.units
  have hc := closed (o.appendAll s.units).next
  have hwritten := ht.written
  have hstored := ht.stored
  have hflush := ht.flushCalls
  rw [ht.accepted, hw, Nat.zero_add] at hwritten
  rw [ht.accepted, hs, Array.toList_empty, List.nil_append] at hstored
  rw [hn] at hflush
  unfold Upshot.ofSupply
  rw [← ScriptedDevice.decisions]
  cases hr : firstRefusal (o.device.decisions.take s.units.length) with
  | some p =>
    rw [hr] at hstored
    have hf := ht.failure
    simp only [hr, hw, Nat.zero_add, Option.map_some] at hf
    simpa [receive_of_refused path hf, hr, Upshot.seen, hflush] using hstored
  | none =>
    rw [hr, Option.map_none, Option.getD_none] at hwritten hstored
    rw [List.take_length] at hstored
    have hf := ht.failure
    rw [hr, Option.map_none] at hf
    cases hfault : s.fault with
    | some f => simp [receive_of_fault path hf hfault, hr, Upshot.seen, hflush, hstored]
    | none =>
      have ha := hc.answer
      rw [ht.flushes] at ha
      cases hl : o.device.flushes.toList with
      | nil =>
        rw [hl] at ha
        simp [receive_of_closed path hf hfault ha, hr, Upshot.seen, hwritten, hc.stored, hstored,
          hc.flushCalls, hflush]
      | cons f later =>
        rw [hl] at ha
        simp [receive_of_unclosed path hf hfault ha, hr, Upshot.seen, hwritten, hc.stored, hstored,
          hc.flushCalls, hflush]

end Output

namespace Transfer

/-- A transfer between scripts that has not begun. -/
def scripted (path : String) (reads : Script ReadReply) (writes : Script WriteReply)
    (flushes : Script Fault) : Transfer ScriptedSource ScriptedDevice :=
  ⟨⟨path, { replies := reads }, 0, .streaming⟩, ⟨{ replies := writes, flushes }, 0⟩⟩

theorem seen_scripted (path : String) (reads : Script ReadReply) (writes : Script WriteReply)
    (flushes : Script Fault) :
    Upshot.seen (scripted path reads writes flushes).run.answer
        (scripted path reads writes flushes).run.next.output.device =
      .ofSupply path (.ofReplies reads.toList) writes.toList flushes.toList := by
  have hr := received path ({ replies := reads } : ScriptedSource)
    (Output.mk ({ replies := writes, flushes } : ScriptedDevice) 0)
  have hf := ScriptedSource.follows (s := { replies := reads }) rfl
  rw [scripted, hr.answer, hr.output, hf.supply]
  exact Output.receive_scripted rfl rfl rfl path _

/-- A transfer between scripts comes to what the scripts foretell. -/
theorem run_scripted (path : String) (reads : Script ReadReply) (writes : Script WriteReply)
    (flushes : Script Fault) :
    let turn := run ⟨⟨path, ({ replies := reads } : ScriptedSource), 0, .streaming⟩,
      ⟨({ replies := writes, flushes } : ScriptedDevice), 0⟩⟩
    Upshot.seen turn.answer turn.next.output.device =
      .ofSupply path (.ofReplies reads.toList) writes.toList flushes.toList :=
  seen_scripted path reads writes flushes

-- A refusal counts before a fault of the source if its unit comes before that fault.
example (f : Fault) : Upshot.ofSupply "in" ⟨[1, 2, 3], some f⟩ [.all, .claim 0] [] =
    ⟨.error (.writing 1 Output.refusal), [1], 0⟩ := rfl

example (f : Fault) : Upshot.ofSupply "in" ⟨[1], some f⟩ [.all, .claim 0] [] =
    ⟨.error (.reading "in" 1 f), [1], 0⟩ := rfl

end Transfer
end ConfinedRelay
