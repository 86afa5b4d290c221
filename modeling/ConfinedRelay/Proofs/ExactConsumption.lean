import ConfinedRelay.Proofs.LockStep

/-!
A transfer uses up of its scripts what its outcome needs. It reads up to the answer that
decides, offers one unit at a time, and flushes only behind a good end. So no answer behind
those counts, whatever it would have been.
-/
namespace ConfinedRelay

theorem Handle.offset_nextUnit {σ : Type} [ByteSource σ] (h : Handle σ) :
    h.nextUnit.next.offset = h.offset + if isUnit h.nextUnit.answer then 1 else 0 := by
  unfold nextUnit
  split
  · rfl
  · rfl
  · split <;> rfl

namespace Output

variable {δ : Type} [UnitDevice δ]

/-- The refused unit is one of those that are offered, and without a refusal all of them are
accepted. -/
theorem accepted_eq (o : Output δ) (units : List UInt8) :
    min ((o.appendAll units).answer.accepted + 1) units.length =
      (o.appendAll units).answer.accepted +
        if (o.appendAll units).answer.failure.isSome then 1 else 0 := by
  induction units generalizing o with
  | nil => rfl
  | cons b rest ih =>
    cases hw : (o.append b).answer with
    | error failure =>
      rw [appendAll_of_rejected hw]
      simp
    | ok u =>
      have hr := ih (o.append b).next
      rw [appendAll_of_accepted hw]
      simp only [List.length_cons]
      omega

theorem written_append {o : Output δ} {b : UInt8} (h : (o.append b).answer = .ok ()) :
    (o.append b).next.written = o.written + 1 := by
  unfold append at h ⊢
  split at h
  · simp [reject] at h
  · simp only [*]
  · simp [reject] at h

/-- A reception closes the output behind a good end and at no other time. -/
theorem receive_next (o : Output δ) (path : String) (s : Supply) :
    (o.receive path s).next =
      if (o.appendAll s.units).answer.failure = none ∧ s.fault = none
      then (o.appendAll s.units).next.close.next else (o.appendAll s.units).next := by
  cases hw : (o.appendAll s.units).answer.failure with
  | some failure => simp [receive_of_refused path hw]
  | none =>
    cases hf : s.fault with
    | some f => simp [receive_of_fault path hw hf]
    | none =>
      cases hc : (o.appendAll s.units).next.close.answer with
      | error failure => simp [receive_of_unclosed path hw hf hc]
      | ok u => simp [receive_of_closed path hw hf hc]

/-- What a reception costs a scripted device. Every call is a decision about a unit, or it is
interrupted, and behind the last decision there is no call. -/
structure Costs (o : Output ScriptedDevice) (path : String) (s : Supply)
    (refused : Option (Nat × Fault)) (taken : List WriteReply) : Prop where
  begins : o.device.Meets taken
  writeCalls : (o.receive path s).next.device.writeCalls = o.device.writeCalls + taken.length
  length : taken.length = (refused.map (·.1)).getD s.units.length +
    taken.countP (·.isInterruption) + if refused.isSome then 1 else 0
  last : ∀ r ∈ taken.getLast?, r.isInterruption = false
  flushCalls : (o.receive path s).next.device.flushCalls =
    o.device.flushCalls + if refused = none ∧ s.fault = none then 1 else 0
  written : (o.receive path s).next.written =
    o.written + (refused.map (·.1)).getD s.units.length

theorem costs {o : Output ScriptedDevice} {s : Supply} {refused : Option (Nat × Fault)}
    (ht : o.Taken s.units refused) (path : String) : ∃ taken, o.Costs path s refused taken := by
  have hc := closed (o.appendAll s.units).next
  obtain ⟨taken, hs⟩ := spent o s.units
  have hfailure : (o.appendAll s.units).answer.failure = none ↔ refused = none := by
    rw [ht.failure, Option.map_eq_none_iff]
  refine ⟨taken, hs.uses.script.begins, ?_, ?_, hs.last, ?_, ?_⟩
  · rw [receive_next, ← hs.uses.writeCalls]
    split
    · exact hc.writeCalls
    · rfl
  · have hd := hs.decided
    have hlen := List.length_eq_countP_add_countP (·.isInterruption) (l := taken)
    simp only [Bool.not_eq_true, Bool.decide_eq_false] at hlen
    rw [ht.accepted, ht.failure, Option.isSome_map] at hd
    omega
  · rw [receive_next, ← ht.flushCalls]
    simp only [hfailure]
    split
    · exact hc.flushCalls
    · rfl
  · rw [receive_next, ← ht.accepted, ← ht.written]
    split
    · exact hc.written
    · rfl

end Output

namespace Transfer

section Run

variable {σ δ : Type} [ByteSource σ] [UnitDevice δ]

/-- A run leaves what its copy leaves, with the output closed if the copy went well. -/
theorem next_run (t : Transfer σ δ) :
    t.run.next =
      match t.copy.answer with
      | .ok () => { t.copy.next with output := t.copy.next.output.close.next }
      | .error _ => t.copy.next := by
  cases hc : t.copy.answer with
  | error failure => simp [run, hc]
  | ok _ => cases ho : t.copy.next.output.close.answer <;> simp [run, hc, ho]

variable {t u : Transfer ScriptedSource ScriptedDevice}

theorem source_run (t : Transfer ScriptedSource ScriptedDevice) :
    t.run.next.handle.source = t.copy.next.handle.source := by
  rw [next_run]
  split <;> rfl

theorem writeCalls_run (t : Transfer ScriptedSource ScriptedDevice) :
    t.run.next.output.device.writeCalls = t.copy.next.output.device.writeCalls := by
  rw [next_run]
  split
  · exact (Output.closed _).writeCalls
  · rfl

theorem flushCalls_run (h : t.copy.answer = .ok ()) :
    t.run.next.output.device.flushCalls = t.copy.next.output.device.flushCalls + 1 := by
  rw [next_run, h]
  exact (Output.closed _).flushCalls

/-- A run looks at the script for flushes only if its copy went well. -/
theorem run_lockStep (hp : t.handle.path = u.handle.path) (hc : Turn.Same Level t.copy u.copy)
    (hf : t.copy.answer = .ok () → t.copy.next.output.device.flushes.toList[0]? =
      u.copy.next.output.device.flushes.toList[0]?) : Turn.Same Level t.run u.run := by
  cases ht : t.copy.answer with
  | error failure =>
    have hu := hc.answer.symm.trans ht
    simp only [run, ht, hu]
    exact ⟨rfl, hc.next, hc.events⟩
  | ok _ =>
    have hu := hc.answer.symm.trans ht
    have hclose := Output.close_lockStep hc.next.output (hf ht)
    cases hto : t.copy.next.output.close.answer with
    | error failure =>
      have huo := hclose.answer.symm.trans hto
      simp only [run, ht, hu, hto, huo]
      exact ⟨rfl, ⟨hc.next.handle, hclose.next⟩, congrArg₂ _ hc.events hclose.events⟩
    | ok _ =>
      have huo := hclose.answer.symm.trans hto
      simp only [run, ht, hu, hto, huo, hc.next.output.written, hc.events, hclose.events, hp]
      exact ⟨rfl, ⟨hc.next.handle, hclose.next⟩, rfl⟩

end Run

section Passes

variable {σ δ : Type} [ByteSource σ] [UnitDevice δ]

/-- A transfer that copies its units passes through the state behind each of them. -/
inductive Passes : Transfer σ δ → Transfer σ δ → Prop
  | refl (t : Transfer σ δ) : Passes t t
  | unit {t u : Transfer σ δ} {b : UInt8} (hb : t.handle.nextUnit.answer = .ok (some b))
      (ha : (t.output.append b).answer = .ok ())
      (hu : Passes ⟨t.handle.nextUnit.next, (t.output.append b).next⟩ u) : Passes t u

/-- What comes behind such a state ends the same transfer. -/
theorem Passes.copy_eq {t u : Transfer σ δ} (h : t.Passes u) :
    t.copy.answer = u.copy.answer ∧ t.copy.next = u.copy.next := by
  induction h with
  | refl t => exact ⟨rfl, rfl⟩
  | unit hb ha _ ih =>
    rw [copy_of_accepted hb ha]
    exact ih

theorem Passes.next_run {t u : Transfer σ δ} (h : t.Passes u) : t.run.next = u.run.next := by
  rw [Transfer.next_run, Transfer.next_run, h.copy_eq.1, h.copy_eq.2]

/-- Between two units none is under way. -/
theorem Passes.offset_eq {t u : Transfer σ δ} (h : t.Passes u)
    (ht : t.handle.offset = t.output.written) : u.handle.offset = u.output.written := by
  induction h with
  | refl t => exact ht
  | @unit t u b hb ha _ ih =>
    apply ih
    change t.handle.nextUnit.next.offset = (t.output.append b).next.written
    rw [Handle.offset_nextUnit, Output.written_append ha, hb, ht]
    rfl

end Passes

section Received

variable (path : String) (s : ScriptedSource) (o : Output ScriptedDevice)

/-- What a run from the beginning costs its source. The last answer is the one that decides:
it brings the refused unit, or it is the one that ends the supply. -/
structure Costs (supply : Supply) (refused : Option (Nat × Fault)) (front : List ReadReply)
    (last : ReadReply) : Prop where
  uses : s.Uses (run ⟨⟨path, s, 0, .streaming⟩, o⟩).next.handle.source (front ++ [last])
  running : ∀ r ∈ front, r.isFinal = false
  units : front.filterMap ReadReply.unit? =
    supply.units.take ((refused.map (·.1)).getD supply.units.length)
  last : if refused.isSome
    then ∃ b, last.unit? = some b ∧
      supply.units[(refused.map (·.1)).getD supply.units.length]? = some b
    else last.isFinal = true ∧ last.fault? = supply.fault
  offset : (run ⟨⟨path, s, 0, .streaming⟩, o⟩).next.handle.offset =
    (refused.map (·.1)).getD supply.units.length + if refused.isSome then 1 else 0

variable {s o}

theorem costs {supply : Supply} {refused : Option (Nat × Fault)}
    (hs : ByteSource.supply s = supply) (ht : o.Taken supply.units refused) :
    ∃ front last, Costs path s o supply refused front last := by
  subst hs
  have hle := o.accepted_eq (ByteSource.supply s).units
  have hh := (received path s o).handle
  rw [ht.failure, Option.isSome_map] at hle
  rw [ht.accepted] at hle hh
  obtain ⟨front, last, hu⟩ := Handle.used path s
    (n := (refused.map (·.1)).getD (ByteSource.supply s).units.length) (by split at hle <;> omega)
  refine ⟨front, last, ?_, hu.brings.running, hu.brings.units, ?_, ?_⟩
  · rw [hh]
    exact hu.uses
  · by_cases hrefused : refused.isSome = true
    · rw [if_pos hrefused] at hle ⊢
      have hlt : (refused.map (·.1)).getD (ByteSource.supply s).units.length <
          (ByteSource.supply s).units.length := by omega
      have hunit := hu.settles.unit hlt
      rw [List.getElem?_eq_getElem hlt] at hunit ⊢
      exact ⟨_, hunit, rfl⟩
    · rw [if_neg hrefused] at hle ⊢
      exact hu.settles.final (by omega)
  · rw [hh, (Handle.reads_hasRun path s _).next.offset, hle]

end Received

section Scripted

variable {path : String} {reads reads' : Script ReadReply} {writes writes' : Script WriteReply}
  {flushes flushes' : Script Fault}

/-- Scripts with the same answers as far as they are used up are transferred alike. -/
theorem run_of_agreeing
    (hr : ∀ i < (scripted path reads writes flushes).run.next.handle.source.calls,
      reads'.reply (.count 0 none) i = reads.reply (.count 0 none) i)
    (hw : ∀ i < (scripted path reads writes flushes).run.next.output.device.writeCalls,
      writes'.reply .all i = writes.reply .all i)
    (hf : ∀ i < (scripted path reads writes flushes).run.next.output.device.flushCalls,
      flushes'.toList[i]? = flushes.toList[i]?) :
    Turn.Same Level (scripted path reads writes flushes).run
      (scripted path reads' writes' flushes').run := by
  obtain ⟨met, taken, hm, hcopy⟩ := copy_lockStep (scripted path reads writes flushes)
  have hself := (hcopy _ (.refl _) hm).uses
  have hother := hcopy (scripted path reads' writes' flushes')
    ⟨⟨rfl, rfl, rfl, rfl⟩, ⟨rfl, rfl, rfl, rfl⟩⟩
  rw [source_run, hself.reads.calls] at hr
  rw [writeCalls_run, hself.writes.writeCalls] at hw
  have hmeets : (scripted path reads' writes' flushes').Meets met taken := by
    constructor
    · intro i hi
      exact (hm.reads i hi).trans (hr i (by omega)).symm
    · intro i hi
      exact (hm.writes i hi).trans (hw i (by omega)).symm
  have hc := hother hmeets
  refine run_lockStep (t := scripted path reads writes flushes)
    (u := scripted path reads' writes' flushes') rfl hc.same ?_
  intro ha
  rw [flushCalls_run ha] at hf
  rw [hself.writes.flushes, hc.uses.writes.flushes]
  exact (hf 0 (Nat.succ_pos _)).symm

end Scripted

/-- A transfer uses up of its scripts what its outcome needs, and no answer behind that
counts. -/
theorem run_uses_up (path : String) (reads : Script ReadReply) (writes : Script WriteReply)
    (flushes : Script Fault) :
    let supply := Supply.ofReplies reads.toList
    let decisions := writes.toList.filter (!·.isInterruption)
    let refused := firstRefusal (decisions.take supply.units.length)
    let accepted := (refused.map (·.1)).getD supply.units.length
    let turn := (scripted path reads writes flushes).run
    let source := turn.next.handle.source
    let device := turn.next.output.device
    let met := (List.range source.calls).map (reads.reply (.count 0 none))
    let taken := (List.range device.writeCalls).map (writes.reply .all)
    -- the last answer of the source is the one that decides
    (∃ front last, met = front ++ [last] ∧ (∀ r ∈ front, r.isFinal = false) ∧
      front.filterMap ReadReply.unit? = supply.units.take accepted ∧
      if refused.isSome then ∃ b, last.unit? = some b ∧ supply.units[accepted]? = some b
      else last.isFinal = true ∧ last.fault? = supply.fault) ∧
    device.writeCalls = accepted + taken.countP (·.isInterruption) +
      (if refused.isSome then 1 else 0) ∧
    (∀ r ∈ taken.getLast?, r.isInterruption = false) ∧
    device.flushCalls = (if refused = none ∧ supply.fault = none then 1 else 0) ∧
    turn.next.output.written = accepted ∧
    turn.next.handle.offset = accepted + (if refused.isSome then 1 else 0) ∧
    -- between two units everything that was read is written
    (∀ t, (scripted path reads writes flushes).Passes t → t.run.next = turn.next ∧
      t.handle.offset = t.output.written ∧
      t.handle.nextUnit.next.offset ≤ t.output.written + 1) ∧
    -- other scripts that begin with the same answers
    ∀ reads' writes' flushes',
      (∀ i < source.calls,
        reads'.reply (.count 0 none) i = reads.reply (.count 0 none) i) →
      (∀ i < device.writeCalls, writes'.reply .all i = writes.reply .all i) →
      (∀ i < device.flushCalls, flushes'.toList[i]? = flushes.toList[i]?) →
      let other := (scripted path reads' writes' flushes').run
      other.answer = turn.answer ∧ other.events = turn.events ∧
      other.next.output.device.stored = device.stored ∧
      other.next.handle.source.calls = source.calls ∧
      other.next.output.device.writeCalls = device.writeCalls ∧
      other.next.output.device.flushCalls = device.flushCalls := by
  intro supply decisions refused accepted turn source device met taken
  let s : ScriptedSource := { replies := reads }
  let o : Output ScriptedDevice := ⟨{ replies := writes, flushes }, 0⟩
  have hf : ScriptedSource.Follows s reads.toList := ScriptedSource.follows rfl
  have ht : o.Taken supply.units refused := Output.taken o supply.units
  have ho : turn.next.output = (o.receive path supply).next :=
    (received path s o).output.trans (by rw [hf.supply])
  obtain ⟨front, last, hr⟩ := costs path hf.supply ht
  obtain ⟨spent, hc⟩ := Output.costs ht path
  have hcalls : source.calls = (front ++ [last]).length := hr.uses.calls.trans (Nat.zero_add _)
  have hwrites : device.writeCalls = spent.length := by
    have hw := hc.writeCalls
    rw [← ho] at hw
    exact hw.trans (Nat.zero_add _)
  have hmet : met = front ++ [last] := hr.uses.script.begins.map_range hcalls
  have htaken : taken = spent := hc.begins.map_range hwrites
  refine ⟨⟨front, last, hmet, hr.running, hr.units, hr.last⟩, ?_, ?_, ?_, ?_, hr.offset, ?_, ?_⟩
  · rw [htaken, hwrites]
    exact hc.length
  · rw [htaken]
    exact hc.last
  · have hflush := hc.flushCalls
    rw [← ho] at hflush
    exact hflush.trans (Nat.zero_add _)
  · have hwritten := hc.written
    rw [← ho] at hwritten
    exact hwritten.trans (Nat.zero_add _)
  · intro t ht
    have heq := ht.offset_eq rfl
    refine ⟨ht.next_run.symm, heq, ?_⟩
    rw [Handle.offset_nextUnit, heq]
    split <;> omega
  · intro reads' writes' flushes' hreads hwrites hflushes
    have hsame := run_of_agreeing hreads hwrites hflushes
    have hnext := hsame.next
    exact ⟨hsame.answer.symm, hsame.events.symm, hnext.output.stored.symm,
      hnext.handle.source.symm, hnext.output.writeCalls.symm, hnext.output.flushCalls.symm⟩

end Transfer
end ConfinedRelay
