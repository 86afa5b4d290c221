import ConfinedRelay.Proofs.AlikeSources
import ConfinedRelay.Proofs.Consumption

/-!
Two transfers in lock step. They stand at the same point but have different scripts, and the
second meets the answers that the first uses up. Then it uses up the same ones, and whatever
stands behind them in either script is never looked at.
-/
namespace ConfinedRelay

/-- Two turns that answer and report the same, and leave states that are related. -/
structure Turn.Same {σ α : Type} (R : σ → σ → Prop) (a b : Turn σ α) : Prop where
  answer : a.answer = b.answer
  next : R a.next b.next
  events : a.events = b.events

/-- Sources that have been called equally often. -/
def ScriptedSource.Level (s t : ScriptedSource) : Prop := s.calls = t.calls

namespace Handle

variable {h g : Handle ScriptedSource}

theorem next_of_settled (hp : h.phase ≠ .streaming) : h.nextUnit.next = h := by
  cases hphase : h.phase with
  | streaming => exact absurd hphase hp
  | exhausted => rw [nextUnit_of_exhausted hphase]
  | failed f => rw [nextUnit_of_failed hphase]

/-- A read in lock step with another, and the answers that it uses up. -/
structure ReadsAlong (h g : Handle ScriptedSource) (met : List ReadReply) : Prop where
  same : SameTurn ScriptedSource.Level h.nextUnit g.nextUnit
  uses : g.source.Uses g.nextUnit.next.source met

theorem nextUnit_lockStep (h : Handle ScriptedSource) :
    ∃ met, h.source.Meets met ∧
      ∀ g, Paired ScriptedSource.Level h g → g.source.Meets met → h.ReadsAlong g met := by
  by_cases hp : h.phase = .streaming
  · obtain ⟨passed, r, hpassed, hr, ha, hu⟩ := ScriptedSource.uses_settle h.source
    refine ⟨passed ++ [r], hu.script.begins, ?_⟩
    intro g hg hm
    obtain ⟨ha', hu'⟩ := ScriptedSource.settle_of_meets hm hpassed hr
    constructor
    · apply nextUnit_of_settled hg
      intro _
      refine ⟨ha.trans ha'.symm, ?_⟩
      rw [ScriptedSource.Level, hu.calls, hu'.calls, hg.source]
    · rw [source_nextUnit (hg.phase ▸ hp)]
      exact hu'
  · refine ⟨[], Script.begins_nil _ _, ?_⟩
    intro g hg _
    constructor
    · exact nextUnit_of_settled hg fun hs => absurd hs hp
    · rw [next_of_settled (hg.phase ▸ hp)]
      exact .refl _

end Handle

namespace Output

/-- Outputs over devices that differ in their scripts alone. -/
structure Level (o p : Output ScriptedDevice) : Prop where
  written : o.written = p.written
  stored : o.device.stored = p.device.stored
  writeCalls : o.device.writeCalls = p.device.writeCalls
  flushCalls : o.device.flushCalls = p.device.flushCalls

variable {o p : Output ScriptedDevice}

/-- A write in lock step with another, and the answers that it uses up. -/
structure WritesAlong (o p : Output ScriptedDevice) (b : UInt8) (taken : List WriteReply) :
    Prop where
  same : Turn.Same Level (o.append b) (p.append b)
  uses : p.device.Uses (p.append b).next.device taken

theorem append_lockStep (hl : o.Level p) (b : UInt8)
    (hm : p.device.Meets o.device.settling) :
    o.WritesAlong p b o.device.settling := by
  obtain ⟨hsettling, hdeciding⟩ := ScriptedDevice.settling_of_meets hm
  have ho := appended o b
  have hp := appended p b
  have hou := uses_append o b
  have hpu := uses_append p b
  rw [hsettling] at hpu
  have ha : (o.append b).answer = (p.append b).answer := by
    rw [ho.answer, hp.answer, hdeciding, hl.written]
  have hn : (o.append b).next.Level (p.append b).next := by
    constructor
    · rw [ho.written, hp.written, ha, hl.written]
    · apply Array.toList_inj.1
      rw [ho.stored, hp.stored, ha, hl.stored]
    · rw [hou.writeCalls, hpu.writeCalls, hl.writeCalls]
    · rw [hou.flushCalls, hpu.flushCalls, hl.flushCalls]
  have he : (o.append b).events = (p.append b).events := by
    rw [events_append, events_append, ha]
  exact ⟨⟨ha, hn, he⟩, hpu⟩

/-- Of the script for flushes one answer is met. -/
theorem close_lockStep (hl : o.Level p)
    (hf : o.device.flushes.toList[0]? = p.device.flushes.toList[0]?) :
    Turn.Same Level o.close p.close := by
  have ho := closed o
  have hp := closed p
  have ha : o.close.answer = p.close.answer := by
    rw [ho.answer, hp.answer, hl.written]
    cases hol : o.device.flushes.toList <;> cases hpl : p.device.flushes.toList <;> simp_all
  constructor
  · exact ha
  · constructor
    · rw [ho.written, hp.written, hl.written]
    · rw [ho.stored, hp.stored, hl.stored]
    · rw [ho.writeCalls, hp.writeCalls, hl.writeCalls]
    · rw [ho.flushCalls, hp.flushCalls, hl.flushCalls]
  · rw [events_close, events_close, ha]

end Output

namespace Transfer

/-- Transfers that stand at the same point. -/
structure Level (t u : Transfer ScriptedSource ScriptedDevice) : Prop where
  handle : t.handle.Paired ScriptedSource.Level u.handle
  output : t.output.Level u.output

theorem Level.refl (t : Transfer ScriptedSource ScriptedDevice) : t.Level t :=
  ⟨⟨rfl, rfl, rfl, rfl⟩, ⟨rfl, rfl, rfl, rfl⟩⟩

/-- The two scripts of a transfer begin with these answers. -/
structure Meets (t : Transfer ScriptedSource ScriptedDevice) (met : List ReadReply)
    (taken : List WriteReply) : Prop where
  reads : t.handle.source.Meets met
  writes : t.output.device.Meets taken

/-- These answers lead a transfer from one state to the other. -/
structure Uses (t u : Transfer ScriptedSource ScriptedDevice) (met : List ReadReply)
    (taken : List WriteReply) : Prop where
  reads : t.handle.source.Uses u.handle.source met
  writes : t.output.device.Uses u.output.device taken

/-- A copy in lock step with another, and the answers that it uses up. -/
structure CopiesAlong (t u : Transfer ScriptedSource ScriptedDevice) (met : List ReadReply)
    (taken : List WriteReply) : Prop where
  same : Turn.Same Level t.copy u.copy
  uses : u.Uses u.copy.next met taken

section Steps

variable {t u : Transfer ScriptedSource ScriptedDevice} {met later : List ReadReply}
  {taken rest : List WriteReply} {b : UInt8}

/-- A copy that ends with its first read, at the end of the source or at a fault. -/
theorem copiesAlong_of_stopped {answer : Except Failure Unit} (hl : t.Level u)
    (hr : t.handle.ReadsAlong u.handle met)
    (ht : t.copy = { answer, next := ⟨t.handle.nextUnit.next, t.output⟩,
                     events := t.handle.nextUnit.events })
    (hu : u.copy = { answer, next := ⟨u.handle.nextUnit.next, u.output⟩,
                     events := u.handle.nextUnit.events }) :
    t.CopiesAlong u met [] := by
  constructor
  · rw [ht, hu]
    exact ⟨rfl, ⟨hr.same.next, hl.output⟩, hr.same.events⟩
  · rw [hu]
    exact ⟨hr.uses, .refl _⟩

theorem copiesAlong_of_rejected {failure : Failure} (hr : t.handle.ReadsAlong u.handle met)
    (hw : t.output.WritesAlong u.output b taken)
    (hb : t.handle.nextUnit.answer = .ok (some b))
    (hf : (t.output.append b).answer = .error failure) : t.CopiesAlong u met taken := by
  have hu := copy_of_rejected (hr.same.answer.symm.trans hb) (hw.same.answer.symm.trans hf)
  constructor
  · rw [copy_of_rejected hb hf, hu]
    exact ⟨rfl, ⟨hr.same.next, hw.same.next⟩, congrArg₂ _ hr.same.events hw.same.events⟩
  · rw [hu]
    exact ⟨hr.uses, hw.uses⟩

theorem copiesAlong_of_accepted (hr : t.handle.ReadsAlong u.handle met)
    (hw : t.output.WritesAlong u.output b taken)
    (hb : t.handle.nextUnit.answer = .ok (some b))
    (ha : (t.output.append b).answer = .ok ())
    (hc : CopiesAlong ⟨t.handle.nextUnit.next, (t.output.append b).next⟩
      ⟨u.handle.nextUnit.next, (u.output.append b).next⟩ later rest) :
    t.CopiesAlong u (met ++ later) (taken ++ rest) := by
  have hu := copy_of_accepted (hr.same.answer.symm.trans hb) (hw.same.answer.symm.trans ha)
  constructor
  · rw [copy_of_accepted hb ha, hu]
    refine ⟨hc.same.answer, hc.same.next, ?_⟩
    simp only [hr.same.events, hw.same.events, hc.same.events]
  · rw [hu]
    exact ⟨hr.uses.trans hc.uses.reads, hw.uses.trans hc.uses.writes⟩

end Steps

/-- The induction follows the first transfer through its source. -/
theorem copy_lockStep (t : Transfer ScriptedSource ScriptedDevice) :
    ∃ met taken, t.Meets met taken ∧
      ∀ u, t.Level u → u.Meets met taken → t.CopiesAlong u met taken := by
  fun_induction copy t with
  | case1 t reading failure hf =>
    obtain ⟨met, hm, hread⟩ := t.handle.nextUnit_lockStep
    refine ⟨met, [], ⟨hm, Script.begins_nil _ _⟩, ?_⟩
    intro u hl hu
    have hr := hread u.handle hl.handle hu.reads
    have hfu := hr.same.answer.symm.trans hf
    exact copiesAlong_of_stopped hl hr (copy_of_failed hf) (copy_of_failed hfu)
  | case2 t reading hf =>
    obtain ⟨met, hm, hread⟩ := t.handle.nextUnit_lockStep
    refine ⟨met, [], ⟨hm, Script.begins_nil _ _⟩, ?_⟩
    intro u hl hu
    have hr := hread u.handle hl.handle hu.reads
    have hfu := hr.same.answer.symm.trans hf
    exact copiesAlong_of_stopped hl hr (copy_of_ended hf) (copy_of_ended hfu)
  | case3 t reading b hb writing failure hw =>
    obtain ⟨met, hm, hread⟩ := t.handle.nextUnit_lockStep
    refine ⟨met, _, ⟨hm, (Output.uses_append t.output b).script.begins⟩, ?_⟩
    intro u hl hu
    have hr := hread u.handle hl.handle hu.reads
    exact copiesAlong_of_rejected hr (Output.append_lockStep hl.output b hu.writes) hb hw
  | case4 t reading b hb writing hw rest ih =>
    obtain ⟨met, hm, hread⟩ := t.handle.nextUnit_lockStep
    obtain ⟨later, taken, hnext, hcopy⟩ := ih
    have ht := (hread t.handle (Level.refl t).handle hm).uses
    have hd := Output.uses_append t.output b
    refine ⟨met ++ later, _ ++ taken,
      ⟨hnext.reads.append ht.script, hnext.writes.append hd.script⟩, ?_⟩
    intro u hl hu
    have hr := hread u.handle hl.handle hu.reads.left
    have ha := Output.append_lockStep hl.output b hu.writes.left
    apply copiesAlong_of_accepted hr ha hb hw
    apply hcopy
    · exact ⟨hr.same.next, ha.same.next⟩
    · exact ⟨hu.reads.right hr.uses.script, hu.writes.right ha.uses.script⟩

end Transfer
end ConfinedRelay
