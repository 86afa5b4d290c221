import ConfinedRelay.Proofs.ExactConsumption

/-!
Transfers call by call. A position says what a transfer has to do next, and one call of its
source or its device leads to the next position, with nothing repeated. From its beginning a
transfer comes to its end in as many calls as it has made, with the answer of the run. Between
scripts that is soon: a read takes an answer of the source away, and a write either has been
interrupted or decides about a unit.
-/
namespace ConfinedRelay

/-- Only a handle that is still streaming hands out units, and it goes on. -/
theorem Handle.phase_nextUnit {σ : Type} [ByteSource σ] {h : Handle σ} {b : UInt8}
    (hb : h.nextUnit.answer = .ok (some b)) : h.nextUnit.next.phase = .streaming := by
  cases hp : h.phase with
  | exhausted => simp [nextUnit_of_exhausted hp] at hb
  | failed f => simp [nextUnit_of_failed hp] at hb
  | streaming =>
    rcases hs : ByteSource.settle h.source with ⟨answer, next⟩
    cases answer <;> simp_all [nextUnit]

namespace Transfer

/-- What a transfer has to do next. -/
inductive Stage where
  | reading
  | writing (b : UInt8)
  | flushing
  | ended (answer : Except Failure Report)

namespace Stage

def ofRead : Except Failure (Option UInt8) → Stage
  | .ok (some b) => writing b
  | .ok none => flushing
  | .error failure => ended (.error failure)

def ofWrite : Except Failure Unit → Stage
  | .ok () => reading
  | .error failure => ended (.error failure)

def ofCopy : Except Failure Unit → Stage
  | .ok () => flushing
  | .error failure => ended (.error failure)

def IsEnded : Stage → Prop
  | ended _ => True
  | reading | writing _ | flushing => False

end Stage

/-- A transfer between two calls. -/
structure Position (σ δ : Type) where
  stage : Stage
  transfer : Transfer σ δ

variable {σ δ : Type} [ByteSource σ] [UnitDevice δ]

/-- The position behind one call. -/
def Position.call : Position σ δ → Position σ δ
  | ⟨.reading, ⟨handle, output⟩⟩ =>
    match ByteSource.read handle.source with
    | (.unit b, source) =>
      ⟨.writing b, ⟨{ handle with source, offset := handle.offset + 1 }, output⟩⟩
    | (.ended, source) => ⟨.flushing, ⟨{ handle with source, phase := .exhausted }, output⟩⟩
    | (.fault f, source) =>
      if f.IsInterruption then ⟨.reading, ⟨{ handle with source }, output⟩⟩
      else
        ⟨.ended (.error (.reading handle.path handle.offset f)),
          ⟨{ handle with source, phase := .failed f }, output⟩⟩
  | ⟨.writing b, ⟨handle, output⟩⟩ =>
    match UnitDevice.write output.device b with
    | (.count 0, device) =>
      ⟨.ended (.error (.writing output.written Output.refusal)), ⟨handle, { output with device }⟩⟩
    | (.count (_ + 1), device) => ⟨.reading, ⟨handle, ⟨device, output.written + 1⟩⟩⟩
    | (.fault f, device) =>
      if f.IsInterruption then ⟨.writing b, ⟨handle, { output with device }⟩⟩
      else ⟨.ended (.error (.writing output.written f)), ⟨handle, { output with device }⟩⟩
  | ⟨.flushing, ⟨handle, output⟩⟩ =>
    match UnitDevice.flush output.device with
    | (none, device) => ⟨.ended (.ok ⟨output.written⟩), ⟨handle, { output with device }⟩⟩
    | (some f, device) =>
      ⟨.ended (.error (.writing output.written f)), ⟨handle, { output with device }⟩⟩
  | p => p

/-- So many calls lead from one position to the other, and none is made behind the end. -/
inductive Calls : Nat → Position σ δ → Position σ δ → Prop
  | none (p : Position σ δ) : Calls 0 p p
  | next {n : Nat} {p q : Position σ δ} (hp : ¬ p.stage.IsEnded) (h : Calls n p.call q) :
      Calls (n + 1) p q

theorem Calls.trans {m n : Nat} {p q r : Position σ δ} (h : Calls m p q) (h' : Calls n q r) :
    Calls (m + n) p r := by
  induction h with
  | none => rwa [Nat.zero_add]
  | @next m p q hp _ ih =>
    rw [Nat.add_right_comm]
    exact .next hp (ih h')

theorem Calls.one {p q : Position σ δ} (hp : ¬ p.stage.IsEnded) (h : p.call = q) : Calls 1 p q :=
  .next hp (h ▸ .none p.call)

section Steps

variable (handle : Handle σ) (output : Output δ)

/-- A read takes one call for each interruption and one more. -/
theorem calls_read (hp : handle.phase = .streaming) :
    ∃ n, Calls n ⟨.reading, handle, output⟩
      ⟨.ofRead handle.nextUnit.answer, handle.nextUnit.next, output⟩ := by
  obtain ⟨path, source, offset, phase⟩ := handle
  obtain rfl : phase = .streaming := hp
  fun_induction ByteSource.settle source with
  | case1 source hi ih =>
    obtain ⟨n, hn⟩ := ih
    have hs := ByteSource.settle_of_interruption hi
    rcases hr : ByteSource.read source with ⟨answer, next⟩
    rw [hr] at hi hs hn
    have hnext : (Handle.mk path source offset .streaming).nextUnit =
        (Handle.mk path next offset .streaming).nextUnit := by
      simp only [Handle.nextUnit, hs]
    rw [hnext]
    refine ⟨n + 1, .next id ?_⟩
    cases answer with
    | fault f => simpa only [Position.call, hr, if_pos (show f.IsInterruption from hi)] using hn
    | unit b => exact hi.elim
    | ended => exact hi.elim
  | case2 source hi =>
    have hs := ByteSource.settle_of_not_interruption hi
    rcases hr : ByteSource.read source with ⟨answer, next⟩
    rw [hr] at hi hs
    refine ⟨1, .one id ?_⟩
    cases answer with
    | unit b => simp [Position.call, hr, Handle.nextUnit, hs, Stage.ofRead]
    | ended => simp [Position.call, hr, Handle.nextUnit, hs, Stage.ofRead]
    | fault f =>
      have hf : ¬ f.IsInterruption := hi
      simp [Position.call, hr, hf, Handle.nextUnit, hs, Stage.ofRead]

/-- A unit is written in one call for each interruption and one more. -/
theorem calls_write (b : UInt8) :
    ∃ n, Calls n ⟨.writing b, handle, output⟩
      ⟨.ofWrite (output.append b).answer, handle, (output.append b).next⟩ := by
  obtain ⟨device, written⟩ := output
  fun_induction UnitDevice.settle device b with
  | case1 device hi ih =>
    obtain ⟨n, hn⟩ := ih
    have hs := UnitDevice.settle_of_interruption hi
    rcases hw : UnitDevice.write device b with ⟨answer, next⟩
    rw [hw] at hi hs hn
    have hnext : (Output.mk device written).append b = (Output.mk next written).append b := by
      simp only [Output.append, hs]
    rw [hnext]
    refine ⟨n + 1, .next id ?_⟩
    cases answer with
    | fault f => simpa only [Position.call, hw, if_pos (show f.IsInterruption from hi)] using hn
    | count k => exact hi.elim
  | case2 device hi =>
    have hs := UnitDevice.settle_of_not_interruption hi
    rcases hw : UnitDevice.write device b with ⟨answer, next⟩
    rw [hw] at hi hs
    refine ⟨1, .one id ?_⟩
    cases answer with
    | count k =>
      cases k <;>
        simp [Position.call, hw, Output.append, hs, Output.reject, Stage.ofWrite]
    | fault f =>
      have hf : ¬ f.IsInterruption := hi
      simp [Position.call, hw, hf, Output.append, hs, Output.reject, Stage.ofWrite]

theorem calls_flush :
    Calls 1 ⟨.flushing, handle, output⟩
      ⟨.ended (output.close.answer.map fun _ => ⟨output.written⟩), handle, output.close.next⟩ := by
  apply Calls.one id
  rcases hf : UnitDevice.flush output.device with ⟨fault, next⟩
  cases fault <;> simp [Position.call, hf, Output.close, Output.reject, Except.map]

end Steps

section Run

/-- The induction is on the units that are copied; each is read and written first. -/
theorem calls_copy (t : Transfer σ δ) (hp : t.handle.phase = .streaming) :
    ∃ n, Calls n ⟨.reading, t⟩ ⟨.ofCopy t.copy.answer, t.copy.next⟩ := by
  induction t using copy.induct with
  | case1 t failure h =>
    have hr := calls_read t.handle t.output hp
    rw [h] at hr
    rw [copy_of_failed h]
    exact hr
  | case2 t h =>
    have hr := calls_read t.handle t.output hp
    rw [h] at hr
    rw [copy_of_ended h]
    exact hr
  | case3 t b h _ failure hw =>
    obtain ⟨m, hr⟩ := calls_read t.handle t.output hp
    obtain ⟨n, hn⟩ := calls_write t.handle.nextUnit.next t.output b
    rw [h] at hr
    rw [hw] at hn
    rw [copy_of_rejected h hw]
    exact ⟨m + n, hr.trans hn⟩
  | case4 t _ b h _ hw ih =>
    obtain ⟨m, hr⟩ := calls_read t.handle t.output hp
    obtain ⟨n, hn⟩ := calls_write t.handle.nextUnit.next t.output b
    obtain ⟨k, hrest⟩ := ih (Handle.phase_nextUnit h)
    rw [h] at hr
    rw [hw] at hn
    rw [copy_of_accepted h hw]
    exact ⟨m + (n + k), hr.trans (hn.trans hrest)⟩

/-- A transfer comes to the end of its run. -/
theorem calls_run (t : Transfer σ δ) (hp : t.handle.phase = .streaming) :
    ∃ n, Calls n ⟨.reading, t⟩ ⟨.ended t.run.answer, t.run.next⟩ := by
  obtain ⟨n, hn⟩ := calls_copy t hp
  cases hc : t.copy.answer with
  | error failure =>
    rw [hc] at hn
    simp only [run, hc]
    exact ⟨n, hn⟩
  | ok u =>
    have hf := calls_flush t.copy.next.handle t.copy.next.output
    rw [hc] at hn
    cases ho : t.copy.next.output.close.answer with
    | error failure =>
      rw [ho] at hf
      simp only [run, hc, ho]
      exact ⟨n + 1, hn.trans hf⟩
    | ok u =>
      rw [ho] at hf
      simp only [run, hc, ho]
      exact ⟨n + 1, hn.trans hf⟩

end Run

end Transfer

section Retries

theorem ScriptedDevice.calls_write (d : ScriptedDevice) (b : UInt8) :
    (UnitDevice.write d b).2.writeCalls = d.writeCalls + 1 ∧
      (UnitDevice.write d b).2.flushCalls = d.flushCalls := by
  cases hl : d.replies.toList with
  | nil => simp [write_of_nil hl]
  | cons r later =>
    obtain ⟨replies, _, hw⟩ := write_of_cons hl b
    simp [hw]

theorem ScriptedDevice.calls_flush (d : ScriptedDevice) :
    (UnitDevice.flush d).2.writeCalls = d.writeCalls ∧
      (UnitDevice.flush d).2.flushCalls = d.flushCalls + 1 := by
  change d.flush.2.writeCalls = _ ∧ d.flush.2.flushCalls = _
  simp only [flush]
  split <;> exact ⟨rfl, rfl⟩

theorem ScriptedSource.calls_settle (s : ScriptedSource) : (ByteSource.settle s).2.calls =
    s.calls + ((s.replies.toList.takeWhile (·.isInterruption)).length + 1) := by
  fun_induction ByteSource.settle s with
  | case1 s hi ih =>
    cases hl : s.replies.toList with
    | nil => simp [read_of_nil hl] at hi
    | cons r later =>
      obtain ⟨replies, rfl, hr⟩ := read_of_cons hl
      rw [hr] at hi ih
      rw [hr, ih, List.takeWhile_cons, if_pos ((ReadReply.isInterruption_answer r).1 hi),
        List.length_cons]
      simp only
      omega
  | case2 s hi =>
    have hc : (ByteSource.read s).2.calls = s.calls + 1 := calls_read s
    cases hl : s.replies.toList with
    | nil => simp [hc]
    | cons r later =>
      obtain ⟨replies, rfl, hr⟩ := read_of_cons hl
      rw [hr, ReadReply.isInterruption_answer] at hi
      rw [hc, List.takeWhile_cons, if_neg hi, List.length_nil, Nat.zero_add]

/-- A read repeats what is interrupted. Behind the end and behind a failure it asks nothing. -/
theorem Handle.calls_nextUnit (h : Handle ScriptedSource) : h.nextUnit.next.source.calls =
    h.source.calls + if h.phase = .streaming
      then (h.source.replies.toList.takeWhile (·.isInterruption)).length + 1 else 0 := by
  by_cases hp : h.phase = .streaming
  · rw [source_nextUnit hp, if_pos hp, ScriptedSource.calls_settle]
  · rw [next_of_settled hp, if_neg hp, Nat.add_zero]

theorem Output.writeCalls_append (o : Output ScriptedDevice) (b : UInt8) :
    (o.append b).next.device.writeCalls = o.device.writeCalls +
      ((o.device.replies.toList.takeWhile (·.isInterruption)).length + 1) := by
  rw [(appended o b).device, (ScriptedDevice.decides rfl b).calls, Nat.add_assoc]

end Retries

namespace Transfer

section Scripted

/-- The calls that a transfer between scripts has made. -/
def made (t : Transfer ScriptedSource ScriptedDevice) : Nat :=
  t.handle.source.calls + t.output.device.writeCalls + t.output.device.flushCalls

theorem made_call {p : Position ScriptedSource ScriptedDevice} (hp : ¬ p.stage.IsEnded) :
    p.call.transfer.made = p.transfer.made + 1 := by
  obtain ⟨stage, handle, output⟩ := p
  cases stage with
  | ended answer => exact absurd trivial hp
  | reading =>
    have hc : (ByteSource.read handle.source).2.calls = handle.source.calls + 1 :=
      ScriptedSource.calls_read handle.source
    rcases hr : ByteSource.read handle.source with ⟨answer, next⟩
    have hnext : next.calls = handle.source.calls + 1 := by rwa [hr] at hc
    cases answer with
    | fault f =>
      by_cases hf : f.IsInterruption <;>
        simp only [Position.call, hr, hf, if_true, if_false, made] <;> omega
    | _ =>
      simp only [Position.call, hr, made]
      omega
  | writing b =>
    have hc := output.device.calls_write b
    rcases hw : UnitDevice.write output.device b with ⟨answer, next⟩
    have hnext : next.writeCalls = output.device.writeCalls + 1 ∧
        next.flushCalls = output.device.flushCalls := by rwa [hw] at hc
    cases answer with
    | fault f =>
      by_cases hf : f.IsInterruption <;>
        simp only [Position.call, hw, hf, if_true, if_false, made] <;> omega
    | count n =>
      cases n <;> simp only [Position.call, hw, made] <;> omega
  | flushing =>
    have hc := output.device.calls_flush
    rcases hw : UnitDevice.flush output.device with ⟨fault, next⟩
    have hnext : next.writeCalls = output.device.writeCalls ∧
        next.flushCalls = output.device.flushCalls + 1 := by rwa [hw] at hc
    cases fault <;> simp only [Position.call, hw, made] <;> omega

theorem Calls.made_eq {n : Nat} {p q : Position ScriptedSource ScriptedDevice}
    (h : Calls n p q) : q.transfer.made = p.transfer.made + n := by
  induction h with
  | none => rfl
  | next hp _ ih =>
    rw [ih, made_call hp]
    omega

section Exact

variable (h : Handle ScriptedSource) (o : Output ScriptedDevice)

theorem calls_read_exact (hp : h.phase = .streaming) :
    Calls ((h.source.replies.toList.takeWhile (·.isInterruption)).length + 1)
      ⟨.reading, h, o⟩ ⟨.ofRead h.nextUnit.answer, h.nextUnit.next, o⟩ := by
  obtain ⟨n, hn⟩ := calls_read h o hp
  have hmade := hn.made_eq
  have hcalls := h.calls_nextUnit
  rw [if_pos hp] at hcalls
  simp only [made, hcalls] at hmade
  obtain rfl : n = (h.source.replies.toList.takeWhile (·.isInterruption)).length + 1 := by omega
  exact hn

theorem calls_write_exact (b : UInt8) :
    Calls ((o.device.replies.toList.takeWhile (·.isInterruption)).length + 1)
      ⟨.writing b, h, o⟩ ⟨.ofWrite (o.append b).answer, h, (o.append b).next⟩ := by
  obtain ⟨n, hn⟩ := calls_write h o b
  have hmade := hn.made_eq
  have hwrites := o.writeCalls_append b
  have hflushes : (o.append b).next.device.flushCalls = o.device.flushCalls := by
    rw [(o.appended b).device, (ScriptedDevice.decides rfl b).flushCalls]
  simp only [made, hwrites, hflushes] at hmade
  obtain rfl : n = (o.device.replies.toList.takeWhile (·.isInterruption)).length + 1 := by omega
  exact hn

end Exact

end Scripted

end Transfer

section Bounds

/-- Answers that a script has at its beginning are counted among all of its answers, if those
behind the script do not count. -/
theorem Script.Begins.countP_le {α : Type} {last : α} {s : Script α} {met : List α}
    (h : s.Begins last met) {p : α → Bool} (hp : p last = false) :
    met.countP p ≤ s.toList.countP p := by
  simp only [Begins, reply] at h
  generalize s.toList = answers at h ⊢
  induction met generalizing answers with
  | nil => simp
  | cons a met ih =>
    have ha := h 0 (by simp)
    cases answers with
    | nil =>
      have hmet := ih [] fun i hi => h (i + 1) (by simpa using hi)
      obtain rfl : a = last := by simpa using ha
      simpa [hp] using hmet
    | cons b answers =>
      have hmet := ih answers fun i hi => h (i + 1) (by simpa using hi)
      obtain rfl : a = b := by simpa using ha
      simp only [List.countP_cons]
      omega

/-- Every call for a unit decides about it or is interrupted. -/
theorem Output.writeCalls_receive_le (o : Output ScriptedDevice) (path : String) (s : Supply) :
    (o.receive path s).next.device.writeCalls ≤ o.device.writeCalls +
      (s.units.length + o.device.replies.toList.countP (·.isInterruption)) := by
  have ht := taken o s.units
  obtain ⟨met, hc⟩ := costs ht path
  have hcount := hc.begins.countP_le (p := (·.isInterruption)) rfl
  have hlength := hc.length
  have hle := o.accepted_eq s.units
  rw [ht.failure, Option.isSome_map, ht.accepted] at hle
  rw [hc.writeCalls]
  omega

namespace Transfer

/-- No read is made behind the answer that ends the source. -/
theorem sourceCalls_run_le (path : String) (s : ScriptedSource) (o : Output ScriptedDevice) :
    (run ⟨⟨path, s, 0, .streaming⟩, o⟩).next.handle.source.calls ≤
      s.calls + (s.replies.toList.length + 1) := by
  obtain ⟨front, last, hc⟩ := costs path rfl (Output.taken o (ByteSource.supply s).units)
  have hend := (Script.consumes_of_nil (.count 0 none) (s := s.replies) (t := {}) rfl rfl).begins
  have hfront := Script.Begins.length_le (p := fun r => !r.isFinal) hend rfl
    hc.uses.script.begins fun r hr => by simp [hc.running r hr]
  rw [hc.uses.calls, List.length_append, List.length_singleton]
  omega

/-- What lies behind an answer that ends the source is never written. -/
theorem writeCalls_run_le (path : String) (s : ScriptedSource) (o : Output ScriptedDevice) :
    (run ⟨⟨path, s, 0, .streaming⟩, o⟩).next.output.device.writeCalls ≤ o.device.writeCalls +
      ((s.replies.toList.filterMap ReadReply.unit?).length +
        o.device.replies.toList.countP (·.isInterruption)) := by
  have hle := o.writeCalls_receive_le path (ByteSource.supply s)
  have hunits : (ByteSource.supply s).units.length ≤
      (s.replies.toList.filterMap ReadReply.unit?).length := by
    rw [(ScriptedSource.follows rfl).supply]
    exact ((List.takeWhile_sublist _).filterMap _).length_le
  rw [(received path s o).output]
  omega

theorem flushCalls_run_le (path : String) (s : ScriptedSource) (o : Output ScriptedDevice) :
    (run ⟨⟨path, s, 0, .streaming⟩, o⟩).next.output.device.flushCalls ≤
      o.device.flushCalls + 1 := by
  obtain ⟨taken, hc⟩ := Output.costs (Output.taken o (ByteSource.supply s).units) path
  rw [(received path s o).output, hc.flushCalls]
  split <;> omega

theorem Passes.phase {σ δ : Type} [ByteSource σ] [UnitDevice δ] {t u : Transfer σ δ}
    (h : t.Passes u) (ht : t.handle.phase = .streaming) : u.handle.phase = .streaming := by
  induction h with
  | refl t => exact ht
  | unit hb _ _ ih => exact ih (Handle.phase_nextUnit hb)

end Transfer

end Bounds

namespace Transfer

/-- A transfer between scripts ends. Its source is asked at most once for each answer and once
more, its device written to once for each unit and each interruption, and flushed once. A read
takes a call for each interruption that it meets and one more, unless its handle has come to its
end or has failed, as no handle has in front of a read of the transfer. A write takes a call for
each interruption and one more. -/
theorem run_ends (path : String) (reads : Script ReadReply) (writes : Script WriteReply)
    (flushes : Script Fault) :
    let start := scripted path reads writes flushes
    let turn := start.run
    let source := turn.next.handle.source
    let device := turn.next.output.device
    Calls (source.calls + device.writeCalls + device.flushCalls) ⟨.reading, start⟩
      ⟨.ended turn.answer, turn.next⟩ ∧
    source.calls ≤ reads.toList.length + 1 ∧
    device.writeCalls ≤ (reads.toList.filterMap ReadReply.unit?).length +
      writes.toList.countP (·.isInterruption) ∧
    device.flushCalls ≤ 1 ∧
    (∀ t, start.Passes t → t.handle.phase = .streaming) ∧
    ∀ (h : Handle ScriptedSource) (o : Output ScriptedDevice) (b : UInt8),
      let interruptions := (h.source.replies.toList.takeWhile (·.isInterruption)).length
      let delays := (o.device.replies.toList.takeWhile (·.isInterruption)).length
      h.nextUnit.next.source.calls =
        h.source.calls + (if h.phase = .streaming then interruptions + 1 else 0) ∧
      (h.phase = .streaming → Calls (interruptions + 1) ⟨.reading, h, o⟩
        ⟨.ofRead h.nextUnit.answer, h.nextUnit.next, o⟩) ∧
      (o.append b).next.device.writeCalls = o.device.writeCalls + (delays + 1) ∧
      Calls (delays + 1) ⟨.writing b, h, o⟩
        ⟨.ofWrite (o.append b).answer, h, (o.append b).next⟩ := by
  intro start turn source device
  refine ⟨?_, ?_, ?_, ?_, ?_, ?_⟩
  · obtain ⟨n, hn⟩ := calls_run start rfl
    have hmade := hn.made_eq
    have hzero : start.made = 0 := rfl
    rw [hzero, Nat.zero_add] at hmade
    rwa [← hmade] at hn
  · have hle := sourceCalls_run_le path ({ replies := reads } : ScriptedSource)
      ⟨{ replies := writes, flushes }, 0⟩
    rwa [Nat.zero_add] at hle
  · have hle := writeCalls_run_le path ({ replies := reads } : ScriptedSource)
      ⟨{ replies := writes, flushes }, 0⟩
    rwa [Nat.zero_add] at hle
  · have hle := flushCalls_run_le path ({ replies := reads } : ScriptedSource)
      ⟨{ replies := writes, flushes }, 0⟩
    rwa [Nat.zero_add] at hle
  · exact fun t ht => ht.phase rfl
  · exact fun h o b => ⟨h.calls_nextUnit, calls_read_exact h o, o.writeCalls_append b,
      calls_write_exact h o b⟩

/-- With one interruption on either side all the bounds are reached. -/
theorem run_ends_at_bounds :
    let reads : Script ReadReply := .ofList [.fault (.plain .interrupted), .count 1 (some 97)]
    let writes : Script WriteReply := .ofList [.fault (.plain .interrupted)]
    let start := scripted "in" reads writes {}
    let turn := start.run
    turn.answer = .ok ⟨1⟩ ∧ turn.next.handle.source.calls = reads.toList.length + 1 ∧
    turn.next.output.device.writeCalls = (reads.toList.filterMap ReadReply.unit?).length +
      writes.toList.countP (·.isInterruption) ∧
    Calls 6 ⟨.reading, start⟩ ⟨.ended turn.answer, turn.next⟩ ∧
    start.handle.phase = .streaming ∧
    Calls 2 ⟨.reading, start⟩ ⟨.ofRead start.handle.nextUnit.answer,
      start.handle.nextUnit.next, start.output⟩ := by
  intro reads writes start turn
  have hturn : turn.answer = .ok ⟨1⟩ ∧ turn.next.handle.source.calls = reads.toList.length + 1 ∧
      turn.next.output.device.writeCalls = (reads.toList.filterMap ReadReply.unit?).length +
        writes.toList.countP (·.isInterruption) ∧
      turn.next.handle.source.calls + turn.next.output.device.writeCalls +
        turn.next.output.device.flushCalls = 6 := by decide +kernel
  obtain ⟨hanswer, hreads, hwrites, hsum⟩ := hturn
  obtain ⟨hcalls, _, _, _, _, heach⟩ := run_ends "in" reads writes {}
  have hmade : Calls 6 ⟨.reading, start⟩ ⟨.ended turn.answer, turn.next⟩ := hsum ▸ hcalls
  exact ⟨hanswer, hreads, hwrites, hmade, rfl, (heach start.handle start.output 97).2.1 rfl⟩

end Transfer

/-- A handle at its end asks its source no more, so that a read of it takes no call at all. -/
theorem Handle.nextUnit_without_call :
    let h := (Handle.mk "in" ({} : ScriptedSource) 0 .streaming).nextUnit.next
    h.nextUnit.answer = .ok none ∧ h.nextUnit.next.source.calls = h.source.calls ∧
    h.nextUnit.next.source.calls ≠
      h.source.calls + ((h.source.replies.toList.takeWhile (·.isInterruption)).length + 1) := by
  decide +kernel

end ConfinedRelay
