import ConfinedRelay.Proofs.ProgramExit

/-!
What is reported of a transfer. A transfer reports one event, and the event says the same as
the result: that everything was copied, with the number of units, or what failed, with the
place and the fault. Opening a resource is one event of its own. A run from a path reports the
opening and then, if there is something to transfer, the transfer. So one warning goes with
every failure, and none with a success.
-/
namespace ConfinedRelay

open ByteSource (supply)

namespace Event

/-- All that is written of an event. -/
structure Shows (e : Event) (level : Level) (target : Target) (message : String)
    (fields : List Field) : Prop where
  level : e.level = level
  target : e.target = target
  message : e.message = message
  fields : e.fields = fields

/-- An event says of a run from this path what its result says. -/
def Tells (e : Event) (path : String) : Except Failure Report → Prop
  | .ok report =>
    e.Shows .debug .relay "relay complete"
      [⟨"path", .text path⟩, ⟨"units", .count report.units⟩]
  | .error (.opening p f) =>
    e.Shows .warn .resource "sandboxed resource could not be opened"
      [⟨"path", .text p⟩, ⟨"error", .text f.text⟩]
  | .error (.reading p offset f) =>
    e.Shows .warn .resource "read failed"
      [⟨"path", .text p⟩, ⟨"offset", .count offset⟩, ⟨"error", .text f.text⟩]
  | .error (.writing offset f) =>
    e.Shows .warn .sink "output sink rejected write"
      [⟨"offset", .count offset⟩, ⟨"error", .text f.text⟩]

/-- The event that goes with a result. -/
def ofResult (path : String) : Except Failure Report → Event
  | .ok report => completed path report.units
  | .error failure => ofFailure failure

theorem tells_ofResult (path : String) (result : Except Failure Report) :
    (ofResult path result).Tells path result := by
  cases result with
  | ok report => exact ⟨rfl, rfl, rfl, rfl⟩
  | error failure => cases failure <;> exact ⟨rfl, rfl, rfl, rfl⟩

theorem warnings_ofResult (path : String) (result : Except Failure Report) :
    warnings [ofResult path result] = ofAnswer result := by
  cases result with
  | ok report => rfl
  | error failure => exact warnings_ofFailure failure

/-- Where the warnings are those of the result, one goes with a failure and none with a
success. -/
theorem one_warning {events : List Event} {result : Except Failure Report}
    (hw : warnings events = ofAnswer result) :
    ((∃ e ∈ events, e.level = .warn) ↔ ∃ failure, result = .error failure) ∧
      events.countP (·.level = .warn) ≤ 1 := by
  have hmem : (∃ e ∈ events, e.level = .warn) ↔ warnings events ≠ [] := by
    simp [warnings, List.filter_eq_nil_iff]
  have hcount : events.countP (·.level = .warn) = (warnings events).length :=
    List.countP_eq_length_filter
  rw [hmem, hcount, hw]
  cases result with
  | ok report => simp [ofAnswer]
  | error failure => simp [ofAnswer]

end Event

/-- A reception reports its result and nothing else. -/
theorem Output.events_receive {δ : Type} [UnitDevice δ] (o : Output δ) (path : String)
    (s : Supply) :
    (o.receive path s).events = [.ofResult path (o.receive path s).answer] := by
  have he := events_appendAll o s.units
  cases hw : (o.appendAll s.units).answer.failure with
  | some failure =>
    rw [hw] at he
    rw [receive_of_refused path hw]
    exact he
  | none =>
    rw [hw] at he
    cases hf : s.fault with
    | some f =>
      rw [receive_of_fault path hw hf, he, Supply.reports, hf]
      rfl
    | none =>
      have hc := events_close (o.appendAll s.units).next
      cases ho : (o.appendAll s.units).next.close.answer with
      | error failure =>
        rw [receive_of_unclosed path hw hf ho, he, hc, ho]
        rfl
      | ok u =>
        rw [receive_of_closed path hw hf ho, he, hc, ho]
        rfl

section Run

variable {σ δ : Type} [ByteSource σ] [UnitDevice δ]

theorem Transfer.events_run (path : String) (s : σ) (o : Output δ) :
    (run ⟨⟨path, s, 0, .streaming⟩, o⟩).events =
      [.ofResult path (run ⟨⟨path, s, 0, .streaming⟩, o⟩).answer] := by
  have hr := received path s o
  rw [hr.events, hr.answer]
  exact o.events_receive path (supply s)

namespace Host

theorem run_of_opened {h : Host} {path : String} {handle : Handle BufferedFile}
    (ho : (h.open path).answer = .ok handle) (device : δ) :
    (h.run path device).answer =
        (Transfer.run ⟨handle.mapSource h.view, ⟨device, 0⟩⟩).answer ∧
      (h.run path device).events = (h.open path).event ::
        (Transfer.run ⟨handle.mapSource h.view, ⟨device, 0⟩⟩).events := by
  simp [run, Opening.transfer, Opening.mapSource, ho, Except.map]

/-- Every result is told by the event that is reported with it. -/
theorem events_tell_result (h : Host) (path : String) (s : σ) (device : δ) :
    let transfer := Transfer.run ⟨⟨path, s, 0, .streaming⟩, ⟨device, 0⟩⟩
    let opening := h.open path
    let turn := h.run path device
    (∃ e, transfer.events = [e] ∧ e.Tells path transfer.answer) ∧
    (∀ p f, transfer.answer ≠ .error (.opening p f)) ∧
    (match opening.answer with
      | .error failure =>
        (∃ f, failure = .opening path f) ∧ opening.event.Tells path (.error failure) ∧
        turn.answer = .error failure ∧ turn.events = [opening.event]
      | .ok handle =>
        opening.event.Shows .debug .resource "opened sandboxed resource"
          [⟨"path", .text path⟩] ∧
        -- the transfer of what was opened follows, with its one event
        ∃ e, (Transfer.run ⟨handle.mapSource h.view, ⟨device, 0⟩⟩).events = [e] ∧
          turn.events = [opening.event, e] ∧ e.Tells path turn.answer) ∧
    ((∃ e ∈ transfer.events, e.level = .warn) ↔ ∃ failure, transfer.answer = .error failure) ∧
    transfer.events.countP (·.level = .warn) ≤ 1 ∧
    ((∃ e ∈ turn.events, e.level = .warn) ↔ ∃ failure, turn.answer = .error failure) ∧
    turn.events.countP (·.level = .warn) ≤ 1 := by
  intro transfer opening turn
  have ht : transfer.events = [.ofResult path transfer.answer] := Transfer.events_run path s _
  have htransfer := Event.one_warning (ht ▸ Event.warnings_ofResult path transfer.answer)
  have hturn := Event.one_warning (h.warnings_run path device)
  refine ⟨⟨_, ht, Event.tells_ofResult path _⟩, ?_, ?_, htransfer.1, htransfer.2, hturn.1,
    hturn.2⟩
  · intro p f
    rw [(Transfer.received path s ⟨device, 0⟩).answer]
    exact Output.receive_ne_opening _ path _ p f
  · cases ho : h.openObject path with
    | error f =>
      have hopening : opening = _ := open_of_error ho
      have hrun : turn = _ := run_of_error ho device
      rw [hopening, hrun]
      exact ⟨⟨f, rfl⟩, ⟨rfl, rfl, rfl, rfl⟩, rfl, rfl⟩
    | ok object =>
      have hopening : opening = _ := open_of_ok ho
      have hrun := run_of_opened (congrArg Opening.answer hopening) device
      have he : (Transfer.run ⟨Handle.mapSource h.view ⟨path, { object }, 0, .streaming⟩,
          ⟨device, 0⟩⟩).events = _ := Transfer.events_run path (h.view { object }) ⟨device, 0⟩
      rw [hopening]
      refine ⟨⟨rfl, rfl, rfl, rfl⟩, _, he, ?_, ?_⟩
      · exact hrun.2.trans (by rw [open_of_ok ho, he])
      · rw [hrun.1]
        exact Event.tells_ofResult path _

end Host
end Run
end ConfinedRelay
