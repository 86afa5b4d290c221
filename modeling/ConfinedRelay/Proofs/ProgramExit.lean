import ConfinedRelay.Program
import ConfinedRelay.Proofs.AcceptingOutput
import ConfinedRelay.Proofs.Confinement
import ConfinedRelay.Proofs.TakenUnits

/-!
How the program ends. It is a success if the resource could be opened and read to its end,
every unit was accepted and the final flush went well, and then nothing is on standard
error. Otherwise one failure is told there in one line. The event of that failure is there
too, but it is only a warning, and the log of the program has no place for warnings. Where
standard output accepts every byte it has every unit that could be read, whatever happened
behind them.
-/
namespace ConfinedRelay

open ByteSource (supply)

theorem isOk_iff {ε α : Type} {e : Except ε α} : e.isOk = true ↔ ∃ a, e = .ok a := by
  cases e <;> simp [Except.isOk, Except.toBool]

namespace Event

/-- The warnings among events. -/
def warnings (events : List Event) : List Event := events.filter (·.level = .warn)

/-- No event is as grave as an error. -/
theorem error_rank_lt (e : Event) : Level.error.rank < e.level.rank := by
  cases e <;> simp [level, Level.rank]

theorem warnings_ofFailure (failure : Failure) :
    warnings [ofFailure failure] = [ofFailure failure] := by
  cases failure <;> rfl

end Event

section Log

/-- A filter with the fallback rule alone lets errors pass, and so no event at all. -/
theorem Filter.admits_fallback (e : Event) : (Filter.mk [fallback]).admits e = false := by
  have hd : (Filter.mk [fallback]).deciding e = some fallback := rfl
  have hr := e.error_rank_lt
  rw [admits, hd]
  exact decide_eq_false (Nat.not_le.2 hr)

variable [PatternSyntax] (terminal : Bool)

/-- The log of the program starts. -/
theorem Program.start_settings : Log.start { terminal } settings =
    (.ok (), ⟨.recorder ⟨⟨[Filter.fallback]⟩, .compact, terminal⟩, true, terminal⟩) := rfl

/-- The log of the program stays silent. -/
theorem Program.written_eq_nil (events : List Event) :
    (Log.start { terminal } settings).2.written events = [] := by
  rw [start_settings]
  change Recorder.written _ _ = _
  have hf : events.filter (Filter.mk [Filter.fallback]).admits = [] :=
    List.filter_eq_nil_iff.2 fun e _ => by simp [Filter.admits_fallback]
  rw [Recorder.written, hf, List.flatMap_nil]

end Log

namespace Output

section Warnings

variable {δ : Type} [UnitDevice δ]

/-- A reception warns of its failure and of nothing else. -/
theorem warnings_receive (o : Output δ) (path : String) (s : Supply) :
    Event.warnings (o.receive path s).events = Event.ofAnswer (o.receive path s).answer := by
  have he := events_appendAll o s.units
  cases hw : (o.appendAll s.units).answer.failure with
  | some failure =>
    rw [hw] at he
    rw [receive_of_refused path hw, he]
    exact Event.warnings_ofFailure failure
  | none =>
    rw [hw] at he
    cases hf : s.fault with
    | some f =>
      rw [receive_of_fault path hw hf, he, Supply.reports, hf]
      rfl
    | none =>
      have hc := events_close (o.appendAll s.units).next
      cases ho : (o.appendAll s.units).next.close.answer with
      | error failure =>
        rw [receive_of_unclosed path hw hf ho, he, hc, ho]
        exact Event.warnings_ofFailure failure
      | ok u =>
        rw [receive_of_closed path hw hf ho, he, hc, ho]
        rfl

theorem receive_ok_iff (o : Output δ) (path : String) (s : Supply) :
    (∃ report, (o.receive path s).answer = .ok report) ↔
      s.fault = none ∧ (o.appendAll s.units).answer.failure = none ∧
        (o.appendAll s.units).next.close.answer = .ok () := by
  cases hw : (o.appendAll s.units).answer.failure with
  | some failure => simp [receive_of_refused path hw]
  | none =>
    cases hf : s.fault with
    | some f => simp [receive_of_fault path hw hf]
    | none =>
      cases ho : (o.appendAll s.units).next.close.answer with
      | error failure => simp [receive_of_unclosed path hw hf ho]
      | ok u => simp [receive_of_closed path hw hf ho]

end Warnings
end Output

namespace Host

section Run

variable {δ : Type} [UnitDevice δ]

/-- A run warns of its failure and of nothing else. -/
theorem warnings_run (h : Host) (path : String) (device : δ) :
    Event.warnings (h.run path device).events = Event.ofAnswer (h.run path device).answer := by
  cases ho : h.openObject path with
  | error f =>
    rw [run_of_error ho]
    rfl
  | ok object =>
    rw [run_of_ok ho]
    exact Output.warnings_receive _ _ _

/-- Read what a path opens until no unit is left. -/
def readAll (h : Host) (handle : Handle BufferedFile) : Portion :=
  ((handle.mapSource h.view).nextUnits none).answer

/-- The units behind a path, up to the end of what it opens or the first failure. -/
def unitsOf (h : Host) (path : String) : List UInt8 :=
  match (h.open path).answer with
  | .error _ => []
  | .ok handle => (h.readAll handle).units

theorem readAll_opened (h : Host) (path : String) (object : FileObject) :
    h.readAll ⟨path, { object }, 0, .streaming⟩ =
      ⟨(supply (h.view { object })).units, (supply (h.view { object })).ending path⟩ :=
  Handle.nextUnits_of_hasRead (Handle.hasRead_zero path _) (Nat.zero_le _) List.drop_zero

theorem unitsOf_of_file {h : Host} {path : String} {id : Nat}
    (ho : h.openObject path = .ok (.file id)) : h.unitsOf path = h.tree.contents id := by
  unfold unitsOf
  rw [open_of_ok ho]
  dsimp only
  rw [readAll_opened, supply_file]

end Run
end Host

namespace Program

variable {δ : Type} [ChunkDevice δ]

/-- The transfer that the program makes. -/
def transfer (h : Host) (device : δ) : Turn (LineBuffer δ) (Except Failure Report) :=
  h.run settings.inputPath (LineBuffer.mk device [])

/-- The program gets as far as the flush of the device. The resource opens and is read to its
end, the buffer takes every unit, and the device takes what is left in the buffer. -/
structure ReachesFlush (h : Host) (device : δ) (units : List UInt8) (last : δ) : Prop where
  read : ∃ handle, (h.open settings.inputPath).answer = .ok handle ∧
    h.readAll handle = ⟨units, .exhausted⟩
  taken : ∃ buffer, UnitDevice.Takes (LineBuffer.mk device []) units buffer ∧
    ChunkDevice.Takes buffer.device buffer.pending last

/-- Every stage goes well, the flush of the device included. -/
def GoesWell (h : Host) (device : δ) : Prop :=
  ∃ units last, ReachesFlush h device units last ∧ (ChunkDevice.flush last).1 = none

section Transfer

variable {h : Host} {device : δ}

/-- Whether the program reads to the end of what it opens is a matter of what that supplies. -/
theorem read_iff {object : FileObject} (ho : h.openObject settings.inputPath = .ok object)
    (units : List UInt8) :
    (∃ handle, (h.open settings.inputPath).answer = .ok handle ∧
      h.readAll handle = ⟨units, .exhausted⟩) ↔ supply (h.view { object }) = ⟨units, none⟩ := by
  rw [Host.open_of_ok ho]
  simp only [Except.ok.injEq, exists_eq_left', Host.readAll_opened]
  rcases supply (h.view { object }) with ⟨us, fault⟩
  cases fault <;> simp [Supply.ending]

theorem transfer_of_ok (device : δ) {object : FileObject}
    (ho : h.openObject settings.inputPath = .ok object) {s : Supply}
    (hs : supply (h.view { object }) = s) :
    (transfer h device).answer =
        ((Output.mk (LineBuffer.mk device []) 0).receive settings.inputPath s).answer ∧
      (transfer h device).next =
        ((Output.mk (LineBuffer.mk device []) 0).receive settings.inputPath s).next.device := by
  rw [transfer, Host.run_of_ok ho, hs]
  exact ⟨rfl, rfl⟩

/-- What becomes of the transfer is a matter of the flush, once it gets there. -/
theorem transfer_of_reachesFlush {units : List UInt8} {last : δ}
    (hr : ReachesFlush h device units last) :
    ((ChunkDevice.flush last).1 = none → (transfer h device).answer = .ok ⟨units.length⟩) ∧
      (∀ f, (ChunkDevice.flush last).1 = some f →
        (transfer h device).answer = .error (.writing units.length f)) ∧
      (transfer h device).next = ⟨(ChunkDevice.flush last).2, []⟩ := by
  obtain ⟨hread, buffer, htaken, hlast⟩ := hr
  cases ho : h.openObject settings.inputPath with
  | error f =>
    obtain ⟨handle, hhandle, _⟩ := hread
    rw [Host.open_of_error ho] at hhandle
    cases hhandle
  | ok object =>
    obtain ⟨hanswer, hnext⟩ := transfer_of_ok device ho ((read_iff ho units).1 hread)
    have hwriting := Output.appendAll_of_takes htaken 0
    have hflush : UnitDevice.flush buffer = _ := LineBuffer.flush_of_takes hlast
    rw [hanswer, hnext]
    have hw : ((Output.mk (LineBuffer.mk device []) 0).appendAll units).answer.failure = none := by
      rw [hwriting]
    have hdevice := Output.device_close ⟨buffer, 0 + units.length⟩
    rw [hflush] at hdevice
    cases hf : (ChunkDevice.flush last).1 with
    | none =>
      have hclose : (Output.mk buffer (0 + units.length)).close.answer = .ok () := by
        rw [Output.close_ok_iff, hflush, hf]
      rw [Output.receive_of_closed _ hw rfl (by rw [hwriting, hclose]), hwriting, hdevice]
      simp
    | some f =>
      have hclose := Output.close_of_fault (o := ⟨buffer, 0 + units.length⟩) (f := f)
        (by rw [hflush, hf])
      rw [Output.receive_of_unclosed _ hw rfl (by rw [hwriting, hclose]), hwriting, hdevice]
      simp

/-- The transfer is a success exactly if every stage goes well. -/
theorem transfer_isOk_iff : (transfer h device).answer.isOk = true ↔ GoesWell h device := by
  constructor
  · intro hok
    obtain ⟨report, hanswer⟩ := isOk_iff.1 hok
    cases ho : h.openObject settings.inputPath with
    | error f =>
      rw [transfer, Host.run_of_error ho] at hanswer
      cases hanswer
    | ok object =>
      obtain ⟨ht, _⟩ := transfer_of_ok device ho rfl
      rw [ht] at hanswer
      obtain ⟨hread, hwritten, hclosed⟩ := (Output.receive_ok_iff _ _ _).1 ⟨report, hanswer⟩
      obtain ⟨last, hlast, hflush⟩ := LineBuffer.takes_of_flush (Output.close_ok_iff.1 hclosed)
      refine ⟨(supply (h.view { object })).units, last, ⟨?_, ?_⟩, hflush⟩
      · rw [read_iff ho, ← hread]
      · exact ⟨_, Output.takes_of_appendAll hwritten, hlast⟩
  · rintro ⟨units, last, hreaches, hflush⟩
    rw [(transfer_of_reachesFlush hreaches).1 hflush]
    rfl

end Transfer

/-- A device that accepts every byte has been given every unit that could be read. -/
theorem transfer_accepting {good : δ → Prop} {contents : δ → List UInt8}
    (ha : ChunkDevice.Accepting good contents) (h : Host) {device : δ} (hg : good device) :
    good (transfer h device).next.device ∧
      (transfer h device).next.given contents =
        contents device ++ h.unitsOf settings.inputPath := by
  unfold Host.unitsOf
  cases ho : h.openObject settings.inputPath with
  | error f =>
    rw [transfer, Host.run_of_error ho, Host.open_of_error ho]
    exact ⟨hg, rfl⟩
  | ok object =>
    obtain ⟨hgood, hc⟩ := Output.receive_accepting (LineBuffer.accepting ha)
      (o := ⟨⟨device, []⟩, 0⟩) hg settings.inputPath (supply (h.view { object }))
    rw [transfer, Host.run_of_ok ho, Host.open_of_ok ho]
    dsimp only
    rw [Host.readAll_opened]
    refine ⟨hgood, ?_⟩
    rw [hc, LineBuffer.given, List.append_nil]

section Run

variable [PatternSyntax]

/-- The program ends as its transfer did, and says nothing but its failure. -/
theorem run_eq (h : Host) (terminal : Bool) (device : δ) :
    run h terminal device =
      { success := (transfer h device).answer.isOk
        diagnostics :=
          match (transfer h device).answer with
          | .ok _ => []
          | .error failure => complaint failure.message
        device := (transfer h device).next.drain.2.device } := by
  have ht : ((h.open settings.inputPath).mapSource h.view).transfer (LineBuffer.mk device []) =
      transfer h device := rfl
  have hl := written_eq_nil terminal (transfer h device).events
  rw [start_settings] at hl
  simp only [run, runOpened, ht, start_settings, hl, List.nil_append]
  cases (transfer h device).answer <;> rfl

/-- How the program ends on any host and with any device behind standard output. -/
theorem run_exit (h : Host) (terminal : Bool) (device : δ) :
    let exit := run h terminal device
    let turn := transfer h device
    (exit.success = true ↔ GoesWell h device) ∧
    (exit.success = true → exit.diagnostics = []) ∧
    (exit.success = false → ∃ failure, turn.answer = .error failure ∧
      exit.diagnostics = failure.message.toList ++ ['\n'] ∧
      -- the failure is reported by the one warning of the run, which the log holds back
      Event.warnings turn.events = [.ofFailure failure]) ∧
    (∀ units last, ReachesFlush h device units last →
      exit.device = (ChunkDevice.flush last).2 ∧
      ∀ f, (ChunkDevice.flush last).1 = some f →
        turn.answer = .error (.writing units.length f)) ∧
    (∀ id, h.openObject settings.inputPath = .ok (.file id) →
      h.unitsOf settings.inputPath = h.tree.contents id) ∧
    ∀ (good : δ → Prop) (contents : δ → List UInt8),
      ChunkDevice.Accepting good contents → good device →
        contents exit.device = contents device ++ h.unitsOf settings.inputPath := by
  intro exit turn
  have he : exit = _ := run_eq h terminal device
  have hw : Event.warnings turn.events = Event.ofAnswer turn.answer :=
    Host.warnings_run h settings.inputPath _
  refine ⟨?_, ?_, ?_, ?_, fun id => Host.unitsOf_of_file, ?_⟩
  · rw [← transfer_isOk_iff, he]
  · rw [he]
    intro hs
    obtain ⟨report, ht⟩ := isOk_iff.1 hs
    simp only [ht]
  · rw [he, hw]
    intro hs
    cases ht : turn.answer with
    | ok report => simp [turn, ht, Except.isOk, Except.toBool] at hs
    | error failure => exact ⟨failure, rfl, rfl, rfl⟩
  · intro units last hr
    obtain ⟨_, hfailed, hnext⟩ := transfer_of_reachesFlush hr
    refine ⟨?_, hfailed⟩
    rw [he, hnext, LineBuffer.drain_nil rfl]
  · intro good contents ha hg
    obtain ⟨hgood, hc⟩ := transfer_accepting ha h hg
    rw [he, ← hc]
    exact (LineBuffer.drained ha hgood).contents

end Run

/-- The program copies a file that lies where it looks for one. If the flush behind it fails it
says so. -/
theorem run_exit_on_file :
    let h : Host :=
      { tree := {
          entries := [(["input.txt", "sandbox"], .file 0), (["sandbox"], .directory)]
          files := #[[104, 105]] } }
    let sound := run h false ({} : ScriptedDevice)
    let full := run h false ({ flushes := .ofList [.system .noSpace] } : ScriptedDevice)
    h.unitsOf settings.inputPath = [104, 105] ∧
      sound.success = true ∧ sound.diagnostics = [] ∧ sound.device.stored.toList = [104, 105] ∧
      sound.device.flushCalls = 1 ∧ full.success = false ∧ full.device.flushCalls = 1 ∧
      full.diagnostics = ("failed to write to output sink after 2 bytes: " ++
        "No space left on device (os error 28)\n").toList := by
  intro h sound full
  have hs : Path.split settings.inputPath = some ⟨"/sandbox", "input.txt"⟩ := rfl
  have hr : h.tree.resolve h.current "/sandbox" = .ok ["sandbox"] :=
    calc
      _ = _ := Walk.walk_stay rfl
      _ = _ := Walk.walk_into_directory rfl (by decide) rfl
      _ = _ := Walk.walk_nil
  have hd : h.openDirectory "/sandbox" = .ok ["sandbox"] :=
    Host.openDirectory_of_resolve (by decide) (by decide) hr rfl
  have hn : h.tree.resolveBeneath ["sandbox"] "input.txt" = .ok ["input.txt"] :=
    (Walk.walk_into_file rfl (by decide) rfl).trans Walk.walk_nil
  have hb : h.openBeneath ["sandbox"] "input.txt" = .ok (.file 0) := by
    rw [Host.openBeneath, if_neg (by decide), hn]
    rfl
  have ho : h.openObject settings.inputPath = .ok (.file 0) :=
    (Host.openObject_of_split hs hd).trans hb
  have hreaches (flushes : Script Fault) : ReachesFlush h ({ flushes } : ScriptedDevice) [104, 105]
      { flushes, stored := #[104, 105], writeCalls := 1 } := by
    refine ⟨(read_iff ho _).2 (Host.supply_file h 0), ⟨{ flushes }, [104, 105]⟩, ?_, ?_⟩
    · exact .unit rfl (.unit rfl (.nothing _))
    · exact .part (List.cons_ne_nil _ _) rfl (.nothing _)
  obtain ⟨hsound, hquiet, _, hdevice, hfile, hcontents⟩ := run_exit h false ({} : ScriptedDevice)
  have hsuccess : sound.success = true := hsound.2 ⟨_, _, hreaches {}, rfl⟩
  have hu : h.unitsOf settings.inputPath = [104, 105] := hfile 0 ho
  obtain ⟨hfull, _, hfailed, hdevice', _⟩ :=
    run_exit h false ({ flushes := .ofList [.system .noSpace] } : ScriptedDevice)
  obtain ⟨hflushed, hanswer⟩ := hdevice' _ _ (hreaches _)
  have hrejected := hanswer _ rfl
  have hfails : full.success = false := by
    rw [Bool.eq_false_iff]
    intro hwell
    have hok := transfer_isOk_iff.2 (hfull.1 hwell)
    rw [hrejected] at hok
    cases hok
  obtain ⟨failure, hfailure, htold, _⟩ := hfailed hfails
  obtain rfl := Except.error.inj (hrejected.symm.trans hfailure)
  refine ⟨hu, hsuccess, hquiet hsuccess, ?_, ?_, hfails, ?_, htold.trans ?_⟩
  · rw [hcontents _ _ ScriptedDevice.accepting (List.forall_mem_nil _), hu]
    rfl
  · rw [(hdevice _ _ (hreaches {})).1]
    rfl
  · rw [hflushed]
    rfl
  · decide +kernel

end Program
end ConfinedRelay
