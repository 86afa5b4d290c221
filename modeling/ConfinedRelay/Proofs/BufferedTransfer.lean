import ConfinedRelay.OpenFile
import ConfinedRelay.Proofs.TransferOutcome

/-!
Transferring what a path opens. The supply of an open file is what its buffer holds and
then everything behind its position, wherever the buffer ends. A transfer is therefore
decided by the opening, and behind a good opening by the bytes of the file alone.
-/
namespace ConfinedRelay

open ByteSource (settle exhaust supply spent)

/-- The bytes of a file that are still to be read, the buffered ones first. -/
def BufferedFile.unread (f : BufferedFile) (bytes : List UInt8) : List UInt8 :=
  f.buffer ++ bytes.drop f.position

namespace FileView

theorem settle_eq (v : FileView) : settle v = v.read :=
  ByteSource.settle_of_not_interruption (not_isInterruption_read v)

/-- Filling the buffer loses no byte. -/
theorem refill_append {bytes rest : List UInt8} {b : UInt8} {position capacity : Nat}
    (h : (bytes.drop position).take capacity = b :: rest) :
    b :: (rest ++ bytes.drop (position + (rest.length + 1))) = bytes.drop position := by
  have hp := List.take_prefix capacity (bytes.drop position)
  rw [h, List.prefix_iff_eq_append, List.drop_drop] at hp
  simpa using hp

/-- A read gives the next byte, whether it is buffered or the buffer has to be filled. -/
theorem read_of_unread {f : BufferedFile} {bytes rest : List UInt8} {b : UInt8}
    (hu : f.unread bytes = b :: rest) :
    ∃ g : BufferedFile, g.object = f.object ∧ g.unread bytes = rest ∧
      read ⟨f, .bytes bytes⟩ = (.unit b, ⟨g, .bytes bytes⟩) := by
  cases hb : f.buffer with
  | cons c buffer =>
    rw [BufferedFile.unread, hb, List.cons_append] at hu
    obtain ⟨rfl, hrest⟩ := List.cons.inj hu
    exact ⟨{ f with buffer }, rfl, hrest, by simp [read, hb]⟩
  | nil =>
    rw [BufferedFile.unread, hb, List.nil_append] at hu
    cases hf : (bytes.drop f.position).take BufferedFile.capacity with
    | nil => simp [hu, BufferedFile.capacity] at hf
    | cons c buffer =>
      have hr := refill_append hf
      rw [hu] at hr
      obtain ⟨rfl, hrest⟩ := List.cons.inj hr
      exact ⟨{ f with buffer, position := f.position + (buffer.length + 1) }, rfl, hrest,
        by simp [read, hb, hf]⟩

/-- A read finds the end when all bytes are read, and asks for more in vain. -/
theorem read_of_unread_nil {f : BufferedFile} {bytes : List UInt8} (hu : f.unread bytes = []) :
    read ⟨f, .bytes bytes⟩ = (.ended, ⟨f, .bytes bytes⟩) := by
  obtain ⟨hb, hd⟩ := List.append_eq_nil_iff.1 hu
  simp [read, hb, hd]

/-- The supply of a file does not depend on how much of it is buffered. -/
theorem supply_bytes {f : BufferedFile} {bytes units : List UInt8} (hu : f.unread bytes = units) :
    supply (FileView.mk f (.bytes bytes)) = { units } := by
  induction units generalizing f with
  | nil =>
    have hs := (settle_eq _).trans (read_of_unread_nil hu)
    rw [supply, ByteSource.exhaust_of_ended hs]
  | cons b rest ih =>
    obtain ⟨g, _, hg, hr⟩ := read_of_unread hu
    have hs := (settle_eq _).trans hr
    rw [supply, ByteSource.exhaust_of_unit hs, ih hg]
    rfl

theorem supply_directory {f : BufferedFile} (hb : f.buffer = []) :
    supply (FileView.mk f .directory) = { fault := some (.system .isDirectory) } := by
  have hs : settle (FileView.mk f .directory) =
      (.fault (.system .isDirectory), FileView.mk f .directory) := by
    rw [settle_eq]
    simp [read, hb]
  rw [supply, ByteSource.exhaust_of_fault hs]

end FileView

namespace Host

section Run

variable {δ : Type} [UnitDevice δ] {h : Host} {path : String}

theorem open_of_error {f : Fault} (ho : h.openObject path = .error f) :
    h.open path = ⟨.error (.opening path f), .openFailed path f⟩ := by
  rw [Host.open, ho]
  rfl

theorem open_of_ok {object : FileObject} (ho : h.openObject path = .ok object) :
    h.open path = ⟨.ok ⟨path, { object }, 0, .streaming⟩, .opened path⟩ := by
  rw [Host.open, ho]
  rfl

theorem run_of_error {f : Fault} (ho : h.openObject path = .error f) (device : δ) :
    h.run path device =
      { answer := .error (.opening path f)
        next := device
        events := [.openFailed path f] } := by
  rw [run, open_of_error ho]
  rfl

/-- Behind a good opening the object is received, as it is on this host. -/
theorem run_of_ok {object : FileObject} (ho : h.openObject path = .ok object) (device : δ) :
    h.run path device =
      let receiving := (Output.mk device 0).receive path (supply (h.view { object }))
      { answer := receiving.answer
        next := receiving.next.device
        events := .opened path :: receiving.events } := by
  have hr := Transfer.received path (h.view { object }) (Output.mk device 0)
  dsimp only
  rw [← hr.answer, ← hr.output, ← hr.events, run, open_of_ok ho]
  rfl

end Run

theorem supply_file (h : Host) (id : Nat) :
    supply (h.view { object := .file id }) = { units := h.tree.contents id } :=
  FileView.supply_bytes (f := { object := .file id }) List.drop_zero

/-- A device that refuses nothing gets the whole file. -/
theorem run_of_accepting {h : Host} {path : String} {id : Nat} {writes : Script WriteReply}
    (ho : h.openObject path = .ok (.file id))
    (hw : ∀ r ∈ writes.toList, r.isInterruption ∨ r.refusal? = none) :
    let turn := h.run path ({ replies := writes } : ScriptedDevice)
    let bytes := h.tree.contents id
    Upshot.seen turn.answer turn.next = ⟨.ok ⟨bytes.length⟩, bytes, 1⟩ := by
  intro turn bytes
  have ht : turn = _ := run_of_ok ho _
  rw [supply_file] at ht
  rw [ht]
  have hr := Output.receive_scripted (o := ⟨{ replies := writes }, 0⟩) rfl rfl rfl path
    { units := bytes }
  exact hr.trans (Upshot.ofSupply_of_accepting path bytes hw)

/-- A transfer from a path is decided by the opening, and behind a good opening by the
bytes of the file alone: it is the transfer of these bytes without any buffer. -/
theorem run_decided {δ : Type} [UnitDevice δ] (h : Host) (path : String) (device : δ) :
    let turn := h.run path device
    match (h.open path).answer with
    | .error failure =>
      (∃ f, failure = .opening path f) ∧ turn.answer = .error failure ∧ turn.next = device
    | .ok handle =>
      (∀ p f, turn.answer ≠ .error (.opening p f)) ∧
      match handle.source.object with
      | .file id =>
        let bytes := h.tree.contents id
        let plain := Transfer.run
          ⟨⟨path, ScriptedSource.ofBytes bytes, 0, .streaming⟩, ⟨device, 0⟩⟩
        turn.answer = plain.answer ∧
        turn.next = plain.next.output.device ∧
        turn.events = .opened path :: plain.events ∧
        -- a device that refuses nothing gets the whole file
        ∀ writes : Script WriteReply,
          (∀ r ∈ writes.toList, r.isInterruption ∨ r.refusal? = none) →
          let full := h.run path ({ replies := writes } : ScriptedDevice)
          full.answer = .ok ⟨bytes.length⟩ ∧ full.next.stored.toList = bytes ∧
            full.next.flushCalls = 1
      | .directory =>
        turn.answer = .error (.reading path 0 (.system .isDirectory)) ∧ turn.next = device := by
  intro turn
  cases ho : h.openObject path with
  | error f =>
    rw [open_of_error ho]
    have ht : turn = _ := run_of_error ho device
    exact ⟨⟨f, rfl⟩, by rw [ht], by rw [ht]⟩
  | ok object =>
    rw [open_of_ok ho]
    have ht : turn = _ := run_of_ok ho device
    refine ⟨?_, ?_⟩
    · intro p f
      rw [ht]
      exact Output.receive_ne_opening _ path _ p f
    · cases object with
      | file id =>
        have hp := Transfer.received path (ScriptedSource.ofBytes (h.tree.contents id))
          (Output.mk device 0)
        rw [supply_file] at ht
        obtain ⟨hanswer, houtput, hevents, _⟩ := hp
        rw [ScriptedSource.supply_ofBytes] at hanswer houtput hevents
        refine ⟨?_, ?_, ?_, ?_⟩
        · rw [ht, hanswer]
        · rw [ht, houtput]
        · rw [ht, hevents]
        · intro writes hw full
          obtain ⟨hanswer, hstored, hcalls⟩ := Upshot.mk.inj (run_of_accepting ho hw)
          exact ⟨hanswer, hstored, hcalls⟩
      | directory =>
        have hs : supply (h.view { object := .directory }) = _ :=
          FileView.supply_directory (f := { object := .directory }) rfl
        rw [hs] at ht
        exact ⟨by rw [ht]; rfl, by rw [ht]; rfl⟩

end Host
end ConfinedRelay
