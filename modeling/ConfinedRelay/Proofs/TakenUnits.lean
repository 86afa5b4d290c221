import ConfinedRelay.LineBuffer
import ConfinedRelay.Proofs.Reception

/-!
When a device takes what it is given, told by its calls alone. A call that is interrupted is
made again, and every other call has to take something. An output accepts all its units if its
device takes them one after another, and a line buffer can be flushed if its device takes all
that is pending and can be flushed behind that, and not otherwise.
-/
namespace ConfinedRelay

/-- The device takes these bytes, in as many calls as it needs. -/
inductive ChunkDevice.Takes {δ : Type} [ChunkDevice δ] : δ → List UInt8 → δ → Prop
  | nothing (d : δ) : Takes d [] d
  | interrupted {d after : δ} {chunk : List UInt8} : chunk ≠ [] →
      (write d chunk).1.IsInterruption → Takes (write d chunk).2 chunk after → Takes d chunk after
  | part {d after : δ} {chunk : List UInt8} {n : Nat} : chunk ≠ [] →
      (write d chunk).1 = .count (n + 1) →
      Takes (write d chunk).2 (chunk.drop (n + 1)) after → Takes d chunk after

/-- The device takes these units one after another. -/
inductive UnitDevice.Takes {δ : Type} [UnitDevice δ] : δ → List UInt8 → δ → Prop
  | nothing (d : δ) : Takes d [] d
  | interrupted {d after : δ} {b : UInt8} {rest : List UInt8} :
      (write d b).1.IsInterruption → Takes (write d b).2 (b :: rest) after →
      Takes d (b :: rest) after
  | unit {d after : δ} {b : UInt8} {rest : List UInt8} {n : Nat} :
      (write d b).1 = .count (n + 1) → Takes (write d b).2 rest after → Takes d (b :: rest) after

section Output

variable {δ : Type} [UnitDevice δ]

open UnitDevice (Takes write settle)

theorem UnitDevice.takes_of_settle {d after : δ} {b : UInt8} {rest : List UInt8} {n : Nat}
    (h : (settle d b).1 = .count (n + 1)) (hrest : Takes (settle d b).2 rest after) :
    Takes d (b :: rest) after := by
  fun_induction settle d b with
  | case1 d hi ih => exact .interrupted hi (ih h hrest)
  | case2 d hi => exact .unit h hrest

namespace Output

theorem append_of_interruption {o : Output δ} {b : UInt8}
    (h : (write o.device b).1.IsInterruption) :
    o.append b = ({ o with device := (write o.device b).2 } : Output δ).append b := by
  unfold append
  rw [UnitDevice.settle_of_interruption h]

theorem append_of_count {o : Output δ} {b : UInt8} {n : Nat}
    (h : (write o.device b).1 = .count (n + 1)) :
    o.append b = { answer := .ok (), next := ⟨(write o.device b).2, o.written + 1⟩ } := by
  have hs := UnitDevice.settle_of_not_interruption (d := o.device) (b := b) (by simp [h])
  unfold append
  rw [hs]
  rcases hw : write o.device b with ⟨answer, device⟩
  rw [hw] at h
  dsimp only at h
  subst answer
  rfl

/-- The induction is on the calls of the device. -/
theorem appendAll_of_takes {d after : δ} {units : List UInt8} (h : Takes d units after)
    (written : Nat) : (Output.mk d written).appendAll units =
      { answer := ⟨units.length, none⟩, next := ⟨after, written + units.length⟩ } := by
  induction h generalizing written with
  | nothing d => rfl
  | interrupted hi _ ih => rw [← ih written, appendAll, appendAll, append_of_interruption hi]
  | unit hn _ ih =>
    have ha := append_of_count (o := ⟨_, written⟩) hn
    rw [appendAll_of_accepted (by rw [ha]), ha, ih (written + 1)]
    simp only [List.length_cons, List.nil_append, Nat.add_assoc, Nat.add_comm 1]

theorem device_append (o : Output δ) (b : UInt8) :
    (o.append b).next.device = (settle o.device b).2 := by
  rcases hs : settle o.device b with ⟨answer, device⟩
  rcases answer with ⟨_ | n⟩ | f <;> simp [append, hs, reject]

theorem settle_of_append {o : Output δ} {b : UInt8} (h : (o.append b).answer = .ok ()) :
    ∃ n, (settle o.device b).1 = .count (n + 1) := by
  unfold append at h
  split at h
  · cases h
  · rename_i n _ hs
    exact ⟨n, by rw [hs]⟩
  · cases h

theorem takes_of_appendAll {o : Output δ} {units : List UInt8}
    (h : (o.appendAll units).answer.failure = none) :
    Takes o.device units (o.appendAll units).next.device := by
  induction units generalizing o with
  | nil => exact .nothing o.device
  | cons b rest ih =>
    cases ha : (o.append b).answer with
    | error failure => simp [appendAll_of_rejected ha] at h
    | ok u =>
      rw [appendAll_of_accepted ha] at h ⊢
      have hrest := ih h
      obtain ⟨n, hn⟩ := settle_of_append ha
      rw [device_append] at hrest
      exact UnitDevice.takes_of_settle hn hrest

theorem device_close (o : Output δ) : o.close.next.device = (UnitDevice.flush o.device).2 := by
  unfold close
  split <;> simp [*, reject]

theorem close_ok_iff {o : Output δ} :
    o.close.answer = .ok () ↔ (UnitDevice.flush o.device).1 = none := by
  unfold close
  split <;> simp_all [reject]

theorem close_of_fault {o : Output δ} {f : Fault} (h : (UnitDevice.flush o.device).1 = some f) :
    o.close.answer = .error (.writing o.written f) := by
  unfold close
  split <;> simp_all [reject]

end Output
end Output

namespace LineBuffer

variable {δ : Type} [ChunkDevice δ]

open ChunkDevice (Takes)

theorem drain_of_takes {d after : δ} {pending : List UInt8} (h : Takes d pending after) :
    (LineBuffer.mk d pending).drain = (none, ⟨after, []⟩) := by
  induction h with
  | nothing d => exact drain_nil rfl
  | interrupted hp hi _ ih =>
    rw [drain, if_neg hp]
    split <;> simp_all
  | part hp hn _ ih =>
    rw [drain, if_neg hp]
    split <;> simp_all

/-- Whoever drains a buffer to its end leaves nothing in it. -/
theorem pending_of_drained {l : LineBuffer δ} (h : l.drain.1 = none) :
    l.drain.2.pending = [] := by
  fun_induction drain l with
  | case1 l hp => exact hp
  | case2 => cases h
  | case3 _ _ _ _ _ ih => exact ih h
  | case4 _ _ _ _ _ _ ih => exact ih h
  | case5 => cases h

theorem takes_of_drain {l : LineBuffer δ} (h : l.drain.1 = none) :
    Takes l.device l.pending l.drain.2.device := by
  fun_induction drain l with
  | case1 l hp =>
    rw [hp]
    exact .nothing l.device
  | case2 => cases h
  | case3 l hp n device hw ih =>
    exact .part hp (by rw [hw]) (by simpa only [hw] using ih h)
  | case4 l hp f device hw hf ih =>
    exact .interrupted hp (by rw [hw]; exact hf) (by simpa only [hw] using ih h)
  | case5 => cases h

/-- A flush gives the pending units to the device and flushes it behind them. -/
theorem flush_of_takes {l : LineBuffer δ} {after : δ} (h : Takes l.device l.pending after) :
    l.flush = ((ChunkDevice.flush after).1, ⟨(ChunkDevice.flush after).2, []⟩) := by
  have hd : l.drain = (none, ⟨after, []⟩) := drain_of_takes h
  rw [flush, hd]

theorem takes_of_flush {l : LineBuffer δ} (h : l.flush.1 = none) :
    ∃ after, Takes l.device l.pending after ∧ (ChunkDevice.flush after).1 = none := by
  have hd : l.drain.1 = none := by
    unfold flush at h
    split at h
    · cases h
    · rename_i hr
      rw [hr]
  have ht := takes_of_drain hd
  rw [flush_of_takes ht] at h
  exact ⟨_, ht, h⟩

end LineBuffer
end ConfinedRelay
