import ConfinedRelay.Device

/-!
A buffer in front of a device, as a terminal's standard output has one. Units up
to a newline stay pending. A newline first drains the pending units, in one call
if the device takes them all, and then goes to the device itself. A unit that
finds the buffer full drains it first.
-/
namespace ConfinedRelay

structure LineBuffer (δ : Type) where
  device : δ
  pending : List UInt8 := []

namespace LineBuffer

def capacity : Nat := 1024

def newline : UInt8 := 10

/-- The fault of a device that takes nothing while the buffer drains. -/
def stuck : Fault := .described .writeZero "failed to write the buffered data"

variable {δ : Type} [ChunkDevice δ]

/-- Offer the pending units until all are taken. Interruptions are tried again,
and what is not taken stays pending. -/
def drain (l : LineBuffer δ) : Option Fault × LineBuffer δ :=
  if l.pending = [] then (none, l)
  else
    match h : ChunkDevice.write l.device l.pending with
    | (.count 0, device) => (some stuck, { l with device })
    | (.count (n + 1), device) => drain ⟨device, l.pending.drop (n + 1)⟩
    | (.fault f, device) =>
      if f.IsInterruption then drain { l with device } else (some f, { l with device })
termination_by (l.pending.length, ChunkDevice.patience l.device)
decreasing_by
  · have hp : 0 < l.pending.length := List.length_pos_iff.2 ‹_›
    exact Prod.Lex.left _ _ (by simp only [List.length_drop]; omega)
  · have hl := ChunkDevice.patience_lt l.device l.pending
    rw [h] at hl
    exact Prod.Lex.right _ (hl ‹_›)

theorem drain_nil {l : LineBuffer δ} (h : l.pending = []) : l.drain = (none, l) := by
  rw [drain, if_pos h]

/-- Draining asks for no more patience than the device has. -/
theorem patience_drain (l : LineBuffer δ) :
    ChunkDevice.patience l.drain.2.device ≤ ChunkDevice.patience l.device := by
  fun_induction drain l with
  | case1 => exact Nat.le_refl _
  | case2 l _ device h => simpa [h] using ChunkDevice.patience_le l.device l.pending
  | case3 l _ n device h ih =>
    have hl := ChunkDevice.patience_le l.device l.pending
    rw [h] at hl
    exact Nat.le_trans ih hl
  | case4 l _ f device h _ ih =>
    have hl := ChunkDevice.patience_le l.device l.pending
    rw [h] at hl
    exact Nat.le_trans ih hl
  | case5 l _ f device h _ => simpa [h] using ChunkDevice.patience_le l.device l.pending

theorem not_isInterruption_drain {l : LineBuffer δ} {f : Fault} (h : l.drain.1 = some f) :
    ¬ f.IsInterruption := by
  fun_induction drain l with
  | case1 => simp at h
  | case2 => simp at h; subst h; decide
  | case3 _ _ _ _ _ ih => exact ih h
  | case4 _ _ _ _ _ _ ih => exact ih h
  | case5 _ _ _ _ _ hf => simp at h; exact h ▸ hf

/-- Write one unit. -/
def write (l : LineBuffer δ) (b : UInt8) : WriteAnswer × LineBuffer δ :=
  if b = newline then
    match l.drain with
    | (some f, l) => (.fault f, l)
    | (none, l) =>
      let (answer, device) := ChunkDevice.write l.device [b]
      (answer, { l with device })
  else if l.pending.length < capacity then (.count 1, { l with pending := l.pending ++ [b] })
  else
    match l.drain with
    | (some f, l) => (.fault f, l)
    | (none, l) => (.count 1, { l with pending := l.pending ++ [b] })

def flush (l : LineBuffer δ) : Option Fault × LineBuffer δ :=
  match l.drain with
  | (some f, l) => (some f, l)
  | (none, l) =>
    let (answer, device) := ChunkDevice.flush l.device
    (answer, { l with device })

theorem patience_write_lt (l : LineBuffer δ) (b : UInt8)
    (h : (l.write b).1.IsInterruption) :
    ChunkDevice.patience (l.write b).2.device < ChunkDevice.patience l.device := by
  unfold write at h ⊢
  split <;> rename_i hb
  · simp only [if_pos hb] at h
    split <;> rename_i hm <;> simp only [hm] at h
    · exact absurd h (not_isInterruption_drain (by rw [hm]))
    · have hd := patience_drain l
      rw [hm] at hd
      exact Nat.lt_of_lt_of_le (ChunkDevice.patience_lt _ _ h) hd
  · simp only [if_neg hb] at h
    split <;> rename_i hr
    · simp [if_pos hr] at h
    · simp only [if_neg hr] at h
      split <;> rename_i hm <;> simp only [hm] at h
      · exact absurd h (not_isInterruption_drain (by rw [hm]))
      · simp at h

instance : UnitDevice (LineBuffer δ) where
  write := write
  flush := flush
  patience l := ChunkDevice.patience l.device
  patience_lt := patience_write_lt

end LineBuffer
end ConfinedRelay
