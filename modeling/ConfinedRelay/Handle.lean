import ConfinedRelay.Source
import ConfinedRelay.Turn

/-!
A handle on an open resource. It hands out one unit at a time and remembers how
many it has handed out. Its end and its first failure are final: the source is
never asked again, and every later read gives the same answer.
-/
namespace ConfinedRelay

inductive Phase where
  | streaming
  | exhausted
  | failed (fault : Fault)
  deriving DecidableEq, Repr

structure Handle (σ : Type) where
  path : String
  source : σ
  offset : Nat := 0
  phase : Phase := .streaming

/-- Where a series of reads stopped. -/
inductive Ending where
  | more
  | exhausted
  | failed (failure : Failure)
  deriving DecidableEq, Repr

structure Portion where
  units : List UInt8
  ending : Ending
  deriving DecidableEq, Repr

namespace Handle

variable {σ τ : Type}

def IsExhausted (h : Handle σ) : Prop := h.phase = .exhausted

instance (h : Handle σ) : Decidable h.IsExhausted :=
  inferInstanceAs (Decidable (h.phase = .exhausted))

/-- The same handle with its source seen in another way. -/
def mapSource (f : σ → τ) (h : Handle σ) : Handle τ :=
  ⟨h.path, f h.source, h.offset, h.phase⟩

variable [ByteSource σ]

/-- Read the next unit, or nothing at the end of the resource. -/
def nextUnit (h : Handle σ) : Turn (Handle σ) (Except Failure (Option UInt8)) :=
  match h.phase with
  | .exhausted => { answer := .ok none, next := h }
  | .failed f => { answer := .error (.reading h.path h.offset f), next := h }
  | .streaming =>
    match ByteSource.settle h.source with
    | (.unit b, source) =>
      { answer := .ok (some b), next := { h with source, offset := h.offset + 1 } }
    | (.ended, source) => { answer := .ok none, next := { h with source, phase := .exhausted } }
    | (.fault f, source) =>
      { answer := .error (.reading h.path h.offset f)
        next := { h with source, phase := .failed f }
        events := [.readFailed h.path h.offset f] }

theorem nextUnit_of_exhausted {h : Handle σ} (hp : h.phase = .exhausted) :
    h.nextUnit = { answer := .ok none, next := h } := by
  simp [nextUnit, hp]

theorem nextUnit_of_failed {h : Handle σ} {f : Fault} (hp : h.phase = .failed f) :
    h.nextUnit = { answer := .error (.reading h.path h.offset f), next := h } := by
  simp [nextUnit, hp]

/-- Every unit that is read brings the source nearer to its end. -/
theorem remaining_nextUnit {h : Handle σ} {b : UInt8} (hb : h.nextUnit.answer = .ok (some b)) :
    ByteSource.remaining h.nextUnit.next.source < ByteSource.remaining h.source := by
  unfold nextUnit at hb ⊢
  split at hb
  · simp at hb
  · simp at hb
  · split at hb
    · rename_i heq
      simpa [heq] using ByteSource.remaining_settle_of_unit (s := h.source) (by rw [heq])
    · simp at hb
    · simp at hb

/-- Read units until one is missing or, where a limit is given, until so many
are read. -/
def nextUnits (limit : Option Nat) (h : Handle σ) : Turn (Handle σ) Portion :=
  if limit = some 0 then { answer := ⟨[], .more⟩, next := h }
  else
    match _hb : h.nextUnit.answer with
    | .error failure =>
      { answer := ⟨[], .failed failure⟩, next := h.nextUnit.next, events := h.nextUnit.events }
    | .ok none =>
      { answer := ⟨[], .exhausted⟩, next := h.nextUnit.next, events := h.nextUnit.events }
    | .ok (some b) =>
      let rest := nextUnits (limit.map (· - 1)) h.nextUnit.next
      { rest with
        answer := ⟨b :: rest.answer.units, rest.answer.ending⟩
        events := h.nextUnit.events ++ rest.events }
termination_by ByteSource.remaining h.source
decreasing_by exact remaining_nextUnit _hb

section Portion

variable {h : Handle σ} {limit : Option Nat}

theorem nextUnits_of_limit (h : Handle σ) :
    h.nextUnits (some 0) = { answer := ⟨[], .more⟩, next := h } := by
  rw [nextUnits, if_pos rfl]

theorem nextUnits_of_failed {failure : Failure} (hl : limit ≠ some 0)
    (hf : h.nextUnit.answer = .error failure) :
    h.nextUnits limit =
      { answer := ⟨[], .failed failure⟩
        next := h.nextUnit.next
        events := h.nextUnit.events } := by
  rw [nextUnits, if_neg hl]
  split <;> simp_all

theorem nextUnits_of_none (hl : limit ≠ some 0) (hn : h.nextUnit.answer = .ok none) :
    h.nextUnits limit =
      { answer := ⟨[], .exhausted⟩, next := h.nextUnit.next, events := h.nextUnit.events } := by
  rw [nextUnits, if_neg hl]
  split <;> simp_all

theorem nextUnits_of_unit {b : UInt8} (hl : limit ≠ some 0)
    (hb : h.nextUnit.answer = .ok (some b)) :
    h.nextUnits limit =
      let rest := h.nextUnit.next.nextUnits (limit.map (· - 1))
      { answer := ⟨b :: rest.answer.units, rest.answer.ending⟩
        next := rest.next
        events := h.nextUnit.events ++ rest.events } := by
  rw [nextUnits, if_neg hl]
  split <;> simp_all

end Portion

end Handle
end ConfinedRelay
