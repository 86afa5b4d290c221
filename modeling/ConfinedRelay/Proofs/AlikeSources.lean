import ConfinedRelay.Handle

/-!
Sources that answer alike. Where two sources give the same answers for ever, the handles
on them cannot be told apart: every read gives the same, reports the same, and leaves
handles that cannot be told apart either.
-/
namespace ConfinedRelay

open ByteSource (read settle)

/-- The same handle but for its source. -/
structure Handle.Paired {σ τ : Type} (R : σ → τ → Prop) (h : Handle σ) (g : Handle τ) : Prop where
  path : h.path = g.path
  source : R h.source g.source
  offset : h.offset = g.offset
  phase : h.phase = g.phase

section Answering

variable {σ τ : Type} [ByteSource σ] [ByteSource τ] {R : σ → τ → Prop}

namespace Handle

/-- What two turns share that cannot be told apart. -/
structure SameTurn {α : Type} (R : σ → τ → Prop) (a : Turn (Handle σ) α) (b : Turn (Handle τ) α) :
    Prop where
  answer : a.answer = b.answer
  next : Paired R a.next b.next
  events : a.events = b.events

/-- Handles that are still streaming read alike if their sources settle alike. -/
theorem nextUnit_of_settled {h : Handle σ} {g : Handle τ} (hp : Paired R h g)
    (hs : h.phase = .streaming → (settle h.source).1 = (settle g.source).1 ∧
      R (settle h.source).2 (settle g.source).2) : SameTurn R h.nextUnit g.nextUnit := by
  obtain ⟨path, s, offset, phase⟩ := h
  obtain ⟨path', t, offset', phase'⟩ := g
  obtain ⟨rfl, hst, rfl, rfl⟩ := hp
  cases phase with
  | exhausted => exact ⟨rfl, ⟨rfl, hst, rfl, rfl⟩, rfl⟩
  | failed f => exact ⟨rfl, ⟨rfl, hst, rfl, rfl⟩, rfl⟩
  | streaming =>
    obtain ⟨ha, hn⟩ := hs rfl
    rcases hu : settle s with ⟨answer, s'⟩
    rcases hv : settle t with ⟨answer', t'⟩
    rw [hu, hv] at ha hn
    simp only at ha hn
    subst ha
    cases answer with
    | unit b => simp only [nextUnit, hu, hv]; exact ⟨rfl, ⟨rfl, hn, rfl, rfl⟩, rfl⟩
    | ended => simp only [nextUnit, hu, hv]; exact ⟨rfl, ⟨rfl, hn, rfl, rfl⟩, rfl⟩
    | fault f => simp only [nextUnit, hu, hv]; exact ⟨rfl, ⟨rfl, hn, rfl, rfl⟩, rfl⟩

end Handle
end Answering
end ConfinedRelay
