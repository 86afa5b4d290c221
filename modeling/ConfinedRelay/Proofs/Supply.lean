import ConfinedRelay.Handle

/-!
What a source has to give: units in a row, and then its end or a fault. Interruptions
are passed over, and nothing that the source would answer behind its end or its first
fault belongs to the supply. A handle hands out exactly this, one unit a read, and
then gives one answer for ever.
-/
namespace ConfinedRelay

/-- Units in a row, and the fault behind them unless they simply end. -/
structure Supply where
  units : List UInt8 := []
  fault : Option Fault := none
  deriving DecidableEq, Repr

namespace Supply

def cons (b : UInt8) (s : Supply) : Supply := ⟨b :: s.units, s.fault⟩

/-- What every read behind the last unit answers. -/
def conclusion (s : Supply) (path : String) : Except Failure (Option UInt8) :=
  match s.fault with
  | none => .ok none
  | some f => .error (.reading path s.units.length f)

/-- What the read with this number answers, counted from zero. -/
def answer (s : Supply) (path : String) (i : Nat) : Except Failure (Option UInt8) :=
  match s.units[i]? with
  | some b => .ok (some b)
  | none => s.conclusion path

/-- The phase of a handle that has gone beyond the last unit. -/
def phase (s : Supply) : Phase :=
  match s.fault with
  | none => .exhausted
  | some f => .failed f

/-- How reading until no unit is left stops. -/
def ending (s : Supply) (path : String) : Ending :=
  match s.fault with
  | none => .exhausted
  | some f => .failed (.reading path s.units.length f)

/-- What the first read behind the last unit has to report. -/
def reports (s : Supply) (path : String) : List Event :=
  s.fault.toList.map (.readFailed path s.units.length)

end Supply

namespace ByteSource

variable {σ : Type} [ByteSource σ]

/-- Read a source until its supply is used up, and give the source that is left. -/
def exhaust (s : σ) : Supply × σ :=
  match _h : settle s with
  | (.unit b, next) => ((exhaust next).1.cons b, (exhaust next).2)
  | (.ended, next) => ({}, next)
  | (.fault f, next) => ({ fault := some f }, next)
termination_by remaining s
decreasing_by
  all_goals
    have hr := remaining_settle_of_unit (s := s) (b := b) (by rw [_h])
    rwa [_h] at hr

def supply (s : σ) : Supply := (exhaust s).1

/-- The source behind its supply. -/
def spent (s : σ) : σ := (exhaust s).2

theorem exhaust_of_unit {s next : σ} {b : UInt8} (h : settle s = (.unit b, next)) :
    exhaust s = ((supply next).cons b, spent next) := by
  rw [exhaust]
  split <;> simp_all [supply, spent]

theorem exhaust_of_ended {s next : σ} (h : settle s = (.ended, next)) :
    exhaust s = ({}, next) := by
  rw [exhaust]
  split <;> simp_all

theorem exhaust_of_fault {s next : σ} {f : Fault} (h : settle s = (.fault f, next)) :
    exhaust s = ({ fault := some f }, next) := by
  rw [exhaust]
  split <;> simp_all

/-- A supply that begins with a unit tells what the source answers now. -/
theorem settle_of_exhaust_unit {s t : σ} {b : UInt8} {rest : List UInt8} {f : Option Fault}
    (h : exhaust s = (⟨b :: rest, f⟩, t)) :
    ∃ next, settle s = (.unit b, next) ∧ exhaust next = (⟨rest, f⟩, t) := by
  rcases hs : settle s with ⟨answer, next⟩
  cases answer with
  | unit c =>
    rw [exhaust_of_unit hs] at h
    simp only [Supply.cons, Prod.mk.injEq, Supply.mk.injEq, List.cons.injEq] at h
    obtain ⟨⟨⟨rfl, rfl⟩, rfl⟩, rfl⟩ := h
    exact ⟨next, rfl, rfl⟩
  | ended => simp [exhaust_of_ended hs] at h
  | fault g => simp [exhaust_of_fault hs] at h

theorem settle_of_exhaust_end {s t : σ} (h : exhaust s = (⟨[], none⟩, t)) :
    settle s = (.ended, t) := by
  rcases hs : settle s with ⟨answer, next⟩
  cases answer with
  | unit c => simp [exhaust_of_unit hs, Supply.cons] at h
  | ended => simpa [exhaust_of_ended hs] using h
  | fault g => simp [exhaust_of_fault hs] at h

theorem settle_of_exhaust_fault {s t : σ} {f : Fault} (h : exhaust s = (⟨[], some f⟩, t)) :
    settle s = (.fault f, t) := by
  rcases hs : settle s with ⟨answer, next⟩
  cases answer with
  | unit c => simp [exhaust_of_unit hs, Supply.cons] at h
  | ended => simp [exhaust_of_ended hs] at h
  | fault g => simpa [exhaust_of_fault hs] using h

/-- Interruptions in front make no difference to what a source gives. -/
theorem exhaust_of_interruption {s : σ} (h : (read s).1.IsInterruption) :
    exhaust s = exhaust (read s).2 := by
  rw [exhaust, exhaust, settle_of_interruption h]

end ByteSource
end ConfinedRelay
