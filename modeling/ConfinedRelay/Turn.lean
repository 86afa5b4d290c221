import ConfinedRelay.Event

/-!
The steps of the machines that make up the relay. Each gives its answer, the state
that it leaves and what it has to report.
-/
namespace ConfinedRelay

structure Turn (σ α : Type) where
  answer : α
  next : σ
  events : List Event := []

end ConfinedRelay
