/-!
A finite script of answers, held as runs of equal answers so that long runs cost
nothing. The view `toList` spells the answers out one by one; `next?` takes the
first of them.
-/
namespace ConfinedRelay

structure Script (α : Type) where
  runs : List (Nat × α) := []
  deriving Repr

namespace Script

def ofList (answers : List α) : Script α := ⟨answers.map (1, ·)⟩

def toList (s : Script α) : List α :=
  s.runs.flatMap fun run => List.replicate run.1 run.2

/-- Take the first answer from runs of answers. -/
def takeFirst : List (Nat × α) → Option (α × List (Nat × α))
  | [] => none
  | (0, _) :: runs => takeFirst runs
  | (n + 1, a) :: runs => some (a, (n, a) :: runs)

def next? (s : Script α) : Option (α × Script α) :=
  (takeFirst s.runs).map fun p => (p.1, ⟨p.2⟩)

/-- How many answers are left. -/
def length (s : Script α) : Nat := s.toList.length

@[simp] theorem toList_ofList (answers : List α) : (ofList answers).toList = answers := by
  induction answers with
  | nil => rfl
  | cons a rest ih =>
    simp only [toList, ofList, List.map_cons, List.flatMap_cons] at ih ⊢
    simp [ih]

theorem toList_of_takeFirst_none {runs : List (Nat × α)} (h : takeFirst runs = none) :
    (Script.mk runs).toList = [] := by
  fun_induction takeFirst runs with
  | case1 => rfl
  | case2 _ runs ih => simpa [toList] using ih h
  | case3 => simp at h

theorem toList_of_takeFirst {runs rest : List (Nat × α)} {a : α}
    (h : takeFirst runs = some (a, rest)) :
    (Script.mk runs).toList = a :: (Script.mk rest).toList := by
  fun_induction takeFirst runs with
  | case1 => simp at h
  | case2 _ runs ih => simpa [toList] using ih h
  | case3 n b runs =>
    obtain ⟨rfl, rfl⟩ := Prod.mk.inj (Option.some.inj h)
    simp [toList, List.replicate_succ]

theorem toList_of_next?_none {s : Script α} (h : s.next? = none) : s.toList = [] :=
  toList_of_takeFirst_none (by simpa [next?] using h)

theorem toList_of_next? {s t : Script α} {a : α} (h : s.next? = some (a, t)) :
    s.toList = a :: t.toList := by
  simp only [next?, Option.map_eq_some_iff] at h
  obtain ⟨⟨b, runs⟩, hp, he⟩ := h
  obtain ⟨rfl, rfl⟩ := Prod.mk.inj he
  exact toList_of_takeFirst hp

theorem next?_of_nil {s : Script α} (h : s.toList = []) : s.next? = none := by
  rcases hn : s.next? with _ | ⟨a, t⟩
  · rfl
  · simp [toList_of_next? hn] at h

theorem next?_of_cons {s : Script α} {a : α} {later : List α} (h : s.toList = a :: later) :
    ∃ t : Script α, t.toList = later ∧ s.next? = some (a, t) := by
  rcases hn : s.next? with _ | ⟨b, t⟩
  · simp [toList_of_next?_none hn] at h
  · rw [toList_of_next? hn] at h
    obtain ⟨rfl, rfl⟩ := List.cons.inj h
    exact ⟨t, rfl, rfl⟩

theorem length_of_next? {s t : Script α} {a : α} (h : s.next? = some (a, t)) :
    s.length = t.length + 1 := by
  rw [length, length, toList_of_next? h, List.length_cons]

end Script
end ConfinedRelay
