import ConfinedRelay.Walk

/-!
Walks as courses of steps. One step goes along one move and meets one link or none, and a
course is steps in a row with all their links. A walk succeeds exactly if its course comes to
the end of the moves within the limit, and past the limit it fails for the link that was one
too many. Steps are unique, and they do not look at the moves behind their own.
-/
namespace ConfinedRelay
namespace Walk

section Equations

variable {look : Place → Option Entry} {reach : Reach} {links : Nat} {place : Place}
variable {name target : String} {moves : List Move}

@[simp] theorem walk_nil : walk look reach links place [] = .ok place := by
  rw [walk]

theorem walk_stay (hd : look place = some .directory) :
    walk look reach links place (.stay :: moves) = walk look reach links place moves := by
  rw [walk, if_neg (not_not_intro hd)]

theorem walk_up (hd : look (name :: place) = some .directory) :
    walk look reach links (name :: place) (.up :: moves) = walk look reach links place moves := by
  rw [walk, if_neg (not_not_intro hd)]

theorem walk_up_from_root (hd : look [] = some .directory) :
    walk look .anywhere links [] (.up :: moves) = walk look .anywhere links [] moves := by
  rw [walk, if_neg (not_not_intro hd)]

theorem walk_into_directory (hd : look place = some .directory)
    (hn : name.utf8ByteSize ≤ nameLimit) (hl : look (name :: place) = some .directory) :
    walk look reach links place (.into name :: moves) =
      walk look reach links (name :: place) moves := by
  rw [walk, if_neg (not_not_intro hd)]
  simp only [if_neg (Nat.not_lt.2 hn), hl]

theorem walk_into_file {id : Nat} (hd : look place = some .directory)
    (hn : name.utf8ByteSize ≤ nameLimit) (hl : look (name :: place) = some (.file id)) :
    walk look reach links place (.into name :: moves) =
      walk look reach links (name :: place) moves := by
  rw [walk, if_neg (not_not_intro hd)]
  simp only [if_neg (Nat.not_lt.2 hn), hl]

theorem walk_link_beyond_limit (hd : look place = some .directory)
    (hn : name.utf8ByteSize ≤ nameLimit) (hl : look (name :: place) = some (.link target)) :
    walk look reach 0 place (.into name :: moves) = .error (.system .linkLoop) := by
  rw [walk, if_neg (not_not_intro hd)]
  simp only [if_neg (Nat.not_lt.2 hn), hl]

theorem walk_absolute_link (hd : look place = some .directory)
    (hn : name.utf8ByteSize ≤ nameLimit) (hl : look (name :: place) = some (.link target))
    (ha : Path.isAbsolute target = true) :
    walk look .anywhere (links + 1) place (.into name :: moves) =
      walk look .anywhere links [] (Path.moves target ++ moves) := by
  rw [walk, if_neg (not_not_intro hd)]
  simp only [if_neg (Nat.not_lt.2 hn), hl, if_pos ha]

theorem walk_relative_link (hd : look place = some .directory)
    (hn : name.utf8ByteSize ≤ nameLimit) (hl : look (name :: place) = some (.link target))
    (ha : Path.isAbsolute target = false) :
    walk look reach (links + 1) place (.into name :: moves) =
      walk look reach links place (Path.moves target ++ moves) := by
  rw [walk, if_neg (not_not_intro hd)]
  simp only [if_neg (Nat.not_lt.2 hn), hl, ha, Bool.false_eq_true, if_false]

end Equations

section Course

/-- One step of a walk: from a place with moves to come, by way of so many links, to the next
place with the moves to come there. -/
inductive Step (look : Place → Option Entry) (reach : Reach) :
    Place → List Move → Nat → Place → List Move → Prop
  | stay {place : Place} {moves : List Move} (directory : look place = some .directory) :
      Step look reach place (.stay :: moves) 0 place moves
  | up {name : String} {place : Place} {moves : List Move}
      (directory : look (name :: place) = some .directory) :
      Step look reach (name :: place) (.up :: moves) 0 place moves
  | upFromRoot {moves : List Move} (anywhere : reach = .anywhere)
      (directory : look [] = some .directory) :
      Step look reach [] (.up :: moves) 0 [] moves
  | intoDirectory {name : String} {place : Place} {moves : List Move}
      (directory : look place = some .directory) (short : name.utf8ByteSize ≤ nameLimit)
      (found : look (name :: place) = some .directory) :
      Step look reach place (.into name :: moves) 0 (name :: place) moves
  | intoFile {name : String} {place : Place} {moves : List Move} {id : Nat}
      (directory : look place = some .directory) (short : name.utf8ByteSize ≤ nameLimit)
      (found : look (name :: place) = some (.file id)) :
      Step look reach place (.into name :: moves) 0 (name :: place) moves
  | relativeLink {name target : String} {place : Place} {moves : List Move}
      (directory : look place = some .directory) (short : name.utf8ByteSize ≤ nameLimit)
      (found : look (name :: place) = some (.link target))
      (relative : Path.isAbsolute target = false) :
      Step look reach place (.into name :: moves) 1 place (Path.moves target ++ moves)
  | absoluteLink {name target : String} {place : Place} {moves : List Move}
      (anywhere : reach = .anywhere) (directory : look place = some .directory)
      (short : name.utf8ByteSize ≤ nameLimit)
      (found : look (name :: place) = some (.link target))
      (absolute : Path.isAbsolute target = true) :
      Step look reach place (.into name :: moves) 1 [] (Path.moves target ++ moves)

/-- Steps in a row from a place along the moves, with the number of links that they meet. -/
inductive Course (look : Place → Option Entry) (reach : Reach) (start : Place)
    (moves : List Move) : Nat → Place → List Move → Prop
  | start : Course look reach start moves 0 start moves
  | step {m k : Nat} {p q : Place} {ms ns : List Move} :
      Course look reach start moves m p ms → Step look reach p ms k q ns →
      Course look reach start moves (m + k) q ns

variable {look : Place → Option Entry} {reach : Reach} {p q r : Place} {ms ns os : List Move}
variable {k m n links : Nat}

theorem Step.moves_ne_nil (h : Step look reach p ms k q ns) : ms ≠ [] := by
  cases h <;> exact List.cons_ne_nil _ _

theorem Step.unique {q' : Place} {k' : Nat} {ns' : List Move} (h : Step look reach p ms k q ns)
    (h' : Step look reach p ms k' q' ns') : k = k' ∧ q = q' ∧ ns = ns' := by
  cases h <;> cases h' <;> simp_all

theorem Step.append (h : Step look reach p ms k q ns) (behind : List Move) :
    Step look reach p (ms ++ behind) k q (ns ++ behind) := by
  cases h with
  | stay hd => exact .stay hd
  | up hd => exact .up hd
  | upFromRoot ha hd => exact .upFromRoot ha hd
  | intoDirectory hd hs hf => exact .intoDirectory hd hs hf
  | intoFile hd hs hf => exact .intoFile hd hs hf
  | relativeLink hd hs hf hr =>
    rw [List.append_assoc]
    exact .relativeLink hd hs hf hr
  | absoluteLink ha hd hs hf hr =>
    rw [List.append_assoc]
    exact .absoluteLink ha hd hs hf hr

theorem Step.of_append {move : Move} {behind : List Move}
    (h : Step look reach p (move :: (ms ++ behind)) k q ns) :
    ∃ ns', ns = ns' ++ behind ∧ Step look reach p (move :: ms) k q ns' := by
  cases h with
  | stay hd => exact ⟨ms, rfl, .stay hd⟩
  | up hd => exact ⟨ms, rfl, .up hd⟩
  | upFromRoot ha hd => exact ⟨ms, rfl, .upFromRoot ha hd⟩
  | intoDirectory hd hs hf => exact ⟨ms, rfl, .intoDirectory hd hs hf⟩
  | intoFile hd hs hf => exact ⟨ms, rfl, .intoFile hd hs hf⟩
  | relativeLink hd hs hf hr => exact ⟨_, (List.append_assoc ..).symm, .relativeLink hd hs hf hr⟩
  | absoluteLink ha hd hs hf hr =>
    exact ⟨_, (List.append_assoc ..).symm, .absoluteLink ha hd hs hf hr⟩

theorem Step.directory (h : Step look reach p ms k q ns) : look p = some .directory := by
  cases h <;> assumption

/-- A step takes its links from those that are left, if there are enough. -/
theorem walk_of_step (h : Step look reach p ms k q ns) (links : Nat) :
    walk look reach links p ms =
      if k ≤ links then walk look reach (links - k) q ns else .error (.system .linkLoop) := by
  cases h with
  | stay hd => exact walk_stay hd
  | up hd => exact walk_up hd
  | upFromRoot ha hd =>
    subst ha
    exact walk_up_from_root hd
  | intoDirectory hd hs hf => exact walk_into_directory hd hs hf
  | intoFile hd hs hf => exact walk_into_file hd hs hf
  | relativeLink hd hs hf hr =>
    cases links with
    | zero => exact walk_link_beyond_limit hd hs hf
    | succ links => simpa using walk_relative_link hd hs hf hr
  | absoluteLink ha hd hs hf hr =>
    subst ha
    cases links with
    | zero => exact walk_link_beyond_limit hd hs hf
    | succ links => simpa using walk_absolute_link hd hs hf hr

namespace Course

theorem cons (s : Step look reach p ms k q ns) (c : Course look reach q ns n r os) :
    Course look reach p ms (k + n) r os := by
  induction c with
  | start =>
    have one : Course look reach p ms (0 + k) q ns := .step .start s
    rwa [Nat.zero_add] at one
  | step _ last ih => simpa only [Nat.add_assoc] using ih.step last

theorem trans (c : Course look reach p ms m q ns) (d : Course look reach q ns n r os) :
    Course look reach p ms (m + n) r os := by
  induction d with
  | start => exact c
  | step _ last ih => simpa only [Nat.add_assoc] using ih.step last

theorem append (c : Course look reach p ms m q ns) (behind : List Move) :
    Course look reach p (ms ++ behind) m q (ns ++ behind) := by
  induction c with
  | start => exact .start
  | step _ last ih => exact ih.step (last.append behind)

/-- A course along moves with others behind them has not reached those, or it has come to its
end in front of them and gone on from there. -/
theorem cases_append {behind : List Move} (c : Course look reach p (ms ++ behind) n q os) :
    (∃ os', os = os' ++ behind ∧ Course look reach p ms n q os') ∨
      ∃ r m k, n = m + k ∧ Course look reach p ms m r [] ∧
        Course look reach r behind k q os := by
  induction c with
  | start => exact .inl ⟨ms, rfl, .start⟩
  | @step n k q q' os os' _ last ih =>
    rcases ih with ⟨ahead, rfl, before⟩ | ⟨r, m, l, rfl, first, second⟩
    · cases ahead with
      | nil => exact .inr ⟨q, n, 0 + k, by omega, before, Course.start.step last⟩
      | cons move ahead =>
        obtain ⟨ahead', rfl, s⟩ := last.of_append
        exact .inl ⟨ahead', rfl, before.step s⟩
    · exact .inr ⟨r, m, l + k, by omega, first, second.step last⟩

/-- A course to the end of moves in two parts is a course along each. -/
theorem split {behind : List Move} (c : Course look reach p (ms ++ behind) n q []) :
    ∃ r m k, n = m + k ∧ Course look reach p ms m r [] ∧ Course look reach r behind k q [] := by
  rcases c.cases_append with ⟨os, hos, before⟩ | h
  · obtain ⟨rfl, rfl⟩ := List.append_eq_nil_iff.1 hos.symm
    exact ⟨q, n, 0, rfl, before, .start⟩
  · exact h

end Course

/-- A walk ends as it would from any point of its course, unless a link was one too many
before. The induction is on the way to that point. -/
theorem walk_of_course (c : Course look reach p ms m q ns) (links : Nat) :
    walk look reach links p ms =
      if m ≤ links then walk look reach (links - m) q ns else .error (.system .linkLoop) := by
  induction c with
  | start => simp
  | @step m k q r ns os _ last ih =>
    rw [ih, walk_of_step last]
    by_cases hm : m ≤ links
    · rw [if_pos hm, Nat.sub_sub]
      by_cases hk : m + k ≤ links
      · rw [if_pos hk, if_pos (by omega)]
      · rw [if_neg hk, if_neg (by omega)]
    · rw [if_neg hm, if_neg (by omega)]

/-- A walk that succeeds has come to the end of its moves. -/
theorem course_of_walk (h : walk look reach links p ms = .ok q) :
    ∃ n ≤ links, Course look reach p ms n q [] := by
  fun_induction walk look reach links p ms with
  | case1 links place =>
    obtain rfl := Except.ok.inj h
    exact ⟨0, Nat.zero_le _, .start⟩
  | case3 links place moves hd ih =>
    obtain ⟨n, hn, c⟩ := ih h
    exact ⟨0 + n, by omega, c.cons (.stay (Decidable.not_not.1 hd))⟩
  | case4 links moves name above hd ih =>
    obtain ⟨n, hn, c⟩ := ih h
    exact ⟨0 + n, by omega, c.cons (.up (Decidable.not_not.1 hd))⟩
  | case5 links moves hr hd ih =>
    obtain ⟨n, hn, c⟩ := ih (hr.symm ▸ h)
    exact ⟨0 + n, by omega, c.cons (.upFromRoot hr (Decidable.not_not.1 hd))⟩
  | case9 links place moves hd name hs hf ih =>
    obtain ⟨n, hn, c⟩ := ih h
    exact ⟨0 + n, by omega, c.cons (.intoDirectory (Decidable.not_not.1 hd) (Nat.not_lt.1 hs) hf)⟩
  | case10 links place moves hd name hs id hf ih =>
    obtain ⟨n, hn, c⟩ := ih h
    exact ⟨0 + n, by omega, c.cons (.intoFile (Decidable.not_not.1 hd) (Nat.not_lt.1 hs) hf)⟩
  | case12 place moves hd name hs target hf links ha hr ih =>
    obtain ⟨n, hn, c⟩ := ih (hr.symm ▸ h)
    exact ⟨1 + n, by omega,
      c.cons (.absoluteLink hr (Decidable.not_not.1 hd) (Nat.not_lt.1 hs) hf ha)⟩
  | case14 place moves hd name hs target hf links ha ih =>
    obtain ⟨n, hn, c⟩ := ih h
    exact ⟨1 + n, by omega, c.cons (.relativeLink (Decidable.not_not.1 hd) (Nat.not_lt.1 hs) hf
      (Bool.not_eq_true _ ▸ ha))⟩
  | _ => simp at h

/-- A link to the directory that it is in is met, and leads nowhere. -/
theorem Course.link_to_itself {name : String} (directory : look p = some .directory)
    (short : name.utf8ByteSize ≤ nameLimit) (found : look (name :: p) = some (.link "."))
    (ms : List Move) : Course look reach p (.into name :: ms) 1 p ms := by
  have link : Step look reach p (.into name :: ms) 1 p (.stay :: ms) :=
    .relativeLink directory short found (by decide)
  exact (Course.start.step link).step (.stay directory)

/-- A move that leads nowhere, made again and again. -/
theorem Course.replicate {move : Move}
    (h : ∀ ms, Course look reach p (move :: ms) k p ms) (n : Nat) (ms : List Move) :
    Course look reach p (List.replicate n move ++ ms) (n * k) p ms := by
  induction n with
  | zero =>
    rw [Nat.zero_mul]
    exact .start
  | succ n ih =>
    have hc := (h _).trans ih
    rwa [Nat.add_comm, ← Nat.succ_mul] at hc

end Course

end Walk
end ConfinedRelay
