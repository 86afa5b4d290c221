/-!
The pieces of a text between the occurrences of a separator. There is always one
piece more than there are separators, and glued together with the separator the
pieces give the text again.
-/
namespace ConfinedRelay.Text

def pieces (separator : Char) : List Char → List (List Char)
  | [] => [[]]
  | c :: rest =>
    if c = separator then [] :: pieces separator rest
    else (pieces separator rest).modifyHead (c :: ·)

def glue (separator : Char) : List (List Char) → List Char
  | [] => []
  | [p] => p
  | p :: q :: rest => p ++ separator :: glue separator (q :: rest)

theorem pieces_ne_nil (separator : Char) (s : List Char) : pieces separator s ≠ [] := by
  induction s with
  | nil => simp [pieces]
  | cons c rest ih =>
    unfold pieces
    split
    · simp
    · simpa using ih

theorem glue_cons (separator : Char) (p : List Char) {ps : List (List Char)} (h : ps ≠ []) :
    glue separator (p :: ps) = p ++ separator :: glue separator ps := by
  cases ps with
  | nil => exact absurd rfl h
  | cons q rest => rfl

theorem glue_modifyHead (separator c : Char) {ps : List (List Char)} (h : ps ≠ []) :
    glue separator (ps.modifyHead (c :: ·)) = c :: glue separator ps := by
  match ps, h with
  | [p], _ => rfl
  | p :: q :: rest, _ => rfl

@[simp] theorem glue_pieces (separator : Char) (s : List Char) :
    glue separator (pieces separator s) = s := by
  induction s with
  | nil => rfl
  | cons c rest ih =>
    unfold pieces
    split
    · rename_i hc
      rw [glue_cons _ _ (pieces_ne_nil _ _), ih, hc, List.nil_append]
    · rw [glue_modifyHead _ _ (pieces_ne_nil _ _), ih]

theorem pieces_of_not_mem {separator : Char} {s : List Char} (h : separator ∉ s) :
    pieces separator s = [s] := by
  induction s with
  | nil => rfl
  | cons c rest ih =>
    obtain ⟨hc, hrest⟩ := not_or.1 (mt List.mem_cons.2 h)
    rw [pieces, if_neg (Ne.symm hc), ih hrest]
    rfl

/-- A text is cut at each of its separators by itself. -/
theorem pieces_separated (separator : Char) (s t : List Char) :
    pieces separator (s ++ separator :: t) = pieces separator s ++ pieces separator t := by
  induction s with
  | nil => simp [pieces]
  | cons c rest ih =>
    simp only [List.cons_append, pieces, ih]
    split
    · rfl
    · cases hp : pieces separator rest with
      | nil => exact absurd hp (pieces_ne_nil _ _)
      | cons p ps => rfl

theorem pieces_append {separator : Char} {p : List Char} (h : separator ∉ p) (s : List Char) :
    pieces separator (p ++ separator :: s) = p :: pieces separator s := by
  rw [pieces_separated, pieces_of_not_mem h, List.singleton_append]

/-- Pieces that do not hold the separator are found again. -/
theorem pieces_glue {separator : Char} {ps : List (List Char)} (hne : ps ≠ [])
    (h : ∀ p ∈ ps, separator ∉ p) : pieces separator (glue separator ps) = ps := by
  induction ps with
  | nil => exact absurd rfl hne
  | cons p rest ih =>
    obtain ⟨hp, hrest⟩ := List.forall_mem_cons.1 h
    cases rest with
    | nil => exact pieces_of_not_mem hp
    | cons q rest =>
      rw [glue_cons _ _ (List.cons_ne_nil q rest), pieces_append hp,
        ih (List.cons_ne_nil q rest) hrest]

theorem glue_append (separator : Char) {ps qs : List (List Char)} (hp : ps ≠ []) (hq : qs ≠ []) :
    glue separator (ps ++ qs) = glue separator ps ++ separator :: glue separator qs := by
  induction ps with
  | nil => exact absurd rfl hp
  | cons p rest ih =>
    cases rest with
    | nil => exact glue_cons separator p hq
    | cons q rest =>
      have hne : q :: rest ++ qs ≠ [] := List.cons_ne_nil q _
      rw [List.cons_append, glue_cons _ _ hne, glue_cons _ _ (List.cons_ne_nil q rest),
        ih (List.cons_ne_nil q rest), List.append_assoc, List.cons_append]

theorem mem_of_mem_glue {separator c : Char} {ps : List (List Char)} (h : c ∈ glue separator ps) :
    c = separator ∨ ∃ p ∈ ps, c ∈ p := by
  induction ps with
  | nil => simp [glue] at h
  | cons p rest ih =>
    cases rest with
    | nil => exact .inr ⟨p, List.mem_cons_self, h⟩
    | cons q rest =>
      rw [glue_cons _ _ (List.cons_ne_nil q rest)] at h
      rcases List.mem_append.1 h with hp | hrest
      · exact .inr ⟨p, List.mem_cons_self, hp⟩
      · rcases List.mem_cons.1 hrest with hc | hmem
        · exact .inl hc
        · exact (ih hmem).imp_right fun ⟨r, hr, hc⟩ => ⟨r, List.mem_cons_of_mem p hr, hc⟩

theorem separator_not_mem_pieces (separator : Char) (s : List Char) :
    ∀ p ∈ pieces separator s, separator ∉ p := by
  induction s with
  | nil => simp [pieces]
  | cons c rest ih =>
    unfold pieces
    split
    · simpa using ih
    · rename_i hc
      cases hp : pieces separator rest with
      | nil => exact absurd hp (pieces_ne_nil _ _)
      | cons p ps =>
        rw [hp] at ih
        simp only [List.modifyHead_cons, List.mem_cons, forall_eq_or_imp] at ih ⊢
        exact ⟨fun h => h.elim (fun e => hc e.symm) ih.1, ih.2⟩

end ConfinedRelay.Text
