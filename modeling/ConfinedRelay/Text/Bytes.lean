/-!
Texts cut at numbers of bytes. A cut that would go through a character gives nothing.
-/
namespace ConfinedRelay.Text

/-- The number of bytes of a text. -/
def width : List Char → Nat
  | [] => 0
  | c :: s => c.utf8Size + width s

/-- The text behind so many bytes. -/
def dropBytes? : Nat → List Char → Option (List Char)
  | 0, s => some s
  | _ + 1, [] => none
  | n + 1, c :: s => if c.utf8Size ≤ n + 1 then dropBytes? (n + 1 - c.utf8Size) s else none

/-- So many bytes of a text from its beginning. -/
def takeBytes? : Nat → List Char → Option (List Char)
  | 0, _ => some []
  | _ + 1, [] => none
  | n + 1, c :: s =>
    if c.utf8Size ≤ n + 1 then (takeBytes? (n + 1 - c.utf8Size) s).map (c :: ·) else none

/-- So many bytes of a text behind so many others. -/
def slice? (start length : Nat) (s : List Char) : Option (List Char) :=
  (dropBytes? start s).bind (takeBytes? length)

@[simp] theorem width_nil : width [] = 0 := rfl

@[simp] theorem width_cons (c : Char) (s : List Char) :
    width (c :: s) = c.utf8Size + width s := rfl

theorem width_append (s t : List Char) : width (s ++ t) = width s + width t := by
  induction s with
  | nil => simp
  | cons c s ih => simp [ih, Nat.add_assoc]

theorem dropBytes?_width (s t : List Char) : dropBytes? (width s) (s ++ t) = some t := by
  induction s with
  | nil => cases t <;> rfl
  | cons c s ih =>
    have hc := c.utf8Size_pos
    obtain ⟨n, hn⟩ : ∃ n, c.utf8Size + width s = n + 1 := ⟨c.utf8Size + width s - 1, by omega⟩
    rw [width_cons, hn, List.cons_append, dropBytes?, if_pos (by omega),
      show n + 1 - c.utf8Size = width s by omega, ih]

theorem takeBytes?_width (s t : List Char) : takeBytes? (width s) (s ++ t) = some s := by
  induction s with
  | nil => cases t <;> rfl
  | cons c s ih =>
    have hc := c.utf8Size_pos
    obtain ⟨n, hn⟩ : ∃ n, c.utf8Size + width s = n + 1 := ⟨c.utf8Size + width s - 1, by omega⟩
    rw [width_cons, hn, List.cons_append, takeBytes?, if_pos (by omega),
      show n + 1 - c.utf8Size = width s by omega, ih, Option.map_some]

/-- A part of a text lies where its front ends. -/
theorem slice?_width (front part rest : List Char) :
    slice? (width front) (width part) (front ++ (part ++ rest)) = some part := by
  rw [slice?, dropBytes?_width, Option.bind_some, takeBytes?_width]

end ConfinedRelay.Text
