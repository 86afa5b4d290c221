import ConfinedRelay.Path

/-!
Splitting a path at its last component. The pieces of a path are those of its directory, a gap
that names nothing, the name, and a tail that names nothing either. From this follows all that
is said of the two parts: the components of the directory are those of the path but for the
name, the directory begins like the path, its text is without a gap at the end, and the two
parts put together are split in the same way again.
-/
namespace ConfinedRelay

/-- A list whose last elements satisfy `p` as far as they go. -/
theorem exists_trailing {α : Type} (p : α → Bool) (l : List α) :
    ∃ front gap, l = front ++ gap ∧ (∀ a ∈ gap, p a = true) ∧
      (∀ a ∈ front.getLast?, p a = false) := by
  induction l with
  | nil => exact ⟨[], [], rfl, by simp, by simp⟩
  | cons a rest ih =>
    obtain ⟨front, gap, rfl, hgap, hfront⟩ := ih
    cases front with
    | nil =>
      cases ha : p a with
      | true => exact ⟨[], a :: gap, rfl, by simpa [ha] using hgap, by simp⟩
      | false => exact ⟨[a], gap, rfl, hgap, by simpa using ha⟩
    | cons b front => exact ⟨a :: b :: front, gap, rfl, hgap, by simpa using hfront⟩

theorem dropWhile_reverse {α : Type} {p : α → Bool} (front : List α) {gap : List α}
    (hgap : ∀ a ∈ gap, p a = true) (hfront : ∀ a ∈ front.getLast?, p a = false) :
    (front ++ gap).reverse.dropWhile p = front.reverse := by
  rw [List.reverse_append, List.dropWhile_append_of_pos (by simpa using hgap)]
  cases hr : front.reverse with
  | nil => rfl
  | cons a rest =>
    have ha : front.getLast? = some a := by rw [← List.head?_reverse, hr, List.head?_cons]
    rw [List.dropWhile_cons_of_neg (by simp [hfront a ha])]

namespace Path

/-- The pieces that name something. -/
def named (pieces : List (List Char)) : List (List Char) := pieces.filter fun q => !isBlank q

theorem named_of_blank {pieces : List (List Char)} (h : ∀ q ∈ pieces, isBlank q = true) :
    named pieces = [] := by
  apply List.filter_eq_nil_iff.2
  intro q hq
  simp [h q hq]

/-- The pieces of a path on both sides of its last component. -/
structure Parted (path : String) (front gap : List (List Char)) (name : List Char)
    (tail : List (List Char)) : Prop where
  pieces : Text.pieces '/' path.toList = front ++ gap ++ name :: tail
  front : ∀ q ∈ front.getLast?, isBlank q = false
  gap : ∀ q ∈ gap, isBlank q = true
  name : isBlank name = false
  tail : ∀ q ∈ tail, isBlank q = true

/-- A path has a last component, or all of its pieces name nothing. -/
theorem exists_parted (path : String) :
    (∀ q ∈ Text.pieces '/' path.toList, isBlank q = true) ∨
      ∃ front gap name tail, Parted path front gap name tail := by
  obtain ⟨before, tail, hp, htail, hbefore⟩ := exists_trailing isBlank (Text.pieces '/' path.toList)
  rcases List.eq_nil_or_concat before with rfl | ⟨before, name, rfl⟩
  · left
    rwa [hp]
  · right
    rw [List.concat_eq_append] at hp hbefore
    obtain ⟨front, gap, rfl, hgap, hfront⟩ := exists_trailing isBlank before
    refine ⟨front, gap, name, tail, ?_, hfront, hgap, ?_, htail⟩
    · simpa using hp
    · simpa using hbefore

theorem split_of_blank {path : String}
    (h : ∀ q ∈ Text.pieces '/' path.toList, isBlank q = true) : split path = none := by
  have hd := dropWhile_reverse [] h (by simp)
  rw [List.nil_append] at hd
  rw [split, hd]
  rfl

theorem components_of_blank {path : String}
    (h : ∀ q ∈ Text.pieces '/' path.toList, isBlank q = true) : components path = [] :=
  named_of_blank h

namespace Parted

variable {path : String} {front gap tail : List (List Char)} {name : List Char}

theorem split_eq (h : Parted path front gap name tail) :
    split path = if name = parent then none
      else some ⟨directoryText (isAbsolute path) front, String.ofList name⟩ := by
  have hlast : (Text.pieces '/' path.toList).reverse.dropWhile isBlank =
      name :: (front ++ gap).reverse := by
    have hd := dropWhile_reverse (front ++ gap ++ [name]) h.tail (by simpa using h.name)
    rw [List.append_assoc _ [name] tail, List.singleton_append] at hd
    rw [h.pieces, hd]
    simp
  simp only [split, hlast, dropWhile_reverse front h.gap h.front, List.reverse_reverse]

theorem components_eq (h : Parted path front gap name tail) :
    components path = named front ++ [name] := by
  have hgap : named gap = [] := named_of_blank h.gap
  have htail : named tail = [] := named_of_blank h.tail
  unfold named at hgap htail
  simp [components, h.pieces, named, hgap, htail, h.name]

theorem not_mem (h : Parted path front gap name tail) :
    (∀ q ∈ front, '/' ∉ q) ∧ '/' ∉ name := by
  have hs := Text.separator_not_mem_pieces '/' path.toList
  rw [h.pieces] at hs
  exact ⟨fun q hq => hs q (by simp [hq]), hs name (by simp)⟩

end Parted

section Directory

theorem toList_directoryText {front : List (List Char)} (hne : front ≠ []) (absolute : Bool) :
    (directoryText absolute front).toList = Text.glue '/' front := by
  cases front with
  | nil => exact absurd rfl hne
  | cons q rest => simp [directoryText]

theorem exists_glue_concat (front : List (List Char)) (q : List Char) :
    ∃ lead, Text.glue '/' (front ++ [q]) = lead ++ q := by
  cases front with
  | nil => exact ⟨[], rfl⟩
  | cons p rest =>
    refine ⟨Text.glue '/' (p :: rest) ++ ['/'], ?_⟩
    rw [Text.glue_append '/' (List.cons_ne_nil p rest) (List.cons_ne_nil q [])]
    simp [Text.glue]

/-- A piece that names something ends neither in a slash nor in a slash and a dot. -/
theorem not_suffix_of_named {q : List Char} (hb : isBlank q = false) (hs : '/' ∉ q)
    (lead : List Char) : ¬ ['/'] <:+ lead ++ q ∧ ¬ ['/', '.'] <:+ lead ++ q := by
  have hq := List.suffix_append lead q
  constructor
  · intro h
    rcases List.suffix_or_suffix_of_suffix h hq with hlong | hshort
    · exact hs (hlong.mem (by simp))
    · rcases List.suffix_cons_iff.1 hshort with rfl | hnil
      · simp at hs
      · simp [List.suffix_nil.1 hnil, isBlank] at hb
  · intro h
    rcases List.suffix_or_suffix_of_suffix h hq with hlong | hshort
    · exact hs (hlong.mem (by simp))
    · rcases List.suffix_cons_iff.1 hshort with rfl | hdot
      · simp at hs
      · rcases List.suffix_cons_iff.1 hdot with rfl | hnil
        · simp [isBlank] at hb
        · simp [List.suffix_nil.1 hnil, isBlank] at hb

/-- What the text of a directory has to do with its path and with its pieces. -/
structure IsDirectory (path : String) (front : List (List Char)) (directory : String) :
    Prop where
  nonempty : directory ≠ ""
  absolute : isAbsolute directory = isAbsolute path
  components : components directory = named front
  origin : directory.toList <+: path.toList ∨
    directory = "." ∧ isAbsolute path = false ∧ front = []
  slash : ['/'] <:+ directory.toList → directory = "/"
  dot : ¬ ['/', '.'] <:+ directory.toList

theorem isDirectory_root {path : String} (ha : isAbsolute path = true) :
    IsDirectory path [] "/" := by
  constructor
  · decide
  · rw [ha]
    rfl
  · rfl
  · left
    have hh : path.toList.head? = some '/' := by simpa [isAbsolute] using ha
    obtain ⟨rest, hr⟩ := List.head?_eq_some_iff.1 hh
    exact ⟨rest, hr.symm⟩
  · intro _
    rfl
  · intro hs
    exact absurd hs.length_le (by decide)

theorem isDirectory_current {path : String} (ha : isAbsolute path = false) :
    IsDirectory path [] "." := by
  constructor
  · decide
  · rw [ha]
    rfl
  · rfl
  · exact .inr ⟨rfl, ha, rfl⟩
  · intro hs
    exact absurd (hs.mem (List.mem_singleton_self '/')) (by decide)
  · intro hs
    exact absurd hs.length_le (by decide)

namespace Parted

variable {path : String} {front gap tail : List (List Char)} {name : List Char}

/-- A directory with pieces of its own is where the path begins. -/
theorem toList_eq (h : Parted path front gap name tail) (hne : front ≠ []) :
    path.toList = Text.glue '/' front ++ '/' :: Text.glue '/' (gap ++ name :: tail) := by
  rw [← Text.glue_append '/' hne (by simp), ← List.append_assoc, ← h.pieces, Text.glue_pieces]

theorem isDirectory_of_pieces (h : Parted path front gap name tail) (hne : front ≠ []) :
    IsDirectory path front (directoryText (isAbsolute path) front) := by
  have htext := toList_directoryText hne (isAbsolute path)
  obtain ⟨before, q, rfl⟩ := (List.eq_nil_or_concat front).resolve_left hne
  rw [List.concat_eq_append] at h hne htext ⊢
  have hq : isBlank q = false := h.front q (by simp)
  have hs : '/' ∉ q := h.not_mem.1 q (by simp)
  obtain ⟨lead, hlead⟩ := exists_glue_concat before q
  obtain ⟨hslash, hdot⟩ := not_suffix_of_named hq hs lead
  have hpath := h.toList_eq hne
  have hnonempty : Text.glue '/' (before ++ [q]) ≠ [] := by
    rw [hlead]
    simp only [ne_eq, List.append_eq_nil_iff, not_and]
    rintro _ rfl
    simp [isBlank] at hq
  constructor
  · intro he
    rw [he] at htext
    exact hnonempty htext.symm
  · have hhead : (directoryText (isAbsolute path) (before ++ [q])).toList.head? =
        path.toList.head? := by
      obtain ⟨c, rest, hc⟩ := List.exists_cons_of_ne_nil hnonempty
      rw [htext, hpath, hc]
      rfl
    unfold isAbsolute at hhead ⊢
    rw [hhead]
  · rw [Path.components, htext, Text.pieces_glue hne h.not_mem.1]
    rfl
  · left
    rw [htext, hpath]
    exact List.prefix_append _ _
  · intro hsuffix
    rw [htext, hlead] at hsuffix
    exact absurd hsuffix hslash
  · rwa [htext, hlead]

theorem isDirectory (h : Parted path front gap name tail) :
    IsDirectory path front (directoryText (isAbsolute path) front) := by
  cases front with
  | nil =>
    cases ha : isAbsolute path with
    | true => exact isDirectory_root ha
    | false => exact isDirectory_current ha
  | cons q rest => exact h.isDirectory_of_pieces (List.cons_ne_nil q rest)

/-- The two parts put together are a path with the same parts. -/
theorem rejoined (h : Parted path front gap name tail) :
    ∃ gap', Parted (directoryText (isAbsolute path) front ++ "/" ++ String.ofList name)
      front gap' name [] := by
  have hname := h.not_mem.2
  cases front with
  | nil =>
    cases isAbsolute path with
    | true =>
      refine ⟨[[], []], ?_, by simp, by simp [isBlank], h.name, by simp⟩
      simp [directoryText, Text.pieces, Text.pieces_of_not_mem hname]
    | false =>
      refine ⟨[['.']], ?_, by simp, by simp [isBlank], h.name, by simp⟩
      simp [directoryText, Text.pieces, Text.pieces_of_not_mem hname]
  | cons q rest =>
    refine ⟨[], ?_, h.front, by simp, h.name, by simp⟩
    have hne := List.cons_ne_nil q rest
    have hslash : ∀ p ∈ q :: rest ++ [name], '/' ∉ p := by
      intro p hp
      rcases List.mem_append.1 hp with hfront | hlast
      · exact h.not_mem.1 p hfront
      · rwa [List.mem_singleton.1 hlast]
    have htext : (directoryText (isAbsolute path) (q :: rest) ++ "/" ++
        String.ofList name).toList = Text.glue '/' (q :: rest ++ [name]) := by
      rw [Text.glue_append '/' hne (List.cons_ne_nil name []), String.toList_append,
        String.toList_append, toList_directoryText hne]
      simp [Text.glue]
    rw [htext, Text.pieces_glue (by simp) hslash, List.append_nil]

end Parted
end Directory

theorem isAbsolute_append {s : String} (hs : s ≠ "") (t : String) :
    isAbsolute (s ++ t) = isAbsolute s := by
  have hne : s.toList ≠ [] := fun he => hs (String.toList_injective he)
  obtain ⟨c, rest, hc⟩ := List.exists_cons_of_ne_nil hne
  simp [isAbsolute, hc]

theorem split_eq_none_iff (path : String) :
    split path = none ↔ components path = [] ∨ (components path).getLast? = some parent := by
  rcases exists_parted path with hblank | ⟨front, gap, name, tail, hp⟩
  · simp [split_of_blank hblank, components_of_blank hblank]
  · rw [hp.split_eq, hp.components_eq]
    simp

theorem parted_of_split {path : String} {l : Location} (hs : split path = some l) :
    ∃ front gap name tail, Parted path front gap name tail ∧ name ≠ parent ∧
      l = ⟨directoryText (isAbsolute path) front, String.ofList name⟩ := by
  rcases exists_parted path with hblank | ⟨front, gap, name, tail, hp⟩
  · simp [split_of_blank hblank] at hs
  · rw [hp.split_eq] at hs
    split at hs
    · simp at hs
    · rename_i hn
      exact ⟨front, gap, name, tail, hp, hn, (Option.some.inj hs).symm⟩

/-- The parts of a path, as the split finds them. -/
structure HasParts (path : String) (l : Location) : Prop where
  components : components path = components l.directory ++ [l.name.toList]
  name : isBlank l.name.toList = false ∧ l.name.toList ≠ parent ∧ '/' ∉ l.name.toList
  directory : ∃ front, IsDirectory path front l.directory
  again : split (l.directory ++ "/" ++ l.name) = some l

theorem hasParts_of_split {path : String} {l : Location} (hs : split path = some l) :
    HasParts path l := by
  obtain ⟨front, gap, name, tail, hp, hn, rfl⟩ := parted_of_split hs
  have hd := hp.isDirectory
  obtain ⟨gap', hr⟩ := hp.rejoined
  have habsolute : isAbsolute (directoryText (isAbsolute path) front ++ "/" ++
      String.ofList name) = isAbsolute path := by
    rw [String.append_assoc, isAbsolute_append hd.nonempty, hd.absolute]
  refine ⟨?_, ?_, ⟨front, hd⟩, ?_⟩
  · rw [hp.components_eq, hd.components, String.toList_ofList]
  · rw [String.toList_ofList]
    exact ⟨hp.name, hn, hp.not_mem.2⟩
  · rw [hr.split_eq, if_neg hn, habsolute]

/-- Paths with the same components are split at the same one. -/
theorem parts_congr {p q : String} {l m : Location} (hl : HasParts p l) (hm : HasParts q m)
    (hc : components q = components p) :
    m.name = l.name ∧ components m.directory = components l.directory := by
  have he := hc
  rw [hl.components, hm.components] at he
  obtain ⟨hd, hn⟩ := List.append_inj' he rfl
  exact ⟨String.toList_injective (List.singleton_inj.1 hn), hd⟩

/-- A path is split at its last component, unless there is none or it goes up. -/
theorem split_parts (p : String) :
    (split p = none ↔ components p = [] ∨ (components p).getLast? = some ['.', '.']) ∧
    (∀ l, split p = some l →
      components p = components l.directory ++ [l.name.toList] ∧
      l.name ≠ "" ∧ '/' ∉ l.name.toList ∧ l.name ≠ "." ∧ l.name ≠ ".." ∧
      l.directory ≠ "" ∧ isAbsolute l.directory = isAbsolute p ∧
      (l.directory.toList <+: p.toList ∨
        l.directory = "." ∧ isAbsolute p = false ∧ (components p).length = 1) ∧
      (['/'] <:+ l.directory.toList → l.directory = "/") ∧
      ¬ ['/', '.'] <:+ l.directory.toList ∧
      split (l.directory ++ "/" ++ l.name) = some l) ∧
    -- repeated and trailing slashes and dots do not matter
    ∀ q, components q = components p → isAbsolute q = isAbsolute p →
      (split q = none ↔ split p = none) ∧
      ∀ l m, split p = some l → split q = some m →
        m.name = l.name ∧ components m.directory = components l.directory ∧
        isAbsolute m.directory = isAbsolute l.directory := by
  refine ⟨split_eq_none_iff p, ?_, ?_⟩
  · intro l hl
    have hp := hasParts_of_split hl
    obtain ⟨hblank, hparent, hslash⟩ := hp.name
    obtain ⟨front, hd⟩ := hp.directory
    refine ⟨hp.components, ?_, hslash, ?_, ?_, hd.nonempty, hd.absolute, ?_, hd.slash, hd.dot,
      hp.again⟩
    · intro he
      simp [he, isBlank] at hblank
    · intro he
      simp [he, isBlank] at hblank
    · intro he
      simp [he, parent] at hparent
    · rcases hd.origin with hprefix | ⟨hdot, habsolute, hfront⟩
      · exact .inl hprefix
      · refine .inr ⟨hdot, habsolute, ?_⟩
        rw [hp.components, hd.components, hfront]
        rfl
  · intro q hc ha
    constructor
    · rw [split_eq_none_iff, split_eq_none_iff, hc]
    · intro l m hl hm
      have hp := hasParts_of_split hl
      have hq := hasParts_of_split hm
      obtain ⟨hname, hdirectory⟩ := parts_congr hp hq hc
      obtain ⟨_, hpd⟩ := hp.directory
      obtain ⟨_, hqd⟩ := hq.directory
      exact ⟨hname, hdirectory, by rw [hqd.absolute, hpd.absolute, ha]⟩

end Path
end ConfinedRelay
