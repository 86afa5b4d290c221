import ConfinedRelay.Proofs.Confinement
import ConfinedRelay.Proofs.PathParts

/-!
Opening in two stages compared with one ordinary walk. What a path opens is what an ordinary
walk along its directory and its name reaches, and an ordinary walk whose links stay beneath
the directory reaches what the path opens. So confinement refuses paths that lead out and
changes nothing else. Only the limits differ: each stage has links of its own, and the name
does not count for the length of the directory's text.
-/
namespace ConfinedRelay

namespace Walk

section Beneath

variable {look : Place → Option Entry} {d p q r : Place} {ms ns os : List Move} {k m n : Nat}
variable {name : String}

/-- An ordinary walk does not leave a directory by its next step: the step does not go up from
there, not even at the root, and it meets no absolute link. -/
structure Stays (look : Place → Option Entry) (d p : Place) (moves : List Move) : Prop where
  climbs : moves.head? = some .up → p ≠ d
  relative : ∀ name target, moves.head? = some (.into name) →
    look (name :: p) = some (.link target) → Path.isAbsolute target = false

/-- All links that an ordinary walk from a name in a directory goes through are relative, and
none of them climbs above the directory, not even to come back. -/
def StaysBeneath (look : Place → Option Entry) (d : Place) (name : String) : Prop :=
  ∀ n p moves, Course look .anywhere d [.into name] n p moves → Stays look d p moves

/-- A step beneath a directory is an ordinary step. -/
theorem Step.ordinary (h : Step (fun q => look (q ++ d)) .beneath p ms k q ns) :
    Step look .anywhere (p ++ d) ms k (q ++ d) ns := by
  cases h with
  | stay hd => exact .stay hd
  | up hd => exact .up hd
  | upFromRoot ha _ => cases ha
  | intoDirectory hd hs hf => exact .intoDirectory hd hs hf
  | intoFile hd hs hf => exact .intoFile hd hs hf
  | relativeLink hd hs hf hr => exact .relativeLink hd hs hf hr
  | absoluteLink ha _ _ _ _ => cases ha

theorem Step.stays (h : Step (fun q => look (q ++ d)) .beneath p ms k q ns) :
    Stays look d (p ++ d) ms := by
  cases h with
  | stay hd => exact ⟨by simp, by simp⟩
  | up hd =>
    refine ⟨fun _ he => ?_, by simp⟩
    have hl := congrArg List.length he
    simp only [List.length_cons, List.length_append] at hl
    omega
  | upFromRoot ha _ => cases ha
  | intoDirectory hd hs hf =>
    refine ⟨by simp, fun name target hm hl => ?_⟩
    obtain rfl := Move.into.inj (Option.some.inj hm)
    cases hf.symm.trans hl
  | intoFile hd hs hf =>
    refine ⟨by simp, fun name target hm hl => ?_⟩
    obtain rfl := Move.into.inj (Option.some.inj hm)
    cases hf.symm.trans hl
  | relativeLink hd hs hf hr =>
    refine ⟨by simp, fun name target hm hl => ?_⟩
    obtain rfl := Move.into.inj (Option.some.inj hm)
    cases hf.symm.trans hl
    exact hr
  | absoluteLink ha _ _ _ _ => cases ha

/-- An ordinary step that does not leave the directory is a step beneath it. -/
theorem Step.beneath (h : Step look .anywhere p ms k r ns) (hs : Stays look d p ms)
    (hp : p = q ++ d) :
    ∃ q', r = q' ++ d ∧ Step (fun q => look (q ++ d)) .beneath q ms k q' ns := by
  cases h with
  | stay hd =>
    subst hp
    exact ⟨q, rfl, .stay hd⟩
  | up hd =>
    cases q with
    | nil => exact absurd hp (hs.climbs rfl)
    | cons name q =>
      obtain ⟨rfl, rfl⟩ := List.cons.inj hp
      exact ⟨q, rfl, .up hd⟩
  | upFromRoot _ hd =>
    obtain ⟨-, rfl⟩ := List.append_eq_nil_iff.1 hp.symm
    exact absurd rfl (hs.climbs rfl)
  | @intoDirectory name _ _ hd hn hf =>
    subst hp
    exact ⟨name :: q, rfl, .intoDirectory hd hn hf⟩
  | @intoFile name _ _ _ hd hn hf =>
    subst hp
    exact ⟨name :: q, rfl, .intoFile hd hn hf⟩
  | relativeLink hd hn hf hr =>
    subst hp
    exact ⟨q, rfl, .relativeLink hd hn hf hr⟩
  | absoluteLink _ _ _ hf hr => simp [hs.relative _ _ rfl hf] at hr

theorem Course.ordinary (c : Course (fun q => look (q ++ d)) .beneath p ms n q ns) :
    Course look .anywhere (p ++ d) ms n (q ++ d) ns := by
  induction c with
  | start => exact .start
  | step _ last ih => exact ih.step last.ordinary

/-- The induction is on the ordinary course, which does not leave the directory at any point. -/
theorem Course.beneath (hs : StaysBeneath look d name)
    (c : Course look .anywhere d [.into name] n r ms) :
    ∃ q, r = q ++ d ∧ Course (fun q => look (q ++ d)) .beneath [] [.into name] n q ms := by
  induction c with
  | start => exact ⟨[], rfl, .start⟩
  | step before last ih =>
    obtain ⟨q, hq, c⟩ := ih
    obtain ⟨q', hq', s⟩ := last.beneath (hs _ _ _ before) hq
    exact ⟨q', hq', c.step s⟩

/-- A course is at its end, or it begins with a step. -/
theorem Course.cases_first {reach : Reach} (c : Course look reach p ms n q ns) :
    (n = 0 ∧ p = q ∧ ms = ns) ∨
      ∃ k r os m, Step look reach p ms k r os ∧ Course look reach r os m q ns := by
  induction c with
  | start => exact .inl ⟨rfl, rfl, rfl⟩
  | step _ last ih =>
    rcases ih with ⟨-, rfl, rfl⟩ | ⟨k, r, os, m, first, between⟩
    · exact .inr ⟨_, _, _, _, last, .start⟩
    · exact .inr ⟨k, r, os, _, first, between.step last⟩

/-- Whatever an ordinary walk passes on its way, a walk beneath the directory that comes to its
end passes too. -/
theorem Course.passes (c : Course (fun q => look (q ++ d)) .beneath [] [.into name] n q [])
    (o : Course look .anywhere d [.into name] m r ms) :
    ∃ p l, r = p ++ d ∧ Course (fun q => look (q ++ d)) .beneath p ms l q [] := by
  induction o with
  | start => exact ⟨[], n, rfl, c⟩
  | step _ last ih =>
    obtain ⟨p, l, rfl, rest⟩ := ih
    rcases rest.cases_first with ⟨-, -, rfl⟩ | ⟨k, p', os, l', first, behind⟩
    · exact absurd rfl last.moves_ne_nil
    · obtain ⟨-, rfl, rfl⟩ := last.unique first.ordinary
      exact ⟨p', l', rfl, behind⟩

theorem staysBeneath_of_course
    (c : Course (fun q => look (q ++ d)) .beneath [] [.into name] n q []) :
    StaysBeneath look d name := by
  intro m r ms o
  obtain ⟨p, l, rfl, rest⟩ := c.passes o
  rcases rest.cases_first with ⟨-, -, rfl⟩ | ⟨k, p', os, l', first, behind⟩
  · exact ⟨by simp, by simp⟩
  · exact first.stays

end Beneath
end Walk

/-- The text that names both parts of a location. -/
def Location.text (l : Location) : String := l.directory ++ "/" ++ l.name

section Text

variable {path : String} {l : Location}

theorem Path.moves_text (hs : Path.split path = some l) :
    Path.moves l.text = Path.moves l.directory ++ [.into l.name] := by
  have ht : l.text.toList = l.directory.toList ++ '/' :: l.name.toList := by
    simp [Location.text]
  rw [← Path.moves_name hs]
  simp only [Path.moves, ht, Text.pieces_separated, List.map_append]

theorem Path.isAbsolute_text (hs : Path.split path = some l) :
    Path.isAbsolute l.text = Path.isAbsolute l.directory := by
  obtain ⟨_, hd⟩ := (Path.hasParts_of_split hs).directory
  rw [Location.text, String.append_assoc, Path.isAbsolute_append hd.nonempty]

end Text

namespace Host

/-- Where one ordinary walk along a path leads. -/
def follow (h : Host) (path : String) : Except Fault Place :=
  if path.toList.contains '\x00' then .error nulInPath
  else if pathLimit ≤ path.utf8ByteSize then .error (.system .nameTooLong)
  else h.tree.resolve h.current path

/-- The place where the two stages of opening a location end. -/
def EndsAt (h : Host) (l : Location) (place : Place) : Prop :=
  ∃ d q, h.openDirectory l.directory = .ok d ∧ h.tree.resolveBeneath d l.name = .ok q ∧
    q ++ d = place

section Stages

variable {h : Host} {path : String} {l : Location} {d place : Place} {object : FileObject}

theorem resolve_eq (h : Host) (path : String) :
    h.tree.resolve h.current path =
      Walk.walk h.tree.look .anywhere Walk.linkLimit (h.start path) (Path.moves path) := rfl

theorem follow_eq_ok_iff : h.follow path = .ok place ↔ ¬ path.toList.contains '\x00' ∧
    path.utf8ByteSize < pathLimit ∧ h.tree.resolve h.current path = .ok place := by
  unfold follow
  split
  · simp_all
  · split
    · have hlong : ¬ path.utf8ByteSize < pathLimit := by omega
      simp [hlong]
    · simp_all

theorem openDirectory_eq_ok_iff : h.openDirectory path = .ok d ↔
    h.follow path = .ok d ∧ h.tree.look d = some .directory := by
  unfold openDirectory follow
  split
  · simp
  · split
    · simp
    · cases h.tree.resolve h.current path with
      | error f => simp
      | ok place =>
        dsimp only
        split <;> grind

theorem openBeneath_eq_ok_iff : h.openBeneath d l.name = .ok object ↔
    ¬ l.name.toList.contains '\x00' ∧ ∃ q, h.tree.resolveBeneath d l.name = .ok q ∧
      h.tree.object? (q ++ d) = some object := by
  rw [openBeneath_eq]
  split
  · simp_all
  · cases h.tree.resolveBeneath d l.name with
    | error f => simp_all
    | ok q =>
      dsimp only
      cases ho : h.tree.object? (q ++ d) <;> simp_all

/-- What opening in two stages comes down to. -/
theorem open_eq_ok_iff (hs : Path.split path = some l) {handle : Handle BufferedFile} :
    (h.open path).answer = .ok handle ↔ ∃ d q object, h.openDirectory l.directory = .ok d ∧
      ¬ l.name.toList.contains '\x00' ∧ h.tree.resolveBeneath d l.name = .ok q ∧
      h.tree.object? (q ++ d) = some object ∧ handle = ⟨path, { object }, 0, .streaming⟩ := by
  cases hd : h.openDirectory l.directory with
  | error f =>
    have ho : h.openObject path = .error f := by simp only [openObject, hs, hd]
    simp [open_of_error ho]
  | ok d =>
    have hb := openObject_of_split hs hd
    cases ho : h.openBeneath d l.name with
    | error f =>
      rw [open_of_error (hb.trans ho)]
      constructor
      · simp
      · rintro ⟨d', q, object, hd', hn, hq, hp, -⟩
        obtain rfl := Except.ok.inj hd'
        simp [openBeneath_eq_ok_iff.2 ⟨hn, q, hq, hp⟩] at ho
    | ok object =>
      rw [open_of_ok (hb.trans ho)]
      obtain ⟨hn, q, hq, hp⟩ := openBeneath_eq_ok_iff.1 ho
      constructor
      · rintro he
        exact ⟨d, q, object, rfl, hn, hq, hp, (Except.ok.inj he).symm⟩
      · rintro ⟨d', q', object', hd', -, hq', hp', rfl⟩
        obtain rfl := Except.ok.inj hd'
        obtain rfl := Except.ok.inj (hq.symm.trans hq')
        obtain rfl := Option.some.inj (hp.symm.trans hp')
        rfl

theorem contains_nul_text :
    l.text.toList.contains '\x00' = (l.directory.toList.contains '\x00' ||
      l.name.toList.contains '\x00') := by
  simp [Location.text]

theorem utf8ByteSize_directory_le : l.directory.utf8ByteSize ≤ l.text.utf8ByteSize := by
  simp only [Location.text, String.utf8ByteSize_append]
  omega

/-- The two stages go the way of one walk along both parts. -/
theorem course_of_stages {q : Place} (hs : Path.split path = some l)
    (hd : h.tree.resolve h.current l.directory = .ok d)
    (hq : h.tree.resolveBeneath d l.name = .ok q) :
    ∃ n, Walk.Course h.tree.look .anywhere (h.start l.text) (Path.moves l.text) n (q ++ d) [] ∧
      Walk.StaysBeneath h.tree.look d l.name := by
  obtain ⟨m, -, first⟩ := Walk.course_of_walk (resolve_eq h l.directory ▸ hd)
  obtain ⟨k, -, second⟩ := Walk.course_of_walk hq
  have hstart : h.start l.text = h.start l.directory := by
    simp only [start, Path.isAbsolute_text hs]
  refine ⟨m + k, ?_, Walk.staysBeneath_of_course second⟩
  rw [hstart, Path.moves_text hs]
  exact (first.append _).trans second.ordinary

theorem resolve_of_course {m : Nat}
    (c : Walk.Course h.tree.look .anywhere (h.start path) (Path.moves path) m d [])
    (hm : m ≤ Walk.linkLimit) : h.tree.resolve h.current path = .ok d := by
  rw [resolve_eq, Walk.walk_of_course c, if_pos hm, Walk.walk_nil]

/-- Both stages come to their ends, each within its own limits. -/
theorem open_of_courses {m k : Nat} {q : Place} (hs : Path.split path = some l)
    (hz : ¬ l.text.toList.contains '\x00') (hl : l.directory.utf8ByteSize < pathLimit)
    (outer : Walk.Course h.tree.look .anywhere (h.start l.directory) (Path.moves l.directory) m d
      [])
    (inner : Walk.Course (fun q => h.tree.look (q ++ d)) .beneath [] [.into l.name] k q [])
    (hm : m ≤ Walk.linkLimit) (hk : k ≤ Walk.linkLimit)
    (ho : h.tree.object? (q ++ d) = some object) :
    h.EndsAt l (q ++ d) ∧ (h.open path).answer = .ok ⟨path, { object }, 0, .streaming⟩ := by
  rw [contains_nul_text, Bool.or_eq_true, not_or] at hz
  have hf := follow_eq_ok_iff.2 ⟨hz.1, hl, resolve_of_course outer hm⟩
  have hdirectory : h.tree.look d = some .directory := by
    rcases inner.cases_first with ⟨-, -, he⟩ | ⟨_, _, _, _, first, -⟩
    · cases he
    · exact first.directory
  have hd := openDirectory_eq_ok_iff.2 ⟨hf, hdirectory⟩
  have hq : h.tree.resolveBeneath d l.name = .ok q := by
    have hw : h.tree.resolveBeneath d l.name = _ := Walk.walk_of_course inner Walk.linkLimit
    rw [hw, if_pos hk, Walk.walk_nil]
  exact ⟨⟨d, q, hd, hq, rfl⟩, (open_eq_ok_iff hs).2 ⟨d, q, object, hd, hz.2, hq, ho, rfl⟩⟩

end Stages

/-- A path opens what one ordinary walk along its directory and its name reaches, unless a
limit stops that walk. What such a walk reaches by links that stay beneath the directory is
what the path opens. -/
theorem open_transparent {h : Host} {path : String} {l : Location}
    (hs : Path.split path = some l) :
    (∀ handle, (h.open path).answer = .ok handle → ∃ d place n,
      h.follow l.directory = .ok d ∧ h.EndsAt l place ∧
      h.tree.object? place = some handle.source.object ∧
      Walk.StaysBeneath h.tree.look d l.name ∧
      Walk.Course h.tree.look .anywhere (h.start l.text) (Path.moves l.text) n place [] ∧
      h.follow l.text =
        if pathLimit ≤ l.text.utf8ByteSize then .error (.system .nameTooLong)
        else if n ≤ Walk.linkLimit then .ok place
        else .error (.system .linkLoop)) ∧
    ∀ place, h.follow l.text = .ok place → ∃ d, h.follow l.directory = .ok d ∧
      (Walk.StaysBeneath h.tree.look d l.name → ∀ object, h.tree.object? place = some object →
        h.EndsAt l place ∧
        (h.open path).answer = .ok ⟨path, { object }, 0, .streaming⟩) := by
  constructor
  · intro handle ho
    obtain ⟨d, q, object, hd, hn, hq, hp, rfl⟩ := (open_eq_ok_iff hs).1 ho
    obtain ⟨hf, -⟩ := openDirectory_eq_ok_iff.1 hd
    obtain ⟨hz, -, hr⟩ := follow_eq_ok_iff.1 hf
    obtain ⟨n, c, hstays⟩ := course_of_stages hs hr hq
    refine ⟨d, q ++ d, n, hf, ⟨d, q, hd, hq, rfl⟩, hp, hstays, c, ?_⟩
    have hnul : ¬ l.text.toList.contains '\x00' := by
      rw [contains_nul_text]
      simp_all
    rw [follow, if_neg hnul, resolve_eq, Walk.walk_of_course c, Walk.walk_nil]
  · intro place hf
    obtain ⟨hz, hl, hr⟩ := follow_eq_ok_iff.1 hf
    obtain ⟨n, hn, c⟩ := Walk.course_of_walk (resolve_eq h l.text ▸ hr)
    have hstart : h.start l.text = h.start l.directory := by
      simp only [start, Path.isAbsolute_text hs]
    rw [hstart, Path.moves_text hs] at c
    obtain ⟨d, m, k, rfl, outer, second⟩ := c.split
    have hsize := Nat.lt_of_le_of_lt utf8ByteSize_directory_le hl
    refine ⟨d, ?_, fun hstays object ho => ?_⟩
    · rw [contains_nul_text, Bool.or_eq_true, not_or] at hz
      exact follow_eq_ok_iff.2 ⟨hz.1, hsize, resolve_of_course outer (by omega)⟩
    · obtain ⟨q, rfl, inner⟩ := second.beneath hstays
      exact open_of_courses hs hz hsize outer inner (by omega) (by omega) ho

/-- A path through links that stay in the directory, which is itself found through one. -/
theorem open_transparent_through_links :
    let h : Host :=
      { tree := {
          entries := [(["f", "t"], .file 0), (["a", "t"], .link "u/../f"), (["u", "t"], .directory),
            (["t"], .directory), (["s"], .link "t")]
          files := #[[1, 2]] } }
    Path.split "s/a" = some ⟨"s", "a"⟩ ∧ h.follow "s/a" = .ok ["f", "t"] ∧
      Walk.StaysBeneath h.tree.look ["t"] "a" ∧
      (h.open "s/a").answer = .ok ⟨"s/a", { object := .file 0 }, 0, .streaming⟩ := by
  intro h
  have hs : Path.split "s/a" = some ⟨"s", "a"⟩ := rfl
  have link : Walk.Step (fun q => h.tree.look (q ++ ["t"])) .beneath [] [.into "a"] 1 []
      (Path.moves "u/../f" ++ []) := .relativeLink rfl (by decide) rfl rfl
  have down : Walk.Step (fun q => h.tree.look (q ++ ["t"])) .beneath [] (Path.moves "u/../f" ++ [])
      0 ["u"] [.up, .into "f"] := .intoDirectory rfl (by decide) rfl
  have inner : Walk.Course (fun q => h.tree.look (q ++ ["t"])) .beneath [] [.into "a"] 1 ["f"] [] :=
    (((Walk.Course.start.step link).step down).step (.up rfl)).step
      (.intoFile rfl (by decide) rfl)
  have link' : Walk.Step h.tree.look .anywhere [] [.into "s"] 1 [] (Path.moves "t" ++ []) :=
    .relativeLink rfl (by decide) rfl rfl
  have outer : Walk.Course h.tree.look .anywhere [] [.into "s"] 1 ["t"] [] :=
    (Walk.Course.start.step link').step (.intoDirectory rfl (by decide) rfl)
  have hstays := Walk.staysBeneath_of_course inner
  have hf : h.follow "s/a" = .ok ["f", "t"] := by
    refine follow_eq_ok_iff.2 ⟨by decide, by decide, ?_⟩
    exact resolve_of_course ((outer.append [.into "a"]).trans inner.ordinary) (by decide)
  obtain ⟨d, hd, hopen⟩ := (open_transparent hs).2 _ hf
  have hd' : h.follow "s" = .ok ["t"] :=
    follow_eq_ok_iff.2 ⟨by decide, by decide, resolve_of_course outer (by decide)⟩
  obtain rfl := Except.ok.inj (hd.symm.trans hd')
  exact ⟨hs, hf, hstays, (hopen hstays _ rfl).2⟩

section Limits

/-- A location whose directory is found by one piece again and again, and then another. -/
def repeating (n : Nat) (p q name : List Char) : Location :=
  ⟨String.ofList (Text.glue '/' (List.replicate n p ++ [q])), String.ofList name⟩

variable {n : Nat} {p q name : List Char}

theorem toList_repeating (n : Nat) (p q name : List Char) :
    (repeating n p q name).text.toList =
      Text.glue '/' (List.replicate n p ++ [q] ++ [name]) := by
  rw [Text.glue_append '/' (by simp) (by simp)]
  simp [repeating, Location.text, Text.glue]

theorem forall_mem_repeating (P : List Char → Prop) (hp : P p) (hq : P q) (hname : P name) :
    ∀ r ∈ List.replicate n p ++ [q] ++ [name], P r := by
  simp only [List.mem_append, List.mem_replicate, List.mem_singleton]
  rintro r ((⟨-, rfl⟩ | rfl) | rfl) <;> assumption

theorem split_repeating (hp : '/' ∉ p) (hq : '/' ∉ q) (hname : '/' ∉ name)
    (hb : Path.isBlank q = false) (hb' : Path.isBlank name = false) (hup : name ≠ Path.parent) :
    Path.split (repeating n p q name).text = some (repeating n p q name) := by
  have hparted :
      Path.Parted (repeating n p q name).text (List.replicate n p ++ [q]) [] name [] := by
    refine ⟨?_, by simp [hb], by simp, hb', by simp⟩
    rw [toList_repeating, Text.pieces_glue (by simp) (forall_mem_repeating _ hp hq hname),
      List.append_nil]
  rw [hparted.split_eq, if_neg hup]
  cases n <;> rfl

theorem moves_repeating (hp : '/' ∉ p) (hq : '/' ∉ q) :
    Path.moves (repeating n p q name).directory =
      List.replicate n (Move.ofPiece p) ++ [Move.ofPiece q] := by
  have hslash : ∀ r ∈ List.replicate n p ++ [q], '/' ∉ r := fun r hr =>
    forall_mem_repeating ('/' ∉ ·) hp hq hq r (List.mem_append_left _ hr)
  simp [Path.moves, repeating, Text.pieces_glue (List.concat_ne_nil q _) hslash]

theorem utf8ByteSize_repeating (n : Nat) (p q name : List Char) :
    (repeating n p q name).directory.utf8ByteSize =
      n * ((String.ofList p).utf8ByteSize + 1) + (String.ofList q).utf8ByteSize := by
  have hslash : (String.ofList ['/']).utf8ByteSize = 1 := by decide
  unfold repeating
  induction n with
  | zero => simp [Text.glue]
  | succ n ih =>
    have hc : ∀ s, p ++ '/' :: s = p ++ (['/'] ++ s) := fun _ => rfl
    dsimp only at ih ⊢
    rw [List.replicate_succ, List.cons_append, Text.glue_cons _ _ (by simp), hc,
      String.ofList_append, String.ofList_append, String.utf8ByteSize_append,
      String.utf8ByteSize_append, ih, hslash, Nat.succ_mul]
    omega

theorem nul_not_mem_repeating (hp : '\x00' ∉ p) (hq : '\x00' ∉ q) (hname : '\x00' ∉ name) :
    ¬ (repeating n p q name).text.toList.contains '\x00' := by
  rw [toList_repeating, List.contains_iff_mem]
  intro h
  rcases Text.mem_of_mem_glue h with hc | ⟨r, hr, hc⟩
  · cases hc
  · exact forall_mem_repeating ('\x00' ∉ ·) hp hq hname r hr hc

/-- Both stages stay within their limits, and one walk along both parts does not: the forty
links of the directory and one of the name are too many, or the text is too long. -/
theorem opened_beyond_one_walk :
    let h : Host :=
      { tree := {
          entries := [(["f", "d"], .file 0), (["d"], .directory), (["x"], .link ".")]
          files := #[[1, 2]] } }
    let links := repeating 39 ['x'] ['x'] ['x']
    let long := repeating 2047 ['.'] ['d'] ['f']
    (Path.split links.text = some links ∧
      (h.open links.text).answer = .ok ⟨links.text, { object := .directory }, 0, .streaming⟩ ∧
      h.follow links.text = .error (.system .linkLoop)) ∧
    Path.split long.text = some long ∧
      (h.open long.text).answer = .ok ⟨long.text, { object := .file 0 }, 0, .streaming⟩ ∧
      h.follow long.text = .error (.system .nameTooLong) := by
  intro h links long
  have hstart : ∀ path, h.start path = [] := by
    intro path
    unfold start
    split <;> rfl
  constructor
  · have hs : Path.split links.text = some links :=
      split_repeating (by decide) (by decide) (by decide) rfl rfl (by decide)
    have hz : ¬ links.text.toList.contains '\x00' :=
      nul_not_mem_repeating (by decide) (by decide) (by decide)
    have hl : links.directory.utf8ByteSize = 79 := utf8ByteSize_repeating 39 ['x'] ['x'] ['x']
    have hmoves : Path.moves links.directory = List.replicate 40 (.into "x") ++ [] :=
      moves_repeating (by decide) (by decide)
    have hx : ∀ ms, Walk.Course h.tree.look .anywhere [] (.into "x" :: ms) 1 [] ms :=
      Walk.Course.link_to_itself rfl (by decide) rfl
    have inner : Walk.Course (fun q => h.tree.look (q ++ [])) .beneath [] [.into "x"] 1 [] [] :=
      Walk.Course.link_to_itself rfl (by decide) rfl []
    have outer : Walk.Course h.tree.look .anywhere (h.start links.directory)
        (Path.moves links.directory) 40 [] [] := by
      rw [hstart, hmoves]
      exact Walk.Course.replicate hx 40 []
    have both : Walk.Course h.tree.look .anywhere (h.start links.text) (Path.moves links.text)
        41 [] [] := by
      rw [hstart, Path.moves_text hs, hmoves, List.append_assoc]
      exact (Walk.Course.replicate hx 40 _).trans (hx [])
    refine ⟨hs, (open_of_courses hs hz ?_ outer inner (by decide) (by decide) rfl).2, ?_⟩
    · rw [hl]
      decide
    · have ht : ¬ pathLimit ≤ links.text.utf8ByteSize := by
        simp only [Location.text, String.utf8ByteSize_append, hl]
        decide
      rw [follow, if_neg hz, if_neg ht, resolve_eq, Walk.walk_of_course both]
      rfl
  · have hs : Path.split long.text = some long :=
      split_repeating (by decide) (by decide) (by decide) rfl rfl (by decide)
    have hz : ¬ long.text.toList.contains '\x00' :=
      nul_not_mem_repeating (by decide) (by decide) (by decide)
    have hl : long.directory.utf8ByteSize = 4095 := utf8ByteSize_repeating 2047 ['.'] ['d'] ['f']
    have hmoves : Path.moves long.directory = List.replicate 2047 .stay ++ [.into "d"] :=
      moves_repeating (by decide) (by decide)
    have hdot : ∀ ms, Walk.Course h.tree.look .anywhere [] (.stay :: ms) 0 [] ms :=
      fun ms => Walk.Course.start.step (.stay rfl)
    have outer : Walk.Course h.tree.look .anywhere (h.start long.directory)
        (Path.moves long.directory) 0 ["d"] [] := by
      rw [hstart, hmoves]
      exact (Walk.Course.replicate hdot 2047 _).step (.intoDirectory rfl (by decide) rfl)
    have inner :
        Walk.Course (fun q => h.tree.look (q ++ ["d"])) .beneath [] [.into "f"] 0 ["f"] [] :=
      Walk.Course.start.step (.intoFile rfl (by decide) rfl)
    refine ⟨hs, (open_of_courses hs hz ?_ outer inner (by decide) (by decide) rfl).2, ?_⟩
    · rw [hl]
      decide
    · have ht : pathLimit ≤ long.text.utf8ByteSize := by
        simp only [Location.text, String.utf8ByteSize_append, hl]
        decide
      rw [follow, if_neg hz, if_pos ht]

end Limits

end Host
end ConfinedRelay
