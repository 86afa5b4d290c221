import ConfinedRelay.Proofs.BufferedTransfer

/-!
Reading from a file that grows. What a handle has handed out, what its buffer holds and
what lies behind its position make up the contents of its file, as long as nothing but
appends happens to the file. The end, once it is met, stays the end for this handle.
-/
namespace ConfinedRelay

theorem prefix_of_eq {a b : List UInt8} (h : a = b) : a <+: b := h ▸ List.prefix_rfl

namespace Tree

theorem contents_makeWay {t made : Tree} {place there : Place} {moves : List Move}
    (h : t.makeWay place moves = some (made, there)) (id : Nat) :
    made.contents id = t.contents id := by
  fun_induction makeWay t place moves with
  | case1 t place =>
    obtain ⟨rfl, rfl⟩ := Prod.mk.inj (Option.some.inj h)
    rfl
  | case2 t place moves ih => exact ih h
  | case3 t place moves ih => exact ih h
  | case4 t place name moves _ ih => exact ih h
  | case5 t place name moves _ ih => exact ih h
  | case6 t place name moves _ _ => simp at h
  | case7 t place name moves _ _ _ _ _ ih => exact ih h
  | case8 => simp at h
  | case9 => simp at h

/-- A file that is made takes a number of its own, so no other file changes. -/
theorem prefix_create (t : Tree) (place : Place) (bytes : List UInt8) (id : Nat) :
    t.contents id <+: (t.create place bytes).contents id := by
  rcases Nat.lt_or_ge id t.files.size with hlt | hge
  · have he : (t.create place bytes).contents id = t.contents id := by
      simp [contents, create, Array.getElem?_push, Nat.ne_of_lt hlt]
    exact prefix_of_eq he.symm
  · have he : t.contents id = [] := by simp [contents, hge]
    rw [he]
    exact List.nil_prefix

theorem prefix_update (t : Tree) {id target : Nat} {change : List UInt8 → List UInt8}
    (h : target = id → ∀ bytes, bytes <+: change bytes) :
    t.contents id <+: (t.update target change).contents id := by
  by_cases ht : target = id
  · simp only [contents, update, Array.getElem?_modify, if_pos ht]
    cases t.files[id]? with
    | none => exact List.prefix_rfl
    | some bytes => exact h ht bytes
  · have he : (t.update target change).contents id = t.contents id := by
      simp only [contents, update, Array.getElem?_modify, if_neg ht]
    exact prefix_of_eq he.symm

end Tree

namespace Host

/-- The file whose contents a write to a path replaces, if there is one. -/
def target? (h : Host) (path : String) : Option Nat :=
  match h.prepare path with
  | none => none
  | some (tree, directory, name) =>
    match tree.destination Walk.linkLimit directory name with
    | none => none
    | some place =>
      match tree.look place with
      | some (.file id) => some id
      | _ => none

/-- An edit that truncates or overwrites a file. -/
def Overwrites (h : Host) (e : Edit) (id : Nat) : Prop :=
  ∃ path bytes, e = .write path bytes ∧ h.target? path = some id

theorem contents_prepare {h : Host} {path : String} {tree : Tree} {directory : Place}
    {name : String} (hp : h.prepare path = some (tree, directory, name)) (id : Nat) :
    tree.contents id = h.tree.contents id := by
  simp only [prepare, Option.bind_eq_bind, Option.bind_eq_some_iff] at hp
  obtain ⟨location, _, ⟨made, there⟩, hw, he⟩ := hp
  obtain ⟨rfl, _⟩ := Prod.mk.inj (Option.some.inj he)
  exact Tree.contents_makeWay hw id

/-- A change that does not lead to a file, or only adds to it, leaves what it holds. -/
theorem prefix_change {h : Host} {path : String} {f : List UInt8 → List UInt8} {id : Nat}
    (hf : h.target? path = some id → ∀ bytes, bytes <+: f bytes) :
    h.tree.contents id <+: (h.change path f).tree.contents id := by
  unfold change
  unfold target? at hf
  cases hp : h.prepare path with
  | none => exact List.prefix_rfl
  | some p =>
    obtain ⟨tree, directory, name⟩ := p
    simp only [hp] at hf ⊢
    have hc := contents_prepare hp id
    cases hd : tree.destination Walk.linkLimit directory name with
    | none => exact List.prefix_rfl
    | some place =>
      simp only [hd] at hf ⊢
      cases hl : tree.look place with
      | none =>
        rw [← hc]
        exact tree.prefix_create place (f []) id
      | some entry =>
        cases entry with
        | directory => exact List.prefix_rfl
        | link target => exact List.prefix_rfl
        | file number =>
          simp only [hl] at hf ⊢
          rw [← hc]
          exact tree.prefix_update fun hn => hf (by rw [hn])

/-- Files only grow, except where they are overwritten. Names come and go without effect. -/
theorem prefix_edit {h : Host} {e : Edit} {id : Nat} (hs : ¬ h.Overwrites e id) :
    h.tree.contents id <+: (h.edit e).tree.contents id := by
  cases e with
  | write path bytes => exact prefix_change fun ht => absurd ⟨path, bytes, rfl, ht⟩ hs
  | append path bytes => exact prefix_change fun _ old => List.prefix_append old bytes
  | makeDirectory path =>
    simp only [edit]
    cases hw : h.tree.makeWay (h.start path) (Path.moves path) with
    | none => exact List.prefix_rfl
    | some made => exact prefix_of_eq (Tree.contents_makeWay hw id).symm
  | link path target =>
    simp only [edit]
    split
    · rename_i tree directory name hp
      split
      · exact prefix_of_eq ((tree.contents_put ..).trans (contents_prepare hp id)).symm
      · exact List.prefix_rfl
    · exact List.prefix_rfl
  | remove path =>
    simp only [edit]
    split
    · exact List.prefix_rfl
    · split
      · exact List.prefix_rfl
      · exact List.prefix_rfl

end Host

theorem BufferedFile.unread_append {f : BufferedFile} {bytes : List UInt8}
    (h : f.position ≤ bytes.length) (more : List UInt8) :
    f.unread (bytes ++ more) = f.unread bytes ++ more := by
  simp [unread, List.drop_append_of_le_length h]

/-- A read never takes more than the file holds. -/
theorem FileView.position_read {f : BufferedFile} {bytes : List UInt8}
    (h : f.position ≤ bytes.length) :
    (read ⟨f, .bytes bytes⟩).2.file.position ≤ bytes.length := by
  unfold read
  split
  · exact h
  · exact h
  · rename_i held _ hc
    obtain rfl := Content.bytes.inj hc
    split
    · exact h
    · rename_i rest hr
      have hlen := congrArg List.length hr
      simp only [List.length_take, List.length_drop, List.length_cons] at hlen
      simp only at hlen ⊢
      omega

/-- Whether a series of reads met the end of the resource. -/
def Portion.isLast (p : Portion) : Bool := decide (p.ending = .exhausted)

namespace Handle

/-- A handle on a file that holds these bytes: the units that it has handed out and
those that it has not make up the file. -/
structure Tracks (id : Nat) (bytes units : List UInt8) (ended : Bool)
    (h : Handle BufferedFile) : Prop where
  object : h.source.object = .file id
  whole : units ++ h.source.unread bytes = bytes
  offset : h.offset = units.length
  reached : h.source.position ≤ bytes.length
  phase : h.phase = if ended then .exhausted else .streaming

/-- The handle together with what its file holds. -/
def holding (bytes : List UInt8) (h : Handle BufferedFile) : Handle FileView :=
  h.mapSource fun f => ⟨f, .bytes bytes⟩

@[simp] theorem mapSource_holding (bytes : List UInt8) (h : Handle BufferedFile) :
    (h.holding bytes).mapSource FileView.file = h := rfl

section Track

variable {id : Nat} {bytes units : List UInt8} {ended : Bool} {h : Handle BufferedFile}

/-- What is appended to the file comes behind everything that is unread. -/
theorem Tracks.grow (ht : h.Tracks id bytes units ended) {later : List UInt8}
    (hp : bytes <+: later) : h.Tracks id later units ended := by
  obtain ⟨more, rfl⟩ := hp
  constructor
  · exact ht.object
  · rw [BufferedFile.unread_append ht.reached, ← List.append_assoc, ht.whole]
  · exact ht.offset
  · have hr := ht.reached
    rw [List.length_append]
    omega
  · exact ht.phase

theorem nextUnit_of_tracked_unit {b : UInt8} {rest : List UInt8}
    (ht : h.Tracks id bytes units false) (hu : h.source.unread bytes = b :: rest) :
    ∃ g : Handle BufferedFile, g.Tracks id bytes (units ++ [b]) false ∧
      g.source.unread bytes = rest ∧
      (h.holding bytes).nextUnit = { answer := .ok (some b), next := g.holding bytes } := by
  obtain ⟨f, ho, hf, hr⟩ := FileView.read_of_unread hu
  have hp := FileView.position_read ht.reached
  rw [hr] at hp
  refine ⟨⟨h.path, f, h.offset + 1, h.phase⟩, ?_, hf, ?_⟩
  · constructor
    · exact ho.trans ht.object
    · have hw := ht.whole
      rw [hu] at hw
      simpa [hf] using hw
    · simp [ht.offset]
    · exact hp
    · exact ht.phase
  · have hs : ByteSource.settle (h.holding bytes).source = (.unit b, ⟨f, .bytes bytes⟩) :=
      (FileView.settle_eq _).trans hr
    exact nextUnit_of_unit ht.phase hs

theorem nextUnit_of_tracked_end (ht : h.Tracks id bytes units false)
    (hu : h.source.unread bytes = []) :
    (h.holding bytes).nextUnit =
      { answer := .ok none, next := { h with phase := .exhausted }.holding bytes } := by
  have hs : ByteSource.settle (h.holding bytes).source = (.ended, ⟨h.source, .bytes bytes⟩) :=
    (FileView.settle_eq _).trans (FileView.read_of_unread_nil hu)
  have hp : (h.holding bytes).phase = .streaming := ht.phase
  simp only [nextUnit, hp, hs]
  rfl

/-- What a series of reads brings, and where it leaves the handle. It brings as many units as
are asked for, unless it meets the end. -/
structure Follows (id : Nat) (bytes units : List UInt8) (ended : Bool) (limit : Option Nat)
    (turn : Turn (Handle FileView) Portion) : Prop where
  next : (turn.next.mapSource FileView.file).Tracks id bytes (units ++ turn.answer.units)
    (ended || turn.answer.isLast)
  whole : ended = false → turn.answer.isLast → units ++ turn.answer.units = bytes
  silent : ended = true → turn.answer.units = []
  complete : turn.answer.isLast ∨ limit = some turn.answer.units.length
  bounded : ∀ n, limit = some n → turn.answer.units.length ≤ n

theorem follows_limit (ht : h.Tracks id bytes units ended) :
    Follows id bytes units ended (some 0) ((h.holding bytes).nextUnits (some 0)) := by
  rw [nextUnits_of_limit]
  constructor
  · simpa [Portion.isLast] using ht
  · intro _ hl
    simp [Portion.isLast] at hl
  · intro _
    rfl
  · exact .inr rfl
  · intro n _
    exact Nat.zero_le n

/-- Behind the end nothing is read any more, whatever the file holds by then. -/
theorem follows_ended {limit : Option Nat} (hl : limit ≠ some 0)
    (ht : h.Tracks id bytes units true) :
    Follows id bytes units true limit ((h.holding bytes).nextUnits limit) := by
  have hn := nextUnit_of_exhausted (h := h.holding bytes) ht.phase
  rw [nextUnits_of_none hl (by rw [hn]), hn]
  constructor
  · simpa using ht
  · intro he
    simp at he
  · intro _
    rfl
  · exact .inl rfl
  · intro n _
    exact Nat.zero_le n

theorem follows_end {limit : Option Nat} (hl : limit ≠ some 0)
    (ht : h.Tracks id bytes units false) (hu : h.source.unread bytes = []) :
    Follows id bytes units false limit ((h.holding bytes).nextUnits limit) := by
  have hn := nextUnit_of_tracked_end ht hu
  have hw := ht.whole
  rw [hu, List.append_nil] at hw
  rw [nextUnits_of_none hl (by rw [hn]), hn]
  constructor
  · constructor
    · exact ht.object
    · simpa using ht.whole
    · simpa using ht.offset
    · exact ht.reached
    · rfl
  · intro _ _
    simpa using hw
  · intro he
    simp at he
  · exact .inl rfl
  · intro n _
    exact Nat.zero_le n

/-- The induction is on the bytes that are unread; each read leaves one fewer. -/
theorem follows_streaming {rest : List UInt8} (limit : Option Nat)
    (ht : h.Tracks id bytes units false) (hu : h.source.unread bytes = rest) :
    Follows id bytes units false limit ((h.holding bytes).nextUnits limit) := by
  induction rest generalizing h units limit with
  | nil =>
    by_cases hl : limit = some 0
    · rw [hl]
      exact follows_limit ht
    · exact follows_end hl ht hu
  | cons b rest ih =>
    by_cases hl : limit = some 0
    · rw [hl]
      exact follows_limit ht
    · obtain ⟨g, hg, hrest, hn⟩ := nextUnit_of_tracked_unit ht hu
      have hf := ih (limit.map (· - 1)) hg hrest
      rw [nextUnits_of_unit hl (by rw [hn]), hn]
      constructor
      · have hnext := hf.next
        rw [List.append_assoc] at hnext
        exact hnext
      · intro he hlast
        have hw := hf.whole he hlast
        rw [List.append_assoc] at hw
        exact hw
      · intro he
        simp at he
      · refine hf.complete.imp_right fun hc => ?_
        obtain ⟨n, rfl, hn⟩ := Option.map_eq_some_iff.1 hc
        have hpos : n ≠ 0 := fun hz => hl (congrArg some hz)
        rw [List.length_cons, ← hn]
        congr
        omega
      · rintro n rfl
        have hpos : n ≠ 0 := fun hz => hl (congrArg some hz)
        rw [List.length_cons]
        exact Nat.add_le_of_le_sub (Nat.pos_of_ne_zero hpos) (hf.bounded (n - 1) rfl)

theorem follows_nextUnits (limit : Option Nat) (ht : h.Tracks id bytes units ended) :
    Follows id bytes units ended limit ((h.holding bytes).nextUnits limit) := by
  cases ended with
  | false => exact follows_streaming limit ht rfl
  | true =>
    by_cases hl : limit = some 0
    · rw [hl]
      exact follows_limit ht
    · exact follows_ended hl ht

end Track

end Handle
end ConfinedRelay
