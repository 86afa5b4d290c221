import ConfinedRelay.Proofs.Confinement
import ConfinedRelay.Proofs.GrowingFile
import ConfinedRelay.Session

/-!
Sessions as they go on. Whatever the requests are and however they are interleaved, a
handle reads the file that it was opened on from its first byte to the end that it
meets, as long as nobody overwrites that file. Requests about other handles make no
difference to it.
-/
namespace ConfinedRelay

/-- A request to read from this handle. -/
def Request.readsFrom (i : Nat) : Request → Bool
  | .read j _ => decide (j = i)
  | .edit _ | .open _ | .run .. | .transfer .. => false

/-- A request that this handle may take notice of. -/
def Request.concerns (i : Nat) : Request → Bool
  | .edit _ => true
  | .read j _ => decide (j = i)
  | .open _ | .run .. | .transfer .. => false

theorem Request.readsFrom_of_not_concerns {i : Nat} {r : Request} (h : r.concerns i = false) :
    r.readsFrom i = false := by
  cases r <;> simp_all [concerns, readsFrom]

def Reply.portion? : Reply → Option Portion
  | .read portion _ => some portion
  | .edited | .opened _ | .noHandle | .ran .. | .transferred .. => none

namespace Session

/-- Carry out requests one after another. -/
def performAll (s : Session) : List Request → Turn Session (List (Request × Reply))
  | [] => { answer := [], next := s }
  | r :: later =>
    let turn := s.perform r
    let rest := turn.next.performAll later
    { answer := (r, turn.answer) :: rest.answer
      next := rest.next
      events := turn.events ++ rest.events }

/-- What the reads from one handle have brought, in order. -/
def portions (i : Nat) (record : List (Request × Reply)) : List Portion :=
  (record.filter (·.1.readsFrom i)).filterMap (·.2.portion?)

def units (ps : List Portion) : List UInt8 := ps.flatMap (·.units)

/-- None of the requests truncates or overwrites this file. -/
def Spares (id : Nat) (s : Session) : List Request → Prop
  | [] => True
  | r :: later => (∀ e, r = .edit e → ¬ s.host.Overwrites e id) ∧ Spares id (s.perform r).next later

/-- A handle of a session that has handed out these units of a file. -/
def Follows (i id : Nat) (units : List UInt8) (ended : Bool) (s : Session) : Prop :=
  ∃ handle, s.handles[i]? = some handle ∧ handle.Tracks id (s.host.tree.contents id) units ended

theorem performAll_append (s : Session) (earlier later : List Request) :
    s.performAll (earlier ++ later) =
      let before := s.performAll earlier
      let after := before.next.performAll later
      { answer := before.answer ++ after.answer
        next := after.next
        events := before.events ++ after.events } := by
  induction earlier generalizing s with
  | nil => simp [performAll]
  | cons r rest ih => simp [performAll, ih]

theorem portions_of_other {s : Session} {i : Nat} {r : Request} (hr : r.readsFrom i = false)
    (later : List Request) :
    portions i (s.performAll (r :: later)).answer =
      portions i ((s.perform r).next.performAll later).answer := by
  simp [performAll, portions, hr]

theorem portions_of_read {s : Session} {i : Nat} {limit : Option Nat} {portion : Portion}
    {handle : Handle BufferedFile} (hr : (s.read i limit).answer = .read portion handle)
    (later : List Request) :
    portions i (s.performAll (.read i limit :: later)).answer =
      portion :: portions i ((s.read i limit).next.performAll later).answer := by
  have hk : (Request.read i limit).readsFrom i = true := by simp [Request.readsFrom]
  simp [performAll, portions, perform, hk, hr, Reply.portion?]

theorem portions_of_others {i : Nat} {requests : List Request}
    (hr : ∀ r ∈ requests, r.readsFrom i = false) (s : Session) :
    portions i (s.performAll requests).answer = [] := by
  induction requests generalizing s with
  | nil => rfl
  | cons r later ih =>
    rw [portions_of_other (hr r List.mem_cons_self)]
    exact ih (fun q hq => hr q (List.mem_cons_of_mem r hq)) _

theorem portions_append (i : Nat) (earlier later : List (Request × Reply)) :
    portions i (earlier ++ later) = portions i earlier ++ portions i later := by
  simp [portions]

@[simp] theorem units_append (ps qs : List Portion) : units (ps ++ qs) = units ps ++ units qs := by
  simp [units]

theorem read_of_tracked {s : Session} {i id : Nat} {handle : Handle BufferedFile}
    {before : List UInt8} {ended : Bool} (hi : s.handles[i]? = some handle)
    (ht : handle.Tracks id (s.host.tree.contents id) before ended) (limit : Option Nat) :
    s.read i limit =
      let turn := (handle.holding (s.host.tree.contents id)).nextUnits limit
      { answer := .read turn.answer (turn.next.mapSource FileView.file)
        next := { s with
          handles := s.handles.setIfInBounds i (turn.next.mapSource FileView.file) }
        events := turn.events } := by
  have hv : handle.mapSource s.host.view = handle.holding (s.host.tree.contents id) := by
    simp [Handle.mapSource, Handle.holding, Host.view, Tree.content, ht.object]
  simp only [read, hi, hv]

section Step

variable {s : Session} {i id : Nat} {handed : List UInt8} {ended : Bool}

/-- One read brings the next units of the file as it is now. -/
theorem follows_read (hf : s.Follows i id handed ended) (limit : Option Nat) :
    ∃ portion handle, (s.read i limit).answer = .read portion handle ∧
      (s.read i limit).next.Follows i id (handed ++ portion.units) (ended || portion.isLast) ∧
      (ended = false → portion.isLast →
        handed ++ portion.units = s.host.tree.contents id) ∧
      (ended = true → portion.units = []) ∧
      (portion.isLast ∨ limit = some portion.units.length) ∧
      ∀ n, limit = some n → portion.units.length ≤ n := by
  obtain ⟨handle, hi, ht⟩ := hf
  have hn := Handle.follows_nextUnits limit ht
  rw [read_of_tracked hi ht]
  refine ⟨_, _, rfl, ⟨_, ?_, hn.next⟩, hn.whole, hn.silent, hn.complete, hn.bounded⟩
  have hlt : i < s.handles.size := (Array.getElem?_eq_some_iff.1 hi).1
  simp [hlt]

/-- Whatever else is requested leaves the handle where it is. -/
theorem handle_perform_of_other {r : Request} {handle : Handle BufferedFile}
    (hr : r.readsFrom i = false) (hi : s.handles[i]? = some handle) :
    (s.perform r).next.handles[i]? = some handle := by
  cases r with
  | edit e => exact hi
  | «open» path =>
    simp only [perform, Session.open]
    split
    · exact hi
    · have hlt : i < s.handles.size := (Array.getElem?_eq_some_iff.1 hi).1
      simpa [Array.getElem?_push, Nat.ne_of_lt hlt] using hi
  | read j limit =>
    have hj : j ≠ i := by simpa [Request.readsFrom] using hr
    simp only [perform, read]
    split
    · exact hi
    · simpa [Array.getElem?_setIfInBounds, hj] using hi
  | run path device => exact hi
  | transfer path source device => exact hi

/-- Only edits change the host. -/
theorem host_perform (s : Session) (r : Request) :
    (s.perform r).next.host = match r with
      | .edit e => s.host.edit e
      | _ => s.host := by
  cases r with
  | edit e => rfl
  | «open» path =>
    simp only [perform, Session.open]
    split <;> rfl
  | read j limit =>
    simp only [perform, read]
    split <;> rfl
  | run path device => rfl
  | transfer path source device => rfl

theorem prefix_perform {r : Request} (hs : ∀ e, r = .edit e → ¬ s.host.Overwrites e id) :
    s.host.tree.contents id <+: (s.perform r).next.host.tree.contents id := by
  rw [host_perform]
  cases r with
  | edit e => exact Host.prefix_edit (hs e rfl)
  | _ => exact List.prefix_rfl

theorem follows_perform_of_other {r : Request} (hf : s.Follows i id handed ended)
    (hs : ∀ e, r = .edit e → ¬ s.host.Overwrites e id) (hr : r.readsFrom i = false) :
    (s.perform r).next.Follows i id handed ended := by
  obtain ⟨handle, hi, ht⟩ := hf
  exact ⟨handle, handle_perform_of_other hr hi, ht.grow (prefix_perform hs)⟩

end Step

/-- What a row of requests has brought from one handle. -/
structure Followed (i id : Nat) (handed : List UInt8) (ended : Bool)
    (turn : Turn Session (List (Request × Reply))) : Prop where
  next : turn.next.Follows i id (handed ++ units (portions i turn.answer))
    (ended || (portions i turn.answer).any (·.isLast))
  silent : ended = true → units (portions i turn.answer) = []

/-- The induction is on the requests; what the handle has handed out before carries it. -/
theorem followed {s : Session} {i id : Nat} {handed : List UInt8} {ended : Bool}
    {requests : List Request} (hf : s.Follows i id handed ended) (hs : Spares id s requests) :
    Followed i id handed ended (s.performAll requests) := by
  induction requests generalizing s handed ended with
  | nil =>
    constructor
    · simpa [performAll, portions, units] using hf
    · intro _
      rfl
  | cons r later ih =>
    obtain ⟨hr, hlater⟩ := hs
    cases hk : r.readsFrom i with
    | false =>
      have hn := ih (follows_perform_of_other hf hr hk) hlater
      have hp := portions_of_other (s := s) hk later
      constructor
      · rw [hp]
        exact hn.next
      · rw [hp]
        exact hn.silent
    | true =>
      cases r with
      | read j limit =>
        obtain rfl : j = i := by simpa [Request.readsFrom] using hk
        obtain ⟨portion, handle, ha, hnext, _, hsilent, _⟩ := follows_read hf limit
        have hn := ih hnext hlater
        have hp := portions_of_read ha later
        constructor
        · have hall := hn.next
          rw [List.append_assoc] at hall
          rw [hp, List.any_cons, ← Bool.or_assoc]
          exact hall
        · intro he
          have hz := hn.silent (by simp [he])
          rw [hp]
          simpa [units, hsilent he] using hz
      | _ => simp [Request.readsFrom] at hk

/-- Two sessions that are alike as far as one handle can tell. -/
structure Agrees (i : Nat) (s t : Session) : Prop where
  host : s.host = t.host
  handle : s.handles[i]? = t.handles[i]?
  present : i < s.handles.size

section Agree

variable {i : Nat} {s t : Session}

theorem agrees_perform_left {r : Request} (ha : Agrees i s t) (hr : r.concerns i = false) :
    Agrees i (s.perform r).next t := by
  have hi := Array.getElem?_eq_getElem ha.present
  have hread := Request.readsFrom_of_not_concerns hr
  have hk := handle_perform_of_other hread hi
  constructor
  · rw [host_perform, ← ha.host]
    cases r <;> simp_all [Request.concerns]
  · rw [hk, ← ha.handle, hi]
  · exact (Array.getElem?_eq_some_iff.1 hk).1

theorem agrees_read (ha : Agrees i s t) (limit : Option Nat) :
    (∃ portion handle, (s.read i limit).answer = .read portion handle ∧
      (t.read i limit).answer = .read portion handle) ∧
    Agrees i (s.read i limit).next (t.read i limit).next := by
  have hi := Array.getElem?_eq_getElem ha.present
  have hj := hi
  rw [ha.handle] at hj
  have hlt : i < t.handles.size := (Array.getElem?_eq_some_iff.1 hj).1
  simp only [read, hi, hj, ha.host]
  refine ⟨⟨_, _, rfl, rfl⟩, ⟨rfl, ?_, ?_⟩⟩
  · simp [ha.present, hlt]
  · simpa using ha.present

/-- Requests that do not concern a handle can be left out. -/
theorem portions_filter (ha : Agrees i s t) (requests : List Request) :
    portions i (t.performAll (requests.filter (·.concerns i))).answer =
      portions i (s.performAll requests).answer := by
  induction requests generalizing s t with
  | nil => rfl
  | cons r later ih =>
    cases hc : r.concerns i with
    | false =>
      have hn := ih (agrees_perform_left ha hc)
      have hread := Request.readsFrom_of_not_concerns hc
      rw [List.filter_cons_of_neg (by simp [hc]), hn, portions_of_other hread]
    | true =>
      rw [List.filter_cons_of_pos hc]
      cases r with
      | edit e =>
        have hn : Agrees i (s.perform (.edit e)).next (t.perform (.edit e)).next :=
          ⟨congrArg (·.edit e) ha.host, ha.handle, ha.present⟩
        rw [portions_of_other rfl, portions_of_other rfl]
        exact ih hn
      | read j limit =>
        obtain rfl : j = i := by simpa [Request.concerns] using hc
        obtain ⟨⟨portion, handle, hs, ht⟩, hn⟩ := agrees_read ha limit
        rw [portions_of_read hs, portions_of_read ht, ih hn]
      | _ => simp [Request.concerns] at hc

end Agree

theorem follows_open {s : Session} {path : String} {id : Nat}
    (ho : s.host.openObject path = .ok (.file id)) :
    (s.perform (.open path)).answer = .opened (.ok s.handles.size) ∧
      (s.perform (.open path)).next.Follows s.handles.size id [] false := by
  have hopen : s.perform (.open path) =
      { answer := .opened (.ok s.handles.size)
        next := { s with
          handles := s.handles.push ⟨path, { object := .file id }, 0, .streaming⟩ }
        events := [.opened path] } := by
    simp [perform, Session.open, Host.open_of_ok ho]
  rw [hopen]
  refine ⟨rfl, _, Array.getElem?_push_size, ?_⟩
  constructor
  · rfl
  · rfl
  · rfl
  · exact Nat.zero_le _
  · rfl

theorem spares_append {id : Nat} {s : Session} {earlier later : List Request}
    (hs : Spares id s (earlier ++ later)) :
    Spares id s earlier ∧ Spares id (s.performAll earlier).next later := by
  induction earlier generalizing s with
  | nil => exact ⟨trivial, hs⟩
  | cons r rest ih =>
    obtain ⟨hr, hrest⟩ := hs
    obtain ⟨hearlier, hlater⟩ := ih hrest
    exact ⟨⟨hr, hearlier⟩, hlater⟩

/-- A handle on a file that nobody overwrites, among any other requests. What it has
handed out is a beginning of the file as it is by then. A read brings as many units as it is
asked for, unless it meets the end. The read that first meets the end has completed the file,
and no later read brings anything. All of this is the same without the requests that are about
other handles. -/
theorem open_follows_file {s : Session} {path : String} {id : Nat} {requests : List Request}
    (ho : s.host.openObject path = .ok (.file id))
    (hs : Spares id (s.perform (.open path)).next requests) :
    let opening := s.perform (.open path)
    let i := s.handles.size
    let turn := opening.next.performAll requests
    let handed := units (portions i turn.answer)
    opening.answer = .opened (.ok i) ∧
    (∃ handle, turn.next.handles[i]? = some handle ∧ handle.source.object = .file id ∧
      handed <+: turn.next.host.tree.contents id ∧ handle.offset = handed.length) ∧
    (∀ before limit later, requests = before ++ .read i limit :: later →
      let earlier := opening.next.performAll before
      let given := portions i earlier.answer
      ∃ portion handle, (earlier.next.read i limit).answer = .read portion handle ∧
        (portion.ending = .exhausted ∨ limit = some portion.units.length) ∧
        (∀ n, limit = some n → portion.units.length ≤ n) ∧
        ((∀ p ∈ given, p.ending ≠ .exhausted) → portion.ending = .exhausted →
          units given ++ portion.units = earlier.next.host.tree.contents id ∧
          handed = units given ++ portion.units)) ∧
    portions i (opening.next.performAll (requests.filter (·.concerns i))).answer =
      portions i turn.answer := by
  intro opening i turn handed
  obtain ⟨hanswer, hopen⟩ := follows_open ho
  have hrun := followed hopen hs
  refine ⟨hanswer, ?_, ?_, ?_⟩
  · obtain ⟨handle, hi, ht⟩ := hrun.next
    have hw := ht.whole
    exact ⟨handle, hi, ht.object, ⟨_, hw⟩, ht.offset⟩
  · intro before limit later hsplit earlier given
    rw [hsplit] at hs
    obtain ⟨hbefore, hafter⟩ := spares_append hs
    have hearlier := followed hopen hbefore
    obtain ⟨portion, handle, hread, hnext, hwhole, _, hcomplete, hbounded⟩ :=
      follows_read hearlier.next limit
    refine ⟨portion, handle, hread, by simpa [Portion.isLast] using hcomplete, hbounded, ?_⟩
    intro hgiven hlast
    have hnone : (false || given.any (·.isLast)) = false := by
      simpa [Portion.isLast] using hgiven
    have hp : portion.isLast = true := by simpa [Portion.isLast] using hlast
    refine ⟨hwhole hnone hp, ?_⟩
    -- behind the read that met the end every portion is empty
    have hsilent := (followed hnext hafter.2).silent (by rw [hp, Bool.or_true])
    have hall : portions i turn.answer = given ++ portion ::
        portions i ((earlier.next.read i limit).next.performAll later).answer := by
      change portions i (opening.next.performAll requests).answer = _
      rw [hsplit, performAll_append, portions_append, portions_of_read hread]
    change units (portions i turn.answer) = _
    rw [hall, units_append]
    congr 1
    change portion.units ++ units _ = _
    rw [hsilent, List.append_nil]
  · obtain ⟨handle, hi, _⟩ := hopen
    have hself : Agrees i opening.next opening.next :=
      ⟨rfl, rfl, (Array.getElem?_eq_some_iff.1 hi).1⟩
    exact portions_filter hself requests

/-- A file that is appended to, loses its name and sees another file take it. -/
theorem open_follows_file_without_name :
    let s : Session := { host.tree := { entries := [(["a"], .file 0)], files := #[[1, 2]] } }
    let requests : List Request :=
      [.read 0 (some 1), .open "a", .edit (.append "a" [3]), .edit (.remove "a"),
       .edit (.write "a" [9]), .read 1 none, .read 0 none]
    let turn := (s.perform (.open "a")).next.performAll requests
    s.host.openObject "a" = .ok (.file 0) ∧ Spares 0 (s.perform (.open "a")).next requests ∧
    turn.next.host.tree.contents 0 = [1, 2, 3] ∧
    ∃ first last, portions 0 turn.answer = [first, last] ∧ first.units = [1] ∧
      last.units = [2, 3] ∧ last.ending = .exhausted := by
  intro s requests turn
  have hp : Path.split "a" = some ⟨".", "a"⟩ := rfl
  have hd : s.host.openDirectory "." = .ok [] :=
    Host.openDirectory_of_resolve (by decide) (by decide)
      ((Walk.walk_stay rfl).trans Walk.walk_nil) rfl
  have hn : s.host.tree.resolveBeneath [] "a" = .ok ["a"] :=
    (Walk.walk_into_file rfl (by decide) rfl).trans Walk.walk_nil
  have hb : s.host.openBeneath [] "a" = .ok (.file 0) := by
    rw [Host.openBeneath, if_neg (by decide), hn]
    rfl
  have ho : s.host.openObject "a" = .ok (.file 0) := (Host.openObject_of_split hp hd).trans hb
  let longer : Host := { tree := { entries := [(["a"], .file 0)], files := #[[1, 2, 3]] } }
  have hlonger : s.host.edit (.append "a" [3]) = longer := rfl
  have hremoved : longer.edit (.remove "a") = { tree.files := #[[1, 2, 3]] } := by
    have hr : longer.tree.resolve (longer.start "a") "." = .ok [] :=
      (Walk.walk_stay rfl).trans Walk.walk_nil
    simp only [Host.edit, hp, hr]
    rfl
  have hs : Spares 0 (s.perform (.open "a")).next requests := by
    refine ⟨?_, ?_, ?_, ?_, ?_, ?_, ?_, trivial⟩
    · rintro e ⟨⟩
    · rintro e ⟨⟩
    · rintro e ⟨⟩ ⟨path, bytes, ⟨⟩, _⟩
    · rintro e ⟨⟩ ⟨path, bytes, ⟨⟩, _⟩
    · -- the name is free by now, so the write makes another file
      have ht : ((s.perform (.open "a")).next.performAll (requests.take 4)).next.host.target? "a" =
          none := by
        simp only [requests, List.take, performAll, host_perform, hlonger, hremoved]
        rfl
      rintro e ⟨⟩ ⟨path, bytes, ⟨⟩, hw⟩
      exact absurd (ht.symm.trans hw) (by simp)
    · rintro e ⟨⟩
    · rintro e ⟨⟩
  have hc : turn.next.host.tree.contents 0 = [1, 2, 3] := by
    simp only [turn, requests, performAll, host_perform, hlonger, hremoved]
    rfl
  obtain ⟨_, _, hreads, _⟩ := open_follows_file ho hs
  obtain ⟨first, handle, hfirst, hcomplete, hbounded, hwhole⟩ :=
    hreads [] (some 1) (requests.drop 1) rfl
  -- the file is longer than the first read may be, so that does not meet the end
  have hmore : first.ending ≠ .exhausted := by
    intro hlast
    have hshort : (s.perform (.open "a")).next.host.tree.contents 0 = [1, 2] := by
      rw [host_perform]
      rfl
    have hunits : first.units = [1, 2] :=
      (hwhole (fun p hp => absurd hp List.not_mem_nil) hlast).1.trans hshort
    have hlen := hbounded 1 rfl
    simp [hunits] at hlen
  have hone : first.units.length = 1 := (Option.some.inj (hcomplete.resolve_left hmore)).symm
  have hgiven : portions 0 ((s.perform (.open "a")).next.performAll (requests.take 6)).answer =
      [first] := by
    refine (portions_of_read hfirst ((requests.take 6).drop 1)).trans (congrArg (first :: ·) ?_)
    exact portions_of_others (by decide) _
  obtain ⟨last, _, hlast, hend, _, hall⟩ := hreads (requests.take 6) none [] rfl
  have hended : last.ending = .exhausted := hend.resolve_right (Option.some_ne_none _ ·.symm)
  have hportions : portions 0 turn.answer = [first, last] := by
    have hsplit : requests = requests.take 6 ++ [.read 0 none] := rfl
    change portions 0 ((s.perform (.open "a")).next.performAll requests).answer = _
    rw [hsplit, performAll_append, portions_append, hgiven]
    exact congrArg (first :: ·) (portions_of_read hlast [])
  have hno : ∀ p ∈ portions 0 ((s.perform (.open "a")).next.performAll (requests.take 6)).answer,
      p.ending ≠ .exhausted := by
    rw [hgiven]
    simpa using hmore
  have hwhole : first.units ++ last.units = [1, 2, 3] := by
    have hc' : ((s.perform (.open "a")).next.performAll (requests.take 6)).next.host.tree.contents 0
        = [1, 2, 3] := by
      simp only [requests, List.take, performAll, host_perform, hlonger, hremoved]
      rfl
    have hunits := (hall hno hended).1
    change units (portions 0 _) ++ _ = _ at hunits
    rw [hgiven, hc'] at hunits
    simpa [units] using hunits
  obtain ⟨b, hb⟩ := List.length_eq_one_iff.1 hone
  simp only [hb, List.singleton_append, List.cons.injEq] at hwhole
  obtain ⟨rfl, hrest⟩ := hwhole
  exact ⟨ho, hs, hc, first, last, hportions, hb, hrest, hended⟩

end Session
end ConfinedRelay
