import ConfinedRelay.Proofs.LogText
import Mathlib.Data.List.Perm.Basic

/-!
Filters as sets of rules. Two rules that apply to one target and are equally specific have
the same target themselves. So if no two rules of a filter name the same target, the one that
decides does so wherever it stands, and the same pieces in another order let the same events
pass. A filter can be read if each of its pieces can be read alone, and otherwise it is
refused for the first piece that cannot.
-/
namespace ConfinedRelay

theorem Specificity.target_eq {a b : Specificity} (h : a ≤ b) (h' : b ≤ a) :
    a.target = b.target := by
  rcases h with hlt | ⟨heq, _⟩
  · rcases h' with hlt' | ⟨heq', _⟩ <;> omega
  · exact heq

namespace Rule

/-- The target that a piece names, which ends at its first mark. One that is just a threshold
names none, and neither does one that begins with a bracket. -/
def targetOf (piece : List Char) : Option (List Char) :=
  let text := Text.trim piece
  let head := text.takeWhile (!isMark ·)
  match text.dropWhile (!isMark ·) with
  | [] => if (Threshold.ofText? piece).isSome then none else some piece
  | c :: _ => if c = '[' ∧ head = [] then none else Text.takeBytes? (Text.width head) piece

theorem partAt_zero_eq_ok {piece part named : List Char} (h : partAt piece 0 part = .ok named) :
    Text.takeBytes? (Text.width part) piece = some named := by
  have hs : Text.slice? 0 (Text.width part) piece = Text.takeBytes? (Text.width part) piece := by
    rw [Text.slice?, Text.dropBytes?, Option.bind_some]
  unfold partAt at h
  rw [hs] at h
  cases ht : Text.takeBytes? (Text.width part) piece with
  | none => simp [ht] at h
  | some s =>
    simp only [ht, Except.ok.injEq] at h
    rw [h]

section Reading

variable [PatternSyntax] {piece : List Char} {target span : Option (List Char)} {start : Nat}
  {inner : List Char} {r : Rule}

theorem target_of_readField (h : readField piece target span start inner = .ok r) :
    r.target = target := by
  unfold readField at h
  dsimp only at h
  split at h
  · cases h
  split at h
  · cases h
  simp only [bind_eq_ok_iff, Except.ok.injEq] at h
  obtain ⟨_, _, _, _, _, _, rfl⟩ := h
  rfl

theorem target_of_readBrackets (h : readBrackets piece target start inner = .ok r) :
    r.target = target := by
  unfold readBrackets at h
  dsimp only at h
  split at h
  · cases h
  rw [bind_eq_ok_iff] at h
  obtain ⟨_, _, h⟩ := h
  split at h
  · simp only [bind_eq_ok_iff, Except.ok.injEq] at h
    obtain ⟨_, _, rfl⟩ := h
    rfl
  · exact target_of_readField h

theorem target_of_ofPiece (h : ofPiece piece = .ok r) : r.target = targetOf piece := by
  unfold ofPiece at h
  dsimp only at h
  rw [targetOf]
  split at h
  · cases hd : (Text.trim piece).dropWhile (!isMark ·) with
    | nil =>
      rw [hd] at h
      dsimp only at h ⊢
      split at h
      · rename_i ht
        obtain rfl := Except.ok.inj h
        rw [ht]
        rfl
      · rename_i ht
        obtain rfl := Except.ok.inj h
        rw [ht]
        rfl
    | cons c rest =>
      rw [hd] at h
      dsimp only at h ⊢
      rw [bind_eq_ok_iff] at h
      obtain ⟨named, hnamed, h⟩ := h
      rw [partAt_zero_eq_ok hnamed]
      split at h
      · rename_i hc
        simp only [bind_eq_ok_iff, Except.ok.injEq] at h
        obtain ⟨_, _, rfl⟩ := h
        simp [hc]
      · rename_i hc
        have hbracket : c = '[' := by
          have hne : (Text.trim piece).dropWhile (!isMark ·) ≠ [] := hd ▸ List.cons_ne_nil c rest
          have hmark := List.head_dropWhile_not (!isMark ·) hne
          simp only [hd, List.head_cons] at hmark
          simpa [isMark, hc] using hmark
        rw [target_of_readBrackets h]
        simp [hbracket]
  · cases h

end Reading

/-- Of the rules that apply to an event each is told by how specific its target is. -/
theorem target_eq_of_specificity {e : Event} {q r : Rule} (hq : q.Applies e)
    (hr : r.Applies e) (h : q.specificity.target = r.specificity.target) :
    q.target = r.target := by
  cases hqt : q.target with
  | none =>
    cases hrt : r.target with
    | none => rfl
    | some t => simp [specificity, hqt, hrt] at h
  | some s =>
    cases hrt : r.target with
    | none => simp [specificity, hqt, hrt] at h
    | some t =>
      have hlen : s.length = t.length := by simpa [specificity, hqt, hrt] using h
      have hs : s = e.target.name.toList.take s.length :=
        List.prefix_iff_eq_take.1 (hq.target s hqt)
      have ht : t = e.target.name.toList.take t.length :=
        List.prefix_iff_eq_take.1 (hr.target t hrt)
      rw [hs, hlen, ← ht]

end Rule

namespace Filter

section Rules

variable {rules others : List Rule}

/-- Where no two rules have the same target, the most specific one decides wherever it stands. -/
theorem decides_iff_of_nodup (hn : (rules.map Rule.target).Nodup) (e : Event) (r : Rule) :
    Decides rules e r ↔ r ∈ rules ∧ r.Applies e ∧
      ∀ q ∈ rules, q.Applies e → q.specificity ≤ r.specificity := by
  constructor
  · intro h
    exact ⟨h.mem.1, h.mem.2, fun q => h.le⟩
  · rintro ⟨hm, ha, hle⟩
    obtain ⟨earlier, later, rfl⟩ := List.append_of_mem hm
    refine ⟨earlier, later, rfl, ha, fun q hq => hle q (List.mem_append_left _ hq), ?_⟩
    intro q hq hqa
    have hqm : q ∈ earlier ++ r :: later := List.mem_append_right _ (List.mem_cons_of_mem r hq)
    apply Specificity.not_le.1
    intro hge
    -- a rule behind it that is as specific would have its target
    have htarget := Rule.target_eq_of_specificity hqa ha
      (Specificity.target_eq (hle q hqm hqa) hge)
    rw [List.map_append, List.map_cons] at hn
    have hnot := (List.nodup_cons.1 (List.nodup_append.1 hn).2.1).1
    exact hnot (htarget ▸ List.mem_map_of_mem hq)

theorem deciding_of_perm (hp : rules.Perm others) (hn : (rules.map Rule.target).Nodup)
    (e : Event) : (⟨rules⟩ : Filter).deciding e = (⟨others⟩ : Filter).deciding e := by
  have hn' : (others.map Rule.target).Nodup := (hp.map Rule.target).nodup_iff.1 hn
  ext r
  rw [deciding_eq_some_iff, deciding_eq_some_iff, decides_iff_of_nodup hn,
    decides_iff_of_nodup hn']
  simp only [hp.mem_iff]

theorem admits_of_perm (hp : rules.Perm others) (hn : (rules.map Rule.target).Nodup) (e : Event) :
    (⟨rules⟩ : Filter).admits e = (⟨others⟩ : Filter).admits e := by
  rw [admits, admits, deciding_of_perm hp hn]

/-- The filter with these rules, or with the fallback where there are none. -/
def ofRules : List Rule → Filter
  | [] => ⟨[fallback]⟩
  | rules => ⟨rules⟩

theorem admits_ofRules_of_perm {rules others : List Rule} (hp : rules.Perm others)
    (hn : (rules.map Rule.target).Nodup) (e : Event) :
    (ofRules rules).admits e = (ofRules others).admits e := by
  cases rules with
  | nil => rw [List.nil_perm.1 hp]
  | cons r rules =>
    cases others with
    | nil => exact absurd (List.perm_nil.1 hp) (List.cons_ne_nil r rules)
    | cons q others => exact admits_of_perm hp hn e

/-- A piece of a filter is a filter of its own, with no other piece. -/
theorem pieces_of_piece {text : String} {p : List Char} (h : p ∈ pieces text) :
    pieces (String.ofList p) = [p] := by
  obtain ⟨hm, hp⟩ := List.mem_filter.1 h
  have hcomma := Text.separator_not_mem_pieces ',' text.toList p hm
  have hne : p ≠ [] := by simpa using hp
  rw [pieces, String.toList_ofList, Text.pieces_of_not_mem hcomma]
  simp [hne]

end Rules

section Reading

variable [PatternSyntax]

theorem ofText_eq (text : String) :
    ofText text = ((pieces text).mapM Rule.ofPiece).map ofRules := by
  unfold ofText
  cases hm : (pieces text).mapM Rule.ofPiece with
  | error e => rfl
  | ok rules => cases rules <;> rfl

theorem exists_of_mapM_ok {row : List (List Char)} {rules : List Rule}
    (h : row.mapM Rule.ofPiece = .ok rules) : ∀ p ∈ row, ∃ r, Rule.ofPiece p = .ok r := by
  rw [mapM_ofPiece_eq_ok_iff] at h
  induction h with
  | nil => simp
  | cons hr _ ih => exact List.forall_mem_cons.2 ⟨⟨_, hr⟩, ih⟩

/-- A row of pieces fails with the first of them that fails. -/
theorem mapM_ofPiece_eq_error_iff (row : List (List Char)) (e : FilterError) :
    row.mapM Rule.ofPiece = .error e ↔ ∃ earlier p later, row = earlier ++ p :: later ∧
      (∀ q ∈ earlier, ∃ r, Rule.ofPiece q = .ok r) ∧ Rule.ofPiece p = .error e := by
  constructor
  · intro h
    induction row with
    | nil => cases h
    | cons piece later ih =>
      rw [List.mapM_cons] at h
      cases hp : Rule.ofPiece piece with
      | error d =>
        obtain rfl : d = e := by simpa [hp, bind, Except.bind] using h
        exact ⟨[], piece, later, rfl, by simp, hp⟩
      | ok rule =>
        cases hl : later.mapM Rule.ofPiece with
        | ok rules => simp [hp, hl, bind, Except.bind, pure, Except.pure] at h
        | error d =>
          obtain rfl : d = e := by simpa [hp, hl, bind, Except.bind] using h
          obtain ⟨earlier, p, behind, rfl, hall, hfail⟩ := ih hl
          exact ⟨piece :: earlier, p, behind, rfl, List.forall_mem_cons.2 ⟨⟨rule, hp⟩, hall⟩, hfail⟩
  · rintro ⟨earlier, p, later, rfl, hall, hfail⟩
    induction earlier with
    | nil => simp [hfail, bind, Except.bind]
    | cons piece earlier ih =>
      obtain ⟨⟨rule, hrule⟩, hall⟩ := List.forall_mem_cons.1 hall
      have hrest := ih hall
      simp [hrule, hrest, bind, Except.bind]

theorem mapM_ofPiece_ok_iff (row : List (List Char)) :
    (∃ rules, row.mapM Rule.ofPiece = .ok rules) ↔ ∀ p ∈ row, ∃ r, Rule.ofPiece p = .ok r := by
  constructor
  · rintro ⟨rules, h⟩
    exact exists_of_mapM_ok h
  · intro hall
    cases hm : row.mapM Rule.ofPiece with
    | ok rules => exact ⟨rules, rfl⟩
    | error e =>
      obtain ⟨earlier, p, later, rfl, _, hfail⟩ := (mapM_ofPiece_eq_error_iff row e).1 hm
      obtain ⟨r, hr⟩ := hall p (List.mem_append_right _ List.mem_cons_self)
      rw [hfail] at hr
      cases hr

end Reading

section Rearranging

variable [PatternSyntax]

/-- The targets that the pieces of a filter name, one for each piece. -/
def targets (text : String) : List (Option (List Char)) := (pieces text).map Rule.targetOf

/-- Two texts that cannot be read, or whose filters let the same events pass. -/
inductive ReadAlike : Except FilterError Filter → Except FilterError Filter → Prop
  | filters {f g : Filter} : (∀ e, f.admits e = g.admits e) → ReadAlike (.ok f) (.ok g)
  | errors (d e : FilterError) : ReadAlike (.error d) (.error e)

theorem target_of_mapM {row : List (List Char)} {rules : List Rule}
    (h : row.mapM Rule.ofPiece = .ok rules) : rules.map Rule.target = row.map Rule.targetOf := by
  rw [mapM_ofPiece_eq_ok_iff] at h
  induction h with
  | nil => rfl
  | cons hr _ ih => rw [List.map_cons, List.map_cons, ih, Rule.target_of_ofPiece hr]

/-- The pieces of a filter in another order give its rules in another order. -/
theorem exists_perm_of_mapM {row other : List (List Char)} {rules : List Rule} (hp : row.Perm other)
    (h : row.mapM Rule.ofPiece = .ok rules) :
    ∃ others, other.mapM Rule.ofPiece = .ok others ∧ rules.Perm others := by
  obtain ⟨others, hall, hperm⟩ :=
    List.perm_comp_forall₂ hp.symm ((mapM_ofPiece_eq_ok_iff row rules).1 h)
  exact ⟨others, (mapM_ofPiece_eq_ok_iff other others).2 hall, hperm.symm⟩

theorem readAlike_of_perm {text other : String} (hp : (pieces text).Perm (pieces other))
    (hn : (targets text).Nodup) : ReadAlike (ofText text) (ofText other) := by
  rw [ofText_eq, ofText_eq]
  cases hm : (pieces text).mapM Rule.ofPiece with
  | ok rules =>
    obtain ⟨others, ho, hperm⟩ := exists_perm_of_mapM hp hm
    rw [ho]
    rw [targets, ← target_of_mapM hm] at hn
    exact .filters (admits_ofRules_of_perm hperm hn)
  | error d =>
    cases ho : (pieces other).mapM Rule.ofPiece with
    | error e => exact .errors d e
    | ok others =>
      obtain ⟨rules, hr, _⟩ := exists_perm_of_mapM hp.symm ho
      rw [hm] at hr
      cases hr

end Rearranging

end Filter

/-- Logs in the same state, up to filters that let the same events pass. -/
inductive Log.Alike : Log → Log → Prop
  | same (l : Log) : Alike l l
  | recorders {f g : Filter} (format : LineFormat) (terminal : Bool) :
      (∀ e, f.admits e = g.admits e) →
      Alike ⟨.recorder ⟨f, format, terminal⟩, true, terminal⟩
        ⟨.recorder ⟨g, format, terminal⟩, true, terminal⟩

theorem Log.Alike.written_eq {l m : Log} (h : l.Alike m) (events : List Event) :
    l.written events = m.written events := by
  cases h with
  | same => rfl
  | recorders format terminal hadmits => simp only [written, Recorder.written, funext hadmits]

section Starts

variable [PatternSyntax]

theorem Log.alike_start (l : Log) {s t : Settings} (hf : s.logFormat = t.logFormat)
    (h : Filter.ReadAlike (Filter.ofText s.logFilter) (Filter.ofText t.logFilter)) :
    (l.start s).2.Alike (l.start t).2 := by
  unfold start claim
  split
  · exact .same l
  · generalize Filter.ofText s.logFilter = a at h
    generalize Filter.ofText t.logFilter = b at h
    cases h with
    | errors => exact .same l
    | filters hadmits =>
      rw [hf]
      cases l.slot with
      | free => exact .recorders _ _ hadmits
      | foreign | recorder => exact .same l

end Starts

namespace LoggedSession

/-- Sessions that differ at most in their logs, which are alike. -/
structure Alike (l m : LoggedSession) : Prop where
  session : l.session = m.session
  log : l.log.Alike m.log

section Runs

variable [PatternSyntax]

/-- One action writes the same in both sessions and leaves them alike. -/
theorem Alike.perform {l m : LoggedSession} (h : l.Alike m) (a : Action) :
    (l.perform a).written = (m.perform a).written ∧
      (l.perform a).next.Alike (m.perform a).next := by
  obtain ⟨session, log⟩ := l
  obtain ⟨other, log'⟩ := m
  obtain ⟨hsession, hlog⟩ := h
  obtain rfl : session = other := hsession
  cases hlog with
  | same => exact ⟨rfl, rfl, .same _⟩
  | recorders format terminal hadmits =>
    -- both have started, so that nothing but an event makes a difference to them
    have hnext := Log.Alike.recorders format terminal hadmits
    cases a with
    | start s => exact ⟨rfl, rfl, hnext⟩
    | occupy => exact ⟨rfl, rfl, hnext⟩
    | request r => exact ⟨hnext.written_eq _, rfl, hnext⟩

theorem Alike.texts_eq {l m : LoggedSession} (h : l.Alike m) (actions : List Action) :
    texts (l.record actions) = texts (m.record actions) := by
  induction actions generalizing l m with
  | nil => rfl
  | cons a rest ih =>
    obtain ⟨hw, hn⟩ := h.perform a
    exact congrArg₂ List.cons hw (ih hn)

section Fresh

variable {l : LoggedSession} (ht : l.log.started = false) (hl : l.log.slot = .free) (s : Settings)
include ht hl

/-- What the first start of a process comes to is a matter of its filter alone. -/
theorem outcome_start : (l.perform (.start s)).outcome =
    .started ((Filter.ofText s.logFilter).map (fun _ => ()) |>.mapError .filter) := by
  cases hf : Filter.ofText s.logFilter <;>
    simp [LoggedSession.perform, Log.start, Log.claim, ht, hl, hf, Except.map, Except.mapError]

theorem outcome_start_ok_iff : (l.perform (.start s)).outcome = .started (.ok ()) ↔
    ∃ rules, (Filter.pieces s.logFilter).mapM Rule.ofPiece = .ok rules := by
  rw [outcome_start ht hl, Filter.ofText_eq]
  cases (Filter.pieces s.logFilter).mapM Rule.ofPiece <;> simp [Except.map, Except.mapError]

theorem outcome_start_error_iff (e : LogError) :
    (l.perform (.start s)).outcome = .started (.error e) ↔
      ∃ d, e = .filter d ∧ (Filter.pieces s.logFilter).mapM Rule.ofPiece = .error d := by
  rw [outcome_start ht hl, Filter.ofText_eq]
  cases (Filter.pieces s.logFilter).mapM Rule.ofPiece <;>
    simp [Except.map, Except.mapError, eq_comm]

variable {s} {p : List Char}

theorem outcome_piece_ok_iff (h : p ∈ Filter.pieces s.logFilter) :
    (l.perform (.start { s with logFilter := String.ofList p })).outcome = .started (.ok ()) ↔
      ∃ r, Rule.ofPiece p = .ok r := by
  rw [outcome_start_ok_iff ht hl, Filter.pieces_of_piece h, Filter.mapM_ofPiece_ok_iff]
  simp

theorem outcome_piece_error_iff (h : p ∈ Filter.pieces s.logFilter) (e : LogError) :
    (l.perform (.start { s with logFilter := String.ofList p })).outcome =
        .started (.error e) ↔ ∃ d, e = .filter d ∧ Rule.ofPiece p = .error d := by
  rw [outcome_start_error_iff ht hl, Filter.pieces_of_piece h]
  cases hp : Rule.ofPiece p <;> simp [hp, bind, Except.bind, pure, Except.pure]

/-- A piece that is refused behind pieces that are taken, told by reading each alone. -/
theorem refused_piece_iff {before behind : List (List Char)}
    (hrow : Filter.pieces s.logFilter = before ++ p :: behind) (e : LogError) :
    let alone (piece : List Char) :=
      (l.perform (.start { s with logFilter := String.ofList piece })).outcome
    (∀ q ∈ before, alone q = .started (.ok ())) ∧ alone p = .started (.error e) ↔
      (∀ q ∈ before, ∃ r, Rule.ofPiece q = .ok r) ∧
        ∃ d, e = .filter d ∧ Rule.ofPiece p = .error d := by
  apply and_congr
  · exact forall₂_congr fun q hq =>
      outcome_piece_ok_iff ht hl (hrow ▸ List.mem_append_left _ hq)
  · exact outcome_piece_error_iff ht hl (hrow ▸ List.mem_append_right _ List.mem_cons_self) e

end Fresh

/-- A filter is a set of rules. Whatever is done with two logs that are started by the same
pieces in different orders, with any number of empty ones, they write the same, as long as no
two pieces name one target. A filter is taken if each of its pieces is taken alone, and else
refused as the first of them that is not. -/
theorem written_by_rule_set (session : Session) (terminal : Bool) :
    let fresh : LoggedSession := { session, log := { terminal } }
    (∀ (earlier : List Action) (s t : Settings), s.logFormat = t.logFormat →
      (Filter.pieces s.logFilter).Perm (Filter.pieces t.logFilter) →
      (Filter.targets s.logFilter).Nodup →
      let l := fresh.after earlier
      ∀ later, texts ((l.perform (.start s)).next.record later) =
        texts ((l.perform (.start t)).next.record later)) ∧
    ∀ s : Settings,
      let alone (piece : List Char) :=
        (fresh.perform (.start { s with logFilter := String.ofList piece })).outcome
      ((fresh.perform (.start s)).outcome = .started (.ok ()) ↔
        ∀ p ∈ Filter.pieces s.logFilter, alone p = .started (.ok ())) ∧
      ∀ e, (fresh.perform (.start s)).outcome = .started (.error e) ↔
        ∃ before p behind, Filter.pieces s.logFilter = before ++ p :: behind ∧
          (∀ q ∈ before, alone q = .started (.ok ())) ∧ alone p = .started (.error e) := by
  intro fresh
  refine ⟨?_, fun s => ⟨?_, fun e => ?_⟩⟩
  · intro earlier s t hf hp hn l later
    have hread := Filter.readAlike_of_perm hp hn
    have hnext : (l.perform (.start s)).next.Alike (l.perform (.start t)).next :=
      ⟨rfl, l.log.alike_start hf hread⟩
    exact hnext.texts_eq later
  · rw [outcome_start_ok_iff rfl rfl, Filter.mapM_ofPiece_ok_iff]
    exact forall₂_congr fun p hp => (outcome_piece_ok_iff rfl rfl hp).symm
  · rw [outcome_start_error_iff rfl rfl]
    constructor
    · rintro ⟨d, rfl, hm⟩
      obtain ⟨before, p, behind, hrow, hall, hfail⟩ := (Filter.mapM_ofPiece_eq_error_iff _ d).1 hm
      exact ⟨before, p, behind, hrow, (refused_piece_iff rfl rfl hrow _).2 ⟨hall, d, rfl, hfail⟩⟩
    · rintro ⟨before, p, behind, hrow, halone⟩
      obtain ⟨hall, d, rfl, hfail⟩ := (refused_piece_iff (l := fresh) rfl rfl hrow e).1 halone
      have hm := (Filter.mapM_ofPiece_eq_error_iff _ d).2 ⟨before, p, behind, hrow, hall, hfail⟩
      exact ⟨d, rfl, hm⟩

end Runs

/-- The longer of two targets decides, although it stands in front of the shorter one here and
behind it there. -/
theorem written_by_rule_set_in_other_order :
    let fresh : LoggedSession := { session := { host := .fresh } }
    let s : Settings := { logFilter := "sandbox_relay::resource=warn,debug,sandbox_relay=off" }
    let t : Settings := { logFilter := ",sandbox_relay=off,,debug,sandbox_relay::resource=warn" }
    let actions : List Action := [.request (.open "/")]
    (Filter.pieces s.logFilter).Perm (Filter.pieces t.logFilter) ∧
      (Filter.targets s.logFilter).Nodup ∧
      texts ((fresh.perform (.start s)).next.record actions) =
        [(" WARN sandbox_relay::resource: sandboxed resource could not be opened path=/ " ++
          "error=input path has no file name\n").toList] ∧
      texts ((fresh.perform (.start s)).next.record actions) =
        texts ((fresh.perform (.start t)).next.record actions) := by
  intro fresh s t actions
  have hp : (Filter.pieces s.logFilter).Perm (Filter.pieces t.logFilter) := by decide +kernel
  have hn : (Filter.targets s.logFilter).Nodup := by decide +kernel
  have hw : texts ((fresh.perform (.start s)).next.record actions) =
      [(" WARN sandbox_relay::resource: sandboxed resource could not be opened path=/ " ++
        "error=input path has no file name\n").toList] := by decide +kernel
  exact ⟨hp, hn, hw, (written_by_rule_set { host := .fresh } false).1 [] s t rfl hp hn actions⟩

end LoggedSession
end ConfinedRelay
