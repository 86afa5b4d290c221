import ConfinedRelay.Proofs.LogText

/-!
The log as lines of JSON. Nothing that comes from outside can pass for a line or a field of the
log: cut at its newlines the log gives its events again.
-/
namespace ConfinedRelay

namespace Event

/-- Lines cut at their newlines give the objects of the events again. -/
theorem pieces_lines (terminal : Bool) (events : List Event) :
    Text.pieces '\n' (events.flatMap (LineFormat.json.line terminal)) =
      events.map json ++ [[]] := by
  induction events with
  | nil => rfl
  | cons e rest ih =>
    rw [List.flatMap_cons, LineFormat.line, List.append_assoc, List.singleton_append,
      Text.pieces_append e.newline_not_mem_json, ih]
    rfl

end Event

theorem Recorder.written_append (r : Recorder) (events others : List Event) :
    r.written (events ++ others) = r.written events ++ r.written others := by
  simp [written]

namespace LoggedSession

section Runs

variable [PatternSyntax]

/-- What actions have to report, one after another. -/
def reported (l : LoggedSession) : List Action → List Event
  | [] => []
  | a :: later => l.events a ++ (l.perform a).next.reported later

/-- Once a recorder is in the slot, the text of a run tells all that is reported in it. -/
theorem flatten_texts_of_recorder {l : LoggedSession} {r : Recorder} (h : l.log.slot = .recorder r)
    (actions : List Action) :
    (texts (l.record actions)).flatten = r.written (l.reported actions) := by
  induction actions generalizing l with
  | nil => rfl
  | cons a rest ih =>
    have howned : l.log.slot ≠ .free := by simp [h]
    have hn := ih ((slot_perform howned a).trans h)
    have hw : (l.perform a).written = r.written (l.events a) := by
      rw [written_perform, Log.written, h]
    rw [reported, Recorder.written_append, ← hn, ← hw]
    rfl

/-- Up to the first start that succeeds nothing is written. -/
theorem flatten_texts_of_nothing {record : List (Action × Effect)} {terminal : Bool}
    {l : LoggedSession} {actions : List Action} (h : WritesBy record terminal l.log)
    (hn : firstStart? (record ++ l.record actions) = none) :
    (texts (l.record actions)).flatten = [] := by
  induction actions generalizing record l with
  | nil => rfl
  | cons a rest ih =>
    have hrest : (texts ((l.perform a).next.record rest)).flatten = [] := by
      apply ih (writesBy_perform h a)
      rwa [List.append_assoc]
    have hw : (l.perform a).written = [] := by
      rw [written_perform]
      unfold firstStart? at hn
      rw [List.findSome?_append, Option.or_eq_none_iff] at hn
      exact h.written_eq_nil hn.1 _
    rw [texts, LoggedSession.record, List.map_cons, List.flatten_cons, hw]
    exact hrest

/-- Every event has one line, from which it is told and nothing else. A process that starts its
log in JSON writes the lines of the events that pass the filter, in the order in which they are
reported, and no more than that: the text of the whole run, cut at its newlines, tells them. -/
theorem lines_tell_events (session : Session) (terminal : Bool) (before later : List Action)
    (s : Settings) :
    let first : LoggedSession := { session, log := { terminal } }
    let starting := (first.after before).perform (.start s)
    (∀ e : Event, LineFormat.json.line terminal e = e.json ++ ['\n'] ∧ e.ToldBy e.json) ∧
    (firstStart? (first.record before) = none → starting.outcome = .started (.ok ()) →
      s.logFormat = .json →
      ∃ filter lines, Filter.ofText s.logFilter = .ok filter ∧
        Text.pieces '\n' (texts (first.record (before ++ .start s :: later))).flatten =
          lines ++ [[]] ∧
        List.Forall₂ Event.ToldBy ((starting.next.reported later).filter filter.admits) lines) := by
  intro first starting
  refine ⟨fun e => ⟨rfl, e.toldBy_json⟩, ?_⟩
  intro hn hstarted hjson
  have hw : WritesBy (first.record before) terminal (first.after before).log :=
    writesBy_after (l := first) (writesBy_nil terminal) before
  have hsettings : firstStart? (first.record before ++ [(.start s, starting)]) = some s := by
    rw [firstStart?_concat, hn, Option.none_or, started?, hstarted]
  cases writesBy_perform hw (.start s) with
  | nothing hnone _ _ _ => exact absurd (hsettings.symm.trans hnone) (by simp)
  | first t filter ht hfilter _ hslot =>
    obtain rfl : s = t := Option.some.inj (hsettings.symm.trans ht)
    refine ⟨filter, ((starting.next.reported later).filter filter.admits).map Event.json, hfilter,
      ?_, ?_⟩
    · have hbefore : (texts (first.record before)).flatten = [] :=
        flatten_texts_of_nothing (l := first) (writesBy_nil terminal) hn
      have hlater := flatten_texts_of_recorder hslot later
      have htext : (texts (first.record (before ++ .start s :: later))).flatten =
          ((starting.next.reported later).filter filter.admits).flatMap
            (LineFormat.json.line terminal) := by
        rw [record_append, texts, List.map_append, List.flatten_append]
        -- a start writes nothing itself
        change (texts (first.record before)).flatten ++
          ([] ++ (texts (starting.next.record later)).flatten) = _
        rw [hbefore, hlater, List.nil_append, List.nil_append, Recorder.written, hjson]
      rw [htext, Event.pieces_lines]
    · rw [List.forall₂_map_right_iff]
      exact List.forall₂_same.2 fun e _ => e.toldBy_json

end Runs

/-- A path that looks like a line of the log stays inside the line that tells of it. -/
theorem lines_tell_events_of_forging_path :
    let first : LoggedSession := { session := { host := .fresh } }
    let good : Settings := { logFilter := "warn", logFormat := .json }
    let before : List Action := [.start { logFilter := "relay=loud" }]
    let path := "\n\x7b\"level\":\"ERROR\"\x7d\n/.."
    firstStart? (first.record before) = none ∧
      ((first.after before).perform (.start good)).outcome = .started (.ok ()) ∧
      ∃ line, Text.pieces '\n' (texts (first.record
          (before ++ .start good :: [.request (.open path)]))).flatten = [line, []] ∧
        (Event.openFailed path Host.noFileName).ToldBy line := by
  intro first good before path
  have hn : firstStart? (first.record before) = none := by decide
  have hs : ((first.after before).perform (.start good)).outcome = .started (.ok ()) := by
    subst good
    rfl
  obtain ⟨-, hrun⟩ := lines_tell_events { host := .fresh } false before [.request (.open path)] good
  obtain ⟨filter, lines, hfilter, hpieces, htold⟩ := hrun hn hs rfl
  let all : Filter := ⟨[{ target := none, threshold := .upTo .warn }]⟩
  have hrules : Filter.ofText "warn" = .ok all := rfl
  obtain rfl := Except.ok.inj (hrules.symm.trans hfilter)
  have hadmitted : ((((first.after before).perform (.start good)).next.reported
      [.request (.open path)]).filter all.admits) = [.openFailed path Host.noFileName] := by
    subst good path
    rfl
  rw [hadmitted] at htold
  cases htold with
  | cons hline hrest =>
    cases hrest
    exact ⟨hn, hs, _, hpieces, hline⟩

end LoggedSession

end ConfinedRelay
