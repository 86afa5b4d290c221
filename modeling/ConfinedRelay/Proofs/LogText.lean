import ConfinedRelay.Proofs.DecidingRule
import ConfinedRelay.Proofs.LogEntries
import ConfinedRelay.Proofs.LogOwnership
import ConfinedRelay.Proofs.RuleGrammar

/-!
What a process writes about its events. The first start that succeeds settles it: from then
on every event that passes the filter of that start becomes a line in its format, in the
order in which the events occur, and nothing else is written. Before that, and where no
start succeeds, nothing is written at all.
-/
namespace ConfinedRelay

/-- Actions that differ at most in the settings of a start. -/
inductive Action.AlikeButForSettings : Action → Action → Prop
  | start (s t : Settings) : AlikeButForSettings (.start s) (.start t)
  | same (a : Action) : AlikeButForSettings a a

section Starts

variable [PatternSyntax]

/-- Once started, a log stays as it is in every start. -/
theorem Log.start_of_started {l : Log} (h : l.started = true) (s : Settings) :
    l.start s = (.ok (), l) := by
  rw [start, if_pos h]

end Starts

/-- A recorder writes a line for every event that passes its filter. -/
theorem Recorder.forall₂_rendering (r : Recorder) (events : List Event) :
    ∃ lines, r.written events = lines.flatten ∧
      List.Forall₂ (fun e => Event.Rendering r.terminal e r.format)
        (events.filter r.filter.admits) lines := by
  refine ⟨(events.filter r.filter.admits).map (r.format.line r.terminal), ?_, ?_⟩
  · rw [Recorder.written, List.flatMap_def]
  · rw [List.forall₂_map_right_iff]
    exact List.forall₂_same.2 fun e _ => e.rendering_line r.format r.terminal

namespace LoggedSession

/-- The settings of an action that has started the log. -/
def started? : Action × Effect → Option Settings
  | (.start s, e) =>
    match e.outcome with
    | .started (.ok ()) => some s
    | _ => none
  | _ => none

/-- The settings of the first start that has succeeded. -/
def firstStart? (record : List (Action × Effect)) : Option Settings :=
  record.findSome? started?

/-- What an action has to report in a session. -/
def events (l : LoggedSession) : Action → List Event
  | .request r => (l.session.perform r).events
  | .start _ | .occupy => []

/-- The texts that the actions of a record have written, one for each. -/
def texts (record : List (Action × Effect)) : List (List Char) := record.map (·.2.written)

theorem firstStart?_concat (record : List (Action × Effect)) (x : Action × Effect) :
    firstStart? (record ++ [x]) = (firstStart? record).or (started? x) := by
  unfold firstStart?
  rw [List.findSome?_append, List.findSome?_singleton]

section Runs

variable [PatternSyntax]

/-- The log writes by the first start that has succeeded, or not at all. -/
inductive WritesBy (record : List (Action × Effect)) (terminal : Bool) (l : Log) : Prop
  | nothing : firstStart? record = none → l.started = false → (∀ r, l.slot ≠ .recorder r) →
      l.terminal = terminal → WritesBy record terminal l
  | first (s : Settings) (filter : Filter) : firstStart? record = some s →
      Filter.ofText s.logFilter = .ok filter → l.started = true →
      l.slot = .recorder ⟨filter, s.logFormat, terminal⟩ → WritesBy record terminal l

section Step

variable {record : List (Action × Effect)} {terminal : Bool} {l : LoggedSession}

/-- A log that has started is not touched by any action. -/
theorem log_perform_of_started (ht : l.log.started = true) (hs : l.log.slot ≠ .free) (a : Action) :
    (l.perform a).next.log = l.log := by
  cases a with
  | start s => exact congrArg Prod.snd (Log.start_of_started ht s)
  | occupy =>
    have ho := l.log.occupying
    change l.log.occupy.2 = l.log
    generalize l.log.occupy.1 = free at ho
    generalize l.log.occupy.2 = next at ho
    cases ho with
    | taken hfree => exact absurd hfree hs
    | refused => rfl
  | request r => rfl

theorem writesBy_start (hn : firstStart? record = none) (ht : l.log.started = false)
    (hr : ∀ r, l.log.slot ≠ .recorder r) (hterm : l.log.terminal = terminal) (s : Settings) :
    WritesBy (record ++ [(.start s, l.perform (.start s))]) terminal
      (l.perform (.start s)).next.log := by
  have hs := l.log.starting s
  have hf : firstStart? (record ++ [(.start s, l.perform (.start s))]) =
      (l.log.start s).1.toOption.map fun _ => s := by
    rw [firstStart?_concat, hn, Option.none_or]
    cases ha : (l.log.start s).1 <;> simp [started?, perform, ha, Except.toOption]
  change WritesBy _ _ (l.log.start s).2
  generalize (l.log.start s).1 = answer at hs hf
  generalize (l.log.start s).2 = next at hs ⊢
  cases hs with
  | again h => simp [ht] at h
  | first filter _ hfilter _ => exact .first s filter hf hfilter rfl (by rw [hterm])
  | misread => exact .nothing hf ht hr hterm
  | late => exact .nothing hf ht hr hterm

/-- What one action does to the account; only a start that succeeds begins to write. -/
theorem writesBy_perform (h : WritesBy record terminal l.log) (a : Action) :
    WritesBy (record ++ [(a, l.perform a)]) terminal (l.perform a).next.log := by
  cases h with
  | first s filter hf hfilter ht hslot =>
    rw [log_perform_of_started ht (by simp [hslot]) a]
    refine .first s filter ?_ hfilter ht hslot
    rw [firstStart?_concat, hf, Option.some_or]
  | nothing hn ht hr hterm =>
    cases a with
    | start s => exact writesBy_start hn ht hr hterm s
    | occupy =>
      have hf : firstStart? (record ++ [(.occupy, l.perform .occupy)]) = none := by
        rw [firstStart?_concat, hn]
        rfl
      have ho := l.log.occupying
      change WritesBy _ _ l.log.occupy.2
      generalize l.log.occupy.1 = free at ho
      generalize l.log.occupy.2 = next at ho ⊢
      cases ho with
      | taken => exact .nothing hf ht (by simp) hterm
      | refused => exact .nothing hf ht hr hterm
    | request r =>
      refine .nothing ?_ ht hr hterm
      rw [firstStart?_concat, hn]
      rfl

theorem writesBy_after (h : WritesBy record terminal l.log) (actions : List Action) :
    WritesBy (record ++ l.record actions) terminal (l.after actions).log := by
  induction actions generalizing l record with
  | nil => rwa [LoggedSession.record, List.append_nil]
  | cons a rest ih =>
    have hr := ih (writesBy_perform h a)
    rwa [List.append_assoc] at hr

end Step

theorem writesBy_nil (terminal : Bool) : WritesBy [] terminal { terminal } :=
  .nothing rfl rfl (by simp) rfl

theorem WritesBy.written_eq_nil {record : List (Action × Effect)} {terminal : Bool} {l : Log}
    (h : WritesBy record terminal l) (hn : firstStart? record = none) (events : List Event) :
    l.written events = [] := by
  cases h with
  | first s _ hf => simp [hn] at hf
  | nothing _ _ hr _ =>
    unfold Log.written
    cases hslot : l.slot with
    | free => rfl
    | foreign => rfl
    | recorder r => exact absurd hslot (hr r)

/-- The text of an action, told from the events that it reports. -/
theorem written_perform (l : LoggedSession) (a : Action) :
    (l.perform a).written = l.log.written (l.events a) := by
  have hn : l.log.written [] = [] := by
    unfold Log.written
    cases l.log.slot <;> rfl
  cases a with
  | start s => exact hn.symm
  | occupy => exact hn.symm
  | request r => rfl

/-- Once the log has started, the settings of a start make no difference. The induction is on
the rows of actions; the session is the same on both sides all the way. -/
theorem texts_record_of_started {l : LoggedSession} {later others : List Action}
    (ht : l.log.started = true) (hs : l.log.slot ≠ .free)
    (ha : List.Forall₂ Action.AlikeButForSettings later others) :
    texts (l.record later) = texts (l.record others) := by
  induction ha generalizing l with
  | nil => rfl
  | @cons a b later others hab _ ih =>
    have hlog := log_perform_of_started ht hs a
    have hn := ih (l := (l.perform a).next) (hlog ▸ ht) (hlog ▸ hs)
    cases hab with
    | same => exact congrArg (_ :: ·) hn
    | start s t =>
      have hnext : (l.perform (.start s)).next = (l.perform (.start t)).next := by
        simp [perform, Log.start_of_started ht]
      simp only [texts, record, List.map_cons] at hn ⊢
      rw [hn, hnext]
      rfl

/-- What is written by every action of a process, behind any others. -/
theorem written_by_first_start (session : Session) (terminal : Bool) (actions : List Action) :
    let first : LoggedSession := { session, log := { terminal } }
    let l := first.after actions
    let record := first.record actions
    (∀ s, (l.perform (.start s)).written = []) ∧ (l.perform .occupy).written = [] ∧
    (firstStart? record = none → ∀ a, (l.perform a).written = []) ∧
    ∀ s, firstStart? record = some s → ∃ filter, Filter.ofText s.logFilter = .ok filter ∧
      Filter.Reads s.logFilter filter.rules ∧
      (∀ a, ∃ lines, (l.perform a).written = lines.flatten ∧
        List.Forall₂ (fun e => Event.Rendering terminal e s.logFormat)
          ((l.events a).filter filter.admits) lines) ∧
      (∀ e, filter.admits e = true ↔ ∃ r limit, Filter.Decides filter.rules e r ∧
        r.threshold.level = some limit ∧ e.level.rank ≤ limit.rank) ∧
      (∀ e q r t, Filter.Decides filter.rules e r → q ∈ filter.rules → q.Applies e →
        q.target = some t → ∃ u, r.target = some u ∧ t.length ≤ u.length) ∧
      ∀ later others, List.Forall₂ Action.AlikeButForSettings later others →
        texts (first.record (actions ++ later)) = texts (first.record (actions ++ others)) := by
  intro first l record
  have hw : WritesBy record terminal l.log :=
    writesBy_after (l := first) (writesBy_nil terminal) actions
  refine ⟨fun s => rfl, rfl, ?_, ?_⟩
  · intro hn a
    rw [written_perform]
    exact hw.written_eq_nil hn _
  · intro s hf
    cases hw with
    | nothing hn _ _ _ => simp [hf] at hn
    | first t filter hf' hfilter ht hslot =>
      obtain rfl : s = t := Option.some.inj (hf.symm.trans hf')
      refine ⟨filter, hfilter, Filter.reads_of_ofText hfilter, ?_, Filter.admits_iff filter, ?_, ?_⟩
      · intro a
        rw [written_perform, Log.written, hslot]
        exact Recorder.forall₂_rendering _ _
      · intro e q r t hd hq ha ht
        exact hd.length_target_le hq ha ht
      · intro later others ha
        rw [record_append, record_append]
        simp only [texts, List.map_append]
        congr 1
        have howned : l.log.slot ≠ .free := by simp [hslot]
        exact texts_record_of_started ht howned ha

end Runs

/-- A process on a terminal that starts its log with a filter that cannot be read, then with one
that lets warnings with a path pass, and then again; and one that starts it in JSON at once. -/
theorem written_by_second_start :
    let first : LoggedSession := { session := { host := .fresh }, log := { terminal := true } }
    let good : Settings := { logFilter := "off,sandbox_relay[\x7bpath\x7d]=warn" }
    let actions : List Action :=
      [.start { logFilter := "relay=loud" }, .start good, .start { logFilter := "off" }]
    firstStart? (first.record actions) = some good ∧
      ((first.after actions).perform (.request (.open "/"))).written =
        ("\x1b[33m WARN\x1b[0m \x1b[2msandbox_relay::resource\x1b[0m\x1b[2m:\x1b[0m " ++
          "sandboxed resource could not be opened \x1b[3mpath\x1b[0m\x1b[2m=\x1b[0m/ " ++
          "\x1b[3merror\x1b[0m\x1b[2m=\x1b[0minput path has no file name\n").toList ∧
      ((first.perform (.start { good with logFormat := .json })).next.perform
        (.request (.open "/"))).written =
        ("\x7b\"level\":\"WARN\",\"message\":\"sandboxed resource could not be opened\"," ++
          "\"path\":\"/\",\"error\":\"input path has no file name\"," ++
          "\"target\":\"sandbox_relay::resource\"\x7d\n").toList := by
  intro first good actions
  have hf : firstStart? (first.record actions) = some good := by decide +kernel
  obtain ⟨_, _, _, hwritten⟩ := written_by_first_start { host := .fresh } true actions
  obtain ⟨filter, hfilter, _, htext, _⟩ := hwritten good hf
  obtain ⟨lines, hlines, hall⟩ := htext (.request (.open "/"))
  have hadmitted : ((first.after actions).events (.request (.open "/"))).filter filter.admits =
      [.openFailed "/" Host.noFileName] := by
    have hrules : Filter.ofText good.logFilter = .ok ⟨[{ target := none, threshold := .off },
        { target := some "sandbox_relay".toList, field := some { name := "path".toList },
          threshold := .upTo .warn }]⟩ := by decide +kernel
    obtain rfl := Except.ok.inj (hrules.symm.trans hfilter)
    decide +kernel
  rw [hadmitted] at hall
  cases hall with
  | cons hline hrest =>
    cases hrest
    cases hline
    -- both texts are taken apart into lists, which are cheaper to compare than strings
    refine ⟨hf, hlines.trans ?_, ?_⟩
    · rw [← compact_eq_wording]
      simp only [String.toList_append]
      decide +kernel
    · simp only [String.toList_append]
      decide +kernel

end LoggedSession
end ConfinedRelay
