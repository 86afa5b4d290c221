import ConfinedRelay.LoggedSession

/-!
Who owns the log of a process. Whatever is done and in whatever order, the first to take
the slot keeps it. The log has started exactly if a start of its own took the slot, and from
then on every start succeeds. A start that fails leaves no trace: nothing that happens later
can tell whether it was tried.
-/
namespace ConfinedRelay

/-- All that somebody else can do to the slot. -/
inductive Log.Occupying (l : Log) : Bool → Log → Prop
  | taken : l.slot = .free → Occupying l true { l with slot := .foreign }
  | refused : l.slot ≠ .free → Occupying l false l

theorem Log.occupying (l : Log) : l.Occupying l.occupy.1 l.occupy.2 := by
  unfold occupy
  cases hs : l.slot with
  | free => exact .taken hs
  | foreign => exact .refused (by simp [hs])
  | recorder r => exact .refused (by simp [hs])

theorem Log.slot_occupy {l : Log} (h : l.slot ≠ .free) : l.occupy.2.slot = l.slot := by
  have hs := l.occupying
  generalize l.occupy.1 = answer at hs
  generalize l.occupy.2 = next at hs ⊢
  cases hs with
  | taken hfree => exact absurd hfree h
  | refused => rfl

section Starts

variable [PatternSyntax]

/-- All that a start can do: what it answers, and the log that it leaves. -/
inductive Log.Starting (l : Log) (s : Settings) : Except LogError Unit → Log → Prop
  | again : l.started = true → Starting l s (.ok ()) l
  | first (filter : Filter) : l.started = false → Filter.ofText s.logFilter = .ok filter →
      l.slot = .free → Starting l s (.ok ())
        { l with slot := .recorder ⟨filter, s.logFormat, l.terminal⟩, started := true }
  | misread (e : FilterError) : l.started = false → Filter.ofText s.logFilter = .error e →
      Starting l s (.error (.filter e)) l
  | late (filter : Filter) : l.started = false → Filter.ofText s.logFilter = .ok filter →
      l.slot ≠ .free → Starting l s (.error .slotTaken) l

theorem Log.starting (l : Log) (s : Settings) : l.Starting s (l.start s).1 (l.start s).2 := by
  unfold start
  cases hl : l.started with
  | true => exact .again hl
  | false =>
    rw [if_neg Bool.false_ne_true]
    unfold claim
    cases hf : Filter.ofText s.logFilter with
    | error e => exact .misread e hl hf
    | ok filter =>
      dsimp only
      cases hs : l.slot with
      | free => exact .first filter hl hf hs
      | foreign => exact .late filter hl hf (by simp [hs])
      | recorder r => exact .late filter hl hf (by simp [hs])

/-- An owned slot keeps its owner in every start. -/
theorem Log.slot_start {l : Log} (h : l.slot ≠ .free) (s : Settings) :
    (l.start s).2.slot = l.slot := by
  have hs := l.starting s
  generalize (l.start s).1 = answer at hs
  generalize (l.start s).2 = next at hs ⊢
  cases hs with
  | again => rfl
  | first filter _ _ hfree => exact absurd hfree h
  | misread => rfl
  | late => rfl

end Starts

namespace LoggedSession

/-- This action has been carried out and has come to this outcome. -/
def CameTo (record : List (Action × Effect)) (a : Action) (o : Outcome) : Prop :=
  ∃ e, (a, e) ∈ record ∧ e.outcome = o

/-- Some start has succeeded. -/
def Succeeded (record : List (Action × Effect)) : Prop :=
  ∃ s, CameTo record (.start s) (.started (.ok ()))

theorem cameTo_concat {record : List (Action × Effect)} {a b : Action} {e : Effect} {o : Outcome} :
    CameTo (record ++ [(a, e)]) b o ↔ CameTo record b o ∨ a = b ∧ e.outcome = o := by
  unfold CameTo
  constructor
  · rintro ⟨e', hm, ho⟩
    rcases List.mem_append.1 hm with hold | hnew
    · exact .inl ⟨e', hold, ho⟩
    · obtain ⟨rfl, rfl⟩ := Prod.mk.inj (List.mem_singleton.1 hnew)
      exact .inr ⟨rfl, ho⟩
  · rintro (⟨e', hm, ho⟩ | ⟨rfl, ho⟩)
    · exact ⟨e', List.mem_append_left _ hm, ho⟩
    · exact ⟨e, List.mem_append_right _ List.mem_cons_self, ho⟩

section Runs

variable [PatternSyntax]

/-- Carry out actions one after another. -/
def after (l : LoggedSession) : List Action → LoggedSession
  | [] => l
  | a :: later => (l.perform a).next.after later

/-- The actions with what each of them came to. -/
def record (l : LoggedSession) : List Action → List (Action × Effect)
  | [] => []
  | a :: later => (a, l.perform a) :: (l.perform a).next.record later

theorem record_append (l : LoggedSession) (earlier later : List Action) :
    l.record (earlier ++ later) = l.record earlier ++ (l.after earlier).record later := by
  induction earlier generalizing l with
  | nil => rfl
  | cons a rest ih => exact congrArg ((a, l.perform a) :: ·) (ih _)

/-- An owned slot keeps its owner in every action. -/
theorem slot_perform {l : LoggedSession} (h : l.log.slot ≠ .free) (a : Action) :
    (l.perform a).next.log.slot = l.log.slot := by
  cases a with
  | start s => exact Log.slot_start h s
  | occupy => exact Log.slot_occupy h
  | request r => rfl

theorem slot_after {l : LoggedSession} (h : l.log.slot ≠ .free) (actions : List Action) :
    (l.after actions).log.slot = l.log.slot := by
  induction actions generalizing l with
  | nil => rfl
  | cons a rest ih =>
    have ha := slot_perform h a
    exact (ih (ha ▸ h)).trans ha

/-- The log as the record tells it: it has started if some start has succeeded, and then a
recorder by the settings of such a start is in the slot. -/
structure Accounts (record : List (Action × Effect)) (l : Log) : Prop where
  started : l.started = true ↔ Succeeded record
  recorder : l.started = true ↔ ∃ r, l.slot = .recorder r
  settings : ∀ r, l.slot = .recorder r → ∃ s, CameTo record (.start s) (.started (.ok ())) ∧
    Filter.ofText s.logFilter = .ok r.filter ∧ s.logFormat = r.format
  foreign : l.slot = .foreign ↔ CameTo record .occupy (.occupied true)

section Step

variable {record : List (Action × Effect)} {l : LoggedSession}

/-- What changes neither the log nor its owner leaves the account as it is. -/
theorem accounts_unchanged {log : Log} (h : Accounts record log) {a : Action} {e : Effect}
    (hs : e.outcome = .started (.ok ()) → log.started = true)
    (ho : e.outcome ≠ .occupied true) : Accounts (record ++ [(a, e)]) log := by
  constructor
  · constructor
    · intro ht
      obtain ⟨s, hs⟩ := h.started.1 ht
      exact ⟨s, cameTo_concat.2 (.inl hs)⟩
    · rintro ⟨s, hsucceeded⟩
      rcases cameTo_concat.1 hsucceeded with hold | ⟨_, hnew⟩
      · exact h.started.2 ⟨s, hold⟩
      · exact hs hnew
  · exact h.recorder
  · intro r hr
    obtain ⟨s, hsucceeded, hf⟩ := h.settings r hr
    exact ⟨s, cameTo_concat.2 (.inl hsucceeded), hf⟩
  · rw [h.foreign, cameTo_concat]
    exact ⟨.inl, fun hor => hor.resolve_right fun hn => ho hn.2⟩

theorem accounts_start (h : Accounts record l.log) (s : Settings) :
    Accounts (record ++ [(.start s, l.perform (.start s))]) (l.perform (.start s)).next.log := by
  have ho : (l.perform (.start s)).outcome = .started (l.log.start s).1 := rfl
  have hn : (l.perform (.start s)).next.log = (l.log.start s).2 := rfl
  have hstart := l.log.starting s
  rw [hn]
  generalize (l.log.start s).1 = answer at hstart ho
  generalize (l.log.start s).2 = next at hstart
  have hl : (l.perform (.start s)).outcome ≠ .occupied true := by simp [ho]
  cases hstart with
  | again ht => exact accounts_unchanged h (fun _ => ht) hl
  | misread e _ _ => exact accounts_unchanged h (fun hok => by simp [ho] at hok) hl
  | late filter _ _ _ => exact accounts_unchanged h (fun hok => by simp [ho] at hok) hl
  | first filter _ hf hfree =>
    have hs : CameTo (record ++ [(.start s, l.perform (.start s))]) (.start s)
        (.started (.ok ())) := cameTo_concat.2 (.inr ⟨rfl, ho⟩)
    constructor
    · exact ⟨fun _ => ⟨s, hs⟩, fun _ => rfl⟩
    · exact ⟨fun _ => ⟨_, rfl⟩, fun _ => rfl⟩
    · intro r hr
      obtain rfl := Slot.recorder.inj hr
      exact ⟨s, hs, hf, rfl⟩
    · rw [cameTo_concat, ← h.foreign, hfree]
      simp

theorem accounts_occupy (h : Accounts record l.log) :
    Accounts (record ++ [(.occupy, l.perform .occupy)]) (l.perform .occupy).next.log := by
  have ho : (l.perform .occupy).outcome = .occupied l.log.occupy.1 := rfl
  have hn : (l.perform .occupy).next.log = l.log.occupy.2 := rfl
  have hoccupy := l.log.occupying
  rw [hn]
  generalize l.log.occupy.1 = free at hoccupy ho
  generalize l.log.occupy.2 = next at hoccupy
  have hs : (l.perform .occupy).outcome ≠ .started (.ok ()) := by simp [ho]
  cases hoccupy with
  | refused _ => exact accounts_unchanged h (fun hok => absurd hok hs) (by simp [ho])
  | taken hfree =>
    -- nothing has started yet, since no recorder is in the slot
    have hidle : ¬ l.log.started = true := by
      rw [h.recorder, hfree]
      simp
    constructor
    · constructor
      · intro ht
        exact absurd ht hidle
      · rintro ⟨s, hsucceeded⟩
        rcases cameTo_concat.1 hsucceeded with hold | ⟨hne, _⟩
        · exact h.started.2 ⟨s, hold⟩
        · simp at hne
    · constructor
      · intro ht
        exact absurd ht hidle
      · rintro ⟨r, hr⟩
        simp at hr
    · intro r hr
      simp at hr
    · exact ⟨fun _ => cameTo_concat.2 (.inr ⟨rfl, ho⟩), fun _ => rfl⟩

theorem accounts_perform (h : Accounts record l.log) (a : Action) :
    Accounts (record ++ [(a, l.perform a)]) (l.perform a).next.log := by
  cases a with
  | start s => exact accounts_start h s
  | occupy => exact accounts_occupy h
  | request r => exact accounts_unchanged h (fun ho => by simp [perform] at ho) (by simp [perform])

theorem accounts_after (h : Accounts record l.log) (actions : List Action) :
    Accounts (record ++ l.record actions) (l.after actions).log := by
  induction actions generalizing l record with
  | nil => rwa [LoggedSession.record, List.append_nil]
  | cons a rest ih =>
    have hr := ih (accounts_perform h a)
    rwa [List.append_assoc] at hr

end Step

theorem accounts_nil (terminal : Bool) : Accounts [] { terminal } := by
  constructor
  · exact ⟨fun ht => absurd ht Bool.false_ne_true, fun ⟨s, e, hm, _⟩ => absurd hm List.not_mem_nil⟩
  · exact ⟨fun ht => absurd ht Bool.false_ne_true, fun ⟨r, hr⟩ => by simp at hr⟩
  · intro r hr
    simp at hr
  · exact ⟨fun hs => by simp at hs, fun ⟨e, hm, _⟩ => absurd hm List.not_mem_nil⟩

/-- A start that fails changes nothing. -/
theorem next_of_failed {l : LoggedSession} {s : Settings} {e : LogError}
    (h : (l.perform (.start s)).outcome = .started (.error e)) :
    (l.perform (.start s)).next = l := by
  have ha : (l.log.start s).1 = .error e := Outcome.started.inj h
  have hn : (l.perform (.start s)).next = { l with log := (l.log.start s).2 } := rfl
  have hs := l.log.starting s
  rw [hn]
  rw [ha] at hs
  generalize (l.log.start s).2 = next at hs
  cases hs with
  | misread => rfl
  | late => rfl

/-- What a start answers, told from the record and the slot. -/
structure Answers (record : List (Action × Effect)) (l : Log) (s : Settings)
    (answer : Except LogError Unit) : Prop where
  ok : answer = .ok () ↔ Succeeded record ∨
    (∃ filter, Filter.ofText s.logFilter = .ok filter) ∧ l.slot = .free
  filter : ∀ e, answer = .error (.filter e) ↔
    ¬ Succeeded record ∧ Filter.ofText s.logFilter = .error e
  slotTaken : answer = .error .slotTaken ↔ ¬ Succeeded record ∧
    (∃ filter, Filter.ofText s.logFilter = .ok filter) ∧ l.slot = .foreign

theorem answers_start {record : List (Action × Effect)} {l : Log} (h : Accounts record l)
    (s : Settings) : Answers record l s (l.start s).1 := by
  have hs := l.starting s
  generalize (l.start s).1 = answer at hs ⊢
  generalize (l.start s).2 = next at hs
  cases hs with
  | again ht =>
    have hsucceeded := h.started.1 ht
    constructor <;> simp [hsucceeded]
  | first filter ht hf hfree =>
    constructor <;> simp [hf, hfree]
  | misread e ht hf =>
    have hsucceeded : ¬ Succeeded record := by simp [← h.started, ht]
    constructor <;> simp [hsucceeded, hf]
  | late filter ht hf htaken =>
    have hsucceeded : ¬ Succeeded record := by simp [← h.started, ht]
    have hforeign : l.slot = .foreign := by
      cases hslot : l.slot with
      | free => exact absurd hslot htaken
      | foreign => rfl
      | recorder r =>
        have hstarted := h.recorder.2 ⟨r, hslot⟩
        simp [ht] at hstarted
    constructor <;> simp [hsucceeded, hf, hforeign]

/-- The log in every state that a process can reach, and what the next start does there. -/
theorem start_decided (session : Session) (terminal : Bool) (actions : List Action) :
    let first : LoggedSession := { session, log := { terminal } }
    let l := first.after actions
    let record := first.record actions
    Accounts record l.log ∧
    (l.log.slot ≠ .free → ∀ later, (l.after later).log.slot = l.log.slot) ∧
    ∀ s, ∃ answer, (l.perform (.start s)).outcome = .started answer ∧
      Answers record l.log s answer ∧
      (answer ≠ .ok () →
        (l.perform (.start s)).next = l ∧
        -- without this start all other actions come to the same
        (∀ later,
          first.record (actions ++ .start s :: later) =
            record ++ (.start s, l.perform (.start s)) :: l.record later ∧
          first.record (actions ++ later) = record ++ l.record later) ∧
        ∀ t filter, l.log.slot = .free → Filter.ofText t.logFilter = .ok filter →
          ((l.perform (.start s)).next.perform (.start t)).outcome = .started (.ok ())) := by
  intro first l record
  have ha : Accounts record l.log := accounts_after (l := first) (accounts_nil terminal) actions
  refine ⟨ha, slot_after, ?_⟩
  intro s
  refine ⟨_, rfl, answers_start ha s, ?_⟩
  intro hfailed
  have hn : (l.perform (.start s)).next = l := by
    cases ho : (l.log.start s).1 with
    | ok u => exact absurd ho hfailed
    | error e => exact next_of_failed (congrArg Outcome.started ho)
  refine ⟨hn, ?_, ?_⟩
  · intro later
    refine ⟨?_, record_append first actions later⟩
    rw [record_append first actions, LoggedSession.record, hn]
  · intro t filter hfree hf
    rw [hn]
    exact congrArg Outcome.started ((answers_start ha t).ok.2 (.inr ⟨⟨filter, hf⟩, hfree⟩))

end Runs

/-- A filter that cannot be read leaves the slot free for one that can. -/
theorem start_decided_after_failure :
    let first : LoggedSession := { session := { host := .fresh } }
    let failed := first.perform (.start { logFilter := "relay=loud" })
    failed.outcome = .started (.error (.filter .badThreshold)) ∧
      (failed.next.perform (.start {})).outcome = .started (.ok ()) := by
  intro first failed
  have ho : failed.outcome = .started (.error (.filter .badThreshold)) := rfl
  obtain ⟨_, _, hstart⟩ := start_decided { host := .fresh } false []
  obtain ⟨answer, ha, _, hfailed⟩ := hstart { logFilter := "relay=loud" }
  have he : answer ≠ .ok () := by
    intro hok
    rw [hok] at ha
    exact absurd (Outcome.started.inj (ha.symm.trans ho)) (by simp)
  exact ⟨ho, (hfailed he).2.2 {} ⟨[Filter.fallback]⟩ rfl rfl⟩

end LoggedSession
end ConfinedRelay
