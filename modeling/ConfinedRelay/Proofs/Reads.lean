import ConfinedRelay.Proofs.ScriptedSupply
import ConfinedRelay.Proofs.WordCounts

/-!
Reading from a handle again and again, whatever it answered before. The reads hand out
the supply of the source in order; behind it they give one answer for ever and leave
the source alone.
-/
namespace ConfinedRelay
namespace Handle

open ByteSource (settle exhaust supply spent)

variable {σ : Type} [ByteSource σ]

/-- So many reads, one after another. -/
def reads (h : Handle σ) : Nat → Turn (Handle σ) (List (Except Failure (Option UInt8)))
  | 0 => { answer := [], next := h }
  | n + 1 =>
    let earlier := h.reads n
    let last := earlier.next.nextUnit
    { answer := earlier.answer ++ [last.answer]
      next := last.next
      events := earlier.events ++ last.events }

theorem nextUnit_of_unit {h : Handle σ} {next : σ} {b : UInt8} (hp : h.phase = .streaming)
    (hs : settle h.source = (.unit b, next)) :
    h.nextUnit =
      { answer := .ok (some b), next := { h with source := next, offset := h.offset + 1 } } := by
  simp [nextUnit, hp, hs]

/-- The read that finds no unit left. -/
theorem nextUnit_of_last {h : Handle σ} {s : Supply} {next : σ} (hp : h.phase = .streaming)
    (ho : h.offset = s.units.length) (he : exhaust h.source = (⟨[], s.fault⟩, next)) :
    h.nextUnit =
      { answer := s.conclusion h.path
        next := { h with source := next, phase := s.phase }
        events := s.reports h.path } := by
  cases hf : s.fault with
  | none =>
    rw [hf] at he
    have hs := ByteSource.settle_of_exhaust_end he
    simp [nextUnit, hp, hs, Supply.conclusion, Supply.phase, Supply.reports, hf]
  | some f =>
    rw [hf] at he
    have hs := ByteSource.settle_of_exhaust_fault he
    simp [nextUnit, hp, hs, Supply.conclusion, Supply.phase, Supply.reports, hf, ho]

/-- Every read behind that one. -/
theorem nextUnit_of_spent {h : Handle σ} {s : Supply} (hp : h.phase = s.phase)
    (ho : h.offset = s.units.length) :
    h.nextUnit = { answer := s.conclusion h.path, next := h } := by
  cases hf : s.fault with
  | none =>
    rw [Supply.phase, hf] at hp
    rw [nextUnit_of_exhausted hp, Supply.conclusion, hf]
  | some f =>
    rw [Supply.phase, hf] at hp
    rw [nextUnit_of_failed hp, Supply.conclusion, hf, ho]

/-- Where a handle stands that has been read so many times, seen from the source `s`
that it began with. -/
structure HasRead (path : String) (s : σ) (n : Nat) (h : Handle σ) : Prop where
  path : h.path = path
  offset : h.offset = min n (supply s).units.length
  ahead : n ≤ (supply s).units.length → h.phase = .streaming ∧
    exhaust h.source = (⟨(supply s).units.drop n, (supply s).fault⟩, spent s)
  beyond : (supply s).units.length < n → h.phase = (supply s).phase ∧ h.source = spent s

/-- What the read with this number does, and where it leaves the handle. -/
structure Reading (path : String) (s : σ) (n : Nat) (h : Handle σ) : Prop where
  answer : h.nextUnit.answer = (supply s).answer path n
  events : h.nextUnit.events =
    if n = (supply s).units.length then (supply s).reports path else []
  next : h.nextUnit.next.HasRead path s (n + 1)

section Step

variable {path : String} {s : σ} {n : Nat} {h : Handle σ}

theorem reading_of_lt (hr : h.HasRead path s n) (hn : n < (supply s).units.length) :
    h.Reading path s n := by
  obtain ⟨hp, he⟩ := hr.ahead (Nat.le_of_lt hn)
  rw [List.drop_eq_getElem_cons hn] at he
  obtain ⟨next, hs, he'⟩ := ByteSource.settle_of_exhaust_unit he
  have hu := nextUnit_of_unit hp hs
  constructor
  · rw [hu, Supply.answer, List.getElem?_eq_getElem hn]
  · rw [hu, if_neg (Nat.ne_of_lt hn)]
  · rw [hu]
    constructor
    · exact hr.path
    · change h.offset + 1 = _
      rw [hr.offset]
      omega
    · intro _
      exact ⟨hp, he'⟩
    · intro hlt
      omega

theorem reading_of_eq (hr : h.HasRead path s n) (hn : n = (supply s).units.length) :
    h.Reading path s n := by
  obtain ⟨hp, he⟩ := hr.ahead (Nat.le_of_eq hn)
  rw [List.drop_of_length_le (Nat.le_of_eq hn.symm)] at he
  have ho : h.offset = (supply s).units.length := by rw [hr.offset, hn, Nat.min_self]
  have hu := nextUnit_of_last hp ho he
  constructor
  · rw [hu, Supply.answer, List.getElem?_eq_none (Nat.le_of_eq hn.symm), hr.path]
  · rw [hu, if_pos hn, hr.path]
  · rw [hu]
    constructor
    · exact hr.path
    · change h.offset = _
      omega
    · intro hle
      omega
    · intro _
      exact ⟨rfl, rfl⟩

/-- Behind the supply a read changes nothing. -/
theorem reading_of_gt (hr : h.HasRead path s n) (hn : (supply s).units.length < n) :
    h.Reading path s n := by
  obtain ⟨hp, hs⟩ := hr.beyond hn
  have ho : h.offset = (supply s).units.length := by rw [hr.offset]; omega
  have hu := nextUnit_of_spent hp ho
  constructor
  · rw [hu, Supply.answer, List.getElem?_eq_none (Nat.le_of_lt hn), hr.path]
  · rw [hu, if_neg (Nat.ne_of_gt hn)]
  · rw [hu]
    constructor
    · exact hr.path
    · change h.offset = _
      omega
    · intro hle
      omega
    · intro _
      exact ⟨hp, hs⟩

theorem reading (hr : h.HasRead path s n) : h.Reading path s n := by
  rcases Nat.lt_trichotomy n (supply s).units.length with hn | hn | hn
  · exact reading_of_lt hr hn
  · exact reading_of_eq hr hn
  · exact reading_of_gt hr hn

end Step

theorem hasRead_zero (path : String) (s : σ) :
    (Handle.mk path s 0 .streaming).HasRead path s 0 := by
  constructor
  · rfl
  · simp
  · intro _
    exact ⟨rfl, rfl⟩
  · intro hlt
    omega

/-- What a whole run of reads has answered and reported, and where it has led. -/
structure HasRun (path : String) (s : σ) (n : Nat)
    (turn : Turn (Handle σ) (List (Except Failure (Option UInt8)))) : Prop where
  answer : turn.answer = (List.range n).map ((supply s).answer path)
  events : turn.events =
    if (supply s).units.length < n then (supply s).reports path else []
  next : turn.next.HasRead path s n

theorem reads_hasRun (path : String) (s : σ) (n : Nat) :
    HasRun path s n ((Handle.mk path s 0 .streaming).reads n) := by
  induction n with
  | zero => exact ⟨rfl, rfl, hasRead_zero path s⟩
  | succ n ih =>
    have hr := reading ih.next
    constructor
    · simp only [reads, ih.answer, hr.answer, List.range_succ, List.map_append, List.map_cons,
        List.map_nil]
    · simp only [reads, ih.events, hr.events]
      rcases Nat.lt_trichotomy n (supply s).units.length with hn | hn | hn
      · rw [if_neg (by omega), if_neg (by omega), if_neg (by omega), List.append_nil]
      · rw [if_neg (by omega), if_pos hn, if_pos (by omega), List.nil_append]
      · rw [if_pos hn, if_neg (by omega), if_pos (by omega), List.append_nil]
    · exact hr.next

/-- Reading until no unit is left hands out the whole rest. The induction is on the units
of that rest. -/
theorem nextUnits_of_hasRead {path : String} {s : σ} {n : Nat} {h : Handle σ}
    {units : List UInt8} (hr : h.HasRead path s n) (hn : n ≤ (supply s).units.length)
    (hu : (supply s).units.drop n = units) :
    (h.nextUnits none).answer = ⟨units, (supply s).ending path⟩ := by
  have hl : (none : Option Nat) ≠ some 0 := Option.some_ne_none 0 |>.symm
  induction units generalizing n h with
  | nil =>
    have hlast : n = (supply s).units.length := Nat.le_antisymm hn (List.drop_eq_nil_iff.1 hu)
    have ha := (reading_of_eq hr hlast).answer
    rw [Supply.answer, List.getElem?_eq_none (Nat.le_of_eq hlast.symm), Supply.conclusion] at ha
    unfold Supply.ending
    cases hf : (supply s).fault with
    | none =>
      rw [hf] at ha
      rw [nextUnits_of_none hl ha]
    | some f =>
      rw [hf] at ha
      rw [nextUnits_of_failed hl ha]
  | cons b rest ih =>
    have hlt : n < (supply s).units.length := by
      have hlen := congrArg List.length hu
      simp only [List.length_drop, List.length_cons] at hlen
      omega
    rw [List.drop_eq_getElem_cons hlt] at hu
    obtain ⟨rfl, hrest⟩ := List.cons.inj hu
    have hread := reading_of_lt hr hlt
    have ha := hread.answer
    rw [Supply.answer, List.getElem?_eq_getElem hlt] at ha
    rw [nextUnits_of_unit hl ha]
    simp only [Option.map_none, ih hread.next hlt hrest]

/-- Whether a read has handed out a unit. -/
def isUnit : Except Failure (Option UInt8) → Bool
  | .ok (some _) => true
  | _ => false

theorem isUnit_answer (s : Supply) (path : String) (i : Nat) :
    isUnit (s.answer path i) = decide (i < s.units.length) := by
  unfold Supply.answer
  by_cases hi : i < s.units.length
  · rw [List.getElem?_eq_getElem hi]
    simp [isUnit, hi]
  · rw [List.getElem?_eq_none (by omega), Supply.conclusion]
    cases s.fault <;> simp [isUnit, hi]

theorem countP_answers (s : Supply) (path : String) (n : Nat) :
    ((List.range n).map (s.answer path)).countP isUnit = min n s.units.length := by
  induction n with
  | zero => simp
  | succ n ih =>
    rw [List.range_succ, List.map_append, List.countP_append, ih, List.map_singleton,
      List.countP_singleton, isUnit_answer]
    by_cases hn : n < s.units.length
    · simp only [hn, decide_true, if_true]
      omega
    · simp only [hn, decide_false, Bool.false_eq_true, if_false]
      omega

theorem answer_eq_none_iff (s : Supply) (path : String) (i : Nat) :
    s.answer path i = .ok none ↔ s.units.length ≤ i ∧ s.fault = none := by
  unfold Supply.answer
  by_cases hi : i < s.units.length
  · rw [List.getElem?_eq_getElem hi]
    simp only [Except.ok.injEq, reduceCtorEq, false_iff]
    omega
  · rw [List.getElem?_eq_none (by omega), Supply.conclusion]
    cases s.fault <;> simp [Nat.not_lt.1 hi]

/-- A handle is exhausted once it has answered that nothing is left. -/
theorem isExhausted_iff {path : String} {s : σ} {n : Nat} {h : Handle σ}
    (hr : h.HasRead path s n) :
    h.IsExhausted ↔ .ok none ∈ (List.range n).map ((supply s).answer path) := by
  simp only [IsExhausted, List.mem_map, List.mem_range, answer_eq_none_iff]
  by_cases hn : n ≤ (supply s).units.length
  · rw [(hr.ahead hn).1]
    simp only [reduceCtorEq, false_iff]
    rintro ⟨i, hi, hle, _⟩
    omega
  · rw [(hr.beyond (by omega)).1, Supply.phase]
    constructor
    · intro hp
      cases hf : (supply s).fault with
      | none => exact ⟨_, by omega, Nat.le_refl _, rfl⟩
      | some f => simp [hf] at hp
    · rintro ⟨_, _, _, hf⟩
      rw [hf]

theorem readFailed_of_mem_reports {s : Supply} {path : String} {e : Event}
    (he : e ∈ s.reports path) : e.level = .warn ∧ e.message = "read failed" := by
  obtain ⟨f, _, rfl⟩ := List.mem_map.1 he
  exact ⟨rfl, rfl⟩

/-- Any number of reads from a scripted source. The reads answer with the supply of
the script, the offset counts its units, the final reply is asked for once and nothing
behind it, and a final fault is reported by the one read that meets it. -/
theorem reads_scripted (path : String) (script : Script ReadReply) (n : Nat) :
    let supply := Supply.ofReplies script.toList
    let turn := (Handle.mk path ({ replies := script } : ScriptedSource) 0 .streaming).reads n
    turn.answer = (List.range n).map (supply.answer path) ∧
    turn.next.path = path ∧
    turn.next.offset = turn.answer.countP isUnit ∧
    (turn.answer.countP isUnit < UInt64.size →
      (wordCount isUnit 0 turn.answer).toNat = turn.next.offset) ∧
    (turn.next.IsExhausted ↔ .ok none ∈ turn.answer) ∧
    (supply.units.length < n →
      turn.next.source.calls = (script.toList.takeWhile (!·.isFinal)).length + 1 ∧
      turn.next.source.replies.toList = (script.toList.dropWhile (!·.isFinal)).tail) ∧
    turn.events = (if supply.units.length < n then supply.reports path else []) ∧
    ∀ e ∈ turn.events, e.level = .warn ∧ e.message = "read failed" := by
  intro supply turn
  have hf : ScriptedSource.Follows { replies := script } script.toList :=
    ScriptedSource.follows rfl
  have hr := reads_hasRun path ({ replies := script } : ScriptedSource) n
  have ha := hr.answer
  have he := hr.events
  rw [hf.supply] at ha he
  have ho : turn.next.offset = turn.answer.countP isUnit := by
    rw [ha, countP_answers, ← hf.supply]
    exact hr.next.offset
  refine ⟨ha, hr.next.path, ho, ?_, ?_, ?_, he, ?_⟩
  · intro hlt
    rw [ho, toNat_wordCount_zero _ hlt]
  · rw [ha, ← hf.supply]
    exact isExhausted_iff hr.next
  · intro hn
    have hs := (hr.next.beyond (by rw [hf.supply]; exact hn)).2
    exact ⟨by rw [hs, hf.calls]; simp, by rw [hs, hf.left]⟩
  · intro e hm
    rw [he] at hm
    split at hm
    · exact readFailed_of_mem_reports hm
    · simp at hm

end Handle
end ConfinedRelay
