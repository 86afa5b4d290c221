import ConfinedRelay.Filter
import Mathlib.Data.List.Induction

/-!
Which rule of a filter decides about an event, and which events pass. Of the rules that
apply, one decides that is at least as specific as all before it and more specific than all
behind it. There is at most one such rule, and it is the one that the filter finds.
-/
namespace ConfinedRelay

theorem Threshold.admits_iff (t : Threshold) (l : Level) :
    t.admits l = true ↔ ∃ limit, t.level = some limit ∧ l.rank ≤ limit.rank := by
  unfold admits
  cases t.level <;> simp

/-- The target of a rule, if it has one, begins that of the event. No event stands in a span,
and the field that the rule asks for, if any, is one of the event and need only be there. -/
structure Rule.Applies (r : Rule) (e : Event) : Prop where
  target : ∀ t, r.target = some t → t <+: e.target.name.toList
  span : r.span = none
  field : ∀ f, r.field = some f → f.value = none ∧ String.ofList f.name ∈ e.fieldNames

theorem Rule.applies_iff (r : Rule) (e : Event) : r.applies e = true ↔ r.Applies e := by
  constructor
  · intro h
    simp only [applies, Bool.and_eq_true, Option.all_eq_true, Option.isNone_iff_eq_none,
      List.isPrefixOf_iff_prefix, List.contains_iff_mem] at h
    exact ⟨h.1.1, h.1.2, h.2⟩
  · rintro ⟨ht, hs, hf⟩
    simp only [applies, Bool.and_eq_true, Option.all_eq_true, Option.isNone_iff_eq_none,
      List.isPrefixOf_iff_prefix, List.contains_iff_mem]
    exact ⟨⟨ht, hs⟩, hf⟩

namespace Filter

/-- One of the rules in a row decides about an event: it applies, no rule before it that
applies is more specific, and every rule behind it that applies is less so. -/
def Decides (rules : List Rule) (e : Event) (r : Rule) : Prop :=
  ∃ earlier later, rules = earlier ++ r :: later ∧ r.Applies e ∧
    (∀ q ∈ earlier, q.Applies e → q.specificity ≤ r.specificity) ∧
    ∀ q ∈ later, q.Applies e → q.specificity < r.specificity

section Row

variable {rules : List Rule} {e : Event} {q r : Rule}

theorem Decides.le (h : Decides rules e r) {p : Rule} (hp : p ∈ rules)
    (ha : p.Applies e) : p.specificity ≤ r.specificity := by
  obtain ⟨earlier, later, rfl, _, hle, hlt⟩ := h
  rcases List.mem_append.1 hp with hm | hm
  · exact hle p hm ha
  · rcases List.mem_cons.1 hm with rfl | hm
    · exact Specificity.le_refl _
    · exact Specificity.le_of_lt (hlt p hm ha)

theorem Decides.mem (h : Decides rules e r) : r ∈ rules ∧ r.Applies e := by
  obtain ⟨earlier, later, rfl, ha, _⟩ := h
  exact ⟨List.mem_append_right _ List.mem_cons_self, ha⟩

/-- Of the rules that apply none has a longer target than the one that decides. -/
theorem Decides.length_target_le (h : Decides rules e r) (hq : q ∈ rules) (ha : q.Applies e)
    {t : List Char} (ht : q.target = some t) : ∃ u, r.target = some u ∧ t.length ≤ u.length := by
  have hle : q.specificity.target ≤ r.specificity.target :=
    (h.le hq ha).elim Nat.le_of_lt fun heq => Nat.le_of_eq heq.1
  simp only [Rule.specificity, ht, Option.elim_some] at hle
  cases hr : r.target with
  | none => simp [hr] at hle
  | some u => exact ⟨u, rfl, by simpa [hr] using hle⟩

/-- A rule at the end of the row decides if it can, and else leaves the decision as it is. -/
theorem decides_concat : Decides (rules ++ [q]) e r ↔
    (r = q ∧ q.Applies e ∧ ∀ p ∈ rules, p.Applies e → p.specificity ≤ q.specificity) ∨
    (Decides rules e r ∧ (q.Applies e → q.specificity < r.specificity)) := by
  constructor
  · rintro ⟨earlier, later, hrow, ha, hle, hlt⟩
    rcases List.eq_nil_or_concat later with rfl | ⟨later, p, rfl⟩
    · obtain ⟨rfl, hq⟩ := List.append_inj' hrow rfl
      obtain rfl := List.singleton_inj.1 hq
      exact .inl ⟨rfl, ha, hle⟩
    · rw [List.concat_eq_append, ← List.cons_append, ← List.append_assoc] at hrow
      obtain ⟨rfl, hq⟩ := List.append_inj' hrow rfl
      obtain rfl := List.singleton_inj.1 hq
      rw [List.concat_eq_append] at hlt
      refine .inr ⟨⟨earlier, later, rfl, ha, hle, ?_⟩, ?_⟩
      · exact fun p hp => hlt p (List.mem_append_left _ hp)
      · exact hlt q (List.mem_append_right _ List.mem_cons_self)
  · rintro (⟨rfl, ha, hle⟩ | ⟨⟨earlier, later, rfl, ha, hle, hlt⟩, hq⟩)
    · exact ⟨rules, [], rfl, ha, hle, fun p hp => absurd hp List.not_mem_nil⟩
    · refine ⟨earlier, later ++ [q], by simp, ha, hle, ?_⟩
      intro p hp hap
      rcases List.mem_append.1 hp with hm | hm
      · exact hlt p hm hap
      · obtain rfl := List.mem_singleton.1 hm
        exact hq hap

theorem deciding_concat : (⟨rules ++ [q]⟩ : Filter).deciding e =
    if q.applies e then prefer ((⟨rules⟩ : Filter).deciding e) q
    else (⟨rules⟩ : Filter).deciding e := by
  unfold deciding
  cases ha : q.applies e <;> simp [List.filter_append, ha]

theorem prefer_ne_none (earlier : Option Rule) (q : Rule) : prefer earlier q ≠ none := by
  cases earlier with
  | none => simp [prefer]
  | some r =>
    unfold prefer
    split
    · rename_i h
      cases h
    · split <;> simp

theorem not_applies_of_deciding_eq_none (h : (⟨rules⟩ : Filter).deciding e = none) :
    ∀ p ∈ rules, ¬ p.Applies e := by
  induction rules using List.reverseRecOn with
  | nil => simp
  | append_singleton rules q ih =>
    rw [deciding_concat] at h
    split at h
    · exact absurd h (prefer_ne_none _ _)
    · rename_i hq
      rw [Rule.applies_iff] at hq
      intro p hp
      rcases List.mem_append.1 hp with hm | hm
      · exact ih h p hm
      · rwa [List.mem_singleton.1 hm]

end Row

/-- The induction is on the row of rules from its end, where the later of equals stands. -/
theorem deciding_eq_some_iff (rules : List Rule) (e : Event) (r : Rule) :
    (⟨rules⟩ : Filter).deciding e = some r ↔ Decides rules e r := by
  induction rules using List.reverseRecOn generalizing r with
  | nil => simp [deciding, Decides]
  | append_singleton rules q ih =>
    rw [deciding_concat, decides_concat]
    by_cases hq : q.Applies e
    · rw [if_pos ((Rule.applies_iff q e).2 hq)]
      cases hd : (⟨rules⟩ : Filter).deciding e with
      | none =>
        have hnone := not_applies_of_deciding_eq_none hd
        have hr : ¬ Decides rules e r := by rw [← ih r, hd]; simp
        simp only [prefer, Option.some.injEq, hq, hr, true_and, false_and, or_false]
        exact ⟨fun he => ⟨he.symm, fun p hp ha => absurd ha (hnone p hp)⟩, fun h => h.1.symm⟩
      | some s =>
        have hs := (ih s).1 hd
        have hr : Decides rules e r ↔ s = r := by rw [← ih r, hd, Option.some.injEq]
        simp only [prefer, hq, hr, true_and, forall_const]
        by_cases hle : s.specificity ≤ q.specificity
        · rw [if_pos hle, Option.some.injEq]
          constructor
          · rintro rfl
            exact .inl ⟨rfl, fun p hp ha => Specificity.le_trans (hs.le hp ha) hle⟩
          · rintro (⟨rfl, _⟩ | ⟨rfl, hlt⟩)
            · rfl
            · exact absurd hle (Specificity.not_le.2 hlt)
        · rw [if_neg hle, Option.some.injEq]
          constructor
          · rintro rfl
            exact .inr ⟨rfl, Specificity.not_le.1 hle⟩
          · rintro (⟨rfl, hall⟩ | ⟨rfl, _⟩)
            · exact absurd (hall s hs.mem.1 hs.mem.2) hle
            · rfl
    · rw [if_neg (fun ha => hq ((Rule.applies_iff q e).1 ha)), ih r]
      simp [hq]

/-- An event passes if a rule decides about it and has a threshold that is at least
as detailed as the event. -/
theorem admits_iff (f : Filter) (e : Event) :
    f.admits e = true ↔ ∃ r limit, Decides f.rules e r ∧
      r.threshold.level = some limit ∧ e.level.rank ≤ limit.rank := by
  have hd := deciding_eq_some_iff f.rules e
  unfold admits
  cases hr : f.deciding e with
  | none =>
    have hnone : ∀ r, ¬ Decides f.rules e r := by
      intro r h
      have := (hd r).2 h
      simp [hr] at this
    simp [hnone]
  | some r =>
    have hone : ∀ q, Decides f.rules e q ↔ r = q := by
      intro q
      rw [← hd q, hr, Option.some.injEq]
    simp only [hone, Threshold.admits_iff]
    constructor
    · rintro ⟨limit, hl⟩
      exact ⟨r, limit, rfl, hl⟩
    · rintro ⟨q, limit, rfl, hl⟩
      exact ⟨limit, hl⟩

end Filter
end ConfinedRelay
