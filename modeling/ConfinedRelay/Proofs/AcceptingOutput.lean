import ConfinedRelay.LineBuffer
import ConfinedRelay.Proofs.Decisions
import ConfinedRelay.Proofs.Reception

/-!
Devices that accept every byte, and outputs over them. Such a device may be interrupted
and may take a chunk in parts, but it keeps what it takes, in order. A line buffer over it
is such a device again, if the pending units count as kept. So every unit that is offered
to an output is kept, with a buffer as without one.
-/
namespace ConfinedRelay

/-- From the states in `good` on every byte is accepted, and `contents` tells what has been
accepted so far. -/
structure ChunkDevice.Accepting {δ : Type} [ChunkDevice δ] (good : δ → Prop)
    (contents : δ → List UInt8) : Prop where
  write (d : δ) (chunk : List UInt8) : good d → chunk ≠ [] →
    good (ChunkDevice.write d chunk).2 ∧
      ((ChunkDevice.write d chunk).1.IsInterruption ∧
          contents (ChunkDevice.write d chunk).2 = contents d ∨
        ∃ n < chunk.length, (ChunkDevice.write d chunk).1 = .count (n + 1) ∧
          contents (ChunkDevice.write d chunk).2 = contents d ++ chunk.take (n + 1))
  flush (d : δ) : good d →
    good (ChunkDevice.flush d).2 ∧ contents (ChunkDevice.flush d).2 = contents d

/-- The same for a device that is given one unit at a time. -/
structure UnitDevice.Accepting {δ : Type} [UnitDevice δ] (good : δ → Prop)
    (contents : δ → List UInt8) : Prop where
  write (d : δ) (b : UInt8) : good d →
    good (UnitDevice.write d b).2 ∧
      ((UnitDevice.write d b).1.IsInterruption ∧
          contents (UnitDevice.write d b).2 = contents d ∨
        ∃ n, (UnitDevice.write d b).1 = .count (n + 1) ∧
          contents (UnitDevice.write d b).2 = contents d ++ [b])
  flush (d : δ) : good d →
    good (UnitDevice.flush d).2 ∧ contents (UnitDevice.flush d).2 = contents d

theorem WriteReply.kept_of_interruption {r : WriteReply} (chunk : List UInt8)
    (h : r.isInterruption = true) : (r.answer chunk).kept chunk = [] := by
  cases r with
  | all => simp at h
  | claim n => simp at h
  | fault f => rfl

namespace ScriptedDevice

/-- No reply is left that refuses or that gives a count of its own. -/
def IsWilling (d : ScriptedDevice) : Prop :=
  ∀ r ∈ d.replies.toList, r.isInterruption = true ∨ r = .all

theorem isWilling_takeReply {d : ScriptedDevice} (hd : d.IsWilling) :
    (d.takeReply.1.isInterruption = true ∨ d.takeReply.1 = .all) ∧ d.takeReply.2.IsWilling ∧
      d.takeReply.2.stored = d.stored := by
  unfold IsWilling takeReply at *
  cases hn : d.replies.next? with
  | none => exact ⟨.inr rfl, hd, rfl⟩
  | some p =>
    rw [Script.toList_of_next? hn] at hd
    exact ⟨hd _ List.mem_cons_self, fun r hr => hd r (List.mem_cons_of_mem _ hr), rfl⟩

theorem accepting : ChunkDevice.Accepting IsWilling (·.stored.toList) := by
  constructor
  · intro d chunk hd hc
    obtain ⟨hr, hn, hs⟩ := isWilling_takeReply hd
    refine ⟨hn, ?_⟩
    have ha : (ChunkDevice.write d chunk).1 = d.takeReply.1.answer chunk := rfl
    have hk : (ChunkDevice.write d chunk).2.stored.toList =
        d.takeReply.2.stored.toList ++ (d.takeReply.1.answer chunk).kept chunk :=
      Array.toList_appendList
    rw [ha, hk, hs]
    rcases hr with hi | hall
    · left
      refine ⟨(d.takeReply.1.isInterruption_answer chunk).2 hi, ?_⟩
      rw [WriteReply.kept_of_interruption chunk hi, List.append_nil]
    · right
      obtain ⟨b, rest, rfl⟩ := List.exists_cons_of_ne_nil hc
      rw [hall]
      exact ⟨rest.length, Nat.lt_succ_self _, rfl, by simp [WriteReply.answer, WriteAnswer.kept]⟩
  · intro d hd
    change d.flush.2.IsWilling ∧ d.flush.2.stored.toList = _
    unfold flush
    dsimp only
    split
    · exact ⟨hd, rfl⟩
    · exact ⟨hd, rfl⟩

end ScriptedDevice

namespace LineBuffer

variable {δ : Type} [ChunkDevice δ] {good : δ → Prop} {contents : δ → List UInt8}

/-- What was given to a buffer: what its device has, and behind it what is pending. -/
def given (contents : δ → List UInt8) (l : LineBuffer δ) : List UInt8 :=
  contents l.device ++ l.pending

/-- What draining comes to over a device that accepts every byte. -/
structure Drained (good : δ → Prop) (contents : δ → List UInt8) (l : LineBuffer δ)
    (drain : Option Fault × LineBuffer δ) : Prop where
  answer : drain.1 = none
  pending : drain.2.pending = []
  good : good drain.2.device
  contents : contents drain.2.device = l.given contents

/-- The induction follows the calls: each is interrupted or moves pending units over. -/
theorem drained (ha : ChunkDevice.Accepting good contents) {l : LineBuffer δ}
    (hg : good l.device) : Drained good contents l l.drain := by
  fun_induction drain l with
  | case1 l hp => exact ⟨rfl, hp, hg, by rw [given, hp, List.append_nil]⟩
  | case2 l hp device hw =>
    obtain ⟨_, hi | ⟨n, _, hn, _⟩⟩ := ha.write _ _ hg hp
    · simp [hw] at hi
    · simp [hw] at hn
  | case3 l hp n device hw ih =>
    obtain ⟨hgood, hi | ⟨k, hk, hn, hc⟩⟩ := ha.write _ _ hg hp
    · simp [hw] at hi
    · rw [hw] at hgood hn hc
      obtain rfl : n = k := by simpa using hn
      obtain ⟨hanswer, hpending, hdevice, hcontents⟩ := ih hgood
      refine ⟨hanswer, hpending, hdevice, ?_⟩
      rw [hcontents, given, given, hc, List.append_assoc, List.take_append_drop]
  | case4 l hp f device hw hf ih =>
    obtain ⟨hgood, hi | ⟨k, hk, hn, hc⟩⟩ := ha.write _ _ hg hp
    · rw [hw] at hgood hi
      obtain ⟨hanswer, hpending, hdevice, hcontents⟩ := ih hgood
      refine ⟨hanswer, hpending, hdevice, ?_⟩
      rw [hcontents, given, given, hi.2]
    · simp [hw] at hn
  | case5 l hp f device hw hf =>
    obtain ⟨_, hi | ⟨n, _, hn, _⟩⟩ := ha.write _ _ hg hp
    · simp [hw, hf] at hi
    · simp [hw] at hn

/-- A line buffer over a device that accepts every byte accepts every unit. -/
theorem accepting (ha : ChunkDevice.Accepting good contents) :
    UnitDevice.Accepting (fun l : LineBuffer δ => good l.device) (given contents) := by
  constructor
  · intro l b hg
    have hd := drained ha hg
    change good (l.write b).2.device ∧ ((l.write b).1.IsInterruption ∧
      given contents (l.write b).2 = _ ∨ ∃ n, (l.write b).1 = _ ∧ given contents (l.write b).2 = _)
    unfold write
    rcases hr : l.drain with ⟨answer, drained⟩
    rw [hr] at hd
    obtain ⟨rfl, hpending, hgood, hcontents⟩ := hd
    dsimp only at hpending hgood hcontents ⊢
    by_cases hb : b = newline
    · rw [if_pos hb]
      dsimp only
      obtain ⟨hgood', hw⟩ := ha.write _ [b] hgood (List.cons_ne_nil _ _)
      refine ⟨hgood', ?_⟩
      rcases hw with ⟨hi, hc⟩ | ⟨n, hn, hw, hc⟩
      · left
        refine ⟨hi, ?_⟩
        simp [given, hpending, hc, hcontents]
      · right
        refine ⟨n, hw, ?_⟩
        simp [given, hpending, hc, hcontents]
    · rw [if_neg hb]
      by_cases hl : l.pending.length < capacity
      · rw [if_pos hl]
        exact ⟨hg, .inr ⟨0, rfl, by simp [given]⟩⟩
      · rw [if_neg hl]
        exact ⟨hgood, .inr ⟨0, rfl, by simp [given, hpending, hcontents]⟩⟩
  · intro l hg
    have hd := drained ha hg
    change good l.flush.2.device ∧ given contents l.flush.2 = _
    unfold flush
    rcases hr : l.drain with ⟨answer, drained⟩
    rw [hr] at hd
    obtain ⟨rfl, hpending, hgood, hcontents⟩ := hd
    dsimp only at hpending hgood hcontents ⊢
    obtain ⟨hgood', hc⟩ := ha.flush _ hgood
    exact ⟨hgood', by simp [given, hpending, hc, hcontents]⟩

end LineBuffer

section Output

variable {δ : Type} [UnitDevice δ] {good : δ → Prop} {contents : δ → List UInt8}

/-- A write that is repeated while it is interrupted is accepted in the end. -/
theorem UnitDevice.settle_accepting (ha : Accepting good contents) {d : δ} (hg : good d)
    (b : UInt8) :
    ∃ n, (settle d b).1 = .count (n + 1) ∧ good (settle d b).2 ∧
      contents (settle d b).2 = contents d ++ [b] := by
  fun_induction settle d b with
  | case1 d hi ih =>
    obtain ⟨hgood, ⟨_, hc⟩ | ⟨n, hn, _⟩⟩ := ha.write d b hg
    · rw [← hc]
      exact ih hgood
    · simp [hn] at hi
  | case2 d hi =>
    obtain ⟨hgood, ⟨hi', _⟩ | ⟨n, hn, hc⟩⟩ := ha.write d b hg
    · exact absurd hi' hi
    · exact ⟨n, hn, hgood, hc⟩

namespace Output

theorem append_accepting (ha : UnitDevice.Accepting good contents) {o : Output δ}
    (hg : good o.device) (b : UInt8) :
    (o.append b).answer = .ok () ∧ good (o.append b).next.device ∧
      contents (o.append b).next.device = contents o.device ++ [b] := by
  obtain ⟨n, hn, hgood, hc⟩ := UnitDevice.settle_accepting ha hg b
  unfold append
  rcases hs : UnitDevice.settle o.device b with ⟨answer, device⟩
  rw [hs] at hn hgood hc
  dsimp only at hn
  subst hn
  exact ⟨rfl, hgood, hc⟩

theorem appendAll_accepting (ha : UnitDevice.Accepting good contents) {o : Output δ}
    (hg : good o.device) (units : List UInt8) :
    (o.appendAll units).answer.failure = none ∧ good (o.appendAll units).next.device ∧
      contents (o.appendAll units).next.device = contents o.device ++ units := by
  induction units generalizing o with
  | nil => exact ⟨rfl, hg, (List.append_nil _).symm⟩
  | cons b rest ih =>
    obtain ⟨hanswer, hgood, hc⟩ := append_accepting ha hg b
    obtain ⟨hfailure, hgood', hc'⟩ := ih hgood
    rw [appendAll_of_accepted hanswer]
    refine ⟨hfailure, hgood', ?_⟩
    rw [hc', hc, List.append_assoc, List.singleton_append]

theorem close_accepting (ha : UnitDevice.Accepting good contents) {o : Output δ}
    (hg : good o.device) :
    good o.close.next.device ∧ contents o.close.next.device = contents o.device := by
  have hf := ha.flush _ hg
  unfold close
  rcases hs : UnitDevice.flush o.device with ⟨answer, device⟩
  rw [hs] at hf
  cases answer with
  | none => exact hf
  | some f => exact hf

/-- Whatever the end of a supply is, all its units are kept. -/
theorem receive_accepting (ha : UnitDevice.Accepting good contents) {o : Output δ}
    (hg : good o.device) (path : String) (s : Supply) :
    good (o.receive path s).next.device ∧
      contents (o.receive path s).next.device = contents o.device ++ s.units := by
  obtain ⟨hw, hgood, hc⟩ := appendAll_accepting ha hg s.units
  cases hf : s.fault with
  | some f =>
    rw [receive_of_fault path hw hf]
    exact ⟨hgood, hc⟩
  | none =>
    obtain ⟨hgood', hc'⟩ := close_accepting ha hgood
    cases ho : (o.appendAll s.units).next.close.answer with
    | error failure =>
      rw [receive_of_unclosed path hw hf ho]
      exact ⟨hgood', hc'.trans hc⟩
    | ok u =>
      rw [receive_of_closed path hw hf ho]
      exact ⟨hgood', hc'.trans hc⟩

end Output
end Output
end ConfinedRelay
