import Mathlib.Data.List.TakeWhile
import ConfinedRelay.Proofs.TransferOutcome

/-!
How much of its scripts a transfer uses up. A read takes answers of the source up to the
first that is no interruption, and a written unit takes answers of the device in the same
way. So what is used up is told by its last answer: it is the one that decides.
-/
namespace ConfinedRelay

namespace Script

variable {α : Type} {last : α} {s t u : Script α}

/-- The answer with this number, counted from zero. Behind the script one answer is given
for ever. -/
def reply (s : Script α) (last : α) (i : Nat) : α := s.toList[i]?.getD last

/-- These are the first answers. -/
def Begins (last : α) (s : Script α) (met : List α) : Prop :=
  ∀ i (h : i < met.length), met[i] = s.reply last i

/-- These answers lead from one script to the other. -/
structure Consumes (last : α) (s t : Script α) (met : List α) : Prop where
  begins : s.Begins last met
  left : ∀ i, t.reply last i = s.reply last (met.length + i)

section Begins

variable {front later : List α} {a : α}

theorem Begins.map_range (h : s.Begins last front) {n : Nat} (hn : n = front.length) :
    (List.range n).map (s.reply last) = front := by
  apply List.ext_getElem
  · simp [hn]
  · intro i _ hi
    simp [h i hi]

theorem begins_nil (last : α) (s : Script α) : s.Begins last [] := by
  intro i hi
  simp at hi

theorem Begins.append (h : t.Begins last later) (hc : s.Consumes last t front) :
    s.Begins last (front ++ later) := by
  intro i hi
  rw [List.length_append] at hi
  by_cases hlt : i < front.length
  · rw [List.getElem_append_left hlt, hc.begins i hlt]
  · rw [List.getElem_append_right (by omega), h _ (by omega), hc.left]
    congr 1
    omega

theorem Begins.left (h : s.Begins last (front ++ later)) : s.Begins last front := by
  intro i hi
  rw [← h i (by simp; omega), List.getElem_append_left hi]

theorem Begins.right (h : s.Begins last (front ++ later)) (hc : s.Consumes last t front) :
    t.Begins last later := by
  intro i hi
  rw [hc.left, ← h _ (by simp; omega), List.getElem_append_right (Nat.le_add_right _ i)]
  congr 1
  omega

theorem Begins.getElem_concat (h : s.Begins last (front ++ [a])) :
    s.reply last front.length = a := by
  rw [← h front.length (by simp), List.getElem_append_right (Nat.le_refl _)]
  simp

/-- A row of answers that are passed over ends where the first other one stands. -/
theorem Begins.length_le {p : α → Bool} {passed : List α} {b : α}
    (h : s.Begins last (front ++ [a])) (ha : p a = false)
    (h' : s.Begins last (passed ++ [b])) (hp : ∀ q ∈ passed, p q = true) :
    passed.length ≤ front.length := by
  apply Nat.le_of_not_lt
  intro hlt
  have hq := h'.left front.length hlt
  rw [h.getElem_concat] at hq
  have hm := hp _ (List.getElem_mem hlt)
  rw [hq, ha] at hm
  exact Bool.noConfusion hm

theorem Begins.settled_unique {p : α → Bool} {passed : List α} {b : α}
    (h : s.Begins last (front ++ [a])) (hf : ∀ q ∈ front, p q = true) (ha : p a = false)
    (h' : s.Begins last (passed ++ [b])) (hp : ∀ q ∈ passed, p q = true) (hb : p b = false) :
    front = passed ∧ a = b := by
  have hlen := Nat.le_antisymm (h'.length_le hb h hf) (h.length_le ha h' hp)
  constructor
  · rw [← h.left.map_range hlen.symm, h'.left.map_range rfl]
  · rw [← h.getElem_concat, ← h'.getElem_concat, hlen]

end Begins

section Consumes

variable {met later : List α}

theorem Consumes.refl (last : α) (s : Script α) : s.Consumes last s [] := by
  constructor
  · exact begins_nil last s
  · intro i
    simp

theorem Consumes.trans (h : s.Consumes last t met) (h' : t.Consumes last u later) :
    s.Consumes last u (met ++ later) := by
  constructor
  · exact h'.begins.append h
  · intro i
    rw [h'.left, h.left, List.length_append, Nat.add_assoc]

theorem consumes_of_append (last : α) (h : s.toList = met ++ t.toList) :
    s.Consumes last t met := by
  constructor
  · intro i hi
    simp [reply, h, List.getElem?_append_left hi, hi]
  · intro i
    simp [reply, h, List.getElem?_append_right]

/-- Behind the script the last answer is met. -/
theorem consumes_of_nil (last : α) (h : s.toList = met) (ht : t.toList = []) :
    s.Consumes last t (met ++ [last]) := by
  constructor
  · intro i hi
    rw [List.length_append, List.length_singleton] at hi
    by_cases hlt : i < met.length
    · simp [reply, h, List.getElem_append_left hlt, hlt]
    · obtain rfl : i = met.length := by omega
      simp [reply, h]
  · intro i
    have hlong : s.toList.length ≤ (met ++ [last]).length + i := by
      rw [h, List.length_append]
      omega
    simp only [reply, ht, List.getElem?_nil, List.getElem?_eq_none hlong]

/-- The answers that are passed over, and the one that settles. -/
theorem consumes_settled (last : α) (p : α → Bool)
    (h : t.toList = (s.toList.dropWhile p).tail) :
    s.Consumes last t (s.toList.takeWhile p ++ [(s.toList.find? (!p ·)).getD last]) := by
  have hsplit := List.takeWhile_append_dropWhile (p := p) (l := s.toList)
  rw [List.find?_not_eq_head?_dropWhile]
  cases hd : s.toList.dropWhile p with
  | nil =>
    rw [hd, List.append_nil] at hsplit
    rw [hd] at h
    exact consumes_of_nil last hsplit.symm h
  | cons a later =>
    rw [hd] at hsplit h
    apply consumes_of_append
    rw [h]
    simpa using hsplit.symm

end Consumes

end Script

namespace ReadReply

def isInterruption : ReadReply → Bool
  | count _ _ => false
  | fault f => decide f.IsInterruption

theorem isInterruption_answer (r : ReadReply) :
    r.answer.IsInterruption ↔ r.isInterruption = true := by
  cases r with
  | count n stored => cases n <;> simp [answer, isInterruption]
  | fault f => simp [answer, isInterruption]

/-- An interruption settles nothing and brings nothing. -/
theorem passed_of_interruption {r : ReadReply} (h : r.isInterruption = true) :
    r.isFinal = false ∧ r.unit? = none := by
  cases r with
  | count n stored => simp [isInterruption] at h
  | fault f => simpa [isInterruption] using h

theorem unit?_of_answer {r : ReadReply} {b : UInt8} (h : r.answer = .unit b) :
    r.unit? = some b := by
  cases r with
  | count n stored =>
    cases n with
    | zero => simp [answer] at h
    | succ n => simpa [answer] using h
  | fault f => simp [answer] at h

theorem final_of_ended {r : ReadReply} (h : r.answer = .ended) :
    r.isFinal = true ∧ r.fault? = none := by
  cases r with
  | count n stored =>
    cases n with
    | zero => exact ⟨rfl, rfl⟩
    | succ n => simp [answer] at h
  | fault f => simp [answer] at h

theorem final_of_fault {r : ReadReply} {f : Fault} (h : r.answer = .fault f)
    (hi : r.isInterruption = false) : r.isFinal = true ∧ r.fault? = some f := by
  cases r with
  | count n stored => cases n <;> simp [answer] at h
  | fault g =>
    obtain rfl : g = f := by simpa [answer] using h
    simpa [isInterruption, fault?] using hi

end ReadReply

namespace ScriptedSource

open ByteSource (settle supply)

/-- The script begins with these answers. -/
abbrev Meets (s : ScriptedSource) (met : List ReadReply) : Prop :=
  s.replies.Begins (.count 0 none) met

/-- These answers lead a source from one state to the other, one a call. -/
structure Uses (s t : ScriptedSource) (met : List ReadReply) : Prop where
  calls : t.calls = s.calls + met.length
  script : s.replies.Consumes (.count 0 none) t.replies met

theorem Uses.refl (s : ScriptedSource) : s.Uses s [] := ⟨rfl, .refl _ _⟩

theorem Uses.trans {s t u : ScriptedSource} {met later : List ReadReply} (h : s.Uses t met)
    (h' : t.Uses u later) : s.Uses u (met ++ later) := by
  constructor
  · rw [h'.calls, h.calls, List.length_append, Nat.add_assoc]
  · exact h.script.trans h'.script

theorem uses_read (s : ScriptedSource) :
    ∃ r, (ByteSource.read s).1 = r.answer ∧ s.Uses (ByteSource.read s).2 [r] := by
  cases hl : s.replies.toList with
  | nil =>
    rw [read_of_nil hl]
    exact ⟨.count 0 none, rfl, rfl, Script.consumes_of_nil _ hl hl⟩
  | cons r later =>
    obtain ⟨replies, rfl, hr⟩ := read_of_cons hl
    rw [hr]
    exact ⟨r, rfl, rfl, Script.consumes_of_append _ hl⟩

/-- A read that is settled takes interruptions and the answer that settles it. -/
theorem uses_settle (s : ScriptedSource) :
    ∃ passed r, (∀ q ∈ passed, q.isInterruption = true) ∧ r.isInterruption = false ∧
      (settle s).1 = r.answer ∧ s.Uses (settle s).2 (passed ++ [r]) := by
  fun_induction settle s with
  | case1 s hi ih =>
    obtain ⟨q, hq, hread⟩ := uses_read s
    obtain ⟨passed, r, hpassed, hr, ha, hu⟩ := ih
    rw [hq, ReadReply.isInterruption_answer] at hi
    refine ⟨q :: passed, r, ?_, hr, ha, hread.trans hu⟩
    intro p hp
    rcases List.mem_cons.1 hp with rfl | hm
    · exact hi
    · exact hpassed p hm
  | case2 s hi =>
    obtain ⟨r, hr, hread⟩ := uses_read s
    rw [hr, ReadReply.isInterruption_answer, Bool.not_eq_true] at hi
    exact ⟨[], r, by simp, hi, hr, hread⟩

/-- The answers that a source meets decide what a settled read makes of it. -/
theorem settle_of_meets {s : ScriptedSource} {passed : List ReadReply} {r : ReadReply}
    (hm : s.Meets (passed ++ [r])) (hp : ∀ q ∈ passed, q.isInterruption = true)
    (hr : r.isInterruption = false) :
    (settle s).1 = r.answer ∧ s.Uses (settle s).2 (passed ++ [r]) := by
  obtain ⟨passed', r', hp', hr', ha, hu⟩ := uses_settle s
  obtain ⟨rfl, rfl⟩ := Script.Begins.settled_unique hm hp hr hu.script.begins hp' hr'
  exact ⟨ha, hu⟩

/-- So many units of the supply come with these answers, and nothing that ends it. -/
structure Brings (s : ScriptedSource) (n : Nat) (met : List ReadReply) : Prop where
  running : ∀ r ∈ met, r.isFinal = false
  units : met.filterMap ReadReply.unit? = (supply s).units.take n

/-- The answer that settles the next read: it brings the next unit, or what is behind the
last one. -/
structure Settles (s : ScriptedSource) (n : Nat) (r : ReadReply) : Prop where
  unit : n < (supply s).units.length → r.unit? = (supply s).units[n]?
  final : n = (supply s).units.length → r.isFinal = true ∧ r.fault? = (supply s).fault

section Brings

variable {s : ScriptedSource} {n : Nat} {met : List ReadReply}

theorem Brings.pass {passed : List ReadReply} (h : s.Brings n met)
    (hp : ∀ q ∈ passed, q.isInterruption = true) : s.Brings n (met ++ passed) := by
  have hnone : passed.filterMap ReadReply.unit? = [] := by
    apply List.filterMap_eq_nil_iff.2
    intro q hq
    exact (ReadReply.passed_of_interruption (hp q hq)).2
  constructor
  · intro q hq
    rcases List.mem_append.1 hq with hm | hm
    · exact h.running q hm
    · exact (ReadReply.passed_of_interruption (hp q hm)).1
  · rw [List.filterMap_append, hnone, List.append_nil, h.units]

theorem Brings.concat {r : ReadReply} (h : s.Brings n met) (hs : s.Settles n r)
    (hn : n < (supply s).units.length) : s.Brings (n + 1) (met ++ [r]) := by
  have hunit := hs.unit hn
  rw [List.getElem?_eq_getElem hn] at hunit
  constructor
  · intro q hq
    rcases List.mem_append.1 hq with hm | hm
    · exact h.running q hm
    · rw [List.mem_singleton.1 hm]
      exact ReadReply.isFinal_of_unit hunit
  · rw [List.filterMap_append, h.units, List.filterMap_cons_some hunit, List.filterMap_nil,
      List.take_succ_eq_append_getElem hn]

end Brings

end ScriptedSource

namespace Handle

open ByteSource (settle exhaust supply)

theorem source_nextUnit {h : Handle ScriptedSource} (hp : h.phase = .streaming) :
    h.nextUnit.next.source = (settle h.source).2 := by
  rcases hs : settle h.source with ⟨answer, next⟩
  cases answer <;> simp [nextUnit, hp, hs]

/-- What settles the read with this number is a unit of the supply, or what is behind them
all. -/
theorem settles_nextUnit {path : String} {s : ScriptedSource} {n : Nat}
    {h : Handle ScriptedSource} {r : ReadReply} (hr : h.HasRead path s n)
    (hn : n ≤ (supply s).units.length) (ha : (settle h.source).1 = r.answer)
    (hi : r.isInterruption = false) : s.Settles n r := by
  obtain ⟨_, he⟩ := hr.ahead hn
  constructor
  · intro hlt
    rw [List.drop_eq_getElem_cons hlt] at he
    obtain ⟨next, hs, _⟩ := ByteSource.settle_of_exhaust_unit he
    rw [hs] at ha
    rw [List.getElem?_eq_getElem hlt]
    exact ReadReply.unit?_of_answer ha.symm
  · rintro rfl
    rw [List.drop_length] at he
    cases hf : (supply s).fault with
    | none =>
      rw [hf] at he
      rw [ByteSource.settle_of_exhaust_end he] at ha
      exact ReadReply.final_of_ended ha.symm
    | some f =>
      rw [hf] at he
      rw [ByteSource.settle_of_exhaust_fault he] at ha
      exact ReadReply.final_of_fault ha.symm hi

/-- What so many reads and one more use up: the answers that bring so many units, and the
one that settles the last read. -/
structure Used (path : String) (s : ScriptedSource) (n : Nat) (front : List ReadReply)
    (last : ReadReply) : Prop where
  uses : s.Uses ((Handle.mk path s 0 .streaming).reads (n + 1)).next.source (front ++ [last])
  brings : s.Brings n front
  settles : s.Settles n last

/-- One more read. -/
theorem used_succ {path : String} {s : ScriptedSource} {n : Nat} {met : List ReadReply}
    (hu : s.Uses ((Handle.mk path s 0 .streaming).reads n).next.source met)
    (hb : s.Brings n met) (hn : n ≤ (supply s).units.length) :
    ∃ front last, Used path s n front last := by
  have hr := (reads_hasRun path s n).next
  obtain ⟨passed, last, hp, hi, ha, hlast⟩ :=
    ScriptedSource.uses_settle ((Handle.mk path s 0 .streaming).reads n).next.source
  refine ⟨met ++ passed, last, ?_, hb.pass hp, settles_nextUnit hr hn ha hi⟩
  rw [List.append_assoc, reads, source_nextUnit (hr.ahead hn).1]
  exact hu.trans hlast

theorem used (path : String) (s : ScriptedSource) {n : Nat} (hn : n ≤ (supply s).units.length) :
    ∃ front last, Used path s n front last := by
  induction n with
  | zero => exact used_succ (.refl s) ⟨by simp, by simp⟩ hn
  | succ n ih =>
    obtain ⟨front, last, hu⟩ := ih (Nat.le_of_succ_le hn)
    exact used_succ hu.uses (hu.brings.concat hu.settles hn) hn

end Handle

namespace ScriptedDevice

open UnitDevice (settle)
open WriteReply (deciding)

/-- The script for writes begins with these answers. -/
abbrev Meets (d : ScriptedDevice) (met : List WriteReply) : Prop := d.replies.Begins .all met

/-- These answers lead a device from one state to the other, one a call, and it is not
flushed meanwhile. -/
structure Uses (d e : ScriptedDevice) (met : List WriteReply) : Prop where
  writeCalls : e.writeCalls = d.writeCalls + met.length
  script : d.replies.Consumes .all e.replies met
  flushes : e.flushes = d.flushes
  flushCalls : e.flushCalls = d.flushCalls

theorem Uses.refl (d : ScriptedDevice) : d.Uses d [] := ⟨rfl, .refl _ _, rfl, rfl⟩

theorem Uses.trans {d e g : ScriptedDevice} {met later : List WriteReply} (h : d.Uses e met)
    (h' : e.Uses g later) : d.Uses g (met ++ later) := by
  constructor
  · rw [h'.writeCalls, h.writeCalls, List.length_append, Nat.add_assoc]
  · exact h.script.trans h'.script
  · rw [h'.flushes, h.flushes]
  · rw [h'.flushCalls, h.flushCalls]

/-- The interruptions in front of the answer that decides. -/
def passed (d : ScriptedDevice) : List WriteReply := d.replies.toList.takeWhile (·.isInterruption)

/-- The answers that the next unit uses up. -/
def settling (d : ScriptedDevice) : List WriteReply := d.passed ++ [deciding d.replies.toList]

theorem isInterruption_of_passed {d : ScriptedDevice} {q : WriteReply} (h : q ∈ d.passed) :
    q.isInterruption = true := List.mem_takeWhile_imp h

theorem not_isInterruption_deciding (replies : List WriteReply) :
    (deciding replies).isInterruption = false := by
  unfold deciding
  cases hf : replies.find? (!·.isInterruption) with
  | none => rfl
  | some r => simpa using List.find?_some hf

/-- Just one of these answers decides. -/
theorem countP_settling (d : ScriptedDevice) :
    d.settling.countP (!·.isInterruption) = 1 := by
  have hpassed : d.passed.countP (!·.isInterruption) = 0 := by
    apply List.countP_eq_zero.2
    intro q hq
    simp [isInterruption_of_passed hq]
  rw [settling, List.countP_append, hpassed]
  simp [not_isInterruption_deciding]

theorem getLast?_settling (d : ScriptedDevice) :
    d.settling.getLast? = some (deciding d.replies.toList) := by
  rw [settling, List.getLast?_concat]

theorem uses_settle (d : ScriptedDevice) (b : UInt8) :
    d.Uses (settle d b).2 d.settling := by
  have hd := decides (d := d) rfl b
  constructor
  · rw [hd.calls, settling, List.length_append, ← Nat.add_assoc]
    rfl
  · exact Script.consumes_settled .all WriteReply.isInterruption hd.left
  · exact hd.flushes
  · exact hd.flushCalls

/-- Devices that meet the answers up to the one that decides are decided alike. -/
theorem settling_of_meets {d e : ScriptedDevice} (hm : e.Meets d.settling) :
    e.settling = d.settling ∧ deciding e.replies.toList = deciding d.replies.toList := by
  obtain ⟨hpassed, hdeciding⟩ := Script.Begins.settled_unique (uses_settle e 0).script.begins
    (fun _ => isInterruption_of_passed) (not_isInterruption_deciding _) hm
    (fun _ => isInterruption_of_passed) (not_isInterruption_deciding _)
  exact ⟨by rw [settling, settling, hpassed, hdeciding], hdeciding⟩

end ScriptedDevice

namespace Output

theorem uses_append (o : Output ScriptedDevice) (b : UInt8) :
    o.device.Uses (o.append b).next.device o.device.settling := by
  rw [(appended o b).device]
  exact o.device.uses_settle b

/-- What a row of units uses up: an answer decides about each unit that is accepted and
about the one that is refused, and behind the last of them nothing is asked. -/
structure Spent (o : Output ScriptedDevice) (units : List UInt8) (met : List WriteReply) :
    Prop where
  uses : o.device.Uses (o.appendAll units).next.device met
  decided : met.countP (!·.isInterruption) = (o.appendAll units).answer.accepted +
    if (o.appendAll units).answer.failure.isSome then 1 else 0
  last : ∀ r ∈ met.getLast?, r.isInterruption = false

theorem spent (o : Output ScriptedDevice) (units : List UInt8) : ∃ met, o.Spent units met := by
  induction units generalizing o with
  | nil => exact ⟨[], .refl _, rfl, by simp⟩
  | cons b rest ih =>
    have hi := ScriptedDevice.not_isInterruption_deciding o.device.replies.toList
    have hu := uses_append o b
    have hone := o.device.countP_settling
    have hlast := o.device.getLast?_settling
    cases hw : (o.append b).answer with
    | error failure =>
      have hl := appendAll_of_rejected hw rest
      refine ⟨o.device.settling, ?_, ?_, ?_⟩
      · rw [hl]
        exact hu
      · rw [hl, hone]
        rfl
      · simp [hlast, hi]
    | ok u =>
      have hl := appendAll_of_accepted hw rest
      obtain ⟨later, hr⟩ := ih (o.append b).next
      refine ⟨o.device.settling ++ later, ?_, ?_, ?_⟩
      · rw [hl]
        exact hu.trans hr.uses
      · rw [hl, List.countP_append, hone, hr.decided]
        simp only
        omega
      · intro r hm
        rw [List.getLast?_append, hlast] at hm
        cases hlater : later.getLast? with
        | none => simp_all
        | some q =>
          rw [hlater] at hm
          exact hr.last r (by simpa [hlater] using hm)

end Output
end ConfinedRelay
