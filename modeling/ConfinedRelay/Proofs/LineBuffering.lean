import ConfinedRelay.Proofs.AcceptingOutput
import ConfinedRelay.Proofs.ExactConsumption
import ConfinedRelay.Proofs.TakenUnits

/-!
An output whose device has a line buffer before it. The units written are those that reached
the device and, behind them, those that are pending. The pending units are a part of one line
and fit into the buffer, whatever the device does. So the device lacks at most the end of the
last line, and closing the output brings it that end: then it holds what it would hold without
a buffer.
-/
namespace ConfinedRelay

namespace ChunkDevice

variable {δ : Type} [ChunkDevice δ]

/-- What every write keeps, whatever it answers. -/
def Keeps (P : δ → Prop) : Prop :=
  ∀ (d : δ) (chunk : List UInt8), P d → P (write d chunk).2

/-- The number of flushes that a device was asked for. -/
structure CountsFlushes (flushes : δ → Nat) : Prop where
  write (d : δ) (chunk : List UInt8) : flushes (ChunkDevice.write d chunk).2 = flushes d
  flush (d : δ) : flushes (ChunkDevice.flush d).2 = flushes d + 1

theorem CountsFlushes.keeps {flushes : δ → Nat} (hf : CountsFlushes flushes) (n : Nat) :
    Keeps fun d : δ => flushes d = n :=
  fun d chunk hd => (hf.write d chunk).trans hd

end ChunkDevice

theorem ScriptedDevice.countsFlushes :
    ChunkDevice.CountsFlushes ScriptedDevice.flushCalls := by
  constructor
  · intro d chunk
    change d.takeReply.2.flushCalls = _
    unfold takeReply
    split <;> rfl
  · intro d
    change d.flush.2.flushCalls = _
    unfold flush
    dsimp only
    split <;> rfl

namespace UnitDevice

variable {δ : Type} [UnitDevice δ] {P : δ → Prop}

/-- What every write of one unit keeps. -/
def Keeps (P : δ → Prop) : Prop := ∀ (d : δ) (b : UInt8), P d → P (write d b).2

theorem settle_keeps (hk : Keeps P) {d : δ} (hd : P d) (b : UInt8) : P (settle d b).2 := by
  fun_induction settle d b with
  | case1 d hi ih => exact ih (hk d b hd)
  | case2 d hi => exact hk d b hd

end UnitDevice

section OneUnit

variable {δ : Type} [ChunkDevice δ]

theorem ChunkDevice.Keeps.unit {P : δ → Prop} (hk : Keeps P) : UnitDevice.Keeps P :=
  fun d b => hk d [b]

/-- A device that accepts every chunk accepts every unit. -/
theorem ChunkDevice.Accepting.unit {good : δ → Prop} {contents : δ → List UInt8}
    (ha : Accepting good contents) : UnitDevice.Accepting good contents := by
  constructor
  · intro d b hg
    obtain ⟨hgood, hi | ⟨n, hn, hw, hc⟩⟩ := ha.write d [b] hg (List.cons_ne_nil b [])
    · exact ⟨hgood, .inl hi⟩
    · obtain rfl : n = 0 := by simpa using hn
      exact ⟨hgood, .inr ⟨0, hw, hc⟩⟩
  · exact ha.flush

end OneUnit

namespace Output

variable {δ : Type} [UnitDevice δ]

theorem written_close (o : Output δ) : o.close.next.written = o.written := by
  unfold close
  split <;> rfl

/-- What every write keeps is kept by any row of units. -/
theorem appendAll_keeps {P : δ → Prop} (hk : UnitDevice.Keeps P) {o : Output δ} (ho : P o.device)
    (units : List UInt8) : P (o.appendAll units).next.device := by
  induction units generalizing o with
  | nil => exact ho
  | cons b rest ih =>
    have hb : P (o.append b).next.device := by
      rw [device_append]
      exact UnitDevice.settle_keeps hk ho b
    cases hw : (o.append b).answer with
    | error failure =>
      rw [appendAll_of_rejected hw]
      exact hb
    | ok u =>
      rw [appendAll_of_accepted hw]
      exact ih hb

/-- Over a device that accepts every unit the count of those written is exact. -/
theorem counted_accepting {good : δ → Prop} {contents : δ → List UInt8}
    (ha : UnitDevice.Accepting good contents) {o : Output δ} (hg : good o.device)
    (units : List UInt8) :
    (o.appendAll units).answer = ⟨units.length, none⟩ ∧
      (o.appendAll units).next.written = o.written + units.length := by
  induction units generalizing o with
  | nil => exact ⟨rfl, rfl⟩
  | cons b rest ih =>
    obtain ⟨hanswer, hgood, _⟩ := append_accepting ha hg b
    obtain ⟨hrest, hwritten⟩ := ih hgood
    rw [appendAll_of_accepted hanswer]
    constructor
    · simp only [hrest, List.length_cons]
    · simp only [hwritten, written_append hanswer, List.length_cons]
      omega

end Output

namespace LineBuffer

variable {δ : Type}

/-- The pending units are a part of one line, and they fit. -/
structure IsTidy (l : LineBuffer δ) : Prop where
  line : newline ∉ l.pending
  fits : l.pending.length ≤ capacity

theorem isTidy_empty (device : δ) : (LineBuffer.mk device []).IsTidy :=
  ⟨List.not_mem_nil, Nat.zero_le _⟩

theorem IsTidy.of_suffix {l m : LineBuffer δ} (h : l.IsTidy) (hs : m.pending <:+ l.pending) :
    m.IsTidy :=
  ⟨fun hm => h.line (hs.mem hm), Nat.le_trans hs.length_le h.fits⟩

variable [ChunkDevice δ]

/-- Draining takes units away at the front, even where it fails. -/
theorem drain_suffix (l : LineBuffer δ) : l.drain.2.pending <:+ l.pending := by
  fun_induction drain l with
  | case1 => exact List.suffix_rfl
  | case2 => exact List.suffix_rfl
  | case3 l _ n device _ ih => exact ih.trans (List.drop_suffix (n + 1) l.pending)
  | case4 _ _ _ _ _ _ ih => exact ih
  | case5 => exact List.suffix_rfl

theorem drain_keeps {P : δ → Prop} (hk : ChunkDevice.Keeps P) {l : LineBuffer δ}
    (hl : P l.device) : P l.drain.2.device := by
  fun_induction drain l with
  | case1 => exact hl
  | case2 l _ device hw => simpa [hw] using hk l.device l.pending hl
  | case3 l _ n device hw ih => exact ih (by simpa [hw] using hk l.device l.pending hl)
  | case4 l _ f device hw _ ih => exact ih (by simpa [hw] using hk l.device l.pending hl)
  | case5 l _ f device hw _ => simpa [hw] using hk l.device l.pending hl

/-- A unit joins the pending ones only if it is no newline and finds room. -/
theorem keeps_isTidy : UnitDevice.Keeps (IsTidy : LineBuffer δ → Prop) := by
  intro l b hl
  have hs := hl.of_suffix l.drain_suffix
  change (l.write b).2.IsTidy
  unfold write
  rcases hd : l.drain with ⟨answer, drained⟩
  rw [hd] at hs
  by_cases hb : b = newline
  · rw [if_pos hb]
    cases answer with
    | some f => exact hs
    | none => exact ⟨hs.line, hs.fits⟩
  · rw [if_neg hb]
    by_cases hr : l.pending.length < capacity
    · rw [if_pos hr]
      constructor
      · simpa [hl.line] using Ne.symm hb
      · simpa using Nat.succ_le_of_lt hr
    · rw [if_neg hr]
      cases answer with
      | some f => exact hs
      | none =>
        have hp : drained.pending = [] := by simpa [hd] using pending_of_drained (l := l)
        constructor
        · simpa [hp] using Ne.symm hb
        · simp [hp, capacity]

/-- What the writes of a device keep is kept with a buffer before it. -/
theorem keeps_device {P : δ → Prop} (hk : ChunkDevice.Keeps P) :
    UnitDevice.Keeps fun l : LineBuffer δ => P l.device := by
  intro l b hl
  have hd := drain_keeps hk hl
  change P (l.write b).2.device
  unfold write
  rcases hr : l.drain with ⟨answer, drained⟩
  rw [hr] at hd
  split
  · cases answer with
    | some f => exact hd
    | none => exact hk drained.device [b] hd
  · split
    · exact hl
    · cases answer <;> exact hd

section Accepting

variable {good : δ → Prop} {contents : δ → List UInt8} {flushes : δ → Nat}

/-- A flush drains the buffer and then asks the device for a flush of its own. -/
theorem flush_accepting (ha : ChunkDevice.Accepting good contents) {l : LineBuffer δ}
    (hg : good l.device) :
    l.flush = ((ChunkDevice.flush l.drain.2.device).1,
      ⟨(ChunkDevice.flush l.drain.2.device).2, []⟩) := by
  have hd := drained ha hg
  unfold flush
  rcases hr : l.drain with ⟨answer, drained⟩
  rw [hr] at hd
  obtain ⟨rfl, hpending, _, _⟩ := hd
  dsimp only at hpending ⊢
  rw [hpending]

/-- Where no newline is pending, everything up to the last one has gone through. -/
theorem lines_prefix {arrived pending before lines tail : List UInt8}
    (hp : newline ∉ pending)
    (he : arrived ++ pending = before ++ (lines ++ newline :: tail)) :
    before ++ lines ++ [newline] <+: arrived := by
  have hsplit : arrived ++ pending = (before ++ lines ++ [newline]) ++ tail := by
    rw [he]
    simp
  rcases List.append_eq_append_iff.1 hsplit with ⟨late, hl, hpending⟩ | ⟨more, hm, _⟩
  · -- what is late ends with the newline, and yet is pending
    rcases List.eq_nil_or_concat late with rfl | ⟨front, b, rfl⟩
    · exact ⟨[], by simpa using hl⟩
    · rw [List.concat_eq_append, ← List.append_assoc] at hl
      have hb : newline = b := by simpa using (List.append_inj' hl rfl).2
      simp [hpending, ← hb] at hp
  · rw [hm]
    exact List.prefix_append _ more

/-- What closing does to a device that accepts every byte. -/
structure Delivered (contents : δ → List UInt8) (flushes : δ → Nat) (before : δ)
    (units : List UInt8) (after : δ) : Prop where
  contents : contents after = contents before ++ units
  flushes : flushes after = flushes before + 1

/-- Without a buffer, closing finds all units on the device. -/
theorem delivered_bare (ha : ChunkDevice.Accepting good contents)
    (hf : ChunkDevice.CountsFlushes flushes) {device : δ} (hg : good device)
    (units : List UInt8) :
    Delivered contents flushes device units
      ((Output.mk device 0).appendAll units).next.close.next.device := by
  obtain ⟨_, hgood, hcontents⟩ := Output.appendAll_accepting ha.unit (o := ⟨device, 0⟩) hg units
  have hkept : flushes ((Output.mk device 0).appendAll units).next.device = flushes device :=
    Output.appendAll_keeps (hf.keeps (flushes device)).unit (o := ⟨device, 0⟩) rfl units
  constructor
  · rw [(Output.close_accepting ha.unit hgood).2, hcontents]
  · rw [Output.device_close, ← hkept]
    exact hf.flush _

/-- With a buffer, closing brings the pending units first. -/
theorem delivered_closed (ha : ChunkDevice.Accepting good contents)
    (hf : ChunkDevice.CountsFlushes flushes) {o : Output (LineBuffer δ)}
    (hg : good o.device.device) :
    o.close.next.device.pending = [] ∧
      Delivered contents flushes o.device.device o.device.pending o.close.next.device.device := by
  have hd := drained ha hg
  have hclose : o.close.next.device = ⟨(ChunkDevice.flush o.device.drain.2.device).2, []⟩ := by
    rw [Output.device_close]
    exact congrArg Prod.snd (flush_accepting ha hg)
  have hkept : flushes o.device.drain.2.device = flushes o.device.device :=
    drain_keeps (hf.keeps (flushes o.device.device)) rfl
  rw [hclose]
  refine ⟨rfl, ?_, ?_⟩
  · rw [(ha.flush _ hd.good).2, hd.contents]
    rfl
  · rw [hf.flush, hkept]

/-- Everything that is written to an output with a line buffer reaches the device in order,
and behind the last newline only once the output is closed. -/
theorem delivers_lines (ha : ChunkDevice.Accepting good contents)
    (hf : ChunkDevice.CountsFlushes flushes) {device : δ} (hg : good device)
    (units : List UInt8) :
    let writing := (Output.mk (LineBuffer.mk device []) 0).appendAll units
    let o := writing.next
    let bare := ((Output.mk device 0).appendAll units).next
    writing.answer = ⟨units.length, none⟩ ∧
    contents o.device.device ++ o.device.pending = contents device ++ units ∧
    o.written = units.length ∧
    newline ∉ o.device.pending ∧ o.device.pending.length ≤ 1024 ∧
    (∀ lines tail, units = lines ++ newline :: tail →
      contents device ++ lines ++ [newline] <+: contents o.device.device) ∧
    flushes o.device.device = flushes device ∧
    -- closing brings what is pending
    o.close.next.device.pending = [] ∧
    contents o.close.next.device.device = contents device ++ units ∧
    flushes o.close.next.device.device = flushes device + 1 ∧
    o.close.next.written = units.length ∧
    ((∀ d, good d → (ChunkDevice.flush d).1 = none) → o.close.answer = .ok ()) ∧
    -- and it comes to what it does without a buffer
    contents bare.close.next.device = contents o.close.next.device.device ∧
    flushes bare.close.next.device = flushes o.close.next.device.device ∧
    bare.close.next.written = o.close.next.written := by
  intro writing o bare
  obtain ⟨_, hgood, hcontents⟩ := Output.appendAll_accepting (accepting ha)
    (o := ⟨⟨device, []⟩, 0⟩) hg units
  obtain ⟨hanswer, hwritten⟩ := Output.counted_accepting (accepting ha)
    (o := ⟨⟨device, []⟩, 0⟩) hg units
  have hbare := (Output.counted_accepting ha.unit (o := ⟨device, 0⟩) hg units).2
  have htidy : o.device.IsTidy := Output.appendAll_keeps keeps_isTidy (isTidy_empty device) units
  have hkept : flushes o.device.device = flushes device :=
    Output.appendAll_keeps (keeps_device (hf.keeps (flushes device)))
      (o := ⟨⟨device, []⟩, 0⟩) rfl units
  have hgiven : contents o.device.device ++ o.device.pending = contents device ++ units := by
    change given contents o.device = _
    rw [hcontents, given, List.append_nil]
  obtain ⟨hpending, hclosed⟩ := delivered_closed ha hf hgood
  have hdelivered := hclosed.contents.trans hgiven
  have hflushed := hclosed.flushes.trans (congrArg (· + 1) hkept)
  have hd := delivered_bare ha hf hg units
  rw [Nat.zero_add] at hwritten hbare
  refine ⟨hanswer, hgiven, hwritten, htidy.line, htidy.fits, ?_, hkept, hpending, hdelivered,
    hflushed, ?_, ?_, ?_, ?_, ?_⟩
  · rintro lines tail rfl
    exact lines_prefix htidy.line hgiven
  · rw [Output.written_close]
    exact hwritten
  · intro hsucceeds
    rw [Output.close_ok_iff]
    exact (congrArg Prod.fst (flush_accepting ha hgood)).trans
      (hsucceeds _ (drained ha hgood).good)
  · exact hd.contents.trans hdelivered.symm
  · exact hd.flushes.trans hflushed.symm
  · rw [Output.written_close, Output.written_close]
    exact hbare.trans hwritten.symm

/-- One unit more than the buffer holds, and no newline among them. -/
theorem delivers_lines_beyond_capacity :
    let units : List UInt8 := List.replicate 1025 97
    let o := ((Output.mk (LineBuffer.mk ({} : ScriptedDevice) []) 0).appendAll units).next
    o.written = 1025 ∧ o.device.pending.length ≤ 1024 ∧
      o.close.next.device.device.stored.toList = units ∧
      o.close.next.device.device.flushCalls = 1 := by
  have hwilling : ScriptedDevice.IsWilling {} := List.forall_mem_nil _
  have hd := delivers_lines ScriptedDevice.accepting ScriptedDevice.countsFlushes hwilling
    (List.replicate 1025 97)
  obtain ⟨_, _, hwritten, _, hfits, _, _, _, hcontents, hflushes, _⟩ := hd
  exact ⟨hwritten.trans List.length_replicate, hfits, hcontents, hflushes⟩

end Accepting
end LineBuffer
end ConfinedRelay
