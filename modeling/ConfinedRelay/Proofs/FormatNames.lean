import ConfinedRelay.Proofs.FirstProblem
import Mathlib.Data.List.Forall2

/-!
The names of the line formats. A format goes by one text wherever it is written or read. Read
by itself, the text may have any of its letters in upper case. In a document it may be spelled
as JSON likes, but means just this text, and any other text is reported as it is.
-/
namespace ConfinedRelay

open Json (Token tokens Denotes Blanks)

namespace LineFormat

theorem ofText?_eq_some_iff (t : String) (f : LineFormat) : ofText? t = some f ↔ f.text = t := by
  constructor
  · exact ofText?_eq_some
  · rintro rfl
    exact ofText?_text f

theorem ofText?_eq_none_iff (t : String) : ofText? t = none ↔ ∀ f : LineFormat, f.text ≠ t := by
  rw [Option.eq_none_iff_forall_ne_some]
  exact forall_congr' fun f => not_congr (ofText?_eq_some_iff t f)

theorem ofAnyCase?_eq_some_iff (t : String) (f : LineFormat) :
    ofAnyCase? t = some f ↔ t.toList.map Char.toLower = f.text.toList := by
  rw [ofAnyCase?, ofText?_eq_some_iff, String.ext_iff, String.toList_ofList, eq_comm]

theorem isLower_of_mem_text {f : LineFormat} {c : Char} (h : c ∈ f.text.toList) :
    c.isLower = true := by
  have hall : f.text.toList.all Char.isLower = true := by
    cases f <;> rfl
  exact List.all_eq_true.1 hall c h

section Letters

theorem toNat_toLower (c : Char) : c.toLower.toNat =
    if 65 ≤ c.toNat ∧ c.toNat ≤ 90 then c.toNat + 32 else c.toNat := by
  have hval : c.toLower.val = if 65 ≤ c.toNat ∧ c.toNat ≤ 90 then c.val + 32 else c.val :=
    apply_dite Char.val _ _ _
  change c.toLower.val.toNat = _
  rw [hval, apply_ite UInt32.toNat]
  split
  · rw [UInt32.toNat_add, Nat.mod_eq_of_lt]
    · rfl
    · change c.toNat + 32 < 2 ^ 32
      omega
  · rfl

theorem toNat_toUpper (c : Char) : c.toUpper.toNat =
    if 97 ≤ c.toNat ∧ c.toNat ≤ 122 then c.toNat - 32 else c.toNat := by
  have hval : c.toUpper.val =
      if 97 ≤ c.toNat ∧ c.toNat ≤ 122 then c.val + ('A'.val - 'a'.val) else c.val :=
    apply_dite Char.val _ _ _
  change c.toUpper.val.toNat = _
  rw [hval, apply_ite UInt32.toNat]
  split
  · have hdiff : ('A'.val - 'a'.val).toNat = 4294967264 := by decide
    have hc : c.val.toNat = c.toNat := rfl
    rw [UInt32.toNat_add, hdiff, hc]
    omega
  · rfl

theorem isLower_iff (c : Char) : c.isLower = true ↔ 97 ≤ c.toNat ∧ c.toNat ≤ 122 := by
  change (decide ((97 : UInt32) ≤ c.val) && decide (c.val ≤ (122 : UInt32))) = true ↔ _
  rw [Bool.and_eq_true, decide_eq_true_iff, decide_eq_true_iff, UInt32.le_iff_toNat_le,
    UInt32.le_iff_toNat_le]
  rfl

/-- A character is lowered to a small letter if it is that letter or its capital. -/
theorem toLower_eq_iff {c d : Char} (hd : d.isLower = true) :
    c.toLower = d ↔ c = d ∨ c = d.toUpper := by
  rw [isLower_iff] at hd
  simp only [← Char.toNat_inj, toNat_toLower, toNat_toUpper, if_pos hd]
  split <;> omega

end Letters

theorem map_toLower_eq_iff {s t : List Char} (ht : ∀ d ∈ t, d.isLower = true) :
    s.map Char.toLower = t ↔ List.Forall₂ (fun c d => c = d ∨ c = d.toUpper) s t := by
  induction s generalizing t with
  | nil => cases t <;> simp
  | cons c s ih =>
    cases t with
    | nil => simp
    | cons d t =>
      obtain ⟨hd, ht⟩ := List.forall_mem_cons.1 ht
      rw [List.map_cons, List.cons.injEq, List.forall₂_cons, toLower_eq_iff hd, ih ht]

/-- A format is read from its text, letter by letter in either case. -/
theorem ofAnyCase?_iff_forall₂ (t : String) (f : LineFormat) : ofAnyCase? t = some f ↔
    List.Forall₂ (fun c d => c = d ∨ c = d.toUpper) t.toList f.text.toList := by
  rw [ofAnyCase?_eq_some_iff, map_toLower_eq_iff fun _ => isLower_of_mem_text]

theorem ofAnyCase?_text (f : LineFormat) : ofAnyCase? f.text = some f := by
  rw [ofAnyCase?_iff_forall₂]
  exact List.forall₂_same.2 fun _ _ => .inl rfl

/-- Nothing has to be escaped in the name of a format. -/
theorem render_eq (f : LineFormat) : f.render = '"' :: (f.text.toList ++ ['"']) := by
  cases f <;> decide

theorem readFormat_render (f : LineFormat) (rest : List Char) :
    Document.readFormat (tokens (f.render ++ rest)) = .ok (f, tokens rest) :=
  Document.readFormat_of_text (Json.denotes_literal _) rest

end LineFormat

namespace Assignment

/-- Members at the end of an object behind another one, with the closing bracket. -/
inductive Trail : List Assignment → List Char → Prop
  | empty {b₁ b₂ : List Char} : Blanks b₁ → Blanks b₂ → Trail [] (b₁ ++ '\x7d' :: b₂)
  | members {es : List Assignment} {b₁ b₂ s : List Char} : Blanks b₁ → Members es s → Blanks b₂ →
      Trail es (b₁ ++ ',' :: (s ++ '\x7d' :: b₂))

theorem Members.append {es fs : List Assignment} {s t : List Char} (h : Members es s)
    (h' : Members fs t) : Members (es ++ fs) (s ++ ',' :: t) := by
  induction h with
  | last hb₁ hm hb₂ => simpa using Members.cons hb₁ hm hb₂ h'
  | cons hb₁ hm hb₂ _ ih => simpa using Members.cons hb₁ hm hb₂ ih

/-- A member and all that follows it to the end. -/
theorem Trail.exists_members {e : Assignment} {es : List Assignment} {b m trail : List Char}
    (h : Trail es trail) (hb : Blanks b) (hm : e.Member m) :
    ∃ s b', Members (e :: es) s ∧ Blanks b' ∧ b ++ (m ++ trail) = s ++ '\x7d' :: b' := by
  cases h with
  | empty hb₁ hb₂ => exact ⟨_, _, .last hb hm hb₁, hb₂, by simp⟩
  | members hb₁ hs hb₂ => exact ⟨_, _, .cons hb hm hb₁ hs, hb₂, by simp⟩

theorem Lead.object {e : Assignment} {es fs : List Assignment} {lead m trail : List Char}
    (hl : Lead es lead) (hm : e.Member m) (ht : Trail fs trail) :
    Object (es ++ e :: fs) (lead ++ (m ++ trail)) := by
  cases hl with
  | @empty b₁ b₂ hb₁ hb₂ =>
    obtain ⟨s, b', hs, hb', heq⟩ := ht.exists_members hb₂ hm
    have h := Object.members hb₁ hs hb'
    rw [← heq] at h
    simpa using h
  | @members _ b₁ b₂ t hb₁ hlead hb₂ =>
    obtain ⟨s, b', hs, hb', heq⟩ := ht.exists_members hb₂ hm
    have h := Object.members hb₁ (hlead.append hs) hb'
    rw [List.append_assoc, List.cons_append, ← heq] at h
    simpa using h

end Assignment

namespace Document

/-- The documents in which the format is all that is set, by a string for this text. The other
members are unknown. -/
inductive SetsFormat (t : String) : List Char → Prop
  | mk {es fs : List Assignment} {lead k b₁ b₂ v trail : List Char} :
      Assignment.Lead es lead → Assignment.Trail fs trail → (∀ e ∈ es ++ fs, e.setting? = none) →
      Denotes k SettingName.logFormat.text.toList → Blanks b₁ → Blanks b₂ →
      Denotes v t.toList → SetsFormat t (lead ++ (k ++ (b₁ ++ ':' :: (b₂ ++ (v ++ trail)))))

theorem readMember_unknown_variant {d : Draft} {t : String} (hd : d.has .logFormat = false)
    (ht : ∀ f : LineFormat, f.text ≠ t) (rest : List Token) :
    readMember d SettingName.logFormat.text.toList (.colon :: .string (some t.toList) :: rest) =
      .error (.unknownVariant t.toList) := by
  have hf : formatNamed t.toList = .error (.unknownVariant t.toList) := by
    simp [formatNamed, (LineFormat.ofText?_eq_none_iff t).2 ht]
  simp [readMember, hd, Draft.read, readFormat, hf, bind, Except.bind]

/-- The object that gives the format is all that counts among unknown members. -/
theorem foldl_apply_of_unknown {es fs : List Assignment} (h : ∀ e ∈ es ++ fs, e.setting? = none)
    (f : LineFormat) :
    (es ++ .logFormat f :: fs).foldl (fun s e => e.apply s) {} = { logFormat := f } ∧
      ((es ++ .logFormat f :: fs).filterMap Assignment.setting?).Nodup := by
  obtain ⟨hes, hfs⟩ := List.forall_mem_append.1 h
  have hnone : ∀ row : List Assignment, (∀ e ∈ row, e.setting? = none) →
      row.filter (·.setting?.isSome) = [] ∧ row.filterMap Assignment.setting? = [] := by
    intro row hrow
    exact ⟨List.filter_eq_nil_iff.2 fun e he => by simp [hrow e he],
      List.filterMap_eq_nil_iff.2 hrow⟩
  constructor
  · rw [← Assignment.foldl_apply_filter, List.filter_append, (hnone es hes).1,
      List.filter_cons_of_pos rfl, (hnone fs hfs).1]
    rfl
  · have hf : (Assignment.logFormat f).setting? = some .logFormat := rfl
    rw [List.filterMap_append, (hnone es hes).2, List.filterMap_cons_some hf, (hnone fs hfs).2]
    exact List.pairwise_singleton _ _

variable {t : String} {document : List Char}

theorem read_of_named {f : LineFormat} (h : SetsFormat f.text document) :
    read (tokens document) = .ok { logFormat := f } := by
  obtain @⟨es, fs, lead, k, b₁, b₂, v, trail, hl, htrail, hu, hk, hb₁, hb₂, hv⟩ := h
  obtain ⟨hfold, hn⟩ := foldl_apply_of_unknown hu f
  have hm := Assignment.Member.mk (e := .logFormat f) hk hb₁ hb₂ (.formatText hv)
  have ho := hl.object hm htrail
  simp only [List.append_assoc, List.cons_append] at ho
  rw [read_of_object ho hn, hfold]

theorem read_of_unnamed (h : SetsFormat t document) (ht : ∀ f : LineFormat, f.text ≠ t) :
    read (tokens document) = .error (.unknownVariant t.toList) := by
  obtain @⟨es, fs, lead, k, b₁, b₂, v, trail, hl, _, hu, hk, hb₁, hb₂, hv⟩ := h
  have hnone : es.filterMap Assignment.setting? = [] :=
    List.filterMap_eq_nil_iff.2 (List.forall_mem_append.1 hu).1
  have hd : (es.foldl Draft.put {}).has .logFormat = false := by
    rw [← Bool.not_eq_true, Draft.has_of_members, hnone]
    exact List.not_mem_nil
  refine read_of_lead hl (hnone ▸ List.nodup_nil) hk ?_
  rw [Json.tokens_blanks hb₁, Json.tokens_punctuation rfl, Json.tokens_blanks hb₂,
    Json.tokens_denotes hv]
  exact readMember_unknown_variant hd ht _

end Document

/-- The texts that a format is known by. By itself a text is read with letters of either case,
and with nothing else about it changed. A document takes a text only if it is written just so,
and then for the same format, and reports any other text. What is written for a format is read
back. -/
theorem LineFormat.names_agree (t : String) :
    (∀ f, ofAnyCase? t = some f ↔ t.toList.map Char.toLower = f.text.toList) ∧
    (∀ f, ofAnyCase? t = some f ↔
      List.Forall₂ (fun c d => c = d ∨ c = d.toUpper) t.toList f.text.toList) ∧
    (∀ document : String, Document.SetsFormat t document.toList →
      (∀ s, Settings.ofDocument document = .ok s ↔
        ∃ f, f.text = t ∧ ofAnyCase? t = some f ∧ s = { logFormat := f }) ∧
      ∀ e, Settings.ofDocument document = .error e ↔
        (∀ f : LineFormat, f.text ≠ t) ∧ e = .unknownVariant t.toList) ∧
    (DocumentError.unknownVariant t.toList).message? =
      some ("unknown variant `" ++ t ++ "`, expected `json` or `compact`") ∧
    ∀ f : LineFormat, ofAnyCase? f.text = some f ∧ f.render = '"' :: (f.text.toList ++ ['"']) ∧
      Document.readFormat (tokens f.render) = .ok (f, []) := by
  refine ⟨ofAnyCase?_eq_some_iff t, ofAnyCase?_iff_forall₂ t, ?_, ?_, ?_⟩
  · intro document h
    cases hf : ofText? t with
    | some f =>
      obtain rfl := ofText?_eq_some hf
      have hread : Settings.ofDocument document = .ok { logFormat := f } := Document.read_of_named h
      rw [hread]
      refine ⟨fun s => ?_, fun e => ?_⟩
      · simp [ofAnyCase?_text, eq_comm]
      · simp only [reduceCtorEq, false_iff, not_and]
        exact fun hall => absurd rfl (hall f)
    | none =>
      have hnone := (ofText?_eq_none_iff t).1 hf
      have hread : Settings.ofDocument document = .error (.unknownVariant t.toList) :=
        Document.read_of_unnamed h hnone
      rw [hread]
      refine ⟨fun s => ?_, fun e => ?_⟩
      · simp [hnone]
      · simp [hnone, eq_comm]
  · rw [DocumentError.message?, String.ofList_toList]
  · intro f
    have hr := readFormat_render f []
    rw [List.append_nil, Json.tokens_nil] at hr
    exact ⟨ofAnyCase?_text f, render_eq f, hr⟩

/-- A capital letter is read over by itself and not in a document. -/
theorem LineFormat.names_agree_on_capital :
    let document := "\x7b\"log_format\":\"Json\", \"x\":null\x7d"
    Document.SetsFormat "Json" document.toList ∧ ofAnyCase? "Json" = some .json ∧
      Settings.ofDocument document = .error (.unknownVariant "Json".toList) := by
  intro document
  have hnone : Blanks [] := by simp [Blanks]
  have hblank : Blanks [' '] := by simp [Blanks, Json.isBlank]
  have hname : ∀ n : SettingName, n.text.toList ≠ ['x'] := by
    intro n
    cases n <;> decide
  have hunknown := Assignment.Member.mk (Json.denotes_literal _) hnone hnone
    (.unknown hname (.word (by decide : "null".toList ∈ Json.words)))
  have hsets : Document.SetsFormat "Json" document.toList := by
    have h := Document.SetsFormat.mk (.empty hnone hnone)
      (.members hnone (.last hblank hunknown hnone) hnone) (by simp [Assignment.setting?])
      (Json.denotes_literal _) hnone hnone (Json.denotes_literal "Json".toList)
    refine cast (congrArg (Document.SetsFormat "Json") ?_) h
    decide
  obtain ⟨hcase, _, hdocument, _⟩ := names_agree "Json"
  have hjson : ofAnyCase? "Json" = some .json := (hcase .json).2 (by decide)
  have htext : ∀ f : LineFormat, f.text ≠ "Json" := by
    intro f
    cases f <;> decide
  exact ⟨hsets, hjson, ((hdocument document hsets).2 _).2 ⟨htext, rfl⟩⟩

end ConfinedRelay
