import EventRouting.Proofs.Json.Faultless
import Mathlib.Data.List.Infix

namespace EventRouting.Json

variable {frames : List Frame} {place : Place} {b : UInt8} {p s t u : List UInt8} {n n' : Node}

/-- What is left of a natural number is one that is not greater. -/
def Number.Shortens (k k' : Number) : Prop :=
  ∀ i, k = .integer i → 0 ≤ i → ∃ j, k' = .integer j ∧ 0 ≤ j ∧ j ≤ i

/-- The literal that was read first of another one. -/
structure Literal.Within (l l' : Literal) : Prop where
  negative : l'.negative = false → l.negative = false
  whole : l.whole <+: l'.whole
  fractional : l'.fractional = false → l.fractional = false
  exponent : l'.exponent = [] → l.exponent = []

theorem Literal.Within.refl (l : Literal) : l.Within l := ⟨id, List.prefix_refl _, id, id⟩

theorem Literal.Within.trans {l₁ l₂ l₃ : Literal} (h : l₁.Within l₂) (h' : l₂.Within l₃) :
    l₁.Within l₃ :=
  ⟨h.negative ∘ h'.negative, h.whole.trans h'.whole, h.fractional ∘ h'.fractional,
    h.exponent ∘ h'.exponent⟩

section Numbers

variable {l l' : Literal} {point point' : NumberPoint}

theorem Begun.within (h : Begun l point s) (hb : numberStep l point b = some (l', point')) :
    l.Within l' := by
  have hs : point = .sign → l.whole = [] := by
    rintro rfl
    cases h.parts
    rfl
  unfold numberStep at hb
  split at hb
  case h_1 =>
    cases hb
    exact ⟨id, hs rfl ▸ List.nil_prefix, id, id⟩
  case h_2 =>
    cases hb
    exact ⟨id, List.prefix_append _ _, id, id⟩
  case h_3 | h_4 =>
    cases hb
    exact ⟨id, List.prefix_refl _, id, id⟩
  case h_5 | h_6 | h_7 =>
    cases hb
    exact ⟨id, List.prefix_refl _, id, fun he => absurd he (by simp)⟩
  case h_8 | h_9 =>
    split_ifs at hb <;> cases hb
    · exact ⟨id, List.prefix_refl _, nofun, id⟩
    · exact .refl _
  case h_10 =>
    split_ifs at hb
    cases hb
    exact .refl _
  case h_11 =>
    split_ifs at hb <;> cases hb
    · exact .refl _
    · exact ⟨id, List.prefix_refl _, id, id⟩
  all_goals cases hb

theorem Begun.of_part (h : Begun l point s) (hp : p <+: s) (hn : p ≠ []) :
    ∃ l' point', Begun l' point' p ∧ l'.Within l := by
  induction h with
  | minus =>
    obtain rfl := (List.prefix_concat_iff.mp hp).resolve_right fun hp => hn (List.prefix_nil.mp hp)
    exact ⟨_, _, .minus, .refl _⟩
  | digit hb =>
    obtain rfl := (List.prefix_concat_iff.mp hp).resolve_right fun hp => hn (List.prefix_nil.mp hp)
    exact ⟨_, _, .digit hb, .refl _⟩
  | step h hb ih =>
    rcases List.prefix_concat_iff.mp hp with rfl | hp
    · exact ⟨_, _, h.step hb, .refl _⟩
    · obtain ⟨l', point', hl, hw⟩ := ih hp
      exact ⟨l', point', hl, hw.trans (h.within hb)⟩

theorem ofDigits_le_append (a c : List Nat) : ofDigits a ≤ ofDigits (a ++ c) := by
  induction c using List.reverseRecOn with
  | nil => rw [List.append_nil]
  | append_singleton c d ih =>
    have hd : ofDigits (a ++ (c ++ [d])) = 10 * ofDigits (a ++ c) + d := by
      simp [ofDigits]
    omega

theorem number_eq_natural {i : Int} (h : l.number = .integer i) (hi : 0 ≤ i) :
    l.negative = false ∧ l.fractional = false ∧ l.exponent = [] ∧ ofDigits l.whole < two64 ∧
      i = ofDigits l.whole := by
  unfold Literal.number at h
  dsimp only at h
  split_ifs at h with h1 h2 h3 h4
  all_goals cases h
  · simp at h1
    exact ⟨h1.1.2, h1.1.1.1, h1.1.1.2, h1.2, rfl⟩
  · simp at h2
    omega

theorem Literal.Within.shortens (h : l.Within l') : l'.number.Shortens l.number := by
  intro i hi h0
  obtain ⟨hn, hf, he, hb, rfl⟩ := number_eq_natural hi h0
  obtain ⟨c, hc⟩ := h.whole
  have hle : ofDigits l.whole ≤ ofDigits l'.whole := hc ▸ ofDigits_le_append _ _
  refine ⟨ofDigits l.whole, ?_, Int.natCast_nonneg _, Int.ofNat_le.mpr hle⟩
  rw [Literal.number]
  simp [h.negative hn, h.fractional hf, h.exponent he, hle.trans_lt hb]

end Numbers

section Strings

variable {pieces pieces' : List Piece} {point point' : StringPoint}

theorem stringStep_suffix (h : stringStep pieces point b = .more pieces' point') :
    pieces <:+ pieces' := by
  unfold stringStep at h
  split at h
  · split_ifs at h <;> cases h
    · exact List.suffix_refl _
    · exact List.suffix_cons _ _
  · split_ifs at h
    · cases h
      exact List.suffix_refl _
    · split at h <;> cases h
      exact List.suffix_cons _ _
  · split_ifs at h
    · cases h
      exact List.suffix_refl _
    · split at h <;> cases h
      exact List.suffix_cons _ _

theorem spell_suffix (h : spell pieces point s = some (pieces', point')) : pieces <:+ pieces' := by
  induction s generalizing pieces point with
  | nil =>
    cases h
    exact List.suffix_refl _
  | cons b s ih =>
    obtain ⟨acc, point'', hb, hs⟩ := spell_cons h
    exact (stringStep_suffix hb).trans (ih hs)

theorem BodyText.spell_part {l : List Piece} (h : BodyText l s) (hu : u <+: s) :
    ∃ pieces point, Json.spell [] .plain u = some (pieces, point) ∧ pieces.reverse <+: l := by
  obtain ⟨v, rfl⟩ := hu
  have hs := h.spell_self
  rw [spell_append] at hs
  obtain ⟨⟨pieces, point⟩, hu, hv⟩ := Option.bind_eq_some_iff.mp hs
  refine ⟨pieces, point, hu, ?_⟩
  rw [← l.reverse_reverse]
  exact List.reverse_prefix.mpr (spell_suffix hv)

end Strings

theorem run_word {left : List UInt8} {sc : Scalar} (hu : u <+: left) (hn : u ≠ left) :
    run (.reading frames (.word left sc)) u =
      ⟨collapse frames (.scalar (.broken .ended)), false⟩ := by
  induction u generalizing left with
  | nil => rfl
  | cons b u ih =>
    obtain ⟨v, rfl⟩ := hu
    have hv : (u ++ v).isEmpty = false := by
      cases v with
      | nil => simp at hn
      | cons c v => simp
    rw [run_cons, List.cons_append, State.step, if_neg (not_not.mpr rfl), hv]
    exact ih (List.prefix_append _ _) fun he => hn (congrArg (b :: ·) he)

/-- The text is over after a value that looks complete. -/
inductive Short : Node → Node → Prop where
  | whole {n : Node} : Short n n
  | number {k k' : Number} : k.Shortens k' → Short (.scalar (.number k)) (.scalar (.number k'))

/-- What is left of a value when its text is cut off. -/
inductive Cut : Node → Node → Prop where
  | absent {n : Node} : Cut n (.broken .ended)
  | scalar {s : Scalar} : Cut (.scalar s) (.scalar (.broken .ended))
  | string {l m : List Piece} : l <+: m → Cut (.string ⟨m, none⟩) (.string ⟨l, some .ended⟩)
  | bracket {items : List Node} : Cut (.array items none) (.array [] (some .ended))
  | item {n n' : Node} {before after : List Node} : Cut n n' →
      Cut (.array (before ++ n :: after) none) (.array (before ++ [n']) none)
  | afterItem {n n' : Node} {before after : List Node} : Short n n' →
      Cut (.array (before ++ n :: after) none) (.array (before ++ [n']) (some .ended))
  | brace {members : List (Spelling × Node)} :
      Cut (.object members .closed) (.object [] (.nameless (.broken .ended)))
  | comma {m : Spelling × Node} {before after : List (Spelling × Node)} :
      Cut (.object (before ++ m :: after) .closed) (.object before (.nameless (.broken .ended)))
  | name {l m : List Piece} {n : Node} {before after : List (Spelling × Node)} : l <+: m →
      Cut (.object (before ++ (⟨m, none⟩, n) :: after) .closed)
        (.object (before ++ [(⟨l, some .ended⟩, .broken .ended)]) .closed)
  | value {name : Spelling} {n n' : Node} {before after : List (Spelling × Node)} : Cut n n' →
      Cut (.object (before ++ (name, n) :: after) .closed)
        (.object (before ++ [(name, n')]) .closed)
  | afterValue {name : Spelling} {n n' : Node} {before after : List (Spelling × Node)} :
      Short n n' → Cut (.object (before ++ (name, n) :: after) .closed)
        (.object (before ++ [(name, n')]) (.broken .ended))

/-- What is read of an element whose text is cut off. -/
def Remains (frames : List Frame) (place : Place) (n : Node) (d : Document) : Prop :=
  d = (State.reading frames place).finish ∨ (∃ n', Cut n n' ∧ d = ⟨collapse frames n', false⟩) ∨
    ∃ n', Short n n' ∧ d = (deliver frames n').finish

/-- What is read of an array whose text is cut off within these elements. -/
def BreaksItems (frames : List Frame) (l : List Node) (d : Document) : Prop :=
  ∃ n', (∀ after, Cut (.array (l ++ after) none) n') ∧ d = ⟨collapse frames n', false⟩

/-- What is read of an object whose text is cut off within these members. -/
def BreaksMembers (frames : List Frame) (l : List (Spelling × Node)) (d : Document) : Prop :=
  ∃ n', (∀ after, Cut (.object (l ++ after) .closed) n') ∧ d = ⟨collapse frames n', false⟩

/-- What is read of a phrase whose text is cut off. -/
def Phrase.Breaks : Phrase → List UInt8 → Prop
  | .value n, s => ∀ frames place p, place.begins = true → p <+: s → p ≠ s → p ≠ [] →
    (∃ n', Cut n n' ∧ run (.reading frames place) p = ⟨collapse frames n', false⟩) ∨
      ∃ k k', n = .scalar (.number k) ∧ k.Shortens k' ∧
        run (.reading frames place) p = (deliver frames (.scalar (.number k'))).finish
  | .element n, s => ∀ frames place p, place.begins = true → p <+: s →
    Remains frames place n (run (.reading frames place) p)
  | .elements l, s => ∀ frames p, p <+: s →
    BreaksItems frames l (run (.reading (.array [] :: frames) .firstItem) p)
  | .member m, s => ∀ frames before place p, place = .firstName ∨ place = .name → p <+: s →
    BreaksMembers frames (before ++ [m])
      (run (.reading (.object before.reverse none :: frames) place) p)
  | .members l, s => ∀ frames p, p <+: s →
    BreaksMembers frames l (run (.reading (.object [] none :: frames) .firstName) p)

section Breaks

variable {d : Document} {name : Spelling}

theorem BreaksItems.append {l : List Node} (h : BreaksItems frames l d) (m : List Node) :
    BreaksItems frames (l ++ m) d := by
  obtain ⟨n', hc, hd⟩ := h
  exact ⟨n', fun after => by rw [List.append_assoc]; exact hc _, hd⟩

theorem BreaksItems.of_cut {l : List Node} (h : ∀ after, Cut (.array (l ++ n :: after) none) n')
    (hd : d = ⟨collapse frames n', false⟩) : BreaksItems frames (l ++ [n]) d :=
  ⟨n', fun after => by rw [List.append_assoc]; exact h after, hd⟩

theorem BreaksMembers.append {l : List (Spelling × Node)} (h : BreaksMembers frames l d)
    (m : List (Spelling × Node)) : BreaksMembers frames (l ++ m) d := by
  obtain ⟨n', hc, hd⟩ := h
  exact ⟨n', fun after => by rw [List.append_assoc]; exact hc _, hd⟩

theorem BreaksMembers.of_cut {l : List (Spelling × Node)} {m : Spelling × Node}
    (h : ∀ after, Cut (.object (l ++ m :: after) .closed) n')
    (hd : d = ⟨collapse frames n', false⟩) : BreaksMembers frames (l ++ [m]) d :=
  ⟨n', fun after => by rw [List.append_assoc]; exact h after, hd⟩

end Breaks

theorem prefix_append_cases (h : p <+: s ++ t) : p <+: s ∨ ∃ q, p = s ++ q ∧ q <+: t := by
  obtain ⟨r, hr⟩ := h
  rcases List.append_eq_append_iff.mp hr with ⟨q, hs, -⟩ | ⟨q, hp, ht⟩
  · exact .inl ⟨q, hs.symm⟩
  · exact .inr ⟨q, hp, r, ht.symm⟩

theorem prefix_append_cons_cases (h : p <+: s ++ b :: t) :
    p <+: s ∨ ∃ u, p = s ++ b :: u ∧ u <+: t := by
  rcases prefix_append_cases h with hs | ⟨q, rfl, hq⟩
  · exact .inl hs
  · rcases List.prefix_cons_iff.mp hq with rfl | ⟨u, rfl, hu⟩
    · rw [List.append_nil]
      exact .inl (List.prefix_refl s)
    · exact .inr ⟨u, rfl, hu⟩

theorem Blanks.of_part (h : Blanks s) (hp : p <+: s) : Blanks p := fun b hb => h b (hp.subset hb)

theorem run_blanks_part (hb : place.passesBlanks = true) (h : Blanks s) (hp : p <+: s) :
    run (.reading frames place) p = (State.reading frames place).finish := by
  have hr := @run_blanks frames p [] place hb (h.of_part hp)
  rwa [List.append_nil] at hr

/-- A value that ends with a byte of its own breaks off behind its first byte or later. -/
theorem breaks_behind {d : UInt8} (hb : isBlank b = false) (hd : b ≠ 0x5D)
    (h : ∀ frames u, u <+: s → ∃ n', Cut n n' ∧
      run (beginValue frames b) u = ⟨collapse frames n', false⟩) :
    (Phrase.value n).Breaks (b :: (s ++ [d])) := by
  intro frames place p hp hq hn he
  obtain ⟨u, rfl, hu⟩ := (List.prefix_cons_iff.mp hq).resolve_left he
  have hu := (List.prefix_concat_iff.mp hu).resolve_left fun he => hn (congrArg (b :: ·) he)
  rw [run_cons, step_begin hp hb hd]
  exact .inl (h frames u hu)

theorem StringText.breaks {t : Spelling} (h : StringText t s) :
    (Phrase.value (.string t)).Breaks s := by
  obtain ⟨h⟩ := h
  refine breaks_behind rfl (by decide) fun frames u hu => ?_
  obtain ⟨pieces, point, hr, hl⟩ := h.spell_part hu
  refine ⟨_, .string hl, ?_⟩
  have hq : beginValue frames 0x22 = .reading frames (.string [] .plain) := rfl
  rw [hq, Json.run, foldl_string hr]
  rfl

theorem NumberText.breaks {l : Literal} (h : NumberText l s) :
    (Phrase.value (.scalar (.number l.number))).Breaks s := by
  intro frames place p hb hp hs hn
  obtain ⟨point, hc, h⟩ := h.begun
  obtain ⟨l', point', h', hl⟩ := h.of_part hp hn
  have hr : Json.run (.reading frames place) p =
      Json.run (.reading frames (.number l' point')) [] := by
    rw [Json.run, h'.foldl hb]
    rfl
  rw [hr]
  by_cases hc : point'.complete = true
  · refine .inr ⟨_, _, rfl, hl.shortens, ?_⟩
    exact run_number hc terminated_nil
  · refine .inl ⟨_, .scalar, ?_⟩
    rw [run_nil, State.finish, if_neg hc]
    rfl

theorem word_breaks {sc : Scalar} {left : List UInt8}
    (h : ∀ frames, beginValue frames b = .reading frames (.word left sc)) (hb : isBlank b = false)
    (hn : b ≠ 0x5D) : (Phrase.value (.scalar sc)).Breaks (b :: left) := by
  intro frames place p hp hq hs he
  obtain ⟨u, rfl, hu⟩ := (List.prefix_cons_iff.mp hq).resolve_left he
  refine .inl ⟨_, .scalar, ?_⟩
  rw [run_cons, step_begin hp hb hn, h]
  exact run_word hu fun he => hs (congrArg (b :: ·) he)

theorem Remains.item {l : List Node} {d : Document}
    (h : Remains (.array l.reverse :: frames) place n d)
    (hp : place = .firstItem ∧ l = [] ∨ place = .value) : BreaksItems frames (l ++ [n]) d := by
  rcases h with rfl | ⟨n', hc, rfl⟩ | ⟨n', hs, rfl⟩
  · rcases hp with ⟨rfl, rfl⟩ | rfl
    · exact .of_cut (fun _ => .bracket) rfl
    · refine .of_cut (fun _ => .item .absent) ?_
      simp [State.finish, breakOff, collapse]
  · refine .of_cut (fun _ => .item hc) ?_
    simp [collapse]
  · refine .of_cut (fun _ => .afterItem hs) ?_
    simp [deliver, State.finish, breakOff]

theorem Derives.remains (h : Derives (.value n) s) (hp : place.begins = true) (hb : Blanks t) :
    Remains frames place n (run (.reading frames place) (s ++ t)) := by
  have ht := hb.terminated terminated_nil
  have hd := @run_deliver_blanks frames t [] n hb
  rw [List.append_nil] at ht hd
  rw [h.leads frames place t hp ht, hd]
  exact .inr (.inr ⟨n, .whole, rfl⟩)

theorem Derives.breaks_element {a c : List UInt8} (h : Derives (.value n) s) (ha : Blanks a)
    (hb : Blanks c) (hs : (Phrase.value n).Breaks s) :
    (Phrase.element n).Breaks (a ++ (s ++ c)) := by
  intro frames place p hp hq
  have hp' : place.passesBlanks = true := by
    cases place <;> first | rfl | cases hp
  rcases prefix_append_cases hq with hq | ⟨u, rfl, hu⟩
  · exact .inl (run_blanks_part hp' ha hq)
  rw [run_blanks hp' ha]
  rcases prefix_append_cases hu with hu | ⟨w, rfl, hw⟩
  case inr => exact h.remains hp (hb.of_part hw)
  by_cases he : u = []
  · rw [he]
    exact .inl rfl
  by_cases hn : u = s
  · rw [hn, ← List.append_nil s]
    exact h.remains hp (hb.of_part List.nil_prefix)
  rcases hs frames place u hp hu hn he with hc | ⟨k, k', rfl, hk, hr⟩
  · exact .inr (.inl hc)
  · exact .inr (.inr ⟨_, .number hk, hr⟩)

theorem Derives.breaks_nextElement {l : List Node} (h : Derives (.elements l) s)
    (hs : (Phrase.elements l).Breaks s) (ht : (Phrase.element n).Breaks t) :
    (Phrase.elements (l ++ [n])).Breaks (s ++ 0x2C :: t) := by
  intro frames p hp
  rcases prefix_append_cons_cases hp with hp | ⟨u, rfl, hu⟩
  · exact (hs frames p hp).append [n]
  have hb : State.step (.reading (.array l.reverse :: frames) .next) 0x2C =
      .reading (.array l.reverse :: frames) .value := rfl
  rw [h.leads frames _ (terminated_cons (.inr (.inl rfl))), run_cons, hb]
  exact (ht (.array l.reverse :: frames) .value u rfl hu).item (.inr rfl)

section Members

variable {name : Spelling} {before : List (Spelling × Node)}

theorem Remains.value {d : Document}
    (h : Remains (.object before.reverse (some name) :: frames) .value n d) :
    BreaksMembers frames (before ++ [(name, n)]) d := by
  rcases h with rfl | ⟨n', hc, rfl⟩ | ⟨n', hs, rfl⟩
  · refine .of_cut (fun _ => .value .absent) ?_
    simp [State.finish, breakOff, collapse]
  · refine .of_cut (fun _ => .value hc) ?_
    simp [collapse]
  · refine .of_cut (fun _ => .afterValue hs) ?_
    simp [deliver, State.finish, breakOff]

theorem breaks_nameless (hp : place = .firstName ∨ place = .name) (m : Spelling × Node) :
    BreaksMembers frames (before ++ [m])
      (State.reading (.object before.reverse none :: frames) place).finish := by
  refine .of_cut (fun _ => .comma) ?_
  rcases hp with rfl | rfl <;> simp [State.finish, breakOff, collapse]

theorem StringText.breaks_name (h : StringText name s) (hb : place = .firstName ∨ place = .name)
    (hp : p <+: s) (hn : p ≠ s) (he : p ≠ []) (n : Node) :
    BreaksMembers frames (before ++ [(name, n)])
      (Json.run (.reading (.object before.reverse none :: frames) place) p) := by
  obtain ⟨h⟩ := h
  obtain ⟨u, rfl, hu⟩ := (List.prefix_cons_iff.mp hp).resolve_left he
  have hu := (List.prefix_concat_iff.mp hu).resolve_left fun he => hn (congrArg (0x22 :: ·) he)
  obtain ⟨pieces, point, hr, hl⟩ := h.spell_part hu
  have hq : State.step (.reading (.object before.reverse none :: frames) place) 0x22 =
      .reading (.object before.reverse none :: frames) (.nameString [] .plain) := by
    rcases hb with rfl | rfl <;> rfl
  refine .of_cut (fun _ => .name hl) ?_
  rw [run_cons, hq, Json.run, foldl_nameString hr]
  simp [State.finish, breakOff]

theorem breaks_named {c : List UInt8} (hb : Blanks c) (ht : (Phrase.element n).Breaks t)
    (hp : p <+: c ++ 0x3A :: t) :
    BreaksMembers frames (before ++ [(name, n)])
      (run (.reading (.object before.reverse (some name) :: frames) .colon) p) := by
  rcases prefix_append_cons_cases hp with hp | ⟨u, rfl, hu⟩
  · rw [run_blanks_part rfl hb hp]
    exact Remains.value (.inl rfl)
  · rw [run_blanks rfl hb]
    exact (ht (.object before.reverse (some name) :: frames) .value u rfl hu).value

theorem StringText.breaks_member {a c : List UInt8} (h : StringText name s) (ha : Blanks a)
    (hb : Blanks c) (ht : (Phrase.element n).Breaks t) :
    (Phrase.member (name, n)).Breaks (a ++ (s ++ (c ++ 0x3A :: t))) := by
  intro frames before place p hp hq
  have hp' : place.passesBlanks = true := by
    rcases hp with rfl | rfl <;> rfl
  rcases prefix_append_cases hq with hq | ⟨u, rfl, hu⟩
  · rw [run_blanks_part hp' ha hq]
    exact breaks_nameless hp (name, n)
  rw [run_blanks hp' ha]
  rcases prefix_append_cases hu with hu | ⟨w, rfl, hw⟩
  case inr =>
    rw [h.run_name hp]
    exact breaks_named hb ht hw
  by_cases he : u = []
  · rw [he]
    exact breaks_nameless hp (name, n)
  by_cases hn : u = s
  · rw [hn, ← List.append_nil s, h.run_name hp]
    exact breaks_named hb ht List.nil_prefix
  · exact h.breaks_name hp hu hn he n

theorem Derives.breaks_nextMember {l : List (Spelling × Node)} {m : Spelling × Node}
    (h : Derives (.members l) s) (hs : (Phrase.members l).Breaks s)
    (ht : (Phrase.member m).Breaks t) : (Phrase.members (l ++ [m])).Breaks (s ++ 0x2C :: t) := by
  intro frames p hp
  rcases prefix_append_cons_cases hp with hp | ⟨u, rfl, hu⟩
  · exact (hs frames p hp).append [m]
  have hb : State.step (.reading (.object l.reverse none :: frames) .next) 0x2C =
      .reading (.object l.reverse none :: frames) .name := rfl
  rw [h.leads frames _ (terminated_cons (.inr (.inl rfl))), run_cons, hb]
  exact ht frames l .name u (.inr rfl) hu

end Members

theorem Derives.breaks {phrase : Phrase} (h : Derives phrase s) : phrase.Breaks s := by
  induction h with
  | null => exact word_breaks (fun _ => rfl) rfl (by decide)
  | yes => exact word_breaks (fun _ => rfl) rfl (by decide)
  | no => exact word_breaks (fun _ => rfl) rfl (by decide)
  | number h => exact h.breaks
  | string h => exact h.breaks
  | emptyArray hs =>
    exact breaks_behind rfl (by decide) fun frames u hu =>
      ⟨_, .bracket, @run_blanks_part _ .firstItem _ _ rfl hs hu⟩
  | @array l s _ ih =>
    refine breaks_behind rfl (by decide) fun frames u hu => ?_
    obtain ⟨n', hc, hr⟩ := ih frames u hu
    exact ⟨n', List.append_nil l ▸ hc [], hr⟩
  | emptyObject hs =>
    exact breaks_behind rfl (by decide) fun frames u hu =>
      ⟨_, .brace, @run_blanks_part _ .firstName _ _ rfl hs hu⟩
  | @object l s _ ih =>
    refine breaks_behind rfl (by decide) fun frames u hu => ?_
    obtain ⟨n', hc, hr⟩ := ih frames u hu
    exact ⟨n', List.append_nil l ▸ hc [], hr⟩
  | element ha h hb ih => exact h.breaks_element ha hb ih
  | firstElement _ ih =>
    intro frames p hp
    exact (ih (.array [] :: frames) .firstItem p rfl hp).item (l := []) (.inl ⟨rfl, rfl⟩)
  | nextElement hs _ ihs iht => exact hs.breaks_nextElement ihs iht
  | member ha hs hb _ ih => exact hs.breaks_member ha hb ih
  | firstMember _ ih =>
    intro frames p hp
    exact ih frames [] .firstName p (.inl rfl) hp
  | nextMember hs _ ihs iht => exact hs.breaks_nextMember ihs iht

/-- Part of the text of a value gives part of its tree. -/
theorem read_part (h : Derives (.value n) s) (hn : ∀ k, n ≠ .scalar (.number k)) (hp : p <+: s)
    (hs : p ≠ s) : ∃ n', Cut n n' ∧ read p = ⟨n', false⟩ := by
  by_cases he : p = []
  · rw [he]
    exact ⟨_, .absent, rfl⟩
  rcases h.breaks [] .value p rfl hp hs he with hc | ⟨k, k', hk, -⟩
  · exact hc
  · exact absurd hk (hn k)

end EventRouting.Json
