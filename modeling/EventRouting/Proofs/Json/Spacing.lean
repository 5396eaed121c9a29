import EventRouting.Proofs.Json.Grammar

namespace EventRouting.Json

variable {a b s u : List UInt8} {n : Node}

inductive Token : List UInt8 → Prop where
  | mark {c : UInt8} : c ∈ [0x5B, 0x5D, 0x7B, 0x7D, 0x2C, 0x3A] → Token [c]
  /-- A number, or one of the words for what is no number. -/
  | scalar {sc : Scalar} {s : List UInt8} : Derives (.value (.scalar sc)) s → Token s
  | string {t : Spelling} {s : List UInt8} : StringText t s → Token s

/-- The tokens one after the other, with blanks anywhere around them. -/
def Spaced : List (List UInt8) → List UInt8 → Prop
  | [], s => Blanks s
  | t :: tokens, s => ∃ a u, Blanks a ∧ s = a ++ (t ++ u) ∧ Spaced tokens u

variable {tokens tokens' : List (List UInt8)} {t : List UInt8}

theorem spaced_append_cons : Spaced (tokens ++ t :: tokens') s ↔
    ∃ u v, Spaced tokens u ∧ s = u ++ (t ++ v) ∧ Spaced tokens' v := by
  induction tokens generalizing s with
  | nil => exact Iff.rfl
  | cons x tokens ih =>
    constructor
    · rintro ⟨a, w, ha, rfl, hw⟩
      obtain ⟨u, v, hu, rfl, hv⟩ := ih.mp hw
      exact ⟨a ++ (x ++ u), v, ⟨a, u, ha, rfl, hu⟩, by simp, hv⟩
    · rintro ⟨_, v, ⟨a, u, ha, rfl, hu⟩, rfl, hv⟩
      exact ⟨a, u ++ (t ++ v), ha, by simp, ih.mpr ⟨u, v, hu, rfl, hv⟩⟩

theorem Blanks.append (ha : Blanks a) (hb : Blanks b) : Blanks (a ++ b) :=
  List.forall_mem_append.mpr ⟨ha, hb⟩

theorem Spaced.blanks_append (h : Spaced tokens s) (ha : Blanks a) : Spaced tokens (a ++ s) := by
  cases tokens with
  | nil => exact Blanks.append ha h
  | cons t tokens =>
    obtain ⟨c, u, hc, rfl, hu⟩ := h
    exact ⟨a ++ c, u, ha.append hc, (List.append_assoc _ _ _).symm, hu⟩

theorem Spaced.append_blanks (h : Spaced tokens s) (hb : Blanks b) : Spaced tokens (s ++ b) := by
  induction tokens generalizing s with
  | nil => exact Blanks.append h hb
  | cons t tokens ih =>
    obtain ⟨c, u, hc, rfl, hu⟩ := h
    exact ⟨c, u ++ b, hc, by simp, ih hu⟩

/-- A phrase with blanks around it. -/
def Phrase.spread : Phrase → Phrase
  | .value n => .element n
  | phrase => phrase

/-- The tokens of a phrase, which mean the same with other blanks. -/
def Phrase.Tokens (phrase : Phrase) (s : List UInt8) : Prop :=
  ∃ tokens, (∀ t ∈ tokens, Token t) ∧ Spaced tokens s ∧
    ∀ u, Spaced tokens u → Derives phrase.spread u

theorem Token.alone (h : Token s) (hn : Derives (.value n) s) : (Phrase.value n).Tokens s := by
  refine ⟨[s], List.forall_mem_singleton.mpr h, ⟨[], [], nofun, by simp, nofun⟩, ?_⟩
  rintro _ ⟨a, b, ha, rfl, hb⟩
  exact .element ha hn hb

theorem tokens_between {c d : UInt8} (hc : Token [c]) (hd : Token [d]) (h : ∀ t ∈ tokens, Token t)
    (hs : Spaced tokens s) (hn : ∀ u, Spaced tokens u → Derives (.value n) (c :: (u ++ [d]))) :
    (Phrase.value n).Tokens (c :: (s ++ [d])) := by
  refine ⟨[c] :: (tokens ++ [[d]]), ?_, ?_, ?_⟩
  · exact List.forall_mem_cons.mpr
      ⟨hc, List.forall_mem_append.mpr ⟨h, List.forall_mem_singleton.mpr hd⟩⟩
  · exact ⟨[], _, nofun, rfl, spaced_append_cons.mpr ⟨s, [], hs, rfl, nofun⟩⟩
  · rintro _ ⟨a, _, ha, rfl, hw⟩
    obtain ⟨u, b, hu, rfl, hb⟩ := spaced_append_cons.mp hw
    have he := Derives.element ha (hn u hu) hb
    have ht : a ++ (c :: (u ++ [d]) ++ b) = a ++ ([c] ++ (u ++ ([d] ++ b))) := by simp
    exact ht ▸ he

theorem Derives.tokenized {phrase : Phrase} (h : Derives phrase s) : phrase.Tokens s := by
  have mark (c : UInt8) (hc : c ∈ [0x5B, 0x5D, 0x7B, 0x7D, 0x2C, 0x3A]) : Token [c] := .mark hc
  induction h with
  | null => exact Token.alone (.scalar .null) .null
  | yes => exact Token.alone (.scalar .yes) .yes
  | no => exact Token.alone (.scalar .no) .no
  | number h => exact Token.alone (.scalar (.number h)) (.number h)
  | string h => exact Token.alone (.string h) (.string h)
  | emptyArray hs =>
    exact @tokens_between _ _ [] _ _ (mark _ (by decide)) (mark _ (by decide)) nofun hs
      fun _ hu => .emptyArray hu
  | array _ ih =>
    obtain ⟨tokens, ht, hs, hu⟩ := ih
    exact tokens_between (mark _ (by decide)) (mark _ (by decide)) ht hs fun u h => .array (hu u h)
  | emptyObject hs =>
    exact @tokens_between _ _ [] _ _ (mark _ (by decide)) (mark _ (by decide)) nofun hs
      fun _ hu => .emptyObject hu
  | object _ ih =>
    obtain ⟨tokens, ht, hs, hu⟩ := ih
    exact tokens_between (mark _ (by decide)) (mark _ (by decide)) ht hs fun u h => .object (hu u h)
  | element ha _ hb ih =>
    obtain ⟨tokens, ht, hs, hu⟩ := ih
    exact ⟨tokens, ht, (hs.append_blanks hb).blanks_append ha, hu⟩
  | firstElement _ ih =>
    obtain ⟨tokens, ht, hs, hu⟩ := ih
    exact ⟨tokens, ht, hs, fun u h => .firstElement (hu u h)⟩
  | nextElement _ _ ihs iht =>
    obtain ⟨tokens, ht, hs, hu⟩ := ihs
    obtain ⟨tokens', ht', hs', hu'⟩ := iht
    refine ⟨tokens ++ [0x2C] :: tokens', ?_, spaced_append_cons.mpr ⟨_, _, hs, rfl, hs'⟩, ?_⟩
    · exact List.forall_mem_append.mpr ⟨ht, List.forall_mem_cons.mpr ⟨mark _ (by decide), ht'⟩⟩
    · intro u h
      obtain ⟨v, w, hv, rfl, hw⟩ := spaced_append_cons.mp h
      exact .nextElement (hu v hv) (hu' w hw)
  | @member name n a s b t ha hn hb _ ih =>
    obtain ⟨tokens, ht, hs, hu⟩ := ih
    refine ⟨s :: [0x3A] :: tokens, ?_, ⟨a, _, ha, rfl, b, _, hb, rfl, hs⟩, ?_⟩
    · exact List.forall_mem_cons.mpr
        ⟨.string hn, List.forall_mem_cons.mpr ⟨mark _ (by decide), ht⟩⟩
    · rintro _ ⟨c, _, hc, rfl, d, v, hd, rfl, hv⟩
      exact .member hc hn hd (hu v hv)
  | firstMember _ ih =>
    obtain ⟨tokens, ht, hs, hu⟩ := ih
    exact ⟨tokens, ht, hs, fun u h => .firstMember (hu u h)⟩
  | nextMember _ _ ihs iht =>
    obtain ⟨tokens, ht, hs, hu⟩ := ihs
    obtain ⟨tokens', ht', hs', hu'⟩ := iht
    refine ⟨tokens ++ [0x2C] :: tokens', ?_, spaced_append_cons.mpr ⟨_, _, hs, rfl, hs'⟩, ?_⟩
    · exact List.forall_mem_append.mpr ⟨ht, List.forall_mem_cons.mpr ⟨mark _ (by decide), ht'⟩⟩
    · intro u h
      obtain ⟨v, w, hv, rfl, hw⟩ := spaced_append_cons.mp h
      exact .nextMember (hu v hv) (hu' w hw)

/-- A text with other blanks between its tokens has the same tree. -/
theorem Text.spaced (h : Text n s) : ∃ tokens, (∀ t ∈ tokens, Token t) ∧ Spaced tokens s ∧
    ∀ u, Spaced tokens u → Text n u := Derives.tokenized h

end EventRouting.Json
