import EventRouting.Proofs.Naming
import Mathlib.Computability.Language

namespace EventRouting

open scoped Computability

theorem Utf8.length_encodeChar (c : Char) : (Utf8.encodeChar c).length = c.utf8Size := by
  have hle (n : Nat) (h : n < 2 ^ 32) : c.val ≤ UInt32.ofNatLT n h ↔ c.toNat < n + 1 :=
    UInt32.le_iff_toNat_le.trans Nat.lt_succ_iff.symm
  simp only [Utf8.encodeChar, Char.utf8Size, hle]
  split
  · rfl
  · split
    · rfl
    · split <;> rfl

theorem byteLength_eq (s : String) : byteLength s = s.utf8ByteSize := by
  have hl (l : List Char) : (Utf8.encode l).length = (String.ofList l).utf8ByteSize := by
    induction l with
    | nil => rfl
    | cons c l ih =>
      rw [Utf8.encode, List.flatMap_cons, List.length_append, ← Utf8.encode, ih,
        Utf8.length_encodeChar, String.ofList_cons, String.utf8ByteSize_append,
        String.utf8ByteSize_singleton]
  rw [byteLength, Utf8.bytes, hl, String.ofList_toList]

theorem toList_ne_nil_iff {s : String} : s.toList ≠ [] ↔ 1 ≤ s.utf8ByteSize := by
  rw [Nat.one_le_iff_ne_zero]
  exact not_congr (String.toList_eq_nil_iff.trans String.utf8ByteSize_eq_zero_iff.symm)

/-- The texts of a single character of a class. -/
def oneOf (p : Char → Prop) : Language Char := {s | ∃ c, p c ∧ s = [c]}

section Patterns

variable {p : Char → Prop} {l : Language Char} {s : List Char}

theorem mem_oneOf_mul : s ∈ oneOf p * l ↔ ∃ c t, s = c :: t ∧ p c ∧ t ∈ l := by
  rw [Language.mem_mul]
  constructor
  · rintro ⟨_, ⟨c, hc, rfl⟩, t, ht, rfl⟩
    exact ⟨c, t, rfl, hc, ht⟩
  · rintro ⟨c, t, rfl, hc, ht⟩
    exact ⟨[c], ⟨c, hc, rfl⟩, t, ht, rfl⟩

theorem mem_mul_oneOf : s ∈ l * oneOf p ↔ ∃ t c, s = t ++ [c] ∧ t ∈ l ∧ p c := by
  rw [Language.mem_mul]
  constructor
  · rintro ⟨t, ht, _, ⟨c, hc, rfl⟩, rfl⟩
    exact ⟨t, c, rfl, ht, hc⟩
  · rintro ⟨t, c, rfl, ht, hc⟩
    exact ⟨t, ht, [c], ⟨c, hc, rfl⟩, rfl⟩

theorem mem_kstar_oneOf : s ∈ (oneOf p)∗ ↔ ∀ c ∈ s, p c := by
  rw [Language.mem_kstar]
  constructor
  · rintro ⟨parts, rfl, hp⟩ c hc
    obtain ⟨part, hm, hc⟩ := List.mem_flatten.mp hc
    obtain ⟨d, hd, rfl⟩ := hp part hm
    rw [List.mem_singleton.mp hc]
    exact hd
  · intro h
    have hs : s = (s.map fun c => [c]).flatten := by
      rw [← List.flatMap_def, List.flatMap_singleton']
    refine ⟨s.map fun c => [c], hs, ?_⟩
    intro part hm
    obtain ⟨c, hc, rfl⟩ := List.mem_map.mp hm
    exact ⟨c, h c hc, rfl⟩

end Patterns

/-- A lower-case letter of ASCII or a digit. -/
def IsNameEdge (c : Char) : Prop := c.isLower = true ∨ c.isDigit = true

def IsNameChar (c : Char) : Prop := IsNameEdge c ∨ c = '-'

/-- The pattern `[a-z0-9]([-a-z0-9]*[a-z0-9])?`. -/
def namePattern : Language Char :=
  oneOf IsNameEdge * (1 + (oneOf IsNameChar)∗ * oneOf IsNameEdge)

/-- At most 63 bytes of lower-case letters, digits and hyphens, with no hyphen at either end. -/
structure IsName (s : String) : Prop where
  size : 1 ≤ s.utf8ByteSize ∧ s.utf8ByteSize ≤ 63
  chars : ∀ c ∈ s.toList, IsNameChar c
  first : s.toList.head? ≠ some '-'
  last : s.toList.getLast? ≠ some '-'

theorem isLabelEdge_iff {c : Char} : isLabelEdge c = true ↔ IsNameEdge c := by
  have hl : (decide ('a' ≤ c) && decide (c ≤ 'z')) = c.isLower := rfl
  rw [isLabelEdge, hl, Bool.or_eq_true, IsNameEdge]

theorem isLabelInner_iff {c : Char} : isLabelInner c = true ↔ IsNameChar c := by
  rw [isLabelInner, Bool.or_eq_true, isLabelEdge_iff, beq_iff_eq, IsNameChar]

theorem isNameEdge_iff {c : Char} : IsNameEdge c ↔ IsNameChar c ∧ c ≠ '-' := by
  constructor
  · intro h
    refine ⟨.inl h, ?_⟩
    rintro rfl
    exact absurd (isLabelEdge_iff.mpr h) (by decide)
  · rintro ⟨h | h, hn⟩
    · exact h
    · exact absurd h hn

theorem isLabel_iff {s : List Char} : isLabel s = true ↔
    s ≠ [] ∧ (∀ c ∈ s, IsNameChar c) ∧ s.head? ≠ some '-' ∧ s.getLast? ≠ some '-' := by
  have hedge {c : Char} (hc : IsNameChar c) : isLabelEdge c = true ↔ some c ≠ some '-' := by
    rw [isLabelEdge_iff, isNameEdge_iff, and_iff_right hc, ne_eq, ne_eq, Option.some.injEq]
  simp only [isLabel, Bool.and_eq_true, List.all_eq_true, isLabelInner_iff]
  cases s with
  | nil => simp
  | cons c t =>
    obtain ⟨d, hd⟩ : ∃ d, (c :: t).getLast? = some d :=
      ⟨_, List.getLast?_eq_some_getLast (List.cons_ne_nil c t)⟩
    rw [hd, List.head?_cons, Option.any_some, Option.any_some, and_assoc,
      and_iff_right (List.cons_ne_nil c t)]
    apply and_congr_right
    intro h
    rw [hedge (h c List.mem_cons_self), hedge (h d (List.mem_of_getLast? hd))]

theorem mem_namePattern {s : List Char} : s ∈ namePattern ↔ isLabel s = true := by
  simp only [namePattern, mem_oneOf_mul, isLabel, Bool.and_eq_true, List.all_eq_true,
    isLabelInner_iff, Option.any_eq_true, isLabelEdge_iff]
  constructor
  · rintro ⟨c, t, rfl, hc, ht⟩
    rcases ht with rfl | ht
    · have hall : ∀ d ∈ [c], IsNameChar d := List.forall_mem_singleton.mpr (.inl hc)
      exact ⟨⟨hall, c, rfl, hc⟩, c, rfl, hc⟩
    · obtain ⟨u, d, rfl, hu, hd⟩ := mem_mul_oneOf.mp ht
      have hall : ∀ x ∈ c :: (u ++ [d]), IsNameChar x := by
        rw [List.forall_mem_cons, List.forall_mem_append, List.forall_mem_singleton]
        exact ⟨.inl hc, mem_kstar_oneOf.mp hu, .inl hd⟩
      have hlast : (c :: (u ++ [d])).getLast? = some d := List.getLast?_concat (l := c :: u)
      exact ⟨⟨hall, c, rfl, hc⟩, d, hlast, hd⟩
  · rintro ⟨⟨hall, c, hfirst, hc⟩, d, hlast, hd⟩
    obtain ⟨t, rfl⟩ := List.head?_eq_some_iff.mp hfirst
    refine ⟨c, t, rfl, hc, ?_⟩
    rcases List.eq_nil_or_concat t with rfl | ⟨u, e, rfl⟩
    · exact .inl rfl
    · have he : e = d := by
        rw [List.concat_eq_append, ← List.cons_append, List.getLast?_concat] at hlast
        exact Option.some.inj hlast
      rw [List.concat_eq_append, List.forall_mem_cons, List.forall_mem_append] at hall
      rw [List.concat_eq_append]
      exact .inr (mem_mul_oneOf.mpr ⟨u, e, rfl, mem_kstar_oneOf.mpr hall.2.1, he ▸ hd⟩)

theorem checkName_eq_none_iff {s : String} :
    checkName s = none ↔ s.utf8ByteSize ≤ 63 ∧ isLabel s.toList = true := by
  rw [checkName, byteLength_eq, maxNameLength]
  split
  next h => simp [Nat.not_le_of_lt h]
  next h =>
    rw [and_iff_right (Nat.le_of_not_lt h)]
    split
    next hl => simp [hl]
    next hl => simp [hl]

theorem checkName_iff {s : String} : checkName s = none ↔ IsName s := by
  rw [checkName_eq_none_iff, isLabel_iff, toList_ne_nil_iff]
  constructor
  · rintro ⟨hle, hpos, hc, hf, hl⟩
    exact ⟨⟨hpos, hle⟩, hc, hf, hl⟩
  · rintro ⟨⟨hpos, hle⟩, hc, hf, hl⟩
    exact ⟨hle, hpos, hc, hf, hl⟩

def IsTopicLetter (c : Char) : Prop :=
  c.isAlpha = true ∨ c.isDigit = true ∨ c = '.' ∨ c = '_' ∨ c = '-'

/-- The pattern `[a-zA-Z0-9._-]+`. -/
def topicPattern : Language Char := oneOf IsTopicLetter * (oneOf IsTopicLetter)∗

/-- At most 249 bytes of letters of ASCII, digits, dots, underscores and hyphens, but neither one
dot alone nor two. -/
structure IsTopic (s : String) : Prop where
  size : 1 ≤ s.utf8ByteSize ∧ s.utf8ByteSize ≤ 249
  chars : ∀ c ∈ s.toList, IsTopicLetter c
  notDots : s ≠ "." ∧ s ≠ ".."

theorem isTopicChar_iff {c : Char} : isTopicChar c = true ↔ IsTopicLetter c := by
  have hl : (decide ('a' ≤ c) && decide (c ≤ 'z')) = c.isLower := rfl
  have hu : (decide ('A' ≤ c) && decide (c ≤ 'Z')) = c.isUpper := (Bool.decide_and _ _).symm
  have ha : c.isAlpha = (c.isUpper || c.isLower) := rfl
  rw [isTopicChar, hl, hu, IsTopicLetter, ha]
  simp only [Bool.or_eq_true, beq_iff_eq, or_assoc, or_left_comm]

theorem all_isTopicChar_iff {s : List Char} :
    s.all isTopicChar = true ↔ ∀ c ∈ s, IsTopicLetter c := by
  simp only [List.all_eq_true, isTopicChar_iff]

theorem mem_topicPattern {s : List Char} :
    s ∈ topicPattern ↔ s ≠ [] ∧ ∀ c ∈ s, IsTopicLetter c := by
  rw [topicPattern, mem_oneOf_mul]
  constructor
  · rintro ⟨c, t, rfl, hc, ht⟩
    exact ⟨List.cons_ne_nil c t, List.forall_mem_cons.mpr ⟨hc, mem_kstar_oneOf.mp ht⟩⟩
  · rintro ⟨hne, h⟩
    obtain ⟨c, t, rfl⟩ := List.exists_cons_of_ne_nil hne
    obtain ⟨hc, ht⟩ := List.forall_mem_cons.mp h
    exact ⟨c, t, rfl, hc, mem_kstar_oneOf.mpr ht⟩

theorem checkTopic_eq_none_iff {s : String} :
    checkTopic s = none ↔ s.utf8ByteSize ≤ 249 ∧ s ≠ "." ∧ s ≠ ".." ∧ s.toList ∈ topicPattern := by
  have hne : s.toList ≠ [] ↔ s ≠ "" := not_congr String.toList_eq_nil_iff
  rw [checkTopic, byteLength_eq, mem_topicPattern, hne]
  split
  next h => simp [Nat.not_le_of_lt h]
  next h =>
    rw [and_iff_right (Nat.le_of_not_lt h)]
    split
    next hs =>
      obtain ⟨h0, h1, h2, hc⟩ := hs
      exact iff_of_true rfl ⟨h1, h2, h0, all_isTopicChar_iff.mp hc⟩
    next hs =>
      apply iff_of_false nofun
      rintro ⟨h1, h2, h0, hc⟩
      exact hs ⟨h0, h1, h2, all_isTopicChar_iff.mpr hc⟩

theorem checkTopic_iff {s : String} : checkTopic s = none ↔ IsTopic s := by
  rw [checkTopic_eq_none_iff, mem_topicPattern, toList_ne_nil_iff]
  constructor
  · rintro ⟨hle, h1, h2, hpos, hc⟩
    exact ⟨⟨hpos, hle⟩, hc, h1, h2⟩
  · rintro ⟨⟨hpos, hle⟩, hc, h1, h2⟩
    exact ⟨hle, h1, h2, hpos, hc⟩

theorem isTopic_of_names (opening sep : String) {ns name : String}
    (ho : ∀ c ∈ opening.toList, IsTopicLetter c) (hs : ∀ c ∈ sep.toList, IsTopicLetter c)
    (hsize : 1 ≤ opening.utf8ByteSize ∧ opening.utf8ByteSize + sep.utf8ByteSize ≤ 123)
    (hns : IsName ns) (hname : IsName name) : IsTopic (opening ++ ns ++ sep ++ name) := by
  have hletter {c : Char} (hc : IsNameChar c) : IsTopicLetter c := by
    rcases hc with (hc | hc) | rfl
    · exact .inl (Bool.or_eq_true_iff.mpr (.inr hc))
    · exact .inr (.inl hc)
    · exact .inr (.inr (.inr (.inr rfl)))
  have hl : (opening ++ ns ++ sep ++ name).utf8ByteSize =
      opening.utf8ByteSize + ns.utf8ByteSize + sep.utf8ByteSize + name.utf8ByteSize := by
    rw [String.utf8ByteSize_append, String.utf8ByteSize_append, String.utf8ByteSize_append]
  obtain ⟨hpos, hle⟩ := hns.size
  obtain ⟨hpos', hle'⟩ := hname.size
  have hshort (t : String) (ht : t.utf8ByteSize ≤ 2) : opening ++ ns ++ sep ++ name ≠ t := by
    rintro rfl
    omega
  refine ⟨by omega, ?_, hshort "." (by decide), hshort ".." (by decide)⟩
  intro c hc
  simp only [String.toList_append, List.mem_append] at hc
  rcases hc with ((hc | hc) | hc) | hc
  · exact ho c hc
  · exact hletter (hns.chars c hc)
  · exact hs c hc
  · exact hletter (hname.chars c hc)

theorem isTopic_brokerTopic {ns name : String} (hns : IsName ns) (hname : IsName name) :
    IsTopic (brokerTopic ns name) :=
  isTopic_of_names "knative-broker-" "-" (all_isTopicChar_iff.mp (by decide))
    (all_isTopicChar_iff.mp (by decide)) (by decide) hns hname

theorem isTopic_channelTopic {ns name : String} (hns : IsName ns) (hname : IsName name) :
    IsTopic (channelTopic ns name) :=
  isTopic_of_names "knative-messaging-kafka." "." (all_isTopicChar_iff.mp (by decide))
    (all_isTopicChar_iff.mp (by decide)) (by decide) hns hname

/-- A name is accepted exactly if it is one, by its characters or by its pattern and size, and so is
a topic. -/
theorem names_and_topics_iff :
    (∀ s, checkName s = none ↔ IsName s) ∧
    (∀ s, checkName s = none ↔ s.utf8ByteSize ≤ 63 ∧ s.toList ∈ namePattern) ∧
    (∀ s, checkTopic s = none ↔ IsTopic s) ∧
    (∀ s, checkTopic s = none ↔
      s.utf8ByteSize ≤ 249 ∧ s ≠ "." ∧ s ≠ ".." ∧ s.toList ∈ topicPattern) ∧
    ∀ ns name, checkName ns = none → checkName name = none →
      checkTopic (brokerTopic ns name) = none ∧ checkTopic (channelTopic ns name) = none := by
  refine ⟨fun _ => checkName_iff, ?_, fun _ => checkTopic_iff, fun _ => checkTopic_eq_none_iff, ?_⟩
  · intro s
    rw [checkName_eq_none_iff, mem_namePattern]
  · intro ns name hns hname
    have hns := checkName_iff.mp hns
    have hname := checkName_iff.mp hname
    exact ⟨checkTopic_iff.mpr (isTopic_brokerTopic hns hname),
      checkTopic_iff.mpr (isTopic_channelTopic hns hname)⟩

/-- The longest names there are still make valid topics. -/
theorem names_and_topics_iff_of_longest :
    checkName (letters 63) = none ∧ checkTopic (brokerTopic (letters 63) (letters 63)) = none ∧
      checkTopic (channelTopic (letters 63) (letters 63)) = none ∧ ¬IsName (letters 64) := by
  have h : checkName (letters 63) = none := by decide +kernel
  have hn : checkName (letters 64) ≠ none := by decide +kernel
  obtain ⟨hname, -, -, -, htopics⟩ := names_and_topics_iff
  obtain ⟨hbroker, hchannel⟩ := htopics _ _ h h
  exact ⟨h, hbroker, hchannel, mt (hname _).mpr hn⟩

end EventRouting
