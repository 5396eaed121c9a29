import EventRouting.Proofs.Naming
import Mathlib.Data.List.TakeWhile

namespace EventRouting

namespace FieldViolation

/-- The line of a message that puts the violation into words. -/
def line (v : FieldViolation) : String := s!"{v.field}: {v.violation.message}"

/-- The top-level field that the violation lies under. The entries of a list lie under the list. -/
def root (v : FieldViolation) : String := .ofList (v.field.toList.takeWhile (· ≠ '['))

theorem toList_line (v : FieldViolation) :
    v.line.toList = v.field.toList ++ ':' :: ' ' :: v.violation.message.toList := by
  have hl : v.line = v.field ++ ": " ++ v.violation.message := rfl
  rw [hl, String.toList_append, String.toList_append, List.append_assoc]
  rfl

theorem line_ne_empty (v : FieldViolation) : v.line ≠ "" := by
  intro h
  have hl := congrArg String.toList h
  rw [toList_line] at hl
  exact List.append_ne_nil_of_right_ne_nil _ (List.cons_ne_nil _ _) hl

theorem no_bracket {name : String} (h : '[' ∉ name.toList) :
    ∀ c ∈ name.toList, decide (c ≠ '[') = true := by
  intro c hc
  exact decide_eq_true fun he => h (he ▸ hc)

theorem root_of_plain (v : FieldViolation) (h : '[' ∉ v.field.toList) : v.root = v.field := by
  rw [root, List.takeWhile_eq_self_iff.mpr (no_bracket h), String.ofList_toList]

theorem root_of_entry (v : FieldViolation) (i : Nat) :
    (v.within s!"subscribers[{i}]").root = "subscribers" := by
  have hf : (v.within s!"subscribers[{i}]").field.toList =
      "subscribers".toList ++ '[' :: ((toString i).toList ++ [']']) := by
    have hs : (v.within s!"subscribers[{i}]").field = "subscribers[" ++ toString i ++ "]" := rfl
    rw [hs, String.toList_append, String.toList_append, List.append_assoc]
    rfl
  have ht : ("subscribers".toList ++ '[' :: ((toString i).toList ++ [']'])).takeWhile (· ≠ '[') =
      "subscribers".toList := by
    have hn : '[' ∉ "subscribers".toList := by decide
    rw [List.takeWhile_append_of_pos (no_bracket hn), List.takeWhile_cons_of_neg (by decide),
      List.append_nil]
  rw [root, hf, ht, String.ofList_toList]

end FieldViolation

/-- The lines that a message is made of. -/
def violationLines (vs : List FieldViolation) : List String :=
  ((vs.filter (·.inner.isEmpty)).map FieldViolation.line).mergeSort fun a b => decide (a ≤ b)

/-- The line is about the field. -/
def IsAbout (line field : String) : Prop := ∃ text, line = field ++ ": " ++ text

/-- The message says something, and names the top-level field of every violation. -/
structure Explained (vs : List FieldViolation) : Prop where
  message : violationMessage vs ≠ ""
  named : ∀ v ∈ vs, ∃ line ∈ violationLines vs, IsAbout line v.root

variable {vs : List FieldViolation} {v : FieldViolation} {field : String}

theorem violationMessage_eq (vs : List FieldViolation) :
    violationMessage vs = "; ".intercalate (violationLines vs) := rfl

theorem mem_violationLines {line : String} :
    line ∈ violationLines vs ↔ ∃ v ∈ vs, v.inner = [] ∧ v.line = line := by
  rw [violationLines, (List.mergeSort_perm _ _).mem_iff, List.mem_map]
  refine exists_congr fun v => ?_
  rw [List.mem_filter, List.isEmpty_iff, and_assoc]

theorem exists_intercalate {sep line : String} {lines : List String} (h : line ∈ lines) :
    ∃ before after, sep.intercalate lines = before ++ line ++ after := by
  obtain ⟨before, after, rfl⟩ := List.append_of_mem h
  cases before with
  | nil =>
    cases after with
    | nil => exact ⟨"", "", by simp⟩
    | cons next after =>
      exact ⟨"", sep ++ sep.intercalate (next :: after), by simp [String.append_assoc]⟩
  | cons first before =>
    have hb := List.cons_ne_nil first before
    rw [String.intercalate_append_of_ne_nil hb (List.cons_ne_nil _ _)]
    cases after with
    | nil => exact ⟨sep.intercalate (first :: before) ++ sep, "", by simp⟩
    | cons next after =>
      refine ⟨sep.intercalate (first :: before) ++ sep, sep ++ sep.intercalate (next :: after), ?_⟩
      simp [String.append_assoc]

theorem line_in_message (hv : v ∈ vs) (hd : v.inner = []) :
    ∃ before after, violationMessage vs = before ++ v.line ++ after := by
  rw [violationMessage_eq]
  exact exists_intercalate (mem_violationLines.mpr ⟨v, hv, hd, rfl⟩)

theorem violationMessage_eq_empty_iff :
    violationMessage vs = "" ↔ ∀ v ∈ vs, v.inner ≠ [] := by
  constructor
  · intro h v hv hd
    obtain ⟨before, after, he⟩ := line_in_message hv hd
    rw [h] at he
    have hl := (String.append_eq_empty_iff.mp he.symm).1
    exact v.line_ne_empty (String.append_eq_empty_iff.mp hl).2
  · intro h
    have hl : violationLines vs = [] := by
      rw [List.eq_nil_iff_forall_not_mem]
      intro line hl
      obtain ⟨v, hv, hd, -⟩ := mem_violationLines.mp hl
      exact h v hv hd
    rw [violationMessage_eq, hl]
    rfl

theorem isAbout_line_iff (hv : ':' ∉ v.field.toList) (hf : ':' ∉ field.toList) :
    IsAbout v.line field ↔ v.field = field := by
  constructor
  · rintro ⟨text, h⟩
    rw [← String.toList_inj, v.toList_line, String.toList_append, String.toList_append,
      List.append_assoc] at h
    exact String.toList_inj.mp (append_separator_inj hv hf h).1
  · rintro rfl
    exact ⟨v.violation.message, rfl⟩

/-- Violations of these fields themselves. -/
def AreDirect (fields : List String) (vs : List FieldViolation) : Prop :=
  ∀ v ∈ vs, v.inner = [] ∧ v.field ∈ fields

/-- Violations that lie deeper, under these top-level fields. -/
def AreWithin (roots : List String) (vs : List FieldViolation) : Prop :=
  ∀ v ∈ vs, v.inner ≠ [] ∧ v.root ∈ roots

/-- The violation is of one of the fields itself, or it lies deeper under one of the roots. -/
def LiesIn (fields roots : List String) (v : FieldViolation) : Prop :=
  (v.inner = [] ∧ v.field ∈ fields) ∨ (v.inner ≠ [] ∧ v.root ∈ roots)

/-- The violations are of some fields themselves, or they lie deeper under other fields. -/
structure Layered (fields roots : List String) (vs : List FieldViolation) : Prop where
  fieldsApart : ∀ f ∈ fields, f ∉ roots ∧ ':' ∉ f.toList ∧ '[' ∉ f.toList
  rootsPlain : ∀ r ∈ roots, ':' ∉ r.toList
  cases : ∀ v ∈ vs, LiesIn fields roots v

section

variable {fields roots : List String}

theorem AreDirect.layers (h : AreDirect fields vs) : ∀ v ∈ vs, LiesIn fields roots v :=
  fun v hv => .inl (h v hv)

theorem AreWithin.layers (h : AreWithin roots vs) : ∀ v ∈ vs, LiesIn fields roots v :=
  fun v hv => .inr (h v hv)

/-- The top-level field of a violation is named exactly if the violation is of the field itself. -/
theorem Layered.named_iff (h : Layered fields roots vs) (hv : v ∈ vs) :
    (∃ line ∈ violationLines vs, IsAbout line v.root) ↔ v.inner = [] := by
  constructor
  · rintro ⟨line, hl, hn⟩
    obtain ⟨w, hw, hd, rfl⟩ := mem_violationLines.mp hl
    rcases h.cases v hv with ⟨hv, -⟩ | ⟨-, hr⟩
    · exact hv
    · rcases h.cases w hw with ⟨-, hf⟩ | ⟨hi, -⟩
      · obtain ⟨hm, hc, -⟩ := h.fieldsApart _ hf
        rw [isAbout_line_iff hc (h.rootsPlain _ hr)] at hn
        exact absurd (hn ▸ hr) hm
      · exact absurd hd hi
  · intro hd
    refine ⟨v.line, mem_violationLines.mpr ⟨v, hv, hd, rfl⟩, v.violation.message, ?_⟩
    rcases h.cases v hv with ⟨-, hf⟩ | ⟨hi, -⟩
    · rw [v.root_of_plain (h.fieldsApart _ hf).2.2]
      rfl
    · exact absurd hd hi

theorem Layered.explained_iff (h : Layered fields roots vs) (hne : vs ≠ []) :
    Explained vs ↔ ∀ v ∈ vs, v.inner = [] := by
  constructor
  · exact fun he v hv => (h.named_iff hv).mp (he.named v hv)
  · intro hd
    refine ⟨fun he => ?_, fun v hv => (h.named_iff hv).mpr (hd v hv)⟩
    obtain ⟨v, hv⟩ := List.exists_mem_of_ne_nil vs hne
    exact violationMessage_eq_empty_iff.mp he v hv (hd v hv)

theorem AreDirect.all_direct (h : AreDirect fields vs) : ∀ v ∈ vs, v.inner = [] :=
  fun v hv => (h v hv).1

theorem AreWithin.all_direct_iff (h : AreWithin roots vs) :
    (∀ v ∈ vs, v.inner = []) ↔ vs = [] := by
  constructor
  · exact fun hd => List.eq_nil_iff_forall_not_mem.mpr fun v hv => (h v hv).1 (hd v hv)
  · rintro rfl
    exact nofun

theorem areDirect_violations (hf : field ∈ fields) (check : String → Option Violation)
    (value : String) : AreDirect fields (violations field check value) := by
  intro v hv
  obtain ⟨violation, -, rfl⟩ := List.mem_map.mp hv
  exact ⟨rfl, hf⟩

theorem areDirect_violations? (hf : field ∈ fields) (check : String → Option Violation)
    (value? : Option String) : AreDirect fields (violations? field check value?) := by
  cases value? with
  | none => exact nofun
  | some value => exact areDirect_violations hf check value

theorem areDirect_of_condition (hf : field ∈ fields) (c : Prop) [Decidable c]
    (violation : Violation) : AreDirect fields (if c then [{ field, violation }] else []) := by
  split
  · exact List.forall_mem_singleton.mpr ⟨rfl, hf⟩
  · exact nofun

theorem areWithin_delivery (hr : "delivery" ∈ roots) (d? : Option DeliverySpec) :
    AreWithin roots (DeliverySpec.violationsWithin "delivery" d?) := by
  intro v hv
  obtain ⟨w, -, rfl⟩ := List.mem_map.mp hv
  have hp : '[' ∉ "delivery".toList := by decide
  refine ⟨List.cons_ne_nil _ _, ?_⟩
  rw [FieldViolation.root_of_plain (w.within "delivery") hp]
  exact hr

theorem areWithin_subscribers (hr : "subscribers" ∈ roots) (s : ChannelSpec) :
    AreWithin roots s.subscriberViolations := by
  intro v hv
  obtain ⟨⟨sub, i⟩, -, hv⟩ := List.mem_flatMap.mp hv
  obtain ⟨w, -, rfl⟩ := List.mem_map.mp hv
  exact ⟨List.cons_ne_nil _ _, (w.root_of_entry i).symm ▸ hr⟩

end

theorem violationsWithin_eq_nil_iff {d? : Option DeliverySpec} :
    DeliverySpec.violationsWithin field d? = [] ↔ ∀ d, d? = some d → d.violations = [] := by
  rw [DeliverySpec.violationsWithin, List.map_eq_nil_iff, List.flatMap_eq_nil_iff]
  simp only [Option.mem_toList]

theorem subscriberViolations_eq_nil_iff {s : ChannelSpec} :
    s.subscriberViolations = [] ↔ ∀ sub ∈ s.subscribers, sub.violations = [] := by
  rw [ChannelSpec.subscriberViolations, List.flatMap_eq_nil_iff]
  constructor
  · intro h sub hs
    obtain ⟨i, hi, he⟩ := List.mem_iff_getElem.mp hs
    have hz := h (sub, i) (List.mem_zipIdx_iff_getElem?.mpr (he ▸ List.getElem?_eq_getElem hi))
    exact List.map_eq_nil_iff.mp hz
  · rintro h ⟨sub, i⟩ hs
    exact List.map_eq_nil_iff.mpr (h sub (List.fst_mem_of_mem_zipIdx hs))

namespace RoutingManifest

/-- The delivery settings and the subscribers in a spec are not at fault. -/
def InnerValid : RoutingManifest → Prop
  | .broker m => ∀ d, m.spec.delivery? = some d → d.violations = []
  | .trigger m => ∀ d, m.spec.delivery? = some d → d.violations = []
  | .channel m => (∀ d, m.spec.delivery? = some d → d.violations = []) ∧
      ∀ s ∈ m.spec.subscribers, s.violations = []
  | .sink _ => True

/-- The violations of the spec can be reported together. Only those of a channel with too many
subscribers may not. -/
def Reportable : RoutingManifest → Prop
  | .channel m => m.spec.unreportable = false
  | .broker _ | .trigger _ | .sink _ => True

variable {m : RoutingManifest}

theorem reportable_of_length_le {c : Manifest ChannelSpec}
    (h : c.spec.subscribers.length ≤ maxSubscribers) : (channel c).Reportable := by
  rw [Reportable, ChannelSpec.unreportable, decide_eq_false (Nat.not_lt_of_le h), Bool.false_and]

/-- Nothing lies deeper in a spec exactly if its delivery settings and subscribers are not at
fault. -/
theorem all_direct_iff : (∀ v ∈ m.violations, v.inner = []) ↔ m.InnerValid := by
  have hd (d? : Option DeliverySpec) :
      (∀ v ∈ DeliverySpec.violationsWithin "delivery" d?, v.inner = []) ↔
        ∀ d, d? = some d → d.violations = [] :=
    (areWithin_delivery (List.mem_singleton_self _) d?).all_direct_iff.trans
      violationsWithin_eq_nil_iff
  have hf (field : String) (check : String → Option Violation) (value : String) :
      ∀ v ∈ EventRouting.violations field check value, v.inner = [] :=
    (areDirect_violations (List.mem_singleton_self _) check value).all_direct
  have hf? (field : String) (check : String → Option Violation) (value? : Option String) :
      ∀ v ∈ violations? field check value?, v.inner = [] :=
    (areDirect_violations? (List.mem_singleton_self _) check value?).all_direct
  cases m with
  | broker m =>
    rw [violations, BrokerSpec.violations, List.forall_mem_append, List.forall_mem_append, hd]
    exact and_iff_right ⟨hf? _ _ _, hf? _ _ _⟩
  | trigger m =>
    rw [violations, TriggerSpec.violations, List.forall_mem_append, List.forall_mem_append,
      List.forall_mem_append, hd]
    exact and_iff_right ⟨⟨hf _ _ _, hf _ _ _⟩, hf? _ _ _⟩
  | channel m =>
    have hs : (∀ v ∈ m.spec.subscriberViolations, v.inner = []) ↔
        ∀ sub ∈ m.spec.subscribers, sub.violations = [] :=
      (areWithin_subscribers (List.mem_singleton_self _) m.spec).all_direct_iff.trans
        subscriberViolations_eq_nil_iff
    rw [violations, ChannelSpec.violations, List.forall_mem_append, List.forall_mem_append,
      List.forall_mem_append, List.forall_mem_append, hd, hs]
    have hn := (areDirect_of_condition (List.mem_singleton_self "subscribers")
      (maxSubscribers < m.spec.subscribers.length)
      ⟨"length", "maximum 1000 subscribers allowed"⟩).all_direct
    exact ⟨fun h => ⟨h.1.1.2, h.2⟩, fun h => ⟨⟨⟨⟨hf? _ _ _, hf? _ _ _⟩, h.1⟩, hn⟩, h.2⟩⟩
  | sink m =>
    rw [violations, SinkSpec.violations, List.forall_mem_append]
    exact iff_true_intro ⟨hf _ _ _, hf? _ _ _⟩

/-- The violations of a channel, of which those of the list of subscribers are direct ones, unless a
subscriber is at fault. -/
theorem layered_channel {c : Manifest ChannelSpec} (hr : (channel c).Reportable) :
    ∃ fields roots, Layered fields roots c.spec.violations := by
  rw [ChannelSpec.violations]
  by_cases hc : maxSubscribers < c.spec.subscribers.length
  · have hs : c.spec.subscriberViolations = [] := by
      rw [Reportable, ChannelSpec.unreportable, decide_eq_true hc, Bool.true_and,
        Bool.not_eq_false', List.isEmpty_iff] at hr
      exact hr
    refine ⟨["topic", "bootstrap_servers", "subscribers"], ["delivery"], by decide, by decide, ?_⟩
    rw [hs, List.append_nil]
    simp only [List.forall_mem_append]
    exact ⟨⟨⟨(areDirect_violations? (by decide) _ _).layers,
      (areDirect_violations? (by decide) _ _).layers⟩,
      (areWithin_delivery (by decide) _).layers⟩, (areDirect_of_condition (by decide) _ _).layers⟩
  · refine ⟨["topic", "bootstrap_servers"], ["delivery", "subscribers"], by decide, by decide, ?_⟩
    rw [if_neg hc, List.append_nil]
    simp only [List.forall_mem_append]
    exact ⟨⟨⟨(areDirect_violations? (by decide) _ _).layers,
      (areDirect_violations? (by decide) _ _).layers⟩,
      (areWithin_delivery (by decide) _).layers⟩, (areWithin_subscribers (by decide) _).layers⟩

theorem layered (hr : m.Reportable) : ∃ fields roots, Layered fields roots m.violations := by
  cases m with
  | broker m =>
    refine ⟨["topic", "bootstrap_servers"], ["delivery"], by decide, by decide, ?_⟩
    rw [violations, BrokerSpec.violations]
    simp only [List.forall_mem_append]
    exact ⟨⟨(areDirect_violations? (by decide) _ _).layers,
      (areDirect_violations? (by decide) _ _).layers⟩, (areWithin_delivery (by decide) _).layers⟩
  | trigger m =>
    refine ⟨["broker", "subscriber", "reply"], ["delivery"], by decide, by decide, ?_⟩
    rw [violations, TriggerSpec.violations]
    simp only [List.forall_mem_append]
    exact ⟨⟨⟨(areDirect_violations (by decide) _ _).layers,
      (areDirect_violations (by decide) _ _).layers⟩,
      (areDirect_violations? (by decide) _ _).layers⟩, (areWithin_delivery (by decide) _).layers⟩
  | channel m => exact layered_channel hr
  | sink m =>
    refine ⟨["topic", "bootstrap_servers"], [], by decide, by decide, ?_⟩
    rw [violations, SinkSpec.violations, List.forall_mem_append]
    exact ⟨(areDirect_violations (by decide) _ _).layers,
      (areDirect_violations? (by decide) _ _).layers⟩

/-- Users learn of every field at fault exactly if delivery settings and subscribers are valid. -/
theorem refusal_explained_iff (hr : m.Reportable) (hn : m.violations ≠ []) :
    (violationMessage m.violations = "" ↔ ∀ v ∈ m.violations, v.inner ≠ []) ∧
    (∀ v ∈ m.violations,
      ((∃ line ∈ violationLines m.violations, IsAbout line v.root) ↔ v.inner = []) ∧
      (v.inner = [] → ∃ before after,
        violationMessage m.violations = before ++ v.line ++ after)) ∧
    (Explained m.violations ↔ m.InnerValid) := by
  obtain ⟨fields, roots, hl⟩ := m.layered hr
  refine ⟨violationMessage_eq_empty_iff, fun v hv => ⟨hl.named_iff hv, line_in_message hv⟩, ?_⟩
  exact (hl.explained_iff hn).trans all_direct_iff

theorem refusal_explained_iff_of_subscriber :
    let c : Manifest ChannelSpec :=
      ⟨{}, { topic? := some ".", subscribers := [{ uid := "", uri := "http://a" }] }, none⟩
    ∃ v w, (channel c).violations = [v, w] ∧
      (∃ before after, violationMessage (channel c).violations = before ++ v.line ++ after) ∧
      ¬(∃ line ∈ violationLines (channel c).violations, IsAbout line w.root) ∧
      ¬Explained (channel c).violations := by
  intro c
  have hr : (channel c).Reportable := reportable_of_length_le (by decide)
  have hv : (channel c).violations =
      [⟨"topic", [], ⟨"invalid_topic", "'.' is not a valid Kafka topic name"⟩⟩,
        ⟨"subscribers[0]", ["uid"], ⟨"length", "subscriber uid must not be empty"⟩⟩] := by
    decide +kernel
  have hn : (channel c).violations ≠ [] := hv ▸ List.cons_ne_nil _ _
  obtain ⟨-, hf, he⟩ := refusal_explained_iff hr hn
  refine ⟨_, _, hv, (hf _ (hv ▸ .head _)).2 rfl, fun h => ?_, fun h => ?_⟩
  · exact List.cons_ne_nil _ _ ((hf _ (hv ▸ .tail _ (.head _))).1.mp h)
  · exact absurd ((he.mp h).2 { uid := "", uri := "http://a" } (.head _)) (by decide)

/-- A broker that is to retry too often is refused without a word. -/
theorem retry_unexplained :
    let b : Manifest BrokerSpec := ⟨{}, { delivery? := some { retry? := some 101 } }, none⟩
    (broker b).violations.map FieldViolation.path = ["delivery.retry"] ∧
      violationMessage (broker b).violations = "" ∧ ¬Explained (broker b).violations :=
  ⟨by decide +kernel, by decide +kernel, fun h => h.message (by decide +kernel)⟩

end RoutingManifest

end EventRouting
