import EventRouting.Proofs.Json.Document

namespace EventRouting.Json

def Blanks (s : List UInt8) : Prop := ∀ b ∈ s, isBlank b = true

/-- How an element of a string is written. -/
inductive PieceText : Piece → List UInt8 → Prop where
  | byte {b : UInt8} : b ≠ 0x22 → b ≠ 0x5C → ¬b < 0x20 → PieceText (.byte b) [b]
  | letter {b c : UInt8} : escaped? b = some c → PieceText (.byte c) [0x5C, b]
  | unit {s : List UInt8} {digits : List Nat} : s.length = 4 → s.mapM hexValue? = some digits →
      PieceText (.unit (digits.foldl (fun n d => 16 * n + d) 0)) (0x5C :: 0x75 :: s)

/-- What stands between the quotes of a string. -/
inductive BodyText : List Piece → List UInt8 → Prop where
  | empty : BodyText [] []
  | piece {l : List Piece} {p : Piece} {s t : List UInt8} : BodyText l s → PieceText p t →
      BodyText (l ++ [p]) (s ++ t)

inductive StringText : Spelling → List UInt8 → Prop where
  | quoted {l : List Piece} {s : List UInt8} : BodyText l s →
      StringText ⟨l, none⟩ (0x22 :: (s ++ [0x22]))

inductive SignText : Bool → List UInt8 → Prop where
  | none : SignText false []
  | minus : SignText true [0x2D]

/-- Digits, at least one. -/
inductive DigitsText : List Nat → List UInt8 → Prop where
  | one {b : UInt8} {d : Nat} : digit? b = some d → DigitsText [d] [b]
  | more {l : List Nat} {s : List UInt8} {b : UInt8} {d : Nat} : DigitsText l s →
      digit? b = some d → DigitsText (l ++ [d]) (s ++ [b])

theorem DigitsText.ne_nil {l : List Nat} {s : List UInt8} (h : DigitsText l s) : l ≠ [] := by
  cases h <;> simp

/-- The digits before the point, without leading zeros. -/
inductive WholeText : List Nat → List UInt8 → Prop where
  | zero : WholeText [0] [0x30]
  | digits {d : Nat} {l : List Nat} {s : List UInt8} : d ≠ 0 → DigitsText (d :: l) s →
      WholeText (d :: l) s

inductive FractionText : Bool → List Nat → List UInt8 → Prop where
  | none : FractionText false [] []
  | digits {l : List Nat} {s : List UInt8} : DigitsText l s → FractionText true l (0x2E :: s)

/-- The mark of an exponent and its sign. -/
inductive MarkText : Bool → List UInt8 → Prop where
  | plain {b : UInt8} : b = 0x65 ∨ b = 0x45 → MarkText false [b]
  | plus {b : UInt8} : b = 0x65 ∨ b = 0x45 → MarkText false [b, 0x2B]
  | minus {b : UInt8} : b = 0x65 ∨ b = 0x45 → MarkText true [b, 0x2D]

inductive ExponentText : Bool → List Nat → List UInt8 → Prop where
  | none : ExponentText false [] []
  | digits {negative : Bool} {l : List Nat} {s t : List UInt8} : MarkText negative s →
      DigitsText l t → ExponentText negative l (s ++ t)

inductive NumberText : Literal → List UInt8 → Prop where
  | parts {l : Literal} {s t u v : List UInt8} : SignText l.negative s → WholeText l.whole t →
      FractionText l.fractional l.fraction u → ExponentText l.exponentNegative l.exponent v →
      NumberText l (s ++ t ++ u ++ v)

/-- A part of a text, with what it stands for. An element is a value with blanks around it. -/
inductive Phrase where
  | value (n : Node)
  | element (n : Node)
  | elements (l : List Node)
  | member (m : Spelling × Node)
  | members (l : List (Spelling × Node))

/-- How a phrase is written. -/
inductive Derives : Phrase → List UInt8 → Prop where
  | null : Derives (.value (.scalar .null)) [0x6E, 0x75, 0x6C, 0x6C]
  | yes : Derives (.value (.scalar (.bool true))) [0x74, 0x72, 0x75, 0x65]
  | no : Derives (.value (.scalar (.bool false))) [0x66, 0x61, 0x6C, 0x73, 0x65]
  | number {l : Literal} {s : List UInt8} : NumberText l s →
      Derives (.value (.scalar (.number l.number))) s
  | string {t : Spelling} {s : List UInt8} : StringText t s → Derives (.value (.string t)) s
  | emptyArray {s : List UInt8} : Blanks s →
      Derives (.value (.array [] none)) (0x5B :: (s ++ [0x5D]))
  | array {l : List Node} {s : List UInt8} : Derives (.elements l) s →
      Derives (.value (.array l none)) (0x5B :: (s ++ [0x5D]))
  | emptyObject {s : List UInt8} : Blanks s →
      Derives (.value (.object [] .closed)) (0x7B :: (s ++ [0x7D]))
  | object {l : List (Spelling × Node)} {s : List UInt8} : Derives (.members l) s →
      Derives (.value (.object l .closed)) (0x7B :: (s ++ [0x7D]))
  | element {n : Node} {a s b : List UInt8} : Blanks a → Derives (.value n) s → Blanks b →
      Derives (.element n) (a ++ (s ++ b))
  | firstElement {n : Node} {s : List UInt8} : Derives (.element n) s → Derives (.elements [n]) s
  | nextElement {l : List Node} {n : Node} {s t : List UInt8} : Derives (.elements l) s →
      Derives (.element n) t → Derives (.elements (l ++ [n])) (s ++ 0x2C :: t)
  | member {name : Spelling} {n : Node} {a s b t : List UInt8} : Blanks a → StringText name s →
      Blanks b → Derives (.element n) t → Derives (.member (name, n)) (a ++ (s ++ (b ++ 0x3A :: t)))
  | firstMember {m : Spelling × Node} {s : List UInt8} : Derives (.member m) s →
      Derives (.members [m]) s
  | nextMember {l : List (Spelling × Node)} {m : Spelling × Node} {s t : List UInt8} :
      Derives (.members l) s → Derives (.member m) t →
      Derives (.members (l ++ [m])) (s ++ 0x2C :: t)

/-- A text and its tree. -/
def Text (n : Node) (s : List UInt8) : Prop := Derives (.element n) s

/-- The document that is read from a text, beginning in a state. -/
def run (st : State) (s : List UInt8) : Document := (s.foldl State.step st).finish

variable {frames : List Frame} {st : State} {b : UInt8} {s t w : List UInt8}

@[simp] theorem run_nil : run st [] = st.finish := rfl

@[simp] theorem run_cons : run st (b :: s) = run (st.step b) s := rfl

theorem run_append : run st (s ++ t) = run (s.foldl State.step st) t :=
  congrArg State.finish List.foldl_append

/-- A value ends where a text ends, or at one of these bytes. -/
def Terminated (s : List UInt8) : Prop :=
  ∀ b ∈ s.head?, isBlank b = true ∨ b = 0x2C ∨ b = 0x5D ∨ b = 0x7D

theorem terminated_nil : Terminated [] := nofun

theorem terminated_cons (h : isBlank b = true ∨ b = 0x2C ∨ b = 0x5D ∨ b = 0x7D) :
    Terminated (b :: s) := by
  intro c hc
  cases hc
  exact h

theorem Blanks.terminated (h : Blanks s) (ht : Terminated t) : Terminated (s ++ t) := by
  cases s with
  | nil => exact ht
  | cons b s => exact terminated_cons (.inl (h b (.head _)))

/-- Places where blanks are passed over. -/
def Place.passesBlanks : Place → Bool
  | .value | .firstItem | .firstName | .name | .colon | .next => true
  | .string .. | .nameString .. | .word .. | .number .. => false

theorem step_blank {place : Place} (hp : place.passesBlanks = true) (hb : isBlank b = true) :
    State.step (.reading frames place) b = .reading frames place := by
  cases place <;> first | exact if_pos hb | cases hp

theorem run_blanks {place : Place} (hp : place.passesBlanks = true) (h : Blanks s) :
    run (.reading frames place) (s ++ w) = run (.reading frames place) w := by
  induction s with
  | nil => rfl
  | cons b s ih =>
    rw [List.cons_append, run_cons, step_blank hp (h b (.head _))]
    exact ih fun c hc => h c (.tail _ hc)

theorem run_deliver_blanks (n : Node) (h : Blanks s) :
    run (deliver frames n) (s ++ w) = run (deliver frames n) w := by
  have settled {st : State} (hs : ∀ b, isBlank b = true → st.step b = st) :
      run st (s ++ w) = run st w := by
    induction s with
    | nil => rfl
    | cons b s ih =>
      rw [List.cons_append, run_cons, hs b (h b (.head _))]
      exact ih fun c hc => h c (.tail _ hc)
  refine settled fun b hb => ?_
  cases frames with
  | nil => simp [deliver, State.step, hb]
  | cons frame frames =>
    cases frame with
    | array items => exact step_blank rfl hb
    | object members name? =>
      cases name? with
      | none => rfl
      | some name => exact step_blank rfl hb
    | misnamed members => rfl

/-- Where a value begins. -/
def Place.begins : Place → Bool
  | .value | .firstItem => true
  | _ => false

theorem step_begin {place : Place} (hp : place.begins = true) (hb : isBlank b = false)
    (h : b ≠ 0x5D) : State.step (.reading frames place) b = beginValue frames b := by
  cases place <;> first
    | simp only [State.step, hb, if_neg h, Bool.false_eq_true, ↓reduceIte]; done
    | cases hp

theorem PieceText.spell {p : Piece} {acc : List Piece} (h : PieceText p s) (t : List UInt8) :
    spell acc .plain (s ++ t) = Json.spell (p :: acc) .plain t := by
  cases h with
  | byte hq he hc =>
    simp only [List.cons_append, List.nil_append, Json.spell, stringStep_byte hq he hc]
  | @letter b c h =>
    have hu : b ≠ 0x75 := by
      rintro rfl
      cases h
    exact spell_escape hu h t
  | @unit s digits hl hd =>
    obtain ⟨a, b, c, d, rfl⟩ : ∃ a b c d, s = [a, b, c, d] := by
      rcases s with _ | ⟨a, _ | ⟨b, _ | ⟨c, _ | ⟨d, _ | ⟨e, s⟩⟩⟩⟩⟩ <;> simp at hl
      exact ⟨a, b, c, d, rfl⟩
    have h0 : stringStep acc .plain 0x5C = .more acc .escape := rfl
    have h1 : stringStep acc .escape 0x75 = .more acc (.hex []) := rfl
    have h2 (read : List UInt8) (b : UInt8) (hr : read.length < 3) :
        stringStep acc (.hex read) b = .more acc (.hex (read ++ [b])) := if_pos hr
    have h3 : stringStep acc (.hex [a, b, c]) d =
        .more (.unit (digits.foldl (fun n d => 16 * n + d) 0) :: acc) .plain := by
      simp only [stringStep, List.length_cons, List.length_nil, Nat.reduceAdd, Nat.lt_irrefl,
        ↓reduceIte, List.cons_append, List.nil_append, hd]
    simp only [List.cons_append, List.nil_append, Json.spell, h0, h1, h2, h3, List.length_cons,
      List.length_nil, Nat.reduceAdd, Nat.reduceLT]

theorem BodyText.spell {l acc : List Piece} (h : BodyText l s) (t : List UInt8) :
    spell acc .plain (s ++ t) = Json.spell (l.reverse ++ acc) .plain t := by
  induction h generalizing t with
  | empty => rfl
  | piece _ hp ih =>
    rw [List.append_assoc, ih, hp.spell, List.reverse_append]
    rfl

theorem BodyText.spell_self {l : List Piece} (h : BodyText l s) :
    Json.spell [] .plain s = some (l.reverse, .plain) := by
  have hs := @spell _ l [] h []
  rw [List.append_nil, List.append_nil] at hs
  exact hs

theorem StringText.run {t : Spelling} {place : Place} (h : StringText t s)
    (hp : place.begins = true) :
    run (.reading frames place) (s ++ w) = Json.run (deliver frames (.string t)) w := by
  obtain ⟨hb⟩ := h
  rw [List.cons_append, run_cons, step_begin hp rfl (by decide), List.append_assoc, run_append]
  have hq : beginValue frames 0x22 = .reading frames (.string [] .plain) := rfl
  rw [hq, foldl_string hb.spell_self, List.cons_append, run_cons]
  simp only [State.step, stringStep, ↓reduceIte, List.reverse_reverse, List.nil_append]

theorem StringText.run_name {t : Spelling} {place : Place} {members : List (Spelling × Node)}
    {name? : Option Spelling} (h : StringText t s) (hp : place = .firstName ∨ place = .name) :
    Json.run (.reading (.object members name? :: frames) place) (s ++ w) =
      Json.run (.reading (.object members (some t) :: frames) .colon) w := by
  obtain ⟨hb⟩ := h
  have hq : State.step (.reading (.object members name? :: frames) place) 0x22 =
      .reading (.object members name? :: frames) (.nameString [] .plain) := by
    rcases hp with rfl | rfl <;> rfl
  rw [List.cons_append, run_cons, hq, List.append_assoc, run_append,
    foldl_nameString hb.spell_self, List.cons_append, run_cons]
  simp only [State.step, stringStep, ↓reduceIte, List.reverse_reverse, List.nil_append]

theorem digit?_eq_some {d : Nat} (h : digit? b = some d) : d < 10 ∧ b = .ofNat (0x30 + d) := by
  rw [digit?] at h
  split at h
  next hb =>
    cases h
    refine ⟨by omega, ?_⟩
    rw [Nat.add_sub_cancel' hb.1, UInt8.ofNat_toNat]
  next => cases h

/-- The literal that reading a number has come to. -/
inductive Begun : Literal → NumberPoint → List UInt8 → Prop where
  | minus : Begun { negative := true } .sign [0x2D]
  | digit {l : Literal} {point : NumberPoint} {b : UInt8} :
      numberStep {} .sign b = some (l, point) → Begun l point [b]
  | step {l l' : Literal} {point point' : NumberPoint} {s : List UInt8} {b : UInt8} :
      Begun l point s → numberStep l point b = some (l', point') → Begun l' point' (s ++ [b])

section Numbers

variable {l : Literal} {point : NumberPoint} {negative fractional : Bool} {digits : List Nat}

theorem Begun.foldl {place : Place} (h : Begun l point s) (hp : place.begins = true) :
    s.foldl State.step (.reading frames place) = .reading frames (.number l point) := by
  induction h with
  | minus => exact step_begin hp rfl (by decide)
  | @digit l point b hb =>
    obtain ⟨d, hd⟩ : ∃ d, digit? b = some d := by
      cases hd : digit? b with
      | none =>
        simp only [numberStep, hd, reduceCtorEq] at hb
      | some d => exact ⟨d, rfl⟩
    obtain ⟨hl, rfl⟩ := digit?_eq_some hd
    simp only [numberStep, hd, Option.some.injEq, Prod.mk.injEq] at hb
    obtain ⟨rfl, rfl⟩ := hb
    rw [List.foldl_cons, List.foldl_nil, step_begin hp (isBlank_digit d hl), beginValue_digit hl]
    intro he
    have ht : (UInt8.ofNat (0x30 + d)).toNat = 0x30 + d := Utf8.toNat_ofNat_of_lt (by omega)
    rw [he] at ht
    change 0x5D = _ at ht
    omega
  | step _ hb ih =>
    simp only [List.foldl_append, ih, List.foldl_cons, List.foldl_nil, State.step, hb]

theorem SignText.begun {d : Nat} (h : SignText negative s) (hd : digit? b = some d) :
    Begun { negative, whole := [d] } (if d = 0 then .lead else .whole) (s ++ [b]) := by
  cases h with
  | none => exact .digit (by simp only [numberStep, hd])
  | minus => exact .step .minus (by simp only [numberStep, hd])

theorem WholeText.begun (h : WholeText digits t) (hs : SignText negative s) :
    ∃ point, (point = .lead ∨ point = .whole) ∧
      Begun { negative, whole := digits } point (s ++ t) := by
  cases h with
  | zero => exact ⟨.lead, .inl rfl, hs.begun rfl⟩
  | @digits d l t hd h =>
    refine ⟨.whole, .inr rfl, ?_⟩
    generalize hl : d :: l = digits at h
    induction h generalizing d l with
    | one hb =>
      cases hl
      have hw := hs.begun hb
      rw [if_neg hd] at hw
      exact hw
    | @more l' s' b e h hb ih =>
      cases l' with
      | nil => exact absurd rfl h.ne_nil
      | cons d' l' =>
        cases hl
        rw [← List.append_assoc]
        exact (ih hd rfl).step (by simp only [numberStep, hb])

theorem FractionText.begun (h : FractionText fractional digits t)
    (hp : point = .lead ∨ point = .whole) (hb : Begun l point s) (hf : l.fractional = false)
    (he : l.fraction = []) :
    ∃ point, (point = .lead ∨ point = .whole ∨ point = .fraction) ∧
      Begun { l with fractional, fraction := digits } point (s ++ t) := by
  cases h with
  | none =>
    rw [List.append_nil, ← hf, ← he]
    exact ⟨point, hp.imp_right .inl, hb⟩
  | @digits _ t h =>
    have hd : Begun { l with fractional := true } .dot (s ++ [0x2E]) :=
      hb.step (by rcases hp with rfl | rfl <;> rfl)
    refine ⟨.fraction, .inr (.inr rfl), ?_⟩
    rw [List.append_cons]
    induction h with
    | one hb =>
      refine hd.step ?_
      simp [numberStep, hb, he]
    | more _ hb ih =>
      rw [← List.append_assoc]
      exact ih.step (by simp only [numberStep, hb])

theorem MarkText.begun (h : MarkText negative t)
    (hp : point = .lead ∨ point = .whole ∨ point = .fraction) (hb : Begun l point s)
    (hn : l.exponentNegative = false) :
    ∃ point, (point = .mark ∨ point = .markSign) ∧
      Begun { l with exponentNegative := negative } point (s ++ t) := by
  have mark {b : UInt8} (he : b = 0x65 ∨ b = 0x45) : Begun l .mark (s ++ [b]) := by
    refine hb.step ?_
    rcases he with rfl | rfl <;> rcases hp with rfl | rfl | rfl <;> rfl
  cases h with
  | plain he =>
    rw [← hn]
    exact ⟨.mark, .inl rfl, mark he⟩
  | plus he =>
    rw [← hn, List.append_cons]
    exact ⟨.markSign, .inr rfl, (mark he).step rfl⟩
  | minus he =>
    rw [List.append_cons]
    exact ⟨.markSign, .inr rfl, (mark he).step rfl⟩

theorem ExponentText.begun (h : ExponentText negative digits t)
    (hp : point = .lead ∨ point = .whole ∨ point = .fraction) (hb : Begun l point s)
    (hn : l.exponentNegative = false) (he : l.exponent = []) :
    ∃ point, point.complete = true ∧
      Begun { l with exponentNegative := negative, exponent := digits } point (s ++ t) := by
  cases h with
  | none =>
    rw [List.append_nil, ← hn, ← he]
    exact ⟨point, by rcases hp with rfl | rfl | rfl <;> rfl, hb⟩
  | @digits _ _ u v hm hd =>
    obtain ⟨point', hp', hb'⟩ := hm.begun hp hb hn
    refine ⟨.exponent, rfl, ?_⟩
    rw [← List.append_assoc]
    induction hd with
    | one hb =>
      refine hb'.step ?_
      rcases hp' with rfl | rfl <;> simp [numberStep, hb, he]
    | more _ hb ih =>
      rw [← List.append_assoc]
      exact ih.step (by simp only [numberStep, hb])

theorem NumberText.begun (h : NumberText l s) :
    ∃ point, point.complete = true ∧ Begun l point s := by
  obtain ⟨hs, hw, hf, he⟩ := h
  obtain ⟨point, hp, hb⟩ := hw.begun hs
  obtain ⟨point, hp, hb⟩ := hf.begun hp hb rfl rfl
  have hc := he.begun hp hb rfl rfl
  cases l
  exact hc

theorem deliver_cases (frames : List Frame) (n : Node) : deliver frames n = .done n false ∨
    (∃ frames', deliver frames n = .reading frames' .next) ∨
      ∃ root, deliver frames n = .failed root := by
  cases frames with
  | nil => exact .inl rfl
  | cons frame frames =>
    cases frame with
    | array items => exact .inr (.inl ⟨_, rfl⟩)
    | object members name? =>
      cases name? with
      | none => exact .inr (.inr ⟨_, rfl⟩)
      | some name => exact .inr (.inl ⟨_, rfl⟩)
    | misnamed members => exact .inr (.inr ⟨_, rfl⟩)

theorem step_number (hp : point.complete = true) (hb : numberStep l point b = none)
    (hd : (decide (point = .lead) && (digit? b).isSome) = false) :
    State.step (.reading frames (.number l point)) b =
      State.step (deliver frames (.scalar (.number l.number))) b := by
  simp only [State.step, hb, hp, hd, Bool.not_true, Bool.or_self, Bool.false_eq_true, ↓reduceIte]
  rcases deliver_cases frames (.scalar (.number l.number)) with hs | ⟨frames', hs⟩ | ⟨root, hs⟩ <;>
    rw [hs]

/-- Where a number may end, it is delivered by the end of the text or by the byte after it. -/
theorem run_number (hp : point.complete = true) (hw : Terminated w) :
    run (.reading frames (.number l point)) w =
      run (deliver frames (.scalar (.number l.number))) w := by
  cases w with
  | nil =>
    simp only [run_nil, State.finish, hp, ↓reduceIte]
    rcases deliver_cases frames (.scalar (.number l.number))
      with hs | ⟨frames', hs⟩ | ⟨root, hs⟩ <;>
      rw [hs]
  | cons b w =>
    have hb := hw b rfl
    have hn : digit? b = none ∧ b ≠ 0x2E ∧ ¬(b = 0x65 ∨ b = 0x45) := by
      rw [isBlank] at hb
      simp only [Bool.or_eq_true, beq_iff_eq] at hb
      rcases hb with ((((rfl | rfl) | rfl) | rfl) | rfl | rfl | rfl) <;> decide
    have hs : numberStep l point b = none := by
      cases point <;> first
        | simp only [numberStep, hn.1, if_neg hn.2.1, if_neg hn.2.2]; done
        | cases hp
    rw [run_cons, run_cons, step_number hp hs (by rw [hn.1, Option.isSome_none, Bool.and_false])]

end Numbers

theorem NumberText.run {l : Literal} {place : Place} (h : NumberText l s) (hp : place.begins = true)
    (hw : Terminated w) : run (.reading frames place) (s ++ w) =
      Json.run (deliver frames (.scalar (.number l.number))) w := by
  obtain ⟨point, hc, hb⟩ := h.begun
  rw [run_append, hb.foldl hp, run_number hc hw]

/-- Where a phrase leads that is read inside open containers. -/
def Phrase.Leads : Phrase → List UInt8 → Prop
  | .value n, s => ∀ frames place w, place.begins = true → Terminated w →
    run (.reading frames place) (s ++ w) = run (deliver frames n) w
  | .element n, s => ∀ frames place w, place.begins = true → Terminated w →
    run (.reading frames place) (s ++ w) = run (deliver frames n) w
  | .elements l, s => ∀ frames w, Terminated w →
    run (.reading (.array [] :: frames) .firstItem) (s ++ w) =
      run (.reading (.array l.reverse :: frames) .next) w
  | .member m, s => ∀ frames members name? place w, place = .firstName ∨ place = .name →
    Terminated w → run (.reading (.object members name? :: frames) place) (s ++ w) =
      run (.reading (.object (m :: members) none :: frames) .next) w
  | .members l, s => ∀ frames w, Terminated w →
    run (.reading (.object [] none :: frames) .firstName) (s ++ w) =
      run (.reading (.object l.reverse none :: frames) .next) w

/-- A value that ends with a byte of its own leads on from behind its first byte. -/
theorem leads_behind {n : Node} {d : UInt8} (hb : isBlank b = false) (hd : b ≠ 0x5D)
    (h : ∀ frames w, run (beginValue frames b) (s ++ d :: w) = run (deliver frames n) w) :
    (Phrase.value n).Leads (b :: (s ++ [d])) := by
  intro frames place w hp _
  rw [List.cons_append, run_cons, step_begin hp hb hd, List.append_assoc]
  exact h frames w

theorem Derives.leads {p : Phrase} (h : Derives p s) : p.Leads s := by
  have comma {t : List UInt8} : Terminated (0x2C :: t) := terminated_cons (.inr (.inl rfl))
  have bracket {t : List UInt8} : Terminated (0x5D :: t) :=
    terminated_cons (.inr (.inr (.inl rfl)))
  have brace {t : List UInt8} : Terminated (0x7D :: t) := terminated_cons (.inr (.inr (.inr rfl)))
  induction h with
  | null => exact fun frames place w hp _ => by cases place <;> first | rfl | cases hp
  | yes => exact fun frames place w hp _ => by cases place <;> first | rfl | cases hp
  | no => exact fun frames place w hp _ => by cases place <;> first | rfl | cases hp
  | number h => exact fun frames place w hp hw => h.run hp hw
  | string h => exact fun frames place w hp _ => h.run hp
  | emptyArray hs =>
    refine leads_behind rfl (by decide) fun frames w => ?_
    exact @run_blanks _ _ _ .firstItem rfl hs
  | @array l s h ih =>
    refine leads_behind rfl (by decide) fun frames w => ?_
    have hs : State.step (.reading (.array l.reverse :: frames) .next) 0x5D =
        deliver frames (.array l.reverse.reverse none) := rfl
    rw [l.reverse_reverse] at hs
    exact (ih frames _ bracket).trans (by rw [run_cons, hs])
  | emptyObject hs =>
    refine leads_behind rfl (by decide) fun frames w => ?_
    exact @run_blanks _ _ _ .firstName rfl hs
  | @object l s h ih =>
    refine leads_behind rfl (by decide) fun frames w => ?_
    have hs : State.step (.reading (.object l.reverse none :: frames) .next) 0x7D =
        deliver frames (.object l.reverse.reverse .closed) := rfl
    rw [l.reverse_reverse] at hs
    exact (ih frames _ brace).trans (by rw [run_cons, hs])
  | element ha h hb ih =>
    intro frames place w hp hw
    have hp' : place.passesBlanks = true := by
      cases place <;> first | rfl | cases hp
    rw [List.append_assoc, run_blanks hp' ha, List.append_assoc,
      ih frames place _ hp (hb.terminated hw), run_deliver_blanks _ hb]
  | firstElement h ih => exact fun frames w hw => ih _ _ w rfl hw
  | @nextElement l n s t _ _ ihs iht =>
    intro frames w hw
    have hb : State.step (.reading (.array l.reverse :: frames) .next) 0x2C =
        .reading (.array l.reverse :: frames) .value := rfl
    rw [List.append_assoc, List.cons_append, ihs frames _ comma, run_cons, hb,
      iht _ _ w rfl hw, List.reverse_append]
    rfl
  | @member name n a s b t ha hs hb _ ih =>
    intro frames members name? place w hp hw
    have hp' : place.passesBlanks = true := by
      rcases hp with rfl | rfl <;> rfl
    have hc : State.step (.reading (.object members (some name) :: frames) .colon) 0x3A =
        .reading (.object members (some name) :: frames) .value := rfl
    rw [List.append_assoc, run_blanks hp' ha, List.append_assoc, hs.run_name hp, List.append_assoc,
      run_blanks rfl hb, List.cons_append, run_cons, hc, ih _ _ w rfl hw]
    rfl
  | firstMember h ih => exact fun frames w hw => ih frames [] none _ w (.inl rfl) hw
  | @nextMember l m s t _ _ ihs iht =>
    intro frames w hw
    have hb : State.step (.reading (.object l.reverse none :: frames) .next) 0x2C =
        .reading (.object l.reverse none :: frames) .name := rfl
    rw [List.append_assoc, List.cons_append, ihs frames _ comma, run_cons, hb,
      iht _ _ _ _ w (.inr rfl) hw, List.reverse_append]
    rfl

theorem read_text {n : Node} (h : Text n s) : read s = ⟨n, false⟩ := by
  have hl := h.leads [] .value [] rfl terminated_nil
  rw [List.append_nil] at hl
  exact hl

theorem Text.unique {n n' : Node} (h : Text n s) (h' : Text n' s) : n = n' :=
  congrArg Document.root ((read_text h).symm.trans (read_text h'))

end EventRouting.Json
