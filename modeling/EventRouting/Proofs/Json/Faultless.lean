import EventRouting.Proofs.Json.Grammar
import Mathlib.Data.List.Induction
import Mathlib.Data.Option.Basic

namespace EventRouting.Json

variable {frames : List Frame} {place : Place} {st : State} {b : UInt8} {s t u : List UInt8}
  {n : Node}

theorem faultItems?_eq_none {l : List Node} :
    Node.faultItems? l = none ↔ ∀ n ∈ l, n.fault? = none := by
  induction l with
  | nil => exact iff_of_true rfl nofun
  | cons n l ih => rw [Node.faultItems?, Option.orElse_eq_none, ih, List.forall_mem_cons]

theorem faultMembers?_eq_none {l : List (Spelling × Node)} :
    Node.faultMembers? l = none ↔ ∀ m ∈ l, m.1.fault? = none ∧ m.2.fault? = none := by
  induction l with
  | nil => exact iff_of_true rfl nofun
  | cons m l ih =>
    obtain ⟨name, n⟩ := m
    rw [Node.faultMembers?, Option.orElse_eq_none, Option.orElse_eq_none, ih, List.forall_mem_cons,
      and_assoc]

theorem ending_fault?_eq_none {e : Ending} : e.fault? = none ↔ e = .closed := by
  cases e <;> simp [Ending.fault?]

theorem array_fault?_eq_none {items : List Node} {fault? : Option Fault} :
    (Node.array items fault?).fault? = none ↔
      (∀ n ∈ items, n.fault? = none) ∧ fault? = none := by
  rw [Node.fault?, Option.orElse_eq_none, faultItems?_eq_none]

theorem object_fault?_eq_none {members : List (Spelling × Node)} {ending : Ending} :
    (Node.object members ending).fault? = none ↔
      (∀ m ∈ members, m.1.fault? = none ∧ m.2.fault? = none) ∧ ending = .closed := by
  rw [Node.fault?, Option.orElse_eq_none, faultMembers?_eq_none, ending_fault?_eq_none]

/-- What the node of a phrase must fulfil to be without faults. -/
def Phrase.Faultless : Phrase → Prop
  | .value n | .element n => n.fault? = none
  | .elements l => ∀ n ∈ l, n.fault? = none
  | .member m => m.1.fault? = none ∧ m.2.fault? = none
  | .members l => ∀ m ∈ l, m.1.fault? = none ∧ m.2.fault? = none

theorem Derives.faultless {p : Phrase} (h : Derives p s) : p.Faultless := by
  induction h with
  | null | yes | no | number => rfl
  | string h => cases h; rfl
  | emptyArray => rfl
  | array _ ih => exact array_fault?_eq_none.mpr ⟨ih, rfl⟩
  | emptyObject => rfl
  | object _ ih => exact object_fault?_eq_none.mpr ⟨ih, rfl⟩
  | element _ _ _ ih => exact ih
  | firstElement _ ih => exact List.forall_mem_singleton.mpr ih
  | nextElement _ _ ihs iht =>
    exact List.forall_mem_append.mpr ⟨ihs, List.forall_mem_singleton.mpr iht⟩
  | member _ hs _ _ ih => cases hs; exact ⟨rfl, ih⟩
  | firstMember _ ih => exact List.forall_mem_singleton.mpr ih
  | nextMember _ _ ihs iht =>
    exact List.forall_mem_append.mpr ⟨ihs, List.forall_mem_singleton.mpr iht⟩

theorem Text.faultless (h : Text n s) : n.fault? = none := Derives.faultless h

/-- The tree has a fault somewhere. -/
def Node.Faulty (n : Node) : Prop := n.fault? ≠ none

/-- Another value stands in the place of a name. -/
def Misnamed (frames : List Frame) : Prop := ∃ members, .misnamed members ∈ frames

theorem Misnamed.cons (h : Misnamed frames) (frame : Frame) : Misnamed (frame :: frames) :=
  h.imp fun _ => .tail _

theorem misnamed_array {items : List Node} :
    Misnamed (.array items :: frames) ↔ Misnamed frames := by
  simp [Misnamed]

theorem misnamed_object {members : List (Spelling × Node)} {name? : Option Spelling} :
    Misnamed (.object members name? :: frames) ↔ Misnamed frames := by
  simp [Misnamed]

theorem collapse_faulty (h : n.Faulty ∨ Misnamed frames) : (collapse frames n).Faulty := by
  induction frames generalizing n with
  | nil => exact h.resolve_right nofun
  | cons frame frames ih =>
    cases frame with
    | array items =>
      refine ih (h.imp (fun h hn => h ?_) misnamed_array.mp)
      exact (array_fault?_eq_none.mp hn).1 n (List.mem_reverse.mpr (.head _))
    | object members name? =>
      cases name? with
      | none => exact ih (.inl fun hn => nomatch (object_fault?_eq_none.mp hn).2)
      | some name =>
        refine ih (h.imp (fun h hn => h ?_) misnamed_object.mp)
        exact ((object_fault?_eq_none.mp hn).1 (name, n) (List.mem_reverse.mpr (.head _))).2
    | misnamed members =>
      exact ih (.inl fun hn => nomatch (object_fault?_eq_none.mp hn).2)

theorem breakOff_faulty (frames : List Frame) (place : Place) (f : Fault) :
    (breakOff frames place f).Faulty := by
  have broken (frames : List Frame) : (collapse frames (.broken f)).Faulty :=
    collapse_faulty (.inl nofun)
  unfold breakOff
  split
  case h_1 | h_2 =>
    exact collapse_faulty (.inl fun h => nomatch (array_fault?_eq_none.mp h).2)
  case h_3 =>
    exact collapse_faulty (.inl fun h => nomatch (object_fault?_eq_none.mp h).2)
  case h_4 => exact collapse_faulty (.inl nofun)
  case h_5 =>
    refine collapse_faulty (.inl fun h => ?_)
    cases ((object_fault?_eq_none.mp h).1 _ (List.mem_reverse.mpr (.head _))).2
  case h_6 | h_7 => exact collapse_faulty (.inl nofun)
  case h_8 => exact broken _

/-- No text of the grammar goes on from here. -/
def State.Doomed : State → Prop
  | .reading frames _ => Misnamed frames
  | .done _ _ => False
  | .failed root => root.Faulty

theorem deliver_doomed (h : Misnamed frames) (n : Node) : (deliver frames n).Doomed := by
  cases frames with
  | nil => exact absurd h nofun
  | cons frame frames =>
    cases frame with
    | array items => exact (misnamed_array.mp h).cons _
    | object members name? =>
      cases name? with
      | none => exact collapse_faulty (.inr ⟨members, .head _⟩)
      | some name => exact (misnamed_object.mp h).cons _
    | misnamed members => exact collapse_faulty (.inr h)

theorem beginValue_doomed (h : Misnamed frames) (b : UInt8) : (beginValue frames b).Doomed := by
  unfold beginValue
  split_ifs
  · exact h
  · exact h.cons _
  · exact h.cons _
  · exact h
  · exact h
  · exact h
  · exact h
  · split
    · exact h
    · exact breakOff_faulty _ _ _

theorem continueAfter_doomed (h : Misnamed frames) (b : UInt8) :
    (continueAfter frames b).Doomed := by
  unfold continueAfter
  split
  · split_ifs
    · exact h
    · exact deliver_doomed (misnamed_array.mp h) _
    · exact breakOff_faulty _ _ _
  · split_ifs
    · exact h
    · exact deliver_doomed (misnamed_object.mp h) _
    · exact breakOff_faulty _ _ _
  · exact breakOff_faulty _ _ _

theorem beginName_doomed {members : List (Spelling × Node)} {name? : Option Spelling}
    (h : b ≠ 0x22) : (beginName (.object members name? :: frames) b).Doomed := by
  rw [beginName, if_neg h]
  exact beginValue_doomed ⟨members, .head _⟩ b

theorem State.Doomed.step (h : st.Doomed) (b : UInt8) : (st.step b).Doomed := by
  cases st with
  | failed root => exact h
  | done root trailing => exact h.elim
  | reading frames place =>
    have h : Misnamed frames := h
    have name : (beginName frames b).Doomed := by
      unfold beginName
      split_ifs
      · exact h
      · split
        · exact beginValue_doomed ((misnamed_object.mp h).cons _) b
        · exact breakOff_faulty _ _ _
    unfold State.step
    cases place with
    | value => exact iteInduction (fun _ => h) fun _ => beginValue_doomed h b
    | firstItem =>
      exact iteInduction (fun _ => h) fun _ =>
        iteInduction (fun _ => continueAfter_doomed h b) fun _ => beginValue_doomed h b
    | firstName =>
      exact iteInduction (fun _ => h) fun _ =>
        iteInduction (fun _ => continueAfter_doomed h b) fun _ => name
    | name => exact iteInduction (fun _ => h) fun _ => name
    | colon =>
      exact iteInduction (fun _ => h) fun _ =>
        iteInduction (fun _ => h) fun _ => breakOff_faulty _ _ _
    | next => exact iteInduction (fun _ => h) fun _ => continueAfter_doomed h b
    | string pieces point =>
      dsimp only
      split
      · exact h
      · exact deliver_doomed h _
      · exact breakOff_faulty _ _ _
    | nameString pieces point =>
      dsimp only
      split
      · exact h
      · exact (misnamed_object.mp h).cons _
      · exact breakOff_faulty _ _ _
    | word left s =>
      cases left with
      | nil => exact deliver_doomed h _
      | cons c left =>
        exact iteInduction (fun _ => breakOff_faulty _ _ _) fun _ =>
          iteInduction (fun _ => deliver_doomed h _) fun _ => h
    | number l point =>
      dsimp only
      split
      · exact h
      · refine iteInduction (fun _ => breakOff_faulty _ _ _) fun _ => ?_
        have hd := deliver_doomed h (.scalar (.number l.number))
        split
        next hs =>
          rw [hs] at hd
          exact iteInduction (fun _ => hd) fun _ => continueAfter_doomed hd b
        next hs =>
          rw [hs] at hd
          exact hd.elim
        next => exact hd

theorem State.Doomed.finish (h : st.Doomed) : st.finish.root.Faulty := by
  cases st with
  | failed root => exact h
  | done root trailing => exact h.elim
  | reading frames place =>
    have broken : (breakOff frames place .ended).Faulty := breakOff_faulty _ _ _
    cases place with
    | number l point =>
      have hd := deliver_doomed h (.scalar (.number l.number))
      unfold State.finish
      dsimp only
      split
      · split
        next hs => exact breakOff_faulty _ _ _
        next hs =>
          rw [hs] at hd
          exact hd.elim
        next hs =>
          rw [hs] at hd
          exact hd
      · exact broken
    | _ => exact broken

theorem spell_append {acc : List Piece} {point : StringPoint} (s t : List UInt8) :
    spell acc point (s ++ t) = (spell acc point s).bind fun r => spell r.1 r.2 t := by
  induction s generalizing acc point with
  | nil => rfl
  | cons b s ih =>
    rw [List.cons_append, spell, spell]
    cases stringStep acc point b with
    | more acc point => exact ih
    | closed => rfl
    | malformed => rfl

/-- What is left over of the text of an element that is begun. -/
def StringPoint.Rest : StringPoint → List UInt8 → Prop
  | .plain, t => t = []
  | .escape, t => t = [0x5C]
  | .hex read, t => t = 0x5C :: 0x75 :: read ∧ read.length < 4

theorem spell_body {pieces : List Piece} {point : StringPoint}
    (h : spell [] .plain u = some (pieces, point)) :
    ∃ s t, u = s ++ t ∧ BodyText pieces.reverse s ∧ point.Rest t := by
  induction u using List.reverseRecOn generalizing pieces point with
  | nil =>
    cases h
    exact ⟨[], [], rfl, .empty, rfl⟩
  | append_singleton u b ih =>
    rw [spell_append] at h
    obtain ⟨⟨acc, point'⟩, hu, hb⟩ := Option.bind_eq_some_iff.mp h
    obtain ⟨s, t, rfl, hs, ht⟩ := ih hu
    obtain ⟨pieces', point'', hb, he⟩ := spell_cons hb
    cases he
    have piece {p : Piece} {v : List UInt8} (hp : PieceText p v) (hv : t ++ [b] = v) :
        ∃ s' t', s ++ t ++ [b] = s' ++ t' ∧ BodyText (p :: acc).reverse s' ∧
          StringPoint.plain.Rest t' := by
      refine ⟨s ++ v, [], ?_, ?_, rfl⟩
      · rw [List.append_assoc, hv, List.append_nil]
      · rw [List.reverse_cons]
        exact hs.piece hp
    have more {point : StringPoint} (hr : point.Rest (t ++ [b])) :
        ∃ s' t', s ++ t ++ [b] = s' ++ t' ∧ BodyText acc.reverse s' ∧ point.Rest t' :=
      ⟨s, t ++ [b], List.append_assoc _ _ _, hs, hr⟩
    cases point' with
    | plain =>
      obtain rfl : t = [] := ht
      unfold stringStep at hb
      dsimp only at hb
      split_ifs at hb with h1 h2 h3
      · cases hb
        exact more (congrArg (· :: []) h2)
      · cases hb
        exact piece (.byte h1 h2 h3) rfl
    | escape =>
      obtain rfl : t = [0x5C] := ht
      unfold stringStep at hb
      dsimp only at hb
      split_ifs at hb with h1
      · cases hb
        exact more ⟨by rw [h1]; rfl, by decide⟩
      · split at hb
        next c hc =>
          cases hb
          exact piece (.letter hc) rfl
        next => cases hb
    | hex read =>
      obtain ⟨rfl, hr⟩ := ht
      unfold stringStep at hb
      dsimp only at hb
      split_ifs at hb with h1
      · cases hb
        exact more ⟨rfl, by simp; omega⟩
      · split at hb
        next digits hd =>
          cases hb
          refine piece (.unit ?_ hd) rfl
          simp
          omega
        next => cases hb

theorem string_of_spell {pieces : List Piece} (h : spell [] .plain u = some (pieces, .plain)) :
    StringText ⟨pieces.reverse, none⟩ (0x22 :: (u ++ [0x22])) := by
  obtain ⟨s, t, rfl, hs, ht⟩ := spell_body h
  obtain rfl : t = [] := ht
  rw [List.append_nil]
  exact .quoted hs

/-- What has been read of a number, by the part that was read last. -/
inductive Parts : Literal → NumberPoint → List UInt8 → Prop where
  | sign : Parts { negative := true } .sign [0x2D]
  | lead {n : Bool} {a : List UInt8} : SignText n a →
      Parts { negative := n, whole := [0] } .lead (a ++ [0x30])
  | whole {n : Bool} {a t : List UInt8} {d : Nat} {w : List Nat} : SignText n a → d ≠ 0 →
      DigitsText (d :: w) t → Parts { negative := n, whole := d :: w } .whole (a ++ t)
  | dot {n : Bool} {a t : List UInt8} {w : List Nat} : SignText n a → WholeText w t →
      Parts { negative := n, whole := w, fractional := true } .dot (a ++ t ++ [0x2E])
  | fraction {n : Bool} {a t u : List UInt8} {w f : List Nat} : SignText n a → WholeText w t →
      DigitsText f u →
      Parts { negative := n, whole := w, fraction := f, fractional := true } .fraction
        (a ++ t ++ 0x2E :: u)
  | mark {n r : Bool} {a t u : List UInt8} {w f : List Nat} {b : UInt8} : SignText n a →
      WholeText w t → FractionText r f u → b = 0x65 ∨ b = 0x45 →
      Parts { negative := n, whole := w, fraction := f, fractional := r } .mark (a ++ t ++ u ++ [b])
  | markSign {n r e : Bool} {a t u m : List UInt8} {w f : List Nat} : SignText n a →
      WholeText w t → FractionText r f u → MarkText e m →
      Parts { negative := n, whole := w, fraction := f, fractional := r, exponentNegative := e }
        .markSign (a ++ t ++ u ++ m)
  | exponent {n r e : Bool} {a t u m v : List UInt8} {w f x : List Nat} : SignText n a →
      WholeText w t → FractionText r f u → MarkText e m → DigitsText x v →
      Parts ⟨n, w, f, r, e, x⟩ .exponent (a ++ t ++ u ++ (m ++ v))

section Numbers

variable {l l' : Literal} {point point' : NumberPoint}

theorem Parts.of_sign {n : Bool} {d : Nat} (hs : SignText n s) (hd : digit? b = some d) :
    Parts { negative := n, whole := [d] } (if d = 0 then .lead else .whole) (s ++ [b]) := by
  split_ifs with h0
  · subst h0
    rw [(digit?_eq_some hd).2]
    exact .lead hs
  · exact .whole hs h0 (.one hd)

theorem Parts.step (h : Parts l point s) (hb : numberStep l point b = some (l', point')) :
    Parts l' point' (s ++ [b]) := by
  have mark {n r : Bool} {a t u : List UInt8} {w f : List Nat} (hn : SignText n a)
      (hw : WholeText w t) (hf : FractionText r f u) (he : b = 0x65 ∨ b = 0x45) :
      Parts { negative := n, whole := w, fraction := f, fractional := r } .mark
        (a ++ t ++ u ++ [b]) := .mark hn hw hf he
  cases hd : digit? b with
  | some d =>
    cases h <;> simp only [numberStep, hd, Option.some.injEq, Prod.mk.injEq, reduceCtorEq] at hb <;>
      obtain ⟨rfl, rfl⟩ := hb
    case sign => exact .of_sign .minus hd
    case whole n a t e w hn he ht =>
      rw [List.append_assoc]
      exact .whole hn he (ht.more hd)
    case dot n a t w hn hw =>
      rw [List.append_assoc]
      exact .fraction hn hw (.one hd)
    case fraction n a t u w f hn hw hf =>
      rw [List.append_assoc]
      exact .fraction hn hw (hf.more hd)
    case mark n r a t u w f c hn hw hf he =>
      rw [List.append_assoc]
      exact .exponent hn hw hf (.plain he) (.one hd)
    case markSign n r e a t u m w f hn hw hf hm =>
      rw [List.append_assoc]
      exact .exponent hn hw hf hm (.one hd)
    case exponent n r e a t u m v w f x hn hw hf hm hx =>
      rw [List.append_assoc (a ++ t ++ u), List.append_assoc m]
      exact .exponent hn hw hf hm (hx.more hd)
  | none =>
    cases h
    all_goals simp only [numberStep, hd, reduceCtorEq] at hb
    case lead n a hn =>
      split_ifs at hb with h1 h2 <;> cases hb
      · rw [h1]
        exact .dot hn .zero
      · rw [← List.append_nil (a ++ [0x30])]
        exact mark hn .zero .none h2
    case whole n a t e w hn he ht =>
      split_ifs at hb with h1 h2 <;> cases hb
      · rw [h1]
        exact .dot hn (.digits he ht)
      · rw [← List.append_nil (a ++ t)]
        exact mark hn (.digits he ht) .none h2
    case fraction n a t u w f hn hw hf =>
      split_ifs at hb with h1
      cases hb
      exact mark hn hw (.digits hf) h1
    case mark n r a t u w f c hn hw hf he =>
      split_ifs at hb with h1 h2 <;> cases hb
      · rw [h1, List.append_assoc]
        exact .markSign hn hw hf (.plus he)
      · rw [h2, List.append_assoc]
        exact .markSign hn hw hf (.minus he)

theorem Begun.parts (h : Begun l point s) : Parts l point s := by
  induction h with
  | minus => exact .sign
  | @digit l point b h =>
    cases hd : digit? b with
    | none => simp only [numberStep, hd, reduceCtorEq] at h
    | some d =>
      simp only [numberStep, hd, Option.some.injEq, Prod.mk.injEq] at h
      obtain ⟨rfl, rfl⟩ := h
      exact .of_sign .none hd
  | step _ hb ih => exact ih.step hb

theorem Parts.number (h : Parts l point s) (hp : point.complete = true) : NumberText l s := by
  cases h with
  | sign | dot | mark | markSign => cases hp
  | @lead n a hn =>
    have hs : NumberText { negative := n, whole := [0] } (a ++ [0x30] ++ [] ++ []) :=
      .parts hn .zero .none .none
    rwa [List.append_nil, List.append_nil] at hs
  | @whole n a t d w hn hd ht =>
    have hs : NumberText { negative := n, whole := d :: w } (a ++ t ++ [] ++ []) :=
      .parts hn (.digits hd ht) .none .none
    rwa [List.append_nil, List.append_nil] at hs
  | @fraction n a t u w f hn hw hf =>
    have hs : NumberText { negative := n, whole := w, fraction := f, fractional := true }
        (a ++ t ++ 0x2E :: u ++ []) := .parts hn hw (.digits hf) .none
    rwa [List.append_nil] at hs
  | exponent hn hw hf hm hx => exact .parts hn hw hf (.digits hm hx)

end Numbers

/-- Elements with the comma after them. -/
inductive ElementsBefore : List Node → List UInt8 → Prop where
  | none : ElementsBefore [] []
  | some {l : List Node} {s : List UInt8} : Derives (.elements l) s →
      ElementsBefore l (s ++ [0x2C])

theorem ElementsBefore.element {l : List Node} (h : ElementsBefore l s)
    (hn : Derives (.element n) t) : Derives (.elements (l ++ [n])) (s ++ t) := by
  cases h with
  | none => exact .firstElement hn
  | some h =>
    rw [List.append_assoc]
    exact .nextElement h hn

/-- Members with the comma after them. -/
inductive MembersBefore : List (Spelling × Node) → List UInt8 → Prop where
  | none : MembersBefore [] []
  | some {l : List (Spelling × Node)} {s : List UInt8} : Derives (.members l) s →
      MembersBefore l (s ++ [0x2C])

theorem MembersBefore.member {l : List (Spelling × Node)} {m : Spelling × Node}
    (h : MembersBefore l s) (hm : Derives (.member m) t) :
    Derives (.members (l ++ [m])) (s ++ t) := by
  cases h with
  | none => exact .firstMember hm
  | some h =>
    rw [List.append_assoc]
    exact .nextMember h hm

/-- What leads to a value inside containers, or to the name of the next member. -/
inductive Before : List Frame → List UInt8 → Prop where
  | start : Before [] []
  | item {frames : List Frame} {s a u : List UInt8} {l : List Node} : Before frames s → Blanks a →
      ElementsBefore l u → Before (.array l.reverse :: frames) (s ++ (a ++ 0x5B :: u))
  | name {frames : List Frame} {s a u : List UInt8} {l : List (Spelling × Node)} :
      Before frames s → Blanks a → MembersBefore l u →
      Before (.object l.reverse none :: frames) (s ++ (a ++ 0x7B :: u))
  | named {frames : List Frame} {s a t c : List UInt8} {members : List (Spelling × Node)}
      {name : Spelling} : Before (.object members none :: frames) s → Blanks a →
      StringText name t → Blanks c →
      Before (.object members (some name) :: frames) (s ++ (a ++ (t ++ (c ++ [0x3A]))))

/-- What leads to the end of a value inside a container. -/
inductive After : List Frame → List UInt8 → Prop where
  | item {frames : List Frame} {s a u : List UInt8} {l : List Node} : Before frames s → Blanks a →
      Derives (.elements l) u → After (.array l.reverse :: frames) (s ++ (a ++ 0x5B :: u))
  | member {frames : List Frame} {s a u : List UInt8} {l : List (Spelling × Node)} :
      Before frames s → Blanks a → Derives (.members l) u →
      After (.object l.reverse none :: frames) (s ++ (a ++ 0x7B :: u))

/-- What leads to a place inside containers. -/
def Place.Stands (frames : List Frame) : Place → List UInt8 → Prop
  | .value, p => ∃ s a, Before frames s ∧ Blanks a ∧ p = s ++ a
  | .firstItem, p => ∃ outer s a c, frames = .array [] :: outer ∧ Before outer s ∧ Blanks a ∧
    Blanks c ∧ p = s ++ (a ++ 0x5B :: c)
  | .firstName, p => ∃ outer s a c, frames = .object [] none :: outer ∧ Before outer s ∧
    Blanks a ∧ Blanks c ∧ p = s ++ (a ++ 0x7B :: c)
  | .name, p => ∃ outer members s a, frames = .object members none :: outer ∧ Before frames s ∧
    Blanks a ∧ p = s ++ a
  | .colon, p => ∃ outer members name s a t c, frames = .object members (some name) :: outer ∧
    Before (.object members none :: outer) s ∧ Blanks a ∧ StringText name t ∧ Blanks c ∧
    p = s ++ (a ++ (t ++ c))
  | .next, p => After frames p
  | .string pieces point, p => ∃ s a u, Before frames s ∧ Blanks a ∧
    spell [] .plain u = some (pieces, point) ∧ p = s ++ (a ++ 0x22 :: u)
  | .nameString pieces point, p => ∃ outer members s a u, frames = .object members none :: outer ∧
    Before frames s ∧ Blanks a ∧ spell [] .plain u = some (pieces, point) ∧
    p = s ++ (a ++ 0x22 :: u)
  | .word left sc, p => ∃ s a u, Before frames s ∧ Blanks a ∧ left ≠ [] ∧
    Derives (.value (.scalar sc)) (u ++ left) ∧ p = s ++ (a ++ u)
  | .number l point, p => ∃ s a u, Before frames s ∧ Blanks a ∧ Begun l point u ∧ p = s ++ (a ++ u)

/-- What leads to a state: part of a text, unless the text is doomed. -/
def State.Stands : State → List UInt8 → Prop
  | .reading frames place, p => Misnamed frames ∨ place.Stands frames p
  | .done root trailing, p => trailing = true ∨ Text root p
  | .failed root, _ => root.Faulty

theorem State.Doomed.stands (h : st.Doomed) : st.Stands s := by
  cases st with
  | reading frames place => exact .inl h
  | done root trailing => exact h.elim
  | failed root => exact h

theorem blanks_nil : Blanks [] := nofun

theorem Blanks.snoc (h : Blanks s) (hb : isBlank b = true) : Blanks (s ++ [b]) :=
  List.forall_mem_append.mpr ⟨h, List.forall_mem_singleton.mpr hb⟩

theorem Before.deliver {a : List UInt8} (h : Before frames s) (ha : Blanks a)
    (hn : Derives (.value n) t) : (deliver frames n).Stands (s ++ (a ++ t)) := by
  have he : Derives (.element n) (a ++ t) := by
    have := Derives.element ha hn blanks_nil
    rwa [List.append_nil] at this
  cases h with
  | start => exact .inr he
  | @item frames s c u l hs hc hu =>
    have hi := After.item hs hc (hu.element he)
    refine .inr (show After _ _ from ?_)
    simpa using hi
  | name => exact collapse_faulty (.inr ⟨_, .head _⟩)
  | @named frames s c v d members name hs hc hv hd =>
    cases hs with
    | @name _ s' a' u l hs ha' hu =>
      have hm := After.member hs ha' (hu.member (.member hc hv hd he))
      refine .inr (show After _ _ from ?_)
      simpa using hm

theorem Before.beginValue {a : List UInt8} (h : Before frames s) (ha : Blanks a) (b : UInt8) :
    (beginValue frames b).Stands (s ++ (a ++ [b])) := by
  unfold Json.beginValue
  split_ifs with h1 h2 h3 h4 h5 h6 h7
  · exact .inr ⟨s, a, [], h, ha, rfl, by rw [h1]⟩
  · exact .inr ⟨frames, s, a, [], rfl, h, ha, blanks_nil, by rw [h2]⟩
  · exact .inr ⟨frames, s, a, [], rfl, h, ha, blanks_nil, by rw [h3]⟩
  · exact .inr ⟨s, a, [0x6E], h, ha, by decide, .null, by rw [h4]⟩
  · exact .inr ⟨s, a, [0x74], h, ha, by decide, .yes, by rw [h5]⟩
  · exact .inr ⟨s, a, [0x66], h, ha, by decide, .no, by rw [h6]⟩
  · exact .inr ⟨s, a, [0x2D], h, ha, .minus, by rw [h7]⟩
  · split
    next hb => exact .inr ⟨s, a, [b], h, ha, .digit hb, rfl⟩
    next => exact breakOff_faulty _ _ _

theorem Derives.element_blank (h : Derives (.element n) s) (hb : isBlank b = true) :
    Derives (.element n) (s ++ [b]) := by
  cases h with
  | element ha hn hc =>
    rw [List.append_assoc, List.append_assoc]
    exact .element ha hn (hc.snoc hb)

theorem Derives.member_blank {m : Spelling × Node} (h : Derives (.member m) s)
    (hb : isBlank b = true) : Derives (.member m) (s ++ [b]) := by
  cases h with
  | member ha hs hc hn =>
    rw [List.append_assoc, List.append_assoc, List.append_assoc]
    exact .member ha hs hc (hn.element_blank hb)

theorem After.blank (h : After frames s) (hb : isBlank b = true) : After frames (s ++ [b]) := by
  cases h with
  | @item frames s a u l hs ha hu =>
    have hu' : Derives (.elements l) (u ++ [b]) := by
      cases hu with
      | firstElement h => exact .firstElement (h.element_blank hb)
      | nextElement hl h =>
        rw [List.append_assoc]
        exact .nextElement hl (h.element_blank hb)
    rw [List.append_assoc, List.append_assoc]
    exact .item hs ha hu'
  | @member frames s a u l hs ha hu =>
    have hu' : Derives (.members l) (u ++ [b]) := by
      cases hu with
      | firstMember h => exact .firstMember (h.member_blank hb)
      | nextMember hl h =>
        rw [List.append_assoc]
        exact .nextMember hl (h.member_blank hb)
    rw [List.append_assoc, List.append_assoc]
    exact .member hs ha hu'

theorem After.continueAfter (h : After frames s) (b : UInt8) :
    (continueAfter frames b).Stands (s ++ [b]) := by
  cases h with
  | @item frames s a u l hs ha hu =>
    rw [Json.continueAfter, List.append_assoc, List.append_assoc]
    split_ifs with h1 h2
    · refine .inr ⟨_, [], .item hs ha (.some hu), blanks_nil, ?_⟩
      rw [h1, List.append_nil]
      rfl
    · rw [h2, List.reverse_reverse]
      exact hs.deliver ha (.array hu)
    · exact breakOff_faulty _ _ _
  | @member frames s a u l hs ha hu =>
    rw [Json.continueAfter, List.append_assoc, List.append_assoc]
    split_ifs with h1 h2
    · refine .inr ⟨frames, l.reverse, _, [], rfl, .name hs ha (.some hu), blanks_nil, ?_⟩
      rw [h1, List.append_nil]
      rfl
    · rw [h2, List.reverse_reverse]
      exact hs.deliver ha (.object hu)
    · exact breakOff_faulty _ _ _

theorem After.step (h : After frames s) (b : UInt8) :
    (State.step (.reading frames .next) b).Stands (s ++ [b]) := by
  rw [State.step]
  split_ifs with hb
  · exact .inr (h.blank hb)
  · exact h.continueAfter b

theorem beginName_stands {members : List (Spelling × Node)} {name? : Option Spelling}
    (h : b = 0x22 →
      State.Stands (.reading (.object members name? :: frames) (.nameString [] .plain)) s) :
    (beginName (.object members name? :: frames) b).Stands s := by
  by_cases hb : b = 0x22
  · rw [beginName, if_pos hb]
    exact h hb
  · exact (beginName_doomed hb).stands

theorem stringStep_closed {pieces : List Piece} {point : StringPoint}
    (h : stringStep pieces point b = .closed) : point = .plain ∧ b = 0x22 := by
  unfold stringStep at h
  split at h <;> split_ifs at h with hb
  · exact ⟨rfl, hb⟩
  · split at h <;> cases h
  · split at h <;> cases h

theorem Place.Stands.string {pieces : List Piece} {point : StringPoint}
    (h : Place.Stands frames (.string pieces point) s) (b : UInt8) :
    (State.step (.reading frames (.string pieces point)) b).Stands (s ++ [b]) := by
  obtain ⟨s, a, u, hs, ha, hu, rfl⟩ := h
  have ht : s ++ (a ++ 0x22 :: u) ++ [b] = s ++ (a ++ 0x22 :: (u ++ [b])) := by simp
  rw [State.step, ht]
  split
  next pieces' point' hb =>
    refine .inr ⟨s, a, _, hs, ha, ?_, rfl⟩
    rw [spell_append, hu]
    simp only [Option.bind_some, spell, hb]
  next hb =>
    obtain ⟨rfl, rfl⟩ := stringStep_closed hb
    exact hs.deliver ha (.string (string_of_spell hu))
  next => exact breakOff_faulty _ _ _

theorem Place.Stands.nameString {pieces : List Piece} {point : StringPoint}
    (h : Place.Stands frames (.nameString pieces point) s) (b : UInt8) :
    (State.step (.reading frames (.nameString pieces point)) b).Stands (s ++ [b]) := by
  obtain ⟨outer, members, s, a, u, rfl, hs, ha, hu, rfl⟩ := h
  have ht : s ++ (a ++ 0x22 :: u) ++ [b] = s ++ (a ++ 0x22 :: (u ++ [b])) := by simp
  unfold State.step
  rw [ht]
  dsimp only
  split
  next pieces' point' hb =>
    refine .inr ⟨outer, members, s, a, _, rfl, hs, ha, ?_, rfl⟩
    rw [spell_append, hu]
    simp only [Option.bind_some, spell, hb]
  next hb hf =>
    cases hf
    obtain ⟨rfl, rfl⟩ := stringStep_closed hb
    refine .inr ⟨outer, members, _, s, a, _, [], rfl, hs, ha, string_of_spell hu, blanks_nil, ?_⟩
    rw [List.append_nil]
  next => exact breakOff_faulty _ _ _

theorem Place.Stands.word {left : List UInt8} {sc : Scalar}
    (h : Place.Stands frames (.word left sc) s) (b : UInt8) :
    (State.step (.reading frames (.word left sc)) b).Stands (s ++ [b]) := by
  obtain ⟨s, a, u, hs, ha, hl, hu, rfl⟩ := h
  cases left with
  | nil => exact absurd rfl hl
  | cons c left =>
    rw [State.step, List.append_assoc, List.append_assoc]
    split_ifs with h1 h2
    · exact breakOff_faulty _ _ _
    · obtain rfl : b = c := not_not.mp h1
      rw [List.isEmpty_iff.mp h2] at hu
      exact hs.deliver ha hu
    · obtain rfl : b = c := not_not.mp h1
      refine .inr ⟨s, a, u ++ [b], hs, ha, fun he => h2 (List.isEmpty_iff.mpr he), ?_, rfl⟩
      rwa [List.append_assoc]

theorem done_step {root : Node} {trailing : Bool} (h : (State.done root trailing).Stands s)
    (b : UInt8) : (State.step (.done root trailing) b).Stands (s ++ [b]) := by
  cases hb : isBlank b with
  | false => exact .inl (by rw [hb, Bool.not_false, Bool.or_true])
  | true =>
    refine h.imp (fun ht => by rw [ht, Bool.true_or]) fun ht => ?_
    exact Derives.element_blank ht hb

theorem deliver_step (h : (deliver frames n).Stands s) (b : UInt8) :
    (State.step (deliver frames n) b).Stands (s ++ [b]) := by
  rcases deliver_cases frames n with hs | ⟨frames', hs⟩ | ⟨root, hs⟩ <;> rw [hs] at h ⊢
  · exact done_step h b
  · rcases h with h | h
    · exact (@State.Doomed.step (.reading frames' .next) h b).stands
    · exact After.step h b
  · exact h

theorem Place.Stands.number {l : Literal} {point : NumberPoint}
    (h : Place.Stands frames (.number l point) s) (b : UInt8) :
    (State.step (.reading frames (.number l point)) b).Stands (s ++ [b]) := by
  obtain ⟨s, a, u, hs, ha, hu, rfl⟩ := h
  cases hb : numberStep l point b with
  | some r =>
    obtain ⟨l', point'⟩ := r
    have ht : s ++ (a ++ u) ++ [b] = s ++ (a ++ (u ++ [b])) := by simp
    rw [State.step, ht]
    simp only [hb]
    exact .inr ⟨s, a, _, hs, ha, hu.step hb, rfl⟩
  | none =>
    by_cases hp : point.complete = true ∧ (decide (point = .lead) && (digit? b).isSome) = false
    · rw [step_number hp.1 hb hp.2]
      exact deliver_step (hs.deliver ha (.number (hu.parts.number hp.1))) b
    · have hn : (!point.complete || decide (point = .lead) && (digit? b).isSome) = true := by
        revert hp
        generalize point.complete = c, (decide (point = .lead) && (digit? b).isSome) = d
        revert c d
        decide
      rw [State.step]
      simp only [hb, hn, ↓reduceIte]
      exact breakOff_faulty _ _ _

theorem Place.Stands.step (h : place.Stands frames s) (b : UInt8) :
    (State.step (.reading frames place) b).Stands (s ++ [b]) := by
  cases place with
  | value =>
    obtain ⟨s, a, hs, ha, rfl⟩ := h
    rw [State.step, List.append_assoc]
    split_ifs with hb
    · exact .inr ⟨s, _, hs, ha.snoc hb, rfl⟩
    · exact hs.beginValue ha b
  | firstItem =>
    obtain ⟨outer, s, a, c, rfl, hs, ha, hc, rfl⟩ := h
    have ht : s ++ (a ++ 0x5B :: c) ++ [b] = s ++ (a ++ 0x5B :: (c ++ [b])) := by simp
    rw [State.step, ht]
    split_ifs with hb h1
    · exact .inr ⟨outer, s, a, _, rfl, hs, ha, hc.snoc hb, rfl⟩
    · subst h1
      exact hs.deliver ha (.emptyArray hc)
    · have hi := (Before.item hs ha .none).beginValue hc b
      simpa using hi
  | firstName =>
    obtain ⟨outer, s, a, c, rfl, hs, ha, hc, rfl⟩ := h
    have ht : s ++ (a ++ 0x7B :: c) ++ [b] = s ++ (a ++ 0x7B :: (c ++ [b])) := by simp
    rw [State.step, ht]
    split_ifs with hb h1
    · exact .inr ⟨outer, s, a, _, rfl, hs, ha, hc.snoc hb, rfl⟩
    · subst h1
      exact hs.deliver ha (.emptyObject hc)
    · refine beginName_stands fun h2 =>
        .inr ⟨outer, [], _, c, [], rfl, .name hs ha .none, hc, rfl, ?_⟩
      simp [h2]
  | name =>
    obtain ⟨outer, members, s, a, rfl, hs, ha, rfl⟩ := h
    rw [State.step, List.append_assoc]
    split_ifs with hb
    · exact .inr ⟨outer, members, s, _, rfl, hs, ha.snoc hb, rfl⟩
    · exact beginName_stands fun h2 => .inr ⟨outer, members, s, a, [], rfl, hs, ha, rfl, by rw [h2]⟩
  | colon =>
    obtain ⟨outer, members, name, s, a, t, c, rfl, hs, ha, ht, hc, rfl⟩ := h
    rw [State.step]
    simp only [List.append_assoc]
    split_ifs with hb h1
    · exact .inr ⟨outer, members, name, s, a, t, _, rfl, hs, ha, ht, hc.snoc hb, rfl⟩
    · refine .inr ⟨_, [], .named hs ha ht hc, blanks_nil, ?_⟩
      rw [h1, List.append_nil]
    · exact breakOff_faulty _ _ _
  | next => exact After.step h b
  | string pieces point => exact Stands.string h b
  | nameString pieces point => exact Stands.nameString h b
  | word left sc => exact Stands.word h b
  | number l point => exact Stands.number h b

/-- One step: a byte more of what leads to a state. -/
theorem State.Stands.step (h : st.Stands s) (b : UInt8) : (st.step b).Stands (s ++ [b]) := by
  cases st with
  | failed root => exact h
  | done root trailing => exact done_step h b
  | reading frames place =>
    rcases h with h | h
    · exact (@Doomed.step (.reading frames place) h b).stands
    · exact Place.Stands.step h b

theorem stands_foldl (s : List UInt8) : (s.foldl State.step .start).Stands s := by
  induction s using List.reverseRecOn with
  | nil => exact .inr ⟨[], [], .start, blanks_nil, rfl⟩
  | append_singleton s b ih =>
    rw [List.foldl_append]
    exact ih.step b

/-- What is read to the end without a fault is a text. -/
theorem text_of_read (hr : read s = ⟨n, false⟩) (hn : n.fault? = none) : Text n s := by
  have hs := stands_foldl s
  rw [Json.read] at hr
  generalize s.foldl State.step .start = st at hr hs
  cases st with
  | failed root =>
    cases hr
    exact absurd hn hs
  | done root trailing =>
    cases hr
    exact hs.resolve_left Bool.false_ne_true
  | reading frames place =>
    have broken {frames : List Frame} {place : Place}
        (h : (⟨breakOff frames place .ended, false⟩ : Document) = ⟨n, false⟩) : Text n s := by
      cases h
      exact absurd hn (breakOff_faulty _ _ _)
    rcases hs with h | h
    · have hf := @State.Doomed.finish (.reading frames place) h
      rw [hr] at hf
      exact absurd hn hf
    cases place with
    | number l point =>
      obtain ⟨s, a, u, hs, ha, hu, rfl⟩ := h
      rw [State.finish] at hr
      split_ifs at hr with hp
      · have hd := hs.deliver ha (.number (hu.parts.number hp))
        rcases deliver_cases frames (.scalar (.number l.number))
          with he | ⟨frames', he⟩ | ⟨root, he⟩
        all_goals rw [he] at hr hd
        · cases hr
          exact hd.resolve_left Bool.false_ne_true
        · exact broken hr
        · cases hr
          exact absurd hn hd
      · exact broken hr
    | _ => exact broken hr

/-- A text and its tree are what is read to the end without a fault. -/
theorem text_iff : Text n s ↔ read s = ⟨n, false⟩ ∧ n.fault? = none :=
  ⟨fun h => ⟨read_text h, h.faultless⟩, fun ⟨hr, hn⟩ => text_of_read hr hn⟩

end EventRouting.Json
