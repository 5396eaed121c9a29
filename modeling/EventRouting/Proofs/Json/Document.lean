import EventRouting.Json.Document
import EventRouting.Json.Value
import EventRouting.Proofs.Text.Utf8
import Mathlib.Tactic.Common

namespace EventRouting.Json

/-- The control characters that have an escape of one letter. -/
def lettered : List Nat := [0x8, 0x9, 0xA, 0xC, 0xD]

/-- How the text of a character spells it. -/
def charPieces (c : Char) : List Piece :=
  if c.toNat < 0x20 ∧ c.toNat ∉ lettered then [.unit c.toNat]
  else (Utf8.encodeChar c).map .byte

def spelling (s : String) : Spelling := ⟨s.toList.flatMap charPieces, none⟩

/-- Where bytes inside a string lead, unless they close it or cannot stand there. -/
def spell (pieces : List Piece) (point : StringPoint) :
    List UInt8 → Option (List Piece × StringPoint)
  | [] => some (pieces, point)
  | b :: s =>
    match stringStep pieces point b with
    | .more pieces point => spell pieces point s
    | .closed | .malformed => none

variable {frames : List Frame} {pieces pieces' : List Piece} {point point' : StringPoint}

theorem spell_cons {b : UInt8} {s : List UInt8}
    (h : spell pieces point (b :: s) = some (pieces', point')) :
    ∃ ps pt, stringStep pieces point b = .more ps pt ∧ spell ps pt s = some (pieces', point') := by
  rw [spell] at h
  cases hs : stringStep pieces point b with
  | more ps pt =>
    rw [hs] at h
    exact ⟨ps, pt, rfl, h⟩
  | closed => simp only [hs, reduceCtorEq] at h
  | malformed => simp only [hs, reduceCtorEq] at h

theorem foldl_string {s : List UInt8} (h : spell pieces point s = some (pieces', point')) :
    s.foldl State.step (.reading frames (.string pieces point)) =
      .reading frames (.string pieces' point') := by
  induction s generalizing pieces point with
  | nil =>
    cases h
    rfl
  | cons b s ih =>
    obtain ⟨ps, pt, hs, h⟩ := spell_cons h
    simp only [List.foldl_cons, State.step, hs]
    exact ih h

theorem foldl_nameString {s : List UInt8} (h : spell pieces point s = some (pieces', point')) :
    s.foldl State.step (.reading frames (.nameString pieces point)) =
      .reading frames (.nameString pieces' point') := by
  induction s generalizing pieces point with
  | nil =>
    cases h
    rfl
  | cons b s ih =>
    obtain ⟨ps, pt, hs, h⟩ := spell_cons h
    simp only [List.foldl_cons, State.step, hs]
    exact ih h

theorem stringStep_byte {b : UInt8} (hq : b ≠ 0x22) (he : b ≠ 0x5C) (hc : ¬ b < 0x20) :
    stringStep pieces .plain b = .more (.byte b :: pieces) .plain := by
  rw [stringStep, if_neg hq, if_neg he, if_neg hc]

theorem spell_bytes {l : List UInt8} (h : ∀ b ∈ l, b ≠ 0x22 ∧ b ≠ 0x5C ∧ ¬ b < 0x20)
    (s : List UInt8) :
    spell pieces .plain (l ++ s) = spell ((l.map .byte).reverse ++ pieces) .plain s := by
  induction l generalizing pieces with
  | nil => rfl
  | cons b l ih =>
    obtain ⟨hq, he, hc⟩ := h b List.mem_cons_self
    rw [List.cons_append, spell, stringStep_byte hq he hc]
    simp only [ih fun b hb => h b (List.mem_cons_of_mem _ hb), List.map_cons, List.reverse_cons,
      List.append_assoc, List.cons_append, List.nil_append]

theorem encodeChar_plain {c : Char} (hq : c ≠ '"') (he : c ≠ '\\') (hc : ¬ c.toNat < 0x20) :
    ∀ b ∈ Utf8.encodeChar c, b ≠ 0x22 ∧ b ≠ 0x5C ∧ ¬ b < 0x20 := by
  have hn {d : Char} (h : c ≠ d) : c.toNat ≠ d.toNat := fun h' => h (Char.toNat_inj.1 h')
  have hq' : c.toNat ≠ 0x22 := hn hq
  have he' : c.toNat ≠ 0x5C := hn he
  have hr := Utf8.toNat_range c
  -- It is enough that the number of the byte is not one of those that stand for themselves.
  suffices h : ∀ b ∈ Utf8.encodeChar c, b.toNat ≠ 0x22 ∧ b.toNat ≠ 0x5C ∧ 0x20 ≤ b.toNat by
    intro b hb
    obtain ⟨h1, h2, h3⟩ := h b hb
    refine ⟨fun h => h1 (by rw [h]; rfl), fun h => h2 (by rw [h]; rfl), ?_⟩
    rw [UInt8.lt_iff_toNat_lt]
    exact Nat.not_lt_of_le h3
  intro b hb
  rw [Utf8.encodeChar] at hb
  split at hb
  · rw [List.mem_singleton.1 hb, Utf8.toNat_ofNat_of_lt (by omega)]
    omega
  · have hbyte : 0x80 ≤ b.toNat := by
      split at hb
      · simp only [List.mem_cons, List.not_mem_nil, or_false] at hb
        rcases hb with rfl | rfl <;> rw [Utf8.toNat_ofNat_of_lt (by omega)] <;> omega
      · split at hb
        · simp only [List.mem_cons, List.not_mem_nil, or_false] at hb
          rcases hb with rfl | rfl | rfl <;> rw [Utf8.toNat_ofNat_of_lt (by omega)] <;> omega
        · simp only [List.mem_cons, List.not_mem_nil, or_false] at hb
          rcases hb with rfl | rfl | rfl | rfl <;> rw [Utf8.toNat_ofNat_of_lt (by omega)] <;> omega
    omega

theorem hexValue?_hexDigit : ∀ n < 0x20,
    ([0x30, 0x30, hexDigit (n / 16), hexDigit (n % 16)]).mapM hexValue? =
      some [0, 0, n / 16, n % 16] := by
  decide

theorem spell_escape {b d : UInt8} (hu : b ≠ 0x75) (h : escaped? b = some d) (s : List UInt8) :
    spell pieces .plain (0x5C :: b :: s) = spell (.byte d :: pieces) .plain s := by
  have hs : stringStep pieces .escape b = .more (.byte d :: pieces) .plain := by
    rw [stringStep, if_neg hu, h]
  rw [spell, show stringStep pieces .plain 0x5C = .more pieces .escape from rfl]
  simp only [spell, hs]

theorem spell_unit {n : Nat} (hn : n < 0x20) (s : List UInt8) :
    spell pieces .plain
        (0x5C :: 0x75 :: 0x30 :: 0x30 :: hexDigit (n / 16) :: hexDigit (n % 16) :: s) =
      spell (.unit n :: pieces) .plain s := by
  have hv : [0, 0, n / 16, n % 16].foldl (fun n d => 16 * n + d) 0 = n := by
    simp only [List.foldl_cons, List.foldl_nil]
    omega
  have hs : stringStep pieces (.hex [0x30, 0x30, hexDigit (n / 16)]) (hexDigit (n % 16)) =
      .more (.unit n :: pieces) .plain := by
    simp only [stringStep, List.length_cons, List.length_nil, Nat.reduceAdd, Nat.lt_irrefl,
      ↓reduceIte, List.cons_append, List.nil_append, hexValue?_hexDigit n hn, hv]
  have h0 : stringStep pieces .plain 0x5C = .more pieces .escape := rfl
  have h1 : stringStep pieces .escape 0x75 = .more pieces (.hex []) := rfl
  have h2 (read : List UInt8) (b : UInt8) (hr : read.length < 3) :
      stringStep pieces (.hex read) b = .more pieces (.hex (read ++ [b])) := by
    rw [stringStep, if_pos hr]
  simp only [spell, h0, h1, h2, List.length_nil, List.length_cons, List.nil_append,
    List.cons_append, Nat.reduceAdd, Nat.reduceLT, hs]

theorem spell_quoteChar (c : Char) (s : List UInt8) :
    spell pieces .plain (quoteChar c ++ s) = spell ((charPieces c).reverse ++ pieces) .plain s := by
  have hone (n : Nat) (hc : c.toNat = n) (hn : n < 0x80) : Utf8.encodeChar c = [.ofNat n] := by
    rw [Utf8.encodeChar, if_pos (by omega), hc]
  have hkeep (h : ¬ (c.toNat < 0x20 ∧ c.toNat ∉ lettered)) :
      charPieces c = (Utf8.encodeChar c).map .byte := by
    rw [charPieces, if_neg h]
  rw [quoteChar]
  split
  next hq =>
    subst hq
    exact spell_escape (by decide) rfl s
  split
  next he =>
    subst he
    exact spell_escape (by decide) rfl s
  split
  next h8 =>
    rw [hkeep (by simp only [lettered, h8]; decide), hone _ h8 (by decide)]
    exact spell_escape (by decide) rfl s
  split
  next h9 =>
    rw [hkeep (by simp only [lettered, h9]; decide), hone _ h9 (by decide)]
    exact spell_escape (by decide) rfl s
  split
  next hA =>
    rw [hkeep (by simp only [lettered, hA]; decide), hone _ hA (by decide)]
    exact spell_escape (by decide) rfl s
  split
  next hC =>
    rw [hkeep (by simp only [lettered, hC]; decide), hone _ hC (by decide)]
    exact spell_escape (by decide) rfl s
  split
  next hD =>
    rw [hkeep (by simp only [lettered, hD]; decide), hone _ hD (by decide)]
    exact spell_escape (by decide) rfl s
  next hq he h8 h9 hA hC hD =>
    split
    next hc =>
      have hu : charPieces c = [.unit c.toNat] := by
        rw [charPieces,
          if_pos ⟨hc, by simp only [lettered, List.mem_cons, List.not_mem_nil]; tauto⟩]
      rw [hu]
      exact spell_unit hc s
    next hc =>
      rw [hkeep fun h => hc h.1]
      exact spell_bytes (encodeChar_plain hq he hc) s

theorem spell_flatMap (l : List Char) (s : List UInt8) :
    spell pieces .plain (l.flatMap quoteChar ++ s) =
      spell ((l.flatMap charPieces).reverse ++ pieces) .plain s := by
  induction l generalizing pieces with
  | nil => rfl
  | cons c l ih =>
    rw [List.flatMap_cons, List.append_assoc, spell_quoteChar, ih]
    simp only [List.flatMap_cons, List.reverse_append, List.append_assoc]

theorem spell_string (s : String) :
    spell [] .plain (s.toList.flatMap quoteChar) = some ((spelling s).pieces.reverse, .plain) := by
  have h := @spell_flatMap [] s.toList []
  rw [List.append_nil, List.append_nil] at h
  exact h

theorem foldl_quote (frames : List Frame) (s : String) :
    (quote s).foldl State.step (.reading frames .value) =
      deliver frames (.string (spelling s)) := by
  have hb : State.step (.reading frames .value) 0x22 = .reading frames (.string [] .plain) := rfl
  rw [quote, List.cons_append, List.foldl_cons, hb, List.foldl_append,
    foldl_string (spell_string s), List.foldl_cons, List.foldl_nil]
  simp only [State.step, stringStep, ↓reduceIte, List.reverse_reverse, spelling]

theorem foldl_name {members : List (Spelling × Node)} {name? : Option Spelling} {place : Place}
    (hp : place = .firstName ∨ place = .name) (s : String) :
    (quote s ++ [0x3A]).foldl State.step (.reading (.object members name? :: frames) place) =
      .reading (.object members (some (spelling s)) :: frames) .value := by
  have hb : State.step (.reading (.object members name? :: frames) place) 0x22 =
      .reading (.object members name? :: frames) (.nameString [] .plain) := by
    rcases hp with rfl | rfl <;> rfl
  rw [quote, List.cons_append, List.cons_append, List.foldl_cons, hb, List.foldl_append,
    List.foldl_append, foldl_nameString (spell_string s)]
  simp only [List.foldl_cons, List.foldl_nil, State.step, stringStep, ↓reduceIte,
    List.reverse_reverse, spelling]
  rfl

/-- The digits of a number as a literal keeps them. -/
def digits (n : Nat) : List Nat :=
  if n < 10 then [n] else digits (n / 10) ++ [n % 10]

theorem ofDigits_digits (n : Nat) : ofDigits (digits n) = n := by
  induction n using Nat.strongRecOn with
  | ind n ih =>
    rw [digits]
    split
    · exact Nat.zero_add n
    next h =>
      have hi := ih (n / 10) (by omega)
      rw [ofDigits] at hi
      rw [ofDigits, List.foldl_append, hi]
      simp only [List.foldl_cons, List.foldl_nil]
      omega

theorem digit?_ofNat {d : Nat} (h : d < 10) : digit? (.ofNat (0x30 + d)) = some d := by
  have hd : (UInt8.ofNat (0x30 + d)).toNat = 0x30 + d := Utf8.toNat_ofNat_of_lt (by omega)
  rw [digit?, hd, if_pos (by omega), Nat.add_sub_cancel_left]

theorem beginValue_digit {d : Nat} (h : d < 10) :
    beginValue frames (.ofNat (0x30 + d)) =
      .reading frames (.number { whole := [d] } (if d = 0 then .lead else .whole)) := by
  have hn {b : UInt8} (hb : b.toNat < 0x30 ∨ 0x39 < b.toNat) : UInt8.ofNat (0x30 + d) ≠ b := by
    intro he
    have hd : (UInt8.ofNat (0x30 + d)).toNat = 0x30 + d := Utf8.toNat_ofNat_of_lt (by omega)
    rw [he] at hd
    omega
  simp only [beginValue, if_neg (hn (b := 0x22) (by decide)), if_neg (hn (b := 0x5B) (by decide)),
    if_neg (hn (b := 0x7B) (by decide)), if_neg (hn (b := 0x6E) (by decide)),
    if_neg (hn (b := 0x74) (by decide)), if_neg (hn (b := 0x66) (by decide)),
    if_neg (hn (b := 0x2D) (by decide)), numberStep, digit?_ofNat h]

theorem isBlank_digit : ∀ d < 10, isBlank (.ofNat (0x30 + d)) = false := by
  decide

theorem foldl_decimal (frames : List Frame) (n : Nat) :
    (decimal n).foldl State.step (.reading frames .value) =
      .reading frames (.number { whole := digits n } (if n = 0 then .lead else .whole)) := by
  induction n using Nat.strongRecOn with
  | ind n ih =>
    rw [decimal, digits]
    split
    next h =>
      rw [List.foldl_cons, List.foldl_nil, State.step]
      simp only [isBlank_digit n h, Bool.false_eq_true, ↓reduceIte, beginValue_digit h]
    next h =>
      rw [List.foldl_append, ih (n / 10) (by omega), if_neg (by omega), if_neg (by omega),
        List.foldl_cons, List.foldl_nil, State.step]
      simp only [numberStep, digit?_ofNat (Nat.mod_lt n (by decide : 0 < 10))]

theorem number_digits {n : Nat} (h : n < two64) :
    Literal.number { whole := digits n } = .integer n := by
  simp only [Literal.number, ofDigits_digits, Bool.not_false, List.isEmpty_nil, Bool.and_self,
    decide_eq_true h, ↓reduceIte]

mutual

/-- The tree that the text of a value spells. -/
def Value.node : Value → Node
  | .null => .scalar .null
  | .bool b => .scalar (.bool b)
  | .int i => .scalar (.number (.integer i))
  | .float _ => .scalar (.number .floating)
  | .string s => .string (spelling s)
  | .array items => .array (nodes items) none
  | .object members => .object (memberNodes members) .closed

def Value.nodes : List Value → List Node
  | [] => []
  | v :: items => v.node :: nodes items

def Value.memberNodes : List (String × Value) → List (Spelling × Node)
  | [] => []
  | (name, v) :: members => (spelling name, v.node) :: memberNodes members

end

mutual

/-- All numbers are natural ones of 64 bits. -/
def Value.Natural : Value → Prop
  | .null | .bool _ | .string _ => True
  | .int i => ∃ n : Nat, i = n ∧ n < two64
  | .float _ => False
  | .array items => NaturalItems items
  | .object members => NaturalMembers members

def Value.NaturalItems : List Value → Prop
  | [] => True
  | v :: items => v.Natural ∧ NaturalItems items

def Value.NaturalMembers : List (String × Value) → Prop
  | [] => True
  | (_, v) :: members => v.Natural ∧ NaturalMembers members

end

def Value.isInt : Value → Bool
  | .int _ => true
  | _ => false

/-- States that go on alike with a byte that ends a value. A number is complete only then. -/
def Agree (st st' : State) : Prop :=
  ∀ b, b = 0x2C ∨ b = 0x5D ∨ b = 0x7D → st.step b = st'.step b

theorem agree_number (frames : List Frame) (n : Nat) (h : n < two64) :
    Agree (.reading frames (.number { whole := digits n } (if n = 0 then .lead else .whole)))
      (deliver frames (.scalar (.number (.integer n)))) := by
  intro b hb
  have hd : digit? b = none := by
    rcases hb with rfl | rfl | rfl <;> rfl
  have hs (point : NumberPoint) (hp : point = .lead ∨ point = .whole) :
      numberStep { whole := digits n } point b = none := by
    have h2 : b ≠ 0x2E := by
      rcases hb with rfl | rfl | rfl <;> decide
    have h6 : ¬ (b = 0x65 ∨ b = 0x45) := by
      rcases hb with rfl | rfl | rfl <;> decide
    rcases hp with rfl | rfl <;> simp only [numberStep, hd, if_neg h2, if_neg h6]
  have hn : isBlank b = false := by
    rcases hb with rfl | rfl | rfl <;> rfl
  have hp : (if n = 0 then NumberPoint.lead else .whole) = .lead ∨
      (if n = 0 then NumberPoint.lead else .whole) = .whole := by
    split
    · exact .inl rfl
    · exact .inr rfl
  have hc (point : NumberPoint) (hp : point = .lead ∨ point = .whole) :
      (!point.complete || decide (point = .lead) && (digit? b).isSome) = false := by
    rcases hp with rfl | rfl <;> simp only [NumberPoint.complete, hd] <;> rfl
  generalize (if n = 0 then NumberPoint.lead else .whole) = point at hp
  simp only [State.step, hs point hp, hc point hp, Bool.false_eq_true, ↓reduceIte,
    number_digits h]
  -- What was open decides where the number is put, and so what the byte meets.
  cases frames with
  | nil => rfl
  | cons frame frames =>
    cases frame with
    | array items => simp only [deliver, hn, Bool.false_eq_true, ↓reduceIte]
    | object members name? =>
      cases name? with
      | none => rfl
      | some name => simp only [deliver, hn, Bool.false_eq_true, ↓reduceIte]
    | misnamed members => rfl

theorem decimal_head (n : Nat) : ∃ d s, d < 10 ∧ decimal n = .ofNat (0x30 + d) :: s := by
  induction n using Nat.strongRecOn with
  | ind n ih =>
    rw [decimal]
    split
    next h => exact ⟨n, [], h, rfl⟩
    next h =>
      obtain ⟨d, s, hd, hs⟩ := ih (n / 10) (by omega)
      exact ⟨d, _, hd, by rw [hs, List.cons_append]⟩

theorem Value.render_head {v : Value} (h : v.Natural) :
    ∃ b s, v.render = b :: s ∧ b ≠ 0x5D ∧ isBlank b = false := by
  cases v with
  | null => exact ⟨_, _, rfl, by decide, rfl⟩
  | bool b => cases b <;> exact ⟨_, _, rfl, by decide, rfl⟩
  | int i =>
    obtain ⟨n, rfl, -⟩ := h
    obtain ⟨d, s, hd, hs⟩ := decimal_head n
    have hn : (UInt8.ofNat (0x30 + d)).toNat = 0x30 + d := Utf8.toNat_ofNat_of_lt (by omega)
    refine ⟨_, s, by rw [Value.render, decimalInt, if_neg (by omega), Int.natAbs_natCast, hs],
      fun he => ?_, isBlank_digit d hd⟩
    have h5 : (0x5D : UInt8).toNat = 0x5D := rfl
    rw [he] at hn
    omega
  | float => exact h.elim
  | string s => exact ⟨_, _, rfl, by decide, rfl⟩
  | array items => cases items <;> exact ⟨_, _, rfl, by decide, rfl⟩
  | object members => cases members <;> exact ⟨_, _, rfl, by decide, rfl⟩

theorem foldl_firstItem {v : Value} (h : v.Natural) (frames : List Frame) :
    v.render.foldl State.step (.reading frames .firstItem) =
      v.render.foldl State.step (.reading frames .value) := by
  obtain ⟨b, s, hs, hb, hn⟩ := v.render_head h
  simp only [hs, List.foldl_cons, State.step, if_neg hb, hn, Bool.false_eq_true, ↓reduceIte]

theorem foldl_member {members : List (Spelling × Node)} {name? : Option Spelling} {place : Place}
    (hp : place = .firstName ∨ place = .name) (name : String) (s : List UInt8) :
    (quote name ++ 0x3A :: s).foldl State.step (.reading (.object members name? :: frames) place) =
      s.foldl State.step (.reading (.object members (some (spelling name)) :: frames) .value) := by
  rw [List.append_cons, List.foldl_append, foldl_name hp]

/-- The bytes of a value lead to its delivery, at once or with the byte after them. -/
def Settles (v : Value) (frames : List Frame) (st : State) : Prop :=
  (v.isInt = false → st = deliver frames v.node) ∧ Agree st (deliver frames v.node)

theorem Settles.of_eq {v : Value} {st : State} (h : st = deliver frames v.node) :
    Settles v frames st :=
  ⟨fun _ => h, fun b _ => by rw [h]⟩

mutual

theorem Value.render_settles (v : Value) (h : v.Natural) (frames : List Frame) :
    Settles v frames (v.render.foldl State.step (.reading frames .value)) :=
  match v with
  | .null => .of_eq rfl
  | .bool true => .of_eq rfl
  | .bool false => .of_eq rfl
  | .int i => by
    obtain ⟨n, rfl, hn⟩ := h
    refine ⟨nofun, ?_⟩
    rw [Value.render, decimalInt, if_neg (by omega), Int.natAbs_natCast, foldl_decimal]
    exact agree_number frames n hn
  | .float _ => h.elim
  | .string s => .of_eq (foldl_quote frames s)
  | .array [] => .of_eq rfl
  | .array (v :: items) => by
    have hv := v.render_settles h.1 (.array [] :: frames)
    have hi := Value.foldl_renderItems items h.2 hv.2
    have hb : State.step (.reading frames .value) 0x5B =
        .reading (.array [] :: frames) .firstItem := rfl
    rw [Value.render, List.cons_append, List.cons_append, List.foldl_cons, List.append_assoc,
      List.foldl_append, hb, foldl_firstItem h.1]
    exact .of_eq hi
  | .object [] => .of_eq rfl
  | .object ((name, v) :: members) => by
    have hv := v.render_settles h.1 (.object [] (some (spelling name)) :: frames)
    have hm := Value.foldl_renderMembers members h.2 hv.2
    have hb : State.step (.reading frames .value) 0x7B =
        .reading (.object [] none :: frames) .firstName := rfl
    simp only [Value.render, List.cons_append, List.append_assoc, List.foldl_cons, hb]
    rw [foldl_member (.inl rfl), List.foldl_append]
    exact .of_eq hm

theorem Value.foldl_renderItems (items : List Value) (h : NaturalItems items) {frames : List Frame}
    {acc : List Node} {st : State} (hst : Agree st (.reading (.array acc :: frames) .next)) :
    (renderItems items ++ [0x5D]).foldl State.step st =
      deliver frames (.array (acc.reverse ++ nodes items) none) :=
  match items with
  | [] => by
    rw [renderItems, List.nil_append, List.foldl_cons, List.foldl_nil, hst _ (.inr (.inl rfl)),
      nodes, List.append_nil]
    rfl
  | v :: items => by
    have hv := v.render_settles h.1 (.array acc :: frames)
    have hi := Value.foldl_renderItems items h.2 hv.2
    rw [renderItems, List.cons_append, List.cons_append, List.foldl_cons, hst _ (.inl rfl),
      List.append_assoc, List.foldl_append]
    rw [List.reverse_cons, List.append_assoc] at hi
    exact hi

theorem Value.foldl_renderMembers (members : List (String × Value)) (h : NaturalMembers members)
    {frames : List Frame} {acc : List (Spelling × Node)} {name? : Option Spelling} {st : State}
    (hst : Agree st (.reading (.object acc name? :: frames) .next)) :
    (renderMembers members ++ [0x7D]).foldl State.step st =
      deliver frames (.object (acc.reverse ++ memberNodes members) .closed) :=
  match members with
  | [] => by
    rw [renderMembers, List.nil_append, List.foldl_cons, List.foldl_nil, hst _ (.inr (.inr rfl)),
      memberNodes, List.append_nil]
    rfl
  | (name, v) :: members => by
    have hv := v.render_settles h.1 (.object acc (some (spelling name)) :: frames)
    have hm := Value.foldl_renderMembers members h.2 hv.2
    have hb : State.step (.reading (.object acc name? :: frames) .next) 0x2C =
        .reading (.object acc name? :: frames) .name := rfl
    simp only [renderMembers, List.cons_append, List.append_assoc, List.foldl_cons,
      hst _ (.inl rfl), hb]
    rw [foldl_member (.inr rfl), List.foldl_append]
    rw [List.reverse_cons, List.append_assoc] at hm
    exact hm

end

/-- Reading the text of a value that is no number yields its tree and leaves nothing behind. -/
theorem read_render {v : Value} (h : v.Natural) (hi : v.isInt = false) :
    read v.render = ⟨v.node, false⟩ := by
  have hv := (v.render_settles h []).1 hi
  rw [read, State.start, hv]
  rfl

end EventRouting.Json
