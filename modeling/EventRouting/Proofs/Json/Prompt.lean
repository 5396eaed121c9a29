import EventRouting.Proofs.Json.Layout
import EventRouting.Proofs.Json.Truncation

namespace EventRouting.Json

variable {α : Type} {n n' : Node}

/-- A reader that reports the end of a text that is cut off. -/
structure Prompt (reader : Reader Node α) : Prop where
  absent : reader (.broken .ended) = .error (.fault .ended)
  cut : ∀ {n n' a}, Cut n n' → reader n = .ok a → reader n' = .error (.fault .ended)
  /-- A number that lost digits may still be read. -/
  short : ∀ {n n' a}, Short n n' → reader n = .ok a → ∃ b, reader n' = .ok b

theorem short_of_ne {reader : Reader Node α} (h : ∀ k a, reader (.scalar (.number k)) ≠ .ok a)
    {n n' : Node} {a : α} (hs : Short n n') (hr : reader n = .ok a) : ∃ b, reader n' = .ok b := by
  cases hs with
  | whole => exact ⟨a, hr⟩
  | number => exact absurd hr (h _ _)

theorem bytes_part {l m : List Piece} {bytes : List UInt8} (h : l <+: m)
    (hm : Piece.bytes m none = .ok bytes) : Piece.bytes l (some .ended) = .error .ended := by
  generalize hg : (none : Option Fault) = g at hm
  fun_induction Piece.bytes m g generalizing l bytes
  case case1 =>
    rw [List.prefix_nil.mp h]
    rfl
  case case3 b m _ ih =>
    rcases List.prefix_cons_iff.mp h with rfl | ⟨k, rfl, hk⟩
    · rfl
    obtain ⟨rest, hr, -⟩ := ok_of_map hm
    rw [Piece.bytes, ih hk hg hr]
    rfl
  case case4 u m _ hu ih =>
    rcases List.prefix_cons_iff.mp h with rfl | ⟨k, rfl, hk⟩
    · rfl
    obtain ⟨rest, hr, -⟩ := ok_of_map hm
    rw [Piece.bytes.eq_def]
    simp only [if_pos hu, ih hk hg hr]
    rfl
  case case6 u hu hd v m f hv ih =>
    obtain ⟨rest, hr, -⟩ := ok_of_map hm
    rcases List.prefix_cons_iff.mp h with rfl | ⟨k, rfl, hk⟩
    · rfl
    rw [Piece.bytes.eq_def]
    -- The cut may fall between the two halves of a pair.
    rcases List.prefix_cons_iff.mp hk with rfl | ⟨l, rfl, hl⟩
    · simp only [if_neg hu, if_neg hd]
    · simp only [if_neg hu, if_neg hd, if_pos hv, ih hl hg hr]
      rfl
  all_goals cases hm

theorem decode_part {l m : List Piece} {text : String} (h : l <+: m)
    (hm : Spelling.decode ⟨m, none⟩ = .ok text) :
    Spelling.decode ⟨l, some .ended⟩ = .error (.fault .ended) := by
  rw [Spelling.decode] at hm ⊢
  split at hm
  next => cases hm
  next bytes hb => rw [bytes_part h hb]

theorem prompt_string : Prompt Node.readString where
  absent := rfl
  cut hc hr := by
    cases hc with
    | absent => rfl
    | string hl => exact decode_part hl hr
    | _ => cases hr
  short := short_of_ne fun _ _ h => by cases h

theorem prompt_nat (bound : Nat) (wanted : String) : Prompt (Node.readNat bound wanted) where
  absent := rfl
  cut hc hr := by
    cases hc with
    | absent | scalar => rfl
    | _ => cases hr
  short {n n' a} hs hr := by
    cases hs with
    | whole => exact ⟨_, hr⟩
    | @number k k' hk =>
      cases k with
      | integer i =>
        rw [Node.readNat] at hr
        split_ifs at hr with hi
        obtain ⟨j, rfl, hj, hle⟩ := hk i rfl hi.1
        exact ⟨_, if_pos ⟨hj, by omega⟩⟩
      | _ => cases hr

theorem prompt_map {β : Type} {reader : Reader Node α} (h : Prompt reader) (f : α → β) :
    Prompt (fun n => f <$> reader n) where
  absent := congrArg (f <$> ·) h.absent
  cut hc hr := by
    obtain ⟨a, ha, -⟩ := ok_of_map hr
    exact congrArg (f <$> ·) (h.cut hc ha)
  short hs hr := by
    obtain ⟨a, ha, -⟩ := ok_of_map hr
    obtain ⟨b, hb⟩ := h.short hs ha
    exact ⟨f b, congrArg (f <$> ·) hb⟩

theorem prompt_uint64 : Prompt Node.readUInt64 := prompt_map (prompt_nat _ _) _

theorem prompt_uint32 : Prompt Node.readUInt32 := prompt_map (prompt_nat _ _) _

/-- An option is null or what it is an option of, so part of a null must be reported as well. -/
theorem prompt_option {reader : Reader Node α} (h : Prompt reader)
    (hs : reader (.scalar (.broken .ended)) = .error (.fault .ended)) :
    Prompt (Node.readOption reader) where
  absent := (prompt_map h some).absent
  cut {n n' a} hc hr := by
    by_cases hn : n = .scalar .null
    · rw [hn] at hc
      cases hc with
      | absent => exact (prompt_map h some).absent
      | scalar => exact congrArg (some <$> ·) hs
    · rw [readOption_of_ne hn] at hr
      have hn' : n' ≠ .scalar .null := by
        rintro rfl
        cases hc
      rw [readOption_of_ne hn']
      exact (prompt_map h some).cut hc hr
  short {n n' a} hc hr := by
    cases hc with
    | whole => exact ⟨_, hr⟩
    | number hk => exact (prompt_map h some).short (.number hk) hr

theorem prompt_unit : Prompt Node.readUnit where
  absent := rfl
  cut hc hr := by
    cases hc with
    | absent | scalar => rfl
    | _ => cases hr
  short := short_of_ne fun _ _ h => by cases h

theorem eq_of_singleton_eq_append_cons {β : Type} {x y : β} {l m : List β} (h : [x] = l ++ y :: m) :
    l = [] ∧ y = x ∧ m = [] := by
  cases l with
  | nil =>
    cases h
    exact ⟨rfl, rfl, rfl⟩
  | cons z l => simp at h

theorem prompt_variant (variants : List (String × α)) : Prompt (Node.readVariant variants) where
  absent := rfl
  cut {n n' a} hc hr := by
    rcases readVariant_ok hr with ⟨s, text, rfl, ht⟩ | ⟨name, text, rfl, ht, ha⟩
    · cases hc with
      | absent => rfl
      | string hl =>
        rw [Node.readVariant, decode_part hl ht]
        rfl
    · generalize hm : [(name, Node.scalar .null)] = members at hc
      cases hc with
      | absent | brace => rfl
      | comma =>
        obtain ⟨rfl, -, -⟩ := eq_of_singleton_eq_append_cons hm
        rfl
      | name hl =>
        obtain ⟨rfl, he, -⟩ := eq_of_singleton_eq_append_cons hm
        cases he
        rw [List.nil_append, Node.readVariant, decode_part hl ht]
        rfl
      | value hc =>
        obtain ⟨rfl, he, -⟩ := eq_of_singleton_eq_append_cons hm
        cases he
        rw [List.nil_append, Node.readVariant, ht, prompt_unit.cut hc rfl]
        change variant variants text >>= _ = _
        rw [ha]
        rfl
      | afterValue hs =>
        obtain ⟨rfl, he, -⟩ := eq_of_singleton_eq_append_cons hm
        cases he
        cases hs
        rw [List.nil_append, Node.readVariant, ht]
        change variant variants text >>= _ = _
        rw [ha]
        rfl
  short := short_of_ne fun _ _ h => by cases h

theorem mapM_append_ok {reader : Reader Node α} {before after : List Node} {l : List α}
    (h : (before ++ n :: after).mapM reader = .ok l) :
    (∃ k, before.mapM reader = .ok k) ∧ ∃ a, reader n = .ok a := by
  rw [List.mapM_append, List.mapM_cons] at h
  obtain ⟨k, hk, h⟩ := ok_of_bind h
  obtain ⟨m, hm, -⟩ := ok_of_bind h
  obtain ⟨a, ha, -⟩ := ok_of_bind hm
  exact ⟨⟨k, hk⟩, a, ha⟩

theorem prompt_list {reader : Reader Node α} (h : Prompt reader) :
    Prompt (Node.readList reader) where
  absent := rfl
  cut {n n' a} hc hr := by
    obtain ⟨items, rfl, hl⟩ := readList_ok hr
    cases hc with
    | absent | bracket => rfl
    | item hc =>
      obtain ⟨⟨k, hk⟩, b, hb⟩ := mapM_append_ok hl
      rw [Node.readList, List.mapM_append, hk, List.mapM_cons, h.cut hc hb]
      rfl
    | afterItem hs =>
      obtain ⟨⟨k, hk⟩, b, hb⟩ := mapM_append_ok hl
      obtain ⟨b, hb⟩ := h.short hs hb
      rw [Node.readList, List.mapM_append, hk, List.mapM_cons, hb]
      rfl
  short := short_of_ne fun _ _ h => by cases h
theorem faultItems?_append {before items : List Node} (h : ∀ n ∈ before, n.fault? = none) :
    Node.faultItems? (before ++ items) = Node.faultItems? items := by
  induction before with
  | nil => rfl
  | cons n before ih =>
    obtain ⟨hn, h⟩ := List.forall_mem_cons.mp h
    rw [List.cons_append, Node.faultItems?, hn, ih h]
    rfl

theorem faultMembers?_append {before members : List (Spelling × Node)}
    (h : ∀ m ∈ before, m.1.fault? = none ∧ m.2.fault? = none) :
    Node.faultMembers? (before ++ members) = Node.faultMembers? members := by
  induction before with
  | nil => rfl
  | cons m before ih =>
    obtain ⟨name, n⟩ := m
    obtain ⟨⟨hm, hn⟩, h⟩ := List.forall_mem_cons.mp h
    rw [List.cons_append, Node.faultMembers?, hm, hn, ih h]
    rfl

theorem Short.faultless (h : Short n n') (hn : n.fault? = none) : n'.fault? = none := by
  cases h with
  | whole => exact hn
  | number => rfl

theorem Cut.fault?_eq (h : Cut n n') (hn : n.fault? = none) : n'.fault? = some .ended := by
  induction h with
  | absent | scalar | string | bracket | brace => rfl
  | @item n n' before after _ ih =>
    obtain ⟨hb, ha⟩ := List.forall_mem_append.mp (array_fault?_eq_none.mp hn).1
    obtain ⟨hn, -⟩ := List.forall_mem_cons.mp ha
    rw [Node.fault?, faultItems?_append hb, Node.faultItems?, ih hn]
    rfl
  | @afterItem n n' before after hs =>
    obtain ⟨hb, ha⟩ := List.forall_mem_append.mp (array_fault?_eq_none.mp hn).1
    obtain ⟨hn, -⟩ := List.forall_mem_cons.mp ha
    rw [Node.fault?, faultItems?_append hb, Node.faultItems?, hs.faultless hn]
    rfl
  | @comma m before after =>
    obtain ⟨hb, -⟩ := List.forall_mem_append.mp (object_fault?_eq_none.mp hn).1
    rw [Node.fault?, ← List.append_nil before, faultMembers?_append hb]
    rfl
  | @name l m n before after hl =>
    obtain ⟨hb, -⟩ := List.forall_mem_append.mp (object_fault?_eq_none.mp hn).1
    rw [Node.fault?, faultMembers?_append hb]
    rfl
  | @value name n n' before after _ ih =>
    obtain ⟨hb, ha⟩ := List.forall_mem_append.mp (object_fault?_eq_none.mp hn).1
    obtain ⟨⟨hm, hn⟩, -⟩ := List.forall_mem_cons.mp ha
    rw [Node.fault?, faultMembers?_append hb, Node.faultMembers?, hm, ih hn]
    rfl
  | @afterValue name n n' before after hs =>
    obtain ⟨hb, ha⟩ := List.forall_mem_append.mp (object_fault?_eq_none.mp hn).1
    obtain ⟨⟨hm, hn⟩, -⟩ := List.forall_mem_cons.mp ha
    rw [Node.fault?, faultMembers?_append hb, Node.faultMembers?, hm, hs.faultless hn]
    rfl

theorem prompt_skip : Prompt Node.skip where
  absent := rfl
  cut {n n' a} hc hr := by
    rw [Node.skip, hc.fault?_eq (skip_eq_ok.mp hr)]
  short {n n' a} hs hr := ⟨a, skip_eq_ok.mpr (hs.faultless (skip_eq_ok.mp hr))⟩

section TakeAll

variable {δ : Type} {wanted : String} {slots : List (Slot δ)} {items before : List Node}
  {fault? : Option Fault} {count : Nat}

theorem takeAll_ended (h : Suits slots items) (hl : items.length ≤ slots.length) :
    takeAll wanted slots items (some .ended) = .error (.fault .ended) := by
  have ended (count : Nat) : (takeSlots wanted slots ⟨items, some .ended, count⟩ >>= fun rest =>
      if rest.items.isEmpty then Node.endArray rest.fault? else .error (.fault .malformed)) =
        .error (.fault .ended) := by
    induction slots generalizing items count with
    | nil =>
      rw [List.length_eq_zero_iff.mp (Nat.le_zero.mp hl)]
      rfl
    | cons f slots ih =>
      cases items with
      | nil => rfl
      | cons n items =>
        obtain ⟨⟨a, ha⟩, h⟩ := suits_cons.mp h
        rw [takeSlots_cons, ha]
        exact ih h (Nat.le_of_succ_le_succ hl) (count + 1)
  exact ended 0

/-- The first element that is refused decides. -/
theorem takeSlots_error {f : Slot δ} {e : DecodeError} (h : Suits slots before)
    (hf : slots[before.length]? = some f) (hn : f.reader n = .error e) :
    takeSlots wanted slots ⟨before ++ n :: items, fault?, count⟩ = .error e := by
  induction before generalizing slots count with
  | nil =>
    cases slots with
    | nil => cases hf
    | cons g slots =>
      cases hf
      rw [List.nil_append, takeSlots_cons, hn]
      rfl
  | cons m before ih =>
    cases slots with
    | nil => cases hf
    | cons g slots =>
      obtain ⟨⟨a, ha⟩, h⟩ := suits_cons.mp h
      rw [List.cons_append, takeSlots_cons, ha]
      exact ih h hf

theorem error_of_map {ε β : Type} {x : Except ε α} {f : α → β} {e : ε}
    (h : f <$> x = .error e) : x = .error e := by
  cases x with
  | error e =>
    cases h
    rfl
  | ok a => cases h

end TakeAll

namespace Record.Follows

variable {r : Record Node α} {slots : List (Slot r.Draft)} {d d' : r.Draft}

theorem read_object_error {before : List (Spelling × Node)} {m : Spelling × Node} {ending : Ending}
    {e : DecodeError} (hd : r.putAll r.empty before = .ok d) (hm : r.putMember d m = .error e) :
    r.read (.object (before ++ [m]) ending) = .error e := by
  have hp : r.putAll r.empty (before ++ [m]) = .error e := by
    rw [Record.putAll_append, hd]
    refine Record.putAll_cons.trans ?_
    rw [hm]
    rfl
  rw [Record.putAll] at hp
  rw [Record.read, hp]
  rfl

theorem read_object_open {members : List (Spelling × Node)} {ending : Ending} {e : DecodeError}
    (hd : r.putAll r.empty members = .ok d) (he : ending.close = .error e) :
    r.read (.object members ending) = .error e := by
  rw [Record.putAll] at hd
  rw [Record.read, hd, he]
  rfl

theorem putMember_cut (h : r.Follows slots) (hs : ∀ f ∈ slots, Prompt f.reader) {name : Spelling}
    (hp : r.putMember d (name, n) = .ok d') (hc : Cut n n') :
    r.putMember d (name, n') = .error (.fault .ended) := by
  obtain ⟨text, ht, hp⟩ := h.putMember_ok_iff.mp hp
  rw [Record.putMember, ht]
  change r.put d text n' = _
  cases hp with
  | slot hf hd ha =>
    rw [h.put_slot _ hf, hd, (hs _ hf).cut hc ha]
    rfl
  | other hm hn =>
    rw [h.put_other _ hm, prompt_skip.cut hc (@skip_eq_ok n () |>.mpr hn)]
    rfl

theorem putMember_short (h : r.Follows slots) (hs : ∀ f ∈ slots, Prompt f.reader) {name : Spelling}
    (hp : r.putMember d (name, n) = .ok d') (hn : Short n n') :
    ∃ d', r.putMember d (name, n') = .ok d' := by
  obtain ⟨text, ht, hp⟩ := h.putMember_ok_iff.mp hp
  cases hp with
  | slot hf hd ha =>
    obtain ⟨b, hb⟩ := (hs _ hf).short hn ha
    exact ⟨_, h.putMember_ok_iff.mpr ⟨_, ht, .slot hf hd hb⟩⟩
  | other hm hf => exact ⟨d, h.putMember_ok_iff.mpr ⟨_, ht, .other hm (hn.faultless hf)⟩⟩

theorem read_object_cut (h : r.Follows slots) (hs : ∀ f ∈ slots, Prompt f.reader)
    {members : List (Spelling × Node)} {a : α} (hr : r.read (.object members .closed) = .ok a)
    (hc : Cut (.object members .closed) n') : r.read n' = .error (.fault .ended) := by
  obtain ⟨d, hd, -, -⟩ := Record.read_object_ok_iff.mp hr
  cases hc with
  | absent | brace => rfl
  | comma =>
    obtain ⟨d₁, -, h₁, -⟩ := Record.putAll_append_ok_iff.mp hd
    exact read_object_open h₁ rfl
  | @name l m n before after hl =>
    obtain ⟨d₁, d₂, h₁, hm, -⟩ := Record.putAll_append_ok_iff.mp hd
    obtain ⟨text, ht, -⟩ := h.putMember_ok_iff.mp hm
    refine read_object_error h₁ ?_
    rw [Record.putMember, decode_part hl ht]
    rfl
  | value hc =>
    obtain ⟨d₁, d₂, h₁, hm, -⟩ := Record.putAll_append_ok_iff.mp hd
    exact read_object_error h₁ (h.putMember_cut hs hm hc)
  | @afterValue name n n' before after hn =>
    obtain ⟨d₁, d₂, h₁, hm, -⟩ := Record.putAll_append_ok_iff.mp hd
    obtain ⟨d₃, hm⟩ := h.putMember_short hs hm hn
    have hp : r.putAll r.empty (before ++ [(name, n')]) = .ok d₃ :=
      Record.putAll_append_ok_iff.mpr ⟨d₁, d₃, h₁, hm, rfl⟩
    exact read_object_open hp rfl

theorem read_array_cut (h : r.Follows slots) (hs : ∀ f ∈ slots, Prompt f.reader)
    {items : List Node} {a : α} (hr : r.read (.array items none) = .ok a)
    (hc : Cut (.array items none) n') : r.read n' = .error (.fault .ended) := by
  obtain ⟨wanted, ht⟩ := h.read_array
  have hi := ht items none
  rw [hr] at hi
  obtain ⟨-, hl, hsuit⟩ := takeAll_ok hi.symm
  have last {before after : List Node} {n : Node} (he : items = before ++ n :: after) :
      ∃ f ∈ slots, slots[before.length]? = some f ∧ ∃ b, f.reader n = .ok b := by
    subst he
    have hb : before.length < slots.length := by
      simp at hl
      omega
    have hf := List.getElem?_eq_getElem hb
    exact ⟨_, List.getElem_mem hb, hf, hsuit _ _ n hf (by simp)⟩
  cases hc with
  | absent => rfl
  | bracket =>
    refine error_of_map ((ht _ _).trans (takeAll_ended nofun (Nat.zero_le _)))
  | @item n n' before after hc =>
    obtain ⟨f, hf, hg, b, hb⟩ := last rfl
    refine error_of_map ((ht _ _).trans ?_)
    rw [takeAll, takeSlots_error hsuit.of_append hg ((hs f hf).cut hc hb)]
    rfl
  | @afterItem n n' before after hn =>
    obtain ⟨f, hf, hg, b, hb⟩ := last rfl
    obtain ⟨b, hb⟩ := (hs f hf).short hn hb
    refine error_of_map ((ht _ _).trans (takeAll_ended ?_ ?_))
    · exact hsuit.of_append.concat hg ⟨b, hb⟩
    · simp at hl ⊢
      omega

theorem prompt (h : r.Follows slots) (hs : ∀ f ∈ slots, Prompt f.reader) : Prompt r.read where
  absent := rfl
  cut {n n' a} hc hr := by
    cases n with
    | object members ending =>
      obtain ⟨d, -, rfl, -⟩ := Record.read_object_ok_iff.mp hr
      exact h.read_object_cut hs hr hc
    | array items fault? =>
      obtain ⟨wanted, ht⟩ := h.read_array
      have hi := ht items fault?
      rw [hr] at hi
      obtain ⟨rfl, -, -⟩ := takeAll_ok hi.symm
      exact h.read_array_cut hs hr hc
    | _ => cases hr
  short := short_of_ne fun _ _ h => by cases h

end Record.Follows

end EventRouting.Json
