import EventRouting.Proofs.Json.Faultless
import EventRouting.Proofs.Json.Slots

namespace EventRouting.Json

variable {α : Type} {n : Node}

/-- A change of a text that readers of a layout must ignore. -/
inductive Edit : Layout → Node → Node → Prop where
  | item {L : Layout} {n n' : Node} {before after : List Node} : Edit L n n' →
      Edit (.list L) (.array (before ++ n :: after) none) (.array (before ++ n' :: after) none)
  /-- A change inside the value of a field. -/
  | value {fields : List Layout.Field} {field : Layout.Field}
      {name : Spelling} {n n' : Node} {before after : List (Spelling × Node)} : field ∈ fields →
      name.decode = .ok field.name → Edit field.layout n n' →
      Edit (.record fields) (.object (before ++ (name, n) :: after) .closed)
        (.object (before ++ (name, n') :: after) .closed)
  /-- A member that is no field, whatever its value is. -/
  | insert {fields : List Layout.Field} {name : Spelling} {text : String}
      {n : Node} {s : List UInt8} {before after : List (Spelling × Node)} :
      name.decode = .ok text → text ∉ fields.map Layout.Field.name → Text n s →
      Edit (.record fields) (.object (before ++ after) .closed)
        (.object (before ++ (name, n) :: after) .closed)
  | reorder {fields : List Layout.Field} {members members' : List (Spelling × Node)} :
      members.Perm members' →
      Edit (.record fields) (.object members .closed) (.object members' .closed)
  /-- A field that has its default anyway. -/
  | drop {fields : List Layout.Field} {field : Layout.Field}
      {name : Spelling} {n : Node} {before after : List (Spelling × Node)} : field ∈ fields →
      name.decode = .ok field.name → field.IsDefault n →
      Edit (.record fields) (.object (before ++ (name, n) :: after) .closed)
        (.object (before ++ after) .closed)

/-- A field stands twice in some record, however its name is spelled. Records are looked for where
a reader of the layout finds them, also in arrays that stand for records. -/
inductive Ambiguous : Layout → Node → Prop where
  | twice {fields : List Layout.Field} {name name' : Spelling} {text : String}
      {n n' : Node} {before between after : List (Spelling × Node)} {ending : Ending} :
      name.decode = .ok text → name'.decode = .ok text → text ∈ fields.map Layout.Field.name →
      Ambiguous (.record fields)
        (.object (before ++ (name, n) :: (between ++ (name', n') :: after)) ending)
  | value {fields : List Layout.Field} {field : Layout.Field}
      {name : Spelling} {n : Node} {before after : List (Spelling × Node)} {ending : Ending} :
      field ∈ fields → name.decode = .ok field.name → Ambiguous field.layout n →
      Ambiguous (.record fields) (.object (before ++ (name, n) :: after) ending)
  | element {fields : List Layout.Field} {field : Layout.Field}
      {i : Nat} {n : Node} {items : List Node} {fault? : Option Fault} : fields[i]? = some field →
      items[i]? = some n → Ambiguous field.layout n →
      Ambiguous (.record fields) (.array items fault?)
  | item {L : Layout} {n : Node} {items : List Node} {fault? : Option Fault} : n ∈ items →
      Ambiguous L n → Ambiguous (.list L) (.array items fault?)

/-- A reader that goes by a layout. -/
structure Fits (reader : Reader Node α) (layout : Layout) : Prop where
  /-- Only nodes without faults are accepted. -/
  faultless : ∀ {n a}, reader n = .ok a → n.fault? = none
  edit : ∀ {n n' a}, Edit layout n n' → reader n = .ok a → reader n' = .ok a
  unambiguous : ∀ {n a}, reader n = .ok a → ¬Ambiguous layout n

theorem Edit.ne_null {L : Layout} {n n' : Node} (h : Edit L n n') :
    n ≠ .scalar .null ∧ n' ≠ .scalar .null := by
  cases h <;> exact ⟨nofun, nofun⟩

theorem not_ambiguous_null {L : Layout} : ¬Ambiguous L (.scalar .null) := nofun

theorem fits_plain {reader : Reader Node α}
    (h : ∀ {n a}, reader n = .ok a → n.fault? = none) : Fits reader .plain :=
  ⟨h, nofun, nofun⟩

theorem bytes_broken (pieces : List Piece) (f : Fault) (bytes : List UInt8) :
    Piece.bytes pieces (some f) ≠ .ok bytes := by
  generalize hg : some f = g
  fun_induction Piece.bytes pieces g generalizing bytes
  case case1 => cases hg
  case case3 ih | case4 ih | case6 ih =>
    intro h
    obtain ⟨rest, hr, -⟩ := ok_of_map h
    exact ih rest hg hr
  all_goals exact nofun

theorem decode_faultless {s : Spelling} {text : String} (h : s.decode = .ok text) :
    s.fault? = none := by
  rw [Spelling.decode] at h
  split at h
  next => cases h
  next bytes hb =>
    cases hf : s.fault? with
    | none => rfl
    | some f =>
      rw [hf] at hb
      exact absurd hb (bytes_broken _ _ _)

theorem fits_string : Fits Node.readString .plain := by
  refine fits_plain fun {n s} h => ?_
  cases n with
  | string t => exact decode_faultless h
  | _ => cases h

theorem fits_nat (bound : Nat) (wanted : String) : Fits (Node.readNat bound wanted) .plain := by
  refine fits_plain fun {n s} h => ?_
  unfold Node.readNat at h
  split at h
  · rfl
  · cases h

theorem fits_map {β : Type} {reader : Reader Node α} {layout : Layout} (h : Fits reader layout)
    (f : α → β) : Fits (fun n => f <$> reader n) layout where
  faultless hr := by
    obtain ⟨a, ha, -⟩ := ok_of_map hr
    exact h.faultless ha
  edit he hr := by
    obtain ⟨a, ha, rfl⟩ := ok_of_map hr
    rw [h.edit he ha]
    rfl
  unambiguous hr := by
    obtain ⟨a, ha, -⟩ := ok_of_map hr
    exact h.unambiguous ha

theorem fits_uint64 : Fits Node.readUInt64 .plain := fits_map (fits_nat _ _) _

theorem fits_uint32 : Fits Node.readUInt32 .plain := fits_map (fits_nat _ _) _

theorem readUnit_ok {n : Node} {u : Unit} (h : n.readUnit = .ok u) : n = .scalar .null := by
  unfold Node.readUnit at h
  split at h
  · rfl
  · cases h

theorem readVariant_ok {variants : List (String × α)} {a : α}
    (h : Node.readVariant variants n = .ok a) :
    (∃ s text, n = .string s ∧ s.decode = .ok text) ∨ ∃ name text,
      n = .object [(name, .scalar .null)] .closed ∧ name.decode = .ok text ∧
        variant variants text = .ok a := by
  unfold Node.readVariant at h
  split at h
  next s =>
    obtain ⟨text, ht, -⟩ := ok_of_bind h
    exact .inl ⟨s, text, rfl, ht⟩
  next => cases h
  next => cases h
  next => cases h
  next name n members ending =>
    obtain ⟨text, ht, h⟩ := ok_of_bind h
    obtain ⟨b, hb, h⟩ := ok_of_bind h
    obtain ⟨u, hu, h⟩ := ok_of_bind h
    split at h
    next =>
      cases h
      rw [readUnit_ok hu]
      exact .inr ⟨name, text, rfl, ht, hb⟩
    next => cases h
    next => cases h
  all_goals cases h

theorem fits_variant (variants : List (String × α)) : Fits (Node.readVariant variants) .plain := by
  refine fits_plain fun {n a} h => ?_
  rcases readVariant_ok h with ⟨s, text, rfl, ht⟩ | ⟨name, text, rfl, ht, -⟩
  · exact decode_faultless ht
  · exact object_fault?_eq_none.mpr ⟨List.forall_mem_singleton.mpr ⟨decode_faultless ht, rfl⟩, rfl⟩

theorem readOption_of_ne {reader : Reader Node α} {n : Node} (h : n ≠ .scalar .null) :
    Node.readOption reader n = some <$> reader n := by
  unfold Node.readOption
  split
  · exact absurd rfl h
  · rfl

theorem fits_option {reader : Reader Node α} {layout : Layout} (h : Fits reader layout) :
    Fits (Node.readOption reader) layout where
  faultless {n a} hr := by
    by_cases hn : n = .scalar .null
    · rw [hn]
      rfl
    · rw [readOption_of_ne hn] at hr
      exact (fits_map h some).faultless hr
  edit he hr := by
    rw [readOption_of_ne he.ne_null.1] at hr
    rw [readOption_of_ne he.ne_null.2]
    exact (fits_map h some).edit he hr
  unambiguous {n a} hr ha := by
    have hn : n ≠ .scalar .null := by
      rintro rfl
      exact not_ambiguous_null ha
    rw [readOption_of_ne hn] at hr
    exact (fits_map h some).unambiguous hr ha

theorem readList_ok {reader : Reader Node α} {n : Node} {l : List α}
    (h : Node.readList reader n = .ok l) : ∃ items, n = .array items none ∧
      items.mapM reader = .ok l := by
  unfold Node.readList at h
  split at h
  next items fault? =>
    obtain ⟨l', hl, h⟩ := ok_of_bind h
    obtain ⟨u, hu, h⟩ := ok_of_bind h
    cases h
    cases fault? with
    | none => exact ⟨items, rfl, hl⟩
    | some f => cases hu
  next => cases h

theorem readList_of_mapM {reader : Reader Node α} {items : List Node} {l : List α}
    (h : items.mapM reader = .ok l) : Node.readList reader (.array items none) = .ok l := by
  rw [Node.readList, h]
  rfl

theorem mapM_mem {reader : Reader Node α} {items : List Node} {l : List α}
    (h : items.mapM reader = .ok l) : ∀ n ∈ items, ∃ a, reader n = .ok a := by
  induction items generalizing l with
  | nil => exact nofun
  | cons n items ih =>
    rw [List.mapM_cons] at h
    obtain ⟨a, ha, h⟩ := ok_of_bind h
    obtain ⟨l', hl, -⟩ := ok_of_bind h
    exact List.forall_mem_cons.mpr ⟨⟨a, ha⟩, ih hl⟩

theorem fits_list {reader : Reader Node α} {layout : Layout} (h : Fits reader layout) :
    Fits (Node.readList reader) (.list layout) where
  faultless hr := by
    obtain ⟨items, rfl, hl⟩ := readList_ok hr
    refine array_fault?_eq_none.mpr ⟨fun n hn => ?_, rfl⟩
    obtain ⟨a, ha⟩ := mapM_mem hl n hn
    exact h.faultless ha
  edit he hr := by
    cases he with
    | @item _ n n' before after he =>
      obtain ⟨items, hi, hl⟩ := readList_ok hr
      cases hi
      obtain ⟨a, ha⟩ := mapM_mem hl n (List.mem_append_right _ (.head _))
      refine readList_of_mapM ?_
      rw [List.mapM_append, List.mapM_cons] at hl ⊢
      rw [h.edit he ha, ← ha]
      exact hl
  unambiguous hr ha := by
    cases ha with
    | item hn ha =>
      obtain ⟨items, hi, hl⟩ := readList_ok hr
      cases hi
      obtain ⟨a, hr⟩ := mapM_mem hl _ hn
      exact h.unambiguous hr ha

namespace Record.Follows

variable {r : Record Node α} {slots : List (Slot r.Draft)}

theorem mem_names (slots : List (Slot r.Draft)) :
    (slots.map Slot.field).map Layout.Field.name = slots.map Slot.name :=
  List.map_map

theorem putMember_slot (h : r.Follows slots) {f : Slot r.Draft} (hf : f ∈ slots) {d d' : r.Draft}
    {name : Spelling} {n : Node} (hn : name.decode = .ok f.name)
    (hp : r.putMember d (name, n) = .ok d') :
    f.get d = none ∧ ∃ a, f.reader n = .ok a ∧ d' = f.set d (some a) := by
  obtain ⟨text, ht, hp⟩ := h.putMember_ok_iff.mp hp
  obtain rfl : f.name = text := Except.ok.inj (hn.symm.trans ht)
  exact h.puts_slot hf hp

theorem putMember_faultless (h : r.Follows slots) (hs : ∀ f ∈ slots, Fits f.reader f.layout)
    {d d' : r.Draft} {m : Spelling × Node} (hp : r.putMember d m = .ok d') :
    m.1.fault? = none ∧ m.2.fault? = none := by
  obtain ⟨name, hm, hp⟩ := h.putMember_ok_iff.mp hp
  refine ⟨decode_faultless hm, ?_⟩
  generalize m.2 = n at hp
  cases hp with
  | slot hf _ ha => exact (hs _ hf).faultless ha
  | other _ hn => exact hn

theorem putAll_faultless (h : r.Follows slots) (hs : ∀ f ∈ slots, Fits f.reader f.layout)
    {members : List (Spelling × Node)} {d d' : r.Draft} (hp : r.putAll d members = .ok d') :
    ∀ m ∈ members, m.1.fault? = none ∧ m.2.fault? = none := by
  intro m hm
  obtain ⟨before, after, rfl⟩ := List.append_of_mem hm
  obtain ⟨d₁, d₂, -, hp, -⟩ := Record.putAll_append_ok_iff.mp hp
  exact h.putMember_faultless hs hp

theorem faultless (h : r.Follows slots) (hs : ∀ f ∈ slots, Fits f.reader f.layout) {n : Node}
    {a : α} (hr : r.read n = .ok a) : n.fault? = none := by
  cases n with
  | object members ending =>
    obtain ⟨d, hd, rfl, -⟩ := Record.read_object_ok_iff.mp hr
    exact object_fault?_eq_none.mpr ⟨h.putAll_faultless hs hd, rfl⟩
  | array items fault? =>
    obtain ⟨wanted, ht⟩ := h.read_array
    have ht := ht items fault?
    rw [hr] at ht
    obtain ⟨rfl, hl, ha⟩ := takeAll_ok ht.symm
    refine array_fault?_eq_none.mpr ⟨fun n hn => ?_, rfl⟩
    obtain ⟨i, hi, rfl⟩ := List.mem_iff_getElem.mp hn
    have hf := List.getElem?_eq_getElem (Nat.lt_of_lt_of_le hi hl)
    obtain ⟨a, ha⟩ := ha i _ _ hf (List.getElem?_eq_getElem hi)
    exact (hs _ (List.getElem_mem _)).faultless ha
  | _ => cases hr

theorem edit (h : r.Follows slots) (hs : ∀ f ∈ slots, Fits f.reader f.layout) {n n' : Node} {a : α}
    (he : Edit (.ofSlots slots) n n') (hr : r.read n = .ok a) : r.read n' = .ok a := by
  unfold Layout.ofSlots at he
  cases he with
  | @value _ _ name n n' before after hl hn he =>
    obtain ⟨f, hf, rfl⟩ := List.mem_map.mp hl
    obtain ⟨d, hd, -, ha⟩ := Record.read_object_ok_iff.mp hr
    obtain ⟨d₁, d₂, h₁, hm, h₂⟩ := Record.putAll_append_ok_iff.mp hd
    refine Record.read_object_ok_iff.mpr ⟨d, ?_, rfl, ha⟩
    refine Record.putAll_append_ok_iff.mpr ⟨d₁, d₂, h₁, ?_, h₂⟩
    obtain ⟨hd, b, hb, rfl⟩ := h.putMember_slot hf hn hm
    exact h.putMember_ok_iff.mpr ⟨f.name, hn, .slot hf hd ((hs f hf).edit he hb)⟩
  | @insert _ name text n s before after hn hm ht =>
    obtain ⟨d, hd, -, ha⟩ := Record.read_object_ok_iff.mp hr
    obtain ⟨d₁, h₁, h₂⟩ := ok_of_bind (Record.putAll_append.symm.trans hd)
    refine Record.read_object_ok_iff.mpr ⟨d, ?_, rfl, ha⟩
    refine Record.putAll_append_ok_iff.mpr ⟨d₁, d₁, h₁, ?_, h₂⟩
    rw [mem_names] at hm
    exact h.putMember_ok_iff.mpr ⟨text, hn, .other hm ht.faultless⟩
  | reorder hp =>
    obtain ⟨d, hd, -, ha⟩ := Record.read_object_ok_iff.mp hr
    exact Record.read_object_ok_iff.mpr ⟨d, h.putAll_perm hp hd, rfl, ha⟩
  | @drop _ _ name n before after hl hn hdef =>
    obtain ⟨f, hf, rfl⟩ := List.mem_map.mp hl
    obtain ⟨b, hdef, hb⟩ := hdef
    obtain ⟨d, hd, -, ha⟩ := Record.read_object_ok_iff.mp hr
    -- The member may as well be the last one, where the draft is finished next.
    have hp := h.putAll_perm (List.perm_middle.trans (List.perm_append_singleton _ _).symm) hd
    obtain ⟨d₁, d₂, h₁, hm, h₂⟩ := Record.putAll_append_ok_iff.mp hp
    cases h₂
    obtain ⟨he, c, hc, rfl⟩ := h.putMember_slot hf hn hm
    cases hb.symm.trans hc
    rw [← hdef, h.finish_default f hf, h.set_none hf he] at ha
    exact Record.read_object_ok_iff.mpr ⟨d₁, h₁, rfl, ha⟩

theorem unambiguous (h : r.Follows slots) (hs : ∀ f ∈ slots, Fits f.reader f.layout) {n : Node}
    {a : α} (hr : r.read n = .ok a) : ¬Ambiguous (.ofSlots slots) n := by
  intro ha
  unfold Layout.ofSlots at ha
  cases ha with
  | @twice _ name name' text n n' before between after ending hn hn' ht =>
    rw [mem_names] at ht
    obtain ⟨f, hf, rfl⟩ := List.mem_map.mp ht
    obtain ⟨d, hd, -, -⟩ := Record.read_object_ok_iff.mp hr
    obtain ⟨d₁, d₂, -, hm, hd⟩ := Record.putAll_append_ok_iff.mp hd
    obtain ⟨d₃, d₄, hb, hm', -⟩ := Record.putAll_append_ok_iff.mp hd
    obtain ⟨-, b, -, rfl⟩ := h.putMember_slot hf hn hm
    obtain ⟨he, -⟩ := h.putMember_slot hf hn' hm'
    cases he.symm.trans (h.get_of_putAll hb hf (h.get_set f hf d₁ (some b)))
  | @value _ _ name n before after ending hl hn ha =>
    obtain ⟨f, hf, rfl⟩ := List.mem_map.mp hl
    obtain ⟨d, hd, -, -⟩ := Record.read_object_ok_iff.mp hr
    obtain ⟨d₁, d₂, -, hm, -⟩ := Record.putAll_append_ok_iff.mp hd
    obtain ⟨-, b, hb, -⟩ := h.putMember_slot hf hn hm
    exact (hs f hf).unambiguous hb ha
  | @element _ _ i n items fault? hl hn ha =>
    rw [List.getElem?_map] at hl
    obtain ⟨f, hf, rfl⟩ := Option.map_eq_some_iff.mp hl
    obtain ⟨wanted, ht⟩ := h.read_array
    have ht := ht items fault?
    rw [hr] at ht
    obtain ⟨-, -, hi⟩ := takeAll_ok ht.symm
    obtain ⟨b, hb⟩ := hi i f n hf hn
    exact (hs f (List.mem_of_getElem? hf)).unambiguous hb ha

theorem fits (h : r.Follows slots) (hs : ∀ f ∈ slots, Fits f.reader f.layout) :
    Fits r.read (.ofSlots slots) :=
  ⟨h.faultless hs, h.edit hs, h.unambiguous hs⟩

end Record.Follows

end EventRouting.Json
