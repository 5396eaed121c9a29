import EventRouting.Json.ValueReader
import EventRouting.Proofs.Json.Patch

namespace EventRouting.Json

variable {δ : Type}

theorem ok_of_bind {ε α β : Type} {x : Except ε α} {f : α → Except ε β} {b : β}
    (h : (x >>= f) = .ok b) : ∃ a, x = .ok a ∧ f a = .ok b := by
  cases x with
  | error e => cases h
  | ok a => exact ⟨a, rfl, h⟩

theorem ok_of_map {ε α β : Type} {x : Except ε α} {f : α → β} {b : β}
    (h : f <$> x = .ok b) : ∃ a, x = .ok a ∧ f a = b := by
  cases x with
  | error e => cases h
  | ok a => exact ⟨a, rfl, Except.ok.inj h⟩

theorem fill_ok {α : Type} {slot slot' : Option α} {name : String} {value : Except DecodeError α}
    (h : fill slot name value = .ok slot') : slot = none ∧ ∃ a, value = .ok a ∧ slot' = some a := by
  cases slot with
  | some a => cases h
  | none =>
    cases value with
    | error e => cases h
    | ok a =>
      cases h
      exact ⟨rfl, a, rfl, rfl⟩

/-- A draft that takes in members, one after the other. -/
def putMembers (put : δ → String → Reader Value δ) (members : List (String × Value)) (d : δ) :
    Except DecodeError δ :=
  members.foldlM (fun d m => put d m.1 m.2) d

section Members

variable {put : δ → String → Reader Value δ} {d d' : δ} {member : String × Value}
  {members : List (String × Value)}

theorem Record.ofValue_object {α : Type} (r : Record Value α) (members : List (String × Value)) :
    r.ofValue (.object members) = putMembers r.put members r.empty >>= r.finish := rfl

theorem putMembers_cons : putMembers put (member :: members) d =
    put d member.1 member.2 >>= putMembers put members :=
  List.foldlM_cons

theorem putMembers_invariant {P : δ → Prop}
    (hp : ∀ {d d' name v}, P d → put d name v = .ok d' → P d') (hd : P d)
    (h : putMembers put members d = .ok d') : P d' := by
  induction members generalizing d with
  | nil =>
    cases h
    exact hd
  | cons member members ih =>
    obtain ⟨d₁, hm, hr⟩ := ok_of_bind (putMembers_cons.symm.trans h)
    exact ih (hp hd hm) hr

theorem exists_putMembers (hp : ∀ member ∈ members, ∀ d, ∃ d', put d member.1 member.2 = .ok d')
    (d : δ) : ∃ d', putMembers put members d = .ok d' := by
  induction members generalizing d with
  | nil => exact ⟨d, rfl⟩
  | cons member members ih =>
    obtain ⟨d₁, h₁⟩ := hp member (.head _) d
    obtain ⟨d', hd⟩ := ih (fun m hm => hp m (.tail _ hm)) d₁
    exact ⟨d', putMembers_cons.trans ((congrArg (· >>= _) h₁).trans hd)⟩

theorem exists_put (h : putMembers put members d = .ok d') :
    ∀ member ∈ members, ∃ d₁ d₂, put d₁ member.1 member.2 = .ok d₂ := by
  induction members generalizing d with
  | nil => exact fun _ hm => absurd hm List.not_mem_nil
  | cons member members ih =>
    obtain ⟨d₁, hm, hr⟩ := ok_of_bind (putMembers_cons.symm.trans h)
    exact List.forall_mem_cons.mpr ⟨⟨d, d₁, hm⟩, ih hr⟩

end Members

/-- A field of a record: its name, its reader and its slot in the draft. -/
structure RecordField (δ : Type) where
  name : String
  {α : Type}
  reader : Reader Value α
  slot : δ → Option α

/-- How a slot changes: what is under the name of the field is read into it, if there is something,
and it was empty before. -/
def RecordField.Fills (f : RecordField δ) (v? : Option Value) (d d' : δ) : Prop :=
  match v? with
  | none => f.slot d' = f.slot d
  | some v => f.slot d = none ∧ ∃ a, f.reader v = .ok a ∧ f.slot d' = some a

/-- A draft whose members go into the slots of their fields. -/
structure Slotted (fields : List (RecordField δ)) (put : δ → String → Reader Value δ) : Prop where
  fills : ∀ {d d' name v}, put d name v = .ok d' →
    ∀ f ∈ fields, f.Fills (if name = f.name then some v else none) d d'
  total : ∀ {d name v},
    (∀ f ∈ fields, name = f.name → f.slot d = none ∧ ∃ a, f.reader v = .ok a) →
      ∃ d', put d name v = .ok d'

theorem require_ok {α : Type} {slot : Option α} {name : String} {a : α}
    (h : require slot name = .ok a) : slot = some a := by
  cases slot with
  | none => cases h
  | some b => exact congrArg some (Except.ok.inj h)

theorem RecordField.Fills.exists_of_slot {f : RecordField δ} {v? : Option Value}
    {d d' : δ} {a : f.α}
    (h : f.Fills v? d d') (he : f.slot d = none) (ha : f.slot d' = some a) :
    ∃ v, v? = some v ∧ f.reader v = .ok a := by
  cases v? with
  | none =>
    have hs : f.slot d' = f.slot d := h
    cases (hs.trans he).symm.trans ha
  | some v =>
    obtain ⟨_, b, hb, hs⟩ := h
    cases hs.symm.trans ha
    exact ⟨v, rfl, hb⟩

theorem RecordField.Fills.slot_of_reader {f : RecordField δ} {v : Value} {d d' : δ} {a : f.α}
    (h : f.Fills (some v) d d') (ha : f.reader v = .ok a) : f.slot d' = some a := by
  obtain ⟨_, b, hb, hs⟩ := h
  cases hb.symm.trans ha
  exact hs

/-- What is under a name, or a default. -/
def readMember {α : Type} (members : List (String × Value)) (name : String)
    (reader : Reader Value α)
    (default : α) : Except DecodeError α :=
  (members.lookup name).elim (.ok default) reader

theorem exists_of_readMember {α : Type} {members : List (String × Value)} {name : String}
    {reader : Reader Value α} {default a : α} {v : Value}
    (h : readMember members name reader default = .ok a) (hv : members.lookup name = some v) :
    ∃ a, reader v = .ok a := by
  rw [readMember, hv] at h
  exact ⟨a, h⟩

/-- A part of the draft that only the members of one name change, where this name stands once. -/
theorem readMember_of_putMembers {α : Type} (put : δ → String → Reader Value δ) (slot : δ → α)
    {name : String} {reader : Reader Value α}
    (hr : ∀ {d d' v}, put d name v = .ok d' → reader v = .ok (slot d'))
    (hk : ∀ {d d' k v}, k ≠ name → put d k v = .ok d' → slot d' = slot d)
    {members : List (String × Value)} (hn : (members.map Prod.fst).Nodup) {d d' : δ}
    (h : putMembers put members d = .ok d') :
    readMember members name reader (slot d) = .ok (slot d') := by
  induction members generalizing d with
  | nil =>
    cases h
    rfl
  | cons member members ih =>
    obtain ⟨k, v⟩ := member
    obtain ⟨hm, hn⟩ := List.nodup_cons.mp hn
    obtain ⟨d₁, hv, hp⟩ := ok_of_bind (putMembers_cons.symm.trans h)
    have hi := ih hn hp
    rw [readMember] at hi ⊢
    rw [List.lookup_cons]
    by_cases he : k = name
    · subst he
      rw [lookup_eq_none hm] at hi
      rw [beq_self_eq_true]
      exact (hr hv).trans hi
    · rw [hk he hv] at hi
      rw [beq_false_of_ne (Ne.symm he)]
      exact hi

theorem RecordField.Fills.readMember {f : RecordField δ} {members : List (String × Value)}
    {d d' : δ}
    (h : f.Fills (members.lookup f.name) d d') (he : f.slot d = none) (default : f.α) :
    readMember members f.name f.reader default = .ok ((f.slot d').getD default) := by
  rw [Json.readMember]
  cases hl : members.lookup f.name with
  | none =>
    rw [hl] at h
    have hs : f.slot d' = f.slot d := h
    rw [hs, he]
    rfl
  | some v =>
    rw [hl] at h
    obtain ⟨_, a, ha, hs⟩ := h
    rw [hs]
    exact ha

namespace Slotted

variable {fields : List (RecordField δ)} {put : δ → String → Reader Value δ} {d d' : δ}
  {members : List (String × Value)}

theorem putMembers_fills (h : Slotted fields put) (hn : (members.map Prod.fst).Nodup)
    (hp : putMembers put members d = .ok d') :
    ∀ f ∈ fields, f.Fills (members.lookup f.name) d d' := by
  induction members generalizing d with
  | nil =>
    cases hp
    exact fun f _ => rfl
  | cons member members ih =>
    obtain ⟨name, v⟩ := member
    obtain ⟨hm, hn⟩ := List.nodup_cons.mp hn
    obtain ⟨d₁, hv, hp⟩ := ok_of_bind (putMembers_cons.symm.trans hp)
    intro f hf
    have hs := h.fills hv f hf
    have hr := ih hn hp f hf
    rw [List.lookup_cons]
    by_cases hk : name = f.name
    · rw [if_pos hk] at hs
      rw [lookup_eq_none (hk ▸ hm)] at hr
      rw [← hk, beq_self_eq_true]
      obtain ⟨he, a, ha, hd⟩ := hs
      exact ⟨he, a, ha, Eq.trans hr hd⟩
    · have he : f.slot d₁ = f.slot d := by
        rw [if_neg hk] at hs
        exact hs
      rw [beq_false_of_ne (Ne.symm hk)]
      unfold RecordField.Fills at hr ⊢
      rw [he] at hr
      exact hr

theorem exists_putMembers (h : Slotted fields put) (hn : (members.map Prod.fst).Nodup)
    (hr : ∀ f ∈ fields, ∀ v, members.lookup f.name = some v →
      f.slot d = none ∧ ∃ a, f.reader v = .ok a) :
    ∃ d', putMembers put members d = .ok d' := by
  induction members generalizing d with
  | nil => exact ⟨d, rfl⟩
  | cons member members ih =>
    obtain ⟨name, v⟩ := member
    obtain ⟨hm, hn⟩ := List.nodup_cons.mp hn
    have hl (k : String) (hk : k ≠ name) :
        List.lookup k ((name, v) :: members) = members.lookup k := by
      rw [List.lookup_cons, beq_false_of_ne hk]
    obtain ⟨d₁, hv⟩ := h.total fun f hf hk => hr f hf v (hk ▸ List.lookup_cons_self)
    obtain ⟨d', hd⟩ := ih hn (d := d₁) fun f hf w hw => by
      have hk : f.name ≠ name := by
        rintro rfl
        cases (lookup_eq_none hm).symm.trans hw
      have hs := h.fills hv f hf
      rw [if_neg (Ne.symm hk)] at hs
      obtain ⟨he, ha⟩ := hr f hf w ((hl _ hk).trans hw)
      exact ⟨Eq.trans hs he, ha⟩
    exact ⟨d', putMembers_cons.trans ((congrArg (· >>= _) hv).trans hd)⟩

end Slotted

end EventRouting.Json
