import EventRouting.Json.Reader
import EventRouting.Proofs.Json.Record
import Mathlib.Data.List.Nodup
import Mathlib.Data.List.Pairwise

namespace EventRouting.Json

variable {α β δ : Type}

/-- How a text is laid out that a reader understands. A field of a record has a name, its own
layout, and the nodes that say nothing more than its default. -/
inductive Layout where
  | plain
  | list (item : Layout)
  | record (fields : List (String × Layout × (Node → Prop)))

abbrev Layout.Field := String × Layout × (Node → Prop)

def Layout.Field.name (f : Layout.Field) : String := f.1

def Layout.Field.layout (f : Layout.Field) : Layout := f.2.1

/-- The value says nothing more than the default. -/
def Layout.Field.IsDefault (f : Layout.Field) : Node → Prop := f.2.2

/-- A field of a record, with its place in the draft. -/
structure Slot (δ : Type) where
  name : String
  {α : Type}
  reader : Reader Node α
  get : δ → Option α
  set : δ → Option α → δ
  /-- The value if the field is missing, unless it must not be. -/
  default? : Option α
  layout : Layout

def Slot.field (f : Slot δ) : Layout.Field :=
  (f.name, f.layout, fun n => ∃ a, f.default? = some a ∧ f.reader n = .ok a)

def Layout.ofSlots (slots : List (Slot δ)) : Layout := .record (slots.map Slot.field)

/-- The slots that are filled from the elements of an array, one after the other. -/
def takeSlots (wanted : String) : List (Slot δ) → Elements Node → Except DecodeError (Elements Node)
  | [], e => .ok e
  | f :: slots, e =>
    match e.items, e.fault? with
    | n :: items, _ => do
      let _ ← f.reader n
      takeSlots wanted slots { e with items, count := e.count + 1 }
    | [], some fault => .error (.fault fault)
    | [], none =>
      if f.default?.isSome then takeSlots wanted slots e
      else .error (.mismatch (.invalidLength e.count wanted))

/-- A reader of elements that fills slots. -/
def Takes (wanted : String) (slots : List (Slot δ)) (p : FieldReader Node α) : Prop :=
  ∀ e, Prod.snd <$> p.run e = takeSlots wanted slots e

theorem takes_pure (wanted : String) (a : α) :
    Takes wanted ([] : List (Slot δ)) (pure a : FieldReader Node α) :=
  fun _ => rfl

theorem nextField?_cons (reader : Reader Node α) (n : Node) (items : List Node)
    (fault? : Option Fault) (count : Nat) : (nextField? reader).run ⟨n :: items, fault?, count⟩ =
      reader n >>= fun a => pure (some a, ⟨items, fault?, count + 1⟩) := rfl

theorem takeSlots_cons (wanted : String) (f : Slot δ) (slots : List (Slot δ)) (n : Node)
    (items : List Node) (fault? : Option Fault) (count : Nat) :
    takeSlots wanted (f :: slots) ⟨n :: items, fault?, count⟩ =
      f.reader n >>= fun _ => takeSlots wanted slots ⟨items, fault?, count + 1⟩ := rfl

section Takes

variable {wanted : String} {f : Slot δ} {slots : List (Slot δ)} {k : f.α → FieldReader Node β}

theorem takes_fieldD {a : f.α} (hf : f.default?.isSome = true)
    (hk : ∀ a, Takes wanted slots (k a)) :
    Takes wanted (f :: slots) (nextFieldD f.reader a >>= k) := by
  intro ⟨items, fault?, count⟩
  cases items with
  | nil =>
    cases fault? with
    | none =>
      rw [takeSlots, if_pos hf, ← hk a]
      rfl
    | some fault => rfl
  | cons n items =>
    rw [takeSlots_cons, StateT.run_bind, nextFieldD, StateT.run_bind, nextField?_cons]
    cases f.reader n with
    | error e => rfl
    | ok b => exact hk b _

theorem takes_field (hf : f.default? = none) (hk : ∀ a, Takes wanted slots (k a)) :
    Takes wanted (f :: slots) (nextField f.reader wanted >>= k) := by
  intro ⟨items, fault?, count⟩
  cases items with
  | nil =>
    cases fault? with
    | none =>
      rw [takeSlots, hf, if_neg (by simp)]
      rfl
    | some fault => rfl
  | cons n items =>
    rw [takeSlots_cons, StateT.run_bind, nextField, StateT.run_bind, nextField?_cons]
    cases f.reader n with
    | error e => rfl
    | ok b => exact hk b _

end Takes

/-- Filling either slot leaves the other one as it is. -/
def Slot.Apart (f g : Slot δ) : Prop :=
  (∀ d a, g.get (f.set d a) = g.get d) ∧ ∀ d a, f.get (g.set d a) = f.get d

instance : Std.Symm (@Slot.Apart δ) := ⟨fun _ _ h => ⟨h.2, h.1⟩⟩

/-- What a record does with the members of an object and with the elements of an array. -/
structure Record.Follows (r : Record Node α) (slots : List (Slot r.Draft)) : Prop where
  nodup : (slots.map Slot.name).Nodup
  put_slot : ∀ f ∈ slots, ∀ d n, r.put d f.name n = f.set d <$> fill (f.get d) f.name (f.reader n)
  put_other : ∀ name, name ∉ slots.map Slot.name → ∀ d n, r.put d name n = (fun _ => d) <$> n.skip
  get_set : ∀ f ∈ slots, ∀ d a, f.get (f.set d a) = a
  apart : slots.Pairwise Slot.Apart
  ext : ∀ d d', (∀ f ∈ slots, f.get d = f.get d') → d = d'
  finish_default : ∀ f ∈ slots, ∀ d, r.finish (f.set d f.default?) = r.finish (f.set d none)
  elements : ∃ wanted, Takes wanted slots r.elements

/-- What becomes of a draft when a member is put into it. -/
inductive Puts (slots : List (Slot δ)) (d : δ) : String → Node → δ → Prop where
  | slot {f : Slot δ} {n : Node} {a : f.α} : f ∈ slots → f.get d = none → f.reader n = .ok a →
      Puts slots d f.name n (f.set d (some a))
  | other {name : String} {n : Node} : name ∉ slots.map Slot.name → n.fault? = none →
      Puts slots d name n d

theorem skip_eq_ok {n : Node} {u : Unit} : n.skip = .ok u ↔ n.fault? = none := by
  rw [Node.skip]
  cases n.fault? <;> simp

namespace Record.Follows

variable {r : Record Node α} {slots : List (Slot r.Draft)} {d d₁ d₂ d' : r.Draft}
  {f g : Slot r.Draft} {name : String} {n : Node} {members members' : List (Spelling × Node)}

theorem slot_eq (h : r.Follows slots) (hf : f ∈ slots) (hg : g ∈ slots) (he : f.name = g.name) :
    f = g :=
  List.inj_on_of_nodup_map h.nodup hf hg he

theorem get_set_of_ne (h : r.Follows slots) (hf : f ∈ slots) (hg : g ∈ slots) (hn : f ≠ g)
    (d : r.Draft) (a : Option f.α) : g.get (f.set d a) = g.get d :=
  (h.apart.forall hf hg hn).1 d a

theorem set_comm (h : r.Follows slots) (hf : f ∈ slots) (hg : g ∈ slots) (hn : f ≠ g)
    (a : Option f.α) (b : Option g.α) : f.set (g.set d b) a = g.set (f.set d a) b := by
  refine h.ext _ _ fun k hk => ?_
  by_cases hkf : k = f
  · subst hkf
    rw [h.get_set k hk, h.get_set_of_ne hg hk hn.symm, h.get_set k hk]
  · by_cases hkg : k = g
    · subst hkg
      rw [h.get_set_of_ne hf hk hn, h.get_set k hk, h.get_set k hk]
    · rw [h.get_set_of_ne hf hk (Ne.symm hkf), h.get_set_of_ne hg hk (Ne.symm hkg),
        h.get_set_of_ne hg hk (Ne.symm hkg), h.get_set_of_ne hf hk (Ne.symm hkf)]

theorem set_none (h : r.Follows slots) (hf : f ∈ slots) (hd : f.get d = none) :
    f.set d none = d := by
  refine h.ext _ _ fun k hk => ?_
  by_cases hkf : k = f
  · subst hkf
    rw [h.get_set k hk, hd]
  · rw [h.get_set_of_ne hf hk (Ne.symm hkf)]

theorem put_ok_iff (h : r.Follows slots) : r.put d name n = .ok d' ↔ Puts slots d name n d' := by
  constructor
  · intro hp
    by_cases hm : name ∈ slots.map Slot.name
    · obtain ⟨f, hf, rfl⟩ := List.mem_map.mp hm
      rw [h.put_slot f hf] at hp
      obtain ⟨slot, hs, rfl⟩ := ok_of_map hp
      obtain ⟨hd, a, ha, rfl⟩ := fill_ok hs
      exact .slot hf hd ha
    · rw [h.put_other name hm] at hp
      obtain ⟨u, hs, rfl⟩ := ok_of_map hp
      exact .other hm (skip_eq_ok.mp hs)
  · intro hp
    cases hp with
    | @slot f n a hf hd ha =>
      rw [h.put_slot f hf, hd, ha]
      rfl
    | other hm hn =>
      rw [h.put_other name hm, (@skip_eq_ok n ()).mpr hn]
      rfl

theorem puts_slot (h : r.Follows slots) (hf : f ∈ slots) (hp : Puts slots d f.name n d') :
    f.get d = none ∧ ∃ a, f.reader n = .ok a ∧ d' = f.set d (some a) := by
  generalize hk : f.name = name at hp
  cases hp with
  | @slot g n a hg hd ha =>
    obtain rfl := h.slot_eq hf hg hk
    exact ⟨hd, a, ha, rfl⟩
  | other hm => exact absurd (List.mem_map_of_mem hf) (hk ▸ hm)

theorem get_of_puts (h : r.Follows slots) (hp : Puts slots d name n d') (hg : g ∈ slots) {b : g.α}
    (hb : g.get d = some b) : g.get d' = some b := by
  cases hp with
  | @slot f n a hf hd ha =>
    have hn : f ≠ g := by
      rintro rfl
      cases hd.symm.trans hb
    rw [h.get_set_of_ne hf hg hn, hb]
  | other => exact hb

theorem puts_swap (h : r.Follows slots) {k l : String} {m : Node} (hk : Puts slots d k n d₁)
    (hl : Puts slots d₁ l m d₂) : ∃ d₃, Puts slots d l m d₃ ∧ Puts slots d₃ k n d₂ := by
  cases hk with
  | other hk hn => exact ⟨d₂, hl, .other hk hn⟩
  | @slot f n a hf hd ha =>
    cases hl with
    | other hl hm => exact ⟨d, .other hl hm, .slot hf hd ha⟩
    | @slot g m b hg hd' hb =>
      have hn : f ≠ g := by
        rintro rfl
        cases (h.get_set f hf d (some a)).symm.trans hd'
      rw [h.get_set_of_ne hf hg hn] at hd'
      refine ⟨_, .slot hg hd' hb, ?_⟩
      rw [← h.set_comm hf hg hn]
      exact .slot hf ((h.get_set_of_ne hg hf hn.symm _ _).trans hd) ha

theorem putMember_ok_iff (h : r.Follows slots) {m : Spelling × Node} :
    r.putMember d m = .ok d' ↔ ∃ name, m.1.decode = .ok name ∧ Puts slots d name m.2 d' := by
  rw [Record.putMember]
  cases m.1.decode with
  | error e => exact iff_of_false nofun nofun
  | ok name =>
    change r.put d name m.2 = .ok d' ↔ _
    rw [h.put_ok_iff]
    constructor
    · exact fun hp => ⟨name, rfl, hp⟩
    · rintro ⟨_, ⟨⟩, hp⟩
      exact hp

end Record.Follows

/-- The draft after all members were put into it. -/
abbrev Record.putAll (r : Record Node α) (d : r.Draft) (members : List (Spelling × Node)) :
    Except DecodeError r.Draft :=
  members.foldlM r.putMember d

namespace Record

variable {r : Record Node α} {d d' : r.Draft} {m : Spelling × Node}
  {members members' : List (Spelling × Node)}

theorem putAll_cons : r.putAll d (m :: members) = (r.putMember d m >>= (r.putAll · members)) :=
  List.foldlM_cons

theorem putAll_append :
    r.putAll d (members ++ members') = (r.putAll d members >>= (r.putAll · members')) :=
  List.foldlM_append

theorem putAll_append_ok_iff : r.putAll d (members ++ m :: members') = .ok d' ↔
    ∃ d₁ d₂, r.putAll d members = .ok d₁ ∧ r.putMember d₁ m = .ok d₂ ∧
      r.putAll d₂ members' = .ok d' := by
  rw [putAll_append]
  constructor
  · intro h
    obtain ⟨d₁, h₁, h⟩ := ok_of_bind h
    obtain ⟨d₂, h₂, h⟩ := ok_of_bind (putAll_cons.symm.trans h)
    exact ⟨d₁, d₂, h₁, h₂, h⟩
  · rintro ⟨d₁, d₂, h₁, h₂, h⟩
    rw [h₁]
    refine putAll_cons.trans ?_
    rw [h₂]
    exact h

theorem read_object_ok_iff {ending : Ending} {a : α} : r.read (.object members ending) = .ok a ↔
    ∃ d, r.putAll r.empty members = .ok d ∧ ending = .closed ∧ r.finish d = .ok a := by
  rw [Record.read]
  constructor
  · intro h
    obtain ⟨d, hd, h⟩ := ok_of_bind h
    obtain ⟨u, hc, h⟩ := ok_of_bind h
    cases ending with
    | closed => exact ⟨d, hd, rfl, h⟩
    | broken f => cases hc
    | nameless found => cases hc
  · rintro ⟨d, hd, rfl, h⟩
    rw [putAll] at hd
    rw [hd]
    exact h

end Record

namespace Record.Follows

variable {r : Record Node α} {slots : List (Slot r.Draft)} {d d' : r.Draft}
  {members members' : List (Spelling × Node)}

theorem get_of_putAll (h : r.Follows slots) (hp : r.putAll d members = .ok d') {f : Slot r.Draft}
    (hf : f ∈ slots) {a : f.α} (ha : f.get d = some a) : f.get d' = some a := by
  induction members generalizing d with
  | nil =>
    cases hp
    exact ha
  | cons m members ih =>
    obtain ⟨d₁, h₁, hp⟩ := ok_of_bind (putAll_cons.symm.trans hp)
    obtain ⟨name, -, hm⟩ := h.putMember_ok_iff.mp h₁
    exact ih hp (h.get_of_puts hm hf ha)

theorem putAll_perm (h : r.Follows slots) (hp : members.Perm members')
    (hd : r.putAll d members = .ok d') : r.putAll d members' = .ok d' := by
  induction hp generalizing d with
  | nil => exact hd
  | cons m _ ih =>
    obtain ⟨d₁, h₁, hd⟩ := ok_of_bind (putAll_cons.symm.trans hd)
    refine putAll_cons.trans ?_
    rw [h₁]
    exact ih hd
  | swap m l members =>
    obtain ⟨d₁, h₁, hd⟩ := ok_of_bind (putAll_cons.symm.trans hd)
    obtain ⟨d₂, h₂, hd⟩ := ok_of_bind (putAll_cons.symm.trans hd)
    obtain ⟨k, hk, hp⟩ := h.putMember_ok_iff.mp h₁
    obtain ⟨l, hl, hq⟩ := h.putMember_ok_iff.mp h₂
    obtain ⟨d₃, hq', hp'⟩ := h.puts_swap hp hq
    refine putAll_cons.trans ?_
    rw [h.putMember_ok_iff.mpr ⟨l, hl, hq'⟩]
    refine putAll_cons.trans ?_
    rw [h.putMember_ok_iff.mpr ⟨k, hk, hp'⟩]
    exact hd
  | trans _ _ ih ih' => exact ih' (ih hd)

end Record.Follows

/-- All elements of an array are taken, and the array ends there. -/
def takeAll (wanted : String) (slots : List (Slot δ)) (items : List Node) (fault? : Option Fault) :
    Except DecodeError Unit := do
  let rest ← takeSlots wanted slots { items, fault? }
  if rest.items.isEmpty then Node.endArray rest.fault? else .error (.fault .malformed)

theorem Record.Follows.read_array {r : Record Node α} {slots : List (Slot r.Draft)}
    (h : r.Follows slots) : ∃ wanted, ∀ items fault?,
      (fun _ => ()) <$> r.read (.array items fault?) = takeAll wanted slots items fault? := by
  obtain ⟨wanted, ht⟩ := h.elements
  refine ⟨wanted, fun items fault? => ?_⟩
  rw [takeAll, ← ht, Record.read]
  cases r.elements.run { items, fault? } with
  | error e => rfl
  | ok taken =>
    obtain ⟨a, rest, fault?, count⟩ := taken
    cases rest <;> cases fault? <;> rfl

section TakeAll

variable {wanted : String} {slots : List (Slot δ)} {items : List Node} {fault? : Option Fault}

/-- Each element is as its slot wants it. -/
def Suits (slots : List (Slot δ)) (items : List Node) : Prop :=
  ∀ (i : Nat) (f : Slot δ) (n : Node), slots[i]? = some f → items[i]? = some n →
    ∃ a, f.reader n = .ok a

section Suits

variable {f : Slot δ} {n : Node}

theorem suits_cons : Suits (f :: slots) (n :: items) ↔
    (∃ a, f.reader n = .ok a) ∧ Suits slots items := by
  constructor
  · exact fun h => ⟨h 0 f n rfl rfl, fun i g m hg hm => h (i + 1) g m hg hm⟩
  · rintro ⟨ha, h⟩ (_ | i) g m hg hm
    · cases hg
      cases hm
      exact ha
    · exact h i g m hg hm

theorem Suits.of_append {items' : List Node} (h : Suits slots (items ++ items')) :
    Suits slots items := by
  intro i f n hf hn
  refine h i f n hf ?_
  rw [List.getElem?_append_left (List.getElem?_eq_some_iff.mp hn).1, hn]

theorem Suits.concat (h : Suits slots items) (hf : slots[items.length]? = some f)
    (ha : ∃ a, f.reader n = .ok a) : Suits slots (items ++ [n]) := by
  intro i g m hg hm
  rw [List.getElem?_append] at hm
  split_ifs at hm with hi
  · exact h i g m hg hm
  · obtain ⟨hl, hm⟩ := List.getElem?_eq_some_iff.mp hm
    obtain rfl : i = items.length := by
      simp at hl
      omega
    cases hf.symm.trans hg
    simp at hm
    exact hm ▸ ha

end Suits

theorem takeSlots_ok {count : Nat} {rest : Elements Node}
    (h : takeSlots wanted slots ⟨items, fault?, count⟩ = .ok rest) :
    rest.items = items.drop slots.length ∧ rest.fault? = fault? ∧ Suits slots items := by
  induction slots generalizing items count with
  | nil =>
    cases h
    exact ⟨rfl, rfl, nofun⟩
  | cons f slots ih =>
    cases items with
    | nil =>
      rw [takeSlots] at h
      cases fault? with
      | some fault => cases h
      | none =>
        dsimp only at h
        split_ifs at h
        obtain ⟨hi, hf, -⟩ := ih h
        exact ⟨hi.trans (by simp), hf, nofun⟩
    | cons n items =>
      rw [takeSlots_cons] at h
      obtain ⟨a, ha, h⟩ := ok_of_bind h
      obtain ⟨hi, hf, hr⟩ := ih h
      exact ⟨hi, hf, suits_cons.mpr ⟨⟨a, ha⟩, hr⟩⟩

/-- An array that is taken has no fault and not too many elements, each as its slot wants it. -/
theorem takeAll_ok (h : takeAll wanted slots items fault? = .ok ()) :
    fault? = none ∧ items.length ≤ slots.length ∧ Suits slots items := by
  obtain ⟨rest, hr, h⟩ := ok_of_bind h
  obtain ⟨hi, hf, ha⟩ := takeSlots_ok hr
  split_ifs at h with he
  rw [hf] at h
  rw [hi, List.isEmpty_iff, List.drop_eq_nil_iff] at he
  refine ⟨?_, he, ha⟩
  cases fault? with
  | none => rfl
  | some fault => cases h

end TakeAll

end EventRouting.Json
