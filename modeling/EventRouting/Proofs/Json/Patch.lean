import EventRouting.Json.Patch
import Mathlib.Tactic.Common

namespace EventRouting.Json

variable {name k : String} {v w : Value} {members : List (String × Value)}

theorem lookup_insertMember (name : String) (v : Value) (members : List (String × Value))
    (k : String) :
    (insertMember name v members).lookup k = if k = name then some v else members.lookup k := by
  induction members with
  | nil =>
    rw [insertMember, List.lookup_cons, beq_eq_decide]
    by_cases hk : k = name
    · rw [if_pos hk, decide_eq_true hk]
    · rw [if_neg hk, decide_eq_false hk]
  | cons member members ih =>
    obtain ⟨l, w⟩ := member
    rw [insertMember]
    by_cases hk : k = name
    · rw [if_pos hk]
      subst hk
      split
      next => rw [List.lookup_cons_self]
      next hl =>
        split
        next => rw [List.lookup_cons_self]
        next => rw [List.lookup_cons, beq_false_of_ne hl, ih, if_pos rfl]
    · rw [if_neg hk]
      rw [if_neg hk] at ih
      split
      next hl =>
        subst hl
        rw [List.lookup_cons, List.lookup_cons, beq_false_of_ne hk]
      next =>
        split
        next => rw [List.lookup_cons, beq_false_of_ne hk]
        next => rw [List.lookup_cons, List.lookup_cons, ih]

theorem lookup_eraseMember (h : k ≠ name) (members : List (String × Value)) :
    (eraseMember name members).lookup k = members.lookup k := by
  induction members with
  | nil => rfl
  | cons member members ih =>
    obtain ⟨l, w⟩ := member
    rw [eraseMember] at ih ⊢
    by_cases hl : l = name
    · rw [List.filter_cons_of_neg (by simpa using hl), ih, List.lookup_cons,
        beq_false_of_ne (hl ▸ h)]
    · rw [List.filter_cons_of_pos (by simpa using hl), List.lookup_cons, List.lookup_cons, ih]

theorem lookup_eq_none {β : Type} {fields : List (String × β)} (h : k ∉ fields.map Prod.fst) :
    fields.lookup k = none := by
  rw [List.lookup_eq_none_iff]
  intro m hm
  apply bne_iff_ne.mpr
  rintro rfl
  exact h (List.mem_map_of_mem hm)

theorem mem_of_lookup {β : Type} {fields : List (String × β)} {a : β}
    (h : fields.lookup k = some a) : (k, a) ∈ fields := by
  obtain ⟨before, after, rfl, _⟩ := List.lookup_eq_some_iff.mp h
  exact List.mem_append_right before List.mem_cons_self

theorem lookup_of_mem {β : Type} {fields : List (String × β)} {a : β}
    (hn : (fields.map Prod.fst).Nodup) (h : (k, a) ∈ fields) : fields.lookup k = some a := by
  induction fields with
  | nil => exact absurd h List.not_mem_nil
  | cons field fields ih =>
    obtain ⟨hf, hn⟩ := List.nodup_cons.mp hn
    rcases List.mem_cons.mp h with rfl | hm
    · exact List.lookup_cons_self
    · have hk : k ≠ field.1 := fun he => hf (he ▸ List.mem_map_of_mem hm)
      rw [List.lookup_cons, beq_false_of_ne hk]
      exact ih hn hm

theorem lookup_map_snd {β γ : Type} (f : β → γ) (fields : List (String × β)) (k : String) :
    (fields.map fun m => (m.1, f m.2)).lookup k = (fields.lookup k).map f := by
  induction fields with
  | nil => rfl
  | cons field fields ih =>
    rw [List.map_cons, List.lookup_cons, List.lookup_cons]
    cases k == field.1 with
    | true => rfl
    | false => exact ih

/-- Members in the order of their names, one under each name. -/
def Alphabetical (members : List (String × Value)) : Prop :=
  members.Pairwise fun m n => m.1 < n.1

theorem Alphabetical.nodup (h : Alphabetical members) : (members.map Prod.fst).Nodup := by
  rw [List.Nodup, List.pairwise_map]
  refine h.imp ?_
  rintro m n hl he
  rw [he] at hl
  exact String.lt_irrefl _ hl

theorem fst_mem_insertMember {m : String × Value} (h : m ∈ insertMember name v members) :
    m.1 = name ∨ m ∈ members := by
  induction members with
  | nil => exact .inl (congrArg Prod.fst (List.mem_singleton.mp h))
  | cons member members ih =>
    obtain ⟨l, w⟩ := member
    rw [insertMember] at h
    split at h
    next =>
      rcases List.mem_cons.mp h with rfl | hm
      · exact .inl rfl
      · exact .inr (.tail _ hm)
    next =>
      split at h
      next =>
        rcases List.mem_cons.mp h with rfl | hm
        · exact .inl rfl
        · exact .inr hm
      next =>
        rcases List.mem_cons.mp h with rfl | hm
        · exact .inr (.head _)
        · exact (ih hm).imp_right (.tail _)

theorem Alphabetical.insertMember (h : Alphabetical members) (name : String) (v : Value) :
    Alphabetical (insertMember name v members) := by
  induction members with
  | nil => exact List.pairwise_singleton _ _
  | cons member members ih =>
    obtain ⟨l, w⟩ := member
    obtain ⟨hl, hm⟩ := List.pairwise_cons.mp h
    rw [Json.insertMember]
    split
    next he =>
      subst he
      exact List.pairwise_cons.mpr ⟨hl, hm⟩
    next hn =>
      split
      next hlt =>
        refine List.pairwise_cons.mpr ⟨?_, h⟩
        intro m hm
        rcases List.mem_cons.mp hm with rfl | hm
        · exact hlt
        · exact String.lt_trans hlt (hl m hm)
      next hge =>
        refine List.pairwise_cons.mpr ⟨?_, ih hm⟩
        intro m hm
        rcases fst_mem_insertMember hm with he | hm
        · rw [he]
          exact String.not_le.mp fun hle => hn (String.le_antisymm hle (String.not_lt.mp hge))
        · exact hl m hm

theorem Alphabetical.lookup_of_lt {member : String × Value}
    (h : Alphabetical (member :: members)) (hk : k < member.1) :
    (member :: members).lookup k = none := by
  apply lookup_eq_none
  intro hn
  obtain ⟨m, hm, rfl⟩ := List.mem_map.mp hn
  rcases List.mem_cons.mp hm with he | hm
  · rw [he] at hk
    exact String.lt_irrefl _ hk
  · exact String.lt_irrefl _ (String.lt_trans hk ((List.pairwise_cons.mp h).1 m hm))

/-- Members in order are told by what is under each name. -/
theorem Alphabetical.ext {members' : List (String × Value)} (h : Alphabetical members)
    (h' : Alphabetical members') (hl : ∀ k, members.lookup k = members'.lookup k) :
    members = members' := by
  induction members generalizing members' with
  | nil =>
    cases members' with
    | nil => rfl
    | cons member members' => cases (hl member.1).trans List.lookup_cons_self
  | cons member members ih =>
    cases members' with
    | nil => cases (hl member.1).symm.trans List.lookup_cons_self
    | cons member' members' =>
      obtain ⟨name, v⟩ := member
      obtain ⟨name', v'⟩ := member'
      have hv : List.lookup name ((name, v) :: members) = some v := List.lookup_cons_self
      have hv' : List.lookup name' ((name', v') :: members') = some v' := List.lookup_cons_self
      obtain rfl : name = name' := by
        refine String.le_antisymm (String.not_lt.mp fun hn => ?_) (String.not_lt.mp fun hn => ?_)
        · cases ((hl name').symm.trans (h.lookup_of_lt hn)).symm.trans hv'
        · cases ((hl name).trans (h'.lookup_of_lt hn)).symm.trans hv
      obtain rfl : v = v' := Option.some.inj (hv.symm.trans ((hl name).trans hv'))
      refine congrArg _ (ih (List.pairwise_cons.mp h).2 (List.pairwise_cons.mp h').2 fun k => ?_)
      have hk := hl k
      rw [List.lookup_cons, List.lookup_cons] at hk
      by_cases he : k = name
      · have hn := (List.nodup_cons.mp h.nodup).1
        have hn' := (List.nodup_cons.mp h'.nodup).1
        rw [he, lookup_eq_none hn, lookup_eq_none hn']
      · rw [beq_false_of_ne he] at hk
        exact hk

namespace Value

theorem get?_eq (v : Value) (name : String) : v.get? name = v.members.lookup name := by
  cases v <;> rfl

theorem lookup_sortedMembers (members : List (String × Value)) (k : String) :
    (sortedMembers members).lookup k = (members.lookup k).map sorted := by
  induction members with
  | nil => rfl
  | cons member members ih =>
    obtain ⟨l, w⟩ := member
    rw [sortedMembers, lookup_insertMember, ih, List.lookup_cons]
    by_cases hk : k = l
    · rw [if_pos hk, hk, beq_self_eq_true]
      rfl
    · rw [if_neg hk, beq_false_of_ne hk]

theorem sortedMembers_inOrder (members : List (String × Value)) :
    Alphabetical (sortedMembers members) := by
  induction members with
  | nil => exact .nil
  | cons member members ih => exact ih.insertMember _ _

mutual

theorem sorted_sorted : (v : Value) → v.sorted.sorted = v.sorted
  | .array items => congrArg array (sortedItems_sortedItems items)
  | .object members => congrArg object <| by
      refine Alphabetical.ext (sortedMembers_inOrder _) (sortedMembers_inOrder _) fun k => ?_
      rw [lookup_sortedMembers, lookup_sortedMembers]
      exact sorted_sorted_lookup k members
  | .null | .bool _ | .int _ | .float _ | .string _ => rfl

theorem sortedItems_sortedItems : (items : List Value) →
    sortedItems (sortedItems items) = sortedItems items
  | [] => rfl
  | v :: items => congrArg₂ List.cons (sorted_sorted v) (sortedItems_sortedItems items)

theorem sorted_sorted_lookup (k : String) : (members : List (String × Value)) →
    ((members.lookup k).map sorted).map sorted = (members.lookup k).map sorted
  | [] => rfl
  | (name, v) :: members => by
      rw [List.lookup_cons]
      cases k == name with
      | true => exact congrArg some (sorted_sorted v)
      | false => exact sorted_sorted_lookup k members

end

theorem nodup_of_sorted (h : sorted (.object members) = .object members) :
    (members.map Prod.fst).Nodup := by
  have hs : sortedMembers members = members := object.inj h
  exact hs ▸ (sortedMembers_inOrder members).nodup

theorem get?_sorted (v : Value) (name : String) :
    v.sorted.get? name = (v.get? name).map sorted := by
  cases v with
  | object members => exact lookup_sortedMembers members name
  | _ => rfl

theorem sorted_of_get? (h : v.sorted = v) (hw : v.get? name = some w) : w.sorted = w := by
  have hs := get?_sorted v name
  rw [h, hw] at hs
  exact (Option.some.inj hs).symm

theorem at?_sorted (path : List String) (v : Value) :
    v.sorted.at? path = (v.at? path).map sorted := by
  induction path generalizing v with
  | nil => rfl
  | cons name path ih =>
    rw [at?, at?, get?_sorted]
    cases v.get? name with
    | none => rfl
    | some w => exact ih w

theorem get?_record {fields : List (String × Option Value)} (h : (fields.map Prod.fst).Nodup)
    (k : String) : (record fields).get? k = (fields.lookup k).join := by
  change List.lookup k (List.filterMap _ fields) = _
  induction fields with
  | nil => rfl
  | cons field fields ih =>
    obtain ⟨name, v?⟩ := field
    obtain ⟨hn, hf⟩ := List.nodup_cons.mp h
    rw [List.lookup_cons]
    by_cases hk : k = name
    · subst hk
      rw [beq_self_eq_true]
      cases v? with
      | some v => exact List.lookup_cons_self
      | none =>
        have hl : fields.lookup k = none := lookup_eq_none hn
        rw [hl] at ih
        exact ih hf
    · rw [beq_false_of_ne hk, ← ih hf]
      cases v? with
      | some v => exact List.lookup_cons.trans (by rw [beq_false_of_ne hk])
      | none => rfl

theorem record_nodup {fields : List (String × Option Value)} (h : (fields.map Prod.fst).Nodup) :
    ((record fields).members.map Prod.fst).Nodup := by
  have hs : ((record fields).members.map Prod.fst).Sublist (fields.map Prod.fst) := by
    clear h
    induction fields with
    | nil => exact .slnil
    | cons field fields ih =>
      obtain ⟨name, v?⟩ := field
      cases v? with
      | none => exact ih.cons _
      | some v => exact ih.cons_cons _
  exact hs.nodup h

theorem forall_mem_record {fields : List (String × Option Value)} {p : Value → Prop}
    (h : ∀ field ∈ fields, ∀ v, field.2 = some v → p v) : ∀ m ∈ (record fields).members, p m.2 := by
  intro m hm
  obtain ⟨field, hf, hm⟩ := List.mem_filterMap.mp hm
  obtain ⟨v, hv, rfl⟩ := Option.map_eq_some_iff.mp hm
  exact h field hf v hv

/-- A merge keeps the members that the patch does not name. -/
theorem lookup_mergeMembers {changes : List (String × Value)} (h : k ∉ changes.map Prod.fst)
    (members : List (String × Value)) :
    (mergeMembers members changes).lookup k = members.lookup k := by
  induction changes generalizing members with
  | nil => rfl
  | cons change changes ih =>
    obtain ⟨name, w⟩ := change
    obtain ⟨hk, hc⟩ := not_or.mp (mt List.mem_cons.mpr h)
    cases w with
    | null => rw [mergeMembers, ih hc, lookup_eraseMember hk]
    | _ =>
      rw [mergeMembers, ih hc, lookup_insertMember, if_neg hk]
      exact Value.noConfusion

theorem lookup_mergeMembers_of_nodup {changes : List (String × Value)}
    (h : (changes.map Prod.fst).Nodup) (hn : ∀ c ∈ changes, c.2 ≠ .null)
    (members : List (String × Value)) (k : String) :
    (mergeMembers members changes).lookup k =
      match changes.lookup k with
      | none => members.lookup k
      | some w => some (((members.lookup k).getD .null).merge w) := by
  induction changes generalizing members with
  | nil => rfl
  | cons change changes ih =>
    obtain ⟨name, w⟩ := change
    obtain ⟨hm, hc⟩ := List.nodup_cons.mp h
    have hw : w ≠ .null := hn _ (.head _)
    rw [mergeMembers, List.lookup_cons]
    · by_cases hk : k = name
      · subst hk
        rw [lookup_mergeMembers hm, lookup_insertMember, if_pos rfl, beq_self_eq_true]
      · rw [ih hc (fun c hc => hn c (.tail _ hc)), lookup_insertMember, if_neg hk,
          beq_false_of_ne hk]
    · exact hw

theorem get?_merge_sorted {changes : List (String × Value)} (h : (changes.map Prod.fst).Nodup)
    (hn : ∀ c ∈ changes, c.2 ≠ .null) (v : Value) (k : String) :
    (v.merge (.object changes)).sorted.get? k =
      match changes.lookup k with
      | none => (v.get? k).map sorted
      | some w => some (((v.get? k).getD .null).merge w).sorted := by
  rw [get?_sorted, merge, get?_eq v]
  refine (congrArg (Option.map sorted) (lookup_mergeMembers_of_nodup h hn v.members k)).trans ?_
  cases changes.lookup k <;> rfl

theorem mergeMembers_append (members before after : List (String × Value)) :
    mergeMembers members (before ++ after) = mergeMembers (mergeMembers members before) after := by
  induction before generalizing members with
  | nil => rw [List.nil_append, mergeMembers]
  | cons change before ih =>
    obtain ⟨name, w⟩ := change
    cases w <;> rw [List.cons_append, mergeMembers, mergeMembers, ih] <;> exact Value.noConfusion

theorem get?_merge {changes : List (String × Value)} (h : k ∉ changes.map Prod.fst) (v : Value) :
    (v.merge (.object changes)).get? k = v.get? k := by
  rw [merge, get?_eq v]
  exact lookup_mergeMembers h v.members

theorem get?_merge_of_mem (before after : List (String × Value))
    (hb : name ∉ before.map Prod.fst) (ha : name ∉ after.map Prod.fst) (hw : w ≠ .null)
    (v : Value) :
    (v.merge (.object (before ++ (name, w) :: after))).get? name =
      some (((v.get? name).getD .null).merge w) := by
  have hl := lookup_mergeMembers hb v.members
  rw [merge, mergeMembers_append, mergeMembers, get?_eq v, ← hl]
  · exact (lookup_mergeMembers ha _).trans ((lookup_insertMember _ _ _ _).trans (if_pos rfl))
  · exact hw

/-- A merge into a member of an object keeps what it does not name there. -/
theorem at?_merge {body : Value} {changes : List (String × Value)}
    (h : (v.merge body).get? name = some (((v.get? name).getD .null).merge (.object changes)))
    (hk : k ∉ changes.map Prod.fst) : (v.merge body).at? [name, k] = v.at? [name, k] := by
  rw [at?, at?, h]
  cases v.get? name with
  | none => exact congrArg (· >>= fun w => w.at? []) (get?_merge hk .null)
  | some w => exact congrArg (· >>= fun w => w.at? []) (get?_merge hk w)

theorem at?_merge_of_mem {body : Value} (before after : List (String × Value))
    (h : (v.merge body).get? name =
      some (((v.get? name).getD .null).merge (.object (before ++ (k, w) :: after))))
    (hb : k ∉ before.map Prod.fst) (ha : k ∉ after.map Prod.fst) (hw : w ≠ .null) :
    (v.merge body).at? [name, k] =
      some (((((v.get? name).getD .null).get? k).getD .null).merge w) := by
  rw [at?, h]
  exact congrArg (· >>= fun w => w.at? []) (get?_merge_of_mem before after hb ha hw _)

end Value

end EventRouting.Json
