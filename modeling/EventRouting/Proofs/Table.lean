import EventRouting.Table
import Mathlib.Data.List.Dedup
import Mathlib.Data.List.Induction
import Mathlib.Data.List.Nodup

namespace EventRouting

namespace Table

variable {κ β : Type} [DecidableEq κ]

@[simp] theorem get?_nil (k : κ) : get? ([] : Table κ β) k = none := rfl

theorem get?_cons (l : κ) (w : β) (t : Table κ β) (k : κ) :
    get? ((l, w) :: t) k = if l = k then some w else t.get? k := by
  by_cases h : l = k
  · simp only [get?, List.find?_cons, h, decide_true, Option.map_some, if_true]
  · simp only [get?, List.find?_cons, h, decide_false, if_false]

theorem get?_insert (t : Table κ β) (k : κ) (v : β) (l : κ) :
    (t.insert k v).get? l = if k = l then some v else t.get? l := by
  induction t with
  | nil => exact get?_cons k v [] l
  | cons entry t ih =>
    obtain ⟨j, w⟩ := entry
    by_cases hj : j = k
    · subst hj
      rw [insert, if_pos rfl, get?_cons, get?_cons]
      by_cases hl : j = l
      · rw [if_pos hl, if_pos hl]
      · rw [if_neg hl, if_neg hl, if_neg hl]
    · rw [insert, if_neg hj, get?_cons, ih, get?_cons]
      by_cases hl : k = l
      · subst hl
        rw [if_neg hj, if_pos rfl, if_pos rfl]
      · rw [if_neg hl, if_neg hl]

theorem get?_filter (t : Table κ β) (p : κ → Bool) (k : κ) :
    get? (t.filter fun entry => p entry.1) k = if p k = true then t.get? k else none := by
  induction t with
  | nil => exact (ite_self none).symm
  | cons entry t ih =>
    obtain ⟨j, w⟩ := entry
    rw [List.filter_cons]
    by_cases hj : p j = true
    · rw [if_pos hj, get?_cons, ih, get?_cons]
      by_cases hk : j = k
      · subst hk
        rw [if_pos rfl, if_pos rfl, if_pos hj]
      · rw [if_neg hk, if_neg hk]
    · rw [if_neg hj, ih, get?_cons]
      by_cases hk : j = k
      · subst hk
        rw [if_neg hj, if_neg hj]
      · rw [if_neg hk]

theorem get?_erase (t : Table κ β) (k l : κ) :
    (t.erase k).get? l = if k = l then none else t.get? l := by
  have hf := get?_filter t (fun j => decide (j ≠ k)) l
  simp only [decide_eq_true_eq] at hf
  by_cases h : k = l
  · rw [if_neg fun hn => hn h.symm] at hf
    rw [if_pos h]
    exact hf
  · rw [if_pos fun he => h he.symm] at hf
    rw [if_neg h]
    exact hf

theorem get?_insert_cases {t : Table κ β} {k l : κ} {v w : β}
    (h : (t.insert k v).get? l = some w) : k = l ∧ v = w ∨ k ≠ l ∧ t.get? l = some w := by
  rw [get?_insert] at h
  by_cases hl : k = l
  · rw [if_pos hl] at h
    exact .inl ⟨hl, Option.some.inj h⟩
  · rw [if_neg hl] at h
    exact .inr ⟨hl, h⟩

theorem get?_erase_cases {t : Table κ β} {k l : κ} {w : β} (h : (t.erase k).get? l = some w) :
    k ≠ l ∧ t.get? l = some w := by
  rw [get?_erase] at h
  by_cases hl : k = l
  · rw [if_pos hl] at h
    cases h
  · rw [if_neg hl] at h
    exact ⟨hl, h⟩

theorem mem_of_get? {t : Table κ β} {k : κ} {v : β} (h : t.get? k = some v) : (k, v) ∈ t := by
  obtain ⟨⟨l, w⟩, hf, hw⟩ := Option.map_eq_some_iff.mp h
  have hk := List.find?_some hf
  obtain rfl : l = k := of_decide_eq_true hk
  obtain rfl : w = v := hw
  exact List.mem_of_find?_eq_some hf

theorem mem_keys {t : Table κ β} {k : κ} : k ∈ t.keys ↔ ∃ v, t.get? k = some v := by
  constructor
  · intro h
    induction t with
    | nil => cases h
    | cons entry t ih =>
      obtain ⟨j, w⟩ := entry
      rw [get?_cons]
      by_cases hj : j = k
      · exact ⟨w, if_pos hj⟩
      · rw [if_neg hj]
        cases h with
        | head => exact absurd rfl hj
        | tail _ h => exact ih h
  · rintro ⟨v, h⟩
    exact List.mem_map_of_mem (mem_of_get? h)

theorem get?_eq_none_iff {t : Table κ β} {k : κ} : t.get? k = none ↔ k ∉ t.keys := by
  rw [mem_keys, not_exists, Option.eq_none_iff_forall_ne_some]

theorem get?_of_mem {t : Table κ β} (h : t.keys.Nodup) {k : κ} {v : β} (hm : (k, v) ∈ t) :
    t.get? k = some v := by
  obtain ⟨w, hw⟩ := mem_keys.mp (List.mem_map_of_mem hm)
  have he := List.inj_on_of_nodup_map h hm (mem_of_get? hw) rfl
  cases he
  exact hw

theorem get?_of_perm {t u : Table κ β} (h : t.keys.Nodup) (hp : t.Perm u) (k : κ) :
    t.get? k = u.get? k := by
  have hu : u.keys.Nodup := (hp.map Prod.fst).nodup_iff.mp h
  apply Option.ext
  intro v
  constructor
  · intro ht
    exact get?_of_mem hu (hp.mem_iff.mp (mem_of_get? ht))
  · intro hv
    exact get?_of_mem h (hp.mem_iff.mpr (mem_of_get? hv))

theorem filter_eq_of_get? {t : Table κ β} (h : t.keys.Nodup) {k : κ} {v : β}
    (hk : t.get? k = some v) : t.filter (·.1 = k) = [(k, v)] := by
  induction t with
  | nil => cases hk
  | cons first t ih =>
    obtain ⟨l, w⟩ := first
    obtain ⟨hl, hn⟩ := List.nodup_cons.mp h
    rw [get?_cons] at hk
    by_cases he : l = k
    · subst he
      rw [if_pos rfl] at hk
      cases hk
      have hrest : t.filter (·.1 = l) = [] := by
        apply List.filter_eq_nil_iff.mpr
        intro entry hm hd
        exact hl (List.mem_map.mpr ⟨entry, hm, of_decide_eq_true hd⟩)
      rw [List.filter_cons, if_pos (decide_eq_true rfl), hrest]
    · rw [if_neg he] at hk
      rw [List.filter_cons, if_neg fun hd => he (of_decide_eq_true hd)]
      exact ih hn hk

theorem contains_iff {t : Table κ β} {k : κ} : t.contains k = true ↔ ∃ v, t.get? k = some v := by
  rw [← mem_keys, contains, keys, List.any_eq_true, List.mem_map]
  exact exists_congr fun entry => and_congr_right' decide_eq_true_iff

theorem erase_of_not_contains {t : Table κ β} {k : κ} (h : t.contains k = false) :
    t.erase k = t := by
  refine List.filter_eq_self.mpr fun entry hm => decide_eq_true ?_
  exact of_decide_eq_false (Bool.eq_false_iff.mpr (List.any_eq_false.mp h entry hm))

theorem mem_insert {t : Table κ β} {k : κ} {v : β} {entry : κ × β} (h : entry ∈ t.insert k v) :
    entry = (k, v) ∨ entry ∈ t := by
  induction t with
  | nil => exact .inl (List.mem_singleton.mp h)
  | cons first t ih =>
    obtain ⟨j, w⟩ := first
    rw [insert] at h
    split at h
    · rcases List.mem_cons.mp h with h | h
      · exact .inl h
      · exact .inr (.tail _ h)
    · rcases List.mem_cons.mp h with h | h
      · exact .inr (h ▸ .head t)
      · exact (ih h).imp_right (.tail _)

theorem mem_keys_insert {t : Table κ β} {k l : κ} {v : β} (h : l ∈ (t.insert k v).keys) :
    l = k ∨ l ∈ t.keys := by
  obtain ⟨entry, he, rfl⟩ := List.mem_map.mp h
  exact (mem_insert he).imp (congrArg Prod.fst) fun h => List.mem_map_of_mem h

theorem keys_insert_nodup {t : Table κ β} (h : t.keys.Nodup) (k : κ) (v : β) :
    (t.insert k v).keys.Nodup := by
  induction t with
  | nil => exact List.pairwise_singleton _ k
  | cons first t ih =>
    obtain ⟨j, w⟩ := first
    obtain ⟨hj, hn⟩ := List.nodup_cons.mp h
    rw [insert]
    split
    next he => exact List.nodup_cons.mpr ⟨he ▸ hj, hn⟩
    next he =>
      refine List.nodup_cons.mpr ⟨fun hm => ?_, ih hn⟩
      exact (mem_keys_insert hm).elim he hj

theorem keys_insert_of_get? {t : Table κ β} {k : κ} {w : β} (h : t.get? k = some w) (v : β) :
    (t.insert k v).keys = t.keys := by
  induction t with
  | nil => cases h
  | cons first t ih =>
    obtain ⟨l, u⟩ := first
    rw [get?_cons] at h
    rw [insert]
    by_cases hl : l = k
    · rw [if_pos hl, hl]
      rfl
    · rw [if_neg hl] at h ⊢
      exact congrArg (l :: ·) (ih h)

theorem insert_of_not_mem {t : Table κ β} {k : κ} (h : k ∉ t.keys) (v : β) :
    t.insert k v = t ++ [(k, v)] := by
  induction t with
  | nil => rfl
  | cons first t ih =>
    obtain ⟨j, w⟩ := first
    have hj : j ≠ k := fun he => h (he ▸ List.mem_cons_self)
    rw [insert, if_neg hj, ih fun hm => h (List.mem_cons_of_mem j hm)]
    rfl

theorem ofList_eq {l : List (κ × β)} (h : (l.map Prod.fst).Nodup) : ofList l = l := by
  suffices hs : ∀ (l : List (κ × β)) (t : Table κ β), ((t ++ l).map Prod.fst).Nodup →
      l.foldl (fun t entry => t.insert entry.1 entry.2) t = t ++ l from hs l [] h
  intro l
  induction l with
  | nil => exact fun t _ => (List.append_nil t).symm
  | cons entry l ih =>
    intro t ht
    obtain ⟨k, v⟩ := entry
    have hk : k ∉ t.keys := by
      rw [List.map_append, List.map_cons] at ht
      exact fun hm => (List.nodup_append.mp ht).2.2 k hm k List.mem_cons_self rfl
    have hr : t ++ (k, v) :: l = (t ++ [(k, v)]) ++ l := by
      rw [List.append_assoc, List.singleton_append]
    rw [List.foldl_cons, hr, ← ih _ (hr ▸ ht), ← insert_of_not_mem hk]

theorem get?_map {γ : Type} (t : Table κ β) (f : κ → β → γ) (k : κ) :
    get? (t.map fun entry => (entry.1, f entry.1 entry.2)) k = (t.get? k).map (f k) := by
  induction t with
  | nil => rfl
  | cons entry t ih =>
    obtain ⟨j, w⟩ := entry
    rw [List.map_cons, get?_cons, get?_cons, ih]
    by_cases h : j = k
    · rw [if_pos h, if_pos h, h]
      rfl
    · rw [if_neg h, if_neg h]

omit [DecidableEq κ] in
theorem keys_map {γ : Type} (t : Table κ β) (f : κ → β → γ) :
    keys (t.map fun entry => (entry.1, f entry.1 entry.2)) = t.keys :=
  List.map_map

theorem ofList_concat (l : List (κ × β)) (k : κ) (v : β) :
    ofList (l ++ [(k, v)]) = (ofList l).insert k v :=
  List.foldl_concat ..

theorem get?_ofList (l : List (κ × β)) (k : κ) :
    (ofList l).get? k = (l.reverse.find? (·.1 = k)).map Prod.snd := by
  induction l using List.reverseRecOn with
  | nil => rfl
  | append_singleton l entry ih =>
    obtain ⟨j, v⟩ := entry
    rw [ofList_concat, get?_insert, List.reverse_concat, List.find?_cons]
    by_cases h : j = k
    · rw [if_pos h, decide_eq_true h]
      rfl
    · rw [if_neg h, decide_eq_false h]
      exact ih

theorem ofList_keys_nodup (l : List (κ × β)) : (ofList l).keys.Nodup := by
  induction l using List.reverseRecOn with
  | nil => exact .nil
  | append_singleton l entry ih =>
    rw [ofList_concat]
    exact keys_insert_nodup ih entry.1 entry.2

theorem mem_keys_ofList {l : List (κ × β)} {k : κ} :
    k ∈ (ofList l).keys ↔ k ∈ l.map Prod.fst := by
  rw [mem_keys, get?_ofList, ← Option.isSome_iff_exists, Option.isSome_map, List.find?_isSome,
    List.mem_map]
  simp only [List.mem_reverse, decide_eq_true_eq]

theorem length_ofList (l : List (κ × β)) : (ofList l).length = (l.map Prod.fst).dedup.length := by
  have hp : (ofList l).keys.Perm (l.map Prod.fst).dedup := by
    rw [List.perm_ext_iff_of_nodup (ofList_keys_nodup l) (List.nodup_dedup _)]
    intro k
    rw [mem_keys_ofList, List.mem_dedup]
  rw [← hp.length_eq, keys, List.length_map]

end Table

end EventRouting
