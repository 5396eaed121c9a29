import EventRouting.Delivery.Routes
import EventRouting.Proofs.Routing.Partition

namespace EventRouting

theorem eraseDups_ascending (l : List String) (h : l.Pairwise (· ≤ ·)) :
    l.eraseDups.Pairwise (· < ·) := by
  match l with
  | [] => exact .nil
  | k :: l =>
    obtain ⟨hk, hl⟩ := List.pairwise_cons.mp h
    rw [List.eraseDups_cons]
    apply List.Pairwise.cons
    · intro j hj
      obtain ⟨hj, hne⟩ := List.mem_filter.mp (List.mem_eraseDups.mp hj)
      rw [← String.not_le]
      intro hle
      rw [String.le_antisymm hle (hk j hj), beq_self_eq_true] at hne
      cases hne
    · exact eraseDups_ascending _ (hl.filter _)
termination_by l.length
decreasing_by exact Nat.lt_succ_of_le (List.length_filter_le ..)

namespace RouteDiff

variable {β : Type}

theorem sortedKeys_ascending (old new : Table String β) :
    (sortedKeys old new).Pairwise (· < ·) := by
  apply eraseDups_ascending
  exact (List.pairwise_mergeSort (Build.uid_le_trans id) (Build.uid_le_total id) _).imp
    of_decide_eq_true

theorem mem_sortedKeys {old new : Table String β} {k : String} :
    k ∈ sortedKeys old new ↔ k ∈ old.keys ∨ k ∈ new.keys := by
  rw [sortedKeys, List.mem_eraseDups, List.mem_mergeSort, List.mem_append]

/-- A report tells two tables apart: it names the keys that only one of them has, and those with
another value, each list in order. -/
structure TellsApart (d : RouteDiff) (old new : Table String β) : Prop where
  ascending : d.added.Pairwise (· < ·) ∧ d.removed.Pairwise (· < ·) ∧ d.updated.Pairwise (· < ·)
  disjoint : d.added.Disjoint d.removed ∧ d.added.Disjoint d.updated ∧ d.removed.Disjoint d.updated
  mem_added : ∀ k, k ∈ d.added ↔ k ∉ old.keys ∧ k ∈ new.keys
  mem_removed : ∀ k, k ∈ d.removed ↔ k ∈ old.keys ∧ k ∉ new.keys
  mem_updated : ∀ k, k ∈ d.updated ↔ ∃ v w, old.get? k = some v ∧ new.get? k = some w ∧ v ≠ w
  isEmpty_iff : d.isEmpty = true ↔ ∀ k, old.get? k = new.get? k

section Between

variable [DecidableEq β] {old new : Table String β} {k : String}

theorem mem_added_between : k ∈ (between old new).added ↔ k ∉ old.keys ∧ k ∈ new.keys := by
  rw [between, List.mem_filter, mem_sortedKeys, Bool.and_eq_true, Option.isNone_iff_eq_none,
    Table.get?_eq_none_iff, Option.isSome_iff_exists, ← Table.mem_keys]
  constructor
  · exact And.right
  · intro h
    exact ⟨.inr h.2, h⟩

theorem mem_removed_between : k ∈ (between old new).removed ↔ k ∈ old.keys ∧ k ∉ new.keys := by
  rw [between, List.mem_filter, mem_sortedKeys, Bool.and_eq_true, Option.isNone_iff_eq_none,
    Table.get?_eq_none_iff, Option.isSome_iff_exists, ← Table.mem_keys]
  constructor
  · exact And.right
  · intro h
    exact ⟨.inl h.1, h⟩

theorem mem_updated_between : k ∈ (between old new).updated ↔
    ∃ v w, old.get? k = some v ∧ new.get? k = some w ∧ v ≠ w := by
  rw [between, List.mem_filter, mem_sortedKeys, Bool.and_eq_true, Bool.and_eq_true,
    Option.isSome_iff_exists, Option.isSome_iff_exists, decide_eq_true_iff]
  constructor
  · rintro ⟨-, ⟨⟨v, hv⟩, w, hw⟩, hne⟩
    rw [hv, hw] at hne
    exact ⟨v, w, hv, hw, fun he => hne (congrArg some he)⟩
  · rintro ⟨v, w, hv, hw, hne⟩
    rw [hv, hw]
    exact ⟨.inl (Table.mem_keys.mpr ⟨v, hv⟩), ⟨⟨v, rfl⟩, w, rfl⟩,
      fun he => hne (Option.some.inj he)⟩

theorem isEmpty_between : (between old new).isEmpty = true ↔ ∀ k, old.get? k = new.get? k := by
  rw [isEmpty, Bool.and_eq_true, Bool.and_eq_true, List.isEmpty_iff, List.isEmpty_iff,
    List.isEmpty_iff, List.eq_nil_iff_forall_not_mem, List.eq_nil_iff_forall_not_mem,
    List.eq_nil_iff_forall_not_mem]
  simp only [mem_added_between, mem_removed_between, mem_updated_between, Table.mem_keys]
  constructor
  · rintro ⟨⟨hadded, hremoved⟩, hupdated⟩ k
    cases ho : old.get? k with
    | none =>
      cases hn : new.get? k with
      | none => rfl
      | some w =>
        refine absurd ⟨?_, w, hn⟩ (hadded k)
        rintro ⟨v, hv⟩
        cases ho.symm.trans hv
    | some v =>
      cases hn : new.get? k with
      | none =>
        refine absurd ⟨⟨v, ho⟩, ?_⟩ (hremoved k)
        rintro ⟨w, hw⟩
        cases hn.symm.trans hw
      | some w =>
        by_contra hne
        exact hupdated k ⟨v, w, ho, hn, fun he => hne (congrArg some he)⟩
  · intro h
    simp only [h]
    refine ⟨⟨?_, ?_⟩, ?_⟩
    · rintro k ⟨hn, hs⟩
      exact hn hs
    · rintro k ⟨hs, hn⟩
      exact hn hs
    · rintro k ⟨v, w, hv, hw, hne⟩
      exact hne (Option.some.inj (hv.symm.trans hw))

theorem between_tellsApart (old new : Table String β) : (between old new).TellsApart old new := by
  have hs := sortedKeys_ascending old new
  constructor
  · exact ⟨hs.filter _, hs.filter _, hs.filter _⟩
  · refine ⟨?_, ?_, ?_⟩
    · intro k ha hr
      exact (mem_added_between.mp ha).1 (mem_removed_between.mp hr).1
    · intro k ha hu
      obtain ⟨v, -, hv, -⟩ := mem_updated_between.mp hu
      exact (mem_added_between.mp ha).1 (Table.mem_keys.mpr ⟨v, hv⟩)
    · intro k hr hu
      obtain ⟨-, w, -, hw, -⟩ := mem_updated_between.mp hu
      exact (mem_removed_between.mp hr).2 (Table.mem_keys.mpr ⟨w, hw⟩)
  · exact fun _ => mem_added_between
  · exact fun _ => mem_removed_between
  · exact fun _ => mem_updated_between
  · exact isEmpty_between

end Between

end RouteDiff

/-- However many contracts came before, a contract leaves a receiver and a dispatcher as it leaves
new ones, and the reports tell the tables before it and after it apart. -/
theorem contract_replaces_tables (earlier : List Contract) (c : Contract) :
    (let r : Receiver := earlier.foldl (fun r c => (r.apply c).2) {}
     let (d, s) := r.apply c
     s = (Receiver.apply {} c).2 ∧ d.TellsApart r.table s.table) ∧
    (let r : Dispatcher := earlier.foldl (fun r c => (r.apply c).2) {}
     let (d, s) := r.apply c
     s = (Dispatcher.apply {} c).2 ∧ d.TellsApart r.table s.table) :=
  ⟨⟨rfl, RouteDiff.between_tellsApart _ _⟩, rfl, RouteDiff.between_tellsApart _ _⟩

/-- The first resource goes, the second one changes its topics, and a third one comes. -/
example :
    let resource (uid topic : String) : Resource :=
      { uid, topics := [topic], ingress? := some { path := "/" ++ uid } }
    let r := (Receiver.apply {} { resources := [resource "a" "t", resource "b" "t"] }).2
    let (d, s) := r.apply { resources := [resource "b" "u", resource "c" "t"] }
    d = ⟨["/c"], ["/a"], ["/b"]⟩ ∧ s.table.keys = ["/b", "/c"] := by
  cbv

end EventRouting
