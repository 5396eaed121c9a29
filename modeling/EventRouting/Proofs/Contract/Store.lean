import EventRouting.Contract.Store
import Mathlib.Data.Fintype.Card
import Mathlib.Data.List.Induction
import Mathlib.Data.List.Pairwise

namespace EventRouting

namespace Store

theorem tryAdvance_of_lt {s : Store} {c : Contract} (h : s.current.generation < c.generation) :
    s.tryAdvance c = (true, ⟨s.version + 1, c⟩) := by
  have hj : judge c s = .loaded c s := if_neg (UInt64.not_le.mpr h)
  simp only [tryAdvance, step, hj, compareAndSwap, if_true]

theorem tryAdvance_of_le {s : Store} {c : Contract} (h : c.generation ≤ s.current.generation) :
    s.tryAdvance c = (false, s) := by
  have hj : judge c s = .finished false := if_pos h
  simp only [tryAdvance, step, hj]

theorem le_of_tryAdvance {s t : Store} {c : Contract} (h : s.tryAdvance c = (false, t)) :
    c.generation ≤ s.current.generation := by
  by_contra hlt
  rw [tryAdvance_of_lt (UInt64.not_le.mp hlt)] at h
  cases h

/-- The store is as it was, or a later one of a greater generation. -/
def Precedes (s t : Store) : Prop :=
  t = s ∨ s.version < t.version ∧ s.current.generation < t.current.generation

theorem Precedes.refl (s : Store) : s.Precedes s := .inl rfl

theorem Precedes.trans {s t u : Store} (h : s.Precedes t) (h' : t.Precedes u) : s.Precedes u := by
  rcases h with rfl | ⟨hv, hg⟩
  · exact h'
  · rcases h' with rfl | ⟨hv', hg'⟩
    · exact .inr ⟨hv, hg⟩
    · exact .inr ⟨Nat.lt_trans hv hv', UInt64.lt_trans hg hg'⟩

theorem Precedes.le {s t : Store} (h : s.Precedes t) :
    s.current.generation ≤ t.current.generation := by
  rcases h with rfl | ⟨-, hg⟩
  · exact UInt64.le_refl _
  · exact UInt64.le_of_lt hg

theorem Precedes.version_le {s t : Store} (h : s.Precedes t) : s.version ≤ t.version := by
  rcases h with rfl | ⟨hv, -⟩
  · exact Nat.le_refl _
  · exact Nat.le_of_lt hv

theorem precedes_install {s : Store} {k : Contract} (h : s.current.generation < k.generation) :
    s.Precedes ⟨s.version + 1, k⟩ :=
  .inr ⟨Nat.lt_succ_self _, h⟩

end Store

namespace Advance

/-- Where a call for the candidate `k` may stand while the store is `s`. -/
def Stands (k : Contract) (s : Store) : Advance → Prop
  | .start candidate => candidate = k
  | .loaded candidate seen =>
    candidate = k ∧ seen.current.generation < k.generation ∧ seen.Precedes s
  | .finished _ => k.generation ≤ s.current.generation

/-- Steps of the other calls leave a call where it may stand. -/
theorem Stands.mono {k : Contract} {s t : Store} {a : Advance} (h : a.Stands k s)
    (hst : s.Precedes t) : a.Stands k t := by
  cases a with
  | start candidate => exact h
  | loaded candidate seen => exact ⟨h.1, h.2.1, h.2.2.trans hst⟩
  | finished applied => exact UInt64.le_trans h hst.le

/-- The call has not returned yet. -/
def Unfinished (a : Advance) : Prop := ∀ applied, a ≠ .finished applied

theorem not_unfinished {a : Advance} : ¬a.Unfinished ↔ ∃ applied, a = .finished applied := by
  rw [Unfinished, not_forall]
  exact exists_congr fun _ => not_not

end Advance

/-- A store with the calls that advance it, and what each of them has put there, in order. -/
structure Contention (ι : Type) where
  store : Store
  calls : ι → Advance
  installed : List (ι × Contract) := []

namespace Contention

section

variable {ι : Type}

/-- All calls are about to begin. -/
def enter (s : Store) (candidates : ι → Contract) : Contention ι where
  store := s
  calls i := .start (candidates i)

/-- The contracts that the store has come to hold, in order. -/
def contracts (c : Contention ι) : List Contract := c.installed.map Prod.snd

/-- A call replaces what the store holds. -/
def install (c : Contention ι) (i : ι) (k : Contract) : Contention ι :=
  { c with store := ⟨c.store.version + 1, k⟩, installed := c.installed ++ [(i, k)] }

@[simp] theorem contracts_install (c : Contention ι) (i : ι) (k : Contract) :
    (c.install i k).contracts = c.contracts ++ [k] :=
  List.map_append

end

variable {ι : Type} [DecidableEq ι]

/-- What a call has put into the store. -/
def installedBy (c : Contention ι) (i : ι) : List Contract :=
  (c.installed.filter (·.1 = i)).map Prod.snd

/-- One call takes its next atomic step. What the store holds then is noted if it was replaced. -/
def step (c : Contention ι) (i : ι) : Contention ι :=
  let (call, store) := c.store.step (c.calls i)
  { store
    calls := Function.update c.calls i call
    installed :=
      if store = c.store then c.installed else c.installed ++ [(i, store.current)] }

/-- The calls take steps in the order of a schedule. -/
def run (c : Contention ι) (schedule : List ι) : Contention ι := schedule.foldl step c

/-- A call comes to stand somewhere else. -/
def put (c : Contention ι) (i : ι) (a : Advance) : Contention ι :=
  { c with calls := Function.update c.calls i a }

variable {c : Contention ι} {i j : ι} {k : Contract} {a : Advance}

theorem contracts_put : (c.put i a).contracts = c.contracts := rfl

theorem installedBy_put : (c.put i a).installedBy j = c.installedBy j := rfl

@[simp] theorem put_self : (c.put i a).calls i = a := Function.update_self ..

theorem put_of_ne (h : j ≠ i) : (c.put i a).calls j = c.calls j := Function.update_of_ne h ..

theorem installedBy_install : (c.install i k).installedBy j =
    c.installedBy j ++ if i = j then [k] else [] := by
  rw [installedBy, install, List.filter_append, List.map_append, installedBy]
  congr 1
  by_cases h : i = j
  · simp only [h, List.filter_cons, List.filter_nil, decide_true, if_true, List.map_singleton]
  · simp only [h, List.filter_cons, List.filter_nil, decide_false, if_false, List.map_nil,
      Bool.false_eq_true]

/-- What a step of a call for the candidate `k` makes of it all. -/
inductive Steps (k : Contract) (i : ι) (c : Contention ι) : Contention ι → Prop
  | returned {applied : Bool} (h : c.calls i = .finished applied) : Steps k i c c
  | stale (h : (c.calls i).Unfinished) (hk : k.generation ≤ c.store.current.generation) :
    Steps k i c (c.put i (.finished false))
  | loads (h : (c.calls i).Unfinished) (hk : c.store.current.generation < k.generation)
      (hv : ∀ l seen, c.calls i = .loaded l seen → seen.version < c.store.version) :
    Steps k i c (c.put i (.loaded k c.store))
  | installs (h : (c.calls i).Unfinished) (hk : c.store.current.generation < k.generation) :
    Steps k i c ((c.install i k).put i (.finished true))

theorem step_of_finished {applied : Bool} (h : c.calls i = .finished applied) : c.step i = c := by
  rw [step, h, Store.step]
  dsimp only
  rw [if_pos rfl, ← h, Function.update_eq_self]

theorem steps_judge (h : (c.calls i).Unfinished)
    (hs : c.store.step (c.calls i) = (Store.judge k c.store, c.store))
    (hv : ∀ l seen, c.calls i = .loaded l seen → seen.version < c.store.version) :
    Steps k i c (c.step i) := by
  rw [step, hs]
  dsimp only
  rw [if_pos rfl, Store.judge]
  split
  next hk => exact .stale h hk
  next hk => exact .loads h (UInt64.not_le.mp hk) hv

theorem steps (h : (c.calls i).Stands k c.store) : Steps k i c (c.step i) := by
  cases hc : c.calls i with
  | start candidate =>
    rw [hc] at h
    obtain rfl := h
    apply steps_judge
    · rw [hc]
      exact nofun
    · rw [hc]
      rfl
    · rw [hc]
      exact nofun
  | loaded candidate seen =>
    rw [hc] at h
    obtain ⟨rfl, hk, hs⟩ := h
    have hu : (c.calls i).Unfinished := by
      rw [hc]
      exact nofun
    rcases hs with hs | ⟨hv, -⟩
    · -- nothing was installed since the call has seen the store
      have hn : (⟨c.store.version + 1, candidate⟩ : Store) ≠ c.store := by
        intro he
        exact Nat.succ_ne_self _ (congrArg Store.version he)
      rw [step, hc, hs, Store.step, if_pos rfl, Store.compareAndSwap, if_pos rfl, ← hs]
      dsimp only
      rw [if_neg hn]
      exact .installs hu (hs ▸ hk)
    · apply steps_judge hu
      · rw [hc, Store.step, if_neg (Nat.ne_of_gt hv)]
      · rw [hc]
        rintro _ _ ⟨⟩
        exact hv
  | finished applied =>
    rw [step_of_finished hc]
    exact .returned hc

/-- What holds of a store that was entered as `s`, and of the calls for their candidates. -/
structure Sound (s : Store) (candidates : ι → Contract) (c : Contention ι) : Prop where
  stands : ∀ i, (c.calls i).Stands (candidates i) c.store
  increasing : (s.current :: c.contracts).Pairwise (·.generation < ·.generation)
  held : c.store.current = c.contracts.getLastD s.current
  version : c.store.version = s.version + c.installed.length
  own : ∀ i, c.installedBy i = if c.calls i = .finished true then [candidates i] else []

variable {s : Store} {candidates : ι → Contract}

theorem enter_sound (s : Store) (candidates : ι → Contract) :
    (enter s candidates).Sound s candidates where
  stands _ := rfl
  increasing := List.pairwise_singleton _ _
  held := rfl
  version := rfl
  own _ := (if_neg nofun).symm

namespace Sound

theorem le (h : c.Sound s candidates) :
    ∀ l ∈ s.current :: c.contracts, l.generation ≤ c.store.current.generation := by
  intro l hl
  have hle : (s.current :: c.contracts).Pairwise fun k l => k.generation ≤ l.generation :=
    h.increasing.imp UInt64.le_of_lt
  have hrefl : Std.Refl fun k l : Contract => k.generation ≤ l.generation :=
    ⟨fun k => UInt64.le_refl k.generation⟩
  have hlast := hle.rel_getLast hl
  rw [List.getLast_eq_getLastD, ← h.held] at hlast
  exact hlast

theorem put (h : c.Sound s candidates) (hu : (c.calls i).Unfinished)
    (ha : a.Stands (candidates i) c.store) (hn : a ≠ .finished true) :
    (c.put i a).Sound s candidates where
  stands j := by
    by_cases hj : j = i
    · subst hj
      rw [put_self]
      exact ha
    · rw [put_of_ne hj]
      exact h.stands j
  increasing := h.increasing
  held := h.held
  version := h.version
  own j := by
    rw [installedBy_put, h.own j]
    by_cases hj : j = i
    · subst hj
      rw [put_self, if_neg (hu true), if_neg hn]
    · rw [put_of_ne hj]

theorem install (h : c.Sound s candidates) (hu : (c.calls i).Unfinished)
    (hk : c.store.current.generation < (candidates i).generation) :
    ((c.install i (candidates i)).put i (.finished true)).Sound s candidates where
  stands j := by
    by_cases hj : j = i
    · subst hj
      rw [put_self]
      exact UInt64.le_refl _
    · rw [put_of_ne hj]
      exact (h.stands j).mono (Store.precedes_install hk)
  increasing := by
    rw [contracts_put, contracts_install, ← List.cons_append]
    refine List.pairwise_append.mpr ⟨h.increasing, List.pairwise_singleton _ _, ?_⟩
    intro l hl m hm
    rw [List.mem_singleton.mp hm]
    exact UInt64.lt_of_le_of_lt (h.le l hl) hk
  held := by
    rw [contracts_put, contracts_install, List.getLastD_concat]
    rfl
  version := by
    change c.store.version + 1 = s.version + (c.installed ++ [(i, candidates i)]).length
    rw [h.version, List.length_append]
    rfl
  own j := by
    rw [installedBy_put, installedBy_install, h.own j]
    by_cases hj : j = i
    · subst hj
      rw [put_self, if_neg (hu true), if_pos rfl, if_pos rfl, List.nil_append]
    · rw [put_of_ne hj, if_neg (Ne.symm hj), List.append_nil]
      rfl

theorem step (h : c.Sound s candidates) (i : ι) : (c.step i).Sound s candidates := by
  have hs := steps (h.stands i)
  generalize c.step i = d at hs ⊢
  cases hs with
  | returned _ => exact h
  | stale hu hk => exact h.put hu hk nofun
  | loads hu hk _ => exact h.put hu ⟨rfl, hk, .refl _⟩ nofun
  | installs hu hk => exact h.install hu hk

theorem run (h : c.Sound s candidates) (schedule : List ι) :
    (c.run schedule).Sound s candidates := by
  induction schedule generalizing c with
  | nil => exact h
  | cons i schedule ih => exact ih (h.step i)

/-- A call that returns does so as if it had been alone at that moment. -/
theorem returns_alone (h : c.Sound s candidates) (hu : (c.calls i).Unfinished) {applied : Bool}
    (hr : (c.step i).calls i = .finished applied) :
    c.store.tryAdvance (candidates i) = (applied, (c.step i).store) := by
  have hs := steps (h.stands i)
  generalize c.step i = d at hs hr ⊢
  cases hs with
  | returned hf => exact absurd hf (hu _)
  | stale _ hk =>
    rw [put_self] at hr
    cases hr
    exact Store.tryAdvance_of_le hk
  | loads _ _ _ =>
    rw [put_self] at hr
    cases hr
  | installs _ hk =>
    rw [put_self] at hr
    cases hr
    exact Store.tryAdvance_of_lt hk

end Sound

variable {schedule : List ι} {applied : Bool}

theorem run_concat (c : Contention ι) (schedule : List ι) (i : ι) :
    c.run (schedule ++ [i]) = (c.run schedule).step i :=
  List.foldl_concat ..

theorem step_of_ne (h : i ≠ j) : (c.step j).calls i = c.calls i := Function.update_of_ne h ..

theorem exists_return (hu : (c.calls i).Unfinished)
    (h : (c.run schedule).calls i = .finished applied) :
    ∃ earlier later, schedule = earlier ++ i :: later ∧
      ((c.run earlier).calls i).Unfinished ∧
        ((c.run earlier).step i).calls i = .finished applied := by
  -- From the end: either the last step is the one that returns, or the call had returned before it.
  induction schedule using List.reverseRecOn with
  | nil => exact absurd h (hu applied)
  | append_singleton schedule j ih =>
    rw [run_concat] at h
    by_cases hf : ((c.run schedule).calls i).Unfinished
    · by_cases hj : i = j
      · subst hj
        exact ⟨schedule, [], rfl, hf, h⟩
      · rw [step_of_ne hj] at h
        exact absurd h (hf applied)
    · obtain ⟨b, hb⟩ := Advance.not_unfinished.mp hf
      have hkeep : ((c.run schedule).step j).calls i = .finished b := by
        by_cases hj : i = j
        · subst hj
          rw [step_of_finished hb, hb]
        · rw [step_of_ne hj, hb]
      rw [hkeep] at h
      cases h
      obtain ⟨earlier, later, he, hr⟩ := ih hb
      exact ⟨earlier, later ++ [j], by rw [he, List.append_assoc, List.cons_append], hr⟩

/-- A call that has taken `n` steps since the version `v` has seen a newer version in each step. -/
def Paced (v n : Nat) : Advance → Prop
  | .start _ => n = 0
  | .loaded _ seen => n + v ≤ seen.version + 1
  | .finished _ => True

theorem Sound.paced_step (h : c.Sound s candidates) {n : Nat}
    (hp : Paced s.version n (c.calls i)) : Paced s.version (n + 1) ((c.step i).calls i) := by
  have hs := steps (h.stands i)
  generalize c.step i = d at hs ⊢
  cases hs with
  | returned hf =>
    rw [hf]
    trivial
  | stale _ _ =>
    rw [put_self]
    trivial
  | loads hu _ hv =>
    rw [put_self]
    change n + 1 + s.version ≤ c.store.version + 1
    cases hc : c.calls i with
    | start candidate =>
      rw [hc] at hp
      have hn : n = 0 := hp
      have hversion := h.version
      omega
    | loaded candidate seen =>
      rw [hc] at hp
      have hn : n + s.version ≤ seen.version + 1 := hp
      have hlt := hv candidate seen hc
      omega
    | finished b => exact absurd hc (hu b)
  | installs _ _ =>
    rw [put_self]
    trivial

theorem paced (s : Store) (candidates : ι → Contract) (schedule : List ι) (i : ι) :
    Paced s.version (schedule.count i) (((enter s candidates).run schedule).calls i) := by
  induction schedule using List.reverseRecOn with
  | nil => rfl
  | append_singleton schedule j ih =>
    rw [run_concat, List.count_append]
    by_cases hj : i = j
    · subst hj
      rw [List.count_singleton_self]
      exact ((enter_sound s candidates).run schedule).paced_step ih
    · rw [step_of_ne hj, List.count_singleton, if_neg (by simpa using Ne.symm hj)]
      exact ih

/-- A call has returned once it had two more steps than contracts were installed. -/
theorem returns_of_count
    (h : ((enter s candidates).run schedule).installed.length + 1 < schedule.count i) :
    ¬(((enter s candidates).run schedule).calls i).Unfinished := by
  have hsound := (enter_sound s candidates).run schedule
  have hp := paced s candidates schedule i
  have hstands := hsound.stands i
  have hversion := hsound.version
  intro hu
  cases hc : ((enter s candidates).run schedule).calls i with
  | start candidate =>
    rw [hc] at hp
    have hn : schedule.count i = 0 := hp
    omega
  | loaded candidate seen =>
    rw [hc] at hp hstands
    have hn : schedule.count i + s.version ≤ seen.version + 1 := hp
    have hle : seen.version ≤ ((enter s candidates).run schedule).store.version :=
      hstands.2.2.version_le
    omega
  | finished b => exact hu b hc

theorem length_installedBy (c : Contention ι) (i : ι) :
    (c.installedBy i).length = (c.installed.map Prod.fst).count i := by
  rw [installedBy, List.length_map, ← List.countP_eq_length_filter, List.count, List.countP_map]
  rfl

theorem Sound.length_installed_le [Fintype ι] (h : c.Sound s candidates) :
    c.installed.length ≤ Fintype.card ι := by
  have hn : (c.installed.map Prod.fst).Nodup := by
    rw [List.nodup_iff_count_le_one]
    intro i
    rw [← length_installedBy, h.own i]
    split
    · exact Nat.le_refl 1
    · exact Nat.zero_le 1
  rw [← List.length_map Prod.fst]
  exact hn.length_le_card

theorem all_return [Fintype ι] (h : ∀ i, Fintype.card ι + 1 < schedule.count i) (i : ι) :
    ¬(((enter s candidates).run schedule).calls i).Unfinished := by
  have hle := ((enter_sound s candidates).run schedule).length_installed_le
  apply returns_of_count
  exact Nat.lt_of_le_of_lt (Nat.succ_le_succ hle) (h i)

namespace Sound

theorem applied_iff (h : c.Sound s candidates) (i : ι) :
    c.calls i = .finished true ↔ c.installedBy i = [candidates i] := by
  rw [h.own i]
  constructor
  · intro ht
    exact if_pos ht
  · intro ho
    by_contra hn
    rw [if_neg hn] at ho
    cases ho

theorem installedBy_eq_nil (h : c.Sound s candidates) (hn : c.calls i ≠ .finished true) :
    c.installedBy i = [] := by
  rw [h.own i, if_neg hn]

theorem settled (h : c.Sound s candidates) (hr : ∀ i, ¬(c.calls i).Unfinished) :
    c.store.current = s.current ∧ (∀ i, (candidates i).generation ≤ s.current.generation) ∨
      ∃ i, c.calls i = .finished true ∧ c.store.current = candidates i ∧
        s.current.generation < (candidates i).generation ∧
          ∀ j, (candidates j).generation ≤ (candidates i).generation := by
  have hle (i : ι) : (candidates i).generation ≤ c.store.current.generation := by
    obtain ⟨b, hb⟩ := Advance.not_unfinished.mp (hr i)
    have hs := h.stands i
    rw [hb] at hs
    exact hs
  have hm : c.store.current ∈ s.current :: c.contracts := h.held ▸ List.getLastD_mem_cons
  rcases List.mem_cons.mp hm with hc | hc
  · rw [hc] at hle
    exact .inl ⟨hc, hle⟩
  · obtain ⟨⟨i, k⟩, hi, hk⟩ := List.mem_map.mp hc
    have hown : c.store.current ∈ c.installedBy i :=
      List.mem_map.mpr ⟨(i, k), List.mem_filter.mpr ⟨hi, decide_eq_true rfl⟩, hk⟩
    rw [h.own i] at hown
    split at hown
    · next ht =>
      have hi := List.mem_singleton.mp hown
      have hlt := List.rel_of_pairwise_cons h.increasing hc
      rw [hi] at hle hlt
      exact .inr ⟨i, ht, hi, hlt, hle⟩
    · exact absurd hown List.not_mem_nil

end Sound

theorem exists_stale (h : ((enter s candidates).run schedule).calls i = .finished false) :
    ∃ earlier later, schedule = earlier ++ i :: later ∧
      (((enter s candidates).run earlier).calls i).Unfinished ∧
        (((enter s candidates).run earlier).step i).calls i = .finished false ∧
          (candidates i).generation ≤
            ((enter s candidates).run earlier).store.current.generation := by
  have henter : ((enter s candidates).calls i).Unfinished := nofun
  obtain ⟨earlier, later, he, hu, hr⟩ := exists_return henter h
  have hsound := (enter_sound s candidates).run earlier
  exact ⟨earlier, later, he, hu, hr, Store.le_of_tryAdvance (hsound.returns_alone hu hr)⟩

/-- However the steps of the calls come, the store takes on ever greater generations, and each call
that returned true has put its candidate there once. -/
theorem contention_linear (s : Store) (candidates : ι → Contract) (schedule : List ι) :
    let c := (enter s candidates).run schedule
    (s.current :: c.contracts).Pairwise (·.generation < ·.generation) ∧
    c.store.current = c.contracts.getLastD s.current ∧
    (∀ i, (c.calls i = .finished true ↔ c.installedBy i = [candidates i]) ∧
      (c.calls i ≠ .finished true → c.installedBy i = [])) ∧
    (∀ i, c.calls i = .finished false → ∃ earlier later, schedule = earlier ++ i :: later ∧
      let d := (enter s candidates).run earlier
      (d.calls i).Unfinished ∧ (d.step i).calls i = .finished false ∧
        (candidates i).generation ≤ d.store.current.generation) ∧
    ((∀ i, ¬(c.calls i).Unfinished) →
      c.store.current = s.current ∧ (∀ i, (candidates i).generation ≤ s.current.generation) ∨
      ∃ i, c.calls i = .finished true ∧ c.store.current = candidates i ∧
        s.current.generation < (candidates i).generation ∧
          ∀ j, (candidates j).generation ≤ (candidates i).generation) := by
  intro c
  have h : c.Sound s candidates := (enter_sound s candidates).run schedule
  refine ⟨h.increasing, h.held, ?_, ?_, h.settled⟩
  · intro i
    exact ⟨h.applied_iff i, h.installedBy_eq_nil⟩
  · intro i hf
    exact exists_stale hf

theorem contention_linear_of_overtaken :
    let candidates : Fin 3 → Contract := fun i => ⟨if i = 1 then 3 else 2, []⟩
    let c := (enter { current := ⟨1, []⟩ } candidates).run [0, 1, 2, 0, 1, 2, 1]
    (∀ i, ¬(c.calls i).Unfinished) ∧ c.contracts = [⟨2, []⟩, ⟨3, []⟩] ∧
      c.calls 1 = .finished true ∧ c.calls 2 = .finished false ∧
      ∃ i, c.store.current = candidates i ∧
        ∀ j, (candidates j).generation ≤ (candidates i).generation := by
  intro candidates c
  have hr : ∀ i, ¬(c.calls i).Unfinished := by
    have hf : ∀ i, c.calls i = .finished (decide (i ≠ 2)) := by decide +kernel
    intro i hu
    exact hu _ (hf i)
  obtain ⟨-, -, -, -, hsettled⟩ :=
    contention_linear { current := ⟨1, []⟩ } candidates [0, 1, 2, 0, 1, 2, 1]
  refine ⟨hr, by decide +kernel, by decide +kernel, by decide +kernel, ?_⟩
  rcases hsettled hr with ⟨-, hle⟩ | ⟨i, -, hi, -, hmax⟩
  · exact absurd (hle 1) (by decide)
  · exact ⟨i, hi, hmax⟩

end Contention

end EventRouting
