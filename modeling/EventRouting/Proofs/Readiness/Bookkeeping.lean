import EventRouting.Proofs.Readiness.Rotation
import EventRouting.Readiness.Timeline
import Mathlib.Data.List.DropRight
import Mathlib.Data.List.Count

namespace EventRouting

/-- What happens to a prober. Where nothing is at hand to run loops, the trust roots change in two
steps, between which other things may happen, and asking for an address changes nothing. -/
inductive Occurrence where
  | event (event : ProbeEvent)
  /-- The trust roots are replaced, and no loops start. -/
  | rotateIdle (roots : TrustRoots)
  /-- Entries that were reset for want of loops are left without an owner. -/
  | release (addresses : List Address)

def Occurrence.isRotation : Occurrence → Bool
  | .event e => e.isRotation
  | .rotateIdle _ => true
  | .release _ => false

/-- What can happen to an entry that bears on its count of failures. -/
inductive Mark where
  | created
  | rotated
  | succeeded
  | failed
  deriving DecidableEq

namespace Probing

def occur (s : Probing) (now : Span) : Occurrence → Probing
  | .event e => s.step now e
  | .rotateIdle roots => { s with prober := (s.prober.rotate roots).2 }
  | .release addresses => { s with prober := s.prober.release addresses }

/-- What happened to a prober in the course of time. -/
abbrev Chronicle := List (Span × Occurrence)

def after (s : Probing) (happened : Chronicle) : Probing :=
  happened.foldl (fun s o => s.occur o.1 o.2) s

/-- The result that is written down, and for which address. The result of a loop that does not own
the entry any more is not. -/
def recorded? (s : Probing) : Occurrence → Option (Address × Bool)
  | .event (.answer token ready) =>
    match s.loops.get? token with
    | some ⟨a, .probing _⟩ => if s.prober.isOwner a token then some (a, ready) else none
    | _ => none
  | _ => none

/-- What an occurrence means for the entry of an address. -/
def mark? (s : Probing) (now : Span) (o : Occurrence) (a : Address) : Option Mark :=
  if o.isRotation ∧ a.tls then some .rotated
  else if s.recorded? o = some (a, true) then some .succeeded
  else if s.recorded? o = some (a, false) then some .failed
  else if s.prober.entry? a = none ∧ (s.occur now o).prober.entry? a ≠ none then some .created
  else none

/-- What happened to the entry of an address, in order. -/
def marks (s : Probing) (a : Address) : Chronicle → List Mark
  | [] => []
  | (now, o) :: happened => (s.mark? now o a).toList ++ (s.occur now o).marks a happened

/-- The addresses whose entries are ready now and were not before. -/
def turnedReady (s t : Probing) : List Address :=
  s.prober.entries.keys.filter fun a => !s.prober.isReady a && t.prober.isReady a

/-- The addresses whose entries became ready, in order. -/
def changes (s : Probing) : Chronicle → List Address
  | [] => []
  | (now, o) :: happened => s.turnedReady (s.occur now o) ++ (s.occur now o).changes happened

/-- The address that a result announces: one whose entry it makes ready. -/
def announces (s : Probing) (o : Occurrence) : List Address :=
  match s.recorded? o with
  | some (a, true) => if s.prober.isReady a then [] else [a]
  | some (_, false) | none => []

/-- With nothing to run loops at hand, the trust roots change in these two steps. -/
theorem rotateIdle_eq (t : Timeline) (roots : TrustRoots) : (t.rotateIdle roots).probing =
    (t.probing.occur 0 (.rotateIdle roots)).occur 0
      (.release ((t.prober.rotate roots).1.map Prod.fst)) :=
  rfl

variable {s t : Probing} {a b : Address} {token : Token} {now : Span} {o : Occurrence}
  {happened : Chronicle}

theorem after_concat (s : Probing) (happened : Chronicle) (now : Span) (o : Occurrence) :
    s.after (happened ++ [(now, o)]) = (s.after happened).occur now o :=
  List.foldl_concat ..

theorem marks_concat (s : Probing) (a : Address) (happened : Chronicle) (now : Span)
    (o : Occurrence) : s.marks a (happened ++ [(now, o)]) =
      s.marks a happened ++ ((s.after happened).mark? now o a).toList := by
  induction happened generalizing s with
  | nil => exact List.append_nil _
  | cons first happened ih =>
    rw [List.cons_append, marks, ih, marks, List.append_assoc]
    rfl

theorem changes_concat (s : Probing) (happened : Chronicle) (now : Span) (o : Occurrence) :
    s.changes (happened ++ [(now, o)]) =
      s.changes happened ++ (s.after happened).turnedReady ((s.after happened).occur now o) := by
  induction happened generalizing s with
  | nil => exact List.append_nil _
  | cons first happened ih =>
    rw [List.cons_append, changes, ih, changes, List.append_assoc]
    rfl

theorem entry?_release (p : Prober) (addresses : List Address) (a : Address) :
    Prober.entry? (p.release addresses) a = (p.entry? a).map fun e =>
      if addresses.contains a then { e with owner? := none } else e :=
  Table.get?_map p.entries
    (fun a e => if addresses.contains a then ({ e with owner? := none } : ProbeEntry) else e) a

theorem announced_spawn (started : List (Address × Token)) (s : Probing) :
    (started.foldl (fun s (a, token) => s.spawn a token) s).announced = s.announced := by
  induction started generalizing s with
  | nil => rfl
  | cons loop started ih => exact ih (s.spawn loop.1 loop.2)

/-- A result is written to the entry of a loop that owns it, or it goes by without a trace. -/
theorem answer_recorded {ready : Bool} (h : s.step now (.answer token ready) = t) :
    (s.recorded? (.event (.answer token ready)) = none ∧ t.prober = s.prober ∧
        t.announced = s.announced) ∨
      ∃ a e, s.recorded? (.event (.answer token ready)) = some (a, ready) ∧
        s.prober.entry? a = some e ∧
        t.prober = { s.prober with
          entries := s.prober.entries.insert a (s.prober.note now e ready).2 } ∧
        t.announced = s.announced ++ if ready = true ∧ e.status ≠ .ready then [a] else [] := by
  cases hl : s.loops.get? token with
  | none =>
    simp only [step, hl] at h
    subst h
    exact .inl ⟨by simp only [recorded?, hl], rfl, rfl⟩
  | some l =>
    obtain ⟨a, point⟩ := l
    simp only [step, hl] at h
    cases point with
    | starting | sleeping delay =>
      subst h
      exact .inl ⟨by simp only [recorded?, hl], rfl, rfl⟩
    | probing roots =>
      rcases hq : s.prober.record now a token ready with ⟨outcome?, q⟩
      simp only [hq] at h
      rcases Prober.record_cases hq with ⟨ho, rfl, rfl⟩ | ⟨e, he, ho, rfl, rfl⟩
      · subst h
        refine .inl ⟨?_, rfl, rfl⟩
        simp only [recorded?, hl, ho]
        rfl
      · refine .inr ⟨a, e, ?_, he, ?_⟩
        · simp only [recorded?, hl, Prober.isOwner_iff.mpr ⟨e, he, ho⟩]
          rfl
        · cases ready with
          | false =>
            subst h
            exact ⟨rfl, (List.append_nil _).symm⟩
          | true =>
            subst h
            refine ⟨rfl, ?_⟩
            by_cases hr : e.status = .ready
            · simp [Prober.note, hr, finish]
            · simp [Prober.note, hr, finish]

theorem start_keeps (h : s.step now (.start token) = t) :
    t.prober = s.prober ∧ t.announced = s.announced := by
  subst h
  rw [step]
  split
  next l =>
    split
    · split
      · exact ⟨rfl, rfl⟩
      · exact ⟨rfl, rfl⟩
    · exact ⟨rfl, rfl⟩
  next => exact ⟨rfl, rfl⟩

theorem wake_keeps (h : s.step now (.wake token) = t) :
    t.prober = s.prober ∧ t.announced = s.announced := by
  subst h
  rw [step]
  split
  next l =>
    split
    · exact ⟨rfl, rfl⟩
    · exact ⟨rfl, rfl⟩
    · exact ⟨rfl, rfl⟩
  next => exact ⟨rfl, rfl⟩

/-- An entry that nothing is written to keeps its count and its status, unless it begins anew. -/
inductive Unwritten (s : Probing) (o : Occurrence) (a : Address) (e : ProbeEntry) : Prop where
  | kept (former : ProbeEntry) (entry : s.prober.entry? a = some former)
      (failures : e.failures = former.failures) (status : e.status = former.status)
      (unrotated : ¬ (o.isRotation = true ∧ a.tls = true))
  | anew (failures : e.failures = 0) (status : e.status = .unknown)
      (cause : (o.isRotation = true ∧ a.tls = true) ∨ s.prober.entry? a = none)

theorem Unwritten.of_unrotated {former e : ProbeEntry} (hf : s.prober.entry? a = some former)
    (hfailures : e.failures = former.failures) (hstatus : e.status = former.status)
    (ho : o.isRotation = false) : s.Unwritten o a e := by
  refine .kept former hf hfailures hstatus ?_
  rintro ⟨h, -⟩
  cases ho.symm.trans h

theorem Unwritten.refl {e : ProbeEntry} (he : s.prober.entry? a = some e)
    (ho : o.isRotation = false) : s.Unwritten o a e :=
  .of_unrotated he rfl rfl ho

theorem unwritten_rotate {roots : TrustRoots} {started : List (Address × Token)} {q : Prober}
    (h : s.prober.rotate roots = (started, q)) {e : ProbeEntry} (he : q.entry? a = some e)
    (ho : o.isRotation = true) : s.Unwritten o a e := by
  cases ha : a.tls with
  | true =>
    obtain ⟨fresh, -, rfl⟩ := Prober.rotate_tls h ha he
    exact .anew rfl rfl (.inl ⟨ho, ha⟩)
  | false =>
    rw [Prober.rotate_entry? h ha] at he
    refine .kept e he rfl rfl ?_
    rintro ⟨-, h⟩
    cases ha.symm.trans h

theorem unwritten_of_unrecorded (h : s.occur now o = t) (hr : s.recorded? o = none) :
    t.announced = s.announced ∧
      ∀ a e, t.prober.entry? a = some e → s.Unwritten o a e := by
  cases o with
  | event event =>
    have h : s.step now event = t := h
    cases event with
    | ask b =>
      constructor
      · rcases hq : s.prober.request now b with ⟨started?, q⟩
        simp only [step, hq] at h
        subst h
        cases started? <;> rfl
      · intro a e he
        rcases ask_cases h with rfl | ⟨hp, -⟩
        · exact .refl he rfl
        · rw [hp, Prober.entry?_claim] at he
          split at he
          next hb =>
            subst hb
            cases he
            cases hf : s.prober.entry? b with
            | none => exact .anew rfl rfl (.inr hf)
            | some former => exact .of_unrotated hf rfl rfl rfl
          next => exact .refl he rfl
    | rotate roots =>
      obtain ⟨started, hq, -⟩ := rotate_cases h
      constructor
      · simp only [step] at h
        subst h
        exact announced_spawn ..
      · intro a e he
        exact unwritten_rotate hq he rfl
    | retain referenced =>
      subst h
      refine ⟨rfl, ?_⟩
      intro a e he
      exact .refl (Prober.entry?_of_retain he) rfl
    | start other =>
      obtain ⟨hp, hn⟩ := start_keeps h
      rw [hp]
      exact ⟨hn, fun a e he => .refl he rfl⟩
    | answer other ready =>
      rcases answer_recorded h with ⟨-, hp, hn⟩ | ⟨b, f, hb, -⟩
      · rw [hp]
        exact ⟨hn, fun a e he => .refl he rfl⟩
      · cases hr.symm.trans hb
    | wake other =>
      obtain ⟨hp, hn⟩ := wake_keeps h
      rw [hp]
      exact ⟨hn, fun a e he => .refl he rfl⟩
  | rotateIdle roots =>
    subst h
    exact ⟨rfl, fun a e he => unwritten_rotate rfl he rfl⟩
  | release addresses =>
    subst h
    refine ⟨rfl, ?_⟩
    intro a e he
    rw [occur, entry?_release] at he
    obtain ⟨former, hf, rfl⟩ := Option.map_eq_some_iff.mp he
    split
    next => exact .of_unrotated hf rfl rfl rfl
    next => exact .refl hf rfl

theorem written_of_recorded {ready : Bool} (h : s.occur now o = t)
    (hr : s.recorded? o = some (a, ready)) :
    o.isRotation = false ∧ ∃ e, s.prober.entry? a = some e ∧
      t.prober = { s.prober with
        entries := s.prober.entries.insert a (s.prober.note now e ready).2 } ∧
      t.announced = s.announced ++ if ready = true ∧ e.status ≠ .ready then [a] else [] := by
  cases o with
  | event event =>
    cases event with
    | answer token result =>
      rcases answer_recorded h with ⟨hn, -⟩ | ⟨b, e, hb, he, hp, hn⟩
      · cases hr.symm.trans hn
      · cases hr.symm.trans hb
        exact ⟨rfl, e, he, hp, hn⟩
    | ask b | rotate roots | retain referenced | start other | wake other => cases hr
  | rotateIdle roots | release addresses => cases hr

theorem mark?_of_unwritten {e : ProbeEntry} (hr : s.recorded? o = none)
    (he : (s.occur now o).prober.entry? a = some e) (hu : s.Unwritten o a e) :
    (s.mark? now o a = none ∧ ∃ f, s.prober.entry? a = some f ∧ e.failures = f.failures) ∨
      ∃ m, s.mark? now o a = some m ∧ m ≠ .failed ∧ e.failures = 0 := by
  rw [mark?, hr, he]
  cases hu with
  | kept former hf hfailures _ hrotated =>
    rw [if_neg hrotated, if_neg nofun, if_neg nofun, if_neg]
    · exact .inl ⟨rfl, former, hf, hfailures⟩
    · rintro ⟨hn, -⟩
      cases hn.symm.trans hf
  | anew hfailures _ hcause =>
    by_cases hrotated : o.isRotation = true ∧ a.tls = true
    · rw [if_pos hrotated]
      exact .inr ⟨.rotated, rfl, nofun, hfailures⟩
    · rw [if_neg hrotated, if_neg nofun, if_neg nofun,
        if_pos ⟨hcause.resolve_left hrotated, nofun⟩]
      exact .inr ⟨.created, rfl, nofun, hfailures⟩

/-- One more failure counts once, and what is no failure starts the count again. -/
theorem failures_occur (h : s.occur now o = t) {e : ProbeEntry}
    (he : t.prober.entry? a = some e) :
    (s.mark? now o a = some .failed ∧ ∃ f, s.prober.entry? a = some f ∧
        e.failures = min (f.failures + 1) maxFailures) ∨
      (s.mark? now o a = none ∧ ∃ f, s.prober.entry? a = some f ∧ e.failures = f.failures) ∨
      ∃ m, s.mark? now o a = some m ∧ m ≠ .failed ∧ e.failures = 0 := by
  cases hr : s.recorded? o with
  | none =>
    obtain ⟨-, hu⟩ := unwritten_of_unrecorded h hr
    subst h
    exact .inr (mark?_of_unwritten hr he (hu a e he))
  | some result =>
    obtain ⟨b, ready⟩ := result
    obtain ⟨ho, f, hf, hp, -⟩ := written_of_recorded h hr
    have hrotated : ¬ (o.isRotation = true ∧ a.tls = true) := by
      rintro ⟨h, -⟩
      cases ho.symm.trans h
    rw [mark?, if_neg hrotated, hr, h]
    have he' := he
    rw [hp, Prober.entry?_insert] at he'
    by_cases hb : b = a
    · subst hb
      rw [if_pos rfl] at he'
      cases he'
      cases ready with
      | true =>
        rw [if_pos rfl]
        exact .inr (.inr ⟨.succeeded, rfl, nofun, rfl⟩)
      | false =>
        rw [if_neg (by simp), if_pos rfl]
        exact .inl ⟨rfl, f, hf, rfl⟩
    · rw [if_neg hb] at he'
      rw [if_neg (by simp [hb]), if_neg (by simp [hb]), if_neg]
      · exact .inr (.inl ⟨rfl, e, he', rfl⟩)
      · rintro ⟨hn, -⟩
        cases hn.symm.trans he'

/-- The number of failures that were written to an entry since anything else happened to it. -/
def failuresInRow (s : Probing) (a : Address) (happened : Chronicle) : Nat :=
  ((s.marks a happened).rtakeWhile (· = .failed)).length

/-- Every entry has the count of its failures in a row. -/
def Counted (s : Probing) (happened : Chronicle) : Prop :=
  ∀ a e, (s.after happened).prober.entry? a = some e →
    e.failures = min maxFailures (s.failuresInRow a happened)

theorem Counted.concat (h : s.Counted happened) (now : Span) (o : Occurrence) :
    s.Counted (happened ++ [(now, o)]) := by
  intro a e he
  rw [after_concat] at he
  rw [failuresInRow, marks_concat]
  rcases failures_occur rfl he with ⟨hm, f, hf, hc⟩ | ⟨hm, f, hf, hc⟩ | ⟨m, hm, hne, hc⟩
  · rw [hm, hc, h a f hf, Option.toList_some, List.rtakeWhile_concat_pos _ _ _ (by decide),
      List.length_append, List.length_singleton, failuresInRow]
    omega
  · rw [hm, hc, h a f hf, Option.toList_none, List.append_nil, failuresInRow]
  · rw [hm, hc, Option.toList_some, List.rtakeWhile_concat_neg _ _ _ (by simpa using hne)]
    rfl

theorem counted (s : Probing) (hs : s.prober.entries = []) (happened : Chronicle) :
    s.Counted happened := by
  induction happened using List.reverseRecOn with
  | nil =>
    intro a e he
    rw [after, List.foldl_nil, Prober.entry?, hs] at he
    cases he
  | append_singleton happened o ih => exact ih.concat o.1 o.2

theorem rotate_distinct (p : Prober) (roots : TrustRoots) (h : p.entries.keys.Nodup) :
    (p.rotate roots).2.entries.keys.Nodup := by
  apply Prober.rotate_induction (motive := fun q => q.entries.keys.Nodup) h
  intro q a hq
  exact Table.keys_insert_nodup (Table.keys_insert_nodup hq _ _) _ _

theorem distinct_occur (h : s.prober.entries.keys.Nodup) (hs : s.occur now o = t) :
    t.prober.entries.keys.Nodup := by
  cases o with
  | event event =>
    have hs : s.step now event = t := hs
    cases event with
    | ask b =>
      rcases ask_cases hs with rfl | ⟨hp, -⟩
      · exact h
      · rw [hp]
        exact Table.keys_insert_nodup h b _
    | rotate roots =>
      obtain ⟨started, hq, -⟩ := rotate_cases hs
      have hd := rotate_distinct s.prober roots h
      rw [hq] at hd
      exact hd
    | retain referenced =>
      subst hs
      exact (List.filter_sublist.map Prod.fst).nodup h
    | start other =>
      rw [(start_keeps hs).1]
      exact h
    | answer other ready =>
      rcases answer_recorded hs with ⟨-, hp, -⟩ | ⟨b, e, -, -, hp, -⟩
      · rw [hp]
        exact h
      · rw [hp]
        exact Table.keys_insert_nodup h b _
    | wake other =>
      rw [(wake_keeps hs).1]
      exact h
  | rotateIdle roots =>
    subst hs
    exact rotate_distinct s.prober roots h
  | release addresses =>
    subst hs
    exact (Table.keys_map s.prober.entries
      fun a e => if addresses.contains a then ({ e with owner? := none } : ProbeEntry) else e) ▸ h

theorem turnedReady_of_unrecorded (h : s.occur now o = t) (hr : s.recorded? o = none) :
    s.turnedReady t = [] := by
  apply List.filter_eq_nil_iff.mpr
  intro a _ hc
  obtain ⟨hs, ht⟩ := Bool.and_eq_true_iff.mp hc
  obtain ⟨e, he, hready⟩ := Prober.isReady_iff.mp ht
  cases (unwritten_of_unrecorded h hr).2 a e he with
  | kept former hf _ hstatus _ =>
    rw [Prober.isReady_iff.mpr ⟨former, hf, hstatus.symm.trans hready⟩] at hs
    cases hs
  | anew _ hstatus _ => cases hstatus.symm.trans hready

theorem turnedReady_of_recorded {ready : Bool} {e : ProbeEntry}
    (hd : s.prober.entries.keys.Nodup) (he : s.prober.entry? a = some e)
    (hp : t.prober = { s.prober with
      entries := s.prober.entries.insert a (s.prober.note now e ready).2 }) :
    s.turnedReady t = if ready = true ∧ e.status ≠ .ready then [a] else [] := by
  have hstatus (b : Address) : (!s.prober.isReady b && t.prober.isReady b) =
      (b == a && decide (ready = true ∧ e.status ≠ .ready)) := by
    rw [hp, Prober.isReady, Prober.isReady, Prober.status, Prober.status, Prober.entry?_insert]
    by_cases hb : a = b
    · subst hb
      rw [he, if_pos rfl, Option.map_some, Option.map_some, Prober.status_note]
      cases ready <;> simp
    · rw [if_neg hb, beq_eq_false_iff_ne.mpr (Ne.symm hb)]
      simp
  rw [turnedReady, List.filter_congr fun b _ => hstatus b]
  by_cases hc : ready = true ∧ e.status ≠ .ready
  · rw [if_pos hc]
    simp only [decide_eq_true hc, Bool.and_true]
    rw [List.filter_beq, List.count_eq_one_of_mem hd (Table.mem_keys.mpr ⟨e, he⟩)]
    rfl
  · rw [if_neg hc]
    simp only [decide_eq_false hc, Bool.and_false]
    exact List.filter_false _

theorem announced_occur (hd : s.prober.entries.keys.Nodup) (h : s.occur now o = t) :
    t.announced = s.announced ++ s.turnedReady t := by
  cases hr : s.recorded? o with
  | none =>
    rw [turnedReady_of_unrecorded h hr, List.append_nil]
    exact (unwritten_of_unrecorded h hr).1
  | some result =>
    obtain ⟨-, e, he, hp, hn⟩ := written_of_recorded h hr
    rw [turnedReady_of_recorded hd he hp, hn]

theorem announced_after (hd : s.prober.entries.keys.Nodup) (happened : Chronicle) :
    (s.after happened).announced = s.announced ++ s.changes happened := by
  induction happened generalizing s with
  | nil => exact (List.append_nil _).symm
  | cons o happened ih =>
    obtain ⟨now, o⟩ := o
    have hs := announced_occur hd (rfl : s.occur now o = _)
    have ht := ih (distinct_occur hd (rfl : s.occur now o = _))
    rw [hs, List.append_assoc] at ht
    exact ht

theorem announced_of_occur (h : s.occur now o = t) :
    t.announced = s.announced ++ s.announces o := by
  cases hr : s.recorded? o with
  | none =>
    rw [announces, hr, (unwritten_of_unrecorded h hr).1]
    exact (List.append_nil _).symm
  | some result =>
    obtain ⟨a, ready⟩ := result
    obtain ⟨-, e, he, -, hn⟩ := written_of_recorded h hr
    rw [announces, hr, hn]
    cases ready with
    | false => rfl
    | true =>
      by_cases hs : e.status = .ready
      · rw [if_neg fun h => h.2 hs]
        exact congrArg _ (if_pos (Prober.isReady_iff.mpr ⟨e, he, hs⟩)).symm
      · have hready : ¬ s.prober.isReady a = true := by
          intro h
          obtain ⟨f, hf, hready⟩ := Prober.isReady_iff.mp h
          cases he.symm.trans hf
          exact hs hready
        rw [if_pos ⟨rfl, hs⟩]
        exact congrArg _ (if_neg hready).symm

/-- An address has failed as often as failures were written to its entry in a row, up to the
greatest count, and every change of an entry to ready is announced once. -/
theorem results_accounted (settings : ProbeSettings) (roots : TrustRoots) (happened : Chronicle) :
    let s : Probing := { prober := { settings, roots } }
    let t := s.after happened
    (∀ a, t.prober.failures a = if t.prober.entry? a = none then 0
      else min 0xFFFFFFFF (s.failuresInRow a happened)) ∧
    t.announced = s.changes happened ∧
    ∀ now o, (t.occur now o).announced = t.announced ++ t.announces o := by
  intro s t
  have hd : s.prober.entries.keys.Nodup := .nil
  refine ⟨?_, announced_after hd happened, ?_⟩
  · intro a
    rw [Prober.failures]
    cases he : t.prober.entry? a with
    | none => rfl
    | some e => exact (counted s rfl happened) a e he
  · exact fun _ _ => announced_of_occur rfl

/-- Two probes of an address fail, then it becomes ready. -/
example :
    let a : Address := ⟨"h", 80, "/b", false⟩
    let s : Probing := { prober := { settings := {}, roots := {} } }
    let probe (ready : Bool) : Chronicle :=
      [(0, .event (.start 1)), (0, .event (.answer 1 ready)), (0, .event (.wake 1))]
    let failing : Chronicle := (0, .event (.ask a)) :: probe false ++ probe false
    let t := s.after failing
    t.prober.failures a = 2 ∧ t.announced = [] ∧
      (t.after (probe true)).prober.failures a = 0 ∧ (t.after (probe true)).announced = [a] := by
  decide +kernel

end Probing

end EventRouting
