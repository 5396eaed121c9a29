import EventRouting.Proofs.Delivery.Watching

namespace EventRouting

/-- Whoever holds something has raised its flag, and nobody else holds it. -/
structure Exclusive {ι : Type} (holds : ι → Prop) (flag : Bool) : Prop where
  raised : ∀ i, holds i → flag = true
  unique : ∀ i j, holds i → holds j → i = j

namespace Exclusive

variable {ι : Type} {holds holds' : ι → Prop} {flag flag' : Bool}

theorem mono (h : Exclusive holds flag) (hs : ∀ i, holds' i → holds i) :
    Exclusive holds' flag := by
  constructor
  · intro i hi
    exact h.raised i (hs i hi)
  · intro i j hi hj
    exact h.unique i j (hs i hi) (hs j hj)

/-- One of them takes a step: it takes what nobody holds, gives it back, or neither. -/
theorem step (h : Exclusive holds flag) (x : ι) (others : ∀ i, i ≠ x → holds' i → holds i)
    (hx : ((holds' x → holds x) ∧ flag' = flag) ∨ (flag = false ∧ flag' = true) ∨
      (holds x ∧ ¬ holds' x)) : Exclusive holds' flag' := by
  rcases hx with ⟨hx, rfl⟩ | ⟨hdown, hup⟩ | ⟨hx, hn⟩
  · apply h.mono
    intro i hi
    by_cases he : i = x
    · subst he
      exact hx hi
    · exact others i he hi
  · have hself : ∀ i, holds' i → i = x := by
      intro i hi
      by_contra he
      have hr := h.raised i (others i he hi)
      rw [hdown] at hr
      cases hr
    exact ⟨fun _ _ => hup, fun i j hi hj => (hself i hi).trans (hself j hj).symm⟩
  · have hnone : ∀ i, ¬ holds' i := by
      intro i hi
      by_cases he : i = x
      · subst he
        exact hn hi
      · exact he (h.unique i x (others i he hi) hx)
    exact ⟨fun i hi => absurd hi (hnone i), fun i _ hi => absurd hi (hnone i)⟩

end Exclusive

/-- What holds of everything in a list from a place on. -/
def AllFrom {α : Type} (n : Nat) (holds : α → Prop) (l : List α) : Prop :=
  ∀ k x, n ≤ k → l[k]? = some x → holds x

namespace AllFrom

variable {α : Type} {n : Nat} {holds : α → Prop} {l : List α} {x : α}

theorem length (holds : α → Prop) (l : List α) : AllFrom l.length holds l := by
  intro k x hk hx
  exact absurd (List.getElem?_eq_some_iff.mp hx).1 (Nat.not_lt.mpr hk)

theorem concat (h : AllFrom n holds l) (hx : holds x) : AllFrom n holds (l ++ [x]) := by
  intro k y hk hy
  rcases getElem?_concat_cases hy with hy | rfl
  · exact h k y hk hy
  · exact hx

theorem set (h : AllFrom n holds l) {j : Nat} (hx : n ≤ j → holds x) :
    AllFrom n holds (l.set j x) := by
  intro k y hk hy
  rw [List.getElem?_set] at hy
  split at hy
  next he =>
    split at hy
    next =>
      cases hy
      exact hx (he ▸ hk)
    next => cases hy
  next => exact h k y hk hy

end AllFrom

namespace Watching

variable {s : Watching}

def HoldsLock (s : Watching) (x : Option Nat) : Prop :=
  ∃ a, s.handling x = some a ∧ a.holdsLock = true

def HasClaimed (s : Watching) (k : Nat) : Prop :=
  ∃ t, s.starts[k]? = some t ∧ t.hasClaimed = true

/-- The watcher is closed, and nobody is left who saw it open and may publish. -/
structure Sealed (s : Watching) : Prop where
  closed : s.watcher.closed = true
  stale : ∀ x a, s.handling x = some a → a.isCleared = false

theorem lock_step (h : Exclusive s.HoldsLock s.watcher.locked) (m : WatchingMove) :
    Exclusive (s.step m).HoldsLock (s.step m).watcher.locked := by
  rcases s.step_cases m with ⟨-, x, a, hx⟩ | hx
  · have hafter : (s.step m).HoldsLock x ↔ (a.step s.watcher).1.holdsLock = true := by
      rw [HoldsLock, hx.after]
      simp
    have hbefore : s.HoldsLock x ↔ a.holdsLock = true := by
      rw [HoldsLock, hx.before]
      simp
    apply h.step x
    · intro y hy hn
      rwa [HoldsLock, hx.others y hy] at hn
    · rw [hx.locked, hafter, hbefore]
      exact a.step_lock s.watcher
  · rw [hx.locked]
    apply h.mono
    rintro y ⟨a, ha, hh⟩
    rcases hx.hands y a ha with hb | ⟨p, rfl⟩
    · exact ⟨a, hb, hh⟩
    · cases hh

theorem closed_step (hc : s.watcher.closed = true) (m : WatchingMove) :
    (s.step m).watcher.closed = true := by
  cases m with
  | handle k =>
    rw [step]
    split
    next a _ => exact (a.step_frame s.watcher).1.closed.trans hc
    next => exact hc
  | proceed k changes =>
    rw [step]
    split
    next t _ => exact (t.step_alongside changes s.watcher).2.trans hc
    next => exact hc
  | shut k =>
    rw [step]
    split
    next c _ => exact (c.step_alongside s.watcher).2.2 hc
    next => exact hc
  | loop => exact s.watcher.stepLoop_frame.closed.trans hc
  | submit p | start | close | read r | notify | endChanges | bus m => exact hc

theorem claim_step (h : Exclusive s.HasClaimed s.watcher.started) (m : WatchingMove) :
    Exclusive (s.step m).HasClaimed (s.step m).watcher.started := by
  cases m with
  | start =>
    apply h.mono
    rintro k ⟨t, ht, hh⟩
    rcases getElem?_concat_cases ht with ht | rfl
    · exact ⟨t, ht, hh⟩
    · cases hh
  | proceed k changes =>
    rw [step]
    split
    next t hk =>
      have hafter : (s.starts.set k (t.step changes s.watcher).1)[k]? =
          some (t.step changes s.watcher).1 :=
        List.getElem?_set_self (List.getElem?_eq_some_iff.mp hk).1
      apply h.step k
      · rintro j hj ⟨u, hu, hh⟩
        rw [List.getElem?_set_ne (Ne.symm hj)] at hu
        exact ⟨u, hu, hh⟩
      · rcases t.step_claim changes s.watcher with ⟨ht, he⟩ | ht
        · refine .inl ⟨?_, he⟩
          rintro ⟨u, hu, hh⟩
          cases hafter.symm.trans hu
          exact ⟨t, hk, ht hh⟩
        · exact .inr (.inl ht)
    next => exact h
  | handle k =>
    rw [step]
    split
    next a _ =>
      rw [(a.step_frame s.watcher).1.started]
      exact h
    next => exact h
  | shut k =>
    rw [step]
    split
    next c _ =>
      rw [(c.step_alongside s.watcher).2.1]
      exact h
    next => exact h
  | loop =>
    rw [step, s.watcher.stepLoop_frame.started]
    exact h
  | submit p | close | read r | notify | endChanges | bus m => exact h

theorem Sealed.step (h : s.Sealed) (m : WatchingMove) :
    (s.step m).Sealed ∧ (s.step m).watcher.bus = (s.watcher.bus.run m.bus?.toList).2 ∧
      (s.step m).watcher.last? = s.watcher.last? := by
  have hc := closed_step h.closed m
  rcases s.step_cases m with ⟨hm, x, a, hx⟩ | hx
  · obtain ⟨ha, hb, hl⟩ := a.step_of_closed h.closed (h.stale x a hx.before)
    refine ⟨⟨hc, ?_⟩, ?_, hx.last.trans hl⟩
    · intro y b hy
      by_cases he : y = x
      · subst he
        cases hx.after.symm.trans hy
        exact ha
      · rw [hx.others y he] at hy
        exact h.stale y b hy
    · rw [hm, hx.bus, hb]
      rfl
  · refine ⟨⟨hc, ?_⟩, hx.bus, hx.last⟩
    intro y b hy
    rcases hx.hands y b hy with hb | ⟨p, rfl⟩
    · exact h.stale y b hb
    · rfl

theorem Sealed.run (h : s.Sealed) (later : List WatchingMove) :
    (s.run later).watcher.bus = (s.watcher.bus.run (later.filterMap WatchingMove.bus?)).2 ∧
      (s.run later).watcher.last? = s.watcher.last? := by
  induction later generalizing s with
  | nil => exact ⟨rfl, rfl⟩
  | cons m later ih =>
    obtain ⟨hs, hb, hl⟩ := h.step m
    obtain ⟨hbus, hlast⟩ := ih hs
    refine ⟨?_, hlast.trans hl⟩
    rw [run, List.foldl_cons, ← run, hbus, hb]
    cases hm : m.bus? with
    | none =>
      rw [List.filterMap_cons_none hm]
      rfl
    | some b =>
      rw [List.filterMap_cons_some hm]
      rfl

end Watching

/-- What a call to close has brought about. -/
def Close.Reached (s : Watching) : Close → Prop
  | .enter => True
  | .barrier | .finished false => s.watcher.closed = true
  | .cancel | .takeHandle | .join | .finished true => s.Sealed

theorem Close.Reached.mono {c : Close} {s s' : Watching} (h : c.Reached s)
    (hc : s.watcher.closed = true → s'.watcher.closed = true) (hs : s.Sealed → s'.Sealed) :
    c.Reached s' := by
  cases c with
  | enter => trivial
  | barrier => exact hc h
  | finished b =>
    cases b with
    | false => exact hc h
    | true => exact hs h
  | cancel | takeHandle | join => exact hs h

namespace Watching

variable {s : Watching}

/-- Whoever gets the lock of a closed watcher knows that nobody holds it who saw the watcher
open. -/
theorem sealed_of_unlocked (h : Exclusive s.HoldsLock s.watcher.locked)
    (hc : s.watcher.closed = true) (hl : s.watcher.locked = false) : s.Sealed := by
  refine ⟨hc, ?_⟩
  intro x a hx
  apply Bool.eq_false_iff.mpr
  intro ha
  have hr := h.raised x ⟨a, hx, Apply.holdsLock_of_isCleared ha⟩
  rw [hl] at hr
  cases hr

theorem reached_shut (h : Exclusive s.HoldsLock s.watcher.locked) {k : Nat} {c : Close}
    (hk : s.closes[k]? = some c) (hc : c.Reached s) :
    (c.step s.watcher).1.Reached (s.step (.shut k)) := by
  have hs : (s.step (.shut k)).watcher = (c.step s.watcher).2 := by
    rw [step, hk]
  cases c with
  | enter =>
    have hclosed : (s.step (.shut k)).watcher.closed = true := by
      rw [hs, Close.step]
      split
      next hw => exact hw
      next => rfl
    rw [Close.step]
    split <;> exact hclosed
  | barrier =>
    have hclosed := closed_step hc (.shut k)
    rw [Close.step]
    split
    next => exact hclosed
    next hl =>
      -- Whoever takes the lock from now on finds the flag up when it looks again.
      exact ((sealed_of_unlocked h hc (Bool.eq_false_iff.mpr hl)).step (.shut k)).1
  | cancel => exact (Sealed.step hc (.shut k)).1
  | takeHandle =>
    have hsealed := (Sealed.step hc (.shut k)).1
    rw [Close.step]
    split <;> exact hsealed
  | join =>
    have hsealed := (Sealed.step hc (.shut k)).1
    rw [Close.step]
    split <;> exact hsealed
  | finished b =>
    exact hc.mono (fun hw => closed_step hw _) (fun hw => (hw.step _).1)

/-- What holds of a watcher and all calls on it. -/
structure Kept (s : Watching) : Prop where
  lock : Exclusive s.HoldsLock s.watcher.locked
  claim : Exclusive s.HasClaimed s.watcher.started
  closes : ∀ c ∈ s.closes, c.Reached s

theorem Kept.on (bus : Bus) : (on bus).Kept := by
  have hnone : ∀ x, (Watching.on bus).handling x = none := by
    intro x
    cases x <;> rfl
  refine ⟨⟨?_, ?_⟩, ⟨?_, ?_⟩, nofun⟩
  · rintro x ⟨a, ha, -⟩
    cases (hnone x).symm.trans ha
  · rintro x _ ⟨a, ha, -⟩ -
    cases (hnone x).symm.trans ha
  · rintro k ⟨t, ht, -⟩
    cases ht
  · rintro k _ ⟨t, ht, -⟩ -
    cases ht

theorem Kept.step (h : s.Kept) (m : WatchingMove) : (s.step m).Kept := by
  refine ⟨lock_step h.lock m, claim_step h.claim m, ?_⟩
  have hmono : ∀ {c : Close}, c.Reached s → c.Reached (s.step m) := fun hc =>
    hc.mono (fun hw => closed_step hw m) (fun hw => (hw.step m).1)
  intro c hm
  cases m with
  | close =>
    rcases List.mem_append.mp hm with hm | hm
    · exact hmono (h.closes c hm)
    · obtain rfl := List.mem_singleton.mp hm
      trivial
  | shut k =>
    cases hk : s.closes[k]? with
    | none =>
      have hs : (s.step (.shut k)).closes = s.closes := by
        rw [Watching.step, hk]
      rw [hs] at hm
      exact hmono (h.closes c hm)
    | some d =>
      have hs : (s.step (.shut k)).closes = s.closes.set k (d.step s.watcher).1 := by
        rw [Watching.step, hk]
      rw [hs] at hm
      rcases List.mem_or_eq_of_mem_set hm with hm | rfl
      · exact hmono (h.closes c hm)
      · exact reached_shut h.lock hk (h.closes d (List.mem_of_getElem? hk))
  | handle k | proceed k changes =>
    apply hmono
    apply h.closes
    rw [Watching.step] at hm
    split at hm <;> exact hm
  | submit p | start | loop | read r | notify | endChanges | bus m => exact hmono (h.closes c hm)

theorem Kept.run (h : s.Kept) (moves : List WatchingMove) : (s.run moves).Kept := by
  induction moves generalizing s with
  | nil => exact h
  | cons m moves ih => exact ih (h.step m)

/-- A call with a payload that has not begun, or was turned away. -/
def TurnedAway (a : Apply) : Prop := (∃ p, a = .enter p) ∨ a = .finished .closed

/-- A call to start that has not begun, or was turned away. -/
def Refused (t : Start) : Prop := t = .enter ∨ t = .finished (.error .closed)

/-- The calls after the first ones come too late. -/
structure Late (n l : Nat) (s : Watching) : Prop where
  applies : AllFrom n TurnedAway s.applies
  starts : AllFrom l Refused s.starts

theorem TurnedAway.step {a : Apply} (h : TurnedAway a) {w : Watcher} (hc : w.closed = true) :
    (a.step w).1 = .finished .closed := by
  rcases h with ⟨p, rfl⟩ | rfl
  · rw [Apply.step, if_pos hc]
  · rfl

theorem Refused.step {t : Start} (h : Refused t) {w : Watcher} (hc : w.closed = true)
    (changes : Except ContractError Unit) :
    (t.step changes w).1 = .finished (.error .closed) := by
  rcases h with rfl | rfl
  · rw [Start.step, if_pos hc]
  · rfl

namespace Late

variable {n l : Nat}

theorem now (s : Watching) : Late s.applies.length s.starts.length s :=
  ⟨.length TurnedAway s.applies, .length Refused s.starts⟩

theorem step (h : Late n l s) (hc : s.watcher.closed = true) (m : WatchingMove) :
    Late n l (s.step m) := by
  cases m with
  | submit p => exact ⟨h.applies.concat (.inl ⟨p, rfl⟩), h.starts⟩
  | start => exact ⟨h.applies, h.starts.concat (.inl rfl)⟩
  | handle j =>
    rw [Watching.step]
    split
    next a hj =>
      refine ⟨h.applies.set ?_, h.starts⟩
      intro hn
      exact .inr ((h.applies j a hn hj).step hc)
    next => exact h
  | proceed j changes =>
    rw [Watching.step]
    split
    next t hj =>
      refine ⟨h.applies, h.starts.set ?_⟩
      intro hn
      exact .inr ((h.starts j t hn hj).step hc changes)
    next => exact h
  | shut j =>
    rw [Watching.step]
    split <;> exact ⟨h.applies, h.starts⟩
  | close | loop | read r | notify | endChanges | bus m => exact ⟨h.applies, h.starts⟩

theorem run (h : Late n l s) (hc : s.watcher.closed = true) (later : List WatchingMove) :
    Late n l (s.run later) ∧ (s.run later).watcher.closed = true := by
  induction later generalizing s with
  | nil => exact ⟨h, hc⟩
  | cons m later ih => exact ih (h.step hc m) (closed_step hc m)

end Late

/-- At most one call starts the loop, and payloads and starts that come after a call to close has
answered are turned away. -/
theorem closes_for_good (bus : Bus) (moves later : List WatchingMove) :
    let s := (on bus).run moves
    let t := s.run later
    (∀ j k : Nat, s.starts[j]? = some (.finished (.ok ())) →
      s.starts[k]? = some (.finished (.ok ())) → j = k) ∧
    (.finished true ∈ s.closes →
      t.watcher.bus = (s.watcher.bus.run (later.filterMap WatchingMove.bus?)).2 ∧
      t.watcher.last? = s.watcher.last? ∧
      (∀ k, s.applies.length ≤ k → k < t.applies.length →
        (t.step (.handle k)).applies[k]? = some (.finished .closed)) ∧
      ∀ k changes, s.starts.length ≤ k → k < t.starts.length →
        (t.step (.proceed k changes)).starts[k]? = some (.finished (.error .closed))) := by
  intro s t
  have h : s.Kept := (Kept.on bus).run moves
  constructor
  · intro j k hj hk
    exact h.claim.unique j k ⟨_, hj, rfl⟩ ⟨_, hk, rfl⟩
  · intro hm
    have hsealed : s.Sealed := h.closes (.finished true) hm
    obtain ⟨hbus, hlast⟩ := hsealed.run later
    obtain ⟨hlate, hclosed⟩ := (Late.now s).run hsealed.closed later
    refine ⟨hbus, hlast, ?_, ?_⟩
    · intro k hk hlt
      have ha := List.getElem?_eq_getElem hlt
      have hs := (hlate.applies k _ hk ha).step hclosed
      rw [step, ha]
      exact (List.getElem?_set_self hlt).trans (congrArg some hs)
    · intro k changes hk hlt
      have ht := List.getElem?_eq_getElem hlt
      have hs := (hlate.starts k _ hk ht).step hclosed changes
      rw [step, ht]
      exact (List.getElem?_set_self hlt).trans (congrArg some hs)

theorem closes_for_good_amid_start :
    let goOn : WatchingMove := .proceed 0 (.ok ())
    let moves : List WatchingMove := [.start, goOn, goOn, goOn, goOn,
      .submit (Contract.drain 4).encode,
      .handle 0, .handle 0, .submit (Contract.drain 3).encode, .handle 1, .handle 1, .handle 1,
      .handle 1, .handle 1, .handle 1, .handle 1, .close, .shut 0, .shut 0, .shut 0, .shut 0]
    let later : List WatchingMove := [goOn, goOn, .loop, .read (.payload (Contract.drain 7).encode),
      .loop, .bus (.receive 0), .handle 0, .handle 0, .submit [], .start]
    let s := (on ({} : Bus).subscribe).run moves
    let t := s.run later
    .finished true ∈ s.closes ∧
      t.watcher.bus = (s.watcher.bus.run [.receive 0]).2 ∧
      t.watcher.last? = s.watcher.last? ∧ s.watcher.last? = some 3 ∧
      (t.step (.handle 2)).applies[2]? = some (.finished .closed) ∧
      (t.step (.proceed 1 (.ok ()))).starts[1]? = some (.finished (.error .closed)) := by
  intro goOn moves later
  have hm : .finished true ∈ ((on ({} : Bus).subscribe).run moves).closes := by decide +kernel
  obtain ⟨-, hclosed⟩ := closes_for_good ({} : Bus).subscribe moves later
  obtain ⟨hb, hl, ha, hs⟩ := hclosed hm
  exact ⟨hm, hb, hl, by decide +kernel, ha 2 (by decide +kernel) (by decide +kernel),
    hs 1 (.ok ()) (by decide +kernel) (by decide +kernel)⟩

end Watching

end EventRouting
