import EventRouting.Delivery.Watcher

namespace EventRouting

/-- The contract of some payload that was written. -/
def Written (written : List Payload) (c : Contract) : Prop :=
  ∃ p ∈ written, Contract.decode p = .ok c

/-- The contract of the payload that was written last. -/
def Stored (written : List Payload) (c : Contract) : Prop :=
  ∃ p, written.getLast? = some p ∧ Contract.decode p = .ok c

/-- The stored contract, if there is one, is not newer than the last one that went out. -/
def Covered (written : List Payload) (last? : Option Generation) : Prop :=
  ∀ c, Stored written c → ∃ g, last? = some g ∧ c.generation ≤ g

theorem Stored.unique {written : List Payload} {c d : Contract} (hc : Stored written c)
    (hd : Stored written d) : c = d := by
  obtain ⟨p, hp, hc⟩ := hc
  obtain ⟨q, hq, hd⟩ := hd
  cases hp.symm.trans hq
  cases hc.symm.trans hd
  rfl

theorem Written.append {written : List Payload} {c : Contract} (h : Written written c)
    (later : List Payload) : Written (written ++ later) c := by
  obtain ⟨p, hp, hc⟩ := h
  exact ⟨p, List.mem_append_left _ hp, hc⟩

/-- What is known while a payload is handled. `current` says that no change waits to be noticed. -/
def Apply.Fits (written : List Payload) (last? : Option Generation) (current : Prop) :
    Apply → Prop
  | .enter p | .decode p => p ∈ written ∧ (current → written.getLast? = some p)
  | .acquire c | .locked c | .compare c => Written written c ∧ (current → Stored written c)
  | .publish c _ =>
    (Written written c ∧ (current → Stored written c)) ∧ last?.all (· < c.generation) = true
  | .restorePhase _ _ | .finished _ => current → Covered written last?

def WatchLoop.Fits (written : List Payload) (last? : Option Generation) (current : Prop) :
    WatchLoop → Prop
  | .beginRead | .reading | .leaving | .exited => True
  | .applying a => a.Fits written last? current
  | .endRead | .waiting => current → Covered written last?

variable {written : List Payload} {last? : Option Generation} {current later : Prop}
  {w w' : Watcher}

theorem Apply.Fits.write {a : Apply} (h : a.Fits written last? current) (p : Payload)
    (hn : ¬ later) : a.Fits (written ++ [p]) last? later := by
  cases a with
  | enter q | decode q => exact ⟨List.mem_append_left _ h.1, fun hl => absurd hl hn⟩
  | acquire c | locked c | compare c => exact ⟨h.1.append _, fun hl => absurd hl hn⟩
  | publish c before => exact ⟨⟨h.1.1.append _, fun hl => absurd hl hn⟩, h.2⟩
  | restorePhase g before | finished o => exact fun hl => absurd hl hn

theorem WatchLoop.Fits.write {l : WatchLoop} (h : l.Fits written last? current) (p : Payload)
    (hn : ¬ later) : l.Fits (written ++ [p]) last? later := by
  cases l with
  | applying a => exact Apply.Fits.write h p hn
  | endRead | waiting => exact fun hl => absurd hl hn
  | beginRead | reading | leaving | exited => trivial

/-- What a step of the loop changes besides its point: it publishes a newer contract, or it leaves
what counts alone. -/
structure Watcher.Forwards (written : List Payload) (w w' : Watcher) : Prop where
  closed : w'.closed = w.closed
  cancelled : w'.cancelled = w.cancelled
  sent : (w'.bus = w.bus ∧ w'.last? = w.last?) ∨ ∃ c, Written written c ∧
    w.last?.all (· < c.generation) = true ∧ w'.bus = (w.bus.publish c).2 ∧
    w'.last? = some c.generation

theorem Watcher.Forwards.refl (written : List Payload) (w : Watcher) : w.Forwards written w :=
  ⟨rfl, rfl, .inl ⟨rfl, rfl⟩⟩

theorem Apply.Fits.step {a a' : Apply} (h : a.Fits written w.last? current)
    (hc : w.closed = false) (hs : a.step w = (a', w')) :
    a'.Fits written w'.last? current ∧ w.Forwards written w' := by
  have hopen : ¬ w.closed = true := Bool.eq_false_iff.mp hc
  cases a with
  | enter p =>
    rw [Apply.step, if_neg hopen] at hs
    cases hs
    exact ⟨h, .refl written w⟩
  | decode p =>
    rw [Apply.step] at hs
    cases hd : Contract.decode p with
    | ok c =>
      rw [hd] at hs
      cases hs
      exact ⟨⟨⟨p, h.1, hd⟩, fun hn => ⟨p, h.2 hn, hd⟩⟩, .refl written w⟩
    | error e =>
      rw [hd] at hs
      cases hs
      refine ⟨fun hn => ?_, .refl written w⟩
      rintro c ⟨q, hq, hc⟩
      cases (h.2 hn).symm.trans hq
      cases hd.symm.trans hc
  | acquire c =>
    rw [Apply.step] at hs
    split at hs
    · cases hs
      exact ⟨h, .refl written w⟩
    · cases hs
      exact ⟨h, rfl, rfl, .inl ⟨rfl, rfl⟩⟩
  | locked c =>
    rw [Apply.step, if_neg hopen] at hs
    cases hs
    exact ⟨h, .refl written w⟩
  | compare c =>
    rw [Apply.step] at hs
    by_cases hl : w.last?.all (· < c.generation) = true
    · rw [if_pos hl] at hs
      cases hs
      exact ⟨⟨h, hl⟩, rfl, rfl, .inl ⟨rfl, rfl⟩⟩
    · rw [if_neg hl] at hs
      cases hs
      refine ⟨fun hn => ?_, rfl, rfl, .inl ⟨rfl, rfl⟩⟩
      intro d hd
      cases (h.2 hn).unique hd
      cases hw : w.last? with
      | none =>
        rw [hw] at hl
        exact absurd rfl hl
      | some g =>
        rw [hw] at hl
        exact ⟨g, rfl, UInt64.not_lt.mp fun hlt => hl (decide_eq_true hlt)⟩
  | publish c before =>
    cases hs
    refine ⟨fun hn => ?_, rfl, rfl, .inr ⟨c, h.1.1, h.2, rfl, rfl⟩⟩
    intro d hd
    cases (h.1.2 hn).unique hd
    exact ⟨c.generation, rfl, UInt64.le_refl _⟩
  | restorePhase g before =>
    cases hs
    exact ⟨h, rfl, rfl, .inl ⟨rfl, rfl⟩⟩
  | finished o =>
    cases hs
    exact ⟨h, .refl written w⟩

theorem WatchLoop.Fits.step {l l' : WatchLoop} (h : l.Fits written w.last? current)
    (hc : w.closed = false) (hn : w.cancelled = false) (hs : l.step w = (l', w')) :
    l'.Fits written w'.last? current ∧ w.Forwards written w' := by
  cases l with
  | beginRead =>
    cases hs
    exact ⟨trivial, rfl, rfl, .inl ⟨rfl, rfl⟩⟩
  | reading =>
    rw [WatchLoop.step, hn] at hs
    cases hs
    exact ⟨trivial, .refl written w⟩
  | applying a =>
    have ha : a.Fits written w.last? current := h
    cases a with
    | finished o =>
      cases hs
      exact ⟨h, .refl written w⟩
    | enter _ | decode _ | acquire _ | locked _ | compare _ | publish _ _ | restorePhase _ _ =>
      cases hs
      exact ha.step hc rfl
  | endRead =>
    cases hs
    exact ⟨h, rfl, rfl, .inl ⟨rfl, rfl⟩⟩
  | waiting =>
    rw [WatchLoop.step, hn] at hs
    cases hs
    exact ⟨h, .refl written w⟩
  | leaving =>
    cases hs
    exact ⟨trivial, rfl, rfl, .inl ⟨rfl, rfl⟩⟩
  | exited =>
    cases hs
    exact ⟨trivial, .refl written w⟩

end EventRouting
