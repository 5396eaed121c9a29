import EventRouting.Proofs.Readiness.Ownership

namespace EventRouting

def ProbeEvent.isRotation : ProbeEvent → Bool
  | .rotate _ => true
  | .ask _ | .retain _ | .start _ | .answer _ _ | .wake _ => false

namespace Probing

/-- What happened to a prober and its loops, and when. -/
abbrev History := List (Span × ProbeEvent)

def run (s : Probing) (events : History) : Probing := events.foldl (fun s e => s.step e.1 e.2) s

theorem run_append (s : Probing) (events later : History) :
    s.run (events ++ later) = (s.run events).run later :=
  List.foldl_append

theorem run_concat (s : Probing) (events : History) (now : Span) (event : ProbeEvent) :
    s.run (events ++ [(now, event)]) = (s.run events).step now event :=
  List.foldl_concat ..

variable {s t : Probing} {a : Address} {token : Token} {now : Span} {event : ProbeEvent}
  {roots : TrustRoots}

theorem ask_cases (h : s.step now (.ask a) = t) :
    t = s ∨ t.prober = (s.prober.claim a).2 ∧
      t.loops = s.loops.insert (s.prober.lastToken + 1) ⟨a, .starting⟩ := by
  rcases hq : s.prober.request now a with ⟨started?, q⟩
  simp only [step, hq] at h
  rcases Prober.request_cases hq with ⟨rfl, rfl⟩ | ⟨rfl, rfl⟩
  · exact .inl h.symm
  · cases h
    exact .inr ⟨rfl, rfl⟩

theorem spawn_foldl {started : List (Address × Token)} (hn : (started.map Prod.snd).Nodup)
    (s : Probing) :
    let t := started.foldl (fun s (a, token) => s.spawn a token) s
    t.prober = s.prober ∧
      (∀ a token, (a, token) ∈ started → t.loops.get? token = some ⟨a, .starting⟩) ∧
      ∀ token ∉ started.map Prod.snd, t.loops.get? token = s.loops.get? token := by
  induction started generalizing s with
  | nil =>
    refine ⟨rfl, ?_, fun _ _ => rfl⟩
    intro a token h
    cases h
  | cons loop started ih =>
    obtain ⟨hl, hn⟩ := List.nodup_cons.mp hn
    obtain ⟨hp, hstarted, hothers⟩ := ih hn (s.spawn loop.1 loop.2)
    refine ⟨hp, ?_, ?_⟩
    · intro a token h
      rcases List.mem_cons.mp h with rfl | h
      · exact (hothers token hl).trans ((Table.get?_insert ..).trans (if_pos rfl))
      · exact hstarted a token h
    · intro token ht
      obtain ⟨hne, ht⟩ := not_or.mp fun h => ht (List.mem_cons.mpr h)
      exact (hothers token ht).trans ((Table.get?_insert ..).trans (if_neg fun he => hne he.symm))

/-- A rotation starts the loops of the entries that it resets, and leaves the other loops alone. -/
theorem rotate_cases (h : s.step now (.rotate roots) = t) :
    ∃ started, s.prober.rotate roots = (started, t.prober) ∧
      (∀ a token, (a, token) ∈ started → t.loops.get? token = some ⟨a, .starting⟩) ∧
      ∀ token ∉ started.map Prod.snd, t.loops.get? token = s.loops.get? token := by
  rcases hq : s.prober.rotate roots with ⟨started, q⟩
  simp only [step, hq] at h
  have hn : (started.map Prod.snd).Nodup :=
    (Prober.renewed_rotate hq).ascending.imp fun h => Nat.ne_of_lt h
  obtain ⟨hp, hl⟩ := spawn_foldl hn { s with prober := q }
  rw [h] at hp hl
  exact ⟨started, by rw [hp], hl⟩

theorem rotate_loops (h : s.step now (.rotate roots) = t) {l : ProbeLoop}
    (hl : t.loops.get? token = some l) : s.loops.get? token = some l ∨
      l.point = .starting ∧ token ≤ t.prober.lastToken := by
  obtain ⟨started, hr, hs, ho⟩ := rotate_cases h
  by_cases hm : token ∈ started.map Prod.snd
  · obtain ⟨⟨a, token⟩, hstarted, rfl⟩ := List.mem_map.mp hm
    rw [hs a token hstarted] at hl
    cases hl
    exact .inr ⟨rfl, ((Prober.renewed_rotate hr).bounds _ hstarted).2⟩
  · rw [ho token hm] at hl
    exact .inl hl

theorem start_cases (h : s.step now (.start token) = t) :
    t = s ∨ ∃ a, s.loops.get? token = some ⟨a, .starting⟩ ∧ t.prober = s.prober ∧
      ((s.prober.isOwner a token = true ∧
          t.loops = s.loops.insert token ⟨a, .probing s.prober.roots⟩) ∨
        s.prober.isOwner a token = false ∧ t.loops = s.loops.erase token) := by
  cases hl : s.loops.get? token with
  | none =>
    simp only [step, hl] at h
    exact .inl h.symm
  | some l =>
    obtain ⟨a, point⟩ := l
    simp only [step, hl] at h
    split at h
    next hp =>
      subst hp
      split at h
      next ho =>
        cases h
        exact .inr ⟨a, rfl, rfl, .inl ⟨ho, rfl⟩⟩
      next ho =>
        cases h
        exact .inr ⟨a, rfl, rfl, .inr ⟨Bool.eq_false_iff.mpr ho, rfl⟩⟩
    next => exact .inl h.symm

theorem wake_cases (h : s.step now (.wake token) = t) :
    t = s ∨ ∃ a delay, s.loops.get? token = some ⟨a, .sleeping delay⟩ ∧ t.prober = s.prober ∧
      t.loops = s.loops.insert token ⟨a, .starting⟩ := by
  cases hl : s.loops.get? token with
  | none =>
    simp only [step, hl] at h
    exact .inl h.symm
  | some l =>
    obtain ⟨a, point⟩ := l
    simp only [step, hl] at h
    cases point with
    | sleeping delay =>
      cases h
      exact .inr ⟨a, delay, rfl, rfl, rfl⟩
    | starting | probing roots => exact .inl h.symm

/-- What becomes of a probe's result. A loop that lost its entry ends and writes nothing, one that
found its address ready ends, and one that did not goes to sleep. -/
theorem answer_cases {ready : Bool} (h : s.step now (.answer token ready) = t) :
    (t = s ∧ ∀ a roots, s.loops.get? token ≠ some ⟨a, .probing roots⟩) ∨
      ∃ a roots, s.loops.get? token = some ⟨a, .probing roots⟩ ∧
        ((s.prober.isOwner a token = false ∧ t.prober = s.prober ∧
            t.loops = s.loops.erase token) ∨
          ∃ e, s.prober.entry? a = some e ∧ e.owner? = some token ∧
            t.prober = { s.prober with
              entries := s.prober.entries.insert a (s.prober.note now e ready).2 } ∧
            ((ready = true ∧ t.loops = s.loops.erase token) ∨
              ready = false ∧ ∃ delay, t.loops = s.loops.insert token ⟨a, .sleeping delay⟩)) := by
  cases hl : s.loops.get? token with
  | none =>
    simp only [step, hl] at h
    refine .inl ⟨h.symm, ?_⟩
    intro b roots hb
    cases hb
  | some l =>
    obtain ⟨a, point⟩ := l
    simp only [step, hl] at h
    cases point with
    | starting | sleeping delay =>
      refine .inl ⟨h.symm, ?_⟩
      intro b roots hb
      cases hb
    | probing roots =>
      refine .inr ⟨a, roots, rfl, ?_⟩
      rcases hq : s.prober.record now a token ready with ⟨outcome?, q⟩
      simp only [hq] at h
      rcases Prober.record_cases hq with ⟨ho, rfl, rfl⟩ | ⟨e, he, ho, rfl, rfl⟩
      · cases h
        exact .inl ⟨ho, rfl, rfl⟩
      · refine .inr ⟨e, he, ho, ?_⟩
        cases ready with
        | true =>
          cases h
          exact ⟨rfl, .inl ⟨rfl, rfl⟩⟩
        | false =>
          cases h
          exact ⟨rfl, .inr ⟨rfl, _, rfl⟩⟩

/-- Every loop has a token that was given out. -/
def Numbered (s : Probing) : Prop :=
  ∀ token l, s.loops.get? token = some l → token ≤ s.prober.lastToken

theorem Numbered.of_insert (h : s.Numbered) {l l' : ProbeLoop} (hl : s.loops.get? token = some l)
    (hp : t.prober.lastToken = s.prober.lastToken) (ht : t.loops = s.loops.insert token l') :
    t.Numbered := by
  intro other m hm
  rw [ht] at hm
  rw [hp]
  rcases Table.get?_insert_cases hm with ⟨rfl, -⟩ | ⟨-, hm⟩
  · exact h token l hl
  · exact h other m hm

theorem Numbered.of_erase (h : s.Numbered) (hp : t.prober.lastToken = s.prober.lastToken)
    (ht : t.loops = s.loops.erase token) : t.Numbered := by
  intro other m hm
  rw [ht] at hm
  rw [hp]
  exact h other m (Table.get?_erase_cases hm).2

theorem Numbered.step (h : s.Numbered) (hs : s.step now event = t) : t.Numbered := by
  cases event with
  | ask a =>
    rcases ask_cases hs with rfl | ⟨hp, hl⟩
    · exact h
    · intro token l hm
      rw [hl] at hm
      rw [hp]
      rcases Table.get?_insert_cases hm with ⟨rfl, -⟩ | ⟨-, hm⟩
      · exact Nat.le_refl _
      · exact Nat.le_succ_of_le (h token l hm)
  | rotate roots =>
    obtain ⟨started, hr, -⟩ := rotate_cases hs
    intro token l hm
    rcases rotate_loops hs hm with hm | ⟨-, ht⟩
    · exact Nat.le_trans (h token l hm) (Prober.renewed_rotate hr).lastToken_le
    · exact ht
  | retain referenced =>
    cases hs
    exact h
  | start token =>
    rcases start_cases hs with rfl | ⟨a, ha, hp, ⟨-, hl⟩ | ⟨-, hl⟩⟩
    · exact h
    · exact h.of_insert ha (by rw [hp]) hl
    · exact h.of_erase (by rw [hp]) hl
  | answer token ready =>
    rcases answer_cases hs with ⟨rfl, -⟩ | ⟨a, roots, ha, ⟨-, hp, hl⟩ | ⟨e, -, -, hp, hl⟩⟩
    · exact h
    · exact h.of_erase (by rw [hp]) hl
    · rcases hl with ⟨-, hl⟩ | ⟨-, delay, hl⟩
      · exact h.of_erase (by rw [hp]) hl
      · exact h.of_insert ha (by rw [hp]) hl
  | wake token =>
    rcases wake_cases hs with rfl | ⟨a, delay, ha, hp, hl⟩
    · exact h
    · exact h.of_insert ha (by rw [hp]) hl

theorem trust_step (hs : s.step now event = t) (he : event.isRotation = false) :
    t.prober.roots = s.prober.roots ∧ t.prober.epoch = s.prober.epoch := by
  cases event with
  | ask a =>
    rcases ask_cases hs with rfl | ⟨hp, -⟩
    · exact ⟨rfl, rfl⟩
    · rw [hp]
      exact ⟨rfl, rfl⟩
  | rotate roots => cases he
  | retain referenced =>
    cases hs
    exact ⟨rfl, rfl⟩
  | start token =>
    rcases start_cases hs with rfl | ⟨a, -, hp, -⟩
    · exact ⟨rfl, rfl⟩
    · rw [hp]
      exact ⟨rfl, rfl⟩
  | answer token ready =>
    rcases answer_cases hs with ⟨rfl, -⟩ | ⟨a, roots, -, ⟨-, hp, -⟩ | ⟨e, -, -, hp, -⟩⟩
    · exact ⟨rfl, rfl⟩
    · rw [hp]
      exact ⟨rfl, rfl⟩
    · rw [hp]
      exact ⟨rfl, rfl⟩
  | wake token =>
    rcases wake_cases hs with rfl | ⟨a, delay, -, hp, -⟩
    · exact ⟨rfl, rfl⟩
    · rw [hp]
      exact ⟨rfl, rfl⟩

theorem roots_step (hs : s.step now event = t) (he : event.isRotation = false) :
    t.prober.roots = s.prober.roots :=
  (trust_step hs he).1

/-- A loop that owns the entry of a TLS address and waits for its probe did so before, or it just
took the trust roots. A rotation leaves none. -/
theorem probing_step (hs : s.step now event = t) (hn : s.Numbered) (ha : a.tls = true)
    (hl : t.loops.get? token = some ⟨a, .probing roots⟩) (ho : t.prober.isOwner a token = true) :
    (event.isRotation = false ∧ s.loops.get? token = some ⟨a, .probing roots⟩ ∧
        s.prober.isOwner a token = true) ∨
      event = .start token ∧ s.loops.get? token = some ⟨a, .starting⟩ ∧
        s.prober.isOwner a token = true ∧ roots = s.prober.roots := by
  cases event with
  | ask b =>
    rcases ask_cases hs with rfl | ⟨hp, hi⟩
    · exact .inl ⟨rfl, hl, ho⟩
    · rw [hi] at hl
      rw [hp] at ho
      rcases Table.get?_insert_cases hl with ⟨-, hl⟩ | ⟨ht, hl⟩
      · cases hl
      · exact .inl ⟨rfl, hl, Prober.isOwner_of_claim ho fun he => ht he.symm⟩
  | rotate renewed =>
    obtain ⟨started, hr, -⟩ := rotate_cases hs
    rcases rotate_loops hs hl with hl | ⟨hp, -⟩
    · obtain ⟨e, he, ho⟩ := Prober.isOwner_iff.mp ho
      obtain ⟨fresh, hlt, rfl⟩ := Prober.rotate_tls hr ha he
      cases ho
      exact absurd (hn token _ hl) (Nat.not_le_of_lt hlt)
    · cases hp
  | retain referenced =>
    cases hs
    obtain ⟨e, he, ho⟩ := Prober.isOwner_iff.mp ho
    exact .inl ⟨rfl, hl, Prober.isOwner_iff.mpr ⟨e, Prober.entry?_of_retain he, ho⟩⟩
  | start other =>
    rcases start_cases hs with rfl | ⟨b, hb, hp, ⟨hw, hi⟩ | ⟨-, hi⟩⟩
    · exact .inl ⟨rfl, hl, ho⟩
    · rw [hi] at hl
      rcases Table.get?_insert_cases hl with ⟨rfl, he⟩ | ⟨-, hl⟩
      · cases he
        exact .inr ⟨rfl, hb, hw, rfl⟩
      · rw [hp] at ho
        exact .inl ⟨rfl, hl, ho⟩
    · rw [hi] at hl
      rw [hp] at ho
      exact .inl ⟨rfl, (Table.get?_erase_cases hl).2, ho⟩
  | answer other ready =>
    rcases answer_cases hs with ⟨rfl, -⟩ | ⟨b, taken, hb, ⟨-, hp, hi⟩ | ⟨e, -, he, hp, hi⟩⟩
    · exact .inl ⟨rfl, hl, ho⟩
    · rw [hi] at hl
      rw [hp] at ho
      exact .inl ⟨rfl, (Table.get?_erase_cases hl).2, ho⟩
    · have ⟨ht, hl⟩ : other ≠ token ∧ s.loops.get? token = some ⟨a, .probing roots⟩ := by
        rcases hi with ⟨-, hi⟩ | ⟨-, delay, hi⟩
        · rw [hi] at hl
          exact Table.get?_erase_cases hl
        · rw [hi] at hl
          rcases Table.get?_insert_cases hl with ⟨-, hl⟩ | hl
          · cases hl
          · exact hl
      rw [hp] at ho
      exact .inl ⟨rfl, hl, Prober.isOwner_of_note he ho ht⟩
  | wake other =>
    rcases wake_cases hs with rfl | ⟨b, delay, -, hp, hi⟩
    · exact .inl ⟨rfl, hl, ho⟩
    · rw [hi] at hl
      rw [hp] at ho
      rcases Table.get?_insert_cases hl with ⟨-, hl⟩ | ⟨-, hl⟩
      · cases hl
      · exact .inl ⟨rfl, hl, ho⟩

/-- A TLS address that is ready was ready before, or a probe for it just succeeded. A rotation
leaves none. -/
theorem ready_step (hs : s.step now event = t) (ha : a.tls = true)
    (hr : t.prober.isReady a = true) :
    (event.isRotation = false ∧ s.prober.isReady a = true) ∨
      ∃ token roots, event = .answer token true ∧
        s.loops.get? token = some ⟨a, .probing roots⟩ ∧ s.prober.isOwner a token = true := by
  cases event with
  | ask b =>
    rcases ask_cases hs with rfl | ⟨hp, -⟩
    · exact .inl ⟨rfl, hr⟩
    · rw [hp] at hr
      exact .inl ⟨rfl, Prober.isReady_of_claim hr⟩
  | rotate renewed =>
    obtain ⟨started, hq, -⟩ := rotate_cases hs
    obtain ⟨e, he, hr⟩ := Prober.isReady_iff.mp hr
    obtain ⟨fresh, -, rfl⟩ := Prober.rotate_tls hq ha he
    cases hr
  | retain referenced =>
    cases hs
    obtain ⟨e, he, hr⟩ := Prober.isReady_iff.mp hr
    exact .inl ⟨rfl, Prober.isReady_iff.mpr ⟨e, Prober.entry?_of_retain he, hr⟩⟩
  | start other =>
    rcases start_cases hs with rfl | ⟨b, -, hp, -⟩
    · exact .inl ⟨rfl, hr⟩
    · rw [hp] at hr
      exact .inl ⟨rfl, hr⟩
  | answer other ready =>
    rcases answer_cases hs with ⟨rfl, -⟩ | ⟨b, taken, hb, ⟨-, hp, -⟩ | ⟨e, he, ho, hp, -⟩⟩
    · exact .inl ⟨rfl, hr⟩
    · rw [hp] at hr
      exact .inl ⟨rfl, hr⟩
    · rw [hp] at hr
      rcases Prober.isReady_of_note hr with ⟨rfl, rfl⟩ | hr
      · exact .inr ⟨other, taken, rfl, hb, Prober.isOwner_iff.mpr ⟨e, he, ho⟩⟩
      · exact .inl ⟨rfl, hr⟩
  | wake other =>
    rcases wake_cases hs with rfl | ⟨b, delay, -, hp, -⟩
    · exact .inl ⟨rfl, hr⟩
    · rw [hp] at hr
      exact .inl ⟨rfl, hr⟩

/-- A loop took the trust roots for an address, and there was no rotation since. -/
structure Begun (s : Probing) (a : Address) (token : Token) (before during : History) : Prop where
  starting : (s.run before).loops.get? token = some ⟨a, .starting⟩
  unrotated : ∀ e ∈ during, e.2.isRotation = false

/-- A probe that succeeded, and what happened around it. -/
structure Success where
  before : History
  begun : Span
  token : Token
  during : History
  ended : Span
  after : History

namespace Success

def waiting (p : Success) : History := p.before ++ (p.begun, .start p.token) :: p.during

def answered (p : Success) : History := p.waiting ++ [(p.ended, .answer p.token true)]

def history (p : Success) : History := p.answered ++ p.after

def goOn (p : Success) (now : Span) (event : ProbeEvent) : Success :=
  { p with after := p.after ++ [(now, event)] }

theorem history_goOn (p : Success) (now : Span) (event : ProbeEvent) :
    (p.goOn now event).history = p.history ++ [(now, event)] :=
  (List.append_assoc ..).symm

end Success

/-- An address is ready ever since a probe with the trust roots that are in force. -/
structure ReadySince (s : Probing) (a : Address) (p : Success) : Prop where
  begun : s.Begun a p.token p.before (p.during ++ p.after)
  probing : (s.run p.waiting).loops.get? p.token =
    some ⟨a, .probing (s.run p.history).prober.roots⟩
  owner : (s.run p.waiting).prober.isOwner a p.token = true
  ready : ∀ later, later <+: p.after → (s.run (p.answered ++ later)).prober.isReady a = true

theorem Begun.concat {before during : History} (h : s.Begun a token before during)
    (he : event.isRotation = false) : s.Begun a token before (during ++ [(now, event)]) := by
  refine ⟨h.starting, ?_⟩
  intro e hm
  rcases List.mem_append.mp hm with hm | hm
  · exact h.unrotated e hm
  · obtain rfl := List.mem_singleton.mp hm
    exact he

theorem ReadySince.concat {p : Success} (h : s.ReadySince a p) (he : event.isRotation = false)
    (hr : (s.run (p.history ++ [(now, event)])).prober.isReady a = true) :
    s.ReadySince a (p.goOn now event) := by
  constructor
  · have hb : s.Begun a p.token p.before (p.during ++ p.after ++ [(now, event)]) :=
      h.begun.concat he
    rw [List.append_assoc] at hb
    exact hb
  · have hroots : (s.run (p.goOn now event).history).prober.roots =
        (s.run p.history).prober.roots := by
      rw [Success.history_goOn, run_concat]
      exact roots_step rfl he
    rw [hroots]
    exact h.probing
  · exact h.owner
  · intro later hl
    rcases List.prefix_concat_iff.mp hl with rfl | hl
    · rw [← List.append_assoc]
      exact hr
    · exact h.ready later hl

/-- What holds after any history of a prober that started out empty. -/
structure Traced (s : Probing) (events : History) : Prop where
  numbered : (s.run events).Numbered
  begun : ∀ a token roots, a.tls = true →
    (s.run events).loops.get? token = some ⟨a, .probing roots⟩ →
    (s.run events).prober.isOwner a token = true → roots = (s.run events).prober.roots ∧
      ∃ before now during, events = before ++ (now, .start token) :: during ∧
        s.Begun a token before during
  ready : ∀ a, a.tls = true → (s.run events).prober.isReady a = true →
    ∃ p : Success, p.history = events ∧ s.ReadySince a p

theorem traced_nil (settings : ProbeSettings) (roots : TrustRoots) :
    Traced { prober := { settings, roots } } [] := by
  constructor
  · intro token l h
    cases h
  · intro a token roots _ h
    cases h
  · intro a _ h
    cases h

theorem Traced.concat {events : History} (h : s.Traced events) (now : Span) (event : ProbeEvent) :
    s.Traced (events ++ [(now, event)]) := by
  have hs := (run_concat s events now event).symm
  constructor
  · exact h.numbered.step hs
  · intro a token roots ha hl ho
    rcases probing_step hs h.numbered ha hl ho with ⟨he, hw, ho⟩ | ⟨rfl, hw, -, rfl⟩
    · obtain ⟨rfl, before, begun, during, rfl, hb⟩ := h.begun a token roots ha hw ho
      refine ⟨(roots_step hs he).symm, before, begun, during ++ [(now, event)], ?_, hb.concat he⟩
      rw [List.append_assoc, List.cons_append]
    · refine ⟨(roots_step hs rfl).symm, events, now, [], rfl, hw, ?_⟩
      intro e hm
      cases hm
  · intro a ha hr
    rcases ready_step hs ha hr with ⟨he, hr'⟩ | ⟨token, roots, rfl, hl, ho⟩
    · obtain ⟨p, rfl, hp⟩ := h.ready a ha hr'
      exact ⟨p.goOn now event, p.history_goOn now event, hp.concat he hr⟩
    · obtain ⟨rfl, before, begun, during, rfl, hb⟩ := h.begun a token roots ha hl ho
      let p : Success := ⟨before, begun, token, during, now, []⟩
      have hp : p.history = before ++ (begun, .start token) :: during ++
          [(now, .answer token true)] := List.append_nil _
      refine ⟨p, hp, ?_⟩
      constructor
      · rw [List.append_nil]
        exact hb
      · rw [hp, roots_step hs rfl]
        exact hl
      · exact ho
      · intro later hp
        obtain rfl := List.prefix_nil.mp hp
        rw [List.append_nil]
        exact hr

theorem Traced.append {events : History} (h : s.Traced events) (later : History) :
    s.Traced (events ++ later) := by
  induction later generalizing events with
  | nil =>
    rw [List.append_nil]
    exact h
  | cons e later ih =>
    rw [List.append_cons]
    exact ih (h.concat e.1 e.2)

theorem Begun.before_of_rotation {p : Success} {events later : History} {renewed : TrustRoots}
    (h : s.Begun a p.token p.before (p.during ++ p.after))
    (hp : p.history = events ++ (now, .rotate renewed) :: later) :
    events ++ [(now, .rotate renewed)] <+: p.before := by
  have hs : p.before ++ ((p.begun, .start p.token) :: (p.during ++
      (p.ended, .answer p.token true) :: p.after)) = events ++ (now, .rotate renewed) :: later := by
    rw [← hp]
    simp only [Success.history, Success.answered, Success.waiting, List.append_assoc,
      List.cons_append, List.nil_append]
  rcases List.append_eq_append_iff.mp hs with ⟨between, -, hl⟩ | ⟨between, he, hl⟩
  · have hm : (now, ProbeEvent.rotate renewed) ∈ (p.begun, .start p.token) :: (p.during ++
        (p.ended, .answer p.token true) :: p.after) := by
      rw [hl]
      exact List.mem_append_right _ List.mem_cons_self
    rcases List.mem_cons.mp hm with hm | hm
    · cases hm
    · rcases List.mem_append.mp hm with hm | hm
      · cases h.unrotated _ (List.mem_append_left _ hm)
      · rcases List.mem_cons.mp hm with hm | hm
        · cases hm
        · cases h.unrotated _ (List.mem_append_right _ hm)
  · cases between with
    | nil => cases hl
    | cons e between =>
      cases hl
      exact ⟨between, by rw [he, List.append_assoc, List.singleton_append]⟩

/-- An address with TLS is ready only by a probe that took the trust roots after their last change,
and has been ready ever since. -/
theorem ready_since_rotation (settings : ProbeSettings) (roots : TrustRoots) (events : History) :
    let s : Probing := { prober := { settings, roots } }
    (∀ a, a.tls = true → (s.run events).prober.isReady a = true →
      ∃ p : Success, p.history = events ∧ s.ReadySince a p) ∧
    ∀ now renewed, let t := s.run (events ++ [(now, .rotate renewed)])
      (∀ a, a.tls = true → t.prober.isReady a = false) ∧
      (∀ a, a.tls = false → t.prober.entry? a = Prober.entry? (s.run events).prober a) ∧
      ∀ later a, a.tls = true → (t.run later).prober.isReady a = true →
        ∃ p : Success, p.history = events ++ (now, .rotate renewed) :: later ∧
          s.ReadySince a p ∧ events ++ [(now, .rotate renewed)] <+: p.before := by
  intro s
  have ht (events : History) : s.Traced events := (traced_nil settings roots).append events
  refine ⟨(ht events).ready, ?_⟩
  intro now renewed t
  have hs : (s.run events).step now (.rotate renewed) = t := (run_concat s events _ _).symm
  refine ⟨?_, ?_, ?_⟩
  · intro a ha
    rw [Bool.eq_false_iff]
    intro hr
    rcases ready_step hs ha hr with ⟨he, -⟩ | ⟨token, taken, he, -⟩
    · cases he
    · cases he
  · intro a ha
    obtain ⟨started, hq, -⟩ := rotate_cases hs
    exact Prober.rotate_entry? hq ha
  · intro later a ha hr
    have hl : t.run later = s.run (events ++ (now, .rotate renewed) :: later) := by
      rw [List.append_cons, run_append]
    rw [hl] at hr
    obtain ⟨p, hp, hready⟩ := (ht _).ready a ha hr
    exact ⟨p, hp, hready, hready.begun.before_of_rotation hp⟩

theorem ready_since_rotation_of_second_probe :
    let a : Address := ⟨"h", 443, "/a", true⟩
    let s : Probing := { prober := { settings := {}, roots := ⟨[[1]]⟩ } }
    let events : History := [(0, .ask a), (0, .start 1)]
    let later : History := [(2, .answer 1 true), (3, .start 2), (4, .answer 2 true)]
    let t := s.run (events ++ [(1, .rotate ⟨[[2]]⟩)])
    t.prober.isReady a = false ∧ (t.run (later.take 1)).prober.isReady a = false ∧
      (t.run later).prober.isReady a = true ∧
      ∃ p : Success, p.history = events ++ (1, .rotate ⟨[[2]]⟩) :: later ∧ s.ReadySince a p ∧
        events ++ [(1, .rotate ⟨[[2]]⟩)] <+: p.before := by
  intro a s events later t
  have ⟨hd, hr⟩ : (t.run (later.take 1)).prober.isReady a = false ∧
      (t.run later).prober.isReady a = true := by decide +kernel
  obtain ⟨-, rotated⟩ := ready_since_rotation {} ⟨[[1]]⟩ events
  obtain ⟨invalid, -, since⟩ := rotated 1 ⟨[[2]]⟩
  exact ⟨invalid a rfl, hd, hr, since later a rfl hr⟩

end Probing

end EventRouting
