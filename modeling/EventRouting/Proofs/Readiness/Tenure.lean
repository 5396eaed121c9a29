import EventRouting.Proofs.Readiness.Rotation

namespace EventRouting

/-- The loop whose step the event is. -/
def ProbeEvent.token? : ProbeEvent → Option Token
  | .start token | .answer token _ | .wake token => some token
  | .ask _ | .rotate _ | .retain _ => none

namespace Probing

/-- The tokens that an event hands out, in order. -/
def handed (s : Probing) (now : Span) : ProbeEvent → List Token
  | .ask a => (s.prober.request now a).1.toList
  | .rotate roots => (s.prober.rotate roots).1.map Prod.snd
  | .retain _ | .start _ | .answer _ _ | .wake _ => []

/-- The tokens that are handed out in the course of a history. -/
def tokens (s : Probing) : History → List Token
  | [] => []
  | (now, event) :: events => s.handed now event ++ tokens (s.step now event) events

variable {s t : Probing} {a : Address} {token : Token} {now : Span} {event : ProbeEvent}

/-- What a loop makes of a turn. -/
inductive Turn (s : Probing) (now : Span) (token : Token) (a : Address) (t : Probing) : Prop where
  | goesOn (point : LoopPoint) (prober : t.prober = s.prober)
      (loops : t.loops = s.loops.insert token ⟨a, point⟩)
  /-- The entry belongs to another loop, or it is gone. -/
  | givesUp (lost : s.prober.isOwner a token = false) (prober : t.prober = s.prober)
      (loops : t.loops = s.loops.erase token)
  | succeeds (e : ProbeEntry) (entry : s.prober.entry? a = some e) (owner : e.owner? = some token)
      (prober : t.prober = { s.prober with
        entries := s.prober.entries.insert a (s.prober.note now e true).2 })
      (loops : t.loops = s.loops.erase token)
  | fails (e : ProbeEntry) (delay : Span) (entry : s.prober.entry? a = some e)
      (owner : e.owner? = some token)
      (prober : t.prober = { s.prober with
        entries := s.prober.entries.insert a (s.prober.note now e false).2 })
      (loops : t.loops = s.loops.insert token ⟨a, .sleeping delay⟩)

theorem turn_of_step (hs : s.step now event = t) (he : event.token? = some token) :
    t = s ∨ ∃ a point, s.loops.get? token = some ⟨a, point⟩ ∧ s.Turn now token a t := by
  cases event with
  | ask b => cases he
  | rotate roots => cases he
  | retain referenced => cases he
  | start other =>
    cases he
    rcases start_cases hs with rfl | ⟨a, ha, hp, ⟨-, hl⟩ | ⟨ho, hl⟩⟩
    · exact .inl rfl
    · exact .inr ⟨a, _, ha, .goesOn _ hp hl⟩
    · exact .inr ⟨a, _, ha, .givesUp ho hp hl⟩
  | answer other ready =>
    cases he
    rcases answer_cases hs with ⟨rfl, -⟩ | ⟨a, roots, ha, ⟨ho, hp, hl⟩ | ⟨e, he, ho, hp, hl⟩⟩
    · exact .inl rfl
    · exact .inr ⟨a, _, ha, .givesUp ho hp hl⟩
    · rcases hl with ⟨rfl, hl⟩ | ⟨rfl, delay, hl⟩
      · exact .inr ⟨a, _, ha, .succeeds e he ho hp hl⟩
      · exact .inr ⟨a, _, ha, .fails e delay he ho hp hl⟩
  | wake other =>
    cases he
    rcases wake_cases hs with rfl | ⟨a, delay, ha, hp, hl⟩
    · exact .inl rfl
    · exact .inr ⟨a, _, ha, .goesOn _ hp hl⟩

theorem Turn.keys_eq (h : s.Turn now token a t) :
    t.prober.entries.keys = s.prober.entries.keys := by
  cases h with
  | goesOn point hp hl => rw [hp]
  | givesUp ho hp hl => rw [hp]
  | succeeds e he ho hp hl =>
    rw [hp]
    exact Table.keys_insert_of_get? he _
  | fails e delay he ho hp hl =>
    rw [hp]
    exact Table.keys_insert_of_get? he _

/-- The only entry that the turn of a loop changes is one that the loop owns. -/
theorem Turn.owner_of_ne (h : s.Turn now token a t) {b : Address}
    (hb : t.prober.entry? b ≠ s.prober.entry? b) : a = b ∧ s.prober.isOwner b token = true := by
  have of_insert {e f : ProbeEntry} (he : s.prober.entry? a = some e)
      (ho : e.owner? = some token)
      (hp : t.prober = { s.prober with entries := s.prober.entries.insert a f }) :
      a = b ∧ s.prober.isOwner b token = true := by
    rw [hp, Prober.entry?_insert] at hb
    by_cases hab : a = b
    · exact ⟨hab, Prober.isOwner_iff.mpr ⟨e, hab ▸ he, ho⟩⟩
    · rw [if_neg hab] at hb
      exact absurd rfl hb
  cases h with
  | goesOn point hp hl => exact absurd (by rw [hp]) hb
  | givesUp ho hp hl => exact absurd (by rw [hp]) hb
  | succeeds e he ho hp hl => exact of_insert he ho hp
  | fails e delay he ho hp hl => exact of_insert he ho hp

theorem Turn.lastToken_eq (h : s.Turn now token a t) :
    t.prober.lastToken = s.prober.lastToken := by
  cases h with
  | goesOn point hp hl => rw [hp]
  | givesUp ho hp hl => rw [hp]
  | succeeds e he ho hp hl => rw [hp]
  | fails e delay he ho hp hl => rw [hp]

theorem lastToken_step (hs : s.step now event = t) :
    s.prober.lastToken ≤ t.prober.lastToken := by
  cases hk : event.token? with
  | some token =>
    rcases turn_of_step hs hk with rfl | ⟨a, point, -, h⟩
    · exact Nat.le_refl _
    · exact Nat.le_of_eq h.lastToken_eq.symm
  | none =>
    cases event with
    | ask a =>
      rcases ask_cases hs with rfl | ⟨hp, -⟩
      · exact Nat.le_refl _
      · rw [hp]
        exact Nat.le_succ _
    | rotate roots =>
      obtain ⟨started, hr, -⟩ := rotate_cases hs
      exact (Prober.renewed_rotate hr).lastToken_le
    | retain referenced =>
      cases hs
      exact Nat.le_refl _
    | start other | answer other ready | wake other => cases hk

/-- The tokens of an event ascend from the last one before it to the last one after it. -/
theorem handed_step (hs : s.step now event = t) :
    (s.handed now event).Pairwise (· < ·) ∧
      ∀ token ∈ s.handed now event, s.prober.lastToken < token ∧ token ≤ t.prober.lastToken := by
  cases event with
  | ask a =>
    rcases hq : s.prober.request now a with ⟨started?, q⟩
    simp only [step, hq] at hs
    rw [handed, hq]
    rcases Prober.request_cases hq with ⟨rfl, -⟩ | ⟨rfl, rfl⟩
    · exact ⟨.nil, List.forall_mem_nil _⟩
    · cases hs
      refine ⟨List.pairwise_singleton _ _, ?_⟩
      intro token ht
      obtain rfl := List.mem_singleton.mp ht
      exact ⟨Nat.lt_succ_self _, Nat.le_refl _⟩
  | rotate roots =>
    obtain ⟨started, hr, -⟩ := rotate_cases hs
    have hn := Prober.renewed_rotate hr
    rw [handed, hr]
    refine ⟨hn.ascending, ?_⟩
    intro token ht
    obtain ⟨loop, hl, rfl⟩ := List.mem_map.mp ht
    exact hn.bounds loop hl
  | retain referenced => exact ⟨.nil, List.forall_mem_nil _⟩
  | start other => exact ⟨.nil, List.forall_mem_nil _⟩
  | answer other ready => exact ⟨.nil, List.forall_mem_nil _⟩
  | wake other => exact ⟨.nil, List.forall_mem_nil _⟩

theorem tokens_ascending (s : Probing) (events : History) :
    (s.tokens events).Pairwise (· < ·) ∧ ∀ token ∈ s.tokens events, s.prober.lastToken < token := by
  induction events generalizing s with
  | nil => exact ⟨.nil, List.forall_mem_nil _⟩
  | cons e events ih =>
    obtain ⟨now, event⟩ := e
    obtain ⟨hp, hb⟩ := handed_step (rfl : s.step now event = _)
    obtain ⟨hi, hl⟩ := ih (s.step now event)
    rw [tokens]
    constructor
    · apply List.pairwise_append.mpr
      refine ⟨hp, hi, ?_⟩
      intro first hf later ht
      exact Nat.lt_of_le_of_lt (hb first hf).2 (hl later ht)
    · intro token ht
      rcases List.mem_append.mp ht with ht | ht
      · exact (hb token ht).1
      · exact Nat.lt_of_le_of_lt (lastToken_step rfl) (hl token ht)

/-- Every entry that is not ready is owned, and every owner runs, for the address of its entry. -/
structure Tended (s : Probing) : Prop where
  numbered : s.Numbered
  distinct : s.loops.keys.Nodup
  running : ∀ a e token, s.prober.entry? a = some e → e.owner? = some token →
    ∃ point, s.loops.get? token = some ⟨a, point⟩
  owned : ∀ a e, s.prober.entry? a = some e → e.status ≠ .ready → ∃ token, e.owner? = some token

theorem Tended.address_eq (h : s.Tended) {point : LoopPoint} {b : Address} {e : ProbeEntry}
    (hl : s.loops.get? token = some ⟨a, point⟩) (he : s.prober.entry? b = some e)
    (ho : e.owner? = some token) : b = a := by
  obtain ⟨q, hq⟩ := h.running b e token he ho
  cases hl.symm.trans hq
  rfl

/-- What stays as it was in a turn, given what becomes of the loops. -/
structure Kept (s : Probing) (token : Token) (t : Probing) : Prop where
  distinct : t.loops.keys.Nodup
  others : ∀ other, token ≠ other → t.loops.get? other = s.loops.get? other

theorem Kept.of_insert (hs : s.loops.keys.Nodup) {l : ProbeLoop}
    (hl : t.loops = s.loops.insert token l) : s.Kept token t := by
  constructor
  · rw [hl]
    exact Table.keys_insert_nodup hs token l
  · intro other ht
    rw [hl, Table.get?_insert, if_neg ht]

theorem Kept.of_erase (hs : s.loops.keys.Nodup) (hl : t.loops = s.loops.erase token) :
    s.Kept token t := by
  constructor
  · rw [hl]
    exact (List.filter_sublist.map Prod.fst).nodup hs
  · intro other ht
    rw [hl, Table.get?_erase, if_neg ht]

theorem Tended.running_of_ne (h : s.Tended) {point : LoopPoint} {b : Address} {e : ProbeEntry}
    {other : Token} (hl : s.loops.get? token = some ⟨a, point⟩) (hk : s.Kept token t)
    (he : s.prober.entry? b = some e) (ho : e.owner? = some other) (hb : a ≠ b) :
    ∃ point, t.loops.get? other = some ⟨b, point⟩ := by
  have ht : token ≠ other := by
    rintro rfl
    exact hb (h.address_eq hl he ho).symm
  rw [hk.others other ht]
  exact h.running b e other he ho

theorem Tended.turn (h : s.Tended) {point : LoopPoint}
    (hl : s.loops.get? token = some ⟨a, point⟩) (ht : s.Turn now token a t) (hn : t.Numbered) :
    t.Tended := by
  cases ht with
  | goesOn point hp hi =>
    have hk := Kept.of_insert h.distinct hi
    constructor
    · exact hn
    · exact hk.distinct
    · intro b e other he ho
      rw [hp] at he
      by_cases ht : token = other
      · subst ht
        obtain rfl := h.address_eq hl he ho
        exact ⟨point, by rw [hi, Table.get?_insert, if_pos rfl]⟩
      · rw [hk.others other ht]
        exact h.running b e other he ho
    · rw [hp]
      exact h.owned
  | givesUp hlost hp hi =>
    have hk := Kept.of_erase h.distinct hi
    constructor
    · exact hn
    · exact hk.distinct
    · intro b e other he ho
      rw [hp] at he
      have ht : token ≠ other := by
        rintro rfl
        obtain rfl := h.address_eq hl he ho
        rw [Prober.isOwner_iff.mpr ⟨e, he, ho⟩] at hlost
        cases hlost
      rw [hk.others other ht]
      exact h.running b e other he ho
    · rw [hp]
      exact h.owned
  | succeeds e he ho hp hi =>
    have hk := Kept.of_erase h.distinct hi
    constructor
    · exact hn
    · exact hk.distinct
    · intro b f other hf hother
      rw [hp, Prober.entry?_insert] at hf
      split at hf
      next =>
        cases hf
        cases hother
      next hb => exact h.running_of_ne hl hk hf hother hb
    · intro b f hf hr
      rw [hp, Prober.entry?_insert] at hf
      split at hf
      next =>
        cases hf
        exact absurd rfl hr
      next => exact h.owned b f hf hr
  | fails e delay he ho hp hi =>
    have hk := Kept.of_insert h.distinct hi
    constructor
    · exact hn
    · exact hk.distinct
    · intro b f other hf hother
      rw [hp, Prober.entry?_insert] at hf
      split at hf
      next hb =>
        cases hf
        cases ho.symm.trans hother
        exact ⟨.sleeping delay, by rw [hi, Table.get?_insert, if_pos rfl, hb]⟩
      next hb => exact h.running_of_ne hl hk hf hother hb
    · intro b f hf hr
      rw [hp, Prober.entry?_insert] at hf
      split at hf
      next =>
        cases hf
        exact ⟨token, ho⟩
      next => exact h.owned b f hf hr

theorem Tended.claim (h : s.Tended) (hp : t.prober = (s.prober.claim a).2)
    (hl : t.loops = s.loops.insert (s.prober.lastToken + 1) ⟨a, .starting⟩) (hn : t.Numbered) :
    t.Tended := by
  have hk := Kept.of_insert h.distinct hl
  constructor
  · exact hn
  · exact hk.distinct
  · intro b e token he ho
    rw [hp, Prober.entry?_claim] at he
    split at he
    next hb =>
      cases he
      cases ho
      exact ⟨.starting, by rw [hl, Table.get?_insert, if_pos rfl, hb]⟩
    next =>
      obtain ⟨point, hr⟩ := h.running b e token he ho
      have ht : s.prober.lastToken + 1 ≠ token := by
        rintro rfl
        exact Nat.not_succ_le_self _ (h.numbered _ _ hr)
      rw [hk.others token ht]
      exact ⟨point, hr⟩
  · intro b e he hr
    rw [hp, Prober.entry?_claim] at he
    split at he
    next =>
      cases he
      exact ⟨_, rfl⟩
    next => exact h.owned b e he hr

theorem spawn_distinct (started : List (Address × Token)) (h : s.loops.keys.Nodup) :
    (started.foldl (fun s (a, token) => s.spawn a token) s).loops.keys.Nodup := by
  induction started generalizing s with
  | nil => exact h
  | cons loop started ih =>
    apply ih
    exact Table.keys_insert_nodup h loop.2 _

theorem Tended.rotate (h : s.Tended) {roots : TrustRoots} (hs : s.step now (.rotate roots) = t)
    (hn : t.Numbered) : t.Tended := by
  obtain ⟨started, hr, hl, ho⟩ := rotate_cases hs
  have hnew := Prober.renewed_rotate hr
  have hother {a : Address} {e : ProbeEntry} (he : t.prober.entry? a = some e)
      (ha : a ∉ s.prober.entries.keys.filter (·.tls)) : s.prober.entry? a = some e := by
    rw [hnew.others a ha] at he
    exact he
  constructor
  · exact hn
  · rw [← hs, step, hr]
    exact spawn_distinct started h.distinct
  · intro a e token he hq
    by_cases ha : a ∈ s.prober.entries.keys.filter (·.tls)
    · obtain ⟨fresh, hm, hf⟩ := hnew.fresh a ha
      cases he.symm.trans hf
      cases hq
      exact ⟨.starting, hl a token hm⟩
    · obtain ⟨point, hp⟩ := h.running a e token (hother he ha) hq
      have ht : token ∉ started.map Prod.snd := by
        intro hm
        obtain ⟨loop, hloop, rfl⟩ := List.mem_map.mp hm
        exact Nat.not_le_of_lt (hnew.bounds loop hloop).1 (h.numbered _ _ hp)
      rw [ho token ht]
      exact ⟨point, hp⟩
  · intro a e he hq
    by_cases ha : a ∈ s.prober.entries.keys.filter (·.tls)
    · obtain ⟨fresh, hm, hf⟩ := hnew.fresh a ha
      cases he.symm.trans hf
      exact ⟨fresh, rfl⟩
    · exact h.owned a e (hother he ha) hq

theorem Tended.step (h : s.Tended) (hs : s.step now event = t) : t.Tended := by
  have hn := h.numbered.step hs
  cases hk : event.token? with
  | some token =>
    rcases turn_of_step hs hk with rfl | ⟨a, point, hl, ht⟩
    · exact h
    · exact h.turn hl ht hn
  | none =>
    cases event with
    | ask a =>
      rcases ask_cases hs with rfl | ⟨hp, hl⟩
      · exact h
      · exact h.claim hp hl hn
    | rotate roots => exact h.rotate hs hn
    | retain referenced =>
      cases hs
      constructor
      · exact hn
      · exact h.distinct
      · intro a e token he
        exact h.running a e token (Prober.entry?_of_retain he)
      · intro a e he
        exact h.owned a e (Prober.entry?_of_retain he)
    | start other | answer other ready | wake other => cases hk

theorem Tended.run (h : s.Tended) (events : History) : (s.run events).Tended := by
  induction events generalizing s with
  | nil => exact h
  | cons e events ih => exact ih (h.step rfl)

theorem tended_empty (settings : ProbeSettings) (roots : TrustRoots) :
    Tended { prober := { settings, roots } } := by
  constructor
  · intro token l h
    cases h
  · exact .nil
  · intro a e token h
    cases h
  · intro a e h
    cases h

theorem Tended.loops_eq (h : s.Tended) {e : ProbeEntry} (he : s.prober.entry? a = some e)
    (ho : e.owner? = some token) :
    ∃ point, s.loops.filter (·.1 = token) = [(token, ⟨a, point⟩)] := by
  obtain ⟨point, hl⟩ := h.running a e token he ho
  exact ⟨point, Table.filter_eq_of_get? h.distinct hl⟩

theorem keys_step (hs : s.step now event = t) (ha : a ∈ t.prober.entries.keys) :
    a ∈ s.prober.entries.keys ∨ event = .ask a := by
  cases hk : event.token? with
  | some token =>
    rcases turn_of_step hs hk with rfl | ⟨b, point, -, ht⟩
    · exact .inl ha
    · rw [ht.keys_eq] at ha
      exact .inl ha
  | none =>
    obtain ⟨e, he⟩ := Table.mem_keys.mp ha
    have tracked {f : ProbeEntry} (hf : s.prober.entry? a = some f) :
        a ∈ s.prober.entries.keys ∨ event = .ask a := .inl (Table.mem_keys.mpr ⟨f, hf⟩)
    cases event with
    | ask b =>
      rcases ask_cases hs with rfl | ⟨hp, -⟩
      · exact .inl ha
      · have he : t.prober.entry? a = some e := he
        rw [hp, Prober.entry?_claim] at he
        split at he
        next hb => exact .inr (congrArg ProbeEvent.ask hb)
        next => exact tracked he
    | rotate roots =>
      obtain ⟨started, hr, -⟩ := rotate_cases hs
      by_cases hm : a ∈ s.prober.entries.keys.filter (·.tls)
      · exact .inl (List.mem_filter.mp hm).1
      · exact tracked (((Prober.renewed_rotate hr).others a hm).symm.trans he)
    | retain referenced =>
      cases hs
      exact tracked (Prober.entry?_of_retain he)
    | start other | answer other ready | wake other => cases hk

theorem keys_run {events : History} {referenced : List Address}
    (hk : s.prober.entries.keys ⊆ referenced)
    (he : ∀ e ∈ events, ∀ a, e.2 = .ask a → a ∈ referenced) :
    (s.run events).prober.entries.keys ⊆ referenced := by
  induction events generalizing s with
  | nil => exact hk
  | cons e events ih =>
    obtain ⟨hfirst, he⟩ := List.forall_mem_cons.mp he
    apply ih _ he
    intro a ha
    rcases keys_step rfl ha with ha | ha
    · exact hk ha
    · exact hfirst a ha

/-- No token is handed out twice, and every entry that is not ready has an owner, which is the one
loop of its token. -/
theorem entries_tended (settings : ProbeSettings) (roots : TrustRoots) (events : History) :
    let s : Probing := { prober := { settings, roots } }
    let t := s.run events
    (s.tokens events).Nodup ∧
    (∀ a e, t.prober.entry? a = some e →
      (e.status ≠ .ready → ∃ token, e.owner? = some token) ∧
      ∀ token, e.owner? = some token →
        ∃ point, t.loops.filter (·.1 = token) = [(token, ⟨a, point⟩)]) ∧
    (∀ now event token, event.token? = some token →
      (t.step now event).prober.entries.keys = t.prober.entries.keys ∧
      ∀ a, (t.step now event).prober.entry? a ≠ t.prober.entry? a →
        t.prober.isOwner a token = true) ∧
    ∀ now referenced later, (∀ e ∈ later, ∀ a, e.2 = .ask a → a ∈ referenced) →
      (t.run ((now, .retain referenced) :: later)).prober.entries.keys ⊆ referenced := by
  intro s t
  have ht : t.Tended := (tended_empty settings roots).run events
  refine ⟨?_, ?_, ?_, ?_⟩
  · exact (s.tokens_ascending events).1.imp fun h => Nat.ne_of_lt h
  · intro a e he
    exact ⟨ht.owned a e he, fun token => ht.loops_eq he⟩
  · intro now event token hk
    rcases turn_of_step (rfl : t.step now event = _) hk with hs | ⟨b, point, -, hturn⟩
    · rw [hs]
      exact ⟨rfl, fun a ha => absurd rfl ha⟩
    · refine ⟨hturn.keys_eq, ?_⟩
      intro a ha
      exact (hturn.owner_of_ne ha).2
  · intro now referenced later hl
    apply keys_run _ hl
    intro a ha
    obtain ⟨entry, he, rfl⟩ := List.mem_map.mp ha
    exact List.contains_iff_mem.mp (List.mem_filter.mp he).2

theorem entries_tended_of_rotation :
    let a : Address := ⟨"h", 443, "/a", true⟩
    let b : Address := ⟨"h", 80, "/b", false⟩
    let s : Probing := { prober := { settings := {}, roots := ⟨[[1]]⟩ } }
    let events : History := [(0, .ask a), (0, .ask b), (1, .start 1), (2, .rotate ⟨[[2]]⟩)]
    let later : History := [(4, .start 2), (5, .start 3), (6, .answer 3 false), (7, .ask a)]
    let t := s.run events
    s.tokens events = [1, 2, 3] ∧ t.prober.entries.keys = [a, b] ∧
      (∃ point, t.loops.filter (·.1 = 3) = [(3, ⟨a, point⟩)]) ∧
      (t.step 3 (.answer 1 true)).prober.entry? a = t.prober.entry? a ∧
      (t.run ((3, .retain [a]) :: later)).prober.entries.keys ⊆ [a] := by
  intro a b s events later t
  obtain ⟨-, entries, turns, removals⟩ := entries_tended {} ⟨[[1]]⟩ events
  have he : t.prober.entry? a = some { owner? := some 3 } := by decide +kernel
  have hlost : t.prober.isOwner a 1 = false := by decide +kernel
  have hl : ∀ e ∈ later, ∀ c, e.2 = .ask c → c ∈ [a] := by
    intro e hm c hc
    have hask : ∀ e ∈ later, e.2 = .ask a ∨ e.2.token?.isSome = true := by decide +kernel
    rcases hask e hm with ha | ht
    · cases ha.symm.trans hc
      exact List.mem_singleton.mpr rfl
    · rw [hc] at ht
      cases ht
  refine ⟨by decide +kernel, by decide +kernel, ?_, ?_, ?_⟩
  · exact (entries a _ he).2 3 rfl
  · by_contra hn
    have ho := (turns 3 (.answer 1 true) 1 rfl).2 a hn
    exact Bool.false_ne_true (hlost.symm.trans ho)
  · apply removals
    exact hl

end Probing

end EventRouting
