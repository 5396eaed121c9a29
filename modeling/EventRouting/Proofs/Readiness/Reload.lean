import EventRouting.Proofs.Readiness.Rotation
import EventRouting.Readiness.Reload

namespace EventRouting

namespace Prober

theorem epoch_rotate (p : Prober) (roots : TrustRoots) :
    (p.rotate roots).2.epoch = p.epoch + 1 := by
  apply rotate_induction (motive := fun q => q.epoch = p.epoch + 1) rfl
  intro q a hq
  exact hq

end Prober

namespace Probing

theorem step_rotate (s : Probing) (now : Span) (roots : TrustRoots) :
    (s.step now (.rotate roots)).prober.roots = roots ∧
      (s.step now (.rotate roots)).prober.epoch = s.prober.epoch + 1 := by
  obtain ⟨started, hr, -⟩ := rotate_cases (rfl : s.step now (.rotate roots) = _)
  constructor
  · exact (Prober.renewed_rotate hr).roots
  · have he := s.prober.epoch_rotate roots
    rw [hr] at he
    exact he

end Probing

/-- What happens around the bundle. Nothing but its file changes the trust roots. -/
inductive KeeperEvent where
  /-- The file is looked at. -/
  | reload (content? : Option Payload)
  | probing (now : Span) (event : ProbeEvent) (unrotated : event.isRotation = false)
  /-- Something else makes every controller look again. -/
  | resync

def KeeperEvent.isResync : KeeperEvent → Bool
  | .resync => true
  | .reload _ | .probing _ _ _ => false

def KeeperEvent.content? : KeeperEvent → Option Payload
  | .reload content? => content?
  | .probing _ _ _ | .resync => none

namespace TrustKeeper

variable {parse : Payload → Except BundleError TrustRoots} {start k : TrustKeeper}
  {initial content last : Payload} {content? : Option Payload} {roots : TrustRoots}
  {happened : List KeeperEvent}

def take (parse : Payload → Except BundleError TrustRoots) (k : TrustKeeper) :
    KeeperEvent → TrustKeeper
  | .reload content? => k.reloadWith parse content?
  | .probing now event _ => { k with probing := k.probing.step now event }
  | .resync => { k with resync := k.resync.trigger }

def after (parse : Payload → Except BundleError TrustRoots) (k : TrustKeeper)
    (happened : List KeeperEvent) : TrustKeeper :=
  happened.foldl (take parse) k

def isValid (parse : Payload → Except BundleError TrustRoots) (content : Payload) : Bool :=
  (parse content).toOption.isSome

/-- The valid contents that were read, in order. -/
def validReads (parse : Payload → Except BundleError TrustRoots) (happened : List KeeperEvent) :
    List Payload :=
  (happened.filterMap KeeperEvent.content?).filter (isValid parse)

/-- The content in force: the last valid one that was read, or the initial one. -/
def inForce (parse : Payload → Except BundleError TrustRoots) (initial : Payload)
    (happened : List KeeperEvent) : Payload :=
  (validReads parse happened).getLastD initial

/-- How often one content is followed by a different one. -/
def changes (initial : Payload) : List Payload → Nat
  | [] => 0
  | content :: contents => (if content = initial then 0 else 1) + changes content contents

theorem isValid_iff : isValid parse content = true ↔ ∃ roots, parse content = .ok roots := by
  cases hp : parse content with
  | ok roots => exact ⟨fun _ => ⟨roots, rfl⟩, fun _ => by rw [isValid, hp]; rfl⟩
  | error e =>
    constructor
    · intro h
      rw [isValid, hp] at h
      cases h
    · intro ⟨_, h⟩
      cases h

theorem changes_concat (initial : Payload) (contents : List Payload) (content : Payload) :
    changes initial (contents ++ [content]) = changes initial contents +
      if content = contents.getLastD initial then 0 else 1 := by
  induction contents generalizing initial with
  | nil => exact Nat.add_comm _ 0
  | cons first contents ih =>
    rw [List.cons_append, changes, ih, changes, Nat.add_assoc, List.getLastD_cons]

theorem validReads_concat (happened : List KeeperEvent) (event : KeeperEvent) :
    validReads parse (happened ++ [event]) =
      validReads parse happened ++ event.content?.toList.filter (isValid parse) := by
  rw [validReads, List.filterMap_append, List.filter_append, ← validReads]
  cases h : event.content? with
  | none => rw [List.filterMap_cons_none h]; rfl
  | some content => rw [List.filterMap_cons_some h]; rfl

theorem validReads_of_valid (hv : isValid parse content = true) :
    validReads parse (happened ++ [.reload (some content)]) =
      validReads parse happened ++ [content] :=
  (validReads_concat ..).trans (congrArg _ (List.filter_cons_of_pos hv))

theorem validReads_of_invalid {event : KeeperEvent}
    (h : ∀ content, event.content? = some content → isValid parse content = false) :
    validReads parse (happened ++ [event]) = validReads parse happened := by
  rw [validReads_concat]
  refine (congrArg _ (List.filter_eq_nil_iff.mpr ?_)).trans (List.append_nil _)
  intro content hm
  rw [h content (Option.mem_toList.mp hm)]
  exact Bool.false_ne_true

/-- Looking at the file changes everything together, or nothing. -/
theorem reloadWith_cases (hk : k.bundle? = some last) (content? : Option Payload) :
    (∃ content roots, content? = some content ∧ content ≠ last ∧ parse content = .ok roots ∧
      k.reloadWith parse content? =
        ⟨some content, k.probing.step 0 (.rotate roots), k.resync.trigger⟩) ∨
    ((∀ content roots, content? = some content → parse content = .ok roots → content = last) ∧
      k.reloadWith parse content? = k) := by
  cases content? with
  | none => exact .inr ⟨nofun, rfl⟩
  | some content =>
    rw [reloadWith, TrustRoots.replacing?, hk]
    by_cases hc : last = content
    · rw [if_pos (congrArg some hc)]
      refine .inr ⟨?_, rfl⟩
      rintro _ _ ⟨⟩ -
      exact hc.symm
    · rw [if_neg fun h => hc (Option.some.inj h)]
      cases hp : parse content with
      | ok roots => exact .inl ⟨content, roots, rfl, Ne.symm hc, hp, rfl⟩
      | error e =>
        refine .inr ⟨?_, rfl⟩
        rintro _ _ ⟨⟩ ho
        cases hp.symm.trans ho

theorem inForce_of_same (h : ∀ content roots, content? = some content →
      parse content = .ok roots → content = inForce parse initial happened) :
    inForce parse initial (happened ++ [.reload content?]) = inForce parse initial happened ∧
      changes initial (validReads parse (happened ++ [.reload content?])) =
        changes initial (validReads parse happened) := by
  by_cases hv : ∃ content, content? = some content ∧ isValid parse content = true
  · obtain ⟨content, rfl, hv⟩ := hv
    obtain ⟨roots, hp⟩ := isValid_iff.mp hv
    have hc : content = inForce parse initial happened := h content roots rfl hp
    rw [inForce, validReads_of_valid hv, List.getLastD_concat, changes_concat]
    exact ⟨hc, congrArg _ (if_pos hc)⟩
  · have hr : validReads parse (happened ++ [.reload content?]) = validReads parse happened :=
      validReads_of_invalid fun content hc => Bool.eq_false_iff.mpr fun hi => hv ⟨content, hc, hi⟩
    rw [inForce, hr]
    exact ⟨rfl, rfl⟩

/-- A keeper stands as its file was last found valid. -/
structure Follows (parse : Payload → Except BundleError TrustRoots) (initial : Payload)
    (start : TrustKeeper) (happened : List KeeperEvent) (k : TrustKeeper) : Prop where
  bundle : k.bundle? = some (inForce parse initial happened)
  roots : parse (inForce parse initial happened) = .ok k.probing.prober.roots
  epoch : k.probing.prober.epoch =
    start.probing.prober.epoch + changes initial (validReads parse happened)
  sent : k.resync.sent = start.resync.sent + changes initial (validReads parse happened) +
    happened.countP KeeperEvent.isResync

theorem Follows.concat (h : Follows parse initial start happened k) (event : KeeperEvent) :
    Follows parse initial start (happened ++ [event]) (take parse k event) := by
  cases event with
  | reload content? =>
    rcases reloadWith_cases h.bundle content? with ⟨content, roots, rfl, hne, hp, ht⟩ | ⟨hs, ht⟩
    · have hr : validReads parse (happened ++ [.reload (some content)]) =
          validReads parse happened ++ [content] := validReads_of_valid (isValid_iff.mpr ⟨_, hp⟩)
      have hf : inForce parse initial (happened ++ [.reload (some content)]) = content := by
        rw [inForce, hr, List.getLastD_concat]
      have hc : changes initial (validReads parse (happened ++ [.reload (some content)])) =
          changes initial (validReads parse happened) + 1 := by
        rw [hr, changes_concat]
        exact congrArg _ (if_neg hne)
      obtain ⟨hroots, hepoch⟩ := k.probing.step_rotate 0 roots
      rw [take, ht]
      refine ⟨congrArg some hf.symm, ?_, ?_, ?_⟩
      · rw [hf, hp, hroots]
      · rw [hepoch, h.epoch, hc, Nat.add_assoc]
      · have hn := h.sent
        rw [hc, List.countP_append]
        change k.resync.sent + 1 = _ + (_ + 0)
        omega
    · obtain ⟨hf, hc⟩ := inForce_of_same hs
      rw [take, ht]
      refine ⟨?_, ?_, ?_, ?_⟩
      · rw [hf, h.bundle]
      · rw [hf, h.roots]
      · rw [hc, h.epoch]
      · rw [hc, List.countP_append]
        exact h.sent
  | probing now event unrotated =>
    obtain ⟨hroots, hepoch⟩ := Probing.trust_step (rfl : k.probing.step now event = _) unrotated
    have hr : validReads parse (happened ++ [.probing now event unrotated]) =
        validReads parse happened := validReads_of_invalid nofun
    refine ⟨?_, ?_, ?_, ?_⟩
    · rw [inForce, hr]
      exact h.bundle
    · rw [inForce, hr]
      exact h.roots.trans (congrArg _ hroots.symm)
    · rw [hr]
      exact hepoch.trans h.epoch
    · rw [hr, List.countP_append]
      exact h.sent
  | resync =>
    have hr : validReads parse (happened ++ [.resync]) = validReads parse happened :=
      validReads_of_invalid nofun
    refine ⟨?_, ?_, ?_, ?_⟩
    · rw [inForce, hr]
      exact h.bundle
    · rw [inForce, hr]
      exact h.roots
    · rw [hr]
      exact h.epoch
    · rw [hr, List.countP_append]
      exact congrArg (· + 1) h.sent

theorem Follows.after (hb : start.bundle? = some initial)
    (hr : parse initial = .ok start.probing.prober.roots) (happened : List KeeperEvent) :
    Follows parse initial start happened (start.after parse happened) := by
  induction happened using List.reverseRecOn with
  | nil => exact ⟨hb, hr, rfl, rfl⟩
  | append_singleton happened event ih =>
    rw [TrustKeeper.after, List.foldl_concat]
    exact ih.concat event

/-- After whatever happened, everything follows the last valid content that was read. -/
theorem follows_file (parse : Payload → Except BundleError TrustRoots) (initial : Payload)
    (start : TrustKeeper) (hb : start.bundle? = some initial)
    (hr : parse initial = .ok start.probing.prober.roots) (happened : List KeeperEvent) :
    let k := start.after parse happened
    Follows parse initial start happened k ∧
      ∀ content?, let l := k.reloadWith parse content?
        (∃ content roots, content? = some content ∧ content ≠ inForce parse initial happened ∧
          parse content = .ok roots ∧ l.bundle? = some content ∧
          l.probing = k.probing.step 0 (.rotate roots) ∧ l.probing.prober.roots = roots ∧
          l.probing.prober.epoch = k.probing.prober.epoch + 1 ∧ l.resync = k.resync.trigger) ∨
        ((∀ content roots, content? = some content → parse content = .ok roots →
          content = inForce parse initial happened) ∧ l = k) := by
  have h := Follows.after hb hr happened
  refine ⟨h, ?_⟩
  intro content?
  rcases reloadWith_cases h.bundle content? with ⟨content, roots, hc, hne, hp, hl⟩ | hsame
  · obtain ⟨hroots, hepoch⟩ := Probing.step_rotate (start.after parse happened).probing 0 roots
    rw [hl]
    exact .inl ⟨content, roots, hc, hne, hp, rfl, rfl, hroots, hepoch, rfl⟩
  · exact .inr hsame

/-- A bundle of one authority. -/
def authority : Payload :=
  ["-----BEGIN CERTIFICATE-----",
    "MIHWMIGJoAMCAQICAQEwBQYDK2VwMAwxCjAIBgNVBAMMAWEwHhcNMjYxMTIwMTA1",
    "MzA0WhcNMzYxMTE3MTA1MzA0WjAMMQowCAYDVQQDDAFhMCowBQYDK2VwAyEAV+ez",
    "Ty+tPDaKVcJybHjLz2IxahSVWbFMtg1ERTXtEU+jEDAOMAwGA1UdEwQFMAMBAf8w",
    "BQYDK2VwA0EATuePNYOFPWGQhKi0aR0uYjbGl4Mc1FUr5Eg4yj6OtJ46dujFHyih",
    "BzIoTnnIOzUpGOhtxYY/6MlKNRqH1kS3Bw==",
    "-----END CERTIFICATE-----"].flatMap fun line => Utf8.bytes line ++ [0x0A]

theorem follows_file_of_authority :
    ∃ roots, TrustRoots.ofPem authority = .ok roots ∧
      let start : TrustKeeper :=
        { bundle? := some authority, probing := { prober := { settings := {}, roots } } }
      let happened := [.reload none, .reload (some (authority.drop 1)), .reload (some authority),
        .resync, .reload (some (authority ++ authority))]
      let k := start.after TrustRoots.ofPem happened
      k.bundle? = some (authority ++ authority) ∧ k.probing.prober.epoch = 1 ∧
        k.resync.sent = 2 := by
  obtain ⟨roots, hp⟩ :=
    isValid_iff.mp (by decide +kernel : isValid TrustRoots.ofPem authority = true)
  refine ⟨roots, hp, ?_⟩
  intro start happened k
  have h : Follows TrustRoots.ofPem authority start happened k :=
    (follows_file TrustRoots.ofPem authority start rfl hp happened).1
  have hr : validReads TrustRoots.ofPem happened = [authority, authority ++ authority] := by
    decide +kernel
  have hne : authority ++ authority ≠ authority := by
    rw [ne_eq, List.append_right_eq_self]
    decide +kernel
  -- all of the state follows from the contents, so that it need not be computed
  clear_value k
  have hc : changes authority (validReads TrustRoots.ofPem happened) = 1 := by
    rw [hr, changes, changes, changes, if_pos rfl, if_neg hne]
  refine ⟨h.bundle.trans ?_, ?_, ?_⟩
  · rw [inForce, hr]
    rfl
  · rw [h.epoch, hc]
  · rw [h.sent, hc]
    rfl

end TrustKeeper

end EventRouting
