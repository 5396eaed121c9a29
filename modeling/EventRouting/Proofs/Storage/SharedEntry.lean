import EventRouting.Proofs.Storage.ConfigMap
import Mathlib.Logic.Function.Basic

namespace EventRouting

open Json

/-- What becomes of a request. -/
inductive RequestFate where
  | served
  | refused (code : Nat) (reason : String)
  /-- It is carried out, though the reply is an error. -/
  | unacknowledged (code : Nat) (reason : String)
  deriving DecidableEq, Repr

namespace Dialogue

variable {Q : Type} {A : Q → Type} {α : Type}

/-- There is a question left to ask. -/
def IsUnderWay : Dialogue Q A α → Prop
  | .done _ => False
  | .ask _ _ => True

end Dialogue

namespace ApiServer

/-- The reply to a request of some fate, and what the server is like afterwards. -/
def meet (s : ApiServer) (r : ApiRequest) : RequestFate → Reply × ApiServer
  | .served => s.reply r
  | .refused code reason => (⟨code, .error reason⟩, s)
  | .unacknowledged code reason => (⟨code, .error reason⟩, (s.reply r).2)

/-- A program sends its next request, if it has any left. -/
def advance {α : Type} (s : ApiServer) (f : RequestFate) :
    ClusterProgram α → ClusterProgram α × ApiServer
  | .done a => (.done a, s)
  | .ask r next => (next (s.meet r f).1, (s.meet r f).2)

/-- The entry exists, with this payload or without one. -/
def Holds (s : ApiServer) (o : ObjectRef) (payload? : Option Payload) : Prop :=
  ∃ v, s.objects.get? o = some v ∧ payloadOf v = .ok payload?

variable {s t : ApiServer} {o : ObjectRef} {v : Value}

theorem meet_get (s : ApiServer) (o : ObjectRef) (f : RequestFate) :
    (s.meet (.get o) f).2 = s := by
  have h : (s.reply (.get o)).2 = s := by
    rw [reply]
    split <;> rfl
  cases f with
  | served => exact h
  | refused code reason => rfl
  | unacknowledged code reason => exact h

theorem reply_get (h : s.objects.get? o = some v) : s.reply (.get o) = (⟨200, .ok v⟩, s) := by
  rw [reply, h]

theorem reply_create_of_exists (h : s.objects.get? o = some v) (body : Value) :
    s.reply (.create o body) = (⟨409, .error "AlreadyExists"⟩, s) := by
  rw [reply, if_pos (Table.contains_iff.mpr ⟨v, h⟩)]

theorem reply_create_of_missing (h : s.objects.get? o = none) (body : Value) :
    s.reply (.create o body) = (⟨201, .ok body⟩, s.put o body) := by
  refine if_neg fun hc => ?_
  obtain ⟨v, hv⟩ := Table.contains_iff.mp hc
  cases h.symm.trans hv

end ApiServer

/-- The second part of obtaining the config map, where it was not there. -/
def makeConfigMap (o : ObjectRef) : ClusterProgram (Except ContractError (Option Payload)) := do
  let created ← (ApiRequest.create o (o.configMap none)).send
  match created.content with
  | .ok _ => return .ok none
  | .error _ =>
    if created.code = 409 then return (← (ApiRequest.get o).send).payload
    else return .error created.storageError

/-- The last part, where somebody else made it in the meantime. -/
def rereadConfigMap (o : ObjectRef) : ClusterProgram (Except ContractError (Option Payload)) := do
  return (← (ApiRequest.get o).send).payload

/-- How far a call that obtains the entry may have come. -/
inductive Obtaining (o : ObjectRef) :
    ClusterProgram (Except ContractError (Option Payload)) → Prop where
  | reading : Obtaining o (obtainConfigMap o)
  | making : Obtaining o (makeConfigMap o)
  | rereading : Obtaining o (rereadConfigMap o)
  | answered (a : Except ContractError (Option Payload)) : Obtaining o (.done a)

/-- The config map is as it was, or it was not there and is made without a payload. -/
def MadeIfMissing (o : ObjectRef) (s t : ApiServer) : Prop :=
  t.objects.get? o = s.objects.get? o ∨
    s.objects.get? o = none ∧ t.objects.get? o = some (o.configMap none).sorted

section

variable {o : ObjectRef} {s t : ApiServer} {v : Value}
  {d d' : ClusterProgram (Except ContractError (Option Payload))}

theorem MadeIfMissing.of_exists (h : MadeIfMissing o s t) (hv : s.objects.get? o = some v) :
    t.objects.get? o = some v := by
  rcases h with h | ⟨hn, -⟩
  · exact h.trans hv
  · cases hn.symm.trans hv

theorem isReleased_created (o : ObjectRef) : isReleased (o.configMap none).sorted = false :=
  isReleased_sorted _

theorem MadeIfMissing.keeps (h : MadeIfMissing o s t) (hk : s.Keeps o) : t.Keeps o := by
  rcases h with h | ⟨-, h⟩
  · exact hk.congr h
  · intro v hv
    obtain rfl := Option.some.inj (h.symm.trans hv)
    exact isReleased_created o

theorem holds_created (h : t.objects.get? o = some (o.configMap none).sorted) : t.Holds o none :=
  ⟨_, h, payloadOf_created o⟩

/-- What a call that obtains the entry makes of its next request. -/
inductive ObtainStep (o : ObjectRef) (s : ApiServer) :
    ClusterProgram (Except ContractError (Option Payload)) →
    ClusterProgram (Except ContractError (Option Payload)) → ApiServer → Prop where
  | finished {a : Except ContractError (Option Payload)} : ObtainStep o s (.done a) (.done a) s
  | found {d : ClusterProgram (Except ContractError (Option Payload))} {v : Value}
    {a : Except ContractError (Option Payload)} (h : s.objects.get? o = some v)
    (ha : payloadOf v = a) : ObtainStep o s d (.done a) s
  | notFound : ObtainStep o s (obtainConfigMap o) (makeConfigMap o) s
  | made {t : ApiServer} (h : s.objects.get? o = none)
    (ht : t.objects.get? o = some (o.configMap none).sorted) :
    ObtainStep o s (makeConfigMap o) (.done (.ok none)) t
  | overtaken {t : ApiServer} (h : MadeIfMissing o s t) :
    ObtainStep o s (makeConfigMap o) (rereadConfigMap o) t
  | failed {d : ClusterProgram (Except ContractError (Option Payload))} {e : ContractError}
    {t : ApiServer} (h : MadeIfMissing o s t) : ObtainStep o s d (.done (.error e)) t

theorem ApiServer.meet_get_cases (s : ApiServer) (o : ObjectRef) (f : RequestFate) :
    (∃ v, s.objects.get? o = some v ∧ s.meet (.get o) f = (⟨200, .ok v⟩, s)) ∨
      ∃ code reason, s.meet (.get o) f = (⟨code, .error reason⟩, s) := by
  have hs := s.meet_get o f
  cases f with
  | served =>
    cases hv : s.objects.get? o with
    | none =>
      refine .inr ⟨404, Reply.notFound, ?_⟩
      rw [ApiServer.meet, ApiServer.reply, hv]
      rfl
    | some v => exact .inl ⟨v, rfl, ApiServer.reply_get hv⟩
  | refused code reason => exact .inr ⟨code, reason, rfl⟩
  | unacknowledged code reason => exact .inr ⟨code, reason, Prod.ext rfl hs⟩

theorem ApiServer.meet_create_cases (s : ApiServer) (o : ObjectRef) (f : RequestFate) :
    let after := s.meet (.create o (o.configMap none)) f
    MadeIfMissing o s after.2 ∧
      ((∃ code reason, after.1 = ⟨code, .error reason⟩) ∨
        s.objects.get? o = none ∧ after.1.content = .ok (o.configMap none) ∧
          after.2.objects.get? o = some (o.configMap none).sorted) := by
  have hr : MadeIfMissing o s (s.reply (.create o (o.configMap none))).2 ∧
      ((∃ code reason, (s.reply (.create o (o.configMap none))).1 = ⟨code, .error reason⟩) ∨
        s.objects.get? o = none ∧
          (s.reply (.create o (o.configMap none))).1.content = .ok (o.configMap none) ∧
          (s.reply (.create o (o.configMap none))).2.objects.get? o =
            some (o.configMap none).sorted) := by
    cases hv : s.objects.get? o with
    | none =>
      rw [reply_create_of_missing hv]
      exact ⟨.inr ⟨hv, get?_put _ _ _⟩, .inr ⟨rfl, rfl, get?_put _ _ _⟩⟩
    | some v =>
      rw [reply_create_of_exists hv]
      exact ⟨.inl rfl, .inl ⟨409, _, rfl⟩⟩
  cases f with
  | served => exact hr
  | refused code reason => exact ⟨.inl rfl, .inl ⟨code, reason, rfl⟩⟩
  | unacknowledged code reason => exact ⟨hr.1, .inl ⟨code, reason, rfl⟩⟩

theorem ApiServer.advance_send_bind {α : Type} (s : ApiServer) (f : RequestFate) (r : ApiRequest)
    (k : Reply → ClusterProgram α) :
    s.advance f (r.send >>= k) = (k (s.meet r f).1, (s.meet r f).2) := rfl

theorem Obtaining.step (h : Obtaining o d) (s : ApiServer) (f : RequestFate) :
    ObtainStep o s d (s.advance f d).1 (s.advance f d).2 := by
  cases h with
  | reading =>
    rw [obtainConfigMap, ApiServer.advance_send_bind]
    rcases s.meet_get_cases o f with ⟨v, hv, hm⟩ | ⟨code, reason, hm⟩
    · rw [hm]
      exact .found hv rfl
    · rw [hm]
      dsimp only
      by_cases hr : reason = Reply.notFound
      · rw [if_neg (not_not.mpr hr)]
        exact .notFound
      · rw [if_pos hr]
        exact .failed (.inl rfl)
  | making =>
    obtain ⟨ht, hc⟩ := s.meet_create_cases o f
    rw [makeConfigMap, ApiServer.advance_send_bind]
    generalize s.meet (.create o (o.configMap none)) f = after at ht hc
    obtain ⟨reply, t⟩ := after
    rcases hc with ⟨code, reason, rfl⟩ | ⟨hn, hr, hv⟩
    · dsimp only
      split
      next => exact .overtaken ht
      next => exact .failed ht
    · dsimp only at hr ⊢
      rw [hr]
      exact .made hn hv
  | rereading =>
    rw [rereadConfigMap, ApiServer.advance_send_bind]
    rcases s.meet_get_cases o f with ⟨v, hv, hm⟩ | ⟨code, reason, hm⟩
    · rw [hm]
      exact .found hv rfl
    · rw [hm]
      exact .failed (.inl rfl)
  | answered a => exact .finished

/-- What the answer says is what the entry holds once the last request is carried out. -/
theorem ObtainStep.holds {payload? : Option Payload} (h : ObtainStep o s d d' t)
    (hd : d.IsUnderWay) (ha : d' = .done (.ok payload?)) : t.Holds o payload? := by
  cases h with
  | finished => exact hd.elim
  | found hv hp =>
    cases ha
    exact ⟨_, hv, hp⟩
  | notFound => cases ha
  | made _ hv =>
    cases ha
    exact holds_created hv
  | overtaken => cases ha
  | failed => cases ha

theorem ObtainStep.madeIfMissing (h : ObtainStep o s d d' t) : MadeIfMissing o s t := by
  cases h with
  | finished | found | notFound => exact .inl rfl
  | made hn hv => exact .inr ⟨hn, hv⟩
  | overtaken ht | failed ht => exact ht

theorem ObtainStep.obtaining (h : ObtainStep o s d d' t) : Obtaining o d' := by
  cases h with
  | finished | found | made | failed => exact .answered _
  | notFound => exact .making
  | overtaken => exact .rereading

/-- Where the entry exists, a request that is served brings the payload, or the news that the entry
exists. -/
theorem Obtaining.served (h : Obtaining o d) (hd : d.IsUnderWay) (hv : s.objects.get? o = some v) :
    s.advance .served d = (.done (payloadOf v), s) ∨
      d = makeConfigMap o ∧ s.advance .served d = (rereadConfigMap o, s) := by
  have hm : s.meet (.get o) .served = (⟨200, .ok v⟩, s) := ApiServer.reply_get hv
  cases h with
  | reading =>
    rw [obtainConfigMap, ApiServer.advance_send_bind, hm]
    exact .inl rfl
  | making =>
    refine .inr ⟨rfl, ?_⟩
    have hc : s.meet (.create o (o.configMap none)) .served = (⟨409, .error "AlreadyExists"⟩, s) :=
      ApiServer.reply_create_of_exists hv _
    rw [makeConfigMap, ApiServer.advance_send_bind, hc]
    rfl
  | rereading =>
    rw [rereadConfigMap, ApiServer.advance_send_bind, hm]
    exact .inl rfl
  | answered a => exact hd.elim

theorem advance_write (hk : s.Keeps o) (p : Payload) (f : RequestFate) :
    (s.advance f (writeConfigMap o p)).2.Keeps o ∧
      ∃ a, (s.advance f (writeConfigMap o p)).1 = .done a ∧
        (a = .ok () → (s.advance f (writeConfigMap o p)).2.Holds o (some p)) := by
  obtain ⟨hc, v, hv, hr, hp⟩ := ApiServer.reply_write hk p
  have hkeeps : (s.reply (.apply o (o.configMap (some p)))).2.Keeps o := by
    intro u hu
    obtain rfl := Option.some.inj (hv.symm.trans hu)
    exact hr
  rw [writeConfigMap, ApiServer.advance_send_bind]
  cases f with
  | served =>
    refine ⟨hkeeps, ?_⟩
    dsimp only [ApiServer.meet]
    cases hb : (s.reply (.apply o (o.configMap (some p)))).1.content with
    | ok _ => exact ⟨_, rfl, fun _ => ⟨v, hv, hp⟩⟩
    | error e =>
      rw [hb] at hc
      cases hc
  | refused code reason => exact ⟨hk, _, rfl, by rintro ⟨⟩⟩
  | unacknowledged code reason => exact ⟨hkeeps, _, rfl, by rintro ⟨⟩⟩

end

/-- A call with what is left of it. -/
structure OngoingCall where
  call : StorageCall
  rest : ClusterProgram call.Answer

/-- How far a call may have come. -/
def OngoingCall.Stands (o : ObjectRef) : OngoingCall → Prop
  | ⟨.obtain, d⟩ => Obtaining o d
  | ⟨.write p, d⟩ => d = writeConfigMap o p ∨ ∃ a, d = .done a

theorem OngoingCall.stands_begin (o : ObjectRef) (call : StorageCall) :
    OngoingCall.Stands o ⟨call, call.inCluster o⟩ := by
  cases call with
  | obtain => exact .reading
  | write p => exact .inl rfl

theorem OngoingCall.stands_advance {o : ObjectRef} {s : ApiServer} {c : OngoingCall}
    (h : c.Stands o) (hk : s.Keeps o) (f : RequestFate) :
    OngoingCall.Stands o ⟨c.call, (s.advance f c.rest).1⟩ ∧ (s.advance f c.rest).2.Keeps o := by
  obtain ⟨call, d⟩ := c
  cases call with
  | obtain =>
    have hs := Obtaining.step h s f
    exact ⟨hs.obtaining, hs.madeIfMissing.keeps hk⟩
  | write p =>
    rcases h with rfl | ⟨a, rfl⟩
    · obtain ⟨ht, a, ha, -⟩ := advance_write hk p f
      exact ⟨.inr ⟨a, ha⟩, ht⟩
    · exact ⟨.inr ⟨a, rfl⟩, hk⟩

/-- A server with a storage entry, and the calls of those who use the entry. -/
structure SharedEntry (ι : Type) where
  server : ApiServer
  calls : ι → Option OngoingCall := fun _ => none

namespace SharedEntry

inductive Event (ι : Type) where
  /-- Somebody begins a call. A call that he has under way is given up. -/
  | begin (i : ι) (call : StorageCall)
  /-- The next request of a call is sent. -/
  | request (i : ι) (f : RequestFate)
  /-- Somebody else changes the server. -/
  | foreign (s : ApiServer)

variable {ι : Type} [DecidableEq ι] {o : ObjectRef} {w : SharedEntry ι} {i : ι}

def step (o : ObjectRef) (w : SharedEntry ι) : Event ι → SharedEntry ι
  | .begin i call =>
    { w with calls := Function.update w.calls i (some ⟨call, call.inCluster o⟩) }
  | .request i f =>
    match w.calls i with
    | none => w
    | some c =>
      { server := (w.server.advance f c.rest).2
        calls := Function.update w.calls i (some ⟨c.call, (w.server.advance f c.rest).1⟩) }
  | .foreign s => { w with server := s }

def run (o : ObjectRef) (w : SharedEntry ι) (events : List (Event ι)) : SharedEntry ι :=
  events.foldl (step o) w

/-- What becomes of a server whose entry is obtained, written and changed by others, in any
order. -/
inductive Reachable (o : ObjectRef) : SharedEntry ι → Prop
  | start {s : ApiServer} (hk : s.Keeps o) : Reachable o { server := s }
  | begin {w : SharedEntry ι} (h : Reachable o w) (i : ι) (call : StorageCall) :
    Reachable o (w.step o (.begin i call))
  | request {w : SharedEntry ι} (h : Reachable o w) (i : ι) (f : RequestFate) :
    Reachable o (w.step o (.request i f))
  | foreign {w : SharedEntry ι} (h : Reachable o w) {s : ApiServer} (hk : s.Keeps o) :
    Reachable o (w.step o (.foreign s))

/-- Nobody else changes the server, and no call that writes the entry sends a request. -/
def Undisturbed (o : ObjectRef) (w : SharedEntry ι) : List (Event ι) → Prop
  | [] => True
  | e :: events =>
    (match e with
      | .begin _ _ => True
      | .request i _ => ∀ c, w.calls i = some c → c.call = .obtain
      | .foreign _ => False) ∧ Undisturbed o (w.step o e) events

/-- What holds at any time. -/
structure Sound (o : ObjectRef) (w : SharedEntry ι) : Prop where
  keeps : w.server.Keeps o
  stands : ∀ i c, w.calls i = some c → c.Stands o

theorem step_request {c : OngoingCall} (h : w.calls i = some c) (f : RequestFate) :
    w.step o (.request i f) =
      { server := (w.server.advance f c.rest).2
        calls := Function.update w.calls i (some ⟨c.call, (w.server.advance f c.rest).1⟩) } := by
  rw [step, h]

theorem Sound.update (h : w.Sound o) {s : ApiServer} (hk : s.Keeps o) {c : OngoingCall}
    (hc : c.Stands o) : Sound o ⟨s, Function.update w.calls i (some c)⟩ := by
  refine ⟨hk, fun j k hj => ?_⟩
  by_cases he : j = i
  · subst he
    dsimp only at hj
    rw [Function.update_self] at hj
    cases hj
    exact hc
  · dsimp only at hj
    rw [Function.update_of_ne he] at hj
    exact h.stands j k hj

theorem Sound.step (h : w.Sound o) {e : Event ι} (he : ∀ s, e = .foreign s → s.Keeps o) :
    (w.step o e).Sound o := by
  cases e with
  | begin i call => exact h.update h.keeps (OngoingCall.stands_begin o call)
  | request i f =>
    cases hc : w.calls i with
    | none =>
      rw [SharedEntry.step, hc]
      exact h
    | some c =>
      rw [step_request hc]
      obtain ⟨hs, hk⟩ := OngoingCall.stands_advance (h.stands i c hc) h.keeps f
      exact h.update hk hs
  | foreign s => exact ⟨he s rfl, h.stands⟩

theorem Reachable.sound (h : w.Reachable o) : w.Sound o := by
  induction h with
  | start hk => exact ⟨hk, nofun⟩
  | begin _ i call ih => exact ih.step nofun
  | request _ i f ih => exact ih.step nofun
  | foreign _ hk ih =>
    refine ih.step ?_
    rintro _ ⟨⟩
    exact hk

theorem Sound.request_obtain (h : w.Sound o)
    {d : ClusterProgram (Except ContractError (Option Payload))}
    (hc : w.calls i = some ⟨.obtain, d⟩) (f : RequestFate) :
    MadeIfMissing o w.server (w.step o (.request i f)).server ∧
      (d.IsUnderWay → ∀ payload?,
        (w.step o (.request i f)).calls i = some ⟨.obtain, .done (.ok payload?)⟩ →
        (w.step o (.request i f)).server.Holds o payload?) := by
  have hs := Obtaining.step (h.stands i _ hc) w.server f
  rw [step_request hc]
  refine ⟨hs.madeIfMissing, fun hd payload? ha => hs.holds hd ?_⟩
  dsimp only at ha
  rw [Function.update_self] at ha
  exact eq_of_heq (OngoingCall.mk.inj (Option.some.inj ha)).2

theorem Sound.request_write (h : w.Sound o) {p : Payload}
    {d : ClusterProgram (Except ContractError Unit)} (hc : w.calls i = some ⟨.write p, d⟩)
    (hd : d.IsUnderWay) (f : RequestFate)
    (ha : (w.step o (.request i f)).calls i = some ⟨.write p, .done (.ok ())⟩) :
    (w.step o (.request i f)).server.Holds o (some p) := by
  rcases h.stands i _ hc with rfl | ⟨a, rfl⟩
  · obtain ⟨-, a, he, hw⟩ := advance_write h.keeps p f
    rw [step_request hc] at ha ⊢
    dsimp only at ha
    rw [Function.update_self] at ha
    have hd := eq_of_heq (OngoingCall.mk.inj (Option.some.inj ha)).2
    exact hw (Dialogue.done.inj (he.symm.trans hd))
  · exact hd.elim

/-- While nobody else changes or writes the entry, the config map stays as it is. -/
theorem Sound.undisturbed {events : List (Event ι)} (h : w.Sound o) {v : Value}
    (hv : w.server.objects.get? o = some v) (hu : w.Undisturbed o events) :
    (w.run o events).Sound o ∧ (w.run o events).server.objects.get? o = some v := by
  induction events generalizing w with
  | nil => exact ⟨h, hv⟩
  | cons e events ih =>
    obtain ⟨he, hu⟩ := hu
    cases e with
    | begin i call => exact ih (h.step nofun) hv hu
    | request i f =>
      refine ih (h.step nofun) ?_ hu
      cases hc : w.calls i with
      | none =>
        rw [SharedEntry.step, hc]
        exact hv
      | some c =>
        obtain ⟨call, d⟩ := c
        obtain rfl := he _ hc
        rw [step_request hc]
        exact (Obtaining.step (h.stands i _ hc) w.server f).madeIfMissing.of_exists hv
    | foreign s => exact he.elim

/-- Where its requests are served, a call that obtains a payload needs no more than two of them. -/
theorem Sound.obtains (h : w.Sound o) {v : Value} {p : Payload}
    (hv : w.server.objects.get? o = some v) (hp : payloadOf v = .ok (some p))
    {d : ClusterProgram (Except ContractError (Option Payload))}
    (hc : w.calls i = some ⟨.obtain, d⟩) (hd : d.IsUnderWay) :
    ∃ n ≤ 2, (w.run o (List.replicate n (.request i .served))).calls i =
      some ⟨.obtain, .done (.ok (some p))⟩ := by
  have hone {w : SharedEntry ι} {d d' : ClusterProgram (Except ContractError (Option Payload))}
      (hc : w.calls i = some ⟨.obtain, d⟩) (hd : w.server.advance .served d = (d', w.server)) :
      (w.step o (.request i .served)).calls i = some ⟨.obtain, d'⟩ ∧
        (w.step o (.request i .served)).server = w.server := by
    rw [step_request hc]
    dsimp only
    rw [hd, Function.update_self]
    exact ⟨rfl, rfl⟩
  have ho : Obtaining o d := h.stands i _ hc
  rcases ho.served hd hv with hs | ⟨rfl, hs⟩
  · rw [hp] at hs
    exact ⟨1, by decide, (hone hc hs).1⟩
  · obtain ⟨hc', hw⟩ := hone hc hs
    have hv' : (w.step o (.request i .served)).server.objects.get? o = some v := hw ▸ hv
    have hs' := Obtaining.rereading.served trivial hv'
    rcases hs' with hs' | ⟨hn, -⟩
    · rw [hp] at hs'
      exact ⟨2, Nat.le_refl 2, (hone hc' hs').1⟩
    · cases hn

/-- Storage is a single payload: to obtain the entry keeps what it holds and answers it, and a write
takes its place. -/
theorem single_payload (h : w.Reachable o) (i : ι) (f : RequestFate) :
    let v := w.step o (.request i f)
    (∀ d, w.calls i = some ⟨.obtain, d⟩ →
      (∀ object, w.server.objects.get? o = some object →
        v.server.objects.get? o = some object) ∧
      (d.IsUnderWay → ∀ payload?, v.calls i = some ⟨.obtain, .done (.ok payload?)⟩ →
        v.server.Holds o payload?)) ∧
    ∀ p d, w.calls i = some ⟨.write p, d⟩ → d.IsUnderWay →
      v.calls i = some ⟨.write p, .done (.ok ())⟩ →
      ∀ events, v.Undisturbed o events →
        let u := v.run o events
        u.server.Holds o (some p) ∧
          ∀ j d, u.calls j = some ⟨.obtain, d⟩ → d.IsUnderWay →
            (∀ g payload?, (u.step o (.request j g)).calls j =
              some ⟨.obtain, .done (.ok payload?)⟩ → payload? = some p) ∧
            ∃ n ≤ 2, (u.run o (List.replicate n (.request j .served))).calls j =
              some ⟨.obtain, .done (.ok (some p))⟩ := by
  have hs := h.sound
  refine ⟨fun d hc => ?_, fun p d hc hd ha events hu => ?_⟩
  · obtain ⟨hm, ha⟩ := hs.request_obtain hc f
    exact ⟨fun object hv => hm.of_exists hv, ha⟩
  · obtain ⟨object, hv, hp⟩ := hs.request_write hc hd f ha
    obtain ⟨hu, hv⟩ := (hs.step (e := .request i f) nofun).undisturbed hv hu
    refine ⟨⟨object, hv, hp⟩, fun j d hc hd => ⟨fun g payload? ha => ?_, hu.obtains hv hp hc hd⟩⟩
    obtain ⟨hm, ha'⟩ := hu.request_obtain hc g
    obtain ⟨object', hv', hp'⟩ := ha' hd payload? ha
    obtain rfl := Option.some.inj ((hm.of_exists hv).symm.trans hv')
    exact Except.ok.inj (hp'.symm.trans hp)

def sharedEntryRef : ObjectRef := contractEntry "ns" "contract"

/-- A call looked for the entry in vain, then somebody else made it, and the call was too late to
make it itself. -/
def lostRace : SharedEntry Bool :=
  let others := ({} : ApiServer).put sharedEntryRef (sharedEntryRef.configMap (some [1]))
  run sharedEntryRef { server := {} }
    [.begin false .obtain, .request false .served, .foreign others, .request false .served]

theorem lostRace_reachable : lostRace.Reachable sharedEntryRef := by
  have hs : SharedEntry.Reachable sharedEntryRef ({ server := {} } : SharedEntry Bool) :=
    .start fun v hv => by cases hv
  refine (((hs.begin false .obtain).request false .served).foreign ?_).request false .served
  intro v hv
  obtain rfl := Option.some.inj ((ApiServer.get?_put _ _ _).symm.trans hv)
  exact isReleased_sorted _

theorem single_payload_of_lost_race :
    let reread := lostRace.step sharedEntryRef (.request false .served)
    let rewritten := run sharedEntryRef reread [.begin true (.write [2]), .request true .served]
    reread.server.Holds sharedEntryRef (some [1]) ∧
      ∃ n ≤ 2, (run sharedEntryRef (rewritten.step sharedEntryRef (.begin false .obtain))
        (List.replicate n (.request false .served))).calls false =
          some ⟨.obtain, .done (.ok (some [2]))⟩ := by
  intro reread rewritten
  have hb := (lostRace_reachable.request false .served).begin true (.write [2])
  constructor
  · exact ((single_payload lostRace_reachable false .served).1 (rereadConfigMap sharedEntryRef)
      rfl).2 trivial (some [1]) rfl
  · have hu : rewritten.Undisturbed sharedEntryRef [.begin false .obtain] := ⟨trivial, trivial⟩
    have hw := (single_payload hb true .served).2 [2] (writeConfigMap sharedEntryRef [2]) rfl
      trivial rfl _ hu
    exact (hw.2 false (obtainConfigMap sharedEntryRef) rfl trivial).2

end SharedEntry

end EventRouting
