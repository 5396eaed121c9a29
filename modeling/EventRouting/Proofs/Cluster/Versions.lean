import EventRouting.Proofs.Cluster.Server
import EventRouting.Proofs.Manifest.Metadata

namespace EventRouting

open Json

/-- The version that an object bears, or that a patch is for. -/
def versionOf? (v : Value) : Option String :=
  (v.at? ["metadata", "resourceVersion"]).bind Value.string?

/-- The finalizers of an object. -/
def finalizersOf (v : Value) : Except DecodeError (List String) :=
  Metadata.readFinalizers ((v.at? ["metadata", "finalizers"]).getD .null)

/-- The patch that gives an object another version. -/
def versionPatch (version : String) : Value :=
  .object [("metadata", .object [("resourceVersion", .string version)])]

namespace ApiServer

/-- The request is for another version of its object than the current one. -/
def isStale (s : ApiServer) (r : ApiRequest) : Bool :=
  match r.body?.bind versionOf?, s.objects.get? r.target with
  | some version, some v => versionOf? v ≠ some version
  | _, _ => false

/-- Gives an object another version if it is not as it was before. -/
def renew (s before : ApiServer) (o : ObjectRef) (version : String) : ApiServer :=
  match s.objects.get? o with
  | none => s
  | some v =>
    if before.objects.get? o = some v then s else s.put o (v.merge (versionPatch version))

/-- Handles a request where the next version is given. -/
def handleAt (s : ApiServer) (version : String) (r : ApiRequest) : Reply × ApiServer :=
  if s.isStale r then (⟨409, .error "Conflict"⟩, s)
  else ((s.handle r).1, (s.handle r).2.renew s r.target version)

end ApiServer

theorem readFinalizers_sorted (v : Value) :
    Metadata.readFinalizers v.sorted = Metadata.readFinalizers v := by
  have hr (w : Value) : w.sorted.readString = w.readString := by cases w <;> rfl
  cases v with
  | array items =>
    have hm : (Value.sortedItems items).mapM Value.readString = items.mapM Value.readString := by
      induction items with
      | nil => rfl
      | cons w items ih => rw [Value.sortedItems, List.mapM_cons, List.mapM_cons, hr, ih]
    exact congrArg (fun l => (some <$> l) >>= _) hm
  | _ => rfl

theorem finalizersOf_sorted (v : Value) : finalizersOf v.sorted = finalizersOf v := by
  rw [finalizersOf, Value.at?_sorted, finalizersOf]
  cases v.at? ["metadata", "finalizers"] with
  | none => rfl
  | some w => exact readFinalizers_sorted w

theorem finalizersOf_released {v : Value} (h : isReleased v = true) : finalizersOf v = .ok [] := by
  have hf := (Bool.and_eq_true_iff.mp h).2
  rw [finalizersOf]
  dsimp only at hf
  split at hf
  next he => rw [he]; rfl
  next he => rw [he]; rfl
  next he => rw [he]; rfl
  next => cases hf

theorem get?_versionPatch (v : Value) (version : String) :
    (v.merge (versionPatch version)).get? "metadata" = some (((v.get? "metadata").getD .null).merge
      (.object [("resourceVersion", .string version)])) :=
  Value.get?_merge_of_mem [] [] (by decide) (by decide) Value.noConfusion v

theorem finalizersOf_versionPatch (v : Value) (version : String) :
    finalizersOf (v.merge (versionPatch version)) = finalizersOf v := by
  have hn : "finalizers" ∉ ["resourceVersion"] := by decide
  rw [finalizersOf, Value.at?_merge (get?_versionPatch v version) hn, finalizersOf]

theorem versionOf?_versionPatch (v : Value) (version : String) :
    versionOf? (v.merge (versionPatch version)) = some version := by
  rw [versionOf?, Value.at?_merge_of_mem [] [] (get?_versionPatch v version)
    List.not_mem_nil List.not_mem_nil Value.noConfusion]
  rfl

theorem versionOf?_sorted (v : Value) : versionOf? v.sorted = versionOf? v := by
  rw [versionOf?, Value.at?_sorted, versionOf?]
  cases v.at? ["metadata", "resourceVersion"] with
  | none => rfl
  | some w => cases w <;> rfl

theorem manifest_metadata {σ : Type} {kind : String} {spec : Reader Value σ} {m : Manifest σ}
    {v : Value} {version : String} (hs : v.sorted = v) (hv : versionOf? v = some version)
    (h : (Manifest.record kind spec).ofValue v = .ok m) :
    finalizersOf v = .ok m.metadata.finalizers ∧ m.metadata.resourceVersion? = some version := by
  cases v with
  | object members =>
    obtain ⟨⟨w, hw, hm⟩, -⟩ :=
      (Manifest.ofValue_object (Value.nodup_of_sorted hs) kind spec m).mp h
    obtain ⟨inner, rfl, -⟩ := Metadata.admits_of_ofValue hm
    have hw : (Value.object members).get? "metadata" = some (.object inner) := hw
    have hn := Value.nodup_of_sorted (Value.sorted_of_get? hs hw)
    have hf := Metadata.readMember_finalizers hn hm
    have hr := Metadata.readMember_resourceVersion hn hm
    have ha (name : String) :
        (Value.object members).at? ["metadata", name] = inner.lookup name := by
      rw [Value.at?, hw]
      change (inner.lookup name).bind _ = _
      cases inner.lookup name <;> rfl
    rw [readMember] at hf hr
    rw [versionOf?, ha] at hv
    constructor
    · rw [finalizersOf, ha]
      cases hl : inner.lookup "finalizers" <;> rw [hl] at hf <;> exact hf
    · cases hl : inner.lookup "resourceVersion" with
      | none =>
        rw [hl] at hv
        cases hv
      | some x =>
        rw [hl] at hr hv
        cases x with
        | string s =>
          cases hv
          exact (Except.ok.inj hr).symm
        | _ => cases hv
  | _ => cases hv

/-- Versions of an object: each is told from the others by the version that it bears. -/
structure DistinctVersions (versions : List Value) : Prop where
  sorted : ∀ v ∈ versions, v.sorted = v
  bear : ∀ v ∈ versions, ∃ version, versionOf? v = some version
  unique : ∀ v ∈ versions, ∀ u ∈ versions, versionOf? v = versionOf? u → v = u

theorem DistinctVersions.cons {versions : List Value} {v : Value} {version : String}
    (h : DistinctVersions versions) (hv : versionOf? v = some version)
    (hf : ∀ u ∈ versions, versionOf? u ≠ some version) :
    DistinctVersions (v.sorted :: versions) := by
  have hs : versionOf? v.sorted = some version := (versionOf?_sorted v).trans hv
  refine ⟨List.forall_mem_cons.mpr ⟨Value.sorted_sorted v, h.sorted⟩,
    List.forall_mem_cons.mpr ⟨⟨version, hs⟩, h.bear⟩, ?_⟩
  intro u hu u' hu' he
  rcases List.mem_cons.mp hu with rfl | hu <;> rcases List.mem_cons.mp hu' with rfl | hu'
  · rfl
  · exact absurd (he.symm.trans hs) (hf u' hu')
  · exact absurd (he.trans hs) (hf u hu)
  · exact h.unique u hu u' hu' he

theorem DistinctVersions.cons_of_mem {versions : List Value} {v : Value}
    (h : DistinctVersions versions) (hv : v ∈ versions) : DistinctVersions (v :: versions) := by
  have hm : ∀ u ∈ v :: versions, u ∈ versions := List.forall_mem_cons.mpr ⟨hv, fun _ hu => hu⟩
  exact ⟨fun u hu => h.sorted u (hm u hu), fun u hu => h.bear u (hm u hu),
    fun u hu u' hu' => h.unique u (hm u hu) u' (hm u' hu')⟩

/-- What is left of an object `v` that a patch turns into `w`: nothing, if nothing keeps it, the
same object, if the patch changes nothing, or one of another version. -/
inductive Becomes (v w : Value) (version : String) : Option Value → Prop where
  | gone (h : isReleased w = true) : Becomes v w version none
  | same (h : w.sorted = v) : Becomes v w version (some v)
  | renewed : Becomes v w version (some (w.sorted.merge (versionPatch version)).sorted)

theorem Becomes.finalizers {v w u : Value} {version : String} (h : Becomes v w version (some u)) :
    finalizersOf u = finalizersOf w := by
  cases h with
  | same h => exact h ▸ finalizersOf_sorted w
  | renewed =>
    exact (finalizersOf_sorted _).trans
      ((finalizersOf_versionPatch _ version).trans (finalizersOf_sorted w))

theorem Becomes.released {v w : Value} {version : String} (h : Becomes v w version none) :
    finalizersOf w = .ok [] := by
  cases h with
  | gone h => exact finalizersOf_released h

namespace ApiServer

variable {s : ApiServer} {o : ObjectRef}

theorem renew_get? (s before : ApiServer) (o : ObjectRef) (version : String) :
    (s.renew before o version).objects.get? o = (s.objects.get? o).map fun v =>
      if before.objects.get? o = some v then v else (v.merge (versionPatch version)).sorted := by
  rw [renew]
  cases hv : s.objects.get? o with
  | none => exact hv
  | some v =>
    dsimp only
    rw [Option.map_some]
    split
    next => exact hv
    next => exact (Table.get?_insert _ _ _ _).trans (if_pos rfl)

/-- Where nothing has changed, no object gets another version. -/
theorem renew_of_eq {before : ApiServer} (h : s.objects = before.objects) (version : String) :
    (s.renew before o version).objects = before.objects := by
  rw [renew]
  cases hv : s.objects.get? o with
  | none => exact h
  | some v =>
    dsimp only
    rw [← h, hv, if_pos rfl]

theorem patched_becomes {v w : Value} (hv : s.objects.get? o = some v) (version : String)
    {t : ApiServer} (ht : t.objects = (s.patched o w).2.objects) :
    Becomes v w version ((t.renew s o version).objects.get? o) := by
  rw [renew_get?, ht, patched]
  split
  next h =>
    have hg : (s.delete o).objects.get? o = none := (Table.get?_erase _ _ _).trans (if_pos rfl)
    rw [hg]
    exact .gone h
  next =>
    have hg : (s.put o w).objects.get? o = some w.sorted :=
      (Table.get?_insert _ _ _ _).trans (if_pos rfl)
    rw [hg, hv, Option.map_some]
    split
    next h => exact Option.some.inj h ▸ .same (Option.some.inj h).symm
    next => exact .renewed

/-- A patch is rejected and changes no object, or it is for the current version if it is for any. -/
theorem handleAt_cases {r : ApiRequest} {body : Value}
    (hr : r = .merge o body ∨ r = .mergeStatus o body) (version : String) :
    ((∃ e, (s.handleAt version r).1.content = .error e) ∧
        (s.handleAt version r).2.objects = s.objects) ∨
      ∃ v, s.objects.get? o = some v ∧
        (∀ wanted, versionOf? body = some wanted → versionOf? v = some wanted) ∧
        (s.handleAt version r).1.content = .ok (v.merge body) ∧
        Becomes v (v.merge body) version ((s.handleAt version r).2.objects.get? o) := by
  have ht : r.target = o := by rcases hr with rfl | rfl <;> rfl
  have hb : r.body? = some body := by rcases hr with rfl | rfl <;> rfl
  have hp : s.reply r = s.patch o fun v => some (v.merge body) := by
    rcases hr with rfl | rfl <;> rfl
  rw [handleAt]
  by_cases hs : s.isStale r = true
  · rw [if_pos hs]
    exact .inl ⟨⟨_, rfl⟩, rfl⟩
  · rw [if_neg hs, ht]
    rcases s.handle_cases r with ⟨⟨code, hc⟩, ho⟩ | ⟨hc, ho⟩
    · exact .inl ⟨⟨_, congrArg Reply.content hc⟩, renew_of_eq ho version⟩
    · rw [hp, patch] at hc ho
      cases hv : s.objects.get? o with
      | none =>
        rw [hv] at hc ho
        exact .inl ⟨⟨_, congrArg Reply.content hc⟩, renew_of_eq ho version⟩
      | some v =>
        rw [hv] at hc ho
        refine .inr ⟨v, rfl, fun wanted hw => ?_, congrArg Reply.content hc,
          patched_becomes hv version ho⟩
        by_contra hn
        apply hs
        rw [isStale, hb, ht, hv, Option.bind_some, hw]
        exact decide_eq_true hn

end ApiServer

end EventRouting
