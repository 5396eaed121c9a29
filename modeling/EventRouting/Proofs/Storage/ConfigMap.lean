import EventRouting.Proofs.Cluster.Server
import EventRouting.Proofs.Text.Base64
import EventRouting.Storage.ConfigMap

namespace EventRouting

open Json

theorem bytes_ofList {l : List UInt8} (h : ∀ b ∈ l, b.toNat < 0x80) :
    Utf8.bytes (.ofList (l.map fun b => Char.ofNat b.toNat)) = l := by
  have hd : ∀ n < 0x80, Utf8.encodeChar (Char.ofNat n) = [UInt8.ofNat n] := by decide
  rw [Utf8.bytes, String.toList_ofList]
  induction l with
  | nil => rfl
  | cons b l ih =>
    rw [List.map_cons, Utf8.encode, List.flatMap_cons, hd _ (h b (.head l)), UInt8.ofNat_toNat]
    exact congrArg (b :: ·) (ih fun c hc => h c (.tail b hc))

theorem payloadOf_base64 {v : Value} {p : Payload}
    (h : v.at? ["binaryData", contractKey] = some (base64Text p)) :
    payloadOf v = .ok (some p) := by
  rw [payloadOf, h, base64Text]
  dsimp only
  rw [bytes_ofList (Base64.lt_of_mem_encode p), Base64.decode?_encode]

theorem payloadOf_none {v : Value} (h : v.at? ["binaryData", contractKey] = none) :
    payloadOf v = .ok none := by
  rw [payloadOf, h]

/-- The metadata of the config map. -/
def ObjectRef.configMetadata (o : ObjectRef) : List (String × Value) :=
  [("labels", .object [(managedByLabel, .string fieldManager)]), ("name", .string o.name),
    ("namespace", .string o.ns)]

theorem configMap_some (o : ObjectRef) (p : Payload) :
    o.configMap (some p) = .object [("apiVersion", .string o.kind.version),
      ("binaryData", .object [(contractKey, base64Text p)]), ("kind", .string o.kind.name),
      ("metadata", .object o.configMetadata)] := rfl

theorem payloadOf_written (o : ObjectRef) (p : Payload) :
    payloadOf (o.configMap (some p)).sorted = .ok (some p) := by
  refine payloadOf_base64 ?_
  rw [Value.at?_sorted]
  rfl

theorem payloadOf_created (o : ObjectRef) : payloadOf (o.configMap none).sorted = .ok none := by
  refine payloadOf_none ?_
  rw [Value.at?_sorted]
  rfl

theorem get?_merge_configMap (o : ObjectRef) (p : Payload) (v : Value) :
    (v.merge (o.configMap (some p))).get? "binaryData" =
        some (((v.get? "binaryData").getD .null).merge (.object [(contractKey, base64Text p)])) ∧
      (v.merge (o.configMap (some p))).get? "metadata" =
        some (((v.get? "metadata").getD .null).merge (.object o.configMetadata)) := by
  have h1 : "binaryData" ∉ ["apiVersion"] := by decide
  have h2 : "binaryData" ∉ ["kind", "metadata"] := by decide
  have h3 : "metadata" ∉ ["apiVersion", "binaryData", "kind"] := by decide
  rw [configMap_some]
  constructor
  · exact Value.get?_merge_of_mem [("apiVersion", .string o.kind.version)]
      [("kind", .string o.kind.name), ("metadata", .object o.configMetadata)] h1 h2
      Value.noConfusion v
  · exact Value.get?_merge_of_mem [("apiVersion", .string o.kind.version),
      ("binaryData", .object [(contractKey, base64Text p)]), ("kind", .string o.kind.name)] [] h3
      List.not_mem_nil Value.noConfusion v

theorem payloadOf_merged (o : ObjectRef) (p : Payload) (v : Value) :
    payloadOf (v.merge (o.configMap (some p))).sorted = .ok (some p) := by
  refine payloadOf_base64 ?_
  have hd : (((v.get? "binaryData").getD .null).merge
      (.object [(contractKey, base64Text p)])).get? contractKey = some (base64Text p) :=
    Value.get?_merge_of_mem [] [] List.not_mem_nil List.not_mem_nil Value.noConfusion _
  rw [Value.at?_sorted, Value.at?, (get?_merge_configMap o p v).1]
  exact congrArg (Option.map Value.sorted) (congrArg (· >>= fun w => w.at? []) hd)

theorem isReleased_merged (o : ObjectRef) (p : Payload) (v : Value) :
    isReleased (v.merge (o.configMap (some p))) = isReleased v := by
  have hd : "deletionTimestamp" ∉ ["labels", "name", "namespace"] := by decide
  have hf : "finalizers" ∉ ["labels", "name", "namespace"] := by decide
  exact isReleased_merge (get?_merge_configMap o p v).2 hd hf

namespace ApiServer

/-- The payload that the config map in a server holds. -/
def payload? (s : ApiServer) (o : ObjectRef) : Option Payload :=
  (s.objects.get? o).bind fun v =>
    match payloadOf v with
    | .ok payload? => payload?
    | .error _ => none

variable {s t : ApiServer} {o : ObjectRef}

theorem payload?_of_payloadOf {v : Value} {payload? : Option Payload}
    (h : s.objects.get? o = some v) (hv : payloadOf v = .ok payload?) :
    s.payload? o = payload? := by
  rw [ApiServer.payload?, h, Option.bind_some, hv]

theorem payload?_congr (h : t.objects.get? o = s.objects.get? o) :
    t.payload? o = s.payload? o := by
  rw [ApiServer.payload?, h, ApiServer.payload?]

theorem Keeps.congr (hk : s.Keeps o) (h : t.objects.get? o = s.objects.get? o) : t.Keeps o :=
  fun v hv => hk v (h ▸ hv)

theorem get?_put (s : ApiServer) (o : ObjectRef) (v : Value) :
    (s.put o v).objects.get? o = some v.sorted :=
  (Table.get?_insert _ _ _ _).trans (if_pos rfl)

theorem reply_write (hk : s.Keeps o) (p : Payload) :
    ((s.reply (.apply o (o.configMap (some p)))).1.content.isOk = true) ∧
      ∃ v, (s.reply (.apply o (o.configMap (some p)))).2.objects.get? o = some v ∧
        isReleased v = false ∧ payloadOf v = .ok (some p) := by
  rw [reply]
  cases hv : s.objects.get? o with
  | none =>
    refine ⟨rfl, _, get?_put _ _ _, ?_, payloadOf_written o p⟩
    rw [isReleased_sorted]
    rfl
  | some v =>
    have hr : isReleased (v.merge (o.configMap (some p))) = false := by
      rw [isReleased_merged]
      exact hk v hv
    dsimp only
    rw [patched, hr]
    refine ⟨rfl, _, get?_put _ _ _, ?_, payloadOf_merged o p v⟩
    rw [isReleased_sorted]
    exact hr

theorem serve_write (hk : s.Keeps o) (p : Payload) :
    (serve (writeConfigMap o p) s).2.Keeps o ∧
      ((serve (writeConfigMap o p) s).1 = .ok () ∧
          (serve (writeConfigMap o p) s).2.payload? o = some p ∨
        (∃ e, (serve (writeConfigMap o p) s).1 = .error e) ∧
          (serve (writeConfigMap o p) s).2.payload? o = s.payload? o) := by
  rw [writeConfigMap, serve_bind, serve_send]
  rcases s.handle_cases (.apply o (o.configMap (some p))) with ⟨⟨code, hr⟩, ho⟩ | ⟨hr, ho⟩
  · have hg := congrArg (Table.get? · o) ho
    rw [hr]
    exact ⟨hk.congr hg, .inr ⟨⟨_, rfl⟩, payload?_congr hg⟩⟩
  · obtain ⟨hc, v, hv, hl, hp⟩ := reply_write hk p
    rw [← ho] at hv
    rw [← hr] at hc
    cases hw : (s.handle (.apply o (o.configMap (some p)))).1.content with
    | error e =>
      rw [hw] at hc
      cases hc
    | ok w =>
      refine ⟨fun u hu => ?_, .inl ⟨rfl, payload?_of_payloadOf hv hp⟩⟩
      obtain rfl := Option.some.inj (hv.symm.trans hu)
      exact hl

theorem handle_get (s : ApiServer) (o : ObjectRef) : (s.handle (.get o)).2.objects = s.objects ∧
    ((∃ code, (s.handle (.get o)).1 = ⟨code, .error "Refused"⟩) ∨
      (∃ v, s.objects.get? o = some v ∧ (s.handle (.get o)).1 = ⟨200, .ok v⟩) ∨
      (s.objects.get? o = none ∧ (s.handle (.get o)).1 = missing)) := by
  rcases s.handle_cases (.get o) with ⟨hr, ho⟩ | ⟨hr, ho⟩
  · exact ⟨ho, .inl hr⟩
  · rw [hr, ho, reply]
    cases hv : s.objects.get? o with
    | none => exact ⟨rfl, .inr (.inr ⟨rfl, rfl⟩)⟩
    | some v => exact ⟨rfl, .inr (.inl ⟨v, rfl, rfl⟩)⟩

theorem handle_create (h : s.objects.get? o = none) :
    ((∃ code, (s.handle (.create o (o.configMap none))).1 = ⟨code, .error "Refused"⟩) ∧
        (s.handle (.create o (o.configMap none))).2.objects = s.objects) ∨
      ((s.handle (.create o (o.configMap none))).1.content = .ok (o.configMap none) ∧
        (s.handle (.create o (o.configMap none))).2.objects.get? o =
          some (o.configMap none).sorted) := by
  rcases s.handle_cases (.create o (o.configMap none)) with hr | ⟨hr, ho⟩
  · exact .inl hr
  · have hc : s.objects.contains o = false := by
      rw [← Bool.not_eq_true, Table.contains_iff]
      rintro ⟨v, hv⟩
      cases h.symm.trans hv
    have hp : s.reply (.create o (o.configMap none)) =
        (⟨201, .ok (o.configMap none)⟩, s.put o (o.configMap none)) := by
      rw [reply, hc]
      rfl
    rw [hr, ho, hp]
    exact .inr ⟨rfl, get?_put _ _ _⟩

theorem payload?_of_missing (h : s.objects.get? o = none) : s.payload? o = none := by
  rw [payload?, h]
  rfl

theorem serve_obtain (hk : s.Keeps o) :
    (serve (obtainConfigMap o) s).2.Keeps o ∧
      (serve (obtainConfigMap o) s).2.payload? o = s.payload? o ∧
      ∀ payload?, (serve (obtainConfigMap o) s).1 = .ok payload? → payload? = s.payload? o := by
  obtain ⟨ho, hg⟩ := s.handle_get o
  have hq := congrArg (Table.get? · o) ho
  rw [obtainConfigMap, serve_bind, serve_send]
  rcases hg with ⟨code, hr⟩ | ⟨v, hv, hr⟩ | ⟨hv, hr⟩
  · rw [hr]
    exact ⟨hk.congr hq, payload?_congr hq, nofun⟩
  · rw [hr]
    exact ⟨hk.congr hq, payload?_congr hq, fun _ hp => (payload?_of_payloadOf hv hp).symm⟩
  · have hn : (s.handle (.get o)).2.objects.get? o = none := hq.trans hv
    have hz := payload?_of_missing hv
    rw [hr]
    simp only [missing, ne_eq, not_true_eq_false, if_false]
    rw [serve_bind, serve_send]
    rcases handle_create hn with ⟨⟨code, hc⟩, hob⟩ | ⟨hc, hob⟩
    · have hs := (congrArg (Table.get? · o) hob).trans hq
      rw [hc]
      dsimp only
      split
      next =>
        rw [serve_bind, serve_send]
        generalize (ApiServer.handle _ (.create o (o.configMap none))).2 = u at hs
        obtain ⟨hou, hg⟩ := u.handle_get o
        have hu := (congrArg (Table.get? · o) hou).trans hs
        rcases hg with ⟨code, hr⟩ | ⟨w, hw, _⟩ | ⟨_, hr⟩
        · rw [hr]
          exact ⟨hk.congr hu, payload?_congr hu, fun _ hp => nomatch hp⟩
        · cases (hs.trans hv).symm.trans hw
        · rw [hr]
          exact ⟨hk.congr hu, payload?_congr hu, fun _ hp => nomatch hp⟩
      next => exact ⟨hk.congr hs, payload?_congr hs, fun _ hp => nomatch hp⟩
    · rw [hc, hz]
      refine ⟨fun w hw => ?_, payload?_of_payloadOf hob (payloadOf_created o), fun _ hp => ?_⟩
      · obtain rfl := Option.some.inj (hob.symm.trans hw)
        rw [isReleased_sorted]
        rfl
      · exact (Except.ok.inj hp).symm

end ApiServer

end EventRouting
