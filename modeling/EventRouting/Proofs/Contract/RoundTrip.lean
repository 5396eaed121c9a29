import EventRouting.Contract.Codec
import EventRouting.Proofs.Json.Document

namespace EventRouting

open Json

namespace Json

theorem bytes_map_byte (l : List UInt8) (pieces : List Piece) (f : Option Fault) :
    Piece.bytes (l.map .byte ++ pieces) f = (l ++ ·) <$> Piece.bytes pieces f := by
  induction l with
  | nil =>
    rw [List.map_nil, List.nil_append]
    cases Piece.bytes pieces f <;> rfl
  | cons b l ih =>
    rw [List.map_cons, List.cons_append, Piece.bytes, ih]
    cases Piece.bytes pieces f <;> rfl

theorem bytes_unit {u : Nat} (h : u < 0xD800) (pieces : List Piece) (f : Option Fault) :
    Piece.bytes (.unit u :: pieces) f =
      (Utf8.encodeChar (.ofNat u) ++ ·) <$> Piece.bytes pieces f := by
  conv_lhs => unfold Piece.bytes
  exact if_pos (Or.inl h)

theorem bytes_charPieces (c : Char) (pieces : List Piece) (f : Option Fault) :
    Piece.bytes (charPieces c ++ pieces) f =
      (Utf8.encodeChar c ++ ·) <$> Piece.bytes pieces f := by
  rw [charPieces]
  split
  next h =>
    rw [List.cons_append, List.nil_append, bytes_unit (by omega), Char.ofNat_toNat]
  next h => exact bytes_map_byte _ _ _

theorem bytes_flatMap_charPieces (l : List Char) :
    Piece.bytes (l.flatMap charPieces) none = .ok (Utf8.encode l) := by
  induction l with
  | nil => rfl
  | cons c l ih =>
    rw [List.flatMap_cons, bytes_charPieces, ih]
    rfl

@[simp] theorem decode_spelling (s : String) : (spelling s).decode = .ok s := by
  have hb : Piece.bytes (spelling s).pieces (spelling s).fault? = .ok (Utf8.bytes s) :=
    bytes_flatMap_charPieces s.toList
  simp only [Spelling.decode, hb, Utf8.decode?_bytes]

@[simp] theorem readString_string (s : String) :
    Node.readString (Value.string s).node = .ok s := by
  rw [Value.node, Node.readString, decode_spelling]

theorem readNat_ofNat {n bound : Nat} (h : n < bound) (wanted : String) :
    Node.readNat bound wanted (Value.ofNat n).node = .ok n := by
  have hn : (0 : Int) ≤ n ∧ (n : Int) < bound := by omega
  simp only [Value.ofNat, Value.node, Node.readNat, if_pos hn, Int.toNat_natCast]

@[simp] theorem readUInt64_ofNat (n : UInt64) :
    Node.readUInt64 (Value.ofNat n.toNat).node = .ok n := by
  rw [Node.readUInt64, readNat_ofNat n.toNat_lt_size]
  exact congrArg Except.ok UInt64.ofNat_toNat

@[simp] theorem readUInt32_ofNat (n : UInt32) :
    Node.readUInt32 (Value.ofNat n.toNat).node = .ok n := by
  rw [Node.readUInt32, readNat_ofNat n.toNat_lt_size]
  exact congrArg Except.ok UInt32.ofNat_toNat

variable {α β : Type}

@[simp] theorem ok_bind (a : α) (f : α → Except DecodeError β) : (Except.ok a >>= f) = f a := rfl

@[simp] theorem map_ok (a : α) (f : α → β) :
    (f <$> (Except.ok a : Except DecodeError α)) = .ok (f a) := rfl

@[simp] theorem fill_none (name : String) (a : α) :
    fill none name (.ok a) = .ok (some a) := rfl

theorem readOption_ok {reader : Reader Node α} {n : Node} {a : α} (hn : n ≠ .scalar .null)
    (h : reader n = .ok a) : Node.readOption reader n = .ok (some a) := by
  rw [Node.readOption, h]
  · rfl
  · exact hn

theorem mapM_nodes (reader : Reader Node α) (f : α → Value) (h : ∀ a, reader (f a).node = .ok a)
    (l : List α) : (Value.nodes (l.map f)).mapM reader = .ok l := by
  induction l with
  | nil => rfl
  | cons a l ih =>
    rw [List.map_cons, Value.nodes, List.mapM_cons, h, ih]
    rfl

theorem readList_array (reader : Reader Node α) (f : α → Value)
    (h : ∀ a, reader (f a).node = .ok a) (l : List α) :
    Node.readList reader (Value.array (l.map f)).node = .ok l := by
  rw [Value.node, Node.readList, mapM_nodes reader f h]
  rfl

theorem putMember_spelling (r : Record Node α) (draft : r.Draft) (name : String) (n : Node) :
    r.putMember draft (spelling name, n) = r.put draft name n := by
  rw [Record.putMember, decode_spelling]
  rfl

theorem readVariant_string (variants : List (String × α)) (name : String) :
    Node.readVariant variants (Value.string name).node = variant variants name := by
  rw [Value.node, Node.readVariant, decode_spelling]
  rfl

/-- A record is read from the members of an object one after the other. -/
theorem Record.read_object (r : Record Node α) (members : List (String × Value)) :
    r.read (Value.object members).node =
      (members.foldlM (fun draft member => r.put draft member.1 member.2.node) r.empty >>=
        r.finish) := by
  have hf (draft : r.Draft) : (Value.memberNodes members).foldlM r.putMember draft =
      members.foldlM (fun draft member => r.put draft member.1 member.2.node) draft := by
    induction members generalizing draft with
    | nil => rfl
    | cons member members ih =>
      simp only [Value.memberNodes, List.foldlM_cons, putMember_spelling, ih]
  rw [Value.node, Record.read, hf]
  rfl

end Json

@[simp] theorem BackoffPolicy.read_name (p : BackoffPolicy) :
    Node.readVariant BackoffPolicy.variants (Value.string p.name).node = .ok p := by
  rw [readVariant_string]
  cases p <;> rfl

@[simp] theorem DeliveryOrder.read_name (o : DeliveryOrder) :
    Node.readVariant DeliveryOrder.variants (Value.string o.name).node = .ok o := by
  rw [readVariant_string]
  cases o <;> rfl

@[simp] theorem readOption_string (s : String) :
    Node.readOption Node.readString (Value.string s).node = .ok (some s) :=
  readOption_ok (by simp [Value.node]) (readString_string s)

@[simp] theorem readOption_uint64 (n : UInt64) :
    Node.readOption Node.readUInt64 (Value.ofNat n.toNat).node = .ok (some n) :=
  readOption_ok (by simp [Value.ofNat, Value.node]) (readUInt64_ofNat n)

@[simp] theorem EgressConfig.read_toValue (c : EgressConfig) :
    EgressConfig.record.read c.toValue.node = .ok c := by
  obtain ⟨deadLetter?, retry, policy, delay, timeout?⟩ := c
  rw [EgressConfig.toValue, Value.record, Record.read_object]
  cases deadLetter? <;> cases timeout? <;> simp [EgressConfig.record, Draft.put]

@[simp] theorem Reference.read_toValue (r : Reference) :
    Reference.record.read r.toValue.node = .ok r := by
  rw [Reference.toValue, Record.read_object]
  simp [Reference.record, Draft.put]

@[simp] theorem Ingress.read_toValue (i : Ingress) :
    Ingress.record.read i.toValue.node = .ok i := by
  obtain ⟨path, host?⟩ := i
  rw [Ingress.toValue, Value.record, Record.read_object]
  cases host? <;> simp [Ingress.record, Draft.put]

@[simp] theorem readOption_ingress (i : Ingress) :
    Node.readOption Ingress.record.read i.toValue.node = .ok (some i) :=
  readOption_ok (by simp [Ingress.toValue, Value.record, Value.node]) i.read_toValue

@[simp] theorem readOption_egressConfig (c : EgressConfig) :
    Node.readOption EgressConfig.record.read c.toValue.node = .ok (some c) :=
  readOption_ok (by simp [EgressConfig.toValue, Value.record, Value.node]) c.read_toValue

@[simp] theorem Egress.read_toValue (e : Egress) :
    Egress.record.read e.toValue.node = .ok e := by
  obtain ⟨uid, group, destination, replyUrl?, config?, order, reference⟩ := e
  rw [Egress.toValue, Value.record, Record.read_object]
  cases replyUrl? <;> cases config? <;> simp [Egress.record, Draft.put, require]

@[simp] theorem readList_strings (l : List String) :
    Node.readList Node.readString (Value.strings l).node = .ok l :=
  readList_array Node.readString .string readString_string l

@[simp] theorem readList_egresses (l : List Egress) :
    Node.readList Egress.record.read (Value.array (l.map Egress.toValue)).node = .ok l :=
  readList_array _ _ Egress.read_toValue l

@[simp] theorem Resource.read_toValue (r : Resource) :
    Resource.record.read r.toValue.node = .ok r := by
  obtain ⟨uid, topics, bootstrapServers, ingress?, config?, egresses, reference⟩ := r
  rw [Resource.toValue, Value.record, Record.read_object]
  cases ingress? <;> cases config? <;> simp [Resource.record, Draft.put, require]

@[simp] theorem readList_resources (l : List Resource) :
    Node.readList Resource.record.read (Value.array (l.map Resource.toValue)).node = .ok l :=
  readList_array _ _ Resource.read_toValue l

theorem Contract.read_toValue (c : Contract) :
    Contract.record.read c.toValue.node = .ok c := by
  rw [Contract.toValue, Record.read_object]
  simp [Contract.record, Draft.put]

namespace Json

theorem naturalItems_map {α : Type} {f : α → Value} (h : ∀ a, (f a).Natural) (l : List α) :
    Value.NaturalItems (l.map f) := by
  induction l with
  | nil => trivial
  | cons a l ih => exact ⟨h a, ih⟩

theorem natural_record {members : List (String × Option Value)}
    (h : ∀ m ∈ members, ∀ v, m.2 = some v → v.Natural) : (Value.record members).Natural := by
  change Value.NaturalMembers _
  induction members with
  | nil => trivial
  | cons m members ih =>
    obtain ⟨name, v?⟩ := m
    have ih := ih fun m hm => h m (List.mem_cons_of_mem _ hm)
    cases v? with
    | none => exact ih
    | some v => exact ⟨h _ List.mem_cons_self v rfl, ih⟩

theorem natural_uint64 (n : UInt64) : (Value.ofNat n.toNat).Natural := ⟨_, rfl, n.toNat_lt_size⟩

theorem natural_uint32 (n : UInt32) : (Value.ofNat n.toNat).Natural :=
  ⟨_, rfl, Nat.lt_trans n.toNat_lt_size (by decide)⟩

end Json

theorem EgressConfig.toValue_natural (c : EgressConfig) : c.toValue.Natural := by
  apply natural_record
  simp only [List.forall_mem_cons, Option.map_eq_some_iff, Option.some.injEq, List.not_mem_nil]
  refine ⟨?_, fun v h => h ▸ natural_uint32 _, fun v h => h ▸ trivial,
    fun v h => h ▸ natural_uint64 _, ?_, nofun⟩
  · rintro v ⟨s, -, rfl⟩
    trivial
  · rintro v ⟨n, -, rfl⟩
    exact natural_uint64 n

theorem Ingress.toValue_natural (i : Ingress) : i.toValue.Natural := by
  apply natural_record
  simp only [List.forall_mem_cons, Option.map_eq_some_iff, Option.some.injEq, List.not_mem_nil]
  refine ⟨fun v h => h ▸ trivial, ?_, nofun⟩
  rintro v ⟨s, -, rfl⟩
  trivial

theorem Reference.toValue_natural (r : Reference) : r.toValue.Natural :=
  ⟨trivial, trivial, trivial, trivial, trivial⟩

theorem Egress.toValue_natural (e : Egress) : e.toValue.Natural := by
  apply natural_record
  simp only [List.forall_mem_cons, Option.map_eq_some_iff, Option.some.injEq, List.not_mem_nil]
  refine ⟨fun v h => h ▸ trivial, fun v h => h ▸ trivial, fun v h => h ▸ trivial, ?_, ?_,
    fun v h => h ▸ trivial, fun v h => h ▸ e.reference.toValue_natural, nofun⟩
  · rintro v ⟨s, -, rfl⟩
    trivial
  · rintro v ⟨c, -, rfl⟩
    exact c.toValue_natural

theorem Resource.toValue_natural (r : Resource) : r.toValue.Natural := by
  apply natural_record
  simp only [List.forall_mem_cons, Option.map_eq_some_iff, Option.some.injEq, List.not_mem_nil]
  refine ⟨fun v h => h ▸ trivial, fun v h => h ▸ ?_, fun v h => h ▸ trivial, ?_, ?_,
    fun v h => h ▸ naturalItems_map Egress.toValue_natural _,
    fun v h => h ▸ r.reference.toValue_natural, nofun⟩
  · exact @naturalItems_map String .string (fun _ => trivial) r.topics
  · rintro v ⟨i, -, rfl⟩
    exact i.toValue_natural
  · rintro v ⟨c, -, rfl⟩
    exact c.toValue_natural

theorem Contract.toValue_natural (c : Contract) : c.toValue.Natural :=
  ⟨natural_uint64 _, naturalItems_map Resource.toValue_natural _, trivial⟩

theorem Contract.decode_encode (c : Contract) : Contract.decode c.encode = .ok c := by
  obtain ⟨b, s, hs⟩ : ∃ b s, c.encode = b :: s ∧ isFileSpace b = false := ⟨_, _, rfl, rfl⟩
  rw [Contract.decode, if_neg (by simp [hs])]
  rw [Json.decode, Contract.encode, read_render c.toValue_natural rfl]
  simp [Contract.read_toValue]
  rfl

/-- A contract is what its payload reads back as, and nothing else is. -/
theorem Contract.decode_encode_eq_ok_iff (c d : Contract) :
    Contract.decode c.encode = .ok d ↔ d = c := by
  rw [decode_encode]
  constructor
  · intro h
    exact (Except.ok.inj h).symm
  · rintro rfl
    rfl

end EventRouting
