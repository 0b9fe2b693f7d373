import ConnectionBroker.Config.Settings
import ConnectionBroker.Tasks.Task
import ConnectionBroker.Proofs.Json.Reading

/-!
# Records survive being written and read

A record is written as an object of its fields in order, and its shape reads such an object by
the names of the members. What a shape needs for that is that no field takes a later field's name
for its own (`Shape.Apart`); what the values need is that each is read as what was written
(`Field.Fills`). `Shape.decode_compact` puts this together with the reader of texts, and the
configs, the targets, the settings and the tasks are instances of it.

A task holds values of any kind in its extension. They come back if none of them is a decimal and
if they do not lie too deep (`Json.height`), and its members come back in their order because they
are kept in canonical form.
-/

namespace ConnectionBroker

variable {ρ : Type}

/-! ## Values -/

namespace Json

mutual

/-- How many containers lie inside each other. -/
def height : Json → Nat
  | .null => 0
  | .bool _ => 0
  | .number _ => 0
  | .string _ => 0
  | .array items => heightItems items + 1
  | .object members => heightMembers members + 1
termination_by structural v => v

def heightItems : List Json → Nat
  | [] => 0
  | v :: rest => max v.height (heightItems rest)
termination_by structural items => items

def heightMembers : List (String × Json) → Nat
  | [] => 0
  | m :: rest => max (heightMember m) (heightMembers rest)
termination_by structural members => members

def heightMember : String × Json → Nat
  | (_, v) => v.height
termination_by structural member => member

end

end Json

namespace Node

mutual

/-- The node of a value has the value, if nothing in it lies too deep. -/
theorem value?_ofValue : ∀ (depth : Nat) (v : Json), v.Integral → v.height ≤ depth →
    value? depth (ofValue v) = some v
  | _, .null, _, _ => rfl
  | _, .bool _, _, _ => rfl
  | _, .number (.int _), _, _ => rfl
  | _, .number (.decimal _ _ _), h, _ => h.elim
  | _, .string _, _, _ => rfl
  | 0, .array _, _, hdepth => absurd hdepth (Nat.not_succ_le_zero _)
  | depth + 1, .array items, h, hdepth => by
    have hitems := itemValues?_ofItems depth items h (Nat.le_of_succ_le_succ hdepth)
    rw [ofValue, value?, if_pos rfl, hitems, Option.map_some]
  | 0, .object _, _, hdepth => absurd hdepth (Nat.not_succ_le_zero _)
  | depth + 1, .object members, h, hdepth => by
    have hmembers := memberValues?_ofMembers depth members h (Nat.le_of_succ_le_succ hdepth)
    rw [ofValue, value?, if_pos rfl, hmembers, Option.map_some]
termination_by structural _ v => v

theorem itemValues?_ofItems : ∀ (depth : Nat) (items : List Json), Json.IntegralItems items →
    Json.heightItems items ≤ depth → itemValues? depth (ofItems items) = some items
  | _, [], _, _ => rfl
  | depth, v :: rest, h, hdepth => by
    obtain ⟨hv, hrest⟩ := Nat.max_le.1 hdepth
    rw [ofItems, itemValues?, value?_ofValue depth v h.1 hv,
      itemValues?_ofItems depth rest h.2 hrest]
    rfl
termination_by structural _ items => items

theorem memberValues?_ofMembers : ∀ (depth : Nat) (members : List (String × Json)),
    Json.IntegralMembers members → Json.heightMembers members ≤ depth →
      memberValues? depth (ofMembers members) = some members
  | _, [], _, _ => rfl
  | depth, m :: rest, h, hdepth => by
    obtain ⟨hm, hrest⟩ := Nat.max_le.1 hdepth
    rw [ofMembers, memberValues?, memberValue?_ofMember depth m h.1 hm,
      memberValues?_ofMembers depth rest h.2 hrest]
    rfl
termination_by structural _ members => members

theorem memberValue?_ofMember : ∀ (depth : Nat) (m : String × Json), Json.IntegralMember m →
    Json.heightMember m ≤ depth → memberValue? depth (ofMember m) = some m
  | depth, (name, v), h, hdepth => by
    rw [ofMember, memberValue?, value?_ofValue depth v h hdepth, Option.map_some]
termination_by structural _ m => m

end

/-- A number of 16 bits is read as it was written. -/
theorem word16_ofWord16 (n : UInt16) : word16 (ofValue (.ofWord16 n)) = .ok n := by
  have hbound : (0 : Int) ≤ n.toNat ∧ (n.toNat : Int) < 65536 := by
    have := n.toNat_lt
    omega
  simp only [Json.ofWord16, Json.ofNat, ofValue, word16, if_pos hbound, Int.toNat_natCast]
  rw [Nat.toUInt16_eq, UInt16.ofNat_toNat]

/-- A number of 64 bits is read as it was written. -/
theorem word64_ofWord64 (n : UInt64) : word64 (ofValue (.ofWord64 n)) = .ok n := by
  have hbound : (0 : Int) ≤ n.toNat ∧ (n.toNat : Int) < 18446744073709551616 := by
    have := n.toNat_lt
    omega
  simp only [Json.ofWord64, Json.ofNat, ofValue, word64, if_pos hbound, Int.toNat_natCast]
  rw [Nat.toUInt64_eq, UInt64.ofNat_toNat]

end Node

/-! ## Shapes -/

namespace Field

/-- The members give each field its value, in order, and turn the one record into the other. -/
inductive Fills (depth : Nat) : List (Field ρ) → List (String × Json) → ρ → ρ → Prop
  | nil (r : ρ) : Fills depth [] [] r r
  | cons {f : Field ρ} {fs : List (Field ρ)} {v : Json} {ms : List (String × Json)}
      {set : ρ → ρ} {r r' : ρ} (hread : f.read depth (Node.ofValue v) = .ok set)
      (hrest : Fills depth fs ms (set r) r') : Fills depth (f :: fs) ((f.name, v) :: ms) r r'

/-- A read that succeeds is an update that succeeds. -/
theorem map_ok {α : Type} {x : Except Fault α} {a : α} (h : x = .ok a) (set : α → ρ → ρ) :
    x.map set = .ok (set a) := by
  rw [h]
  rfl

theorem read_optional {α : Type} {name : String} {read : Node → Except Fault α} {set : α → ρ → ρ}
    {n : Node} {a : α} (h : read n = .ok a) (depth : Nat) :
    (optional name read set).read depth n = .ok (set a) :=
  map_ok h set

theorem knows_name (f : Field ρ) : f.knows f.name = true := by
  simp [knows]

end Field

namespace Shape

/-- No field takes the name of a later one for its own. -/
def Apart (shape : Shape ρ) : Prop :=
  shape.fields.Pairwise fun f g => f.knows g.name = false

/-- A name means its field, and the field has not been set by those before it. -/
theorem field?_of_apart {shape : Shape ρ} (h : shape.Apart) {before after : List (Field ρ)}
    {f : Field ρ} (hfields : shape.fields = before ++ f :: after) :
    shape.field? f.name = some f ∧ (before.map Field.name).contains f.name = false := by
  rw [Apart, hfields] at h
  have hbefore : ∀ g ∈ before, g.knows f.name = false := fun g hg =>
    (List.pairwise_append.1 h).2.2 g hg f List.mem_cons_self
  refine ⟨?_, ?_⟩
  · rw [field?, hfields, List.find?_append, List.find?_eq_none.2 fun g hg => by simp [hbefore g hg],
      Option.none_or]
    exact List.find?_cons_of_pos f.knows_name
  · rw [← Bool.not_eq_true, List.contains_iff_mem]
    intro hmem
    obtain ⟨g, hg, hname⟩ := List.mem_map.1 hmem
    have hknows := g.knows_name
    rw [hname, hbefore g hg] at hknows
    exact Bool.false_ne_true hknows

/-- Nothing is missing once every field is set. -/
theorem finish_of_seen {shape : Shape ρ} {seen : List String}
    (h : ∀ f ∈ shape.fields, f.name ∈ seen) (r : ρ) : shape.finish seen r = .ok r := by
  have hnone : (shape.fields.find? fun f => f.required && !seen.contains f.name) = none :=
    List.find?_eq_none.2 fun f hf => by simp [h f hf]
  rw [finish, hnone]

/-- The members of a record's object are read to the record. -/
theorem ofMembers_of_fills {shape : Shape ρ} (h : shape.Apart) {depth : Nat}
    {before fs : List (Field ρ)} {ms : List (String × Json)} {r r' : ρ}
    (hfields : shape.fields = before ++ fs) (hfills : Field.Fills depth fs ms r r')
    {seen : List String} (hseen : ∀ name, name ∈ seen ↔ name ∈ before.map Field.name) :
    shape.ofMembers depth true (Node.ofMembers ms) seen r = .ok r' := by
  induction hfills generalizing before seen with
  | nil r =>
    rw [List.append_nil] at hfields
    rw [Node.ofMembers, ofMembers, if_pos rfl]
    exact finish_of_seen (fun f hf => (hseen _).2 (List.mem_map_of_mem (hfields ▸ hf))) r
  | @cons f fs v ms set r r' hread hrest ih =>
    obtain ⟨hfield, hfresh⟩ := field?_of_apart h hfields
    have hunseen : seen.contains f.name = false := by
      rw [← Bool.not_eq_true, List.contains_iff_mem, hseen, ← List.contains_iff_mem, hfresh]
      exact Bool.false_ne_true
    rw [Node.ofMembers, Node.ofMember, ofMembers, hfield]
    simp only [hunseen, hread]
    have hfields' : shape.fields = (before ++ [f]) ++ fs := by
      rw [hfields, List.append_assoc]
      rfl
    refine ih hfields' fun name => ?_
    rw [List.mem_cons, hseen, List.map_append, List.mem_append, List.map_singleton,
      List.mem_singleton, or_comm]

/-- A record comes back from every text that is read as its object. -/
theorem decode_of_fills {shape : Shape ρ} (h : shape.Apart) {ms : List (String × Json)} {r : ρ}
    (hfills : Field.Fills (nestingLimit - 1) shape.fields ms shape.blank r) {text : String}
    (htext : Document.read text = ⟨Node.ofValue (.object ms), false⟩) :
    shape.decode text = .ok r := by
  have hroot : shape.ofNode nestingLimit (Node.ofValue (.object ms)) = .ok r :=
    ofMembers_of_fills h (List.nil_append _).symm hfills (by simp)
  rw [decode, htext]
  simp only [hroot]
  rfl

/-- A record comes back from its compact text. -/
theorem decode_compact {shape : Shape ρ} (h : shape.Apart) {ms : List (String × Json)} {r : ρ}
    (hfills : Field.Fills (nestingLimit - 1) shape.fields ms shape.blank r)
    (hintegral : (Json.object ms).Integral) : shape.decode (Json.object ms).compact = .ok r :=
  decode_of_fills h hfills (Document.read_compact hintegral)

end Shape

/-! ## Records -/

theorem integral_ofNat {n : Nat} (h : n < Nat.pow 2 64) : (Json.ofNat n).Integral := by
  rw [Json.ofNat, Json.Integral, Number.FitsWord]
  omega

theorem integral_ofWord16 (n : UInt16) : (Json.ofWord16 n).Integral :=
  integral_ofNat (Nat.lt_trans n.toNat_lt (by decide))

theorem integral_ofWord64 (n : UInt64) : (Json.ofWord64 n).Integral :=
  integral_ofNat n.toNat_lt

namespace ConnectionConfig

theorem apart_shape : shape.Apart := by
  simp [Shape.Apart, shape, Field.optional, Field.knows]

theorem decode_compact (c : ConnectionConfig) : shape.decode c.toJson.compact = .ok c := by
  refine Shape.decode_compact apart_shape ?_ ?_
  · exact .cons rfl <| .cons rfl <|
      .cons (Field.read_optional (Node.word16_ofWord16 c.port) _) <| .cons rfl <|
      .cons rfl <| .cons rfl <| .cons rfl <| .cons rfl <| .cons rfl <| .cons rfl <| .cons rfl <|
      .cons rfl <| .cons rfl <| .cons rfl <| .cons rfl <| .nil c
  · simp [Json.Integral, Json.IntegralMembers, Json.IntegralMember, integral_ofWord16]

end ConnectionConfig

namespace SshAuth

/-- A login is read from its node, whatever its kind. -/
theorem ofNode_ofValue (depth : Nat) (auth : SshAuth) :
    ofNode (depth + 1) (Node.ofValue auth.toJson) = .ok auth := by
  cases auth with
  | password p => rfl
  | publicKey path passphrase => cases passphrase <;> rfl
  | agent => rfl

theorem integral_toJson (auth : SshAuth) : auth.toJson.Integral := by
  rcases auth with p | ⟨path, _ | passphrase⟩ | _ <;>
    simp [toJson, Json.Integral, Json.IntegralMembers, Json.IntegralMember]

end SshAuth

namespace SshTarget

theorem apart_shape : shape.Apart := by
  simp [Shape.Apart, shape, Field.optional, Field.needed, Field.knows]

theorem decode_compact (t : SshTarget) : shape.decode t.toJson.compact = .ok t := by
  refine Shape.decode_compact apart_shape ?_ ?_
  · exact .cons rfl <| .cons (Field.read_optional (Node.word16_ofWord16 t.port) _) <| .cons rfl <|
      .cons (Field.map_ok (SshAuth.ofNode_ofValue _ t.auth) _) <| .nil t
  · simp [Json.Integral, Json.IntegralMembers, Json.IntegralMember, integral_ofWord16,
      SshAuth.integral_toJson]

end SshTarget

namespace BrokerSettings

theorem apart_shape : shape.Apart := by
  simp [Shape.Apart, shape, Field.optional, Field.knows]

/-- The values of the settings are read as the settings. -/
theorem fills_shape (s : BrokerSettings) : Field.Fills (nestingLimit - 1) shape.fields
    [("idleTtlMs", .ofWord64 s.idleTtl), ("sweepIntervalMs", .ofWord64 s.sweepInterval),
      ("sshConnectTimeoutMs", .ofWord64 s.sshConnectTimeout)] shape.blank s :=
  .cons (Field.read_optional (Node.word64_ofWord64 s.idleTtl) _) <|
    .cons (Field.read_optional (Node.word64_ofWord64 s.sweepInterval) _) <|
    .cons (Field.read_optional (Node.word64_ofWord64 s.sshConnectTimeout) _) <| .nil s

theorem integral_toJson (s : BrokerSettings) : s.toJson.Integral := by
  simp [toJson, Json.Integral, Json.IntegralMembers, Json.IntegralMember, integral_ofWord64]

theorem decode_compact (s : BrokerSettings) : shape.decode s.toJson.compact = .ok s :=
  Shape.decode_compact apart_shape s.fills_shape s.integral_toJson

end BrokerSettings

namespace Extension

/-- Members in canonical form are kept as they are. -/
theorem ofMembers_members (e : Extension) : ofMembers e.members = e := by
  obtain ⟨members, hascending, hcanonical⟩ := e
  simp only [ofMembers, Json.normalMembers_of_canonical members [] hcanonical hascending,
    List.nil_append]

theorem ofNode_ofValue {depth : Nat} {e : Extension} (h : e.toJson.Integral)
    (hdepth : e.toJson.height ≤ depth) : ofNode depth (Node.ofValue e.toJson) = .ok e := by
  obtain ⟨depth, rfl⟩ : ∃ n, depth = n + 1 := by
    cases depth with
    | zero => exact absurd hdepth (Nat.not_succ_le_zero _)
    | succ n => exact ⟨n, rfl⟩
  have hvalue := Node.value?_ofValue (depth + 1) e.toJson h hdepth
  simp only [toJson, Node.ofValue] at hvalue ⊢
  simp only [ofNode, hvalue, ofMembers_members]

end Extension

namespace Task

theorem apart_shape : shape.Apart := by
  simp [Shape.Apart, shape, Field.needed, Field.knows]

theorem unitVariant_kind (depth : Nat) (kind : TaskKind) :
    (Node.ofValue (.string kind.name)).unitVariant TaskKind.names depth = .ok kind := by
  cases kind <;> rfl

theorem unitVariant_status (depth : Nat) (status : TaskStatus) :
    (Node.ofValue (.string status.name)).unitVariant TaskStatus.names depth = .ok status := by
  cases status <;> rfl

/-- A task whose extension holds no decimal and does not lie too deep comes back from its text. -/
theorem decode_compact {t : Task} (hintegral : t.extend.toJson.Integral)
    (hheight : t.toJson.height ≤ nestingLimit) : shape.decode t.toJson.compact = .ok t := by
  have hdepth : t.extend.toJson.height ≤ nestingLimit - 1 := by
    simp only [toJson, Json.height, Json.heightMembers, Json.heightMember] at hheight
    omega
  refine Shape.decode_compact apart_shape ?_ ?_
  · exact .cons rfl <| .cons (Field.map_ok (unitVariant_kind _ t.kind) _) <|
      .cons (Field.map_ok (unitVariant_status _ t.status) _) <|
      .cons (Field.map_ok (Extension.ofNode_ofValue hintegral hdepth) _) <| .nil t
  · simp [Json.Integral, Json.IntegralMembers, Json.IntegralMember, hintegral]

end Task

/-- Every record comes back from its compact text, whatever characters its texts hold and whatever
its numbers are; a task, if its extension holds no decimal and does not lie too deep. -/
theorem records_read_back :
    (∀ c : ConnectionConfig, ConnectionConfig.shape.decode c.toJson.compact = .ok c) ∧
      (∀ t : SshTarget, SshTarget.shape.decode t.toJson.compact = .ok t) ∧
      (∀ s : BrokerSettings, BrokerSettings.shape.decode s.toJson.compact = .ok s) ∧
      ∀ t : Task, t.extend.toJson.Integral → t.toJson.height ≤ nestingLimit →
        Task.shape.decode t.toJson.compact = .ok t :=
  ⟨ConnectionConfig.decode_compact, SshTarget.decode_compact, BrokerSettings.decode_compact,
    fun _ => Task.decode_compact⟩

/-- A task with containers inside each other, escapes, and the least of all words. -/
def Task.nested : Task :=
  (Task.new "import\n1" .sync).withExtend "dir\"Path"
    (.array [.object [("\x07", .number (.int (-9223372036854775808)))], .string "\\é", .null])

theorem records_read_back_nested :
    Task.nested.extend.toJson.Integral ∧ Task.nested.toJson.height ≤ nestingLimit ∧
      Task.shape.decode Task.nested.toJson.compact = .ok Task.nested := by
  have hintegral : Task.nested.extend.toJson.Integral := by
    have hword : (Number.int (-9223372036854775808)).FitsWord := by
      constructor <;> decide
    exact ⟨⟨⟨hword, trivial⟩, trivial, trivial, trivial⟩, trivial⟩
  have hheight : Task.nested.toJson.height ≤ nestingLimit := by decide
  exact ⟨hintegral, hheight, records_read_back.2.2.2 Task.nested hintegral hheight⟩

end ConnectionBroker
