import ConnectionBroker.Proofs.Json.Layout
import ConnectionBroker.Proofs.Json.Members

/-!
# Objects with their members edited

An object says the same thing if its members are put into another order, if a name is replaced by
another name for the same field, and if members are added that no field knows (`MemberText.Edit`).
It says nothing if a field is given once more (`MemberText.Repeats`).

Both hold of any reading of members that is `OrderFree`, and whoever reads members shows that on
its first two members only, since any member may be moved to the front. A shape whose fields do
not get into each other's way is such a reader (`Shape.orderFree`).
-/

namespace ConnectionBroker

/-- Members as they are read : names and values. -/
abbrev Node.Members := List (Node × Node)

/-- The reading does not depend on the order of the members, nor on names beyond what they mean,
nor on members that mean nothing; and no two members of it mean the same. -/
structure OrderFree (means : String → Option String) (skips : Node → Prop)
    (reads : Node.Members → Prop) : Prop where
  perm : ∀ {ms ms'}, ms.Perm ms' → reads ms → reads ms'
  rename : ∀ {key key' n ms}, means key' = means key → reads ((.string key, n) :: ms) →
    reads ((.string key', n) :: ms)
  insert : ∀ {key n ms}, means key = none → skips n → reads ms → reads ((.string key, n) :: ms)
  once : ∀ {key key' n n' ms field}, means key = some field → means key' = some field →
    ¬reads ((.string key, n) :: (.string key', n') :: ms)

namespace MemberText

/-- A change to the members of an object after which it says the same : names have a meaning, or
none, members without one are skipped, and some texts may stand for each other as the value of a
name. -/
inductive Edit (means : String → Option String) (skips : Node → Prop)
    (alike : String → List Char → List Char → Prop) : List MemberText → List MemberText → Prop
  | permute {ms ms' : List MemberText} (h : ms.Perm ms') : Edit means skips alike ms ms'
  | rename {before after : List MemberText} {m : MemberText} {name : List Char} {key key' : String}
      (hkey : m.key? = some key) (hkey' : MemberText.key? ⟨name, m.value⟩ = some key')
      (hmeans : means key' = means key) :
      Edit means skips alike (before ++ m :: after) (before ++ ⟨name, m.value⟩ :: after)
  | insert {before after : List MemberText} {m : MemberText} {key : String} {n : Node}
      (hkey : m.key? = some key) (hmeans : means key = none) (hn : m.node? = some n)
      (hskips : skips n) : Edit means skips alike (before ++ after) (before ++ m :: after)
  | within {before after : List MemberText} {m : MemberText} {key : String} {v : List Char}
      (hkey : m.key? = some key) (halike : alike key m.value v) :
      Edit means skips alike (before ++ m :: after) (before ++ ⟨m.name, v⟩ :: after)

/-- One member more, and its name means what the name of another member means. -/
inductive Repeats (means : String → Option String) : List MemberText → List MemberText → Prop
  | again {before after : List MemberText} {m m' : MemberText} {key key' field : String}
      (hm : m.Proper) (hkey : m.key? = some key) (hmeans : means key = some field)
      (hm' : m' ∈ before ++ after) (hkey' : m'.key? = some key')
      (hmeans' : means key' = some field) :
      Repeats means (before ++ after) (before ++ m :: after)

theorem key?_with_value (m : MemberText) (v : List Char) : key? ⟨m.name, v⟩ = m.key? :=
  rfl

theorem node?_with_name (m : MemberText) (name : List Char) : node? ⟨name, m.value⟩ = m.node? :=
  rfl

variable {means : String → Option String} {skips : Node → Prop} {reads : Node.Members → Prop}
  {alike : String → List Char → List Char → Prop} {ms ms' : List MemberText}

/-- Values that are alike are read alike. -/
def Alike (alike : String → List Char → List Char → Prop) (reads : Node.Members → Prop) : Prop :=
  ∀ key v v' n ms, alike key v v' → Json.Reader.single? v = some n →
    reads ((.string key, n) :: ms) →
      ∃ n', Json.Reader.single? v' = some n' ∧ reads ((.string key, n') :: ms)

theorem forall_proper_middle {before after : List MemberText} {m : MemberText} :
    (∀ w ∈ before ++ m :: after, w.Proper) ↔ m.Proper ∧ ∀ w ∈ before ++ after, w.Proper := by
  simp only [List.mem_append, List.mem_cons]
  constructor
  · exact fun h => ⟨h m (.inr (.inl rfl)), fun w hw => h w (hw.imp_right .inr)⟩
  · rintro ⟨hm, h⟩ w (hw | rfl | hw)
    · exact h w (.inl hw)
    · exact hm
    · exact h w (.inr hw)

/-- Whether members are read can be told with any one of them in front. -/
theorem reads_middle (hreads : OrderFree means skips reads) {before after : List MemberText}
    {m : MemberText} :
    reads ((before ++ m :: after).map node) ↔ reads (m.node :: (before ++ after).map node) := by
  have hperm : ((before ++ m :: after).map node).Perm (m.node :: (before ++ after).map node) :=
    List.perm_middle.map node
  exact ⟨hreads.perm hperm, hreads.perm hperm.symm⟩

/-- Members that are read are read after an edit as well. -/
theorem Edit.reads_of_reads (hreads : OrderFree means skips reads) (halike : Alike alike reads)
    (h : Edit means skips alike ms ms') (hms : ∀ m ∈ ms, m.Proper) (hread : reads (ms.map node)) :
    (∀ m ∈ ms', m.Proper) ∧ reads (ms'.map node) := by
  cases h with
  | permute hperm =>
    exact ⟨fun m hm => hms m (hperm.mem_iff.2 hm), hreads.perm (hperm.map node) hread⟩
  | @rename before after m name key key' hkey hkey' hmeans =>
    obtain ⟨hm, hothers⟩ := forall_proper_middle.1 hms
    obtain ⟨n, hn⟩ := Option.isSome_iff_exists.1 hm.2
    refine ⟨forall_proper_middle.2 ⟨⟨by simp [hkey'], hm.2⟩, hothers⟩, ?_⟩
    rw [reads_middle hreads, node_eq hkey hn] at hread
    rw [reads_middle hreads, node_eq hkey' ((node?_with_name m name).trans hn)]
    exact hreads.rename hmeans hread
  | @insert before after m key n hkey hmeans hn hskips =>
    refine ⟨forall_proper_middle.2 ⟨⟨by simp [hkey], by simp [hn]⟩, hms⟩, ?_⟩
    rw [reads_middle hreads, node_eq hkey hn]
    exact hreads.insert hmeans hskips hread
  | @within before after m key v hkey hv =>
    obtain ⟨hm, hothers⟩ := forall_proper_middle.1 hms
    obtain ⟨n, hn⟩ := Option.isSome_iff_exists.1 hm.2
    rw [reads_middle hreads, node_eq hkey hn] at hread
    obtain ⟨n', hn', hread'⟩ := halike key m.value v n _ hv hn hread
    have hproper : MemberText.Proper ⟨m.name, v⟩ := ⟨hm.1, Option.isSome_iff_exists.2 ⟨n', hn'⟩⟩
    refine ⟨forall_proper_middle.2 ⟨hproper, hothers⟩, ?_⟩
    rw [reads_middle hreads, node_eq ((key?_with_value m v).trans hkey) hn']
    exact hread'

theorem Repeats.sublist (h : Repeats means ms ms') : ms.Sublist ms' := by
  cases h
  exact (List.Sublist.refl _).append (List.sublist_cons_self _ _)

/-- Members among which a name was given twice are not read. -/
theorem Repeats.not_reads (hreads : OrderFree means skips reads) (h : Repeats means ms ms')
    (hms : ∀ m ∈ ms, m.Proper) : (∀ m ∈ ms', m.Proper) ∧ ¬reads (ms'.map node) := by
  obtain @⟨before, after, m, m', key, key', field, hm, hkey, hmeans, hm', hkey', hmeans'⟩ := h
  refine ⟨forall_proper_middle.2 ⟨hm, hms⟩, fun hread => ?_⟩
  obtain ⟨n, hn⟩ := Option.isSome_iff_exists.1 hm.2
  obtain ⟨n', hn'⟩ := Option.isSome_iff_exists.1 (hms m' hm').2
  -- The two members are moved to the front, the new one first.
  obtain ⟨front, back, hsplit⟩ := List.append_of_mem hm'
  rw [reads_middle hreads, hsplit, List.map_append, List.map_cons] at hread
  have hfront := hreads.perm (List.perm_middle.cons m.node) hread
  rw [node_eq hkey hn, node_eq hkey' hn'] at hfront
  exact hreads.once hmeans hmeans' hfront

end MemberText

/-! ## Shapes -/

namespace Shape

variable {ρ : Type} {shape : Shape ρ} {depth : Nat} {x : ρ}

/-- The field that a name means, by its own name. -/
def means (shape : Shape ρ) (key : String) : Option String :=
  (shape.field? key).map Field.name

theorem means_eq_none_iff {key : String} : shape.means key = none ↔ shape.field? key = none :=
  Option.map_eq_none_iff

/-- What a name means is a field, and no other one has its name. -/
theorem means_eq_some_iff (hapart : shape.Apart) {key field : String} :
    shape.means key = some field ↔
      ∃ f, shape.field? field = some f ∧ f.name = field ∧ shape.field? key = some f := by
  rw [means, Option.map_eq_some_iff]
  constructor
  · rintro ⟨f, hf, rfl⟩
    obtain ⟨before, after, hfields⟩ := List.append_of_mem (List.mem_of_find?_eq_some hf)
    exact ⟨f, (field?_of_apart hapart hfields).1, rfl, hf⟩
  · rintro ⟨f, -, hname, hf⟩
    exact ⟨f, hf, hname⟩

theorem field?_eq_of_means (hapart : shape.Apart) {key key' : String}
    (h : shape.means key' = shape.means key) : shape.field? key' = shape.field? key := by
  cases hkey : shape.means key with
  | none => rw [means_eq_none_iff.1 hkey, means_eq_none_iff.1 (h.trans hkey)]
  | some field =>
    obtain ⟨f, hf, -, hfield⟩ := (means_eq_some_iff hapart).1 hkey
    obtain ⟨g, hg, -, hfield'⟩ := (means_eq_some_iff hapart).1 (h.trans hkey)
    rw [hfield, hfield', ← hf, hg]

/-- A shape whose fields do not get into each other's way reads members in any order. -/
theorem orderFree (hapart : shape.Apart) (hindependent : shape.Independent) {r : ρ} :
    OrderFree shape.means (fun n => n.whole = true) fun ms => shape.Accepts depth ms [] r x where
  perm hperm h := h.perm hindependent hperm
  rename {key key' n ms} hmeans h := by
    have hfield := field?_eq_of_means hapart hmeans
    cases hkey : shape.field? key with
    | none =>
      obtain ⟨hn, hrest⟩ := h.of_foreign hkey
      exact .foreign (hfield.trans hkey) hn hrest
    | some f =>
      obtain ⟨hseen, set, hread, hrest⟩ := h.of_known hkey
      exact .known (hfield.trans hkey) hseen hread hrest
  insert hmeans hn h := .foreign (means_eq_none_iff.1 hmeans) hn h
  once {key key' n n' ms field} hmeans hmeans' h := by
    obtain ⟨f, hf, -, hkey⟩ := (means_eq_some_iff hapart).1 hmeans
    obtain ⟨g, hg, -, hkey'⟩ := (means_eq_some_iff hapart).1 hmeans'
    obtain rfl : f = g := Option.some.inj (hf.symm.trans hg)
    obtain ⟨-, set, -, hrest⟩ := h.of_known hkey
    exact (hrest.of_known hkey').1 List.mem_cons_self

theorem ofNode_object_eq_ok_iff {ms : Node.Members} {closed : Bool} :
    shape.ofNode (depth + 1) (.object ms closed) = .ok x ↔
      closed = true ∧ shape.Accepts depth ms [] shape.blank x := by
  rw [ofNode, ofMembers_eq_ok_iff]

theorem decode_eq_ok_iff {text : String} : shape.decode text = .ok x ↔
    shape.ofNode nestingLimit (Document.read text).root = .ok x ∧
      (Document.read text).trailing = false := by
  rw [decode]
  cases shape.ofNode nestingLimit (Document.read text).root with
  | error e => simp [bind, Except.bind]
  | ok r => cases (Document.read text).trailing <;> simp [bind, Except.bind]

/-- An object text is decoded if its members are accepted. -/
theorem decode_objectText_eq_ok_iff {o : ObjectText} (h : o.Proper) :
    shape.decode o.text = .ok x ↔
      shape.Accepts (nestingLimit - 1) (o.members.map MemberText.node) [] shape.blank x := by
  rw [decode_eq_ok_iff, ObjectText.read_text h]
  exact (and_iff_left rfl).trans (ofNode_object_eq_ok_iff.trans (and_iff_right rfl))

/-- A text that is decoded as an object is an object text. -/
theorem exists_objectText {text : String} {ms : Node.Members} {closed : Bool}
    (h : shape.decode text = .ok x) (hroot : (Document.read text).root = .object ms closed) :
    ∃ o : ObjectText, o.Proper ∧ o.text = text := by
  obtain ⟨hread, htrailing⟩ := decode_eq_ok_iff.1 h
  rw [hroot] at hread
  obtain ⟨rfl, haccepts⟩ := ofNode_object_eq_ok_iff.1 hread
  refine @Document.exists_objectText text ms ?_ haccepts.exists_names
  rw [← hroot, ← htrailing]

end Shape

end ConnectionBroker
