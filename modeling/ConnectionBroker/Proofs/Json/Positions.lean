import ConnectionBroker.Proofs.Json.Edits

/-!
# Fields by position and by name

An array gives a record its fields by position, and an object gives them by name. Both are
accepted if the values fit the first fields one after the other and none of the fields left over
has to be given (`Shape.Fits`); so an array and the object that binds the first names to the same
values are decoded as the same record, or as none (`Shape.decode_array_iff`).
-/

namespace ConnectionBroker

open Json (stringChars)
open Json.Reader (single? blank_nil)

namespace Shape

variable {ρ : Type} {shape : Shape ρ} {depth : Nat} {before fs : List (Field ρ)} {ns : List Node}
  {seen : List String} {r x : ρ}

/-- The nodes give the first fields their values, and the fields left over have defaults. -/
inductive Fits (depth : Nat) : List (Field ρ) → List Node → ρ → ρ → Prop
  | done {fs : List (Field ρ)} {r : ρ} (hfs : ∀ f ∈ fs, f.required = false) : Fits depth fs [] r r
  | cons {f : Field ρ} {fs : List (Field ρ)} {n : Node} {ns : List Node} {set : ρ → ρ} {r x : ρ}
      (hread : f.read depth n = .ok set) (hrest : Fits depth fs ns (set r) x) :
      Fits depth (f :: fs) (n :: ns) r x

theorem fits_nil_iff : Fits depth fs [] r x ↔ (∀ f ∈ fs, f.required = false) ∧ r = x := by
  constructor
  · rintro ⟨hfs⟩
    exact ⟨hfs, rfl⟩
  · rintro ⟨hfs, rfl⟩
    exact .done hfs

theorem fits_cons_iff {f : Field ρ} {n : Node} : Fits depth (f :: fs) (n :: ns) r x ↔
    ∃ set, f.read depth n = .ok set ∧ Fits depth fs ns (set r) x := by
  constructor
  · intro h
    cases h with
    | cons hread hrest => exact ⟨_, hread, hrest⟩
  · rintro ⟨set, hread, hrest⟩
    exact .cons hread hrest

/-- An array is accepted if it has its closing bracket and its items fit. -/
theorem ofItems_eq_ok_iff {closed : Bool} {i : Nat} :
    shape.ofItems depth closed i fs ns r = .ok x ↔ closed = true ∧ Fits depth fs ns r x := by
  induction fs generalizing i ns r with
  | nil =>
    cases ns with
    | nil => cases closed <;> simp [ofItems, fits_nil_iff]
    | cons n ns => exact ⟨nofun, nofun⟩
  | cons f fs ih =>
    cases ns with
    | nil =>
      rw [ofItems, fits_nil_iff, List.forall_mem_cons]
      cases closed <;> cases hrequired : f.required <;> simp [ih, fits_nil_iff]
    | cons n ns =>
      rw [ofItems, fits_cons_iff]
      cases hread : f.read depth n with
      | error e => simp [bind, Except.bind]
      | ok set => simp [bind, Except.bind, ih]

/-- The members that bind the names of the fields to the nodes. -/
def named (fs : List (Field ρ)) (ns : List Node) : Node.Members :=
  List.zipWith (fun f n => (.string f.name, n)) fs ns

/-- The names of the fields before a field are other names. -/
theorem name_not_mem_of_apart (hapart : shape.Apart) (hfields : shape.fields = before ++ fs)
    {f : Field ρ} (hf : f ∈ fs) : f.name ∉ before.map Field.name := by
  obtain ⟨front, back, rfl⟩ := List.append_of_mem hf
  rw [← List.append_assoc] at hfields
  intro hmem
  have hfresh := (field?_of_apart hapart hfields).2
  rw [← Bool.not_eq_true, List.contains_iff_mem, List.map_append] at hfresh
  exact hfresh (List.mem_append_left _ hmem)

/-- The members by name are accepted if the nodes fit by position. -/
theorem accepts_named_iff (hapart : shape.Apart) (hfields : shape.fields = before ++ fs)
    (hseen : ∀ name, name ∈ seen ↔ name ∈ before.map Field.name) (hlength : ns.length ≤ fs.length) :
    shape.Accepts depth (named fs ns) seen r x ↔ Fits depth fs ns r x := by
  -- The induction moves one field after the other from those left over to those that are set.
  induction ns generalizing before fs seen r with
  | nil =>
    rw [named, List.zipWith_nil_right, Accepts.nil_iff, fits_nil_iff]
    refine and_congr_left fun _ => ⟨fun h f hf => ?_, fun h f hf hrequired => ?_⟩
    · rw [← Bool.not_eq_true]
      intro hrequired
      have hmem := (hseen _).1 (h f (hfields ▸ List.mem_append_right _ hf) hrequired)
      exact name_not_mem_of_apart hapart hfields hf hmem
    · rw [hfields, List.mem_append] at hf
      refine (hseen _).2 (List.mem_map_of_mem (hf.resolve_right fun hf => ?_))
      rw [h f hf] at hrequired
      cases hrequired
  | cons n ns ih =>
    obtain ⟨f, fs, rfl⟩ :=
      List.exists_cons_of_length_pos (Nat.lt_of_lt_of_le (Nat.succ_pos _) hlength)
    have hkey : shape.field? f.name = some f := (field?_of_apart hapart hfields).1
    have hfresh : f.name ∉ seen := fun hmem =>
      name_not_mem_of_apart hapart hfields List.mem_cons_self ((hseen _).1 hmem)
    have hfields' : shape.fields = (before ++ [f]) ++ fs := by
      rw [hfields, List.append_assoc, List.singleton_append]
    have hseen' : ∀ name, name ∈ f.name :: seen ↔ name ∈ (before ++ [f]).map Field.name := by
      intro name
      rw [List.mem_cons, hseen, List.map_append, List.mem_append, List.map_singleton,
        List.mem_singleton, or_comm]
    have hrest {r : ρ} := ih hfields' hseen' (Nat.le_of_succ_le_succ hlength) (r := r)
    rw [named, List.zipWith_cons_cons, fits_cons_iff]
    constructor
    · intro h
      obtain ⟨-, set, hread, h⟩ := h.of_known hkey
      exact ⟨set, hread, hrest.1 h⟩
    · rintro ⟨set, hread, h⟩
      exact .known hkey hfresh hread (hrest.2 h)

/-! ## Texts -/

/-- The object binds the names of the first fields to the items of the array. -/
def Binds (shape : Shape ρ) (o : ObjectText) (a : ArrayText) : Prop :=
  o.members.map MemberText.key? = (shape.fields.take a.items.length).map (some ·.name) ∧
    o.members.map MemberText.node? = a.items.map single?

/-- Members with the names of fields and the values of items are the fields' members. -/
theorem map_node_eq_named {ms : List MemberText} {ts : List (List Char)}
    (hkeys : ms.map MemberText.key? = (fs.take ts.length).map (some ·.name))
    (hvalues : ms.map MemberText.node? = ts.map single?) :
    ms.map MemberText.node = named fs (ts.map ArrayText.nodeOf) := by
  induction ms generalizing fs ts with
  | nil =>
    obtain rfl : ts = [] := List.map_eq_nil_iff.1 hvalues.symm
    rw [List.map_nil, List.map_nil, named, List.zipWith_nil_right]
  | cons m ms ih =>
    obtain ⟨t, ts, rfl, hvalue, hvalues⟩ := List.map_eq_cons_iff.1 hvalues.symm
    cases fs with
    | nil => cases hkeys
    | cons f fs =>
      obtain ⟨hkey, hkeys⟩ := List.cons.inj hkeys
      rw [List.map_cons, MemberText.node, hkey, ← hvalue, ih hkeys hvalues.symm]
      rfl

/-- An array and the object that binds the first names to its items are decoded alike. -/
theorem decode_array_iff (hapart : shape.Apart) {a : ArrayText} {o : ObjectText} (ha : a.Proper)
    (ho : o.Proper) (hlength : a.items.length ≤ shape.fields.length) (h : shape.Binds o a) :
    shape.decode a.text = .ok x ↔ shape.decode o.text = .ok x := by
  have hnodes : (a.items.map ArrayText.nodeOf).length ≤ shape.fields.length := by
    rwa [List.length_map]
  rw [decode_objectText_eq_ok_iff ho, map_node_eq_named h.1 h.2,
    accepts_named_iff hapart (List.nil_append _).symm (by simp) hnodes, decode_eq_ok_iff,
    ArrayText.read_text ha]
  exact (and_iff_left rfl).trans (ofItems_eq_ok_iff.trans (and_iff_right rfl))

/-- The object that binds the first names to some values, without a blank. -/
def naming (shape : Shape ρ) (ts : List (List Char)) : ObjectText :=
  ⟨[], [], ((shape.fields.take ts.length).zip ts).map fun (f, t) => ⟨stringChars f.name, t⟩, []⟩

theorem key?_stringChars (name : String) (t : List Char) :
    MemberText.key? ⟨stringChars name, t⟩ = some name :=
  MemberText.key?_eq_some_iff.2
    ⟨_, [], (List.append_nil _).symm, Json.Reader.spells_stringChars name, blank_nil⟩

theorem proper_naming {ts : List (List Char)} (hts : ∀ t ∈ ts, (single? t).isSome = true) :
    (shape.naming ts).Proper := by
  refine ⟨blank_nil, blank_nil, blank_nil, fun m hm => ?_⟩
  obtain ⟨⟨f, t⟩, hmem, rfl⟩ := List.mem_map.1 hm
  exact ⟨by rw [key?_stringChars]; rfl, hts t (List.of_mem_zip hmem).2⟩

theorem binds_naming {a : ArrayText} (hlength : a.items.length ≤ shape.fields.length) :
    shape.Binds (shape.naming a.items) a := by
  have htake : (shape.fields.take a.items.length).length = a.items.length :=
    List.length_take_of_le hlength
  have hnames := congrArg (List.map fun f => some f.name) (List.map_fst_zip (Nat.le_of_eq htake))
  have hvalues := congrArg (List.map single?) (List.map_snd_zip (Nat.le_of_eq htake.symm))
  rw [List.map_map] at hnames hvalues
  rw [Binds, naming, List.map_map, List.map_map, ← hnames, ← hvalues]
  exact ⟨List.map_congr_left fun (f, t) _ => key?_stringChars f.name t, rfl⟩

/-- For every array of so many values as the shape has fields, or fewer, there is an object that
binds the names of the first fields to them, and every such object is decoded as the array is. -/
def FormsAgree (shape : Shape ρ) : Prop :=
  ∀ a : ArrayText, a.Proper → a.items.length ≤ shape.fields.length →
    (∃ o : ObjectText, o.Proper ∧ shape.Binds o a) ∧
      ∀ (o : ObjectText) (x : ρ), o.Proper → shape.Binds o a →
        (shape.decode a.text = .ok x ↔ shape.decode o.text = .ok x)

theorem formsAgree (hapart : shape.Apart) : shape.FormsAgree := fun _ ha hlength =>
  ⟨⟨_, proper_naming ha.items, binds_naming hlength⟩,
    fun _ _ ho h => decode_array_iff hapart ha ho hlength h⟩

end Shape

/-- Every record is decoded from an array of values for its first fields if, and only if, it is
decoded from an object that binds the names of those fields to the same values. -/
theorem records_by_position_or_name :
    ConnectionConfig.shape.FormsAgree ∧ SshTarget.shape.FormsAgree ∧ Task.shape.FormsAgree ∧
      BrokerSettings.shape.FormsAgree :=
  ⟨Shape.formsAgree ConnectionConfig.apart_shape, Shape.formsAgree SshTarget.apart_shape,
    Shape.formsAgree Task.apart_shape, Shape.formsAgree BrokerSettings.apart_shape⟩

/-- A target by position, up to the user name. -/
def SshTarget.threeItems : ArrayText :=
  ⟨[' '], [], [" \"h\"".toList, "2222".toList, "\"u\" ".toList], ['\n']⟩

theorem records_by_position_or_name_threeItems :
    SshTarget.threeItems.Proper ∧
      SshTarget.shape.decode SshTarget.threeItems.text = .ok ⟨"h", 2222, "u", .agent⟩ ∧
      SshTarget.shape.decode (SshTarget.shape.naming SshTarget.threeItems.items).text =
        .ok ⟨"h", 2222, "u", .agent⟩ := by
  have hproper : SshTarget.threeItems.Proper := by decide +kernel
  have hlength : SshTarget.threeItems.items.length ≤ SshTarget.shape.fields.length := by decide
  have hdecode :
      SshTarget.shape.decode SshTarget.threeItems.text = .ok ⟨"h", 2222, "u", .agent⟩ := by
    rw [Shape.decode, Document.read, ArrayText.text, String.toList_ofList]
    decide +kernel
  exact ⟨hproper, hdecode, ((records_by_position_or_name.2.1 _ hproper hlength).2 _ _
    (Shape.proper_naming hproper.items) (Shape.binds_naming hlength)).1 hdecode⟩

end ConnectionBroker
