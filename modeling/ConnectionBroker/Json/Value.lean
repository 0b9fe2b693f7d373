/-!
# JSON values

A `Json` value, with objects as lists of members in the order of their names. Numbers are exact:
an integer is kept apart from a decimal, which has a fraction, an exponent, a minus before zero,
or more digits than the 64-bit integers have.

`Json.normal` puts every object into canonical form: members in strictly ascending order of
name, the last of several members of one name standing for all of them. `canonical_normal` says
that the result is canonical and `normal_of_canonical` that nothing else is changed.
-/

namespace ConnectionBroker

/-- A JSON number: an integer, or `± digits · 10 ^ scale`. -/
inductive Number where
  | int (value : Int)
  | decimal (negative : Bool) (digits : Nat) (scale : Int)
  deriving DecidableEq, Repr

/-- A JSON value. -/
inductive Json where
  | null
  | bool (b : Bool)
  | number (n : Number)
  | string (s : String)
  | array (items : List Json)
  | object (members : List (String × Json))
  deriving Repr

namespace Json

/-- A whole number as a value. -/
def ofNat (n : Nat) : Json :=
  .number (.int n)

/-- The text of a string value. -/
def text? : Json → Option String
  | .string s => some s
  | _ => none

/-- The value of the named member: the last one of that name. -/
def member? (name : String) : Json → Option Json
  | .object members => (members.findRev? (·.1 == name)).map (·.2)
  | _ => none

/-! ## Canonical objects -/

/-- The names are strictly ascending. -/
def Ascending (members : List (String × Json)) : Prop :=
  members.Pairwise fun a b => a.1 < b.1

/-- Sets one member, keeping the members in ascending order of name. -/
def setMember (name : String) (v : Json) : List (String × Json) → List (String × Json)
  | [] => [(name, v)]
  | (k, w) :: rest =>
    if name < k then (name, v) :: (k, w) :: rest
    else if name = k then (name, v) :: rest
    else (k, w) :: setMember name v rest

mutual

/-- The value with every object in canonical form. -/
def normal : Json → Json
  | .null => .null
  | .bool b => .bool b
  | .number n => .number n
  | .string s => .string s
  | .array items => .array (normalItems items)
  | .object members => .object (normalMembers members [])
termination_by structural v => v

/-- Every item in canonical form. -/
def normalItems : List Json → List Json
  | [] => []
  | v :: rest => v.normal :: normalItems rest
termination_by structural items => items

/-- The members, each in canonical form, set one after the other over the members given. -/
def normalMembers : List (String × Json) → List (String × Json) → List (String × Json)
  | [], set => set
  | m :: rest, set => normalMembers rest (setMember (normalMember m).1 (normalMember m).2 set)
termination_by structural members => members

/-- One member with its value in canonical form. -/
def normalMember : String × Json → String × Json
  | (name, v) => (name, v.normal)
termination_by structural member => member

end

mutual

/-- Every object within the value has its members in strictly ascending order of name. -/
def Canonical : Json → Prop
  | .null => True
  | .bool _ => True
  | .number _ => True
  | .string _ => True
  | .array items => CanonicalItems items
  | .object members => Ascending members ∧ CanonicalMembers members
termination_by structural v => v

/-- Every item is canonical. -/
def CanonicalItems : List Json → Prop
  | [] => True
  | v :: rest => v.Canonical ∧ CanonicalItems rest
termination_by structural items => items

/-- Every member is canonical. -/
def CanonicalMembers : List (String × Json) → Prop
  | [] => True
  | m :: rest => CanonicalMember m ∧ CanonicalMembers rest
termination_by structural members => members

/-- The member's value is canonical. -/
def CanonicalMember : String × Json → Prop
  | (_, v) => v.Canonical
termination_by structural member => member

end

theorem mem_setMember {name : String} {v : Json} {members : List (String × Json)}
    {m : String × Json} (h : m ∈ setMember name v members) : m = (name, v) ∨ m ∈ members := by
  induction members with
  | nil => simpa [setMember] using h
  | cons head rest ih =>
    obtain ⟨k, w⟩ := head
    rw [setMember] at h
    split at h
    · simpa using h
    · split at h
      · rcases List.mem_cons.1 h with h | h
        · exact .inl h
        · exact .inr (List.mem_cons_of_mem _ h)
      · rcases List.mem_cons.1 h with h | h
        · exact .inr (by simp [h])
        · exact (ih h).imp id (List.mem_cons_of_mem _)

theorem ascending_setMember {name : String} {v : Json} {members : List (String × Json)}
    (h : Ascending members) : Ascending (setMember name v members) := by
  induction members with
  | nil => simp [setMember, Ascending]
  | cons head rest ih =>
    obtain ⟨k, w⟩ := head
    obtain ⟨hk, hrest⟩ := List.pairwise_cons.1 h
    rw [setMember]
    split
    · next hlt =>
      refine List.pairwise_cons.2 ⟨?_, h⟩
      intro m hm
      rcases List.mem_cons.1 hm with rfl | hm
      · exact hlt
      · exact String.lt_trans hlt (hk m hm)
    · next hlt =>
      split
      · next heq =>
        subst heq
        exact List.pairwise_cons.2 ⟨hk, hrest⟩
      · next hne =>
        refine List.pairwise_cons.2 ⟨?_, ih hrest⟩
        intro m hm
        rcases mem_setMember hm with rfl | hm
        · rcases String.le_total name k with hle | hle
          · exact absurd (String.le_antisymm hle (String.not_lt.1 hlt)) hne
          · exact String.not_le.1 fun hle' => hne (String.le_antisymm hle' hle)
        · exact hk m hm

theorem canonicalMembers_setMember {name : String} {v : Json} {members : List (String × Json)}
    (hv : v.Canonical) (h : CanonicalMembers members) :
    CanonicalMembers (setMember name v members) := by
  induction members with
  | nil => exact ⟨hv, trivial⟩
  | cons head rest ih =>
    obtain ⟨k, w⟩ := head
    rw [setMember]
    split
    · exact ⟨hv, h⟩
    · split
      · exact ⟨hv, h.2⟩
      · exact ⟨h.1, ih h.2⟩

mutual

/-- Normal form is canonical. -/
theorem canonical_normal : ∀ v : Json, v.normal.Canonical
  | .null => trivial
  | .bool _ => trivial
  | .number _ => trivial
  | .string _ => trivial
  | .array items => canonicalItems_normal items
  | .object members => canonicalMembers_normal members [] (by simp [Ascending]) trivial
termination_by structural v => v

theorem canonicalItems_normal : ∀ items : List Json, CanonicalItems (normalItems items)
  | [] => trivial
  | v :: rest => ⟨canonical_normal v, canonicalItems_normal rest⟩
termination_by structural items => items

theorem canonicalMembers_normal : ∀ members set : List (String × Json),
    Ascending set → CanonicalMembers set →
      Ascending (normalMembers members set) ∧ CanonicalMembers (normalMembers members set)
  | [], _, ha, hc => ⟨ha, hc⟩
  | m :: rest, _, ha, hc =>
    canonicalMembers_normal rest _ (ascending_setMember ha)
      (canonicalMembers_setMember (canonicalMember_normal m) hc)
termination_by structural members => members

theorem canonicalMember_normal : ∀ m : String × Json, (normalMember m).2.Canonical
  | (_, v) => canonical_normal v
termination_by structural m => m

end

/-- A name above all others is set at the end. -/
theorem setMember_of_forall_lt {name : String} {v : Json} {members : List (String × Json)}
    (h : ∀ m ∈ members, m.1 < name) : setMember name v members = members ++ [(name, v)] := by
  induction members with
  | nil => rfl
  | cons head rest ih =>
    obtain ⟨k, w⟩ := head
    have hk : k < name := h (k, w) (by simp)
    have hne : ¬name = k := fun he => String.lt_irrefl k (he ▸ hk)
    rw [setMember, if_neg (String.lt_asymm hk), if_neg hne, ih fun m hm => h m (by simp [hm])]
    rfl

mutual

/-- A canonical value is its own normal form. -/
theorem normal_of_canonical : ∀ v : Json, v.Canonical → v.normal = v
  | .null, _ => rfl
  | .bool _, _ => rfl
  | .number _, _ => rfl
  | .string _, _ => rfl
  | .array items, h => congrArg Json.array (normalItems_of_canonical items h)
  | .object members, h => by
    have := normalMembers_of_canonical members [] h.2 (by simpa using h.1)
    simpa [normal] using this
termination_by structural v => v

theorem normalItems_of_canonical : ∀ items : List Json, CanonicalItems items →
    normalItems items = items
  | [], _ => rfl
  | v :: rest, h => by
    rw [normalItems, normal_of_canonical v h.1, normalItems_of_canonical rest h.2]
termination_by structural items => items

theorem normalMembers_of_canonical : ∀ members set : List (String × Json),
    CanonicalMembers members → Ascending (set ++ members) →
      normalMembers members set = set ++ members
  | [], set, _, _ => by simp [normalMembers]
  | m :: rest, set, h, ha => by
    have hm : normalMember m = m := normalMember_of_canonical m h.1
    have hlt : ∀ s ∈ set, s.1 < m.1 := fun s hs =>
      (List.pairwise_append.1 ha).2.2 s hs m (by simp)
    rw [normalMembers, hm, setMember_of_forall_lt hlt,
      normalMembers_of_canonical rest _ h.2 (by simpa using ha)]
    simp
termination_by structural members => members

theorem normalMember_of_canonical : ∀ m : String × Json, CanonicalMember m → normalMember m = m
  | (name, v), h => by rw [normalMember, normal_of_canonical v h]
termination_by structural m => m

end

end Json

end ConnectionBroker
