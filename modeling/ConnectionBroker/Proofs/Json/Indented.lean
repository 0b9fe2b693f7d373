import ConnectionBroker.Proofs.Json.Layout

/-!
# Indented texts are read back

The indented text of a value has the same parts as the compact one, with line breaks and spaces
around them, so it spells the same value (`Json.Reader.spells_prettyChars`) : what is between the
brackets of an array is a row of texts between commas, each of them an item with blanks around it,
and an object is the same with names. What a scalar spells is known from its compact text.
-/

namespace ConnectionBroker

namespace Json.Reader

/-- What is read to its end is read so wherever it stands. -/
theorem spells_of_value {t : List Char} {n : Node} {fuel : Nat} (h : value fuel t = (n, some [])) :
    Spells t n := by
  obtain ⟨u, hu, hspells⟩ := sound fuel t n [] h
  rw [List.append_nil] at hu
  exact hu ▸ hspells

/-- The compact text of a value without decimals spells it. -/
theorem spells_compactChars {v : Json} (h : v.Integral) :
    Spells v.compactChars (Node.ofValue v) := by
  have hread := reads v h (2 * v.compactChars.length) [] ends_nil (Nat.le_refl _)
  rw [List.append_nil] at hread
  exact spells_of_value hread

theorem blank_newline (level : Nat) : Blank (newline level) := by
  intro c hc
  rcases List.mem_cons.1 hc with rfl | hc
  · rfl
  · rw [List.eq_of_mem_replicate hc]
    rfl

variable {level : Nat}

/-- A line with an item on it, and what stands behind that. -/
theorem padded_line {v : Json} (hv : Spells (prettyChars (level + 1) v) (Node.ofValue v))
    {b : List Char} (hb : Blank b) :
    Padded (newline (level + 1) ++ prettyChars (level + 1) v ++ b) (Node.ofValue v) :=
  ⟨_, b, rfl, hv.blank_append (blank_newline _), hb⟩

/-- The lines of an array's items are the items between commas, and the bracket. -/
theorem exists_prettyItems {v : Json} {items : List Json}
    (hv : Spells (prettyChars (level + 1) v) (Node.ofValue v))
    (hitems : ∀ w ∈ items, Spells (prettyChars (level + 1) w) (Node.ofValue w)) :
    ∃ ts, ts ≠ [] ∧ List.Forall₂ Padded ts (Node.ofItems (v :: items)) ∧
      newline (level + 1) ++ prettyChars (level + 1) v ++ prettyItems level items =
        commas ts ++ [']'] := by
  induction items generalizing v with
  | nil =>
    refine ⟨[_], List.cons_ne_nil _ _, .cons (padded_line hv (blank_newline level)) .nil, ?_⟩
    rw [commas_singleton, prettyItems, List.append_assoc _ (newline level)]
  | cons w items ih =>
    obtain ⟨hw, hitems⟩ := List.forall_mem_cons.1 hitems
    obtain ⟨ts, hne, hts, htext⟩ := ih hw hitems
    obtain ⟨u, ts, rfl⟩ := List.exists_cons_of_ne_nil hne
    refine ⟨_ :: u :: ts, List.cons_ne_nil _ _, .cons (padded_line hv blank_nil) hts, ?_⟩
    rw [commas_cons, prettyItems, htext]
    simp

/-- A line with a member on it, and what stands behind that. -/
theorem paired_line {name : String} {v : Json}
    (hv : Spells (prettyChars (level + 1) v) (Node.ofValue v)) {b : List Char} (hb : Blank b) :
    Paired (newline (level + 1) ++ prettyMember (level + 1) (name, v) ++ b)
      (Node.ofMember (name, v)) := by
  have hname : Padded (newline (level + 1) ++ stringChars name) (.string name) :=
    ⟨_, [], (List.append_nil _).symm,
      (spells_stringChars name).blank_append (blank_newline _), blank_nil⟩
  have hspace : Blank [' '] := by decide
  refine ⟨newline (level + 1) ++ stringChars name, ' ' :: prettyChars (level + 1) v ++ b, ?_,
    literal_of_padded hname, _, b, rfl, hv.blank_append hspace, hb⟩
  simp [prettyMember]

/-- The lines of an object's members are the members between commas, and the brace. -/
theorem exists_prettyMembers {m : String × Json} {members : List (String × Json)}
    (hm : Spells (prettyChars (level + 1) m.2) (Node.ofValue m.2))
    (hmembers : ∀ w ∈ members, Spells (prettyChars (level + 1) w.2) (Node.ofValue w.2)) :
    ∃ ts, ts ≠ [] ∧ List.Forall₂ Paired ts (Node.ofMembers (m :: members)) ∧
      newline (level + 1) ++ prettyMember (level + 1) m ++ prettyMembers level members =
        commas ts ++ ['\x7d'] := by
  induction members generalizing m with
  | nil =>
    refine ⟨[_], List.cons_ne_nil _ _, .cons (paired_line hm (blank_newline level)) .nil, ?_⟩
    rw [commas_singleton, prettyMembers, List.append_assoc _ (newline level)]
  | cons w members ih =>
    obtain ⟨hw, hmembers⟩ := List.forall_mem_cons.1 hmembers
    obtain ⟨ts, hne, hts, htext⟩ := ih hw hmembers
    obtain ⟨u, ts, rfl⟩ := List.exists_cons_of_ne_nil hne
    refine ⟨_ :: u :: ts, List.cons_ne_nil _ _, .cons (paired_line hm blank_nil) hts, ?_⟩
    rw [commas_cons, prettyMembers, htext]
    simp

mutual

/-- The indented text of a value without decimals spells it. -/
theorem spells_prettyChars : ∀ (level : Nat) (v : Json), v.Integral →
    Spells (prettyChars level v) (Node.ofValue v)
  | _, .null, h => spells_compactChars h
  | _, .bool true, h => spells_compactChars h
  | _, .bool false, h => spells_compactChars h
  | _, .number _, h => spells_compactChars h
  | _, .string _, h => spells_compactChars h
  | _, .array [], _ => spells_array .nil blank_nil
  | level, .array (v :: items), h => by
    obtain ⟨ts, -, hts, htext⟩ := exists_prettyItems (spells_prettyChars (level + 1) v h.1)
      (spells_prettyItems (level + 1) items h.2)
    rw [prettyChars, htext]
    exact spells_array hts blank_nil
  | _, .object [], _ => spells_object .nil blank_nil
  | level, .object (m :: members), h => by
    obtain ⟨ts, -, hts, htext⟩ := exists_prettyMembers (spells_prettyMember (level + 1) m h.1)
      (spells_prettyMembers (level + 1) members h.2)
    rw [prettyChars, htext]
    exact spells_object hts blank_nil
termination_by structural _ v => v

theorem spells_prettyItems : ∀ (level : Nat) (items : List Json), IntegralItems items →
    ∀ w ∈ items, Spells (prettyChars level w) (Node.ofValue w)
  | _, [], _, _, hw => absurd hw List.not_mem_nil
  | level, v :: rest, h, w, hw =>
    (List.mem_cons.1 hw).elim (fun heq => heq ▸ spells_prettyChars level v h.1)
      (spells_prettyItems level rest h.2 w)
termination_by structural _ items => items

theorem spells_prettyMembers : ∀ (level : Nat) (members : List (String × Json)),
    IntegralMembers members → ∀ w ∈ members, Spells (prettyChars level w.2) (Node.ofValue w.2)
  | _, [], _, _, hw => absurd hw List.not_mem_nil
  | level, m :: rest, h, w, hw =>
    (List.mem_cons.1 hw).elim (fun heq => heq ▸ spells_prettyMember level m h.1)
      (spells_prettyMembers level rest h.2 w)
termination_by structural _ members => members

theorem spells_prettyMember : ∀ (level : Nat) (m : String × Json), IntegralMember m →
    Spells (prettyChars level m.2) (Node.ofValue m.2)
  | level, (_, v), h => spells_prettyChars level v h
termination_by structural _ m => m

end

end Json.Reader

/-- The indented text of a value without decimals is read as the value and nothing else. -/
theorem Document.read_pretty {v : Json} (h : v.Integral) :
    read v.pretty = ⟨Node.ofValue v, false⟩ :=
  read_of_padded
    ⟨_, [], (List.append_nil _).symm, Json.Reader.spells_prettyChars 0 v h,
      Json.Reader.blank_nil⟩

end ConnectionBroker
