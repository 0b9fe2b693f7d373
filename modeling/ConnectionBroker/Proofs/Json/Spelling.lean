import ConnectionBroker.Proofs.Json.Tokens

/-!
# The text of a value

A text that was read as a value once is read as that value wherever it stands (`Spells`), in two
steps for each of its characters. Texts put between commas and brackets make the text of an array
(`spells_array`), names and values the text of an object (`spells_object`), and whatever the reader
accepted is such a text (`sound`). An object's text comes apart into the texts of its members
(`exists_paired`), so its members can be moved about.

The induction is on the steps of the reader : what is sound with fewer steps is sound inside the
brackets.
-/

namespace ConnectionBroker.Json.Reader

variable {cs rest : List Char}

/-! ## Values -/

/-- The text is read as the node wherever it stands, in two steps a character. -/
def Spells (t : List Char) (n : Node) : Prop :=
  ∀ fuel rest, Stops rest → 2 * t.length ≤ fuel → value fuel (t ++ rest) = (n, some rest)

/-- The text of a value, and blanks after it. -/
def Padded (t : List Char) (n : Node) : Prop :=
  ∃ u b, t = u ++ b ∧ Spells u n ∧ Blank b

/-- The text of a string literal, with blanks around it. -/
def Literal (t : List Char) (n : Node) : Prop :=
  ∃ b u b', t = b ++ '"' :: u ++ b' ∧ Blank b ∧ Blank b' ∧
    ∀ rest, string (u ++ rest) = (n, some rest)

/-- The text of a member: a name and a value. -/
def Paired (t : List Char) (m : Node × Node) : Prop :=
  ∃ name v, t = name ++ ':' :: v ∧ Literal name m.1 ∧ Padded v m.2

/-- What a text is read as does not depend on the blanks before it. -/
theorem value_blank {b : List Char} (hb : Blank b) (fuel : Nat) (cs : List Char) :
    value fuel (b ++ cs) = value fuel cs := by
  cases fuel with
  | zero => rfl
  | succ fuel => rw [value, value, skipSpace_append hb]

theorem item_blank {b : List Char} (hb : Blank b) (fuel : Nat) (cs : List Char) :
    item fuel (b ++ cs) = item fuel cs := by
  cases fuel with
  | zero => rfl
  | succ fuel => rw [item, item, value_blank hb]

theorem member_blank {b : List Char} (hb : Blank b) (fuel : Nat) (cs : List Char) :
    member fuel (b ++ cs) = member fuel cs := by
  cases fuel with
  | zero => rfl
  | succ fuel => rw [member, member, skipSpace_append hb]

theorem Spells.blank_append {b t : List Char} {n : Node} (ht : Spells t n) (hb : Blank b) :
    Spells (b ++ t) n := by
  intro fuel rest hrest hfuel
  rw [List.append_assoc, value_blank hb]
  exact ht fuel rest hrest (by rw [List.length_append] at hfuel; omega)

/-- A token takes one step. -/
theorem spells_of_token {t : List Char} {n : Node} (ht : t ≠ [])
    (h : ∀ fuel rest, Stops rest → value (fuel + 1) (t ++ rest) = (n, some rest)) : Spells t n := by
  intro fuel rest hrest hfuel
  obtain ⟨fuel, rfl⟩ : ∃ f, fuel = f + 1 :=
    Nat.exists_eq_add_one_of_ne_zero fun hzero => ht (List.length_eq_zero_iff.1 (by omega))
  exact h fuel rest hrest

theorem ne_broken_of_value {fuel : Nat} {n : Node} (h : value fuel cs = (n, some rest)) :
    n ≠ .broken := by
  rintro rfl
  cases fuel with
  | zero => cases h
  | succ fuel =>
    rw [value] at h
    split at h
    case h_4 =>
      rw [string] at h
      split at h
      · cases h
      · split at h <;> cases h
    case h_7 =>
      split at h
      · obtain ⟨⟨k, hk⟩, -⟩ := exists_number h
        cases hk
      · cases h
    all_goals cases h

theorem Spells.ne_broken {t : List Char} {n : Node} (h : Spells t n) : n ≠ .broken :=
  ne_broken_of_value (h (2 * t.length) [] stops_nil (Nat.le_refl _))

theorem spells_string {u : List Char} {n : Node} (h : ∀ rest, string (u ++ rest) = (n, some rest)) :
    Spells ('"' :: u) n := by
  refine spells_of_token (List.cons_ne_nil _ _) fun fuel rest _ => ?_
  rw [List.cons_append, value, skipSpace_cons rfl]
  exact h rest

/-- A string is read where it was written. -/
theorem spells_stringChars (s : String) : Spells (stringChars s) (.string s) :=
  spells_string fun rest => by
    rw [List.append_assoc, List.singleton_append]
    exact string_escaped s

/-! ## Items and members -/

/-- Texts with a comma between each and the next. -/
def commas (ts : List (List Char)) : List Char :=
  [','].intercalate ts

theorem commas_cons (t u : List Char) (ts : List (List Char)) :
    commas (t :: u :: ts) = t ++ ',' :: commas (u :: ts) := by
  simp [commas, List.intercalate_cons_cons]

theorem commas_singleton (t : List Char) : commas [t] = t := by
  simp [commas]

theorem Padded.ne_broken {t : List Char} {n : Node} (h : Padded t n) : n ≠ .broken := by
  obtain ⟨u, b, rfl, hu, hb⟩ := h
  exact hu.ne_broken

/-- A value is read up to what follows it, be there blanks between or not. -/
theorem Padded.value {t : List Char} {n : Node} (h : Padded t n) {fuel : Nat} {c : Char}
    (hc : c ∈ [',', ']', '\x7d']) (hfuel : 2 * t.length ≤ fuel) (cs : List Char) :
    ∃ left, Reader.value fuel (t ++ c :: cs) = (n, some left) ∧ skipSpace left = c :: cs := by
  obtain ⟨u, b, rfl, hu, hb⟩ := h
  have hstops : Stops (c :: cs) := stops_cons (by revert hc; simp; tauto)
  refine ⟨b ++ c :: cs, ?_, ?_⟩
  · rw [List.append_assoc]
    exact hu fuel _ (stops_append hb hstops) (by rw [List.length_append] at hfuel; omega)
  · rw [skipSpace_append hb]
    refine skipSpace_cons ?_ cs
    simp only [List.mem_cons, List.not_mem_nil, or_false] at hc
    rcases hc with rfl | rfl | rfl <;> rfl

/-- An item is read up to the comma or the bracket behind it. -/
theorem item_of_value {fuel : Nat} {n : Node} {left : List Char} (hn : n ≠ .broken)
    (h : value fuel cs = (n, some left)) :
    (∀ rest, skipSpace left = ']' :: rest → item (fuel + 1) cs = ([n], some rest)) ∧
      ∀ rest, skipSpace left = ',' :: rest →
        item (fuel + 1) cs = (n :: (item fuel rest).1, (item fuel rest).2) := by
  constructor <;> intro rest hleft <;> simp only [item, h, hleft]

theorem item_of_padded {ts : List (List Char)} {ns : List Node} (h : List.Forall₂ Padded ts ns)
    (hne : ts ≠ []) {fuel : Nat} (hfuel : 2 * (commas ts).length + 1 ≤ fuel) (rest : List Char) :
    item fuel (commas ts ++ ']' :: rest) = (ns, some rest) := by
  induction h generalizing fuel with
  | nil => exact absurd rfl hne
  | @cons t n ts ns ht hts ih =>
    obtain ⟨fuel, rfl⟩ : ∃ f, fuel = f + 1 := ⟨fuel - 1, by omega⟩
    cases hts with
    | nil =>
      rw [commas_singleton] at hfuel ⊢
      obtain ⟨left, hvalue, hleft⟩ :=
        ht.value (c := ']') (by simp) (show 2 * t.length ≤ fuel by omega) rest
      exact (item_of_value ht.ne_broken hvalue).1 rest hleft
    | @cons u n' ts ns' hu hts =>
      rw [commas_cons, List.length_append, List.length_cons] at hfuel
      rw [commas_cons, List.append_assoc, List.cons_append]
      obtain ⟨left, hvalue, hleft⟩ := ht.value (c := ',') (by simp)
        (show 2 * t.length ≤ fuel by omega) (commas (u :: ts) ++ ']' :: rest)
      rw [(item_of_value ht.ne_broken hvalue).2 _ hleft, ih (List.cons_ne_nil _ _) (by omega)]

/-- A member is read up to the comma or the brace behind it. -/
theorem member_of_value {fuel : Nat} {u b cs left : List Char} {name n : Node}
    (hname : ∀ rest, string (u ++ rest) = (name, some rest)) (hb : Blank b)
    (h : value fuel cs = (n, some left)) :
    (∀ rest, skipSpace left = '\x7d' :: rest →
        member (fuel + 1) ('"' :: (u ++ (b ++ ':' :: cs))) = ([(name, n)], some rest)) ∧
      ∀ rest, skipSpace left = ',' :: rest →
        member (fuel + 1) ('"' :: (u ++ (b ++ ':' :: cs))) =
          ((name, n) :: (member fuel rest).1, (member fuel rest).2) := by
  constructor <;> intro rest hleft <;>
    simp only [member, skipSpace_cons (rfl : isSpace '"' = false), hname, skipSpace_append hb,
      skipSpace_cons (rfl : isSpace ':' = false), h, hleft]

theorem member_of_paired {ts : List (List Char)} {ms : List (Node × Node)}
    (h : List.Forall₂ Paired ts ms) (hne : ts ≠ []) {fuel : Nat}
    (hfuel : 2 * (commas ts).length + 1 ≤ fuel) (rest : List Char) :
    member fuel (commas ts ++ '\x7d' :: rest) = (ms, some rest) := by
  induction h generalizing fuel with
  | nil => exact absurd rfl hne
  | @cons t m ts ms ht hts ih =>
    obtain ⟨fuel, rfl⟩ : ∃ f, fuel = f + 1 := ⟨fuel - 1, by omega⟩
    obtain ⟨name, v, rfl, ⟨b, u, b', rfl, hb, hb', hname⟩, hv⟩ := ht
    cases hts with
    | nil =>
      rw [commas_singleton] at hfuel ⊢
      obtain ⟨left, hvalue, hleft⟩ := hv.value (c := '\x7d') (by simp)
        (show 2 * v.length ≤ fuel by simp at hfuel; omega) rest
      simp only [List.append_assoc, List.cons_append]
      rw [member_blank hb]
      exact (member_of_value hname hb' hvalue).1 rest hleft
    | @cons w m' ts ms' hw hts =>
      rw [commas_cons, List.length_append, List.length_cons] at hfuel
      rw [commas_cons]
      obtain ⟨left, hvalue, hleft⟩ := hv.value (c := ',') (by simp)
        (show 2 * v.length ≤ fuel by simp at hfuel; omega) (commas (w :: ts) ++ '\x7d' :: rest)
      simp only [List.append_assoc, List.cons_append]
      rw [member_blank hb, (member_of_value hname hb' hvalue).2 _ hleft,
        ih (List.cons_ne_nil _ _) (by omega)]

theorem item_bracket (fuel : Nat) (cs : List Char) : (item fuel (']' :: cs)).2 = none := by
  rcases fuel with _ | _ | fuel <;> rfl

theorem member_brace (fuel : Nat) (cs : List Char) : (member fuel ('\x7d' :: cs)).2 = none := by
  cases fuel <;> rfl

/-- The first item may stand behind blanks, but no bracket is one. -/
theorem firstItem_of_item {fuel : Nat} {ns : List Node} (h : item fuel cs = (ns, some rest)) :
    firstItem (fuel + 1) cs = (ns, some rest) := by
  obtain ⟨b, hb, hcs⟩ := exists_blank cs
  rw [hcs, item_blank hb] at h
  rw [firstItem]
  split
  · next heq =>
    rw [heq] at h
    exact absurd ((congrArg Prod.snd h).symm.trans (item_bracket fuel _)) (Option.some_ne_none _)
  · exact h

theorem firstMember_of_member {fuel : Nat} {ms : List (Node × Node)}
    (h : member fuel cs = (ms, some rest)) : firstMember (fuel + 1) cs = (ms, some rest) := by
  obtain ⟨b, hb, hcs⟩ := exists_blank cs
  rw [hcs, member_blank hb] at h
  rw [firstMember]
  split
  · next heq =>
    rw [heq] at h
    exact absurd ((congrArg Prod.snd h).symm.trans (member_brace fuel _)) (Option.some_ne_none _)
  · exact h

variable {b : List Char}

theorem spells_array {ts : List (List Char)} {ns : List Node} (h : List.Forall₂ Padded ts ns)
    (hb : Blank b) : Spells ('[' :: (b ++ (commas ts ++ [']']))) (.array ns true) := by
  intro fuel rest _ hfuel
  have hread : firstItem (fuel - 1) (b ++ (commas ts ++ ']' :: rest)) = (ns, some rest) := by
    obtain ⟨fuel, rfl⟩ : ∃ f, fuel = f + 2 := ⟨fuel - 2, by simp at hfuel; omega⟩
    cases h with
    | nil =>
      rw [Nat.add_succ_sub_one, firstItem, skipSpace_append hb]
      rfl
    | @cons t n ts ns ht hts =>
      refine firstItem_of_item ?_
      rw [item_blank hb]
      exact item_of_padded (.cons ht hts) (List.cons_ne_nil _ _) (by simp at hfuel; omega) rest
  obtain ⟨fuel, rfl⟩ : ∃ f, fuel = f + 1 := ⟨fuel - 1, by simp at hfuel; omega⟩
  rw [Nat.add_sub_cancel] at hread
  rw [List.cons_append, List.append_assoc, List.append_assoc, List.singleton_append, value,
    skipSpace_cons rfl]
  simp only [hread]
  rfl

theorem spells_object {ts : List (List Char)} {ms : List (Node × Node)}
    (h : List.Forall₂ Paired ts ms) (hb : Blank b) :
    Spells ('\x7b' :: (b ++ (commas ts ++ ['\x7d']))) (.object ms true) := by
  intro fuel rest _ hfuel
  have hread : firstMember (fuel - 1) (b ++ (commas ts ++ '\x7d' :: rest)) = (ms, some rest) := by
    obtain ⟨fuel, rfl⟩ : ∃ f, fuel = f + 2 := ⟨fuel - 2, by simp at hfuel; omega⟩
    cases h with
    | nil =>
      rw [Nat.add_succ_sub_one, firstMember, skipSpace_append hb]
      rfl
    | @cons t n ts ns ht hts =>
      refine firstMember_of_member ?_
      rw [member_blank hb]
      exact member_of_paired (.cons ht hts) (List.cons_ne_nil _ _) (by simp at hfuel; omega) rest
  obtain ⟨fuel, rfl⟩ : ∃ f, fuel = f + 1 := ⟨fuel - 1, by simp at hfuel; omega⟩
  rw [Nat.add_sub_cancel] at hread
  rw [List.cons_append, List.append_assoc, List.append_assoc, List.singleton_append, value,
    skipSpace_cons rfl]
  simp only [hread]
  rfl

/-! ## What was read -/

/-- With so many steps, what is read is the text of the value. -/
def Sound (fuel : Nat) : Prop :=
  ∀ cs n rest, value fuel cs = (n, some rest) → ∃ t, cs = t ++ rest ∧ Spells t n

theorem exists_padded_items {fuel : Nat} (hsound : ∀ f < fuel, Sound f) {ns : List Node}
    (h : item fuel cs = (ns, some rest)) :
    ∃ ts, ts ≠ [] ∧ List.Forall₂ Padded ts ns ∧ cs = commas ts ++ ']' :: rest := by
  induction fuel generalizing cs ns with
  | zero => cases h
  | succ fuel ih =>
    rw [item] at h
    split at h
    · cases h
    · cases h
    · next n left hn hvalue =>
      obtain ⟨u, rfl, hu⟩ := hsound fuel (Nat.lt_succ_self _) _ _ _ hvalue
      obtain ⟨b, hb, hleft⟩ := exists_blank left
      split at h
      · next rest' heq =>
        cases h
        refine ⟨[u ++ b], List.cons_ne_nil _ _, .cons ⟨u, b, rfl, hu, hb⟩ .nil, ?_⟩
        rw [commas_singleton, hleft, heq, List.append_assoc]
      · next rest' heq =>
        cases hitems : item fuel rest' with
        | mk ns' after =>
          rw [hitems] at h
          cases h
          obtain ⟨ts, hne, hts, rfl⟩ := ih (fun f hf => hsound f (by omega)) hitems
          obtain ⟨t, ts, rfl⟩ := List.exists_cons_of_ne_nil hne
          refine ⟨(u ++ b) :: t :: ts, List.cons_ne_nil _ _, .cons ⟨u, b, rfl, hu, hb⟩ hts, ?_⟩
          rw [commas_cons, hleft, heq]
          simp
      · cases h

/-- A member up to what follows the blanks behind it. -/
theorem exists_paired_of_value {fuel : Nat} (hsound : Sound fuel) {cs₁ cs₂ cs₃ left : List Char}
    {name n : Node} (hquote : skipSpace cs = '"' :: cs₁) (hname : string cs₁ = (name, some cs₂))
    (hcolon : skipSpace cs₂ = ':' :: cs₃) (hvalue : value fuel cs₃ = (n, some left)) :
    ∃ t, Paired t (name, n) ∧ cs = t ++ skipSpace left := by
  obtain ⟨b, hb, hcs⟩ := exists_blank cs
  obtain ⟨u, rfl, hu⟩ := exists_string hname
  obtain ⟨b₂, hb₂, hcs₂⟩ := exists_blank cs₂
  obtain ⟨v, rfl, hv⟩ := hsound _ _ _ hvalue
  obtain ⟨b₄, hb₄, hleft⟩ := exists_blank left
  refine ⟨(b ++ '"' :: u ++ b₂) ++ ':' :: (v ++ b₄),
    ⟨_, _, rfl, ⟨b, u, b₂, rfl, hb, hb₂, hu⟩, v, b₄, rfl, hv, hb₄⟩, ?_⟩
  rw [hcs, hquote, hcs₂, hcolon]
  simpa using hleft

theorem exists_paired_members {fuel : Nat} (hsound : ∀ f < fuel, Sound f)
    {ms : List (Node × Node)} (h : member fuel cs = (ms, some rest)) :
    ∃ ts, ts ≠ [] ∧ List.Forall₂ Paired ts ms ∧ cs = commas ts ++ '\x7d' :: rest := by
  induction fuel generalizing cs ms with
  | zero => cases h
  | succ fuel ih =>
    rw [member] at h
    split at h
    · next cs₁ hquote =>
      split at h
      · next name cs₂ hname =>
        split at h
        · next cs₃ hcolon =>
          split at h
          · cases h
          · next n left hvalue =>
            obtain ⟨t, ht, rfl⟩ :=
              exists_paired_of_value (hsound fuel (Nat.lt_succ_self _)) hquote hname hcolon hvalue
            split at h
            · next cs₅ hbrace =>
              cases h
              refine ⟨[t], List.cons_ne_nil _ _, .cons ht .nil, ?_⟩
              rw [commas_singleton, hbrace]
            · next cs₅ hcomma =>
              cases hmembers : member fuel cs₅ with
              | mk ms' after =>
                rw [hmembers] at h
                cases h
                obtain ⟨ts, hne, hts, rfl⟩ := ih (fun f hf => hsound f (by omega)) hmembers
                obtain ⟨t', ts, rfl⟩ := List.exists_cons_of_ne_nil hne
                refine ⟨t :: t' :: ts, List.cons_ne_nil _ _, .cons ht hts, ?_⟩
                rw [commas_cons, hcomma]
                simp
            · cases h
        · cases h
      · cases h
    · cases h

theorem exists_padded {fuel : Nat} (hsound : ∀ f < fuel, Sound f) {ns : List Node}
    (h : firstItem fuel cs = (ns, some rest)) :
    ∃ b ts, Blank b ∧ List.Forall₂ Padded ts ns ∧ cs = b ++ (commas ts ++ ']' :: rest) := by
  obtain ⟨b, hb, hcs⟩ := exists_blank cs
  cases fuel with
  | zero => cases h
  | succ fuel =>
    rw [firstItem] at h
    split at h
    · next heq =>
      cases h
      exact ⟨b, [], hb, .nil, hcs.trans (congrArg (b ++ ·) heq)⟩
    · obtain ⟨ts, -, hts, heq⟩ := exists_padded_items (fun f hf => hsound f (by omega)) h
      exact ⟨b, ts, hb, hts, hcs.trans (congrArg (b ++ ·) heq)⟩

theorem exists_paired {fuel : Nat} (hsound : ∀ f < fuel, Sound f) {ms : List (Node × Node)}
    (h : firstMember fuel cs = (ms, some rest)) :
    ∃ b ts, Blank b ∧ List.Forall₂ Paired ts ms ∧ cs = b ++ (commas ts ++ '\x7d' :: rest) := by
  obtain ⟨b, hb, hcs⟩ := exists_blank cs
  cases fuel with
  | zero => cases h
  | succ fuel =>
    rw [firstMember] at h
    split at h
    · next heq =>
      cases h
      exact ⟨b, [], hb, .nil, hcs.trans (congrArg (b ++ ·) heq)⟩
    · obtain ⟨ts, -, hts, heq⟩ := exists_paired_members (fun f hf => hsound f (by omega)) h
      exact ⟨b, ts, hb, hts, hcs.trans (congrArg (b ++ ·) heq)⟩

/-- A value is read off a text without blanks in front. -/
theorem sound_of_forall_lt {fuel : Nat} (hsound : ∀ f < fuel, Sound f) : Sound fuel := by
  intro cs n rest h
  cases fuel with
  | zero => cases h
  | succ fuel =>
    obtain ⟨b, hb, hcs⟩ := exists_blank cs
    -- It is enough to look at the text behind the blanks.
    suffices hread : ∃ t, skipSpace cs = t ++ rest ∧ Spells t n by
      obtain ⟨t, ht, hspells⟩ := hread
      exact ⟨b ++ t, by rw [List.append_assoc, ← ht, ← hcs], hspells.blank_append hb⟩
    have hlower : ∀ f < fuel, Sound f := fun f hf => hsound f (by omega)
    rw [value] at h
    split at h
    case h_1 heq =>
      cases h
      exact ⟨['n', 'u', 'l', 'l'], heq, spells_of_token (List.cons_ne_nil _ _) fun _ _ _ => rfl⟩
    case h_2 heq =>
      cases h
      exact ⟨['t', 'r', 'u', 'e'], heq, spells_of_token (List.cons_ne_nil _ _) fun _ _ _ => rfl⟩
    case h_3 heq =>
      cases h
      exact ⟨['f', 'a', 'l', 's', 'e'], heq,
        spells_of_token (List.cons_ne_nil _ _) fun _ _ _ => rfl⟩
    case h_4 cs₁ heq =>
      obtain ⟨u, rfl, hu⟩ := exists_string h
      exact ⟨'"' :: u, heq, spells_string hu⟩
    case h_5 cs₁ heq =>
      cases hitems : firstItem fuel cs₁ with
      | mk ns after =>
        rw [hitems] at h
        cases h
        obtain ⟨b₁, ts, hb₁, hts, rfl⟩ := exists_padded hlower hitems
        exact ⟨_, by rw [heq]; simp, spells_array hts hb₁⟩
    case h_6 cs₁ heq =>
      cases hmembers : firstMember fuel cs₁ with
      | mk ms after =>
        rw [hmembers] at h
        cases h
        obtain ⟨b₁, ts, hb₁, hts, rfl⟩ := exists_paired hlower hmembers
        exact ⟨_, by rw [heq]; simp, spells_object hts hb₁⟩
    case h_7 heq =>
      split at h
      · obtain ⟨-, c, t, hc, hcs', hread⟩ := exists_number h
        refine ⟨c :: t, heq.trans hcs', spells_of_token (List.cons_ne_nil _ _) ?_⟩
        intro fuel rest' hrest
        rw [List.cons_append, value_of_digit hc, ← List.cons_append]
        exact hread rest' hrest
      · cases h
    case h_8 => cases h

theorem sound (fuel : Nat) : Sound fuel :=
  Nat.strongRecOn fuel fun _ ih => sound_of_forall_lt ih

end ConnectionBroker.Json.Reader
