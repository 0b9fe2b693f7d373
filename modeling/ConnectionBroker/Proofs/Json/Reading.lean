import Mathlib.Data.List.Basic
import ConnectionBroker.Json.Printer
import ConnectionBroker.Json.Reader

/-!
# What was written is read back

The compact text of a value is read as the value (`Document.read_compact`), as long as its numbers
are integers of 64 bits (`Json.Integral`) : a decimal may be written in another way than it was
given. Each part of the reader takes its own part off the front of a text and leaves the rest, so
what is proved of it holds whatever follows; only after a number something has to follow that does
not go on with it (`Ends`).

The reader counts its steps. A value takes at most two of them for each character of its text
(`Reads`), and `Json.Reader.enough` gives more.
-/

namespace ConnectionBroker

/-- The number is an integer that fits 64 bits, signed or unsigned. -/
def Number.FitsWord : Number → Prop
  | .int i => -(Nat.pow 2 63 : Nat) ≤ i ∧ i < (Nat.pow 2 64 : Nat)
  | .decimal _ _ _ => False

namespace Json

namespace Reader

variable {rest : List Char}

/-! ## Strings -/

/-- What a character of a string is read as, once it is written. -/
def pieceOf (c : Char) : Piece :=
  if c.toNat < 0x20 ∧ c ∉ ['\x08', '\t', '\n', '\x0c', '\r'] then .unit c.toNat else .char c

/-- What goes before the pieces of a literal. -/
theorem pieces?_escape {c d : Char} (h : escape? c = some d) (cs : List Char) :
    pieces? ('\\' :: c :: cs) = (pieces? cs).map fun p => (.char d :: p.1, p.2) := by
  have hu : c ≠ 'u' := by
    rintro rfl
    cases h
  rw [pieces?.eq_4 c cs fun _ _ _ _ _ hc _ => hu hc, h]
  cases pieces? cs <;> rfl

theorem pieces?_control {n : Nat} (h : n < 0x20) (cs : List Char) :
    pieces? ('\\' :: 'u' :: '0' :: '0' :: (twoHexDigits n ++ cs)) =
      (pieces? cs).map fun p => (.unit n :: p.1, p.2) := by
  have digits : ∀ n ∈ List.range 0x20,
      unit? '0' '0' (Nat.digitChar (n / 16)) (Nat.digitChar (n % 16)) = some n := by decide
  simp only [twoHexDigits, List.cons_append, List.nil_append, pieces?,
    digits n (List.mem_range.2 h)]
  cases pieces? cs <;> rfl

theorem pieces?_plain {c : Char} (hquote : c ≠ '"') (hslash : c ≠ '\\') (h : ¬c.toNat < 0x20)
    (cs : List Char) :
    pieces? (c :: cs) = (pieces? cs).map fun p => (.char c :: p.1, p.2) := by
  rw [pieces?.eq_5 c cs hquote (fun _ _ _ _ _ hc _ => hslash hc) fun _ _ hc _ => hslash hc,
    if_neg h]
  cases pieces? cs <;> rfl

/-- A character is read as it was written, whether or not it was escaped. -/
theorem pieces?_escapeChar (c : Char) (cs : List Char) :
    pieces? (escapeChar c ++ cs) = (pieces? cs).map fun p => (pieceOf c :: p.1, p.2) := by
  unfold escapeChar
  split
  case h_8 hquote hslash hback htab hline hfeed hreturn =>
    split
    · rename_i hlow
      have hnamed : c ∉ ['\x08', '\t', '\n', '\x0c', '\r'] := by
        simp only [List.mem_cons, List.not_mem_nil, or_false, not_or]
        exact ⟨hback, htab, hline, hfeed, hreturn⟩
      have hpiece : pieceOf c = .unit c.toNat := if_pos ⟨hlow, hnamed⟩
      rw [hpiece]
      exact pieces?_control hlow cs
    · rename_i hhigh
      have hpiece : pieceOf c = .char c := by simp [pieceOf, hhigh]
      rw [hpiece]
      exact pieces?_plain hquote hslash hhigh cs
  all_goals exact pieces?_escape rfl cs

theorem pieces?_flatMap (cs : List Char) :
    pieces? (cs.flatMap escapeChar ++ '"' :: rest) = some (cs.map pieceOf, rest) := by
  induction cs with
  | nil => rw [List.flatMap_nil, List.nil_append, pieces?, List.map_nil]
  | cons c cs ih =>
    rw [List.flatMap_cons, List.append_assoc, pieces?_escapeChar, ih, Option.map_some,
      List.map_cons]

/-- A unit that is no half of a surrogate pair is a character by itself. -/
theorem join?_unit {n : Nat} (h : n < 0xd800) (ps : List Piece) :
    join? (.unit n :: ps) = (join? ps).map (Char.ofNat n :: ·) := by
  have hhigh : isHigh n = false := by simp [isHigh, Nat.not_le.2 h]
  have hlow : isLow n = false := by
    have hlt : n < 0xdc00 := Nat.lt_trans h (by decide)
    simp [isLow, Nat.not_le.2 hlt]
  rcases ps with _ | ⟨c | low, ps⟩ <;> simp [join?, hhigh, hlow]

theorem join?_map_pieceOf (cs : List Char) : join? (cs.map pieceOf) = some cs := by
  induction cs with
  | nil => rfl
  | cons c cs ih =>
    rw [List.map_cons, pieceOf]
    split
    · rename_i hcontrol
      have hlow : c.toNat < 0xd800 := Nat.lt_trans hcontrol.1 (by decide)
      rw [join?_unit hlow, ih, Option.map_some, Char.ofNat_toNat]
    · rw [join?, ih, Option.map_some]

/-- A string is read as it was written. -/
theorem string_escaped (s : String) :
    string (s.toList.flatMap escapeChar ++ '"' :: rest) = (.string s, some rest) := by
  simp only [string, pieces?_flatMap, join?_map_pieceOf, String.ofList_toList]

/-! ## Numbers -/

/-- The text ends here, or goes on with what may follow a value. -/
def Ends (cs : List Char) : Prop :=
  ∀ c ∈ cs.head?, c = ',' ∨ c = ']' ∨ c = '\x7d'

theorem ends_nil : Ends [] := by simp [Ends]

/-- The text does not begin with a digit. -/
def NoDigit (cs : List Char) : Prop :=
  ∀ c ∈ cs.head?, c.isDigit = false

theorem Ends.noDigit (h : Ends rest) : NoDigit rest := by
  intro c hc
  rcases h c hc with rfl | rfl | rfl <;> rfl

theorem digits_append {ds : List Char} (hds : ∀ c ∈ ds, c.isDigit = true) (h : NoDigit rest) :
    digits (ds ++ rest) = (ds, rest) := by
  have hstop : rest.takeWhile Char.isDigit = [] ∧ rest.dropWhile Char.isDigit = rest := by
    cases rest with
    | nil => exact ⟨rfl, rfl⟩
    | cons c cs => simp [h c rfl]
  rw [digits, List.takeWhile_append_of_pos hds, List.dropWhile_append_of_pos hds, hstop.1, hstop.2,
    List.append_nil]

/-- The digits of a number do not begin with a zero, unless it is the only one. -/
theorem toDigits_eq_zero_or (n : Nat) :
    Nat.toDigits 10 n = ['0'] ∨ ∃ d ds, Nat.toDigits 10 n = d :: ds ∧ d ≠ '0' := by
  induction n using Nat.strongRecOn with
  | _ n ih =>
    by_cases hlt : n < 10
    · rw [Nat.toDigits_of_lt_base hlt]
      by_cases hzero : n = 0
      · exact .inl (by rw [hzero]; rfl)
      · exact .inr ⟨_, [], rfl, fun h => hzero (Nat.digitChar_eq_zero.1 h)⟩
    · rw [Nat.toDigits_of_base_le (by decide) (Nat.not_lt.1 hlt)]
      rcases ih (n / 10) (by omega) with hzero | ⟨d, ds, hds, hd⟩
      · have hn : n / 10 = 0 := by
          rw [← Nat.ofDigitChars_ten_toDigits (n := n / 10), hzero]
          rfl
        omega
      · exact .inr ⟨d, ds ++ [(n % 10).digitChar], by rw [hds, List.cons_append], hd⟩

theorem isDigit_of_mem_toDigits {n : Nat} {c : Char} (h : c ∈ Nat.toDigits 10 n) :
    c.isDigit = true :=
  Nat.isDigit_of_mem_toDigits (by decide) (by decide) h

theorem toDigits_eq_cons (n : Nat) :
    ∃ d ds, Nat.toDigits 10 n = d :: ds ∧ d.isDigit = true := by
  obtain ⟨d, ds, hds⟩ := List.exists_cons_of_ne_nil (Nat.toDigits_ne_nil (b := 10) (n := n))
  exact ⟨d, ds, hds, isDigit_of_mem_toDigits (by rw [hds]; exact List.mem_cons_self)⟩

/-- Nothing that may follow a value makes a fraction or an exponent. -/
theorem fraction?_of_ends (negative : Bool) (whole : List Char) (h : Ends rest) :
    fraction? negative whole rest = some (wholeNumber negative (natOf whole), rest) := by
  cases rest with
  | nil => rfl
  | cons c cs => rcases h c rfl with rfl | rfl | rfl <;> rfl

/-- The digits of a whole number are read as the number. -/
theorem unsigned?_toDigits (negative : Bool) (n : Nat) (h : Ends rest) :
    unsigned? negative (Nat.toDigits 10 n ++ rest) = some (wholeNumber negative n, rest) := by
  have hdigits : digits (Nat.toDigits 10 n ++ rest) = (Nat.toDigits 10 n, rest) :=
    digits_append (fun c => isDigit_of_mem_toDigits) h.noDigit
  have hvalue : natOf (Nat.toDigits 10 n) = n := Nat.ofDigitChars_ten_toDigits
  have hwhole := fraction?_of_ends negative (Nat.toDigits 10 n) h
  rw [hvalue] at hwhole
  rw [unsigned?, hdigits]
  rcases toDigits_eq_zero_or n with hzero | ⟨d, ds, hds, hd⟩
  · rw [hzero] at hwhole ⊢
    exact hwhole
  · rw [hds] at hwhole ⊢
    split
    case h_1 heq => cases heq
    case h_2 heq =>
      cases heq
      exact absurd rfl hd
    case h_3 heq =>
      cases heq
      exact hwhole

/-- A text that does not begin with a minus is read without one. -/
theorem number_of_digit {c : Char} (hc : c.isDigit = true) (cs : List Char) :
    number (c :: cs) =
      match unsigned? false (c :: cs) with
      | some (n, rest) => (.number n, some rest)
      | none => (.broken, none) := by
  have hminus : ∀ rest, c :: cs = '-' :: rest → False := by
    intro rest heq
    cases heq
    cases hc
  exact number.eq_2 (c :: cs) hminus

/-- A number is read as it was written, unless its digits go on. -/
theorem number_numberChars {n : Number} (hn : n.FitsWord) (h : Ends rest) :
    number (numberChars n ++ rest) = (.number n, some rest) := by
  cases n with
  | decimal => exact hn.elim
  | int i =>
    obtain ⟨hleast, hgreatest⟩ := hn
    rw [numberChars, intChars]
    split
    · have hvalue : wholeNumber true i.natAbs = .int i := by
        have habs : 0 < i.natAbs ∧ i.natAbs ≤ Nat.pow 2 63 := by omega
        have hint : -(i.natAbs : Int) = i := by omega
        rw [wholeNumber, if_pos rfl, if_pos (by simpa using habs), hint]
      rw [List.cons_append, number]
      simp only [unsigned?_toDigits true i.natAbs h, hvalue]
    · have hvalue : wholeNumber false i.natAbs = .int i := by
        have habs : i.natAbs < Nat.pow 2 64 := by omega
        have hint : (i.natAbs : Int) = i := by omega
        rw [wholeNumber, if_neg Bool.false_ne_true, if_pos habs, hint]
      have hread := unsigned?_toDigits false i.natAbs h
      obtain ⟨d, ds, hds, hd⟩ := toDigits_eq_cons i.natAbs
      rw [hds, List.cons_append] at hread ⊢
      rw [number_of_digit hd, hread, hvalue]

/-! ## Values -/

theorem skipSpace_cons {c : Char} (h : isSpace c = false) (cs : List Char) :
    skipSpace (c :: cs) = c :: cs := by
  simp [skipSpace, h]

theorem isSpace_of_isDigit {c : Char} (h : c.isDigit = true) : isSpace c = false := by
  by_contra hspace
  simp only [isSpace, Bool.not_eq_false, Bool.or_eq_true, decide_eq_true_eq] at hspace
  rcases hspace with ((rfl | rfl) | rfl) | rfl <;> cases h

theorem value_of_digit {c : Char} (h : c = '-' ∨ c.isDigit = true) (fuel : Nat) (cs : List Char) :
    value (fuel + 1) (c :: cs) = number (c :: cs) := by
  have hspace : isSpace c = false := by
    rcases h with rfl | h
    · rfl
    · exact isSpace_of_isDigit h
  rw [value, skipSpace_cons hspace]
  split
  case h_7 heq =>
    cases heq
    rw [if_pos (by simpa using h)]
  case h_8 heq => cases heq
  all_goals
    rename_i heq
    cases heq
    exact absurd h (by decide)

/-- The first character of a number. -/
theorem numberChars_eq_cons {n : Number} (h : n.FitsWord) :
    ∃ c cs, numberChars n = c :: cs ∧ (c = '-' ∨ c.isDigit = true) := by
  cases n with
  | decimal => exact h.elim
  | int i =>
    rw [numberChars, intChars]
    split
    · exact ⟨'-', _, rfl, .inl rfl⟩
    · obtain ⟨d, ds, hds, hd⟩ := toDigits_eq_cons i.natAbs
      exact ⟨d, ds, hds, .inr hd⟩

end Reader

mutual

/-- Every number within the value is an integer of 64 bits. -/
def Integral : Json → Prop
  | .null => True
  | .bool _ => True
  | .number n => n.FitsWord
  | .string _ => True
  | .array items => IntegralItems items
  | .object members => IntegralMembers members
termination_by structural v => v

def IntegralItems : List Json → Prop
  | [] => True
  | v :: rest => v.Integral ∧ IntegralItems rest
termination_by structural items => items

def IntegralMembers : List (String × Json) → Prop
  | [] => True
  | m :: rest => IntegralMember m ∧ IntegralMembers rest
termination_by structural members => members

def IntegralMember : String × Json → Prop
  | (_, v) => v.Integral
termination_by structural member => member

end

namespace Reader

/-- The first character of a value is neither a blank nor the end of an array. -/
theorem compactChars_eq_cons {v : Json} (h : v.Integral) :
    ∃ c cs, v.compactChars = c :: cs ∧ isSpace c = false ∧ c ≠ ']' := by
  cases v with
  | number n =>
    obtain ⟨c, cs, hcs, hc⟩ := numberChars_eq_cons h
    refine ⟨c, cs, hcs, ?_⟩
    rcases hc with rfl | hc
    · decide
    · refine ⟨isSpace_of_isDigit hc, ?_⟩
      rintro rfl
      cases hc
  | bool b => cases b <;> exact ⟨_, _, rfl, by decide⟩
  | null => exact ⟨_, _, rfl, by decide⟩
  | string s => exact ⟨_, _, rfl, by decide⟩
  | array items => cases items <;> exact ⟨_, _, rfl, by decide⟩
  | object members => cases members <;> exact ⟨_, _, rfl, by decide⟩

theorem ofValue_ne_broken (v : Json) : Node.ofValue v ≠ .broken := by
  cases v <;> exact Node.noConfusion

/-- The value is read off the front of every text, in two steps a character. -/
def Reads (v : Json) : Prop :=
  ∀ fuel rest, Ends rest → 2 * v.compactChars.length ≤ fuel →
    value fuel (v.compactChars ++ rest) = (Node.ofValue v, some rest)

/-- An item is read, and then what follows it. -/
theorem item_of_reads {v : Json} (hv : Reads v) {fuel : Nat} {sep : Char} {cs : List Char}
    (hsep : sep = ',' ∨ sep = ']') (hfuel : 2 * v.compactChars.length ≤ fuel) :
    item (fuel + 1) (v.compactChars ++ sep :: cs) =
      if sep = ']' then ([Node.ofValue v], some cs)
      else (Node.ofValue v :: (item fuel cs).1, (item fuel cs).2) := by
  have hends : Ends (sep :: cs) := by
    rintro c ⟨⟩
    rcases hsep with rfl | rfl <;> simp
  rw [item, hv fuel _ hends hfuel]
  split
  case h_1 heq => exact absurd (congrArg Prod.fst heq) (ofValue_ne_broken v)
  case h_2 heq => cases heq
  case h_3 heq =>
    cases heq
    rcases hsep with rfl | rfl
    · rw [skipSpace_cons rfl]
      rfl
    · rw [skipSpace_cons rfl]
      rfl

theorem skipSpace_colon (cs : List Char) : skipSpace (':' :: cs) = ':' :: cs :=
  skipSpace_cons rfl cs

/-- A member is read, and then what follows it. -/
theorem member_of_reads {name : String} {v : Json} (hv : Reads v) {fuel : Nat} {sep : Char}
    {cs : List Char} (hsep : sep = ',' ∨ sep = '\x7d')
    (hfuel : 2 * v.compactChars.length ≤ fuel) :
    member (fuel + 1) (compactMember (name, v) ++ sep :: cs) =
      if sep = '\x7d' then ([Node.ofMember (name, v)], some cs)
      else (Node.ofMember (name, v) :: (member fuel cs).1, (member fuel cs).2) := by
  have hends : Ends (sep :: cs) := by
    rintro c ⟨⟩
    rcases hsep with rfl | rfl <;> simp
  have htext : compactMember (name, v) ++ sep :: cs =
      '"' :: (name.toList.flatMap escapeChar ++ '"' :: ':' :: (v.compactChars ++ sep :: cs)) := by
    simp [compactMember, stringChars]
  rw [htext, member, skipSpace_cons rfl]
  simp only [string_escaped, skipSpace_colon, hv fuel _ hends hfuel]
  rcases hsep with rfl | rfl
  · rw [skipSpace_cons rfl]
    rfl
  · rw [skipSpace_cons rfl]
    rfl

/-- Items that are read one by one are read as a list, up to the closing bracket. -/
theorem item_compactItems {v : Json} {items : List Json} (hv : Reads v)
    (hitems : ∀ w ∈ items, Reads w) {fuel : Nat}
    (hfuel : 2 * (v.compactChars.length + (compactItems items).length) ≤ fuel) :
    item fuel (v.compactChars ++ (compactItems items ++ rest)) =
      (Node.ofItems (v :: items), some rest) := by
  induction items generalizing v fuel with
  | nil =>
    rw [compactItems] at hfuel ⊢
    obtain ⟨fuel, rfl⟩ : ∃ n, fuel = n + 1 := ⟨fuel - 1, by simp at hfuel; omega⟩
    exact item_of_reads hv (.inr rfl) (by simp at hfuel; omega)
  | cons w items ih =>
    rw [compactItems, List.length_cons, List.length_append] at hfuel
    obtain ⟨fuel, rfl⟩ : ∃ n, fuel = n + 1 := ⟨fuel - 1, by omega⟩
    have hrest : item fuel (w.compactChars ++ (compactItems items ++ rest)) =
        (Node.ofItems (w :: items), some rest) :=
      ih (hitems w List.mem_cons_self) (fun u hu => hitems u (List.mem_cons_of_mem _ hu)) (by omega)
    rw [compactItems, List.cons_append, List.append_assoc,
      item_of_reads hv (.inl rfl) (by omega), if_neg (by decide), hrest]
    rfl

/-- Members whose values are read are read as a list, up to the closing brace. -/
theorem member_compactMembers {m : String × Json} {members : List (String × Json)}
    (hm : Reads m.2) (hmembers : ∀ w ∈ members, Reads w.2) {fuel : Nat}
    (hfuel : 2 * ((compactMember m).length + (compactMembers members).length) ≤ fuel) :
    member fuel (compactMember m ++ (compactMembers members ++ rest)) =
      (Node.ofMembers (m :: members), some rest) := by
  have hlength : ∀ m : String × Json, m.2.compactChars.length < (compactMember m).length := by
    rintro ⟨name, v⟩
    simp [compactMember]
    omega
  have hle := hlength m
  induction members generalizing m fuel with
  | nil =>
    rw [compactMembers] at hfuel ⊢
    obtain ⟨fuel, rfl⟩ : ∃ n, fuel = n + 1 := ⟨fuel - 1, by omega⟩
    exact member_of_reads hm (.inr rfl) (by omega)
  | cons w members ih =>
    rw [compactMembers, List.length_cons, List.length_append] at hfuel
    obtain ⟨fuel, rfl⟩ : ∃ n, fuel = n + 1 := ⟨fuel - 1, by omega⟩
    have hrest : member fuel (compactMember w ++ (compactMembers members ++ rest)) =
        (Node.ofMembers (w :: members), some rest) :=
      ih (hmembers w List.mem_cons_self) (fun u hu => hmembers u (List.mem_cons_of_mem _ hu))
        (by omega) (hlength w)
    rw [compactMembers, List.cons_append, List.append_assoc,
      member_of_reads hm (.inl rfl) (by omega), if_neg (by decide), hrest]
    rfl

theorem reads_number {n : Number} (hn : n.FitsWord) : Reads (.number n) := by
  intro fuel rest hrest hfuel
  obtain ⟨c, cs, hcs, hc⟩ := numberChars_eq_cons hn
  have hread := number_numberChars hn hrest
  rw [compactChars, hcs] at hfuel ⊢
  rw [hcs] at hread
  obtain ⟨fuel, rfl⟩ : ∃ n, fuel = n + 1 := ⟨fuel - 1, by simp at hfuel; omega⟩
  rw [List.cons_append, value_of_digit hc]
  exact hread

theorem reads_string (s : String) : Reads (.string s) := by
  intro fuel rest _ hfuel
  rw [compactChars, stringChars, List.length_cons] at hfuel
  obtain ⟨fuel, rfl⟩ : ∃ n, fuel = n + 1 := ⟨fuel - 1, by omega⟩
  have htext : stringChars s ++ rest = '"' :: (s.toList.flatMap escapeChar ++ '"' :: rest) := by
    simp [stringChars]
  rw [compactChars, htext, value, skipSpace_cons rfl]
  exact string_escaped s

theorem firstItem_cons {c : Char} (hspace : isSpace c = false) (hclose : c ≠ ']') (fuel : Nat)
    (cs : List Char) : firstItem (fuel + 1) (c :: cs) = item fuel (c :: cs) := by
  rw [firstItem, skipSpace_cons hspace]
  split
  · rename_i heq
    cases heq
    exact absurd rfl hclose
  · rfl

theorem reads_array {items : List Json} (hitems : ∀ w ∈ items, Reads w)
    (hfirst : ∀ w ∈ items, w.Integral) : Reads (.array items) := by
  intro fuel rest _ hfuel
  obtain ⟨fuel, rfl⟩ : ∃ n, fuel = n + 2 := by
    cases items <;> exact ⟨fuel - 2, by simp [compactChars] at hfuel; omega⟩
  cases items with
  | nil => rfl
  | cons v items =>
    rw [compactChars, List.length_cons, List.length_append] at hfuel
    have hread : item fuel (v.compactChars ++ (compactItems items ++ rest)) =
        (Node.ofItems (v :: items), some rest) :=
      item_compactItems (hitems v List.mem_cons_self)
        (fun w hw => hitems w (List.mem_cons_of_mem _ hw)) (by omega)
    obtain ⟨c, cs, hcs, hspace, hclose⟩ := compactChars_eq_cons (hfirst v List.mem_cons_self)
    rw [hcs, List.cons_append] at hread
    rw [compactChars, List.cons_append, List.append_assoc, hcs, List.cons_append, value,
      skipSpace_cons rfl]
    simp only [firstItem_cons hspace hclose, hread]
    rfl

theorem firstMember_quote (fuel : Nat) (cs : List Char) :
    firstMember (fuel + 1) ('"' :: cs) = member fuel ('"' :: cs) := by
  rw [firstMember, skipSpace_cons rfl]
  rfl

theorem reads_object {members : List (String × Json)} (hmembers : ∀ m ∈ members, Reads m.2) :
    Reads (.object members) := by
  intro fuel rest _ hfuel
  obtain ⟨fuel, rfl⟩ : ∃ n, fuel = n + 2 := by
    cases members <;> exact ⟨fuel - 2, by simp [compactChars] at hfuel; omega⟩
  cases members with
  | nil => rfl
  | cons m members =>
    rw [compactChars, List.length_cons, List.length_append] at hfuel
    have hread : member fuel (compactMember m ++ (compactMembers members ++ rest)) =
        (Node.ofMembers (m :: members), some rest) :=
      member_compactMembers (hmembers m List.mem_cons_self)
        (fun w hw => hmembers w (List.mem_cons_of_mem _ hw)) (by omega)
    obtain ⟨cs, hcs⟩ : ∃ cs, compactMember m = '"' :: cs := by
      obtain ⟨name, v⟩ := m
      exact ⟨_, rfl⟩
    rw [hcs, List.cons_append] at hread
    rw [compactChars, List.cons_append, List.append_assoc, hcs, List.cons_append, value,
      skipSpace_cons rfl]
    simp only [firstMember_quote, hread]
    rfl

theorem reads_null : Reads .null := by
  intro fuel rest _ hfuel
  obtain ⟨fuel, rfl⟩ : ∃ n, fuel = n + 1 := ⟨fuel - 1, by simp [compactChars] at hfuel; omega⟩
  rfl

theorem reads_bool (b : Bool) : Reads (.bool b) := by
  intro fuel rest _ hfuel
  obtain ⟨fuel, rfl⟩ : ∃ n, fuel = n + 1 := by
    cases b <;> exact ⟨fuel - 1, by simp [compactChars] at hfuel; omega⟩
  cases b <;> rfl

theorem integral_of_mem {items : List Json} (h : IntegralItems items) {v : Json}
    (hv : v ∈ items) : v.Integral := by
  induction items with
  | nil => exact absurd hv List.not_mem_nil
  | cons w items ih =>
    rcases List.mem_cons.1 hv with rfl | hv
    · exact h.1
    · exact ih h.2 hv

mutual

/-- A value without decimals is read as it was written. -/
theorem reads : ∀ v : Json, v.Integral → Reads v
  | .null, _ => reads_null
  | .bool b, _ => reads_bool b
  | .number _, h => reads_number h
  | .string s, _ => reads_string s
  | .array items, h => reads_array (readsItems items h) fun _ => integral_of_mem h
  | .object members, h => reads_object (readsMembers members h)
termination_by structural v => v

theorem readsItems : ∀ items : List Json, IntegralItems items → ∀ w ∈ items, Reads w
  | [], _, _, hw => absurd hw List.not_mem_nil
  | v :: rest, h, w, hw =>
    (List.mem_cons.1 hw).elim (fun heq => heq ▸ reads v h.1) (readsItems rest h.2 w)
termination_by structural items => items

theorem readsMembers : ∀ members : List (String × Json), IntegralMembers members →
    ∀ w ∈ members, Reads w.2
  | [], _, _, hw => absurd hw List.not_mem_nil
  | m :: rest, h, w, hw =>
    (List.mem_cons.1 hw).elim (fun heq => heq ▸ readsMember m h.1) (readsMembers rest h.2 w)
termination_by structural members => members

theorem readsMember : ∀ m : String × Json, IntegralMember m → Reads m.2
  | (_, v), h => reads v h
termination_by structural m => m

end

end Reader

end Json

namespace Document

open Json.Reader

/-- The compact text of a value is read as the value and nothing else. -/
theorem read_compact {v : Json} (h : v.Integral) : read v.compact = ⟨Node.ofValue v, false⟩ := by
  have hread : value (enough v.compactChars.length) v.compactChars =
      (Node.ofValue v, some []) := by
    have := reads v h (enough v.compactChars.length) [] ends_nil (by rw [enough]; omega)
    rwa [List.append_nil] at this
  rw [read, Json.compact, String.toList_ofList, hread]
  rfl

end Document

end ConnectionBroker
