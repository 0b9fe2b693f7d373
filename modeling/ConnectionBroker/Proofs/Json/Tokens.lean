import Mathlib.Data.List.TakeWhile
import ConnectionBroker.Proofs.Json.Reading

/-!
# Tokens, wherever they stand

What the reader takes for a string literal or a number does not depend on what follows : the
characters that it took off one text are taken off the front of every other (`exists_string`,
`exists_number`). Only a number must not be followed by something that goes on with it (`Stops`),
and what may stand between a value and the next does not.

The digits of a number are read as far as they go, so each of its parts asks of what follows that
it begins with no digit, and only the last one asks for more.
-/

namespace ConnectionBroker.Json.Reader

variable {cs rest : List Char}

/-! ## Blanks -/

/-- Nothing but blanks. -/
def Blank (cs : List Char) : Prop :=
  ∀ c ∈ cs, isSpace c = true

instance (cs : List Char) : Decidable (Blank cs) :=
  cs.decidableBAll _

/-- The text does not go on with a number. -/
def Stops (cs : List Char) : Prop :=
  ∀ c ∈ cs.head?, c.isDigit = false ∧ c ∉ ['.', 'e', 'E']

theorem blank_nil : Blank [] := by simp [Blank]

theorem skipSpace_append {b : List Char} (h : Blank b) (cs : List Char) :
    skipSpace (b ++ cs) = skipSpace cs :=
  List.dropWhile_append_of_pos h

theorem skipSpace_blank {b : List Char} (h : Blank b) : skipSpace b = [] := by
  have := skipSpace_append h []
  rwa [List.append_nil] at this

/-- Every text is blanks and then what is left without them. -/
theorem exists_blank (cs : List Char) : ∃ b, Blank b ∧ cs = b ++ skipSpace cs :=
  ⟨cs.takeWhile isSpace, fun _ => List.mem_takeWhile_imp, List.takeWhile_append_dropWhile.symm⟩

theorem stops_nil : Stops [] := by simp [Stops]

theorem stops_cons {c : Char} (h : c ∈ [',', ']', '\x7d', ':', ' ', '\t', '\n', '\r']) :
    Stops (c :: cs) := by
  rintro d ⟨⟩
  simp only [List.mem_cons, List.not_mem_nil, or_false] at h
  rcases h with rfl | rfl | rfl | rfl | rfl | rfl | rfl | rfl <;> decide

theorem stops_append {b : List Char} (hb : Blank b) (h : Stops cs) : Stops (b ++ cs) := by
  cases b with
  | nil => exact h
  | cons c b =>
    have hc := hb c List.mem_cons_self
    simp only [isSpace, Bool.or_eq_true, decide_eq_true_eq] at hc
    refine stops_cons ?_
    rcases hc with ((rfl | rfl) | rfl) | rfl <;> simp

/-! ## Literals -/

/-- What was read off a text as the pieces of a literal is read off whatever follows it. -/
theorem exists_pieces {ps : List Piece} (h : pieces? cs = some (ps, rest)) :
    ∃ t, cs = t ++ rest ∧ ∀ rest', pieces? (t ++ rest') = some (ps, rest') := by
  fun_induction pieces? cs generalizing ps with
  | case1 => cases h
  | case2 cs =>
    cases h
    exact ⟨['"'], rfl, fun _ => by simp [pieces?]⟩
  | case3 a b c d cs ih =>
    simp only [Option.bind_eq_bind, Option.bind_eq_some_iff] at h
    obtain ⟨n, hn, ⟨ps', rest'⟩, hps, heq⟩ := h
    cases heq
    obtain ⟨t, rfl, ht⟩ := ih hps
    exact ⟨'\\' :: 'u' :: a :: b :: c :: d :: t, rfl, fun rest' => by simp [pieces?, hn, ht rest']⟩
  | case4 c cs hu ih =>
    simp only [Option.bind_eq_bind, Option.bind_eq_some_iff] at h
    obtain ⟨d, hd, ⟨ps', rest'⟩, hps, heq⟩ := h
    cases heq
    obtain ⟨t, rfl, ht⟩ := ih hps
    refine ⟨'\\' :: c :: t, rfl, fun rest' => ?_⟩
    rw [List.cons_append, List.cons_append, pieces?_escape hd, ht rest']
    rfl
  | case5 => cases h
  | case6 c cs hquote hu hslash hlow ih =>
    simp only [Option.bind_eq_bind, Option.bind_eq_some_iff] at h
    obtain ⟨⟨ps', rest'⟩, hps, heq⟩ := h
    cases heq
    have hslash' : c ≠ '\\' := by
      rintro rfl
      cases cs with
      | nil => cases hps
      | cons d cs => exact hslash d cs rfl rfl
    obtain ⟨t, rfl, ht⟩ := ih hps
    refine ⟨c :: t, rfl, fun rest' => ?_⟩
    rw [List.cons_append, pieces?_plain hquote hslash' hlow, ht rest']
    rfl

theorem exists_string {n : Node} (h : string cs = (n, some rest)) :
    ∃ t, cs = t ++ rest ∧ ∀ rest', string (t ++ rest') = (n, some rest') := by
  rw [string] at h
  split at h
  · cases h
  · next ps rest' hps =>
    obtain ⟨t, rfl, ht⟩ := exists_pieces hps
    refine ⟨t, ?_, fun rest'' => ?_⟩
    · split at h <;> cases h <;> rfl
    · rw [string, ht rest'']
      dsimp only
      split at h <;> cases h <;> simp [*]

/-! ## Numbers -/

theorem Stops.noDigit (h : Stops cs) : NoDigit cs :=
  fun c hc => (h c hc).1

theorem exists_digits {ds : List Char} (h : digits cs = (ds, rest)) :
    cs = ds ++ rest ∧ (∀ c ∈ ds, c.isDigit = true) ∧
      ∀ rest', NoDigit rest' → digits (ds ++ rest') = (ds, rest') := by
  cases h
  have hds : ∀ c ∈ cs.takeWhile Char.isDigit, c.isDigit = true := fun _ => List.mem_takeWhile_imp
  exact ⟨List.takeWhile_append_dropWhile.symm, hds, fun rest' hrest => digits_append hds hrest⟩

/-- An exponent after its sign. -/
def magnitude? (negative : Bool) (cs : List Char) : Option (Int × List Char) :=
  match digits cs with
  | ([], _) => none
  | (ds, rest) => some (if negative then -(natOf ds : Int) else natOf ds, rest)

theorem exists_magnitude {negative : Bool} {p : Int} (h : magnitude? negative cs = some (p, rest)) :
    ∃ d ds, d.isDigit = true ∧ cs = d :: ds ++ rest ∧
      ∀ rest', NoDigit rest' → magnitude? negative (d :: ds ++ rest') = some (p, rest') := by
  rw [magnitude?] at h
  split at h
  · cases h
  · next ds rest₀ hne hdigits =>
    obtain ⟨hcs, hall, hread⟩ := exists_digits hdigits
    obtain ⟨d, ds, rfl⟩ := List.exists_cons_of_ne_nil hne
    cases h
    refine ⟨d, ds, hall d List.mem_cons_self, hcs, fun rest' hrest => ?_⟩
    rw [magnitude?, hread rest' hrest]

theorem magnitude?_eq (negative : Bool) (cs : List Char) :
    magnitude? negative cs =
      let (ds, rest) := digits cs
      if ds.isEmpty then none
      else some (if negative then -(natOf ds : Int) else natOf ds, rest) := by
  rw [magnitude?]
  rcases digits cs with ⟨_ | ⟨d, ds⟩, rest⟩ <;> rfl

theorem exponent?_plus (cs : List Char) : exponent? ('+' :: cs) = magnitude? false cs :=
  (magnitude?_eq false cs).symm

theorem exponent?_minus (cs : List Char) : exponent? ('-' :: cs) = magnitude? true cs :=
  (magnitude?_eq true cs).symm

theorem exponent?_unsigned (hplus : ∀ cs', cs ≠ '+' :: cs') (hminus : ∀ cs', cs ≠ '-' :: cs') :
    exponent? cs = magnitude? false cs :=
  (exponent?.eq_3 cs hplus hminus).trans (magnitude?_eq false cs).symm

theorem exists_exponent {p : Int} (h : exponent? cs = some (p, rest)) :
    ∃ t, cs = t ++ rest ∧ ∀ rest', NoDigit rest' → exponent? (t ++ rest') = some (p, rest') := by
  by_cases hplus : ∃ cs', cs = '+' :: cs'
  · obtain ⟨cs, rfl⟩ := hplus
    obtain ⟨d, ds, -, rfl, hread⟩ := exists_magnitude ((exponent?_plus cs).symm.trans h)
    exact ⟨'+' :: d :: ds, rfl, fun rest' hrest => (exponent?_plus _).trans (hread rest' hrest)⟩
  by_cases hminus : ∃ cs', cs = '-' :: cs'
  · obtain ⟨cs, rfl⟩ := hminus
    obtain ⟨d, ds, -, rfl, hread⟩ := exists_magnitude ((exponent?_minus cs).symm.trans h)
    exact ⟨'-' :: d :: ds, rfl, fun rest' hrest => (exponent?_minus _).trans (hread rest' hrest)⟩
  · rw [exponent?_unsigned (not_exists.1 hplus) (not_exists.1 hminus)] at h
    obtain ⟨d, ds, hd, rfl, hread⟩ := exists_magnitude h
    refine ⟨d :: ds, rfl, fun rest' hrest => ?_⟩
    rw [exponent?_unsigned (by rintro _ ⟨⟩; cases hd) (by rintro _ ⟨⟩; cases hd)]
    exact hread rest' hrest

section Fractions

variable {negative : Bool} {whole ds : List Char} {c : Char}

theorem fraction?_mark (hc : c = 'e' ∨ c = 'E') (cs : List Char) :
    fraction? negative whole (c :: cs) =
      (exponent? cs).map fun p => (.decimal negative (natOf whole) p.1, p.2) := by
  rcases hc with rfl | rfl <;> rfl

theorem fraction?_point_mark (hc : c = 'e' ∨ c = 'E') (hds : ds ≠ [])
    (h : digits cs = (ds, c :: rest)) :
    fraction? negative whole ('.' :: cs) =
      (exponent? rest).map fun p =>
        (.decimal negative (natOf (whole ++ ds)) (p.1 - ds.length), p.2) := by
  rcases hc with rfl | rfl <;> simp [fraction?, h, hds]

theorem fraction?_point (hds : ds ≠ []) (h : digits cs = (ds, rest))
    (hrest : ∀ c cs', rest = c :: cs' → ¬(c = 'e' ∨ c = 'E')) :
    fraction? negative whole ('.' :: cs) =
      some (.decimal negative (natOf (whole ++ ds)) (-ds.length), rest) := by
  simp only [fraction?, h, List.isEmpty_iff, hds, if_false]
  split
  · exact absurd (.inl rfl) (hrest _ _ rfl)
  · exact absurd (.inr rfl) (hrest _ _ rfl)
  · rfl

theorem Stops.no_mark (h : Stops cs) (c : Char) (cs' : List Char) (heq : cs = c :: cs') :
    ¬(c = 'e' ∨ c = 'E') := by
  have := (h c (heq ▸ rfl)).2
  simp only [List.mem_cons, List.not_mem_nil, or_false, not_or] at this
  exact not_or.2 this.2

theorem noDigit_mark {c : Char} (hc : c = '.' ∨ c = 'e' ∨ c = 'E') (cs : List Char) :
    NoDigit (c :: cs) := by
  rintro d ⟨⟩
  rcases hc with rfl | rfl | rfl <;> rfl

/-- What was read off a text as the end of a number is read off the front of every text that does
not go on with it. -/
def FractionIn (negative : Bool) (whole cs : List Char) (n : Number) (rest : List Char) : Prop :=
  ∃ t, cs = t ++ rest ∧ ∀ rest', Stops rest' →
    NoDigit (t ++ rest') ∧ fraction? negative whole (t ++ rest') = some (n, rest')

theorem fractionIn_mark {n : Number} (hc : c = 'e' ∨ c = 'E')
    (h : fraction? negative whole (c :: cs) = some (n, rest)) :
    FractionIn negative whole (c :: cs) n rest := by
  rw [fraction?_mark hc, Option.map_eq_some_iff] at h
  obtain ⟨⟨p, rest⟩, hp, ⟨⟩⟩ := h
  obtain ⟨t, rfl, hread⟩ := exists_exponent hp
  refine ⟨c :: t, rfl, fun rest' hrest => ⟨noDigit_mark (.inr hc) _, ?_⟩⟩
  rw [List.cons_append, fraction?_mark hc, hread rest' hrest.noDigit]
  rfl

theorem fractionIn_point_mark {n : Number} {cs' : List Char} (hc : c = 'e' ∨ c = 'E')
    (hds : ds ≠ []) (hdigits : digits cs = (ds, c :: cs'))
    (h : fraction? negative whole ('.' :: cs) = some (n, rest)) :
    FractionIn negative whole ('.' :: cs) n rest := by
  rw [fraction?_point_mark hc hds hdigits, Option.map_eq_some_iff] at h
  obtain ⟨⟨p, rest⟩, hp, ⟨⟩⟩ := h
  obtain ⟨t, rfl, hread⟩ := exists_exponent hp
  obtain ⟨rfl, -, hds'⟩ := exists_digits hdigits
  refine ⟨'.' :: (ds ++ c :: t), by simp, fun rest' hrest => ⟨noDigit_mark (.inl rfl) _, ?_⟩⟩
  have hdigits' := hds' (c :: (t ++ rest')) (noDigit_mark (.inr hc) _)
  rw [List.cons_append, List.append_assoc, List.cons_append, fraction?_point_mark hc hds hdigits',
    hread rest' hrest.noDigit]
  rfl

theorem exists_fraction {n : Number} (h : fraction? negative whole cs = some (n, rest)) :
    FractionIn negative whole cs n rest := by
  fun_cases fraction? negative whole cs
  case case1 cs ds cs' hds hdigits =>
    simp [fraction?, hdigits, hds] at h
  case case2 cs ds hds cs' hdigits =>
    exact fractionIn_point_mark (.inl rfl) (by simpa using hds) hdigits h
  case case3 cs ds hds cs' hdigits =>
    exact fractionIn_point_mark (.inr rfl) (by simpa using hds) hdigits h
  case case4 cs ds cs' hdigits hds he hE =>
    have hds : ds ≠ [] := by simpa using hds
    have hmark : ∀ d cs'', cs' = d :: cs'' → ¬(d = 'e' ∨ d = 'E') := by
      rintro d cs'' rfl (rfl | rfl)
      · exact he _ rfl
      · exact hE _ rfl
    rw [fraction?_point hds hdigits hmark] at h
    cases h
    obtain ⟨rfl, -, hds'⟩ := exists_digits hdigits
    refine ⟨'.' :: ds, rfl, fun rest' hrest => ⟨noDigit_mark (.inl rfl) _, ?_⟩⟩
    rw [List.cons_append, fraction?_point hds (hds' rest' hrest.noDigit) hrest.no_mark]
  case case5 cs => exact fractionIn_mark (.inl rfl) h
  case case6 cs => exact fractionIn_mark (.inr rfl) h
  case case7 hpoint he hE =>
    rw [fraction?.eq_4 negative whole cs hpoint he hE] at h
    cases h
    refine ⟨[], rfl, fun rest' hrest => ⟨hrest.noDigit, ?_⟩⟩
    refine fraction?.eq_4 negative whole rest' ?_ ?_ ?_ <;> rintro cs' rfl <;>
      exact absurd (hrest _ rfl).2 (by decide)

end Fractions

theorem exists_unsigned {negative : Bool} {n : Number}
    (h : unsigned? negative cs = some (n, rest)) :
    ∃ d t, d.isDigit = true ∧ cs = d :: t ++ rest ∧
      ∀ rest', Stops rest' → unsigned? negative (d :: t ++ rest') = some (n, rest') := by
  rw [unsigned?] at h
  split at h
  · cases h
  · cases h
  · next whole cs' hne hzero hdigits =>
    obtain ⟨rfl, hall, hds⟩ := exists_digits hdigits
    obtain ⟨t, rfl, hread⟩ := exists_fraction h
    obtain ⟨d, ds, rfl⟩ := List.exists_cons_of_ne_nil hne
    refine ⟨d, ds ++ t, hall d List.mem_cons_self, by simp, fun rest' hrest => ?_⟩
    obtain ⟨hnodigit, hfraction⟩ := hread rest' hrest
    rw [List.cons_append, List.append_assoc, ← List.cons_append, unsigned?, hds _ hnodigit]
    split
    case h_1 heq => cases heq
    case h_2 heq =>
      cases heq
      exact (hzero _ _ rfl).elim
    case h_3 heq =>
      cases heq
      exact hfraction

/-- A number is read off the front of every text that does not go on with it. -/
theorem exists_number {n : Node} (h : number cs = (n, some rest)) :
    (∃ k, n = .number k) ∧ ∃ c t, (c = '-' ∨ c.isDigit = true) ∧ cs = c :: t ++ rest ∧
      ∀ rest', Stops rest' → number (c :: t ++ rest') = (n, some rest') := by
  by_cases hminus : ∃ cs', cs = '-' :: cs'
  · obtain ⟨cs, rfl⟩ := hminus
    rw [number] at h
    split at h
    · next n rest hread =>
      cases h
      obtain ⟨d, t, -, rfl, hunsigned⟩ := exists_unsigned hread
      refine ⟨⟨n, rfl⟩, '-', d :: t, .inl rfl, rfl, fun rest' hrest => ?_⟩
      rw [List.cons_append, number]
      simp only [hunsigned rest' hrest]
    · cases h
  · rw [number.eq_2 cs fun cs' heq => hminus ⟨cs', heq⟩] at h
    split at h
    · next n rest hread =>
      cases h
      obtain ⟨d, t, hd, rfl, hunsigned⟩ := exists_unsigned hread
      refine ⟨⟨n, rfl⟩, d, t, .inr hd, rfl, fun rest' hrest => ?_⟩
      rw [List.cons_append, number_of_digit hd, ← List.cons_append, hunsigned rest' hrest]
    · cases h

theorem number_ne_object {ms : List (Node × Node)} {closed : Bool} :
    (number cs).1 ≠ .object ms closed := by
  unfold number
  split <;> dsimp only <;> split <;> exact Node.noConfusion

end ConnectionBroker.Json.Reader
