import Mathlib.Data.List.Forall2
import ConnectionBroker.Json.Decoding
import ConnectionBroker.Proofs.Json.Spelling

/-!
# Objects and arrays as they are written

An `ObjectText` is an object as it stands in a text : its members one after the other, each with
the literal of its name and the text of its value (`MemberText`), and the blanks around all of
them; an `ArrayText` is an array. What a part of a text holds is what is read if that part is all
there is (`Json.Reader.single?`).

An object text whose parts hold names and values is read as an object of these
(`ObjectText.read_text`), and every text that a decoder accepts as an object is an object text
(`Shape.exists_objectText`), so nothing is lost by speaking of members instead of characters.
-/

namespace ConnectionBroker

open Json.Reader (Blank Padded Literal Paired Spells commas)

namespace Json.Reader

/-- The node of a text that holds one value, and nothing else but blanks. -/
def single? (t : List Char) : Option Node :=
  match value (enough t.length) t with
  | (n, some rest) => if (skipSpace rest).isEmpty then some n else none
  | (_, none) => none

theorem single?_eq_some_iff {t : List Char} {n : Node} : single? t = some n ↔ Padded t n := by
  constructor
  · intro h
    rw [single?] at h
    split at h
    · next n rest hvalue =>
      obtain ⟨u, rfl, hu⟩ := sound _ _ _ _ hvalue
      obtain ⟨b, hb, hrest⟩ := exists_blank rest
      split at h
      · next hempty =>
        cases h
        rw [List.isEmpty_iff.1 hempty, List.append_nil] at hrest
        exact ⟨u, rest, rfl, hu, hrest ▸ hb⟩
      · cases h
    · cases h
  · rintro ⟨u, b, rfl, hu, hb⟩
    have hvalue : value (enough (u ++ b).length) (u ++ b) = (n, some b) := by
      have hstops : Stops b := by
        simpa using stops_append hb stops_nil
      exact hu _ b hstops (by rw [enough, List.length_append]; omega)
    rw [single?, hvalue]
    simp [skipSpace_blank hb]

/-- What holds a string is a literal. -/
theorem literal_of_padded {t : List Char} {s : String} (h : Padded t (.string s)) :
    Literal t (.string s) := by
  obtain ⟨u, b', rfl, hu, hb'⟩ := h
  have hvalue := hu (2 * u.length + 1) [] stops_nil (by omega)
  rw [List.append_nil] at hvalue
  obtain ⟨b, hb, hu'⟩ := exists_blank u
  rw [value] at hvalue
  split at hvalue
  case h_4 cs heq =>
    obtain ⟨w, rfl, hw⟩ := exists_string hvalue
    rw [List.append_nil] at heq
    exact ⟨b, w, b', by rw [hu', heq], hb, hb', hw⟩
  case h_7 =>
    split at hvalue
    · obtain ⟨⟨k, hk⟩, -⟩ := exists_number hvalue
      cases hk
    · cases hvalue
  all_goals cases hvalue

theorem padded_of_literal {t : List Char} {n : Node} (h : Literal t n) : Padded t n := by
  obtain ⟨b, u, b', rfl, hb, hb', hu⟩ := h
  exact ⟨b ++ '"' :: u, b', rfl, (spells_string hu).blank_append hb, hb'⟩

end Json.Reader

/-- A member of an object as it is written : its name and its value, with the blanks around them. -/
structure MemberText where
  name : List Char
  value : List Char
  deriving DecidableEq, Repr

namespace MemberText

/-- The member in the text of its object. -/
def chars (m : MemberText) : List Char :=
  m.name ++ ':' :: m.value

/-- The name that is written. -/
def key? (m : MemberText) : Option String :=
  match Json.Reader.single? m.name with
  | some (.string key) => some key
  | _ => none

/-- The value that is written. -/
def node? (m : MemberText) : Option Node :=
  Json.Reader.single? m.value

/-- What is read. -/
def node (m : MemberText) : Node × Node :=
  (.string (m.key?.getD ""), m.node?.getD .broken)

/-- The name is a string and the value is one. -/
def Proper (m : MemberText) : Prop :=
  m.key?.isSome ∧ m.node?.isSome

instance (m : MemberText) : Decidable m.Proper :=
  inferInstanceAs (Decidable (_ ∧ _))

theorem key?_eq_some_iff {m : MemberText} {key : String} :
    m.key? = some key ↔ Padded m.name (.string key) := by
  rw [← Json.Reader.single?_eq_some_iff, key?]
  split
  · next h => simp [h]
  · next h => simpa using h key

theorem node_eq {m : MemberText} {key : String} {n : Node} (hkey : m.key? = some key)
    (hn : m.node? = some n) : m.node = (.string key, n) := by
  rw [node, hkey, hn, Option.getD_some, Option.getD_some]

theorem Proper.paired {m : MemberText} (h : m.Proper) : Paired m.chars m.node := by
  obtain ⟨key, hkey⟩ := Option.isSome_iff_exists.1 h.1
  obtain ⟨n, hn⟩ := Option.isSome_iff_exists.1 h.2
  rw [node_eq hkey hn]
  exact ⟨m.name, m.value, rfl, Json.Reader.literal_of_padded (key?_eq_some_iff.1 hkey),
    Json.Reader.single?_eq_some_iff.1 hn⟩

end MemberText

/-- An object as it is written. -/
structure ObjectText where
  before : List Char
  /-- Behind the opening brace. -/
  inside : List Char
  members : List MemberText
  after : List Char
  deriving DecidableEq, Repr

namespace ObjectText

/-- The characters of the text. -/
def chars (o : ObjectText) : List Char :=
  o.before ++ '\x7b' :: (o.inside ++ (commas (o.members.map MemberText.chars) ++ '\x7d' :: o.after))

/-- The text. -/
def text (o : ObjectText) : String :=
  String.ofList o.chars

/-- The blanks are blanks and the members are members. -/
structure Proper (o : ObjectText) : Prop where
  before : Blank o.before
  inside : Blank o.inside
  after : Blank o.after
  members : ∀ m ∈ o.members, m.Proper

instance (o : ObjectText) : Decidable o.Proper :=
  decidable_of_iff (Blank o.before ∧ Blank o.inside ∧ Blank o.after ∧ ∀ m ∈ o.members, m.Proper)
    ⟨fun ⟨hbefore, hinside, hafter, hmembers⟩ => ⟨hbefore, hinside, hafter, hmembers⟩,
      fun ⟨hbefore, hinside, hafter, hmembers⟩ => ⟨hbefore, hinside, hafter, hmembers⟩⟩

theorem Proper.padded {o : ObjectText} (h : o.Proper) :
    Padded o.chars (.object (o.members.map MemberText.node) true) := by
  have hmembers : List.Forall₂ Paired (o.members.map MemberText.chars)
      (o.members.map MemberText.node) := by
    rw [List.forall₂_map_left_iff, List.forall₂_map_right_iff, List.forall₂_same]
    exact fun m hm => (h.members m hm).paired
  refine ⟨_, o.after, ?_, (Json.Reader.spells_object hmembers h.inside).blank_append h.before,
    h.after⟩
  simp [chars]

end ObjectText

namespace Document

theorem read_of_padded {t : List Char} {n : Node} (h : Padded t n) :
    read (String.ofList t) = ⟨n, false⟩ := by
  have hsingle := Json.Reader.single?_eq_some_iff.2 h
  rw [Json.Reader.single?] at hsingle
  rw [read, String.toList_ofList]
  generalize Json.Reader.value (Json.Reader.enough t.length) t = r at hsingle ⊢
  obtain ⟨n', _ | rest⟩ := r
  · cases hsingle
  · dsimp only at hsingle ⊢
    by_cases hempty : (Json.Reader.skipSpace rest).isEmpty = true
    · rw [if_pos hempty] at hsingle
      cases hsingle
      simp [hempty]
    · rw [if_neg hempty] at hsingle
      cases hsingle

end Document

/-- An array as it is written. -/
structure ArrayText where
  before : List Char
  /-- Behind the opening bracket. -/
  inside : List Char
  items : List (List Char)
  after : List Char
  deriving DecidableEq, Repr

namespace ArrayText

/-- The text. -/
def text (a : ArrayText) : String :=
  String.ofList (a.before ++ '[' :: (a.inside ++ (commas a.items ++ ']' :: a.after)))

/-- What is read in the place of an item. -/
def nodeOf (t : List Char) : Node :=
  (Json.Reader.single? t).getD .broken

/-- The blanks are blanks and the items are values. -/
structure Proper (a : ArrayText) : Prop where
  before : Blank a.before
  inside : Blank a.inside
  after : Blank a.after
  items : ∀ t ∈ a.items, (Json.Reader.single? t).isSome = true

instance (a : ArrayText) : Decidable a.Proper :=
  decidable_of_iff (Blank a.before ∧ Blank a.inside ∧ Blank a.after ∧
      ∀ t ∈ a.items, (Json.Reader.single? t).isSome = true)
    ⟨fun ⟨hbefore, hinside, hafter, hitems⟩ => ⟨hbefore, hinside, hafter, hitems⟩,
      fun ⟨hbefore, hinside, hafter, hitems⟩ => ⟨hbefore, hinside, hafter, hitems⟩⟩

/-- An array text is read as an array of its items. -/
theorem read_text {a : ArrayText} (h : a.Proper) :
    Document.read a.text = ⟨.array (a.items.map nodeOf) true, false⟩ := by
  have hitems : List.Forall₂ Padded a.items (a.items.map nodeOf) := by
    rw [List.forall₂_map_right_iff, List.forall₂_same]
    intro t ht
    obtain ⟨n, hn⟩ := Option.isSome_iff_exists.1 (h.items t ht)
    rw [nodeOf, hn]
    exact Json.Reader.single?_eq_some_iff.1 hn
  refine Document.read_of_padded ⟨_, a.after, ?_,
    (Json.Reader.spells_array hitems h.inside).blank_append h.before, h.after⟩
  simp

end ArrayText

/-- A text that is read as a member with a name is the text of a member. -/
theorem MemberText.exists_of_paired {t : List Char} {m : Node × Node} (h : Paired t m)
    (hname : ∃ key, m.1 = .string key) : ∃ w : MemberText, w.Proper ∧ w.chars = t ∧ w.node = m := by
  obtain ⟨name, v, rfl, hliteral, hv⟩ := h
  obtain ⟨key, hkey⟩ := hname
  rw [hkey] at hliteral
  let w : MemberText := ⟨name, v⟩
  have hw : w.key? = some key := key?_eq_some_iff.2 (Json.Reader.padded_of_literal hliteral)
  have hn : w.node? = some m.2 := Json.Reader.single?_eq_some_iff.2 hv
  refine ⟨w, ⟨by simp [hw], by simp [hn]⟩, rfl, ?_⟩
  rw [node_eq hw hn, ← hkey]

theorem MemberText.exists_of_forall₂ {ts : List (List Char)} {ms : List (Node × Node)}
    (h : List.Forall₂ Paired ts ms) (hnames : ∀ m ∈ ms, ∃ key, m.1 = .string key) :
    ∃ ws : List MemberText, (∀ w ∈ ws, w.Proper) ∧ ws.map chars = ts ∧ ws.map node = ms := by
  induction h with
  | nil => exact ⟨[], by simp⟩
  | @cons t m ts ms ht hts ih =>
    obtain ⟨w, hw, rfl, rfl⟩ := exists_of_paired ht (hnames m List.mem_cons_self)
    obtain ⟨ws, hws, rfl, rfl⟩ := ih fun m hm => hnames m (List.mem_cons_of_mem _ hm)
    exact ⟨w :: ws, by simpa using ⟨hw, hws⟩, rfl, rfl⟩

namespace Json.Reader

/-- An object with its closing brace was read to its end, and stands behind blanks. -/
theorem exists_brace {fuel : Nat} {cs : List Char} {ms : List (Node × Node)}
    {after : Option (List Char)} (h : value fuel cs = (.object ms true, after)) :
    ∃ b inside ts rest, Blank b ∧ Blank inside ∧ List.Forall₂ Paired ts ms ∧ after = some rest ∧
      cs = b ++ '\x7b' :: (inside ++ (commas ts ++ '\x7d' :: rest)) := by
  cases fuel with
  | zero => cases h
  | succ fuel =>
    obtain ⟨b, hb, hcs⟩ := exists_blank cs
    rw [value] at h
    split at h
    case h_4 =>
      rw [string] at h
      split at h
      · cases h
      · split at h <;> cases h
    case h_6 cs₁ heq =>
      cases hmembers : firstMember fuel cs₁ with
      | mk ms' after' =>
        rw [hmembers] at h
        simp only [Prod.mk.injEq, Node.object.injEq] at h
        obtain ⟨⟨rfl, hsome⟩, rfl⟩ := h
        obtain ⟨rest, rfl⟩ := Option.isSome_iff_exists.1 hsome
        obtain ⟨inside, ts, hinside, hts, rfl⟩ := exists_paired (fun f _ => sound f) hmembers
        exact ⟨b, inside, ts, rest, hb, hinside, hts, rfl, by rw [hcs, heq]⟩
    case h_7 =>
      split at h
      · exact absurd (congrArg Prod.fst h) number_ne_object
      · cases h
    all_goals cases h

end Json.Reader

/-- An object text is read as an object of its members. -/
theorem ObjectText.read_text {o : ObjectText} (h : o.Proper) :
    Document.read o.text = ⟨.object (o.members.map MemberText.node) true, false⟩ :=
  Document.read_of_padded h.padded

/-- A text that is read as an object with nothing behind it is an object text. -/
theorem Document.exists_objectText {text : String} {ms : List (Node × Node)}
    (h : read text = ⟨.object ms true, false⟩) (hnames : ∀ m ∈ ms, ∃ key, m.1 = .string key) :
    ∃ o : ObjectText, o.Proper ∧ o.text = text := by
  rw [read] at h
  cases hvalue : Json.Reader.value (Json.Reader.enough text.toList.length) text.toList with
  | mk n after =>
    simp only [hvalue] at h
    obtain rfl : n = .object ms true := by
      cases after <;> exact congrArg Document.root h
    obtain ⟨b, inside, ts, rest, hb, hinside, hts, rfl, hcs⟩ := Json.Reader.exists_brace hvalue
    obtain ⟨ws, hws, rfl, -⟩ := MemberText.exists_of_forall₂ hts hnames
    obtain ⟨b', hb', hrest⟩ := Json.Reader.exists_blank rest
    have hblank : Blank rest := by
      have hempty : Json.Reader.skipSpace rest = [] := by simpa using congrArg Document.trailing h
      rw [hempty, List.append_nil] at hrest
      exact hrest ▸ hb'
    refine ⟨⟨b, inside, ws, rest⟩, ⟨hb, hinside, hblank, hws⟩, ?_⟩
    rw [ObjectText.text, ObjectText.chars, ← hcs, String.ofList_toList]

end ConnectionBroker
