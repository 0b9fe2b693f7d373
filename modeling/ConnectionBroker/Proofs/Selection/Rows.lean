import Mathlib.Data.List.DropRight
import ConnectionBroker.Selection.Strategy

/-!
# The rows that a look-up finds

A look-up trims the name that it is asked for, and what is trimmed stays as it is in lower case and
when it is trimmed again (`trim_engineKey`). So a row whose name has blanks around it is found under
no name at all, and any other row is found under every spelling of its name
(`supportFor_withEngine`). Rows for other engines change nothing (`supportFor_extend_of_unnamed`).

The last row that names an engine therefore decides for it just when there are no blanks around the
name in that row, or the rows before it say the same (`last_row_decides_iff`).
-/

namespace ConnectionBroker

namespace Text

/-! ## Trimming and letter case -/

/-- Letters are not blank, in either case. -/
theorem isBlank_toLower (c : Char) : isBlank c.toLower = isBlank c := by
  have hletter : ∀ d : Char, 65 ≤ d.toNat → d.toNat ≤ 122 → isBlank d = false := by
    intro d hlow hhigh
    simp only [isBlank, inRanges, blankRanges, List.any_cons, List.any_nil, Bool.or_false,
      Bool.or_eq_false_iff, Bool.and_eq_false_imp, decide_eq_true_eq, decide_eq_false_iff_not]
    omega
  unfold Char.toLower
  split
  · rename_i h
    have hlow : 65 ≤ c.toNat := by simpa using UInt32.le_iff_toNat_le.1 h.1
    have hhigh : c.toNat ≤ 90 := by simpa using UInt32.le_iff_toNat_le.1 h.2
    have hval : (c.val + ('a'.val - 'A'.val)).toNat = c.toNat + 32 := by
      rw [UInt32.toNat_add]
      exact Nat.mod_eq_of_lt (by simp; omega)
    rw [hletter c hlow (by omega)]
    exact hletter _ (by rw [Char.toNat, hval]; omega) (by rw [Char.toNat, hval]; omega)
  · rfl

theorem trimChars_eq (cs : List Char) : trimChars cs = (cs.dropWhile isBlank).rdropWhile isBlank :=
  rfl

theorem trimChars_map_toLower (cs : List Char) :
    trimChars (cs.map Char.toLower) = (trimChars cs).map Char.toLower := by
  have hblank : isBlank ∘ Char.toLower = isBlank := funext isBlank_toLower
  unfold trimChars
  rw [List.dropWhile_map, hblank, ← List.map_reverse, List.dropWhile_map, hblank, List.map_reverse]

/-- What is trimmed has a first character that is no blank, and trimming the other end keeps it. -/
theorem trimChars_trimChars (cs : List Char) : trimChars (trimChars cs) = trimChars cs := by
  have hfront : (trimChars cs).dropWhile isBlank = trimChars cs := by
    rw [List.dropWhile_eq_self_iff]
    intro hpos
    have hfront : trimChars cs <+: cs.dropWhile isBlank := List.rdropWhile_prefix _ _
    rw [hfront.getElem hpos]
    exact List.dropWhile_get_zero_not isBlank cs (Nat.lt_of_lt_of_le hpos hfront.length_le)
  rw [trimChars_eq (trimChars cs), hfront]
  exact List.rdropWhile_idempotent _ _

theorem trimChars_sublist (cs : List Char) : (trimChars cs).Sublist cs :=
  (List.rdropWhile_prefix _ _).sublist.trans (List.dropWhile_suffix _).sublist

theorem trim_asciiLower (s : String) : trim (asciiLower s) = asciiLower (trim s) := by
  simp [trim, asciiLower, trimChars_map_toLower]

theorem trim_trim (s : String) : trim (trim s) = trim s := by
  simp [trim, trimChars_trimChars]

/-- A name that is trimmed in lower case is trimmed as it stands : trimming drops characters, and
the other case drops none. -/
theorem trim_eq_self_of_asciiLower {s : String} (h : trim (asciiLower s) = asciiLower s) :
    trim s = s := by
  rw [trim_asciiLower] at h
  have hlength : (trimChars s.toList).length = s.toList.length := by
    simpa [trim, asciiLower] using congrArg (fun t : String => t.toList.length) h
  rw [trim, (trimChars_sublist s.toList).eq_of_length hlength, String.ofList_toList]

end Text

/-- The key of an engine has no blanks around it. -/
theorem trim_engineKey (engine : String) : Text.trim (engineKey engine) = engineKey engine := by
  rw [engineKey, Text.trim_asciiLower, Text.trim_trim]

namespace StrategyTable

variable {t : StrategyTable} {before after rows : List (String × SshSupport)}
  {row : String × SshSupport} {engine name : String} {support : SshSupport}

/-! ## One row -/

/-- A row is found under the spellings of its name if that has no blanks around it, and under no
name else. -/
theorem asciiLower_eq_engineKey_iff :
    Text.asciiLower name = engineKey engine ↔
      Text.trim name = name ∧ engineKey name = engineKey engine := by
  constructor
  · intro h
    have htidy : Text.trim name = name :=
      Text.trim_eq_self_of_asciiLower (by rw [h, trim_engineKey])
    exact ⟨htidy, by rw [← h, engineKey, htidy]⟩
  · rintro ⟨htidy, h⟩
    rw [← h, engineKey, htidy]

theorem supportFor_withEngine (t : StrategyTable) (name : String) (support : SshSupport)
    (engine : String) : (t.withEngine name support).supportFor engine =
      if Text.trim name = name ∧ engineKey name = engineKey engine then support
      else t.supportFor engine := by
  unfold supportFor withEngine
  rw [List.lookup_cons]
  by_cases h : Text.asciiLower name = engineKey engine
  · rw [if_pos (asciiLower_eq_engineKey_iff.1 h), h, beq_self_eq_true]
    rfl
  · rw [if_neg (mt asciiLower_eq_engineKey_iff.2 h), beq_eq_false_iff_ne.2 (Ne.symm h)]

/-! ## One row after the other -/

/-- The table with some rows added, one after the other. -/
def extend (t : StrategyTable) (rows : List (String × SshSupport)) : StrategyTable :=
  rows.foldl (fun t row => t.withEngine row.1 row.2) t

/-- What the last row says that names an engine, whatever the spelling. -/
def lastFor (rows : List (String × SshSupport)) (engine : String) : Option SshSupport :=
  (rows.reverse.find? fun row => engineKey row.1 == engineKey engine).map (·.2)

/-- The row names the engine, and none of those after it does. -/
structure Decides (row : String × SshSupport) (after : List (String × SshSupport))
    (engine : String) : Prop where
  names : engineKey row.1 = engineKey engine
  last : ∀ other ∈ after, engineKey other.1 ≠ engineKey engine

theorem supportFor_extend_of_unnamed (h : ∀ row ∈ rows, engineKey row.1 ≠ engineKey engine) :
    (t.extend rows).supportFor engine = t.supportFor engine := by
  induction rows generalizing t with
  | nil => rfl
  | cons row rest ih =>
    rw [extend, List.foldl_cons, ← extend, ih fun r hr => h r (List.mem_cons_of_mem _ hr),
      supportFor_withEngine, if_neg fun hrow => h row List.mem_cons_self hrow.2]

theorem supportFor_extend_of_decides (t : StrategyTable) (h : Decides row after engine) :
    (t.extend (before ++ row :: after)).supportFor engine =
      if Text.trim row.1 = row.1 then row.2 else (t.extend before).supportFor engine := by
  have hsplit : t.extend (before ++ row :: after) =
      ((t.extend before).withEngine row.1 row.2).extend after := by
    rw [extend, List.foldl_append, List.foldl_cons]
    rfl
  rw [hsplit, supportFor_extend_of_unnamed h.last, supportFor_withEngine]
  simp only [h.names, and_true]

/-- No row names the engine, or one decides for it. -/
theorem lastFor_cases (rows : List (String × SshSupport)) (engine : String) :
    (lastFor rows engine = none ∧ ∀ row ∈ rows, engineKey row.1 ≠ engineKey engine) ∨
      ∃ before row after, rows = before ++ row :: after ∧ Decides row after engine := by
  cases h : rows.reverse.find? fun row => engineKey row.1 == engineKey engine with
  | none =>
    refine .inl ⟨by rw [lastFor, h, Option.map_none], fun row hrow hname => ?_⟩
    simpa [hname] using List.find?_eq_none.1 h row (List.mem_reverse.2 hrow)
  | some row =>
    obtain ⟨hname, later, earlier, hsplit, hlater⟩ := List.find?_eq_some_iff_append.1 h
    refine .inr ⟨earlier.reverse, row, later.reverse, ?_, beq_iff_eq.1 hname, fun other hmem => ?_⟩
    · rw [← List.reverse_reverse rows, hsplit]
      simp
    · simpa using hlater other (List.mem_reverse.1 hmem)

theorem lastFor_of_decides (h : Decides row after engine) :
    lastFor (before ++ row :: after) engine = some row.2 := by
  have hafter : after.reverse.find? (fun row => engineKey row.1 == engineKey engine) = none := by
    rw [List.find?_eq_none]
    intro other hmem
    simpa using h.last other (List.mem_reverse.1 hmem)
  rw [lastFor, List.reverse_append, List.reverse_cons, List.find?_append, List.find?_append, hafter]
  simp [h.names]

/-- After any rows were added to any table, an engine gets the support of the last row that names
it, and that of the table at the start if there is none, just when the name in that row has no
blanks around it or the rows before it give the same support already. So a row that is added takes
effect under its own name just when there are no blanks around it, or it says nothing new. -/
theorem last_row_decides_iff (t : StrategyTable) (rows : List (String × SshSupport))
    (engine : String) :
    ((t.extend rows).supportFor engine = (lastFor rows engine).getD (t.supportFor engine) ↔
      ∀ before row after, rows = before ++ row :: after → Decides row after engine →
        Text.trim row.1 = row.1 ∨ (t.extend before).supportFor engine = row.2) ∧
    ∀ support, (t.withEngine engine support).supportFor engine = support ↔
      Text.trim engine = engine ∨ t.supportFor engine = support := by
  refine ⟨⟨?_, fun h => ?_⟩, fun support => ?_⟩
  · rintro heq before row after rfl hdecides
    rw [supportFor_extend_of_decides t hdecides, lastFor_of_decides hdecides,
      Option.getD_some] at heq
    split at heq
    · exact .inl ‹_›
    · exact .inr heq
  · rcases lastFor_cases rows engine with ⟨hnone, hunnamed⟩ | ⟨before, row, after, rfl, hdecides⟩
    · rw [hnone, supportFor_extend_of_unnamed hunnamed, Option.getD_none]
    · rw [supportFor_extend_of_decides t hdecides, lastFor_of_decides hdecides, Option.getD_some]
      split
      · rfl
      · exact (h before row after rfl hdecides).resolve_left ‹_›
  · rw [supportFor_withEngine]
    by_cases htidy : Text.trim engine = engine <;> simp [htidy]

/-- A row that is added under a name with blanks around it is found under no name. -/
theorem padded_row_unseen :
    ((new .channelDialer).withEngine " oracle " .rawSocketOnly).supportFor " oracle " ≠
      .rawSocketOnly := by
  decide

end StrategyTable

end ConnectionBroker
