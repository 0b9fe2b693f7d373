import Mathlib.Data.List.Induction
import ConnectionBroker.Files.Tree

/-!
# Where a path leads

In a tree whose files and links are leaves (`Tree.WellFormed`), a path that never goes up, ends in a
name and has no link above its last name (`Tree.Straight`) leads to one place, which can be read off
the text (`Tree.place`). The system finds that place, unless the path is too long or nothing is
there (`find_of_straight`), and neither fewer files nor a walk of another kind change where it is.
-/

namespace ConnectionBroker.Files

/-! ## Names -/

/-- A name that a directory can hold. -/
structure IsName (s : String) : Prop where
  not_dot : s ≠ "."
  not_up : s ≠ ".."
  no_nul : '\x00' ∉ s.toList
  size : s.utf8ByteSize ≤ maxName

instance (s : String) : Decidable (IsName s) :=
  decidable_of_iff (s ≠ "." ∧ s ≠ ".." ∧ '\x00' ∉ s.toList ∧ s.utf8ByteSize ≤ maxName)
    ⟨fun ⟨hdot, hup, hnul, hsize⟩ => ⟨hdot, hup, hnul, hsize⟩,
      fun h => ⟨h.not_dot, h.not_up, h.no_nul, h.size⟩⟩

namespace Path

/-- What is between the slashes of a text is in one of the pieces. -/
theorem exists_mem_splitOn {c : Char} (hc : c ≠ '/') :
    ∀ {cs : List Char}, c ∈ cs → ∃ piece ∈ cs.splitOn '/', c ∈ piece
  | d :: cs, h => by
    rw [List.splitOn, List.splitOnP_cons_eq_if_modifyHead]
    by_cases hd : d = '/'
    · obtain ⟨piece, hpiece, hmem⟩ := exists_mem_splitOn hc
        ((List.mem_cons.1 h).resolve_left (hd ▸ hc))
      exact ⟨piece, by simpa [hd] using .inr hpiece, hmem⟩
    · rw [if_neg (by simpa using hd), ← List.splitOn]
      cases hs : cs.splitOn '/' with
      | nil => exact absurd hs (List.splitOn_ne_nil _ _)
      | cons first rest =>
        rcases List.mem_cons.1 h with rfl | h
        · exact ⟨c :: first, List.mem_cons_self, List.mem_cons_self⟩
        · obtain ⟨piece, hpiece, hmem⟩ := exists_mem_splitOn hc h
          rw [hs] at hpiece
          rcases List.mem_cons.1 hpiece with rfl | hpiece
          · exact ⟨d :: piece, List.mem_cons_self, List.mem_cons_of_mem _ hmem⟩
          · exact ⟨piece, List.mem_cons_of_mem _ hpiece, hmem⟩

/-- A character that is no slash stands in a name. -/
theorem exists_mem_names {p : Path} {c : Char} (hc : c ≠ '/') (h : c ∈ p.toList) :
    ∃ name ∈ p.names, c ∈ name.toList := by
  obtain ⟨piece, hpiece, hmem⟩ := exists_mem_splitOn hc h
  refine ⟨String.ofList piece, List.mem_map_of_mem (List.mem_filter.2 ⟨hpiece, ?_⟩), by simpa⟩
  cases piece with
  | nil => cases hmem
  | cons d rest => rfl

theorem names_ne_nil {p : Path} (hp : p ≠ "") (h : p.toList.getLast? ≠ some '/') :
    p.names ≠ [] := by
  have hchars : p.toList ≠ [] := mt String.toList_eq_nil_iff.1 hp
  rw [List.getLast?_eq_some_getLast hchars] at h
  obtain ⟨name, hname, -⟩ := exists_mem_names (fun heq => h (congrArg some heq))
    (List.getLast_mem hchars)
  exact List.ne_nil_of_mem hname

/-- The names that a path goes down by : a dot stays where it is. -/
def steps (p : Path) : List String :=
  p.names.filter (· != ".")

end Path

/-! ## Trees -/

namespace Tree

variable {t t' : Tree} {p : Path} {l m dir : Location} {n : Node} {name : String}

/-- Everything lies in a directory, under a name that directories can hold. -/
structure WellFormed (t : Tree) : Prop where
  isName : ∀ l n, t.get? l = some n → ∀ name ∈ l, IsName name
  parent : ∀ l name n, t.get? (l ++ [name]) = some n → t.get? l = some .dir

/-- Files and links are leaves. -/
theorem WellFormed.dir_of_append (hw : t.WellFormed) (h : t.get? (l ++ m) = some n) (hm : m ≠ []) :
    t.get? l = some .dir := by
  induction m using List.reverseRecOn generalizing n with
  | nil => exact absurd rfl hm
  | append_singleton m name ih =>
    rw [← List.append_assoc] at h
    have hparent := hw.parent _ _ _ h
    cases m with
    | nil => simpa using hparent
    | cons first rest => exact ih hparent (List.cons_ne_nil _ _)

theorem WellFormed.eq_of_leaf (hw : t.WellFormed) (hl : t.get? l ≠ some .dir) (hlm : l <+: m)
    (hm : t.get? m = some n) : m = l := by
  obtain ⟨below, rfl⟩ := hlm
  have hnil : below = [] := not_not.1 fun hne => hl (hw.dir_of_append hm hne)
  rw [hnil, List.append_nil]

theorem mem_nodes (hl : l ≠ []) (h : t.get? l = some n) : (l, n) ∈ t.nodes := by
  rw [get?, if_neg (by simpa using hl)] at h
  obtain ⟨before, after, hnodes, -⟩ := List.lookup_eq_some_iff.1 h
  rw [hnodes]
  exact List.mem_append_right _ List.mem_cons_self

theorem WellFormed.of_nodes (h : ∀ row ∈ t.nodes,
    (∀ name ∈ row.1, IsName name) ∧ t.get? row.1.dropLast = some .dir) : t.WellFormed where
  isName l n hl := by
    by_cases hroot : l = []
    · simp [hroot]
    · exact (h _ (mem_nodes hroot hl)).1
  parent l name n hl := by
    simpa using (h _ (mem_nodes (by simp) hl)).2

/-- The place that a path leads to when it meets no link. -/
def place (t : Tree) (p : Path) : Location :=
  (if p.isAbsolute then [] else t.workingDir) ++ p.steps

/-- The path never goes up, ends in a name, and has no link above that. -/
structure Straight (t : Tree) (p : Path) : Prop where
  forward : ".." ∉ p.names
  no_slash : p.toList.getLast? ≠ some '/'
  no_dot : p.names.getLast? ≠ some "."
  unlinked : ∀ l target, l <+: t.place p → l ≠ t.place p → t.get? l ≠ some (.link target)

/-- The system takes the path, which is not too long, and it leads there. -/
structure Names (t : Tree) (p : Path) (l : Location) : Prop where
  place : t.place p = l
  size : p.utf8ByteSize ≤ maxPath

/-! ## Walking -/

section Walk

variable {follow : Follow} {links : Nat} {rest : List String} {last : Last}
  (hdot : name ≠ ".") (hup : name ≠ "..")

theorem walk_dot : walk t follow links dir ("." :: rest) last false =
    walk t follow links dir rest .dot false := by
  rw [walk, if_pos rfl]

include hdot hup in
theorem walk_long (hlong : maxName < name.utf8ByteSize) :
    walk t follow links dir (name :: rest) last false = .error .nameTooLong := by
  rw [walk, if_neg hdot, if_neg hup, if_pos hlong]

include hdot hup in
/-- The last name is where the walk ends, whatever is there. -/
theorem walk_last (hf : follow ≠ .always) (hsize : ¬maxName < name.utf8ByteSize) :
    walk t follow links dir [name] last false = .ok ⟨dir ++ [name], .name, false⟩ := by
  have hstop : (follow == .never || (follow == .ifSlash && !false)) = true := by
    cases follow <;> first | rfl | exact absurd rfl hf
  rw [walk, if_neg hdot, if_neg hup, if_neg hsize]
  rcases ht : t.get? (dir ++ [name]) with _ | _ | _ | target <;> simp_all

include hdot hup in
/-- A walk goes on from a directory. -/
theorem walk_dir (hsize : ¬maxName < name.utf8ByteSize) (hrest : rest ≠ [])
    (hdir : t.get? (dir ++ [name]) = some .dir) :
    walk t follow links dir (name :: rest) last false =
      walk t follow links (dir ++ [name]) rest .name false := by
  rw [walk, if_neg hdot, if_neg hup, if_neg hsize]
  simp [hdir, hrest]

include hdot hup in
/-- It goes on from nothing else but a link. -/
theorem walk_error (hsize : ¬maxName < name.utf8ByteSize) (hrest : rest ≠ [])
    (hlink : ∀ target, t.get? (dir ++ [name]) ≠ some (.link target))
    (hdir : t.get? (dir ++ [name]) ≠ some .dir) :
    ∃ e, walk t follow links dir (name :: rest) last false = .error e := by
  rw [walk, if_neg hdot, if_neg hup, if_neg hsize]
  rcases ht : t.get? (dir ++ [name]) with _ | content | _ | target
  · exact ⟨.noEntry, by simp [ht, hrest]⟩
  · exact ⟨.notDirectory, by simp [ht, hrest]⟩
  · exact absurd ht hdir
  · exact absurd ht (hlink target)

/-- The names that a path goes down by end as the path does, unless that is in a dot. -/
theorem filter_ne_nil {names : List String} (hne : names ≠ []) (hdot : names.getLast? ≠ some ".") :
    names.filter (· != ".") ≠ [] := by
  rw [List.getLast?_eq_some_getLast hne] at hdot
  refine List.ne_nil_of_mem (List.mem_filter.2 ⟨List.getLast_mem hne, ?_⟩)
  simpa using hdot

/-- A walk that never goes up and meets no link but the last name, which it does not follow, gets to
where the names lead, if there is anything, and else it gets there or fails. The induction is on the
names. -/
theorem walk_cases (hw : t.WellFormed) (hf : follow ≠ .always) :
    ∀ {names : List String} {dir : Location} {last : Last}, names ≠ [] → ".." ∉ names →
      names.getLast? ≠ some "." →
      (∀ l target, l <+: dir ++ names.filter (· != ".") → l ≠ dir ++ names.filter (· != ".") →
        t.get? l ≠ some (.link target)) →
      walk t follow links dir names last false =
          .ok ⟨dir ++ names.filter (· != "."), .name, false⟩ ∨
        t.get? (dir ++ names.filter (· != ".")) = none ∧
          ∃ e, walk t follow links dir names last false = .error e
  | name :: rest, dir, last, _, hforward, hends, hlinks => by
    obtain ⟨hup, hups⟩ : name ≠ ".." ∧ ".." ∉ rest := by simpa [eq_comm] using hforward
    have hends' : rest ≠ [] → rest.getLast? ≠ some "." := fun hne => by
      rwa [List.getLast?_cons_of_ne_nil hne] at hends
    by_cases hdot : name = "."
    · subst hdot
      have hne : rest ≠ [] := fun h => hends (by rw [h]; rfl)
      rw [walk_dot]
      simpa using walk_cases hw hf hne hups (hends' hne) (by simpa using hlinks)
    · have hsteps : (name :: rest).filter (· != ".") = name :: rest.filter (· != ".") := by
        simp [hdot]
      rw [hsteps] at hlinks ⊢
      by_cases hsize : maxName < name.utf8ByteSize
      · refine .inr
          ⟨Option.eq_none_iff_forall_not_mem.2 fun n hn => ?_, _, walk_long hdot hup hsize⟩
        exact Nat.not_lt.2 (hw.isName _ n hn name (by simp)).size hsize
      · by_cases hempty : rest = []
        · subst hempty
          exact .inl (walk_last hdot hup hf hsize)
        · have hmore := filter_ne_nil hempty (hends' hempty)
          rw [List.append_cons] at hlinks ⊢
          by_cases hdir : t.get? (dir ++ [name]) = some .dir
          · rw [walk_dir hdot hup hsize hempty hdir]
            exact walk_cases hw hf hempty hups (hends' hempty) hlinks
          · refine .inr ⟨Option.eq_none_iff_forall_not_mem.2 fun n hn => ?_, ?_⟩
            · exact hdir (hw.dir_of_append hn hmore)
            · exact walk_error hdot hup hsize hempty
                (fun target => hlinks _ target (List.prefix_append _ _) (by simpa using hmore)) hdir

end Walk

/-! ## Finding -/

/-- No directory holds a name that no path can hold. -/
theorem get?_place_of_hasNul (hw : t.WellFormed) (h : p.hasNul = true) :
    t.get? (t.place p) = none := by
  obtain ⟨name, hname, hnul⟩ := Path.exists_mem_names (by decide) (List.contains_iff_mem.1 h)
  refine Option.eq_none_iff_forall_not_mem.2 fun n hn => ?_
  have hstep : name ∈ p.steps := by
    refine List.mem_filter.2 ⟨hname, bne_iff_ne.2 ?_⟩
    rintro rfl
    exact absurd hnul (by decide)
  exact (hw.isName _ n hn name (List.mem_append_right _ hstep)).no_nul hnul

/-- A straight path is found where it leads, if it is not too long and something is there. -/
theorem find_of_straight (hw : t.WellFormed) (hp : t.Straight p) (hne : p ≠ "") {follow : Follow}
    (hf : follow ≠ .always) :
    p.utf8ByteSize ≤ maxPath ∧ t.find follow p = .ok ⟨t.place p, .name, false⟩ ∨
      (p.utf8ByteSize ≤ maxPath → t.get? (t.place p) = none) ∧ ∃ e, t.find follow p = .error e := by
  cases hnul : p.hasNul with
  | true => exact .inr ⟨fun _ => get?_place_of_hasNul hw hnul, .nulByte, by rw [find, if_pos hnul]⟩
  | false =>
    by_cases hlong : maxPath < p.utf8ByteSize
    · refine .inr ⟨fun h => absurd h (Nat.not_le.2 hlong), .system .nameTooLong, ?_⟩
      rw [find, if_neg (by simp [hnul]), if_neg hne, if_pos hlong]
    · have hslash : p.endsInSlash = false := by simp [Path.endsInSlash, hp.no_slash]
      have hfind : t.find follow p =
          (walk t follow maxLinks (if p.isAbsolute then [] else t.workingDir) p.names .root
            false).mapError .system := by
        rw [find, if_neg (by simp [hnul]), if_neg hne, if_neg hlong, hslash]
      rw [hfind]
      rcases walk_cases hw hf (Path.names_ne_nil hne hp.no_slash) hp.forward hp.no_dot hp.unlinked
        with hok | ⟨hnone, e, herr⟩
      · exact .inl ⟨Nat.not_lt.1 hlong, by rw [hok]; rfl⟩
      · exact .inr ⟨fun _ => hnone, .system e, by rw [herr]; rfl⟩

end Tree

end ConnectionBroker.Files
