import ConnectionBroker.Proofs.Files.Removal

/-!
# Writing a file, and reading it

What a walk does that arrives somewhere is an inductive relation (`Tree.Leads`) : it goes down into
directories and through links, and stops at the last name, whatever is there. So it arrives at the
same spot after files and directories were put where nothing was, or files in place of files
(`Tree.Grows`, `Leads.of_grows`), and what was written under a path is read under that path
(`read_of_write`), be the path a link, or one link after the other, or relative. The directories
that are made for a file are put where nothing was (`Tree.Adds`), so every file keeps its content.
-/

namespace ConnectionBroker.Files.Tree

variable {t t' t'' : Tree} {p : Path} {l m : Location} {n : Node} {content : ByteArray}

/-! ## Walks -/

/-- A name that a walk looks up in a directory. -/
structure Goes (name : String) : Prop where
  not_dot : name ≠ "."
  not_up : name ≠ ".."
  size : ¬maxName < name.utf8ByteSize

/-- A link under the last name of a path is not followed. -/
def stays (follow : Follow) (rest : List String) (slash : Bool) : Bool :=
  rest.isEmpty && (follow == .never || (follow == .ifSlash && !slash))

/-- The names lead to a spot, with so many links left to follow. -/
inductive Leads (t : Tree) (follow : Follow) :
    Nat → Location → List String → Last → Bool → Spot → Prop
  | here {links : Nat} {dir : Location} {last : Last} {slash : Bool} :
      Leads t follow links dir [] last slash ⟨dir, last, slash⟩
  | dot {links : Nat} {dir : Location} {rest : List String} {last : Last} {slash : Bool}
      {spot : Spot} (h : Leads t follow links dir rest .dot slash spot) :
      Leads t follow links dir ("." :: rest) last slash spot
  | up {links : Nat} {dir : Location} {rest : List String} {last : Last} {slash : Bool}
      {spot : Spot} (h : Leads t follow links dir.dropLast rest .up slash spot) :
      Leads t follow links dir (".." :: rest) last slash spot
  | down {links : Nat} {dir : Location} {name : String} {rest : List String} {last : Last}
      {slash : Bool} {spot : Spot} (hname : Goes name) (hrest : rest ≠ [])
      (hdir : t.get? (dir ++ [name]) = some .dir)
      (h : Leads t follow links (dir ++ [name]) rest .name slash spot) :
      Leads t follow links dir (name :: rest) last slash spot
  | through {links : Nat} {dir : Location} {name : String} {rest : List String} {last : Last}
      {slash : Bool} {spot : Spot} {target : Path} (hname : Goes name)
      (hlink : t.get? (dir ++ [name]) = some (.link target))
      (hfollow : stays follow rest slash = false)
      (h : Leads t follow links (if target.isAbsolute then [] else dir) (target.names ++ rest) .root
        (slash || (rest.isEmpty && target.endsInSlash)) spot) :
      Leads t follow (links + 1) dir (name :: rest) last slash spot
  | arrive {links : Nat} {dir : Location} {name : String} {last : Last} {slash : Bool}
      (hname : Goes name)
      (hlink : ∀ target, t.get? (dir ++ [name]) = some (.link target) →
        stays follow [] slash = true) :
      Leads t follow links dir [name] last slash ⟨dir ++ [name], .name, slash⟩

variable {follow : Follow} {links : Nat} {dir : Location} {names : List String} {last : Last}
  {slash : Bool} {spot : Spot}

/-- What a walk makes of a name that is neither a dot nor two. -/
theorem walk_name {name : String} {rest : List String} (hname : Goes name) :
    walk t follow links dir (name :: rest) last slash =
      match t.get? (dir ++ [name]) with
      | some (.link target) =>
        if stays follow rest slash then .ok ⟨dir ++ [name], .name, slash⟩
        else
          match links with
          | 0 => .error .tooManyLinks
          | links + 1 =>
            walk t follow links (if target.isAbsolute then [] else dir) (target.names ++ rest) .root
              (slash || (rest.isEmpty && target.endsInSlash))
      | some .dir =>
        if rest.isEmpty then .ok ⟨dir ++ [name], .name, slash⟩
        else walk t follow links (dir ++ [name]) rest .name slash
      | some (.file _) =>
        if rest.isEmpty then .ok ⟨dir ++ [name], .name, slash⟩ else .error .notDirectory
      | none => if rest.isEmpty then .ok ⟨dir ++ [name], .name, slash⟩ else .error .noEntry := by
  rw [walk, if_neg hname.not_dot, if_neg hname.not_up, if_neg hname.size]
  rfl

theorem Leads.walk (h : Leads t follow links dir names last slash spot) :
    t.walk follow links dir names last slash = .ok spot := by
  induction h with
  | here => rw [Tree.walk]
  | dot _ ih => rw [Tree.walk, if_pos rfl, ih]
  | up _ ih => rw [Tree.walk, if_neg (by decide), if_pos rfl, ih]
  | down hname hrest hdir _ ih =>
    rw [walk_name hname]
    simp only [hdir, List.isEmpty_iff, hrest, if_false, ih]
  | through hname hlink hfollow _ ih =>
    rw [walk_name hname]
    simp only [hlink, hfollow, Bool.false_eq_true, if_false, ih]
  | @arrive links dir name last slash hname hlink =>
    rw [walk_name hname]
    rcases hget : t.get? (dir ++ [name]) with _ | _ | _ | target
    · rfl
    · rfl
    · rfl
    · simp only [hlink target hget, if_true]

theorem leads_of_walk (h : walk t follow links dir names last slash = .ok spot) :
    Leads t follow links dir names last slash spot := by
  fun_induction walk t follow links dir names last slash with
  | case1 =>
    cases h
    exact .here
  | case2 _ _ _ _ _ ih => exact .dot (ih h)
  | case3 _ _ _ _ _ _ ih => exact .up (ih h)
  | case5 links dir name rest last slash hdot hup hsize here target hlink hstays =>
    cases h
    obtain rfl : rest = [] := List.isEmpty_iff.1 (Bool.and_eq_true_iff.1 hstays).1
    exact .arrive ⟨hdot, hup, hsize⟩ fun _ _ => hstays
  | case7 dir name rest last slash hdot hup hsize here target hlink hfollow links start ih =>
    exact .through ⟨hdot, hup, hsize⟩ hlink (Bool.eq_false_iff.2 hfollow) (ih h)
  | case9 links dir name rest last slash hdot hup hsize here hdir hrest ih =>
    exact .down ⟨hdot, hup, hsize⟩ (mt List.isEmpty_iff.2 hrest) hdir (ih h)
  | case8 links dir name rest last slash hdot hup hsize here hget hrest
  | case10 links dir name rest last slash hdot hup hsize here _ hget hrest
  | case12 links dir name rest last slash hdot hup hsize here hget hrest =>
    cases h
    obtain rfl : rest = [] := List.isEmpty_iff.1 hrest
    exact .arrive ⟨hdot, hup, hsize⟩ fun target htarget => by cases hget.symm.trans htarget
  | case4 | case6 | case11 | case13 => cases h

/-- A walk arrives where the names lead. -/
theorem walk_eq_ok_iff : walk t follow links dir names last slash = .ok spot ↔
    Leads t follow links dir names last slash spot :=
  ⟨leads_of_walk, Leads.walk⟩

/-- A path that ends in a slash leads to a spot that ends in one. -/
theorem Leads.ends_in_slash (h : Leads t follow links dir names last slash spot)
    (hslash : slash = true) : spot.slash = true := by
  induction h with
  | here => exact hslash
  | dot _ ih => exact ih hslash
  | up _ ih => exact ih hslash
  | down _ _ _ _ ih => exact ih hslash
  | through _ _ _ _ ih => exact ih (by rw [hslash, Bool.true_or])
  | arrive => exact hslash

/-- If every link is followed, a walk that arrives under a name has not arrived at a link. -/
theorem Leads.not_link (h : Leads t .always links dir names last slash spot)
    (hlast : last = .name → names ≠ []) (hname : spot.last = .name) :
    spot.location ≠ [] ∧ ∀ target, t.get? spot.location ≠ some (.link target) := by
  induction h with
  | here => exact absurd rfl (hlast hname)
  | dot _ ih => exact ih nofun hname
  | up _ ih => exact ih nofun hname
  | down _ hrest _ _ ih => exact ih (fun _ => hrest) hname
  | through _ _ _ _ ih => exact ih nofun hname
  | arrive _ hlink =>
    refine ⟨List.append_ne_nil_of_right_ne_nil _ (List.cons_ne_nil _ _), fun target htarget => ?_⟩
    cases hlink target htarget

/-! ## Trees that grow -/

/-- Something else may be where nothing was, or a file, but no link, and the rest is as before. -/
structure Grows (t t' : Tree) : Prop where
  workingDir : t'.workingDir = t.workingDir
  kept : ∀ l n, t.get? l = some n → (∀ content, n ≠ .file content) → t'.get? l = some n
  not_link : ∀ l target, t'.get? l = some (.link target) → t.get? l = some (.link target)

/-- A path leads where it led. -/
theorem Leads.of_grows (hgrows : Grows t t')
    (h : Leads t follow links dir names last slash spot) :
    Leads t' follow links dir names last slash spot := by
  induction h with
  | here => exact .here
  | dot _ ih => exact .dot ih
  | up _ ih => exact .up ih
  | down hname hrest hdir _ ih => exact .down hname hrest (hgrows.kept _ _ hdir nofun) ih
  | through hname hlink hfollow _ ih =>
    exact .through hname (hgrows.kept _ _ hlink nofun) hfollow ih
  | arrive hname hlink =>
    exact .arrive hname fun target htarget => hlink target (hgrows.not_link _ _ htarget)

/-- A path is found if it is one, and its names lead somewhere. -/
theorem find_eq_ok_iff : t.find follow p = .ok spot ↔
    p.hasNul = false ∧ p ≠ "" ∧ p.utf8ByteSize ≤ maxPath ∧
      Leads t follow maxLinks (if p.isAbsolute then [] else t.workingDir) p.names .root
        p.endsInSlash spot := by
  rw [← walk_eq_ok_iff, find]
  cases p.hasNul with
  | true => simp
  | false =>
    by_cases hempty : p = ""
    · simp [hempty]
    · by_cases hlong : maxPath < p.utf8ByteSize
      · simp [hempty, hlong, Nat.not_le.2 hlong]
      · rw [if_neg Bool.false_ne_true, if_neg hempty, if_neg hlong]
        cases hwalk : t.walk follow maxLinks (if p.isAbsolute then [] else t.workingDir) p.names
            .root p.endsInSlash <;>
          simp [Except.mapError, hwalk, hempty, Nat.not_lt.1 hlong]

theorem find_of_grows (hgrows : Grows t t') (h : t.find follow p = .ok spot) :
    t'.find follow p = .ok spot := by
  obtain ⟨hnul, hempty, hsize, hleads⟩ := find_eq_ok_iff.1 h
  refine find_eq_ok_iff.2 ⟨hnul, hempty, hsize, ?_⟩
  rw [hgrows.workingDir]
  exact hleads.of_grows hgrows

theorem get?_put (hl : l ≠ []) (t : Tree) (n : Node) (m : Location) :
    (t.put l n).get? m = if m = l then some n else t.get? m := by
  have hlookup : (t.put l n).nodes.lookup m =
      (if m != l then t.nodes.lookup m else none).or ([(l, n)].lookup m) :=
    List.lookup_append.trans (congrArg (Option.or · _) (lookup_filter (· != l) t.nodes m))
  rw [get?, get?, hlookup]
  by_cases hm : m = l
  · subst hm
    simp [hl]
  · have hne : (m == l) = false := beq_eq_false_iff_ne.2 hm
    simp [hm, List.lookup_cons, hne]

/-! ## Writing -/

/-- A file may be written where there is one, or nothing. -/
theorem grows_put_file (hl : l ≠ []) (hdir : t.get? l ≠ some .dir)
    (hlink : ∀ target, t.get? l ≠ some (.link target)) (content : ByteArray) :
    Grows t (t.put l (.file content)) where
  workingDir := rfl
  kept m n hn hfile := by
    have hm : m ≠ l := by
      rintro rfl
      cases n with
      | file content => exact hfile content rfl
      | dir => exact hdir hn
      | link target => exact hlink target hn
    rw [get?_put hl, if_neg hm, hn]
  not_link m target hm := by
    rw [get?_put hl] at hm
    split at hm
    · cases hm
    · exact hm

/-- A file is written where its path leads : under a name, and not to a directory. -/
theorem find_of_findForWriting (h : t.findForWriting p = .ok l) :
    t.find .always p = .ok ⟨l, .name, false⟩ ∧ t.get? l ≠ some .dir := by
  rw [findForWriting] at h
  cases hfind : t.find (if p.endsInSlash then .never else .always) p with
  | error e =>
    rw [hfind] at h
    cases h
  | ok spot =>
    obtain ⟨location, last, slash⟩ := spot
    rw [hfind] at h
    change (if slash || last != .name then _ else _) = _ at h
    split at h
    · cases h
    · next hplain =>
      obtain ⟨rfl, rfl⟩ : slash = false ∧ last = .name := by simpa using hplain
      have hends : p.endsInSlash = false := by
        obtain ⟨-, -, -, hleads⟩ := find_eq_ok_iff.1 hfind
        exact Bool.eq_false_iff.2 fun hends => Bool.false_ne_true (hleads.ends_in_slash hends)
      rw [hends] at hfind
      split at h
      · cases h
      · next hdir =>
        cases h
        exact ⟨hfind, hdir⟩

/-- A path is read if it leads to a file. -/
theorem read_eq_ok_iff : t.read p = .ok content ↔ ∃ spot, t.find .always p = .ok spot ∧
    t.get? spot.location = some (.file content) ∧ spot.slash = false := by
  rw [read, stat]
  cases hfind : t.find .always p with
  | error e => simp [bind, Except.bind]
  | ok spot =>
    obtain ⟨location, last, slash⟩ := spot
    rcases hget : t.get? location with _ | _ | _ | target <;> cases slash <;>
      simp [bind, Except.bind, pure, Except.pure, nodeAt, hget]

/-- What was written under a path is read under it. -/
theorem read_of_write (h : t.write p content = .ok t') : t'.read p = .ok content := by
  rw [write] at h
  cases hplace : t.findForWriting p with
  | error e =>
    rw [hplace] at h
    cases h
  | ok l =>
    rw [hplace] at h
    obtain rfl : t.put l (.file content) = t' := Except.ok.inj h
    obtain ⟨hfind, hdir⟩ := find_of_findForWriting hplace
    obtain ⟨-, -, -, hleads⟩ := find_eq_ok_iff.1 hfind
    obtain ⟨hl, hlink⟩ := hleads.not_link nofun rfl
    have hfind' := find_of_grows (grows_put_file hl hdir hlink content) hfind
    have hget : (t.put l (.file content)).get? l = some (.file content) := by
      rw [get?_put hl, if_pos rfl]
    exact read_eq_ok_iff.2 ⟨_, hfind', hget, rfl⟩

/-! ## Making directories -/

/-- There are more directories than before, where nothing was, and nothing else changed. -/
structure Adds (t t' : Tree) : Prop where
  workingDir : t'.workingDir = t.workingDir
  cases : ∀ l, t'.get? l = t.get? l ∨ t.get? l = none ∧ t'.get? l = some .dir

namespace Adds

theorem refl (t : Tree) : Adds t t :=
  ⟨rfl, fun _ => .inl rfl⟩

theorem trans (h : Adds t t') (h' : Adds t' t'') : Adds t t'' := by
  refine ⟨h'.workingDir.trans h.workingDir, fun l => ?_⟩
  rcases h.cases l with hl | ⟨hnone, hdir⟩
  · rcases h'.cases l with hl' | ⟨hnone', hdir'⟩
    · exact .inl (hl'.trans hl)
    · exact .inr ⟨hl.symm.trans hnone', hdir'⟩
  · rcases h'.cases l with hl' | ⟨hnone', -⟩
    · exact .inr ⟨hnone, hl'.trans hdir⟩
    · cases hdir.symm.trans hnone'

/-- What was there is still there. -/
theorem kept (h : Adds t t') (hn : t.get? l = some n) : t'.get? l = some n := by
  rcases h.cases l with hl | ⟨hnone, -⟩
  · rw [hl, hn]
  · cases hnone.symm.trans hn

theorem grows (h : Adds t t') : Grows t t' where
  workingDir := h.workingDir
  kept _ _ hn _ := h.kept hn
  not_link l target hl := by
    rcases h.cases l with heq | ⟨-, hdir⟩
    · exact heq.symm.trans hl
    · cases hdir.symm.trans hl

/-- A file is read under the path under which it was read. -/
theorem read (h : Adds t t') (hread : t.read p = .ok content) : t'.read p = .ok content := by
  obtain ⟨spot, hfind, hget, hslash⟩ := read_eq_ok_iff.1 hread
  exact read_eq_ok_iff.2 ⟨spot, find_of_grows h.grows hfind, h.kept hget, hslash⟩

end Adds

/-- A directory is put where nothing is. -/
theorem adds_put_dir (hnone : t.get? l = none) : Adds t (t.put l .dir) := by
  have hl : l ≠ [] := by
    rintro rfl
    cases hnone
  refine ⟨rfl, fun m => ?_⟩
  rw [get?_put hl]
  split
  · next hm => exact .inr ⟨hm ▸ hnone, rfl⟩
  · exact .inl rfl

theorem adds_makeDir (h : t.makeDir p = .ok t') : Adds t t' := by
  rw [makeDir] at h
  cases hfind : t.find .never p with
  | error e =>
    rw [hfind] at h
    cases h
  | ok spot =>
    rw [hfind] at h
    dsimp only [bind, Except.bind] at h
    split at h
    · next hnone =>
      cases h
      exact adds_put_dir hnone
    · cases h

theorem adds_ensureDir (t : Tree) (p : Path) : Adds t (t.ensureDir p).2 := by
  rw [ensureDir]
  split
  · next hmake => exact adds_makeDir hmake
  · exact .refl t

theorem adds_makeDirsWith (fuel : Nat) (t : Tree) (p : Path) :
    Adds t (t.makeDirsWith fuel p).2 := by
  induction fuel generalizing t p with
  | zero => exact .refl t
  | succ fuel ih =>
    rw [makeDirsWith]
    split
    · exact .refl t
    · split
      · next hmake => exact adds_makeDir hmake
      · split
        · next parent hparent =>
          have hparents := ih t parent
          split
          · next heq =>
            rw [heq] at hparents
            exact hparents.trans (adds_ensureDir _ p)
          · next heq =>
            rw [heq] at hparents
            exact hparents
        · exact .refl t

theorem adds_makeDirs (t : Tree) (p : Path) : Adds t (t.makeDirs p).2 :=
  adds_makeDirsWith _ t p

end ConnectionBroker.Files.Tree
