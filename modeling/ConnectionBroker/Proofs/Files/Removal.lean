import ConnectionBroker.Proofs.Files.Places

/-!
# What a removal takes away

Taking things out of a tree leaves the rest of it where it was (`Tree.Without`), and what is left is
well formed if nothing was taken from under what lies below it (`Without.wellFormed`). Removing a
straight path takes a link as a link and a directory with all that lies below it, and leaves a plain
file alone (`without_removeAll`); unlinking it takes a file or a link and leaves a directory alone
(`without_unlink`). Either fails where nothing is there, and changes nothing.
-/

namespace ConnectionBroker

theorem lookup_filter {α β : Type} [BEq α] [LawfulBEq α] (keep : α → Bool) (rows : List (α × β))
    (key : α) :
    (rows.filter fun row => keep row.1).lookup key =
      if keep key then rows.lookup key else none := by
  induction rows with
  | nil => simp
  | cons row rest ih =>
    obtain ⟨other, value⟩ := row
    by_cases heq : key = other
    · subst heq
      cases hk : keep key <;> simp [hk, ih]
    · have hne : (key == other) = false := beq_eq_false_iff_ne.2 heq
      cases hk : keep other <;> simp [hk, ih, List.lookup_cons, hne]

namespace Files.Tree

variable {t t' t'' : Tree} {p : Path} {l m : Location} {n : Node} {S S' : Location → Prop}

/-- The second tree is the first without some locations. -/
structure Without (t : Tree) (S : Location → Prop) (t' : Tree) : Prop where
  workingDir : t'.workingDir = t.workingDir
  gone : ∀ l, S l → t'.get? l = none
  kept : ∀ l, ¬S l → t'.get? l = t.get? l

/-- Just the entries for which that holds are missing in the second tree, and the others are there
as they were. -/
structure Loses (t : Tree) (S : Location → Prop) (t' : Tree) : Prop where
  gone_iff : ∀ l n, t.get? l = some n → (t'.get? l = none ↔ S l)
  kept : ∀ l n, t.get? l = some n → ¬S l → t'.get? l = some n
  not_made : ∀ l, t.get? l = none → t'.get? l = none
  workingDir : t'.workingDir = t.workingDir

namespace Without

theorem refl (t : Tree) : t.Without (fun _ => False) t :=
  ⟨rfl, fun _ h => h.elim, fun _ _ => rfl⟩

theorem trans (h : t.Without S t') (h' : t'.Without S' t'') :
    t.Without (fun l => S l ∨ S' l) t'' := by
  refine ⟨h'.workingDir.trans h.workingDir, fun l hl => ?_, fun l hl => ?_⟩
  · by_cases hS' : S' l
    · exact h'.gone l hS'
    · rw [h'.kept l hS', h.gone l (hl.resolve_right hS')]
  · obtain ⟨hS, hS'⟩ := not_or.1 hl
    rw [h'.kept l hS', h.kept l hS]

theorem not_made (h : t.Without S t') (hl : t.get? l = none) : t'.get? l = none := by
  by_cases hS : S l
  · exact h.gone l hS
  · rw [h.kept l hS, hl]

/-- Only what is there can be taken away. -/
theorem congr (h : t.Without S t') (heq : ∀ l n, t.get? l = some n → (S l ↔ S' l)) :
    t.Without S' t' := by
  refine ⟨h.workingDir, fun l hl => ?_, fun l hl => ?_⟩ <;> cases hget : t.get? l with
  | none => exact h.not_made hget
  | some n =>
    first
    | exact h.gone l ((heq l n hget).2 hl)
    | exact (h.kept l (mt (heq l n hget).1 hl)).trans hget

theorem of_some (h : t.Without S t') (hl : t'.get? l = some n) : ¬S l ∧ t.get? l = some n := by
  have hS : ¬S l := by
    intro hS
    rw [h.gone l hS] at hl
    cases hl
  exact ⟨hS, (h.kept l hS).symm.trans hl⟩

theorem place_eq (h : t.Without S t') (p : Path) : t'.place p = t.place p := by
  rw [place, place, h.workingDir]

theorem straight (h : t.Without S t') (hp : t.Straight p) : t'.Straight p where
  forward := hp.forward
  no_slash := hp.no_slash
  no_dot := hp.no_dot
  unlinked l target hl hne hlink := by
    rw [h.place_eq] at hl hne
    exact hp.unlinked l target hl hne (h.of_some hlink).2

theorem loses (h : t.Without S t') : t.Loses S t' where
  gone_iff l n hl := by
    refine ⟨fun hgone => not_not.1 fun hS => ?_, h.gone l⟩
    rw [h.kept l hS, hl] at hgone
    cases hgone
  kept l n hl hS := by rw [h.kept l hS, hl]
  not_made _ := h.not_made
  workingDir := h.workingDir

/-- What is taken away goes with all that lies below it. -/
theorem wellFormed (h : t.Without S t') (hw : t.WellFormed)
    (hbelow : ∀ l m n, S l → l <+: m → t.get? m = some n → S m) : t'.WellFormed where
  isName l n hl := hw.isName l n (h.of_some hl).2
  parent l name n hl := by
    obtain ⟨hS, hl⟩ := h.of_some hl
    have hparent : ¬S l := fun hSl => hS (hbelow l _ n hSl (List.prefix_append l [name]) hl)
    rw [h.kept l hparent]
    exact hw.parent l name n hl

end Without

/-! ## Taking things out -/

theorem without_filter (keep : Location → Bool) (hroot : keep [] = true) (t : Tree) :
    t.Without (fun l => keep l = false)
      { t with nodes := t.nodes.filter fun row => keep row.1 } := by
  refine ⟨rfl, fun l hl => ?_, fun l hl => ?_⟩
  · have hne : l.isEmpty = false := by
      cases l with
      | nil => rw [hroot] at hl; cases hl
      | cons => rfl
    simp [get?, hne, lookup_filter, hl]
  · simp only [get?, lookup_filter, Bool.not_eq_false] at hl ⊢
    rw [if_pos hl]

theorem without_erase (t : Tree) (hl : l ≠ []) : t.Without (· = l) (t.erase l) := by
  refine (without_filter (· != l) (by simpa using hl.symm) t).congr fun m n _ => ?_
  simp

theorem below_iff : below l m = true ↔ l <+: m ∧ l ≠ m := by
  simp [below]

theorem without_clear (t : Tree) (l : Location) :
    t.Without (fun m => below l m = true) (t.clear l) := by
  refine (without_filter (!below l ·) ?_ t).congr fun m n _ => by simp
  cases l <;> simp [below]

theorem hasBelow_clear (t : Tree) (l : Location) : (t.clear l).hasBelow l = false := by
  simp [hasBelow, clear]

/-! ## Removing what a path names -/

/-- Removing takes a link, or a directory with all that lies below it. -/
def Removes (t : Tree) (p : Path) (l : Location) : Prop :=
  ∃ m, t.Names p m ∧
    (t.get? m = some .dir ∧ m <+: l ∨ (∃ target, t.get? m = some (.link target)) ∧ l = m)

/-- A removal takes nothing but what the path names and what lies below that. -/
theorem Removes.place_below (h : t.Removes p l) : t.place p <+: l := by
  obtain ⟨m, hm, ⟨-, hml⟩ | ⟨-, rfl⟩⟩ := h
  · exact hm.place ▸ hml
  · exact hm.place ▸ List.prefix_rfl

/-- Unlinking takes what is no directory. -/
def Unlinks (t : Tree) (p : Path) (l : Location) : Prop :=
  t.Names p l ∧ t.get? l ≠ some .dir

theorem place_ne_nil (hp : t.Straight p) (hne : p ≠ "") : t.place p ≠ [] := by
  have hsteps : p.steps ≠ [] := filter_ne_nil (Path.names_ne_nil hne hp.no_slash) hp.no_dot
  exact fun h => hsteps (List.append_eq_nil_iff.1 h).2

/-- Nothing is taken where the system finds nothing. -/
theorem without_nothing (h : p.utf8ByteSize ≤ maxPath → t.get? (t.place p) = none) :
    t.Without (t.Removes p) t ∧ t.Without (t.Unlinks p) t := by
  have hno : ∀ {m}, t.Names p m → t.get? m = none := fun hm => hm.place ▸ h hm.size
  refine ⟨(Without.refl t).congr fun l n hl => ?_, (Without.refl t).congr fun l n hl => ?_⟩
  · refine ⟨False.elim, ?_⟩
    rintro ⟨m, hm, ⟨hdir, -⟩ | ⟨⟨target, hlink⟩, -⟩⟩
    · rw [hno hm] at hdir
      cases hdir
    · rw [hno hm] at hlink
      cases hlink
  · refine ⟨False.elim, fun ⟨hm, _⟩ => ?_⟩
    rw [hno hm] at hl
    cases hl

/-- What a removal takes depends on what is there. -/
theorem removes_iff (hsize : p.utf8ByteSize ≤ maxPath) (hn : t.get? (t.place p) = some n) :
    t.Removes p l ↔ n = .dir ∧ t.place p <+: l ∨ (∃ target, n = .link target) ∧ l = t.place p := by
  constructor
  · rintro ⟨m, ⟨rfl, -⟩, hm⟩
    simpa [hn] using hm
  · intro h
    exact ⟨_, ⟨rfl, hsize⟩, by simpa [hn] using h⟩

theorem unlinks_iff (hsize : p.utf8ByteSize ≤ maxPath) (hn : t.get? (t.place p) = some n) :
    t.Unlinks p l ↔ l = t.place p ∧ n ≠ .dir := by
  constructor
  · rintro ⟨⟨rfl, -⟩, hdir⟩
    exact ⟨rfl, fun h => hdir (h ▸ hn)⟩
  · rintro ⟨rfl, hdir⟩
    exact ⟨⟨rfl, hsize⟩, by simpa [hn] using hdir⟩

section Straight

variable (hw : t.WellFormed) (hp : t.Straight p) (hne : p ≠ "")

include hw hp hne in
/-- What is there is found under a name that is not too long. -/
theorem find_of_some {follow : Follow} (hf : follow ≠ .always) (hsize : p.utf8ByteSize ≤ maxPath)
    (hn : t.get? (t.place p) = some n) : t.find follow p = .ok ⟨t.place p, .name, false⟩ := by
  rcases find_of_straight hw hp hne hf with ⟨-, hfind⟩ | ⟨hnone, -⟩
  · exact hfind
  · rw [hnone hsize] at hn
    cases hn

include hw hp hne in
theorem unlink_of_some (hsize : p.utf8ByteSize ≤ maxPath) (hn : t.get? (t.place p) = some n)
    (hdir : n ≠ .dir) : t.unlink p = .ok (t.erase (t.place p)) := by
  have hfind := find_of_some hw hp hne (by simp : Follow.never ≠ .always) hsize hn
  cases n with
  | dir => exact absurd rfl hdir
  | _ => simp [unlink, hfind, hn, bind, Except.bind]

include hw hp hne in
/-- Unlinking takes a file or a link, and leaves a directory where it is. -/
theorem without_unlink : t.Without (t.Unlinks p) ((t.unlink p).toOption.getD t) := by
  rcases find_of_straight hw hp hne (by simp : Follow.never ≠ .always) with ⟨hsize, hfind⟩ |
    ⟨hnone, e, herr⟩
  · cases hn : t.get? (t.place p) with
    | none =>
      have hfail : (t.unlink p).toOption = none := by
        simp [unlink, hfind, hn, bind, Except.bind, Except.toOption]
      rw [hfail]
      exact (without_nothing fun _ => hn).2
    | some n =>
      by_cases hdir : n = .dir
      · have hfail : (t.unlink p).toOption = none := by
          simp [unlink, hfind, hn, hdir, bind, Except.bind, Except.toOption]
        rw [hfail]
        exact (Without.refl t).congr fun l _ _ => by simp [unlinks_iff hsize hn, hdir]
      · rw [unlink_of_some hw hp hne hsize hn hdir]
        exact (without_erase t (place_ne_nil hp hne)).congr fun l _ _ => by
          simp [unlinks_iff hsize hn, hdir]
  · have hfail : (t.unlink p).toOption = none := by
      simp [unlink, herr, bind, Except.bind, Except.toOption]
    rw [hfail]
    exact (without_nothing hnone).2

include hw hp hne in
theorem stat_of_some (hsize : p.utf8ByteSize ≤ maxPath) (hn : t.get? (t.place p) = some n) :
    t.stat .ifSlash p = .ok (⟨t.place p, .name, false⟩, n) := by
  have hfind := find_of_some hw hp hne (by simp : Follow.ifSlash ≠ .always) hsize hn
  cases n <;> simp [stat, nodeAt, hfind, hn, bind, Except.bind, pure, Except.pure]

include hw hp hne in
/-- The directory itself goes last, when nothing is left below it. -/
theorem removeDir_clear (hsize : p.utf8ByteSize ≤ maxPath) (hdir : t.get? (t.place p) = some .dir) :
    (t.clear (t.place p)).removeDir p =
      .ok ((t.clear (t.place p)).erase (t.place p)) := by
  have hcleared := without_clear t (t.place p)
  have hw' : (t.clear (t.place p)).WellFormed := by
    refine hcleared.wellFormed hw fun l m n hl hm _ => ?_
    obtain ⟨hbelow, hlne⟩ := below_iff.1 hl
    refine below_iff.2 ⟨hbelow.trans hm, ?_⟩
    rintro rfl
    exact hlne (hbelow.eq_of_length_le hm.length_le)
  have hdir' : (t.clear (t.place p)).get? ((t.clear (t.place p)).place p) = some .dir := by
    rw [hcleared.place_eq, hcleared.kept _ (by simp [below]), hdir]
  have hfind :=
    find_of_some hw' (hcleared.straight hp) hne (by simp : Follow.never ≠ .always) hsize hdir'
  rw [hcleared.place_eq] at hfind hdir'
  simp [removeDir, hfind, hdir', hasBelow_clear, bind, Except.bind]

include hw hp hne in
/-- Removing takes a link as a link, and a directory with all that lies below it. It leaves a plain
file where it is. -/
theorem without_removeAll : t.Without (t.Removes p) (t.removeAll p).2 := by
  rcases find_of_straight hw hp hne (by simp : Follow.ifSlash ≠ .always) with ⟨hsize, hfind⟩ |
    ⟨hnone, e, herr⟩
  · cases hn : t.get? (t.place p) with
    | none =>
      have hfail : (t.removeAll p).2 = t := by
        simp [removeAll, stat, nodeAt, hfind, hn, bind, Except.bind]
      rw [hfail]
      exact (without_nothing fun _ => hn).1
    | some n =>
      have hstat := stat_of_some hw hp hne hsize hn
      cases n with
      | file content =>
        have hfail : (t.removeAll p).2 = t := by simp [removeAll, hstat]
        rw [hfail]
        exact (Without.refl t).congr fun l _ _ => by simp [removes_iff hsize hn]
      | link target =>
        have hgone : (t.removeAll p).2 = t.erase (t.place p) := by
          simp [removeAll, hstat, unlink_of_some hw hp hne hsize hn (by simp)]
        rw [hgone]
        exact (without_erase t (place_ne_nil hp hne)).congr fun l _ _ => by
          simp [removes_iff hsize hn]
      | dir =>
        have hgone : (t.removeAll p).2 = (t.clear (t.place p)).erase (t.place p) := by
          simp [removeAll, hstat, removeDir_clear hw hp hne hsize hn]
        rw [hgone]
        refine ((without_clear t (t.place p)).trans
          (without_erase _ (place_ne_nil hp hne))).congr fun l _ _ => ?_
        rw [removes_iff hsize hn, below_iff]
        by_cases heq : l = t.place p
        · simp [heq]
        · simp [heq, Ne.symm heq]
  · have hfail : (t.removeAll p).2 = t := by
      simp [removeAll, stat, herr, bind, Except.bind]
    rw [hfail]
    exact (without_nothing hnone).1

end Straight

end Files.Tree

end ConnectionBroker
