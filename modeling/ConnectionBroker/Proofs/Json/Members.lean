import Mathlib.Data.List.Pairwise
import ConnectionBroker.Proofs.Json.Records

/-!
# Members in any order

What a shape makes of the members of an object is an `Accepts` : each member is one that no field
knows, and complete, or it sets its field, which was not set before. Two fields of a record do not
get into each other's way (`Shape.Independent`), so the members may stand in any order
(`Accepts.perm`), and whatever can be said of the first member can be said of every one : that it
may be left out if no field knows it, that another name for its field does as well, and that its
field is not set twice.
-/

namespace ConnectionBroker

variable {ρ : Type}

namespace Field

/-- What the field is set to does not depend on whether the other one was set before. -/
def Commutes (f g : Field ρ) : Prop :=
  ∀ depth n n' set set', f.read depth n = .ok set → g.read depth n' = .ok set' →
    ∀ r, set (set' r) = set' (set r)

theorem Commutes.symm {f g : Field ρ} (h : f.Commutes g) : g.Commutes f :=
  fun depth n n' set set' hset hset' r => (h depth n' n set' set hset' hset r).symm

instance : Std.Symm (@Commutes ρ) :=
  ⟨fun _ _ => Commutes.symm⟩

/-- A read that is an update is a read of what is set. -/
theorem exists_of_map_eq_ok {α : Type} {x : Except Fault α} {set : α → ρ → ρ} {update : ρ → ρ}
    (h : x.map set = .ok update) : ∃ a, x = .ok a ∧ update = set a := by
  cases x with
  | ok a =>
    cases h
    exact ⟨a, rfl, rfl⟩
  | error e => cases h

/-- The field is read as something, and set to it. -/
def Sets {α : Type} (f : Field ρ) (set : α → ρ → ρ) : Prop :=
  ∀ depth n update, f.read depth n = .ok update → ∃ a, update = set a

theorem sets_of_map {α : Type} {f : Field ρ} {read : Nat → Node → Except Fault α}
    {set : α → ρ → ρ} (h : f.read = fun depth n => (read depth n).map set) : f.Sets set := by
  intro depth n update hread
  rw [h] at hread
  obtain ⟨a, -, rfl⟩ := exists_of_map_eq_ok hread
  exact ⟨a, rfl⟩

theorem commutes_of_map {α β : Type} {f g : Field ρ} {read : Nat → Node → Except Fault α}
    {read' : Nat → Node → Except Fault β} {set : α → ρ → ρ} {set' : β → ρ → ρ}
    (hf : f.read = fun depth n => (read depth n).map set)
    (hg : g.read = fun depth n => (read' depth n).map set')
    (h : ∀ a b r, set a (set' b r) = set' b (set a r)) : f.Commutes g := by
  intro depth n n' update update' hread hread'
  obtain ⟨a, rfl⟩ := sets_of_map hf _ _ _ hread
  obtain ⟨b, rfl⟩ := sets_of_map hg _ _ _ hread'
  exact h a b

end Field

namespace Shape

/-- No field gets into the way of another one. -/
def Independent (shape : Shape ρ) : Prop :=
  shape.fields.Pairwise Field.Commutes

/-- The members lead from one record to another, where the fields `seen` were set before. -/
inductive Accepts (shape : Shape ρ) (depth : Nat) :
    List (Node × Node) → List String → ρ → ρ → Prop
  | nil {seen : List String} {r : ρ}
      (hrequired : ∀ f ∈ shape.fields, f.required = true → f.name ∈ seen) :
      Accepts shape depth [] seen r r
  | foreign {key : String} {v : Node} {ms : List (Node × Node)} {seen : List String} {r x : ρ}
      (hkey : shape.field? key = none) (hv : v.whole = true)
      (hrest : Accepts shape depth ms seen r x) :
      Accepts shape depth ((.string key, v) :: ms) seen r x
  | known {key : String} {v : Node} {f : Field ρ} {set : ρ → ρ} {ms : List (Node × Node)}
      {seen : List String} {r x : ρ} (hkey : shape.field? key = some f) (hseen : f.name ∉ seen)
      (hread : f.read depth v = .ok set)
      (hrest : Accepts shape depth ms (f.name :: seen) (set r) x) :
      Accepts shape depth ((.string key, v) :: ms) seen r x

variable {shape : Shape ρ} {depth : Nat} {ms ms' : List (Node × Node)} {seen seen' : List String}
  {r x : ρ}

theorem finish_eq_ok_iff : shape.finish seen r = .ok x ↔
    (∀ f ∈ shape.fields, f.required = true → f.name ∈ seen) ∧ r = x := by
  rw [finish]
  split
  · next f hf =>
    have hmissing := List.find?_some hf
    simp only [Bool.and_eq_true, Bool.not_eq_true', ← Bool.not_eq_true,
      List.contains_iff_mem] at hmissing
    constructor
    · intro h
      cases h
    · rintro ⟨hrequired, -⟩
      exact absurd (hrequired f (List.mem_of_find?_eq_some hf) hmissing.1) hmissing.2
  · next hnone =>
    have hrequired : ∀ f ∈ shape.fields, f.required = true → f.name ∈ seen := by
      simpa using hnone
    rw [Except.ok.injEq]
    exact ⟨fun h => ⟨hrequired, h⟩, And.right⟩

theorem Accepts.ofMembers (h : shape.Accepts depth ms seen r x) :
    shape.ofMembers depth true ms seen r = .ok x := by
  induction h with
  | nil hrequired =>
    rw [Shape.ofMembers, if_pos rfl]
    exact finish_eq_ok_iff.2 ⟨hrequired, rfl⟩
  | foreign hkey hv _ ih =>
    rw [Shape.ofMembers, hkey]
    simp only [hv, if_true, ih]
  | known hkey hseen hread _ ih =>
    rw [Shape.ofMembers, hkey]
    simp only [List.contains_iff_mem, hseen, if_false, hread]
    exact ih

theorem accepts_of_ofMembers {closed : Bool} (h : shape.ofMembers depth closed ms seen r = .ok x) :
    closed = true ∧ shape.Accepts depth ms seen r x := by
  induction ms generalizing seen r with
  | nil =>
    rw [ofMembers] at h
    split at h
    · next hclosed =>
      obtain ⟨hrequired, rfl⟩ := finish_eq_ok_iff.1 h
      exact ⟨hclosed, .nil hrequired⟩
    · cases h
  | cons m ms ih =>
    obtain ⟨name, v⟩ := m
    cases name with
    | string key =>
      rw [ofMembers] at h
      split at h
      · next hkey =>
        split at h
        · next hv => exact (ih h).imp_right (.foreign hkey hv)
        · cases h
      · next f hkey =>
        split at h
        · cases h
        · next hseen =>
          rw [List.contains_iff_mem] at hseen
          cases hread : f.read depth v with
          | ok set =>
            rw [hread] at h
            exact (ih h).imp_right (.known hkey hseen hread)
          | error e =>
            rw [hread] at h
            cases h
    | _ => cases h

/-- An object is accepted if it has its closing brace and its members are. -/
theorem ofMembers_eq_ok_iff {closed : Bool} :
    shape.ofMembers depth closed ms seen r = .ok x ↔
      closed = true ∧ shape.Accepts depth ms seen r x :=
  ⟨accepts_of_ofMembers, fun ⟨hclosed, h⟩ => hclosed ▸ h.ofMembers⟩

namespace Accepts

/-- It matters which fields were set before, and not in which order. -/
theorem of_seen (h : shape.Accepts depth ms seen r x) (hseen : ∀ name, name ∈ seen ↔ name ∈ seen') :
    shape.Accepts depth ms seen' r x := by
  induction h generalizing seen' with
  | nil hrequired => exact .nil fun f hf hr => (hseen _).1 (hrequired f hf hr)
  | foreign hkey hv _ ih => exact .foreign hkey hv (ih hseen)
  | known hkey hfresh hread _ ih =>
    refine .known hkey (fun hmem => hfresh ((hseen _).2 hmem)) hread (ih fun name => ?_)
    rw [List.mem_cons, List.mem_cons, hseen]

theorem nil_iff : shape.Accepts depth [] seen r x ↔
    (∀ f ∈ shape.fields, f.required = true → f.name ∈ seen) ∧ r = x := by
  constructor
  · rintro ⟨hrequired⟩
    exact ⟨hrequired, rfl⟩
  · rintro ⟨hrequired, rfl⟩
    exact .nil hrequired

/-- What a field is set to, and what the record is then. -/
theorem of_known {key : String} {v : Node} {f : Field ρ} (hkey : shape.field? key = some f)
    (h : shape.Accepts depth ((.string key, v) :: ms) seen r x) :
    f.name ∉ seen ∧ ∃ set, f.read depth v = .ok set ∧
      shape.Accepts depth ms (f.name :: seen) (set r) x := by
  cases h with
  | foreign hnone => rw [hnone] at hkey; cases hkey
  | known hkey' hseen hread hrest =>
    rw [hkey'] at hkey
    cases hkey
    exact ⟨hseen, _, hread, hrest⟩

/-- A member that no field knows is complete, and the rest goes on as if it were not there. -/
theorem of_foreign {key : String} {v : Node} (hkey : shape.field? key = none)
    (h : shape.Accepts depth ((.string key, v) :: ms) seen r x) :
    v.whole = true ∧ shape.Accepts depth ms seen r x := by
  cases h with
  | foreign _ hv hrest => exact ⟨hv, hrest⟩
  | known hsome => rw [hsome] at hkey; cases hkey

theorem exists_names (h : shape.Accepts depth ms seen r x) :
    ∀ m ∈ ms, ∃ key, m.1 = .string key := by
  induction h with
  | nil => simp
  | foreign _ _ _ ih => exact List.forall_mem_cons.2 ⟨⟨_, rfl⟩, ih⟩
  | known _ _ _ _ ih => exact List.forall_mem_cons.2 ⟨⟨_, rfl⟩, ih⟩

theorem swap (hfields : shape.Independent) {m m' : Node × Node}
    (h : shape.Accepts depth (m :: m' :: ms) seen r x) :
    shape.Accepts depth (m' :: m :: ms) seen r x := by
  cases h with
  | foreign hkey hv hrest =>
    cases hrest with
    | foreign hkey' hv' hrest => exact .foreign hkey' hv' (.foreign hkey hv hrest)
    | known hkey' hseen' hread' hrest => exact .known hkey' hseen' hread' (.foreign hkey hv hrest)
  | @known key v f set _ _ _ _ hkey hseen hread hrest =>
    cases hrest with
    | foreign hkey' hv' hrest => exact .foreign hkey' hv' (.known hkey hseen hread hrest)
    | @known key' v' g set' _ _ _ _ hkey' hseen' hread' hrest =>
      -- The second field was not set by the first member, so it is another one.
      obtain ⟨hne, hseen'⟩ := List.ne_and_not_mem_of_not_mem_cons hseen'
      have hcommutes : f.Commutes g :=
        List.Pairwise.forall hfields (List.mem_of_find?_eq_some hkey)
          (List.mem_of_find?_eq_some hkey') fun heq => hne (heq ▸ rfl)
      have hfresh : f.name ∉ g.name :: seen :=
        List.not_mem_cons_of_ne_of_not_mem (Ne.symm hne) hseen
      rw [← hcommutes depth v v' set set' hread hread' r] at hrest
      refine .known hkey' hseen' hread' (.known hkey hfresh hread (hrest.of_seen fun name => ?_))
      rw [List.mem_cons, List.mem_cons, List.mem_cons, List.mem_cons, or_left_comm]

/-- The members may stand in any order. -/
theorem perm (hfields : shape.Independent) (hperm : ms.Perm ms')
    (h : shape.Accepts depth ms seen r x) : shape.Accepts depth ms' seen r x := by
  induction hperm generalizing seen r with
  | nil => exact h
  | cons m _ ih =>
    cases h with
    | foreign hkey hv hrest => exact .foreign hkey hv (ih hrest)
    | known hkey hseen hread hrest => exact .known hkey hseen hread (ih hrest)
  | swap => exact h.swap hfields
  | trans _ _ ih ih' => exact ih' (ih h)

/-- What no field that is still to be set changes is kept. -/
theorem keeps {P : ρ → Prop}
    (hset : ∀ f ∈ shape.fields, f.name ∉ seen → ∀ v set r, f.read depth v = .ok set → P r →
      P (set r))
    (h : shape.Accepts depth ms seen r x) (hr : P r) : P x := by
  induction h with
  | nil => exact hr
  | foreign _ _ _ ih => exact ih hset hr
  | known hkey hseen hread _ ih =>
    have hmem := List.mem_of_find?_eq_some hkey
    refine ih (fun f hf hfresh => hset f hf fun hmem => hfresh (List.mem_cons_of_mem _ hmem)) ?_
    exact hset _ hmem hseen _ _ _ hread hr

end Accepts

end Shape

end ConnectionBroker
