import ConnectionBroker.Proofs.Json.Edits

/-!
# The members of a login

A login is read in two passes : the members beside the kind are put aside, each of them complete,
and read by the shape of the kind once it is known. What comes out depends on which members there
are and not on where the kind stands among them (`SshAuth.Reads`), so a login, too, may have its
members in any order (`SshAuth.orderFree`).
-/

namespace ConnectionBroker

namespace Node

mutual

/-- What has a value is complete. -/
theorem whole_of_value? : ∀ {depth : Nat} {n : Node}, (n.value? depth).isSome = true →
    n.whole = true
  | _, .broken, h => by cases h
  | _, .null, _ => rfl
  | _, .bool _, _ => rfl
  | _, .number _, _ => rfl
  | _, .string _, _ => rfl
  | _, .unpaired, h => by cases h
  | 0, .array _ _, h => by cases h
  | depth + 1, .array items closed, h => by
    rw [value?] at h
    split at h
    · next hclosed =>
      rw [Option.isSome_map] at h
      rw [whole, allWhole_of_itemValues? h, hclosed]
      rfl
    · cases h
  | 0, .object _ _, h => by cases h
  | depth + 1, .object members closed, h => by
    rw [value?] at h
    split at h
    · next hclosed =>
      rw [Option.isSome_map] at h
      rw [whole, membersWhole_of_memberValues? h, hclosed]
      rfl
    · cases h
termination_by structural _ n => n

theorem allWhole_of_itemValues? : ∀ {depth : Nat} {items : List Node},
    (itemValues? depth items).isSome = true → allWhole items = true
  | _, [], _ => rfl
  | depth, n :: rest, h => by
    obtain ⟨hn, hrest⟩ :
        (n.value? depth).isSome = true ∧ (itemValues? depth rest).isSome = true := by
      rw [itemValues?] at h
      cases hv : n.value? depth <;> cases hvs : itemValues? depth rest <;> simp_all
    rw [allWhole, whole_of_value? hn, allWhole_of_itemValues? hrest]
    rfl
termination_by structural _ items => items

theorem membersWhole_of_memberValues? : ∀ {depth : Nat} {members : List (Node × Node)},
    (memberValues? depth members).isSome = true → membersWhole members = true
  | _, [], _ => rfl
  | depth, m :: rest, h => by
    obtain ⟨hm, hrest⟩ :
        (memberValue? depth m).isSome = true ∧ (memberValues? depth rest).isSome = true := by
      rw [memberValues?] at h
      cases hv : memberValue? depth m <;> cases hvs : memberValues? depth rest <;> simp_all
    rw [membersWhole, memberWhole_of_memberValue? hm, membersWhole_of_memberValues? hrest]
    rfl
termination_by structural _ members => members

theorem memberWhole_of_memberValue? : ∀ {depth : Nat} {m : Node × Node},
    (memberValue? depth m).isSome = true → memberWhole m = true
  | depth, (.string name, v), h => by
    rw [memberValue?, Option.isSome_map] at h
    rw [memberWhole, whole_of_value? h]
    rfl
  | _, (.broken, _), h => by cases h
  | _, (.null, _), h => by cases h
  | _, (.bool _, _), h => by cases h
  | _, (.number _, _), h => by cases h
  | _, (.unpaired, _), h => by cases h
  | _, (.array _ _, _), h => by cases h
  | _, (.object _ _, _), h => by cases h
termination_by structural _ m => m

end

end Node

namespace SshAuth

/-- The kind of a login. -/
def variant : SshAuth → Kind
  | password _ => .password
  | publicKey _ _ => .publicKey
  | agent => .agent

/-- The member is the kind. -/
def isKind : Node × Node → Bool
  | (.string key, _) => key == "kind"
  | _ => false

/-- The kind that a member gives, if it is the kind. -/
def kindOf? (m : Node × Node) : Option Kind :=
  if isKind m then (m.2.variant kinds).toOption else none

/-- The member is the name of a kind, or has a value. -/
def Complete (depth : Nat) (m : Node × Node) : Prop :=
  (∃ key, m.1 = .string key) ∧
    if isKind m then ∃ kind, m.2.variant kinds = .ok kind else (m.2.value? depth).isSome

/-- Every member is complete, one of them is the kind of the login, and the shape of that kind
reads the login from the others. -/
def Reads (depth : Nat) (auth : SshAuth) (ms : Node.Members) : Prop :=
  (∀ m ∈ ms, Complete depth m) ∧ ms.filterMap kindOf? = [auth.variant] ∧
    auth.variant.shape.Accepts nestingLimit (ms.filter (!isKind ·)) [] auth.variant.shape.blank auth

variable {depth : Nat} {auth : SshAuth}

theorem isKind_string {key : String} {v : Node} : isKind (.string key, v) = (key == "kind") :=
  rfl

theorem kindOf?_kind {v : Node} {kind : Kind} (h : v.variant kinds = .ok kind) :
    kindOf? (.string "kind", v) = some kind := by
  simp only [kindOf?, isKind_string, beq_self_eq_true, if_true, h]
  rfl

theorem kindOf?_other {key : String} {v : Node} (hkey : key ≠ "kind") :
    kindOf? (.string key, v) = none := by
  rw [kindOf?, isKind_string, if_neg (by simpa using hkey)]

theorem complete_kind_iff {v : Node} :
    Complete depth (.string "kind", v) ↔ ∃ kind, v.variant kinds = .ok kind := by
  simp [Complete, isKind_string]

theorem complete_other_iff {key : String} {v : Node} (hkey : key ≠ "kind") :
    Complete depth (.string key, v) ↔ (v.value? depth).isSome := by
  simp [Complete, isKind_string, hkey]

/-- What is left to be read, with the kind and the other members that were read so far. -/
theorem ofMembers_eq_ok_iff {closed : Bool} {ms : Node.Members} {kind : Option Kind}
    {others : Node.Members} : ofMembers depth closed ms kind others = .ok auth ↔
      closed = true ∧ (∀ m ∈ ms, Complete depth m) ∧
        ∃ k, kind.toList ++ ms.filterMap kindOf? = [k] ∧
          k.shape.Accepts nestingLimit (others.reverse ++ ms.filter (!isKind ·)) []
            k.shape.blank auth := by
  induction ms generalizing kind others with
  | nil =>
    cases kind with
    | none => cases closed <;> simp [ofMembers]
    | some k => cases closed <;> simp [ofMembers, Shape.ofMembers_eq_ok_iff]
  | cons m ms ih =>
    obtain ⟨name, v⟩ := m
    cases name with
    | string key =>
      rw [ofMembers, List.forall_mem_cons]
      by_cases hkey : key = "kind"
      -- A kind is one kind more, and a second one is refused here and fits no single kind there.
      · subst hkey
        rw [if_pos rfl, complete_kind_iff,
          List.filter_cons_of_neg (by simp [isKind_string])]
        cases hv : v.variant kinds with
        | error e => cases kind <;> simp [bind, Except.bind]
        | ok k' =>
          rw [List.filterMap_cons_some (kindOf?_kind hv)]
          cases kind with
          | none => exact (@ih (some k') others).trans (by simp)
          | some k => simp
      -- Any other member is put aside, in front of those that were put aside before.
      · rw [if_neg hkey, complete_other_iff hkey, List.filterMap_cons_none (kindOf?_other hkey),
          List.filter_cons_of_pos (by simpa [isKind_string] using hkey)]
        cases hv : v.value? depth with
        | none => simp
        | some j => simpa using @ih kind ((.string key, v) :: others)
    | _ => simp [ofMembers, Complete]

/-! ## The shapes of the kinds -/

theorem Kind.apart_shape (kind : Kind) : kind.shape.Apart := by
  cases kind <;>
    simp [Shape.Apart, shape, passwordShape, publicKeyShape, Field.needed, Field.optional,
      Field.knows]

theorem Kind.independent_shape (kind : Kind) : kind.shape.Independent := by
  cases kind with
  | password => exact List.pairwise_singleton _ _
  | publicKey =>
    refine List.pairwise_cons.2 ⟨?_, List.pairwise_singleton _ _⟩
    rintro f (_ | ⟨_, ⟨⟩⟩)
    refine Field.commutes_of_map rfl rfl fun _ _ r => ?_
    cases r <;> rfl
  | agent => exact List.Pairwise.nil

/-- The kind is no field of any kind. -/
theorem Kind.means_ne_kind (kind : Kind) (key : String) : kind.shape.means key ≠ some "kind" := by
  intro h
  obtain ⟨f, hf, hname⟩ := Option.map_eq_some_iff.1 h
  have hmem : f ∈ kind.shape.fields := List.mem_of_find?_eq_some hf
  revert hname
  cases kind <;>
    simp only [shape, passwordShape, publicKeyShape, List.mem_cons, List.not_mem_nil,
      or_false] at hmem
  · rw [hmem]
    decide
  · rcases hmem with rfl | rfl <;> decide

/-- Setting a field of a kind keeps the kind. -/
theorem Kind.variant_set {kind : Kind} {f : Field SshAuth} (hf : f ∈ kind.shape.fields) {v : Node}
    {set : SshAuth → SshAuth} (hread : f.read depth v = .ok set) {r : SshAuth}
    (hr : r.variant = kind) : (set r).variant = kind := by
  cases kind with
  | password =>
    obtain rfl := List.mem_singleton.1 hf
    obtain ⟨p, rfl⟩ := Field.sets_of_map rfl _ _ _ hread
    rfl
  | publicKey =>
    obtain ⟨path, passphrase, rfl⟩ : ∃ path passphrase, r = .publicKey path passphrase := by
      cases r with
      | publicKey path passphrase => exact ⟨path, passphrase, rfl⟩
      | _ => cases hr
    simp only [shape, publicKeyShape, List.mem_cons, List.not_mem_nil, or_false] at hf
    rcases hf with rfl | rfl <;> obtain ⟨a, rfl⟩ := Field.sets_of_map rfl _ _ _ hread <;> rfl
  | agent => cases hf

/-- The shape of a kind reads logins of that kind. -/
theorem Kind.variant_of_accepts {kind : Kind} {ms : Node.Members}
    (h : kind.shape.Accepts depth ms [] kind.shape.blank auth) : auth.variant = kind :=
  h.keeps (P := fun a => a.variant = kind) (fun _ hf _ _ _ _ hread => variant_set hf hread)
    (by cases kind <;> rfl)

/-- A login is read from an object if the members read as it. -/
theorem ofNode_object_eq_ok_iff {ms : Node.Members} {closed : Bool} :
    ofNode (depth + 1) (.object ms closed) = .ok auth ↔ closed = true ∧ Reads depth auth ms := by
  rw [ofNode, ofMembers_eq_ok_iff]
  refine and_congr_right fun _ => and_congr_right fun _ => ?_
  constructor
  · rintro ⟨kind, hkind, haccepts⟩
    obtain rfl := Kind.variant_of_accepts haccepts
    exact ⟨hkind, haccepts⟩
  · rintro ⟨hkind, haccepts⟩
    exact ⟨auth.variant, hkind, haccepts⟩

/-! ## Any order -/

/-- What the name of a member means in a login : the kind, or a field of that kind. -/
def means (auth : SshAuth) (key : String) : Option String :=
  if key = "kind" then some "kind" else auth.variant.shape.means key

theorem means_eq_kind_iff {key : String} : auth.means key = some "kind" ↔ key = "kind" := by
  rw [means]
  split
  · next hkey => simp [hkey]
  · next hkey => exact ⟨fun h => absurd h (Kind.means_ne_kind _ _), fun h => absurd h hkey⟩

theorem means_of_ne_kind {key : String} (hkey : key ≠ "kind") :
    auth.means key = auth.variant.shape.means key :=
  if_neg hkey

theorem orderFree_shape (auth : SshAuth) :
    OrderFree auth.variant.shape.means (fun n => n.whole = true) fun ms =>
      auth.variant.shape.Accepts nestingLimit ms [] auth.variant.shape.blank auth :=
  Shape.orderFree auth.variant.apart_shape auth.variant.independent_shape

theorem reads_cons_other_iff {key : String} {v : Node} {ms : Node.Members} (hkey : key ≠ "kind") :
    Reads depth auth ((.string key, v) :: ms) ↔
      ((v.value? depth).isSome ∧ ∀ m ∈ ms, Complete depth m) ∧
        ms.filterMap kindOf? = [auth.variant] ∧
        auth.variant.shape.Accepts nestingLimit ((.string key, v) :: ms.filter (!isKind ·)) []
          auth.variant.shape.blank auth := by
  rw [Reads, List.forall_mem_cons, complete_other_iff hkey,
    List.filterMap_cons_none (kindOf?_other hkey),
    List.filter_cons_of_pos (by simpa [isKind_string] using hkey)]

/-- No two members give the kind. -/
theorem not_reads_kind_twice {v v' : Node} {ms : Node.Members} :
    ¬Reads depth auth ((.string "kind", v) :: (.string "kind", v') :: ms) := by
  rintro ⟨hcomplete, hkind, -⟩
  rw [List.forall_mem_cons, List.forall_mem_cons, complete_kind_iff, complete_kind_iff] at hcomplete
  obtain ⟨⟨k, hk⟩, ⟨k', hk'⟩, -⟩ := hcomplete
  rw [List.filterMap_cons_some (kindOf?_kind hk), List.filterMap_cons_some (kindOf?_kind hk')]
    at hkind
  cases hkind

/-- A login is read from its members in any order. -/
theorem orderFree (depth : Nat) (auth : SshAuth) :
    OrderFree auth.means (fun n => (n.value? depth).isSome = true) (Reads depth auth) where
  perm {ms ms'} hperm h := by
    obtain ⟨hcomplete, hkind, haccepts⟩ := h
    refine ⟨fun m hm => hcomplete m (hperm.mem_iff.2 hm), ?_,
      auth.orderFree_shape.perm (hperm.filter _) haccepts⟩
    have hkinds := hperm.filterMap kindOf?
    rw [hkind] at hkinds
    exact List.perm_singleton.1 hkinds.symm
  rename {key key' n ms} hmeans h := by
    by_cases hkey : key = "kind"
    · have hkey' : key' = "kind" := means_eq_kind_iff.1 (hmeans.trans (means_eq_kind_iff.2 hkey))
      exact hkey' ▸ hkey ▸ h
    · have hkey' : key' ≠ "kind" := fun heq =>
        hkey (means_eq_kind_iff.1 (hmeans.symm.trans (means_eq_kind_iff.2 heq)))
      rw [means_of_ne_kind hkey, means_of_ne_kind hkey'] at hmeans
      rw [reads_cons_other_iff hkey] at h
      exact (reads_cons_other_iff hkey').2
        ⟨h.1, h.2.1, auth.orderFree_shape.rename hmeans h.2.2⟩
  insert {key n ms} hmeans hn h := by
    have hkey : key ≠ "kind" := by
      rintro rfl
      cases hmeans
    rw [means_of_ne_kind hkey] at hmeans
    exact (reads_cons_other_iff hkey).2 ⟨⟨hn, h.1⟩, h.2.1,
      auth.orderFree_shape.insert hmeans (Node.whole_of_value? hn) h.2.2⟩
  once {key key' n n' ms field} hmeans hmeans' h := by
    by_cases hkey : key = "kind"
    · subst hkey
      obtain rfl : "kind" = field := Option.some.inj hmeans
      obtain rfl := means_eq_kind_iff.1 hmeans'
      exact not_reads_kind_twice h
    · have hkey' : key' ≠ "kind" := by
        rintro rfl
        obtain rfl : "kind" = field := Option.some.inj hmeans'
        exact hkey (means_eq_kind_iff.1 hmeans)
      rw [means_of_ne_kind hkey] at hmeans
      rw [means_of_ne_kind hkey'] at hmeans'
      have haccepts := ((reads_cons_other_iff hkey).1 h).2.2
      rw [List.filter_cons_of_pos (by simpa [isKind_string] using hkey')] at haccepts
      exact auth.orderFree_shape.once hmeans hmeans' haccepts

/-- What was read as a login is not read as any login with a name given twice. -/
theorem not_reads_of_repeats {auth' : SshAuth} {ms ms' : List MemberText}
    (hreads : Reads depth auth (ms.map MemberText.node)) (hms : ∀ m ∈ ms, m.Proper)
    (h : MemberText.Repeats auth.means ms ms') : ¬Reads depth auth' (ms'.map MemberText.node) := by
  intro hreads'
  -- The kind that was given is still given, so no other login is read either.
  have hkinds := (h.sublist.map MemberText.node).filterMap kindOf?
  rw [hreads.2.1, hreads'.2.1, List.singleton_sublist, List.mem_singleton] at hkinds
  have hmeans : auth.means = auth'.means := by
    funext key
    rw [means, means, hkinds]
  exact (MemberText.Repeats.not_reads (orderFree depth auth') (hmeans ▸ h) hms).2 hreads'

end SshAuth

end ConnectionBroker
