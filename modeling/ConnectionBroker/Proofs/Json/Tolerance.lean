import Mathlib.Logic.Relation
import ConnectionBroker.Proofs.Json.Logins

/-!
# Any order, and any members besides

The text of an object that a record was decoded from may be edited : its members may be put into
any order, names may be replaced by other names for their fields, and members may be added that no
field knows. The record that is decoded stays the same, and no record is decoded once a field is
given again (`Shape.Tolerant`). For a target, the same goes for the object of its login inside it.
-/

namespace ConnectionBroker

open MemberText (Edit Repeats Alike)
open Json.Reader (single? skipSpace)

/-- The object with other members. -/
def ObjectText.withMembers (o : ObjectText) (ms : List MemberText) : ObjectText :=
  { o with members := ms }

theorem ObjectText.Proper.withMembers {o : ObjectText} (h : o.Proper) {ms : List MemberText}
    (hms : ∀ m ∈ ms, m.Proper) : (o.withMembers ms).Proper :=
  { h with members := hms }

/-- The node of an object text. -/
theorem ObjectText.single?_chars {o : ObjectText} (h : o.Proper) :
    single? o.chars = some (.object (o.members.map MemberText.node) true) :=
  Json.Reader.single?_eq_some_iff.2 h.padded

/-- The first thing in the text is a brace. -/
def StartsWithBrace (text : String) : Prop :=
  (skipSpace text.toList).head? = some '\x7b'

theorem StartsWithBrace.exists_object {text : String} (h : StartsWithBrace text) :
    ∃ ms closed, (Document.read text).root = .object ms closed := by
  obtain ⟨cs, hcs⟩ := List.head?_eq_some_iff.1 h
  rw [Document.read]
  cases hvalue : Json.Reader.value (Json.Reader.enough text.toList.length) text.toList with
  | mk n after =>
    rw [Json.Reader.enough, Json.Reader.value, hcs] at hvalue
    obtain ⟨rfl, -⟩ := Prod.mk.inj hvalue
    cases after <;> exact ⟨_, _, rfl⟩

variable {ρ : Type}

/-- A text of an object that is decoded as a record is decoded as the same record after edits, and
as none after a repetition. -/
structure Shape.Tolerant (shape : Shape ρ)
    (edit repetition : ρ → List MemberText → List MemberText → Prop) : Prop where
  exists_objectText : ∀ {text x}, shape.decode text = .ok x → StartsWithBrace text →
    ∃ o : ObjectText, o.Proper ∧ o.text = text
  edited : ∀ {o : ObjectText} {x ms}, o.Proper → shape.decode o.text = .ok x →
    Relation.ReflTransGen (edit x) o.members ms →
      (o.withMembers ms).Proper ∧ shape.decode (o.withMembers ms).text = .ok x
  repeated : ∀ {o : ObjectText} {x ms}, o.Proper → shape.decode o.text = .ok x →
    repetition x o.members ms → ∃ fault, shape.decode (o.withMembers ms).text = .error fault

namespace Shape

variable {shape : Shape ρ} {x : ρ} {o : ObjectText} {ms : List MemberText}
  {alike : String → List Char → List Char → Prop}

theorem exists_error_of_not_ok {text : String} (h : ∀ x, shape.decode text ≠ .ok x) :
    ∃ fault, shape.decode text = .error fault := by
  cases hdecode : shape.decode text with
  | ok x => exact absurd hdecode (h x)
  | error fault => exact ⟨fault, rfl⟩

/-- What the members of an object are read as, by the decoder of texts. -/
def Decodes (shape : Shape ρ) (x : ρ) (ms : Node.Members) : Prop :=
  shape.Accepts (nestingLimit - 1) ms [] shape.blank x

theorem decode_edited (hapart : shape.Apart) (hindependent : shape.Independent)
    (halike : Alike alike (shape.Decodes x)) (ho : o.Proper) (hdecode : shape.decode o.text = .ok x)
    (hedit :
      Relation.ReflTransGen (Edit shape.means (fun n => n.whole = true) alike) o.members ms) :
    (o.withMembers ms).Proper ∧ shape.decode (o.withMembers ms).text = .ok x := by
  have hstart := (decode_objectText_eq_ok_iff ho).1 hdecode
  obtain ⟨hms, hend⟩ : (∀ m ∈ ms, m.Proper) ∧ shape.Decodes x (ms.map MemberText.node) := by
    induction hedit with
    | refl => exact ⟨ho.members, hstart⟩
    | tail _ hstep ih =>
      exact hstep.reads_of_reads (orderFree hapart hindependent) halike ih.1 ih.2
  have ho' := ho.withMembers hms
  exact ⟨ho', (decode_objectText_eq_ok_iff ho').2 hend⟩

theorem decode_repeated (hapart : shape.Apart) (hindependent : shape.Independent) (ho : o.Proper)
    (h : Repeats shape.means o.members ms) :
    ∃ fault, shape.decode (o.withMembers ms).text = .error fault := by
  refine exists_error_of_not_ok fun y hdecode => ?_
  obtain ⟨hms, hnot⟩ := h.not_reads (orderFree hapart hindependent) ho.members
  exact hnot ((decode_objectText_eq_ok_iff (ho.withMembers hms)).1 hdecode)

/-- Values that are not alike. -/
theorem alike_false {reads : Node.Members → Prop} : Alike (fun _ _ _ => False) reads :=
  fun _ _ _ _ _ h => h.elim

/-- The edits of a record that holds no other record. -/
def Edits (shape : Shape ρ) (_ : ρ) : List MemberText → List MemberText → Prop :=
  Edit shape.means (fun n => n.whole = true) fun _ _ _ => False

theorem tolerant (hapart : shape.Apart) (hindependent : shape.Independent) :
    shape.Tolerant shape.Edits fun _ => Repeats shape.means where
  exists_objectText hdecode hbrace := by
    obtain ⟨ms, closed, hroot⟩ := hbrace.exists_object
    exact exists_objectText hdecode hroot
  edited ho hdecode hedit := decode_edited hapart hindependent alike_false ho hdecode hedit
  repeated ho _ h := decode_repeated hapart hindependent ho h

end Shape

/-! ## The records -/

theorem ConnectionConfig.independent_shape : shape.Independent := by
  simp only [Shape.Independent, shape, List.pairwise_cons, List.forall_mem_cons, List.not_mem_nil,
    false_imp_iff, implies_true, List.Pairwise.nil, and_true]
  constructorm* _ ∧ _ <;> exact Field.commutes_of_map rfl rfl fun _ _ _ => rfl

theorem BrokerSettings.independent_shape : shape.Independent := by
  simp only [Shape.Independent, shape, List.pairwise_cons, List.forall_mem_cons, List.not_mem_nil,
    false_imp_iff, implies_true, List.Pairwise.nil, and_true]
  constructorm* _ ∧ _ <;> exact Field.commutes_of_map rfl rfl fun _ _ _ => rfl

theorem Task.independent_shape : shape.Independent := by
  simp only [Shape.Independent, shape, List.pairwise_cons, List.forall_mem_cons, List.not_mem_nil,
    false_imp_iff, implies_true, List.Pairwise.nil, and_true]
  constructorm* _ ∧ _ <;> exact Field.commutes_of_map rfl rfl fun _ _ _ => rfl

namespace SshTarget

theorem independent_shape : shape.Independent := by
  simp only [Shape.Independent, shape, List.pairwise_cons, List.forall_mem_cons, List.not_mem_nil,
    false_imp_iff, implies_true, List.Pairwise.nil, and_true]
  constructorm* _ ∧ _ <;> exact Field.commutes_of_map rfl rfl fun _ _ _ => rfl

/-- The field of the login. -/
def authField : Field SshTarget :=
  ⟨"auth", [], false, fun depth n => (SshAuth.ofNode depth n).map fun v t => { t with auth := v }⟩

theorem field?_auth : shape.field? "auth" = some authField :=
  rfl

/-- The login is what stands in its member. -/
theorem ofNode_of_decodes {t : SshTarget} {n : Node} {ms : Node.Members}
    (h : shape.Decodes t ((.string "auth", n) :: ms)) :
    SshAuth.ofNode (nestingLimit - 1) n = .ok t.auth := by
  obtain ⟨-, set, hread, hrest⟩ := h.of_known field?_auth
  obtain ⟨auth, hauth, rfl⟩ := Field.exists_of_map_eq_ok hread
  rw [hauth]
  refine congrArg _ (Eq.symm (hrest.keeps (P := fun t => t.auth = auth) ?_ rfl))
  intro f hf hname v set r hset hr
  simp only [shape, List.mem_cons, List.not_mem_nil, or_false] at hf
  rcases hf with rfl | rfl | rfl | rfl
  case inr.inr.inr => exact absurd List.mem_cons_self hname
  all_goals
    obtain ⟨a, rfl⟩ := Field.sets_of_map rfl _ _ _ hset
    exact hr

theorem decodes_of_ofNode {t : SshTarget} {n n' : Node} {ms : Node.Members}
    (h : shape.Decodes t ((.string "auth", n) :: ms))
    (hn' : SshAuth.ofNode (nestingLimit - 1) n' = .ok t.auth) :
    shape.Decodes t ((.string "auth", n') :: ms) := by
  have hn := ofNode_of_decodes h
  obtain ⟨hseen, set, hread, hrest⟩ := h.of_known field?_auth
  refine .known field?_auth hseen ?_ hrest
  simp only [authField] at hread ⊢
  rw [hn'.trans hn.symm, hread]

/-- What a name of a member of the login means, and which members of it are skipped. -/
def AuthEdits (t : SshTarget) : List MemberText → List MemberText → Prop :=
  Edit t.auth.means (fun n => (n.value? (nestingLimit - 2)).isSome = true) fun _ _ _ => False

/-- The one text is that of an object, and the other one that of the object with other members. -/
def Within (change : List MemberText → List MemberText → Prop) (v v' : List Char) : Prop :=
  ∃ (o : ObjectText) (ms : List MemberText), o.Proper ∧ change o.members ms ∧ v = o.chars ∧
    v' = (o.withMembers ms).chars

/-- The edits of a target, and of its login. -/
def Edits (t : SshTarget) : List MemberText → List MemberText → Prop :=
  Edit shape.means (fun n => n.whole = true) fun key v v' => key = "auth" ∧ Within t.AuthEdits v v'

/-- A field of the target is given again, or the kind of its login or a field of that kind. -/
inductive Repetition (t : SshTarget) : List MemberText → List MemberText → Prop
  | top {ms ms' : List MemberText} (h : Repeats shape.means ms ms') : Repetition t ms ms'
  | auth {before after : List MemberText} {m : MemberText} {v : List Char}
      (hkey : m.key? = some "auth") (h : Within (Repeats t.auth.means) m.value v) :
      Repetition t (before ++ m :: after) (before ++ ⟨m.name, v⟩ :: after)

/-- A login is read from an object text if its members read as it. -/
theorem ofNode_objectText_eq_ok_iff {auth : SshAuth} {ms : List MemberText} :
    SshAuth.ofNode (nestingLimit - 1) (.object (ms.map MemberText.node) true) = .ok auth ↔
      auth.Reads (nestingLimit - 2) (ms.map MemberText.node) :=
  (SshAuth.ofNode_object_eq_ok_iff : SshAuth.ofNode (nestingLimit - 2 + 1) _ = _ ↔ _).trans
    (and_iff_right rfl)

theorem alike_authEdits (t : SshTarget) :
    Alike (fun key v v' => key = "auth" ∧ Within t.AuthEdits v v') (shape.Decodes t) := by
  rintro _ _ _ n ms ⟨rfl, o, ms', ho, hedit, rfl, rfl⟩ hn hdecodes
  obtain rfl := Option.some.inj ((ObjectText.single?_chars ho).symm.trans hn)
  have hreads := ofNode_objectText_eq_ok_iff.1 (ofNode_of_decodes hdecodes)
  obtain ⟨hms', hreads'⟩ :=
    hedit.reads_of_reads (t.auth.orderFree _) Shape.alike_false ho.members hreads
  exact ⟨_, ObjectText.single?_chars (ho.withMembers hms'),
    decodes_of_ofNode hdecodes (ofNode_objectText_eq_ok_iff.2 hreads')⟩

/-- The login of a target is read from its object in the text. -/
theorem reads_of_decode {t : SshTarget} {o login : ObjectText} (ho : o.Proper)
    (hdecode : shape.decode o.text = .ok t) {before after : List MemberText} {m : MemberText}
    (hmembers : o.members = before ++ m :: after) (hkey : m.key? = some "auth")
    (hlogin : login.Proper) (hvalue : m.value = login.chars) :
    t.auth.Reads (nestingLimit - 2) (login.members.map MemberText.node) := by
  have hnode : m.node? = some (.object (login.members.map MemberText.node) true) := by
    rw [MemberText.node?, hvalue, ObjectText.single?_chars hlogin]
  have hdecodes := (Shape.decode_objectText_eq_ok_iff ho).1 hdecode
  rw [hmembers, MemberText.reads_middle (Shape.orderFree apart_shape independent_shape),
    MemberText.node_eq hkey hnode] at hdecodes
  exact ofNode_objectText_eq_ok_iff.1 (ofNode_of_decodes hdecodes)

theorem decode_repeated_auth {t : SshTarget} {o : ObjectText} (ho : o.Proper)
    (hdecode : shape.decode o.text = .ok t) {before after : List MemberText} {m : MemberText}
    (hmembers : o.members = before ++ m :: after) (hkey : m.key? = some "auth") {v : List Char}
    (h : Within (Repeats t.auth.means) m.value v) :
    ∃ fault, shape.decode (o.withMembers (before ++ ⟨m.name, v⟩ :: after)).text = .error fault := by
  refine Shape.exists_error_of_not_ok fun t' hdecode' => ?_
  obtain ⟨login, ms, hlogin, hrepeats, hvalue, rfl⟩ := h
  obtain ⟨hm, hothers⟩ := MemberText.forall_proper_middle.1 (hmembers ▸ ho.members)
  have hlogin' := hlogin.withMembers (hrepeats.not_reads (t.auth.orderFree 0) hlogin.members).1
  have hm' : MemberText.Proper ⟨m.name, (login.withMembers ms).chars⟩ :=
    ⟨hm.1, Option.isSome_iff_exists.2 ⟨_, ObjectText.single?_chars hlogin'⟩⟩
  have ho' := ho.withMembers (MemberText.forall_proper_middle.2 ⟨hm', hothers⟩)
  have hreads := reads_of_decode ho hdecode hmembers hkey hlogin hvalue
  have hreads' := reads_of_decode ho' hdecode' rfl hkey hlogin' rfl
  exact SshAuth.not_reads_of_repeats hreads hlogin.members hrepeats hreads'

theorem tolerant : shape.Tolerant Edits Repetition where
  exists_objectText := (Shape.tolerant apart_shape independent_shape).exists_objectText
  edited {o t ms} ho hdecode hedit :=
    Shape.decode_edited apart_shape independent_shape t.alike_authEdits ho hdecode hedit
  repeated {o t ms} ho hdecode h := by
    generalize hmembers : o.members = ms₀ at h
    cases h with
    | top h => exact Shape.decode_repeated apart_shape independent_shape ho (hmembers ▸ h)
    | auth hkey h => exact decode_repeated_auth ho hdecode hmembers hkey h

end SshTarget

/-- Every record is decoded from an object whatever the order of its members is, under whatever
name its fields are given, and whatever members stand beside them, a value that the parser accepts
in each; the same goes for the login inside a target. No record is decoded from an object in which
a field is given again. -/
theorem records_tolerant :
    ConnectionConfig.shape.Tolerant ConnectionConfig.shape.Edits
        (fun _ => Repeats ConnectionConfig.shape.means) ∧
      SshTarget.shape.Tolerant SshTarget.Edits SshTarget.Repetition ∧
      BrokerSettings.shape.Tolerant BrokerSettings.shape.Edits
        (fun _ => Repeats BrokerSettings.shape.means) ∧
      Task.shape.Tolerant Task.shape.Edits (fun _ => Repeats Task.shape.means) ∧
      ConnectionConfig.shape.means "type" = ConnectionConfig.shape.means "engine" ∧
      ∀ (depth : Nat) (n : Node), (n.value? depth).isSome = true → n.whole = true :=
  ⟨Shape.tolerant ConnectionConfig.apart_shape ConnectionConfig.independent_shape,
    SshTarget.tolerant,
    Shape.tolerant BrokerSettings.apart_shape BrokerSettings.independent_shape,
    Shape.tolerant Task.apart_shape Task.independent_shape, rfl,
    fun _ _ => Node.whole_of_value?⟩

namespace SshTarget

/-- A login whose kind comes last. -/
def kindLast : ObjectText :=
  ⟨[], [], [⟨"\"password\"".toList, "\"p\"".toList⟩, ⟨"\"kind\" ".toList, "\"password\"".toList⟩],
    []⟩

/-- A member that neither a target nor a login knows. -/
def foreigner : MemberText :=
  ⟨"\"x\"".toList, "[1, \"\"]".toList⟩

/-- A member for the login. -/
def loginOf (login : ObjectText) : MemberText :=
  ⟨"\"auth\"".toList, login.chars⟩

/-- A target with that login in front. -/
def loginFirst : ObjectText :=
  ⟨[], [' '], [loginOf kindLast, ⟨"\"host\"".toList, "\"h\"".toList⟩,
    ⟨"\"username\"".toList, "\"u\"".toList⟩], ['\n']⟩

/-- The login is moved to the end and gets a member, and is given twice. -/
theorem records_tolerant_loginFirst :
    loginFirst.Proper ∧ shape.decode loginFirst.text = .ok ⟨"h", 22, "u", .password "p"⟩ ∧
      shape.decode (loginFirst.withMembers (loginFirst.members.tail ++
        [loginOf (kindLast.withMembers (foreigner :: kindLast.members))])).text =
          .ok ⟨"h", 22, "u", .password "p"⟩ ∧
      ∃ fault, shape.decode (loginFirst.withMembers (loginOf kindLast :: loginFirst.members)).text =
        .error fault := by
  have hproper : loginFirst.Proper := by decide +kernel
  have hdecode : shape.decode loginFirst.text = .ok ⟨"h", 22, "u", .password "p"⟩ := by
    rw [Shape.decode, Document.read, ObjectText.text, String.toList_ofList]
    decide +kernel
  have hlogin : (loginOf kindLast).key? = some "auth" := by decide +kernel
  refine ⟨hproper, hdecode, (records_tolerant.2.1.edited hproper hdecode ?_).2,
    records_tolerant.2.1.repeated hproper hdecode (.top ?_)⟩
  · have hlast : loginFirst.members.Perm (loginFirst.members.tail ++ [loginOf kindLast]) :=
      (List.perm_append_singleton _ _).symm
    have hforeigner : foreigner.node?.isSome := by decide +kernel
    have hlonger : AuthEdits ⟨"h", 22, "u", .password "p"⟩ kindLast.members
        (foreigner :: kindLast.members) :=
      @Edit.insert _ _ _ [] kindLast.members foreigner "x" _ (by decide +kernel) (by decide +kernel)
        (Option.eq_some_of_isSome hforeigner) (by decide +kernel +revert)
    exact .tail (.single (.permute hlast))
      (.within hlogin ⟨rfl, kindLast, _, by decide +kernel, hlonger, rfl, rfl⟩)
  · exact @Repeats.again _ [] _ _ _ _ _ _ (by decide +kernel) hlogin rfl List.mem_cons_self hlogin
      rfl

end SshTarget

end ConnectionBroker
