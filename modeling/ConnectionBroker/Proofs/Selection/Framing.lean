import Mathlib.Data.List.Nodup
import ConnectionBroker.Selection.Fingerprint

/-!
# Parts can be read off a key

A key is a text of parts, and each of them says where it ends : the tag ends at the first colon,
the length at the second, and the length says how many bytes the value has. So whatever follows,
a part is read off the front of a text in one way only (`part_append_inj`), and a text of parts is
that of one list of parts (`partsText_inj`). Parts may be missing : as long as their tags differ,
what is there says which are (`present_inj`). A host and its port are read off from the other end,
where the last colon is (`hostAndPort_inj`), and the secret of a login from its front again
(`SshAuth.secret_inj`).
-/

namespace ConnectionBroker

/-! ## Reading a text in one way -/

/-- The first place of an item is in one place. -/
theorem append_cons_inj_of_not_mem {α : Type} {a : α} {ys ys' : List α} :
    ∀ {xs xs' : List α}, a ∉ xs → a ∉ xs' → xs ++ a :: ys = xs' ++ a :: ys' →
      xs = xs' ∧ ys = ys'
  | [], [], _, _, h => ⟨rfl, (List.cons.inj h).2⟩
  | [], x :: xs, _, hx, h => absurd (by rw [(List.cons.inj h).1]; simp) hx
  | x :: xs, [], hx, _, h => absurd (by rw [(List.cons.inj h).1]; simp) hx
  | x :: xs, x' :: xs', hx, hx', h => by
    obtain ⟨rfl, hrest⟩ := List.cons.inj h
    obtain ⟨rfl, hys⟩ := append_cons_inj_of_not_mem (fun hm => hx (List.mem_cons_of_mem _ hm))
      (fun hm => hx' (List.mem_cons_of_mem _ hm)) hrest
    exact ⟨rfl, hys⟩

/-- Two texts that begin in the same length begin in the same way. -/
theorem append_inj_of_byteSize {s s' r r' : String} (h : s ++ r = s' ++ r')
    (hsize : s.utf8ByteSize = s'.utf8ByteSize) : s = s' ∧ r = r' := by
  have hbytes : s.toByteArray ++ r.toByteArray = s'.toByteArray ++ r'.toByteArray := by
    rw [← String.toByteArray_append, ← String.toByteArray_append, h]
  obtain rfl := String.toByteArray_inj.1 (ByteArray.append_inj_left hbytes hsize)
  exact ⟨rfl, (String.append_right_inj s).1 h⟩

/-- A text is cut at its first colon in one way. -/
theorem append_colon_inj {s s' r r' : String} (hs : ':' ∉ s.toList) (hs' : ':' ∉ s'.toList)
    (h : s ++ ":" ++ r = s' ++ ":" ++ r') : s = s' ∧ r = r' := by
  have hchars : s.toList ++ ':' :: r.toList = s'.toList ++ ':' :: r'.toList := by
    simpa using congrArg String.toList h
  exact (append_cons_inj_of_not_mem hs hs' hchars).imp String.toList_inj.1 String.toList_inj.1

/-- A text is cut at its last colon in one way. -/
theorem append_lastColon_inj {s s' r r' : String} (hr : ':' ∉ r.toList) (hr' : ':' ∉ r'.toList)
    (h : s ++ ":" ++ r = s' ++ ":" ++ r') : s = s' ∧ r = r' := by
  have hchars : r.toList.reverse ++ ':' :: s.toList.reverse =
      r'.toList.reverse ++ ':' :: s'.toList.reverse := by
    simpa using congrArg (fun t : String => t.toList.reverse) h
  obtain ⟨hr, hs⟩ := append_cons_inj_of_not_mem (by simpa using hr) (by simpa using hr') hchars
  exact ⟨String.toList_inj.1 (List.reverse_injective hs),
    String.toList_inj.1 (List.reverse_injective hr)⟩

/-- A number is written without a colon. -/
theorem colon_not_mem_repr (n : Nat) : ':' ∉ (toString n).toList := by
  intro h
  have hdigit : (':').isDigit = true := by
    refine Nat.isDigit_of_mem_toDigits (b := 10) (n := n) (by decide) (by decide) ?_
    rwa [Nat.toString_eq_ofList_toDigits, String.toList_ofList] at h
  exact absurd hdigit (by decide)

theorem toString_nat_inj {m n : Nat} (h : toString m = toString n) : m = n := by
  have hdigits : Nat.toDigits 10 m = Nat.toDigits 10 n := by
    simpa [Nat.toString_eq_ofList_toDigits] using congrArg String.toList h
  rw [← Nat.ofDigitChars_ten_toDigits (n := m), hdigits, Nat.ofDigitChars_ten_toDigits]

/-! ## Hosts, ports and logins -/

theorem portText_inj {p p' : UInt16} (h : portText p = portText p') : p = p' :=
  UInt16.toNat_inj.1 (toString_nat_inj h)

/-- A host may hold colons, but the port comes after the last one. -/
theorem hostAndPort_inj {host host' : String} {port port' : UInt16}
    (h : hostAndPort host port = hostAndPort host' port') : host = host' ∧ port = port' :=
  (append_lastColon_inj (colon_not_mem_repr _) (colon_not_mem_repr _) h).imp_right portText_inj

namespace SshAuth

/-- A login as it counts for the identity of a connection : no passphrase is an empty one. -/
def identity : SshAuth → SshAuth
  | publicKey path passphrase => publicKey path (some (passphrase.getD ""))
  | a => a

theorem secret_identity (a : SshAuth) : a.identity.secret = a.secret := by
  cases a <;> rfl

/-- Only the agent's logins have no secret. -/
theorem secret_eq_empty_iff {a : SshAuth} : a.secret = "" ↔ a = .agent := by
  cases a <;> simp [secret, String.append_eq_empty_iff]

/-- The secret says what a login is. -/
theorem secret_inj {a a' : SshAuth} (h : a.secret = a'.secret) : a.identity = a'.identity := by
  have hagent : ∀ {b : SshAuth}, b.secret = "" → b.identity = agent := by
    intro b hb
    rw [secret_eq_empty_iff.1 hb]
    rfl
  cases a with
  | agent => exact (hagent h.symm).symm
  | password p =>
    cases a' with
    | agent => exact hagent h
    | password p' => rw [(String.append_right_inj _).1 h]
    | publicKey path' passphrase' =>
      have hchars := congrArg String.toList h
      simp [secret] at hchars
  | publicKey path passphrase =>
    cases a' with
    | agent => exact hagent h
    | password p' =>
      have hchars := congrArg String.toList h
      simp [secret] at hchars
    | publicKey path' passphrase' =>
      have hcut : "key:" ++ (toString path.utf8ByteSize ++ ":" ++
          (path ++ (":" ++ passphrase.getD ""))) =
          "key:" ++ (toString path'.utf8ByteSize ++ ":" ++
            (path' ++ (":" ++ passphrase'.getD ""))) := by
        simpa only [secret, String.append_assoc] using h
      obtain ⟨hsize, hrest⟩ := append_colon_inj (colon_not_mem_repr _) (colon_not_mem_repr _)
        ((String.append_right_inj _).1 hcut)
      obtain ⟨rfl, hpass⟩ := append_inj_of_byteSize hrest (toString_nat_inj hsize)
      rw [identity, identity, (String.append_right_inj _).1 hpass]

end SshAuth

/-! ## Parts -/

namespace Fingerprint

/-- A part is read off the front of a text in one way. -/
theorem part_append_inj {tag tag' v v' r r' : String} (htag : ':' ∉ tag.toList)
    (htag' : ':' ∉ tag'.toList) (h : part tag v ++ r = part tag' v' ++ r') :
    tag = tag' ∧ v = v' ∧ r = r' := by
  have hcut : "-" ++ (tag ++ ":" ++ (toString v.utf8ByteSize ++ ":" ++ (v ++ r))) =
      "-" ++ (tag' ++ ":" ++ (toString v'.utf8ByteSize ++ ":" ++ (v' ++ r'))) := by
    simpa only [part, String.append_assoc] using h
  obtain ⟨rfl, hrest⟩ := append_colon_inj htag htag' ((String.append_right_inj _).1 hcut)
  obtain ⟨hsize, hrest⟩ := append_colon_inj (colon_not_mem_repr _) (colon_not_mem_repr _) hrest
  exact ⟨rfl, append_inj_of_byteSize hrest (toString_nat_inj hsize)⟩

/-- Some parts, one after the other. -/
def partsText : List (String × String) → String
  | [] => ""
  | (tag, value) :: rest => part tag value ++ partsText rest

theorem part_ne_empty (tag value : String) : part tag value ≠ "" := by
  simp [part, String.append_eq_empty_iff]

/-- A text of parts is that of one list of parts. -/
theorem partsText_inj : ∀ {ps qs : List (String × String)}, (∀ p ∈ ps, ':' ∉ p.1.toList) →
    (∀ q ∈ qs, ':' ∉ q.1.toList) → partsText ps = partsText qs → ps = qs
  | [], [], _, _, _ => rfl
  | [], (tag, v) :: qs, _, _, h =>
    absurd (String.append_eq_empty_iff.1 h.symm).1 (part_ne_empty tag v)
  | (tag, v) :: ps, [], _, _, h => absurd (String.append_eq_empty_iff.1 h).1 (part_ne_empty tag v)
  | (tag, v) :: ps, (tag', v') :: qs, hps, hqs, h => by
    obtain ⟨rfl, rfl, hrest⟩ := part_append_inj (hps _ List.mem_cons_self)
      (hqs _ List.mem_cons_self) h
    rw [partsText_inj (fun p hp => hps p (List.mem_cons_of_mem _ hp))
      (fun q hq => hqs q (List.mem_cons_of_mem _ hq)) hrest]

/-- The parts that are there. -/
def present (fields : List (String × Option String)) : List (String × String) :=
  fields.filterMap fun field => field.2.map (field.1, ·)

theorem tag_mem_of_mem_present {fields : List (String × Option String)} {p : String × String}
    (h : p ∈ present fields) : p.1 ∈ fields.map Prod.fst := by
  obtain ⟨field, hfield, hp⟩ := List.mem_filterMap.1 h
  obtain ⟨v, -, rfl⟩ := Option.map_eq_some_iff.1 hp
  exact List.mem_map_of_mem hfield

/-- Where tags differ, the parts that are there say which are missing. -/
theorem present_inj : ∀ {fs gs : List (String × Option String)},
    fs.map Prod.fst = gs.map Prod.fst → (fs.map Prod.fst).Nodup → present fs = present gs → fs = gs
  | [], [], _, _, _ => rfl
  | (tag, v) :: fs, (tag', v') :: gs, htags, hnd, h => by
    obtain ⟨rfl, hrest⟩ := List.cons.inj htags
    obtain ⟨hnot, hnd'⟩ := List.nodup_cons.1 hnd
    have absent : ∀ {ps : List (String × Option String)} {w : String},
        ps.map Prod.fst = fs.map Prod.fst → (tag, w) ∉ present ps := by
      intro ps w hps hmem
      exact hnot (hps ▸ tag_mem_of_mem_present hmem)
    cases v with
    | none =>
      cases v' with
      | none =>
        obtain rfl := present_inj hrest hnd' h
        rfl
      | some w' =>
        have heq : present fs = (tag, w') :: present gs := h
        exact absurd (heq ▸ List.mem_cons_self) (absent rfl)
    | some w =>
      cases v' with
      | none =>
        have heq : (tag, w) :: present fs = present gs := h
        exact absurd (heq ▸ List.mem_cons_self) (absent hrest.symm)
      | some w' =>
        have heq : (tag, w) :: present fs = (tag, w') :: present gs := h
        obtain ⟨hhead, htail⟩ := List.cons.inj heq
        obtain rfl := (Prod.mk.inj hhead).2
        obtain rfl := present_inj hrest hnd' htail
        rfl

end Fingerprint

end ConnectionBroker
