import ConnectionBroker.Config.SettingsFile
import ConnectionBroker.Proofs.Files.Writing
import ConnectionBroker.Proofs.Json.Indented
import ConnectionBroker.Proofs.Json.Records

/-!
# Settings that were saved

The text of a settings file is read back as the settings (`decode_toText`), and the file is found
where it was written, so settings that were saved are loaded again if they pass
`BrokerSettings.validate`, and refused if they do not. Where they cannot be saved, directories were
made at most. Whatever is loaded passes, be it from a file or for want of one.
-/

namespace ConnectionBroker.BrokerSettings

open Files (Path Tree FileError)

variable {s s' : BrokerSettings} {t t' : Tree} {p : Path}

/-- Every time is positive. -/
def Positive (s : BrokerSettings) : Prop :=
  0 < s.idleTtl ∧ 0 < s.sweepInterval ∧ 0 < s.sshConnectTimeout

instance (s : BrokerSettings) : Decidable s.Positive :=
  inferInstanceAs (Decidable (_ ∧ _ ∧ _))

theorem invalidity_eq_none_iff : s.invalidity = none ↔ s.Positive := by
  simp only [Positive, UInt64.pos_iff_ne_zero]
  rw [invalidity]
  by_cases hidle : s.idleTtl = 0
  · simp [hidle]
  · by_cases hsweep : s.sweepInterval = 0
    · simp [hidle, hsweep]
    · by_cases hconnect : s.sshConnectTimeout = 0 <;> simp [hidle, hsweep, hconnect]

theorem validate_of_positive (h : s.Positive) : s.validate = .ok () := by
  rw [validate, invalidity_eq_none_iff.2 h]

/-- Refused settings are refused for a reason. -/
theorem exists_reason_of_not_positive (h : ¬s.Positive) :
    ∃ reason, s.validate = .error (.settings reason) := by
  rw [← invalidity_eq_none_iff, ← Ne, Option.ne_none_iff_exists'] at h
  obtain ⟨reason, hreason⟩ := h
  exact ⟨reason, by rw [validate, hreason]⟩

/-- The text of a settings file is read as the settings. -/
theorem decode_toText (s : BrokerSettings) : shape.decode s.toText = .ok s :=
  Shape.decode_of_fills apart_shape s.fills_shape (Document.read_pretty s.integral_toJson)

/-- What was written as text is read as text. -/
theorem readText_of_write {text : String} (h : t.write p text.toUTF8 = .ok t') :
    t'.readText p = .ok text := by
  have htext : String.fromUTF8? text.toUTF8 = some text := dif_pos text.isValidUTF8
  rw [Tree.readText, Tree.read_of_write h]
  dsimp only [bind, Except.bind]
  rw [htext]

/-- Settings are loaded from their text if they pass. -/
theorem ofText_toText (s : BrokerSettings) (p : Path) :
    ofText p s.toText = s.validate.map fun _ => s := by
  rw [ofText, decode_toText]
  change (s.validate >>= fun _ => .ok s) = _
  cases s.validate <;> rfl

theorem adds_makeParents (t : Tree) (p : Path) : t.Adds (makeParents t p).2 := by
  rw [makeParents]
  split
  · exact Tree.adds_makeDirs t _
  · exact .refl t

/-- A save ends with the text in the file, or with no more than directories made. -/
theorem saveTo_cases (s : BrokerSettings) (t : Tree) (p : Path) :
    (∃ t₁ t', t.Adds t₁ ∧ t₁.write p s.toText.toUTF8 = .ok t' ∧ s.saveTo t p = (.ok (), t')) ∨
      ∃ e t', t.Adds t' ∧ s.saveTo t p = (.error e, t') := by
  have hadds := adds_makeParents t p
  rw [saveTo]
  split
  · next e t' heq =>
    rw [heq] at hadds
    exact .inr ⟨_, t', hadds, rfl⟩
  · next t₁ heq =>
    rw [heq] at hadds
    split
    · next t' hwrite => exact .inl ⟨t₁, t', hadds, hwrite, rfl⟩
    · next e _ => exact .inr ⟨_, t₁, hadds, rfl⟩

/-- Whatever is read from a text passes. -/
theorem positive_of_ofText {text : String} (h : ofText p text = .ok s) : s.Positive := by
  rw [ofText] at h
  split at h
  · cases h
  · next s' _ =>
    change (s'.validate >>= fun _ => .ok s') = _ at h
    by_cases hpositive : s'.Positive
    · rw [validate_of_positive hpositive] at h
      cases h
      exact hpositive
    · obtain ⟨reason, hreason⟩ := exists_reason_of_not_positive hpositive
      rw [hreason] at h
      cases h

/-- Whatever is loaded passes, the defaults included. -/
theorem positive_of_loadFrom (h : loadFrom t p = .ok s) : s.Positive := by
  rw [loadFrom] at h
  split at h
  · exact positive_of_ofText h
  · split at h
    · cases h
      decide
    · cases h

/-- What is loaded after a save. -/
theorem loadFrom_of_saveTo (h : s.saveTo t p = (.ok (), t')) :
    loadFrom t' p = s.validate.map fun _ => s := by
  rcases saveTo_cases s t p with ⟨t₁, t₂, -, hwrite, hsave⟩ | ⟨e, t₂, -, hsave⟩
  · obtain rfl : t₂ = t' := congrArg Prod.snd (hsave.symm.trans h)
    rw [loadFrom, readText_of_write hwrite]
    exact ofText_toText s p
  · cases hsave.symm.trans h

theorem adds_of_saveTo_error {e : BrokerError} (h : s.saveTo t p = (.error e, t')) : t.Adds t' := by
  rcases saveTo_cases s t p with ⟨t₁, t₂, -, -, hsave⟩ | ⟨e', t₂, hadds, hsave⟩
  · cases hsave.symm.trans h
  · obtain rfl : t₂ = t' := congrArg Prod.snd (hsave.symm.trans h)
    exact hadds

/-- Settings that were saved under a path, whatever was there, are loaded from it if every time in
them is positive, and else the load fails with a reason. If they cannot be saved, every file keeps
its content, wherever it lies and under whatever path it is read. And whatever is loaded from any
files at all passes. -/
theorem saved_settings_load (s : BrokerSettings) (t : Tree) (p : Path) :
    (∀ t', s.saveTo t p = (.ok (), t') →
        (s.Positive → loadFrom t' p = .ok s) ∧
        (¬s.Positive → ∃ reason, loadFrom t' p = .error (.settings reason))) ∧
      (∀ e t', s.saveTo t p = (.error e, t') →
        (∀ l content, t.get? l = some (.file content) → t'.get? l = some (.file content)) ∧
        ∀ q content, t.read q = .ok content → t'.read q = .ok content) ∧
      ∀ s', loadFrom t p = .ok s' → s'.Positive ∧ s'.validate = .ok () := by
  refine ⟨fun t' h => ⟨fun hpositive => ?_, fun hpositive => ?_⟩, fun e t' h => ?_, fun s' h => ?_⟩
  · rw [loadFrom_of_saveTo h, validate_of_positive hpositive]
    rfl
  · obtain ⟨reason, hreason⟩ := exists_reason_of_not_positive hpositive
    exact ⟨reason, by rw [loadFrom_of_saveTo h, hreason]; rfl⟩
  · have hadds := adds_of_saveTo_error h
    exact ⟨fun _ _ => hadds.kept, fun _ _ => hadds.read⟩
  · have hpositive := positive_of_loadFrom h
    exact ⟨hpositive, validate_of_positive hpositive⟩

/-- A link to a file in another directory. -/
def linked : Tree :=
  ⟨[(["w"], .dir), (["w", "link"], .link "old/broker.json"), (["w", "old"], .dir),
    (["w", "old", "broker.json"], .file "no settings, and longer than any settings".toUTF8)], ["w"]⟩

theorem find_linked :
    linked.find .always "link" = .ok ⟨["w", "old", "broker.json"], .name, false⟩ := by
  have hnames : Path.names "link" = ["link"] := by decide +kernel
  have htarget : Path.names "old/broker.json" ++ [] = ["old", "broker.json"] := by decide +kernel
  have hrelative : Path.isAbsolute "link" = false ∧ Path.isAbsolute "old/broker.json" = false ∧
      Path.endsInSlash "link" = false ∧ Path.endsInSlash "old/broker.json" = false := by
    decide +kernel
  obtain ⟨hlink, hold, hends, hends'⟩ := hrelative
  refine Tree.find_eq_ok_iff.2 ⟨by decide +kernel, by decide, by decide, ?_⟩
  rw [hnames, hlink, hends]
  refine .through ⟨by decide, by decide, by decide⟩ rfl rfl ?_
  rw [htarget, hold, hends']
  exact .down ⟨by decide, by decide, by decide⟩ nofun rfl
    (.arrive ⟨by decide, by decide, by decide⟩ nofun)

theorem saveTo_linked (s : BrokerSettings) :
    s.saveTo linked "link" =
      (.ok (), linked.put ["w", "old", "broker.json"] (.file s.toText.toUTF8)) := by
  have hparent : Path.parent? "link" = some "" := by decide +kernel
  have hends : Path.endsInSlash "link" = false := by decide +kernel
  have hparents : makeParents linked "link" = (.ok (), linked) := by
    rw [makeParents, hparent]
    rfl
  have hplace : linked.findForWriting "link" = .ok ["w", "old", "broker.json"] := by
    rw [Tree.findForWriting, hends, if_neg Bool.false_ne_true, find_linked]
    rfl
  simp only [saveTo, hparents, Tree.write, hplace]
  rfl

theorem saveTo_empty_path (s : BrokerSettings) (t : Tree) :
    s.saveTo t "" = (.error (.io (FileError.system .noEntry).message), t) := by
  have hparent : Path.parent? "" = none := by decide +kernel
  rw [saveTo, makeParents, hparent]
  rfl

/-- Settings are saved through the link, and loaded if they pass; an empty path leads nowhere. -/
theorem saved_settings_load_through_link :
    (∃ t', saveTo ⟨1, 2, 18446744073709551615⟩ linked "link" = (.ok (), t') ∧
        loadFrom t' "link" = .ok ⟨1, 2, 18446744073709551615⟩) ∧
      (∃ t', saveTo ⟨1, 0, 3⟩ linked "link" = (.ok (), t') ∧
        ∃ reason, loadFrom t' "link" = .error (.settings reason)) ∧
      ∃ e t', saveTo default linked "" = (.error e, t') ∧
        t'.read "link" = .ok "no settings, and longer than any settings".toUTF8 := by
  have hread : linked.read "link" = .ok "no settings, and longer than any settings".toUTF8 :=
    Tree.read_eq_ok_iff.2 ⟨_, find_linked, rfl, rfl⟩
  refine ⟨⟨_, saveTo_linked _, ?_⟩, ⟨_, saveTo_linked _, ?_⟩, _, _, saveTo_empty_path _ _, ?_⟩
  · exact ((saved_settings_load _ linked "link").1 _ (saveTo_linked _)).1 (by decide)
  · exact ((saved_settings_load _ linked "link").1 _ (saveTo_linked _)).2 (by decide)
  · exact ((saved_settings_load _ linked "").2.1 _ _ (saveTo_empty_path default linked)).2 _ _ hread

end ConnectionBroker.BrokerSettings
