/-
  Where the settings of a run come from, and what they decide. One configuration file counts or
  none (`Consults`), whatever is in it and wherever else there is one. It gives each setting by
  its own key (`Gives`), and the target is the option's or the variable's before it is the file's
  (`DecidesTarget`). A file that counts and gives no settings ends the run before anything else
  is done (`run_configured`). What texts are documents is a parameter, `read`.
-/
import ModuleCompiler.Proofs.CommandLine.Story

namespace ModuleCompiler

/-! ## The file that counts -/

namespace Settings

variable {o : Options} {s : Surroundings} {source : Option String}
  {read : String → Option Toml.Entries} {document : Toml.Entries} {settings : Settings}

/-- Where the file is in the directory of the user's configuration. -/
def userFile (directory : String) : String := directory ++ "/obc/config.toml"

/-- The configuration file that a run looks into, or none. -/
inductive Consults (o : Options) (s : Surroundings) : Option String → Prop where
  | option {path : String} : o.config = some path → Consults o s (some path)
  | nearby : o.config = none → s.files.isFile localFile = true → Consults o s (some localFile)
  | user {directory : String} : o.config = none → s.files.isFile localFile = false →
      s.configDirectory = some directory → s.files.isFile (userFile directory) = true →
      Consults o s (some (userFile directory))
  | none : o.config = none → s.files.isFile localFile = false →
      (∀ directory, s.configDirectory = some directory →
        s.files.isFile (userFile directory) = false) → Consults o s none

theorem consults_source? (o : Options) (s : Surroundings) : Consults o s (source? o s) := by
  unfold source?
  cases hconfig : o.config with
  | some path => exact .option hconfig
  | none =>
    dsimp only
    rw [List.find?_cons]
    cases hlocal : s.files.isFile localFile with
    | true => exact .nearby hconfig hlocal
    | false =>
      cases hdirectory : s.configDirectory with
      | none => exact .none hconfig hlocal fun directory h => by cases hdirectory.symm.trans h
      | some directory =>
        dsimp only [Option.map_some, Option.toList_some]
        rw [List.find?_singleton]
        split
        · next huser => exact .user hconfig hlocal hdirectory huser
        · next huser =>
          refine .none hconfig hlocal fun other h => ?_
          cases hdirectory.symm.trans h
          exact Bool.not_eq_true _ ▸ huser

theorem source?_of_consults (h : Consults o s source) : source? o s = source := by
  unfold source?
  cases h with
  | option hconfig => rw [hconfig]
  | nearby hconfig hlocal =>
    rw [hconfig]
    exact List.find?_cons_of_pos hlocal
  | user hconfig hlocal hdirectory huser =>
    rw [hconfig, hdirectory]
    dsimp only [Option.map_some, Option.toList_some]
    rw [List.find?_cons_of_neg (by simp [hlocal])]
    exact List.find?_cons_of_pos huser
  | none hconfig hlocal hno =>
    rw [hconfig]
    dsimp only
    rw [List.find?_cons_of_neg (by simp [hlocal])]
    cases hdirectory : s.configDirectory with
    | none => rfl
    | some directory => exact List.find?_cons_of_neg (by simpa [userFile] using hno _ hdirectory)

theorem consults_iff : Consults o s source ↔ source? o s = source := by
  constructor
  · exact source?_of_consults
  · rintro rfl
    exact consults_source? o s

/-! ## What the file gives -/

/-- The value of a setting: the one that its section of the document has under its key, or the
default if there is no section or no key. -/
inductive Setting {α : Type} (document : Toml.Entries) (heading key : String)
    (valueOf? : Toml.Value → Option α) (default : α) : α → Prop where
  | noSection : document.lookup heading = none →
      Setting document heading key valueOf? default default
  | noKey {part : Toml.Value} : document.lookup heading = some part →
      only key part = some none → Setting document heading key valueOf? default default
  | given {part value : Toml.Value} {a : α} : document.lookup heading = some part →
      only key part = some (some value) → valueOf? value = some a →
      Setting document heading key valueOf? default a

/-- The document gives the settings, each by its own key. -/
structure Gives (document : Toml.Entries) (settings : Settings) : Prop where
  triple : Setting document "target" "triple" tripleOf? Compilation.defaultTarget settings.triple
  template : Setting document "diagnostics" "template" templateOf? .pretty settings.template

/-- What a value or its absence sets. -/
def valueOr {α : Type} (valueOf? : Toml.Value → Option α) (default : α) :
    Option Toml.Value → Option α
  | some value => valueOf? value
  | none => some default

theorem setting_iff {α : Type} {heading key : String} {valueOf? : Toml.Value → Option α}
    {default a : α} : Setting document heading key valueOf? default a ↔
      (setting heading key document).bind (valueOr valueOf? default) = some a := by
  unfold setting
  constructor
  · intro h
    cases h with
    | noSection hnone => rw [hnone]; rfl
    | noKey hpart hkey => rw [hpart]; dsimp only; rw [hkey]; rfl
    | given hpart hkey hvalue => rw [hpart]; dsimp only; rw [hkey]; exact hvalue
  · intro h
    cases hpart : document.lookup heading with
    | none =>
      rw [hpart] at h
      cases h
      exact .noSection hpart
    | some part =>
      rw [hpart] at h
      obtain ⟨found, hkey, hvalue⟩ := Option.bind_eq_some_iff.1 h
      cases found with
      | none =>
        cases hvalue
        exact .noKey hpart hkey
      | some value => exact .given hpart hkey hvalue

/-- The two settings are read apart from each other. -/
theorem ofEntries?_eq (document : Toml.Entries) : ofEntries? document =
    ((setting "target" "triple" document).bind (valueOr tripleOf? Compilation.defaultTarget)).bind
      fun triple =>
        ((setting "diagnostics" "template" document).bind (valueOr templateOf? .pretty)).bind
          fun template => some ⟨triple, template⟩ := by
  -- The reading of the template goes on in the same way from any triple.
  have htemplate : ∀ triple, (setting "diagnostics" "template" document).bind (fun
        | some value => (templateOf? value).bind fun template => some ⟨triple, template⟩
        | none => some ⟨triple, .pretty⟩) =
      ((setting "diagnostics" "template" document).bind (valueOr templateOf? .pretty)).bind
        fun template => some (⟨triple, template⟩ : Settings) := by
    intro triple
    rw [Option.bind_assoc]
    refine Option.bind_congr fun template? _ => ?_
    cases template? <;> rfl
  rw [Option.bind_assoc]
  refine Option.bind_congr fun triple? _ => ?_
  cases triple? with
  | none => exact htemplate Compilation.defaultTarget
  | some value => exact Option.bind_congr fun triple _ => htemplate triple

theorem ofEntries?_eq_some_iff : ofEntries? document = some settings ↔ Gives document settings := by
  rw [ofEntries?_eq]
  constructor
  · intro h
    obtain ⟨triple, htriple, h⟩ := Option.bind_eq_some_iff.1 h
    obtain ⟨template, htemplate, h⟩ := Option.bind_eq_some_iff.1 h
    cases h
    exact ⟨setting_iff.2 htriple, setting_iff.2 htemplate⟩
  · intro h
    exact Option.bind_eq_some_iff.2 ⟨settings.triple, setting_iff.1 h.triple,
      Option.bind_eq_some_iff.2 ⟨settings.template, setting_iff.1 h.template, rfl⟩⟩

/-! ## Loading -/

/-- The file cannot be read, its text is no document, or the document gives no settings. -/
inductive Malformed (read : String → Option Toml.Entries) (s : Surroundings) (path : String) :
    ConfigurationError → Prop where
  | unreadable {e : FileError} : s.files.readText path = .error e →
      Malformed read s path (.unreadable path e)
  | noDocument {text : String} : s.files.readText path = .ok text → read text = none →
      Malformed read s path (.malformed path text)
  | wrongValue {text : String} {document : Toml.Entries} : s.files.readText path = .ok text →
      read text = some document → (∀ settings, ¬Gives document settings) →
      Malformed read s path (.malformed path text)

/-- The settings that come of the file that counts, or of none. -/
inductive Provides (read : String → Option Toml.Entries) (s : Surroundings) :
    Option String → Settings → Prop where
  | default : Provides read s none ⟨Compilation.defaultTarget, .pretty⟩
  | file {path text : String} {document : Toml.Entries} {settings : Settings} :
      s.files.readText path = .ok text → read text = some document → Gives document settings →
      Provides read s (some path) settings

theorem loadBy_eq_ok_iff : loadBy read o s = .ok settings ↔
    ∃ source, Consults o s source ∧ Provides read s source settings := by
  simp only [consults_iff, exists_eq_left']
  unfold loadBy
  cases source? o s with
  | none =>
    dsimp only
    constructor
    · rintro ⟨⟩
      exact .default
    · rintro ⟨⟩
      rfl
  | some path =>
    dsimp only
    constructor
    · intro h
      split at h
      · cases h
      · next text htext =>
        split at h
        · next found hfound =>
          cases h
          obtain ⟨document, hread, hgives⟩ := Option.bind_eq_some_iff.1 hfound
          exact .file htext hread (ofEntries?_eq_some_iff.1 hgives)
        · cases h
    · intro h
      cases h with
      | file htext hread hgives =>
        have hfound := Option.bind_eq_some_iff.2 ⟨_, hread, ofEntries?_eq_some_iff.2 hgives⟩
        rw [htext]
        dsimp only
        rw [hfound]

theorem loadBy_eq_error_iff {error : ConfigurationError} : loadBy read o s = .error error ↔
    ∃ path, Consults o s (some path) ∧ Malformed read s path error := by
  simp only [consults_iff]
  unfold loadBy
  cases source? o s with
  | none => simp
  | some path =>
    simp only [Option.some.injEq, exists_eq_left']
    constructor
    · intro h
      split at h
      · next e he =>
        cases h
        exact .unreadable he
      · next text htext =>
        split at h
        · cases h
        · next hnone =>
          cases h
          cases hread : read text with
          | none => exact .noDocument htext hread
          | some document =>
            refine .wrongValue htext hread fun settings hgives => ?_
            rw [hread, Option.bind_some, ofEntries?_eq_some_iff.2 hgives] at hnone
            cases hnone
    · intro h
      cases h with
      | unreadable he => rw [he]
      | noDocument htext hread =>
        rw [htext]
        dsimp only
        rw [hread, Option.bind_none]
      | @wrongValue text document htext hread hnone =>
        have hno : ofEntries? document = none := by
          rw [Option.eq_none_iff_forall_ne_some]
          exact fun settings h => hnone settings (ofEntries?_eq_some_iff.1 h)
        rw [htext]
        dsimp only
        rw [hread, Option.bind_some, hno]

/-! ## The target -/

/-- The target of a run. -/
inductive DecidesTarget (o : Options) (s : Surroundings) (settings : Settings) : String → Prop where
  | option {triple : String} : o.target = some triple → DecidesTarget o s settings triple
  | environment {text : String} : o.target = none → s.targetVariable = some text.toUTF8 →
      Text.trimBlank text ≠ "" → DecidesTarget o s settings (Text.trimBlank text)
  | settings : o.target = none → (∀ text : String, s.targetVariable = some text.toUTF8 →
      Text.trimBlank text = "") → DecidesTarget o s settings settings.triple

theorem fromUTF8?_eq_some_iff {bytes : ByteArray} {text : String} :
    String.fromUTF8? bytes = some text ↔ bytes = text.toUTF8 := by
  rw [← decodeText_eq_ok_iff, decodeText]
  cases String.fromUTF8? bytes <;> simp

theorem variableTarget?_eq_some_iff {triple : String} : variableTarget? s = some triple ↔
    ∃ text : String, s.targetVariable = some text.toUTF8 ∧ Text.trimBlank text = triple ∧
      triple ≠ "" := by
  unfold variableTarget?
  constructor
  · intro h
    obtain ⟨bytes, hbytes, h⟩ := Option.bind_eq_some_iff.1 h
    obtain ⟨text, htext, h⟩ := Option.bind_eq_some_iff.1 h
    dsimp only at h
    split at h
    · cases h
    · next hblank =>
      cases h
      exact ⟨text, by rw [hbytes, fromUTF8?_eq_some_iff.1 htext], rfl, hblank⟩
  · intro h
    obtain ⟨text, hvariable, rfl, hblank⟩ := h
    refine Option.bind_eq_some_iff.2 ⟨_, hvariable, ?_⟩
    exact Option.bind_eq_some_iff.2 ⟨text, fromUTF8?_eq_some_iff.2 rfl, if_neg hblank⟩

theorem decides_target (settings : Settings) (o : Options) (s : Surroundings) :
    DecidesTarget o s settings (settings.target o s) := by
  unfold target
  cases htarget : o.target with
  | some triple => exact .option htarget
  | none =>
    rw [Option.getD_none]
    cases hvariable : variableTarget? s with
    | some triple =>
      obtain ⟨text, htext, rfl, hblank⟩ := variableTarget?_eq_some_iff.1 hvariable
      exact .environment htarget htext hblank
    | none =>
      refine .settings htarget fun text htext => ?_
      by_contra hblank
      cases hvariable.symm.trans (variableTarget?_eq_some_iff.2 ⟨text, htext, rfl, hblank⟩)

theorem target_of_decides {triple : String} (h : DecidesTarget o s settings triple) :
    settings.target o s = triple := by
  unfold target
  cases h with
  | option htarget =>
    rw [htarget]
    rfl
  | environment htarget htext hblank =>
    rw [htarget, variableTarget?_eq_some_iff.2 ⟨_, htext, rfl, hblank⟩]
    rfl
  | settings htarget hno =>
    have hnone : variableTarget? s = none := by
      rw [Option.eq_none_iff_forall_ne_some]
      intro triple h
      obtain ⟨text, htext, rfl, hblank⟩ := variableTarget?_eq_some_iff.1 h
      exact hblank (hno text htext)
    rw [htarget, hnone]
    rfl

end Settings

/-! ## Runs -/

open Settings

variable {o : Options} {s : Surroundings} {read : String → Option Toml.Entries}
  {settings : Settings} {error : ConfigurationError}

/-- The run fails, with the template and not because of the configuration. -/
def Outcome.FailsWith (template : Template) (r : Outcome) : Prop :=
  ∃ failure, (∀ error, failure ≠ .configuration error) ∧ r.failure = some (failure, template)

/-- The run delivers a text that has the target in its first line. -/
def Outcome.DeliversFor (o : Options) (s : Surroundings) (triple : String) (r : Outcome) : Prop :=
  r.failure = none ∧ ∃ rest,
    o.Delivers s ("target triple = \"" ++ triple ++ "\"\n\n" ++ rest) r.output r.beside r.files

theorem compileUnit_cases (o : Options) (s : Surroundings) (template : Template)
    (target source : String) : (compileUnit o s template target source).FailsWith template ∨
      (compileUnit o s template target source).DeliversFor o s target := by
  unfold compileUnit
  dsimp only
  split
  · next fault _ => exact .inl ⟨.unit fault, nofun, rfl⟩
  · next c hc =>
    have hstory := story_of_compileTelling (Prod.ext hc rfl)
    obtain ⟨_, _, -, htext, -⟩ := hstory.functions
    obtain ⟨e, he⟩ | ⟨e, output, -, he⟩ | ⟨output, texts, files, hdelivers, hdone⟩ :=
      deliver_cases o s template _ c.ir.text
    · rw [he]
      exact .inl ⟨.file e, nofun, rfl⟩
    · rw [he]
      exact .inl ⟨.file e, nofun, rfl⟩
    · rw [hdone]
      rw [htext] at hdelivers
      refine .inr ⟨rfl, ?_⟩
      rw [Outcome.beside, beside_deliveryTold]
      exact ⟨_, hdelivers⟩

/-- With settings, a run fails by their template or delivers for the target that they decide. -/
theorem runBy_of_ok (h : loadBy read o s = .ok settings) :
    (runBy read o s).FailsWith settings.template ∨
      (runBy read o s).DeliversFor o s (settings.target o s) := by
  unfold runBy
  rw [h]
  dsimp only
  split
  · next e _ => exact .inl ⟨.file e, nofun, rfl⟩
  · exact compileUnit_cases o s _ _ _

theorem runBy_of_error (h : loadBy read o s = .error error) :
    runBy read o s = .failed s [] (.configuration error) .pretty := by
  unfold runBy
  rw [h]

theorem runBy_configuration_iff :
    (∃ template, (runBy read o s).failure = some (.configuration error, template)) ↔
      loadBy read o s = .error error := by
  constructor
  · rintro ⟨template, hfailure⟩
    cases hload : loadBy read o s with
    | error other =>
      rw [runBy_of_error hload] at hfailure
      cases hfailure
      rfl
    | ok settings =>
      obtain ⟨failure, hother, h⟩ | ⟨hnone, -⟩ := runBy_of_ok hload
      · rw [h] at hfailure
        cases hfailure
        exact absurd rfl (hother error)
      · cases hnone.symm.trans hfailure
  · intro h
    exact ⟨.pretty, by rw [runBy_of_error h]; rfl⟩

/-- Settings depend on the option for their file, on the files and on the user's directory
alone. -/
theorem loadBy_congr {o' : Options} {s' : Surroundings} (read : String → Option Toml.Entries)
    (hconfig : o'.config = o.config) (hfiles : s'.files = s.files)
    (hdirectory : s'.configDirectory = s.configDirectory) :
    loadBy read o' s' = loadBy read o s := by
  unfold loadBy source?
  rw [hconfig, hfiles, hdirectory]

/-- The report of a configuration error names the file. -/
theorem occurs_report (complaint : String → String) (error : ConfigurationError) :
    Text.Occurs error.path ((Failure.configuration error).report complaint).message := by
  have hmessage : Text.Occurs error.path (error.message complaint) := by
    cases error with
    | unreadable path e | malformed path text =>
      exact (((Text.occurs_refl path).append_left _).append_right _).append_right _
  exact hmessage.append_left "Configuration error: "

/-- Where the settings of a run come from and what they decide. -/
structure Configured (read : String → Option Toml.Entries) (o : Options) (s : Surroundings)
    (r : Outcome) : Prop where
  /-- One file counts, or none does. -/
  consulted : ∃! source, Consults o s source
  /-- The run ends in a configuration error exactly if the file that counts is malformed. -/
  malformed : ∀ error, (∃ template, r.failure = some (.configuration error, template)) ↔
    ∃ path, Consults o s (some path) ∧ Malformed read s path error
  /-- The error is about the file that counts, and its report names it. -/
  named : ∀ error template, r.failure = some (.configuration error, template) →
    Consults o s (some error.path) ∧ ∀ complaint,
      Text.Occurs error.path ((Failure.configuration error).report complaint).message
  /-- The run then ends so before it does anything, and with any unit, output and target. -/
  first : ∀ error template, r.failure = some (.configuration error, template) →
    ∀ (o' : Options) (s' : Surroundings), o'.config = o.config → s'.files = s.files →
      s'.configDirectory = s.configDirectory →
      runBy read o' s' = .failed s' [] (.configuration error) .pretty
  /-- Otherwise there are settings from the file that counts, or the defaults. -/
  provided : (¬∃ error template, r.failure = some (.configuration error, template)) →
    ∃ source settings, Consults o s source ∧ Provides read s source settings
  /-- They lay out any failure, whatever decides the target. -/
  template : ∀ source settings, Consults o s source → Provides read s source settings →
    ∀ failure template, r.failure = some (failure, template) → template = settings.template
  /-- One target is decided by them, the option and the variable, and the output starts with it. -/
  target : ∀ source settings, Consults o s source → Provides read s source settings →
    ∃! triple, DecidesTarget o s settings triple ∧ (r.failure = none → r.DeliversFor o s triple)

/-- The configuration and the precedence of targets, for any reader of documents; the compiler is
one that has a reader. -/
theorem run_configured (read : String → Option Toml.Entries) (o : Options) (s : Surroundings) :
    Configured read o s (runBy read o s) ∧ run o s = runBy Toml.parse o s := by
  refine ⟨?_, rfl⟩
  constructor
  · exact ⟨_, consults_source? o s, fun _ h => (source?_of_consults h).symm⟩
  · exact fun error => runBy_configuration_iff.trans loadBy_eq_error_iff
  · intro error template herror
    have hload := runBy_configuration_iff.1 ⟨template, herror⟩
    obtain ⟨path, hconsults, hmalformed⟩ := loadBy_eq_error_iff.1 hload
    cases hmalformed <;> exact ⟨hconsults, fun complaint => occurs_report complaint _⟩
  · intro error template herror o' s' hconfig hfiles hdirectory
    have hload := runBy_configuration_iff.1 ⟨template, herror⟩
    refine runBy_of_error ?_
    rw [loadBy_congr read hconfig hfiles hdirectory, hload]
  · intro hno
    cases hload : loadBy read o s with
    | error error =>
      obtain ⟨template, herror⟩ := runBy_configuration_iff.2 hload
      exact absurd ⟨error, template, herror⟩ hno
    | ok settings =>
      obtain ⟨source, hsource, hprovides⟩ := loadBy_eq_ok_iff.1 hload
      exact ⟨source, settings, hsource, hprovides⟩
  · intro source settings hsource hprovides failure template hfailure
    obtain ⟨other, -, h⟩ | ⟨hnone, -⟩ := runBy_of_ok (loadBy_eq_ok_iff.2 ⟨_, hsource, hprovides⟩)
    · rw [h] at hfailure
      cases hfailure
      rfl
    · cases hnone.symm.trans hfailure
  · intro source settings hsource hprovides
    refine ⟨_, ⟨decides_target settings o s, fun hnone => ?_⟩,
      fun other h => (target_of_decides h.1).symm⟩
    obtain ⟨failure, -, h⟩ | hdelivers :=
      runBy_of_ok (loadBy_eq_ok_iff.2 ⟨_, hsource, hprovides⟩)
    · cases hnone.symm.trans h
    · exact hdelivers

end ModuleCompiler
