/-
  What a run puts out. It ends in one of three ways (`run_ends`): it is refused, and has put out
  nothing and touched no file; or the text of an accepted unit is whole where the options say; or
  the text was on its way to standard output, which took a beginning of it and then no more. Each
  stage fails in front of the only write or hands its result on, so this is read off stage by stage.
  `WholeOutput` says it of command lines, with any reader of arguments and documents.
-/
import ModuleCompiler.CommandLine.Run
import ModuleCompiler.Proofs.CommandLine.Files

namespace ModuleCompiler

variable {t : Tools} {read : String → Option Toml.Entries} {o : Options} {s : Surroundings}

/-! ## The unit -/

namespace Options

/-- The bytes of the unit: those of the input file, or else those of standard input. -/
def unitBytes (o : Options) (s : Surroundings) : Except FileError ByteArray :=
  match o.input with
  | some path => s.files.read path
  | none => s.input

/-- The target that counts, if the settings can be loaded. -/
def effectiveTarget? (read : String → Option Toml.Entries) (o : Options) (s : Surroundings) :
    Option String :=
  (Settings.loadBy read o s).toOption.map (·.target o s)

end Options

theorem decodeText_eq_ok_iff {bytes : ByteArray} {text : String} :
    decodeText bytes = .ok text ↔ bytes = text.toUTF8 := by
  unfold decodeText String.fromUTF8?
  by_cases h : bytes.IsValidUTF8
  · rw [dif_pos h]
    dsimp only
    rw [Except.ok.injEq]
    constructor
    · rintro rfl
      rfl
    · rintro rfl
      rfl
  · rw [dif_neg h]
    refine ⟨nofun, ?_⟩
    rintro rfl
    exact absurd text.isValidUTF8 h

/-- Standard output takes all of a text, or a beginning that is as long as there is room. -/
theorem Surroundings.takes_cases (s : Surroundings) (bytes : ByteArray) :
    s.takes bytes = (bytes, none) ∨ ∃ taken rest e, s.takes bytes = (taken, some e) ∧
      s.room = some (taken.size, e) ∧ rest ≠ .empty ∧ bytes = taken ++ rest := by
  unfold takes
  cases hroom : s.room with
  | none => exact .inl rfl
  | some limit =>
    obtain ⟨room, e⟩ := limit
    dsimp only
    by_cases hfits : bytes.size ≤ room
    · exact .inl (if_pos hfits)
    · have hroom : room ≤ bytes.size := Nat.le_of_not_le hfits
      have hsize : (bytes.extract 0 room).size = room := by
        rw [ByteArray.size_extract]
        omega
      refine .inr ⟨bytes.extract 0 room, bytes.extract room bytes.size, e, if_neg hfits, ?_, ?_, ?_⟩
      · rw [hsize]
      · intro hempty
        have hrest := congrArg ByteArray.size hempty
        rw [ByteArray.size_extract, ByteArray.size_empty] at hrest
        omega
      · rw [← ByteArray.extract_eq_extract_append_extract room (Nat.zero_le _) hroom,
          ByteArray.extract_zero_size]

/-! ## Stages -/

/-- The compiled texts among what there is to tell. -/
def Telling.delivered? : Telling → Option String
  | .delivered text => some text
  | .event _ => none

/-- The compiled texts that a run puts beside its output. -/
def Outcome.beside (r : Outcome) : List String :=
  r.told.filterMap Telling.delivered?

theorem filterMap_delivered?_events (events : List Event) :
    (events.map Telling.event).filterMap Telling.delivered? = [] := by
  rw [List.filterMap_map, List.filterMap_eq_nil_iff]
  exact fun _ _ => rfl

/-- The text is where the options say, once and whole, and nothing else is written: it is the
output, or the content of the output file, or a device has taken it. -/
inductive Options.Delivers (o : Options) (s : Surroundings) (text : String) :
    ByteArray → List String → Files → Prop where
  | standard : o.output = none → o.Delivers s text text.toUTF8 [] s.files
  | file {path : String} {files : Files} : o.output = some path →
      s.files.Writes path text.toUTF8 files → o.Delivers s text .empty [] files
  | ownOutput {path : String} : o.output = some path → s.files.LeadsToDevice path .output →
      o.Delivers s text text.toUTF8 [] s.files
  | ownMessages {path : String} : o.output = some path → s.files.LeadsToDevice path .messages →
      o.Delivers s text .empty [text] s.files
  | nowhere {path : String} : o.output = some path → s.files.LeadsToDevice path .nowhere →
      o.Delivers s text .empty [] s.files

/-- The text goes to standard output, which has taken a beginning of it and no more. -/
structure Options.Interrupted (o : Options) (s : Surroundings) (text : String)
    (output : ByteArray) : Prop where
  towards : o.output = none ∨ ∃ path, o.output = some path ∧ s.files.LeadsToDevice path .output
  room : ∃ e, s.room = some (output.size, e)
  beginning : ∃ rest, rest ≠ .empty ∧ text.toUTF8 = output ++ rest

/-- The unit of a run is this text, which is accepted for the target that counts. -/
structure Options.Compiles (read : String → Option Toml.Entries) (o : Options) (s : Surroundings)
    (source target : String) (c : Compilation) (told : List Event) : Prop where
  bytes : o.unitBytes s = .ok source.toUTF8
  effective : o.effectiveTarget? read s = some target
  compiled : compileTelling Predeclared.standard target source = (.ok c, told)

namespace Outcome

/-- The events of a run that compiles a unit, up to the delivery. -/
def compilationEvents (source target : String) (told : List Event) : List Event :=
  .compiling source.utf8ByteSize target :: Predeclared.standard.events ++ told

/-- What a run has told that delivered these texts beside its output. -/
def deliveryTold (o : Options) (events : List Event) (texts : List String) : List Telling :=
  events.map .event ++ texts.map .delivered ++ (deliveryEvents o).map .event

/-- How a run ends: refused with everything left as it was, with the text of a unit, or with a
beginning of it. -/
inductive Ends (read : String → Option Toml.Entries) (o : Options) (s : Surroundings) :
    Outcome → Prop where
  | refused {r : Outcome} : r.failure.isSome = true → r.output = .empty → r.beside = [] →
      r.files = s.files → Ends read o s r
  | interrupted {r : Outcome} {source target : String} {c : Compilation} {told : List Event} :
      r.failure.isSome = true → o.Compiles read s source target c told →
      o.Interrupted s c.ir.text r.output → r.beside = [] → r.files = s.files → Ends read o s r
  | accepted {r : Outcome} {source target : String} {c : Compilation} {told : List Event} :
      r.failure = none → o.Compiles read s source target c told →
      o.Delivers s c.ir.text r.output r.beside r.files →
      r.told = deliveryTold o (compilationEvents source target told) r.beside → Ends read o s r

end Outcome

open Outcome

theorem beside_deliveryTold (o : Options) (events : List Event) (texts : List String) :
    (deliveryTold o events texts).filterMap Telling.delivered? = texts := by
  rw [deliveryTold, List.filterMap_append, List.filterMap_append, filterMap_delivered?_events,
    filterMap_delivered?_events, List.filterMap_map, List.nil_append, List.append_nil]
  exact List.filterMap_some

theorem deliveryTold_nil (o : Options) (events : List Event) :
    deliveryTold o events [] = (events ++ deliveryEvents o).map .event := by
  rw [deliveryTold, List.map_nil, List.append_nil, List.map_append]

/-- Where the text goes if it goes to a device. -/
theorem Options.destination_eq_device {writes : Channel}
    (h : o.destination s = .ok (.device writes)) :
    (o.output = none ∧ writes = .output) ∨
      ∃ path, o.output = some path ∧ s.files.LeadsToDevice path writes := by
  unfold destination at h
  cases hout : o.output with
  | none =>
    rw [hout] at h
    cases h
    exact .inl ⟨rfl, rfl⟩
  | some path =>
    rw [hout] at h
    exact .inr ⟨path, rfl, Files.leadsToDevice_of_destination h⟩

/-- Only a path leads to a device other than standard output. -/
theorem Options.leadsToDevice_of_ne_output {writes : Channel}
    (h : o.destination s = .ok (.device writes)) (hne : writes ≠ .output) :
    ∃ path, o.output = some path ∧ s.files.LeadsToDevice path writes := by
  obtain ⟨-, houtput⟩ | hpath := destination_eq_device h
  · exact absurd houtput hne
  · exact hpath

/-- A text is delivered, or it cannot be written and all is left as it was, or a beginning of it is
taken. -/
theorem deliver_cases (o : Options) (s : Surroundings) (template : Template) (events : List Event)
    (text : String) :
    (∃ e, deliver o s template events text = failed s events (.file e) template) ∨
      (∃ e output, o.Interrupted s text output ∧ deliver o s template events text =
        { failed s events (.file e) template with output }) ∨
      ∃ output texts files, o.Delivers s text output texts files ∧
        deliver o s template events text = ⟨output, files, deliveryTold o events texts, none⟩ := by
  unfold deliver
  dsimp only
  rw [← deliveryTold_nil]
  split
  · next e _ => exact .inl ⟨e, rfl⟩
  · next way hway =>
    cases hout : o.output with
    | none =>
      rw [Options.destination, hout] at hway
      cases hway
    | some path =>
      rw [Options.destination, hout] at hway
      exact .inr (.inr ⟨_, [], _, .file hout (Files.writes_put hway text.toUTF8), rfl⟩)
  · next hdevice =>
    have hto := Options.destination_eq_device hdevice
    obtain htakes | ⟨taken, rest, e, htakes, hroom, hrest, htext⟩ := s.takes_cases text.toUTF8
    · rw [htakes]
      refine .inr (.inr ⟨_, [], _, ?_, rfl⟩)
      obtain ⟨hnone, -⟩ | ⟨path, hpath, hleads⟩ := hto
      · exact .standard hnone
      · exact .ownOutput hpath hleads
    · rw [htakes]
      refine .inr (.inl ⟨e, taken, ⟨?_, ⟨e, hroom⟩, rest, hrest, htext⟩, rfl⟩)
      exact hto.imp And.left id
  · next hdevice =>
    obtain ⟨path, hpath, hleads⟩ := Options.leadsToDevice_of_ne_output hdevice (by decide)
    refine .inr (.inr ⟨_, [text], _, .ownMessages hpath hleads, ?_⟩)
    rw [deliveryTold, List.append_assoc]
    rfl
  · next hdevice =>
    obtain ⟨path, hpath, hleads⟩ := Options.leadsToDevice_of_ne_output hdevice (by decide)
    exact .inr (.inr ⟨_, [], _, .nowhere hpath hleads, rfl⟩)

/-- The compiled text of a message, if it is one. -/
def Message.delivered? : Message → Option String
  | .delivered text => some text
  | .line _ _ | .report _ => none

/-- The compiled texts on standard error. -/
def Completed.beside (r : Completed) : List String :=
  r.messages.filterMap Message.delivered?

/-- What is taken from the messages of a run, and not from reports, is taken from what it tells. -/
theorem filterMap_messages {α : Type} {f : Message → Option α}
    (hreport : ∀ text, f (.report text) = none) (clock : Nat → Nat) (o : Options) (r : Outcome) :
    (r.messages t clock o).filterMap f =
      r.told.zipIdx.filterMap fun x => (t.message? clock o x).bind f := by
  have hnone : (r.report? t).toList.filterMap f = [] := by
    unfold Outcome.report?
    cases r.failure with
    | none => rfl
    | some failure => exact List.filterMap_cons_none (hreport _)
  rw [messages, List.filterMap_append, hnone, List.append_nil, List.filterMap_filterMap]

theorem delivered?_message? (clock : Nat → Nat) (o : Options) (x : Telling × Nat) :
    (t.message? clock o x).bind Message.delivered? = x.1.delivered? := by
  obtain ⟨e | text, place⟩ := x
  · rw [Tools.message?]
    split <;> rfl
  · rfl

/-- The compiled texts that a run has told of are on standard error. -/
theorem filterMap_delivered?_messages (clock : Nat → Nat) (o : Options) (r : Outcome) :
    (r.messages t clock o).filterMap Message.delivered? = r.beside := by
  rw [filterMap_messages fun _ => rfl]
  simp only [delivered?_message?]
  calc r.told.zipIdx.filterMap (fun x => x.1.delivered?)
    _ = (r.told.zipIdx.map Prod.fst).filterMap Telling.delivered? := by
      rw [List.filterMap_map]
      rfl
    _ = r.told.filterMap Telling.delivered? := by rw [List.zipIdx_map_fst]

/-- The unit of a run is accepted for the target that counts. -/
def Options.Accepts (read : String → Option Toml.Entries) (o : Options) (s : Surroundings)
    (c : Compilation) : Prop :=
  ∃ source target, o.unitBytes s = .ok source.toUTF8 ∧ o.effectiveTarget? read s = some target ∧
    compile Predeclared.standard target source = .ok c

theorem carryOut_eq {args : List String} (h : t.options args = .ok o) (clock : Nat → Nat)
    (s : Surroundings) : carryOut t clock args s =
      ⟨(runBy t.document o s).exitCode, (runBy t.document o s).output,
        (runBy t.document o s).messages t clock o, (runBy t.document o s).files⟩ := by
  unfold carryOut
  rw [h]

/-- One unit and one target have one text. -/
theorem Options.Accepts.unique {read' : String → Option Toml.Entries} {o' : Options}
    {s' : Surroundings} {c c' : Compilation} (h : o.Accepts read s c) (h' : o'.Accepts read' s' c')
    (hunit : o'.unitBytes s' = o.unitBytes s)
    (htarget : o'.effectiveTarget? read' s' = o.effectiveTarget? read s) : c' = c := by
  obtain ⟨source, target, hsource, ht, hc⟩ := h
  obtain ⟨source', target', hsource', ht', hc'⟩ := h'
  rw [hunit, hsource] at hsource'
  rw [htarget, ht] at ht'
  obtain rfl : target = target' := Option.some.inj ht'
  have hbytes : source.toUTF8 = source'.toUTF8 := Except.ok.inj hsource'
  obtain rfl : source = source' := String.toByteArray_inj.1 hbytes
  exact Except.ok.inj (hc'.symm.trans hc)

end ModuleCompiler
