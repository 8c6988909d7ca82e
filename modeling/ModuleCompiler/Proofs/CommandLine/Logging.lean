/-
  The options for the log decide how much of it is shown and how it is written, and nothing
  else. Without them the options are the same (`plain_of_addAll`), and a run does the same with
  these (`run_plain`). So two command lines that differ in options for the log leave the same
  behind and end with the same report, and the shorter log is the longer one without the lines
  below its level (`carryOut_logging_apart`). A line bears the time at which it is written, so two
  runs have the same lines only up to that, and the very same ones by the same clock.
-/
import ModuleCompiler.Proofs.CommandLine.Occurrence
import ModuleCompiler.Proofs.CommandLine.Story

namespace ModuleCompiler

/-- The option is about the log. -/
def Flag.isLogging : Flag → Bool
  | verbose | quiet | log | logFormat => true
  | input | output | target | config | help | version => false

namespace Options

variable {o o' : Options} {xs : List Occurrence}

/-! ## Options that are not about the log -/

/-- The options without those for the log. -/
def plain (o : Options) : Options :=
  { o with verbose := 0, quiet := false, log := none, logFormat := none }

/-- The options of a list that are not about the log. -/
def working (xs : List Occurrence) : List Occurrence :=
  xs.filter fun x => !x.flag.isLogging

theorem Adds.plain_of_isLogging {x : Occurrence} (h : Adds o x o')
    (hx : x.flag.isLogging = true) : o'.plain = o.plain := by
  cases h with
  | verbose | quiet | log | logFormat => rfl
  | input | output | target | config => cases hx

theorem Adds.plain_of_not_isLogging {x : Occurrence} (h : Adds o x o')
    (hx : x.flag.isLogging = false) : Adds o.plain x o'.plain := by
  cases h with
  | verbose | quiet | log | logFormat => cases hx
  | input hfree hvalue => exact .input hfree hvalue
  | output hfree hvalue => exact .output hfree hvalue
  | target hfree => exact .target hfree
  | config hfree hvalue => exact .config hfree hvalue

theorem plain_of_addAll (h : o.addAll xs = .ok o') :
    o.plain.addAll (working xs) = .ok o'.plain := by
  induction xs generalizing o with
  | nil =>
    cases h
    rfl
  | cons x xs ih =>
    obtain ⟨p, hp, h⟩ := addAll_cons_eq_ok_iff.1 h
    have hadds := adds_of_add hp
    rw [working, List.filter_cons]
    cases hx : x.flag.isLogging with
    | true =>
      rw [← hadds.plain_of_isLogging hx]
      exact ih h
    | false => exact addAll_cons_eq_ok_iff.2 ⟨p.plain, (hadds.plain_of_not_isLogging hx).add, ih h⟩

/-- What is asked for besides the log is told by the options that are not about it. -/
theorem plain_congr {xs xs' : List Occurrence} (h : addAll {} xs = .ok o)
    (h' : addAll {} xs' = .ok o') (hsame : working xs' = working xs) : o'.plain = o.plain := by
  have hplain := plain_of_addAll h
  have hplain' := plain_of_addAll h'
  rw [hsame] at hplain'
  exact Except.ok.inj (hplain'.symm.trans hplain)

theorem run_plain (read : String → Option Toml.Entries) (o : Options) (s : Surroundings) :
    runBy read o.plain s = runBy read o s := rfl

/-! ## Options for the log -/

/-- The level that an option asks for by name. -/
def Occurrence.level? (x : Occurrence) : Option Level :=
  if x.flag = .log then x.value.bind Level.ofName? else none

/-- The format that an option asks for. -/
def Occurrence.format? (x : Occurrence) : Option LogFormat :=
  if x.flag = .logFormat then x.value.bind LogFormat.ofName? else none

/-- The level at which the log is cut: the one asked for by name, or else that of errors if less
is wanted, or else one that goes by how often more is wanted. -/
def levelOf (xs : List Occurrence) : Level :=
  match xs.findSome? Occurrence.level? with
  | some level => level
  | none =>
    if xs.any (·.flag = .quiet) then .error
    else match xs.countP (·.flag = .verbose) with
      | 0 => .warn
      | 1 => .info
      | 2 => .debug
      | _ => .trace

/-- The format of the log. -/
def formatOf (xs : List Occurrence) : LogFormat :=
  (xs.findSome? Occurrence.format?).getD .pretty

/-- How the options for the log add up. -/
structure LogAdds (o : Options) (xs : List Occurrence) (o' : Options) : Prop where
  log : o'.log = o.log.or (xs.findSome? Occurrence.level?)
  logFormat : o'.logFormat = o.logFormat.or (xs.findSome? Occurrence.format?)
  quiet : o'.quiet = (o.quiet || xs.any (·.flag = .quiet))
  verbose : o'.verbose = o.verbose + xs.countP (·.flag = .verbose)

theorem Adds.logAdds {x : Occurrence} (h : Adds o x o') : LogAdds o [x] o' := by
  cases h with
  | log hfree hvalue =>
    refine ⟨?_, ?_, ?_, rfl⟩ <;> simp [Occurrence.level?, Occurrence.format?, hfree, hvalue]
  | logFormat hfree hvalue =>
    refine ⟨?_, ?_, ?_, rfl⟩ <;> simp [Occurrence.level?, Occurrence.format?, hfree, hvalue]
  | _ => refine ⟨?_, ?_, ?_, rfl⟩ <;> simp [Occurrence.level?, Occurrence.format?]

theorem LogAdds.trans {p : Options} {ys : List Occurrence} (h : LogAdds o xs p)
    (h' : LogAdds p ys o') : LogAdds o (xs ++ ys) o' where
  log := by rw [h'.log, h.log, List.findSome?_append, Option.or_assoc]
  logFormat := by rw [h'.logFormat, h.logFormat, List.findSome?_append, Option.or_assoc]
  quiet := by rw [h'.quiet, h.quiet, List.any_append, Bool.or_assoc]
  verbose := by rw [h'.verbose, h.verbose, List.countP_append, Nat.add_assoc]

theorem logAdds_of_addAll (h : o.addAll xs = .ok o') : LogAdds o xs o' := by
  induction xs generalizing o with
  | nil =>
    cases h
    exact ⟨by simp, by simp, by simp, rfl⟩
  | cons x xs ih =>
    obtain ⟨p, hp, h⟩ := addAll_cons_eq_ok_iff.1 h
    exact (adds_of_add hp).logAdds.trans (ih h)

theorem level_eq_levelOf (h : addAll {} xs = .ok o) : o.level = levelOf xs := by
  have hadds := logAdds_of_addAll h
  unfold level
  rw [hadds.log, hadds.quiet, hadds.verbose, Option.none_or, Bool.false_or, Nat.zero_add]
  rfl

theorem format_eq_formatOf (h : addAll {} xs = .ok o) : o.format = formatOf xs := by
  have hadds := logAdds_of_addAll h
  unfold format formatOf
  rw [hadds.logFormat, Option.none_or]

end Options

/-- The options of a command line are those that it is said to name. -/
def Tools.Names (t : Tools) (occurrences : List String → List Options.Occurrence) : Prop :=
  ∀ args o, t.options args = .ok o → Options.addAll {} (occurrences args) = .ok o

theorem Tools.standard_names : Tools.standard.Names Options.occurrences :=
  fun _ _ => Options.addAll_occurrences

/-! ## Lines of the log -/

variable {t : Tools} {o o' : Options}

/-- The line of the log that a message is, with its level. -/
def Message.line? : Message → Option (Level × String)
  | .line level text => some (level, text)
  | .delivered _ | .report _ => none

/-- The lines of the log on standard error. -/
def Completed.lines (r : Completed) : List (Level × String) :=
  r.messages.filterMap Message.line?

/-- The lines of the log that are not below a level. -/
def Completed.linesFrom (level : Level) (r : Completed) : List (Level × String) :=
  r.lines.filter fun l => level.shows l.1

/-- The lines are those of one event at one place, each at the time that its clock gives for it. -/
def Tools.SameButTime (t : Tools) (clock clock' : Nat → Nat) (format : LogFormat)
    (l l' : Level × String) : Prop :=
  ∃ (e : Event) (place : Nat), l = (e.level, t.line format (clock place) e) ∧
    l' = (e.level, t.line format (clock' place) e)

/-- By one clock there is no difference in time. -/
theorem eq_of_sameButTime {clock : Nat → Nat} {format : LogFormat} {ls ls' : List (Level × String)}
    (h : List.Forall₂ (t.SameButTime clock clock format) ls ls') : ls = ls' := by
  have heq : List.Forall₂ Eq ls ls' := h.imp fun _ _ ⟨_, _, hl, hl'⟩ => hl.trans hl'.symm
  rwa [List.forall₂_eq_eq_eq] at heq

/-- The line of what is told at a place, if the log shows it. -/
def Tools.line? (t : Tools) (clock : Nat → Nat) (o : Options) (x : Telling × Nat) :
    Option (Level × String) :=
  (t.message? clock o x).bind Message.line?

theorem Tools.line?_event (t : Tools) (clock : Nat → Nat) (o : Options) (e : Event) (place : Nat) :
    t.line? clock o (.event e, place) =
      if o.level.shows e.level then some (e.level, t.line o.format (clock place) e) else none := by
  rw [line?, show t.message? clock o (.event e, place) =
    if o.level.shows e.level then some (t.lineOf o e (clock place)) else none from rfl]
  split <;> rfl

theorem lines_of_carryOut {args : List String} (h : t.options args = .ok o) (clock : Nat → Nat)
    (s : Surroundings) : (carryOut t clock args s).lines =
      (runBy t.document o s).told.zipIdx.filterMap (t.line? clock o) := by
  rw [carryOut_eq h, Completed.lines]
  exact filterMap_messages (fun _ => rfl) clock o _

theorem shows_of_shows {coarse fine l : Level} (h : coarse.rank ≤ fine.rank)
    (hl : coarse.shows l = true) : fine.shows l = true := by
  simp only [Level.shows, decide_eq_true_eq] at hl ⊢
  omega

/-- The lines of a finer log that are not below a coarser level are those of a log at that level. -/
theorem filter_line? (hformat : o.format = o'.format) (hlevel : o.level.rank ≤ o'.level.rank)
    (clock : Nat → Nat) (x : Telling × Nat) :
    (t.line? clock o' x).filter (fun l => o.level.shows l.1) = t.line? clock o x := by
  obtain ⟨e | text, place⟩ := x
  · rw [Tools.line?_event, Tools.line?_event, ← hformat]
    cases hcoarse : o.level.shows e.level with
    | true =>
      rw [shows_of_shows hlevel hcoarse]
      exact Option.filter_some_pos hcoarse
    | false =>
      cases o'.level.shows e.level with
      | true => exact Option.filter_some_neg (by simp [hcoarse])
      | false => rfl
  · rfl

/-- What a log shows does not depend on the time. -/
theorem sameButTime_line? (clock clock' : Nat → Nat) (o : Options) (x : Telling × Nat) :
    Option.Rel (t.SameButTime clock clock' o.format) (t.line? clock o x) (t.line? clock' o x) := by
  obtain ⟨e | text, place⟩ := x
  · rw [Tools.line?_event, Tools.line?_event]
    split
    · exact .some ⟨e, place, rfl, rfl⟩
    · exact .none
  · exact .none

/-! ## Reports -/

/-- What is written to standard error ends with this report, and no other is there. -/
def Completed.EndsWith (r : Completed) (report : Option String) : Prop :=
  ∃ front, r.messages = front ++ (report.map Message.report).toList ∧
    ∀ text, Message.report text ∉ front

theorem report_notMem_told (clock : Nat → Nat) (o : Options) (told : List Telling)
    (text : String) : Message.report text ∉ told.zipIdx.filterMap (t.message? clock o) := by
  intro hmem
  obtain ⟨⟨e | delivered, place⟩, -, hmessage⟩ := List.mem_filterMap.1 hmem
  · rw [Tools.message?] at hmessage
    split at hmessage <;> cases hmessage
  · cases hmessage

/-- The report of how a run failed does not depend on the log. -/
theorem endsWith_of_carryOut {args : List String} (h : t.options args = .ok o)
    (clock : Nat → Nat) (s : Surroundings) : (carryOut t clock args s).EndsWith
      ((runBy t.document o s).failure.map fun f => t.layout f.2 (f.1.report t.complaint)) := by
  refine ⟨(runBy t.document o s).told.zipIdx.filterMap (t.message? clock o), ?_,
    report_notMem_told clock o _⟩
  rw [carryOut_eq h, Option.map_map]
  rfl

/-! ## Two runs -/

/-- The options ask for the same format and for a level that is not finer. -/
structure Options.Coarser (xs xs' : List Occurrence) : Prop where
  format : formatOf xs = formatOf xs'
  level : (levelOf xs).rank ≤ (levelOf xs').rank

/-- Two runs by two clocks, for which these options are named, leave the same behind, and one log is
a part of the other. -/
structure DifferInLog (t : Tools) (clock clock' : Nat → Nat) (xs xs' : List Options.Occurrence)
    (r r' : Completed) : Prop where
  exitCode : r'.exitCode = r.exitCode
  output : r'.output = r.output
  files : r'.files = r.files
  /-- What is delivered to standard error is the same. -/
  beside : r'.beside = r.beside
  /-- The report of a failure is the same, behind all else. -/
  report : ∃ report, r.EndsWith report ∧ r'.EndsWith report
  /-- The coarser log has the lines of the other that are not below its level, in their order, but
  for the time that they bear. -/
  lines : Options.Coarser xs xs' →
    List.Forall₂ (t.SameButTime clock clock' (Options.formatOf xs)) r.lines
      (r'.linesFrom (Options.levelOf xs))
  /-- If the time goes by in the same way, they are these lines to the letter. -/
  linesToTheLetter : clock' = clock → Options.Coarser xs xs' →
    r.lines = r'.linesFrom (Options.levelOf xs)

/-- Options for the log have no part in what a run does, and its log without the lines below a level
is the log at that level. -/
theorem carryOut_logging_apart {occurrences : List String → List Options.Occurrence}
    (hnames : t.Names occurrences) {args args' : List String} (h : t.options args = .ok o)
    (h' : t.options args' = .ok o')
    (hsame : Options.working (occurrences args') = Options.working (occurrences args))
    (s : Surroundings) (clock clock' : Nat → Nat) :
    DifferInLog t clock clock' (occurrences args) (occurrences args') (carryOut t clock args s)
      (carryOut t clock' args' s) := by
  have hadd := hnames args o h
  have hadd' := hnames args' o' h'
  -- both command lines run the same, so that all that can differ is what is shown of it
  have hrun : runBy t.document o' s = runBy t.document o s := by
    rw [← Options.run_plain _ o', ← Options.run_plain _ o, Options.plain_congr hadd hadd' hsame]
  have hlines : Options.Coarser (occurrences args) (occurrences args') →
      List.Forall₂ (t.SameButTime clock clock' (Options.formatOf (occurrences args)))
        (carryOut t clock args s).lines
        ((carryOut t clock' args' s).linesFrom (Options.levelOf (occurrences args))) := by
    rintro ⟨hformat, hlevel⟩
    rw [← Options.format_eq_formatOf hadd] at hformat ⊢
    rw [← Options.format_eq_formatOf hadd'] at hformat
    rw [← Options.level_eq_levelOf hadd] at hlevel ⊢
    rw [← Options.level_eq_levelOf hadd'] at hlevel
    have hfilter : (carryOut t clock' args' s).linesFrom o.level =
        (runBy t.document o s).told.zipIdx.filterMap (t.line? clock' o) := by
      rw [Completed.linesFrom, lines_of_carryOut h', hrun, List.filter_filterMap]
      exact List.filterMap_congr fun x _ => filter_line? hformat hlevel clock' x
    rw [lines_of_carryOut h, hfilter]
    refine List.rel_filterMap (R := Eq) ?_ (List.forall₂_refl _)
    rintro x _ rfl
    exact sameButTime_line? clock clock' o x
  refine ⟨?_, ?_, ?_, ?_, ?_, hlines, ?_⟩
  · rw [carryOut_eq h, carryOut_eq h', hrun]
  · rw [carryOut_eq h, carryOut_eq h', hrun]
  · rw [carryOut_eq h, carryOut_eq h', hrun]
  · rw [carryOut_eq h, carryOut_eq h', hrun, Completed.beside, Completed.beside,
      filterMap_delivered?_messages, filterMap_delivered?_messages]
  · refine ⟨_, endsWith_of_carryOut h clock s, ?_⟩
    rw [← hrun]
    exact endsWith_of_carryOut h' clock' s
  · rintro rfl hcoarser
    exact eq_of_sameButTime (hlines hcoarser)

/-- A log with the course of a run, and one of all that there is, with the options spelled in
another way and by a slower clock. -/
theorem carryOut_logging_apart_verbose :
    let args := ["-v", "-o", "M.ll", "--target", "wasm32"]
    let args' := ["-vvoM.ll", "--log-format=pretty", "--target=wasm32", "--log", "trace"]
    let xs := Options.occurrences args
    let xs' := Options.occurrences args'
    let o : Options := { output := some "M.ll", target := some "wasm32", verbose := 1 }
    let o' : Options := { o with
      verbose := 2, log := some .trace, logFormat := some .pretty }
    let s : Surroundings := { input := .ok "MODULE M; END M.".toUTF8 }
    let slow := fun place => 1000 * place
    let r := carryOut .standard id args s
    Tools.standard.options args = .ok o ∧ Tools.standard.options args' = .ok o' ∧
      Options.working xs' = Options.working xs ∧ r.lines ≠ [] ∧
      DifferInLog .standard id slow xs xs' r (carryOut .standard slow args' s) ∧
      List.Forall₂ (Tools.standard.SameButTime id slow .pretty) r.lines
        ((carryOut .standard slow args' s).linesFrom .info) ∧
      r.lines = (carryOut .standard id args' s).linesFrom .info := by
  intro args args' xs xs' o o' s slow r
  have ho : Tools.standard.options args = .ok o := rfl
  have ho' : Tools.standard.options args' = .ok o' := rfl
  have hsame : Options.working xs' = Options.working xs := by decide +kernel
  have hcoarser : Options.Coarser xs xs' := ⟨by decide +kernel, by decide +kernel⟩
  have h := carryOut_logging_apart Tools.standard_names ho ho' hsame s id
  exact ⟨ho, ho', hsame, by decide +kernel, h slow, (h slow).lines hcoarser,
    (h id).linesToTheLetter rfl hcoarser⟩

end ModuleCompiler
