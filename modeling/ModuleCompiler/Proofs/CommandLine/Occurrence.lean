/-
  The options that arguments name, one after the other. `occurrences` lists them with their
  values, however they are spelled: by a letter or in full, with the value attached or in the
  next argument, letters one by one or together. Reading arguments adds them up
  (`addAll_occurrences`), so what the arguments ask for can be told from the list.
-/
import ModuleCompiler.CommandLine.Options
import ModuleCompiler.Proofs.Outcome

namespace ModuleCompiler.Options

/-- One use of an option, with the value that it is given. -/
structure Occurrence where
  flag : Flag
  value : Option String
  deriving DecidableEq, Repr

/-- The options that are named, and the one that waits for its value in the next argument. -/
structure Spelled where
  occurrences : List Occurrence
  waiting : Option Flag
  deriving DecidableEq, Repr

/-! ## What arguments spell -/

/-- The value behind an equals sign. -/
def behindEquals? : List Char → Option String
  | '=' :: value => some (String.ofList value)
  | _ => none

/-- The options named by letters behind one dash; the rest of the letters is the value of the
first that takes one. -/
def spelledByLetters : List Char → Spelled
  | [] => ⟨[], none⟩
  | c :: rest =>
    match Flag.ofShort? c with
    | none => ⟨[], none⟩
    | some f =>
      if f.takesValue then
        if rest = [] then ⟨[], some f⟩
        else ⟨[⟨f, some ((behindEquals? rest).getD (String.ofList rest))⟩], none⟩
      else
        let more := spelledByLetters rest
        ⟨⟨f, none⟩ :: more.occurrences, more.waiting⟩

/-- The option named in full behind two dashes, with what is behind an equals sign. -/
def spelledByName (arg : List Char) : Spelled :=
  match Flag.ofLong? (String.ofList (arg.takeWhile (· ≠ '='))) with
  | none => ⟨[], none⟩
  | some f =>
    match behindEquals? (arg.dropWhile (· ≠ '=')) with
    | some value => ⟨[⟨f, some value⟩], none⟩
    | none => if f.takesValue then ⟨[], some f⟩ else ⟨[⟨f, none⟩], none⟩

/-- The options named by the characters of an argument; one that begins with no dash is the value
of the option that waits for it. -/
def spelledByCharacters (waiting : Option Flag) (arg : String) : List Char → Spelled
  | '-' :: '-' :: name => spelledByName name
  | '-' :: c :: letters => spelledByLetters (c :: letters)
  | _ => ⟨waiting.toList.map (⟨·, some arg⟩), none⟩

/-- The options named by an argument. -/
def spelledBy (waiting : Option Flag) (arg : String) : Spelled :=
  spelledByCharacters waiting arg arg.toList

/-- The options named by arguments, behind one that waits for its value. -/
def occurrencesFrom (waiting : Option Flag) : List String → List Occurrence
  | [] => []
  | "--" :: _ => []
  | arg :: rest =>
    let first := spelledBy waiting arg
    first.occurrences ++ occurrencesFrom first.waiting rest

/-- The options named by the arguments of a command line, in their order. -/
def occurrences (args : List String) : List Occurrence :=
  occurrencesFrom none args

/-! ## Reading adds them up -/

variable {o o' : Options}

/-- The options with one more. -/
def add (o : Options) (x : Occurrence) : Except Stop Options :=
  match x.value with
  | some value => o.setValue x.flag value
  | none => o.set x.flag

/-- The options with some more. -/
def addAll (o : Options) (xs : List Occurrence) : Except Stop Options :=
  xs.foldlM add o

/-- What one more option makes of the options. -/
inductive Adds (o : Options) : Occurrence → Options → Prop where
  | input {value path : String} : o.input = none → path? value = some path →
      Adds o ⟨.input, some value⟩ { o with input := some path }
  | output {value path : String} : o.output = none → path? value = some path →
      Adds o ⟨.output, some value⟩ { o with output := some path }
  | target {value : String} : o.target = none →
      Adds o ⟨.target, some value⟩ { o with target := some value }
  | config {value path : String} : o.config = none → path? value = some path →
      Adds o ⟨.config, some value⟩ { o with config := some path }
  | log {value : String} {level : Level} : o.log = none → Level.ofName? value = some level →
      Adds o ⟨.log, some value⟩ { o with log := some level }
  | logFormat {value : String} {format : LogFormat} : o.logFormat = none →
      LogFormat.ofName? value = some format →
      Adds o ⟨.logFormat, some value⟩ { o with logFormat := some format }
  | verbose : Adds o ⟨.verbose, none⟩ { o with verbose := o.verbose + 1 }
  | quiet : o.quiet = false → Adds o ⟨.quiet, none⟩ { o with quiet := true }

theorem once_eq_ok_iff {α : Type} {f : Flag} {value : String} {old new result : Option α} :
    once f value old new = .ok result ↔ old = none ∧ ∃ v, new = some v ∧ result = some v := by
  unfold once
  cases old with
  | some v => simp
  | none =>
    cases new with
    | none => simp
    | some v => simp [eq_comm]

theorem adds_of_add {x : Occurrence} (h : o.add x = .ok o') : Adds o x o' := by
  obtain ⟨f, _ | value⟩ := x
  · unfold add set at h
    cases f with
    | verbose =>
      cases h
      exact .verbose
    | quiet =>
      dsimp only at h
      split at h
      · cases h
      · next hquiet =>
        cases h
        exact .quiet (by simpa using hquiet)
    | _ => cases h
  · unfold add setValue at h
    cases f with
    | verbose | quiet | help | version => cases h
    | _ =>
      obtain ⟨v, hv, h⟩ := bind_eq_ok_iff.1 h
      obtain ⟨hfree, v, hvalue, rfl⟩ := once_eq_ok_iff.1 hv
      cases h
      first
        | exact .input hfree hvalue
        | exact .output hfree hvalue
        | exact .config hfree hvalue
        | exact .log hfree hvalue
        | exact .logFormat hfree hvalue
        | cases hvalue; exact .target hfree

theorem Adds.add {x : Occurrence} (h : Adds o x o') : o.add x = .ok o' := by
  cases h with
  | verbose => rfl
  | quiet hquiet => exact if_neg (by simp [hquiet])
  | target hfree => exact bind_eq_ok_iff.2 ⟨_, once_eq_ok_iff.2 ⟨hfree, _, rfl, rfl⟩, rfl⟩
  | input hfree hvalue | output hfree hvalue | config hfree hvalue | log hfree hvalue
  | logFormat hfree hvalue =>
    exact bind_eq_ok_iff.2 ⟨_, once_eq_ok_iff.2 ⟨hfree, _, hvalue, rfl⟩, rfl⟩

theorem addAll_nil (o : Options) : o.addAll [] = .ok o := rfl

theorem addAll_cons_eq_ok_iff {x : Occurrence} {xs : List Occurrence} :
    o.addAll (x :: xs) = .ok o' ↔ ∃ p, o.add x = .ok p ∧ p.addAll xs = .ok o' := by
  rw [addAll, List.foldlM_cons]
  exact bind_eq_ok_iff

theorem addAll_append_eq_ok_iff {xs ys : List Occurrence} :
    o.addAll (xs ++ ys) = .ok o' ↔ ∃ p, o.addAll xs = .ok p ∧ p.addAll ys = .ok o' := by
  rw [addAll, List.foldlM_append]
  exact bind_eq_ok_iff

/-- The reading goes on from `o` with what is spelled. -/
def Reading.Follows (r : Reading) (o : Options) (named : Spelled) : Prop :=
  o.addAll named.occurrences = .ok r.options ∧ r.waiting = named.waiting

/-- A value that is attached to its option. -/
theorem follows_of_setValue {f : Flag} {value : String} {r : Reading}
    (h : (do return ⟨← o.setValue f value, none⟩) = Except.ok r) :
    r.Follows o ⟨[⟨f, some value⟩], none⟩ := by
  obtain ⟨p, hp, h⟩ := bind_eq_ok_iff.1 h
  cases h
  exact ⟨addAll_cons_eq_ok_iff.2 ⟨p, hp, addAll_nil p⟩, rfl⟩

theorem follows_of_readLetters {letters : List Char} {r : Reading}
    (h : readLetters o letters = .ok r) : r.Follows o (spelledByLetters letters) := by
  induction letters generalizing o with
  | nil =>
    cases h
    exact ⟨rfl, rfl⟩
  | cons c rest ih =>
    unfold readLetters at h
    unfold spelledByLetters
    cases hflag : Flag.ofShort? c with
    | none => rw [hflag] at h; cases h
    | some f =>
      rw [hflag] at h
      dsimp only at h ⊢
      by_cases htakes : f.takesValue = true
      · rw [if_pos htakes] at h ⊢
        split at h
        · cases h
          exact ⟨rfl, rfl⟩
        · exact follows_of_setValue h
        · next hempty hequals =>
          rw [if_neg hempty, behindEquals?.eq_2 _ hequals]
          exact follows_of_setValue h
      · rw [if_neg htakes] at h ⊢
        obtain ⟨p, hp, h⟩ := bind_eq_ok_iff.1 h
        obtain ⟨hadd, hwaiting⟩ := ih h
        exact ⟨addAll_cons_eq_ok_iff.2 ⟨p, hp, hadd⟩, hwaiting⟩

theorem follows_of_readName {arg : List Char} {r : Reading} (h : readName o arg = .ok r) :
    r.Follows o (spelledByName arg) := by
  unfold readName at h
  unfold spelledByName
  dsimp only at h
  cases hf : Flag.ofLong? (String.ofList (arg.takeWhile (· ≠ '='))) with
  | none => rw [hf] at h; cases h
  | some f =>
    rw [hf] at h
    dsimp only at h ⊢
    split at h
    · next value hvalue =>
      rw [hvalue]
      split at h
      · exact follows_of_setValue h
      · cases h
    · next hnone =>
      rw [behindEquals?.eq_2 _ hnone]
      by_cases htakes : f.takesValue = true
      · rw [if_pos htakes] at h ⊢
        cases h
        exact ⟨rfl, rfl⟩
      · rw [if_neg htakes] at h ⊢
        obtain ⟨p, hp, h⟩ := bind_eq_ok_iff.1 h
        cases h
        exact ⟨addAll_cons_eq_ok_iff.2 ⟨p, hp, addAll_nil p⟩, rfl⟩

theorem readFlag_eq_ok {r r' : Reading} {read : Options → Except Stop Reading}
    (h : readFlag r read = .ok r') : read r.options = .ok r' := by
  unfold readFlag at h
  split at h
  · cases h
  · exact h

theorem follows_of_readArgument {r r' : Reading} {arg : String} (h : readArgument r arg = .ok r') :
    r'.Follows r.options (spelledBy r.waiting arg) := by
  unfold readArgument at h
  unfold spelledBy
  split at h
  · next name hname =>
    rw [hname]
    exact follows_of_readName (readFlag_eq_ok h)
  · next c letters hdash hletters =>
    rw [hletters, spelledByCharacters.eq_2 _ _ _ _ hdash]
    exact follows_of_readLetters (readFlag_eq_ok h)
  · next hname hletters =>
    rw [spelledByCharacters.eq_3 _ _ _ hname hletters]
    split at h
    · next f hwaiting =>
      rw [hwaiting]
      exact follows_of_setValue h
    · cases h

theorem finish_eq_ok {r : Reading} (h : r.finish = .ok o) : r.options = o := by
  unfold Reading.finish at h
  split at h
  · cases h
  · cases h
    rfl

theorem addAll_occurrencesFrom {r : Reading} {args : List String}
    (h : readArguments r args = .ok o) :
    r.options.addAll (occurrencesFrom r.waiting args) = .ok o := by
  fun_induction readArguments r args with
  | case1 r => rw [← finish_eq_ok h, occurrencesFrom, addAll_nil]
  | case2 r rest =>
    obtain ⟨p, hp, h⟩ := bind_eq_ok_iff.1 h
    rw [occurrencesFrom, addAll_nil, finish_eq_ok hp]
    split at h <;> cases h
    rfl
  | case3 r arg rest hdashes ih =>
    obtain ⟨next, hnext, h⟩ := bind_eq_ok_iff.1 h
    obtain ⟨hfirst, hwaiting⟩ := follows_of_readArgument hnext
    rw [occurrencesFrom.eq_3 _ _ _ hdashes]
    refine addAll_append_eq_ok_iff.2 ⟨next.options, hfirst, ?_⟩
    rw [← hwaiting]
    exact ih next h

/-- The options of a command line are those that its arguments name. -/
theorem addAll_occurrences {args : List String} (h : ofArguments args = .ok o) :
    addAll {} (occurrences args) = .ok o :=
  addAll_occurrencesFrom h

end ModuleCompiler.Options
