/-
  What writing a file does to the files. A way that a path leads along goes through directories
  only (`rooted_of_resolve`), so a file at its end makes no directory that was not there. What was
  written is there under every path that leads there, and all else is as it was (`Writes`).
-/
import ModuleCompiler.CommandLine.Files
import ModuleCompiler.Proofs.Outcome

namespace ModuleCompiler.Files

variable {fs fs' : Files} {path : String} {way w : List String} {content : ByteArray}

/-! ## Ways through directories -/

/-- Every beginning of the way ends at a directory. -/
def Rooted (fs : Files) (way : List String) : Prop :=
  ∀ v, v <+: way → v ≠ way → fs.isDirectory v = true

theorem rooted_start (fs : Files) (path : String) : fs.Rooted (start path) := by
  intro v hv hne
  unfold start at hv hne
  split at hv
  · next hslash =>
    rw [if_pos hslash] at hne
    obtain rfl | ⟨t, rfl, ht⟩ := List.prefix_cons_iff.1 hv
    · rfl
    · rw [List.prefix_nil.1 ht] at hne
      exact absurd rfl hne
  · next hslash =>
    rw [if_neg hslash] at hne
    exact absurd (List.prefix_nil.1 hv) hne

theorem Rooted.concat (h : fs.Rooted way) (hdir : fs.isDirectory way = true) (name : String) :
    fs.Rooted (way ++ [name]) := by
  intro v hv hne
  obtain rfl | hv := List.prefix_concat_iff.1 hv
  · exact absurd rfl hne
  · by_cases heq : v = way
    · rw [heq, hdir]
    · exact h v hv heq

theorem Rooted.dropLast (h : fs.Rooted way) : fs.Rooted way.dropLast := by
  intro v hv hne
  refine h v (hv.trans (List.dropLast_prefix way)) ?_
  rintro rfl
  exact hne (hv.eq_of_length_le (List.dropLast_prefix v).length_le)

theorem Rooted.next (h : fs.Rooted way) (hdir : fs.isDirectory way = true) (name : String) :
    fs.Rooted (next way name) := by
  unfold Files.next up
  split
  · exact h
  · split
    · split
      · exact h.concat hdir ".."
      · exact h.concat hdir ".."
      · exact h
      · exact h.dropLast
    · exact h.concat hdir name

theorem step_eq_ok_iff {name : String} : fs.step way name = .ok w ↔ fs.isDirectory way = true ∧
    fs.refusal? .enter way = none ∧ name.utf8ByteSize ≤ longestName ∧ next way name = w := by
  unfold step
  cases fs.isDirectory way with
  | false => simp
  | true =>
    cases fs.refusal? .enter way with
    | some e => simp
    | none =>
      by_cases hlong : longestName < name.utf8ByteSize
      · simp [hlong, Nat.not_le.2 hlong]
      · simp [hlong, Nat.le_of_not_lt hlong]

theorem rooted_of_foldlM {names : List String} (hway : fs.Rooted way)
    (h : names.foldlM fs.step way = .ok w) : fs.Rooted w := by
  induction names generalizing way with
  | nil =>
    cases h
    exact hway
  | cons name names ih =>
    rw [List.foldlM_cons] at h
    obtain ⟨v, hv, hrest⟩ := bind_eq_ok_iff.1 h
    obtain ⟨hdir, -, -, rfl⟩ := step_eq_ok_iff.1 hv
    exact ih (hway.next hdir name) hrest

theorem rooted_of_resolve (h : fs.resolve path = .ok w) : fs.Rooted w := by
  unfold resolve at h
  split at h
  · cases h
  · split at h
    · cases h
    · exact rooted_of_foldlM (fs.rooted_start path) h

/-! ## Writing -/

/-- The path leads to a device that puts there what is written to it. -/
def LeadsToDevice (fs : Files) (path : String) (writes : Channel) : Prop :=
  ∃ way device, fs.resolve path = .ok way ∧ fs.device? way = some device ∧ device.writes = writes

/-- What can be written to at the end of a way is neither a directory nor refused. -/
theorem destinationAt_eq_ok {goal : Destination} (h : fs.destinationAt path way = .ok goal) :
    endsInSlash path = false ∧ fs.isDirectory way = false ∧ fs.refusal? .write way = none ∧
      ((goal = .file way ∧ fs.device? way = none) ∨
        ∃ device, goal = .device device.writes ∧ fs.device? way = some device) := by
  unfold destinationAt at h
  split at h
  · cases h
  · next hplain =>
    simp only [Bool.or_eq_true, not_or, Bool.not_eq_true] at hplain
    cases hrefused : fs.refusal? .write way with
    | some e =>
      rw [hrefused] at h
      cases h
    | none =>
      refine ⟨hplain.1, hplain.2, rfl, ?_⟩
      cases hdevice : fs.device? way with
      | some device =>
        simp only [hrefused, hdevice] at h
        exact .inr ⟨device, (Except.ok.inj h).symm, rfl⟩
      | none =>
        simp only [hrefused, hdevice] at h
        exact .inl ⟨(Except.ok.inj h).symm, rfl⟩

theorem leadsToDevice_of_destination {writes : Channel}
    (h : fs.destination path = .ok (.device writes)) : fs.LeadsToDevice path writes := by
  obtain ⟨way, hway, h⟩ := bind_eq_ok_iff.1 h
  obtain ⟨-, -, -, ⟨hfile, -⟩ | ⟨device, hto, hdevice⟩⟩ := destinationAt_eq_ok h
  · cases hfile
  · cases hto
    exact ⟨way, device, hway, hdevice, rfl⟩

theorem read_eq_ok_iff : fs.read path = .ok content ↔ ∃ way, fs.resolve path = .ok way ∧
    endsInSlash path = false ∧ fs.isDirectory way = false ∧ fs.refusal? .read way = none ∧
      fs.contents way = .ok content := by
  have hat : ∀ w, fs.readAt path w = .ok content ↔ endsInSlash path = false ∧
      fs.isDirectory w = false ∧ fs.refusal? .read w = none ∧ fs.contents w = .ok content := by
    intro w
    unfold readAt
    cases endsInSlash path <;> cases fs.isDirectory w <;> cases fs.refusal? .read w <;> simp
  rw [read, bind_eq_ok_iff]
  simp only [hat]

theorem lookup_filter_ne (entries : List (List String × ByteArray)) (h : w ≠ way) :
    (entries.filter fun e => e.1 ≠ way).lookup w = entries.lookup w := by
  induction entries with
  | nil => rfl
  | cons e es ih =>
    obtain ⟨v, bytes⟩ := e
    by_cases hv : v = way
    · have hne : (w == v) = false := by simpa [hv] using h
      rw [List.filter_cons_of_neg (by simp [hv]), ih, List.lookup_cons, hne]
    · rw [List.filter_cons_of_pos (by simp [hv]), List.lookup_cons, List.lookup_cons, ih]

theorem find?_put (fs : Files) (way w : List String) (content : ByteArray) :
    (fs.put way content).find? w = if w = way then some content else fs.find? w := by
  unfold find? put
  rw [List.lookup_cons]
  by_cases h : w = way
  · simp [h]
  · have hne : (w == way) = false := by simpa using h
    rw [hne, if_neg h, lookup_filter_ne _ h]

/-- What is a directory without any file in it. -/
def isBareDirectory (fs : Files) (way : List String) : Bool :=
  way = ["/"] || way.all (· = "..") || fs.directories.any way.isPrefixOf ||
    fs.devices.any fun d => way.isPrefixOf d.1 && d.1 ≠ way

theorem isDirectory_iff : fs.isDirectory w = true ↔
    fs.isBareDirectory w = true ∨ ∃ e ∈ fs.entries, w <+: e.1 ∧ e.1 ≠ w := by
  rw [isDirectory, Bool.or_eq_true, List.any_eq_true]
  refine or_congr_right (exists_congr fun e => and_congr_right fun _ => ?_)
  rw [Bool.and_eq_true, List.isPrefixOf_iff_prefix, decide_eq_true_iff]

/-- A file at the end of a way through directories is in directories that were there. -/
theorem isDirectory_put (h : fs.Rooted way) (w : List String) (content : ByteArray) :
    (fs.put way content).isDirectory w = fs.isDirectory w := by
  refine Bool.eq_iff_iff.2 ⟨fun hput => ?_, fun hold => ?_⟩
  · obtain hbare | ⟨e, he, hprefix, hne⟩ := isDirectory_iff.1 hput
    · exact isDirectory_iff.2 (.inl hbare)
    · obtain rfl | he := List.mem_cons.1 he
      · exact h w hprefix (Ne.symm hne)
      · exact isDirectory_iff.2 (.inr ⟨e, (List.mem_filter.1 he).1, hprefix, hne⟩)
  · obtain hbare | ⟨e, he, hprefix, hne⟩ := isDirectory_iff.1 hold
    · exact isDirectory_iff.2 (.inl hbare)
    · by_cases heq : e.1 = way
      · rw [heq] at hprefix hne
        exact isDirectory_iff.2 (.inr ⟨(way, content), List.mem_cons_self, hprefix, hne⟩)
      · have hkept : e ∈ fs.entries.filter fun e => e.1 ≠ way :=
          List.mem_filter.2 ⟨he, by simpa using heq⟩
        exact isDirectory_iff.2 (.inr ⟨e, List.mem_cons_of_mem _ hkept, hprefix, hne⟩)

theorem step_congr (hdirectory : ∀ w, fs'.isDirectory w = fs.isDirectory w)
    (hrefusals : fs'.refusals = fs.refusals) {name : String} :
    fs'.step way name = .ok w ↔ fs.step way name = .ok w := by
  simp only [step_eq_ok_iff, hdirectory, refusal?, hrefusals]

theorem foldlM_step_congr (hdirectory : ∀ w, fs'.isDirectory w = fs.isDirectory w)
    (hrefusals : fs'.refusals = fs.refusals) {names : List String} :
    names.foldlM fs'.step way = .ok w ↔ names.foldlM fs.step way = .ok w := by
  induction names generalizing way with
  | nil => exact Iff.rfl
  | cons name names ih =>
    simp only [List.foldlM_cons, bind_eq_ok_iff, step_congr hdirectory hrefusals, ih]

/-- Where a path leads depends on the directories only, and on what cannot be entered. -/
theorem resolve_congr (hdirectory : ∀ w, fs'.isDirectory w = fs.isDirectory w)
    (hrefusals : fs'.refusals = fs.refusals) :
    fs'.resolve path = .ok w ↔ fs.resolve path = .ok w := by
  unfold resolve
  split
  · exact Iff.rfl
  · split
    · exact Iff.rfl
    · exact foldlM_step_congr hdirectory hrefusals

/-- The files `fs'` are the files `fs`, but for the content of the file that the path leads to. -/
structure Writes (fs : Files) (path : String) (content : ByteArray) (fs' : Files) : Prop where
  /-- The path leads to a file, which has exactly this content. -/
  held : ∃ way, fs.resolve path = .ok way ∧ fs'.resolve path = .ok way ∧
    fs'.find? way = some content
  /-- It is read there unless the system refuses to. -/
  written : (∀ way, fs.resolve path = .ok way → fs.refusal? .read way = none) →
    fs'.read path = .ok content
  /-- Every file at the end of another way is there as it was, or not there as it was not. -/
  others : ∀ w, fs.resolve path ≠ .ok w → fs'.find? w = fs.find? w
  /-- What is a directory is so as before, and so are the devices and what is refused. -/
  directories : ∀ w, fs'.isDirectory w = fs.isDirectory w
  devices : fs'.devices = fs.devices
  refusals : fs'.refusals = fs.refusals
  /-- Under every path that leads elsewhere the same is read. -/
  reads : ∀ p, fs.resolve p ≠ fs.resolve path → ∀ bytes,
    fs'.read p = .ok bytes ↔ fs.read p = .ok bytes

theorem contents_put (fs : Files) (way w : List String) (content : ByteArray) (h : w ≠ way) :
    (fs.put way content).contents w = fs.contents w := by
  unfold contents
  rw [find?_put, if_neg h]
  rfl

theorem writes_put (h : fs.destination path = .ok (.file way)) (content : ByteArray) :
    fs.Writes path content (fs.put way content) := by
  obtain ⟨w, hway, hto⟩ := bind_eq_ok_iff.1 h
  obtain ⟨hslash, hdir, -, ⟨hfile, hdevice⟩ | ⟨device, hother, -⟩⟩ := destinationAt_eq_ok hto
  case inr => cases hother
  cases hfile
  have hdirectories := fun w => isDirectory_put (rooted_of_resolve hway) w content
  have hresolve : ∀ {p w}, (fs.put way content).resolve p = .ok w ↔ fs.resolve p = .ok w :=
    resolve_congr hdirectories rfl
  have hfound : (fs.put way content).find? way = some content := by
    rw [find?_put, if_pos rfl]
  refine ⟨⟨way, hway, hresolve.2 hway, hfound⟩, fun hread => ?_, fun w hw => ?_, hdirectories, rfl,
    rfl, fun p hp bytes => ?_⟩
  · refine read_eq_ok_iff.2 ⟨way, hresolve.2 hway, hslash, ?_, hread way hway, ?_⟩
    · rw [hdirectories, hdir]
    · have hdevice : (fs.put way content).device? way = none := hdevice
      rw [contents, hdevice, hfound]
  · rw [find?_put, if_neg]
    rintro rfl
    exact hw hway
  · rw [read_eq_ok_iff, read_eq_ok_iff]
    refine exists_congr fun w => ?_
    rw [hresolve, hdirectories]
    refine and_congr_right fun hw => ?_
    rw [contents_put]
    · exact Iff.rfl
    · rintro rfl
      exact hp (hw.trans hway.symm)

end ModuleCompiler.Files
