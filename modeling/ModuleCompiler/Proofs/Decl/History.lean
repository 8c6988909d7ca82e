/-
  The history of a table: the accepted operations that made it out of the empty one, with the
  events told of them and the entries that they made in scopes, the first ones first. What a step
  adds to the declarations, to the entries and to the events is the same (`Operates.tells`), and
  what was told of a declaration stays true of it. So of every history the events are those of the
  table at its end (`History.recorded`).
-/
import ModuleCompiler.Proofs.Decl.Growth
import ModuleCompiler.Proofs.Decl.Registration

namespace ModuleCompiler

namespace Event

/-- The event tells of a new declaration. -/
def isCreation (e : Event) : Bool := e matches createdRoot _ | created ..

/-- The event tells of a new entry in a scope. -/
def isInsertion (e : Event) : Bool := e matches inserted ..

/-- The event tells of a change of the table. -/
def isChange (e : Event) : Bool := e.isCreation || e.isInsertion

end Event

/-- The event that tells of the declaration, which has this path. -/
def Decl.creation (d : Decl) (path : String) : Event :=
  match d.parent with
  | none => .createdRoot d.name
  | some _ => .created d.kind.keyword path

theorem Decl.creation_bare (d : Decl) (path : String) : d.bare.creation path = d.creation path := by
  obtain ⟨_, _ | _, _ | _ | _ | _⟩ := d <;> rfl

theorem DeclKind.keyword_bare (k : DeclKind) : k.bare.keyword = k.keyword := by
  cases k <;> rfl

/-- A name in the scope of a declaration, and what it stands for. -/
structure Entry where
  owner : DeclId
  name : String
  child : DeclId
  deriving DecidableEq, Repr

namespace Table

variable {t t' t'' : Table} {told events more : List Event} {entries new : List Entry}

/-! ## What there is to tell of a table -/

/-- The events of all declarations, in the order of their ids. -/
def creations (t : Table) : List Event :=
  t.decls.toList.mapIdx fun i d => d.creation (t.pathText ⟨i⟩)

/-- The event of an entry: the name, and the name of the declaration that has it in its scope. -/
def insertion? (t : Table) (e : Entry) : Option Event :=
  (t.get? e.owner).map fun o => .inserted e.name o.name

/-- The entry is in a scope of the table. -/
def Lists (t : Table) (e : Entry) : Prop :=
  ∃ o scope, t.get? e.owner = some o ∧ o.scope? = some scope ∧ (e.name, e.child) ∈ scope.entries

theorem getElem?_creations (t : Table) (i : Nat) :
    t.creations[i]? = (t.bare? ⟨i⟩).map fun b => b.creation (t.pathText ⟨i⟩) := by
  rw [creations, List.getElem?_mapIdx, Array.getElem?_toList, bare?, Option.map_map]
  exact Option.map_congr fun d _ => (d.creation_bare _).symm

theorem length_creations (t : Table) : t.creations.length = t.size := by
  rw [creations, List.length_mapIdx, Array.length_toList, size]

theorem insertion?_eq (t : Table) (e : Entry) :
    t.insertion? e = (t.bare? e.owner).map fun b => .inserted e.name b.name := by
  rw [insertion?, bare?, Option.map_map]
  rfl

theorem Registered.lists_iff (ht : t.Registered) {e : Entry} :
    t.Lists e ↔ t.listing e.owner e.name = some e.child := by
  rw [listing_eq_some_iff]
  refine exists_congr fun o => exists_congr fun scope => and_congr_right fun ho => ?_
  exact and_congr_right fun hscope => Scope.mem_entries_iff (ht.ordered ho hscope)

/-! ## What stays -/

theorem GrowsTo.pathText (h : t.GrowsTo t') {id : DeclId} (hid : id.index < t.size) :
    t'.pathText id = t.pathText id := by
  have hpath := h.path hid
  rw [path_eq hid, path_eq (Nat.lt_of_lt_of_le hid h.size_le)] at hpath
  exact Except.ok.inj hpath

theorem GrowsTo.getElem?_creations (h : t.GrowsTo t') {i : Nat} (hi : i < t.size) :
    t'.creations[i]? = t.creations[i]? := by
  have hpath : t'.pathText ⟨i⟩ = t.pathText ⟨i⟩ := h.pathText hi
  rw [Table.getElem?_creations, Table.getElem?_creations, h.bare?_eq ⟨i⟩ hi, hpath]

theorem GrowsTo.creations (h : t.GrowsTo t') (hsize : t'.size = t.size) :
    t'.creations = t.creations := by
  refine List.ext_getElem? fun i => ?_
  by_cases hi : i < t.size
  · exact h.getElem?_creations hi
  · rw [List.getElem?_eq_none (by rw [length_creations]; omega),
      List.getElem?_eq_none (by rw [length_creations]; omega)]

theorem Gains.creations {b : Decl} (h : t.Gains b t') :
    t'.creations = t.creations ++ [b.creation (t'.pathText t.next)] := by
  refine List.ext_getElem? fun i => ?_
  rw [List.getElem?_append, length_creations]
  split
  · next hi => exact h.growsTo.getElem?_creations hi
  · next hi =>
    rw [List.getElem?_singleton]
    split
    · next hzero =>
      obtain rfl : i = t.size := by omega
      have hid : (⟨t.size⟩ : DeclId) = t.next := rfl
      rw [getElem?_creations, h.bare?, if_pos hid, hid]
      rfl
    · have hsize := h.size
      rw [List.getElem?_eq_none (by rw [length_creations]; omega)]

theorem GrowsTo.insertion? (h : t.GrowsTo t') {e : Entry} (he : t.Lists e) :
    t'.insertion? e = t.insertion? e := by
  obtain ⟨o, scope, ho, -⟩ := he
  rw [insertion?_eq, insertion?_eq, h.bare?_eq _ (lt_of_get? ho)]

/-! ## Steps -/

/-- An operation on the table is accepted, and these events are told of it. -/
inductive Operates (t : Table) : List Event → Table → Prop where
  | create {d : Decl} {c : Created} : t.create d = .ok c → Operates t c.events c.table
  | insert {owner child : DeclId} {t' : Table} {events : List Event} :
      t.insert owner child = .ok (t', events) → Operates t events t'

theorem Operates.change (h : t.Operates events t') : Change t t' := by
  cases h with
  | create h => exact change_of_create h
  | insert h => exact change_of_insert h

theorem Operates.isChange (h : t.Operates events t') : ∀ e ∈ events, e.isChange = true := by
  cases h with
  | create h =>
    obtain ⟨-, rfl⟩ | ⟨owner, -, hatt⟩ := create_eq_ok h
    · simp [Event.isChange, Event.isCreation]
    · obtain ⟨o, scope, ho, -, -, rfl⟩ := attach_eq_ok_iff.1 hatt
      simp [Event.isChange, Event.isCreation, Event.isInsertion]
  | insert h =>
    obtain ⟨d, o, scope, -, -, -, -, -, heq⟩ := insert_eq_ok_iff.1 h
    cases heq
    simp [Event.isChange, Event.isInsertion]

theorem Operates.filter_isChange (h : t.Operates events t') :
    events.filter Event.isChange = events :=
  List.filter_eq_self.2 h.isChange

/-- What is in the scopes of the second table and was not in those of the first one. -/
structure NewEntries (t t' : Table) (new : List Entry) : Prop where
  nodup : new.Nodup
  mem_iff : ∀ e, e ∈ new ↔ t'.Lists e ∧ ¬t.Lists e

/-- The events of a step tell what it adds to the table. -/
structure TellsOf (t : Table) (events : List Event) (new : List Entry) (t' : Table) : Prop where
  creations : t'.creations = t.creations ++ events.filter Event.isCreation
  insertions : (events.filter Event.isInsertion).map some = new.map t'.insertion?
  new : t.NewEntries t' new

theorem newEntries_nil (ht : t.Registered) (ht' : t'.Registered)
    (h : ∀ x n, t'.listing x n = t.listing x n) : t.NewEntries t' [] where
  nodup := .nil
  mem_iff e := by
    rw [ht.lists_iff, ht'.lists_iff, h]
    simp

theorem newEntries_singleton (ht : t.Registered) (ht' : t'.Registered) {e : Entry}
    (hfree : t.listing e.owner e.name = none) (h : ∀ x n, t'.listing x n =
      if x = e.owner ∧ n = e.name then some e.child else t.listing x n) :
    t.NewEntries t' [e] where
  nodup := by simp
  mem_iff f := by
    rw [List.mem_singleton, ht.lists_iff, ht'.lists_iff, h]
    constructor
    · rintro rfl
      rw [if_pos ⟨rfl, rfl⟩, hfree]
      exact ⟨rfl, nofun⟩
    · intro hnew
      obtain ⟨hnow, hbefore⟩ := hnew
      split at hnow
      · next heq =>
        obtain ⟨owner, name, child⟩ := f
        obtain ⟨howner, hname⟩ := heq
        cases howner
        cases hname
        cases hnow
        rfl
      · exact absurd hnow hbefore

theorem Operates.tells (ht : t.Registered) (h : t.Operates events t') :
    ∃ entry : Option Entry, t.TellsOf events entry.toList t' := by
  have ht' : t'.Registered := ht.change h.change
  cases h with
  | @create d c h =>
    have hcreations := (gains_of_create h).2.creations
    obtain ⟨hfree, hlisting⟩ := listing_of_create h
    obtain ⟨hbare, rfl⟩ | ⟨owner, hparent, hatt⟩ := create_eq_ok h
    · refine ⟨none, ?_, rfl, ?_⟩
      · rw [hcreations, hbare]
        rfl
      · have hnone : d.parent = none := congrArg Decl.parent hbare
        refine newEntries_nil ht ht' fun x n => ?_
        rw [hlisting, hnone, if_neg (by rintro ⟨hx, -⟩; cases hx)]
    · obtain ⟨o, scope, ho, -, -, rfl⟩ := attach_eq_ok_iff.1 hatt
      refine ⟨some ⟨owner, d.name, t.next⟩, ?_, ?_, ?_⟩
      · rw [hcreations, d.creation_bare, Decl.creation, hparent, ← d.kind.keyword_bare]
        rfl
      · have howner : (t.grow d.name owner d.kind.bare (lt_of_get? ho)).insertion?
            ⟨owner, d.name, t.next⟩ = some (.inserted d.name o.name) := by
          rw [insertion?_eq, bare?_grow, if_neg (ne_next (lt_of_get? ho)), bare?, ho]
          rfl
        rw [Option.toList_some, List.map_singleton, howner]
        rfl
      · refine newEntries_singleton ht ht' (hfree owner hparent) fun x n => ?_
        rw [hlisting, hparent]
        simp only [Option.some.injEq, eq_comm]
  | @insert owner child t' events h =>
    obtain ⟨d, o, scope, hd, hmay, ho, hscope, hnone, heq⟩ := insert_eq_ok_iff.1 h
    cases heq
    have hgrows : t.GrowsTo (t.register owner d.name child) :=
      (Change.listing hd hmay ho hscope hnone).extends.toGrowsTo
    refine ⟨some ⟨owner, d.name, child⟩, ?_, ?_, ?_⟩
    · rw [hgrows.creations (t.size_register _ _ _)]
      exact (List.append_nil _).symm
    · have howner : (t.register owner d.name child).insertion? ⟨owner, d.name, child⟩ =
          some (.inserted d.name o.name) := by
        rw [insertion?_eq, bare?_register, bare?, ho]
        rfl
      rw [Option.toList_some, List.map_singleton, howner]
      rfl
    · refine newEntries_singleton ht ht' ?_ (listing_register ho hscope hnone child)
      rw [listing_of_get? ho hscope, hnone]

/-! ## Histories -/

/-- Accepted operations lead from the empty table to this one, these events were told of them, and
these entries were made, in this order. -/
inductive History : Table → List Event → List Entry → Prop where
  | empty : History .empty [] []
  | step {t t' : Table} {told events : List Event} {entries new : List Entry} :
      History t told entries → t.Operates events t' → t.NewEntries t' new →
      History t' (told ++ events) (entries ++ new)

/-- The events are those of the declarations and of the entries that the table has, each told
once. -/
structure Recorded (t : Table) (told : List Event) (entries : List Entry) : Prop where
  creations : told.filter Event.isCreation = t.creations
  insertions : (told.filter Event.isInsertion).map some = entries.map t.insertion?
  nodup : entries.Nodup
  mem_iff : ∀ e, e ∈ entries ↔ t.Lists e

theorem NewEntries.eq_toList {entry : Option Entry} (h : t.NewEntries t' new)
    (hentry : t.NewEntries t' entry.toList) : new = entry.toList := by
  have hperm : new.Perm entry.toList :=
    (List.perm_ext_iff_of_nodup h.nodup hentry.nodup).2 fun e => by rw [h.mem_iff, hentry.mem_iff]
  cases entry with
  | none => exact hperm.eq_nil
  | some e => exact List.perm_singleton.1 hperm

theorem History.registered (h : t.History told entries) : t.Registered := by
  induction h with
  | empty => exact registered_empty
  | step _ hstep _ ih => exact ih.change hstep.change

theorem recorded_empty : empty.Recorded [] [] where
  creations := rfl
  insertions := rfl
  nodup := .nil
  mem_iff _ := ⟨nofun, fun ⟨_, _, ho, _⟩ => nomatch ho⟩

theorem Lists.mono (ht : t.Registered) (h : Change t t') {e : Entry} (he : t.Lists e) :
    t'.Lists e :=
  (ht.change h).lists_iff.2 (h.extends.listing (ht.lists_iff.1 he))

/-- A step tells of what it adds, and what was told before is still so. -/
theorem Recorded.step (ht : t.Registered) (h : t.Recorded told entries)
    (hstep : t.Operates events t') (hnew : t.NewEntries t' new) :
    t'.Recorded (told ++ events) (entries ++ new) := by
  obtain ⟨entry, htells⟩ := hstep.tells ht
  obtain rfl := hnew.eq_toList htells.new
  have hsame : entries.map t'.insertion? = entries.map t.insertion? :=
    List.map_congr_left fun e he => hstep.change.extends.toGrowsTo.insertion? ((h.mem_iff e).1 he)
  refine ⟨?_, ?_, ?_, fun e => ?_⟩
  · rw [List.filter_append, h.creations, htells.creations]
  · rw [List.filter_append, List.map_append, List.map_append, h.insertions, htells.insertions,
      hsame]
  · refine List.nodup_append.2 ⟨h.nodup, hnew.nodup, fun e he e' he' => ?_⟩
    rintro rfl
    exact ((hnew.mem_iff e).1 he').2 ((h.mem_iff e).1 he)
  · rw [List.mem_append, h.mem_iff, hnew.mem_iff]
    constructor
    · intro hor
      obtain hold | ⟨hnow, -⟩ := hor
      · exact hold.mono ht hstep.change
      · exact hnow
    · intro hnow
      by_cases hold : t.Lists e
      · exact .inl hold
      · exact .inr ⟨hnow, hold⟩

/-- The events of a history are those of the table at its end. -/
theorem History.recorded (h : t.History told entries) : t.Recorded told entries := by
  induction h with
  | empty => exact recorded_empty
  | step hbefore hstep hnew ih => exact ih.step hbefore.registered hstep hnew

/-! ## Going on -/

/-- Accepted operations lead from the first table to the second one, and these events were told of
them. -/
inductive LeadsTo (t : Table) : List Event → Table → Prop where
  | refl : LeadsTo t [] t
  | step {t' t'' : Table} {told events : List Event} :
      LeadsTo t told t' → t'.Operates events t'' → LeadsTo t (told ++ events) t''

theorem LeadsTo.trans (h : t.LeadsTo told t') (h' : t'.LeadsTo more t'') :
    t.LeadsTo (told ++ more) t'' := by
  induction h' with
  | refl =>
    rw [List.append_nil]
    exact h
  | step _ hstep ih =>
    rw [← List.append_assoc]
    exact ih.step hstep

theorem LeadsTo.single (h : t.Operates events t') : t.LeadsTo events t' :=
  LeadsTo.refl.step h

/-- A history goes on with every operation that is accepted. -/
theorem History.leadsTo (h : t.History told entries) (h' : t.LeadsTo more t') :
    ∃ all, t'.History (told ++ more) all := by
  induction h' with
  | refl =>
    rw [List.append_nil]
    exact ⟨entries, h⟩
  | step _ hstep ih =>
    obtain ⟨all, hall⟩ := ih
    obtain ⟨entry, htells⟩ := hstep.tells hall.registered
    rw [← List.append_assoc]
    exact ⟨all ++ entry.toList, hall.step hstep htells.new⟩

end Table

end ModuleCompiler
