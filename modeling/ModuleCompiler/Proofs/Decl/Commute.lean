/-
  Creations in either order. Two creations of which neither needs what the other makes have the
  same verdicts whichever comes first (`verdict_create_of_create`), and where both are accepted
  the two tables differ in the ids of the new declarations only, which are exchanged
  (`relabeled_of_create`). What decides a creation is its parent's scope, and of that only
  whether the name is free; what it leaves is written down once, in `get?_of_create`.
-/
import ModuleCompiler.Proofs.Decl.InPlace
import ModuleCompiler.Proofs.Decl.Relabeled
import Mathlib.Logic.Equiv.Basic

namespace ModuleCompiler

/-! ## Entries in either order -/

namespace Scope

theorem place_comm {n m : String} (hne : n ≠ m) (i j : DeclId) (es : List (String × DeclId)) :
    place n i (place m j es) = place m j (place n i es) := by
  have hlt : n < m ∧ ¬m < n ∨ m < n ∧ ¬n < m := by
    obtain hle | hle := String.le_total n m
    · exact .inl ⟨String.not_le.1 fun h => hne (String.le_antisymm hle h), String.not_lt.2 hle⟩
    · exact .inr ⟨String.not_le.1 fun h => hne (String.le_antisymm h hle), String.not_lt.2 hle⟩
  induction es with
  | nil => obtain ⟨h, h'⟩ | ⟨h, h'⟩ := hlt <;> simp [place, h, h']
  | cons e es ih =>
    by_cases hn : n < e.1 <;> by_cases hm : m < e.1
    · obtain ⟨h, h'⟩ | ⟨h, h'⟩ := hlt <;> simp [place, hn, hm, h, h']
    · have hmn : ¬m < n := fun h => hm (String.lt_trans h hn)
      simp [place, hn, hm, hmn]
    · have hnm : ¬n < m := fun h => hn (String.lt_trans h hm)
      simp [place, hn, hm, hnm]
    · simp [place, hn, hm, ih]

theorem insert_comm {n m : String} (hne : n ≠ m) (s : Scope) (i j : DeclId) :
    (s.insert m j).insert n i = (s.insert n i).insert m j :=
  congrArg Scope.mk (place_comm hne i j s.entries)

theorem relabel_insert (σ : DeclId → DeclId) (s : Scope) (n : String) (x : DeclId) :
    (s.insert n x).relabel σ = (s.relabel σ).insert n (σ x) := by
  obtain ⟨es⟩ := s
  unfold insert relabel
  refine congrArg Scope.mk ?_
  dsimp only
  induction es with
  | nil => rfl
  | cons e es ih =>
    rw [List.map_cons, place, place]
    split
    · rfl
    · rw [List.map_cons, ih]

end Scope

namespace Decl

/-- The declaration with the id `x`, once `d` is created under the id `new`: it lists `d` if it is
the parent. -/
def receive (o : Decl) (x : DeclId) (d : Decl) (new : DeclId) : Decl :=
  if d.parent = some x then o.register d.name new else o

theorem register_comm {n m : String} (hne : n ≠ m) (o : Decl) (i j : DeclId) :
    (o.register m j).register n i = (o.register n i).register m j := by
  obtain ⟨_, _, s | s | _ | _⟩ := o
  · simp only [register, DeclKind.register, s.insert_comm hne]
  · simp only [register, DeclKind.register, s.insert_comm hne]
  · rfl
  · rfl

theorem receive_comm {x : DeclId} {a b : Decl}
    (hne : ∀ p, a.parent = some p → b.parent = some p → a.name ≠ b.name) (o : Decl)
    (i j : DeclId) : (o.receive x b j).receive x a i = (o.receive x a i).receive x b j := by
  unfold receive
  split <;> split
  · next ha hb => exact o.register_comm (hne x ha hb) i j
  · rfl
  · rfl
  · rfl

theorem storedType?_bare (d : Decl) : d.bare.storedType? = d.storedType? := by
  obtain ⟨_, _, _ | _ | _ | _⟩ := d <;> rfl

theorem storedType?_receive (o : Decl) (x : DeclId) (d : Decl) (new : DeclId) :
    (o.receive x d new).storedType? = o.storedType? := by
  unfold receive
  split
  · obtain ⟨_, _, _ | _ | _ | _⟩ := o <;> rfl
  · rfl

theorem relabel_receive {σ τ : DeclId → DeclId} (o : Decl) (x : DeclId) (d : Decl)
    (new : DeclId) :
    (o.receive x d new).relabel σ τ = (o.relabel σ τ).receive x d (σ new) := by
  unfold receive
  split
  · obtain ⟨_, _, s | s | _ | _⟩ := o
    · simp only [relabel, register, DeclKind.relabel, DeclKind.register, s.relabel_insert]
    · simp only [relabel, register, DeclKind.relabel, DeclKind.register, s.relabel_insert]
    · rfl
    · rfl
  · rfl

end Decl

/-! ## Verdicts -/

/-- Whether the outcome is a result, and if it is none the fault. -/
def verdict {α : Type} (x : Except Fault α) : Except Fault Unit :=
  x.map fun _ => ()

theorem verdict_eq_error_iff {α β : Type} {x : Except Fault α} {fault : Fault} :
    verdict x = verdict (.error fault : Except Fault β) ↔ x = .error fault := by
  cases x with
  | error other =>
    constructor
    · intro h
      cases h
      rfl
    · intro h
      cases h
      rfl
  | ok a => exact ⟨nofun, nofun⟩

theorem verdict_eq_ok_iff {α β : Type} {x : Except Fault α} {b : β} :
    verdict x = verdict (.ok b : Except Fault β) ↔ ∃ a, x = .ok a := by
  cases x with
  | error fault => exact ⟨nofun, nofun⟩
  | ok a => exact ⟨fun _ => ⟨a, rfl⟩, fun _ => rfl⟩

namespace Table

variable {t : Table} {a b d : Decl}

theorem insertable_eq (t : Table) (owner : DeclId) (n : String) :
    t.insertable owner n =
      match t.get? owner with
      | none => .error (.foreignId owner)
      | some o =>
        match o.scope? with
        | none => .error (.diagnostic (.cannotInsert n o.name))
        | some s =>
          if s.contains n then .error (.diagnostic (.duplicateName n o.name)) else .ok o := by
  unfold insertable decl
  cases t.get? owner with
  | none => rfl
  | some o =>
    simp only [bind, Except.bind]
    cases o.scope? <;> rfl

theorem verdict_attach (t : Table) (n : String) (owner : DeclId) (kind : DeclKind) :
    verdict (t.attach n owner kind) = verdict (t.insertable owner n) := by
  cases h : t.insertable owner n with
  | error fault =>
    rw [attach_of_error h]
    rfl
  | ok o =>
    rw [attach_eq h (lt_of_get? (insertable_eq_ok_iff.1 h).1)]
    rfl

/-- What decides a creation is whether the name can be inserted into the parent's scope. -/
theorem verdict_create_congr {t' : Table} (h : ∀ p, d.parent = some p →
    verdict (t'.insertable p d.name) = verdict (t.insertable p d.name)) :
    verdict (t'.create d) = verdict (t.create d) := by
  obtain ⟨n, parent, kind⟩ := d
  cases parent with
  | none => cases kind <;> rfl
  | some owner =>
    have hattach : ∀ k, verdict (t'.attach n owner k) = verdict (t.attach n owner k) := by
      intro k
      rw [verdict_attach, verdict_attach]
      exact h owner rfl
    cases kind with
    | procedure s exported returns =>
      cases exported with
      | false => rfl
      | true => exact hattach _
    | _ => exact hattach _

/-! ## What a creation leaves -/

/-- An accepted creation: the new declaration is under the next id, its parent lists it, and every
other declaration is as it was. -/
theorem get?_of_create {c : Created} (h : t.create d = .ok c) (x : DeclId) :
    c.table.get? x =
      if x = t.next then some d.bare else (t.get? x).map (·.receive x d t.next) := by
  obtain ⟨hbare, rfl⟩ | ⟨owner, hparent, hatt⟩ := create_eq_ok h
  · have hroot : d.parent = none := congrArg Decl.parent hbare
    have hreceive : (fun o : Decl => o.receive x d t.next) = id := by
      funext o
      rw [Decl.receive, hroot, if_neg nofun]
      rfl
    have hget := t.get?_push _ (t.parent_lt_of_root d.name) x
    rw [hget, hbare, hreceive, Option.map_id]
    rfl
  · obtain ⟨o, scope, ho, -, -, rfl⟩ := attach_eq_ok_iff.1 hatt
    have hlt := lt_of_get? ho
    have hbare : d.bare = ⟨d.name, some owner, d.kind.bare⟩ := by rw [Decl.bare, hparent]
    rw [grow, get?_register, get?_push, ← hbare]
    by_cases hx : x = t.next
    · have hne : owner ≠ x := fun heq => ne_next hlt (heq.trans hx)
      rw [if_neg hne, if_pos hx, if_pos hx]
    · rw [if_neg hx, if_neg hx]
      by_cases howner : owner = x
      · simp only [Decl.receive, hparent, howner, if_true]
      · have hother : ∀ e : Decl, e.receive x d t.next = e := by
          intro e
          rw [Decl.receive, hparent, if_neg (by simp [howner])]
        simp only [hother, if_neg howner, Option.map_id']

/-- A creation leaves every other name of a scope as free or as taken as it was. -/
theorem verdict_insertable_of_create {c : Created} (h : t.create a = .ok c) {p : DeclId}
    {n : String} (hp : p.index < t.size) (hne : a.parent = some p → a.name ≠ n) :
    verdict (c.table.insertable p n) = verdict (t.insertable p n) := by
  obtain ⟨hfree, -⟩ := listing_of_create h
  rw [insertable_eq, insertable_eq, get?_of_create h, if_neg (ne_next hp)]
  cases ho : t.get? p with
  | none => rfl
  | some o =>
    rw [Option.map_some, Decl.receive]
    by_cases hparent : a.parent = some p
    · rw [if_pos hparent]
      dsimp only
      rw [Decl.scope?_register]
      cases hs : o.scope? with
      | none => rfl
      | some s =>
        have hnone : s.find? a.name = none := by
          rw [← listing_of_get? ho hs]
          exact hfree p hparent
        have hsame : (s.insert a.name t.next).contains n = s.contains n := by
          unfold Scope.contains
          rw [Scope.find?_insert hnone, if_neg (hne hparent).symm]
        simp only [Option.map_some, hsame]
        split <;> rfl
    · rw [if_neg hparent]

/-! ## Independent creations -/

/-- The ids that the declaration has in it are of the table. -/
structure Anchors (t : Table) (d : Decl) : Prop where
  parent : ∀ p, d.parent = some p → p.index < t.size
  storedType : ∀ y, d.storedType? = some y → y.index < t.size

/-- The declarations do not ask for one name in one scope. -/
def Distinct (a b : Decl) : Prop :=
  ∀ p, a.parent = some p → b.parent = some p → a.name ≠ b.name

theorem Distinct.symm (h : Distinct a b) : Distinct b a :=
  fun p hb ha => (h p ha hb).symm

theorem verdict_create_of_create (hb : t.Anchors b) (hne : Distinct a b) {c : Created}
    (h : t.create a = .ok c) : verdict (c.table.create b) = verdict (t.create b) := by
  refine verdict_create_congr fun p hp => ?_
  exact verdict_insertable_of_create h (hb.parent p hp) fun ha => hne p ha hp

/-- The id behind the next one. -/
def nextButOne (t : Table) : DeclId := ⟨t.size + 1⟩

/-- The next two ids change places. -/
def exchange (t : Table) : Equiv.Perm DeclId :=
  Equiv.swap t.next t.nextButOne

theorem exchange_next (t : Table) : t.exchange t.next = t.nextButOne :=
  Equiv.swap_apply_left _ _

theorem exchange_nextButOne (t : Table) : t.exchange t.nextButOne = t.next :=
  Equiv.swap_apply_right _ _

theorem next_ne_nextButOne (t : Table) : t.next ≠ t.nextButOne := by
  intro h
  have hindex : t.size = t.size + 1 := congrArg DeclId.index h
  omega

theorem exchange_of_lt {x : DeclId} (h : x.index < t.size) : t.exchange x = x := by
  refine Equiv.swap_apply_of_ne_of_ne (ne_next h) ?_
  rintro rfl
  have hindex : t.size + 1 < t.size := h
  omega

theorem map_exchange {o : Option DeclId} (h : ∀ x, o = some x → x.index < t.size) :
    o.map t.exchange = o := by
  cases o with
  | none => rfl
  | some x => exact congrArg some (exchange_of_lt (h x rfl))

theorem Anchors.relabel_bare (h : t.Anchors d) : d.bare.relabel t.exchange id = d.bare := by
  obtain ⟨n, parent, kind⟩ := d
  have hparent : parent.map t.exchange = parent := map_exchange h.parent
  cases kind <;> simp only [Decl.bare, Decl.relabel, DeclKind.bare, DeclKind.relabel, hparent,
    Option.map_id] <;> rfl

/-- No id that a declaration of the table has is exchanged, save for the types that it stores. -/
theorem Registered.relabel_old (ht : t.Registered) {x : DeclId} {o : Decl}
    (ho : t.get? x = some o) : o.relabel t.exchange id = o := by
  have hparent : o.parent.map t.exchange = o.parent := by
    refine map_exchange fun p hp => ?_
    have hstep : t.parent x = some p := (parent_of_get? ho).trans hp
    have hlt := lt_of_parent hstep
    have hx := lt_of_get? ho
    omega
  have hscope : ∀ s, o.scope? = some s → s.relabel t.exchange = s := by
    intro s hs
    refine congrArg Scope.mk ?_
    conv_rhs => rw [← s.entries.map_id]
    refine List.map_congr_left fun e he => ?_
    obtain ⟨c, hc, -⟩ := ht.oneTree.entry x o s e.1 e.2 ho hs he
    rw [exchange_of_lt (lt_of_get? hc)]
    rfl
  obtain ⟨n, parent, s | ⟨s, exported, returns⟩ | representation | ⟨type, exported, mutable⟩⟩ := o
  · simp only [Decl.relabel, DeclKind.relabel, hscope s rfl, hparent]
  · simp only [Decl.relabel, DeclKind.relabel, hscope s rfl, hparent, Option.map_id, id]
  · simp only [Decl.relabel, DeclKind.relabel, hparent]
  · simp only [Decl.relabel, DeclKind.relabel, hparent, Option.map_id, id]

theorem next_of_create {c : Created} (h : t.create d = .ok c) : c.table.next = t.nextButOne :=
  DeclId.ext (creates_of_create h).2.size

/-- An accepted creation behind another one. -/
theorem get?_of_create_create {c c' : Created} (h : t.create a = .ok c)
    (h' : c.table.create b = .ok c') (hb : t.Anchors b) (x : DeclId) :
    c'.table.get? x =
      if x = t.nextButOne then some b.bare
      else if x = t.next then some a.bare
      else (t.get? x).map fun o => (o.receive x a t.next).receive x b t.nextButOne := by
  rw [get?_of_create h', next_of_create h, get?_of_create h]
  split
  · rfl
  split
  · next hx =>
    have hparent : b.parent ≠ some x := by
      rw [hx]
      exact fun hp => Nat.lt_irrefl _ (hb.parent _ hp)
    rw [Option.map_some, Decl.receive, if_neg hparent]
  · exact Option.map_map ..

/-- Both creations are accepted in either order: the new ids are exchanged. -/
theorem Registered.relabeled_of_create (ht : t.Registered) (ha : t.Anchors a) (hb : t.Anchors b)
    (hne : Distinct a b) {ca cb cab cba : Created} (hca : t.create a = .ok ca)
    (hcab : ca.table.create b = .ok cab) (hcb : t.create b = .ok cb)
    (hcba : cb.table.create a = .ok cba) :
    cab.table.Relabeled t.exchange id cba.table where
  size := by
    rw [(creates_of_create hcab).2.size, (creates_of_create hca).2.size,
      (creates_of_create hcba).2.size, (creates_of_create hcb).2.size]
  get? x := by
    have hdistinct := t.next_ne_nextButOne
    rw [get?_of_create_create hca hcab hb, get?_of_create_create hcb hcba ha]
    by_cases hlast : x = t.nextButOne
    · rw [hlast, t.exchange_nextButOne, if_neg hdistinct, if_pos rfl, if_pos rfl, Option.map_some,
        hb.relabel_bare]
    by_cases hnext : x = t.next
    · rw [hnext, t.exchange_next, if_pos rfl, if_neg hdistinct, if_pos rfl, Option.map_some,
        ha.relabel_bare]
    rw [exchange, Equiv.swap_apply_of_ne_of_ne hnext hlast, if_neg hlast, if_neg hnext,
      if_neg hlast, if_neg hnext, Option.map_map]
    refine Option.map_congr fun o ho => ?_
    show _ = Decl.relabel t.exchange id _
    rw [Decl.relabel_receive, Decl.relabel_receive, t.exchange_next, t.exchange_nextButOne,
      ht.relabel_old ho, Decl.receive_comm hne]

/-! ## In turn -/

/-- How two creations end, and the table behind them. -/
structure InTurn where
  first : Except Fault DeclId
  second : Except Fault DeclId
  table : Table

/-- The one creation and then the other, whatever becomes of the first. -/
def inTurn (t : Table) (a b : Decl) : InTurn :=
  let (first, middle) := t.leaving (t.create a)
  let (second, last) := middle.leaving (middle.create b)
  ⟨first, second, last⟩

/-- Both creations are accepted. -/
def InTurn.Accepted (r : InTurn) : Prop := r.first.isOk ∧ r.second.isOk

instance (r : InTurn) : Decidable r.Accepted :=
  inferInstanceAs (Decidable (_ ∧ _))

theorem inTurn_of_ok {c c' : Created} (h : t.create a = .ok c) (h' : c.table.create b = .ok c') :
    t.inTurn a b = ⟨.ok t.next, .ok t.nextButOne, c'.table⟩ := by
  have hid : c.id = t.next := (creates_of_create h).1
  have hid' : c'.id = t.nextButOne := (creates_of_create h').1.trans (next_of_create h)
  simp only [inTurn, h, leaving, h', hid, hid']

/-- A creation that is refused leaves no trace in front of the other one. -/
theorem inTurn_of_refused {fault : Fault} (h : t.create a = .error fault) :
    t.inTurn a b =
      ⟨.error fault, (t.leaving (t.create b)).1, (t.leaving (t.create b)).2⟩ := by
  simp only [inTurn, h, leaving]

/-- A creation that is refused is refused behind the other one as well. -/
theorem inTurn_of_refused_behind (hb : t.Anchors b) (hne : Distinct a b) {fault : Fault}
    (h : t.create b = .error fault) :
    t.inTurn a b =
      ⟨(t.leaving (t.create a)).1, .error fault, (t.leaving (t.create a)).2⟩ := by
  cases hca : t.create a with
  | error faulta => simp only [inTurn, hca, leaving, h]
  | ok ca =>
    have hbehind := verdict_create_of_create hb hne hca
    rw [h] at hbehind
    have hcab : ca.table.create b = .error fault := verdict_eq_error_iff.1 hbehind
    simp only [inTurn, hca, leaving, hcab]

/-- The tables `u` and `v`, which creations in either order make of `t`, are the same but for the
two new ids. -/
structure Exchanged (t u v : Table) : Prop where
  /-- The ids are exchanged, and the types that declarations store are left as they are. -/
  relabeled : u.Relabeled t.exchange id v
  answers : u.SameAnswers t.exchange v
  /-- Stored types are exchanged as well, unless `t` stores one of the two ids, which it does not
  have yet. -/
  storedTypes : (∀ x d, t.get? x = some d →
      d.storedType? ≠ some t.next ∧ d.storedType? ≠ some t.nextButOne) →
    u.Relabeled t.exchange t.exchange v

/-- The two creations come to the same in either order. -/
structure Commute (t : Table) (a b : Decl) : Prop where
  first : verdict (t.inTurn b a).second = verdict (t.inTurn a b).first
  second : verdict (t.inTurn b a).first = verdict (t.inTurn a b).second
  exchanged : (t.inTurn a b).Accepted →
    (t.inTurn a b).first = .ok t.next ∧ (t.inTurn a b).second = .ok t.nextButOne ∧
      (t.inTurn b a).first = .ok t.next ∧ (t.inTurn b a).second = .ok t.nextButOne ∧
      t.Exchanged (t.inTurn a b).table (t.inTurn b a).table
  equal : ¬(t.inTurn a b).Accepted → (t.inTurn b a).table = (t.inTurn a b).table

theorem Registered.exchanged_of_create (ht : t.Registered) (ha : t.Anchors a) (hb : t.Anchors b)
    (hne : Distinct a b) {ca cb cab cba : Created} (hca : t.create a = .ok ca)
    (hcab : ca.table.create b = .ok cab) (hcb : t.create b = .ok cb)
    (hcba : cb.table.create a = .ok cba) : t.Exchanged cab.table cba.table := by
  have hrelabeled := ht.relabeled_of_create ha hb hne hca hcab hcb hcba
  refine ⟨hrelabeled, hrelabeled.sameAnswers, fun hold => ?_⟩
  refine hrelabeled.of_storedTypes fun x d y hd hy => ?_
  rw [get?_of_create_create hca hcab hb] at hd
  split at hd
  · cases hd
    exact exchange_of_lt (hb.storedType y (by rw [← hy, b.storedType?_bare]))
  split at hd
  · cases hd
    exact exchange_of_lt (ha.storedType y (by rw [← hy, a.storedType?_bare]))
  · obtain ⟨o, ho, rfl⟩ := Option.map_eq_some_iff.1 hd
    rw [Decl.storedType?_receive, Decl.storedType?_receive] at hy
    obtain ⟨hnext, hlast⟩ := hold x o ho
    rw [hy] at hnext hlast
    exact Equiv.swap_apply_of_ne_of_ne (fun h => hnext (congrArg some h))
      fun h => hlast (congrArg some h)

/-- Two creations that do not need each other and do not ask for one name in one scope come to the
same in either order: the same verdicts, and the same table but for the two new ids. Both ids are of
32 bits if there were fewer than `2 ^ 32 - 1` requests before, which bounds the declarations of the
table. -/
theorem creations_commute (rs : List Request) {a b : Decl} (ha : (empty.run rs).Anchors a)
    (hb : (empty.run rs).Anchors b) (hne : Distinct a b) : (empty.run rs).Commute a b := by
  have ht := registered_of_run registered_empty rs
  generalize empty.run rs = t at ha hb ht ⊢
  cases hca : t.create a with
  | error fault =>
    have hab := inTurn_of_refused (b := b) hca
    have hba := inTurn_of_refused_behind ha hne.symm hca
    have hnot : ¬(t.inTurn a b).Accepted := by
      rw [hab]
      exact fun h => nomatch h.1
    exact ⟨by rw [hab, hba], by rw [hab, hba], fun h => absurd h hnot, fun _ => by rw [hab, hba]⟩
  | ok ca =>
    cases hcb : t.create b with
    | error fault =>
      have hab := inTurn_of_refused_behind hb hne hcb
      have hba := inTurn_of_refused (b := a) hcb
      have hnot : ¬(t.inTurn a b).Accepted := by
        rw [hab]
        exact fun h => nomatch h.2
      exact ⟨by rw [hab, hba], by rw [hab, hba], fun h => absurd h hnot, fun _ => by rw [hab, hba]⟩
    | ok cb =>
      obtain ⟨cab, hcab⟩ := verdict_eq_ok_iff.1
        ((verdict_create_of_create hb hne hca).trans (congrArg verdict hcb))
      obtain ⟨cba, hcba⟩ := verdict_eq_ok_iff.1
        ((verdict_create_of_create ha hne.symm hcb).trans (congrArg verdict hca))
      have hab := inTurn_of_ok hca hcab
      have hba := inTurn_of_ok hcb hcba
      refine ⟨by rw [hab, hba]; rfl, by rw [hab, hba]; rfl, fun _ => ?_, fun hnot => ?_⟩
      · rw [hab, hba]
        exact ⟨rfl, rfl, rfl, rfl, ht.exchanged_of_create ha hb hne hca hcab hcb hcba⟩
      · rw [hab] at hnot
        exact absurd ⟨rfl, rfl⟩ hnot

/-- A procedure and a variable of a module, both behind the predeclared ones. -/
theorem creations_commute_in_module :
    let t := empty.run [.createModule "SYSTEM" none, .insert ⟨0⟩ ⟨0⟩,
      .createType "INTEGER" (some ⟨0⟩) "i64", .createModule "M" (some ⟨0⟩)]
    let p : Decl := ⟨"P", some ⟨2⟩, .procedure .empty true (some ⟨1⟩)⟩
    let v : Decl := ⟨"V", some ⟨2⟩, .var (some ⟨1⟩) false true⟩
    t.Anchors p ∧ t.Anchors v ∧ Distinct p v ∧ (t.inTurn p v).Accepted ∧ t.Commute p v := by
  intro t p v
  have hp : t.Anchors p := ⟨by rintro _ ⟨⟩; decide +kernel, by rintro _ ⟨⟩; decide +kernel⟩
  have hv : t.Anchors v := ⟨by rintro _ ⟨⟩; decide +kernel, by rintro _ ⟨⟩; decide +kernel⟩
  have hne : Distinct p v := fun _ _ _ => by decide
  exact ⟨hp, hv, hne, by decide +kernel, creations_commute _ hp hv hne⟩

/-- A type that was stored before it was declared is the one type in the one order and the other
type in the other order, so not all ids are exchanged. -/
theorem stored_type_not_exchanged :
    let t := empty.run [.createModule "M" none, .createVariable "x" (some ⟨0⟩) (some ⟨2⟩) true true]
    let a : Decl := ⟨"A", some ⟨0⟩, .type "i8"⟩
    let b : Decl := ⟨"B", some ⟨0⟩, .type "i16"⟩
    t.Anchors a ∧ t.Anchors b ∧ Distinct a b ∧ (t.inTurn a b).Accepted ∧
      ¬(t.inTurn a b).table.Relabeled t.exchange t.exchange (t.inTurn b a).table := by
  intro t a b
  have ha : t.Anchors a := ⟨by rintro _ ⟨⟩; decide +kernel, nofun⟩
  have hb : t.Anchors b := ⟨by rintro _ ⟨⟩; decide +kernel, nofun⟩
  refine ⟨ha, hb, fun _ _ _ => by decide, by decide +kernel, fun h => ?_⟩
  have hx := h.get? ⟨1⟩
  let x : Decl := ⟨"x", some ⟨0⟩, .var (some ⟨2⟩) true true⟩
  have hab : (t.inTurn a b).table.get? ⟨1⟩ = some x := by decide +kernel
  have hba : (t.inTurn b a).table.get? ⟨1⟩ = some x := by decide +kernel
  rw [exchange_of_lt (by decide +kernel), hab, hba] at hx
  have htype : some x.storedType? = some (x.relabel t.exchange t.exchange).storedType? :=
    congrArg (Option.map Decl.storedType?) hx
  have hnext : (⟨2⟩ : DeclId) = t.nextButOne :=
    (Option.some.inj (Option.some.inj htype)).trans (t.exchange_next)
  exact absurd hnext (by decide +kernel)

end Table

end ModuleCompiler
