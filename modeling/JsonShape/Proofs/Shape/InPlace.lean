import JsonShape.Proofs.KeyedList
import JsonShape.Proofs.Shape.Join
import JsonShape.Shape.Registry
import Mathlib

/-!
# Registration in place

Registration as a program that changes a table step by step, where nothing is undone when it is stopped at a
checkpoint. It comes to the same as `Registry.register`, which gives a new registry or none: all checkpoints are
before the first change. The second half is about histories of calls, each of which may be stopped anywhere:
what holds of the table after all of them, and what a further call changes.
-/

namespace JsonShape

/-! ### Tables -/

/-- Objects by name, in the order in which the names have come, and the names that are retired. -/
structure Ledger where
  entries : List (String × ObjectShape) := []
  retired : List String := []

namespace Ledger

/-- The names of the objects in order. -/
def names (l : Ledger) : List String := l.entries.map (·.1)

/-- The object under a name. -/
def get? (l : Ledger) (name : String) : Option ObjectShape := l.entries.lookup name

/-- The table with an object under a name: in the place of the one there, or behind the others. -/
def set (l : Ledger) (name : String) (o : ObjectShape) : Ledger :=
  { l with
    entries :=
      if name ∈ l.names then l.entries.map fun e => if e.1 = name then (name, o) else e
      else l.entries ++ [(name, o)] }

/-- The table without the object under a name. -/
def delete (l : Ledger) (name : String) : Ledger := { l with entries := l.entries.filter (·.1 ≠ name) }

/-- The table with a further name retired. -/
def retire (l : Ledger) (name : String) : Ledger := { l with retired := name :: l.retired }

variable {l : Ledger} {name n : String} {o : ObjectShape} {e : String × ObjectShape}

theorem mem_names_of_mem (h : e ∈ l.entries) : e.1 ∈ l.names := List.mem_map_of_mem h

theorem get?_eq_none : l.get? n = none ↔ n ∉ l.names := by
  rw [get?, List.lookup_eq_none_iff, names, List.mem_map]
  constructor
  · rintro h ⟨e, he, rfl⟩
    simpa using h e he
  · rintro h e he
    exact bne_iff_ne.mpr fun hn => h ⟨e, he, hn.symm⟩

theorem set_of_mem (h : name ∈ l.names) :
    l.set name o = { l with entries := l.entries.map fun e => if e.1 = name then (name, o) else e } := by
  rw [set, if_pos h]

theorem set_of_not_mem (h : name ∉ l.names) :
    l.set name o = { l with entries := l.entries ++ [(name, o)] } := by
  rw [set, if_neg h]

theorem mem_set : e ∈ (l.set name o).entries ↔ e = (name, o) ∨ e ∈ l.entries ∧ e.1 ≠ name := by
  by_cases hn : name ∈ l.names
  · obtain ⟨d, hd, hdn⟩ := List.mem_map.mp hn
    rw [set_of_mem hn, List.mem_map]
    constructor
    · rintro ⟨c, hc, rfl⟩
      by_cases hcn : c.1 = name
      · exact .inl (if_pos hcn)
      · rw [if_neg hcn]
        exact .inr ⟨hc, hcn⟩
    · rintro (rfl | ⟨he, hen⟩)
      · exact ⟨d, hd, if_pos hdn⟩
      · exact ⟨e, he, if_neg hen⟩
  · rw [set_of_not_mem hn, List.mem_append, List.mem_singleton]
    constructor
    · rintro (he | rfl)
      · exact .inr ⟨he, fun hen => hn (hen ▸ mem_names_of_mem he)⟩
      · exact .inl rfl
    · rintro (rfl | ⟨he, -⟩)
      · exact .inr rfl
      · exact .inl he

/-- A name that is there keeps its place, and a new one goes behind. -/
theorem names_set : (l.set name o).names = if name ∈ l.names then l.names else l.names ++ [name] := by
  split
  · next hn =>
    rw [set_of_mem hn, names, List.map_map]
    refine List.map_congr_left fun e _ => ?_
    by_cases he : e.1 = name <;> simp [he]
  · next hn => rw [set_of_not_mem hn, names, List.map_append]; rfl

/-- Nothing but the entry of the name is touched. -/
theorem others_set : (l.set name o).entries.filter (·.1 ≠ name) = l.entries.filter (·.1 ≠ name) := by
  by_cases hn : name ∈ l.names
  · rw [set_of_mem hn, List.filter_map, ← List.map_id (l.entries.filter fun e => e.1 ≠ name)]
    have hkeep : ((fun e : String × ObjectShape => decide (e.1 ≠ name)) ∘
        fun e => if e.1 = name then (name, o) else e) = fun e => decide (e.1 ≠ name) := by
      funext e
      by_cases he : e.1 = name <;> simp [he]
    rw [hkeep]
    refine List.map_congr_left fun e he => ?_
    rw [if_neg (by simpa using (List.mem_filter.mp he).2), id]
  · rw [set_of_not_mem hn, List.filter_append]
    simp

theorem get?_set : (l.set name o).get? n = if n = name then some o else l.get? n := by
  split
  · next h =>
    subst h
    obtain ⟨j, hj⟩ := exists_lookup_of_mem (mem_set.mpr (.inl (rfl : (n, o) = (n, o))))
    rcases mem_set.mp (mem_of_lookup hj) with h | h
    · rw [get?, hj, (Prod.mk.inj h).2]
    · exact absurd rfl h.2
  · next h => rw [get?, ← lookup_filter_ne h, others_set, lookup_filter_ne h, get?]

theorem names_delete : (l.delete name).names = l.names.filter (· ≠ name) := by
  rw [names, names, List.filter_map]
  rfl

theorem get?_delete : (l.delete name).get? n = if n = name then none else l.get? n := by
  split
  · next h => rw [get?_eq_none, names_delete]; simp [h]
  · next h => exact lookup_filter_ne h

end Ledger

/-- The table of a registry: each object under its own name. -/
def Registry.ledger (r : Registry) : Ledger := ⟨r.types.map fun o => (o.name, o), r.retired⟩

namespace Registry

variable {r : Registry} {o j : ObjectShape} {name : String}

theorem get?_ledger : r.ledger.get? name = r.get? name := by
  show (r.types.map fun o => (o.name, o)).lookup name = r.types.find? (·.name = name)
  induction r.types with
  | nil => rfl
  | cons u us ih =>
    rw [List.map_cons, List.lookup_cons, List.find?_cons]
    by_cases hu : u.name = name
    · simp [hu]
    · have hun : (name == u.name) = false := by simpa using Ne.symm hu
      simp only [hun, hu, decide_false, ih]

theorem ledger_add (h : r.get? o.name = none) : (r.add o).ledger = r.ledger.set o.name o := by
  rw [← get?_ledger, Ledger.get?_eq_none] at h
  rw [Ledger.set_of_not_mem h, ledger, add, List.map_append]
  rfl

theorem ledger_replace (h : r.get? o.name = some j) : (r.replace o).ledger = r.ledger.set o.name o := by
  have hn : o.name ∈ r.ledger.names := by
    rw [← not_not (a := o.name ∈ _), ← Ledger.get?_eq_none, get?_ledger, h]
    exact Option.some_ne_none j
  rw [Ledger.set_of_mem hn, ledger, replace, List.map_map, ledger, List.map_map]
  congr 1
  refine List.map_congr_left fun u _ => ?_
  by_cases hu : u.name = o.name <;> simp [hu]

theorem ledger_retire : (r.retire name).ledger = (r.ledger.delete name).retire name := by
  simp only [Ledger.delete, Ledger.retire, ledger, retire, List.filter_map, Function.comp_def]

end Registry

/-! ### Programs on tables -/

/-- A program that changes a table in place. What it has changed stays changed when it ends in a fault. -/
def InPlace (α : Type) : Type := Signal → Progress → Ledger → Except Fault α × Progress × Ledger

namespace InPlace

variable {α β : Type}

/-- The program that has a result at once. -/
protected def pure (a : α) : InPlace α := fun _ p l => (.ok a, p, l)

/-- One program after another. -/
protected def bind (x : InPlace α) (f : α → InPlace β) : InPlace β := fun signal p l =>
  match x signal p l with
  | (.ok a, p, l) => f a signal p l
  | (.error e, p, l) => (.error e, p, l)

instance : Monad InPlace where
  pure := InPlace.pure
  bind := InPlace.bind

/-- A pass, which does not touch the table. -/
def ofPass (x : Pass α) : InPlace α := fun signal p l => ((x.run signal p).1, (x.run signal p).2, l)

/-- The table as it is. -/
def table : InPlace Ledger := fun _ p l => (.ok l, p, l)

/-- Changes the table. -/
def change (f : Ledger → Ledger) : InPlace Unit := fun _ p l => (.ok (), p, f l)

/-- Registers an object in the table. -/
def register (o : ObjectShape) : InPlace (Option ObjectShape) := do
  ofPass Pass.check
  if (← table).retired.contains o.name then return none
  match (← table).get? o.name with
  | none =>
    change (·.set o.name o)
    return some o
  | some existing =>
    if existing.same o then return some existing
    let merged ← ofPass (unifyObjects [existing, o])
    if merged.isEmpty then
      change (·.delete o.name)
      change (·.retire o.name)
      return none
    change (·.set o.name merged)
    return some merged

end InPlace

/-- A call to register an object: the answer, and the table after the call. -/
def Ledger.call (l : Ledger) (o : ObjectShape) (signal : Signal) :
    Except Fault (Option ObjectShape) × Ledger :=
  ((InPlace.register o signal {} l).1, (InPlace.register o signal {} l).2.2)

/-- How a call to register an object in a table may end. -/
inductive Ledger.Ends (l : Ledger) (o : ObjectShape) : Except Fault (Option ObjectShape) → Ledger → Prop
  | cancelled (reason : String) : Ends l o (.error (.cancelled reason)) l
  | retired : o.name ∈ l.retired → Ends l o (.ok none) l
  | added : o.name ∉ l.retired → l.get? o.name = none → Ends l o (.ok (some o)) (l.set o.name o)
  | kept {j : ObjectShape} : o.name ∉ l.retired → l.get? o.name = some j → j.same o = true →
      Ends l o (.ok (some j)) l
  | emptied {j : ObjectShape} : o.name ∉ l.retired → l.get? o.name = some j →
      (j.joinWith [o]).isEmpty = true → Ends l o (.ok none) ((l.delete o.name).retire o.name)
  | merged {j : ObjectShape} : o.name ∉ l.retired → l.get? o.name = some j →
      (j.joinWith [o]).isEmpty = false →
      Ends l o (.ok (some (j.joinWith [o]))) (l.set o.name (j.joinWith [o]))

/-! ### What programs come to -/

namespace InPlace

variable {α β : Type} {l : Ledger} {r : Registry} {o : ObjectShape}

/-- Every run of the program from a table ends with a result and a table that are related so. -/
def Ensures (x : InPlace α) (l : Ledger) (Q : Except Fault α → Ledger → Prop) : Prop :=
  ∀ signal p, Q (x signal p l).1 (x signal p l).2.2

variable {Q : Except Fault α → Ledger → Prop}

theorem ensures_pure {a : α} (h : Q (.ok a) l) : (pure a : InPlace α).Ensures l Q := fun _ _ => h

/-- A pass that yields a result goes on with it, or is stopped and leaves the table. -/
theorem ensures_ofPass_bind {x : Pass β} {b : β} {f : β → InPlace α} (hx : x.Yields (.ok b))
    (hstop : ∀ reason, Q (.error (.cancelled reason)) l) (hf : (f b).Ensures l Q) :
    (ofPass x >>= f).Ensures l Q := by
  intro signal p
  show Q (InPlace.bind (ofPass x) f signal p l).1 (InPlace.bind (ofPass x) f signal p l).2.2
  rw [InPlace.bind, ofPass]
  rcases hx signal p with h | ⟨_, reason, -, h⟩
  · rw [h]
    exact hf signal _
  · rw [h]
    exact hstop reason

theorem ensures_table_bind {f : Ledger → InPlace α} (hf : (f l).Ensures l Q) : (table >>= f).Ensures l Q := hf

theorem ensures_change_bind {g : Ledger → Ledger} {f : Unit → InPlace α} (hf : (f ()).Ensures (g l) Q) :
    (change g >>= f).Ensures l Q := hf

/-- A call to register an object ends in one of six ways. -/
theorem register_ends (o : ObjectShape) (l : Ledger) : (register o).Ensures l (l.Ends o) := by
  unfold register
  refine ensures_ofPass_bind Pass.yields_check .cancelled (ensures_table_bind ?_)
  by_cases hr : o.name ∈ l.retired
  · rw [if_pos (List.contains_iff_mem.mpr hr)]
    exact ensures_pure (.retired hr)
  rw [if_neg (mt List.contains_iff_mem.mp hr)]
  refine ensures_table_bind ?_
  cases hget : l.get? o.name with
  | none => exact ensures_change_bind (ensures_pure (.added hr hget))
  | some j =>
    simp only
    by_cases hsame : j.same o = true
    · rw [if_pos hsame]
      exact ensures_pure (.kept hr hget hsame)
    rw [if_neg hsame]
    refine ensures_ofPass_bind (unifyObjects_yields j [o]) .cancelled ?_
    cases he : (j.joinWith [o]).isEmpty with
    | true => exact ensures_change_bind (ensures_change_bind (ensures_pure (.emptied hr hget he)))
    | false => exact ensures_change_bind (ensures_pure (.merged hr hget he))

/-- The program does to the table of a registry what the pass does to the registry, if it has a result, and else
nothing. -/
def Simulates (x : InPlace α) (r : Registry) (y : Pass (α × Registry)) : Prop :=
  ∀ signal p, x signal p r.ledger =
    match y.run signal p with
    | (.ok (a, r'), p) => (.ok a, p, r'.ledger)
    | (.error e, p) => (.error e, p, r.ledger)

theorem simulates_ofPass_bind {z : Pass β} {f : β → InPlace α} {g : β → Pass (α × Registry)}
    (h : ∀ b signal p, (z.run signal p).1 = .ok b → (f b).Simulates r (g b)) :
    (ofPass z >>= f).Simulates r (z >>= g) := by
  intro signal p
  show InPlace.bind (ofPass z) f signal p r.ledger = _
  rw [InPlace.bind, ofPass, Pass.run_bind]
  rcases hz : z.run signal p with ⟨_ | b, p'⟩
  · rfl
  · exact h b signal p (by rw [hz]) signal p'

theorem simulates_table_bind {f : Ledger → InPlace α} {y : Pass (α × Registry)}
    (h : (f r.ledger).Simulates r y) : (table >>= f).Simulates r y := h

theorem simulates_pure (a : α) : (pure a : InPlace α).Simulates r (pure (a, r)) := fun _ _ => rfl

theorem simulates_change {g : Ledger → Ledger} {r' : Registry} (a : α) (h : r'.ledger = g r.ledger) :
    (do change g; return a : InPlace α).Simulates r (pure (a, r')) := by
  intro signal p
  show (Except.ok a, p, g r.ledger) = (Except.ok a, p, r'.ledger)
  rw [h]

/-- Registration in place does what registration does that gives a new registry or none. -/
theorem register_simulates (r : Registry) (o : ObjectShape) : (register o).Simulates r (r.register o) := by
  unfold register Registry.register
  refine simulates_ofPass_bind fun _ _ _ _ => simulates_table_bind ?_
  show InPlace.Simulates (if r.retired.contains o.name then _ else _) r _
  by_cases hr : r.retired.contains o.name = true
  · rw [if_pos hr, if_pos hr]
    exact simulates_pure none
  rw [if_neg hr, if_neg hr]
  refine simulates_table_bind ?_
  rw [Registry.get?_ledger]
  cases hget : r.get? o.name with
  | none => exact simulates_change (some o) (Registry.ledger_add hget)
  | some j =>
    simp only
    by_cases hsame : j.same o = true
    · rw [if_pos hsame, if_pos hsame]
      exact simulates_pure (some j)
    rw [if_neg hsame, if_neg hsame]
    have hj : j.name = o.name := by simpa [Registry.get?] using List.find?_some hget
    refine simulates_ofPass_bind fun m signal p hrun => ?_
    obtain rfl : j.joinWith [o] = m := Except.ok.inj ((unifyObjects_yields j [o]).eq_ok hrun)
    have hm : (j.joinWith [o]).name = o.name := ObjectShape.name_joinWith.trans hj
    by_cases he : (j.joinWith [o]).isEmpty = true
    · rw [if_pos he, if_pos he]
      exact simulates_change none Registry.ledger_retire
    · rw [if_neg he, if_neg he, ← hm]
      exact simulates_change _ (Registry.ledger_replace (hm ▸ hget))

end InPlace

/-! ### Calls -/

namespace Ledger

variable {l l' : Ledger} {o : ObjectShape} {a : Option ObjectShape} {r : Except Fault (Option ObjectShape)}

theorem call_ends (l : Ledger) (o : ObjectShape) (signal : Signal) :
    l.Ends o (l.call o signal).1 (l.call o signal).2 := InPlace.register_ends o l signal {}

/-- A call changes the table of a registry as it changes the registry, and has the same answer. -/
theorem call_ledger (r : Registry) (o : ObjectShape) (signal : Signal) :
    r.ledger.call o signal = ((r.call o signal).1, (r.call o signal).2.ledger) := by
  rw [call, InPlace.register_simulates r o signal {}, Registry.call]
  rcases (r.register o).run signal {} with ⟨_ | ⟨_, _⟩, _⟩ <;> rfl

/-- Each object is there once, under its own name, with properties, and its name is not retired. -/
structure Sound (l : Ledger) : Prop where
  nodup : l.names.Nodup
  own_name : ∀ e ∈ l.entries, e.2.name = e.1
  nonempty : ∀ e ∈ l.entries, e.2.isEmpty = false
  disjoint : ∀ name ∈ l.names, name ∉ l.retired

/-- An object that is not empty may be put under its name, if that is not retired. -/
theorem Sound.set (h : l.Sound) (hne : o.isEmpty = false) (hr : o.name ∉ l.retired) :
    (l.set o.name o).Sound where
  nodup := by
    rw [names_set]
    split
    · exact h.nodup
    · next hn => exact h.nodup.append (List.nodup_singleton _) (by simpa using hn)
  own_name e he := by
    rcases mem_set.mp he with rfl | ⟨he, -⟩
    · rfl
    · exact h.own_name e he
  nonempty e he := by
    rcases mem_set.mp he with rfl | ⟨he, -⟩
    · exact hne
    · exact h.nonempty e he
  disjoint name hn := by
    obtain ⟨e, he, rfl⟩ := List.mem_map.mp hn
    rcases mem_set.mp he with rfl | ⟨he, -⟩
    · exact hr
    · exact h.disjoint e.1 (mem_names_of_mem he)

/-- A name may be retired with the object under it. -/
theorem Sound.retire (h : l.Sound) (name : String) : ((l.delete name).retire name).Sound where
  nodup := by
    show (l.delete name).names.Nodup
    rw [names_delete]
    exact h.nodup.filter _
  own_name e he := h.own_name e (List.mem_filter.mp he).1
  nonempty e he := h.nonempty e (List.mem_filter.mp he).1
  disjoint n hn := by
    have hn : n ∈ (l.delete name).names := hn
    rw [names_delete, List.mem_filter] at hn
    rw [Ledger.retire, List.mem_cons, not_or]
    exact ⟨by simpa using hn.2, h.disjoint n hn.1⟩

theorem Ends.sound (h : l.Ends o r l') (hl : l.Sound) (hne : o.isEmpty = false) : l'.Sound := by
  cases h with
  | cancelled reason => exact hl
  | retired hr => exact hl
  | added hr hget => exact hl.set hne hr
  | kept hr hget hsame => exact hl
  | emptied hr hget he => exact hl.retire o.name
  | @merged j hr hget he =>
    have hname : (j.joinWith [o]).name = o.name :=
      ObjectShape.name_joinWith.trans (hl.own_name _ (mem_of_lookup hget))
    rw [← hname] at hr ⊢
    exact hl.set he hr

/-- Names stay retired. -/
theorem Ends.retired_subset (h : l.Ends o r l') : l.retired ⊆ l'.retired := by
  cases h with
  | emptied hr hget he => exact List.subset_cons_self ..
  | _ => exact fun _ => id

/-- What a call that answers does to a table: the answer is what the table then has under the name, and none
just if the name is then retired. No other name is touched, and the names that are there before and after keep
their order. -/
structure Answers (l : Ledger) (o : ObjectShape) (answer : Option ObjectShape) (l' : Ledger) : Prop where
  eq_get? : answer = l'.get? o.name
  none_iff : answer = none ↔ o.name ∈ l'.retired
  others : l'.entries.filter (·.1 ≠ o.name) = l.entries.filter (·.1 ≠ o.name)
  retired_of_ne : ∀ name, name ≠ o.name → (name ∈ l'.retired ↔ name ∈ l.retired)
  order : l'.names.filter (· ∈ l.names) = l.names.filter (· ∈ l'.names)

/-- Where nothing changes, the answer is what is there. -/
theorem Answers.unchanged (h : a = l.get? o.name) (hnone : a = none ↔ o.name ∈ l.retired) :
    l.Answers o a l := ⟨h, hnone, rfl, fun _ _ => Iff.rfl, rfl⟩

theorem Answers.set (hr : o.name ∉ l.retired) (j : ObjectShape) :
    l.Answers o (some j) (l.set o.name j) where
  eq_get? := by rw [get?_set, if_pos rfl]
  none_iff := iff_of_false (Option.some_ne_none j) hr
  others := others_set
  retired_of_ne _ _ := Iff.rfl
  order := by
    have hall : ∀ names : List String, names.filter (· ∈ names) = names := fun names =>
      List.filter_eq_self.mpr fun n hn => decide_eq_true hn
    rw [names_set]
    split
    · rfl
    · next hn =>
      rw [List.filter_append, hall, List.filter_cons_of_neg (by simpa using hn), List.filter_nil, List.append_nil]
      refine (List.filter_eq_self.mpr fun n hn => ?_).symm
      exact decide_eq_true (List.mem_append_left _ hn)

theorem Answers.retire : l.Answers o none ((l.delete o.name).retire o.name) where
  eq_get? := (get?_delete.trans (if_pos rfl)).symm
  none_iff := iff_of_true rfl (List.mem_cons_self ..)
  others := by
    show (l.entries.filter _).filter _ = _
    rw [List.filter_filter]
    simp
  retired_of_ne name hn := by
    show name ∈ o.name :: l.retired ↔ _
    rw [List.mem_cons, or_iff_right hn]
  order := by
    show (l.delete o.name).names.filter _ = l.names.filter (· ∈ (l.delete o.name).names)
    rw [names_delete, List.filter_filter]
    refine List.filter_congr fun n hn => ?_
    simp [hn]

theorem Ends.answers (h : l.Ends o (.ok a) l') (hl : l.Sound) : l.Answers o a l' := by
  cases h with
  | retired hr =>
    refine .unchanged ?_ (iff_of_true rfl hr)
    exact (get?_eq_none.mpr fun hn => hl.disjoint o.name hn hr).symm
  | added hr hget => exact .set hr o
  | kept hr hget hsame => exact .unchanged hget.symm (iff_of_false (Option.some_ne_none _) hr)
  | emptied hr hget he => exact .retire
  | merged hr hget he => exact .set hr _

/-- A call that ends in a fault has been cancelled, and has changed nothing. -/
theorem Ends.cancelled_of_error {e : Fault} (h : l.Ends o (.error e) l') :
    (∃ reason, e = .cancelled reason) ∧ l' = l := by
  cases h with
  | cancelled reason => exact ⟨⟨reason, rfl⟩, rfl⟩

/-! ### Histories of calls -/

/-- The table after calls one after another, from a new one. -/
def after (calls : List (ObjectShape × Signal)) : Ledger := calls.foldl (fun l c => (l.call c.1 c.2).2) {}

theorem after_append (calls : List (ObjectShape × Signal)) (c : ObjectShape × Signal) :
    after (calls ++ [c]) = ((after calls).call c.1 c.2).2 := by
  simp [after]

end Ledger

/-- The registry after calls one after another, from a new one. -/
def Registry.after (calls : List (ObjectShape × Signal)) : Registry :=
  calls.foldl (fun r c => (r.call c.1 c.2).2) {}

theorem Registry.after_append (calls : List (ObjectShape × Signal)) (c : ObjectShape × Signal) :
    after (calls ++ [c]) = ((after calls).call c.1 c.2).2 := by
  simp [after]

namespace Ledger

variable {calls : List (ObjectShape × Signal)}

theorem after_eq_ledger (calls : List (ObjectShape × Signal)) : after calls = (Registry.after calls).ledger := by
  induction calls using List.reverseRecOn with
  | nil => rfl
  | append_singleton calls c ih => rw [after_append, Registry.after_append, ih, call_ledger]

theorem sound_after (h : ∀ c ∈ calls, c.1.isEmpty = false) : (after calls).Sound := by
  induction calls using List.reverseRecOn with
  | nil => exact ⟨List.nodup_nil, by simp [after], by simp [after], by simp [after, names]⟩
  | append_singleton calls c ih =>
    rw [List.forall_mem_append, List.forall_mem_singleton] at h
    rw [after_append]
    exact (call_ends _ c.1 c.2).sound (ih h.1) h.2

theorem retired_subset_after (calls more : List (ObjectShape × Signal)) :
    (after calls).retired ⊆ (after (calls ++ more)).retired := by
  induction more using List.reverseRecOn with
  | nil => rw [List.append_nil]; exact List.Subset.refl _
  | append_singleton more c ih =>
    rw [← List.append_assoc, after_append]
    exact List.Subset.trans ih (call_ends _ c.1 c.2).retired_subset

end Ledger

/-- **Registration keeps its table in order and is all or nothing.** After any calls to register objects that
are not empty, each of which may be stopped at any checkpoint, each object stands once and under its own name,
has properties, and has a name that is not retired. The table is the one of the registry that comes of the same
calls. A name that has been retired stays so, and nothing stands under it, whatever calls follow. A further call
that has an answer gives what then stands under the name and touches no other; one that is stopped leaves the
table as it was. -/
theorem registration_atomic {calls : List (ObjectShape × Signal)} (h : ∀ c ∈ calls, c.1.isEmpty = false) :
    (Ledger.after calls).Sound ∧
    Ledger.after calls = (Registry.after calls).ledger ∧
    (∀ more : List (ObjectShape × Signal), (∀ c ∈ more, c.1.isEmpty = false) →
      ∀ name ∈ (Ledger.after calls).retired, name ∈ (Ledger.after (calls ++ more)).retired ∧
        (Ledger.after (calls ++ more)).get? name = none) ∧
    ∀ (o : ObjectShape) (signal : Signal),
      match (Ledger.after calls).call o signal with
      | (.ok answer, l') => (Ledger.after calls).Answers o answer l'
      | (.error e, l') => (∃ reason, e = .cancelled reason) ∧ l' = Ledger.after calls := by
  have hsound := Ledger.sound_after h
  refine ⟨hsound, Ledger.after_eq_ledger calls, fun more hmore name hname => ?_, fun o signal => ?_⟩
  · have hretired := Ledger.retired_subset_after calls more hname
    have hall := Ledger.sound_after (List.forall_mem_append.mpr ⟨h, hmore⟩)
    exact ⟨hretired, Ledger.get?_eq_none.mpr fun hn => hall.disjoint name hn hretired⟩
  · have hends := (Ledger.after calls).call_ends o signal
    rcases hcall : (Ledger.after calls).call o signal with ⟨_ | a, l'⟩
    · rw [hcall] at hends
      exact hends.cancelled_of_error
    · rw [hcall] at hends
      exact hends.answers hsound

/-- Two objects of one name of which nothing is left, a third that comes too late, two of another name that are
joined, and a call that is stopped in the middle of a join. A further call would empty the other name too; it
changes nothing when it is stopped. -/
theorem registration_atomic_stopped :
    let p (t : Primitive) : ObjectShape := ⟨"P", 1, [("x", .prim t)]⟩
    let s (key : String) : ObjectShape := ⟨"S", 1, [(key, .prim .string)]⟩
    let calls : List (ObjectShape × Signal) := [(s "a", none), (p .integer, none), (s "b", none), (s "a", none),
      (p .float, none), (p .string, some (1, "stop"))]
    let l : Ledger := { entries := [("P", p .float)], retired := ["S"] }
    (∀ c ∈ calls, c.1.isEmpty = false) ∧ Ledger.after calls = l ∧ l.Sound ∧
      l.call ⟨"P", 1, [("y", .anything)]⟩ (some (1, "stop")) = (.error (.cancelled "stop"), l) ∧
      l.Answers ⟨"P", 1, [("y", .anything)]⟩ none { entries := [], retired := ["P", "S"] } := by
  intro p s calls l
  have hne : ∀ c ∈ calls, c.1.isEmpty = false := by
    simp [calls, p, s, ObjectShape.isEmpty]
  obtain ⟨hsound, -, -, hcall⟩ := registration_atomic hne
  have hafter : Ledger.after calls = l := by cbv
  rw [hafter] at hsound hcall
  exact ⟨hne, hafter, hsound, rfl, hcall ⟨"P", 1, [("y", .anything)]⟩ none⟩

end JsonShape
