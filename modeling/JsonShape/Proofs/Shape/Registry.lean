import JsonShape.Shape.Registry
import JsonShape.Proofs.Shape.LeastUpperBound
import JsonShape.Proofs.Shape.Steps

/-!
# What a registry holds

A registry depends only on the objects registered in it, one after another. Under each name it holds the
joins of the objects of that name, taken one after another, unless nothing is left of them; then the name
is retired. `settled?` computes this from the list of objects, and `Registry.Reflects` says that a
registry has come about so.
-/

namespace JsonShape

/-! ### The join of objects one after another -/

/-- An object joined with others, one after another. -/
def ObjectShape.joinFold (o : ObjectShape) (us : List ObjectShape) : ObjectShape :=
  us.foldl (fun j u => j.joinWith [u]) o

/-- What a name stands for when objects have been registered: the joins of the objects of the name,
unless nothing is left of them. -/
def settled? (os : List ObjectShape) (name : String) : Option ObjectShape :=
  match os.filter (·.name = name) with
  | [] => none
  | o :: us => if (o.joinFold us).isEmpty then none else some (o.joinFold us)

namespace ObjectShape

theorem joinFold_append (o u : ObjectShape) (us : List ObjectShape) :
    o.joinFold (us ++ [u]) = (o.joinFold us).joinWith [u] := by
  simp [joinFold]

/-- A property of objects that joins keep is kept by joins one after another. -/
theorem joinFold_induction {P : ObjectShape → Prop} {o : ObjectShape} {us : List ObjectShape}
    (step : ∀ j u, P j → P u → P (j.joinWith [u])) (ho : P o) (hus : ∀ u ∈ us, P u) :
    P (o.joinFold us) := by
  induction us generalizing o with
  | nil => exact ho
  | cons u rest ih =>
    rw [List.forall_mem_cons] at hus
    exact ih (step o u ho hus.1) hus.2

@[simp] theorem name_joinFold (o : ObjectShape) (us : List ObjectShape) :
    (o.joinFold us).name = o.name := by
  induction us generalizing o with
  | nil => rfl
  | cons u rest ih => exact (ih _).trans name_joinWith

/-- Joins one after another are the join of all. -/
theorem isJoin_joinFold {o : ObjectShape} {us : List ObjectShape} (ho : o.Proper)
    (hus : ∀ u ∈ us, u.Proper) : (o.joinFold us).IsJoin (o :: us) := by
  induction us using List.reverseRecOn with
  | nil =>
    refine .intro ho (by simp [joinFold]) ?_
    intro w _ hle
    exact hle o (List.mem_cons_self ..)
  | append_singleton us u ih =>
    have hj := ih fun v hv => hus v (List.mem_append_left _ hv)
    have hu := hus u (List.mem_append_right _ (List.mem_singleton_self u))
    have hm := isJoin_joinWith hj.proper (List.forall_mem_singleton.mpr hu)
    rw [joinFold_append]
    refine .intro hm.proper ?_ ?_
    · intro v hv
      rw [← List.cons_append, List.mem_append, List.mem_singleton] at hv
      rcases hv with hv | rfl
      · exact (hj.le hv).trans (hm.le (List.mem_cons_self ..))
      · exact hm.le (by simp)
    · intro w hw hle
      rw [← List.cons_append, List.forall_mem_append, List.forall_mem_singleton] at hle
      refine hm.least hw ?_
      rw [List.forall_mem_cons, List.forall_mem_singleton]
      exact ⟨hj.least hw hle.1, hle.2⟩

/-- Joins one after another are the join of all at once. -/
theorem joinFold_eq_joinWith {o : ObjectShape} {us : List ObjectShape} (ho : (Shape.object o).Keyed)
    (hus : ∀ u ∈ us, (Shape.object u).Keyed) : o.joinFold us = o.joinWith us := by
  induction us using List.reverseRecOn with
  | nil => exact (joinWith_nil o).symm
  | append_singleton us u ih =>
    rw [List.forall_mem_append] at hus
    rw [joinFold_append, ih hus.1, joinWith_joinWith ho hus.1 hus.2]

end ObjectShape

/-! ### What names stand for -/

section Settled

variable {os : List ObjectShape} {o j : ObjectShape} {name : String}

theorem name_of_settled? (h : settled? os name = some j) : j.name = name := by
  unfold settled? at h
  split at h
  · cases h
  · next u us hf =>
    split at h
    · cases h
    · rw [← Option.some.inj h, ObjectShape.name_joinFold]
      have := (List.mem_filter.mp (hf ▸ List.mem_cons_self (a := u))).2
      simpa using this

/-- A name that stands for an object is that of some objects. -/
theorem exists_of_settled? (h : settled? os name = some j) : ∃ u ∈ os, u.name = name := by
  unfold settled? at h
  split at h
  · cases h
  · next u us hf =>
    have hu := List.mem_filter.mp (hf ▸ List.mem_cons_self (a := u))
    exact ⟨u, hu.1, by simpa using hu.2⟩

theorem isEmpty_of_settled? (h : settled? os name = some j) : j.isEmpty = false := by
  unfold settled? at h
  split at h
  · cases h
  · split at h
    · cases h
    · next hj => rw [← Option.some.inj h]; simpa using hj

/-- A property of objects that joins keep holds of what a name stands for. -/
theorem settled?_induction {P : ObjectShape → Prop} (step : ∀ j u, P j → P u → P (j.joinWith [u]))
    (hos : ∀ o ∈ os, P o) (h : settled? os name = some j) : P j := by
  unfold settled? at h
  split at h
  · cases h
  · next u us hf =>
    have hmem : ∀ v ∈ u :: us, P v := fun v hv => hos v (List.mem_filter.mp (hf ▸ hv)).1
    rw [List.forall_mem_cons] at hmem
    split at h
    · cases h
    · rw [← Option.some.inj h]
      exact ObjectShape.joinFold_induction step hmem.1 hmem.2

/-- No object has a key twice in what a name stands for, if none has in the objects of the name. -/
theorem keyed_of_settled? (hos : ∀ u ∈ os, (Shape.object u).Keyed) (h : settled? os name = some j) :
    (Shape.object j).Keyed :=
  settled?_induction (P := fun j => (Shape.object j).Keyed)
    (fun _ _ hj _ => ObjectShape.keyed_joinWith hj _) hos h

/-- What a name of proper objects stands for is proper. -/
theorem proper_of_settled? (hos : ∀ u ∈ os, u.Proper) (h : settled? os name = some j) : j.Proper :=
  settled?_induction (fun _ _ hj hu =>
    (ObjectShape.isJoin_joinWith hj (List.forall_mem_singleton.mpr hu)).proper) hos h

/-- A name of some objects stands for their join, unless that is empty. -/
theorem exists_isJoin_settled? (hos : ∀ u ∈ os, u.Proper) (ho : o ∈ os) :
    ∃ j : ObjectShape, j.IsJoin (os.filter (·.name = o.name)) ∧
      settled? os o.name = if j.isEmpty then none else some j := by
  have hmem : o ∈ os.filter (·.name = o.name) := List.mem_filter.mpr ⟨ho, by simp⟩
  unfold settled?
  split
  · next hf => rw [hf] at hmem; cases hmem
  · next u us hf =>
    have hp : ∀ v ∈ u :: us, v.Proper := fun v hv => hos v (List.mem_filter.mp (hf ▸ hv)).1
    rw [List.forall_mem_cons] at hp
    exact ⟨_, hf ▸ ObjectShape.isJoin_joinFold hp.1 hp.2, rfl⟩

/-- A name stands for the join of its objects at once, unless nothing is left of them. -/
theorem settled?_eq (hos : ∀ u ∈ os, (Shape.object u).Keyed) (name : String) : settled? os name =
    match os.filter (·.name = name) with
    | [] => none
    | o :: us => if (o.joinWith us).isEmpty then none else some (o.joinWith us) := by
  have hkeyed : ∀ u ∈ os.filter (·.name = name), (Shape.object u).Keyed := fun u hu =>
    hos u (List.mem_filter.mp hu).1
  unfold settled?
  cases hf : os.filter (·.name = name) with
  | nil => rfl
  | cons o us =>
    rw [hf, List.forall_mem_cons] at hkeyed
    simp only [ObjectShape.joinFold_eq_joinWith hkeyed.1 hkeyed.2]

theorem settled?_append_of_ne (h : o.name ≠ name) : settled? (os ++ [o]) name = settled? os name := by
  simp [settled?, List.filter_append, h]

/-- The first object of a name is what the name stands for. -/
theorem settled?_append_of_forall_ne (h : ∀ u ∈ os, u.name ≠ o.name) (ho : o.isEmpty = false) :
    settled? (os ++ [o]) o.name = some o := by
  have hf : os.filter (·.name = o.name) = [] := by simpa [List.filter_eq_nil_iff] using h
  simp [settled?, List.filter_append, hf, ObjectShape.joinFold, ho]

/-- A further object of a name is joined to what the name stands for. -/
theorem settled?_append_of_some (h : settled? os o.name = some j) : settled? (os ++ [o]) o.name =
    if (j.joinWith [o]).isEmpty then none else some (j.joinWith [o]) := by
  unfold settled? at h ⊢
  split at h
  · cases h
  · next u us hf =>
    split at h
    · cases h
    · rw [List.filter_append, hf]
      cases Option.some.inj h
      simp [ObjectShape.joinFold_append]

/-- A name of which nothing is left stays so. -/
theorem settled?_append_of_none {u : ObjectShape} (hu : u ∈ os) (h : settled? os u.name = none)
    (o : ObjectShape) : settled? (os ++ [o]) u.name = none := by
  by_cases hn : o.name = u.name
  · unfold settled? at h ⊢
    have hmem : u ∈ os.filter (·.name = u.name) := List.mem_filter.mpr ⟨hu, by simp⟩
    split at h
    · next hf => rw [hf] at hmem; cases hmem
    · next v vs hf =>
      split at h
      · next he =>
        rw [List.filter_append, hf]
        simp [hn, ObjectShape.joinFold_append, ObjectShape.isEmpty_joinWith he]
      · cases h
  · rw [settled?_append_of_ne hn, h]

/-! What the names stand for, in the order in which they first come. -/

theorem mem_of_mem_firstOfEachName (h : o ∈ firstOfEachName os) : o ∈ os := by
  induction os with
  | nil => exact h
  | cons u rest ih =>
    rw [firstOfEachName, List.mem_cons] at h
    rcases h with rfl | h
    · exact List.mem_cons_self ..
    · exact List.mem_cons_of_mem _ (ih (List.mem_filter.mp h).1)

theorem firstOfEachName_append_of_mem {u : ObjectShape} (hu : u ∈ os) (hn : u.name = o.name) :
    firstOfEachName (os ++ [o]) = firstOfEachName os := by
  induction os with
  | nil => cases hu
  | cons v rest ih =>
    rw [List.cons_append, firstOfEachName, firstOfEachName]
    by_cases hrest : u ∈ rest
    · rw [ih hrest]
    · have huv : v.name = o.name := by
        rw [← (List.mem_cons.mp hu).resolve_right hrest, hn]
      -- the new object is dropped with all others of the first name
      have hdrop : ∀ vs : List ObjectShape, (firstOfEachName (vs ++ [o])).filter (·.name ≠ v.name) =
          (firstOfEachName vs).filter (·.name ≠ v.name) := by
        intro vs
        induction vs with
        | nil => simp [firstOfEachName, huv]
        | cons w vs ih =>
          rw [List.cons_append, firstOfEachName, firstOfEachName, List.filter_cons, List.filter_cons,
            List.filter_comm, ih, List.filter_comm]
      rw [hdrop]

theorem firstOfEachName_append_of_forall_ne (h : ∀ u ∈ os, u.name ≠ o.name) :
    firstOfEachName (os ++ [o]) = firstOfEachName os ++ [o] := by
  induction os with
  | nil => rfl
  | cons v rest ih =>
    rw [List.forall_mem_cons] at h
    rw [List.cons_append, firstOfEachName, firstOfEachName, ih h.2, List.filter_append]
    simp [Ne.symm h.1]

/-- What the names of objects stand for, each name at the place where it first comes. -/
def settledAll (os : List ObjectShape) : List ObjectShape :=
  (firstOfEachName os).filterMap fun o => settled? os o.name

theorem settled?_of_mem_settledAll (h : j ∈ settledAll os) : settled? os j.name = some j := by
  obtain ⟨u, -, hu⟩ := List.mem_filterMap.mp h
  rwa [name_of_settled? hu]

/-- A further object of a name changes what stands at the place of the name. -/
theorem settledAll_append_of_mem {u : ObjectShape} (hu : u ∈ os) (hn : u.name = o.name) :
    settledAll (os ++ [o]) = (settledAll os).filterMap fun j =>
      if j.name = o.name then settled? (os ++ [o]) o.name else some j := by
  unfold settledAll
  rw [firstOfEachName_append_of_mem hu hn, List.filterMap_filterMap]
  refine List.filterMap_congr fun v _ => ?_
  by_cases hv : v.name = o.name
  · rw [hv]
    cases hs : settled? os o.name with
    | none =>
      rw [← hn] at hs ⊢
      rw [settled?_append_of_none hu hs]
      rfl
    | some j => simp [name_of_settled? hs]
  · rw [settled?_append_of_ne (Ne.symm hv)]
    cases hs : settled? os v.name with
    | none => rfl
    | some j => simp [name_of_settled? hs, hv]

/-- The first object of a name goes behind what there is. -/
theorem settledAll_append_of_forall_ne (h : ∀ u ∈ os, u.name ≠ o.name) (ho : o.isEmpty = false) :
    settledAll (os ++ [o]) = settledAll os ++ [o] := by
  unfold settledAll
  rw [firstOfEachName_append_of_forall_ne h, List.filterMap_append]
  congr 1
  · refine List.filterMap_congr fun v hv => settled?_append_of_ne (Ne.symm (h v ?_))
    exact mem_of_mem_firstOfEachName hv
  · simp [settled?_append_of_forall_ne h ho]

/-- Where what a name stands for stays, all stays. -/
theorem settledAll_append_of_settled?_eq {u : ObjectShape} (hu : u ∈ os) (hn : u.name = o.name)
    (h : settled? (os ++ [o]) o.name = settled? os o.name) : settledAll (os ++ [o]) = settledAll os := by
  rw [settledAll_append_of_mem hu hn]
  conv_rhs => rw [← List.filterMap_some (l := settledAll os)]
  refine List.filterMap_congr fun j hj => ?_
  split
  · next hname => rw [h, ← hname, settled?_of_mem_settledAll hj]
  · rfl

end Settled

/-! ### Registration -/

namespace Registry

variable {r : Registry} {os : List ObjectShape} {o j : ObjectShape} {name : String}

theorem get?_add : (r.add o).get? name = (r.get? name).or (if o.name = name then some o else none) := by
  simp [get?, add, List.find?_append, List.find?_singleton]

theorem get?_replace : (r.replace o).get? name =
    if o.name = name then (r.get? name).map fun _ => o else r.get? name := by
  have hname : (fun u : ObjectShape => decide ((if u.name = o.name then o else u).name = name)) =
      fun u => decide (u.name = name) := by
    funext u
    by_cases h : u.name = o.name <;> simp [h]
  rw [get?, replace, List.find?_map, Function.comp_def, hname, ← get?]
  cases h : r.get? name with
  | none => simp
  | some u =>
    have hu : u.name = name := by simpa [get?] using List.find?_some h
    rw [Option.map_some, hu, Option.map_some]
    by_cases hn : o.name = name
    · rw [if_pos hn, if_pos hn.symm]
    · rw [if_neg hn, if_neg (Ne.symm hn)]

theorem get?_retire {n : String} :
    (r.retire n).get? name = if n = name then none else r.get? name := by
  rw [get?, retire, List.find?_filter]
  split
  · next h =>
    rw [List.find?_eq_none]
    intro u _
    simp [h]
  · next h =>
    rw [get?]
    congr 1
    funext u
    by_cases hu : u.name = name
    · simp [hu, Ne.symm h]
    · simp [hu]

/-- The registry has come about by registering the objects of a list one after another. -/
structure Reflects (r : Registry) (os : List ObjectShape) : Prop where
  types : r.types = settledAll os
  get? : ∀ name, r.get? name = settled? os name
  retired : ∀ name, name ∈ r.retired ↔ (∃ o ∈ os, o.name = name) ∧ settled? os name = none

theorem reflects_nil : Reflects {} [] where
  types := rfl
  get? _ := rfl
  retired _ := by simp

/-- What registration leaves under the name registered and in which order, and the retired names after it,
decide whether the registry reflects the object too. -/
theorem Reflects.append {r' : Registry} (h : r.Reflects os) (htypes : r'.types = settledAll (os ++ [o]))
    (hself : r'.get? o.name = settled? (os ++ [o]) o.name)
    (hother : ∀ name, o.name ≠ name → r'.get? name = r.get? name)
    (hretired : ∀ name, name ∈ r'.retired ↔
      if o.name = name then settled? (os ++ [o]) o.name = none else name ∈ r.retired) :
    r'.Reflects (os ++ [o]) where
  types := htypes
  get? name := by
    by_cases hn : o.name = name
    · rw [← hn, hself]
    · rw [hother name hn, h.get?, settled?_append_of_ne hn]
  retired name := by
    rw [hretired]
    by_cases hn : o.name = name
    · subst hn
      simp
    · simp [hn, h.retired, settled?_append_of_ne hn]

/-- A name that stands for an object is not retired. -/
theorem Reflects.not_mem_retired (h : r.Reflects os) (hget : settled? os name = some j) :
    name ∉ r.retired := fun hr => by
  rw [((h.retired name).mp hr).2] at hget
  cases hget

/-- A retired name stays so, and the registry as it is. -/
theorem Reflects.of_mem_retired (h : r.Reflects os) (hr : o.name ∈ r.retired) :
    settled? (os ++ [o]) o.name = none ∧ r.Reflects (os ++ [o]) := by
  obtain ⟨⟨u, hu, hn⟩, hget⟩ := (h.retired _).mp hr
  have hs : settled? (os ++ [o]) o.name = none := by
    rw [← hn] at hget ⊢
    exact settled?_append_of_none hu hget o
  have htypes := settledAll_append_of_settled?_eq hu hn (hs.trans hget.symm)
  refine ⟨hs, h.append (h.types.trans htypes.symm) (by rw [h.get?, hget, hs]) (fun _ _ => rfl) fun name => ?_⟩
  split
  · next hn => simp [← hn, hr, hs]
  · rfl

/-- A new name stands for its object. -/
theorem Reflects.add (h : r.Reflects os) (hr : o.name ∉ r.retired) (hget : settled? os o.name = none)
    (hne : o.isEmpty = false) :
    settled? (os ++ [o]) o.name = some o ∧ (r.add o).Reflects (os ++ [o]) := by
  have hnew : ∀ u ∈ os, u.name ≠ o.name := fun u hu hn =>
    hr ((h.retired _).mpr ⟨⟨u, hu, hn⟩, hget⟩)
  have hs := settled?_append_of_forall_ne hnew hne
  refine ⟨hs, h.append ?_ ?_ (fun name hn => ?_) fun name => ?_⟩
  · rw [settledAll_append_of_forall_ne hnew hne, ← h.types]
    rfl
  · rw [get?_add, h.get?, hget, hs]
    simp
  · rw [get?_add, if_neg hn, Option.or_none]
  · split
    · next hn => simp [← hn, hs, hr, Registry.add]
    · rfl

/-- An object that adds nothing to what its name stands for changes nothing. -/
theorem Reflects.of_joinWith_eq (h : r.Reflects os) (hget : settled? os o.name = some j)
    (hself : j.joinWith [o] = j) :
    settled? (os ++ [o]) o.name = some j ∧ r.Reflects (os ++ [o]) := by
  have hs := settled?_append_of_some hget
  rw [hself, if_neg (by simp [isEmpty_of_settled? hget])] at hs
  obtain ⟨u, hu, hn⟩ := exists_of_settled? hget
  have htypes := settledAll_append_of_settled?_eq hu hn (hs.trans hget.symm)
  refine ⟨hs, h.append (h.types.trans htypes.symm) (by rw [h.get?, hget, hs]) (fun _ _ => rfl) fun name => ?_⟩
  split
  · next hn => simp [← hn, hs, h.not_mem_retired hget]
  · rfl

/-- A name is retired when nothing is left of its objects. -/
theorem Reflects.retire (h : r.Reflects os) (hget : settled? os o.name = some j)
    (he : (j.joinWith [o]).isEmpty = true) :
    settled? (os ++ [o]) o.name = none ∧ (r.retire o.name).Reflects (os ++ [o]) := by
  have hs := settled?_append_of_some hget
  rw [if_pos he] at hs
  obtain ⟨u, hu, hname⟩ := exists_of_settled? hget
  refine ⟨hs, h.append ?_ ?_ (fun name hn => ?_) fun name => ?_⟩
  · rw [settledAll_append_of_mem hu hname, hs, ← h.types, Registry.retire, ← List.filterMap_eq_filter]
    refine List.filterMap_congr fun j _ => ?_
    by_cases hj : j.name = o.name <;> simp [hj, Option.guard]
  · rw [get?_retire, if_pos rfl, hs]
  · rw [get?_retire, if_neg hn]
  · split
    · next hn => simp [← hn, hs, Registry.retire]
    · next hn => simp [Registry.retire, Ne.symm hn]

/-- What a name stands for gives its place to its join with a further object. -/
theorem Reflects.replace (h : r.Reflects os) (hget : settled? os o.name = some j)
    (he : ¬(j.joinWith [o]).isEmpty = true) : settled? (os ++ [o]) o.name = some (j.joinWith [o]) ∧
      (r.replace (j.joinWith [o])).Reflects (os ++ [o]) := by
  have hs := settled?_append_of_some hget
  rw [if_neg he] at hs
  have hname : (j.joinWith [o]).name = o.name := ObjectShape.name_joinWith.trans (name_of_settled? hget)
  obtain ⟨u, hu, hn⟩ := exists_of_settled? hget
  refine ⟨hs, h.append ?_ ?_ (fun name hn => ?_) fun name => ?_⟩
  · rw [settledAll_append_of_mem hu hn, hs, ← h.types, Registry.replace, hname, ← List.filterMap_eq_map]
    refine List.filterMap_congr fun v _ => ?_
    by_cases hv : v.name = o.name <;> simp [hv]
  · rw [get?_replace, if_pos hname, h.get?, hget, hs]
    rfl
  · rw [get?_replace, hname, if_neg hn]
  · split
    · next hn => simp [← hn, hs, h.not_mem_retired hget, Registry.replace]
    · rfl

/-! What registration yields, by what there is under the name. -/

theorem register_of_mem_retired (hr : o.name ∈ r.retired) : (r.register o).Yields (.ok (none, r)) := by
  unfold register
  rw [if_pos (by simpa using hr)]
  exact (Pass.yields_pure _).after_check

theorem register_of_get?_none (hr : o.name ∉ r.retired) (hget : r.get? o.name = none) :
    (r.register o).Yields (.ok (some o, r.add o)) := by
  unfold register
  rw [if_neg (by simpa using hr), hget]
  exact (Pass.yields_pure _).after_check

theorem register_of_same (hr : o.name ∉ r.retired) (hget : r.get? o.name = some j)
    (hsame : j.same o = true) : (r.register o).Yields (.ok (some j, r)) := by
  unfold register
  rw [if_neg (by simpa using hr), hget]
  simp only
  rw [if_pos hsame]
  exact (Pass.yields_pure _).after_check

theorem register_of_not_same (hr : o.name ∉ r.retired) (hget : r.get? o.name = some j)
    (hsame : ¬j.same o = true) : (r.register o).Yields (.ok
      (if (j.joinWith [o]).isEmpty then (none, r.retire o.name)
        else (some (j.joinWith [o]), r.replace (j.joinWith [o])))) := by
  unfold register
  rw [if_neg (by simpa using hr), hget]
  simp only
  rw [if_neg hsame]
  refine ((unifyObjects_yields j [o]).bind_ok ?_).after_check
  split <;> exact Pass.yields_pure _

/-- Registering an object yields what its name then stands for. -/
theorem Reflects.register (h : r.Reflects os) (hos : ∀ u ∈ os, (Shape.object u).Keyed)
    (ho : (Shape.object o).Keyed) (hne : o.isEmpty = false) : ∃ r' : Registry,
      (r.register o).Yields (.ok (settled? (os ++ [o]) o.name, r')) ∧ r'.Reflects (os ++ [o]) := by
  by_cases hr : o.name ∈ r.retired
  · obtain ⟨hs, hreflects⟩ := h.of_mem_retired hr
    exact ⟨r, hs ▸ register_of_mem_retired hr, hreflects⟩
  cases hget : settled? os o.name with
  | none =>
    obtain ⟨hs, hreflects⟩ := h.add hr hget hne
    exact ⟨r.add o, hs ▸ register_of_get?_none hr ((h.get? _).trans hget), hreflects⟩
  | some j =>
    have hget' : r.get? o.name = some j := (h.get? _).trans hget
    by_cases hsame : j.same o = true
    · have hj : (Shape.object j).Keyed := keyed_of_settled? hos hget
      have hself : j.joinWith [o] = j := by
        refine ObjectShape.joinWith_eq_self hj (List.forall_mem_singleton.mpr ho) ?_
        exact List.forall_mem_singleton.mpr (Shape.same_symm hj ho hsame)
      obtain ⟨hs, hreflects⟩ := h.of_joinWith_eq hget hself
      exact ⟨r, hs ▸ register_of_same hr hget' hsame, hreflects⟩
    · have hyields := register_of_not_same hr hget' hsame
      by_cases he : (j.joinWith [o]).isEmpty = true
      · obtain ⟨hs, hreflects⟩ := h.retire hget he
        rw [if_pos he] at hyields
        exact ⟨r.retire o.name, hs ▸ hyields, hreflects⟩
      · obtain ⟨hs, hreflects⟩ := h.replace hget he
        rw [if_neg he] at hyields
        exact ⟨r.replace (j.joinWith [o]), hs ▸ hyields, hreflects⟩

/-- Registers objects one after another in a new registry. -/
def registerAll (os : List ObjectShape) : Pass Registry :=
  os.foldlM (fun r o => return (← r.register o).2) {}

/-- Registering objects one after another yields a registry that has come about so. -/
theorem registerAll_yields (hos : ∀ o ∈ os, (Shape.object o).Keyed ∧ o.isEmpty = false) :
    ∃ r : Registry, (registerAll os).Yields (.ok r) ∧ r.Reflects os := by
  refine Pass.exists_yields_foldlM (I := Reflects) (fun r done o hr hmem => ?_) reflects_nil
  rw [List.forall_mem_append, List.forall_mem_singleton] at hmem
  obtain ⟨ho, hne⟩ := hos o hmem.2
  obtain ⟨r', hr', hreflects⟩ := hr.register (fun u hu => (hos u (hmem.1 u hu)).1) ho hne
  exact ⟨r', hr'.bind_ok (Pass.yields_pure r'), hreflects⟩

end Registry
end JsonShape
