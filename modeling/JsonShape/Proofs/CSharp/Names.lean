import JsonShape.CSharp.Names
import JsonShape.Proofs.KeyedList
import Mathlib

/-!
# Chosen names

The search for a free name ends: the candidates for a name are all different, so among one more of them than
there are taken names one is free, and the first such is chosen. Names that are chosen one after another
differ from one another and from whatever was taken before.
-/

namespace JsonShape.CSharp

variable {base : String} {taken : List String}

/-! ### Candidates -/

theorem nestedName_ne_empty (name : String) : nestedName name ≠ "" := by simp [nestedName]

theorem repr_ne_empty (n : Nat) : Nat.repr n ≠ "" := by
  intro h
  have hdigits := congrArg String.toList h
  rw [Nat.toList_repr] at hdigits
  exact Nat.toDigits_ne_nil hdigits

/-- No two candidates for a name are equal. -/
theorem candidate_injective (base : String) : Function.Injective (candidate base) := by
  intro j k h
  cases j with
  | zero =>
    cases k with
    | zero => rfl
    | succ k =>
      have hempty : Nat.repr (k + 2) = "" := String.append_eq_left_iff.mp h.symm
      exact absurd hempty (repr_ne_empty _)
  | succ j =>
    cases k with
    | zero =>
      have hempty : Nat.repr (j + 2) = "" := String.append_eq_left_iff.mp h
      exact absurd hempty (repr_ne_empty _)
    | succ k =>
      have hrepr := Nat.repr_injective ((String.append_right_inj base).mp h)
      omega

theorem candidate_ne_empty (h : base ≠ "") (k : Nat) : candidate base k ≠ "" := by
  cases k <;> simp [candidate, h]

/-- One more candidate than there are taken names is enough: one of them is free. -/
theorem exists_candidate_not_mem (base : String) (taken : List String) :
    ∃ k ≤ taken.length, candidate base k ∉ taken := by
  by_contra hnot
  push Not at hnot
  have hsub : (List.range (taken.length + 1)).map (candidate base) ⊆ taken := by
    intro name hname
    obtain ⟨k, hk, rfl⟩ := List.mem_map.mp hname
    rw [List.mem_range] at hk
    exact hnot k (by omega)
  have hnodup : ((List.range (taken.length + 1)).map (candidate base)).Nodup :=
    List.nodup_range.map (candidate_injective base)
  have hle := (hnodup.subperm hsub).length_le
  simp at hle

/-- The search among some candidates finds the first that is free, if one of them is. -/
theorem freshFrom_eq {turns k m : Nat} (hfree : candidate base m ∉ taken)
    (htaken : ∀ j, k ≤ j → j < m → candidate base j ∈ taken) (hk : k ≤ m) (hm : m ≤ k + turns) :
    freshFrom base taken turns k = candidate base m := by
  induction turns generalizing k with
  | zero =>
    have hkm : k = m := by omega
    rw [hkm, freshFrom]
  | succ turns ih =>
    rw [freshFrom]
    by_cases hkm : k = m
    · subst hkm
      simp [hfree]
    · have hlt : k < m := by omega
      have hmem := htaken k (Nat.le_refl k) hlt
      rw [if_pos (List.contains_iff_mem.mpr hmem)]
      exact ih (fun j hj => htaken j (by omega)) (by omega) (by omega)

/-- The name that is chosen is the first free candidate, and there is one. -/
theorem freshName_spec (base : String) (taken : List String) : ∃ k ≤ taken.length,
    freshName base taken = candidate base k ∧ candidate base k ∉ taken ∧
      ∀ j < k, candidate base j ∈ taken := by
  have hex := exists_candidate_not_mem base taken
  have hfree : ∃ k, candidate base k ∉ taken := hex.imp fun _ h => h.2
  obtain ⟨k, hk, hkfree⟩ := hex
  have hle : Nat.find hfree ≤ taken.length := (Nat.find_le hkfree).trans hk
  have hbefore : ∀ j < Nat.find hfree, candidate base j ∈ taken :=
    fun j hj => not_not.mp (Nat.find_min hfree hj)
  refine ⟨Nat.find hfree, hle, ?_, Nat.find_spec hfree, hbefore⟩
  exact freshFrom_eq (Nat.find_spec hfree) (fun j _ => hbefore j) (Nat.zero_le _) (by omega)

theorem freshName_not_mem (base : String) (taken : List String) : freshName base taken ∉ taken := by
  obtain ⟨k, -, h, hfree, -⟩ := freshName_spec base taken
  rwa [h]

/-! ### Allocation -/

variable {bases : List (String × String)}

theorem map_fst_allocate (taken : List String) (bases : List (String × String)) :
    (allocate taken bases).map (·.1) = bases.map (·.1) := by
  induction bases generalizing taken with
  | nil => rfl
  | cons b rest ih => simp [allocate, ih]

/-- What is given is a candidate for the label's name. -/
theorem exists_of_mem_allocate {p : String × String} (h : p ∈ allocate taken bases) :
    ∃ b ∈ bases, ∃ k, p = (b.1, candidate b.2 k) := by
  induction bases generalizing taken with
  | nil => cases h
  | cons b rest ih =>
    rw [allocate, List.mem_cons] at h
    rcases h with rfl | h
    · obtain ⟨k, -, hk, -⟩ := freshName_spec b.2 taken
      exact ⟨b, List.mem_cons_self .., k, Prod.ext rfl hk⟩
    · obtain ⟨c, hc, k, hk⟩ := ih h
      exact ⟨c, List.mem_cons_of_mem _ hc, k, hk⟩

/-- No name that was taken is given. -/
theorem not_mem_allocate {name : String} (h : name ∈ taken) :
    name ∉ (allocate taken bases).map (·.2) := by
  induction bases generalizing taken with
  | nil => exact List.not_mem_nil
  | cons b rest ih =>
    rw [allocate, List.map_cons, List.mem_cons, not_or]
    refine ⟨fun heq => ?_, ih (List.mem_cons_of_mem _ h)⟩
    rw [heq] at h
    exact freshName_not_mem b.2 taken h

/-- No name is given twice. -/
theorem nodup_allocate (taken : List String) (bases : List (String × String)) :
    ((allocate taken bases).map (·.2)).Nodup := by
  induction bases generalizing taken with
  | nil => exact List.nodup_nil
  | cons b rest ih =>
    rw [allocate, List.map_cons, List.nodup_cons]
    exact ⟨not_mem_allocate (List.mem_cons_self ..), ih _⟩

/-! ### The names of members and of classes -/

variable {o : ObjectShape} {owner : String} {reserved : List String}

theorem map_fst_memberNames (o : ObjectShape) (owner : String) :
    (memberNames o owner).map (·.1) = o.keys := by
  simp [memberNames, map_fst_allocate, Function.comp_def]

theorem map_fst_nestedNames (o : ObjectShape) (reserved : List String) :
    (nestedNames o reserved).map (·.1) = o.subtypes.map (·.name) := by
  simp [nestedNames, map_fst_allocate, Function.comp_def]

/-- A class, its members and the classes inside it have different names, if the names of the first two are
reserved. -/
theorem nodup_names (h : ∀ name ∈ owner :: (memberNames o owner).map (·.2), name ∈ reserved) :
    (owner :: ((memberNames o owner).map (·.2) ++ (nestedNames o reserved).map (·.2))).Nodup := by
  have hmembers : (owner :: (memberNames o owner).map (·.2)).Nodup :=
    List.nodup_cons.mpr ⟨not_mem_allocate (List.mem_singleton_self _), nodup_allocate ..⟩
  rw [← List.cons_append]
  refine List.nodup_append.mpr ⟨hmembers, nodup_allocate .., fun name hname other hother heq => ?_⟩
  subst heq
  exact not_mem_allocate (h name hname) hother

/-- Each key has a member name. -/
theorem exists_memberName {key : String} (h : key ∈ o.keys) (owner : String) :
    ∃ name, (memberNames o owner).lookup key = some name := by
  rw [← map_fst_memberNames o owner, List.mem_map] at h
  obtain ⟨p, hp, rfl⟩ := h
  exact exists_lookup_of_mem hp

/-- Each object that a shape refers to has a class name, which is not empty. -/
theorem exists_nestedName {u : ObjectShape} (h : u ∈ o.subtypes) (reserved : List String) :
    ∃ name, (nestedNames o reserved).lookup u.name = some name ∧ name ≠ "" := by
  have hkey : u.name ∈ (nestedNames o reserved).map (·.1) :=
    map_fst_nestedNames o reserved ▸ List.mem_map_of_mem h
  obtain ⟨p, hp, hpu⟩ := List.mem_map.mp hkey
  obtain ⟨name, hname⟩ := exists_lookup_of_mem hp
  refine ⟨name, hpu ▸ hname, ?_⟩
  obtain ⟨b, hb, k, hk⟩ := exists_of_mem_allocate (mem_of_lookup hname)
  obtain ⟨w, -, rfl⟩ := List.mem_map.mp hb
  rw [(Prod.mk.inj hk).2]
  exact candidate_ne_empty (nestedName_ne_empty w.name) k

end JsonShape.CSharp
