import Mathlib.Data.List.Nodup

/-!
# Lists by key

A list of pairs as a table: what the first entry of a key is, and when an entry is the only one of its key.
-/

namespace JsonShape

variable {α β : Type} [BEq α] [LawfulBEq α] {l : List (α × β)} {k : α} {b : β}

theorem mem_of_lookup (h : l.lookup k = some b) : (k, b) ∈ l := by
  obtain ⟨l₁, l₂, hl, -⟩ := List.lookup_eq_some_iff.mp h
  rw [hl]
  exact List.mem_append_right _ (List.mem_cons_self ..)

theorem exists_lookup_of_mem (h : (k, b) ∈ l) : ∃ c, l.lookup k = some c := by
  rw [← Option.isSome_iff_exists, List.lookup_isSome_iff]
  exact ⟨(k, b), h, by simp⟩

/-- Where no key comes twice, each entry is the one of its key. -/
theorem lookup_of_mem (hl : (l.map (·.1)).Nodup) (h : (k, b) ∈ l) : l.lookup k = some b := by
  obtain ⟨c, hc⟩ := exists_lookup_of_mem h
  have := List.inj_on_of_nodup_map hl (mem_of_lookup hc) h rfl
  rw [hc, (Prod.mk.inj this).2]

/-- Dropping the entries of another key changes nothing for a key. -/
theorem lookup_filter_ne {d : α} [DecidableEq α] (h : k ≠ d) :
    (l.filter (·.1 ≠ d)).lookup k = l.lookup k := by
  induction l with
  | nil => rfl
  | cons p rest ih =>
    obtain ⟨a, c⟩ := p
    by_cases ha : a = d
    · subst ha
      have hka : (k == a) = false := by simpa using h
      simp [List.lookup_cons, hka, ← ih]
    · simp only [List.filter_cons, ne_eq, ha, not_false_eq_true, decide_true, if_true, List.lookup_cons, ih]

/-- The entries of the keys, each looked up by its key. -/
theorem map_lookup_keys (hl : (l.map (·.1)).Nodup) (default : β) :
    (l.map (·.1)).map (fun k => (l.lookup k).getD default) = l.map (·.2) := by
  rw [List.map_map]
  refine List.map_congr_left fun p hp => ?_
  rw [Function.comp_apply, lookup_of_mem hl (show (p.1, p.2) ∈ l from hp), Option.getD_some]

end JsonShape
