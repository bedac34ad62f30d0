import JsonShape.Proofs.Document.Grammar
import JsonShape.Proofs.KeyedList
import Mathlib.Data.List.Induction

/-!
# Repeated keys

An object is read member by member, each set among those before it. What comes of it is what the grammar says
of the members as a whole: each key once, in the order in which the keys first come, with the value that comes
last for it.
-/

namespace JsonShape

theorem nodup_eraseDups {α : Type} [BEq α] [LawfulBEq α] (l : List α) : l.eraseDups.Nodup := by
  induction hn : l.length using Nat.strongRecOn generalizing l with
  | _ n ih =>
    cases l with
    | nil => simp
    | cons a l =>
      rw [List.eraseDups_cons, List.nodup_cons]
      have hlt : (l.filter fun b => !b == a).length < n := by
        subst hn
        exact Nat.lt_succ_of_le (List.length_filter_le ..)
      exact ⟨by simp, ih _ hlt _ rfl⟩

namespace Value

/-- The entries of a table under some keys. -/
def entries (keys : List String) (value? : String → Option Value) : List (Key × Value) :=
  keys.filterMap fun key => (value? key).map fun v => (.text key, v)

theorem entries_congr {keys : List String} {value? value'? : String → Option Value}
    (h : ∀ k ∈ keys, value? k = value'? k) : entries keys value? = entries keys value'? :=
  List.filterMap_congr fun k hk => by rw [h k hk]

/-- Setting a member among the entries of a table is changing the table, and listing the key if it is
new. -/
theorem setMember_entries {keys : List String} {value? : String → Option Value} (hkeys : keys.Nodup)
    (hvalue : ∀ k ∈ keys, (value? k).isSome) (key : String) (v : Value) :
    setMember (entries keys value?) key v =
      entries (if key ∈ keys then keys else keys ++ [key]) fun k => if k = key then some v else value? k := by
  induction keys with
  | nil => simp [entries, setMember]
  | cons k keys ih =>
    obtain ⟨hk, hkeys⟩ := List.nodup_cons.mp hkeys
    obtain ⟨w, hw⟩ := Option.isSome_iff_exists.mp (hvalue k (List.mem_cons_self ..))
    have hcons : entries (k :: keys) value? = (.text k, w) :: entries keys value? := by simp [entries, hw]
    specialize ih hkeys fun k hk => hvalue k (List.mem_cons_of_mem _ hk)
    rw [hcons, setMember]
    by_cases hkey : k = key
    · subst hkey
      have hrest : entries keys value? = entries keys fun x => if x = k then some v else value? x :=
        entries_congr fun x hx => (if_neg (by rintro rfl; exact hk hx)).symm
      simp [entries] at hrest ⊢
      exact hrest
    · have hkey' : Key.text k ≠ .text key := fun h => hkey (Key.text.inj h)
      rw [if_neg hkey', ih]
      by_cases hmem : key ∈ keys <;> simp [entries, hmem, hkey, Ne.symm hkey, hw]

theorem settled_eq (members : List (String × Value)) :
    Grammar.settled members = entries (members.map (·.1)).eraseDups fun k => members.reverse.lookup k := rfl

/-- Members of which no key but the last may come twice. -/
theorem settled_append (members : List (String × Value)) (key : String) (v : Value) :
    Grammar.settled (members ++ [(key, v)]) = setMember (Grammar.settled members) key v := by
  have hvalue : ∀ k ∈ (members.map (·.1)).eraseDups, (members.reverse.lookup k).isSome := by
    intro k hk
    obtain ⟨m, hm, rfl⟩ := List.mem_map.mp (List.mem_eraseDups.mp hk)
    obtain ⟨w, hw⟩ := exists_lookup_of_mem (List.mem_reverse.mpr (show (m.1, m.2) ∈ members from hm))
    exact Option.isSome_of_eq_some hw
  have hlast : (fun k => (members ++ [(key, v)]).reverse.lookup k) =
      fun k => if k = key then some v else members.reverse.lookup k := by
    funext k
    rw [List.reverse_append, List.reverse_singleton, List.singleton_append, List.lookup_cons]
    by_cases hk : k = key
    · simp [hk]
    · rw [beq_false_of_ne hk, if_neg hk]
  have hkeys : ((members ++ [(key, v)]).map (·.1)).eraseDups =
      if key ∈ (members.map (·.1)).eraseDups then (members.map (·.1)).eraseDups
      else (members.map (·.1)).eraseDups ++ [key] := by
    rw [List.map_append, List.eraseDups_append]
    by_cases hk : key ∈ members.map (·.1)
    · simp [List.removeAll, List.mem_eraseDups, hk]
    · simp only [List.removeAll, List.map_cons, List.map_nil, List.filter_cons, List.elem_eq_mem, hk,
        List.mem_eraseDups, decide_false, Bool.not_false, if_true, List.filter_nil, if_false]
      rfl
  rw [settled_eq, settled_eq, setMember_entries (nodup_eraseDups _) hvalue, hlast, hkeys]

/-- The object of members read one after the other has each key once, where the key first comes and with the
value that comes last. -/
theorem ofMembers_eq (members : List (String × Value)) :
    ofMembers (members.map fun (key, v) => (.text key, v)) = .obj (Grammar.settled members) := by
  induction members using List.reverseRecOn with
  | nil => rfl
  | append_singleton members m ih =>
    rw [settled_append, ofMembers, List.map_append, List.foldl_append]
    rw [ofMembers, Value.obj.injEq] at ih
    rw [ih]
    rfl

/-! ### Members by key -/

/-- Setting a member changes what is found under its key, and nothing else. -/
theorem member?_setMember {members : List (Key × Value)} {key name : String} {v : Value} :
    member? (setMember members key v) name =
      if name = key then some v else member? members name := by
  have hcons : ∀ k w (rest : List (Key × Value)), member? ((k, w) :: rest) name =
      if k = .text name then some w else member? rest name := by
    intro k w rest
    rw [member?, List.lookup_cons]
    by_cases hk : k = .text name
    · rw [if_pos hk, hk, beq_self_eq_true]
    · rw [if_neg hk, beq_false_of_ne (Ne.symm hk), member?]
  induction members with
  | nil =>
    rw [setMember, hcons]
    simp only [Key.text.injEq, eq_comm (a := key)]
  | cons m members ih =>
    obtain ⟨k, w⟩ := m
    rw [setMember]
    by_cases hk : k = .text key
    · rw [if_pos hk, hk, hcons, hcons]
      by_cases h : name = key <;> simp [h, eq_comm (a := key)]
    · rw [if_neg hk, hcons, hcons, ih]
      by_cases h : name = key
      · rw [h, if_neg hk, if_pos rfl, if_pos rfl]
      · rw [if_neg h, if_neg h]

/-! ### Members without a repeated key -/

theorem setMember_of_not_mem {members : List (Key × Value)} {key : String}
    (h : .text key ∉ members.map (·.1)) (v : Value) : setMember members key v = members ++ [(.text key, v)] := by
  induction members with
  | nil => rfl
  | cons m members ih =>
    obtain ⟨k, w⟩ := m
    simp only [List.map_cons, List.mem_cons, not_or] at h
    rw [setMember, if_neg (Ne.symm h.1), ih h.2]
    rfl

theorem settled_of_nodup {members : List (String × Value)} (h : (members.map (·.1)).Nodup) :
    Grammar.settled members = members.map fun (k, v) => (.text k, v) := by
  induction members using List.reverseRecOn with
  | nil => rfl
  | append_singleton members m ih =>
    rw [List.map_append, List.nodup_append] at h
    obtain ⟨hnodup, -, hdisjoint⟩ := h
    have hnew : Key.text m.1 ∉ (members.map fun (k, v) => (Key.text k, v)).map (·.1) := by
      intro hmem
      simp only [List.map_map, List.mem_map, Function.comp_apply, Key.text.injEq] at hmem
      obtain ⟨m', hm', heq⟩ := hmem
      exact hdisjoint m'.1 (List.mem_map_of_mem hm') m.1 (List.mem_singleton_self _) heq
    rw [settled_append, ih hnodup, setMember_of_not_mem hnew, List.map_append]
    rfl

/-- Members whose keys are texts. -/
theorem exists_texts {members : List (Key × Value)} (h : ∀ m ∈ members, ∃ key, m.1 = .text key) :
    ∃ texts : List (String × Value), members = texts.map fun (k, v) => (.text k, v) := by
  induction members with
  | nil => exact ⟨[], rfl⟩
  | cons m members ih =>
    obtain ⟨⟨key, hkey⟩, hrest⟩ := List.forall_mem_cons.mp h
    obtain ⟨texts, rfl⟩ := ih hrest
    have hm : m = (.text key, m.2) := Prod.ext hkey rfl
    exact ⟨(key, m.2) :: texts, congrArg (· :: _) hm⟩

end Value

end JsonShape
