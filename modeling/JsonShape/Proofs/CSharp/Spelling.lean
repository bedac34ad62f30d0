import JsonShape.Proofs.CSharp.Scoping
import JsonShape.Proofs.Identifier

/-!
# Spelling of names

The names in the classes of a tree come from the identifiers of keys, so they are plain: they consist of ASCII
letters and digits and the underscore. Only the root, which is named by the caller, may have any name. The names
of the other classes start in a way in which no primitive's name does.
-/

namespace JsonShape.CSharp

/-- All characters of the text are such as stand in identifiers. -/
def Plain (s : String) : Prop := ∀ c ∈ s.toList, isIdentifierChar c = true

variable {s t : String}

theorem Plain.append (hs : Plain s) (ht : Plain t) : Plain (s ++ t) := by
  rw [Plain, String.toList_append, List.forall_mem_append]
  exact ⟨hs, ht⟩

/-- A text that is written out is plain if all its characters are. -/
theorem plain_ofList {cs : List Char} (h : cs.all isIdentifierChar = true) : Plain (String.ofList cs) := by
  rw [Plain, String.toList_ofList]
  exact List.all_eq_true.mp h

theorem plain_deriveIdentifier (key : String) : Plain (deriveIdentifier key) := fun _ => isIdentifierChar_of_mem

theorem plain_elementName (n : Nat) (h : Plain s) : Plain (elementName^[n] s) := by
  induction n generalizing s with
  | zero => exact h
  | succ n ih => exact ih (h.append (plain_ofList (by decide)))

theorem plain_nestedName (h : Plain s) : Plain (nestedName s) :=
  ((plain_ofList (by decide)).append h).append (plain_ofList (by decide))

/-- A candidate for a name is the name with something plain behind it. -/
theorem exists_candidate_eq (base : String) (k : Nat) : ∃ s, Plain s ∧ candidate base k = base ++ s := by
  cases k with
  | zero => exact ⟨"", plain_ofList (by decide), String.append_empty.symm⟩
  | succ k =>
    refine ⟨Nat.repr (k + 2), fun c hc => ?_, rfl⟩
    rw [Nat.toList_repr] at hc
    have hdigit := Nat.isDigit_of_mem_toDigits (by decide) (by decide) hc
    simp [isIdentifierChar, isWordChar_of_isDigit hdigit]

theorem plain_candidate (h : Plain s) (k : Nat) : Plain (candidate s k) := by
  obtain ⟨t, ht, hk⟩ := exists_candidate_eq s k
  exact hk ▸ h.append ht

/-- Names that are chosen for plain ones are plain. -/
theorem plain_of_mem_allocate {taken : List String} {bases : List (String × String)}
    (h : ∀ b ∈ bases, Plain b.2) {p : String × String} (hp : p ∈ allocate taken bases) : Plain p.2 := by
  obtain ⟨b, hb, k, rfl⟩ := exists_of_mem_allocate hp
  exact plain_candidate (h b hb) k

variable {o u : ObjectShape} {p : String × String}

theorem plain_of_mem_memberNames {owner : String} (hp : p ∈ memberNames o owner) : Plain p.2 := by
  refine plain_of_mem_allocate (fun b hb => ?_) hp
  obtain ⟨key, -, rfl⟩ := List.mem_map.mp hb
  exact plain_deriveIdentifier key

/-- The objects that a well-formed object refers to have plain names: these come from keys by way of
identifiers. -/
theorem plain_name_of_refers (ho : o.WellFormed) (hu : o.Refers u) : Plain u.name := by
  obtain ⟨k, t, ht, htu⟩ := hu
  rw [ho.name_eq ht htu]
  exact plain_elementName _ (plain_deriveIdentifier k)

theorem plain_of_mem_nestedNames (ho : o.WellFormed) {reserved : List String} (hp : p ∈ nestedNames o reserved) :
    Plain p.2 := by
  refine plain_of_mem_allocate (fun b hb => ?_) hp
  obtain ⟨u, hu, rfl⟩ := List.mem_map.mp hb
  exact plain_nestedName (plain_name_of_refers ho (ho.mem_subtypes_iff.mp hu))

/-- The names of classes below the root start alike. -/
theorem exists_of_mem_nestedNames {reserved : List String} (hp : p ∈ nestedNames o reserved) :
    ∃ s, p.2 = "Json" ++ s := by
  obtain ⟨b, hb, k, rfl⟩ := exists_of_mem_allocate hp
  obtain ⟨u, -, rfl⟩ := List.mem_map.mp hb
  obtain ⟨s, -, hs⟩ := exists_candidate_eq (nestedName u.name) k
  exact ⟨u.name ++ "Type" ++ s, by rw [hs, nestedName]; simp only [String.append_assoc]⟩

/-- A name that is looked up among plain ones. -/
theorem plain_getD_lookup {names : List (String × String)} (h : ∀ p ∈ names, Plain p.2) (label : String) :
    Plain ((names.lookup label).getD "") := by
  cases hl : names.lookup label with
  | none => exact plain_ofList (by decide)
  | some name => exact h _ (mem_of_lookup hl)

/-- What a base type is in a member: a primitive, or a class below the root. -/
def BaseType.Usual : BaseType → Prop
  | .primitive _ => True
  | .named className => Plain className ∧ ∃ s, className = "Json" ++ s

theorem BaseType.Usual.plain {b : BaseType} (h : b.Usual) : Plain (TypeRef.baseText b) := by
  cases b with
  | primitive p => cases p <;> exact plain_ofList (by decide)
  | named className => exact h.1

/-- The type of a property of a well-formed object. -/
theorem usual_ofShape (ho : o.WellFormed) {k : String} {t : Shape} (ht : (k, t) ∈ o.properties)
    (reserved : List String) : (TypeRef.ofShape (nestedNames o reserved) t).base.Usual := by
  rcases t.innermost_cases with ⟨p, hp⟩ | ⟨u, hu⟩
  · rw [base_ofShape, hp]
    exact trivial
  · have hrefers : o.Refers u := ⟨k, t, ht, Shape.innerObject?_eq_some_iff.mpr hu⟩
    obtain ⟨c, hc, hne⟩ := exists_nestedName (ho.mem_subtypes_iff.mpr hrefers) reserved
    rw [base_ofShape_object (Shape.innerObject?_eq_some_iff.mpr hu) hc hne]
    exact ⟨plain_of_mem_nestedNames ho (mem_of_lookup hc), exists_of_mem_nestedNames (mem_of_lookup hc)⟩

end JsonShape.CSharp
