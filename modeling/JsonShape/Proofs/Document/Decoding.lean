import JsonShape.Document.Lenient
import JsonShape.Proofs.Inference.Acceptance
import JsonShape.Proofs.Value.Depth

/-!
# What decoders make

Both readers of documents make decoded values only: whatever text they accept, the keys of each object are
texts, none comes twice, and nothing in the value is foreign. A reader is followed by what its parts read,
one lemma for each part. Of a decoder of JSON5 in the place of the lenient reader this is assumed, by the name
`Json5Decoder.ReturnsDecoded`.
-/

namespace JsonShape

/-! ### Objects from members -/

namespace Value

theorem decoded_empty : (Value.obj []).Decoded :=
  .obj (fun _ hm => nomatch hm) List.nodup_nil fun _ hm => nomatch hm

/-- Setting a member keeps the keys there are; a new key goes last. -/
theorem map_fst_setMember (members : List (Key × Value)) (key : String) (v : Value) :
    (setMember members key v).map (·.1) =
      if .text key ∈ members.map (·.1) then members.map (·.1) else members.map (·.1) ++ [.text key] := by
  induction members with
  | nil => rfl
  | cons m rest ih =>
    obtain ⟨k, w⟩ := m
    rw [setMember]
    by_cases hk : k = .text key
    · simp [hk]
    · simp only [if_neg hk, List.map_cons, ih, List.mem_cons, Ne.symm hk, false_or]
      split <;> rfl

theorem mem_setMember {members : List (Key × Value)} {key : String} {v : Value} {m : Key × Value}
    (h : m ∈ setMember members key v) : m = (.text key, v) ∨ m ∈ members := by
  induction members with
  | nil => exact .inl (List.mem_singleton.mp h)
  | cons n rest ih =>
    rw [setMember] at h
    split at h
    · next hn =>
      rw [hn, List.mem_cons] at h
      exact h.imp id (List.mem_cons_of_mem _)
    · rcases List.mem_cons.mp h with rfl | h
      · exact .inr (List.mem_cons_self ..)
      · exact (ih h).imp id (List.mem_cons_of_mem _)

/-- An object stays decoded when a member is set to a decoded value. -/
theorem Decoded.setMember {members : List (Key × Value)} (h : (Value.obj members).Decoded) (key : String)
    {v : Value} (hv : v.Decoded) : (Value.obj (setMember members key v)).Decoded := by
  obtain ⟨hkeys, hnodup, hmembers⟩ := decoded_obj_iff.mp h
  refine decoded_obj_iff.mpr ⟨fun m hm => ?_, ?_, fun m hm => ?_⟩
  · rcases mem_setMember hm with rfl | hm
    · exact ⟨key, rfl⟩
    · exact hkeys m hm
  · rw [map_fst_setMember]
    split
    · exact hnodup
    · next hnew => exact List.nodup_append.mpr ⟨hnodup, List.nodup_singleton _, by
        intro k hk k' hk' heq
        rw [List.mem_singleton] at hk'
        exact hnew (hk' ▸ heq ▸ hk)⟩
  · rcases mem_setMember hm with rfl | hm
    · exact hv
    · exact hmembers m hm

/-- A member as a decoder reads it: a text and a decoded value. -/
def DecodedMember (m : Key × Value) : Prop := (∃ key, m.1 = .text key) ∧ m.2.Decoded

/-- The object of decoded members is decoded, even if a key comes twice among them. -/
theorem decoded_ofMembers {members : List (Key × Value)} (h : ∀ m ∈ members, DecodedMember m) :
    (ofMembers members).Decoded := by
  unfold ofMembers
  refine List.foldlRecOn (motive := fun ms => (Value.obj ms).Decoded) members _ ?_ ?_
  · exact decoded_empty
  · intro ms hms m hm
    obtain ⟨⟨key, hkey⟩, hv⟩ := h m hm
    obtain ⟨k, v⟩ := m
    subst hkey
    exact hms.setMember key hv

end Value

/-! ### Results of reading -/

/-- Whatever a part is read as satisfies a predicate. -/
def Reads {ε α : Type} (P : α → Prop) (r : Except ε (α × List Char)) : Prop :=
  ∀ a rest, r = .ok (a, rest) → P a

namespace Reads

variable {ε α β : Type} {P : α → Prop} {Q : β → Prop} {r : Except ε (α × List Char)}

theorem ok {a : α} (h : P a) (rest : List Char) : Reads P (.ok (a, rest) : Except ε (α × List Char)) := by
  rintro _ _ ⟨⟩
  exact h

theorem error (e : ε) : Reads P (.error e : Except ε (α × List Char)) := by
  rintro _ _ ⟨⟩

theorem bind {f : α × List Char → Except ε (β × List Char)} (hr : Reads P r)
    (hf : ∀ a rest, P a → Reads Q (f (a, rest))) : Reads Q (r.bind f) := by
  cases r with
  | error e => exact error e
  | ok p => exact hf p.1 p.2 (hr p.1 p.2 rfl)

theorem map {f : α × List Char → β × List Char} (hr : Reads P r)
    (hf : ∀ a rest, P a → Q (f (a, rest)).1) : Reads Q (r.map f) := by
  cases r with
  | error e => exact error e
  | ok p => exact ok (hf p.1 p.2 (hr p.1 p.2 rfl)) (f p).2

/-- What is read of no interest. -/
theorem any (r : Except ε (α × List Char)) : Reads (fun _ => True) r := fun _ _ _ => trivial

end Reads

/-! ### The strict reader -/

namespace Strict

/-- A word with a meaning is one of those looked for. -/
theorem mem_of_word? {words : List (String × Value)} {s rest : List Char} {name : String} {v : Value}
    (h : word? words s = some (name, v, rest)) : (name, v) ∈ words := by
  obtain ⟨⟨name', v'⟩, hmem, h⟩ := List.exists_of_findSome?_eq_some h
  simp only [Option.map_eq_some_iff, Prod.mk.injEq] at h
  obtain ⟨_, _, rfl, rfl, _⟩ := h
  exact hmem

theorem decoded_of_mem_words {name : String} {v : Value} (h : (name, v) ∈ literals ++ constants) :
    v.Decoded := by
  simp only [literals, constants, List.cons_append, List.nil_append, List.mem_cons, Prod.mk.injEq,
    List.not_mem_nil, or_false] at h
  rcases h with ⟨-, rfl⟩ | ⟨-, rfl⟩ | ⟨-, rfl⟩ | ⟨-, rfl⟩ | ⟨-, rfl⟩ | ⟨-, rfl⟩ <;> constructor

/-- A number is an integer or a float. -/
theorem reads_unsigned (left : Nat) (negative : Bool) (s : List Char) :
    Reads Value.Decoded (unsigned left negative s) := by
  intro v rest h
  unfold unsigned at h
  repeat' split at h
  all_goals cases h <;> constructor

theorem reads_number (s : List Char) : Reads Value.Decoded (number s) := by
  unfold number
  split <;> exact reads_unsigned _ _ _

theorem reads_scalar (named : Bool) (s : List Char) : Reads Value.Decoded (scalar named s) := by
  unfold scalar
  split
  · exact (Reads.any _).map fun text _ _ => .str text
  · split
    · next hword => exact .ok (decoded_of_mem_words (List.mem_append_left _ (mem_of_word? hword))) _
    · next hword =>
      split
      · exact .ok (decoded_of_mem_words (List.mem_append_right _ (mem_of_word? hword))) _
      · exact .error _
    · exact reads_number s

variable {value : List Char → Result Value}

/-- What each part of a list is, all of them are. -/
theorem reads_listed {α : Type} {P : α → Prop} {part : List Char → Result α} (h : ∀ s, Reads P (part s))
    (close : Char) (turns : Nat) (s : List Char) : Reads (fun as => ∀ a ∈ as, P a) (listed part close turns s) := by
  induction turns generalizing s with
  | zero => exact .error _
  | succ turns ih =>
    refine (h s).bind fun a rest ha => ?_
    dsimp only
    split
    · exact .error _
    · split
      · refine .ok ?_ _
        exact List.forall_mem_singleton.mpr ha
      · split
        · exact (ih _).map fun as _ has => List.forall_mem_cons.mpr ⟨ha, has⟩
        · exact .error _

theorem reads_array (h : ∀ s, Reads Value.Decoded (value s)) (s : List Char) :
    Reads Value.Decoded (array value s) := by
  unfold array
  split
  · exact .ok (.arr fun _ hv => nomatch hv) _
  · exact (reads_listed h _ _ _).map fun vs _ hvs => .arr hvs

theorem reads_member (h : ∀ s, Reads Value.Decoded (value s)) (s : List Char) :
    Reads (fun m => m.2.Decoded) (member value s) :=
  (Reads.any (memberKey s)).bind fun _ rest _ => (h rest).map fun _ _ hv => hv

theorem reads_object (h : ∀ s, Reads Value.Decoded (value s)) (s : List Char) :
    Reads Value.Decoded (object value s) := by
  unfold object
  split
  · exact .ok Value.decoded_empty _
  · refine (reads_listed (reads_member h) _ _ _).map fun ms _ hms => Value.decoded_ofMembers ?_
    exact List.forall_mem_map.mpr fun m hm => ⟨⟨m.1, rfl⟩, hms m hm⟩

/-- A value is read as a decoded one, by induction on the levels that the reader may go down. -/
theorem reads_value (named : Bool) (levels : Nat) (s : List Char) :
    Reads Value.Decoded (Strict.value named levels s) := by
  induction levels generalizing s with
  | zero =>
    unfold Strict.value
    split
    · exact .error _
    · exact .error _
    · exact reads_scalar named s
  | succ levels ih =>
    unfold Strict.value
    split
    · exact reads_object ih _
    · exact reads_array ih _
    · exact reads_scalar named s

/-- Strict decoding makes decoded values. -/
theorem decoded_of_decode {named : Bool} {text : List Char} {v : Value}
    (h : decode named text = .ok v) : v.Decoded := by
  unfold decode document at h
  cases hv : Strict.value named maxLevels (skipSpace text) with
  | error e =>
    rw [hv] at h
    cases h
  | ok p =>
    rw [hv] at h
    simp only [Except.bind] at h
    split at h
    · cases h
      exact reads_value named _ _ p.1 p.2 hv
    · cases h

end Strict

/-! ### The lenient reader -/

namespace Lenient

theorem decoded_of_decimalValue? {negative : Bool} {whole : List Char} {fraction : Option (List Char)}
    {exponent : Option (Bool × List Char)} {v : Value}
    (h : decimalValue? negative whole fraction exponent = some v) : v.Decoded := by
  unfold decimalValue? at h
  simp only at h
  repeat' split at h
  all_goals cases h <;> constructor

theorem decoded_of_decimal? {negative : Bool} {s rest : List Char} {v : Value}
    (h : decimal? negative s = some (some v, rest)) : v.Decoded := by
  unfold decimal? at h
  split at h
  · cases h
  · simp only at h
    split at h
    · cases h
    · rw [Option.some.injEq, Prod.mk.injEq] at h
      exact decoded_of_decimalValue? h.1

theorem decoded_of_hexadecimal? {negative : Bool} {s rest : List Char} {v : Value}
    (h : hexadecimal? negative s = some (v, rest)) : v.Decoded := by
  unfold hexadecimal? at h
  split at h
  · split at h
    · split at h
      · cases h
      · obtain ⟨n, -, hn⟩ := Option.map_eq_some_iff.mp h
        cases hn
        exact .int _
    · cases h
  · cases h

theorem decoded_of_constant? {negative : Bool} {s rest : List Char} {v : Value}
    (h : constant? negative s = some (v, rest)) : v.Decoded := by
  unfold constant? at h
  split at h
  · cases h
    exact .float _
  · obtain ⟨_, -, h⟩ := Option.map_eq_some_iff.mp h
    cases h
    exact .float _

theorem reads_number (s : List Char) : Reads Value.Decoded (number s) := by
  intro v rest h
  unfold number at h
  simp only at h
  split at h
  · next hv =>
    cases h
    exact decoded_of_decimal? hv
  · cases h
  · split at h
    · next hv =>
      cases h
      rcases Option.or_eq_some_iff.mp hv with hv | ⟨-, hv⟩
      · exact decoded_of_hexadecimal? hv
      · exact decoded_of_constant? hv
    · cases h

theorem decoded_of_literal? {s rest : List Char} {v : Value} (h : literal? s = some (v, rest)) :
    v.Decoded := by
  unfold literal? at h
  split at h <;> cases h <;> constructor

theorem reads_scalar (s : List Char) : Reads Value.Decoded (scalar s) := by
  unfold scalar
  split
  · next hv => exact .ok (decoded_of_literal? hv) _
  · split
    · exact (Reads.any _).map fun text _ _ => .str text
    · exact (Reads.any _).map fun text _ _ => .str text
    · exact reads_number s

variable {value : List Char → Result Value}

theorem reads_items (h : ∀ s, Reads Value.Decoded (value s)) (turns : Nat) (s : List Char) :
    Reads (fun vs => ∀ v ∈ vs, v.Decoded) (items value turns s) := by
  induction turns generalizing s with
  | zero => exact .error _
  | succ turns ih =>
    unfold items
    split
    · exact .ok (fun _ hv => nomatch hv) _
    · refine (h s).bind fun v rest hv => ?_
      dsimp only
      split
      · refine .ok ?_ _
        exact List.forall_mem_singleton.mpr hv
      · exact (ih _).map fun vs _ hvs => List.forall_mem_cons.mpr ⟨hv, hvs⟩
      · exact .error _

theorem reads_members (h : ∀ s, Reads Value.Decoded (value s)) (turns : Nat) (s : List Char) :
    Reads (fun ms => ∀ m ∈ ms, Value.DecodedMember m) (members value turns s) := by
  induction turns generalizing s with
  | zero => exact .error _
  | succ turns ih =>
    unfold members
    split
    · exact .ok (fun _ hm => nomatch hm) _
    · refine (Reads.any (memberKey s)).bind fun key rest _ => (h rest).bind fun v rest hv => ?_
      have hm : Value.DecodedMember (.text key, v) := ⟨⟨key, rfl⟩, hv⟩
      dsimp only
      split
      · refine .ok ?_ _
        exact List.forall_mem_singleton.mpr hm
      · exact (ih _).map fun ms _ hms => List.forall_mem_cons.mpr ⟨hm, hms⟩
      · exact .error _

theorem reads_value (levels : Nat) (s : List Char) : Reads Value.Decoded (Lenient.value levels s) := by
  induction levels generalizing s with
  | zero =>
    unfold Lenient.value
    split
    · exact .error _
    · exact .error _
    · exact reads_scalar s
  | succ levels ih =>
    unfold Lenient.value
    split
    · exact (reads_members ih _ _).map fun ms _ hms => Value.decoded_ofMembers hms
    · exact (reads_items ih _ _).map fun vs _ hvs => .arr hvs
    · exact reads_scalar s

/-- Lenient decoding makes decoded values. -/
theorem decoded_of_decode {text : List Char} {v : Value} (h : decode text = .ok v) : v.Decoded := by
  unfold decode document at h
  cases hv : Lenient.value maxLevels (skipSpace text) with
  | error e =>
    rw [hv] at h
    cases h
  | ok p =>
    rw [hv] at h
    simp only [Except.bind] at h
    split at h
    · cases h
      exact reads_value _ _ p.1 p.2 hv
    · cases h

end Lenient

/-! ### Documents -/

/-- The documentation of a decoder of JSON5: it makes objects with texts as keys, each key once, and lists, texts,
numbers, flags and null, and nothing else. -/
def Json5Decoder.ReturnsDecoded [Json5Decoder] : Prop := ∀ text v, decode text = .ok v → v.Decoded

theorem Lenient.returnsDecoded : @Json5Decoder.ReturnsDecoded Lenient.decoder := fun _ _ h => decoded_of_decode h

namespace Document

/-- The members of a value are those of an object no deeper than the limit. -/
theorem members_eq_ok_iff {limit : Int} (hlimit : 0 ≤ limit) {v : Value} {ms : List (Key × Value)} :
    members limit v = .ok ms ↔ v = .obj ms ∧ (v.depth : Int) ≤ limit := by
  unfold members
  rw [Value.depthWithin_eq hlimit]
  by_cases hdepth : (v.depth : Int) ≤ limit
  · cases v <;> simp [hdepth]
  · simp [hdepth]

/-- Whatever text is parsed, in either mode, the object that it holds is decoded and no deeper than the
limit. -/
theorem decoded_of_parse [Json5Decoder] (hjson5 : Json5Decoder.ReturnsDecoded) {options : ParserOptions}
    (hlimit : 0 ≤ options.maxNestingDepth) {text : String} {ms : List (Key × Value)}
    (h : parse options text = .ok ms) :
    (Value.obj ms).Decoded ∧ ((Value.obj ms).depth : Int) ≤ options.maxNestingDepth := by
  unfold parse at h
  split at h
  · cases h
  · cases h
  · next v hv =>
    obtain ⟨rfl, hdepth⟩ := (members_eq_ok_iff hlimit).mp h
    refine ⟨?_, hdepth⟩
    unfold decode at hv
    split at hv
    · exact hjson5 _ _ hv
    · exact Strict.decoded_of_decode hv

end Document
end JsonShape
