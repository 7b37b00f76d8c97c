import UserStorage.Settings.Json.Document
import UserStorage.Settings.Toml.Document

/-!
# The names in a settings file

However a settings file is put together, no name stands twice in its table: TOML refuses a name that
is given again, or adds to what it has made, and in JSON the last of two fields replaces the first.
So what is found under a name is all that the file gives for it.

## Main definitions

* `NamedOnce`: no name stands twice in some fields

## Main results

* `lookup_setField`, `NamedOnce.setField`: a field that is put in its place or at the end
* `Toml.namedOnce_insertDotted`, `Toml.namedOnce_declare`, `Json.namedOnce_members`: what the readers
  do to fields
* `Toml.namedOnce_of_parse`, `Json.namedOnce_of_parse`: the table of a text
-/

namespace UserStorage.Settings

/-! ## Fields -/

section Fields

variable {α : Type} {name k : String} {value : α} {fields : List (String × α)}

/-- No name stands twice in some fields. -/
def NamedOnce (fields : List (String × α)) : Prop := (fields.map Prod.fst).Nodup

theorem lookup_eq_none_iff_notMem : fields.lookup name = none ↔ name ∉ fields.map Prod.fst := by
  rw [List.lookup_eq_none_iff]
  constructor
  · intro h hmem
    obtain ⟨⟨_, v⟩, hfield, rfl⟩ := List.mem_map.mp hmem
    simpa using h _ hfield
  · exact fun h field hfield => bne_iff_ne.mpr fun heq => h (heq ▸ List.mem_map_of_mem hfield)

theorem lookup_cons_eq (k name : String) (value : α) (fields : List (String × α)) :
    ((name, value) :: fields).lookup k = if k = name then some value else fields.lookup k := by
  rw [List.lookup_cons]
  by_cases h : k = name
  · simp [h]
  · simp [h, beq_eq_false_iff_ne.mpr h]

/-- What is found under a name after a field has been put in. -/
theorem lookup_setField (name k : String) (value : α) (fields : List (String × α)) :
    (setField name value fields).lookup k = if k = name then some value else fields.lookup k := by
  induction fields with
  | nil => rw [setField, lookup_cons_eq]
  | cons field rest ih =>
    obtain ⟨other, v⟩ := field
    rw [setField]
    by_cases hother : other = name
    · subst hother
      rw [if_pos rfl, lookup_cons_eq, lookup_cons_eq]
      by_cases hk : k = other
      · rw [if_pos hk, if_pos hk]
      · rw [if_neg hk, if_neg hk, if_neg hk]
    · rw [if_neg hother, lookup_cons_eq, lookup_cons_eq, ih]
      by_cases hk : k = other
      · rw [if_pos hk, if_pos hk, if_neg (hk ▸ hother)]
      · rw [if_neg hk, if_neg hk]

/-- The names after a field has been put in. -/
theorem names_setField (name : String) (value : α) (fields : List (String × α)) :
    (setField name value fields).map Prod.fst =
      if name ∈ fields.map Prod.fst then fields.map Prod.fst else fields.map Prod.fst ++ [name] := by
  induction fields with
  | nil => simp [setField]
  | cons field rest ih =>
    obtain ⟨other, v⟩ := field
    rw [setField]
    by_cases hother : other = name
    · simp [hother]
    · rw [if_neg hother, List.map_cons, List.map_cons, ih]
      by_cases hmem : name ∈ rest.map Prod.fst
      · rw [if_pos hmem, if_pos (List.mem_cons_of_mem _ hmem)]
      · rw [if_neg hmem, if_neg (by simp [hmem, Ne.symm hother])]
        rfl

namespace NamedOnce

theorem nil : NamedOnce ([] : List (String × α)) := List.nodup_nil

theorem concat (h : NamedOnce fields) (free : name ∉ fields.map Prod.fst) :
    (fields.map Prod.fst ++ [name]).Nodup := by
  refine List.nodup_append.mpr ⟨h, by simp, ?_⟩
  rintro k hk other hother rfl
  obtain rfl := List.mem_singleton.mp hother
  exact free hk

/-- A name that is not there yet may be added. -/
theorem snoc (h : NamedOnce fields) (free : fields.lookup name = none) :
    NamedOnce (fields ++ [(name, value)]) := by
  rw [NamedOnce, List.map_append]
  exact h.concat (lookup_eq_none_iff_notMem.mp free)

theorem setField (h : NamedOnce fields) : NamedOnce (setField name value fields) := by
  rw [NamedOnce, names_setField]
  by_cases hmem : name ∈ fields.map Prod.fst
  · rw [if_pos hmem]
    exact h
  · rw [if_neg hmem]
    exact h.concat hmem

end NamedOnce

end Fields

/-! ## TOML -/

namespace Toml

variable {data : Data} {key : List String} {fields out content : List (String × Node)}

/-- A value that is added under a dotted key makes a new name or changes what stands under one. -/
theorem namedOnce_insertDotted (h : insertDotted data key fields = some out)
    (once : NamedOnce fields) : NamedOnce out := by
  rcases key with _ | ⟨name, _ | ⟨next, rest⟩⟩
  · simp [insertDotted] at h
  · rw [insertDotted] at h
    cases hl : fields.lookup name with
    | none =>
      rw [hl] at h
      cases h
      exact once.snoc hl
    | some node => simp [hl] at h
  · rw [insertDotted] at h
    cases hl : fields.lookup name with
    | none =>
      simp only [hl, Option.map_eq_some_iff] at h
      obtain ⟨sub, -, rfl⟩ := h
      exact once.snoc hl
    | some node =>
      cases node with
      | dotted sub =>
        simp only [hl, Option.map_eq_some_iff] at h
        obtain ⟨sub, -, rfl⟩ := h
        exact once.setField
      | _ => simp [hl] at h

/-- A section that is put in makes a new name or changes what stands under one. -/
theorem namedOnce_declare {isElement : Bool} (h : declare isElement content key fields = some out)
    (once : NamedOnce fields) : NamedOnce out := by
  unfold declare at h
  split at h
  · cases h
  · split at h
    · cases h
      exact once.snoc ‹_›
    · cases h
      exact once.snoc ‹_›
    · split at h
      · cases h
        exact once.setField
      · cases h
    · cases h
      exact once.setField
    · cases h
  · split at h
    · obtain ⟨sub, -, rfl⟩ := Option.map_eq_some_iff.mp h
      exact once.snoc ‹_›
    · obtain ⟨sub, -, rfl⟩ := Option.map_eq_some_iff.mp h
      exact once.setField
    · obtain ⟨sub, -, rfl⟩ := Option.map_eq_some_iff.mp h
      exact once.setField
    · cases h

theorem namedOnce_of_sections {value : Reader Data} {fuel : Nat} {current : Section}
    {cs : List Char} {found : List Section} (h : sections value fuel current cs = some found)
    (once : NamedOnce current.fields) : ∀ s ∈ found, NamedOnce s.fields := by
  induction fuel generalizing current cs found with
  | zero => cases h
  | succ fuel ih =>
    rw [sections] at h
    obtain ⟨rest, -, h⟩ := Option.bind_eq_some_iff.mp h
    split at h
    · cases h
      simpa using once
    · obtain ⟨⟨⟨names, double⟩, cs⟩, -, h⟩ := Option.bind_eq_some_iff.mp h
      obtain ⟨others, hothers, h⟩ := Option.bind_eq_some_iff.mp h
      cases h
      exact List.forall_mem_cons.mpr ⟨once, ih hothers .nil⟩
    · obtain ⟨⟨⟨key, data⟩, cs⟩, -, h⟩ := Option.bind_eq_some_iff.mp h
      obtain ⟨fields, hfields, h⟩ := Option.bind_eq_some_iff.mp h
      obtain ⟨cs, -, h⟩ := Option.bind_eq_some_iff.mp h
      exact ih h (namedOnce_insertDotted hfields once)

theorem names_fieldsToData (fields : List (String × Node)) :
    (fieldsToData fields).map Prod.fst = fields.map Prod.fst := by
  induction fields with
  | nil => rfl
  | cons field rest ih =>
    obtain ⟨name, node⟩ := field
    simp [fieldsToData, ih]

theorem namedOnce_of_foldlM {others : List Section}
    (h : others.foldlM (fun fields s => declare s.isElement s.fields s.header fields) fields =
      some out) (once : NamedOnce fields) : NamedOnce out := by
  induction others generalizing fields with
  | nil =>
    cases h
    exact once
  | cons s others ih =>
    rw [List.foldlM_cons] at h
    obtain ⟨mid, hmid, h⟩ := Option.bind_eq_some_iff.mp h
    exact ih h (namedOnce_declare hmid once)

theorem namedOnce_of_parse {text : String} {table : List (String × Data)}
    (h : parse text = some (.table table)) : NamedOnce table := by
  obtain ⟨found, hfound, h⟩ := Option.bind_eq_some_iff.mp h
  have once := namedOnce_of_sections hfound .nil
  cases found with
  | nil => cases h
  | cons first others =>
    obtain ⟨fields, hfields, h⟩ := Option.bind_eq_some_iff.mp h
    cases h
    rw [NamedOnce, names_fieldsToData]
    exact namedOnce_of_foldlM hfields (once first List.mem_cons_self)

end Toml

/-! ## JSON -/

namespace Json

variable {fields out : List (String × Data)}

/-- A field replaces one of its name. -/
theorem namedOnce_members {value : Reader Data} {fuel : Nat} {cs rest : List Char}
    (h : members value fuel fields cs = some (out, rest)) (once : NamedOnce fields) :
    NamedOnce out := by
  induction fuel generalizing fields cs with
  | zero => cases h
  | succ fuel ih =>
    rw [members] at h
    obtain ⟨⟨⟨name, v⟩, cs⟩, -, h⟩ := Option.bind_eq_some_iff.mp h
    dsimp only at h
    split at h
    · cases h
      exact once.setField
    · exact ih h once.setField
    · cases h

theorem exists_scalar_of_whole {negative : Bool} {n : Nat} {d : Data}
    (h : whole negative n = some d) : ∃ x, d = .scalar x := by
  rw [whole] at h
  split at h
  · cases h
    exact ⟨_, rfl⟩
  · obtain ⟨x, -, rfl⟩ := Option.map_eq_some_iff.mp h
    exact ⟨_, rfl⟩

theorem exists_scalar_of_number {cs rest : List Char} {d : Data} (h : number cs = some (d, rest)) :
    ∃ x, d = .scalar x := by
  unfold number at h
  dsimp only at h
  obtain ⟨⟨digits, afterDigits⟩, -, h⟩ := Option.bind_eq_some_iff.mp h
  obtain ⟨⟨places, afterPlaces⟩, -, h⟩ := Option.bind_eq_some_iff.mp h
  obtain ⟨⟨power, afterPower⟩, -, h⟩ := Option.bind_eq_some_iff.mp h
  dsimp only at h
  split at h
  · obtain ⟨d', hwhole, h⟩ := Option.bind_eq_some_iff.mp h
    cases h
    exact exists_scalar_of_whole hwhole
  · obtain ⟨x, -, h⟩ := Option.bind_eq_some_iff.mp h
    cases h
    exact ⟨_, rfl⟩

theorem eq_of_word {letters : List Char} {v d : Data} {cs rest : List Char}
    (h : word letters v cs = some (d, rest)) : d = v := by
  rw [word] at h
  split at h
  · cases h
    rfl
  · cases h

/-- A value that is a table is an object, which is put together field by field. -/
theorem namedOnce_of_value {depth : Nat} {cs rest : List Char}
    (h : value depth cs = some (.table fields, rest)) : NamedOnce fields := by
  unfold value at h
  split at h
  · obtain ⟨p, -, h⟩ := Option.map_eq_some_iff.mp h
    cases h
  · cases eq_of_word h
  · cases eq_of_word h
  · cases eq_of_word h
  · cases h
  · cases h
  · split at h
    · cases h
    · obtain ⟨p, -, h⟩ := Option.map_eq_some_iff.mp h
      cases h
  · split at h
    · cases h
      exact .nil
    · obtain ⟨⟨out, left⟩, hmembers, h⟩ := Option.map_eq_some_iff.mp h
      cases h
      exact namedOnce_members hmembers .nil
  · obtain ⟨x, hx⟩ := exists_scalar_of_number h
    cases hx

theorem namedOnce_of_parse {text : String} (h : parse text = some (.table fields)) :
    NamedOnce fields := by
  obtain ⟨⟨v, rest⟩, hvalue, h⟩ := Option.bind_eq_some_iff.mp h
  dsimp only at h
  split at h
  · cases h
    exact namedOnce_of_value hvalue
  · cases h

end Json

end UserStorage.Settings
