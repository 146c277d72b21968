import Mathlib.Data.List.Basic

/-!
Association lists that only grow at their front, and only by keys that they do not have, so that
whatever is found once is found from then on.
-/

namespace Specialization

variable {κ β : Type} [BEq κ]

theorem mem_of_lookup [LawfulBEq κ] {entries : List (κ × β)} {key : κ} {value : β}
    (h : entries.lookup key = some value) : (key, value) ∈ entries := by
  obtain ⟨newer, older, rfl, _⟩ := List.lookup_eq_some_iff.mp h
  simp

theorem lookup_cons_of_ne [LawfulBEq κ] {entries : List (κ × β)} {key other : κ} {value : β}
    (h : other ≠ key) : ((key, value) :: entries).lookup other = entries.lookup other := by
  rw [List.lookup_cons, beq_false_of_ne h]

theorem lookup_map {α : Type} (f : α → β) (entries : List (κ × α)) (key : κ) :
    (entries.map (Prod.map id f)).lookup key = (entries.lookup key).map f := by
  induction entries with
  | nil => rfl
  | cons entry rest ih =>
      obtain ⟨other, value⟩ := entry
      simp only [List.map_cons, Prod.map_apply, id, List.lookup_cons]
      split
      · rfl
      · exact ih

/-- Whatever the older list has for a key, the newer one has too. -/
def Extends (older newer : List (κ × β)) : Prop :=
  ∀ key value, older.lookup key = some value → newer.lookup key = some value

namespace Extends

variable {first second third : List (κ × β)}

theorem refl (entries : List (κ × β)) : Extends entries entries :=
  fun _ _ h => h

theorem trans (h : Extends first second) (h' : Extends second third) : Extends first third :=
  fun key value hfound => h' key value (h key value hfound)

theorem cons [LawfulBEq κ] {key : κ} (hnew : first.lookup key = none) (value : β) :
    Extends first ((key, value) :: first) := by
  intro other found hfound
  have hne : other ≠ key := by
    rintro rfl
    rw [hnew] at hfound
    cases hfound
  rw [lookup_cons_of_ne hne, hfound]

end Extends

end Specialization
