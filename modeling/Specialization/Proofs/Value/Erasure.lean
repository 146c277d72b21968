import Specialization.Erasure

/-!
Laws of erasure. What parameters are erased to has the slots of the default, and each of them is
filled from its own place in the request alone: with what stands there if that is a type or an
instantiation, and with the default of the slot otherwise. So what is requested for no slot does not
matter, nor does it matter which values are refused.
-/

namespace Specialization

/-- The slots of parameters: those of a vector, or the single one. -/
def Value.slots : Value → List Value
  | .list items => items
  | single => [single]

/-- What is requested for a slot of a default. A single slot takes the whole request. -/
def requestedAt (requested : Option Value) (default : Value) (position : Nat) : Option Value :=
  match default with
  | .list _ => (requested.bind Value.asList?).bind (·[position]?)
  | _ => requested

/-- What is requested for a slot, if it may stand there. -/
def admittedAt (requested : Option Value) (default : Value) (position : Nat) : Option Value :=
  (requestedAt requested default position).filter Value.isSpecializationArgument

variable {requested requested' : Option Value} {default value : Value} {given given' : List Value}
  {position : Nat}

theorem eraseSlot_eq_getD (requested : Option Value) (fallback : Value) :
    eraseSlot requested fallback =
      (requested.filter Value.isSpecializationArgument).getD fallback := by
  cases requested with
  | none => rfl
  | some value =>
      rw [eraseSlot, Option.filter_some]
      split <;> rfl

theorem eraseSlot_eq_match (requested : Option Value) (fallback : Value) :
    eraseSlot requested fallback =
      match requested with
      | some (.type descriptor) => .type descriptor
      | some (.species raw parameters) => .species raw parameters
      | _ => fallback := by
  cases requested with
  | none => rfl
  | some value => cases value <;> rfl

/-- A single slot stays single. -/
theorem asList?_eraseSlot (h : default.asList? = none) (requested : Option Value) :
    (eraseSlot requested default).asList? = none := by
  rw [eraseSlot_eq_match]
  split
  · rfl
  · rfl
  · exact h

theorem Value.slots_of_single (h : value.asList? = none) : value.slots = [value] := by
  cases value with
  | list items => cases h
  | _ => rfl

theorem requestedAt_of_single (h : default.asList? = none) (requested : Option Value)
    (position : Nat) : requestedAt requested default position = requested := by
  cases default with
  | list slots => cases h
  | _ => rfl

theorem getElem?_eraseSlots (given slots : List Value) (position : Nat) :
    (eraseSlots given slots)[position]? = slots[position]?.map (eraseSlot given[position]?) := by
  fun_induction eraseSlots given slots generalizing position with
  | case1 given => rfl
  | case2 fallback rest ih =>
      cases position with
      | zero => rfl
      | succ position => exact ih position
  | case3 value given fallback rest ih =>
      cases position with
      | zero => rfl
      | succ position => exact ih position

/-- Each slot is erased on its own. -/
theorem getElem?_slots_erase (requested : Option Value) (default : Value) (position : Nat) :
    (erase requested default).slots[position]? =
      default.slots[position]?.map (eraseSlot (requestedAt requested default position)) := by
  cases hslots : default.asList? with
  | none =>
      have hsingle := asList?_eraseSlot hslots requested
      rw [erase_single hslots, Value.slots_of_single hsingle, Value.slots_of_single hslots,
        requestedAt_of_single hslots]
      cases position <;> rfl
  | some slots =>
      obtain rfl := Value.eq_list_of_asList? hslots
      have hgiven : ((requested.bind Value.asList?).getD [])[position]? =
          requestedAt requested (.list slots) position := by
        cases hitems : requested.bind Value.asList? <;> simp [requestedAt, hitems]
      rw [erase_list, ← hgiven]
      exact getElem?_eraseSlots _ slots position

theorem length_asList?_erase (requested : Option Value) (default : Value) :
    (erase requested default).asList?.map List.length = default.asList?.map List.length := by
  cases hslots : default.asList? with
  | none => rw [erase_single hslots, asList?_eraseSlot hslots]
  | some slots =>
      obtain rfl := Value.eq_list_of_asList? hslots
      rw [erase_list]
      exact congrArg some (length_eraseSlots _ slots)

/-- Only what may stand in the slots of the default matters in a request. -/
theorem erase_congr (h : ∀ position < default.slots.length,
    admittedAt requested default position = admittedAt requested' default position) :
    erase requested default = erase requested' default := by
  have hslots : (erase requested default).slots = (erase requested' default).slots := by
    apply List.ext_getElem?
    intro position
    rw [getElem?_slots_erase, getElem?_slots_erase]
    cases hfallback : default.slots[position]? with
    | none => rfl
    | some fallback =>
        have hadmitted := h position (List.getElem?_eq_some_iff.mp hfallback).1
        rw [admittedAt, admittedAt] at hadmitted
        rw [Option.map_some, Option.map_some, eraseSlot_eq_getD, hadmitted, ← eraseSlot_eq_getD]
  cases hdefault : default.asList? with
  | none =>
      have hsingle := asList?_eraseSlot hdefault requested
      have hsingle' := asList?_eraseSlot hdefault requested'
      rw [erase_single hdefault, erase_single hdefault, Value.slots_of_single hsingle,
        Value.slots_of_single hsingle'] at hslots
      rw [erase_single hdefault, erase_single hdefault]
      exact List.head_eq_of_cons_eq hslots
  | some slots =>
      obtain rfl := Value.eq_list_of_asList? hdefault
      rw [erase_list, erase_list] at hslots ⊢
      exact congrArg Value.list hslots

theorem admittedAt_list (given : List Value) (default : Value) (position : Nat) :
    admittedAt (some (.list given)) default position =
      default.asList?.bind fun _ => given[position]?.filter Value.isSpecializationArgument := by
  cases default <;> rfl

theorem admittedAt_list_congr
    (h : given[position]?.filter Value.isSpecializationArgument =
      given'[position]?.filter Value.isSpecializationArgument) (default : Value) :
    admittedAt (some (.list given)) default position =
      admittedAt (some (.list given')) default position := by
  rw [admittedAt_list, admittedAt_list, h]

theorem filter_of_refused (h : value.isSpecializationArgument = false) :
    (some value).filter Value.isSpecializationArgument = none := by
  rw [Option.filter_some, h]
  rfl

/-- Changing a vector at one place changes no other slot. -/
theorem getElem?_slots_erase_set (given : List Value) (default value : Value)
    {position other : Nat} (h : other ≠ position) :
    (erase (some (.list (given.set position value))) default).slots[other]? =
      (erase (some (.list given)) default).slots[other]? := by
  have hsame : (given.set position value)[other]? = given[other]? :=
    List.getElem?_set_ne h.symm
  rw [getElem?_slots_erase, getElem?_slots_erase]
  cases default with
  | list slots => simp only [requestedAt, Option.bind_some, Value.asList?, hsame]
  | _ => rfl

/-- What a vector holds beyond the slots of the default does not matter. -/
theorem erase_of_take_eq (h : given.take default.slots.length = given'.take default.slots.length) :
    erase (some (.list given)) default = erase (some (.list given')) default := by
  apply erase_congr
  intro position hposition
  have hsame : given[position]? = given'[position]? := by
    rw [← List.getElem?_take_of_lt hposition, h, List.getElem?_take_of_lt hposition]
  exact admittedAt_list_congr (congrArg (Option.filter _) hsame) default

/-- A value that is refused may be replaced by any other one that is. -/
theorem erase_set_of_refused {old new : Value} (hold : given[position]? = some old)
    (hrefused : old.isSpecializationArgument = false)
    (hrefused' : new.isSpecializationArgument = false) (default : Value) :
    erase (some (.list (given.set position new))) default =
      erase (some (.list given)) default := by
  apply erase_congr
  intro other _
  apply admittedAt_list_congr
  by_cases hother : position = other
  · subst hother
    have hlength := (List.getElem?_eq_some_iff.mp hold).1
    rw [List.getElem?_set_self hlength, hold, filter_of_refused hrefused,
      filter_of_refused hrefused']
  · rw [List.getElem?_set_ne hother]

theorem erase_append_of_refused {trailing : List Value}
    (h : ∀ value ∈ trailing, value.isSpecializationArgument = false) (given : List Value)
    (default : Value) :
    erase (some (.list (given ++ trailing))) default = erase (some (.list given)) default := by
  apply erase_congr
  intro position _
  apply admittedAt_list_congr
  by_cases hposition : position < given.length
  · rw [List.getElem?_append_left hposition]
  · have hbeyond : given.length ≤ position := Nat.le_of_not_lt hposition
    rw [List.getElem?_append_right hbeyond, List.getElem?_eq_none hbeyond]
    cases hvalue : trailing[position - given.length]? with
    | none => rfl
    | some value => exact filter_of_refused (h value (List.mem_of_getElem? hvalue))

theorem erase_self (default : Value) : erase (some default) default = default :=
  erase_idem none default

/-- What parameters are erased to is erased to itself, and so is a default. It is a vector exactly if
the default is one, then of the same length. Each slot holds the type or the instantiation that is
requested for it, and its default where none is. Of a vector that is requested, one place concerns
one slot, places beyond the slots concern none, and of values that are refused it matters neither
which they are nor, at the end, whether they are there. -/
theorem erase_laws (requested : Option Value) (default : Value) :
    let erased := erase requested default
    erase (some erased) default = erased ∧
    erase (some default) default = default ∧
    erased.asList?.map List.length = default.asList?.map List.length ∧
    (∀ position fallback, default.slots[position]? = some fallback →
      erased.slots[position]? = some (match requestedAt requested default position with
        | some (.type descriptor) => .type descriptor
        | some (.species raw parameters) => .species raw parameters
        | _ => fallback)) ∧
    (∀ given position value other, other ≠ position →
      (erase (some (.list (given.set position value))) default).slots[other]? =
        (erase (some (.list given)) default).slots[other]?) ∧
    (∀ given given', given.take default.slots.length = given'.take default.slots.length →
      erase (some (.list given)) default = erase (some (.list given')) default) ∧
    (∀ (given : List Value) position old new, given[position]? = some old →
      old.isSpecializationArgument = false → new.isSpecializationArgument = false →
      erase (some (.list (given.set position new))) default =
        erase (some (.list given)) default) ∧
    (∀ given trailing, (∀ value ∈ trailing, value.isSpecializationArgument = false) →
      erase (some (.list (given ++ trailing))) default = erase (some (.list given)) default) := by
  intro erased
  refine ⟨erase_idem requested default, erase_self default, length_asList?_erase requested default,
    ?_, ?_, fun _ _ h => erase_of_take_eq h, ?_, ?_⟩
  · intro position fallback hfallback
    rw [getElem?_slots_erase, hfallback, Option.map_some, eraseSlot_eq_match]
  · exact fun given position value other h => getElem?_slots_erase_set given default value h
  · exact fun given position old new hold hrefused hrefused' =>
      erase_set_of_refused hold hrefused hrefused' default
  · exact fun given trailing h => erase_append_of_refused h given default

/-- A text and a list of types are refused in the first slot alike, and the third place is that of no
slot. -/
theorem erase_laws_objects :
    let default : Value := .list [.type "Object", .type "Object"]
    let given : List Value := [.string "String", .type "Long"]
    let erased : Value := .list [.type "Object", .type "Long"]
    erase (some (.list given)) default = erased ∧
      erase (some (.list (given.set 0 (.list [.type "String"])))) default = erased ∧
      erase (some (.list (given ++ [.type "Extra"]))) default = erased := by
  intro default given erased
  obtain ⟨_, _, _, _, _, hbeyond, hrefused, _⟩ := erase_laws (some (.list given)) default
  have herased : erase (some (.list given)) default = erased := rfl
  refine ⟨herased, ?_, ?_⟩
  · exact (hrefused given 0 (.string "String") (.list [.type "String"]) rfl rfl rfl).trans herased
  · exact (hbeyond (given ++ [.type "Extra"]) given rfl).trans herased

end Specialization
