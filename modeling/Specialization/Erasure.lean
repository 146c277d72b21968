import Specialization.Value.Basic

/-!
Erasure of requested parameters to the shape of the declared defaults. Each slot keeps what was
requested for it if that is a specialization argument and takes its default otherwise, so the
result has as many slots as the default, whatever was requested.
-/

namespace Specialization

/-- One slot: the requested value if it may stand there. -/
def eraseSlot (requested : Option Value) (fallback : Value) : Value :=
  match requested with
  | some value => if value.isSpecializationArgument then value else fallback
  | none => fallback

/-- The slots of a vector, each against the request at its position. -/
def eraseSlots : List Value → List Value → List Value
  | _, [] => []
  | [], fallback :: rest => fallback :: eraseSlots [] rest
  | value :: given, fallback :: rest => eraseSlot (some value) fallback :: eraseSlots given rest

/-- A list as default is a vector of slots, and any other default is a single slot. -/
def erase (requested : Option Value) (default : Value) : Value :=
  match requested, default with
  | none, default => default
  | some requested, .list slots => .list (eraseSlots (requested.asList?.getD []) slots)
  | some requested, default => eraseSlot (some requested) default

theorem length_eraseSlots (given slots : List Value) :
    (eraseSlots given slots).length = slots.length := by
  fun_induction eraseSlots given slots <;> simp_all

theorem eraseSlots_nil (slots : List Value) : eraseSlots [] slots = slots := by
  induction slots with
  | nil => rfl
  | cons fallback rest ih => rw [eraseSlots, ih]

theorem erase_list (requested : Option Value) (slots : List Value) :
    erase requested (.list slots) =
      .list (eraseSlots ((requested.bind Value.asList?).getD []) slots) := by
  cases requested with
  | none => rw [Option.bind_none, Option.getD_none, eraseSlots_nil, erase]
  | some value => rfl

theorem erase_single {default : Value} (h : default.asList? = none) (requested : Option Value) :
    erase requested default = eraseSlot requested default := by
  cases requested with
  | none => rfl
  | some value =>
      cases default with
      | list slots => cases h
      | _ => rfl

theorem eraseSlot_self (fallback : Value) : eraseSlot (some fallback) fallback = fallback := by
  simp [eraseSlot]

theorem eraseSlot_idem (requested : Option Value) (fallback : Value) :
    eraseSlot (some (eraseSlot requested fallback)) fallback = eraseSlot requested fallback := by
  cases requested with
  | none => exact eraseSlot_self fallback
  | some value =>
      by_cases h : value.isSpecializationArgument
      · simp [eraseSlot, h]
      · simp [eraseSlot, h]

theorem eraseSlots_idem (given slots : List Value) :
    eraseSlots (eraseSlots given slots) slots = eraseSlots given slots := by
  fun_induction eraseSlots given slots with
  | case1 => rfl
  | case2 fallback rest ih => rw [eraseSlots, eraseSlot_self, ih]
  | case3 value given fallback rest ih => rw [eraseSlots, eraseSlot_idem, ih]

/-- What parameters are erased to is erased to itself. -/
theorem erase_idem (requested : Option Value) (default : Value) :
    erase (some (erase requested default)) default = erase requested default := by
  cases hslots : default.asList? with
  | none => rw [erase_single hslots, erase_single hslots, eraseSlot_idem]
  | some slots =>
      obtain rfl := Value.eq_list_of_asList? hslots
      rw [erase_list requested, erase_list]
      exact congrArg Value.list (eraseSlots_idem _ slots)

end Specialization
