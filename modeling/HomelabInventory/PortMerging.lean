import HomelabInventory.CatalogUpdates

/-!
# Merged ports

A port that is merged with an incoming one has the id of the incoming one, and keeps the local
fields that it had before.
-/

namespace HomelabInventory.CatalogUpdates

open InsertionMap Option

open CatalogProtocol List

/-! ## Fields that are restored -/

theorem memberOf_eq_of_get? {left right : List (String × Value)} {key : String}
    (h : get? left key = get? right key) :
    memberOf left key = memberOf right key := by
  rw [memberOf, memberOf, h]

theorem restoreFields_cons (field : String) (fields : List String)
    (current result : List (String × Value)) :
    restoreFields (field :: fields) current result = restoreFields fields current
      (if (memberOf current field).isUndefined then result
        else InsertionMap.set result field (memberOf current field)) := rfl

theorem get?_restoreFields (fields : List String) (current result : List (String × Value))
    (key : String) : get? (restoreFields fields current result) key =
      if key ∈ fields ∧ (memberOf current key).isUndefined = false then
        some (memberOf current key)
      else get? result key := by
  induction fields generalizing result with
  | nil => simp [restoreFields]
  | cons field fields ih =>
    rw [restoreFields_cons, ih]
    by_cases hkey : key = field
    · subst hkey
      cases hundefined : (memberOf current key).isUndefined with
      | true => simp
      | false => simp [get?_set]
    · cases hundefined : (memberOf current field).isUndefined with
      | true => simp [hkey]
      | false => simp [hkey, get?_set]

/-! ## One port -/

theorem get?_setOrigin (port : List (String × Value)) (key : String) :
    get? (setOrigin port) key =
      if key = "origin" ∧ textOf (memberOf port "origin") ≠ some "module" then
        some (.string "fixed")
      else get? port key := by
  unfold setOrigin
  by_cases hmodule : textOf (memberOf port "origin") = some "module"
  · simp [hmodule]
  · rw [if_neg hmodule, get?_set]
    by_cases hkey : key = "origin" <;> simp [hkey, hmodule]

section

variable {current incoming : List (String × Value)}

theorem get?_mergePortMembers (hincoming : (keys incoming).Nodup) (key : String) :
    get? (mergePortMembers current incoming) key =
      if key ∈ localPortFields ∧ (memberOf current key).isUndefined = false then
        some (memberOf current key)
      else if key = "origin" ∧
          textOf (memberOf (setAll current incoming) "origin") ≠ some "module" then
        some (.string "fixed")
      else (get? incoming key).or (get? current key) := by
  rw [mergePortMembers, get?_restoreFields, get?_setOrigin, get?_setAll hincoming]

end

/-! ## All ports -/

/-- The id of a port. -/
def portId (port : Value) : Option ℤ := integerOf (port.get "id")

variable {currentPorts ports : List Value}
variable {incoming port : Value}

theorem portWithId_eq_some {id : Option ℤ} (h : portWithId ports id = some port) :
    port ∈ ports ∧ portId port = id := by
  refine ⟨mem_reverse.mp (mem_of_find?_eq_some h), ?_⟩
  simpa [portId] using find?_some h

/-- When ids are distinct a port is found by its id. -/
theorem portWithId_of_mem (hnodup : (ports.map portId).Nodup) (hport : port ∈ ports) :
    portWithId ports (portId port) = some port := by
  obtain ⟨found, hfind⟩ : ∃ found, portWithId ports (portId port) = some found := by
    refine isSome_iff_exists.mp (find?_isSome.mpr ⟨port, ?_, ?_⟩)
    · exact mem_reverse.mpr hport
    · exact decide_eq_true rfl
  obtain ⟨hmem, hid⟩ := portWithId_eq_some hfind
  rw [hfind, eq_of_key_eq hnodup hmem hport hid]

/-- A merged port has the id of the incoming one. -/
theorem portId_mergePort (hincoming : WellFormed incoming) :
    portId (mergePort currentPorts incoming) = portId incoming := by
  cases incoming with
  | object members =>
    obtain ⟨old, hold⟩ : ∃ old, old = membersOf ((portWithId currentPorts
        (integerOf (memberOf members "id"))).getD .undefined) := ⟨_, rfl⟩
    have hget := @get?_mergePortMembers old members hincoming.keys_nodup "id"
    rw [if_neg (fun h => absurd h.1 (by decide)), if_neg (fun h => absurd h.1 (by decide))] at hget
    change integerOf (memberOf (mergePortMembers _ members) "id") = integerOf (memberOf members "id")
    rw [← hold]
    cases hin : get? members "id" with
    | some value =>
      rw [hin, some_or] at hget
      rw [memberOf_of_get? hget, memberOf_of_get? hin]
    | none =>
      -- then it is merged with a port that has no id either
      rw [hin, none_or] at hget
      have hnone : integerOf (memberOf members "id") = none := by rw [memberOf, hin]; rfl
      rw [memberOf_eq_of_get? hget, hnone]
      rw [hnone] at hold
      cases hfind : portWithId currentPorts none with
      | none =>
        rw [hfind] at hold
        rw [hold]
        rfl
      | some port =>
        obtain ⟨-, hid⟩ := portWithId_eq_some hfind
        rw [hfind] at hold
        rw [hold]
        cases port with
        | object portMembers => exact hid
        | _ => rfl
  | _ => rfl

/-- A port that was there before keeps its local fields. -/
theorem get_mergePort_local {incoming old : Value} (hnodup : (currentPorts.map portId).Nodup)
    (hincoming : WellFormed incoming) (hold : old ∈ currentPorts) {id : ℤ}
    (hid : portId incoming = some id) (holdId : portId old = some id) {field : String}
    (hfield : field ∈ localPortFields) (hdefined : (old.get field).isUndefined = false) :
    (mergePort currentPorts incoming).get field = old.get field := by
  cases incoming with
  | object members =>
    have hfound := portWithId_of_mem hnodup hold
    rw [holdId, ← hid] at hfound
    change portWithId currentPorts (integerOf (memberOf members "id")) = _ at hfound
    change memberOf (mergePortMembers (membersOf ((portWithId currentPorts
      (integerOf (memberOf members "id"))).getD .undefined)) members) field = _
    rw [hfound, getD_some]
    cases old with
    | object oldMembers =>
      refine memberOf_of_get? ?_
      rw [get?_mergePortMembers hincoming.keys_nodup, membersOf, if_pos ⟨hfield, hdefined⟩]
      rfl
    | _ => exact nomatch hdefined
  | _ => exact nomatch hid

end HomelabInventory.CatalogUpdates
