import HomelabInventory.CanonicalJson

/-!
# Merging objects

`deepMerge` of `server/registry/catalog-update-semantics.mjs`: the members of an incoming
object are put over those of the current one, at every depth, and everything else that comes
in replaces what is there.
-/

namespace HomelabInventory.CatalogProtocol

open InsertionMap List Option

/-! ## Objects -/

/-- The objects in a value have each key once. -/
inductive WellFormed : Value → Prop where
  | undefined : WellFormed .undefined
  | null : WellFormed .null
  | bool (value : Bool) : WellFormed (.bool value)
  | number (value : Number) : WellFormed (.number value)
  | string (value : String) : WellFormed (.string value)
  | array {entries : List Value} (hentries : ∀ entry ∈ entries, WellFormed entry) :
    WellFormed (.array entries)
  | object {members : List (String × Value)} (hkeys : (keys members).Nodup)
    (hmembers : ∀ member ∈ members, WellFormed member.2) : WellFormed (.object members)

/-- The value of a member, nothing when there is none. -/
def memberOf (members : List (String × Value)) (key : String) : Value :=
  (get? members key).getD .undefined

def Value.isUndefined : Value → Bool
  | .undefined => true
  | _ => false

/-- The value of a member of an object. -/
def Value.get : Value → String → Value
  | .object members, key => memberOf members key
  | _, _ => .undefined

/-- Set a member of an object. -/
def Value.set (value : Value) (key : String) (member : Value) : Value :=
  match value with
  | .object members => .object (InsertionMap.set members key member)
  | value => value

/-- Take a member out of an object. -/
def Value.remove (key : String) : Value → Value
  | .object members => .object (InsertionMap.delete members key)
  | value => value

/-- Change a member, when there is one. -/
def modifyMember (key : String) (f : Value → Value) (members : List (String × Value)) :
    List (String × Value) :=
  members.map fun member => if member.1 = key then (key, f member.2) else member

/-- Change a member of an object, when it has one. -/
def Value.modify (key : String) (f : Value → Value) : Value → Value
  | .object members => .object (modifyMember key f members)
  | value => value

mutual

/-- `deepMerge` -/
def deepMerge (current : Value) : Value → Value
  | .undefined => current
  | .object incoming =>
    match current with
    | .object members => .object (mergeMembers members members incoming)
    | _ => .object incoming
  | incoming => incoming

/-- Put incoming members over those of the current object, in the result so far. -/
def mergeMembers (current result : List (String × Value)) :
    List (String × Value) → List (String × Value)
  | [] => result
  | (key, value) :: rest =>
    mergeMembers current
      (InsertionMap.set result key (deepMerge (memberOf current key) value)) rest

end

/-! ## Members -/

variable {incoming members : List (String × Value)}
variable {value : Value}

theorem memberOf_of_get? {key : String} (h : get? members key = some value) :
    memberOf members key = value := by
  rw [memberOf, h, getD_some]

theorem WellFormed.member (h : WellFormed (.object members)) :
    ∀ member ∈ members, WellFormed member.2 := by
  cases h with
  | object _ hmembers => exact hmembers

theorem WellFormed.memberOf (h : WellFormed (.object members)) (key : String) :
    WellFormed (memberOf members key) := by
  rw [CatalogProtocol.memberOf]
  cases hget : get? members key with
  | none => exact .undefined
  | some value => exact h.member _ (mem_of_get?_eq_some hget)

theorem WellFormed.keys_nodup (h : WellFormed (.object members)) : (keys members).Nodup := by
  cases h with
  | object hkeys _ => exact hkeys

theorem WellFormed.set (h : WellFormed (.object members)) (key : String)
    (hvalue : WellFormed value) : WellFormed (.object (InsertionMap.set members key value)) := by
  refine .object (nodup_keys_set h.keys_nodup key value) fun member hmember => ?_
  obtain hold | rfl := mem_set hmember
  · exact h.member member hold
  · exact hvalue

theorem WellFormed.setAll {members more : List (String × Value)}
    (h : WellFormed (.object members)) (hmore : ∀ member ∈ more, WellFormed member.2) :
    WellFormed (.object (setAll members more)) := by
  refine List.foldlRecOn (motive := fun result => WellFormed (.object result)) _ _ h ?_
  exact fun result hresult member hmember => hresult.set member.1 (hmore member hmember)

/-! ## What a merge gives -/

@[simp] theorem deepMerge_undefined_left (incoming : Value) :
    deepMerge .undefined incoming = incoming := by
  cases incoming <;> rfl

/-- The incoming members, each merged with the current one. -/
def overlay (current incoming : List (String × Value)) : List (String × Value) :=
  incoming.map fun member => (member.1, deepMerge (memberOf current member.1) member.2)

theorem mergeMembers_eq (current result incoming : List (String × Value)) :
    mergeMembers current result incoming = setAll result (overlay current incoming) := by
  induction incoming generalizing result with
  | nil => rfl
  | cons member rest ih => exact ih _

theorem keys_overlay (current incoming : List (String × Value)) :
    keys (overlay current incoming) = keys incoming := by
  rw [InsertionMap.keys, overlay, List.map_map]
  rfl

theorem get?_overlay (current incoming : List (String × Value)) (key : String) :
    get? (overlay current incoming) key =
      (get? incoming key).map (deepMerge (memberOf current key)) := by
  induction incoming with
  | nil => rfl
  | cons member rest ih =>
    rw [overlay, map_cons, get?_cons, get?_cons]
    split
    · rename_i hkey
      rw [map_some, ← hkey]
    · exact ih

/-- A member of the merge is the merge of the members. -/
theorem get?_mergeMembers (current : List (String × Value))
    (hnodup : (keys incoming).Nodup) (result : List (String × Value)) (key : String) :
    get? (mergeMembers current result incoming) key =
      ((get? incoming key).map (deepMerge (memberOf current key))).or (get? result key) := by
  rw [mergeMembers_eq, get?_setAll (by rwa [keys_overlay]), get?_overlay]

theorem WellFormed.deepMerge {current incoming : Value} (hcurrent : WellFormed current)
    (hincoming : WellFormed incoming) : WellFormed (deepMerge current incoming) := by
  induction hincoming generalizing current with
  | undefined => exact hcurrent
  | null => exact .null
  | bool value => exact .bool value
  | number value => exact .number value
  | string value => exact .string value
  | array hentries => exact .array hentries
  | object hkeys hmembers ih =>
    rename_i incoming
    cases hcurrent with
    | object hcurrentKeys hcurrentMembers =>
      rename_i members
      have hobject : WellFormed (.object members) := .object hcurrentKeys hcurrentMembers
      change WellFormed (.object (mergeMembers members members incoming))
      rw [mergeMembers_eq]
      refine hobject.setAll fun member hmember => ?_
      obtain ⟨old, hold, rfl⟩ := mem_map.mp hmember
      exact ih old hold (hobject.memberOf old.1)
    | _ => exact .object hkeys hmembers

/-! ## Changes of members -/

theorem keys_modifyMember (key : String) (f : Value → Value) (members : List (String × Value)) :
    keys (modifyMember key f members) = keys members := by
  rw [InsertionMap.keys, modifyMember, List.map_map]
  refine map_congr_left fun member _ => ?_
  rw [Function.comp_apply]
  split
  · rename_i hkey
    exact hkey.symm
  · rfl

theorem get?_modifyMember (key : String) (f : Value → Value) (members : List (String × Value))
    (other : String) : get? (modifyMember key f members) other =
      (get? members other).map fun value => if other = key then f value else value := by
  induction members with
  | nil => rfl
  | cons member rest ih =>
    rw [modifyMember, map_cons, get?_cons, get?_cons]
    change (if _ then _ else get? (modifyMember key f rest) other) = _
    by_cases hmember : member.1 = key
    · by_cases hother : key = other
      · simp [hmember, hother]
      · simp [hmember, hother, ih]
    · by_cases hother : member.1 = other
      · have hne : other ≠ key := fun h => hmember (hother.trans h)
        simp [hother, hne]
      · simp [hmember, hother, ih]

theorem WellFormed.modify (h : WellFormed value) (key : String) {f : Value → Value}
    (hf : ∀ value, WellFormed value → WellFormed (f value)) : WellFormed (value.modify key f) := by
  cases value with
  | object members =>
    refine .object (by rw [keys_modifyMember]; exact h.keys_nodup) fun member hmember => ?_
    obtain ⟨old, hold, rfl⟩ := mem_map.mp hmember
    split
    · exact hf old.2 (h.member old hold)
    · exact h.member old hold
  | _ => exact h

theorem WellFormed.remove (h : WellFormed value) (key : String) :
    WellFormed (value.remove key) := by
  cases value with
  | object members =>
    refine .object ?_ fun member hmember => h.member member (mem_filter.mp hmember).1
    exact h.keys_nodup.sublist (filter_sublist.map _)
  | _ => exact h

end HomelabInventory.CatalogProtocol
