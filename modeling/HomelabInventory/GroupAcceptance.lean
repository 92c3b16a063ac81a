import HomelabInventory.GroupEvaluation

/-!
# What a group accepts

The code of a finding says how serious it is, so collecting findings loses none that matters, and an
evaluation is compatible exactly when it finds nothing but warnings. For storage and for expansion
cards this comes to a condition on one group of slots.
-/

namespace HomelabInventory.Compatibility

open List

variable {rules : EvaluationRules}

/-! ## Graded findings -/

/-- How serious a finding of the code is. -/
def gradeOf (code : String) : Severity :=
  if code = "compatibility.data.missing" then .unknown
  else if code = "storage.pcie-generation.negotiated" ∨
    code = "expansion.pcie-generation.negotiated" then .warning
  else .error

/-- The findings are as serious as their codes say. -/
def Graded (findings : List CompatibilityFinding) : Prop :=
  ∀ finding ∈ findings, finding.severity = gradeOf finding.code

/-- There are warnings only. -/
def OnlyWarnings (findings : List CompatibilityFinding) : Prop :=
  ∀ finding ∈ findings, finding.severity = .warning

variable {findings others : List CompatibilityFinding} {finding : CompatibilityFinding}

theorem onlyWarnings_append :
    OnlyWarnings (findings ++ others) ↔ OnlyWarnings findings ∧ OnlyWarnings others :=
  forall_mem_append

theorem onlyWarnings_cons :
    OnlyWarnings (finding :: others) ↔ finding.severity = .warning ∧ OnlyWarnings others :=
  forall_mem_cons

theorem onlyWarnings_nil : OnlyWarnings [] := fun _ h => nomatch h

/-- A component is compatible when there are warnings only. -/
theorem statusFor_eq_compatible : statusFor findings = .compatible ↔ OnlyWarnings findings := by
  rw [statusFor]
  constructor
  · intro h finding hfinding
    split at h
    · exact nomatch h
    · rename_i herror
      split at h
      · exact nomatch h
      · rename_i hunknown
        simp only [any_eq_true, decide_eq_true_iff, not_exists, not_and] at herror hunknown
        cases hseverity : finding.severity with
        | error => exact absurd hseverity (herror finding hfinding)
        | unknown => exact absurd hseverity (hunknown finding hfinding)
        | warning => rfl
  · intro h
    have hnone : ∀ severity : Severity, severity ≠ .warning →
        ¬ findings.any (fun finding => decide (finding.severity = severity)) = true := by
      intro severity hne hany
      obtain ⟨finding, hfinding, hsame⟩ := any_eq_true.mp hany
      exact hne ((of_decide_eq_true hsame).symm.trans (h finding hfinding))
    rw [if_neg (hnone .error (by decide)), if_neg (hnone .unknown (by decide))]

theorem Graded.append (h : Graded findings) (h' : Graded others) : Graded (findings ++ others) :=
  forall_mem_append.mpr ⟨h, h'⟩

theorem graded_nil : Graded [] := fun _ h => nomatch h

theorem graded_singleton : Graded [finding] ↔ finding.severity = gradeOf finding.code :=
  forall_mem_singleton

theorem graded_missing (field message : String) (resourceId : Option ℚ) :
    Graded [missingFinding field message resourceId] :=
  graded_singleton.mpr rfl

variable {code field message : String}
variable {resourceId : Option ℚ}

theorem graded_error (h : gradeOf code = .error) :
    Graded [errorFinding code message field resourceId] :=
  graded_singleton.mpr h.symm

theorem graded_negotiated (h : gradeOf code = .warning) :
    Graded [negotiatedFinding code message field resourceId] :=
  graded_singleton.mpr h.symm

theorem Graded.cons (h : Graded [finding]) (h' : Graded others) : Graded (finding :: others) :=
  forall_mem_cons.mpr ⟨graded_singleton.mp h, h'⟩

theorem Graded.ite {p : Prop} [Decidable p] (h : Graded findings) (h' : Graded others) :
    Graded (if p then findings else others) := by
  split
  · exact h
  · exact h'

theorem graded_flatMap {α : Type} {l : List α} {f : α → List CompatibilityFinding}
    (h : ∀ x ∈ l, Graded (f x)) : Graded (l.flatMap f) := by
  intro finding hfinding
  obtain ⟨x, hx, hmem⟩ := mem_flatMap.mp hfinding
  exact h x hx finding hmem

theorem graded_map {α : Type} {l : List α} {f : α → CompatibilityFinding}
    (h : ∀ x ∈ l, Graded [f x]) : Graded (l.map f) := by
  intro finding hfinding
  obtain ⟨x, hx, rfl⟩ := mem_map.mp hfinding
  exact graded_singleton.mp (h x hx)

theorem graded_checkRecorded {α β : Type} {required : Option α} {offered : Option β}
    {requiredMissing offeredMissing : CompatibilityFinding}
    {verdict : α → β → List CompatibilityFinding} (hrequired : Graded [requiredMissing])
    (hoffered : Graded [offeredMissing]) (hverdict : ∀ a b, Graded (verdict a b)) :
    Graded (checkRecorded required offered requiredMissing offeredMissing verdict) := by
  unfold checkRecorded
  split
  · exact hrequired
  · exact hoffered
  · exact hverdict _ _

/-! ## Collecting findings -/

/-- A finding is added with its code and severity, or one like it is there. -/
theorem addFinding_cases (findings : List CompatibilityFinding) (finding : CompatibilityFinding) :
    (addFinding findings finding = findings ∧ ∃ other ∈ findings, other.code = finding.code) ∨
      ∃ classification, addFinding findings finding =
        findings ++ [{ finding with classification := classification }] := by
  rw [addFinding]
  split
  · rename_i hduplicate
    obtain ⟨other, hother, hsame⟩ := any_eq_true.mp hduplicate
    rw [Bool.and_eq_true, Bool.and_eq_true, beq_iff_eq] at hsame
    exact Or.inl ⟨rfl, other, hother, hsame.1.1⟩
  · exact Or.inr ⟨_, rfl⟩

/-- Every finding is collected, by its code, and nothing else is. -/
theorem collect_from (raw found : List CompatibilityFinding) :
    (∀ code severity, (∃ finding ∈ raw.foldl addFinding found, finding.code = code ∧
        finding.severity = severity) →
      (∃ finding ∈ found ++ raw, finding.code = code ∧ finding.severity = severity)) ∧
    ∀ finding ∈ found ++ raw, ∃ other ∈ raw.foldl addFinding found, other.code = finding.code := by
  induction raw generalizing found with
  | nil =>
    rw [foldl_nil, append_nil]
    exact ⟨fun _ _ h => h, fun finding hfinding => ⟨finding, hfinding, rfl⟩⟩
  | cons first rest ih =>
    rw [foldl_cons]
    obtain ⟨hfrom, hall⟩ := ih (addFinding found first)
    rcases addFinding_cases found first with ⟨hsame, other, hother, hcode⟩ | ⟨classification, hadd⟩
    · rw [hsame] at hfrom hall ⊢
      refine ⟨fun code severity h => ?_, fun finding hfinding => ?_⟩
      · obtain ⟨finding, hfinding, hcode⟩ := hfrom code severity h
        refine ⟨finding, ?_, hcode⟩
        rw [mem_append] at hfinding ⊢
        exact hfinding.imp_right (mem_cons_of_mem _)
      · rcases mem_append.mp hfinding with hfound | hraw
        · exact hall finding (mem_append_left _ hfound)
        · rcases mem_cons.mp hraw with rfl | hrest
          · obtain ⟨found', hfound', hcode'⟩ := hall other (mem_append_left _ hother)
            exact ⟨found', hfound', hcode'.trans hcode⟩
          · exact hall finding (mem_append_right _ hrest)
    · rw [hadd] at hfrom hall ⊢
      refine ⟨fun code severity h => ?_, fun finding hfinding => ?_⟩
      · obtain ⟨finding, hfinding, hsame⟩ := hfrom code severity h
        rw [append_assoc, mem_append, singleton_append, mem_cons] at hfinding
        rcases hfinding with hfound | rfl | hrest
        · exact ⟨finding, mem_append_left _ hfound, hsame⟩
        · exact ⟨first, mem_append_right _ mem_cons_self, hsame⟩
        · exact ⟨finding, mem_append_right _ (mem_cons_of_mem _ hrest), hsame⟩
      · rcases mem_append.mp hfinding with hfound | hraw
        · exact hall finding (mem_append_left _ (mem_append_left _ hfound))
        · rcases mem_cons.mp hraw with rfl | hrest
          · exact hall { finding with classification := classification }
              (mem_append_left _ (mem_append_right _ (mem_singleton.mpr rfl)))
          · exact hall finding (mem_append_right _ hrest)

theorem Graded.collect (h : Graded findings) : Graded (collectFindings findings) := by
  intro finding hfinding
  obtain ⟨raw, hraw, hcode, hseverity⟩ := (collect_from findings []).1 finding.code finding.severity
    ⟨finding, hfinding, rfl, rfl⟩
  rw [← hseverity, ← hcode]
  exact h raw hraw

/-- Collecting graded findings drops nothing that is not a warning. -/
theorem Graded.onlyWarnings_collect (h : Graded findings) :
    OnlyWarnings (collectFindings findings) ↔ OnlyWarnings findings := by
  constructor
  · intro hwarnings finding hfinding
    obtain ⟨other, hother, hcode⟩ := (collect_from findings []).2 finding hfinding
    rw [h finding hfinding, ← hcode, ← h.collect other hother]
    exact hwarnings other hother
  · intro hwarnings finding hfinding
    obtain ⟨raw, hraw, -, hseverity⟩ := (collect_from findings []).1 finding.code finding.severity
      ⟨finding, hfinding, rfl, rfl⟩
    rw [← hseverity]
    exact hwarnings raw hraw

/-! ## Storage -/

/-- The group lists the interface and the form factor of the storage. -/
def StorageAccepts (rules : EvaluationRules) (requirements : ComponentRequirements)
    (group : ResourceGroup) : Prop :=
  ∃ interface formFactor, requirements.interface = some interface ∧
    requirements.formFactor = some formFactor ∧
    includesNormalized rules.text group.interfaces interface = true ∧
    listsFormFactor rules formFactor group = true

variable {requirements : ComponentRequirements} {groups : List ResourceGroup}
  {group : ResourceGroup}

theorem not_onlyWarnings_missing :
    ¬ OnlyWarnings (missingFinding field message resourceId :: others) :=
  fun h => nomatch (onlyWarnings_cons.mp h).1

theorem not_onlyWarnings_error :
    ¬ OnlyWarnings (errorFinding code message field resourceId :: others) :=
  fun h => nomatch (onlyWarnings_cons.mp h).1

/-- Groups without a record leave unknown findings. -/
theorem not_onlyWarnings_map (hgroups : groups ≠ []) :
    ¬ OnlyWarnings (groups.map fun group => missingFinding field message group.id) := by
  intro h
  cases groups with
  | nil => exact hgroups rfl
  | cons first rest => exact not_onlyWarnings_missing h

theorem onlyWarnings_negotiateStorage (interface : String) :
    OnlyWarnings (negotiateStorage rules interface requirements group) := by
  unfold negotiateStorage
  split
  · split
    · exact onlyWarnings_cons.mpr ⟨rfl, onlyWarnings_nil⟩
    · exact onlyWarnings_nil
  · exact onlyWarnings_nil

/-- Storage is compatible when one of the groups accepts it. -/
theorem onlyWarnings_evaluateStorage :
    OnlyWarnings (evaluateStorage rules groups requirements) ↔
      ∃ group ∈ groups, StorageAccepts rules requirements group := by
  unfold evaluateStorage
  dsimp only
  split
  · rename_i hnil
    refine ⟨fun h => absurd h not_onlyWarnings_missing, ?_⟩
    rintro ⟨group, hgroup, -⟩
    rw [hnil] at hgroup
    exact nomatch hgroup
  · split
    · rename_i hinterface
      refine ⟨fun h => absurd h not_onlyWarnings_missing, ?_⟩
      rintro ⟨group, -, interface, formFactor, hsome, -⟩
      exact nomatch hinterface.symm.trans hsome
    · rename_i interface hinterface
      split
      · -- no group lists the interface
        rename_i hnone
        constructor
        · intro h
          split at h
          · rename_i hunknown
            exact absurd (onlyWarnings_append.mp h).1 (not_onlyWarnings_map hunknown)
          · exact absurd h not_onlyWarnings_error
        · rintro ⟨group, hgroup, interface', formFactor, hsome, -, hlists, -⟩
          obtain rfl := Option.some.inj (hinterface.symm.trans hsome)
          rw [filter_eq_nil_iff] at hnone
          exact absurd hlists (hnone group hgroup)
      · split
        · rename_i hformFactor
          rw [hformFactor, if_pos (by rfl)]
          refine ⟨fun h => absurd h not_onlyWarnings_missing, ?_⟩
          rintro ⟨group, -, interface', formFactor, -, hsome, -⟩
          exact nomatch hformFactor.symm.trans hsome
        · rename_i formFactor hformFactor
          split
          · -- no group lists the form factor
            rename_i hnone
            rw [find?_eq_none] at hnone
            constructor
            · intro h
              unfold unlistedFormFactor at h
              dsimp only at h
              split at h
              · rename_i hunknown
                exact absurd h (not_onlyWarnings_map hunknown)
              · exact absurd h not_onlyWarnings_error
            · rintro ⟨group, hgroup, interface', formFactor', hsome, hsome', hlists, hlists'⟩
              obtain rfl := Option.some.inj (hinterface.symm.trans hsome)
              obtain rfl := Option.some.inj (hformFactor.symm.trans hsome')
              refine absurd hlists' (hnone group ?_)
              rw [mem_filter]
              exact ⟨hgroup, hlists⟩
          · rename_i group hfound
            refine ⟨fun _ => ?_, fun _ => onlyWarnings_negotiateStorage interface⟩
            obtain ⟨hgroup, hlists⟩ := mem_filter.mp (mem_of_find?_eq_some hfound)
            exact ⟨group, hgroup, interface, formFactor, hinterface, hformFactor, hlists,
              find?_some hfound⟩

theorem graded_evaluateStorage : Graded (evaluateStorage rules groups requirements) := by
  have hformFactor : Graded (if requirements.formFactor.isNone = true then
      [missingFinding "component.storage.formFactor" "Storage form factor is not recorded." none]
      else []) :=
    (graded_missing _ _ _).ite graded_nil
  unfold evaluateStorage
  dsimp only
  split
  · exact graded_missing _ _ _
  · split
    · exact (graded_missing _ _ _).cons hformFactor
    · split
      · split
        · exact (graded_map fun _ _ => graded_missing _ _ _).append hformFactor
        · exact (graded_error (by decide)).cons hformFactor
      · split
        · exact hformFactor
        · split
          · unfold unlistedFormFactor
            dsimp only
            split
            · exact graded_map fun _ _ => graded_missing _ _ _
            · exact graded_error (by decide)
          · unfold negotiateStorage
            split
            · exact (graded_negotiated (by decide)).ite graded_nil
            · exact graded_nil

/-! ## Expansion cards -/

theorem graded_evaluatePcieSlot : Graded (evaluatePcieSlot rules group requirements) := by
  refine Graded.append (Graded.append (Graded.append (Graded.append ?_ ?_) ?_) ?_) ?_
  · exact graded_checkRecorded (graded_missing _ _ _) (graded_missing _ _ _) fun _ _ =>
      (graded_error (by decide)).ite graded_nil
  · exact graded_checkRecorded (graded_missing _ _ _) (graded_missing _ _ _) fun _ _ =>
      (graded_negotiated (by decide)).ite graded_nil
  · split
    · exact graded_missing _ _ _
    · split
      · exact graded_nil
      · exact (graded_error (by decide)).ite graded_nil
  · exact graded_checkRecorded (graded_missing _ _ _) (graded_missing _ _ _) fun _ _ =>
      graded_nil.ite (graded_error (by decide))
  · exact graded_checkRecorded (graded_missing _ _ _) (graded_missing _ _ _) fun _ _ =>
      (graded_error (by decide)).ite graded_nil

/-- The fields that must be the same are few. -/
theorem mem_exactFields {exact : ExactField} (h : exact ∈ exactFields requirements group) :
    exact.requirementField ∈
      ["key", "moduleSize", "usbGeneration", "connector", "ocpVersion", "interfaceKey"] := by
  unfold exactFields at h
  split at h <;> simp only [mem_cons, not_mem_nil, or_false] at h
  all_goals rcases h with rfl | rfl <;> simp

theorem graded_checkExactField {exact : ExactField} {groupId : Option ℚ}
    (h : exact ∈ exactFields requirements group) : Graded (checkExactField rules groupId exact) := by
  have hcode : gradeOf ("expansion." ++ exact.requirementField ++ ".mismatch") = .error := by
    have hall : ∀ field ∈
        ["key", "moduleSize", "usbGeneration", "connector", "ocpVersion", "interfaceKey"],
        gradeOf ("expansion." ++ field ++ ".mismatch") = .error := by decide
    exact hall _ (mem_exactFields h)
  exact graded_checkRecorded (graded_missing _ _ _) (graded_missing _ _ _) fun _ _ =>
    graded_nil.ite (graded_error hcode)

theorem graded_checkSlotPower : Graded (checkSlotPower rules group requirements) := by
  unfold checkSlotPower
  refine Graded.ite ?_ graded_nil
  exact graded_checkRecorded (graded_missing _ _ _) (graded_missing _ _ _) fun _ _ =>
    (graded_error (by decide)).ite graded_nil

theorem graded_evaluateExpansionGroup {populatedCpuSockets : ℕ} :
    Graded (evaluateExpansionGroup rules group requirements populatedCpuSockets) := by
  refine Graded.collect (Graded.append (Graded.append (Graded.append ?_ ?_) ?_)
    graded_checkSlotPower)
  · split
    · exact graded_nil
    · exact (graded_error (by decide)).ite graded_nil
  · exact graded_evaluatePcieSlot.ite graded_nil
  · exact graded_flatMap fun exact h => graded_checkExactField h

/-- The group is of the interface family of the card, and nothing but warnings is found about the
card in it: when the group has no power limit of its own, with the power budget of the host. -/
def ExpansionAccepts (rules : EvaluationRules) (capabilities : HostCapabilities)
    (requirements : ComponentRequirements) (populatedCpuSockets : ℕ) (group : ResourceGroup) :
    Prop :=
  requirements.interfaceFamily.isSome = true ∧
    group.interfaceFamily = requirements.interfaceFamily ∧
    OnlyWarnings (evaluateExpansionGroup rules (withPowerBudget capabilities group) requirements
      populatedCpuSockets)

variable {capabilities : HostCapabilities} {input : EvaluationInput}

/-- The candidate selected is one of them. -/
theorem selectCandidate_mem {candidates : List (List CompatibilityFinding × ℕ)}
    (h : candidates ≠ []) : selectCandidate candidates ∈ candidates.map (·.1) := by
  cases candidates with
  | nil => exact absurd rfl h
  | cons first rest =>
    rw [selectCandidate]
    refine mem_map_of_mem (f := Prod.fst) ?_
    clear h
    induction rest generalizing first with
    | nil => exact mem_singleton.mpr rfl
    | cons next rest ih =>
      rw [foldl_cons]
      have hmem := ih (if expansionCandidateRank next < expansionCandidateRank first then next
        else first)
      rcases mem_cons.mp hmem with heq | hrest
      · rw [heq]
        split
        · exact mem_cons_of_mem _ mem_cons_self
        · exact mem_cons_self
      · exact mem_cons_of_mem _ (mem_cons_of_mem _ hrest)

theorem graded_selectCandidate {candidates : List (List CompatibilityFinding × ℕ)}
    (h : ∀ candidate ∈ candidates, Graded candidate.1) : Graded (selectCandidate candidates) := by
  by_cases hnil : candidates = []
  · rw [hnil]
    exact graded_nil
  · obtain ⟨candidate, hcandidate, hselected⟩ := mem_map.mp (selectCandidate_mem hnil)
    exact hselected ▸ h candidate hcandidate

/-- The slots of a host with one group only accept a card when the group does. -/
theorem onlyWarnings_evaluateExpansionSlots :
    OnlyWarnings (evaluateExpansionSlots rules { capabilities with expansionSlots := [group] }
        input) ↔
      ExpansionAccepts rules capabilities input.component.requirements input.populatedCpuSockets
        group := by
  unfold evaluateExpansionSlots ExpansionAccepts
  dsimp only
  rw [if_neg (cons_ne_nil _ _)]
  cases hfamily : input.component.requirements.interfaceFamily with
  | none =>
    refine ⟨fun h => absurd h not_onlyWarnings_missing, ?_⟩
    rintro ⟨hsome, -⟩
    exact nomatch hsome
  | some interfaceFamily =>
    dsimp only
    by_cases hsame : group.interfaceFamily = some interfaceFamily
    · have hbudget : withPowerBudget { capabilities with expansionSlots := [group] } group =
          withPowerBudget capabilities group := rfl
      simp only [filter_cons, filter_nil, hsame, decide_true, if_true,
        cons_ne_nil, if_false, length_singleton, map_cons, map_nil,
        zipIdx_singleton, selectCandidate, foldl_nil, hbudget, Option.isSome_some,
        true_and]
    · have hnone : [group].filter (fun group => decide (group.interfaceFamily =
          some interfaceFamily)) = [] := by
        simp [hsame]
      rw [hnone, if_pos rfl]
      refine ⟨fun h => absurd h not_onlyWarnings_error, ?_⟩
      rintro ⟨-, heq, -⟩
      exact absurd heq hsame

theorem graded_evaluateExpansionPower : Graded (evaluateExpansionPower rules capabilities input) := by
  unfold evaluateExpansionPower
  dsimp only
  refine Graded.ite graded_nil ?_
  split
  · exact graded_missing _ _ _
  · exact ((graded_missing _ _ _).ite graded_nil).append ((graded_error (by decide)).ite graded_nil)

theorem graded_evaluateExpansionSlots : Graded (evaluateExpansionSlots rules capabilities input) := by
  unfold evaluateExpansionSlots
  dsimp only
  refine Graded.ite (graded_missing _ _ _) ?_
  split
  · exact graded_missing _ _ _
  · split
    · exact graded_error (by decide)
    · refine graded_selectCandidate fun candidate hcandidate => ?_
      obtain ⟨group, -, heq⟩ := mem_map.mp (fst_mem_of_mem_zipIdx hcandidate)
      exact heq ▸ graded_evaluateExpansionGroup

theorem graded_evaluateExpansion : Graded (evaluateExpansion rules capabilities input) :=
  graded_evaluateExpansionSlots.append graded_evaluateExpansionPower

/-! ## The whole evaluation -/

theorem graded_checkCaseDimension {field limitField code label : String} {required limit : Option ℚ}
    (hcode : gradeOf code = .error) :
    Graded (checkCaseDimension field limitField code label required limit) := by
  unfold checkCaseDimension
  split
  · exact graded_nil
  · split
    · exact graded_missing _ _ _
    · exact (graded_error hcode).ite graded_nil

theorem graded_checkCaseFormFactor {supported : List String} {formFactor : Option String}
    {supportField supportMessage field message code : String} {mismatch : String → String}
    (hcode : gradeOf code = .error) :
    Graded (checkCaseFormFactor rules supported formFactor supportField supportMessage field message
      code mismatch) :=
  graded_checkRecorded (graded_missing _ _ _) (graded_missing _ _ _) fun _ _ =>
    graded_nil.ite (graded_error hcode)

theorem graded_evaluateCaseConstraint {caseItem : Option InventoryItem}
    {component : InventoryItem} : Graded (evaluateCaseConstraint rules caseItem component) := by
  unfold evaluateCaseConstraint
  split
  · exact graded_nil
  · dsimp only
    refine Graded.ite graded_nil (Graded.append (Graded.append (Graded.append ?_ ?_) ?_) ?_)
    · exact (graded_checkCaseFormFactor (by decide)).ite graded_nil
    · exact (graded_checkCaseFormFactor (by decide)).ite graded_nil
    · refine Graded.ite (Graded.append ?_ ?_) graded_nil
      · split
        · exact graded_nil
        · split
          · exact graded_missing _ _ _
          · exact (graded_error (by decide)).ite graded_nil
      · split
        · exact graded_nil
        · exact (graded_missing _ _ _).ite (graded_nil.ite (graded_error (by decide)))
    · exact Graded.ite
        (((graded_checkCaseDimension (by decide)).append (graded_checkCaseDimension (by decide))).append
          (graded_checkCaseDimension (by decide))) graded_nil

theorem graded_caseFindings : Graded (caseFindings rules input) :=
  graded_evaluateCaseConstraint.ite graded_nil

/-- An evaluation is compatible when neither the resource nor the case is found more than warnings
about. -/
theorem statusFor_findingsWith (h : Graded (resourceFindings rules capabilities input)) :
    statusFor (findingsWith rules capabilities input) = .compatible ↔
      OnlyWarnings (resourceFindings rules capabilities input) ∧
        OnlyWarnings (caseFindings rules input) := by
  rw [statusFor_eq_compatible, findingsWith, (h.append graded_caseFindings).onlyWarnings_collect,
    onlyWarnings_append]

theorem resourceFindings_storage (h : input.component.type = .storage) :
    resourceFindings rules capabilities input =
      evaluateStorage rules capabilities.storageSlots input.component.requirements := by
  simp [resourceFindings, h]

/-- A card that no optional-module slot takes is evaluated against the expansion slots. -/
theorem resourceFindings_expansion (h : isExpansion input.component.type = true)
    (hoptional : optionalModuleGroupsFor rules.text capabilities input.component = []) :
    resourceFindings rules capabilities input = evaluateExpansion rules capabilities input := by
  have htype : input.component.type ≠ .cpu ∧ input.component.type ≠ .ram ∧
      input.component.type ≠ .storage := by
    refine ⟨?_, ?_, ?_⟩ <;>
    · intro heq
      rw [heq] at h
      exact nomatch h
  simp [resourceFindings, htype, hoptional, h]

/-! ## The assignments before a component -/

/-- The processors among the assignments. -/
def populatedCpuSockets (assignments : List ComponentAssignment) (items : InventoryItems) : ℕ :=
  ((assignedComponents assignments items none).filter fun item => item.type = .cpu).length

/-- The input of the evaluation of a component next to the assignments before it. -/
def inputOf (host component : InventoryItem) (assignments : List ComponentAssignment)
    (items : InventoryItems) (useVerifiedMemoryLimits : Bool) : EvaluationInput where
  host := host
  component := component
  assignedItemIds := assignments.map (·.itemId)
  items := items
  useVerifiedMemoryLimits := useVerifiedMemoryLimits

section

variable (host component : InventoryItem) (assignments : List ComponentAssignment)
  (items : InventoryItems) (verified : Bool)

theorem components_inputOf (other : Option InventoryItem) :
    (inputOf host component assignments items verified).components other =
      assignedComponents assignments items other := by
  rw [EvaluationInput.components, assignedComponents, inputOf, filterMap_map]
  rfl

theorem populatedCpuSockets_inputOf :
    (inputOf host component assignments items verified).populatedCpuSockets =
      populatedCpuSockets assignments items := by
  rw [EvaluationInput.populatedCpuSockets, components_inputOf, populatedCpuSockets]

/-- The capabilities of the evaluation are those of the effective host. -/
theorem capabilities_inputOf :
    (inputOf host component assignments items verified).capabilities =
      (effectiveHostForAssignment host assignments items (some component)).capabilities := by
  have hitem : (inputOf host component assignments items verified).itemOfType .motherboard =
      assignedItemOfType assignments items .motherboard (some component) := by
    rw [EvaluationInput.itemOfType, components_inputOf]
    rfl
  rw [EvaluationInput.capabilities, effectiveHostForAssignment, hitem]
  have hhost : (inputOf host component assignments items verified).host = host := rfl
  rw [hhost]
  generalize assignedItemOfType assignments items .motherboard (some component) = motherboard
  cases motherboard with
  | none => split <;> rfl
  | some motherboard => split <;> rfl

end

end HomelabInventory.Compatibility
