import HomelabInventory.Allocation

/-!
# Evaluating components against groups of slots

What the evaluation finds out about storage, expansion cards and optional modules: the groups of the
host that might take the component are tried, and the findings about the best of them are reported.
The evaluations of processors, memory, coolers and power supplies do not look at groups of slots and
are left open.
-/

namespace HomelabInventory.Compatibility

/-! ## Findings -/

/-- What `addFinding` collects. -/
def collectFindings (findings : List CompatibilityFinding) : List CompatibilityFinding :=
  findings.foldl addFinding []

/-- Something is not recorded. -/
def missingFinding (field message : String) (resourceId : Option ℚ) : CompatibilityFinding where
  code := "compatibility.data.missing"
  severity := .unknown
  classification := some .informational
  message := message
  field := some field
  resourceId := resourceId.filter fun id => id != 0

/-- Something does not fit. -/
def errorFinding (code message field : String) (resourceId : Option ℚ) : CompatibilityFinding where
  code := code
  severity := .error
  classification := none
  message := message
  field := some field
  resourceId := resourceId

/-- The hardware negotiates a lower generation. -/
def negotiatedFinding (code message field : String) (resourceId : Option ℚ) :
    CompatibilityFinding where
  code := code
  severity := .warning
  classification := none
  message := message
  field := some field
  resourceId := resourceId

/-- Compare what is required with what is offered; either may not be recorded. -/
def checkRecorded {α β : Type} (required : Option α) (offered : Option β)
    (requiredMissing offeredMissing : CompatibilityFinding)
    (verdict : α → β → List CompatibilityFinding) : List CompatibilityFinding :=
  match required, offered with
  | none, _ => [requiredMissing]
  | some _, none => [offeredMissing]
  | some required, some offered => verdict required offered

/-! ## What is left open -/

/-- What an evaluation rests on: the rules for text and numbers, the fit of module keys and USB
generations, and the evaluations that do not look at groups of slots. -/
structure EvaluationRules where
  text : TextRules
  /-- `Number.prototype.toString` -/
  numberText : ℚ → String
  moduleKeyFitsSocket : String → String → Bool
  usbGenerationAtLeast : Option String → String → Option Bool
  evaluateCpu : HostCapabilities → EvaluationInput → List CompatibilityFinding
  evaluateMemory : HostCapabilities → EvaluationInput → List CompatibilityFinding
  evaluateCpuCooler : HostCapabilities → EvaluationInput → List CompatibilityFinding
  evaluatePowerSupply : HostCapabilities → EvaluationInput → List CompatibilityFinding

variable (rules : EvaluationRules)

/-! ## Storage -/

/-- The runs of characters with a property, changed; the others stay. -/
def mapRuns (p : Char → Bool) (change : List Char → List Char) (text : List Char) : List Char :=
  (text.splitBy fun a b => p a == p b).flatMap fun run => if run.all p then change run else run

/-- The characters that `\w` matches. -/
def isWordChar (c : Char) : Bool := c.isAlphanum || c == '_'

/-- The form factors by their spellings. -/
def storageFormFactorAliases : List (String × String) :=
  [("2.5", "2.5-inch"), ("2.5-inch", "2.5-inch"), ("3.5", "3.5-inch"), ("3.5-inch", "3.5-inch"),
    ("m.2-2230", "2230"), ("m2-2230", "2230"), ("m.2-2242", "2242"), ("m2-2242", "2242"),
    ("m.2-2260", "2260"), ("m2-2260", "2260"), ("m.2-2280", "2280"), ("m2-2280", "2280"),
    ("m.2-22110", "22110"), ("m2-22110", "22110")]

/-- The name of a form factor, whichever way it is spelled. -/
def normalizeStorageFormFactor (value : Option String) : Option String :=
  (normalizedText rules.text value).map fun normalized =>
    -- quotation marks go, inches are one word, and separators are one dash
    let unquoted := normalized.toList.filter fun c => c.toNat != 34 && c.toNat != 39
    let inches := mapRuns isWordChar
      (fun word => if word = "inches".toList ∨ word = "inche".toList then "inch".toList else word)
      unquoted
    let compact := String.ofList
      (mapRuns (fun c => isSpace c || c == '_' || c == '-') (fun _ => ['-']) inches)
    (InsertionMap.get? storageFormFactorAliases compact).getD compact

/-- The group lists the form factor, by any of its names. -/
def listsFormFactor (formFactor : String) (group : ResourceGroup) : Bool :=
  group.formFactors.any fun value =>
    normalizeStorageFormFactor rules (some value) ==
      normalizeStorageFormFactor rules (some formFactor)

/-- The findings about a form factor that no group lists. -/
def unlistedFormFactor (interface formFactor : String) (interfaceGroups : List ResourceGroup) :
    List CompatibilityFinding :=
  let unknownFormFactorGroups := interfaceGroups.filter fun group => group.formFactors = []
  if unknownFormFactorGroups ≠ [] then
    unknownFormFactorGroups.map fun group =>
      missingFinding "host.storageSlots.formFactors"
        "Accepted storage form factors are not recorded for this slot group." group.id
  else
    [errorFinding "storage.form-factor.mismatch"
      ("No " ++ interface ++ " storage slot accepts the " ++ formFactor ++ " form factor.")
      "component.storage.formFactor"
      (if interfaceGroups.length = 1 then interfaceGroups.head?.bind (·.id) else none)]

/-- A drive that is faster than its slot negotiates. -/
def negotiateStorage (interface : String) (requirements : ComponentRequirements)
    (group : ResourceGroup) : List CompatibilityFinding :=
  match requirements.pcieGeneration, group.pcieGeneration with
  | some required, some offered =>
    if normalizedText rules.text (some interface) = some "nvme" ∧ offered < required then
      [negotiatedFinding "storage.pcie-generation.negotiated"
        ("PCIe " ++ rules.numberText required ++ " storage will negotiate at the slot's PCIe " ++
          rules.numberText offered ++ " generation.") "component.storage.pcieGeneration" group.id]
    else []
  | _, _ => []

/-- Evaluate storage against the storage slots of a host. -/
def evaluateStorage (groups : List ResourceGroup) (requirements : ComponentRequirements) :
    List CompatibilityFinding :=
  let formFactorMissing :=
    if requirements.formFactor.isNone then
      [missingFinding "component.storage.formFactor" "Storage form factor is not recorded." none]
    else []
  if groups = [] then
    [missingFinding "host.storageSlots" "Host storage slot capabilities are not recorded." none]
  else match requirements.interface with
    | none =>
      missingFinding "component.storage.interface" "Storage interface is not recorded." none ::
        formFactorMissing
    | some interface =>
      let interfaceGroups := groups.filter fun group =>
        includesNormalized rules.text group.interfaces interface
      if interfaceGroups = [] then
        let unknownInterfaceGroups := groups.filter fun group => group.interfaces = []
        if unknownInterfaceGroups ≠ [] then
          unknownInterfaceGroups.map (fun group =>
            missingFinding "host.storageSlots.interfaces"
              "Accepted storage interfaces are not recorded for this slot group." group.id) ++
            formFactorMissing
        else
          errorFinding "storage.interface.mismatch"
            ("No storage slot accepts the " ++ interface ++ " interface.")
            "component.storage.interface"
            (if groups.length = 1 then groups.head?.bind (·.id) else none) :: formFactorMissing
      else match requirements.formFactor with
        | none => formFactorMissing
        | some formFactor =>
          match interfaceGroups.find? (listsFormFactor rules formFactor) with
          | none => unlistedFormFactor interface formFactor interfaceGroups
          | some group => negotiateStorage rules interface requirements group

/-! ## Expansion slots -/

/-- The findings about a PCI Express card in a slot. -/
def evaluatePcieSlot (group : ResourceGroup) (requirements : ComponentRequirements) :
    List CompatibilityFinding :=
  let text := rules.numberText
  checkRecorded requirements.connectorLanes group.mechanicalLanes
      (missingFinding "component.expansion.connectorLanes" "Card connector width is not recorded."
        group.id)
      (missingFinding "host.expansionSlots.mechanicalLanes" "Slot mechanical width is not recorded."
        group.id)
      (fun required offered =>
        if offered < required then
          [errorFinding "expansion.mechanical-lanes.insufficient"
            ("The card's x" ++ text required ++ " connector does not fit the x" ++ text offered ++
              " slot.") "component.expansion.connectorLanes" group.id]
        else []) ++
    checkRecorded requirements.pcieGeneration group.pcieGeneration
      (missingFinding "component.expansion.pcieGeneration" "Card PCIe generation is not recorded."
        group.id)
      (missingFinding "host.expansionSlots.pcieGeneration" "Slot PCIe generation is not recorded."
        group.id)
      (fun required offered =>
        if offered < required then
          [negotiatedFinding "expansion.pcie-generation.negotiated"
            ("PCIe " ++ text required ++ " hardware will negotiate at PCIe " ++ text offered ++ ".")
            "component.expansion.pcieGeneration" group.id]
        else []) ++
    (match group.electricalLanes with
      | none =>
        [missingFinding "host.expansionSlots.electricalLanes"
          "Slot electrical lane count is not recorded." group.id]
      | some offered =>
        match requirements.minimumElectricalLanes with
        | none => []
        | some required =>
          if offered < required then
            [errorFinding "expansion.minimum-lanes.insufficient"
              ("The slot provides x" ++ text offered ++ ", below the card's required x" ++
                text required ++ ".") "component.expansion.minimumElectricalLanes" group.id]
          else []) ++
    checkRecorded requirements.height
      (if group.acceptedHeights = [] then none else some group.acceptedHeights)
      (missingFinding "component.expansion.height" "Card height is not recorded." group.id)
      (missingFinding "host.expansionSlots.acceptedHeights" "Accepted card heights are not recorded."
        group.id)
      (fun required offered =>
        if required ∈ offered then []
        else
          [errorFinding "expansion.height.unsupported"
            (required ++ " cards are not supported by this slot.") "component.expansion.height"
            group.id]) ++
    checkRecorded requirements.slotWidth group.maxSlotWidth
      (missingFinding "component.expansion.slotWidth" "Card occupied width is not recorded."
        group.id)
      (missingFinding "host.expansionSlots.maxSlotWidth"
        "Slot occupied-width limit is not recorded." group.id)
      (fun required offered =>
        if offered < required then
          [errorFinding "expansion.width.exceeded"
            (text required ++ "-slot hardware exceeds the " ++ text offered ++
              "-slot width limit.") "component.expansion.slotWidth" group.id]
        else [])

/-- A field of a card that must be the same as one of its slot. -/
structure ExactField where
  requirementField : String
  required : Option String
  groupField : String
  offered : Option String
  label : String

/-- The fields that must be the same in an interface family. -/
def exactFields (requirements : ComponentRequirements) (group : ResourceGroup) : List ExactField :=
  match requirements.interfaceFamily with
  | some "m2-ae" | some "m2-bm" =>
    [⟨"key", requirements.key, "keying", group.keying, "M.2 key"⟩,
      ⟨"moduleSize", requirements.moduleSize, "moduleSize", group.moduleSize, "module size"⟩]
  | some "usb" =>
    [⟨"usbGeneration", requirements.usbGeneration, "usbGeneration", group.usbGeneration,
        "USB generation"⟩,
      ⟨"connector", requirements.connector, "connector", group.connector, "USB connector"⟩]
  | some "ocp" =>
    [⟨"ocpVersion", requirements.ocpVersion, "ocpVersion", group.ocpVersion, "OCP version"⟩]
  | some "mezzanine" =>
    [⟨"interfaceKey", requirements.interfaceKey, "interfaceKey", group.interfaceKey,
      "mezzanine interface"⟩]
  | some "proprietary" =>
    [⟨"interfaceKey", requirements.interfaceKey, "interfaceKey", group.interfaceKey,
      "proprietary interface"⟩]
  | _ => []

/-- The findings about a field that must be the same. -/
def checkExactField (groupId : Option ℚ) (exact : ExactField) : List CompatibilityFinding :=
  checkRecorded exact.required (exact.offered.filter fun value => value != "")
    (missingFinding ("component.expansion." ++ exact.requirementField)
      (exact.label ++ " is not recorded.") groupId)
    (missingFinding ("host.expansionSlots." ++ exact.groupField)
      ("Host " ++ exact.label ++ " support is not recorded.") groupId)
    (fun required offered =>
      if normalizedText rules.text (some required) = normalizedText rules.text (some offered) then []
      else
        [errorFinding ("expansion." ++ exact.requirementField ++ ".mismatch")
          (required ++ " does not match the slot's " ++ offered ++ " " ++ exact.label ++ ".")
          ("component.expansion." ++ exact.requirementField) groupId])

/-- The findings about the power a card draws from its slot. -/
def checkSlotPower (group : ResourceGroup) (requirements : ComponentRequirements) :
    List CompatibilityFinding :=
  if requirements.interfaceFamily = some "pcie" ∨ requirements.powerWatts.isSome ∨
      group.maxPowerWatts.isSome then
    checkRecorded requirements.powerWatts group.maxPowerWatts
      (missingFinding "component.expansion.powerWatts"
        "Expansion-card power draw is not recorded." group.id)
      (missingFinding "host.expansionSlots.maxPowerWatts" "Per-slot power limit is not recorded."
        group.id)
      (fun required offered =>
        if offered < required then
          [errorFinding "expansion.slot-power.exceeded"
            (rules.numberText required ++ "W card draw exceeds the slot limit of " ++
              rules.numberText offered ++ "W.") "component.expansion.powerWatts" group.id]
        else [])
  else []

/-- Evaluate a card against a group of expansion slots. -/
def evaluateExpansionGroup (group : ResourceGroup) (requirements : ComponentRequirements)
    (populatedCpuSockets : ℕ) : List CompatibilityFinding :=
  collectFindings <|
    (match group.requiredCpuSockets with
      | none => []
      | some required =>
        if isSafeInteger required ∧ (populatedCpuSockets : ℚ) < required then
          [errorFinding "expansion.cpu-population.insufficient"
            (group.label.getD "This expansion slot" ++ " requires " ++ rules.numberText required ++
              " populated CPU sockets.") "host.expansionSlots.requiredCpuSockets" group.id]
        else []) ++
    (if requirements.interfaceFamily = some "pcie" then evaluatePcieSlot rules group requirements
      else []) ++
    (exactFields requirements group).flatMap (checkExactField rules group.id) ++
    checkSlotPower rules group requirements

/-! ## The best candidate -/

/-- The rank of a candidate: free of findings, free of errors, or neither; then the numbers of errors
and of unknowns, then its place. -/
def expansionCandidateRank (candidate : List CompatibilityFinding × ℕ) : List ℕ :=
  let errors := (candidate.1.filter fun finding => finding.severity = .error).length
  let unknowns := (candidate.1.filter fun finding => finding.severity = .unknown).length
  let category := if errors = 0 ∧ unknowns = 0 then 0 else if errors = 0 then 1 else 2
  [category, errors, unknowns, candidate.2]

/-- The candidate of the lowest rank. -/
def selectCandidate : List (List CompatibilityFinding × ℕ) → List CompatibilityFinding
  | [] => []
  | first :: rest =>
    (rest.foldl (fun best candidate =>
      if expansionCandidateRank candidate < expansionCandidateRank best then candidate else best)
      first).1

/-! ## Components of a host -/

/-- The components that an evaluation reads, each once. -/
def EvaluationInput.components (input : EvaluationInput) (component : Option InventoryItem) :
    List InventoryItem :=
  let assigned := (input.assignedItemIds.filterMap (itemLookup input.items)) ++ component.toList
  (InsertionMap.ofEntries (assigned.map fun item => (item.identity, item))).map (·.2)

/-- The first of these components of a kind, with the evaluated one. -/
def EvaluationInput.itemOfType (input : EvaluationInput) (type : InventoryType) :
    Option InventoryItem :=
  (input.components (some input.component)).find? fun item => item.type = type

/-- What the host offers: a PC build offers what its motherboard offers. -/
def EvaluationInput.capabilities (input : EvaluationInput) : HostCapabilities :=
  if input.host.type ≠ .pcBuild then input.host.capabilities
  else match input.itemOfType .motherboard with
    | none => input.host.capabilities
    | some motherboard => motherboard.capabilities

/-! ## Expansion cards -/

/-- The findings about the power of all the expansion cards of a host. -/
def evaluateExpansionPower (capabilities : HostCapabilities) (input : EvaluationInput) :
    List CompatibilityFinding :=
  let powerRequirements := (((input.components (some input.component)).filter fun item =>
      isExpansion item.type).map (·.requirements)).filter fun requirements =>
        requirements.interfaceFamily = some "pcie" ∨ requirements.powerWatts.isSome
  let knownPower := powerRequirements.filterMap (·.powerWatts)
  if powerRequirements = [] then []
  else match capabilities.maxExpansionPowerWatts with
    | none =>
      [missingFinding "host.maxExpansionPowerWatts"
        "Host expansion power budget is not recorded." none]
    | some budget =>
      (if knownPower.length ≠ powerRequirements.length then
        [missingFinding "host.expansionPowerAssignments.powerWatts"
          "Power draw is missing for assigned expansion hardware." none]
      else []) ++
      (if budget < knownPower.sum then
        [errorFinding "expansion.total-power.exceeded"
          (rules.numberText knownPower.sum ++ "W known expansion draw exceeds the host budget of " ++
            rules.numberText budget ++ "W.") "host.maxExpansionPowerWatts" none]
      else [])

/-- The only group of an interface has the power budget of the host, when no limit of its own. -/
def withPowerBudget (capabilities : HostCapabilities) (group : ResourceGroup) : ResourceGroup :=
  { group with maxPowerWatts := group.maxPowerWatts <|> capabilities.maxExpansionPowerWatts }

/-- The processors among the components before the evaluated one. -/
def EvaluationInput.populatedCpuSockets (input : EvaluationInput) : ℕ :=
  ((input.components none).filter fun item => item.type = .cpu).length

/-- The findings about the expansion slots of a host for a card. -/
def evaluateExpansionSlots (capabilities : HostCapabilities) (input : EvaluationInput) :
    List CompatibilityFinding :=
  let requirements := input.component.requirements
  if capabilities.expansionSlots = [] then
    [missingFinding "host.expansionSlots" "Host expansion slot capabilities are not recorded." none]
  else match requirements.interfaceFamily with
    | none =>
      [missingFinding "component.expansion.interfaceFamily"
        "Expansion interface family is not recorded." none]
    | some interfaceFamily =>
      let matchingGroups := capabilities.expansionSlots.filter fun group =>
        group.interfaceFamily = some interfaceFamily
      if matchingGroups = [] then
        [errorFinding "expansion.interface.mismatch"
          ("No expansion slot accepts the " ++ interfaceFamily ++ " interface.")
          "component.expansion.interfaceFamily" none]
      else
        selectCandidate ((matchingGroups.map fun group =>
          evaluateExpansionGroup rules
            (if matchingGroups.length = 1 then withPowerBudget capabilities group else group)
            requirements input.populatedCpuSockets).zipIdx)

/-- Evaluate an expansion card. -/
def evaluateExpansion (capabilities : HostCapabilities) (input : EvaluationInput) :
    List CompatibilityFinding :=
  evaluateExpansionSlots rules capabilities input ++ evaluateExpansionPower rules capabilities input

/-! ## Optional modules -/

/-- The findings about a bus that a module needs. -/
def evaluateRequiredBus (group : ResourceGroup) (requirement : BusRequirement) :
    List CompatibilityFinding :=
  let field := "host.optionalModuleSlots.availableBuses"
  match group.availableBuses with
  | none =>
    [missingFinding field ("The slot's " ++ requirement.family.toUpper ++
      " bus availability is not recorded.") group.id]
  | some buses =>
    match buses.find? fun bus => normalizedText rules.text (some bus.family) ==
        normalizedText rules.text (some requirement.family) with
    | none =>
      [errorFinding "optional-module.bus.missing" ("The slot does not expose the required " ++
        requirement.family.toUpper ++ " bus.") field group.id]
    | some bus =>
      if requirement.family = "pcie" then
        (match requirement.minimumLanes with
          | none => []
          | some minimum =>
            match bus.lanes with
            | none =>
              [missingFinding (field ++ ".lanes")
                "PCIe lane evidence is not recorded for this slot." group.id]
            | some lanes =>
              if lanes < minimum then
                [errorFinding "optional-module.bus.pcie-lanes.insufficient"
                  ("The slot provides x" ++ rules.numberText lanes ++
                    ", below the module's required x" ++ rules.numberText minimum ++ ".")
                  (field ++ ".lanes") group.id]
              else []) ++
        (match requirement.minimumPcieGeneration with
          | none => []
          | some minimum =>
            match bus.pcieGeneration with
            | none =>
              [missingFinding (field ++ ".pcieGeneration")
                "PCIe generation evidence is not recorded for this slot." group.id]
            | some generation =>
              if generation < minimum then
                [errorFinding "optional-module.bus.pcie-generation.insufficient"
                  ("The slot provides PCIe Gen" ++ rules.numberText generation ++
                    ", below the module's required Gen" ++ rules.numberText minimum ++ ".")
                  (field ++ ".pcieGeneration") group.id]
              else [])
      else match requirement.minimumUsbGeneration with
        | none => []
        | some minimum =>
          match rules.usbGenerationAtLeast bus.usbGeneration minimum with
          | none =>
            [missingFinding (field ++ ".usbGeneration")
              "USB generation evidence is not recorded for this slot." group.id]
          | some true => []
          | some false =>
            [errorFinding "optional-module.bus.usb-generation.insufficient"
              ("The slot provides " ++ bus.usbGeneration.getD "undefined" ++
                ", below the module's required " ++ minimum ++ ".")
              (field ++ ".usbGeneration") group.id]

/-- Evaluate a module against a group of optional-module slots. -/
def evaluateOptionalModuleGroup (group : ResourceGroup) (requirements : ComponentRequirements) :
    List CompatibilityFinding :=
  let socketKeys := optionalStringArray group.socketKeys
  let moduleSizes := optionalStringArray group.moduleSizes
  collectFindings <|
    (match requirements.key with
      | none => []
      | some key =>
        if socketKeys = [] then
          [missingFinding "host.optionalModuleSlots.socketKeys"
            "Physical socket keying is not recorded for this slot." group.id]
        else if socketKeys.any (rules.moduleKeyFitsSocket key) then []
        else
          [errorFinding "optional-module.socket-key.mismatch"
            ("The " ++ key ++ " module key does not fit this socket.")
            "host.optionalModuleSlots.socketKeys" group.id]) ++
    (match requirements.moduleSize with
      | none => []
      | some moduleSize =>
        if moduleSizes = [] then
          [missingFinding "host.optionalModuleSlots.moduleSizes"
            "Supported module sizes are not recorded for this slot." group.id]
        else if includesNormalized rules.text moduleSizes moduleSize then []
        else
          [errorFinding "optional-module.module-size.mismatch"
            ("The " ++ moduleSize ++ " module size does not fit this slot.")
            "host.optionalModuleSlots.moduleSizes" group.id]) ++
    requirements.requiredBuses.flatMap (evaluateRequiredBus rules group)

/-- Evaluate an optional module. -/
def evaluateOptionalModule (capabilities : HostCapabilities) (component : InventoryItem) :
    List CompatibilityFinding :=
  let kinds := optionalModuleKinds rules.text component
  let groups := validResourceGroups capabilities.optionalModuleSlots
  let physicalGroups := optionalModuleGroupsFor rules.text capabilities component
  if groups = [] then
    [missingFinding "host.optionalModuleSlots"
      "Host optional module capabilities are not recorded." none]
  else if physicalGroups ≠ [] ∧ component.requirements.interfaceFamily.isSome then
    selectCandidate ((physicalGroups.map fun group =>
      evaluateOptionalModuleGroup rules group component.requirements).zipIdx)
  else if groups.any (fun group =>
      (optionalStringArray group.acceptedModuleKinds).any fun kind => kind ∈ kinds) then []
  else
    [errorFinding "optional-module.kind.mismatch"
      ("No optional module slot accepts " ++ String.intercalate " or " kinds ++ ".")
      "host.optionalModuleSlots.acceptedModuleKinds" none]

/-! ## Cases -/

/-- A dimension of an expansion card that a case limits. -/
def checkCaseDimension (field limitField code label : String) (required limit : Option ℚ) :
    List CompatibilityFinding :=
  match required with
  | none => []
  | some required =>
    match limit with
    | none =>
      [missingFinding ("case." ++ limitField)
        ("Case expansion " ++ label ++ " limit is not recorded.") none]
    | some limit =>
      if limit < required then
        [errorFinding code ("Expansion-card " ++ label ++ " exceeds the case limit.")
          ("component.expansion." ++ field) none]
      else []

/-- A form factor that a case must support. -/
def checkCaseFormFactor (supported : List String) (formFactor : Option String)
    (supportField supportMessage field message code : String) (mismatch : String → String) :
    List CompatibilityFinding :=
  checkRecorded (if supported = [] then none else some supported) formFactor
    (missingFinding supportField supportMessage none) (missingFinding field message none)
    (fun supported formFactor =>
      if includesNormalized rules.text supported formFactor then []
      else [errorFinding code (mismatch formFactor) field none])

/-- Evaluate a component against the case of a PC build. -/
def evaluateCaseConstraint (caseItem : Option InventoryItem) (component : InventoryItem) :
    List CompatibilityFinding :=
  match caseItem with
  | none => []
  | some caseItem =>
    let requirements := component.requirements
    let limits := caseItem.caseLimits
    if component.type = .case then []
    else
      (if component.type = .motherboard then
        checkCaseFormFactor rules limits.supportedMotherboardFormFactors requirements.formFactor
          "case.supportedMotherboardFormFactors"
          "Case motherboard form-factor support is not recorded."
          "component.motherboard.formFactor" "Motherboard form factor is not recorded."
          "case.motherboard-form-factor.mismatch"
          (fun formFactor => formFactor ++ " motherboards are not supported by this case.")
      else []) ++
      (if component.type = .powerSupply then
        checkCaseFormFactor rules limits.supportedPsuFormFactors requirements.formFactor
          "case.supportedPsuFormFactors" "Case power-supply form-factor support is not recorded."
          "component.powerSupply.formFactor" "Power-supply form factor is not recorded."
          "case.psu-form-factor.mismatch"
          (fun formFactor => formFactor ++ " power supplies are not supported by this case.")
      else []) ++
      (if component.type = .cpuCooler then
        (match requirements.heightMm with
          | none => []
          | some height =>
            match limits.maxCoolerHeightMm with
            | none =>
              [missingFinding "case.maxCoolerHeightMm"
                "Case CPU cooler height limit is not recorded." none]
            | some limit =>
              if limit < height then
                [errorFinding "case.cooler-height.exceeded"
                  (rules.numberText height ++ "mm cooler height exceeds the case limit of " ++
                    rules.numberText limit ++ "mm.") "component.cooling.heightMm" none]
              else []) ++
        (match requirements.radiatorSizeMm with
          | none => []
          | some size =>
            if limits.supportedRadiatorSizesMm = [] then
              [missingFinding "case.supportedRadiatorSizesMm"
                "Case radiator support is not recorded." none]
            else if size ∈ limits.supportedRadiatorSizesMm then []
            else
              [errorFinding "case.radiator-size.unsupported"
                (rules.numberText size ++ "mm radiators are not supported by this case.")
                "component.cooling.radiatorSizeMm" none])
      else []) ++
      (if isExpansion component.type then
        checkCaseDimension "lengthMm" "maxExpansionLengthMm" "case.expansion-length.exceeded" "length"
          requirements.lengthMm limits.maxExpansionLengthMm ++
        checkCaseDimension "heightMm" "maxExpansionHeightMm" "case.expansion-height.exceeded" "height"
          requirements.heightMm limits.maxExpansionHeightMm ++
        checkCaseDimension "slotWidth" "maxExpansionSlotWidth" "case.expansion-width.exceeded"
          "slot width" requirements.slotWidth limits.maxExpansionSlotWidth
      else [])

/-! ## The evaluation -/

/-- The findings about the resource that a component needs. -/
def resourceFindings (capabilities : HostCapabilities) (input : EvaluationInput) :
    List CompatibilityFinding :=
  let component := input.component
  if component.type = .cpu then rules.evaluateCpu capabilities input
  else if component.type = .ram then rules.evaluateMemory capabilities input
  else if component.type = .storage then
    evaluateStorage rules capabilities.storageSlots component.requirements
  else if optionalModuleGroupsFor rules.text capabilities component ≠ [] then
    evaluateOptionalModule rules capabilities component
  else if isExpansion component.type then evaluateExpansion rules capabilities input
  else if component.type = .cpuCooler ∧ input.host.type = .pcBuild then
    rules.evaluateCpuCooler capabilities input
  else if component.type = .powerSupply ∧ input.host.type = .pcBuild then
    rules.evaluatePowerSupply capabilities input
  else []

/-- The findings about the case of a PC build. -/
def caseFindings (input : EvaluationInput) : List CompatibilityFinding :=
  if input.host.type = .pcBuild then
    evaluateCaseConstraint rules (input.itemOfType .case) input.component
  else []

/-- The findings about a component on a host that offers something. -/
def findingsWith (capabilities : HostCapabilities) (input : EvaluationInput) :
    List CompatibilityFinding :=
  collectFindings (resourceFindings rules capabilities input ++ caseFindings rules input)

/-- The evaluation of a component. -/
def evaluationOf : Evaluation := fun input => findingsWith rules input.capabilities input

end HomelabInventory.Compatibility
