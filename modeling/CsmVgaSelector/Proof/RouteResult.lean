import CsmVgaSelector.Proof.BridgePath
import CsmVgaSelector.Proof.Route
import CsmVgaSelector.Route.Classify
import Mathlib.Data.List.Pairwise

/-!
# The result of a route

A route that is applied writes each bridge of the plan once and reads it back, so that when it succeeds
the registers are those of `routedControl`: cleared on the active path, set on the two parts of the
target's, and untouched elsewhere. With the split that `buildAndClassifyPaths` makes, that is the route
to the target and no other (`route_result`).
-/

namespace CsmVgaSelector

variable {s s' start : RouteState} {path : BridgePath} {index : Nat}

/-! ### What an apply keeps of its plan -/

/-- What a bridge's marks do not change. -/
def PlanBridge.place (bridge : PlanBridge) : PciAddress × UInt16 :=
  (bridge.record, bridge.originalBridgeControl)

/-- The plan is the one the apply started with, but for its marks. -/
structure SamePlan (plan plan' : RuntimePlan) : Prop where
  ioDecoding : plan'.ioDecoding = plan.ioDecoding
  memoryDecoding : plan'.memoryDecoding = plan.memoryDecoding
  busMastering : plan'.busMastering = plan.busMastering
  target : plan'.target = plan.target
  places : ∀ path, (plan'.bridges path).map PlanBridge.place =
    (plan.bridges path).map PlanBridge.place

namespace SamePlan

variable {plan plan' : RuntimePlan}

theorem refl (plan : RuntimePlan) : SamePlan plan plan := ⟨rfl, rfl, rfl, rfl, fun _ => rfl⟩

theorem map_modify {bridges : List PlanBridge} {f : PlanBridge → PlanBridge}
    (hf : ∀ bridge, (f bridge).place = bridge.place) :
    (bridges.modify index f).map PlanBridge.place = bridges.map PlanBridge.place := by
  apply List.ext_getElem?
  intro other
  rw [List.getElem?_map, List.getElem?_map, List.getElem?_modify]
  cases bridges[other]? with
  | none => rfl
  | some bridge =>
      by_cases hsame : index = other
      · simp [hsame, hf]
      · simp [hsame]

theorem modifyBridge {f : PlanBridge → PlanBridge} (h : SamePlan plan plan')
    (hf : ∀ bridge, (f bridge).place = bridge.place) :
    SamePlan plan (plan'.modifyBridge path index f) := by
  have hplaces : ∀ path', ((plan'.modifyBridge path index f).bridges path').map PlanBridge.place =
      (plan'.bridges path').map PlanBridge.place := by
    intro path'
    cases path <;> cases path' <;>
      simp [RuntimePlan.modifyBridge, RuntimePlan.bridges, map_modify hf]
  obtain ⟨hio, hmemory, hbus, htarget, hsame⟩ := h
  cases path <;> exact ⟨hio, hmemory, hbus, htarget, fun path' => (hplaces path').trans (hsame path')⟩

theorem withMarks {attempted applied dirty : Bool} (h : SamePlan plan plan') :
    SamePlan plan (plan'.withMarks attempted applied dirty) := by
  refine ⟨h.ioDecoding, h.memoryDecoding, h.busMastering, h.target, fun path => ?_⟩
  rw [RuntimePlan.bridges_withMarks]
  exact h.places path

theorem length_eq (h : SamePlan plan plan') :
    (plan'.bridges path).length = (plan.bridges path).length := by
  have hlength := congrArg List.length (h.places path)
  rwa [List.length_map, List.length_map] at hlength

theorem place_eq (h : SamePlan plan plan') (hindex : index < (plan.bridges path).length) :
    ((plan'.bridges path)[index]!).place = ((plan.bridges path)[index]!).place := by
  have hindex' : index < (plan'.bridges path).length := h.length_eq ▸ hindex
  rw [getElem!_pos (plan.bridges path) index hindex, getElem!_pos (plan'.bridges path) index hindex']
  have hplace : ((plan'.bridges path).map PlanBridge.place)[index]? =
      ((plan.bridges path).map PlanBridge.place)[index]? := by
    rw [h.places path]
  simpa [hindex, hindex'] using hplace

end SamePlan

/-! ### The registers of one path -/

/-- The addresses of the bridges that are not skipped. -/
def writtenAddresses (skips : UInt16 → Bool) (bridges : List PlanBridge) : List PciAddress :=
  (bridges.filter fun bridge => !skips bridge.originalBridgeControl).map PlanBridge.record

/-- The registers with the request of each address. -/
def requestAt (request : UInt16 → UInt16) (addresses : List PciAddress)
    (original registers : PciAddress → UInt16) (address : PciAddress) : UInt16 :=
  if address ∈ addresses then request (original address) else registers address

/-- An apply that has got so far, with its registers. -/
structure Applying (start s : RouteState) (registers : PciAddress → UInt16) : Prop where
  plan : SamePlan start.plan s.plan
  command : s.command = start.command
  registers : s.bridgeControl = registers

variable {registers : PciAddress → UInt16}

theorem Applying.markBridge {f : PlanBridge → PlanBridge} (h : Applying start s registers)
    (hf : ∀ bridge, (f bridge).place = bridge.place) :
    Applying start
      { s with plan := { s.plan.modifyBridge path index f with routeDirty := true } } registers :=
  ⟨(h.plan.modifyBridge hf).withMarks, h.command, h.registers⟩

/-- A step that succeeds has read its request back. -/
theorem wp_routeBridgeStep_result {bridge : PlanBridge} {requested : UInt16}
    (h : Applying start s registers) :
    (routeBridgeStep bridge requested).Wp (fun _ => True) (fun applied s' => applied = true →
      Applying start s' (Function.update registers bridge.record requested)) s := by
  unfold routeBridgeStep writeBridgeControlRegister
  simp only [Prog.wp_bind, Prog.wp_call, Prog.wp_modify, Prog.wp_pure, Prog.wp_lift]
  intro answer _
  refine wp_readRegister (fun status value herror => ?_) fun status _ => ?_
  · simp [herror]
  · simp only [Bool.and_eq_true, beq_iff_eq, Function.update_self]
    rintro ⟨-, hread⟩
    refine ⟨h.plan, h.command, ?_⟩
    show Function.update s.bridgeControl bridge.record _ = _
    rw [hread, h.registers]

theorem wp_applyBridge_result {requested : UInt16} (h : Applying start s registers)
    (hindex : index < (start.plan.bridges path).length) :
    (applyBridge path index requested).Wp (fun _ => True) (fun applied s' => applied = true →
      Applying start s' (Function.update registers
        ((start.plan.bridges path)[index]!).record requested)) s := by
  have hrecord : ((s.plan.bridges path)[index]!).record =
      ((start.plan.bridges path)[index]!).record :=
    congrArg Prod.fst (h.plan.place_eq hindex)
  unfold applyBridge
  refine .bind_get ?_
  refine Prog.Wp.bind (P := fun _ s₁ => Applying start s₁ registers)
    (h.markBridge fun _ => rfl) fun _ s₁ h₁ => ?_
  refine Prog.Wp.bind (wp_routeBridgeStep_result h₁) fun applied s₂ h₂ => ?_
  refine .ite (fun _ => .pure (by simp)) fun happlied => ?_
  rw [← hrecord]
  exact fun _ => (h₂ (by simpa using happlied)).markBridge fun _ => rfl

/-- The captured originals are what the registers held. -/
def OriginalsHeld (start : RouteState) (path : BridgePath) : Prop :=
  ∀ bridge ∈ start.plan.bridges path,
    start.bridgeControl bridge.record = bridge.originalBridgeControl

theorem requestAt_cons {request : UInt16 → UInt16} {addresses : List PciAddress}
    {original : PciAddress → UInt16} {address : PciAddress} :
    requestAt request addresses original
        (Function.update registers address (request (original address))) =
      requestAt request (address :: addresses) original registers := by
  funext other
  unfold requestAt
  by_cases hmem : other ∈ addresses
  · rw [if_pos hmem, if_pos (List.mem_cons_of_mem _ hmem)]
  · rw [if_neg hmem]
    by_cases hsame : other = address
    · subst hsame
      rw [Function.update_self, if_pos (List.mem_cons_self ..)]
    · rw [Function.update_of_ne hsame, if_neg (by simp [hsame, hmem])]

theorem wp_applyBridges_result {request : UInt16 → UInt16} {skips : UInt16 → Bool} {rows : List Nat}
    (horiginals : OriginalsHeld start path) (h : Applying start s registers)
    (hrows : ∀ index ∈ rows, index < (start.plan.bridges path).length) :
    (applyBridges path request skips rows).Wp (fun _ => True) (fun applied s' => applied = true →
      Applying start s' (requestAt request
        (writtenAddresses skips (rows.map ((start.plan.bridges path)[·]!))) start.bridgeControl
          registers)) s := by
  induction rows generalizing s registers with
  | nil => exact fun _ => h
  | cons index rest ih =>
      have hrest : ∀ other ∈ rest, other < (start.plan.bridges path).length :=
        fun other hother => hrows other (List.mem_cons_of_mem _ hother)
      have hindex := hrows index (List.mem_cons_self ..)
      have hplace := h.plan.place_eq hindex
      have horiginal : ((s.plan.bridges path)[index]!).originalBridgeControl =
          ((start.plan.bridges path)[index]!).originalBridgeControl := congrArg Prod.snd hplace
      have hheld : start.bridgeControl ((start.plan.bridges path)[index]!).record =
          ((start.plan.bridges path)[index]!).originalBridgeControl :=
        horiginals _ (by simp [hindex])
      unfold applyBridges
      rw [List.map_cons]
      refine .bind_get (.ite (fun hskips => ?_) fun hwritten => ?_)
      · rw [horiginal] at hskips
        rw [writtenAddresses, List.filter_cons_of_neg (by simpa using hskips)]
        exact ih h hrest
      · rw [horiginal] at hwritten ⊢
        rw [writtenAddresses, List.filter_cons_of_pos (by simpa using hwritten), List.map_cons,
          ← writtenAddresses, ← requestAt_cons, hheld]
        refine Prog.Wp.bind (wp_applyBridge_result h hindex) fun applied s₁ h₁ => ?_
        refine .ite (fun _ => .pure (by simp)) fun happlied => ?_
        exact ih (h₁ (by simpa using happlied)) hrest

/-- The registers after a whole path. -/
theorem wp_applyPath_result {request : UInt16 → UInt16} {skips : UInt16 → Bool}
    (horiginals : OriginalsHeld start path) (h : Applying start s registers) :
    (applyBridges path request skips (indices (s.plan.bridges path))).Wp (fun _ => True)
      (fun applied s' => applied = true → Applying start s' (requestAt request
        (writtenAddresses skips (start.plan.bridges path)) start.bridgeControl registers)) s := by
  have hrows : indices (s.plan.bridges path) = List.range (start.plan.bridges path).length := by
    rw [indices, h.plan.length_eq]
  have hbridges : (List.range (start.plan.bridges path).length).map
      ((start.plan.bridges path)[·]!) = start.plan.bridges path := by
    refine List.ext_getElem (by simp) fun index hindex hindex' => ?_
    simp [hindex']
  have hwp := @wp_applyBridges_result s start path registers request skips
    (List.range (start.plan.bridges path).length) horiginals h
    fun index hindex => List.mem_range.mp hindex
  rw [hbridges] at hwp
  rw [hrows]
  exact hwp

/-! ### The whole apply -/

def vgaSet (original : UInt16) : UInt16 := original ||| pciBridgeVgaEnable

def vgaCleared (original : UInt16) : UInt16 := original &&& ~~~pciBridgeVgaEnable

/-- The bridge-control registers that a route leaves. -/
def routedControl (plan : RuntimePlan) (original : PciAddress → UInt16) : PciAddress → UInt16 :=
  requestAt vgaSet (writtenAddresses (fun _ => false) plan.targetExclusivePath) original
    (requestAt vgaSet (writtenAddresses (fun control => vgaSet control == control) plan.sharedPath)
      original
      (requestAt vgaCleared (writtenAddresses (fun _ => false) plan.activeExclusivePath) original
        original))

theorem SamePlan.commandAccepted {plan plan' : RuntimePlan} (h : SamePlan plan plan') :
    commandAccepted plan' = commandAccepted plan := by
  funext command
  simp only [CsmVgaSelector.commandAccepted, requiredAttributes, h.ioDecoding, h.memoryDecoding,
    h.busMastering, h.target]

theorem wp_applyEndpoint_result (h : Applying start s registers) :
    applyEndpoint.Wp (fun _ => True) (fun applied s' => applied = true →
      s'.bridgeControl = registers ∧ ∃ command, commandAccepted start.plan command = true ∧
        s'.command = Function.update start.command start.plan.target.address command) s := by
  unfold applyEndpoint writeCommand updatePlan
  simp only [Prog.wp_bind, Prog.wp_get, Prog.wp_call, Prog.wp_modify, Prog.wp_pure, Prog.wp_lift]
  intro answer _
  refine wp_readRegister (fun status value herror => ?_) fun status _ => ?_
  · simp [herror]
  · simp only [Bool.and_eq_true, h.plan.commandAccepted, Function.update_self]
    rintro ⟨-, haccepted⟩
    refine ⟨h.registers, _, haccepted, ?_⟩
    rw [h.command, h.plan.target]

theorem wp_routeApply_result (horiginals : ∀ path, OriginalsHeld start path) :
    routeApply.Wp (fun _ => True) (fun applied s' => applied = true →
      s'.bridgeControl = routedControl start.plan start.bridgeControl ∧
      ∃ command, commandAccepted start.plan command = true ∧
        s'.command = Function.update start.command start.plan.target.address command) start := by
  have hstart : Applying start start start.bridgeControl := ⟨.refl _, rfl, rfl⟩
  unfold routeApply applyActiveExclusive applyShared applyTargetExclusive
  refine Prog.Wp.bind (.bind_get (wp_applyPath_result (horiginals .activeExclusive) hstart))
    fun applied s₁ h₁ => ?_
  refine .ite (fun _ => .pure (by simp)) fun happlied => ?_
  have h₁ := h₁ (by simpa using happlied)
  refine Prog.Wp.bind (.bind_get (wp_applyPath_result (horiginals .shared) h₁))
    fun applied s₂ h₂ => ?_
  refine .ite (fun _ => .pure (by simp)) fun happlied => ?_
  have h₂ := h₂ (by simpa using happlied)
  refine Prog.Wp.bind (.bind_get (wp_applyPath_result (horiginals .targetExclusive) h₂))
    fun applied s₃ h₃ => ?_
  refine .ite (fun _ => .pure (by simp)) fun happlied => ?_
  exact wp_applyEndpoint_result (h₃ (by simpa using happlied))

/-! ### The split of the paths -/

variable {inventory : PciInventory} {active target : PciDeviceRecord} {paths : ClassifiedPaths}

/-- The firmware has one handle for a PCI function. -/
def LocationsDistinct (inventory : PciInventory) : Prop :=
  inventory.Pairwise fun record record' => recordLocationIsValid record = true →
    recordLocationIsValid record' = true → record.address ≠ record'.address

theorem LocationsDistinct.eq_of_address (h : LocationsDistinct inventory)
    {record record' : PciDeviceRecord} (hmem : record ∈ inventory) (hmem' : record' ∈ inventory)
    (hvalid : recordLocationIsValid record = true) (hvalid' : recordLocationIsValid record' = true)
    (haddress : record.address = record'.address) : record = record' := by
  by_contra hne
  have hsymm : Std.Symm fun record record' : PciDeviceRecord =>
      recordLocationIsValid record = true → recordLocationIsValid record' = true →
        record.address ≠ record'.address :=
    ⟨fun _ _ hne hvalid' hvalid => (hne hvalid hvalid').symm⟩
  exact h.forall hmem hmem' hne hvalid hvalid' haddress

/-- The bridges of a journalled path are those of a validated one. -/
def Journals (inventory : PciInventory) (display : PciDeviceRecord)
    (bridges : List JournaledBridge) : Prop :=
  ∃ granted, pciBuildValidatedDevicePathBridgePath granted inventory display maxBridges =
    .ok (bridges.map JournaledBridge.record)

theorem wp_copyAndJournalPath {rawPath : List PciDeviceRecord} :
    (copyAndJournalPath rawPath).Wp (fun _ => True) (fun result => ∀ bridges, result = .ok bridges →
      bridges.map JournaledBridge.record = rawPath) s := by
  induction rawPath with
  | nil =>
      rintro _ ⟨⟩
      rfl
  | cons record rest ih =>
      have hfailed : ∀ status : EfiStatus, ∀ bridges : List JournaledBridge,
          (.error status : Except EfiStatus _) = .ok bridges →
            bridges.map JournaledBridge.record = record :: rest := by
        rintro _ _ ⟨⟩
      unfold copyAndJournalPath
      split
      case isTrue => exact hfailed _
      rw [Query.wp_bind]
      refine Query.wp_of_forall fun (status, liveControl) => ?_
      dsimp only
      split
      case isTrue => exact hfailed _
      split
      case isTrue => exact hfailed _
      rw [Query.wp_bind]
      refine ih.mono fun journaled hjournaled => ?_
      cases journaled with
      | error status => exact hfailed status
      | ok journaled =>
          rintro _ ⟨⟩
          rw [List.map_cons, hjournaled journaled rfl]

theorem wp_buildJournaledPath {display : PciDeviceRecord} :
    (buildJournaledPath inventory display).Wp (fun _ => True) (fun result => ∀ bridges,
      result = .ok bridges → Journals inventory display bridges) s := by
  unfold buildJournaledPath
  rw [Query.wp_bind, Query.wp_call]
  intro allocation _
  split
  case h_1 =>
    rintro _ ⟨⟩
  case h_2 rawPath hraw =>
    refine wp_copyAndJournalPath.mono fun result hresult bridges hok => ?_
    exact ⟨_, hresult bridges hok ▸ hraw⟩

theorem wp_buildAndClassifyPaths :
    (buildAndClassifyPaths inventory active target).Wp (fun _ => True) (fun result => ∀ paths,
      result = .ok paths → ∃ activePath targetPath, Journals inventory active activePath ∧
        Journals inventory target targetPath ∧ classifyPaths activePath targetPath = .ok paths) s := by
  unfold buildAndClassifyPaths
  rw [Query.wp_bind]
  refine wp_buildJournaledPath.mono fun result hactive => ?_
  cases result with
  | error status =>
      rintro _ ⟨⟩
  | ok activePath =>
      rw [Query.wp_bind]
      refine wp_buildJournaledPath.mono fun result htarget => ?_
      cases result with
      | error status =>
          rintro _ ⟨⟩
      | ok targetPath =>
          exact fun paths hpaths => ⟨activePath, targetPath, hactive _ rfl, htarget _ rfl, hpaths⟩

/-- The shared bridges begin both paths. -/
theorem sharedPrefix_spec {activePath targetPath shared : List JournaledBridge}
    (h : sharedPrefix activePath targetPath = .ok shared) :
    shared ++ activePath.drop shared.length = activePath ∧
    ∃ shared', shared' ++ targetPath.drop shared.length = targetPath ∧
      List.Forall₂ (fun bridge bridge' => bridgeIdentityEqual bridge bridge' = true ∧
        bridge.originalBridgeControl = bridge'.originalBridgeControl) shared shared' := by
  fun_induction sharedPrefix activePath targetPath generalizing shared with
  | case1 active activeRest target targetRest hparted =>
      cases h
      exact ⟨rfl, [], rfl, .nil⟩
  | case2 => cases h
  | case3 => cases h
  | case4 active activeRest target targetRest hsame horiginal rest hrest ih =>
      cases h
      obtain ⟨hactive, shared', htarget, hall⟩ := ih hrest
      refine ⟨?_, target :: shared', ?_, .cons ⟨?_, ?_⟩ hall⟩
      · simpa using hactive
      · simpa using htarget
      · simpa using hsame
      · simpa using horiginal
  | case5 =>
      cases h
      exact ⟨rfl, [], rfl, .nil⟩

/-- The bridges of a journalled path are in the inventory, at valid locations of their own. -/
theorem Journals.bridges {display : PciDeviceRecord} {bridges : List JournaledBridge}
    (h : Journals inventory display bridges) (hlocations : LocationsDistinct inventory) :
    (∀ bridge ∈ bridges, bridge.record ∈ inventory ∧ recordLocationIsValid bridge.record = true) ∧
    bridges.Pairwise fun bridge bridge' => bridge.record.address ≠ bridge'.record.address := by
  obtain ⟨granted, hok⟩ := h
  obtain ⟨path, hbuilt, hrecords⟩ := builtPath_of_ok hok
  have hmem : ∀ bridge ∈ bridges,
      bridge.record ∈ inventory ∧ recordLocationIsValid bridge.record = true := by
    intro bridge hbridge
    have hrecord : bridge.record ∈ path.map (inventory[·]!) :=
      hrecords ▸ List.mem_map_of_mem hbridge
    obtain ⟨hinventory, hupstream⟩ := hbuilt.mem_iff.mp hrecord
    refine ⟨hinventory, ?_⟩
    rw [isUpstreamBridge, Bool.and_eq_true, Bool.and_eq_true, Bool.and_eq_true] at hupstream
    exact hupstream.1.1.1
  refine ⟨hmem, ?_⟩
  have hpairs := hbuilt.pairwise
    (fun _ _ hne hvalid' hvalid => (hne hvalid hvalid').symm) hlocations
  rw [← hrecords, List.pairwise_map] at hpairs
  exact hpairs.imp_of_mem fun hbridge hbridge' hne =>
    hne (hmem _ hbridge).2 (hmem _ hbridge').2

/-- How the paths of a plan lie. -/
structure SplitPaths (inventory : PciInventory) (active target : PciDeviceRecord)
    (paths : ClassifiedPaths) : Prop where
  activeValidated : Journals inventory active paths.activePath
  targetValidated : Journals inventory target paths.targetPath
  activeSplit : paths.activePath = paths.sharedPath ++ paths.activeExclusivePath
  targetSplit : paths.targetPath = paths.sharedPath ++ paths.targetExclusivePath
  disjoint : ∀ bridge ∈ paths.activeExclusivePath, ∀ bridge' ∈ paths.targetPath,
    bridge.record.address ≠ bridge'.record.address

theorem bridgeIdentityEqual_address {left right : JournaledBridge}
    (h : bridgeIdentityEqual left right = true) : left.record.address = right.record.address := by
  simp only [bridgeIdentityEqual, Bool.and_eq_true, beq_iff_eq] at h
  obtain ⟨⟨⟨⟨-, hsegment⟩, hbus⟩, hdevice⟩, hfunction⟩ := h
  rw [PciDeviceRecord.address, PciDeviceRecord.address, hsegment, hbus, hdevice, hfunction]

theorem bridgeIdentityEqual_of_record {left right : JournaledBridge}
    (h : left.record = right.record) : bridgeIdentityEqual left right = true := by
  simp [bridgeIdentityEqual, h]

theorem splitPaths_of_classifyPaths {activePath targetPath : List JournaledBridge}
    (hlocations : LocationsDistinct inventory) (hactive : Journals inventory active activePath)
    (htarget : Journals inventory target targetPath)
    (h : classifyPaths activePath targetPath = .ok paths) :
    SplitPaths inventory active target paths := by
  obtain ⟨hactiveMem, hactivePairs⟩ := hactive.bridges hlocations
  obtain ⟨htargetMem, -⟩ := htarget.bridges hlocations
  unfold classifyPaths at h
  split at h
  case h_1 => cases h
  case h_2 shared hshared =>
    dsimp only at h
    split at h
    case isTrue => cases h
    case isFalse hapart =>
      cases h
      obtain ⟨hactiveSplit, shared', htargetSplit, hall⟩ := sharedPrefix_spec hshared
      have hsame : shared = shared' := by
        have hmem : ∀ bridge ∈ shared, bridge ∈ activePath := fun bridge hbridge =>
          hactiveSplit ▸ List.mem_append_left _ hbridge
        have hmem' : ∀ bridge ∈ shared', bridge ∈ targetPath := fun bridge hbridge =>
          htargetSplit ▸ List.mem_append_left _ hbridge
        clear hactiveSplit htargetSplit hshared hapart
        induction hall with
        | nil => rfl
        | @cons bridge bridge' rest rest' hequal _ ih =>
            have hbridge := hactiveMem bridge (hmem bridge (List.mem_cons_self ..))
            have hbridge' := htargetMem bridge' (hmem' bridge' (List.mem_cons_self ..))
            have hrecord := hlocations.eq_of_address hbridge.1 hbridge'.1 hbridge.2 hbridge'.2
              (bridgeIdentityEqual_address hequal.1)
            congr 1
            · cases bridge
              cases bridge'
              exact congrArg₂ JournaledBridge.mk hrecord hequal.2
            · exact ih (fun other hother => hmem other (List.mem_cons_of_mem _ hother))
                fun other hother => hmem' other (List.mem_cons_of_mem _ hother)
      subst hsame
      refine ⟨hactive, htarget, hactiveSplit.symm, htargetSplit.symm, ?_⟩
      intro bridge hbridge bridge' hbridge' haddress
      rw [← htargetSplit, List.mem_append] at hbridge'
      rcases hbridge' with hshared' | hexclusive
      · rw [← hactiveSplit, List.pairwise_append] at hactivePairs
        exact hactivePairs.2.2 bridge' hshared' bridge hbridge haddress.symm
      · have hmem := hactiveMem bridge (List.mem_of_mem_drop hbridge)
        have hmem' := htargetMem bridge' (List.mem_of_mem_drop hexclusive)
        have hrecord :=
          hlocations.eq_of_address hmem.1 hmem'.1 hmem.2 hmem'.2 haddress
        refine hapart ?_
        rw [reappears, List.any_eq_true]
        refine ⟨bridge, hbridge, ?_⟩
        rw [List.any_eq_true]
        exact ⟨bridge', hexclusive, bridgeIdentityEqual_of_record hrecord⟩

/-! ### The route to the target -/

/-- What a policy asks of its bit. -/
def EndpointPolicy.Met (policy : EndpointPolicy) (bit command : UInt16) : Prop :=
  match policy with
  | ignore => True
  | on => command &&& bit ≠ 0
  | off => command &&& bit = 0

theorem EndpointPolicy.met_of_not_violated {policy : EndpointPolicy} {bit command : UInt16}
    (h : policy.violated bit command = false) : policy.Met bit command := by
  cases policy with
  | ignore => trivial
  | on => simpa [EndpointPolicy.violated, EndpointPolicy.Met] using h
  | off => simpa [EndpointPolicy.violated, EndpointPolicy.Met] using h

/-- The state routes legacy VGA to the target, and differs from the start nowhere else. -/
structure RoutedToTarget (paths : ClassifiedPaths) (start s : RouteState) : Prop where
  targetForwards : ∀ bridge ∈ paths.targetPath,
    s.bridgeControl bridge.record.address &&& pciBridgeVgaEnable = pciBridgeVgaEnable
  activeBlocks : ∀ bridge ∈ paths.activeExclusivePath,
    s.bridgeControl bridge.record.address &&& pciBridgeVgaEnable = 0
  otherBits : ∀ address, s.bridgeControl address &&& ~~~pciBridgeVgaEnable =
    start.bridgeControl address &&& ~~~pciBridgeVgaEnable
  otherBridges : ∀ address,
    (∀ bridge ∈ paths.activePath ++ paths.targetPath, bridge.record.address ≠ address) →
      s.bridgeControl address = start.bridgeControl address
  otherCommands : ∀ address, address ≠ start.plan.target.address →
    s.command address = start.command address
  commandBits : s.command start.plan.target.address &&& ~~~requiredAttributes start.plan =
    start.command start.plan.target.address &&& ~~~requiredAttributes start.plan
  ioDecoding : start.plan.ioDecoding.Met pciCommandIo (s.command start.plan.target.address)
  memoryDecoding :
    start.plan.memoryDecoding.Met pciCommandMemory (s.command start.plan.target.address)
  busMastering :
    start.plan.busMastering.Met pciCommandBusMaster (s.command start.plan.target.address)

theorem mem_writtenAddresses {skips : UInt16 → Bool} {bridges : List JournaledBridge}
    {address : PciAddress} :
    address ∈ writtenAddresses skips (bridges.map JournaledBridge.planBridge) ↔
      ∃ bridge ∈ bridges, skips bridge.originalBridgeControl = false ∧
        bridge.record.address = address := by
  simp [writtenAddresses, JournaledBridge.planBridge, and_assoc]

theorem vgaSet_and_vga (original : UInt16) :
    vgaSet original &&& pciBridgeVgaEnable = pciBridgeVgaEnable := by
  apply UInt16.toBitVec_inj.mp
  ext bit hbit
  simp only [vgaSet, UInt16.toBitVec_and, UInt16.toBitVec_or, BitVec.getElem_and,
    BitVec.getElem_or]
  grind

theorem vgaCleared_and_vga (original : UInt16) :
    vgaCleared original &&& pciBridgeVgaEnable = 0 := by
  apply UInt16.toBitVec_inj.mp
  ext bit hbit
  simp [vgaCleared]

theorem vgaSet_and_not_vga (original : UInt16) :
    vgaSet original &&& ~~~pciBridgeVgaEnable = original &&& ~~~pciBridgeVgaEnable := by
  apply UInt16.toBitVec_inj.mp
  ext bit hbit
  simp [vgaSet, Bool.and_or_distrib_right]

theorem vgaCleared_and_not_vga (original : UInt16) :
    vgaCleared original &&& ~~~pciBridgeVgaEnable = original &&& ~~~pciBridgeVgaEnable := by
  rw [vgaCleared, UInt16.and_assoc, UInt16.and_self]

/-- Whatever a register is, a route changes only the VGA bit. -/
theorem routedControl_otherBits {plan : RuntimePlan} {original : PciAddress → UInt16}
    (address : PciAddress) : routedControl plan original address &&& ~~~pciBridgeVgaEnable =
      original address &&& ~~~pciBridgeVgaEnable := by
  unfold routedControl requestAt
  split
  · exact vgaSet_and_not_vga _
  split
  · exact vgaSet_and_not_vga _
  split
  · exact vgaCleared_and_not_vga _
  · rfl

section Routed

variable {ioDecoding memoryDecoding busMastering : EndpointPolicy} {endpoint : PlanEndpoint}
  {original : PciAddress → UInt16}

theorem routedControl_plan :
    routedControl (paths.plan ioDecoding memoryDecoding busMastering endpoint) original =
      requestAt vgaSet (writtenAddresses (fun _ => false)
        (paths.targetExclusivePath.map JournaledBridge.planBridge)) original
        (requestAt vgaSet (writtenAddresses (fun control => vgaSet control == control)
          (paths.sharedPath.map JournaledBridge.planBridge)) original
          (requestAt vgaCleared (writtenAddresses (fun _ => false)
            (paths.activeExclusivePath.map JournaledBridge.planBridge)) original original)) :=
  rfl

variable (hsplit : SplitPaths inventory active target paths)

include hsplit

theorem SplitPaths.notMem_active {skips : UInt16 → Bool} {bridge : JournaledBridge}
    (hbridge : bridge ∈ paths.targetPath) : bridge.record.address ∉
      writtenAddresses skips (paths.activeExclusivePath.map JournaledBridge.planBridge) := by
  intro hmem
  obtain ⟨other, hother, -, haddress⟩ := mem_writtenAddresses.mp hmem
  exact hsplit.disjoint other hother bridge hbridge haddress

theorem SplitPaths.targetForwards {bridge : JournaledBridge} (hbridge : bridge ∈ paths.targetPath)
    (hheld : original bridge.record.address = bridge.originalBridgeControl) :
    routedControl (paths.plan ioDecoding memoryDecoding busMastering endpoint) original
      bridge.record.address &&& pciBridgeVgaEnable = pciBridgeVgaEnable := by
  rw [routedControl_plan]
  unfold requestAt
  split
  · exact vgaSet_and_vga _
  case isFalse hexclusive =>
    split
    · exact vgaSet_and_vga _
    case isFalse hshared =>
      rw [if_neg (hsplit.notMem_active hbridge)]
      have hmem : bridge ∈ paths.sharedPath := by
        rw [hsplit.targetSplit, List.mem_append] at hbridge
        refine hbridge.resolve_right fun htarget => hexclusive ?_
        exact mem_writtenAddresses.mpr ⟨bridge, htarget, rfl, rfl⟩
      -- A shared bridge that is not written forwards VGA already.
      have hskipped : vgaSet bridge.originalBridgeControl = bridge.originalBridgeControl := by
        by_contra hne
        refine hshared (mem_writtenAddresses.mpr ⟨bridge, hmem, ?_, rfl⟩)
        rw [beq_eq_false_iff_ne]
        exact hne
      rw [hheld, ← hskipped]
      exact vgaSet_and_vga _

theorem SplitPaths.activeBlocks {bridge : JournaledBridge}
    (hbridge : bridge ∈ paths.activeExclusivePath) :
    routedControl (paths.plan ioDecoding memoryDecoding busMastering endpoint) original
      bridge.record.address &&& pciBridgeVgaEnable = 0 := by
  have hnotTarget : ∀ (skips : UInt16 → Bool) (bridges : List JournaledBridge), (∀ other ∈ bridges, other ∈ paths.targetPath) →
      bridge.record.address ∉ writtenAddresses skips (bridges.map JournaledBridge.planBridge) := by
    intro skips bridges htarget hmem
    obtain ⟨other, hother, -, haddress⟩ := mem_writtenAddresses.mp hmem
    exact hsplit.disjoint bridge hbridge other (htarget other hother) haddress.symm
  rw [routedControl_plan]
  unfold requestAt
  rw [if_neg (hnotTarget _ _ fun other hother => by
      rw [hsplit.targetSplit]
      exact List.mem_append_right _ hother),
    if_neg (hnotTarget _ _ fun other hother => by
      rw [hsplit.targetSplit]
      exact List.mem_append_left _ hother),
    if_pos (mem_writtenAddresses.mpr ⟨bridge, hbridge, rfl, rfl⟩)]
  exact vgaCleared_and_vga _

theorem SplitPaths.otherBridges {address : PciAddress}
    (hother : ∀ bridge ∈ paths.activePath ++ paths.targetPath, bridge.record.address ≠ address) :
    routedControl (paths.plan ioDecoding memoryDecoding busMastering endpoint) original address =
      original address := by
  rw [hsplit.activeSplit, hsplit.targetSplit] at hother
  have hnot : ∀ (skips : UInt16 → Bool) (bridges : List JournaledBridge),
      (∀ bridge ∈ bridges, bridge.record.address ≠ address) →
      address ∉ writtenAddresses skips (bridges.map JournaledBridge.planBridge) := by
    intro skips bridges hne hmem
    obtain ⟨bridge, hbridge, -, haddress⟩ := mem_writtenAddresses.mp hmem
    exact hne bridge hbridge haddress
  rw [routedControl_plan]
  unfold requestAt
  rw [if_neg (hnot _ _ fun bridge hbridge => hother bridge (by simp [hbridge])),
    if_neg (hnot _ _ fun bridge hbridge => hother bridge (by simp [hbridge])),
    if_neg (hnot _ _ fun bridge hbridge => hother bridge (by simp [hbridge]))]

end Routed

/-- **The route to the target.** The paths are split into what they share and what each has alone; and a
route applied over them that succeeds forwards legacy VGA on every bridge above the target, blocks it on
the other bridges above the active display, gives the target's command what the policies ask, and
changes nothing else. -/
theorem route_result {before : RouteState} {answers : Nat → PciAnswer}
    (hlocations : LocationsDistinct inventory)
    (hbuild : (buildAndClassifyPaths inventory active target before).run answers = .ok paths) :
    SplitPaths inventory active target paths ∧
    ∀ (start : RouteState) (ioDecoding memoryDecoding busMastering : EndpointPolicy)
      (endpoint : PlanEndpoint) (answers' : Nat → PciAnswer),
      start.plan = paths.plan ioDecoding memoryDecoding busMastering endpoint →
      HoldsOriginals start.plan start → (routeApply.run answers' start).1 = true →
        RoutedToTarget paths start (routeApply.run answers' start).2 := by
  have hclassified := @Ask.All.run _ _ _ _ _
    (@wp_buildAndClassifyPaths before inventory active target) answers fun _ => trivial
  obtain ⟨activePath, targetPath, hactive, htarget, hpaths⟩ := hclassified paths hbuild
  have hsplit := splitPaths_of_classifyPaths hlocations hactive htarget hpaths
  refine ⟨hsplit, fun start ioDecoding memoryDecoding busMastering endpoint answers' hplan
    horiginals happlied => ?_⟩
  have hresult := (@wp_routeApply_result start horiginals.bridges).runAny answers'
  obtain ⟨hcontrol, command, haccepted, hcommand⟩ := hresult happlied
  have hheld : ∀ bridge ∈ paths.targetPath,
      start.bridgeControl bridge.record.address = bridge.originalBridgeControl := by
    intro bridge hbridge
    rw [hsplit.targetSplit, List.mem_append] at hbridge
    have hbridges := horiginals.bridges
    rw [hplan] at hbridges
    rcases hbridge with hshared | hexclusive
    · exact hbridges .shared _ (List.mem_map_of_mem hshared)
    · exact hbridges .targetExclusive _ (List.mem_map_of_mem hexclusive)
  rw [commandAccepted, Bool.and_eq_true, Bool.and_eq_true, Bool.and_eq_true, beq_iff_eq,
    Bool.not_eq_true', Bool.not_eq_true', Bool.not_eq_true'] at haccepted
  obtain ⟨⟨⟨hbits, hio⟩, hmemory⟩, hbus⟩ := haccepted
  have htargetCommand : (routeApply.run answers' start).2.command start.plan.target.address =
      command := by
    rw [hcommand, Function.update_self]
  refine ⟨fun bridge hbridge => ?_, fun bridge hbridge => ?_, fun address => ?_,
    fun address hother => ?_, fun address hother => ?_, ?_, ?_, ?_, ?_⟩
  · rw [hcontrol, hplan]
    exact hsplit.targetForwards hbridge (hheld bridge hbridge)
  · rw [hcontrol, hplan]
    exact hsplit.activeBlocks hbridge
  · rw [hcontrol]
    exact routedControl_otherBits address
  · rw [hcontrol, hplan]
    exact hsplit.otherBridges hother
  · rw [hcommand, Function.update_of_ne hother]
  · rw [htargetCommand, hbits, horiginals.endpoint]
  · rw [htargetCommand]
    exact EndpointPolicy.met_of_not_violated hio
  · rw [htargetCommand]
    exact EndpointPolicy.met_of_not_violated hmemory
  · rw [htargetCommand]
    exact EndpointPolicy.met_of_not_violated hbus

/-! ### Two displays below one bridge -/

/-- A bridge on bus zero, and on bus one a bridge to the active display and one to the target. -/
def forkInventory : PciInventory :=
  [sampleP2pBridge [1] 0 1 3 8, sampleP2pBridge [1, 0] 1 2 2 8, sampleP2pBridge [1, 1] 1 3 3 0,
    displayOnBus [1, 0, 0] 2, displayOnBus [1, 1, 0] 3]

def forkPaths : ClassifiedPaths where
  activePath := [⟨sampleP2pBridge [1] 0 1 3 8, 8⟩, ⟨sampleP2pBridge [1, 0] 1 2 2 8, 8⟩]
  targetPath := [⟨sampleP2pBridge [1] 0 1 3 8, 8⟩, ⟨sampleP2pBridge [1, 1] 1 3 3 0, 0⟩]
  sharedPath := [⟨sampleP2pBridge [1] 0 1 3 8, 8⟩]
  activeExclusivePath := [⟨sampleP2pBridge [1, 0] 1 2 2 8, 8⟩]
  targetExclusivePath := [⟨sampleP2pBridge [1, 1] 1 3 3 0, 0⟩]

def forkRoute : RouteState where
  plan := forkPaths.plan .on .ignore .off ⟨(displayOnBus [1, 1, 0] 3).address, 6⟩
  bridgeControl := fun address => if address.bus = 1 ∧ address.device = 1 then 0 else 8
  command := fun _ => 6

theorem route_result_fork :
    RoutedToTarget forkPaths forkRoute (routeApply.run (fun _ => { status := .success }) forkRoute).2 := by
  have hlocations : LocationsDistinct forkInventory := by
    unfold LocationsDistinct
    decide +kernel
  have hbuild : (buildAndClassifyPaths forkInventory (displayOnBus [1, 0, 0] 2)
      (displayOnBus [1, 1, 0] 3) forkRoute).run (fun _ => { status := .success }) =
        .ok forkPaths := by
    decide +kernel
  have horiginals : HoldsOriginals forkRoute.plan forkRoute := by
    refine ⟨fun path => ?_, rfl⟩
    cases path <;> decide +kernel
  exact (route_result hlocations hbuild).2 forkRoute .on .ignore .off _ _ rfl horiginals
    (by decide +kernel)

/-! ### One bridge with two handles -/

/-- The bridge above both displays has two handles at its one location, and each display's device path goes
through another of them. -/
def twinBridge : PciDeviceRecord :=
  { sampleP2pBridge [2] 0 1 1 8 with
    handle := 2
    pciIo := 2
    device := 1 }

def twinInventory : PciInventory :=
  [sampleP2pBridge [1] 0 1 1 8, twinBridge, displayOnBus [1, 0] 1, displayOnBus [2, 1] 1]

def twinPaths : ClassifiedPaths where
  activePath := [⟨sampleP2pBridge [1] 0 1 1 8, 8⟩]
  targetPath := [⟨twinBridge, 8⟩]
  sharedPath := []
  activeExclusivePath := [⟨sampleP2pBridge [1] 0 1 1 8, 8⟩]
  targetExclusivePath := [⟨twinBridge, 8⟩]

def twinRoute : RouteState where
  plan := twinPaths.plan .on .ignore .off ⟨(displayOnBus [2, 1] 1).address, 6⟩
  bridgeControl := fun _ => 8
  command := fun _ => 6

/-- The bridge is in both exclusive parts, and a route that succeeds leaves its VGA bit set. -/
theorem twinBridge_not_routed :
    (buildAndClassifyPaths twinInventory (displayOnBus [1, 0] 1) (displayOnBus [2, 1] 1) twinRoute).run
        (fun _ => { status := .success }) = .ok twinPaths ∧
      (∃ bridge ∈ twinPaths.activeExclusivePath, ∃ bridge' ∈ twinPaths.targetExclusivePath,
        bridge.record.address = bridge'.record.address) ∧
      HoldsOriginals twinRoute.plan twinRoute ∧
      (routeApply.run (fun _ => { status := .success }) twinRoute).1 = true ∧
      ¬ RoutedToTarget twinPaths twinRoute (routeApply.run (fun _ => { status := .success }) twinRoute).2 := by
  refine ⟨by decide +kernel, ⟨_, List.mem_singleton_self _, _, List.mem_singleton_self _, by decide⟩, ?_,
    by decide +kernel, fun hrouted => ?_⟩
  · refine ⟨fun path => ?_, rfl⟩
    cases path <;> decide +kernel
  · have hblocks := hrouted.activeBlocks _ (List.mem_singleton_self _)
    revert hblocks
    decide +kernel

end CsmVgaSelector
