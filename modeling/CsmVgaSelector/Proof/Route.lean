import CsmVgaSelector.Route.Plan
import Mathlib.Logic.Relation

/-!
# The route and its registers

A register that the route may have changed belongs to a marked bridge, or to the target with its mark
set. The marks go up before a register is written and come down only when it has been read back with
its original, so a restore that finds no mark left has put every register back, at whatever point the
apply stopped and however many restores failed before.
-/

namespace CsmVgaSelector

variable {A : PciAnswer → Prop} {s s' start : RouteState} {path : BridgePath} {index : Nat}

/-! ### The bridges of a plan -/

namespace RuntimePlan

variable {plan : RuntimePlan} {f : PlanBridge → PlanBridge}

/-- A bridge of the plan, by its place. -/
def At (plan : RuntimePlan) (path : BridgePath) (index : Nat) (bridge : PlanBridge) : Prop :=
  (plan.bridges path)[index]? = some bridge

theorem at_getElem! (hindex : index < (plan.bridges path).length) :
    plan.At path index (plan.bridges path)[index]! := by
  simp [At, hindex]

theorem At.eq {bridge other : PlanBridge} (h : plan.At path index bridge)
    (h' : plan.At path index other) : bridge = other :=
  Option.some.inj (h.symm.trans h')

/-- The bridges of a plan with one of them changed. -/
theorem at_modifyBridge {path' : BridgePath} {index' : Nat} {bridge' : PlanBridge} :
    (plan.modifyBridge path index f).At path' index' bridge' ↔
      ∃ bridge, plan.At path' index' bridge ∧
        bridge' = if path' = path ∧ index' = index then f bridge else bridge := by
  have hmap : ((plan.modifyBridge path index f).bridges path')[index']? =
      ((plan.bridges path')[index']?).map
        fun bridge => if path' = path ∧ index' = index then f bridge else bridge := by
    cases path <;> cases path' <;>
      simp [modifyBridge, bridges, List.getElem?_modify, eq_comm]
  rw [At, hmap, Option.map_eq_some_iff]
  simp only [At, eq_comm]

@[simp] theorem length_modifyBridge {path' : BridgePath} :
    ((plan.modifyBridge path index f).bridges path').length = (plan.bridges path').length := by
  cases path <;> cases path' <;> simp [modifyBridge, bridges]

@[simp] theorem modifyBridge_target : (plan.modifyBridge path index f).target = plan.target := by
  cases path <;> rfl

@[simp] theorem modifyBridge_routeDirty :
    (plan.modifyBridge path index f).routeDirty = plan.routeDirty := by
  cases path <;> rfl

@[simp] theorem modifyBridge_endpointWriteAttempted :
    (plan.modifyBridge path index f).endpointWriteAttempted = plan.endpointWriteAttempted := by
  cases path <;> rfl

/-- The plan with other marks of its own. -/
def withMarks (plan : RuntimePlan) (attempted applied dirty : Bool) : RuntimePlan :=
  { plan with
    endpointWriteAttempted := attempted
    endpointWriteApplied := applied
    routeDirty := dirty }

theorem bridges_withMarks {attempted applied dirty : Bool} :
    (plan.withMarks attempted applied dirty).bridges = plan.bridges := by
  ext path : 1
  cases path <;> rfl

theorem at_withMarks {attempted applied dirty : Bool} :
    (plan.withMarks attempted applied dirty).At = plan.At := by
  ext path index bridge
  rw [At, At, bridges_withMarks]

end RuntimePlan

/-! ### The invariant -/

/-- A bridge of the plan at the address is marked. -/
def RouteState.MarkedAt (s : RouteState) (address : PciAddress) : Prop :=
  ∃ path index bridge, s.plan.At path index bridge ∧ bridge.record = address ∧
    bridge.writeAttempted = true

/-- The bridge at the place, if there is one, is not marked. -/
def RouteState.UnmarkedAt (s : RouteState) (path : BridgePath) (index : Nat) : Prop :=
  ∀ bridge, s.plan.At path index bridge → bridge.writeAttempted = false

/-- Nothing is marked. -/
structure Unmarked (s : RouteState) : Prop where
  bridges : ∀ path index, s.UnmarkedAt path index
  endpoint : s.plan.endpointWriteAttempted = false

/-- The plan has the places, the originals and the target of the plan the route started with, and every
register that differs from its start is accounted for by a mark. -/
structure Routed (start s : RouteState) : Prop where
  target : s.plan.target = start.plan.target
  command : s.plan.target.originalCommand = start.command s.plan.target.address
  lengths : ∀ path, (s.plan.bridges path).length = (start.plan.bridges path).length
  records : ∀ path index bridge, s.plan.At path index bridge →
    ∃ first, start.plan.At path index first ∧ first.record = bridge.record
  originals : ∀ path index bridge, s.plan.At path index bridge →
    bridge.originalBridgeControl = start.bridgeControl bridge.record
  marked : ∀ address, s.bridgeControl address ≠ start.bridgeControl address → s.MarkedAt address
  endpoint : ∀ address, s.command address ≠ start.command address →
    address = s.plan.target.address ∧ s.plan.endpointWriteAttempted = true
  clean : s.plan.routeDirty = false → Unmarked s

namespace Routed

/-- With no mark left, every register is as it was. -/
theorem registers_eq (h : Routed start s) (hunmarked : Unmarked s) :
    s.bridgeControl = start.bridgeControl ∧ s.command = start.command := by
  constructor
  · ext address : 1
    by_contra hne
    obtain ⟨path, index, bridge, hat, -, hattempted⟩ := h.marked address hne
    simp [hunmarked.bridges path index bridge hat] at hattempted
  · ext address : 1
    by_contra hne
    obtain ⟨-, hattempted⟩ := h.endpoint address hne
    simp [hunmarked.endpoint] at hattempted

/-- Changing the marks of one bridge, when its mark stays or its register is back. -/
theorem modifyBridge {f : PlanBridge → PlanBridge} (h : Routed start s)
    (hdirty : s.plan.routeDirty = true)
    (hrecord : ∀ bridge, (f bridge).record = bridge.record)
    (horiginal : ∀ bridge, (f bridge).originalBridgeControl = bridge.originalBridgeControl)
    (hmark : ∀ bridge, s.plan.At path index bridge → (f bridge).writeAttempted = true ∨
      s.bridgeControl bridge.record = start.bridgeControl bridge.record) :
    Routed start { s with plan := s.plan.modifyBridge path index f } where
  target := RuntimePlan.modifyBridge_target.trans h.target
  command := by
    rw [RuntimePlan.modifyBridge_target]
    exact h.command
  lengths path' := RuntimePlan.length_modifyBridge.trans (h.lengths path')
  records path' index' bridge' hat := by
    obtain ⟨bridge, hbridge, rfl⟩ := RuntimePlan.at_modifyBridge.mp hat
    split
    · rw [hrecord]
      exact h.records _ _ _ hbridge
    · exact h.records _ _ _ hbridge
  originals path' index' bridge' hat := by
    obtain ⟨bridge, hbridge, rfl⟩ := RuntimePlan.at_modifyBridge.mp hat
    split
    · rw [horiginal, hrecord]
      exact h.originals _ _ _ hbridge
    · exact h.originals _ _ _ hbridge
  marked address hne := by
    obtain ⟨path', index', bridge, hat, haddress, hattempted⟩ := h.marked address hne
    refine ⟨path', index', _, RuntimePlan.at_modifyBridge.mpr ⟨bridge, hat, rfl⟩, ?_, ?_⟩
    · split
      · exact (hrecord bridge).trans haddress
      · exact haddress
    · split
      case isTrue hsame =>
        obtain ⟨rfl, rfl⟩ := hsame
        refine (hmark bridge hat).resolve_right fun hback => hne ?_
        rw [← haddress]
        exact hback
      case isFalse => exact hattempted
  endpoint address hne := by
    rw [RuntimePlan.modifyBridge_target, RuntimePlan.modifyBridge_endpointWriteAttempted]
    exact h.endpoint address hne
  clean hclean := by
    rw [RuntimePlan.modifyBridge_routeDirty, hdirty] at hclean
    simp at hclean

/-- Changing the marks of the plan, when they stay or the registers are back. -/
theorem withMarks {attempted applied dirty : Bool} (h : Routed start s)
    (hattempted : attempted = true ∨
      s.command s.plan.target.address = start.command s.plan.target.address)
    (hdirty : dirty = true ∨ Unmarked s ∧ attempted = false) :
    Routed start { s with plan := s.plan.withMarks attempted applied dirty } :=
  { h with
    lengths := by
      rw [RuntimePlan.bridges_withMarks]
      exact h.lengths
    records := by
      rw [RuntimePlan.at_withMarks]
      exact h.records
    originals := by
      rw [RuntimePlan.at_withMarks]
      exact h.originals
    marked := by
      simp only [RouteState.MarkedAt, RuntimePlan.at_withMarks]
      exact h.marked
    endpoint := by
      intro address hne
      obtain ⟨haddress, -⟩ := h.endpoint address hne
      refine ⟨haddress, hattempted.resolve_right fun hback => hne ?_⟩
      rw [haddress]
      exact hback
    clean := by
      intro hclean
      obtain ⟨hunmarked, hattempted⟩ := hdirty.resolve_left fun hset => by
        simp [RuntimePlan.withMarks, hset] at hclean
      refine ⟨?_, hattempted⟩
      simp only [RouteState.UnmarkedAt, RuntimePlan.at_withMarks]
      exact hunmarked.bridges }

/-- The mark of the endpoint may stay. -/
theorem stay (h : Routed start s) : s.plan.endpointWriteAttempted = true ∨
    s.command s.plan.target.address = start.command s.plan.target.address := by
  by_cases hback : s.command s.plan.target.address = start.command s.plan.target.address
  · exact .inr hback
  · exact .inl (h.endpoint _ hback).2

/-- Marking one bridge, and the route with it. -/
theorem markBridge {f : PlanBridge → PlanBridge} (h : Routed start s)
    (hrecord : ∀ bridge, (f bridge).record = bridge.record)
    (horiginal : ∀ bridge, (f bridge).originalBridgeControl = bridge.originalBridgeControl)
    (hmark : ∀ bridge, (f bridge).writeAttempted = true) :
    Routed start
      { s with plan := { s.plan.modifyBridge path index f with routeDirty := true } } := by
  have hdirty : Routed start { s with
      plan := s.plan.withMarks s.plan.endpointWriteAttempted s.plan.endpointWriteApplied true } :=
    h.withMarks h.stay (.inl rfl)
  have hmodified : Routed start { s with
      plan := (s.plan.withMarks s.plan.endpointWriteAttempted s.plan.endpointWriteApplied
        true).modifyBridge path index f } :=
    hdirty.modifyBridge rfl hrecord horiginal fun bridge _ => .inl (hmark bridge)
  cases path <;> exact hmodified

/-- Writing the register of a marked bridge. -/
theorem writeBridgeControl {address : PciAddress} {value : UInt16} (h : Routed start s)
    (hmarked : s.MarkedAt address) (hdirty : s.plan.routeDirty = true) :
    Routed start { s with bridgeControl := Function.update s.bridgeControl address value } :=
  { h with
    marked := by
      intro other hne
      by_cases hother : other = address
      · subst hother
        exact hmarked
      · refine h.marked other fun heq => hne ?_
        exact (Function.update_of_ne hother _ _).trans heq
    clean := fun hclean => by simp [hdirty] at hclean }

/-- Writing the command of a marked target. -/
theorem writeCommand {value : UInt16} (h : Routed start s)
    (hattempted : s.plan.endpointWriteAttempted = true) (hdirty : s.plan.routeDirty = true) :
    Routed start
      { s with command := Function.update s.command s.plan.target.address value } :=
  { h with
    endpoint := by
      intro address hne
      by_cases haddress : address = s.plan.target.address
      · exact ⟨haddress, hattempted⟩
      · refine h.endpoint address fun heq => hne ?_
        exact (Function.update_of_ne haddress _ _).trans heq
    clean := fun hclean => by simp [hdirty] at hclean }

end Routed

/-! ### Applying -/

theorem wp_readRegister {register : RouteState → UInt16} {Q : EfiStatus × UInt16 → Prop}
    (hfailed : ∀ status value, status.isError = true → Q (status, value))
    (hread : ∀ status, status.isError = false → Q (status, register s)) :
    Query.Wp A (readRegister register) Q s := by
  intro answer _
  show Q (answer.status, if answer.status.isError then answer.left.getD 0 else register s)
  split
  case isTrue herror => exact hfailed _ _ herror
  case isFalse herror => exact hread _ (by simpa using herror)

theorem wp_routeBridgeStep {bridge : PlanBridge} {requested : UInt16} (h : Routed start s)
    (hmarked : s.MarkedAt bridge.record) (hdirty : s.plan.routeDirty = true) :
    (routeBridgeStep bridge requested).Wp A
      (fun _ s' => Routed start s' ∧ s'.plan = s.plan) s := by
  unfold routeBridgeStep writeBridgeControlRegister
  simp only [Prog.wp_bind, Prog.wp_call, Prog.wp_modify, Prog.wp_pure, Prog.wp_lift]
  intro answer _
  exact Query.wp_of_forall fun _ => ⟨h.writeBridgeControl hmarked hdirty, trivial⟩

theorem wp_applyBridge {requested : UInt16} (h : Routed start s)
    (hindex : index < (s.plan.bridges path).length) :
    (applyBridge path index requested).Wp A (fun _ s' => Routed start s') s := by
  unfold applyBridge
  refine .bind_get ?_
  refine Prog.Wp.bind (P := fun _ s₁ => Routed start s₁ ∧ s₁.plan.routeDirty = true ∧
    s₁.MarkedAt (s.plan.bridges path)[index]!.record) ?_ ?_
  · refine ⟨h.markBridge (fun _ => rfl) (fun _ => rfl) fun _ => rfl, rfl, path, index,
      { (s.plan.bridges path)[index]! with writeAttempted := true }, ?_, rfl, rfl⟩
    show RuntimePlan.At (RuntimePlan.withMarks _ _ _ _) _ _ _
    rw [RuntimePlan.at_withMarks]
    refine RuntimePlan.at_modifyBridge.mpr ⟨_, RuntimePlan.at_getElem! hindex, ?_⟩
    rw [if_pos ⟨rfl, rfl⟩]
  rintro _ s₁ ⟨h₁, hdirty₁, hmarked₁⟩
  refine Prog.Wp.bind (wp_routeBridgeStep h₁ hmarked₁ hdirty₁) ?_
  rintro verified s₂ ⟨h₂, -⟩
  refine .ite (fun _ => .pure h₂) fun _ => ?_
  exact h₂.markBridge (fun _ => rfl) (fun _ => rfl) fun _ => rfl

theorem wp_applyBridges {request : UInt16 → UInt16} {skips : UInt16 → Bool} {rows : List Nat}
    (h : Routed start s) (hrows : ∀ index ∈ rows, index < (start.plan.bridges path).length) :
    (applyBridges path request skips rows).Wp A (fun _ s' => Routed start s') s := by
  induction rows generalizing s with
  | nil => exact h
  | cons index rest ih =>
      have hrest : ∀ other ∈ rest, other < (start.plan.bridges path).length :=
        fun other hother => hrows other (List.mem_cons_of_mem _ hother)
      have hindex : index < (s.plan.bridges path).length := by
        rw [h.lengths path]
        exact hrows index (List.mem_cons_self ..)
      unfold applyBridges
      refine .bind_get (.ite (fun _ => ih h hrest) fun _ => ?_)
      refine Prog.Wp.bind (wp_applyBridge h hindex) fun applied s₁ h₁ => ?_
      exact .ite (fun _ => .pure h₁) fun _ => ih h₁ hrest

/-- The indices of a path are its indices at the start. -/
theorem Routed.lt_of_mem_indices (h : Routed start s) :
    ∀ index ∈ indices (s.plan.bridges path), index < (start.plan.bridges path).length := by
  intro index hindex
  rw [← h.lengths path]
  exact List.mem_range.mp hindex

theorem wp_applyEndpoint (h : Routed start s) :
    applyEndpoint.Wp A (fun _ s' => Routed start s') s := by
  unfold applyEndpoint writeCommand
  refine .bind_get ?_
  refine Prog.Wp.bind (P := fun _ s₁ => Routed start s₁ ∧ s₁.plan.routeDirty = true ∧
    s₁.plan.endpointWriteAttempted = true ∧ s₁.plan.target = s.plan.target) ?_ ?_
  · exact ⟨h.withMarks (.inl rfl) (.inl rfl), rfl, rfl, rfl⟩
  rintro _ s₁ ⟨h₁, hdirty₁, hattempted₁, htarget₁⟩
  refine Prog.Wp.bind (P := fun _ s₂ => Routed start s₂ ∧ s₂.plan.routeDirty = true) ?_ ?_
  · rw [← htarget₁]
    exact fun answer _ => ⟨h₁.writeCommand hattempted₁ hdirty₁, hdirty₁⟩
  rintro writeStatus s₂ ⟨h₂, hdirty₂⟩
  refine .bind_query fun result => ?_
  exact h₂.withMarks h₂.stay (.inl (by simp [hdirty₂]))

theorem wp_routeApply (h : Routed start s) :
    routeApply.Wp A (fun _ s' => Routed start s') s := by
  have hpath {s : RouteState} (h : Routed start s) (path : BridgePath)
      (request : UInt16 → UInt16) (skips : UInt16 → Bool) :
      (applyBridges path request skips (indices (s.plan.bridges path))).Wp A
        (fun _ s' => Routed start s') s :=
    wp_applyBridges h h.lt_of_mem_indices
  unfold routeApply applyActiveExclusive applyShared applyTargetExclusive
  refine Prog.Wp.bind (.bind_get (hpath h .activeExclusive _ _)) fun _ s₁ h₁ => ?_
  refine .ite (fun _ => .pure h₁) fun _ => ?_
  refine Prog.Wp.bind (.bind_get (hpath h₁ .shared _ _)) fun _ s₂ h₂ => ?_
  refine .ite (fun _ => .pure h₂) fun _ => ?_
  refine Prog.Wp.bind (.bind_get (hpath h₂ .targetExclusive _ _)) fun _ s₃ h₃ => ?_
  exact .ite (fun _ => .pure h₃) fun _ => wp_applyEndpoint h₃

/-! ### Restoring -/

/-- Nothing is marked that was not marked before. -/
structure NothingMarked (s s' : RouteState) : Prop where
  bridges : ∀ path index, s.UnmarkedAt path index → s'.UnmarkedAt path index
  endpoint : s.plan.endpointWriteAttempted = false → s'.plan.endpointWriteAttempted = false

theorem NothingMarked.refl (s : RouteState) : NothingMarked s s := ⟨fun _ _ h => h, fun h => h⟩

theorem NothingMarked.trans {s₁ s₂ s₃ : RouteState} (h : NothingMarked s₁ s₂)
    (h' : NothingMarked s₂ s₃) : NothingMarked s₁ s₃ :=
  ⟨fun path index hunmarked => h'.bridges path index (h.bridges path index hunmarked),
    fun hunmarked => h'.endpoint (h.endpoint hunmarked)⟩

theorem wp_writeBridgeControl {bridge : PlanBridge} {value : UInt16} (h : Routed start s)
    (hmarked : s.MarkedAt bridge.record) (hdirty : s.plan.routeDirty = true) :
    (writeBridgeControl bridge value).Wp A
      (fun _ s' => Routed start s' ∧ s'.plan = s.plan) s := by
  unfold writeBridgeControl writeBridgeControlRegister
  refine Prog.Wp.bind (P := fun _ s₁ => Routed start s₁ ∧ s₁.plan = s.plan) ?_ ?_
  · exact fun answer _ => ⟨h.writeBridgeControl hmarked hdirty, rfl⟩
  · rintro status s₁ h₁
    exact .ite (fun _ => .pure h₁) fun _ => .bind_query fun _ => .pure h₁

/-- A marked bridge that is restored without a failure is not marked any more. -/
theorem wp_restoreBridge (h : Routed start s) (hindex : index < (s.plan.bridges path).length)
    (hattempted : (s.plan.bridges path)[index]!.writeAttempted = true)
    (hdirty : s.plan.routeDirty = true) :
    (restoreBridge path index).Wp A (fun restored s' => Routed start s' ∧
      s'.plan.routeDirty = true ∧ NothingMarked s s' ∧
      (restored = true → s'.UnmarkedAt path index)) s := by
  have hat := RuntimePlan.at_getElem! hindex
  unfold restoreBridge
  refine .bind_get ?_
  refine Prog.Wp.bind (wp_writeBridgeControl h ⟨path, index, _, hat, rfl, hattempted⟩ hdirty) ?_
  rintro written s₁ ⟨h₁, hplan⟩
  have hdirty₁ : s₁.plan.routeDirty = true := hplan ▸ hdirty
  have hkept : NothingMarked s s₁ := by
    constructor
    · intro path' index' hunmarked
      rw [RouteState.UnmarkedAt, hplan]
      exact hunmarked
    · rw [hplan]
      exact id
  have hfailed : Routed start s₁ ∧ s₁.plan.routeDirty = true ∧ NothingMarked s s₁ ∧
      (false = true → s₁.UnmarkedAt path index) := ⟨h₁, hdirty₁, hkept, by simp⟩
  refine .ite (fun _ => .pure hfailed) fun _ => ?_
  refine Prog.wp_bind.mpr (Prog.wp_lift.mpr (wp_readRegister ?_ ?_))
  · intro status value herror
    simp only [herror, Bool.true_or, if_true]
    exact hfailed
  intro status herror
  refine .ite (fun _ => .pure hfailed) fun hread => ?_
  have hback : s₁.bridgeControl (s.plan.bridges path)[index]!.record =
      (s.plan.bridges path)[index]!.originalBridgeControl := by
    simpa [herror] using hread
  have hregister : ∀ bridge, s₁.plan.At path index bridge →
      s₁.bridgeControl bridge.record = start.bridgeControl bridge.record := by
    intro bridge hbridge
    rw [hplan] at hbridge
    obtain rfl := hat.eq hbridge
    exact hback.trans (h.originals _ _ _ hat)
  refine ⟨h₁.modifyBridge hdirty₁ (fun _ => rfl) (fun _ => rfl) fun bridge hbridge =>
    .inr (hregister bridge hbridge), ?_, ⟨?_, ?_⟩, ?_⟩
  · exact RuntimePlan.modifyBridge_routeDirty.trans hdirty₁
  · intro path' index' hunmarked bridge' hbridge'
    obtain ⟨bridge, hbridge, rfl⟩ := RuntimePlan.at_modifyBridge.mp hbridge'
    rw [hplan] at hbridge
    split
    · rfl
    · exact hunmarked bridge hbridge
  · intro hunmarked
    rw [← hplan] at hunmarked
    exact RuntimePlan.modifyBridge_endpointWriteAttempted.trans hunmarked
  · intro _ bridge' hbridge'
    obtain ⟨bridge, -, rfl⟩ := RuntimePlan.at_modifyBridge.mp hbridge'
    rw [if_pos ⟨rfl, rfl⟩]

theorem wp_restoreBridges {rows : List Nat} (h : Routed start s)
    (hrows : ∀ index ∈ rows, index < (start.plan.bridges path).length)
    (hdirty : s.plan.routeDirty = true) :
    (restoreBridges path rows).Wp A (fun restored s' => Routed start s' ∧
      s'.plan.routeDirty = true ∧ NothingMarked s s' ∧
      (restored = true → ∀ index ∈ rows, s'.UnmarkedAt path index)) s := by
  induction rows generalizing s with
  | nil => exact ⟨h, hdirty, .refl s, fun _ index hindex => nomatch hindex⟩
  | cons index rest ih =>
      have hrest : ∀ other ∈ rest, other < (start.plan.bridges path).length :=
        fun other hother => hrows other (List.mem_cons_of_mem _ hother)
      have hindex : index < (s.plan.bridges path).length := by
        rw [h.lengths path]
        exact hrows index (List.mem_cons_self ..)
      unfold restoreBridges
      refine .bind_get (.ite (fun hunmarked => ?_) fun hmarked => ?_)
      · refine (ih h hrest hdirty).mono ?_
        rintro restored s' ⟨h', hdirty', hkept, hall⟩
        refine ⟨h', hdirty', hkept, fun hrestored => List.forall_mem_cons.mpr ⟨?_, hall hrestored⟩⟩
        refine hkept.bridges path index fun bridge hbridge => ?_
        obtain rfl := (RuntimePlan.at_getElem! hindex).eq hbridge
        simpa using hunmarked
      · refine Prog.Wp.bind (wp_restoreBridge h hindex (by simpa using hmarked) hdirty) ?_
        rintro restored s₁ ⟨h₁, hdirty₁, hkept₁, hrestored₁⟩
        refine .ite (fun _ => .pure ⟨h₁, hdirty₁, hkept₁, by simp⟩) fun hsuccess => ?_
        refine (ih h₁ hrest hdirty₁).mono ?_
        rintro restored' s' ⟨h', hdirty', hkept, hall⟩
        refine ⟨h', hdirty', hkept₁.trans hkept, fun hrestored =>
          List.forall_mem_cons.mpr ⟨?_, hall hrestored⟩⟩
        exact hkept.bridges path index (hrestored₁ (by simpa using hsuccess))

/-- A path that is restored has no mark left. -/
theorem wp_restorePath (h : Routed start s) (hdirty : s.plan.routeDirty = true) :
    (restorePath path).Wp A (fun restored s' => Routed start s' ∧
      s'.plan.routeDirty = true ∧ NothingMarked s s' ∧
      (restored = true → ∀ index, s'.UnmarkedAt path index)) s := by
  unfold restorePath
  refine .bind_get ((wp_restoreBridges h ?_ hdirty).mono ?_)
  · exact fun index hindex => h.lt_of_mem_indices index (List.mem_reverse.mp hindex)
  · rintro restored s' ⟨h', hdirty', hkept, hall⟩
    refine ⟨h', hdirty', hkept, fun hrestored index => ?_⟩
    by_cases hindex : index < (s.plan.bridges path).length
    · exact hall hrestored index (List.mem_reverse.mpr (List.mem_range.mpr hindex))
    · intro bridge hbridge
      have hlength := (h'.lengths path).trans (h.lengths path).symm
      rw [RuntimePlan.At, List.getElem?_eq_none (by omega)] at hbridge
      simp at hbridge

theorem wp_restoreEndpoint (h : Routed start s) (hdirty : s.plan.routeDirty = true) :
    restoreEndpoint.Wp A (fun restored s' => Routed start s' ∧ s'.plan.routeDirty = true ∧
      (restored = true → s'.plan.endpointWriteAttempted = false)) s := by
  unfold restoreEndpoint writeCommand
  refine .bind_get (.ite (fun hunmarked => .pure ⟨h, hdirty, fun _ => ?_⟩) fun hmarked => ?_)
  · simpa using hunmarked
  have hattempted : s.plan.endpointWriteAttempted = true := by simpa using hmarked
  refine Prog.Wp.bind (P := fun _ s₁ => Routed start s₁ ∧ s₁.plan = s.plan) ?_ ?_
  · exact fun answer _ => ⟨h.writeCommand hattempted hdirty, rfl⟩
  rintro written s₁ ⟨h₁, hplan⟩
  have hdirty₁ : s₁.plan.routeDirty = true := hplan ▸ hdirty
  have hfailed : Routed start s₁ ∧ s₁.plan.routeDirty = true ∧
      (false = true → s₁.plan.endpointWriteAttempted = false) := ⟨h₁, hdirty₁, by simp⟩
  refine .ite (fun _ => .pure hfailed) fun _ => ?_
  refine Prog.wp_bind.mpr (Prog.wp_lift.mpr (wp_readRegister ?_ ?_))
  · intro status value herror
    simp only [herror, Bool.true_or, if_true]
    exact hfailed
  intro status herror
  refine .ite (fun _ => .pure hfailed) fun hread => ?_
  have hback : s₁.command s₁.plan.target.address = start.command s₁.plan.target.address := by
    rw [← h₁.command, hplan]
    simpa [herror] using hread
  exact ⟨h₁.withMarks (.inr hback) (.inl hdirty₁), hdirty₁, fun _ => rfl⟩

theorem wp_routeRestore_dirty (h : Routed start s) (hdirty : s.plan.routeDirty = true) :
    routeRestore.Wp A (fun _ s' => Routed start s') s := by
  unfold routeRestore
  refine Prog.Wp.bind (wp_restoreEndpoint h hdirty) ?_
  rintro restored₁ s₁ ⟨h₁, hdirty₁, hendpoint⟩
  refine .ite (fun _ => .pure h₁) fun hsuccess₁ => ?_
  refine Prog.Wp.bind (wp_restorePath h₁ hdirty₁) ?_
  rintro restored₂ s₂ ⟨h₂, hdirty₂, hkept₂, htarget⟩
  refine .ite (fun _ => .pure h₂) fun hsuccess₂ => ?_
  refine Prog.Wp.bind (wp_restorePath h₂ hdirty₂) ?_
  rintro restored₃ s₃ ⟨h₃, hdirty₃, hkept₃, hshared⟩
  refine .ite (fun _ => .pure h₃) fun hsuccess₃ => ?_
  refine Prog.Wp.bind (wp_restorePath h₃ hdirty₃) ?_
  rintro restored₄ s₄ ⟨h₄, hdirty₄, hkept₄, hactive⟩
  refine .ite (fun _ => .pure h₄) fun hsuccess₄ => ?_
  have hunmarked : Unmarked s₄ := by
    constructor
    · intro path index
      cases path with
      | activeExclusive => exact hactive (by simpa using hsuccess₄) index
      | shared => exact hkept₄.bridges _ _ (hshared (by simpa using hsuccess₃) index)
      | targetExclusive =>
          exact hkept₄.bridges _ _ (hkept₃.bridges _ _ (htarget (by simpa using hsuccess₂) index))
    · exact hkept₄.endpoint (hkept₃.endpoint (hkept₂.endpoint
        (hendpoint (by simpa using hsuccess₁))))
  exact h₄.withMarks h₄.stay (.inr ⟨hunmarked, hunmarked.endpoint⟩)

/-- Without a mark there is nothing to restore. -/
theorem wp_restorePath_unmarked (h : Unmarked s) :
    (restorePath path).Wp A (fun restored s' => restored = true ∧ s' = s) s := by
  have hrows (rows : List Nat) (hrows : ∀ index ∈ rows, index < (s.plan.bridges path).length) :
      (restoreBridges path rows).Wp A (fun restored s' => restored = true ∧ s' = s) s := by
    induction rows with
    | nil => exact ⟨rfl, rfl⟩
    | cons index rest ih =>
        have hunmarked : (s.plan.bridges path)[index]!.writeAttempted = false :=
          h.bridges path index _ (RuntimePlan.at_getElem! (hrows index (List.mem_cons_self ..)))
        unfold restoreBridges
        refine .bind_get (.ite (fun _ => ih fun other hother => ?_) fun hmarked => ?_)
        · exact hrows other (List.mem_cons_of_mem _ hother)
        · rw [hunmarked] at hmarked
          simp at hmarked
  exact .bind_get (hrows _ fun index hindex => List.mem_range.mp (List.mem_reverse.mp hindex))

theorem wp_routeRestore_clean (h : Routed start s) (hclean : s.plan.routeDirty = false) :
    routeRestore.Wp A (fun _ s' => Routed start s') s := by
  have hunmarked : Unmarked s := h.clean hclean
  have hendpoint : restoreEndpoint.Wp A (fun restored s' => restored = true ∧ s' = s) s := by
    unfold restoreEndpoint
    refine .bind_get (.ite (fun _ => .pure ⟨rfl, rfl⟩) fun hmarked => ?_)
    simp [hunmarked.endpoint] at hmarked
  unfold routeRestore
  refine Prog.Wp.bind hendpoint ?_
  rintro _ _ ⟨rfl, rfl⟩
  refine Prog.Wp.bind (wp_restorePath_unmarked hunmarked) ?_
  rintro _ _ ⟨rfl, rfl⟩
  refine Prog.Wp.bind (wp_restorePath_unmarked hunmarked) ?_
  rintro _ _ ⟨rfl, rfl⟩
  refine Prog.Wp.bind (wp_restorePath_unmarked hunmarked) ?_
  rintro _ _ ⟨rfl, rfl⟩
  exact h.withMarks h.stay (.inr ⟨hunmarked, hunmarked.endpoint⟩)

/-! ### Runs -/

/-- One apply or one restore, with one stream of answers. -/
def RouteStep (s s' : RouteState) : Prop :=
  ∃ answers, s' = (routeApply.run answers s).2 ∨ s' = (routeRestore.run answers s).2

theorem Routed.step (h : Routed start s) (hstep : RouteStep s s') : Routed start s' := by
  obtain ⟨answers, rfl | rfl⟩ := hstep
  · exact (wp_routeApply h).runAny answers
  · by_cases hdirty : s.plan.routeDirty = true
    · exact (wp_routeRestore_dirty h hdirty).runAny answers
    · exact (wp_routeRestore_clean h (by simpa using hdirty)).runAny answers

theorem Routed.run (h : Routed start s) (hrun : Relation.ReflTransGen RouteStep s s') :
    Routed start s' := by
  induction hrun with
  | refl => exact h
  | tail _ hstep ih => exact ih.step hstep

/-- The registers of a plan hold the originals it captured. -/
structure HoldsOriginals (plan : RuntimePlan) (s : RouteState) : Prop where
  bridges : ∀ path, ∀ bridge ∈ plan.bridges path,
    s.bridgeControl bridge.record = bridge.originalBridgeControl
  endpoint : s.command plan.target.address = plan.target.originalCommand

theorem HoldsOriginals.at {plan : RuntimePlan} {bridge : PlanBridge} (h : HoldsOriginals plan s)
    (hat : plan.At path index bridge) :
    s.bridgeControl bridge.record = bridge.originalBridgeControl :=
  h.bridges path bridge (List.mem_of_getElem? hat)

theorem HoldsOriginals.routed (h : HoldsOriginals start.plan start)
    (hfresh : start.plan.routeDirty = false → Unmarked start) : Routed start start where
  target := rfl
  command := h.endpoint.symm
  lengths _ := rfl
  records _ _ bridge hat := ⟨bridge, hat, rfl⟩
  originals _ _ _ hat := (h.at hat).symm
  marked _ hne := absurd rfl hne
  endpoint _ hne := absurd rfl hne
  clean := hfresh

/-- **The route is applied and restored safely.** From originals captured with no mark set, through any
applies and restores: a route that is not dirty has every register at its original; while a register
differs, the route is dirty and the plan cannot be released; and the plan keeps the originals. -/
theorem route_safe (horiginals : HoldsOriginals start.plan start)
    (hfresh : start.plan.routeDirty = false → Unmarked start)
    (hrun : Relation.ReflTransGen RouteStep start s) :
    (s.plan.routeDirty = false → HoldsOriginals start.plan s) ∧
      (¬ HoldsOriginals start.plan s → s.plan.routeDirty = true ∧
        ∀ answers, nativeCsmVgaRuntimePlanRelease.run answers s = (.accessDenied, s)) ∧
      s.plan.target = start.plan.target ∧
      ∀ path index bridge, s.plan.At path index bridge → ∃ first, start.plan.At path index first ∧
        first.record = bridge.record ∧ first.originalBridgeControl = bridge.originalBridgeControl := by
  have hrouted : Routed start s := (horiginals.routed hfresh).run hrun
  have hclean : s.plan.routeDirty = false → HoldsOriginals start.plan s := by
    intro hclean
    obtain ⟨hbridges, hcommand⟩ := hrouted.registers_eq (hrouted.clean hclean)
    constructor
    · rw [hbridges]
      exact horiginals.bridges
    · rw [hcommand]
      exact horiginals.endpoint
  refine ⟨hclean, fun hdiffers => ?_, hrouted.target, fun path index bridge hat => ?_⟩
  · have hdirty : s.plan.routeDirty = true := by
      by_contra hnot
      exact hdiffers (hclean (by simpa using hnot))
    refine ⟨hdirty, fun answers => ?_⟩
    unfold nativeCsmVgaRuntimePlanRelease
    rw [Prog.run_bind_get]
    simp only [hdirty, Bool.true_or, if_true]
    rfl
  · obtain ⟨first, hfirst, hrecord⟩ := hrouted.records path index bridge hat
    refine ⟨first, hfirst, hrecord, ?_⟩
    rw [hrouted.originals path index bridge hat, ← hrecord]
    exact (horiginals.at hfirst).symm

/-! ### A route that is restored at the second attempt -/

def sampleBridge : PlanBridge :=
  { record := { segment := 0, bus := 0, device := 1, function := 0 }, originalBridgeControl := 0 }

def sampleRoute : RouteState where
  plan :=
    { ioDecoding := .on
      memoryDecoding := .on
      busMastering := .ignore
      target :=
        { address := { segment := 0, bus := 1, device := 0, function := 0 }, originalCommand := 4 }
      sharedPath := []
      activeExclusivePath := []
      targetExclusivePath := [sampleBridge] }
  bridgeControl := fun _ => 0
  command := fun _ => 4

/-- The third call fails: the write of the target's command, without effect. -/
def sampleFailedWrite (n : Nat) : PciAnswer :=
  if n = 2 then { status := .deviceError, left := some 4 } else { status := .success }

/-- The state after an apply that stops at the target. -/
def sampleStopped : RouteState := (routeApply.run sampleFailedWrite sampleRoute).2

/-- And after a restore whose first write fails, with effect. -/
def sampleRetried : RouteState :=
  (routeRestore.run (fun _ => { status := .deviceError }) sampleStopped).2

theorem route_safe_sample :
    HoldsOriginals sampleRoute.plan
      (routeRestore.run (fun _ => { status := .success }) sampleRetried).2 := by
  have hstopped : RouteStep sampleRoute sampleStopped := ⟨sampleFailedWrite, .inl rfl⟩
  have hretried : RouteStep sampleStopped sampleRetried :=
    ⟨fun _ => { status := .deviceError }, .inr rfl⟩
  have hrestored : RouteStep sampleRetried
      (routeRestore.run (fun _ => { status := .success }) sampleRetried).2 :=
    ⟨fun _ => { status := .success }, .inr rfl⟩
  have horiginals : HoldsOriginals sampleRoute.plan sampleRoute := by
    constructor
    · intro path bridge hbridge
      cases path <;> simp_all [sampleRoute, RuntimePlan.bridges, sampleBridge]
    · rfl
  have hfresh : Unmarked sampleRoute := by
    constructor
    · intro path index bridge hat
      have hbridge := List.mem_of_getElem? hat
      cases path <;> simp_all [sampleRoute, RuntimePlan.bridges, sampleBridge]
    · rfl
  have hsafe := route_safe horiginals (fun _ => hfresh)
    (((Relation.ReflTransGen.single hstopped).tail hretried).tail hrestored)
  exact hsafe.1 (by decide +kernel)

end CsmVgaSelector
