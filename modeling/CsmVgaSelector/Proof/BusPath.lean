import CsmVgaSelector.Lib.Climb
import CsmVgaSelector.Pci.BusPath
import CsmVgaSelector.Proof.BridgePath
import Mathlib.Data.List.Perm.Subperm

/-!
# What the path by bus numbers is

The search succeeds exactly when going up from the device's bus, by the only bridge there is to each bus, ends at
bus zero; neither of its two tests against going round can then fail. Where the device path gives a path too, the
two have the same bridges from the device up, and they are one path where the root bridge is the one on bus zero.
-/

namespace CsmVgaSelector

open Climb

variable {inventory : PciInventory} {selected : PciDeviceRecord} {path : List Nat} {index bus : Nat}

/-! ### One bridge up -/

/-- The only bridge to the bus. -/
def busParent (inventory : PciInventory) (selected : PciDeviceRecord) (bus : Nat) : Option Nat :=
  match bridgesToBus inventory selected bus with
  | [candidate] => some candidate
  | _ => none

/-- The bridges from the device up, each the only one to the bus below it, the last and no other on bus zero. -/
abbrev BusClimb (inventory : PciInventory) (selected : PciDeviceRecord) : Nat → List Nat → Prop :=
  Climbs (busParent inventory selected) (inventory[·]!.bus) 0

theorem busParent_eq_some : busParent inventory selected bus = some index ↔
    bridgesToBus inventory selected bus = [index] := by
  unfold busParent
  split
  case h_1 candidate hone => rw [hone, Option.some.injEq, List.cons.injEq, and_iff_left rfl]
  case h_2 hnone =>
    refine iff_of_false (fun h => by cases h) fun h => hnone index h

theorem mem_bridgesToBus : index ∈ bridgesToBus inventory selected bus ↔
    index < inventory.length ∧ isBridgeToBus selected bus inventory[index]! = true := by
  rw [bridgesToBus, List.mem_filter, List.mem_range]

theorem busParent_bridge (h : busParent inventory selected bus = some index) :
    index < inventory.length ∧ isBridgeToBus selected bus inventory[index]! = true :=
  mem_bridgesToBus.mp (by simp [busParent_eq_some.mp h])

/-! ### The walk -/

/-- A walk that ends at bus zero has climbed, and one that ran out of records has taken them all. -/
theorem walkBuses_ok {remaining : Nat} {taken : List Nat}
    (h : walkBuses inventory selected remaining bus taken = .ok path) :
    (∃ links, path = taken ++ links ∧ BusClimb inventory selected bus links) ∨
      ∃ links, path = taken ++ links ∧ links.length = remaining ∧ (taken.Nodup → path.Nodup) ∧
        ∀ index ∈ links, index < inventory.length ∧ recordIsP2pBridge inventory[index]! = true := by
  induction remaining generalizing bus taken with
  | zero =>
      cases h
      exact .inr ⟨[], by simp, rfl, id, by simp⟩
  | succ remaining ih =>
      unfold walkBuses at h
      split at h
      case isTrue hroot =>
        cases h
        exact .inl ⟨[], by simp, hroot ▸ .done⟩
      case isFalse hbelow =>
        split at h
        case h_1 => cases h
        case h_3 => cases h
        case h_2 candidate hone =>
          split at h
          case isTrue => cases h
          split at h
          case isTrue => cases h
          case isFalse hfresh =>
            have hup := busParent_eq_some.mpr hone
            obtain ⟨links, hpath, hclimb⟩ | ⟨links, hpath, hlength, hnodup, hbridges⟩ := ih h
            · exact .inl ⟨candidate :: links, by simp [hpath], .step hbelow hup hclimb⟩
            · refine .inr ⟨candidate :: links, by simp [hpath], by simp [hlength], ?_, ?_⟩
              · intro htaken
                refine hnodup (List.Nodup.append htaken (List.nodup_singleton _) ?_)
                simpa using hfresh
              · intro index hindex
                rcases List.mem_cons.mp hindex with rfl | hlater
                · obtain ⟨hlt, hbridge⟩ := busParent_bridge hup
                  simp only [isBridgeToBus, Bool.and_eq_true] at hbridge
                  exact ⟨hlt, hbridge.1.1.1.2⟩
                · exact hbridges index hlater

/-- Along a climb the walk finds no bridge it has passed. -/
theorem walkBuses_climb {remaining : Nat} {taken links : List Nat}
    (h : BusClimb inventory selected bus links) (hroom : links.length ≤ remaining)
    (hfresh : (taken ++ links).Nodup) :
    walkBuses inventory selected remaining bus taken = .ok (taken ++ links) := by
  induction h generalizing remaining taken with
  | done =>
      rw [List.append_nil]
      cases remaining <;> rfl
  | @step bus candidate links hbelow hup hrest ih =>
      obtain ⟨room, rfl⟩ : ∃ room, remaining = room + 1 := ⟨remaining - 1, by simp at hroom; omega⟩
      have hother : inventory[candidate]!.bus ≠ bus := by
        intro hsame
        have hstep : BusClimb inventory selected bus (candidate :: links) := .step hbelow hup hrest
        have hlength := congrArg List.length ((hsame ▸ hrest).unique hstep)
        simp only [List.length_cons] at hlength
        omega
      have hnew : candidate ∉ taken := fun hmem =>
        (List.nodup_append.mp hfresh).2.2 candidate hmem candidate (List.mem_cons_self ..) rfl
      unfold walkBuses
      rw [if_neg hbelow, busParent_eq_some.mp hup]
      dsimp only
      rw [if_neg hother, if_neg hnew, ih (by simpa using hroom) (by simpa using hfresh)]
      simp

theorem BusClimb.lt_length {links : List Nat} (h : BusClimb inventory selected bus links) :
    ∀ index ∈ links, index < inventory.length := by
  induction h with
  | done => simp
  | step _ hup _ ih =>
      intro index hindex
      rcases List.mem_cons.mp hindex with rfl | hlater
      · exact (busParent_bridge hup).1
      · exact ih index hlater

/-- No path of an inventory is longer than the inventory. -/
theorem length_le_of_nodup (hnodup : path.Nodup) (hlt : ∀ index ∈ path, index < inventory.length) :
    path.length ≤ inventory.length := by
  have hsub : path ⊆ List.range inventory.length := fun index hindex => List.mem_range.mpr (hlt index hindex)
  have hlength := (List.subperm_of_subset hnodup hsub).length_le
  rwa [List.length_range] at hlength

theorem not_isP2pBridge_of_display {record : PciDeviceRecord} (h : recordIsDisplay record = true) :
    recordIsP2pBridge record = false := by
  have hclass : record.config[pciBaseClassOffset]! = pciBaseClassDisplay := by
    simp only [recordIsDisplay, Bool.and_eq_true, beq_iff_eq] at h
    exact h.2
  rw [recordIsP2pBridge, hclass, show (pciBaseClassDisplay == pciBaseClassBridge) = false from rfl]
  simp

/-- **When the search by bus numbers succeeds.** Its path is the climb from the device's bus to bus zero. -/
theorem busPath_exact (hmem : selected ∈ inventory) (hdisplay : recordIsDisplay selected = true) :
    buildBusBridgePath inventory selected = .ok path ↔
      path ≠ [] ∧ BusClimb inventory selected selected.bus path.reverse := by
  unfold buildBusBridgePath
  constructor
  · intro h
    split at h
    case h_1 => cases h
    case h_2 links hwalk =>
      split at h
      case isTrue => cases h
      case isFalse hne =>
        cases h
        refine ⟨by simpa using hne, ?_⟩
        rw [List.reverse_reverse]
        obtain ⟨links', hlinks, hclimb⟩ | ⟨links', hlinks, hlength, hnodup, hbridges⟩ := walkBuses_ok hwalk
        · exact hlinks ▸ hclimb
        · -- a path of all the records would have the display itself on it
          obtain ⟨place, hplace, rfl⟩ := List.getElem_of_mem hmem
          rw [List.nil_append] at hlinks
          subst hlinks
          have hsub : links ⊆ List.range inventory.length :=
            fun index hindex => List.mem_range.mpr (hbridges index hindex).1
          have hall : links.Perm (List.range inventory.length) :=
            (List.subperm_of_subset (hnodup List.nodup_nil) hsub).perm_of_length_le (by simp [hlength])
          have hself := (hbridges place (hall.symm.subset (List.mem_range.mpr hplace))).2
          rw [getElem!_pos inventory place hplace, not_isP2pBridge_of_display hdisplay] at hself
          cases hself
  · rintro ⟨hne, hclimb⟩
    have hroom := length_le_of_nodup hclimb.nodup hclimb.lt_length
    have hwalk := @walkBuses_climb _ _ _ _ [] _ hclimb hroom (by simpa using hclimb.nodup)
    rw [hwalk]
    simp [hne]

/-- A display below one bridge. -/
theorem busPath_exact_one :
    buildBusBridgePath [sampleP2pBridge [1] 0 1 1 0, displayOnBus [1, 0] 1] (displayOnBus [1, 0] 1) = .ok [0] ∧
      BusClimb [sampleP2pBridge [1] 0 1 1 0, displayOnBus [1, 0] 1] (displayOnBus [1, 0] 1) 1 [0] := by
  have hpath : buildBusBridgePath [sampleP2pBridge [1] 0 1 1 0, displayOnBus [1, 0] 1]
      (displayOnBus [1, 0] 1) = .ok [0] := by decide +kernel
  exact ⟨hpath, ((busPath_exact (by decide +kernel) (by decide +kernel)).mp hpath).2⟩

/-! ### The two paths -/

/-- The bridges of a device path stand one above the other by their bus registers too. -/
theorem leads_of_crossCheck (h : crossCheckBridgePath inventory selected path = .success)
    (hpath : ∀ index ∈ path, index < inventory.length ∧ isUpstreamBridge selected inventory[index]! = true) :
    Leads (fun bus index => index ∈ bridgesToBus inventory selected bus) (inventory[·]!.bus) selected.bus
      path.reverse := by
  induction path with
  | nil => exact .nil
  | cons index rest ih =>
      unfold crossCheckBridgePath at h
      split at h
      case isFalse => cases h
      case isTrue hagrees =>
        have hrest := ih h fun index hindex => hpath index (List.mem_cons_of_mem _ hindex)
        rw [List.reverse_cons]
        refine hrest.concat ?_
        obtain ⟨hlt, hupstream⟩ := hpath index (List.mem_cons_self ..)
        obtain ⟨hprimary, hsecondary, -⟩ := bridgeAgrees_iff.mp hagrees
        simp only [isUpstreamBridge, Bool.and_eq_true, beq_iff_eq] at hupstream
        obtain ⟨⟨⟨hvalid, hbridge⟩, hsegment⟩, -⟩ := hupstream
        have hchild : ((rest.reverse.getLast?.map (inventory[·]!.bus)).getD selected.bus) =
            childBus inventory selected rest := by
          cases rest <;> simp [childBus]
        rw [mem_bridgesToBus, hchild]
        refine ⟨hlt, ?_⟩
        simp only [isBridgeToBus, Bool.and_eq_true, beq_iff_eq]
        exact ⟨⟨⟨⟨hvalid, hbridge⟩, hsegment⟩, hsecondary⟩, hprimary⟩

theorem buildDevicePathBridgePath_upstream (h : buildDevicePathBridgePath inventory selected = .ok path) :
    ∀ index ∈ path, index < inventory.length ∧ isUpstreamBridge selected inventory[index]! = true := by
  unfold buildDevicePathBridgePath at h
  split at h
  case h_1 => cases h
  dsimp only at h
  split at h
  case h_1 => cases h
  split at h
  case isTrue => cases h
  cases h
  intro index hindex
  simpa using sortPathByDevicePathSize_perm.subset hindex

theorem busParent_only : Only (busParent inventory selected)
    fun bus index => index ∈ bridgesToBus inventory selected bus := by
  intro bus index index' hup habove
  simpa [busParent_eq_some.mp hup] using habove

/-- **Where both searches succeed.** From the device up they have the same bridges, as far as the shorter of
the two goes; which it is, the bridges on bus zero decide, and the paths are one where the root bridge of the
device path is the only bridge of it on bus zero. -/
theorem busPath_agrees {devicePath : List Nat} (hmem : selected ∈ inventory)
    (hdisplay : recordIsDisplay selected = true)
    (hdevice : buildDevicePathBridgePath inventory selected = .ok devicePath)
    (hcheck : crossCheckBridgePath inventory selected devicePath = .success)
    (hbus : buildBusBridgePath inventory selected = .ok path) :
    ((∀ index ∈ devicePath, inventory[index]!.bus ≠ 0) → devicePath <:+ path) ∧
    ((∃ index ∈ devicePath, inventory[index]!.bus = 0) → path <:+ devicePath) ∧
    (path = devicePath ↔ ∃ root rest, devicePath = root :: rest ∧ inventory[root]!.bus = 0 ∧
      ∀ index ∈ rest, inventory[index]!.bus ≠ 0) := by
  obtain ⟨hne, hclimb⟩ := (busPath_exact hmem hdisplay).mp hbus
  have hleads := leads_of_crossCheck hcheck (buildDevicePathBridgePath_upstream hdevice)
  have hplace : selected.bus ≠ 0 := by
    intro hzero
    rw [hzero] at hclimb
    exact hne (by simpa using hclimb.unique .done)
  refine ⟨fun hbelow => ?_, fun ⟨index, hindex, hzero⟩ => ?_, ?_, ?_⟩
  · have hprefix := hleads.prefix_climbs busParent_only hclimb hplace (by simpa using hbelow)
    exact List.reverse_prefix.mp hprefix
  · have hprefix := hleads.climbs_prefix busParent_only hclimb ⟨index, by simpa using hindex, hzero⟩
    exact List.reverse_prefix.mp hprefix
  · rintro rfl
    obtain ⟨root, rest, rfl⟩ := List.exists_cons_of_ne_nil hne
    rw [List.reverse_cons] at hclimb
    refine ⟨root, rest, rfl, hclimb.base_last, fun index hindex => ?_⟩
    exact hclimb.base_init index (by simpa using hindex)
  · rintro ⟨root, rest, rfl, hroot, hrest⟩
    rw [List.reverse_cons] at hleads
    have hsame := hleads.eq_climbs busParent_only hclimb hplace (by simpa using hrest) hroot
    rw [← List.reverse_inj, hsame, List.reverse_cons]

/-- Two bridges, the upper of them on bus zero. -/
theorem busPath_agrees_two :
    [0, 1] <:+ [0, 1] ∧ buildBusBridgePath
      [sampleP2pBridge [1] 0 1 2 0, sampleP2pBridge [1, 0] 1 2 2 0, displayOnBus [1, 0, 0] 2]
      (displayOnBus [1, 0, 0] 2) = .ok [0, 1] := by
  have hpath : buildBusBridgePath
      [sampleP2pBridge [1] 0 1 2 0, sampleP2pBridge [1, 0] 1 2 2 0, displayOnBus [1, 0, 0] 2]
      (displayOnBus [1, 0, 0] 2) = .ok [0, 1] := by decide +kernel
  refine ⟨?_, hpath⟩
  refine (busPath_agrees (by decide +kernel) (by decide +kernel) ?_ ?_ hpath).2.1 ⟨0, ?_, ?_⟩ <;>
    decide +kernel

end CsmVgaSelector
