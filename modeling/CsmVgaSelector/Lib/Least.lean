import Mathlib.Data.List.Nodup
import Mathlib.Data.Set.Function
import Mathlib.Order.Basic

/-!
# The least of the eligible items

A scan keeps the first item that is before all others it has seen. Where "before" compares a key, the item it
ends with has the least key; and where no two items have the same key, it does not depend on their order.
-/

namespace Least

variable {α κ : Type} (eligible : α → Bool) (before : α → α → Bool)

/-- One item against the best so far. -/
def step (best : Option (α × Nat)) (entry : α × Nat) : Option (α × Nat) :=
  if !eligible entry.1 then best
  else
    match best with
    | none => some entry
    | some bestEntry => if before entry.1 bestEntry.1 then some entry else some bestEntry

/-- The index of the item that the scan ends with. -/
def scan (items : List α) : Option Nat := (items.zipIdx.foldl (step eligible before) none).map Prod.snd

variable [LinearOrder κ] (key : α → κ)

/-- No eligible entry has a key below that of the best one. -/
def IsBest (entries : List (α × Nat)) : Option (α × Nat) → Prop
  | none => ∀ entry ∈ entries, eligible entry.1 = false
  | some best => best ∈ entries ∧ eligible best.1 = true ∧
      ∀ entry ∈ entries, eligible entry.1 = true → key best.1 ≤ key entry.1

variable {eligible before key} {items items' : List α} {entries : List (α × Nat)} {best : Option (α × Nat)}
  {entry : α × Nat}

theorem IsBest.step (hbefore : ∀ item other, before item other = true ↔ key item < key other)
    (h : IsBest eligible key entries best) :
    IsBest eligible key (entries ++ [entry]) (step eligible before best entry) := by
  unfold Least.step
  split
  case isTrue hineligible =>
    have hnot : eligible entry.1 = false := by simpa using hineligible
    cases best with
    | none =>
        intro other hother
        rcases List.mem_append.mp hother with hother | hother
        · exact h other hother
        · rwa [List.mem_singleton.mp hother]
    | some bestEntry =>
        refine ⟨List.mem_append_left _ h.1, h.2.1, fun other hother heligible => ?_⟩
        rcases List.mem_append.mp hother with hother | hother
        · exact h.2.2 other hother heligible
        · rw [List.mem_singleton.mp hother, hnot] at heligible
          cases heligible
  case isFalse heligible =>
    have heligible : eligible entry.1 = true := by simpa using heligible
    have hlast : entry ∈ entries ++ [entry] := List.mem_append_right _ List.mem_cons_self
    cases best with
    | none =>
        refine ⟨hlast, heligible, fun other hother hother' => ?_⟩
        rcases List.mem_append.mp hother with hother | hother
        · cases (h other hother).symm.trans hother'
        · rw [List.mem_singleton.mp hother]
    | some bestEntry =>
        dsimp only
        split
        case isTrue hless =>
          have hless := (hbefore _ _).mp hless
          refine ⟨hlast, heligible, fun other hother hother' => ?_⟩
          rcases List.mem_append.mp hother with hother | hother
          · exact le_trans hless.le (h.2.2 other hother hother')
          · rw [List.mem_singleton.mp hother]
        case isFalse hless =>
          have hle : key bestEntry.1 ≤ key entry.1 := not_lt.mp (mt (hbefore _ _).mpr hless)
          refine ⟨List.mem_append_left _ h.1, h.2.1, fun other hother hother' => ?_⟩
          rcases List.mem_append.mp hother with hother | hother
          · exact h.2.2 other hother hother'
          · rwa [List.mem_singleton.mp hother]

theorem IsBest.run (hbefore : ∀ item other, before item other = true ↔ key item < key other)
    {rest : List (α × Nat)} (h : IsBest eligible key entries best) :
    IsBest eligible key (entries ++ rest) (rest.foldl (Least.step eligible before) best) := by
  induction rest generalizing entries best with
  | nil => rwa [List.append_nil]
  | cons entry rest ih =>
      rw [List.foldl_cons, ← List.singleton_append, ← List.append_assoc]
      exact ih (h.step hbefore)

variable (eligible key) in
/-- An eligible item with the least key. -/
def IsLeast (items : List α) (item : α) : Prop :=
  item ∈ items ∧ eligible item = true ∧ ∀ other ∈ items, eligible other = true → key item ≤ key other

theorem IsLeast.unique (hkey : Set.InjOn key {item | item ∈ items}) {item item' : α}
    (h : IsLeast eligible key items item) (h' : IsLeast eligible key items item') : item = item' :=
  hkey h.1 h'.1 (le_antisymm (h.2.2 item' h'.1 h'.2.1) (h'.2.2 item h.1 h.2.1))

/-- What the scan ends with. -/
theorem scan_cases (hbefore : ∀ item other, before item other = true ↔ key item < key other) (items : List α) :
    (scan eligible before items = none ∧ ∀ item ∈ items, eligible item = false) ∨
      ∃ index item, scan eligible before items = some index ∧ items[index]? = some item ∧
        IsLeast eligible key items item := by
  have hstart : IsBest eligible key [] none := fun entry hentry => absurd hentry List.not_mem_nil
  have hbest : IsBest eligible key ([] ++ items.zipIdx) _ := hstart.run hbefore
  rw [List.nil_append] at hbest
  unfold scan
  cases hresult : items.zipIdx.foldl (Least.step eligible before) none with
  | none =>
      rw [hresult] at hbest
      refine .inl ⟨rfl, fun item hitem => ?_⟩
      obtain ⟨index, hindex⟩ := List.mem_iff_getElem?.mp hitem
      exact hbest (item, index) (List.mem_zipIdx_iff_getElem?.mpr hindex)
  | some entry =>
      rw [hresult] at hbest
      obtain ⟨hmem, heligible, hleast⟩ := hbest
      have hget := List.mem_zipIdx_iff_getElem?.mp hmem
      refine .inr ⟨entry.2, entry.1, rfl, hget, List.mem_of_getElem? hget, heligible,
        fun other hother hother' => ?_⟩
      obtain ⟨index, hindex⟩ := List.mem_iff_getElem?.mp hother
      exact hleast (other, index) (List.mem_zipIdx_iff_getElem?.mpr hindex) hother'

/-- The scan gives exactly the index of the least item. -/
theorem scan_eq_some (hbefore : ∀ item other, before item other = true ↔ key item < key other)
    (hkeys : (items.map key).Nodup) {index : Nat} :
    scan eligible before items = some index ↔
      ∃ item, items[index]? = some item ∧ IsLeast eligible key items item := by
  have hkey : Set.InjOn key {item | item ∈ items} := fun item hitem item' hitem' h =>
    List.inj_on_of_nodup_map hkeys hitem hitem' h
  rcases scan_cases hbefore items with ⟨hnone, hineligible⟩ | ⟨index', item', hsome, hget', hleast'⟩
  · rw [hnone]
    refine ⟨nofun, ?_⟩
    rintro ⟨item, -, hmem, heligible, -⟩
    cases (hineligible item hmem).symm.trans heligible
  · rw [hsome, Option.some.injEq]
    constructor
    · rintro rfl
      exact ⟨item', hget', hleast'⟩
    · rintro ⟨item, hget, hleast⟩
      obtain rfl := hleast.unique hkey hleast'
      obtain ⟨hindex, hitem⟩ := List.getElem?_eq_some_iff.mp hget
      obtain ⟨hindex', hitem'⟩ := List.getElem?_eq_some_iff.mp hget'
      exact (List.Nodup.of_map key hkeys).getElem_inj_iff.mp (hitem'.trans hitem.symm)

/-- The scan gives the same item for every order of the items. -/
theorem scan_perm (hbefore : ∀ item other, before item other = true ↔ key item < key other)
    (hkeys : (items.map key).Nodup) (hperm : items.Perm items') :
    (scan eligible before items).bind (items[·]?) = (scan eligible before items').bind (items'[·]?) := by
  have hkey : Set.InjOn key {item | item ∈ items} := fun item hitem item' hitem' h =>
    List.inj_on_of_nodup_map hkeys hitem hitem' h
  rcases scan_cases hbefore items with ⟨hnone, hineligible⟩ | ⟨index, item, hsome, hget, hleast⟩
  · rcases scan_cases hbefore items' with ⟨hnone', -⟩ | ⟨index', item', -, -, hmem', heligible', -⟩
    · rw [hnone, hnone']
      rfl
    · cases (hineligible item' (hperm.mem_iff.mpr hmem')).symm.trans heligible'
  · rcases scan_cases hbefore items' with ⟨-, hineligible'⟩ | ⟨index', item', hsome', hget', hleast'⟩
    · cases (hineligible' item (hperm.mem_iff.mp hleast.1)).symm.trans hleast.2.1
    · have hsame : IsLeast eligible key items item' :=
        ⟨hperm.mem_iff.mpr hleast'.1, hleast'.2.1,
          fun other hother => hleast'.2.2 other (hperm.mem_iff.mp hother)⟩
      rw [hsome, hsome', Option.bind_some, Option.bind_some, hget, hget', hleast.unique hkey hsame]

/-! ### Marked items -/

variable {β : Type} {eligible' : β → Bool} {before' : β → β → Bool} {mark : Nat → α → β}

/-- An entry, marked. -/
def markEntry (mark : Nat → α → β) (entry : α × Nat) : β × Nat := (mark entry.2 entry.1, entry.2)

theorem zipIdx_mapIdx : (items.mapIdx mark).zipIdx = items.zipIdx.map (markEntry mark) := by
  apply List.ext_getElem
  · simp
  · intro index h h'
    simp [markEntry]

theorem step_mark (heligible : eligible' (mark entry.2 entry.1) = eligible entry.1)
    (hbefore : ∀ index item index' item',
      before' (mark index item) (mark index' item') = before item item') :
    step eligible' before' (best.map (markEntry mark)) (markEntry mark entry) =
      (step eligible before best entry).map (markEntry mark) := by
  have hmarked : eligible' (markEntry mark entry).1 = eligible entry.1 := heligible
  simp only [step, hmarked]
  split
  · rfl
  · cases best with
    | none => rfl
    | some bestEntry =>
        have hpair : before' (markEntry mark entry).1 (markEntry mark bestEntry).1 =
            before entry.1 bestEntry.1 := hbefore ..
        simp only [Option.map_some, hpair]
        split
        · rfl
        · rfl

/-- A scan of marked items, where a mark changes nothing that the scan looks at. -/
theorem scan_mapIdx
    (heligible : ∀ index item, items[index]? = some item → eligible' (mark index item) = eligible item)
    (hbefore : ∀ index item index' item',
      before' (mark index item) (mark index' item') = before item item') :
    scan eligible' before' (items.mapIdx mark) = scan eligible before items := by
  have hfold (entries : List (α × Nat)) (hentries : ∀ entry ∈ entries, items[entry.2]? = some entry.1)
      (best : Option (α × Nat)) :
      (entries.map (markEntry mark)).foldl (step eligible' before') (best.map (markEntry mark)) =
        (entries.foldl (step eligible before) best).map (markEntry mark) := by
    induction entries generalizing best with
    | nil => rfl
    | cons entry entries ih =>
        rw [List.forall_mem_cons] at hentries
        rw [List.map_cons, List.foldl_cons, List.foldl_cons,
          step_mark (heligible entry.2 entry.1 hentries.1) hbefore]
        exact ih hentries.2 _
  have hscan := hfold items.zipIdx (fun entry hentry => List.mem_zipIdx_iff_getElem?.mp hentry) none
  rw [Option.map_none] at hscan
  rw [scan, scan, zipIdx_mapIdx, hscan, Option.map_map]
  rfl

end Least
