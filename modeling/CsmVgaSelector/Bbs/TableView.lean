import CsmVgaSelector.Bbs.Table
import Mathlib.Logic.Function.Basic

/-!
# A table as identities and priorities

The transaction's view of a table is two things: the identities of its rows, which never change, and
the priority of each row, which is memory that can be written one cell at a time. The two determine the
table.
-/

namespace CsmVgaSelector

/-- The rows without their priorities. -/
def identities (table : List BbsTable) : List BbsTable := table.map (·.withPriority 0)

/-- The priority of each row. -/
def priorities (table : List BbsTable) (index : Nat) : UInt16 := table[index]!.bootPriority

/-- The table with a vector of priorities substituted. -/
def withPriorities (table : List BbsTable) (priorities : List UInt16) : List BbsTable :=
  List.zipWith BbsTable.withPriority table priorities

variable {table other : List BbsTable}

theorem length_eq_of_identities (h : identities table = identities other) :
    table.length = other.length := by
  simpa [identities] using congrArg List.length h

theorem priorities_of_length_le {index : Nat} (h : table.length ≤ index) :
    priorities table index = 0 := by
  rw [priorities, List.getElem!_eq_getElem?_getD, List.getElem?_eq_none h]
  rfl

/-- Identities agree exactly when they do row by row. -/
theorem identities_eq_iff (hlength : table.length = other.length) :
    identities table = identities other ↔
      ∀ index < other.length, table[index]!.sameIdentity other[index]! := by
  constructor
  · intro h index hindex
    have hget := congrArg (·[index]?) h
    simp only [identities, List.getElem?_map] at hget
    rw [BbsTable.sameIdentity_iff]
    have htable : index < table.length := hlength ▸ hindex
    simpa [List.getElem?_eq_getElem, hindex, htable] using hget
  · intro h
    refine List.ext_getElem (by simp [identities, hlength]) fun index hleft hright => ?_
    have hindex : index < other.length := by simpa [identities] using hright
    have htable : index < table.length := by simpa [identities] using hleft
    have hrow := BbsTable.sameIdentity_iff.mp (h index hindex)
    simpa [identities, hindex, htable] using hrow

/-- **Identities and priorities determine the table.** -/
theorem eq_of_identities_of_priorities (hidentities : identities table = identities other)
    (hpriorities : priorities table = priorities other) : table = other := by
  have hlength := length_eq_of_identities hidentities
  refine List.ext_getElem hlength fun index hleft hright => ?_
  have hrow := (identities_eq_iff hlength).mp hidentities index hright
  have hpriority := congrFun hpriorities index
  simp only [priorities, getElem!_pos, hleft, hright] at hpriority hrow
  exact BbsTable.eq_of_sameIdentity hrow hpriority

/-! ### Writing one priority -/

variable {index : Nat} {priority : UInt16}

@[simp] theorem identities_modify :
    identities (table.modify index (·.withPriority priority)) = identities table := by
  refine List.ext_getElem? fun i => ?_
  simp only [identities, List.getElem?_map, List.getElem?_modify]
  by_cases hi : index = i <;> cases table[i]? <;> simp [hi]

theorem priorities_modify (hindex : index < table.length) :
    priorities (table.modify index (·.withPriority priority)) =
      Function.update (priorities table) index priority := by
  funext i
  simp only [priorities, List.getElem!_eq_getElem?_getD, List.getElem?_modify]
  by_cases hi : i = index
  · subst hi
    simp [hindex]
  · have hne : index ≠ i := Ne.symm hi
    cases hrow : table[i]? <;> simp [Function.update_of_ne hi, hne, priorities, hrow]

theorem getElem!_modify_self (hindex : index < table.length) :
    (table.modify index (·.withPriority priority))[index]! =
      table[index]!.withPriority priority := by
  simp [hindex]

/-! ### Substituted priorities -/

variable {planned : List UInt16}

theorem length_withPriorities (hlength : planned.length = table.length) :
    (withPriorities table planned).length = table.length := by
  simp [withPriorities, hlength]

theorem identities_withPriorities (hlength : planned.length = table.length) :
    identities (withPriorities table planned) = identities table := by
  refine List.ext_getElem (by simp [identities, withPriorities, hlength]) fun i _ _ => ?_
  simp [identities, withPriorities]

theorem priorities_withPriorities (hlength : planned.length = table.length) :
    priorities (withPriorities table planned) = (planned[·]!) := by
  funext i
  by_cases hi : i < table.length
  · have hplanned : i < planned.length := hlength ▸ hi
    have hrow : i < (withPriorities table planned).length := by rwa [length_withPriorities hlength]
    rw [priorities, getElem!_pos _ i hrow, getElem!_pos planned i hplanned]
    simp only [withPriorities, List.getElem_zipWith, BbsTable.withPriority_bootPriority]
  · have hplanned : planned.length ≤ i := by omega
    rw [priorities_of_length_le (by rw [length_withPriorities hlength]; omega)]
    simp only [List.getElem!_eq_getElem?_getD, List.getElem?_eq_none hplanned]
    rfl

/-- The priorities of a table as a vector say the same as its priorities as a function. -/
theorem getElem!_map_bootPriority (index : Nat) :
    (table.map BbsTable.bootPriority)[index]! = priorities table index := by
  simp only [priorities, List.getElem!_eq_getElem?_getD, List.getElem?_map]
  cases table[index]? <;> rfl

end CsmVgaSelector
