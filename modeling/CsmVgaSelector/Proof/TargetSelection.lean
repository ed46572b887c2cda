import CsmVgaSelector.Lib.Round
import CsmVgaSelector.Selector.TargetSelection

/-!
# The confirmation of the targets

A pair is accepted on a review screen that shows it, and an acknowledgement counts only in the review it was
given in. Going right passes every eligible candidate once before it is back (`selectBootTargets_exact`).
-/

namespace CsmVgaSelector

open Function Round

/-! ### Going around the candidates -/

section

variable {eligible : List Bool} {current n x m : Nat}

def eligibleAt (eligible : List Bool) (index : Nat) : Bool := eligible.getD index false

/-- One place to the right of `n`. -/
def rightOf (n index : Nat) : Nat := (index + 1) % n

def leftOf (n index : Nat) : Nat := (index + n - 1) % n

theorem rightOf_iterate (hx : x < n) : (rightOf n)^[m] x = (x + m) % n := by
  induction m with
  | zero => exact (Nat.mod_eq_of_lt hx).symm
  | succ m ih => rw [iterate_succ_apply', ih, rightOf, Nat.mod_add_mod, Nat.add_assoc]

theorem leftOf_rightOf (hx : x < n) : leftOf n (rightOf n x) = x := by
  unfold leftOf rightOf
  rcases Nat.lt_or_ge (x + 1) n with hinside | hlast
  · rw [Nat.mod_eq_of_lt hinside, Nat.add_right_comm, Nat.add_sub_cancel, Nat.add_mod_right,
      Nat.mod_eq_of_lt hx]
  · have hn : x + 1 = n := by omega
    rw [hn, Nat.mod_self, Nat.zero_add, Nat.mod_eq_of_lt (by omega)]
    omega

theorem isCycle (hn : 0 < n) : IsCycle (rightOf n) (leftOf n) {index | index < n} n where
  forwards := fun x _ => Nat.mod_lt _ hn
  undo := fun x hx => leftOf_rightOf hx
  around := fun x hx => by rw [rightOf_iterate hx, Nat.add_mod_right, Nat.mod_eq_of_lt hx]
  passes := fun x hx y hy => by
    refine ⟨y + n - x, ?_⟩
    have hx' : x < n := hx
    have hy' : y < n := hy
    rw [rightOf_iterate hx, show x + (y + n - x) = y + n by omega, Nat.add_mod_right, Nat.mod_eq_of_lt hy']
  pos := hn

/-- The step to the side that the source takes. -/
def sideOf (backward : Bool) (n : Nat) : Nat → Nat := if backward then leftOf n else rightOf n

theorem nextFrom_eq {backward : Bool} {steps : Nat} : nextFrom eligible backward steps current =
    (next (sideOf backward eligible.length) (eligibleAt eligible) steps current).getD ncvNoSelection := by
  induction steps generalizing current with
  | zero => rfl
  | succ steps ih =>
      have hside : (if backward then (current + eligible.length - 1) % eligible.length
          else (current + 1) % eligible.length) = sideOf backward eligible.length current := by
        cases backward <;> rfl
      rw [nextFrom, next]
      simp only [hside]
      change (if eligibleAt eligible _ = true then _ else _) = _
      by_cases hfound : eligibleAt eligible (sideOf backward eligible.length current) = true
      · rw [if_pos hfound, if_pos hfound]
        rfl
      · rw [if_neg hfound, if_neg hfound]
        exact ih

theorem lt_of_eligibleAt (h : eligibleAt eligible current = true) : current < eligible.length := by
  by_contra hout
  rw [eligibleAt, List.getD_eq_getElem?_getD, List.getElem?_eq_none (Nat.not_lt.mp hout)] at h
  cases h

theorem nextCandidate_eq {backward : Bool} (h : eligibleAt eligible current = true) :
    nextCandidate eligible current backward =
      (next (sideOf backward eligible.length) (eligibleAt eligible) eligible.length current).getD
        ncvNoSelection := by
  have hlt := lt_of_eligibleAt h
  rw [nextCandidate, if_neg (by omega), if_pos hlt, nextFrom_eq]

/-- To the right is the next eligible candidate around the list. -/
theorem nextCandidate_right (h : eligibleAt eligible current = true) :
    nextCandidate eligible current false =
      step (rightOf eligible.length) (eligibleAt eligible) eligible.length current := by
  have hlt := lt_of_eligibleAt h
  obtain ⟨d, -, hnext, -⟩ := (isCycle (Nat.zero_lt_of_lt hlt)).exists_next hlt h
  have hnext' : next (sideOf false eligible.length) (eligibleAt eligible) eligible.length current = _ := hnext
  rw [nextCandidate_eq h, step, hnext, hnext']
  rfl

theorem nextCandidate_eligible (h : eligibleAt eligible current = true) :
    eligibleAt eligible (nextCandidate eligible current false) = true := by
  have hlt := lt_of_eligibleAt h
  rw [nextCandidate_right h]
  exact ((isCycle (Nat.zero_lt_of_lt hlt)).step_spec hlt h).2

/-- Left undoes right. -/
theorem nextCandidate_left (h : eligibleAt eligible current = true) :
    nextCandidate eligible (nextCandidate eligible current false) true = current := by
  have hlt := lt_of_eligibleAt h
  have hcycle := isCycle (Nat.zero_lt_of_lt hlt)
  obtain ⟨d, -, hnext, -⟩ := hcycle.exists_next hlt h
  have hback := hcycle.next_back hlt h hnext
  have hright : nextCandidate eligible current false = (rightOf eligible.length)^[d + 1] current := by
    rw [nextCandidate_right h, step, hnext]
    rfl
  have hleft : next (sideOf true eligible.length) (eligibleAt eligible) eligible.length
      (nextCandidate eligible current false) = some current := by
    rw [hright]
    exact hback
  rw [nextCandidate_eq (nextCandidate_eligible h), hleft]
  rfl

/-- Going right again and again passes every eligible candidate once before it is back. -/
theorem exists_candidate_visits (h : eligibleAt eligible current = true) :
    ∃ visits : List Nat, visits.head? = some current ∧ visits.Nodup ∧
      (∀ index, index ∈ visits ↔ eligibleAt eligible index = true) ∧
      ∀ presses, visits[presses % visits.length]? =
        some ((fun index => nextCandidate eligible index false)^[presses] current) := by
  have hlt := lt_of_eligibleAt h
  have hcycle := isCycle (Nat.zero_lt_of_lt hlt)
  obtain ⟨visits, hhead, hnodup, hmem, hget⟩ := hcycle.exists_visits hlt h
  refine ⟨visits, hhead, hnodup, fun index => ?_, fun presses => ?_⟩
  · rw [hmem]
    exact and_iff_right_of_imp lt_of_eligibleAt
  · rw [hget]
    congr 1
    induction presses with
    | zero => rfl
    | succ presses ih =>
        rw [iterate_succ_apply', iterate_succ_apply', ← ih]
        exact (nextCandidate_right (hcycle.iterate_step_spec hlt h presses).2).symm

end

/-! ### Confirmed pairs -/

def Acknowledges (key : InputKey) : Prop := key.unicodeChar = 0x61 ∨ key.unicodeChar = 0x41

/-- The pair was confirmed on the last screen, a review that shows it. If the review shows a conflict, one of
its screens before was acknowledged. -/
def Confirmed (history : List (SelectionScreen × InputKey)) (gpu disk : Nat) : Prop :=
  ∃ before during shown key, history = before ++ during ++ [(shown, key)] ∧
    shown.review = true ∧ shown.gpu = gpu ∧ shown.disk = disk ∧ key.unicodeChar = 0x0D ∧
    (∀ seen ∈ during, seen.1 = shown) ∧
    (shown.conflict = true → ∃ seen ∈ during, Acknowledges seen.2)

section

variable {displays : List NcvDisplayCandidate} {storage : List NcvStorageCandidate}
  {retained : Option NcvConfigCore} {state state' : SelectionState} {key : InputKey}
  {unchanged : EfiStatus → SelectionResult} {answers : List KeyAnswer} {result : SelectionResult}
  {history : List (SelectionScreen × InputKey)}

/-- Nothing is acknowledged outside a review. -/
def SelectionState.Sound (state : SelectionState) : Prop := state.review = false → state.confirmed = false

theorem refocus_confirmed : (state.refocus key).confirmed = state.confirmed := by
  unfold SelectionState.refocus
  split
  · rfl
  · rfl

theorem change_confirmed : (state.change displays storage key).confirmed = state.confirmed := by
  unfold SelectionState.change
  split
  · split
    · rfl
    · rfl
  · rfl

/-- What a key may do while the loop goes on. -/
theorem handleKey_again (h : handleKey displays storage retained state key = .again state') :
    state'.review = false ∧ state'.confirmed = false ∨ state' = state ∨
      state.review = true ∧ Acknowledges key ∧ state' = { state with confirmed := true } ∨
      state.review = false ∧ state'.confirmed = state.confirmed := by
  unfold handleKey at h
  split at h
  case isTrue =>
    split at h
    case isTrue =>
      cases h
      exact .inl ⟨rfl, rfl⟩
    case isFalse => cases h
  split at h
  case isTrue hack =>
    cases h
    exact .inr (.inr (.inl ⟨hack.1, hack.2, rfl⟩))
  split at h
  case isTrue =>
    split at h
    case isTrue =>
      cases h
      exact .inr (.inl rfl)
    split at h
    case isTrue hchoice =>
      cases h
      exact .inr (.inr (.inr ⟨by simpa using hchoice, rfl⟩))
    split at h
    case isTrue =>
      cases h
      exact .inr (.inl rfl)
    case isFalse => cases h
  split at h
  case isTrue =>
    cases h
    exact .inr (.inl rfl)
  case isFalse hchoice =>
    cases h
    exact .inr (.inr (.inr ⟨by simpa using hchoice, change_confirmed.trans refocus_confirmed⟩))

theorem handleKey_accepted (h : handleKey displays storage retained state key = .accepted) :
    key.unicodeChar = 0x0D ∧ state.review = true ∧ state.ready displays storage = true ∧
      (state.conflict displays storage retained = true → state.confirmed = true) := by
  unfold handleKey at h
  split at h
  case isTrue =>
    split at h
    case isTrue => cases h
    case isFalse => cases h
  split at h
  case isTrue => cases h
  split at h
  case isTrue hreturn =>
    split at h
    case isTrue => cases h
    case isFalse hready =>
      split at h
      case isTrue => cases h
      case isFalse hreview =>
        split at h
        case isTrue => cases h
        case isFalse hconflict =>
          exact ⟨hreturn, by simpa using hreview, by simpa using hready, by simpa using hconflict⟩
  case isFalse =>
    split at h
    case isTrue => cases h
    case isFalse => cases h

theorem SelectionState.Sound.again (hsound : state.Sound)
    (h : handleKey displays storage retained state key = .again state') : state'.Sound := by
  intro hreview
  rcases handleKey_again h with ⟨-, hconfirmed⟩ | rfl | ⟨hin, -, rfl⟩ | ⟨hchoice, hconfirmed⟩
  · exact hconfirmed
  · exact hsound hreview
  · rw [hin] at hreview
    cases hreview
  · rw [hconfirmed]
    exact hsound hchoice

/-- What a run from this state says about the pair it accepts. -/
structure Accepts (displays : List NcvDisplayCandidate) (storage : List NcvStorageCandidate)
    (retained : Option NcvConfigCore) (state : SelectionState) (history : List (SelectionScreen × InputKey))
    (accepted : SelectionState) : Prop where
  ready : accepted.ready displays storage = true
  screens : ∃ before during key, history =
      before ++ during ++ [(accepted.screen displays storage retained, key)] ∧
    accepted.review = true ∧ key.unicodeChar = 0x0D ∧
    (∀ seen ∈ during, seen.1 = accepted.screen displays storage retained) ∧
    (before = [] → state.screen displays storage retained = accepted.screen displays storage retained) ∧
    (accepted.conflict displays storage retained = true →
      before = [] ∧ state.confirmed = true ∨ ∃ seen ∈ during, Acknowledges seen.2)

theorem Accepts.last (hready : state.ready displays storage = true) (hreview : state.review = true)
    (hreturn : key.unicodeChar = 0x0D)
    (hconflict : state.conflict displays storage retained = true → state.confirmed = true) :
    Accepts displays storage retained state [(state.screen displays storage retained, key)] state where
  ready := hready
  screens := ⟨[], [], key, rfl, hreview, hreturn, nofun, fun _ => rfl, fun h => .inl ⟨rfl, hconflict h⟩⟩

/-- One more screen in front. -/
theorem Accepts.cons {accepted : SelectionState} (hsound : state.Sound)
    (h : handleKey displays storage retained state key = .again state')
    (hrest : Accepts displays storage retained state' history accepted) :
    Accepts displays storage retained state ((state.screen displays storage retained, key) :: history)
      accepted := by
  refine ⟨hrest.ready, ?_⟩
  obtain ⟨before, during, final, rfl, hreview, hreturn, hduring, hfirst, hconflict⟩ := hrest.screens
  rcases before with _ | ⟨first, before⟩
  case cons =>
    exact ⟨(state.screen displays storage retained, key) :: first :: before, during, final, rfl, hreview, hreturn,
      hduring, nofun, fun hshown => .inr ((hconflict hshown).resolve_left fun hempty => by cases hempty.1)⟩
  have hscreen' := hfirst rfl
  have hreview' : state'.review = true := by
    have hsame := congrArg SelectionScreen.review hscreen'
    exact hsame.trans hreview
  rcases handleKey_again h with ⟨hchoice, -⟩ | rfl | ⟨hin, hack, rfl⟩ | ⟨hchoice, hconfirmed⟩
  · rw [hchoice] at hreview'
    cases hreview'
  · refine ⟨[], (state'.screen displays storage retained, key) :: during, final, rfl, hreview, hreturn, ?_,
      fun _ => hscreen', fun hshown => ?_⟩
    · exact List.forall_mem_cons.mpr ⟨hscreen', hduring⟩
    · exact (hconflict hshown).imp_right fun ⟨seen, hseen, hack⟩ => ⟨seen, List.mem_cons_of_mem _ hseen, hack⟩
  · refine ⟨[], (state.screen displays storage retained, key) :: during, final, rfl, hreview, hreturn, ?_,
      fun _ => hscreen', fun _ => .inr ⟨_, List.mem_cons_self, hack⟩⟩
    exact List.forall_mem_cons.mpr ⟨hscreen', hduring⟩
  · refine ⟨[(state.screen displays storage retained, key)], during, final, rfl, hreview, hreturn, hduring, nofun,
      fun hshown => .inr ((hconflict hshown).resolve_left fun hboth => ?_)⟩
    rw [hconfirmed, hsound hchoice] at hboth
    cases hboth.2

/-- A run that ends with success accepts the pair; every other run leaves all as it was. -/
theorem takeKeys_spec (hsound : state.Sound)
    (h : takeKeys displays storage retained unchanged state answers = (history, some result)) :
    (∃ accepted, Accepts displays storage retained state history accepted ∧
      result = acceptedResult displays storage accepted) ∨
    ∃ status, status ≠ .success ∧ result = unchanged status := by
  induction answers generalizing state history with
  | nil => cases h
  | cons answer answers ih =>
      rw [takeKeys] at h
      split at h
      case isTrue hfailed =>
        cases h
        exact .inr ⟨_, EfiStatus.ne_success_of_isError hfailed, rfl⟩
      split at h
      case isTrue => exact ih hsound h
      split at h
      case isTrue hfailed =>
        cases h
        exact .inr ⟨_, EfiStatus.ne_success_of_isError hfailed, rfl⟩
      cases hkey : handleKey displays storage retained state answer.key with
      | again state' =>
          rw [hkey] at h
          obtain ⟨rfl, hrest⟩ := Prod.mk.inj h
          rcases ih (hsound.again hkey) (Prod.ext rfl hrest) with ⟨accepted, haccepts, hresult⟩ | hother
          · exact .inl ⟨accepted, haccepts.cons hsound hkey, hresult⟩
          · exact .inr hother
      | cancelled =>
          rw [hkey] at h
          cases h
          exact .inr ⟨.aborted, nofun, rfl⟩
      | accepted =>
          rw [hkey] at h
          cases h
          obtain ⟨hreturn, hreview, hready, hconflict⟩ := handleKey_accepted hkey
          exact .inl ⟨state, Accepts.last hready hreview hreturn hconflict, rfl⟩

/-! ### Going right and left -/

def arrowRight : InputKey := ⟨scanRight, 0⟩
def arrowLeft : InputKey := ⟨scanLeft, 0⟩

/-- The loop after these keys, if it goes on. -/
def pressKeys (displays : List NcvDisplayCandidate) (storage : List NcvStorageCandidate)
    (retained : Option NcvConfigCore) (state : SelectionState) (keys : List InputKey) : Option SelectionState :=
  keys.foldlM (fun state key =>
    match handleKey displays storage retained state key with
    | .again state' => some state'
    | .cancelled => none
    | .accepted => none) state

/-- Right passes every eligible candidate once before it is back, and left undoes right. -/
def GoesRound (press : List InputKey → Option SelectionState) (place : Nat → SelectionState)
    (eligible : Nat → Prop) (current : Nat) : Prop :=
  ∃ visits : List Nat, visits.head? = some current ∧ visits.Nodup ∧ (∀ index, index ∈ visits ↔ eligible index) ∧
    (∀ presses, ∃ index, visits[presses % visits.length]? = some index ∧
      press (List.replicate presses arrowRight) = some (place index)) ∧
    press [arrowRight, arrowLeft] = some (place current)

theorem handleKey_arrow {scan : UInt16} (hscan : scan = scanLeft ∨ scan = scanRight) (hchoice : state.review = false) :
    handleKey displays storage retained state ⟨scan, 0⟩ = .again (state.change displays storage ⟨scan, 0⟩) := by
  have hesc : ¬ ((⟨scan, 0⟩ : InputKey).scanCode = scanEsc ∨ (⟨scan, 0⟩ : InputKey).unicodeChar = 0x1B) := by
    rcases hscan with rfl | rfl <;> decide
  have hfocus : state.refocus ⟨scan, 0⟩ = state := by
    refine if_neg ?_
    rcases hscan with rfl | rfl <;> decide
  have hreturn : ¬ (⟨scan, 0⟩ : InputKey).unicodeChar = 0x0D := show ¬ (0 : UInt16) = 0x0D by decide
  rw [handleKey, if_neg hesc, hchoice, if_neg (by simp), if_neg hreturn, if_neg (by simp), hfocus]

theorem handleKey_display {scan : UInt16} (hscan : scan = scanLeft ∨ scan = scanRight)
    (hchoice : state.review = false) (hfocus : state.focus = .display) :
    handleKey displays storage retained state ⟨scan, 0⟩ =
      .again { state with gpu := nextDisplay displays state.gpu (scan == scanLeft) } := by
  rw [handleKey_arrow hscan hchoice, SelectionState.change, if_pos hscan]
  simp only [hfocus]

theorem handleKey_storage {scan : UInt16} (hscan : scan = scanLeft ∨ scan = scanRight)
    (hchoice : state.review = false) (hfocus : state.focus = .storage) :
    handleKey displays storage retained state ⟨scan, 0⟩ =
      .again { state with disk := nextStorage storage state.disk (scan == scanLeft) } := by
  rw [handleKey_arrow hscan hchoice, SelectionState.change, if_pos hscan]
  simp only [hfocus]

theorem pressKeys_cons {keys : List InputKey}
    (h : handleKey displays storage retained state key = .again state') :
    pressKeys displays storage retained state (key :: keys) = pressKeys displays storage retained state' keys := by
  rw [pressKeys, List.foldlM_cons, h]
  rfl

/-- The two lists go round alike: this is one side, from what an arrow does to a candidate on it. -/
theorem goesRound_of {eligible : List Bool} {current : Nat} {place : Nat → SelectionState}
    (h : eligibleAt eligible current = true)
    (hright : ∀ index, handleKey displays storage retained (place index) arrowRight =
      .again (place (nextCandidate eligible index false)))
    (hleft : ∀ index, handleKey displays storage retained (place index) arrowLeft =
      .again (place (nextCandidate eligible index true))) :
    GoesRound (pressKeys displays storage retained (place current)) place (eligibleAt eligible · = true)
      current := by
  obtain ⟨visits, hhead, hnodup, hmem, hget⟩ := exists_candidate_visits h
  refine ⟨visits, hhead, hnodup, hmem, fun presses => ⟨_, hget presses, ?_⟩, ?_⟩
  · clear hget hhead hmem h
    induction presses generalizing current with
    | zero => rfl
    | succ presses ih =>
        rw [List.replicate_succ, pressKeys_cons (hright current)]
        exact ih
  · rw [pressKeys_cons (hright current), pressKeys_cons (hleft _), nextCandidate_left h]
    rfl

theorem eligibleAt_map {α : Type} {items : List α} {eligible : α → Bool} {index : Nat} :
    eligibleAt (items.map eligible) index = true ↔ ∃ item, items[index]? = some item ∧ eligible item = true := by
  rw [eligibleAt, List.getD_eq_getElem?_getD, List.getElem?_map]
  cases items[index]? with
  | none => simp
  | some item => simp

/-! ### The whole selection -/

/-- The result of a run, with what it showed. -/
structure SelectionOutcome (displays : List NcvDisplayCandidate) (selectedDisplay : Nat)
    (storage : List NcvStorageCandidate) (selectedStorage : Nat) (history : List (SelectionScreen × InputKey))
    (result : SelectionResult) : Prop where
  confirmed : result.status = .success → Confirmed history result.selectedDisplay result.selectedStorage
  eligibleDisplay : result.status = .success →
    ∃ item, displays[result.selectedDisplay]? = some item ∧ item.eligible = true
  eligibleStorage : result.status = .success →
    ∃ item, storage[result.selectedStorage]? = some item ∧ item.eligible = true
  onlyDisplay : result.status = .success → ∀ index,
    (∃ item, result.displays[index]? = some item ∧ item.selected = true) ↔ index = result.selectedDisplay
  onlyStorage : result.status = .success → ∀ index,
    (∃ item, result.storage[index]? = some item ∧ item.selected = true) ↔ index = result.selectedStorage
  unchanged : result.status ≠ .success → result.displays = displays ∧ result.selectedDisplay = selectedDisplay ∧
    result.storage = storage ∧ result.selectedStorage = selectedStorage

/-- Only the chosen one is marked. -/
theorem selected_iff {α : Type} {items : List α} {selected : α → Bool} {mark : Nat → α → α} {chosen index : Nat}
    (hmark : ∀ index item, selected (mark index item) = (index == chosen))
    (hchosen : ∃ item, items[chosen]? = some item) :
    (∃ item, (items.mapIdx mark)[index]? = some item ∧ selected item = true) ↔ index = chosen := by
  constructor
  · rintro ⟨item, hitem, hselected⟩
    rw [List.getElem?_mapIdx, Option.map_eq_some_iff] at hitem
    obtain ⟨given, -, rfl⟩ := hitem
    rw [hmark] at hselected
    exact beq_iff_eq.mp hselected
  · rintro rfl
    obtain ⟨item, hitem⟩ := hchosen
    refine ⟨mark index item, ?_, ?_⟩
    · rw [List.getElem?_mapIdx, hitem, Option.map_some]
    · rw [hmark, beq_self_eq_true]

theorem acceptedResult_outcome {selectedDisplay selectedStorage : Nat} {accepted : SelectionState}
    (h : Accepts displays storage retained state history accepted) (hchoice : state.review = false) :
    SelectionOutcome displays selectedDisplay storage selectedStorage history
      (acceptedResult displays storage accepted) := by
  have hready := h.ready
  rw [SelectionState.ready, Bool.and_eq_true, Option.any_eq_true, Option.any_eq_true] at hready
  obtain ⟨⟨display, hdisplay, hgpu⟩, ⟨item, hitem, hdisk⟩⟩ := hready
  refine {
    confirmed := fun _ => ?_
    eligibleDisplay := fun _ => ⟨display, hdisplay, hgpu⟩
    eligibleStorage := fun _ => ⟨item, hitem, hdisk⟩
    onlyDisplay := fun _ index => ?_
    onlyStorage := fun _ index => ?_
    unchanged := fun hfailed => absurd rfl hfailed }
  · obtain ⟨before, during, key, hhistory, hreview, hreturn, hduring, hfirst, hconflict⟩ := h.screens
    refine ⟨before, during, _, key, hhistory, hreview, rfl, rfl, hreturn, hduring, fun hshown => ?_⟩
    refine (hconflict hshown).resolve_left fun hboth => ?_
    have hsame := congrArg SelectionScreen.review (hfirst hboth.1)
    have hclash : state.review = accepted.review := hsame
    rw [hchoice, hreview] at hclash
    cases hclash
  · exact selected_iff (fun _ _ => rfl) ⟨display, hdisplay⟩
  · exact selected_iff (fun _ _ => rfl) ⟨item, hitem⟩

/-- Outside a review an arrow changes the candidate of the list in focus. -/
theorem goesRound_display (hchoice : state.review = false) (hfocus : state.focus = .display)
    (h : ∃ item, displays[state.gpu]? = some item ∧ item.eligible = true) :
    GoesRound (pressKeys displays storage retained state) (fun index => { state with gpu := index })
      (fun index => ∃ item, displays[index]? = some item ∧ item.eligible = true) state.gpu := by
  have hround := @goesRound_of displays storage retained (displays.map NcvDisplayCandidate.eligible) state.gpu
    (fun index => { state with gpu := index }) (eligibleAt_map.mpr h)
    (fun index => @handleKey_display displays storage retained { state with gpu := index } scanRight
      (.inr rfl) hchoice hfocus)
    (fun index => @handleKey_display displays storage retained { state with gpu := index } scanLeft
      (.inl rfl) hchoice hfocus)
  simp only [eligibleAt_map] at hround
  exact hround

theorem goesRound_storage (hchoice : state.review = false) (hfocus : state.focus = .storage)
    (h : ∃ item, storage[state.disk]? = some item ∧ item.eligible = true) :
    GoesRound (pressKeys displays storage retained state) (fun index => { state with disk := index })
      (fun index => ∃ item, storage[index]? = some item ∧ item.eligible = true) state.disk := by
  have hround := @goesRound_of displays storage retained (storage.map NcvStorageCandidate.eligible) state.disk
    (fun index => { state with disk := index }) (eligibleAt_map.mpr h)
    (fun index => @handleKey_storage displays storage retained { state with disk := index } scanRight
      (.inr rfl) hchoice hfocus)
    (fun index => @handleKey_storage displays storage retained { state with disk := index } scanLeft
      (.inl rfl) hchoice hfocus)
  simp only [eligibleAt_map] at hround
  exact hround

/-- **Only a pair confirmed on the review screen is accepted**, and the arrows pass every eligible candidate. -/
theorem selectBootTargets_exact (displays : List NcvDisplayCandidate) (storage : List NcvStorageCandidate)
    (retained : Option NcvConfigCore) (selectedDisplay selectedStorage : Nat) (console : Bool)
    (answers : List KeyAnswer) :
    (∀ history result, selectBootTargets displays storage retained selectedDisplay selectedStorage console answers =
        (history, some result) →
      SelectionOutcome displays selectedDisplay storage selectedStorage history result) ∧
    ∀ state : SelectionState, state.review = false →
      (state.focus = .display → (∃ item, displays[state.gpu]? = some item ∧ item.eligible = true) →
        GoesRound (pressKeys displays storage retained state) (fun index => { state with gpu := index })
          (fun index => ∃ item, displays[index]? = some item ∧ item.eligible = true) state.gpu) ∧
      (state.focus = .storage → (∃ item, storage[state.disk]? = some item ∧ item.eligible = true) →
        GoesRound (pressKeys displays storage retained state) (fun index => { state with disk := index })
          (fun index => ∃ item, storage[index]? = some item ∧ item.eligible = true) state.disk) := by
  refine ⟨fun history result h => ?_, fun state hchoice =>
    ⟨goesRound_display hchoice, goesRound_storage hchoice⟩⟩
  have hkept : ∀ status, status ≠ .success → SelectionOutcome displays selectedDisplay storage selectedStorage
      history { status, displays, selectedDisplay, storage, selectedStorage } := fun status hstatus => {
    confirmed := fun hsuccess => absurd hsuccess hstatus
    eligibleDisplay := fun hsuccess => absurd hsuccess hstatus
    eligibleStorage := fun hsuccess => absurd hsuccess hstatus
    onlyDisplay := fun hsuccess => absurd hsuccess hstatus
    onlyStorage := fun hsuccess => absurd hsuccess hstatus
    unchanged := fun _ => ⟨rfl, rfl, rfl, rfl⟩ }
  unfold selectBootTargets at h
  dsimp only at h
  split at h
  case isTrue =>
    cases h
    exact hkept _ nofun
  split at h
  case isTrue =>
    cases h
    exact hkept _ nofun
  have hsound : (SelectionState.start selectedDisplay selectedStorage).Sound := fun _ => rfl
  rcases takeKeys_spec hsound h with ⟨accepted, haccepts, rfl⟩ | ⟨status, hstatus, rfl⟩
  · exact acceptedResult_outcome haccepts rfl
  · exact hkept status hstatus

/-- A key that is pressed. -/
def pressed (character : UInt16) : KeyAnswer := ⟨.success, .success, ⟨0, character⟩⟩

theorem ready_of_eligible {state : SelectionState}
    (hgpu : ∃ item, displays[state.gpu]? = some item ∧ item.eligible = true)
    (hdisk : ∃ item, storage[state.disk]? = some item ∧ item.eligible = true) :
    state.ready displays storage = true := by
  obtain ⟨display, hdisplay, hdisplayEligible⟩ := hgpu
  obtain ⟨item, hitem, hitemEligible⟩ := hdisk
  rw [SelectionState.ready, hdisplay, hitem, Option.any_some, Option.any_some, hdisplayEligible, hitemEligible]
  rfl

theorem handleKey_return {state : SelectionState} (hready : state.ready displays storage = true) :
    handleKey displays storage retained state ⟨0, 0x0D⟩ =
      if !state.review then .again { state with review := true }
      else if state.conflict displays storage retained && !state.confirmed then .again state
      else .accepted := by
  unfold handleKey
  rw [if_neg (by decide), if_neg fun h => absurd h.2 (by decide), if_pos rfl, hready]
  rfl

/-- An eligible pair is accepted after a review, an acknowledgement and a confirmation. -/
theorem selectBootTargets_accepted {gpu disk : Nat} (hdisplays : displays.length ≤ maxDisplayCandidates)
    (hstorage : storage.length ≤ maxStorageCandidates)
    (hgpu : ∃ item, displays[gpu]? = some item ∧ item.eligible = true)
    (hdisk : ∃ item, storage[disk]? = some item ∧ item.eligible = true) :
    (selectBootTargets displays storage retained gpu disk true
      [pressed 0x0D, pressed 0x61, pressed 0x0D]).2 =
    some (acceptedResult displays storage ⟨.display, gpu, disk, true, true⟩) := by
  have hready : ∀ review confirmed, SelectionState.ready displays storage ⟨.display, gpu, disk, review, confirmed⟩ =
      true := fun _ _ => ready_of_eligible hgpu hdisk
  have hreviewed : handleKey displays storage retained (.start gpu disk) ⟨0, 0x0D⟩ =
      .again ⟨.display, gpu, disk, true, false⟩ := handleKey_return (hready false false)
  have hacknowledged : handleKey displays storage retained ⟨.display, gpu, disk, true, false⟩ ⟨0, 0x61⟩ =
      .again ⟨.display, gpu, disk, true, true⟩ := rfl
  have hconfirmed : handleKey displays storage retained ⟨.display, gpu, disk, true, true⟩ ⟨0, 0x0D⟩ = .accepted := by
    rw [handleKey_return (hready true true), Bool.not_true, if_neg Bool.false_ne_true, Bool.and_false,
      if_neg Bool.false_ne_true]
  have hnotReady : EfiStatus.success ≠ .notReady := nofun
  unfold selectBootTargets
  rw [if_neg (by omega)]
  simp only [takeKeys, pressed, hreviewed, hacknowledged, hconfirmed, if_neg hnotReady]
  rfl

end

end CsmVgaSelector
