import CsmVgaSelector.Bbs.BootChoice
import CsmVgaSelector.Proof.BootOption
import Mathlib.Data.List.Nodup
import Mathlib.Data.List.Perm.Basic

/-!
# Which Boot#### option is chosen

The search ends well exactly when BootOrder is well formed, none of its options ends it, and one of them is
the configured one; that one is then the choice. Nothing of this depends on the order in which the options
are listed, since the search keeps what it has found as a list of which it only looks at the length and the
head.
-/

namespace CsmVgaSelector

/-! ### Texts up to case -/

def folded (text : List UInt16) : List UInt16 := text.map legacyBootUnicodeUpperAscii

/-- Up to case only the terminator is the terminator. -/
theorem upperAscii_ne_terminator {character : UInt16} (h : 0 ≠ character) :
    legacyBootUnicodeUpperAscii character ≠ legacyBootUnicodeUpperAscii 0 := by
  rw [show legacyBootUnicodeUpperAscii 0 = 0 from rfl]
  unfold legacyBootUnicodeUpperAscii
  split
  case isTrue hlower =>
    have hlow : 97 ≤ character.toNat := UInt16.le_iff_toNat_le.mp hlower.1
    have hhigh : character.toNat ≤ 122 := UInt16.le_iff_toNat_le.mp hlower.2
    rw [ne_eq, ← UInt16.toNat_inj, UInt16.toNat_sub]
    change (2 ^ 16 - 32 + character.toNat) % 2 ^ 16 ≠ 0
    omega
  case isFalse => exact Ne.symm h

section

variable {text wanted needle : List UInt16}

@[simp] theorem terminated_nil : terminated [] = [0] := rfl

@[simp] theorem terminated_cons {character : UInt16} :
    terminated (character :: text) = character :: terminated text := rfl

theorem equalsInsensitive_iff (htext : 0 ∉ text) (hwanted : 0 ∉ wanted) :
    legacyBootUnicodeEqualsInsensitive (terminated text) (terminated wanted) = true ↔
      folded text = folded wanted := by
  induction text generalizing wanted with
  | nil =>
      cases wanted with
      | nil => exact iff_of_true rfl rfl
      | cons other wanted =>
          rw [List.mem_cons, not_or] at hwanted
          have hother := upperAscii_ne_terminator hwanted.1
          refine iff_of_false ?_ (by simp [folded])
          rw [terminated_nil, terminated_cons, legacyBootUnicodeEqualsInsensitive, if_pos hother.symm]
          exact Bool.false_ne_true
  | cons character text ih =>
      rw [List.mem_cons, not_or] at htext
      cases wanted with
      | nil =>
          have hcharacter := upperAscii_ne_terminator htext.1
          refine iff_of_false ?_ (by simp [folded])
          rw [terminated_nil, terminated_cons, legacyBootUnicodeEqualsInsensitive, if_pos hcharacter]
          exact Bool.false_ne_true
      | cons other wanted =>
          rw [List.mem_cons, not_or] at hwanted
          rw [terminated_cons, terminated_cons, legacyBootUnicodeEqualsInsensitive, folded, folded,
            List.map_cons, List.map_cons, List.cons_eq_cons, ← folded, ← folded, ← ih htext.2 hwanted.2]
          by_cases hsame : legacyBootUnicodeUpperAscii character = legacyBootUnicodeUpperAscii other
          · rw [if_neg (not_not.mpr hsame), if_neg (Ne.symm htext.1), and_iff_right hsame]
          · rw [if_pos hsame]
            exact iff_of_false Bool.false_ne_true fun h => hsame h.1

theorem needleHere_iff (htext : 0 ∉ text) (hneedle : 0 ∉ needle) :
    needleHere (terminated text) (terminated needle) = true ↔ folded needle <+: folded text := by
  induction text generalizing needle with
  | nil =>
      cases needle with
      | nil => exact iff_of_true rfl List.nil_prefix
      | cons wanted needle =>
          rw [List.mem_cons, not_or] at hneedle
          refine iff_of_false ?_ (by simp [folded])
          rw [terminated_nil, terminated_cons, needleHere, if_neg (Ne.symm hneedle.1), if_pos rfl]
          exact Bool.false_ne_true
  | cons character text ih =>
      rw [List.mem_cons, not_or] at htext
      cases needle with
      | nil => exact iff_of_true rfl List.nil_prefix
      | cons wanted needle =>
          rw [List.mem_cons, not_or] at hneedle
          rw [terminated_cons, terminated_cons, needleHere, if_neg (Ne.symm hneedle.1),
            if_neg (Ne.symm htext.1), folded, folded, List.map_cons, List.map_cons, List.cons_prefix_cons,
            ← folded, ← folded, ← ih htext.2 hneedle.2]
          by_cases hsame : legacyBootUnicodeUpperAscii character = legacyBootUnicodeUpperAscii wanted
          · rw [if_neg (not_not.mpr hsame), and_iff_right hsame.symm]
          · rw [if_pos hsame]
            exact iff_of_false Bool.false_ne_true fun h => hsame h.1.symm

theorem needleSomewhere_iff (htext : 0 ∉ text) (hneedle : 0 ∉ needle) (hne : needle ≠ []) :
    needleSomewhere (terminated text) (terminated needle) = true ↔ folded needle <:+: folded text := by
  induction text with
  | nil =>
      refine iff_of_false Bool.false_ne_true ?_
      rw [folded, folded, List.map_nil, List.infix_nil, List.map_eq_nil_iff]
      exact hne
  | cons character text ih =>
      have hhere := @needleHere_iff (character :: text) needle htext hneedle
      rw [List.mem_cons, not_or] at htext
      rw [terminated_cons] at hhere ⊢
      rw [needleSomewhere, if_neg (Ne.symm htext.1), Bool.or_eq_true, hhere, ih htext.2]
      rw [folded, folded, List.map_cons, List.infix_cons_iff, folded]

theorem containsInsensitive_iff (htext : 0 ∉ text) (hneedle : 0 ∉ needle) (hne : needle ≠ []) :
    legacyBootUnicodeContainsInsensitive (terminated text) (terminated needle) = true ↔
      folded needle <:+: folded text := by
  have hhead : (terminated needle).head? ≠ some 0 := by
    cases needle with
    | nil => exact absurd rfl hne
    | cons wanted needle =>
        rintro ⟨⟩
        exact hneedle List.mem_cons_self
  rw [legacyBootUnicodeContainsInsensitive, if_neg hhead, needleSomewhere_iff htext hneedle hne]

end

/-! ### What an option counts for -/

/-- The texts that the caller asks with are nonempty, and end at their terminators. -/
structure DiscoverRequest.Valid (request : DiscoverRequest) : Prop where
  wanted : request.legacyOptionDescription ≠ []
  wantedText : 0 ∉ request.legacyOptionDescription
  excluded : request.excludeDescription ≠ []
  excludedText : 0 ∉ request.excludeDescription

/-- The option of this number holds the configured candidate: an active option of a hard disk or a USB disk,
whose description is the wanted one and does not contain the excluded one. -/
structure Configured (store : BootVariables) (request : DiscoverRequest) (number : UInt16)
    (candidate : BootCandidate) : Prop where
  decoded : store.candidateOf number = .ok candidate
  active : candidate.isActive = true
  disk : candidate.bbsDeviceType = bbsTypeHarddrive ∨ candidate.bbsDeviceType = bbsTypeUsb
  description : ∃ text, 0 ∉ text ∧ candidate.description = some (terminated text) ∧
    folded text = folded request.legacyOptionDescription ∧
    ¬ folded request.excludeDescription <:+: folded text

/-- The option ends the search. -/
def EndsSearch (store : BootVariables) (number : UInt16) : Prop :=
  ∃ status, store.candidateOf number = .error status ∧
    legacyBootBootOptionStatusIsSkippable status = false

/-- What BootOrder and the options must be for the search to find one option. -/
structure Decisive (store : BootVariables) (request : DiscoverRequest) (bytes : List UInt8) : Prop where
  nonempty : bytes ≠ []
  even : bytes.length % 2 = 0
  nodup : (orderWords bytes).Nodup
  readable : ∀ number ∈ orderWords bytes, ¬ EndsSearch store number
  one : ∃ number ∈ orderWords bytes, (∃ candidate, Configured store request number candidate) ∧
    ∀ other ∈ orderWords bytes, (∃ candidate, Configured store request other candidate) → other = number

section

variable {store : BootVariables} {request : DiscoverRequest} {number : UInt16} {candidate : BootCandidate}
  {candidates : List BootCandidate} {words earlier : List UInt16} {bytes : List UInt8}

/-- The description of an accepted option ends with its only terminator. -/
theorem LoadOption.description_eq {characters : Nat} (h : LoadOption bytes characters) :
    ∃ text, 0 ∉ text ∧
      (optionCandidate number bytes characters).description = some (terminated text) := by
  refine ⟨wordsAt bytes loadOptionFixedBytes characters, fun hzero => ?_, ?_⟩
  · obtain ⟨index, hindex, hword⟩ := List.mem_map.mp hzero
    refine h.description.text index (Nat.zero_le _) (List.mem_range.mp hindex) ?_
    rw [descriptionPlace, Nat.mul_comm]
    exact hword
  · have hlast := h.description.terminator
    rw [descriptionPlace, Nat.mul_comm] at hlast
    rw [optionCandidate, wordsAt, List.range_succ, List.map_append, List.map_singleton, hlast]
    rfl

theorem candidateOf_accepted (h : store.candidateOf number = .ok candidate) :
    candidate.isLegacy = true ∧ ∃ text, 0 ∉ text ∧ candidate.description = some (terminated text) := by
  unfold BootVariables.candidateOf at h
  split at h
  case h_1 => split at h <;> cases h
  case h_2 bytes hread =>
    obtain ⟨characters, hoption, rfl⟩ :=
      legacyBootParseLegacyBootOption_iff.mp (legacyBootParseLegacyBootOption_pools h)
    exact ⟨rfl, hoption.description_eq⟩

theorem candidateOf_refused : RefusedWithError (store.candidateOf number) := by
  unfold BootVariables.candidateOf
  split
  case h_1 entryStatus hread =>
    split
    case isTrue hstatus => exact .error hstatus
    case isFalse => exact .error rfl
  case h_2 bytes hread => exact legacyBootParseLegacyBootOption_error

theorem isSelected_iff (hrequest : request.Valid) (hdecoded : store.candidateOf number = .ok candidate) :
    candidate.isSelected request = true ↔ Configured store request number candidate := by
  obtain ⟨-, text, htext, hdescription⟩ := candidateOf_accepted hdecoded
  have hequals := equalsInsensitive_iff htext hrequest.wantedText
  have hcontains := containsInsensitive_iff htext hrequest.excludedText hrequest.excluded
  simp only [BootCandidate.isSelected, BootCandidate.isGenericDisk, hdescription, Option.getD_some,
    Bool.and_eq_true, Bool.or_eq_true, Bool.not_eq_true', ← Bool.not_eq_true, hequals, hcontains, beq_iff_eq]
  constructor
  · rintro ⟨⟨⟨hactive, hdisk⟩, hwanted⟩, hexcluded⟩
    exact ⟨hdecoded, hactive, hdisk, text, htext, hdescription, hwanted, hexcluded⟩
  · rintro ⟨-, hactive, hdisk, text', -, hdescription', hwanted, hexcluded⟩
    obtain rfl : text = text' := by
      rw [hdescription, Option.some_inj] at hdescription'
      exact List.append_cancel_right hdescription'
    exact ⟨⟨⟨hactive, hdisk⟩, hwanted⟩, hexcluded⟩

/-- The configured candidate of the option, when it holds one. -/
def configuredCandidate (store : BootVariables) (request : DiscoverRequest) (number : UInt16) :
    Option BootCandidate :=
  match store.candidateOf number with
  | .error _ => none
  | .ok candidate => if candidate.isSelected request then some candidate else none

theorem configuredCandidate_iff (hrequest : request.Valid) :
    configuredCandidate store request number = some candidate ↔
      Configured store request number candidate := by
  unfold configuredCandidate
  cases hdecoded : store.candidateOf number with
  | error status =>
      refine iff_of_false (by simp) fun h => ?_
      rw [h.decoded] at hdecoded
      cases hdecoded
  | ok decoded =>
      have hselected := isSelected_iff hrequest hdecoded
      by_cases hfits : decoded.isSelected request = true
      · simp only [if_pos hfits, Option.some_inj]
        constructor
        · rintro rfl
          exact hselected.mp hfits
        · intro h
          rw [h.decoded] at hdecoded
          cases hdecoded
          rfl
      · simp only [if_neg hfits]
        refine iff_of_false (by simp) fun h => ?_
        rw [h.decoded] at hdecoded
        cases hdecoded
        exact hfits (hselected.mpr h)

/-! ### The search -/

/-- The choice that holds these candidates. -/
def choiceOf (candidates : List BootCandidate) : BootChoice where
  matchCount := candidates.length
  selected := candidates.headD zeroCandidate

theorem choiceOf_add : (choiceOf candidates).add candidate = choiceOf (candidates ++ [candidate]) := by
  cases candidates with
  | nil => rfl
  | cons first rest => simp [choiceOf, BootChoice.add]

def MessageSucceeds (status : EfiStatus) : Prop := status.isError = false

/-- The program goes on exactly when `sound` holds, and then holds these candidates. -/
def GoesOn (sound : Prop) (candidates : List BootCandidate) (status : EfiStatus) (choice : BootChoice) :
    Prop :=
  (sound → status = .success ∧ choice = choiceOf candidates) ∧ (¬ sound → status.isError = true)

theorem GoesOn.on {sound : Prop} {status : EfiStatus} {choice : BootChoice} (hsound : sound)
    (hstatus : status = .success) (hchoice : choice = choiceOf candidates) :
    GoesOn sound candidates status choice :=
  ⟨fun _ => ⟨hstatus, hchoice⟩, fun hunsound => absurd hsound hunsound⟩

theorem GoesOn.off {sound : Prop} {status : EfiStatus} {choice : BootChoice} (hunsound : ¬ sound)
    (hstatus : status.isError = true) : GoesOn sound candidates status choice :=
  ⟨fun hsound => absurd hsound hunsound, fun _ => hstatus⟩

theorem logMessages_wp {messages : Nat} {choice : BootChoice} :
    Prog.Wp MessageSucceeds (logMessages messages)
      (fun status choice' => status.isError = false ∧ choice' = choice) choice := by
  induction messages with
  | zero => exact ⟨rfl, rfl⟩
  | succ messages ih =>
      refine Prog.wp_bind.mpr (Prog.wp_call.mpr fun status hstatus => ?_)
      rw [if_neg (Bool.eq_false_iff.mp hstatus)]
      exact ih

theorem considerCandidate_wp (hlegacy : candidate.isLegacy = true) :
    Prog.Wp MessageSucceeds (considerCandidate request candidate)
      (GoesOn True (candidates ++ if candidate.isSelected request then [candidate] else []))
      (choiceOf candidates) := by
  have hlog : Prog.Wp MessageSucceeds (logBootCandidate candidate)
      (fun status choice => status.isError = false ∧ choice = choiceOf candidates)
      (choiceOf candidates) := by
    rw [logBootCandidate, if_neg (by simp [hlegacy])]
    exact logMessages_wp
  refine hlog.bind ?_
  rintro status - ⟨hstatus, rfl⟩
  rw [if_neg (Bool.eq_false_iff.mp hstatus)]
  have hdisk : Prog.Wp MessageSucceeds (logSelector candidate)
      (fun status choice => status.isError = false ∧ choice = choiceOf candidates)
      (choiceOf candidates) :=
    Prog.Wp.ite (fun _ => Prog.wp_call.mpr fun status hstatus => ⟨hstatus, rfl⟩) fun _ => ⟨rfl, rfl⟩
  refine hdisk.bind ?_
  rintro status - ⟨hstatus, rfl⟩
  rw [if_neg (Bool.eq_false_iff.mp hstatus)]
  refine GoesOn.on trivial rfl ?_
  dsimp only
  by_cases hselected : candidate.isSelected request = true
  · rw [if_pos hselected, if_pos hselected, choiceOf_add]
  · rw [if_neg hselected, if_neg hselected, List.append_nil]

theorem skipOption_wp {entryStatus : EfiStatus} (h : entryStatus.isError = true) :
    Prog.Wp MessageSucceeds (skipOption entryStatus)
      (GoesOn (legacyBootBootOptionStatusIsSkippable entryStatus = true) candidates)
      (choiceOf candidates) := by
  refine Prog.wp_bind.mpr (Prog.wp_call.mpr fun status hstatus => ?_)
  rw [if_neg (Bool.eq_false_iff.mp hstatus)]
  split
  case isTrue hskip => exact GoesOn.on hskip rfl rfl
  case isFalse hskip => exact GoesOn.off hskip h

/-- One option adds its configured candidate to what is held. -/
theorem considerOption_wp :
    Prog.Wp MessageSucceeds (considerOption store request number)
      (GoesOn (¬ EndsSearch store number)
        (candidates ++ (configuredCandidate store request number).toList))
      (choiceOf candidates) := by
  unfold considerOption configuredCandidate
  cases hdecoded : store.candidateOf number with
  | error entryStatus =>
      have hends : (¬ EndsSearch store number) ↔
          legacyBootBootOptionStatusIsSkippable entryStatus = true := by
        rw [← Bool.not_eq_false, not_iff_not]
        constructor
        · rintro ⟨status, hstatus, hskip⟩
          rw [hdecoded] at hstatus
          cases hstatus
          exact hskip
        · exact fun hskip => ⟨entryStatus, hdecoded, hskip⟩
      rw [hends, Option.toList_none, List.append_nil]
      exact skipOption_wp (candidateOf_refused entryStatus hdecoded)
  | ok candidate =>
      have hends : (¬ EndsSearch store number) ↔ True := by
        refine iff_true_intro ?_
        rintro ⟨status, hstatus, -⟩
        rw [hdecoded] at hstatus
        cases hstatus
      have hlist : (if candidate.isSelected request then some candidate else none).toList =
          if candidate.isSelected request then [candidate] else [] := by
        split <;> rfl
      rw [hends, hlist]
      exact considerCandidate_wp (candidateOf_accepted hdecoded).1

/-- What BootOrder must be, from here on, for the search to come to its end. -/
structure OrderSound (store : BootVariables) (earlier words : List UInt16) : Prop where
  fresh : ∀ number ∈ words, number ∉ earlier
  nodup : words.Nodup
  readable : ∀ number ∈ words, ¬ EndsSearch store number

theorem orderSound_cons : OrderSound store earlier (number :: words) ↔
    number ∉ earlier ∧ ¬ EndsSearch store number ∧ OrderSound store (earlier ++ [number]) words := by
  constructor
  · rintro ⟨hfresh, hnodup, hreadable⟩
    rw [List.forall_mem_cons] at hfresh hreadable
    rw [List.nodup_cons] at hnodup
    refine ⟨hfresh.1, hreadable.1, fun other hother hmem => ?_, hnodup.2, hreadable.2⟩
    rw [List.mem_append, List.mem_singleton] at hmem
    rcases hmem with hmem | rfl
    · exact hfresh.2 other hother hmem
    · exact hnodup.1 hother
  · rintro ⟨hnumber, hends, hfresh, hnodup, hreadable⟩
    refine ⟨List.forall_mem_cons.mpr ⟨hnumber, fun other hother hmem => ?_⟩,
      List.nodup_cons.mpr ⟨fun hmem => ?_, hnodup⟩, List.forall_mem_cons.mpr ⟨hends, hreadable⟩⟩
    · exact hfresh other hother (List.mem_append_left _ hmem)
    · exact hfresh number hmem (List.mem_append_right _ List.mem_cons_self)

/-- A whole BootOrder adds the configured candidates of its options, in its order. -/
theorem considerOrder_wp :
    Prog.Wp MessageSucceeds (considerOrder store request earlier words)
      (GoesOn (OrderSound store earlier words)
        (candidates ++ words.filterMap (configuredCandidate store request)))
      (choiceOf candidates) := by
  induction words generalizing earlier candidates with
  | nil =>
      refine GoesOn.on ⟨by simp, List.nodup_nil, by simp⟩ rfl ?_
      rw [List.filterMap_nil, List.append_nil]
  | cons number words ih =>
      rw [considerOrder, orderSound_cons]
      by_cases hearlier : number ∈ earlier
      · rw [if_pos hearlier]
        exact Prog.wp_bind.mpr (Prog.wp_call.mpr fun status hstatus =>
          GoesOn.off (fun hsound => hsound.1 hearlier) rfl)
      rw [if_neg hearlier]
      refine considerOption_wp.bind fun status choice hstep => ?_
      by_cases hends : EndsSearch store number
      · have hstatus := hstep.2 (not_not.mpr hends)
        rw [if_pos hstatus]
        exact GoesOn.off (fun hsound => hsound.2.1 hends) hstatus
      obtain ⟨rfl, rfl⟩ := hstep.1 hends
      have hlist : (configuredCandidate store request number).toList ++
          words.filterMap (configuredCandidate store request) =
            (number :: words).filterMap (configuredCandidate store request) := by
        cases hfound : configuredCandidate store request number with
        | none => rw [List.filterMap_cons_none hfound, Option.toList_none, List.nil_append]
        | some candidate => rw [List.filterMap_cons_some hfound, Option.toList_some, List.singleton_append]
      have hrest : OrderSound store (earlier ++ [number]) words ↔
          number ∉ earlier ∧ ¬ EndsSearch store number ∧ OrderSound store (earlier ++ [number]) words := by
        rw [and_iff_right hearlier, and_iff_right hends]
      rw [if_neg (by decide), ← hrest, ← hlist, ← List.append_assoc]
      exact ih

/-! ### One configured option -/

/-- Of distinct words, exactly one gives a value. -/
theorem filterMap_eq_singleton_iff {α β : Type} {f : α → Option β} {list : List α} (hnodup : list.Nodup) :
    (∃ value, list.filterMap f = [value]) ↔
      ∃ x ∈ list, (∃ value, f x = some value) ∧ ∀ y ∈ list, (∃ value, f y = some value) → y = x := by
  constructor
  · rintro ⟨value, hvalue⟩
    obtain ⟨x, hx, hfx⟩ := List.mem_filterMap.mp (hvalue ▸ List.mem_singleton_self value)
    obtain ⟨before, after, rfl⟩ := List.mem_iff_append.mp hx
    rw [List.filterMap_append, List.filterMap_cons_some hfx] at hvalue
    have hbefore : before.filterMap f = [] := by
      have hlength := congrArg List.length hvalue
      simp only [List.length_append, List.length_cons, List.length_nil] at hlength
      exact List.length_eq_zero_iff.mp (by omega)
    have hafter : after.filterMap f = [] := by
      rw [hbefore, List.nil_append] at hvalue
      exact (List.cons_eq_cons.mp hvalue).2
    refine ⟨x, hx, ⟨value, hfx⟩, ?_⟩
    rintro y hy ⟨other, hother⟩
    rcases List.mem_append.mp hy with hy | hy
    · rw [List.filterMap_eq_nil_iff.mp hbefore y hy] at hother
      cases hother
    · rcases List.mem_cons.mp hy with rfl | hy
      · rfl
      · rw [List.filterMap_eq_nil_iff.mp hafter y hy] at hother
        cases hother
  · rintro ⟨x, hx, ⟨value, hfx⟩, hunique⟩
    obtain ⟨before, after, rfl⟩ := List.mem_iff_append.mp hx
    rw [List.nodup_middle, List.nodup_cons, List.mem_append, not_or] at hnodup
    have hnone : ∀ part : List α, x ∉ part → (∀ y ∈ part, y ∈ before ++ x :: after) →
        part.filterMap f = [] := by
      intro part hpart hmem
      refine List.filterMap_eq_nil_iff.mpr fun y hy => ?_
      by_contra hsome
      obtain ⟨other, hother⟩ := Option.ne_none_iff_exists'.mp hsome
      obtain rfl := hunique y (hmem y hy) ⟨other, hother⟩
      exact hpart hy
    refine ⟨value, ?_⟩
    rw [List.filterMap_append, List.filterMap_cons_some hfx,
      hnone before hnodup.1.1 fun y hy => List.mem_append_left _ hy,
      hnone after hnodup.1.2 fun y hy => List.mem_append_right _ (List.mem_cons_of_mem _ hy)]
    rfl

/-- What the search finds in BootOrder, in its order. -/
def configuredCandidates (store : BootVariables) (request : DiscoverRequest) (bytes : List UInt8) :
    List BootCandidate :=
  (orderWords bytes).filterMap (configuredCandidate store request)

theorem decisive_iff (hrequest : request.Valid) : Decisive store request bytes ↔
    bytes ≠ [] ∧ bytes.length % 2 = 0 ∧ OrderSound store [] (orderWords bytes) ∧
      ∃ candidate, configuredCandidates store request bytes = [candidate] := by
  have hone := fun (hnodup : (orderWords bytes).Nodup) =>
    filterMap_eq_singleton_iff (f := configuredCandidate store request) hnodup
  simp only [configuredCandidate_iff hrequest] at hone
  constructor
  · rintro ⟨hnonempty, heven, hnodup, hreadable, hunique⟩
    exact ⟨hnonempty, heven, ⟨by simp, hnodup, hreadable⟩, (hone hnodup).mpr hunique⟩
  · rintro ⟨hnonempty, heven, ⟨-, hnodup, hreadable⟩, hunique⟩
    exact ⟨hnonempty, heven, hnodup, hreadable, (hone hnodup).mp hunique⟩

/-! ### The whole discovery -/

theorem requireOneMatch_wp :
    Prog.Wp MessageSucceeds requireOneMatch (GoesOn (candidates.length = 1) candidates)
      (choiceOf candidates) := by
  refine Prog.Wp.bind_get (Prog.Wp.ite (fun hcount => ?_) fun hcount => ?_)
  · refine Prog.wp_bind.mpr (Prog.wp_call.mpr fun status _ => GoesOn.off hcount ?_)
    split <;> rfl
  · exact GoesOn.on (not_not.mp hcount) rfl rfl

theorem searchOrder_wp :
    Prog.Wp MessageSucceeds (searchOrder store request bytes)
      (GoesOn (OrderSound store [] (orderWords bytes) ∧
          ∃ candidate, configuredCandidates store request bytes = [candidate])
        (configuredCandidates store request bytes)) (choiceOf []) := by
  refine considerOrder_wp.bind fun status choice horder => ?_
  by_cases hsound : OrderSound store [] (orderWords bytes)
  · obtain ⟨rfl, rfl⟩ := horder.1 hsound
    rw [if_neg (by decide), and_iff_right hsound, ← List.length_eq_one_iff]
    exact requireOneMatch_wp
  · have hstatus := horder.2 hsound
    rw [if_pos hstatus]
    exact GoesOn.off (fun h => hsound h.1) hstatus

/-- The discovery ends well exactly when `sound` holds, and then with the first of these candidates. -/
def Discovers (sound : Prop) (candidates : List BootCandidate) (status : EfiStatus) (choice : BootChoice) :
    Prop :=
  (sound → status = .success ∧ choice.selected = candidates.headD zeroCandidate) ∧
    (¬ sound → status ≠ .success ∧ choice.selected = zeroCandidate)

theorem closeChoice_wp {sound : Prop} {status : EfiStatus} {choice : BootChoice}
    (h : GoesOn sound candidates status choice) :
    Prog.Wp MessageSucceeds (closeChoice status) (Discovers sound candidates) choice := by
  by_cases hsound : sound
  · obtain ⟨rfl, rfl⟩ := h.1 hsound
    refine Prog.wp_bind.mpr (Prog.wp_call.mpr fun flushStatus hflush => ?_)
    rw [show flushStatus.isError = false from hflush]
    exact ⟨fun _ => ⟨rfl, rfl⟩, fun hunsound => absurd hsound hunsound⟩
  · have hstatus := h.2 hsound
    rw [closeChoice, if_pos hstatus]
    refine Prog.wp_bind.mpr (Prog.wp_modify.mpr ?_)
    refine Prog.wp_bind.mpr (Prog.wp_call.mpr fun flushStatus _ => ?_)
    rw [hstatus]
    exact ⟨fun hsound' => absurd hsound' hsound, fun _ => ⟨EfiStatus.ne_success_of_isError hstatus, rfl⟩⟩

theorem discoverBootCandidate_wp {choice : BootChoice} (hrequest : request.Valid)
    (hread : store.bootOrder = .ok bytes) :
    Prog.Wp MessageSucceeds (discoverBootCandidate store request)
      (Discovers (Decisive store request bytes) (configuredCandidates store request bytes)) choice := by
  have hempty : ¬ ((request.legacyOptionDescription.isEmpty || request.excludeDescription.isEmpty) = true) := by
    simp [hrequest.wanted, hrequest.excluded]
  unfold discoverBootCandidate
  rw [if_neg hempty, hread]
  refine Prog.wp_bind.mpr (Prog.wp_set.mpr ?_)
  refine Prog.wp_bind.mpr (Prog.wp_call.mpr fun _ _ => ?_)
  refine Prog.wp_bind.mpr (Prog.wp_call.mpr fun _ _ => ?_)
  by_cases hmalformed : bytes.length % 2 ≠ 0 ∨ bytes.length = 0
  · have hunsound : ¬ Decisive store request bytes := by
      rintro ⟨hnonempty, heven, -⟩
      exact hmalformed.elim (· heven) fun h => hnonempty (List.length_eq_zero_iff.mp h)
    dsimp only
    rw [if_pos hmalformed]
    refine Prog.wp_bind.mpr (Prog.wp_call.mpr fun _ _ => ?_)
    refine Prog.wp_bind.mpr (Prog.wp_call.mpr fun _ _ => ?_)
    exact ⟨fun hsound => absurd hsound hunsound, fun _ => ⟨by decide, rfl⟩⟩
  · dsimp only
    rw [if_neg hmalformed]
    rw [not_or, not_not, List.length_eq_zero_iff] at hmalformed
    rw [decisive_iff hrequest, and_iff_right hmalformed.2, and_iff_right hmalformed.1]
    exact searchOrder_wp.bind fun status choice hsearch => closeChoice_wp hsearch

/-- Whether an order is decisive is a matter of the options alone. -/
theorem decisive_bootOrder {bootOrder : Except EfiStatus (List UInt8)} (hrequest : request.Valid) :
    Decisive { store with bootOrder } request bytes ↔ Decisive store request bytes := by
  have hsound : OrderSound { store with bootOrder } [] (orderWords bytes) ↔
      OrderSound store [] (orderWords bytes) :=
    ⟨fun h => ⟨h.fresh, h.nodup, h.readable⟩, fun h => ⟨h.fresh, h.nodup, h.readable⟩⟩
  rw [decisive_iff hrequest, decisive_iff hrequest, hsound]
  rfl

/-- BootOrder in another order is as decisive. -/
theorem decisive_perm {bytes' : List UInt8} (hrequest : request.Valid)
    (hlength : bytes'.length = bytes.length) (hperm : (orderWords bytes').Perm (orderWords bytes)) :
    Decisive store request bytes' ↔ Decisive store request bytes := by
  have hnonempty : bytes' ≠ [] ↔ bytes ≠ [] := by
    rw [← List.length_pos_iff, ← List.length_pos_iff, hlength]
  have hsound : OrderSound store [] (orderWords bytes') ↔ OrderSound store [] (orderWords bytes) := by
    have hmem := fun number => @List.Perm.mem_iff _ number _ _ hperm
    constructor
    · rintro ⟨-, hnodup, hreadable⟩
      exact ⟨by simp, hperm.nodup_iff.mp hnodup, fun number h => hreadable number ((hmem number).mpr h)⟩
    · rintro ⟨-, hnodup, hreadable⟩
      exact ⟨by simp, hperm.nodup_iff.mpr hnodup, fun number h => hreadable number ((hmem number).mp h)⟩
  have hfound : (∃ candidate, configuredCandidates store request bytes' = [candidate]) ↔
      ∃ candidate, configuredCandidates store request bytes = [candidate] := by
    rw [← List.length_eq_one_iff, ← List.length_eq_one_iff]
    rw [configuredCandidates, configuredCandidates, (hperm.filterMap _).length_eq]
  rw [decisive_iff hrequest, decisive_iff hrequest, hnonempty, hlength, hsound, hfound]

theorem configuredCandidates_perm {bytes' : List UInt8} (hrequest : request.Valid)
    (hperm : (orderWords bytes').Perm (orderWords bytes)) (hdecisive : Decisive store request bytes) :
    configuredCandidates store request bytes' = configuredCandidates store request bytes := by
  obtain ⟨-, -, -, candidate, hcandidate⟩ := (decisive_iff hrequest).mp hdecisive
  have hfound := hperm.filterMap (configuredCandidate store request)
  rw [configuredCandidates] at hcandidate ⊢
  rw [hcandidate] at hfound
  rw [List.perm_singleton.mp hfound, configuredCandidates, hcandidate]

end

/-- **The choice of the Boot#### option.** With every message logged, the search succeeds exactly on a
decisive BootOrder, with the candidate of its one configured option; otherwise the caller owns nothing. Read
in any other order, BootOrder gives the same. -/
theorem bootChoice_exact {store : BootVariables} {request : DiscoverRequest} {answers : Nat → EfiStatus}
    {choice : BootChoice} {bytes : List UInt8} (hrequest : request.Valid)
    (hlog : ∀ n, MessageSucceeds (answers n)) (hread : store.bootOrder = .ok bytes) :
    let result := (discoverBootCandidate store request).run answers choice
    (result.1 = .success ↔ Decisive store request bytes) ∧
      (result.1 = .success →
        ∃ number ∈ orderWords bytes, Configured store request number result.2.selected) ∧
      (result.1 ≠ .success → result.2.selected = zeroCandidate) ∧
      ∀ (bytes' : List UInt8) (answers' : Nat → EfiStatus) (choice' : BootChoice),
        (∀ n, MessageSucceeds (answers' n)) → bytes'.length = bytes.length →
        (orderWords bytes').Perm (orderWords bytes) →
        let result' := (discoverBootCandidate { store with bootOrder := .ok bytes' } request).run answers' choice'
        (result'.1 = .success ↔ result.1 = .success) ∧ result'.2.selected = result.2.selected := by
  have hends := (@discoverBootCandidate_wp store request bytes choice hrequest hread).run hlog
  have hiff : ((discoverBootCandidate store request).run answers choice).1 = .success ↔
      Decisive store request bytes :=
    ⟨fun hsuccess => by_contra fun hunsound => (hends.2 hunsound).1 hsuccess, fun h => (hends.1 h).1⟩
  refine ⟨hiff, fun hsuccess => ?_, fun hfailure => (hends.2 fun h => hfailure (hiff.mpr h)).2, ?_⟩
  · have hdecisive := hiff.mp hsuccess
    obtain ⟨-, -, -, candidate, hcandidate⟩ := (decisive_iff hrequest).mp hdecisive
    obtain ⟨number, hnumber, hfound⟩ := List.mem_filterMap.mp (hcandidate ▸ List.mem_singleton_self candidate)
    refine ⟨number, hnumber, ?_⟩
    rw [(hends.1 hdecisive).2, hcandidate]
    exact (configuredCandidate_iff hrequest).mp hfound
  · intro bytes' answers' choice' hlog' hlength hperm
    have hends' := (@discoverBootCandidate_wp { store with bootOrder := .ok bytes' } request bytes' choice'
      hrequest rfl).run hlog'
    rw [decisive_bootOrder hrequest, decisive_perm hrequest hlength hperm] at hends'
    by_cases hdecisive : Decisive store request bytes
    · have hsame := configuredCandidates_perm hrequest hperm hdecisive
      obtain ⟨hstatus', hselected'⟩ := hends'.1 hdecisive
      refine ⟨iff_of_true hstatus' (hiff.mpr hdecisive), ?_⟩
      rw [hselected', (hends.1 hdecisive).2, ← hsame]
      rfl
    · obtain ⟨hstatus', hselected'⟩ := hends'.2 hdecisive
      refine ⟨iff_of_false hstatus' (mt hiff.mp hdecisive), ?_⟩
      rw [hselected', (hends.2 hdecisive).2]

/-- An active option `D` of a hard disk, without optional data. -/
def diskOption : List UInt8 :=
  [1, 0, 0, 0, 13, 0, 0x44, 0, 0, 0, 5, 1, 9, 0, 2, 0, 0, 0, 0, 0x7F, 0xFF, 4, 0]

theorem diskOption_loads : LoadOption diskOption 1 where
  description := by
    refine ⟨by decide, by decide, fun index _ hindex => ?_, by decide⟩
    obtain rfl := Nat.lt_one_iff.mp hindex
    decide
  path := by decide
  bbs := ⟨by decide, by decide, by decide, by decide, by decide, by decide⟩

/-- One option is listed, and it is `diskOption`. -/
def diskStore : BootVariables where
  bootOrder := .ok [1, 0]
  bootOption := fun number => if number = 1 then .ok diskOption else .error .notFound
  pools := fun _ => allPools

def diskRequest : DiscoverRequest := ⟨⟨0, 0, 0, []⟩, [0x64], [0x58]⟩

theorem diskStore_decisive : Decisive diskStore diskRequest [1, 0] := by
  have hdecoded : diskStore.candidateOf 1 = .ok (optionCandidate 1 diskOption 1) :=
    legacyBootParseLegacyBootOption_iff.mpr ⟨1, diskOption_loads, rfl⟩
  have hwords : orderWords [1, 0] = [1] := by decide
  have hconfigured : Configured diskStore diskRequest 1 (optionCandidate 1 diskOption 1) :=
    ⟨hdecoded, by decide, by decide, [0x44], by decide, by decide, by decide, by decide⟩
  refine ⟨by decide, by decide, by decide, ?_, 1, by decide, ⟨_, hconfigured⟩, ?_⟩
  · rw [hwords]
    rintro number hnumber ⟨status, hstatus, -⟩
    obtain rfl := List.mem_singleton.mp hnumber
    rw [hdecoded] at hstatus
    cases hstatus
  · rw [hwords]
    rintro other hother -
    exact List.mem_singleton.mp hother

theorem bootChoice_disk :
    ((discoverBootCandidate diskStore diskRequest).run (fun _ => .success) ⟨0, zeroCandidate⟩).1 = .success := by
  have hrequest : diskRequest.Valid := ⟨by decide, by decide, by decide, by decide⟩
  have hchoice := @bootChoice_exact diskStore diskRequest (fun _ => .success) ⟨0, zeroCandidate⟩ [1, 0]
    hrequest (fun _ => rfl) rfl
  exact hchoice.1.mpr diskStore_decisive

end CsmVgaSelector
