import CsmVgaSelector.Config.FilePath
import CsmVgaSelector.Lib.Join

/-!
# What the two passes over the image's device path make of it

A file path node needs its characters, a `NUL` and its header, so what both passes put in the buffer is bounded
by the bytes of the path.
-/

namespace CsmVgaSelector

open Join

variable (lib : DevicePathLib)

/-- The characters of a node from an index on, up to the first `NUL`. -/
def unitsFrom (node : List UInt8) (index room : Nat) : List UInt16 :=
  ((List.range' index room).map (pathName node)).takeWhile (· != 0)

/-- The part of the path that a file path node holds. -/
def fragmentOf (node : List UInt8) : List UInt16 := unitsFrom node 0 (fragmentCapacity lib node)

def fragmentsOf (nodes : List (List UInt8)) : List (List UInt16) :=
  (nodes.filter (isFilePathNode lib)).map (fragmentOf lib)

/-- The nodes one behind the other from an offset on, up to the end node or to where no header fits, and where
they stop. -/
inductive NodesFrom (filePath : List UInt8) : Nat → List (List UInt8) → Nat → Prop where
  | done {offset : Nat} (hdone : lib.getDevicePathSize filePath < offset + sizeofDevicePathProtocol) :
      NodesFrom filePath offset [] offset
  | last {offset : Nat} (hroom : offset + sizeofDevicePathProtocol ≤ lib.getDevicePathSize filePath)
      (hheader : sizeofDevicePathProtocol ≤ lib.devicePathNodeLength (filePath.drop offset))
      (hfits : lib.devicePathNodeLength (filePath.drop offset) ≤ lib.getDevicePathSize filePath - offset)
      (hend : lib.isDevicePathEnd (filePath.drop offset) = true) :
      NodesFrom filePath offset [filePath.drop offset]
        (offset + lib.devicePathNodeLength (filePath.drop offset))
  | next {offset stop : Nat} {nodes : List (List UInt8)}
      (hroom : offset + sizeofDevicePathProtocol ≤ lib.getDevicePathSize filePath)
      (hheader : sizeofDevicePathProtocol ≤ lib.devicePathNodeLength (filePath.drop offset))
      (hfits : lib.devicePathNodeLength (filePath.drop offset) ≤ lib.getDevicePathSize filePath - offset)
      (hend : lib.isDevicePathEnd (filePath.drop offset) = false)
      (hrest : NodesFrom filePath (offset + lib.devicePathNodeLength (filePath.drop offset)) nodes stop) :
      NodesFrom filePath offset (filePath.drop offset :: nodes) stop

/-- A file path node of whole characters, with a `NUL` among them. -/
structure Terminated (node : List UInt8) : Prop where
  payload : sizeofChar16 ≤ lib.devicePathNodeLength node - sizeofDevicePathProtocol
  even : (lib.devicePathNodeLength node - sizeofDevicePathProtocol) % 2 = 0
  ends : (fragmentOf lib node).length < fragmentCapacity lib node

def AllTerminated (nodes : List (List UInt8)) : Prop :=
  ∀ node ∈ nodes, isFilePathNode lib node = true → Terminated lib node

variable {lib} {filePath node : List UInt8} {nodes : List (List UInt8)} {offset stop index room : Nat}

/-! ### The walk -/

/-- What each body keeps, the walk keeps to its end, over the nodes that are still to come. -/
theorem walkNodes_run {σ : Type} {body : List UInt8 → Nat → σ → Except PathFailure σ}
    (keeps : List (List UInt8) → σ → Prop)
    (hstep : ∀ node rest left state, sizeofDevicePathProtocol ≤ lib.devicePathNodeLength node →
      lib.devicePathNodeLength node ≤ left → keeps (node :: rest) state →
      ∃ state', body node left state = .ok state' ∧ keeps rest state')
    (hnodes : NodesFrom lib filePath offset nodes stop) {fuel : Nat} (hfuel : nodes.length < fuel) {state : σ}
    (h : keeps nodes state) :
    ∃ state', walkNodes lib body filePath fuel offset state = .ok (stop, state') ∧ keeps [] state' := by
  obtain ⟨fuel, rfl⟩ := Nat.exists_eq_succ_of_ne_zero (Nat.ne_zero_of_lt hfuel)
  induction hnodes generalizing fuel state with
  | done hdone =>
      refine ⟨state, ?_, h⟩
      rw [walkNodes, if_neg (by omega)]
  | last hroom hheader hfits hend =>
      obtain ⟨state', hbody, h'⟩ := hstep _ _ _ _ hheader hfits h
      refine ⟨state', ?_, h'⟩
      rw [walkNodes, if_pos hroom]
      simp only [hbody, hend, if_true]
  | next hroom hheader hfits hend _ ih =>
      obtain ⟨state', hbody, h'⟩ := hstep _ _ _ _ hheader hfits h
      have hrest := Nat.lt_of_succ_lt_succ hfuel
      obtain ⟨fuel, rfl⟩ := Nat.exists_eq_succ_of_ne_zero (Nat.ne_zero_of_lt hrest)
      obtain ⟨last, hwalk, hlast⟩ := ih h' fuel hrest
      refine ⟨last, ?_, hlast⟩
      rw [walkNodes, if_pos hroom]
      simpa only [hbody, hend, Bool.false_eq_true, if_false] using hwalk

/-- The bytes of the nodes are bytes of the path. -/
theorem NodesFrom.sum_le (h : NodesFrom lib filePath offset nodes stop) :
    offset + (nodes.map lib.devicePathNodeLength).sum = stop := by
  induction h with
  | done => rfl
  | last => simp
  | next _ _ _ _ _ ih =>
      rw [List.map_cons, List.sum_cons, ← ih]
      omega

theorem NodesFrom.stop_le (h : NodesFrom lib filePath offset nodes stop)
    (hoffset : offset ≤ lib.getDevicePathSize filePath) : stop ≤ lib.getDevicePathSize filePath := by
  induction h with
  | done => exact hoffset
  | last => omega
  | next _ _ _ _ _ ih => exact ih (by omega)

theorem NodesFrom.length_le (h : NodesFrom lib filePath offset nodes stop) :
    offset + nodes.length ≤ stop := by
  induction h with
  | done => exact Nat.le_refl _
  | last _ hheader =>
      have hpos : 0 < sizeofDevicePathProtocol := by decide
      simp only [List.length_singleton]
      omega
  | next _ hheader _ _ _ ih =>
      have hpos : 0 < sizeofDevicePathProtocol := by decide
      rw [List.length_cons]
      omega

/-! ### The parts -/

theorem unitsFrom_succ :
    unitsFrom node index (room + 1) =
      if pathName node index ≠ 0 then pathName node index :: unitsFrom node (index + 1) room else [] := by
  rw [unitsFrom, List.range'_succ, List.map_cons, List.takeWhile_cons]
  simp only [bne_iff_ne]
  rfl

theorem countFragmentChars_eq :
    countFragmentChars node room index = index + (unitsFrom node index room).length := by
  induction room generalizing index with
  | zero => rfl
  | succ room ih =>
      rw [countFragmentChars, unitsFrom_succ]
      split
      · rw [ih, List.length_cons]
        omega
      · rfl

theorem countFragmentChars_fragmentOf :
    countFragmentChars node (fragmentCapacity lib node) 0 = (fragmentOf lib node).length := by
  rw [countFragmentChars_eq, Nat.zero_add]
  rfl

theorem length_unitsFrom_le : (unitsFrom node index room).length ≤ room := by
  calc (unitsFrom node index room).length
      ≤ ((List.range' index room).map (pathName node)).length := (List.takeWhile_prefix _).length_le
    _ = room := by rw [List.length_map, List.length_range']

theorem fragmentsOf_cons_of_file (hfile : isFilePathNode lib node = true) :
    fragmentsOf lib (node :: nodes) = fragmentOf lib node :: fragmentsOf lib nodes := by
  simp [fragmentsOf, hfile]

theorem fragmentsOf_cons_of_other (hother : isFilePathNode lib node = false) :
    fragmentsOf lib (node :: nodes) = fragmentsOf lib nodes := by
  simp [fragmentsOf, hother]

/-- A part with its `NUL` and the header fits its node. -/
theorem Terminated.length_le (h : Terminated lib node) :
    2 * (fragmentOf lib node).length + 6 ≤ lib.devicePathNodeLength node := by
  have hends := h.ends
  unfold fragmentCapacity sizeofDevicePathProtocol sizeofChar16 at hends
  omega

/-- What the first pass measures of the parts. -/
def measured (fragments : List (List UInt16)) : FragmentTotals where
  totalChars := (fragments.map List.length).sum
  fragmentCount := fragments.length

/-- The characters that the buffer has room for before its `NUL`. -/
def FragmentTotals.sized (totals : FragmentTotals) : Nat := totals.totalChars + totals.fragmentCount

theorem measured_le (h : AllTerminated lib nodes) :
    2 * (measured (fragmentsOf lib nodes)).totalChars + 6 * (measured (fragmentsOf lib nodes)).fragmentCount ≤
      (nodes.map lib.devicePathNodeLength).sum := by
  induction nodes with
  | nil => exact Nat.le_refl _
  | cons node rest ih =>
      have hrest := ih fun other hother => h other (List.mem_cons_of_mem _ hother)
      rw [List.map_cons, List.sum_cons]
      cases hfile : isFilePathNode lib node with
      | true =>
          have hnode := (h node List.mem_cons_self hfile).length_le
          rw [fragmentsOf_cons_of_file hfile]
          simp only [measured, List.map_cons, List.sum_cons, List.length_cons] at hrest ⊢
          omega
      | false =>
          rw [fragmentsOf_cons_of_other hfile]
          omega

/-! ### The first pass -/

variable (lib) in
/-- The totals with one more node. -/
def FragmentTotals.withNode (totals : FragmentTotals) (node : List UInt8) : FragmentTotals :=
  if isFilePathNode lib node then
    { totalChars := totals.totalChars + (fragmentOf lib node).length
      fragmentCount := totals.fragmentCount + 1 }
  else totals

theorem measureNode_of_terminated {left : Nat} {totals : FragmentTotals}
    (hheader : sizeofDevicePathProtocol ≤ lib.devicePathNodeLength node)
    (hfits : lib.devicePathNodeLength node ≤ left)
    (hnode : isFilePathNode lib node = true → Terminated lib node)
    (hroom : isFilePathNode lib node = true →
      totals.totalChars + (fragmentOf lib node).length ≤ maxUintn) :
    measureNode lib node left totals = .ok (totals.withNode lib node) := by
  unfold measureNode FragmentTotals.withNode
  rw [if_neg (by omega)]
  cases hfile : isFilePathNode lib node with
  | false => rfl
  | true =>
      have hterminated := hnode hfile
      have hpayload := hterminated.payload
      have heven := hterminated.even
      have hends := hterminated.ends
      have hchars := hroom hfile
      simp only [countFragmentChars_fragmentOf, if_true]
      rw [if_neg (by omega), if_neg (by omega), if_neg (by omega)]

variable (lib) in
/-- The totals at some point of the first pass, with the nodes that are still to come. -/
structure Measuring (all : FragmentTotals) (rest : List (List UInt8)) (totals : FragmentTotals) : Prop where
  terminated : AllTerminated lib rest
  chars : totals.totalChars + (measured (fragmentsOf lib rest)).totalChars = all.totalChars
  count : totals.fragmentCount + (measured (fragmentsOf lib rest)).fragmentCount = all.fragmentCount

theorem Measuring.step {all totals : FragmentTotals} {left : Nat} {rest : List (List UInt8)}
    (hall : all.totalChars ≤ maxUintn) (hheader : sizeofDevicePathProtocol ≤ lib.devicePathNodeLength node)
    (hfits : lib.devicePathNodeLength node ≤ left) (h : Measuring lib all (node :: rest) totals) :
    ∃ totals', measureNode lib node left totals = .ok totals' ∧ Measuring lib all rest totals' := by
  have hrest : AllTerminated lib rest := fun other hother =>
    h.terminated other (List.mem_cons_of_mem _ hother)
  have hchars := h.chars
  have hcount := h.count
  refine ⟨totals.withNode lib node, ?_, hrest, ?_, ?_⟩
  · apply measureNode_of_terminated hheader hfits (h.terminated node List.mem_cons_self)
    intro hfile
    rw [fragmentsOf_cons_of_file hfile] at hchars
    simp only [measured, List.map_cons, List.sum_cons] at hchars
    omega
  · unfold FragmentTotals.withNode
    split
    case isTrue hfile =>
      rw [fragmentsOf_cons_of_file hfile] at hchars
      simp only [measured, List.map_cons, List.sum_cons] at hchars ⊢
      omega
    case isFalse hother => rwa [fragmentsOf_cons_of_other (Bool.of_not_eq_true hother)] at hchars
  · unfold FragmentTotals.withNode
    split
    case isTrue hfile =>
      rw [fragmentsOf_cons_of_file hfile] at hcount
      simp only [measured, List.length_cons] at hcount ⊢
      omega
    case isFalse hother => rwa [fragmentsOf_cons_of_other (Bool.of_not_eq_true hother)] at hcount

/-- The first pass over parts that end: it counts them and their characters. -/
theorem measureFragments_of_nodes (hnodes : NodesFrom lib filePath 0 nodes stop)
    (hall : AllTerminated lib nodes) (hsize : lib.getDevicePathSize filePath ≤ appFileMaxDevicePathBytes) :
    measureFragments lib filePath = .ok (stop, measured (fragmentsOf lib nodes)) := by
  have hstop := hnodes.stop_le (Nat.zero_le _)
  have hlength := hnodes.length_le
  have hchars : (measured (fragmentsOf lib nodes)).totalChars ≤ maxUintn := by
    have hmax : appFileMaxDevicePathBytes ≤ maxUintn := by decide
    have hbound := measured_le hall
    have hsum := hnodes.sum_le
    omega
  have hstart : Measuring lib (measured (fragmentsOf lib nodes)) nodes ⟨0, 0⟩ :=
    ⟨hall, Nat.zero_add _, Nat.zero_add _⟩
  have hfuel : nodes.length < lib.getDevicePathSize filePath + 1 := by omega
  obtain ⟨totals, hwalk, hlast⟩ := walkNodes_run (Measuring lib (measured (fragmentsOf lib nodes)))
    (fun node rest left totals hheader hfits h => h.step hchars hheader hfits) hnodes hfuel hstart
  have htotals : totals = measured (fragmentsOf lib nodes) := FragmentTotals.ext hlast.chars hlast.count
  rw [measureFragments, hwalk, htotals]

theorem measureNode_error_or {left : Nat} {totals : FragmentTotals} :
    measureNode lib node left totals = .error (.returned .compromisedData) ∨
      (sizeofDevicePathProtocol ≤ lib.devicePathNodeLength node ∧ lib.devicePathNodeLength node ≤ left ∧
        (isFilePathNode lib node = true → Terminated lib node)) := by
  unfold measureNode
  dsimp only
  split
  case isTrue => exact .inl rfl
  case isFalse hheader =>
    cases hfile : isFilePathNode lib node with
    | false => exact .inr ⟨by omega, by omega, nofun⟩
    | true =>
        rw [if_pos rfl, countFragmentChars_fragmentOf]
        split
        case isTrue => exact .inl rfl
        case isFalse hpayload =>
          have hcapacity : (fragmentOf lib node).length ≤ fragmentCapacity lib node := length_unitsFrom_le
          split
          case isTrue => exact .inl rfl
          case isFalse hends => exact .inr ⟨by omega, by omega, fun _ => ⟨by omega, by omega, by omega⟩⟩

/-- A walk of the first pass that no list of nodes answers to is refused. -/
theorem walkNodes_measureNode_or {fuel : Nat} (hfuel : lib.getDevicePathSize filePath - offset < fuel)
    {totals : FragmentTotals}
    (hroom : totals.totalChars + (lib.getDevicePathSize filePath - offset) ≤ maxUintn) :
    walkNodes lib (measureNode lib) filePath fuel offset totals = .error (.returned .compromisedData) ∨
      ∃ nodes stop, NodesFrom lib filePath offset nodes stop ∧ AllTerminated lib nodes := by
  induction fuel generalizing offset totals with
  | zero => exact absurd hfuel (Nat.not_lt_zero _)
  | succ fuel ih =>
      rw [walkNodes]
      split
      case isFalse hdone => exact .inr ⟨[], offset, .done (Nat.lt_of_not_le hdone), nofun⟩
      case isTrue hheaderRoom =>
        rcases @measureNode_error_or lib (filePath.drop offset) (lib.getDevicePathSize filePath - offset) totals
          with herror | ⟨hheader, hfits, hnode⟩
        · simp only [herror]
          exact .inl trivial
        · have hpos : 0 < sizeofDevicePathProtocol := by decide
          have hchars (hfile : isFilePathNode lib (filePath.drop offset) = true) :
              totals.totalChars + (fragmentOf lib (filePath.drop offset)).length ≤ maxUintn := by
            have hfragment := (hnode hfile).length_le
            omega
          simp only [measureNode_of_terminated hheader hfits hnode hchars]
          cases hend : lib.isDevicePathEnd (filePath.drop offset) with
          | true =>
              refine .inr ⟨_, _, .last hheaderRoom hheader hfits hend, ?_⟩
              intro node hmem
              rwa [List.mem_singleton.mp hmem]
          | false =>
              have hleft : (totals.withNode lib (filePath.drop offset)).totalChars +
                  (lib.getDevicePathSize filePath -
                    (offset + lib.devicePathNodeLength (filePath.drop offset))) ≤ maxUintn := by
                unfold FragmentTotals.withNode
                split
                case isTrue hfile =>
                  have hfragment := (hnode hfile).length_le
                  dsimp only
                  omega
                case isFalse => omega
              refine (ih (by omega) hleft).imp id ?_
              rintro ⟨nodes, stop, hrest, hall⟩
              refine ⟨_, _, .next hheaderRoom hheader hfits hend hrest, ?_⟩
              exact List.forall_mem_cons.mpr ⟨hnode, hall⟩

/-! ### The second pass -/

/-- A buffer of so many characters that holds a text, and zeros behind it. -/
def pathBufferOf (characters : Nat) (text : List UInt16) : PathBuffer where
  result := text ++ List.replicate (characters - text.length) 0
  destination := text.length

variable {characters : Nat} {text : List UInt16}

theorem zeroPool_eq : zeroPool characters = pathBufferOf characters [] := rfl

theorem put_pathBufferOf (htext : text.length < characters) (character : UInt16) :
    (pathBufferOf characters text).put character = .ok (pathBufferOf characters (text ++ [character])) := by
  have hzeros : characters - text.length = characters - (text.length + 1) + 1 := by omega
  have hroom : (pathBufferOf characters text).destination < (pathBufferOf characters text).result.length := by
    simp only [pathBufferOf, List.length_append, List.length_replicate]
    omega
  rw [PathBuffer.put, if_pos hroom]
  simp only [pathBufferOf]
  rw [List.set_append_right _ _ (Nat.le_refl _), Nat.sub_self, hzeros, List.replicate_succ, List.set_cons_zero,
    List.length_append, List.length_singleton, List.append_assoc, List.singleton_append]

theorem copyFragmentChars_pathBufferOf
    (hroom : text.length + (unitsFrom node index room).length ≤ characters) :
    copyFragmentChars node room index (pathBufferOf characters text) =
      .ok (pathBufferOf characters (text ++ (unitsFrom node index room).map backslashed)) := by
  induction room generalizing index text with
  | zero =>
      rw [show unitsFrom node index 0 = [] from rfl, List.map_nil, List.append_nil]
      rfl
  | succ room ih =>
      rw [unitsFrom_succ] at hroom ⊢
      rw [copyFragmentChars]
      split
      case isTrue hchar =>
        rw [if_pos hchar, List.length_cons] at hroom
        rw [put_pathBufferOf (by omega)]
        dsimp only
        rw [ih (by rw [List.length_append, List.length_singleton]; omega), List.map_cons, List.append_assoc,
          List.singleton_append]
      case isFalse => rw [List.map_nil, List.append_nil]

theorem isSeparator_backslashed (character : UInt16) :
    isSeparator (backslashed character) = isSeparator character := by
  unfold backslashed
  split
  case isTrue hslash =>
    rw [hslash]
    rfl
  case isFalse => rfl

/-- The first character tells whether a part is empty. -/
theorem Terminated.fragmentOf_eq (h : Terminated lib node) :
    fragmentOf lib node =
      if pathName node 0 ≠ 0 then
        pathName node 0 :: unitsFrom node 1 (fragmentCapacity lib node - 1)
      else [] := by
  have hends := h.ends
  obtain ⟨room, hroom⟩ := Nat.exists_eq_succ_of_ne_zero (Nat.ne_zero_of_lt hends)
  rw [fragmentOf, hroom, unitsFrom_succ]
  rfl

/-- What the last character written and the first one to come decide is what the text and the part decide. -/
theorem putSeparator_pathBufferOf (h : Terminated lib node) (htext : text.length < characters) :
    putSeparator node (pathBufferOf characters text) =
      .ok (pathBufferOf characters
        (if text.isEmpty || (fragmentOf lib node).isEmpty then text
        else text ++ between isSeparator backslash text ((fragmentOf lib node).map backslashed))) := by
  have hfragment := h.fragmentOf_eq
  unfold putSeparator
  rcases List.eq_nil_or_concat' text with rfl | ⟨front, last, rfl⟩
  · rw [if_neg (by simp [pathBufferOf])]
    rfl
  · have hlast : (pathBufferOf characters (front ++ [last])).result[
        (pathBufferOf characters (front ++ [last])).destination - 1]! = last := by
      simp [pathBufferOf]
    rw [hlast]
    by_cases hfirst : pathName node 0 = 0
    · have hempty : fragmentOf lib node = [] := by rw [hfragment, if_neg (not_not.mpr hfirst)]
      rw [if_neg fun hboth => hboth.2.1 hfirst, hempty, List.isEmpty_nil, Bool.or_true, if_pos rfl]
    · rw [if_pos hfirst] at hfragment
      rw [hfragment]
      by_cases hneither : isSeparator last = false ∧ isSeparator (pathName node 0) = false
      · rw [if_pos ⟨by simp [pathBufferOf], hfirst, hneither⟩, put_pathBufferOf htext]
        simp [between, isSeparator_backslashed, hneither]
      · rw [if_neg fun hboth => hneither hboth.2.2]
        have hmeets : (isSeparator last || isSeparator (pathName node 0)) = true := by
          by_contra hnone
          exact hneither (Bool.or_eq_false_iff.mp (Bool.of_not_eq_true hnone))
        simp [between, isSeparator_backslashed, hmeets]

/-- A file path node in the second pass, and any other. -/
theorem copyNode_pathBufferOf {left : Nat} (hnode : isFilePathNode lib node = true → Terminated lib node)
    (hroom : isFilePathNode lib node = true →
      text.length + ((fragmentOf lib node).length + 1) ≤ characters) :
    copyNode lib node left (pathBufferOf characters text) =
      .ok (pathBufferOf characters
        (if isFilePathNode lib node then
          extend isSeparator backslash text ((fragmentOf lib node).map backslashed)
        else text)) := by
  unfold copyNode
  cases hfile : isFilePathNode lib node with
  | false => rfl
  | true =>
      have hchars := hroom hfile
      rw [if_pos rfl, if_pos rfl, putSeparator_pathBufferOf (hnode hfile) (by omega)]
      dsimp only
      have hseparated : (if text.isEmpty || (fragmentOf lib node).isEmpty then text
          else text ++ between isSeparator backslash text ((fragmentOf lib node).map backslashed)).length +
          (fragmentOf lib node).length ≤ characters := by
        have hone := @length_between_le _ isSeparator backslash text ((fragmentOf lib node).map backslashed)
        split
        · omega
        · rw [List.length_append]
          omega
      refine (copyFragmentChars_pathBufferOf hseparated).trans ?_
      congr 2
      unfold extend
      rw [List.isEmpty_map]
      split <;> rfl

/-- What the second pass makes of the parts, with a text that stands already. -/
def copied (text : List UInt16) (fragments : List (List UInt16)) : List UInt16 :=
  (fragments.map (List.map backslashed)).foldl (extend isSeparator backslash) text

/-- The parts in their order, a backslash between neighbours that bring no separator, every slash turned. -/
def joinedPath (fragments : List (List UInt16)) : List UInt16 :=
  (join isSeparator backslash (nonempty fragments)).map backslashed

variable {fragments : List (List UInt16)}

theorem copied_nil : copied [] fragments = joinedPath fragments := by
  rw [copied, foldl_extend, nonempty_map, joinedPath]
  exact join_map isSeparator_backslashed rfl

theorem sum_length_succ :
    ((fragments.map (List.map backslashed)).map fun piece => piece.length + 1).sum =
      (measured fragments).sized := by
  induction fragments with
  | nil => rfl
  | cons fragment rest ih =>
      simp only [FragmentTotals.sized, measured, List.map_cons, List.sum_cons, List.length_map,
        List.length_cons] at ih ⊢
      omega

/-- The first pass leaves room for every separator of the second. -/
theorem length_copied_le :
    (copied text fragments).length ≤ text.length + (measured fragments).sized := by
  rw [← sum_length_succ]
  exact length_foldl_extend_le

variable (lib) in
/-- The buffer at some point of the second pass, with the nodes that are still to come. -/
structure Copying (characters : Nat) (all : List UInt16) (rest : List (List UInt8)) (buffer : PathBuffer) :
    Prop where
  terminated : AllTerminated lib rest
  holds : ∃ text, buffer = pathBufferOf characters text ∧ copied text (fragmentsOf lib rest) = all ∧
    text.length + (measured (fragmentsOf lib rest)).sized < characters

theorem Copying.step {all : List UInt16} {left : Nat} {rest : List (List UInt8)} {buffer : PathBuffer}
    (h : Copying lib characters all (node :: rest) buffer) :
    ∃ buffer', copyNode lib node left buffer = .ok buffer' ∧ Copying lib characters all rest buffer' := by
  obtain ⟨hterminated, text, rfl, htext, hroom⟩ := h
  have hrest : AllTerminated lib rest := fun other hother =>
    hterminated other (List.mem_cons_of_mem _ hother)
  refine ⟨_, copyNode_pathBufferOf (hterminated node List.mem_cons_self) ?_, hrest, _, rfl, ?_, ?_⟩
  · intro hfile
    rw [fragmentsOf_cons_of_file hfile] at hroom
    simp only [FragmentTotals.sized, measured, List.map_cons, List.sum_cons, List.length_cons] at hroom
    omega
  · cases hfile : isFilePathNode lib node with
    | true => rwa [fragmentsOf_cons_of_file hfile] at htext
    | false => rwa [fragmentsOf_cons_of_other hfile] at htext
  · cases hfile : isFilePathNode lib node with
    | true =>
        have hone := @length_extend_le _ isSeparator backslash text ((fragmentOf lib node).map backslashed)
        rw [fragmentsOf_cons_of_file hfile] at hroom
        simp only [FragmentTotals.sized, measured, List.map_cons, List.sum_cons, List.length_cons,
          List.length_map, if_true] at hroom hone ⊢
        omega
    | false => rwa [fragmentsOf_cons_of_other hfile] at hroom

/-- The second pass over the same parts, into a buffer of the size that the first pass measured. -/
theorem copyFragments_of_nodes (hnodes : NodesFrom lib filePath 0 nodes stop)
    (hall : AllTerminated lib nodes) {totals : FragmentTotals}
    (htotals : totals = measured (fragmentsOf lib nodes)) :
    copyFragments lib filePath totals =
      .ok (stop, pathBufferOf (totals.sized + 1) (joinedPath (fragmentsOf lib nodes))) := by
  subst htotals
  have hstop := hnodes.stop_le (Nat.zero_le _)
  have hlength := hnodes.length_le
  have hfuel : nodes.length < lib.getDevicePathSize filePath + 1 := by omega
  have hstart : Copying lib _ (joinedPath (fragmentsOf lib nodes)) nodes
      (zeroPool ((measured (fragmentsOf lib nodes)).sized + 1)) :=
    ⟨hall, [], zeroPool_eq, copied_nil, by simp⟩
  obtain ⟨buffer, hwalk, -, text, rfl, htext, -⟩ := walkNodes_run (Copying lib _ _)
    (fun node rest left buffer _ _ h => h.step) hnodes hfuel hstart
  have htext : text = joinedPath (fragmentsOf lib nodes) := htext
  rw [copyFragments, ← FragmentTotals.sized, hwalk, htext]

theorem joinedPath_eq_nil : joinedPath fragments = [] ↔ (measured fragments).totalChars = 0 := by
  rw [joinedPath, List.map_eq_nil_iff, join_nonempty_eq_nil, ← List.length_eq_zero_iff, List.length_flatten]
  rfl

theorem length_joinedPath_le : (joinedPath fragments).length ≤ (measured fragments).sized := by
  have h := @length_copied_le [] fragments
  rwa [copied_nil, List.length_nil, Nat.zero_add] at h

/-! ### Both passes -/

variable (lib) in
/-- A path that both guards let pass, by its nodes. -/
structure PathNodes (filePath : List UInt8) (nodes : List (List UInt8)) : Prop where
  valid : lib.isDevicePathValid filePath appFileMaxDevicePathBytes = true
  header : sizeofDevicePathProtocol ≤ lib.getDevicePathSize filePath
  bounded : lib.getDevicePathSize filePath ≤ appFileMaxDevicePathBytes
  nodesFrom : ∃ stop, NodesFrom lib filePath 0 nodes stop
  terminated : AllTerminated lib nodes

/-- The parts of a path take less than half of its bytes, so the last check refuses only a path without any. -/
theorem PathNodes.measured_lt (h : PathNodes lib filePath nodes) :
    (measured (fragmentsOf lib nodes)).sized < appFileMaxDevicePathBytes / sizeofChar16 := by
  obtain ⟨stop, hnodes⟩ := h.nodesFrom
  have hstop := hnodes.stop_le (Nat.zero_le _)
  have hsum := hnodes.sum_le
  have hbound := measured_le h.terminated
  have hsize := h.bounded
  have hmax : appFileMaxDevicePathBytes / sizeofChar16 = 32768 := rfl
  have hbytes : appFileMaxDevicePathBytes = 65536 := rfl
  cases hfragments : fragmentsOf lib nodes with
  | nil => exact Nat.lt_of_lt_of_eq (by decide) hmax.symm
  | cons fragment rest =>
      have hcount : 0 < (measured (fragmentsOf lib nodes)).fragmentCount := by
        rw [hfragments]
        exact Nat.succ_pos _
      rw [← hfragments, FragmentTotals.sized]
      omega

variable (lib) in
/-- The parts that a path holds, if both guards let it pass. -/
def HoldsFragments (filePath : List UInt8) (fragments : List (List UInt16)) : Prop :=
  ∃ nodes, PathNodes lib filePath nodes ∧ fragmentsOf lib nodes = fragments

/-- A path that no nodes answer to is refused. -/
theorem appendFilePathFragments_of_not {granted : Bool}
    (h : ¬∃ fragments, HoldsFragments lib filePath fragments) :
    appendFilePathFragments lib granted filePath = .error (.returned .compromisedData) := by
  unfold appendFilePathFragments
  dsimp only
  split
  case isTrue => rfl
  case isFalse hvalid =>
    split
    case isTrue => rfl
    case isFalse hsize =>
      have hvalid : lib.isDevicePathValid filePath appFileMaxDevicePathBytes = true := by simpa using hvalid
      have hmax : appFileMaxDevicePathBytes ≤ maxUintn := by decide
      have hwalk := @walkNodes_measureNode_or lib filePath 0 (lib.getDevicePathSize filePath + 1) (by omega)
        ⟨0, 0⟩ (by dsimp only; omega)
      rcases hwalk with herror | ⟨nodes, stop, hnodes, hall⟩
      · rw [measureFragments, herror]
      · exact absurd ⟨_, nodes, ⟨hvalid, by omega, by omega, ⟨stop, hnodes⟩, hall⟩, rfl⟩ h

/-- The terminator takes the place of a zero. -/
theorem put_zero_pathBufferOf (htext : text.length < characters) :
    (pathBufferOf characters (text ++ [0])).result = (pathBufferOf characters text).result := by
  have hzeros : characters - text.length = characters - (text.length + 1) + 1 := by omega
  simp only [pathBufferOf]
  rw [List.length_append, List.length_singleton, hzeros, List.replicate_succ, List.append_assoc,
    List.singleton_append]

theorem appendFilePathFragments_of_nodes {granted : Bool} (h : PathNodes lib filePath nodes)
    (hfragments : fragmentsOf lib nodes = fragments) :
    appendFilePathFragments lib granted filePath =
      if joinedPath fragments = [] then .error (.returned .notFound)
      else if granted then .ok (pathBufferOf ((measured fragments).sized + 1) (joinedPath fragments)).result
      else .error (.returned .outOfResources) := by
  subst hfragments
  obtain ⟨stop, hnodes⟩ := h.nodesFrom
  have hlimit := h.measured_lt
  have hstop := hnodes.stop_le (Nat.zero_le _)
  have hlength := @length_joinedPath_le (fragmentsOf lib nodes)
  have hheader := h.header
  have hbounded := h.bounded
  have hmax : appFileMaxDevicePathBytes / sizeofChar16 ≤ maxUintn := by decide
  unfold FragmentTotals.sized at hlimit hlength ⊢
  unfold appendFilePathFragments
  rw [measureFragments_of_nodes hnodes h.terminated h.bounded, h.valid]
  dsimp only
  rw [if_neg (by simp), if_neg (by omega)]
  by_cases hempty : joinedPath (fragmentsOf lib nodes) = []
  · rw [if_pos (.inr (.inl (joinedPath_eq_nil.mp hempty))), if_pos hempty]
  · have hchars := mt joinedPath_eq_nil.mpr hempty
    rw [if_neg (by omega), if_neg hempty]
    cases granted with
    | false => rfl
    | true =>
        have hroom := Nat.lt_succ_of_le hlength
        rw [if_neg (by decide), copyFragments_of_nodes hnodes h.terminated rfl, if_pos rfl]
        dsimp only
        rw [FragmentTotals.sized, put_pathBufferOf hroom]
        exact congrArg Except.ok (put_zero_pathBufferOf hroom)

/-- The second pass writes what the first has measured room for, and the buffer then holds the parts of the path
in order; a path whose parts cannot be told gives none. -/
theorem appendFilePathFragments_joins (lib : DevicePathLib) (granted : Bool) (filePath : List UInt8) :
    (∀ fragments, HoldsFragments lib filePath fragments →
      (joinedPath fragments).length ≤ (measured fragments).sized ∧
      (∃ stop, measureFragments lib filePath = .ok (stop, measured fragments) ∧
        copyFragments lib filePath (measured fragments) =
          .ok (stop, pathBufferOf ((measured fragments).sized + 1) (joinedPath fragments))) ∧
      appendFilePathFragments lib granted filePath =
        if joinedPath fragments = [] then .error (.returned .notFound)
        else if granted then .ok (pathBufferOf ((measured fragments).sized + 1) (joinedPath fragments)).result
        else .error (.returned .outOfResources)) ∧
    ((¬∃ fragments, HoldsFragments lib filePath fragments) →
      appendFilePathFragments lib granted filePath = .error (.returned .compromisedData)) := by
  refine ⟨?_, appendFilePathFragments_of_not⟩
  rintro fragments ⟨nodes, hpath, rfl⟩
  obtain ⟨stop, hnodes⟩ := hpath.nodesFrom
  refine ⟨length_joinedPath_le, ⟨stop, ?_, ?_⟩, appendFilePathFragments_of_nodes hpath rfl⟩
  · exact measureFragments_of_nodes hnodes hpath.terminated hpath.bounded
  · exact copyFragments_of_nodes hnodes hpath.terminated rfl

/-- A library that reads the headers as they stand. -/
def headerLib : DevicePathLib where
  isDevicePathValid filePath maximum := decide (filePath.length ≤ maximum)
  getDevicePathSize := List.length
  devicePathNodeLength node := (readLe16 node 2).toNat
  devicePathType node := node[0]!
  devicePathSubType node := node[1]!
  isDevicePathEnd node := node[0]! == 0x7F && node[1]! == 0xFF

/-- The parts `\A`, nothing, `b/` and `c`. -/
def fourParts : List UInt8 :=
  [0x04, 0x04, 10, 0, 0x5C, 0, 0x41, 0, 0, 0,
    0x04, 0x04, 6, 0, 0, 0,
    0x04, 0x04, 10, 0, 0x62, 0, 0x2F, 0, 0, 0,
    0x04, 0x04, 8, 0, 0x63, 0, 0, 0,
    0x7F, 0xFF, 4, 0]

theorem holdsFragments_fourParts :
    HoldsFragments headerLib fourParts [[0x5C, 0x41], [], [0x62, 0x2F], [0x63]] := by
  refine ⟨[0, 10, 16, 26, 34].map fourParts.drop, ⟨by decide, by decide, by decide, ⟨38, ?_⟩, ?_⟩, ?_⟩
  · exact .next (by decide) (by decide) (by decide) (by decide) <|
      .next (by decide) (by decide) (by decide) (by decide) <|
      .next (by decide) (by decide) (by decide) (by decide) <|
      .next (by decide) (by decide) (by decide) (by decide) <|
      .last (by decide) (by decide) (by decide) (by decide)
  · intro node hnode hfile
    obtain ⟨offset, hoffset, rfl⟩ := List.mem_map.mp hnode
    simp only [List.mem_cons, List.not_mem_nil, or_false] at hoffset
    rcases hoffset with rfl | rfl | rfl | rfl | rfl
    · exact ⟨by decide, by decide, by decide⟩
    · exact ⟨by decide, by decide, by decide⟩
    · exact ⟨by decide, by decide, by decide⟩
    · exact ⟨by decide, by decide, by decide⟩
    · exact absurd hfile (by decide)
  · rfl

/-- `\A\b\c`, in ten characters. -/
theorem appendFilePathFragments_joins_sample :
    appendFilePathFragments headerLib true fourParts =
      .ok [0x5C, 0x41, 0x5C, 0x62, 0x5C, 0x63, 0, 0, 0, 0] :=
  ((appendFilePathFragments_joins headerLib true fourParts).1 _ holdsFragments_fourParts).2.2

end CsmVgaSelector
