import Asolaria.Pid.Format
import Asolaria.Library.Delimited
import Asolaria.Library.Guard
import Asolaria.Library.Utf8

namespace Asolaria.Pid
open Library

/-- The check of the anchor form with its slices, which are taken one after
the other as long as the digits are right. -/
def isDateChecked (tail : Str) : Option Bool :=
  if tail.length == 10 && tail[4]? == some 45 && tail[7]? == some 45 then do
    let year ← strSliceChecked tail 0 4
    if !year.all isAsciiDigit then return false
    else
      let month ← strSliceChecked tail 5 7
      if !month.all isAsciiDigit then return false
      else
        let day ← strSliceChecked tail 8 10
        return day.all isAsciiDigit
  else some false

/-- The block without its tag is only sliced where the tag is right. -/
def isBlockChecked (tag : UInt8) (n : Nat) (block : Str) : Option Bool :=
  if block.head? == some tag then do
    let digits ← strSliceChecked block 1 block.length
    return isValidHexN digits n
  else some false

def parsePartsChecked (role regionHost activityBlock waveBlock : Str) (suffix : Option (Str × Str)) :
    Option (Except PidErr ParsedPid) :=
  if regionHost.length ≠ 5 then some (.error .malformedFormat)
  else do
    let region ← regionHost[0]?
    if !isValidRegion region then return .error .invalidRegion
    else
      let hostCode ← strSliceChecked regionHost 1 regionHost.length
      if !isValidHostCode hostCode then return .error .invalidHostCode
      else
        let activityOk ← isBlockChecked 65 2 activityBlock
        if !activityOk then return .error .invalidActivity
        else
          let waveOk ← isBlockChecked 87 3 waveBlock
          if !waveOk then return .error .invalidWave
          else
            match suffix with
            | none =>
              let activity ← strSliceChecked activityBlock 1 activityBlock.length
              let wave ← strSliceChecked waveBlock 1 waveBlock.length
              return .ok (.canonical ⟨role, region, hostCode, activity, wave, none, none⟩)
            | some (processBlock, nonceBlock) =>
              let processOk ← isBlockChecked 80 2 processBlock
              if !processOk then return .error .invalidProcess
              else
                let nonceOk ← isBlockChecked 78 5 nonceBlock
                if !nonceOk then return .error .invalidNonce
                else
                  let processTag ← strSliceChecked processBlock 1 processBlock.length
                  let nonce ← strSliceChecked nonceBlock 1 nonceBlock.length
                  let activity ← strSliceChecked activityBlock 1 activityBlock.length
                  let wave ← strSliceChecked waveBlock 1 waveBlock.length
                  return .ok (.canonical ⟨role, region, hostCode, activity, wave, some processTag, some nonce⟩)

def parseTailChecked (role tail : Str) : Option (Except PidErr ParsedPid) := do
  if ← isDateChecked tail then return .ok (.anchor ⟨role, tail⟩)
  else
    let parts := tail.splitOn 45
    if parts.length ≠ 3 ∧ parts.length ≠ 5 then return .error .malformedFormat
    else
      let regionHost ← parts[0]?
      let activityBlock ← parts[1]?
      let waveBlock ← parts[2]?
      if parts.length = 5 then
        let processBlock ← parts[3]?
        let nonceBlock ← parts[4]?
        parsePartsChecked role regionHost activityBlock waveBlock (some (processBlock, nonceBlock))
      else parsePartsChecked role regionHost activityBlock waveBlock none

/-- `parse_pid` with its slices and indices: without a value where one of them
panics. -/
def parsePidChecked (pid : Str) : Option (Except PidErr ParsedPid) :=
  match rfind separator pid with
  | none => some (.error .malformedFormat)
  | some idx => do
    let role ← strSliceChecked pid 0 idx
    let tail ← strSliceChecked pid (idx + 5) pid.length
    parseTailChecked role tail

def classifySubclassChecked (pid : Str) : Option PidSubclass := do
  match ← parsePidChecked pid with
  | .ok (.canonical p) => return if p.processTag.isSome && p.nonce.isSome then .regularExtended else .regular
  | .ok (.anchor _) => return .anchor
  | .error _ => return .pending

def validatePidChecked (pid : Str) (strictRole : Bool) : Option (Except PidErr Unit) := do
  match ← parsePidChecked pid with
  | .error error => return .error error
  | .ok parsed =>
    let role := match parsed with
      | .canonical p => p.role
      | .anchor p => p.role
    return if strictRole && !isValidRole role then .error .unknownRole else .ok ()

def validateSubclassChecked (pid : Str) : Option (Except PidErr PidSubclass) := do
  match ← validatePidChecked pid false with
  | .error error => return .error error
  | .ok () =>
    let sub ← classifySubclassChecked pid
    return .ok sub

section
variable {tail block role regionHost activityBlock waveBlock : Str} {tag : UInt8} {n : Nat}

theorem isDateChecked_eq (chain : tail.IsChain Follows) : isDateChecked tail = some (isDate tail) := by
  unfold isDateChecked isDate
  split
  · next dashes =>
    simp only [Bool.and_eq_true, beq_iff_eq] at dashes
    obtain ⟨⟨length, fourth⟩, seventh⟩ := dashes
    have year : strSliceChecked tail 0 4 = some (tail.take 4) :=
      strSliceChecked_take (isCharBoundary_of_ascii fourth (by decide))
    have month : strSliceChecked tail 5 7 = some ((tail.take 7).drop 5) :=
      strSliceChecked_eq (by decide) (isCharBoundary_succ chain fourth (by decide))
        (isCharBoundary_of_ascii seventh (by decide))
    have whole : isCharBoundary tail 10 = true := length ▸ isCharBoundary_length
    have day : strSliceChecked tail 8 10 = some ((tail.take 10).drop 8) :=
      strSliceChecked_eq (by decide) (isCharBoundary_succ chain seventh (by decide)) whole
    rw [year, month, day, length, fourth, seventh]
    simp only [Option.bind_eq_bind, Option.bind_some]
    cases (tail.take 4).all isAsciiDigit with
    | false => rfl
    | true =>
      cases ((tail.take 7).drop 5).all isAsciiDigit with
      | false => rfl
      | true => rfl
  · next other =>
    rw [Bool.not_eq_true] at other
    rw [other, Bool.false_and]

theorem isBlockChecked_eq (chain : block.IsChain Follows) (ascii : tag < 128) :
    isBlockChecked tag n block = some (isBlock tag n block) := by
  unfold isBlockChecked isBlock
  split
  · next tagged =>
    rw [strSliceChecked_tail chain (beq_iff_eq.mp tagged) ascii, tagged]
    rfl
  · next other =>
    rw [Bool.not_eq_true] at other
    rw [other, Bool.false_and]

theorem strSliceChecked_block (chain : block.IsChain Follows) (ascii : tag < 128)
    (checked : ¬ (!isBlock tag n block) = true) : strSliceChecked block 1 block.length = some (block.drop 1) := by
  rw [Bool.not_eq_true, Bool.not_eq_false', isBlock, Bool.and_eq_true, beq_iff_eq] at checked
  exact strSliceChecked_tail chain checked.1 ascii

theorem ascii_of_isValidRegion {region : UInt8} (valid : isValidRegion region = true) : region < 128 := by
  simp only [isValidRegion, Bool.or_eq_true, beq_iff_eq] at valid
  rcases valid with ((rfl | rfl) | rfl) | rfl <;> decide

theorem parsePartsChecked_eq {suffix : Option (Str × Str)} (regionChain : regionHost.IsChain Follows)
    (activityChain : activityBlock.IsChain Follows) (waveChain : waveBlock.IsChain Follows)
    (suffixChain : ∀ blocks ∈ suffix, blocks.1.IsChain Follows ∧ blocks.2.IsChain Follows) :
    parsePartsChecked role regionHost activityBlock waveBlock suffix =
      some (parseParts role regionHost activityBlock waveBlock suffix) := by
  unfold parsePartsChecked parseParts
  refine ite_eq_some fun length => ?_
  have first : regionHost[0]? = some (regionHost.headD 0) := by
    cases regionHost with
    | nil => exact absurd (by decide) length
    | cons region rest => rfl
  rw [first]
  refine ite_eq_some fun regionOk => ?_
  rw [Bool.not_eq_true, Bool.not_eq_false'] at regionOk
  rw [strSliceChecked_tail regionChain (List.head?_eq_getElem?.trans first) (ascii_of_isValidRegion regionOk)]
  refine ite_eq_some fun _ => ?_
  rw [isBlockChecked_eq activityChain (by decide)]
  refine ite_eq_some fun activityOk => ?_
  rw [isBlockChecked_eq waveChain (by decide)]
  refine ite_eq_some fun waveOk => ?_
  have activity := strSliceChecked_block activityChain (by decide) activityOk
  have wave := strSliceChecked_block waveChain (by decide) waveOk
  cases suffix with
  | none =>
    rw [activity, wave]
    rfl
  | some blocks =>
    obtain ⟨processBlock, nonceBlock⟩ := blocks
    obtain ⟨processChain, nonceChain⟩ := suffixChain _ rfl
    dsimp only
    rw [isBlockChecked_eq processChain (by decide)]
    refine ite_eq_some fun processOk => ?_
    rw [isBlockChecked_eq nonceChain (by decide)]
    refine ite_eq_some fun nonceOk => ?_
    rw [strSliceChecked_block processChain (by decide) processOk, strSliceChecked_block nonceChain (by decide) nonceOk,
      activity, wave]
    rfl

theorem parseTailChecked_eq (chain : tail.IsChain Follows) :
    parseTailChecked role tail = some (parseTail role tail) := by
  have chains : ∀ part ∈ tail.splitOn 45, part.IsChain Follows := by
    intro part member
    have inside := infix_intercalate [45] member
    rw [List.intercalate_splitOn] at inside
    exact chain.infix inside
  unfold parseTailChecked parseTail
  rw [isDateChecked_eq chain]
  refine ite_eq_some fun _ => ?_
  generalize tail.splitOn 45 = parts at chains
  match parts, chains with
  | [regionHost, activityBlock, waveBlock], chains =>
    simp only [List.forall_mem_cons] at chains
    obtain ⟨region, activity, wave, _⟩ := chains
    change parsePartsChecked role regionHost activityBlock waveBlock none = _
    exact parsePartsChecked_eq region activity wave (fun _ member => nomatch member)
  | [regionHost, activityBlock, waveBlock, processBlock, nonceBlock], chains =>
    simp only [List.forall_mem_cons] at chains
    obtain ⟨region, activity, wave, process, nonce, _⟩ := chains
    change parsePartsChecked role regionHost activityBlock waveBlock (some (processBlock, nonceBlock)) = _
    refine parsePartsChecked_eq region activity wave fun blocks member => ?_
    cases member
    exact ⟨process, nonce⟩
  | [], _ | [_], _ | [_, _], _ | [_, _, _, _], _ => rfl
  | _ :: _ :: _ :: _ :: _ :: _ :: _, _ => exact if_pos ⟨by simp, by simp⟩

theorem parsePidChecked_eq {pid : Str} (chain : pid.IsChain Follows) : parsePidChecked pid = some (parsePid pid) := by
  unfold parsePidChecked parsePid
  cases found : rfind separator pid with
  | none => rfl
  | some idx =>
    -- the separator is ASCII, so it begins and ends between characters
    have dash : pid[idx]? = some 45 := rfind_getElem? found (show 0 < separator.length by decide)
    have lastDash : pid[idx + 4]? = some 45 := rfind_getElem? found (show 4 < separator.length by decide)
    have role : strSliceChecked pid 0 idx = some (pid.take idx) :=
      strSliceChecked_take (isCharBoundary_of_ascii dash (by decide))
    have tail : strSliceChecked pid (idx + 5) pid.length = some (pid.drop (idx + 5)) :=
      strSliceChecked_drop (rfind_inside found) (isCharBoundary_succ chain lastDash (by decide))
    dsimp only
    rw [role, tail]
    exact parseTailChecked_eq (chain.drop _)

theorem classifySubclassChecked_eq {pid : Str} (parses : parsePidChecked pid = some (parsePid pid)) :
    classifySubclassChecked pid = some (classifySubclass pid) := by
  rw [classifySubclassChecked, classifySubclass, parses, Option.bind_eq_bind, Option.bind_some]
  cases parsePid pid with
  | error error => rfl
  | ok parsed => cases parsed <;> rfl

theorem validatePidChecked_eq {pid : Str} (parses : parsePidChecked pid = some (parsePid pid)) (strictRole : Bool) :
    validatePidChecked pid strictRole = some (validatePid pid strictRole) := by
  rw [validatePidChecked, validatePid, parses, Option.bind_eq_bind, Option.bind_some]
  cases parsePid pid <;> rfl

theorem validateSubclassChecked_eq {pid : Str} (parses : parsePidChecked pid = some (parsePid pid)) :
    validateSubclassChecked pid = some (validateSubclass pid) := by
  rw [validateSubclassChecked, validateSubclass, validatePidChecked_eq parses, classifySubclassChecked_eq parses,
    Option.bind_eq_bind, Option.bind_some]
  cases validatePid pid false <;> rfl

end

/-- Every slice of a text's bytes that the parser and its callers take begins
and ends between characters. -/
theorem pid_slices_in_text (pid : String) :
    parsePidChecked (utf8 pid) = some (parsePid (utf8 pid)) ∧
    (∀ strictRole, validatePidChecked (utf8 pid) strictRole = some (validatePid (utf8 pid) strictRole)) ∧
    classifySubclassChecked (utf8 pid) = some (classifySubclass (utf8 pid)) ∧
    validateSubclassChecked (utf8 pid) = some (validateSubclass (utf8 pid)) := by
  have parses := parsePidChecked_eq (isChain_follows_utf8 pid)
  exact ⟨parses, validatePidChecked_eq parses, classifySubclassChecked_eq parses, validateSubclassChecked_eq parses⟩

end Asolaria.Pid
