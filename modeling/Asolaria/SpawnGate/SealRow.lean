import Asolaria.Library.MachineInt
import Asolaria.SpawnGate.Verdict

namespace Asolaria.SpawnGate
open Library Syscall SignGate

/-- `seal_row`. -/
def sealRow (input : SpawnGateInput) (verdict : HookwallVerdict) : List UInt8 := composeVerdictRow input.context verdict

/-- The entry of a table that a code stands for. -/
def decodeCode {α : Type} (table : List α) (code : α → UInt8) (byte : UInt8) : Option α := table.find? (code · = byte)

def tierOf : UInt8 → Option HookTier := decodeCode [.micro, .cosign, .firmware] HookTier.code

def verdictOf : UInt8 → Option HookwallVerdict := decodeCode [.proceed, .hold, .block] HookwallVerdict.code

def targetOf : UInt8 → Option AccessTier :=
  decodeCode [.publicTier, .restricted, .stealth, .hidden, .shadow, .secret, .sovereignty] AccessTier.code

/-- What a reader of the chain takes from a verdict row. -/
def readVerdictRow : List UInt8 → Option (HookContext × HookwallVerdict)
  | slot :: syscallNo :: tier :: verdict :: rest =>
    match rest.drop 8 with
    | [target, 72, 86, 68] =>
      match tierOf tier, verdictOf verdict, targetOf target with
      | some tier, some verdict, some target =>
        some (⟨slot, syscallNo, UInt64.ofNat (ofBytes (rest.take 8).reverse), tier, target⟩, verdict)
      | _, _, _ => none
    | _ => none
  | _ => none

variable {row : List UInt8} {ctx : HookContext} {verdict : HookwallVerdict}

theorem decodeCode_iff {α : Type} {table : List α} {code : α → UInt8} (complete : ∀ a, a ∈ table)
    (injective : Function.Injective code) {byte : UInt8} {a : α} : decodeCode table code byte = some a ↔ code a = byte := by
  constructor
  · intro found
    exact of_decide_eq_true (List.find?_some (p := fun a => decide (code a = byte)) found)
  · rintro rfl
    cases found : decodeCode table code (code a) with
    | none => exact absurd rfl (of_decide_eq_false (Bool.eq_false_iff.mpr (List.find?_eq_none.mp found a (complete a))))
    | some b =>
      have same : code b = code a :=
        of_decide_eq_true (List.find?_some (p := fun b => decide (code b = code a)) found)
      rw [injective same]

theorem tierOf_iff {byte : UInt8} {tier : HookTier} : tierOf byte = some tier ↔ tier.code = byte :=
  decodeCode_iff (fun tier => by cases tier <;> decide) fun a b same => by cases a <;> cases b <;> first | rfl | cases same

theorem verdictOf_iff {byte : UInt8} : verdictOf byte = some verdict ↔ verdict.code = byte :=
  decodeCode_iff (fun verdict => by cases verdict <;> decide) fun a b same => by
    cases a <;> cases b <;> first | rfl | cases same

theorem targetOf_iff {byte : UInt8} {target : AccessTier} : targetOf byte = some target ↔ target.code = byte :=
  decodeCode_iff (fun target => by cases target <;> decide) fun a b same => by
    cases a <;> cases b <;> first | rfl | cases same

/-- A row is read as the call and the verdict that it was composed of, and
nothing else is read. -/
theorem readVerdictRow_iff : readVerdictRow row = some (ctx, verdict) ↔ row = composeVerdictRow ctx verdict := by
  constructor
  · intro read
    unfold readVerdictRow at read
    split at read
    · next slot syscallNo tier verdict' rest =>
      split at read
      · next target last =>
        split at read
        · next tier' judged target' tierRead verdictRead targetRead =>
          cases read
          have cut : rest = rest.take 8 ++ [target, 72, 86, 68] := by rw [← last, List.take_append_drop]
          have length : (rest.take 8).reverse.length = 8 := by
            have whole := congrArg List.length last
            rw [List.length_drop, List.length_cons, List.length_cons, List.length_cons, List.length_singleton] at whole
            rw [List.length_reverse, List.length_take]
            omega
          obtain ⟨pid, bytes⟩ := exists_beBytes_eq length
          have number : UInt64.ofNat (ofBytes (rest.take 8).reverse) = pid := by
            rw [← bytes, ofBytes_beBytes pid.toNat_lt, UInt64.ofNat_toNat]
          rw [composeVerdictRow, number]
          dsimp only
          rw [bytes, List.reverse_reverse, tierOf_iff.mp tierRead, verdictOf_iff.mp verdictRead,
            targetOf_iff.mp targetRead, List.append_assoc, ← cut]
          rfl
        · cases read
      · cases read
    · cases read
  · rintro rfl
    have length : (beBytes 8 ctx.callerPid.toNat).reverse.length = 8 := by rw [List.length_reverse, length_beBytes]
    have front : ((beBytes 8 ctx.callerPid.toNat).reverse ++ [ctx.targetTier.code, 72, 86, 68]).take 8 =
        (beBytes 8 ctx.callerPid.toNat).reverse := List.take_left' length
    have back : ((beBytes 8 ctx.callerPid.toNat).reverse ++ [ctx.targetTier.code, 72, 86, 68]).drop 8 =
        [ctx.targetTier.code, 72, 86, 68] := List.drop_left' length
    have target : targetOf ctx.targetTier.code = some ctx.targetTier := targetOf_iff.mpr rfl
    rw [composeVerdictRow, List.append_assoc]
    simp only [List.cons_append, List.nil_append, readVerdictRow, back, front, tierOf_iff.mpr rfl, verdictOf_iff.mpr rfl,
      target, List.reverse_reverse]
    rw [ofBytes_beBytes ctx.callerPid.toNat_lt, UInt64.ofNat_toNat]

/-- The tags and the scores of a request can lead to every verdict from that
of its tier on. -/
theorem exists_request (ctx : HookContext) (above : tierVerdict ctx.slot ctx.tier ≤ verdict) :
    ∃ input : SpawnGateInput, input.context = ctx ∧ spawnGateVerdict input = verdict := by
  cases verdict with
  | proceed =>
    refine ⟨⟨ctx.slot, ctx.syscallNo, ctx.callerPid, ctx.tier, ctx.targetTier, [], 720, 280⟩, rfl, ?_⟩
    have cleared : tierVerdict ctx.slot ctx.tier = .proceed := le_antisymm above proceed_le
    have clean : tagVerdict [] = .proceed := by decide
    have passed : scoreVerdict 720 280 = .proceed := by decide
    rw [spawnGateVerdict_eq_max, clean, cleared, passed, max_self, max_self]
  | hold =>
    refine ⟨⟨ctx.slot, ctx.syscallNo, ctx.callerPid, ctx.tier, ctx.targetTier, [], 0, 1000⟩, rfl, ?_⟩
    have clean : tagVerdict [] = .proceed := by decide
    have held : scoreVerdict 0 1000 = .hold := by decide
    rw [spawnGateVerdict_eq_max, clean, held, max_eq_right above, max_eq_right proceed_le]
  | block =>
    refine ⟨⟨ctx.slot, ctx.syscallNo, ctx.callerPid, ctx.tier, ctx.targetTier, ["drift"], 0, 1000⟩, rfl, ?_⟩
    have denied : tagVerdict ["drift"] = .block := by decide
    rw [spawnGateVerdict_eq_max, denied, max_eq_left le_block]

/-- The rows that the gate seals with its own verdicts are the ones that can be
read, with a verdict no looser than that of their slot and tier. -/
theorem sealed_iff (row : List UInt8) : (∃ input, row = sealRow input (spawnGateVerdict input)) ↔
    ∃ ctx verdict, readVerdictRow row = some (ctx, verdict) ∧ tierVerdict ctx.slot ctx.tier ≤ verdict := by
  constructor
  · rintro ⟨input, rfl⟩
    refine ⟨input.context, spawnGateVerdict input, readVerdictRow_iff.mpr rfl, ?_⟩
    rw [spawnGateVerdict_eq_max]
    exact (le_max_left _ _).trans (le_max_right _ _)
  · rintro ⟨ctx, verdict, read, above⟩
    obtain ⟨input, rfl, rfl⟩ := exists_request ctx above
    exact ⟨input, readVerdictRow_iff.mp read⟩

end Asolaria.SpawnGate
