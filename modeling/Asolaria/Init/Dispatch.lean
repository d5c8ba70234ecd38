import Asolaria.Init.Shell
import Asolaria.Syscall.KernelRun

namespace Asolaria.Init
open Library Envelope Syscall

variable {k : Kernel} {typePrefix env payload : List UInt8} {seq : UInt64}

@[simp] theorem length_leBytes (n : UInt64) : (leBytes n).length = 8 := by
  rw [leBytes, List.length_reverse, length_beBytes]

theorem length_frame (typePrefix : List UInt8) (seq : UInt64) (payload : List UInt8) :
    (frame typePrefix seq payload).length = max (12 + min payload.length 500) 32 := by
  simp only [frame, initEnvelopeMax, minEnvelopeBytes, List.length_take, List.length_append, List.length_replicate]
  omega

/-- The wire format of the module: prefix, sequence number and payload,
filled up with zeros to the shortest envelope. -/
def wireEnvelope (typePrefix : List UInt8) (seq : UInt64) (payload : List UInt8) : List UInt8 :=
  typePrefix ++ leBytes seq ++ payload ++ List.replicate (minEnvelopeBytes - (12 + payload.length)) 0

theorem frame_eq_wireEnvelope (four : typePrefix.length = 4) (fits : payload.length ≤ 500) :
    frame typePrefix seq payload = wireEnvelope typePrefix seq payload := by
  have room : min payload.length (initEnvelopeMax - 12) = payload.length := by
    rw [initEnvelopeMax]
    omega
  have written : (typePrefix ++ leBytes seq ++ payload).length = 12 + payload.length := by
    rw [List.length_append, List.length_append, length_leBytes, four]
  simp only [frame, room, List.take_length, wireEnvelope]
  rw [List.take_append, List.take_of_length_le (by rw [written]; omega), List.take_replicate, written]
  congr 2
  rw [minEnvelopeBytes, initEnvelopeMax]
  omega

theorem wireEnvelope_take (four : typePrefix.length = 4) : (wireEnvelope typePrefix seq payload).take 4 = typePrefix := by
  rw [wireEnvelope, List.append_assoc, List.append_assoc, ← four, List.take_left]

/-- The hook passes exactly the envelopes whose first byte is the number of a slot. -/
theorem sysHookwallPre_eq (long : 2 ≤ env.length) : Kernel.sysHookwallPre env =
    if (env.headD 0).toNat < hookwallSlotCount then .ok .proceed else .error .invalid := by
  match env, long with
  | first :: second :: rest, _ =>
    rw [Kernel.sysHookwallPre, hookwallPre, List.headD_cons]
    by_cases low : first.toNat < hookwallSlotCount
    · rw [if_neg (Nat.not_le.mpr low), if_pos low]
    · rw [if_pos (Nat.not_lt.mp low), if_neg low]

/-- A reply and then the hook that records the verdict, as in most arms of
a dispatch. -/
def replyAndPost (typePrefix payload fullEnv : List UInt8) (seq : UInt64) (verdict : HookwallVerdict) :
    InitProgram Dispatched := do
  let seq ← emitEnvelope typePrefix seq payload
  let _ ← sysHookwallPost fullEnv verdict
  return .returned seq

theorem ne_of_low {known : List UInt8} (low : (typePrefix.headD 0).toNat < hookwallSlotCount)
    (high : hookwallSlotCount ≤ (known.headD 0).toNat) : typePrefix ≠ known := by
  rintro rfl
  omega

theorem headD_take_four (long : 4 ≤ env.length) : (env.take 4).headD 0 = env.headD 0 := by
  match env, long with
  | _ :: _, _ => rfl

/-- A type prefix that starts with the number of a slot is none of the
documented ones, which are all letters. -/
theorem dispatchGated_proceed_of_low (low : (typePrefix.headD 0).toNat < hookwallSlotCount) :
    dispatchGated .proceed typePrefix env seq = replyAndPost (utf8 "UNKN") typePrefix env seq .proceed := by
  rw [dispatchGated, if_neg (ne_of_low low (by decide)), if_neg (ne_of_low low (by decide)),
    if_neg (ne_of_low low (by decide)), if_neg (ne_of_low low (by decide)), if_neg (ne_of_low low (by decide)),
    replyAndPost]

/-- What a dispatch does behind its gate is decided by the first byte: it is
blocked, or its type is unknown. -/
theorem dispatchGated_eq (long : 4 ≤ env.length) (seq : UInt64) :
    dispatchGated (verdictOf (Kernel.sysHookwallPre env)) (env.take 4) env seq =
      if (env.headD 0).toNat < hookwallSlotCount then replyAndPost (utf8 "UNKN") (env.take 4) env seq .proceed
      else replyAndPost (utf8 "BLOK") (env.take 4) env seq .block := by
  rw [sysHookwallPre_eq (by omega)]
  by_cases low : (env.headD 0).toNat < hookwallSlotCount
  · rw [if_pos low, if_pos low, verdictOf, dispatchGated_proceed_of_low (by rw [headD_take_four long]; exact low)]
  · rw [if_neg low, if_neg low, verdictOf]
    rfl

end Asolaria.Init
