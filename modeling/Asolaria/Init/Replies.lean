import Asolaria.Init.Dispatch

namespace Asolaria.Init
open Library Envelope Syscall

variable {k : Kernel} {env : List UInt8} {seq : UInt64}

/-- Prefix and payload of the documented reply to `EXEC`: the complaint
about a short or an empty request, else what `sys_exec` answers. -/
def documentedExec (k : Kernel) (env : List UInt8) : List UInt8 × List UInt8 :=
  if env.length < 12 then (utf8 "EERR", utf8 "short-exec")
  else if (env.drop 12).isEmpty then (utf8 "EERR", utf8 "empty-exec")
  else
    match (k.sysExec (env.drop 12)).1 with
    | .ok handle => (utf8 "EOKx", leBytes handle)
    | .error error => (utf8 "EERR", execErrText error)

/-- Prefix and payload of the documented reply to a request. -/
def documentedParts (k : Kernel) (env : List UInt8) : List UInt8 × List UInt8 :=
  if env.take 4 = utf8 "PING" then (utf8 "PONG", [])
  else if env.take 4 = utf8 "EXEC" then documentedExec k env
  else if env.take 4 = utf8 "SHTD" then (utf8 "FINI", utf8 "init-shutdown")
  else if env.take 4 = utf8 "VERS" then (utf8 "VERS", kernelVersion)
  else if env.take 4 = utf8 "PIDA" then (utf8 "PIDA", federationAnchorPid)
  else (utf8 "UNKN", env.take 4)

def documentedReply (k : Kernel) (env : List UInt8) (seq : UInt64) : List UInt8 :=
  wireEnvelope (documentedParts k env).1 seq (documentedParts k env).2

/-- Only `SHTD` ends in an exit. -/
def documentedEnd (env : List UInt8) (seq : UInt64) : Dispatched :=
  if env.take 4 = utf8 "SHTD" then .exited 0 else .returned (seq + 1)

/-- A dispatch that nobody interferes with leaves the documented reply on
the bus and ends as documented. -/
structure RepliesAsDocumented (k : Kernel) (env : List UInt8) (seq : UInt64) : Prop where
  published : ((dispatchEnvelope (env.take 4) env seq).runOn serve k).2.slot.Holds (documentedReply k env seq)
  ended : ((dispatchEnvelope (env.take 4) env seq).runOn serve k).1 = documentedEnd env seq

/-- Into a free slot init publishes what it emits. -/
theorem emitEnvelope_free (free : k.slot.state = .empty) (typePrefix : List UInt8) (seq : UInt64) (payload : List UInt8) :
    ((emitEnvelope typePrefix seq payload).runOn serve k).2.slot.Holds (frame typePrefix seq payload) := by
  have length := length_frame typePrefix seq payload
  refine (Kernel.sysEnvelopeSend_free free ?_ ?_ routeHintLocal).2
  · rw [length, minEnvelopeBytes]
    omega
  · rw [length, envelopeSlotBytes]
    omega

theorem sysHookwallPost_slot (k : Kernel) (env : List UInt8) (verdict : HookwallVerdict) :
    (k.sysHookwallPost env verdict).2.slot = k.slot := by
  unfold Kernel.sysHookwallPost
  split <;> rfl

theorem replyAndPost_ended (k : Kernel) (typePrefix payload env : List UInt8) (seq : UInt64) (verdict : HookwallVerdict) :
    ((replyAndPost typePrefix payload env seq verdict).runOn serve k).1 = .returned (seq + 1) := rfl

theorem replyAndPost_free (free : k.slot.state = .empty) (typePrefix payload env : List UInt8) (seq : UInt64)
    (verdict : HookwallVerdict) :
    ((replyAndPost typePrefix payload env seq verdict).runOn serve k).2.slot.Holds (frame typePrefix seq payload) := by
  have posted := emitEnvelope_free free typePrefix seq payload
  rw [replyAndPost, Calls.runOn_bind, Calls.runOn_bind, Calls.runOn_pure]
  rw [← sysHookwallPost_slot _ env verdict] at posted
  exact posted

/-- The hook reads the envelope and no static. -/
theorem dispatchEnvelope_runOn (k : Kernel) (typePrefix env : List UInt8) (seq : UInt64) :
    (dispatchEnvelope typePrefix env seq).runOn serve k =
      (dispatchGated (verdictOf (Kernel.sysHookwallPre env)) typePrefix env seq).runOn serve k := rfl

theorem documentedParts_type (k : Kernel) (env : List UInt8) :
    (documentedParts k env).1.length = 4 ∧ (documentedParts k env).1 ≠ utf8 "BLOK" := by
  have exec : (documentedExec k env).1.length = 4 ∧ (documentedExec k env).1 ≠ utf8 "BLOK" := by
    unfold documentedExec
    repeat' split
    all_goals
      dsimp only
      exact ⟨by decide, by decide⟩
  unfold documentedParts
  repeat' split
  all_goals first
    | exact exec
    | dsimp only
      exact ⟨by decide, by decide⟩

theorem not_replies_of_high (free : k.slot.state = .empty) (long : 12 ≤ env.length) (seq : UInt64)
    (high : ¬ (env.headD 0).toNat < hookwallSlotCount) : ¬ RepliesAsDocumented k env seq := by
  intro replies
  have gated := dispatchGated_eq (show 4 ≤ env.length by omega) seq
  rw [if_neg high] at gated
  have short : (env.take 4).length ≤ 500 := by
    rw [List.length_take]
    omega
  have published := replies.published
  rw [dispatchEnvelope_runOn, gated] at published
  have same := published.unique (replyAndPost_free free (utf8 "BLOK") (env.take 4) env seq .block)
  rw [frame_eq_wireEnvelope (by decide) short] at same
  have prefixes := congrArg (List.take 4) same
  rw [documentedReply, wireEnvelope_take (documentedParts_type k env).1, wireEnvelope_take (by decide)] at prefixes
  exact (documentedParts_type k env).2 prefixes

theorem replies_of_low (free : k.slot.state = .empty) (long : 12 ≤ env.length) (seq : UInt64)
    (low : (env.headD 0).toNat < hookwallSlotCount) : RepliesAsDocumented k env seq := by
  have gated := dispatchGated_eq (show 4 ≤ env.length by omega) seq
  rw [if_pos low] at gated
  have low4 : ((env.take 4).headD 0).toNat < hookwallSlotCount := by
    rw [headD_take_four (by omega)]
    exact low
  have short : (env.take 4).length ≤ 500 := by
    rw [List.length_take]
    omega
  have unknown : documentedParts k env = (utf8 "UNKN", env.take 4) := by
    rw [documentedParts, if_neg (ne_of_low low4 (by decide)), if_neg (ne_of_low low4 (by decide)),
      if_neg (ne_of_low low4 (by decide)), if_neg (ne_of_low low4 (by decide)), if_neg (ne_of_low low4 (by decide))]
  constructor
  · have published := replyAndPost_free free (utf8 "UNKN") (env.take 4) env seq .proceed
    rw [frame_eq_wireEnvelope (by decide) short] at published
    rw [dispatchEnvelope_runOn, gated, documentedReply, unknown]
    exact published
  · rw [dispatchEnvelope_runOn, gated, documentedEnd, if_neg (ne_of_low low4 (by decide))]
    exact replyAndPost_ended k _ _ env seq .proceed

/-- A request is answered as documented exactly where its first byte passes
for the number of a hook slot; no documented request type does. -/
theorem replies_as_documented_iff (free : k.slot.state = .empty) (long : 12 ≤ env.length) (seq : UInt64) :
    RepliesAsDocumented k env seq ↔ (env.headD 0).toNat < hookwallSlotCount := by
  constructor
  · intro replies
    by_contra high
    exact not_replies_of_high free long seq high replies
  · exact replies_of_low free long seq

/-- An envelope of the shortest length with the given type. -/
def request (typePrefix : List UInt8) : List UInt8 := typePrefix ++ leBytes 7 ++ List.replicate 20 0

/-- The kernel after a request was sent on a new bus and init received it. -/
def afterRequest (typePrefix : List UInt8) : Kernel :=
  ((Kernel.initial.sysEnvelopeSend (request typePrefix) 0).2.sysEnvelopeRecv (List.replicate initEnvelopeMax 0)
    recvWaitNs).2.2

theorem length_request {typePrefix : List UInt8} (four : typePrefix.length = 4) : (request typePrefix).length = 32 := by
  rw [request, List.length_append, List.length_append, length_leBytes, List.length_replicate, four]

theorem afterRequest_free {typePrefix : List UInt8} (four : typePrefix.length = 4) :
    (afterRequest typePrefix).slot.state = .empty := by
  have length := length_request four
  obtain ⟨_, holds⟩ := Kernel.sysEnvelopeSend_shortest (k := Kernel.initial) rfl length 0
  have room : (request typePrefix).length ≤ (List.replicate initEnvelopeMax (0 : UInt8)).length := by
    rw [length, List.length_replicate]
    decide
  exact (Kernel.sysEnvelopeRecv_takes holds (List.ne_nil_of_length_pos (by omega)) room recvWaitNs).2.2.state

theorem numeric_request_replied : (afterRequest [1, 2, 3, 4]).slot.state = .empty ∧
    RepliesAsDocumented (afterRequest [1, 2, 3, 4]) (request [1, 2, 3, 4]) 1 := by
  have free := afterRequest_free (show [1, 2, 3, 4].length = 4 by decide)
  exact ⟨free, (replies_as_documented_iff free (by decide) 1).mpr (by decide)⟩

theorem ping_not_replied : (afterRequest (utf8 "PING")).slot.state = .empty ∧ (request (utf8 "PING")).length = 32 ∧
    ¬ RepliesAsDocumented (afterRequest (utf8 "PING")) (request (utf8 "PING")) 1 := by
  have free := afterRequest_free (show (utf8 "PING").length = 4 by decide)
  exact ⟨free, by decide, not_replies_of_high free (by decide) 1 (by decide)⟩

end Asolaria.Init
