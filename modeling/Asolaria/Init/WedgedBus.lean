import Asolaria.Init.OwnEnvelopes

namespace Asolaria.Init
open Library Envelope Syscall

variable {ι : Type}

/-- The failures of `sys_envelope_recv` that init counts, after one more
call: a time-out is not one, and a dispatch forgets them all. -/
def countFailure (count : Nat) (transition : Transition InitSystem (Party ι × KernelLabel)) : Nat :=
  match transition.label with
  | (.init, .envelopeRecv _ _ (.ok n) _) => if n ≥ 4 then 0 else count
  | (.init, .envelopeRecv _ _ (.error .wouldBlock) _) => count
  | (.init, .envelopeRecv _ _ (.error _) _) => count + 1
  | _ => count

def recvFailures (history : InitHistory ι) : Nat := history.foldl countFailure 0

/-- Init has met fewer failures than make it give up, and has not given up. -/
structure NeverWedged (history : InitHistory ι) (s : InitSystem) : Prop where
  failures : recvFailures history < recvFailureThreshold.toNat
  running : s.thread ≠ .exited 2

/-- Whatever another party has put on the bus fits into the buffer of init. -/
def FitsInit (history : InitHistory ι) : Prop :=
  ∀ transition ∈ history, ∀ i env, transition.label.1 = .other i → posted? transition = some env →
    env.length ≤ initEnvelopeMax

variable {history : InitHistory ι} {s after : InitSystem} {label : Party ι × KernelLabel} {env : List UInt8} {k : Kernel}

theorem FitsInit.mono {later : InitHistory ι} (small : FitsInit (history ++ later)) : FitsInit history :=
  fun transition member => small transition (List.mem_append_left _ member)

theorem InitRun.length_of_sent (run : InitRun history s) (step : InitStep s label after)
    (small : FitsInit (history ++ [⟨s, label, after⟩])) (sent : label.2.sent? s.kernel = some env) :
    env.length ≤ initEnvelopeMax := by
  obtain ⟨party, call⟩ := label
  cases party with
  | init => exact run.length_of_posted step sent
  | other i => exact small ⟨s, (.other i, call), after⟩ (by simp) i env rfl sent

/-- Then the bus never holds an envelope that is too long for init. -/
theorem InitRun.fits (run : InitRun history s) (small : FitsInit history) (holds : s.kernel.slot.Holds env) :
    env.length ≤ initEnvelopeMax := by
  induction run generalizing env with
  | start => cases holds.state
  | @next history s label after previous step ih =>
    cases InitRun.case previous step with
    | aside slot => exact ih small.mono (slot ▸ holds)
    | sent sent _ loaded _ send =>
      obtain rfl := loaded.unique holds
      exact InitRun.length_of_sent previous step small send
    | received _ _ _ vacant => cases holds.state.symm.trans vacant.state

/-- Where no envelope is too long for the buffer, no failure is counted. -/
theorem InitRun.countFailure_le (run : InitRun history s) (step : InitStep s label after)
    (clear : ∀ env, s.kernel.slot.Holds env → env.length ≤ initEnvelopeMax) (count : Nat) :
    countFailure count ⟨s, label, after⟩ ≤ count := by
  obtain ⟨pending, settled⟩ := run.settled
  have sized : s.thread.Sized False := run.sized False.elim
  cases step with
  | other => exact Nat.le_refl _
  | @init k request next =>
    cases request with
    | envelopeRecv buf maxWaitNs =>
      obtain ⟨_, timely⟩ : Relied True (.envelopeRecv buf maxWaitNs) (serve k (.envelopeRecv buf maxWaitNs)).1 :=
        serve_relied settled sized.1 fun _ => clear
      simp only [countFailure, InitCall.label]
      cases reply : (serve k (.envelopeRecv buf maxWaitNs)).1.1 with
      | ok n =>
        dsimp only
        split <;> omega
      | error error =>
        obtain rfl := timely trivial error reply
        exact Nat.le_refl _
    | _ => exact Nat.le_refl _

theorem recvFailures_append (transition : Transition InitSystem (Party ι × KernelLabel)) :
    recvFailures (history ++ [transition]) = countFailure (recvFailures history) transition := by
  rw [recvFailures, List.foldl_append]
  rfl

theorem InitRun.no_failures (run : InitRun history s) (small : FitsInit history) : recvFailures history = 0 := by
  induction run with
  | start => rfl
  | @next history s label after previous step ih =>
    have none := InitRun.countFailure_le previous step (fun _ => InitRun.fits previous small.mono) (recvFailures history)
    rw [ih small.mono] at none
    rw [recvFailures_append, ih small.mono]
    omega

/-- As long as the others put nothing on the bus that is too long for its
buffer, init never counts a failure and never gives up. -/
theorem InitRun.never_wedged (run : InitRun history s) (small : FitsInit history) : NeverWedged history s := by
  constructor
  · rw [run.no_failures small]
    decide
  · intro wedged
    have sized : s.thread.Sized True := by
      refine run.sized fun _ transition member env holds => ?_
      obtain ⟨before, behind, rfl⟩ := List.append_of_mem member
      exact InitRun.fits (run.split rfl).1 small.mono holds
    rw [wedged] at sized
    exact sized trivial rfl

/-- The calls of a program that nobody interrupts. -/
theorem run_alone (program : InitProgram Turn) (k : Kernel) : ∃ history : InitHistory ι,
    Run InitStep ⟨k, .resume program⟩ history ⟨(program.runOn serve k).2, .resume (.done (program.runOn serve k).1)⟩ ∧
      ∀ transition ∈ history, transition.label.1 = .init := by
  induction program generalizing k with
  | done result => exact ⟨[], .start, fun _ none => by cases none⟩
  | call request next ih =>
    obtain ⟨history, run, alone⟩ := ih (serve k request).1 (serve k request).2
    exact ⟨_, (Run.next .start .init).append run, List.forall_mem_append.mpr ⟨List.forall_mem_singleton.mpr rfl, alone⟩⟩

theorem toNat_saturatingAddOne {n : UInt32} (low : n.toNat < 32) : (saturatingAddOne n).toNat = n.toNat + 1 := by
  unfold saturatingAddOne
  split
  · next last => simp [last] at low
  · rw [UInt32.toNat_add]
    change (n.toNat + 1) % 2 ^ 32 = _
    omega

/-- An envelope longer than the buffer of init stays on the bus, and every
round of the loop counts one more failure. -/
theorem loopTurn_wedged {state : LoopState} (holds : k.slot.Holds env) (large : initEnvelopeMax < env.length)
    (lent : state.recvBuf.length = initEnvelopeMax) :
    (loopTurn state).runOn serve k =
      if saturatingAddOne state.consecutiveFailures ≥ recvFailureThreshold then
        (.exit 2, ((emitEnvelope (utf8 "SOS!") state.seq (utf8 "init-recv-exhausted")).runOn serve k).2)
      else (.again { state with consecutiveFailures := saturatingAddOne state.consecutiveFailures }, k) := by
  have room := ne_nil_of_length_eq_max lent
  have failed : (sysEnvelopeRecv state.recvBuf recvWaitNs).runOn serve k = ((.error .invalid, state.recvBuf), k) := by
    change serve k (.envelopeRecv state.recvBuf recvWaitNs) = _
    rw [serve, Kernel.sysEnvelopeRecv_oversize holds room (by omega) recvWaitNs]
    rfl
  rw [loopTurn, Calls.runOn_bind, failed]
  dsimp only
  split
  · rw [Calls.runOn_bind, Calls.runOn_pure]
  · rw [Calls.runOn_pure]

/-- On a bus that such an envelope has wedged init gives up, if nobody else
takes it away. -/
theorem gives_up {left : Nat} {state : LoopState} (holds : k.slot.Holds env) (large : initEnvelopeMax < env.length)
    (lent : state.recvBuf.length = initEnvelopeMax) (failures : state.consecutiveFailures.toNat + left = 31) :
    ∃ (history : InitHistory ι) (s : InitSystem), Run InitStep ⟨k, .running (loopTurn state)⟩ history s ∧
      s.thread = .exited 2 ∧ ∀ transition ∈ history, transition.label.1 = .init := by
  -- the induction is on the failures that are left before the threshold
  induction left generalizing state with
  | zero =>
    have reached : saturatingAddOne state.consecutiveFailures ≥ recvFailureThreshold := by
      rw [ge_iff_le, UInt32.le_iff_toNat_le, toNat_saturatingAddOne (by omega)]
      change 32 ≤ _
      omega
    obtain ⟨turn, run, alone⟩ := run_alone (loopTurn state) k
    rw [loopTurn_wedged holds large lent, if_pos reached] at run
    exact ⟨turn, _, run, rfl, alone⟩
  | succ left ih =>
    have count := toNat_saturatingAddOne (show state.consecutiveFailures.toNat < 32 by omega)
    have below : ¬ saturatingAddOne state.consecutiveFailures ≥ recvFailureThreshold := by
      rw [ge_iff_le, UInt32.le_iff_toNat_le, count]
      change ¬ 32 ≤ _
      omega
    obtain ⟨turn, run, alone⟩ := run_alone (loopTurn state) k
    rw [loopTurn_wedged holds large lent, if_neg below] at run
    have fewer : (saturatingAddOne state.consecutiveFailures).toNat + left = 31 := by omega
    obtain ⟨later, s, rest, exited, still⟩ :=
      @ih { state with consecutiveFailures := saturatingAddOne state.consecutiveFailures } lent fewer
    exact ⟨turn ++ later, s, run.append rest, exited, List.forall_mem_append.mpr ⟨alone, still⟩⟩

theorem sysEnvelopeSend_full (holds : k.slot.Holds env) (other : List UInt8) (routeHint : UInt32) :
    (k.sysEnvelopeSend other routeHint).2.slot.Holds env := by
  cases k.sysEnvelopeSend_case other routeHint with
  | aside slot => exact slot ▸ holds
  | sent _ free => cases holds.state.symm.trans free
  | received _ _ _ _ _ _ none => cases none

theorem boot_full (holds : k.slot.Holds env) : (boot.runOn serve k).2.slot.Holds env := by
  have kept (ready : List UInt8) :
      ((k.sysEnvelopeSend ready routeHintLocal).2.sysHookwallPost ready .proceed).2.slot.Holds env := by
    rw [sysHookwallPost_slot]
    exact sysEnvelopeSend_full holds ready routeHintLocal
  exact kept _

/-- All that the others do is to send this one envelope, which is accepted. -/
def OnlySends (env : List UInt8) (history : InitHistory ι) : Prop :=
  ∀ transition ∈ history, ∀ i, transition.label.1 = .other i → transition.label.2 = .envelopeSend env 0 (.ok ())

theorem OnlySends.append {later : InitHistory ι} (only : OnlySends env history)
    (alone : ∀ transition ∈ later, transition.label.1 = .init) : OnlySends env (history ++ later) := by
  refine List.forall_mem_append.mpr ⟨only, fun transition member i party => ?_⟩
  cases (alone transition member).symm.trans party

theorem OnlySends.fitsInit (only : OnlySends env history) (short : env.length ≤ initEnvelopeMax) : FitsInit history := by
  intro transition member i posted party found
  rw [posted?, only transition member i party] at found
  cases found
  exact short

/-- Init starts with an envelope of another party on the bus. -/
theorem boot_after_send (env : List UInt8) (long : minEnvelopeBytes ≤ env.length) (short : env.length ≤ envelopeSlotBytes) :
    ∃ (history : InitHistory Unit) (k : Kernel), InitRun history
      ⟨k, .running (loopTurn ⟨List.replicate initEnvelopeMax 0, 0, 1⟩)⟩ ∧ k.slot.Holds env ∧ OnlySends env history := by
  obtain ⟨accepted, holds⟩ := Kernel.sysEnvelopeSend_free (k := Kernel.initial) rfl long short 0
  have sent : InitRun _ _ := Run.next .start (.other () (.envelopeSend env 0))
  obtain ⟨history, run, alone⟩ := run_alone boot (Kernel.initial.sysEnvelopeSend env 0).2
  have only : OnlySends env [⟨InitSystem.initial, ((.other () : Party Unit), .envelopeSend env 0
      (Kernel.initial.sysEnvelopeSend env 0).1), ⟨(Kernel.initial.sysEnvelopeSend env 0).2, .running boot⟩⟩] :=
    List.forall_mem_singleton.mpr fun _ _ => by rw [accepted]
  exact ⟨_, _, sent.append run, boot_full holds, only.append alone⟩

/-- A short request is dispatched. -/
theorem short_request_dispatched : ∃ (history : InitHistory Unit) (s : InitSystem), InitRun history s ∧
    OnlySends (request [1, 2, 3, 4]) history ∧ FitsInit history ∧ NeverWedged history s := by
  have length : (request [1, 2, 3, 4]).length = 32 := length_request rfl
  obtain ⟨history, k, run, _, only⟩ :=
    boot_after_send (request [1, 2, 3, 4]) (by rw [length]; decide) (by rw [length]; decide)
  obtain ⟨turn, round, alone⟩ := run_alone (loopTurn ⟨List.replicate initEnvelopeMax 0, 0, 1⟩) k
  have whole := only.append alone
  have fits := whole.fitsInit (by rw [length]; decide)
  exact ⟨_, _, run.append round, whole, fits, InitRun.never_wedged (run.append round) fits⟩

/-- One byte more than init can receive. -/
def longEnvelope : List UInt8 := List.replicate 513 0

theorem longEnvelope_wedges : ∃ (history : InitHistory Unit) (s : InitSystem), InitRun history s ∧
    OnlySends longEnvelope history ∧ ¬ NeverWedged history s := by
  have length : longEnvelope.length = 513 := List.length_replicate
  obtain ⟨history, k, run, holds, only⟩ :=
    boot_after_send longEnvelope (by rw [length]; decide) (by rw [length]; decide)
  have none : (0 : UInt32).toNat + 31 = 31 := rfl
  obtain ⟨later, s, rest, exited, alone⟩ := gives_up holds (by rw [length]; decide)
    (show (LoopState.mk (List.replicate initEnvelopeMax 0) 0 1).recvBuf.length = _ from List.length_replicate) none
  exact ⟨_, _, run.append rest, only.append alone, fun never => never.running exited⟩

end Asolaria.Init
