import Asolaria.Init.InitRun
import Asolaria.Init.Replies

namespace Asolaria.Init
open Library Envelope Syscall

variable {ι : Type}

/-- The call left the envelope on the bus alone. -/
def Quiet (transition : Transition InitSystem (Party ι × KernelLabel)) : Prop :=
  posted? transition = none ∧ receipt? transition = none

/-- Init has published an envelope, in `emit_init_ready` or `emit_envelope`. -/
def Published (transition : Transition InitSystem (Party ι × KernelLabel)) : Prop :=
  ∃ env routeHint, transition.label = (.init, .envelopeSend env routeHint (.ok ()))

/-- Init asks for an envelope, at the top of its loop. -/
def Asks (transition : Transition InitSystem (Party ι × KernelLabel)) : Prop :=
  ∃ given maxWaitNs reply buf, transition.label = (.init, .envelopeRecv given maxWaitNs reply buf)

/-- Another party has taken an envelope off the bus. -/
def Collects (transition : Transition InitSystem (Party ι × KernelLabel)) : Prop :=
  (∃ i, transition.label.1 = .other i) ∧ ∃ receipt, receipt? transition = some receipt

/-- The envelope on the bus after these calls was put there by this one. -/
structure PutBy (history : InitHistory ι) (post : Transition InitSystem (Party ι × KernelLabel)) (env : List UInt8) :
    Prop where
  posted : posted? post = some env
  last : ∃ before quiet, history = before ++ post :: quiet ∧ ∀ transition ∈ quiet, Quiet transition

/-- Whatever init has received, it had not published it itself. -/
def NeverItsOwn (history : InitHistory ι) : Prop :=
  ∀ earlier recv later given n buf, history = earlier ++ recv :: later → recv.label.1 = .init →
    receipt? recv = some (given, n, buf) →
    ∃ post env, PutBy earlier post env ∧ ¬ Published post ∧ n = env.length ∧ buf = env ++ given.drop n

/-- After each envelope that init has published another party receives,
before init asks for the next one. -/
def Collected (history : InitHistory ι) : Prop :=
  ∀ earlier post between recv later, history = earlier ++ post :: (between ++ recv :: later) →
    Published post → Asks recv → ∃ transition ∈ between, Collects transition

variable {history : InitHistory ι} {s after : InitSystem} {env : List UInt8}
  {post recv : Transition InitSystem (Party ι × KernelLabel)}

theorem PutBy.snoc {last : Transition InitSystem (Party ι × KernelLabel)} (put : PutBy history post env)
    (quiet : Quiet last) : PutBy (history ++ [last]) post env := by
  obtain ⟨posted, before, between, rfl, silent⟩ := put
  refine ⟨posted, before, between ++ [last], by simp, ?_⟩
  exact List.forall_mem_append.mpr ⟨silent, List.forall_mem_singleton.mpr quiet⟩

/-- The bus holds what the latest send has put there. -/
theorem InitRun.putBy (run : InitRun history s) (holds : s.kernel.slot.Holds env) : ∃ post, PutBy history post env := by
  induction run generalizing env with
  | start => cases holds.state
  | @next history s label after previous step ih =>
    cases InitRun.case previous step with
    | aside slot _ _ noSend noReceipt =>
      obtain ⟨post, put⟩ := ih (slot ▸ holds)
      exact ⟨post, put.snoc ⟨noSend, noReceipt⟩⟩
    | sent sent _ loaded _ send =>
      obtain rfl := loaded.unique holds
      exact ⟨⟨s, label, after⟩, send, history, [], rfl, fun _ none => by cases none⟩
    | received _ _ _ vacant => cases holds.state.symm.trans vacant.state

/-- Only one call can be the last that was not quiet. -/
theorem PutBy.unique {before quiet : InitHistory ι} {other : Transition InitSystem (Party ι × KernelLabel)}
    (put : PutBy history other env) (recorded : history = before ++ post :: quiet) (posts : posted? post ≠ none)
    (silent : ∀ transition ∈ quiet, Quiet transition) : other = post := by
  obtain ⟨posted, start, rest, same, still⟩ := put
  rw [recorded] at same
  rcases List.append_eq_append_iff.mp same with ⟨d, _, remaining⟩ | ⟨d, _, remaining⟩
  · cases d with
    | nil => exact (List.cons_eq_cons.mp remaining).1.symm
    | cons first d =>
      have member : other ∈ quiet := by
        rw [(List.cons_eq_cons.mp remaining).2]
        simp
      cases posted.symm.trans (silent other member).1
  · cases d with
    | nil => exact (List.cons_eq_cons.mp remaining).1
    | cons first d =>
      have member : post ∈ rest := by
        rw [(List.cons_eq_cons.mp remaining).2]
        simp
      exact absurd (still post member).1 posts

/-- As long as nobody receives, the envelope stays and nobody can send. -/
theorem holds_stays {first : InitSystem} (run : Run InitStep first history s) (holds : first.kernel.slot.Holds env)
    (untaken : ∀ transition ∈ history, receipt? transition = none) :
    s.kernel.slot.Holds env ∧ ∀ transition ∈ history, Quiet transition := by
  induction run with
  | start => exact ⟨holds, fun _ none => by cases none⟩
  | @next history s label after _ step ih =>
    have last := untaken ⟨s, label, after⟩ (by simp)
    obtain ⟨stays, silent⟩ := ih fun transition member => untaken transition (List.mem_append_left _ member)
    cases step.kernelStep.case (.holds stays) with
    | aside slot _ _ noSend noReceipt =>
      have quiet : Quiet ⟨s, label, after⟩ := ⟨noSend, noReceipt⟩
      exact ⟨slot ▸ stays, List.forall_mem_append.mpr ⟨silent, List.forall_mem_singleton.mpr quiet⟩⟩
    | sent _ free => cases stays.state.symm.trans free
    | received _ _ _ _ _ _ taken => cases last.symm.trans taken

theorem receipt_of_ok {party : Party ι}
    {given buf : List UInt8} {maxWaitNs : UInt64} {reply : Except SyscallErr Nat} {n : Nat}
    (label : recv.label = (party, .envelopeRecv given maxWaitNs reply buf)) (ok : reply = .ok n) :
    receipt? recv = some (given, n, buf) := by
  rw [receipt?, label, ok]
  rfl

theorem Published.of_accepted {routeHint : UInt32} {reply : Except SyscallErr Unit}
    (label : post.label = (.init, .envelopeSend env routeHint reply)) (accepted : reply = .ok ()) : Published post :=
  ⟨env, routeHint, accepted ▸ label⟩

theorem Published.posted (published : Published post) : ∃ env, posted? post = some env := by
  obtain ⟨env, routeHint, label⟩ := published
  exact ⟨env, by rw [posted?, label]; rfl⟩

theorem asks_of_receipt {receipt : List UInt8 × Nat × List UInt8} (step : InitStep recv.before recv.label recv.after)
    (byInit : recv.label.1 = .init) (taken : receipt? recv = some receipt) : Asks recv := by
  obtain ⟨before, label, after⟩ := recv
  cases step with
  | other => cases byInit
  | @init k request next =>
    cases request with
    | envelopeRecv buf maxWaitNs => exact ⟨buf, maxWaitNs, _, _, rfl⟩
    | _ => cases taken

/-- A receive with the send that it answers to. -/
theorem InitRun.taken {earlier later : InitHistory ι} {given buf : List UInt8} {n : Nat} (run : InitRun history s)
    (recorded : history = earlier ++ recv :: later) (receipt : receipt? recv = some (given, n, buf)) :
    ∃ post env, PutBy earlier post env ∧ n = env.length ∧ buf = env ++ given.drop n := by
  obtain ⟨reached, step⟩ := run.split recorded
  cases InitRun.case reached step with
  | aside _ _ _ _ none => cases none.symm.trans receipt
  | sent _ _ _ _ _ none => cases none.symm.trans receipt
  | received env given' holds _ _ _ taken =>
    obtain ⟨post, put⟩ := InitRun.putBy reached holds
    cases taken.symm.trans receipt
    exact ⟨post, env, put, rfl, rfl⟩

theorem InitRun.neverItsOwn (run : InitRun history s) (collected : Collected history) : NeverItsOwn history := by
  intro earlier recv later given n buf recorded byInit receipt
  obtain ⟨post, env, put, count, content⟩ := run.taken recorded receipt
  refine ⟨post, env, put, ?_, count, content⟩
  intro published
  have asks := asks_of_receipt (run.split recorded).2 byInit receipt
  obtain ⟨_, before, quiet, rfl, silent⟩ := put
  rw [List.append_assoc, List.cons_append] at recorded
  obtain ⟨transition, member, _, receipt, taken⟩ := collected before post quiet recv later recorded published asks
  cases (silent transition member).2.symm.trans taken

section
variable {earlier between later : InitHistory ι}

/-- What init has published stays on the bus, as long as nobody receives. -/
theorem InitRun.published_stays (run : InitRun history s)
    (recorded : history = earlier ++ post :: (between ++ recv :: later)) (published : Published post)
    (untaken : ∀ transition ∈ between, receipt? transition = none) :
    ∃ env, recv.before.kernel.slot.Holds env ∧ env.length ≤ initEnvelopeMax ∧
      ∀ transition ∈ between, Quiet transition := by
  obtain ⟨reached, step⟩ := run.split recorded
  obtain ⟨env, posts⟩ := published.posted
  have short : env.length ≤ initEnvelopeMax := by
    obtain ⟨_, _, label⟩ := published
    rw [posted?, label] at posts
    rw [label] at step
    exact InitRun.length_of_posted reached step posts
  have loaded : post.after.kernel.slot.Holds env := by
    cases InitRun.case reached step with
    | aside _ _ _ none => cases none.symm.trans posts
    | sent sent _ holds _ send =>
      cases send.symm.trans posts
      exact holds
    | received _ _ _ _ _ none => cases none.symm.trans posts
  have segment : Run InitStep post.after between recv.before := ((run.rest recorded).split rfl).1
  obtain ⟨stays, silent⟩ := holds_stays segment loaded untaken
  exact ⟨env, stays, short, silent⟩

/-- If init never takes its own, the first receive after a publication of
init is not by init. -/
theorem InitRun.not_init_first {receipt : List UInt8 × Nat × List UInt8} (run : InitRun history s)
    (never : NeverItsOwn history) (recorded : history = earlier ++ post :: (between ++ recv :: later))
    (published : Published post) (untaken : ∀ transition ∈ between, receipt? transition = none)
    (taken : receipt? recv = some receipt) : recv.label.1 ≠ .init := by
  intro byInit
  obtain ⟨given, n, buf⟩ := receipt
  obtain ⟨_, _, _, silent⟩ := run.published_stays recorded published untaken
  obtain ⟨env, posts⟩ := published.posted
  have here : history = (earlier ++ post :: between) ++ recv :: later := by simp [recorded]
  obtain ⟨origin, _, put, foreign, _⟩ := never _ recv later given n buf here byInit taken
  rw [put.unique rfl (by simp [posts]) silent] at foreign
  exact foreign published

/-- Init can always take an envelope of its own off the bus. -/
theorem InitRun.takes_its_own (run : InitRun history s)
    (recorded : history = earlier ++ post :: (between ++ recv :: later)) (published : Published post) (asks : Asks recv)
    (untaken : ∀ transition ∈ between, receipt? transition = none) : ∃ receipt, receipt? recv = some receipt := by
  obtain ⟨env, holds, short, _⟩ := run.published_stays recorded published untaken
  have here : history = (earlier ++ post :: between) ++ recv :: later := by simp [recorded]
  obtain ⟨reached, step⟩ := run.split here
  obtain ⟨given, maxWaitNs, reply, buf, label⟩ := asks
  rw [label] at step
  obtain ⟨length, answer⟩ := InitRun.lent_of_recv reached step
  rw [(Kernel.sysEnvelopeRecv_takes holds (ne_nil_of_length_eq_max length) (by omega) maxWaitNs).1] at answer
  exact ⟨(given, env.length, buf), receipt_of_ok label answer⟩

end

theorem InitRun.collected (run : InitRun history s) (never : NeverItsOwn history) : Collected history := by
  intro earlier post between recv later recorded published asks
  cases first : between.find? fun transition => (receipt? transition).isSome with
  | none =>
    have untaken (transition) (member : transition ∈ between) : receipt? transition = none := by
      simpa using List.find?_eq_none.mp first transition member
    obtain ⟨receipt, taken⟩ := run.takes_its_own recorded published asks untaken
    obtain ⟨_, _, _, _, label⟩ := asks
    exact absurd (congrArg Prod.fst label) (run.not_init_first never recorded published untaken taken)
  | some found =>
    obtain ⟨received, before, rest, rfl, unreceived⟩ := List.find?_eq_some_iff_append.mp first
    obtain ⟨receipt, taken⟩ := Option.isSome_iff_exists.mp received
    have untaken (transition) (member : transition ∈ before) : receipt? transition = none := by
      simpa using unreceived transition member
    rw [List.append_assoc, List.cons_append] at recorded
    have foreign := run.not_init_first never recorded published untaken taken
    refine ⟨found, by simp, ?_, receipt, taken⟩
    cases party : found.label.1 with
    | init => exact absurd party foreign
    | other i => exact ⟨i, rfl⟩

/-- Init never receives what it has published itself exactly in the runs in
which, after each envelope of init, another party receives before init does. -/
theorem InitRun.never_its_own_iff (run : InitRun history s) : NeverItsOwn history ↔ Collected history :=
  ⟨run.collected, run.neverItsOwn⟩

/-- One receive of another party is enough between the last publication of
init and its first request. -/
theorem collected_of_one {first second : InitHistory ι} {taker : Transition InitSystem (Party ι × KernelLabel)}
    (collects : Collects taker) (before : ∀ transition ∈ first, ¬ Asks transition)
    (behind : ∀ transition ∈ second, ¬ Published transition) : Collected (first ++ taker :: second) := by
  obtain ⟨⟨i, party⟩, receipt⟩ := collects
  intro earlier post between recv later recorded published asks
  have notPost : taker ≠ post := by
    rintro rfl
    obtain ⟨_, _, label⟩ := published
    cases party.symm.trans (congrArg Prod.fst label)
  have notRecv : taker ≠ recv := by
    rintro rfl
    obtain ⟨_, _, _, _, label⟩ := asks
    cases party.symm.trans (congrArg Prod.fst label)
  rcases List.append_eq_append_iff.mp recorded with ⟨d, split, rest⟩ | ⟨d, rfl, rest⟩
  · -- the publication lies behind the receive
    cases d with
    | nil => exact absurd (List.cons_eq_cons.mp rest).1 notPost
    | cons _ d =>
      refine absurd published (behind post ?_)
      rw [(List.cons_eq_cons.mp rest).2]
      simp
  · cases d with
    | nil => exact absurd (List.cons_eq_cons.mp rest).1.symm notPost
    | cons _ d =>
      rcases List.append_eq_append_iff.mp (List.cons_eq_cons.mp rest).2 with ⟨e, rfl, tail⟩ | ⟨e, rfl, tail⟩
      · cases e with
        | nil => exact absurd (List.cons_eq_cons.mp tail).1.symm notRecv
        | cons _ e =>
          refine absurd asks (before recv ?_)
          rw [(List.cons_eq_cons.mp tail).1]
          simp
      · cases e with
        | nil => exact absurd (List.cons_eq_cons.mp tail).1 notRecv
        | cons _ e =>
          refine ⟨taker, ?_, ⟨i, party⟩, receipt⟩
          rw [(List.cons_eq_cons.mp tail).1]
          simp

/-- The kernel when init has announced itself. -/
def readyKernel (pid : UInt64) : Kernel :=
  ((Kernel.initial.sysEnvelopeSend (initReadyEnvelope pid) routeHintLocal).2.sysHookwallPost (initReadyEnvelope pid)
    .proceed).2

theorem readyKernel_holds (pid : UInt64) : (readyKernel pid).slot.Holds (initReadyEnvelope pid) := by
  rw [readyKernel, sysHookwallPost_slot]
  exact (Kernel.sysEnvelopeSend_shortest rfl (length_initReadyEnvelope pid) routeHintLocal).2

/-- Init announces itself on a new bus and comes to its loop. -/
theorem boot_run (ι : Type) : ∃ (pid : UInt64) (earlier between : InitHistory ι)
    (post : Transition InitSystem (Party ι × KernelLabel)) (state : LoopState),
    InitRun (earlier ++ post :: between) ⟨readyKernel pid, .running (loopTurn state)⟩ ∧ Published post ∧
      (∀ transition ∈ earlier ++ post :: between, ¬ Asks transition) ∧ state.recvBuf = List.replicate initEnvelopeMax 0 := by
  have started := Run.next (@Run.start _ _ (@InitStep ι) InitSystem.initial) .init
  have gated := Run.next started .init
  have published := Run.next gated .init
  have recorded := Run.next published .init
  refine ⟨_, [_, _], [_], _, _, recorded, ?_, ?_, rfl⟩
  · exact .of_accepted rfl (Kernel.sysEnvelopeSend_shortest rfl (length_initReadyEnvelope _) _).1
  · rintro transition member ⟨_, _, _, _, label⟩
    simp only [List.cons_append, List.nil_append, List.mem_cons, List.not_mem_nil, or_false] at member
    rcases member with rfl | rfl | rfl | rfl <;> cases label

/-- With nobody else on the bus init receives its own ready message. -/
theorem ready_received_by_init : ∃ (history : InitHistory Empty) (s : InitSystem), InitRun history s ∧
    ¬ NeverItsOwn history := by
  obtain ⟨_, earlier, between, post, _, run, published, _⟩ := boot_run Empty
  have asked := Run.next run .init
  refine ⟨_, _, asked, fun never => ?_⟩
  obtain ⟨_, _, ⟨nobody, _⟩, _⟩ :=
    InitRun.collected asked never earlier post between _ [] (List.append_assoc _ _ _) published ⟨_, _, _, _, rfl⟩
  exact nobody.elim

/-- Another party receives the ready message of init, and sends a request
that init receives. -/
theorem collected_ready_run : ∃ (history : InitHistory Unit) (s : InitSystem), InitRun history s ∧
    (∃ recv ∈ history, recv.label.1 = .init ∧ ∃ receipt, receipt? recv = some receipt) ∧ NeverItsOwn history := by
  obtain ⟨pid, earlier, between, post, state, run, _, unasked, fresh⟩ := boot_run Unit
  have ready := readyKernel_holds pid
  have readyLength := length_initReadyEnvelope pid
  generalize readyKernel pid = k at run ready
  have requestLength : (request [1, 2, 3, 4]).length = 32 := length_request rfl
  have length : state.recvBuf.length = 512 := by
    rw [fresh, List.length_replicate]
    rfl
  have lent : state.recvBuf ≠ [] := List.ne_nil_of_length_pos (by omega)
  obtain ⟨collected, _, vacant⟩ := Kernel.sysEnvelopeRecv_takes ready lent (by omega) recvWaitNs
  have taken := Run.next run (.other () (.envelopeRecv state.recvBuf recvWaitNs))
  generalize (k.sysEnvelopeRecv state.recvBuf recvWaitNs).2.2 = emptied at taken vacant
  obtain ⟨_, loaded⟩ := Kernel.sysEnvelopeSend_shortest vacant.state requestLength 0
  have requested := Run.next taken (.other () (.envelopeSend (request [1, 2, 3, 4]) 0))
  generalize (emptied.sysEnvelopeSend (request [1, 2, 3, 4]) 0).2 = filled at requested loaded
  have asked := Run.next requested .init
  have received := (Kernel.sysEnvelopeRecv_takes loaded lent (by omega) recvWaitNs).1
  refine ⟨_, _, asked, ⟨_, List.mem_append_right _ (List.mem_singleton.mpr rfl), rfl, _, receipt_of_ok rfl received⟩,
    (InitRun.never_its_own_iff asked).mpr ?_⟩
  rw [List.append_assoc, List.append_assoc]
  refine collected_of_one ⟨⟨(), rfl⟩, _, receipt_of_ok rfl collected⟩ unasked ?_
  rintro transition member ⟨_, _, label⟩
  rcases List.mem_pair.mp member with rfl | rfl <;> cases label

end Asolaria.Init
