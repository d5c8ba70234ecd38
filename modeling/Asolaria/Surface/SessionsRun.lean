import Asolaria.Surface.Sessions

namespace Asolaria.Surface
open Library

section Steps
variable {s t : SessionTable} {here next : Connection} {event : SessionEvent}

/-- `NEXT_ID` is moved on by those who take it, and by nobody else. -/
theorem ConnectionStep.counts (step : ConnectionStep s here event t next) :
    (event.taken = none ∧ t.nextId = s.nextId) ∨ (event.taken = some s.nextId ∧ t.nextId = s.nextId + 1) := by
  cases step with
  | take => exact .inr ⟨rfl, rfl⟩
  | insert => exact .inl ⟨rfl, rfl⟩
  | @input id =>
    refine .inl ⟨rfl, ?_⟩
    unfold SessionTable.input
    split <;> rfl
  | @kill id =>
    refine .inl ⟨rfl, ?_⟩
    unfold SessionTable.kill
    split <;> rfl

end Steps

variable {ι : Type} {history : SessionHistory ι} {s t : Connections ι} {label : ι × SessionEvent}

def takenIds (history : SessionHistory ι) : List UInt64 := history.filterMap (·.label.2.taken)

def insertedIds (history : SessionHistory ι) : List UInt64 := history.filterMap (·.label.2.inserted)

theorem takenIds_next (history : SessionHistory ι) (step : Transition (Connections ι) (ι × SessionEvent)) :
    takenIds (history ++ [step]) = takenIds history ++ step.label.2.taken.toList := by
  rw [takenIds, List.filterMap_append, filterMap_single]
  rfl

theorem insertedIds_next (history : SessionHistory ι) (step : Transition (Connections ι) (ι × SessionEvent)) :
    insertedIds (history ++ [step]) = insertedIds history ++ step.label.2.inserted.toList := by
  rw [insertedIds, List.filterMap_append, filterMap_single]
  rfl

theorem sessionEvents_next (history : SessionHistory ι) (step : Transition (Connections ι) (ι × SessionEvent)) :
    sessionEvents (history ++ [step]) = sessionEvents history ++ [step.label.2] := List.map_append

/-- Every id was taken once, and is on the way of one connection or in the
table. -/
structure Issued (history : SessionHistory ι) (s : Connections ι) : Prop where
  taken : ∀ i id shell, s.locals i = .inserting id shell → id ∈ takenIds history
  fresh : ∀ i id shell, s.locals i = .inserting id shell → id ∉ insertedIds history
  apart : ∀ i j id shell shell', s.locals i = .inserting id shell → s.locals j = .inserting id shell' → i = j
  known : ∀ id ∈ insertedIds history, id ∈ takenIds history
  once : (insertedIds history).Nodup

theorem Issued.start : Issued [] (⟨.init, fun _ => .waiting⟩ : Connections ι) where
  taken := nofun
  fresh := nofun
  apart := nofun
  known := nofun
  once := .nil

variable [DecidableEq ι]

theorem counts_nextId : Counts (InterleavedStep (ι := ι) ConnectionStep) (·.shared.nextId) (·.label.2.taken) :=
  fun _ _ _ step => step.act_shared.counts

section
variable {i : ι} {table : SessionTable} {event : SessionEvent} {next : Connection}

/-- A step that neither takes an id nor inserts a session. -/
theorem Issued.quiet (issued : Issued history s) (noTake : event.taken = none) (noInsert : event.inserted = none)
    (elsewhere : ∀ id shell, next ≠ .inserting id shell) :
    Issued (history ++ [⟨s, (i, event), s.place i table next⟩]) (s.place i table next) := by
  have stays : ∀ j id shell, (s.place i table next).locals j = .inserting id shell → s.locals j = .inserting id shell := by
    intro j id shell place
    rcases Threads.place_cases place with ⟨_, moved⟩ | ⟨_, stood⟩
    · exact absurd moved (elsewhere id shell)
    · exact stood
  have takes : takenIds (history ++ [⟨s, (i, event), s.place i table next⟩]) = takenIds history := by
    rw [takenIds_next, noTake, Option.toList_none, List.append_nil]
  have inserts : insertedIds (history ++ [⟨s, (i, event), s.place i table next⟩]) = insertedIds history := by
    rw [insertedIds_next, noInsert, Option.toList_none, List.append_nil]
  exact {
    taken := fun j id shell place => takes ▸ issued.taken j id shell (stays j id shell place)
    fresh := fun j id shell place => inserts ▸ issued.fresh j id shell (stays j id shell place)
    apart := fun j k id shell shell' left right =>
      issued.apart j k id shell shell' (stays j id shell left) (stays k id shell' right)
    known := by
      rw [takes, inserts]
      exact issued.known
    once := by
      rw [inserts]
      exact issued.once }

/-- A connection takes an id that nobody has had. -/
theorem Issued.take (issued : Issued history s) {id : UInt64} {shell : String} (new : id ∉ takenIds history) :
    Issued (history ++ [⟨s, (i, .take id), s.place i table (.inserting id shell)⟩])
      (s.place i table (.inserting id shell)) := by
  have takes : takenIds (history ++ [⟨s, (i, .take id), s.place i table (.inserting id shell)⟩]) =
      takenIds history ++ [id] := takenIds_next _ _
  have inserts : insertedIds (history ++ [⟨s, (i, .take id), s.place i table (.inserting id shell)⟩]) =
      insertedIds history := (insertedIds_next _ _).trans (List.append_nil _)
  have others : ∀ j shell', s.locals j ≠ .inserting id shell' := fun j shell' stood => new (issued.taken j id shell' stood)
  refine { taken := ?_, fresh := ?_, apart := ?_, known := ?_, once := by rw [inserts]; exact issued.once }
  · intro j other shell' place
    rw [takes]
    rcases Threads.place_cases place with ⟨_, moved⟩ | ⟨_, stood⟩
    · cases moved
      exact List.mem_append_right _ (List.mem_singleton_self id)
    · exact List.mem_append_left _ (issued.taken j other shell' stood)
  · intro j other shell' place
    rw [inserts]
    rcases Threads.place_cases place with ⟨_, moved⟩ | ⟨_, stood⟩
    · cases moved
      exact fun member => new (issued.known id member)
    · exact issued.fresh j other shell' stood
  · intro j k other shell' shell'' left right
    rcases Threads.place_cases left with ⟨rfl, moved⟩ | ⟨_, stood⟩ <;>
      rcases Threads.place_cases right with ⟨rfl, moved'⟩ | ⟨_, stood'⟩
    · rfl
    · cases moved
      exact absurd stood' (others k shell'')
    · cases moved'
      exact absurd stood (others j shell')
    · exact issued.apart j k other shell' shell'' stood stood'
  · intro other member
    rw [inserts] at member
    rw [takes]
    exact List.mem_append_left _ (issued.known other member)

/-- A connection inserts the session for its id. -/
theorem Issued.insert (issued : Issued history s) {id : UInt64} {shell : String} {session : Session}
    (here : s.locals i = .inserting id shell) :
    Issued (history ++ [⟨s, (i, .insert id session), s.place i table (.replied id)⟩]) (s.place i table (.replied id)) := by
  have takes : takenIds (history ++ [⟨s, (i, .insert id session), s.place i table (.replied id)⟩]) = takenIds history :=
    (takenIds_next _ _).trans (List.append_nil _)
  have inserts : insertedIds (history ++ [⟨s, (i, .insert id session), s.place i table (.replied id)⟩]) =
      insertedIds history ++ [id] := insertedIds_next _ _
  have stays : ∀ j other shell', (s.place i table (.replied id)).locals j = .inserting other shell' →
      j ≠ i ∧ s.locals j = .inserting other shell' := by
    intro j other shell' place
    rcases Threads.place_cases place with ⟨_, moved⟩ | ⟨different, stood⟩
    · cases moved
    · exact ⟨different, stood⟩
  refine { taken := ?_, fresh := ?_, apart := ?_, known := ?_, once := ?_ }
  · intro j other shell' place
    rw [takes]
    exact issued.taken j other shell' (stays j other shell' place).2
  · intro j other shell' place
    obtain ⟨different, stood⟩ := stays j other shell' place
    rw [inserts, List.mem_append, List.mem_singleton]
    rintro (old | rfl)
    · exact issued.fresh j other shell' stood old
    · exact different (issued.apart j i other shell' shell stood here)
  · intro j k other shell' shell'' left right
    exact issued.apart j k other shell' shell'' (stays j other shell' left).2 (stays k other shell'' right).2
  · rw [takes, inserts]
    exact List.forall_mem_append.mpr ⟨issued.known, List.forall_mem_singleton.mpr (issued.taken i id shell here)⟩
  · rw [inserts]
    exact List.nodup_append.mpr ⟨issued.once, List.nodup_singleton id, fun other old new member =>
      (List.mem_singleton.mp member) ▸ fun same => issued.fresh i id shell here (same ▸ old)⟩

end

theorem Issued.step (issued : Issued history s) (step : InterleavedStep ConnectionStep s label t)
    (distinct : (takenIds (history ++ [⟨s, label, t⟩])).Nodup) : Issued (history ++ [⟨s, label, t⟩]) t := by
  cases step with
  | @act i event table next moved =>
    generalize here : s.locals i = location at moved
    generalize s.shared = old at moved
    cases moved with
    | input | kill => exact issued.quiet rfl rfl nofun
    | take shell =>
      rw [takenIds_next] at distinct
      have new : old.nextId ∉ takenIds history := fun member =>
        (List.nodup_append.mp distinct).2.2 _ member _ (List.mem_singleton_self _) rfl
      exact issued.take new
    | insert started => exact issued.insert here

theorem SessionRun.taken (run : SessionRun history s) (few : (takenIds history).length < UInt64.size) :
    (takenIds history).Nodup ∧ 0 ∉ takenIds history := by
  obtain ⟨n, values, _⟩ := run.tickets counts_nextId
  have taken : takenIds history = ticketsFrom 1 n := values
  rw [taken, length_ticketsFrom] at few
  rw [taken]
  refine ⟨nodup_ticketsFrom.mpr (Nat.le_of_lt few), zero_not_mem_ticketsFrom (by decide) ?_⟩
  rw [show (1 : UInt64).toNat = 1 from rfl]
  omega

theorem SessionRun.issued (run : SessionRun history s) (distinct : (takenIds history).Nodup) : Issued history s := by
  induction run with
  | start => exact .start
  | next _ step ih =>
    have before := distinct
    rw [takenIds_next] at before
    exact (ih (List.nodup_append.mp before).1).step step distinct

section Table
variable {before after : SessionTable} {here next : Connection} {event : SessionEvent} {id : UInt64}

@[simp] theorem insert_self (table : SessionTable) (id : UInt64) (session : Session) :
    (table.insert id session).sessions id = some session := Function.update_self ..

theorem insert_other {other : UInt64} (table : SessionTable) (session : Session) (different : id ≠ other) :
    (table.insert other session).sessions id = table.sessions id := Function.update_of_ne different ..

theorem input_other {other : UInt64} (table : SessionTable) (written : List UInt8) (different : id ≠ other) :
    (table.input other written).sessions id = table.sessions id := by
  unfold SessionTable.input
  split
  · exact insert_other table _ different
  · rfl

@[simp] theorem killed_input (table : SessionTable) (other : UInt64) (written : List UInt8) :
    (table.input other written).killed = table.killed := by
  unfold SessionTable.input
  split <;> rfl

theorem kill_other {other : UInt64} (table : SessionTable) (different : id ≠ other) :
    (table.kill other).sessions id = table.sessions id ∧ (table.kill other).killed.count id = table.killed.count id := by
  unfold SessionTable.kill
  split
  · refine ⟨Function.update_of_ne different .., ?_⟩
    dsimp only
    split
    · have none : [other].count id = 0 := List.count_eq_zero_of_not_mem (by simpa using different)
      rw [List.count_append, none, Nat.add_zero]
    · rfl
  · exact ⟨rfl, rfl⟩

theorem kill_here {table : SessionTable} {session : Session} (found : table.sessions id = some session) :
    (table.kill id).sessions id = none ∧
      (table.kill id).killed.count id = table.killed.count id + session.child.toNat := by
  rw [SessionTable.kill, found]
  refine ⟨Function.update_self .., ?_⟩
  dsimp only
  cases session.child with
  | true => rw [if_pos rfl, List.count_append, List.count_singleton_self]; rfl
  | false => rfl

theorem absent_stays {table : SessionTable} (absent : table.sessions id = none) (written : List UInt8) :
    table.input id written = table ∧ table.kill id = table := by
  rw [SessionTable.input, SessionTable.kill, absent]
  exact ⟨rfl, rfl⟩

/-- No step touches an id that has no session. -/
theorem ConnectionStep.untouched (step : ConnectionStep before here event after next) (other : event.inserted ≠ some id)
    (absent : before.sessions id = none) : after.sessions id = none ∧ after.killed.count id = before.killed.count id := by
  cases step with
  | take => exact ⟨absent, rfl⟩
  | @insert number =>
    have different : id ≠ number := fun same => other (same ▸ rfl)
    exact ⟨(insert_other before _ different).trans absent, rfl⟩
  | @input number body written =>
    refine ⟨?_, by rw [killed_input]⟩
    by_cases same : id = number
    · rw [← same, (absent_stays absent written).1, absent]
    · rw [input_other before written same, absent]
  | @kill number =>
    by_cases same : id = number
    · rw [← same, (absent_stays absent []).2]
      exact ⟨absent, rfl⟩
    · rw [(kill_other before same).1, (kill_other before same).2]
      exact ⟨absent, rfl⟩

variable {session : Session} {later : List SessionEvent}

theorem Session.write_write (bytes more : List UInt8) : (session.write bytes).write more = session.write (bytes ++ more) := by
  simp [Session.write, Function.comp_def]

theorem Session.write_nil : session.write [] = session := by
  cases session with
  | mk label stdin child => cases stdin <;> simp [Session.write]

/-- A step that leaves the session and its child alone. -/
theorem Followed.frame (followed : Followed id session later before) (noKill : event ≠ .kill id)
    (noInput : event.writtenTo id = []) (sessions : after.sessions id = before.sessions id)
    (killed : after.killed.count id = before.killed.count id) : Followed id session (later ++ [event]) after := by
  have kills : .kill id ∈ later ++ [event] ↔ .kill id ∈ later := by
    simp [noKill.symm]
  have bytes : (later ++ [event]).flatMap (SessionEvent.writtenTo id) = later.flatMap (SessionEvent.writtenTo id) := by
    simp [noInput]
  rw [Followed, if_congr kills rfl rfl, bytes, sessions, killed]
  exact followed

/-- A session is followed through the steps of all connections. -/
theorem Followed.step (followed : Followed id session later before) (step : ConnectionStep before here event after next)
    (other : event.inserted ≠ some id) : Followed id session (later ++ [event]) after := by
  cases step with
  | take => exact followed.frame nofun rfl rfl rfl
  | @insert number =>
    have different : id ≠ number := fun same => other (same ▸ rfl)
    exact followed.frame nofun rfl (insert_other before _ different) rfl
  | @input number body written =>
    by_cases same : id = number
    · subst same
      have kills : .kill id ∈ later ++ [.input id body written] ↔ .kill id ∈ later := by simp
      unfold Followed at followed ⊢
      rw [if_congr kills rfl rfl, killed_input]
      split at followed
      · next gone =>
        rw [if_pos gone, (absent_stays followed.1 written).1]
        exact followed
      · next kept =>
        have bytes : (later ++ [SessionEvent.input id body written]).flatMap (SessionEvent.writtenTo id) =
            later.flatMap (SessionEvent.writtenTo id) ++ written := by
          simp [SessionEvent.writtenTo]
        rw [if_neg kept, SessionTable.input, followed.1, bytes, ← Session.write_write]
        exact ⟨insert_self .., followed.2⟩
    · have aside : SessionEvent.writtenTo id (.input number body written) = [] := if_neg fun reached => same reached.symm
      exact followed.frame nofun aside (input_other before written same) (by rw [killed_input])
  | @kill number =>
    by_cases same : id = number
    · subst same
      have kills : .kill id ∈ later ++ [.kill id] := by simp
      unfold Followed at followed ⊢
      rw [if_pos kills]
      split at followed
      · rw [(absent_stays followed.1 []).2]
        exact followed
      · obtain ⟨sessions, killed⟩ := kill_here followed.1
        rw [killed, followed.2, Nat.zero_add]
        exact ⟨sessions, rfl⟩
    · obtain ⟨sessions, killed⟩ := kill_other before same
      have elsewhere : SessionEvent.kill number ≠ .kill id := fun hit => same (SessionEvent.kill.inj hit).symm
      exact followed.frame elsewhere rfl sessions killed

end Table

/-- Ids that were not given to a session are not in the table. -/
theorem SessionRun.untouched {id : UInt64} (run : SessionRun history s) (unknown : id ∉ insertedIds history) :
    s.shared.sessions id = none ∧ s.shared.killed.count id = 0 := by
  induction run with
  | start => exact ⟨rfl, rfl⟩
  | next _ step ih =>
    rw [insertedIds_next, List.mem_append, not_or, Option.mem_toList] at unknown
    obtain ⟨absent, alive⟩ := ih unknown.1
    have stays := step.act_shared.untouched unknown.2 absent
    exact ⟨stays.1, stays.2.trans alive⟩

theorem followed_run {first : Connections ι} {id : UInt64} {session : Session}
    (run : Run (InterleavedStep ConnectionStep) first history s) (others : id ∉ insertedIds history)
    (begun : Followed id session [] first.shared) : Followed id session (sessionEvents history) s.shared := by
  induction run with
  | start => exact begun
  | next _ step ih =>
    rw [insertedIds_next, List.mem_append, not_or, Option.mem_toList] at others
    rw [sessionEvents_next]
    exact (ih others.1).step step.act_shared others.2

/-- Sessions do not share an id and are not mixed up, whatever the order in
which the connections take their steps. -/
theorem sessions_followed (run : SessionRun history s) (few : (takenIds history).length < UInt64.size)
    {before after : SessionHistory ι} {step : Transition (Connections ι) (ι × SessionEvent)} {id : UInt64}
    {session : Session} (recorded : history = before ++ step :: after) (inserted : step.label.2 = .insert id session) :
    id ≠ 0 ∧ id ∉ insertedIds before ∧ id ∉ insertedIds after ∧ Followed id session (sessionEvents after) s.shared := by
  obtain ⟨distinct, noZero⟩ := run.taken few
  have issued := run.issued distinct
  have ids : insertedIds history = insertedIds before ++ id :: insertedIds after := by
    rw [recorded, insertedIds, List.filterMap_append, List.filterMap_cons_some (b := id) (by rw [inserted]; rfl)]
    rfl
  have once := issued.once
  rw [ids, List.nodup_middle, List.nodup_cons, List.mem_append, not_or] at once
  obtain ⟨⟨new, last⟩, _⟩ := once
  refine ⟨fun zero => noZero (zero ▸ issued.known id (by rw [ids]; simp)), new, last, ?_⟩
  obtain ⟨reached, moved⟩ := run.split recorded
  have alive := (SessionRun.untouched reached new).2
  refine followed_run (run.rest recorded) last ?_
  have act := moved.act_shared
  rw [inserted] at act
  generalize step.before.locals step.label.1 = here, step.after.locals step.label.1 = next,
    step.after.shared = table at act ⊢
  cases act with
  | insert started =>
    rw [Followed, if_neg List.not_mem_nil, List.flatMap_nil, Session.write_nil]
    exact ⟨insert_self .., alive⟩

/-- Two spawns that overlap, keys for the shell of the later one, and its end. -/
theorem sessions_followed_two : ∃ s : Connections Nat, s.shared.nextId = 3 ∧
    (s.shared.sessions 2 = none ∧ s.shared.killed.count 2 = 1) ∧
    s.shared.sessions 1 = some (.spawned "zsh" (.ok ())) ∧ s.shared.killed.count 1 = 0 := by
  let begun : Connections Nat := ⟨.init, fun _ => .waiting⟩
  have idle : SessionRun [] begun := .start
  have take := idle.next (.act (i := 0) (.take "zsh"))
  have second := take.next (.act (i := 1) (.take "sh"))
  have insert := second.next (.act (i := 1) (show ConnectionStep _ (.inserting 2 "sh") _ _ _ from .insert (.ok ())))
  have other := insert.next (.act (i := 0) (show ConnectionStep _ (.inserting 1 "zsh") _ _ _ from .insert (.ok ())))
  have keys := other.next
    (.act (i := 2) (show ConnectionStep _ .waiting (.input 2 [108, 115] _) _ _ from .input (List.prefix_refl [108, 115])))
  have ended := keys.next (.act (i := 3) (show ConnectionStep _ .waiting (.kill 2) _ _ from .kill))
  have later := (sessions_followed ended (by decide) (show _ = [_, _] ++ _ :: [_, _, _] from rfl) rfl).2.2.2
  have earlier := (sessions_followed ended (by decide) (show _ = [_, _, _] ++ _ :: [_, _] from rfl) rfl).2.2.2
  exact ⟨_, rfl, later, earlier⟩

end Asolaria.Surface
