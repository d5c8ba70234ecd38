import Asolaria.Library.Sha256

namespace Asolaria.ReflectionRoom
open Library
open Library.Sha256 (Digest)

abbrev Handle8 := Vector UInt8 8

def activeEnvelopeWindow : UInt32 := 2000

def gulpsPerCheckpoint : UInt32 := 5

def checkpointsPerSuperGulp : UInt32 := 5

def minSelectorDims : UInt16 := 60

def genesisSha256 : Digest := Vector.replicate 32 0

inductive RoomEventKind
  | taskIn | workNote | toolResult | translatedNote | selfReflection | peerReview | supervisorControl | finalResult
deriving DecidableEq, Repr

namespace RoomEventKind

def toU8 : RoomEventKind → UInt8
  | taskIn => 1
  | workNote => 2
  | toolResult => 3
  | translatedNote => 4
  | selfReflection => 5
  | peerReview => 6
  | supervisorControl => 7
  | finalResult => 8

def requiresParent : RoomEventKind → Bool
  | translatedNote | selfReflection | peerReview | finalResult => true
  | _ => false

end RoomEventKind

inductive AuthorityState
  | unverified | measured | canon | held
deriving DecidableEq, Repr

def AuthorityState.toU8 : AuthorityState → UInt8
  | unverified => 0
  | measured => 1
  | canon => 2
  | held => 3

inductive RecallAccessLevel
  | publicLevel | federation | ownerPrivate
deriving DecidableEq, Repr

def RecallAccessLevel.toU8 : RecallAccessLevel → UInt8
  | .publicLevel => 0
  | .federation => 5
  | .ownerPrivate => 9

inductive PiiState
  | none | keyedConsented | unknown
deriving DecidableEq, Repr

def PiiState.toU8 : PiiState → UInt8
  | .none => 0
  | .keyedConsented => 1
  | .unknown => 2

/-- Seek pointer to a body persisted outside the room. -/
structure BodyRef where
  offset : UInt64
  length : UInt32
  sha256 : Digest
deriving DecidableEq, Repr

structure EventDraft where
  kind : RoomEventKind
  sourceHandle8 : Handle8
  sourcePidSha256 : Digest
  targetHandle8 : Handle8
  targetPidSha256 : Digest
  verbSha256 : Digest
  timestampNs : UInt64
  parentSha256 : Digest
  body : BodyRef
  selectorDims : UInt16
  selectorTupleSha256 : Digest
  authority : AuthorityState
  accessLevel : RecallAccessLevel
  piiState : PiiState
  ownerPidSha256 : Digest
  idempotencyKey : Digest
deriving DecidableEq, Repr

structure CommittedEvent where
  sequence : UInt64
  roomHandle8 : Handle8
  roomIdSha256 : Digest
  previousSha256 : Digest
  fullSha256 : Digest
  draft : EventDraft
deriving DecidableEq, Repr

/-- A prepared event is a freely copyable value; only `commit` publishes it. -/
structure PreparedEvent where
  event : CommittedEvent
deriving DecidableEq, Repr

structure RoomHead where
  roomHandle8 : Handle8
  roomIdSha256 : Digest
  nextSequence : UInt64
  headSha256 : Digest
  activeEvents : UInt32
  totalEvents : UInt64
  totalGulps : UInt64
  totalCheckpoints : UInt64
  totalSuperGulps : UInt64
deriving DecidableEq, Repr

inductive CommitOutcome
  | committed (event : CommittedEvent)
  | duplicate (event : CommittedEvent)
deriving DecidableEq, Repr

inductive GulpTier
  | gulp2k | checkpoint10k | superGulp50k
deriving DecidableEq, Repr

def GulpTier.toU8 : GulpTier → UInt8
  | gulp2k => 1
  | checkpoint10k => 2
  | superGulp50k => 3

structure GulpSeal where
  tier : GulpTier
  sealedEvents : UInt32
  cumulativeEvents : UInt64
  gulpIndex : UInt64
  checkpointIndex : UInt64
  superGulpIndex : UInt64
  roomHeadSha256 : Digest
  distilledProductSha256 : Digest
  sealSha256 : Digest
deriving DecidableEq, Repr

inductive RoomError
  | roomIdentityMissing
  | bodyMissing
  | bodyHashMissing
  | idempotencyKeyMissing
  | selectorTupleMissing
  | selectorDimsTooSmall (observed : UInt16)
  | piiRequiresOwnerPrivate
  | ownerIdentityMissing
  | parentMissing
  | parentNotCommitted
  | activeWindowFull
  | stalePreparedEvent
  | sequenceOverflow
  | gulpNotReady (activeEvents : UInt32)
  | distilledProductMissing
deriving DecidableEq, Repr

structure RoomWriter where
  roomHandle8 : Handle8
  roomIdSha256 : Digest
  nextSequence : UInt64
  headSha256 : Digest
  recent : List CommittedEvent
  totalEvents : UInt64
  totalGulps : UInt64
deriving DecidableEq, Repr

def isZeroSha (value : Digest) : Bool := value.toList.all (· == 0)

/-- The bytes fed to the hasher for an event, in the order of the updates. -/
def eventPreimage (roomIdSha256 : Digest) (roomHandle8 : Handle8) (sequence : UInt64)
    (previousSha256 : Digest) (draft : EventDraft) : List UInt8 :=
  [ "ASOLARIA-REFLECTION-ROOM-EVENT-V1".toUTF8.toList,
    roomIdSha256.toList,
    roomHandle8.toList,
    beBytes 8 sequence.toNat,
    previousSha256.toList,
    [draft.kind.toU8],
    draft.sourceHandle8.toList,
    draft.sourcePidSha256.toList,
    draft.targetHandle8.toList,
    draft.targetPidSha256.toList,
    draft.verbSha256.toList,
    beBytes 8 draft.timestampNs.toNat,
    draft.parentSha256.toList,
    beBytes 8 draft.body.offset.toNat,
    beBytes 4 draft.body.length.toNat,
    draft.body.sha256.toList,
    beBytes 2 draft.selectorDims.toNat,
    draft.selectorTupleSha256.toList,
    [draft.authority.toU8],
    [draft.accessLevel.toU8],
    [draft.piiState.toU8],
    draft.ownerPidSha256.toList,
    draft.idempotencyKey.toList ].flatten

def gulpSealPreimage (roomIdSha256 headSha256 : Digest) (totalEvents gulpIndex : UInt64)
    (tier : GulpTier) (distilledProductSha256 : Digest) : List UInt8 :=
  [ "ASOLARIA-REFLECTION-ROOM-GULP-SEAL-V1".toUTF8.toList,
    roomIdSha256.toList,
    headSha256.toList,
    beBytes 8 totalEvents.toNat,
    beBytes 8 gulpIndex.toNat,
    [tier.toU8],
    distilledProductSha256.toList ].flatten

section
variable (sha256 : List UInt8 → Digest)

def eventSha256 (roomIdSha256 : Digest) (roomHandle8 : Handle8) (sequence : UInt64)
    (previousSha256 : Digest) (draft : EventDraft) : Digest :=
  sha256 (eventPreimage roomIdSha256 roomHandle8 sequence previousSha256 draft)

def gulpSealSha256 (roomIdSha256 headSha256 : Digest) (totalEvents gulpIndex : UInt64)
    (tier : GulpTier) (distilledProductSha256 : Digest) : Digest :=
  sha256 (gulpSealPreimage roomIdSha256 headSha256 totalEvents gulpIndex tier distilledProductSha256)

end

namespace RoomWriter

def new (roomHandle8 : Handle8) (roomIdSha256 : Digest) : Except RoomError RoomWriter :=
  if isZeroSha roomIdSha256 then .error .roomIdentityMissing
  else .ok
    { roomHandle8, roomIdSha256, nextSequence := 1, headSha256 := genesisSha256, recent := [],
      totalEvents := 0, totalGulps := 0 }

def readCommittedHead (w : RoomWriter) : RoomHead where
  roomHandle8 := w.roomHandle8
  roomIdSha256 := w.roomIdSha256
  nextSequence := w.nextSequence
  headSha256 := w.headSha256
  activeEvents := w.recent.length.toUInt32
  totalEvents := w.totalEvents
  totalGulps := w.totalGulps
  totalCheckpoints := w.totalGulps / gulpsPerCheckpoint.toUInt64
  totalSuperGulps := w.totalGulps / (gulpsPerCheckpoint * checkpointsPerSuperGulp).toUInt64

def validateDraft (w : RoomWriter) (draft : EventDraft) : Except RoomError Unit :=
  if draft.body.length = 0 then .error .bodyMissing
  else if isZeroSha draft.body.sha256 then .error .bodyHashMissing
  else if isZeroSha draft.idempotencyKey then .error .idempotencyKeyMissing
  else if isZeroSha draft.selectorTupleSha256 then .error .selectorTupleMissing
  else if draft.selectorDims < minSelectorDims then .error (.selectorDimsTooSmall draft.selectorDims)
  else if draft.accessLevel ≠ .ownerPrivate ∧ draft.piiState ≠ .none then .error .piiRequiresOwnerPrivate
  else if draft.accessLevel = .ownerPrivate ∧ isZeroSha draft.ownerPidSha256 then .error .ownerIdentityMissing
  else if draft.kind.requiresParent then
    if isZeroSha draft.parentSha256 then .error .parentMissing
    else if draft.parentSha256 = w.headSha256 ∨ w.recent.any (·.fullSha256 == draft.parentSha256) then .ok ()
    else .error .parentNotCommitted
  else .ok ()

def prepare (sha256 : List UInt8 → Digest) (w : RoomWriter) (draft : EventDraft) :
    Except RoomError PreparedEvent :=
  match w.validateDraft draft with
  | .error error => .error error
  | .ok () =>
    let duplicate := w.recent.any (·.draft.idempotencyKey == draft.idempotencyKey)
    if activeEnvelopeWindow.toNat ≤ w.recent.length ∧ ¬ duplicate then .error .activeWindowFull
    else
      match checkedAdd w.nextSequence 0 with
      | none => .error .sequenceOverflow
      | some sequence =>
        if sequence.toNat = 2 ^ 64 - 1 then .error .sequenceOverflow
        else .ok
          { event :=
            { sequence
              roomHandle8 := w.roomHandle8
              roomIdSha256 := w.roomIdSha256
              previousSha256 := w.headSha256
              fullSha256 := eventSha256 sha256 w.roomIdSha256 w.roomHandle8 sequence w.headSha256 draft
              draft } }

/-- The writer is returned beside the result: the window and the head are
written before the two fallible additions, so an overflow would return an
error together with a changed writer. -/
def commit (w : RoomWriter) (prepared : PreparedEvent) : Except RoomError CommitOutcome × RoomWriter :=
  match w.recent.find? (·.draft.idempotencyKey == prepared.event.draft.idempotencyKey) with
  | some existing => (.ok (.duplicate existing), w)
  | none =>
    if activeEnvelopeWindow.toNat ≤ w.recent.length then (.error .activeWindowFull, w)
    else if prepared.event.sequence ≠ w.nextSequence ∨ prepared.event.previousSha256 ≠ w.headSha256 then
      (.error .stalePreparedEvent, w)
    else
      let committed := prepared.event
      let pushed := { w with recent := w.recent ++ [committed], headSha256 := committed.fullSha256 }
      match checkedAdd pushed.nextSequence 1 with
      | none => (.error .sequenceOverflow, pushed)
      | some nextSequence =>
        let advanced := { pushed with nextSequence }
        match checkedAdd advanced.totalEvents 1 with
        | none => (.error .sequenceOverflow, advanced)
        | some totalEvents => (.ok (.committed committed), { advanced with totalEvents })

def gulpTier (gulpIndex : UInt64) : GulpTier :=
  if gulpIndex % (gulpsPerCheckpoint * checkpointsPerSuperGulp).toUInt64 = 0 then .superGulp50k
  else if gulpIndex % gulpsPerCheckpoint.toUInt64 = 0 then .checkpoint10k
  else .gulp2k

def sealGulp (sha256 : List UInt8 → Digest) (w : RoomWriter) (distilledProductSha256 : Digest) :
    Except RoomError GulpSeal × RoomWriter :=
  let active := w.recent.length.toUInt32
  if active ≠ activeEnvelopeWindow then (.error (.gulpNotReady active), w)
  else if isZeroSha distilledProductSha256 then (.error .distilledProductMissing, w)
  else
    match checkedAdd w.totalGulps 1 with
    | none => (.error .sequenceOverflow, w)
    | some gulpIndex =>
      let tier := gulpTier gulpIndex
      let gulpSeal :=
        { tier
          sealedEvents := activeEnvelopeWindow
          cumulativeEvents := w.totalEvents
          gulpIndex
          checkpointIndex := gulpIndex / gulpsPerCheckpoint.toUInt64
          superGulpIndex := gulpIndex / (gulpsPerCheckpoint * checkpointsPerSuperGulp).toUInt64
          roomHeadSha256 := w.headSha256
          distilledProductSha256
          sealSha256 :=
            gulpSealSha256 sha256 w.roomIdSha256 w.headSha256 w.totalEvents gulpIndex tier distilledProductSha256 }
      (.ok gulpSeal, { w with recent := [], totalGulps := gulpIndex })

end RoomWriter

end Asolaria.ReflectionRoom
