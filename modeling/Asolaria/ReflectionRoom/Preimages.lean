import Asolaria.ReflectionRoom.Writer

namespace Asolaria.ReflectionRoom
open Library
open Library.Sha256 (Digest)

attribute [ext] BodyRef EventDraft

theorem RoomEventKind.toU8_inj {k l : RoomEventKind} : k.toU8 = l.toU8 ↔ k = l := by
  cases k <;> cases l <;> decide

theorem AuthorityState.toU8_inj {a b : AuthorityState} : a.toU8 = b.toU8 ↔ a = b := by
  cases a <;> cases b <;> decide

theorem RecallAccessLevel.toU8_inj {a b : RecallAccessLevel} : a.toU8 = b.toU8 ↔ a = b := by
  cases a <;> cases b <;> decide

theorem PiiState.toU8_inj {p q : PiiState} : p.toU8 = q.toU8 ↔ p = q := by
  cases p <;> cases q <;> decide

theorem GulpTier.toU8_inj {t u : GulpTier} : t.toU8 = u.toU8 ↔ t = u := by
  cases t <;> cases u <;> decide

theorem beBytes_half_inj {a b : UInt16} : beBytes 2 a.toNat = beBytes 2 b.toNat ↔ a = b :=
  (beBytes_inj a.toNat_lt b.toNat_lt).trans UInt16.toNat_inj

theorem beBytes_word_inj {a b : UInt32} : beBytes 4 a.toNat = beBytes 4 b.toNat ↔ a = b :=
  (beBytes_inj a.toNat_lt b.toNat_lt).trans UInt32.toNat_inj

section
variable {room room' head head' distilled distilled' : Digest} {handle handle' : Handle8}
  {sequence sequence' total total' gulpIndex gulpIndex' : UInt64} {draft draft' : EventDraft} {tier tier' : GulpTier}

/-- Every piece of an event's preimage has a fixed width, so the pieces can be
told apart without separators. -/
theorem eventPreimage_inj :
    eventPreimage room handle sequence head draft = eventPreimage room' handle' sequence' head' draft' ↔
      room = room' ∧ handle = handle' ∧ sequence = sequence' ∧ head = head' ∧ draft = draft' := by
  constructor
  · intro same
    have pieces := List.eq_iff_flatten_eq.mpr ⟨same, by simp⟩
    simp only [List.cons.injEq, true_and, and_true, Vector.toList_inj, beBytes_toNat_inj, beBytes_word_inj,
      beBytes_half_inj, RoomEventKind.toU8_inj, AuthorityState.toU8_inj, RecallAccessLevel.toU8_inj,
      PiiState.toU8_inj] at pieces
    simpa only [EventDraft.ext_iff, BodyRef.ext_iff, and_assoc] using pieces
  · rintro ⟨rfl, rfl, rfl, rfl, rfl⟩
    rfl

theorem gulpSealPreimage_inj :
    gulpSealPreimage room head total gulpIndex tier distilled =
        gulpSealPreimage room' head' total' gulpIndex' tier' distilled' ↔
      room = room' ∧ head = head' ∧ total = total' ∧ gulpIndex = gulpIndex' ∧ tier = tier' ∧
        distilled = distilled' := by
  constructor
  · intro same
    have pieces := List.eq_iff_flatten_eq.mpr ⟨same, by simp⟩
    simpa only [List.cons.injEq, true_and, and_true, Vector.toList_inj, beBytes_toNat_inj,
      GulpTier.toU8_inj] using pieces
  · rintro ⟨rfl, rfl, rfl, rfl, rfl, rfl⟩
    rfl

/-- The two domain tags differ in their twenty-sixth byte, where one says
`EVENT` and the other `GULP`. -/
theorem eventPreimage_ne_gulpSealPreimage :
    eventPreimage room handle sequence head draft ≠ gulpSealPreimage room' head' total gulpIndex tier distilled := by
  intro same
  have event : (eventPreimage room handle sequence head draft)[25]? = some 69 := by
    have letter : "ASOLARIA-REFLECTION-ROOM-EVENT-V1".toUTF8.toList[25]? = some 69 := by decide +kernel
    rw [eventPreimage, List.flatten_cons, List.getElem?_append_left (List.getElem?_eq_some_iff.mp letter).1, letter]
  have gulp : (gulpSealPreimage room' head' total gulpIndex tier distilled)[25]? = some 71 := by
    have letter : "ASOLARIA-REFLECTION-ROOM-GULP-SEAL-V1".toUTF8.toList[25]? = some 71 := by decide +kernel
    rw [gulpSealPreimage, List.flatten_cons, List.getElem?_append_left (List.getElem?_eq_some_iff.mp letter).1, letter]
  rw [same, gulp] at event
  exact absurd event (by decide)

end

/-- What is hashed for an event names the event, what is hashed for a gulp
seal names the seal, and nothing is hashed for both. -/
theorem preimages_unambiguous :
    (∀ (room room' : Digest) (handle handle' : Handle8) (sequence sequence' : UInt64) (previous previous' : Digest)
      (draft draft' : EventDraft),
      eventPreimage room handle sequence previous draft = eventPreimage room' handle' sequence' previous' draft' ↔
        room = room' ∧ handle = handle' ∧ sequence = sequence' ∧ previous = previous' ∧ draft = draft') ∧
    (∀ (room room' head head' : Digest) (total total' gulpIndex gulpIndex' : UInt64) (tier tier' : GulpTier)
      (distilled distilled' : Digest),
      gulpSealPreimage room head total gulpIndex tier distilled =
          gulpSealPreimage room' head' total' gulpIndex' tier' distilled' ↔
        room = room' ∧ head = head' ∧ total = total' ∧ gulpIndex = gulpIndex' ∧ tier = tier' ∧
          distilled = distilled') ∧
    (∀ (room room' : Digest) (handle : Handle8) (sequence : UInt64) (previous head : Digest) (draft : EventDraft)
      (total gulpIndex : UInt64) (tier : GulpTier) (distilled : Digest),
      eventPreimage room handle sequence previous draft ≠
        gulpSealPreimage room' head total gulpIndex tier distilled) := by
  refine ⟨?_, ?_, ?_⟩
  · intros
    exact eventPreimage_inj
  · intros
    exact gulpSealPreimage_inj
  · intros
    exact eventPreimage_ne_gulpSealPreimage

end Asolaria.ReflectionRoom
