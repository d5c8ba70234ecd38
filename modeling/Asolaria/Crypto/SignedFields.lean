import Asolaria.Crypto.Signing
import Asolaria.Library.Delimited

namespace Asolaria.Crypto
open Library

namespace EnvelopeFields

/-- The canonical bytes behind the verb: identifier, time and payload. -/
def trailer (env : EnvelopeFields) : List UInt8 := env.id ++ bar :: (beBytes 8 env.tsNs.toNat ++ bar :: env.payload)

/-- The canonical bytes of accepted fields. -/
def text (env : EnvelopeFields) : List UInt8 :=
  beBytes 8 env.fromPid.toNat ++ bar :: (beBytes 8 env.toPid.toNat ++ bar :: (env.typeTag ++ bar ::
    (env.verb ++ bar :: env.trailer)))

/-- The separators have one reading only: none of them can be taken for
another one, and nowhere behind the verb do two others stand nine bytes
apart, as those around the time do. -/
structure Unambiguous (env : EnvelopeFields) : Prop where
  typeTag : bar ∉ env.typeTag.tail
  verb : bar ∉ env.verb
  id : bar ∉ env.id.dropLast
  trailer : ∀ cut, 0 < cut → cut ≠ env.id.length → env.trailer[cut]? = some bar → env.trailer[cut + 9]? ≠ some bar

end EnvelopeFields

variable {env other : EnvelopeFields} {bytes : List UInt8}

theorem canonicalEnvelopeBytes_ok_iff :
    canonicalEnvelopeBytes env = .ok bytes ↔ env.typeTag ≠ [] ∧ env.id ≠ [] ∧ bytes = env.text := by
  have layout : beBytes 8 env.fromPid.toNat ++ [bar] ++ beBytes 8 env.toPid.toNat ++ [bar] ++ env.typeTag ++ [bar] ++
      env.verb ++ [bar] ++ env.id ++ [bar] ++ beBytes 8 env.tsNs.toNat ++ [bar] ++ env.payload = env.text := by
    simp [EnvelopeFields.text, EnvelopeFields.trailer]
  rw [canonicalEnvelopeBytes, layout]
  split
  · next empty =>
    simp only [Bool.or_eq_true, List.isEmpty_iff] at empty
    simp only [reduceCtorEq, false_iff, not_and]
    intro tagged named
    rcases empty with empty | empty
    · exact absurd empty tagged
    · exact absurd empty named
  · next filled =>
    simp only [Bool.or_eq_true, List.isEmpty_iff, not_or] at filled
    simp only [Except.ok.injEq, filled, ne_eq, not_false_eq_true, true_and]
    exact eq_comm

/-- The two process identifiers have a fixed width, so they are always read back. -/
theorem EnvelopeFields.text_eq_iff : env.text = other.text ↔ env.fromPid = other.fromPid ∧ env.toPid = other.toPid ∧
    env.typeTag ++ bar :: (env.verb ++ bar :: env.trailer) =
      other.typeTag ++ bar :: (other.verb ++ bar :: other.trailer) := by
  rw [text, text, beBytes_append_inj, List.cons_inj_right, beBytes_append_inj, List.cons_inj_right]

namespace EnvelopeFields.Unambiguous

/-- The trailer of unambiguous fields holds no other trailer with something
in front of it. -/
theorem no_inner_trailer (plain : env.Unambiguous) (named : other.id ≠ []) (w : List UInt8) :
    env.trailer ≠ w ++ bar :: other.trailer := by
  intro inner
  have cuts : env.trailer = (w ++ bar :: other.id) ++ bar :: (beBytes 8 other.tsNs.toNat ++ bar :: other.payload) := by
    rw [inner, EnvelopeFields.trailer]
    simp
  obtain ⟨left, right⟩ := getElem?_of_two_cuts cuts
  rw [length_beBytes] at right
  by_cases here : (w ++ bar :: other.id).length = env.id.length
  · have same : env.id = w ++ bar :: other.id := (List.append_inj cuts here.symm).1
    exact plain.id (mem_dropLast_of_cut same named)
  · exact plain.trailer _ (List.length_pos_of_ne_nil (by simp)) here left right

theorem trailer_inj (plain : env.Unambiguous) (named : other.id ≠ []) (same : env.trailer = other.trailer) :
    env.id = other.id ∧ env.tsNs = other.tsNs ∧ env.payload = other.payload := by
  have cuts : env.trailer = other.id ++ bar :: (beBytes 8 other.tsNs.toNat ++ bar :: other.payload) := same
  obtain ⟨left, right⟩ := getElem?_of_two_cuts cuts
  rw [length_beBytes] at right
  have length : other.id.length = env.id.length := by
    by_contra elsewhere
    exact plain.trailer _ (List.length_pos_of_ne_nil named) elsewhere left right
  obtain ⟨sameId, rest⟩ := List.append_inj cuts length.symm
  rw [List.cons_inj_right, beBytes_append_inj, List.cons_inj_right] at rest
  exact ⟨sameId, rest⟩

/-- Unambiguous fields are read back from their text. -/
theorem text_inj (plain : env.Unambiguous) (tagged : other.typeTag ≠ []) (named : other.id ≠ [])
    (same : env.text = other.text) : env = other := by
  obtain ⟨fromPid, toPid, rest⟩ := EnvelopeFields.text_eq_iff.mp same
  cases twoCuts_single rest with
  | same typeTag rest =>
    cases twoCuts_single rest with
    | same verb rest =>
      obtain ⟨id, tsNs, payload⟩ := plain.trailer_inj named rest
      exact EnvelopeFields.ext fromPid toPid typeTag verb id tsNs payload
    | later m _ rest => exact absurd (by simpa using rest) (plain.no_inner_trailer named m)
    | earlier m verb _ => exact absurd (by rw [verb]; simp) plain.verb
  | later m _ rest =>
    have rest : env.verb ++ bar :: env.trailer = m ++ bar :: (other.verb ++ bar :: other.trailer) := by simpa using rest
    cases twoCuts_single rest with
    | same _ rest => exact absurd rest (plain.no_inner_trailer named other.verb)
    | later m' _ rest => exact absurd (by rw [rest]; simp) (plain.no_inner_trailer named (m' ++ bar :: other.verb))
    | earlier m' verb _ => exact absurd (by rw [verb]; simp) plain.verb
  | earlier m typeTag _ => exact absurd (mem_tail_of_cut (by simpa using typeTag) tagged) plain.typeTag

end EnvelopeFields.Unambiguous

/-- Fields that the text alone determines are unambiguous: whichever
condition fails, a separator can be read as another one. -/
theorem EnvelopeFields.unambiguous_of_determined (tagged : env.typeTag ≠ []) (named : env.id ≠ [])
    (determined : ∀ other : EnvelopeFields, other.typeTag ≠ [] → other.id ≠ [] → env.text = other.text → env = other) :
    env.Unambiguous where
  typeTag := by
    intro inside
    obtain ⟨x, y, cut, filled⟩ := cut_of_mem_tail inside
    have same := determined { env with typeTag := x, verb := y ++ bar :: env.verb } filled named
      (by rw [text_eq_iff, cut]; simp [trailer])
    have lengths := congrArg (fun fields => fields.typeTag.length) same
    simp [cut] at lengths
  verb := by
    intro inside
    obtain ⟨x, y, cut⟩ := List.append_of_mem inside
    have same := determined { env with typeTag := env.typeTag ++ bar :: x, verb := y } (by simp) named
      (by rw [text_eq_iff, cut]; simp [trailer])
    have lengths := congrArg (fun fields => fields.typeTag.length) same
    simp at lengths
  id := by
    intro inside
    obtain ⟨x, y, cut, filled⟩ := cut_of_mem_dropLast inside
    have same := determined { env with verb := env.verb ++ bar :: x, id := y } tagged filled
      (by rw [text_eq_iff, trailer, trailer, cut]; simp)
    have lengths := congrArg (fun fields => fields.verb.length) same
    simp at lengths
  trailer := by
    intro position positive elsewhere left right
    obtain ⟨x, t, y, cut, length, width⟩ := two_cuts_of_getElem? left right
    obtain ⟨word, rfl⟩ := exists_beBytes_eq width
    have filled : x ≠ [] := List.ne_nil_of_length_pos (by omega)
    have same := determined { env with id := x, tsNs := word, payload := y } tagged filled
      (by rw [text_eq_iff]; exact ⟨rfl, rfl, by rw [cut]; rfl⟩)
    exact elsewhere (by rw [← length]; exact congrArg (fun fields => fields.id.length) same.symm)

/-- SHA-256 does not collide on the two inputs that a signature and its
check hash under this key. -/
def CollisionFree (privKey : PrivateKey) (msg msg' : List UInt8) : Prop :=
  ∀ key, derivePublic privKey = .ok key →
    Sha256.digest (signedInput key msg) = Sha256.digest (signedInput key msg') → signedInput key msg = signedInput key msg'

/-- What `verify` says of the second message and the signature made for the
first one, under the public key derived from the same private key. -/
def verifySigned (privKey : PrivateKey) (msg msg' : List UInt8) : Except CryptoErr Unit := do
  let sig ← sign msg privKey
  let key ← derivePublic privKey
  verify msg' sig key

theorem verifySigned_ok_iff {privKey : PrivateKey} {msg msg' : List UInt8} (free : CollisionFree privKey msg msg') :
    verifySigned privKey msg msg' = .ok () ↔ msg = msg' := by
  obtain ⟨key, derived⟩ : ∃ key, derivePublic privKey = .ok key := ⟨_, rfl⟩
  have unfolded : verifySigned privKey msg msg' = verify msg' ⟨expectedSigBytes key msg⟩ key := by
    simp only [verifySigned, sign, derived, bind, Except.bind, pure, Except.pure]
  rw [unfolded, verify_ok_iff, expectedSigBytes_eq_iff]
  constructor
  · intro digests
    exact List.append_cancel_left (free _ derived digests.symm)
  · rintro rfl
    rfl

/-- A signature determines the fields it was made for exactly where the
separators in them have one reading. -/
theorem signature_determines_fields_iff (accepted : canonicalEnvelopeBytes env = .ok bytes) (privKey : PrivateKey) :
    (∀ env' bytes', canonicalEnvelopeBytes env' = .ok bytes' → CollisionFree privKey bytes bytes' →
      verifySigned privKey bytes bytes' = .ok () → env = env') ↔ env.Unambiguous := by
  obtain ⟨tagged, named, rfl⟩ := canonicalEnvelopeBytes_ok_iff.mp accepted
  constructor
  · intro determines
    refine EnvelopeFields.unambiguous_of_determined tagged named fun other tagged' named' same => ?_
    have accepted' : canonicalEnvelopeBytes other = .ok env.text :=
      canonicalEnvelopeBytes_ok_iff.mpr ⟨tagged', named', same⟩
    have free : CollisionFree privKey env.text env.text := fun _ _ _ => rfl
    exact determines other env.text accepted' free ((verifySigned_ok_iff free).mpr rfl)
  · intro plain other bytes' accepted' free verified
    obtain ⟨tagged', named', rfl⟩ := canonicalEnvelopeBytes_ok_iff.mp accepted'
    exact plain.text_inj tagged' named' ((verifySigned_ok_iff free).mp verified)

def zeroKey : PrivateKey := ⟨Vector.replicate 32 0⟩

/-- The fields of the module's own test. -/
def plainFields : EnvelopeFields :=
  ⟨1, 2, "TEST_TYPE".toUTF8.data.toList, "EVT-TEST".toUTF8.data.toList, "id-0".toUTF8.data.toList, 123,
    "payload".toUTF8.data.toList⟩

theorem plainFields_determined : ∃ bytes, canonicalEnvelopeBytes plainFields = .ok bytes ∧
    ∀ env' bytes', canonicalEnvelopeBytes env' = .ok bytes' → CollisionFree zeroKey bytes bytes' →
      verifySigned zeroKey bytes bytes' = .ok () → plainFields = env' := by
  have accepted : canonicalEnvelopeBytes plainFields = .ok plainFields.text := by decide
  refine ⟨_, accepted, (signature_determines_fields_iff accepted zeroKey).mpr ⟨by decide, by decide, by decide, ?_⟩⟩
  intro cut positive elsewhere left
  have bound : cut < 21 := (List.getElem?_eq_some_iff.mp left).1
  have checked : ∀ cut < 21, 0 < cut → cut ≠ plainFields.id.length → plainFields.trailer[cut]? = some bar →
      plainFields.trailer[cut + 9]? ≠ some bar := by decide
  exact checked cut bound positive elsewhere left

/-- The verb `c` under the tag `a|b`. -/
def barInTag : EnvelopeFields := ⟨1, 2, "a|b".toUTF8.data.toList, "c".toUTF8.data.toList, "d".toUTF8.data.toList, 0, []⟩

/-- The verb `b|c` under the tag `a`. -/
def barInVerb : EnvelopeFields := ⟨1, 2, "a".toUTF8.data.toList, "b|c".toUTF8.data.toList, "d".toUTF8.data.toList, 0, []⟩

theorem one_signature_two_envelopes : ∃ bytes, canonicalEnvelopeBytes barInTag = .ok bytes ∧
    canonicalEnvelopeBytes barInVerb = .ok bytes ∧ CollisionFree zeroKey bytes bytes ∧
      verifySigned zeroKey bytes bytes = .ok () ∧ barInTag ≠ barInVerb := by
  have free : CollisionFree zeroKey barInTag.text barInTag.text := fun _ _ _ => rfl
  exact ⟨barInTag.text, by decide, by decide, free, (verifySigned_ok_iff free).mpr rfl, by decide⟩

end Asolaria.Crypto
