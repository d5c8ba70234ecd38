import Asolaria.Library.Sha256

namespace Asolaria.Crypto
open Library

abbrev signatureLen : Nat := 64

abbrev publicKeyLen : Nat := 32

abbrev privateKeyLen : Nat := 32

/-- The errors of `CryptoErr`. -/
inductive CryptoErr
  | signatureInvalid
  | verificationFailed
  | keyMalformed
  | canonicalizationFailed
  | unimplemented
  deriving DecidableEq, Repr

structure Signature where
  bytes : Vector UInt8 signatureLen
  deriving DecidableEq, Repr

structure PublicKey where
  bytes : Vector UInt8 publicKeyLen
  deriving DecidableEq, Repr

structure PrivateKey where
  bytes : Vector UInt8 privateKeyLen
  deriving DecidableEq, Repr

/-- The arguments of `canonical_envelope_bytes`. -/
@[ext] structure EnvelopeFields where
  fromPid : UInt64
  toPid : UInt64
  typeTag : List UInt8
  verb : List UInt8
  id : List UInt8
  tsNs : UInt64
  payload : List UInt8
  deriving DecidableEq, Repr

/-- The separator `b'|'`. -/
def bar : UInt8 := 0x7c

def canonicalEnvelopeBytes (env : EnvelopeFields) : Except CryptoErr (List UInt8) :=
  if env.typeTag.isEmpty || env.id.isEmpty then .error .canonicalizationFailed
  else
    .ok (beBytes 8 env.fromPid.toNat ++ [bar] ++ beBytes 8 env.toPid.toNat ++ [bar] ++ env.typeTag ++ [bar] ++
      env.verb ++ [bar] ++ env.id ++ [bar] ++ beBytes 8 env.tsNs.toNat ++ [bar] ++ env.payload)

/-- What the first half of a signature is the digest of. -/
def signedInput (key : PublicKey) (msg : List UInt8) : List UInt8 :=
  key.bytes.toList ++ ":sign:".toUTF8.data.toList ++ msg

/-- The digest of the key and the message, and then the digest of that. -/
def expectedSigBytes (key : PublicKey) (msg : List UInt8) : Vector UInt8 signatureLen :=
  let halfA := Sha256.digest (signedInput key msg)
  let halfB := Sha256.digest halfA.toList
  (halfA ++ halfB).cast rfl

/-- The comparison that folds every byte into one accumulator. -/
def ctEq (a b : Vector UInt8 signatureLen) : Bool :=
  (a.toList.zip b.toList).foldl (fun acc pair => acc ||| (pair.1 ^^^ pair.2)) 0 == 0

def derivePublic (secret : PrivateKey) : Except CryptoErr PublicKey :=
  .ok ⟨Sha256.digest (secret.bytes.toList ++ ":derive:".toUTF8.data.toList)⟩

def sign (canonicalBytes : List UInt8) (privKey : PrivateKey) : Except CryptoErr Signature := do
  let key ← derivePublic privKey
  return ⟨expectedSigBytes key canonicalBytes⟩

def verify (canonicalBytes : List UInt8) (sig : Signature) (pubKey : PublicKey) : Except CryptoErr Unit :=
  if ctEq (expectedSigBytes pubKey canonicalBytes) sig.bytes then .ok () else .error .verificationFailed

theorem foldl_xor_eq_zero {pairs : List (UInt8 × UInt8)} {acc : UInt8} :
    pairs.foldl (fun acc pair => acc ||| (pair.1 ^^^ pair.2)) acc = 0 ↔ acc = 0 ∧ ∀ pair ∈ pairs, pair.1 = pair.2 := by
  induction pairs generalizing acc with
  | nil => simp
  | cons pair pairs ih =>
    rw [List.foldl_cons, ih, UInt8.or_eq_zero_iff, UInt8.xor_eq_zero_iff, List.forall_mem_cons, and_assoc]

/-- The accumulator stays zero exactly where every byte agrees. -/
theorem ctEq_iff {a b : Vector UInt8 signatureLen} : ctEq a b = true ↔ a = b := by
  rw [ctEq, beq_iff_eq, foldl_xor_eq_zero, ← Vector.toList_inj]
  have lengths : a.toList.length = b.toList.length := by simp
  constructor
  · rintro ⟨_, agree⟩
    apply List.ext_getElem lengths
    intro i inA inB
    have paired : (a.toList[i], b.toList[i]) ∈ a.toList.zip b.toList := by
      have bound : i < (a.toList.zip b.toList).length := by
        rw [List.length_zip]
        omega
      rw [← List.getElem_zip (h := bound)]
      exact List.getElem_mem bound
    exact agree _ paired
  · intro same
    refine ⟨rfl, fun pair member => ?_⟩
    rw [same] at member
    obtain ⟨i, bound, rfl⟩ := List.mem_iff_getElem.mp member
    rw [List.getElem_zip]

/-- A signature verifies exactly where the digests of its two inputs agree;
the second half of it adds nothing. -/
theorem expectedSigBytes_eq_iff {key : PublicKey} {msg msg' : List UInt8} :
    expectedSigBytes key msg = expectedSigBytes key msg' ↔
      Sha256.digest (signedInput key msg) = Sha256.digest (signedInput key msg') := by
  constructor
  · intro same
    have halves := congrArg Vector.toList same
    simp only [expectedSigBytes, Vector.toList_cast, Vector.toList_append] at halves
    exact Vector.toList_inj.mp (List.append_inj halves (by rw [Vector.length_toList, Vector.length_toList])).1
  · intro same
    rw [expectedSigBytes, expectedSigBytes, same]

theorem verify_ok_iff {msg : List UInt8} {sig : Signature} {key : PublicKey} :
    verify msg sig key = .ok () ↔ expectedSigBytes key msg = sig.bytes := by
  rw [verify, ← ctEq_iff]
  split
  · next equal => simp only [equal]
  · next different => simp only [different, reduceCtorEq, Bool.false_eq_true]

end Asolaria.Crypto
