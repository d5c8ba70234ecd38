import Asolaria.Crypto.Signing
import Asolaria.Library.HashChain
import Asolaria.Library.Run
import Asolaria.Library.Text
import Asolaria.Syscall.Services

namespace Asolaria.Cosign
open Library Syscall

/-- A parsed row of the cosign chain. -/
structure CosignRow where
  row : UInt64
  tsNs : UInt64
  prevSha16 : String
  kind : String
  payloadSha16 : String
  sig : Crypto.Signature
  deriving DecidableEq, Repr

/-- The text that is hashed and signed. The signature is not part of it. -/
def canonicalBytesOfRow (row : CosignRow) : String :=
  "row=" ++ toString row.row ++ "|ts=" ++ toString row.tsNs ++ "|prev=" ++ row.prevSha16 ++ "|kind=" ++ row.kind ++
    "|payload=" ++ row.payloadSha16

/-- The first eight bytes of the digest in lowercase hexadecimal. -/
def sha16Of (bytes : List UInt8) : String :=
  String.ofList (((Sha256.digest bytes).toList.take 8).flatMap fun (byte : UInt8) =>
    [Nat.digitChar (byte >>> 4).toNat, Nat.digitChar (byte &&& 0xf).toNat])

/-- The predecessor that the first row names. -/
def genesisPrevSha16 : String := "0000000000000000"

structure CosignChain where
  headSha16 : String
  nextRow : UInt64
  rows : List CosignRow
  deriving DecidableEq, Repr

/-- A row names its predecessor by the sha16 of its canonical bytes. -/
def rowFormat : ChainFormat CosignRow String where
  genesis := genesisPrevSha16
  previous := CosignRow.prevSha16
  digest row := sha16Of (utf8 (canonicalBytesOfRow row))

namespace CosignChain

def new : CosignChain where
  headSha16 := genesisPrevSha16
  nextRow := 1
  rows := []

def depth (chain : CosignChain) : UInt64 := UInt64.ofNat chain.rows.length

def head (chain : CosignChain) : String := chain.headSha16

/-- `CosignChain::append`. The signature is not looked at. -/
def append (chain : CosignChain) (row : CosignRow) : Except CosignChainErr Unit × CosignChain :=
  if row.row ≠ chain.nextRow then (.error .nonMonotonicRow, chain)
  else if row.prevSha16 ≠ chain.headSha16 then (.error .chainLinkBroken, chain)
  else if row.kind.isEmpty then (.error .kindMalformed, chain)
  else
    let canon := canonicalBytesOfRow row
    let newHead := sha16Of (utf8 canon)
    (.ok (), { headSha16 := newHead, nextRow := chain.nextRow + 1, rows := chain.rows ++ [row] })

/-- The loop of `validate_end_to_end` from the row with index `i` on. -/
def validateFrom (expectedPrev : String) (i : Nat) : List CosignRow → Except CosignChainErr Unit
  | [] => .ok ()
  | row :: rest =>
    let expectedRowNum := UInt64.ofNat i + 1
    if row.row ≠ expectedRowNum then .error .nonMonotonicRow
    else if row.prevSha16 ≠ expectedPrev then .error .chainLinkBroken
    else if row.kind.isEmpty then .error .kindMalformed
    else validateFrom (sha16Of (utf8 (canonicalBytesOfRow row))) (i + 1) rest

def validateEndToEnd (chain : CosignChain) : Except CosignChainErr Unit := validateFrom genesisPrevSha16 0 chain.rows

/-- The rows appended one by one, up to the first that is refused. -/
def appendAll (chain : CosignChain) : List CosignRow → Except CosignChainErr CosignChain
  | [] => .ok chain
  | row :: rest =>
    match chain.append row with
    | (.error error, _) => .error error
    | (.ok (), after) => after.appendAll rest

/-- The chain with one more row. -/
def extended (chain : CosignChain) (row : CosignRow) : CosignChain where
  headSha16 := rowFormat.digest row
  nextRow := chain.nextRow + 1
  rows := chain.rows ++ [row]

end CosignChain

variable {chain : CosignChain} {row : CosignRow}

/-- Everything an append can do, with the condition of each outcome. -/
inductive AppendCase (chain : CosignChain) (row : CosignRow) : Except CosignChainErr Unit × CosignChain → Prop
  | outOfOrder : row.row ≠ chain.nextRow → AppendCase chain row (.error .nonMonotonicRow, chain)
  | unlinked : row.row = chain.nextRow → row.prevSha16 ≠ chain.headSha16 →
      AppendCase chain row (.error .chainLinkBroken, chain)
  | untagged : row.row = chain.nextRow → row.prevSha16 = chain.headSha16 → row.kind.isEmpty = true →
      AppendCase chain row (.error .kindMalformed, chain)
  | accepted : row.row = chain.nextRow → row.prevSha16 = chain.headSha16 → row.kind.isEmpty = false →
      AppendCase chain row (.ok (), chain.extended row)

theorem CosignChain.append_case (chain : CosignChain) (row : CosignRow) : AppendCase chain row (chain.append row) := by
  unfold append
  by_cases numbered : row.row = chain.nextRow
  · by_cases linked : row.prevSha16 = chain.headSha16
    · by_cases untagged : row.kind.isEmpty = true
      · rw [if_neg (not_not.mpr numbered), if_neg (not_not.mpr linked), if_pos untagged]
        exact .untagged numbered linked untagged
      · rw [if_neg (not_not.mpr numbered), if_neg (not_not.mpr linked), if_neg untagged]
        exact .accepted numbered linked (Bool.not_eq_true _ ▸ untagged)
    · rw [if_neg (not_not.mpr numbered), if_pos linked]
      exact .unlinked numbered linked
  · rw [if_pos numbered]
    exact .outOfOrder numbered

/-- The walk over the stored rows and the appends agree from any chain on,
since the counter of the one is always one behind that of the other. -/
theorem CosignChain.validateFrom_eq_appendAll (rows : List CosignRow) (chain : CosignChain) (i : Nat)
    (count : chain.nextRow = UInt64.ofNat i + 1) :
    validateFrom chain.headSha16 i rows = (chain.appendAll rows).map fun _ => () := by
  induction rows generalizing chain i with
  | nil => rfl
  | cons row rest ih =>
    have step := chain.append_case row
    rw [appendAll, validateFrom, ← count]
    generalize chain.append row = outcome at step
    cases step with
    | outOfOrder other => rw [if_pos other]; rfl
    | unlinked numbered other => rw [if_neg (not_not.mpr numbered), if_pos other]; rfl
    | untagged numbered linked empty =>
      rw [if_neg (not_not.mpr numbered), if_neg (not_not.mpr linked), if_pos empty]
      rfl
    | accepted numbered linked filled =>
      rw [if_neg (not_not.mpr numbered), if_neg (not_not.mpr linked), if_neg (by simp [filled])]
      refine ih (chain.extended row) (i + 1) ?_
      rw [extended, count, UInt64.ofNat_add]
      rfl

/-- Walking over stored rows gives the result of appending them one by one
to a new chain, down to the error of the first row that is refused. -/
theorem validateEndToEnd_eq_appendAll (chain : CosignChain) :
    chain.validateEndToEnd = (CosignChain.new.appendAll chain.rows).map fun _ => () :=
  CosignChain.validateFrom_eq_appendAll chain.rows CosignChain.new 0 rfl

end Asolaria.Cosign
