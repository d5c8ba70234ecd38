import Asolaria.LinkAuth.Link
import Asolaria.Library.Delimited
import Asolaria.Library.Hex

namespace Asolaria.LinkAuth
open Library

theorem foldl_all_true {β : Type*} (bad : β → Prop) [DecidablePred bad] (cells : List β) (start : Bool) :
    cells.foldl (fun equal i => if bad i then false else equal) start = true ↔ start = true ∧ ∀ i ∈ cells, ¬ bad i := by
  induction cells generalizing start with
  | nil => simp
  | cons i cells ih =>
    rw [List.foldl_cons, ih, List.forall_mem_cons]
    by_cases wrong : bad i
    · simp [wrong]
    · simp [wrong]

theorem hex_digits : ∀ n < 16, hex.getD n 0 = hexDigit n := by decide

theorem hmacHexMatches_iff {mac : Sha256.Digest} {text : String} :
    hmacHexMatches mac text = true ↔ utf8 text = toHex mac.toList := by
  rw [eq_toHex_iff hex_digits, Vector.length_toList]
  by_cases full : (utf8 text).length = 64
  · have loop := foldl_all_true (fun i => (utf8 text).getD (2 * i) 0 ≠ hex.getD (mac.toList.getD i 0 >>> 4).toNat 0 ∨
      (utf8 text).getD (2 * i + 1) 0 ≠ hex.getD (mac.toList.getD i 0 &&& 0x0f).toNat 0) (List.range 32) true
    simp only [List.mem_range, not_or, Decidable.not_not, true_and] at loop
    rw [hmacHexMatches, if_neg (not_not.mpr full), loop]
    exact (and_iff_right full).symm
  · rw [hmacHexMatches, if_pos full]
    simp [full]

/-- One text is the hexadecimal form of at most one MAC. -/
theorem hmacHexMatches_unique {mac mac' : Sha256.Digest} {text : String} (matched : hmacHexMatches mac text = true)
    (matched' : hmacHexMatches mac' text = true) : mac = mac' := by
  have same : toHex mac.toList = toHex mac'.toList :=
    (hmacHexMatches_iff.mp matched).symm.trans (hmacHexMatches_iff.mp matched')
  exact Vector.toList_inj.mp (toHex_inj same)

variable {req : LinkRequest} {sharedKey : List UInt8} {grantedOwnerPids : List String} {nowUnixS maxSkewS : UInt64}

/-- The four free-form fields, character by character. -/
def LinkRequest.fields (req : LinkRequest) : List (List Char) :=
  [req.ownerPid.toList, req.host.toList, req.verb.toList, req.nonce.toList]

/-- What is signed. -/
def LinkRequest.message (req : LinkRequest) : List UInt8 := req.parts.flatten

/-- No separator inside a field can change places with one between two
fields: `|` stands neither behind the first character of the owner or
before the last one of the nonce, nor in the host or the verb, which can
only be `|` itself. -/
structure LinkRequest.Unambiguous (req : LinkRequest) : Prop where
  ownerHost : Apart '|' req.ownerPid.toList req.host.toList
  hostVerb : Apart '|' req.host.toList req.verb.toList
  verbNonce : Apart '|' req.verb.toList req.nonce.toList

theorem LinkRequest.unambiguous_iff : req.Unambiguous ↔ req.fields.IsChain (Apart '|') := by
  rw [fields, List.isChain_cons_cons, List.isChain_cons_cons, List.isChain_cons_cons]
  constructor
  · rintro ⟨ownerHost, hostVerb, verbNonce⟩
    exact ⟨ownerHost, hostVerb, verbNonce, .singleton _⟩
  · rintro ⟨ownerHost, hostVerb, verbNonce, _⟩
    exact ⟨ownerHost, hostVerb, verbNonce⟩

/-- The message is the fields joined by separators, and the time behind them. -/
theorem LinkRequest.message_eq_iff {req' : LinkRequest} : req.message = req'.message ↔
    ['|'].intercalate req.fields = ['|'].intercalate req'.fields ∧ req.tsUnixS = req'.tsUnixS := by
  have layout : ∀ req : LinkRequest, req.message = utf8 ("LINK|" ++ req.ownerPid ++ "|" ++ req.host ++ "|" ++ req.verb ++
      "|" ++ req.nonce ++ "|") ++ beBytes 8 req.tsUnixS.toNat := fun req => by
    simp [message, parts]
  have joined : ∀ req : LinkRequest, ("LINK|" ++ req.ownerPid ++ "|" ++ req.host ++ "|" ++ req.verb ++
      "|" ++ req.nonce ++ "|").toList = "LINK|".toList ++ ['|'].intercalate req.fields ++ ['|'] := fun req => by
    simp [fields, List.intercalate_cons_cons, List.intercalate_singleton]
  rw [layout, layout]
  constructor
  · intro same
    obtain ⟨text, time⟩ := List.append_inj' same (by rw [length_beBytes, length_beBytes])
    have text := congrArg String.toList (utf8_inj.mp text)
    rw [joined, joined] at text
    exact ⟨List.append_cancel_left (List.append_cancel_right text), beBytes_toNat_inj.mp time⟩
  · rintro ⟨text, time⟩
    have text : "LINK|".toList ++ ['|'].intercalate req.fields ++ ['|'] =
        "LINK|".toList ++ ['|'].intercalate req'.fields ++ ['|'] := by rw [text]
    rw [← joined, ← joined, String.toList_inj] at text
    rw [text, time]

/-- Everything a request that is let through has passed. -/
structure Passed (req : LinkRequest) (sharedKey : List UInt8) (grantedOwnerPids : List String)
    (nowUnixS maxSkewS : UInt64) : Prop where
  filled : ∀ field ∈ req.fields, field ≠ []
  fresh : (if nowUnixS ≥ req.tsUnixS then nowUnixS - req.tsUnixS else req.tsUnixS - nowUnixS) ≤ maxSkewS
  granted : req.ownerPid ∈ grantedOwnerPids
  signed : hmacHexMatches (hmacSha256Parts sharedKey req.parts) req.hmacHex = true

theorem LinkRequest.fields_filled_iff : (∀ field ∈ req.fields, field ≠ []) ↔
    req.ownerPid.isEmpty = false ∧ req.host.isEmpty = false ∧ req.verb.isEmpty = false ∧ req.nonce.isEmpty = false := by
  simp [fields, String.toList_eq_nil_iff]

theorem verifyLink_allow_iff : verifyLink req sharedKey grantedOwnerPids nowUnixS maxSkewS = .allow ↔
    Passed req sharedKey grantedOwnerPids nowUnixS maxSkewS := by
  unfold verifyLink
  constructor
  · intro allowed
    split at allowed
    · cases allowed
    · next wellFormed =>
      simp only [Bool.or_eq_true, not_or, Bool.not_eq_true, and_assoc] at wellFormed
      obtain ⟨owner, host, verb, nonce, _⟩ := wellFormed
      have apart : ¬ (if nowUnixS ≥ req.tsUnixS then nowUnixS - req.tsUnixS else req.tsUnixS - nowUnixS) > maxSkewS := by
        intro stale
        rw [if_pos stale] at allowed
        cases allowed
      rw [if_neg apart] at allowed
      split at allowed
      · cases allowed
      · next granted =>
        split at allowed
        · next signed =>
          refine ⟨LinkRequest.fields_filled_iff.mpr ⟨owner, host, verb, nonce⟩, UInt64.not_lt.mp apart, ?_, signed⟩
          simpa using granted
        · cases allowed
  · rintro ⟨filled, fresh, granted, signed⟩
    obtain ⟨owner, host, verb, nonce⟩ := LinkRequest.fields_filled_iff.mp filled
    have length : (utf8 req.hmacHex).length = 64 := by rw [hmacHexMatches_iff.mp signed, length_toHex, Vector.length_toList]
    have known : grantedOwnerPids.any (· == req.ownerPid) = true := by simpa using granted
    simp [owner, host, verb, nonce, length, known, signed, UInt64.not_lt.mpr fresh]

/-- HMAC-SHA256 under this key does not collide on the messages of the two
requests. -/
def CollisionFree (sharedKey : List UInt8) (req req' : LinkRequest) : Prop :=
  hmacSha256Parts sharedKey req.parts = hmacSha256Parts sharedKey req'.parts → req.message = req'.message

/-- The five signed fields agree. -/
structure SameSigned (req req' : LinkRequest) : Prop where
  ownerPid : req.ownerPid = req'.ownerPid
  host : req.host = req'.host
  verb : req.verb = req'.verb
  nonce : req.nonce = req'.nonce
  tsUnixS : req.tsUnixS = req'.tsUnixS

theorem sameSigned_iff {req' : LinkRequest} :
    SameSigned req req' ↔ req.fields = req'.fields ∧ req.tsUnixS = req'.tsUnixS := by
  constructor
  · rintro ⟨owner, host, verb, nonce, time⟩
    exact ⟨by rw [LinkRequest.fields, LinkRequest.fields, owner, host, verb, nonce], time⟩
  · rintro ⟨fields, time⟩
    simp only [LinkRequest.fields, List.cons.injEq, String.toList_inj, and_true] at fields
    exact ⟨fields.1, fields.2.1, fields.2.2.1, fields.2.2.2, time⟩

theorem hmacSha256Parts_message {req' : LinkRequest} (same : req.message = req'.message) :
    hmacSha256Parts sharedKey req.parts = hmacSha256Parts sharedKey req'.parts := by
  unfold LinkRequest.message at same
  rw [hmacSha256Parts, hmacSha256Parts, same]

/-- A request whose separators can be moved shares its MAC with another one
that a host with its own clock and grants lets through. -/
theorem exists_other_request (passed : Passed req sharedKey grantedOwnerPids nowUnixS maxSkewS)
    (ambiguous : ¬ req.Unambiguous) : ∃ req', req'.hmacHex = req.hmacHex ∧ req.message = req'.message ∧
      Passed req' sharedKey [req'.ownerPid] req'.tsUnixS 0 ∧ ¬ SameSigned req req' := by
  rw [LinkRequest.unambiguous_iff] at ambiguous
  obtain ⟨others, count, filled, same, different⟩ := exists_other_fields passed.filled ambiguous
  obtain ⟨owner, host, verb, nonce, rfl⟩ : ∃ owner host verb nonce, others = [owner, host, verb, nonce] := by
    match others, count with
    | [owner, host, verb, nonce], _ => exact ⟨owner, host, verb, nonce, rfl⟩
  let req' : LinkRequest := ⟨.ofList owner, .ofList host, .ofList verb, .ofList nonce, req.tsUnixS, req.hmacHex⟩
  have fields : req'.fields = [owner, host, verb, nonce] := by simp [req', LinkRequest.fields]
  have message : req.message = req'.message := LinkRequest.message_eq_iff.mpr ⟨by rw [fields, same], rfl⟩
  refine ⟨req', rfl, message, ⟨by rw [fields]; exact filled, by simp, by simp, ?_⟩, ?_⟩
  · rw [← hmacSha256Parts_message message]
    exact passed.signed
  · intro agree
    exact different (by rw [(sameSigned_iff.mp agree).1, fields])

/-- A MAC determines the request it was granted for exactly where the
separators in that request cannot be moved. -/
theorem mac_determines_request_iff
    (allowed : verifyLink req sharedKey grantedOwnerPids nowUnixS maxSkewS = .allow) :
    (∀ req' grantedOwnerPids' nowUnixS' maxSkewS', req'.hmacHex = req.hmacHex →
      verifyLink req' sharedKey grantedOwnerPids' nowUnixS' maxSkewS' = .allow → CollisionFree sharedKey req req' →
        SameSigned req req') ↔ req.Unambiguous := by
  have passed := verifyLink_allow_iff.mp allowed
  constructor
  · intro determines
    by_contra ambiguous
    obtain ⟨req', mac, message, passed', different⟩ := exists_other_request passed ambiguous
    exact different (determines req' _ _ _ mac (verifyLink_allow_iff.mpr passed') fun _ => message)
  · intro plain req' grantedOwnerPids' nowUnixS' maxSkewS' mac allowed' free
    have passed' := verifyLink_allow_iff.mp allowed'
    have signed' := passed'.signed
    rw [mac] at signed'
    have message := free (hmacHexMatches_unique passed.signed signed')
    obtain ⟨joined, time⟩ := LinkRequest.message_eq_iff.mp message
    have count : req'.fields.length = req.fields.length := rfl
    have fields := fields_unique (LinkRequest.unambiguous_iff.mp plain) count passed'.filled joined
    exact sameSigned_iff.mpr ⟨fields, time⟩

def sharedSecret : List UInt8 := "shared-secret".toUTF8.data.toList

def searchRequest : LinkRequest where
  ownerPid := "OP-RAYSSA"
  host := "liris"
  verb := "search"
  nonce := "nonce-1"
  tsUnixS := 1000
  hmacHex := "8544da2451419a8c1b584accdc9f88f85a1d029fe65de26c4f3ac1e1a8d62eb4"

theorem searchRequest_determined :
    verifyLink searchRequest sharedSecret ["OP-RAYSSA"] 1000 300 = .allow ∧
    ∀ req' grantedOwnerPids' nowUnixS' maxSkewS', req'.hmacHex = searchRequest.hmacHex →
      verifyLink req' sharedSecret grantedOwnerPids' nowUnixS' maxSkewS' = .allow →
        CollisionFree sharedSecret searchRequest req' → SameSigned searchRequest req' := by
  have allowed : verifyLink searchRequest sharedSecret ["OP-RAYSSA"] 1000 300 = .allow := by decide +kernel
  refine ⟨allowed, (mac_determines_request_iff allowed).mpr ⟨?_, ?_, ?_⟩⟩
  · exact ⟨by decide, by decide⟩
  · exact ⟨by decide, by decide⟩
  · exact ⟨by decide, by decide⟩

/-- A search whose nonce starts with another verb. -/
def grantedSearch : LinkRequest where
  ownerPid := "OP-RAYSSA"
  host := "liris"
  verb := "search"
  nonce := "fabric-write|n1"
  tsUnixS := 1000
  hmacHex := "ce21aebc5480e7145739c535d24ac5a99accb61c4f9e8fdbc0764a90907b93fb"

/-- The same MAC on a request for that other verb. -/
def forgedWrite : LinkRequest where
  ownerPid := "OP-RAYSSA"
  host := "liris|search"
  verb := "fabric-write"
  nonce := "n1"
  tsUnixS := 1000
  hmacHex := "ce21aebc5480e7145739c535d24ac5a99accb61c4f9e8fdbc0764a90907b93fb"

theorem search_mac_allows_fabric_write :
    forgedWrite.hmacHex = grantedSearch.hmacHex ∧
    verifyLink grantedSearch sharedSecret ["OP-RAYSSA"] 1000 300 = .allow ∧
    verifyLink forgedWrite sharedSecret ["OP-RAYSSA"] 1000 300 = .allow ∧
    CollisionFree sharedSecret grantedSearch forgedWrite ∧ grantedSearch.verb ≠ forgedWrite.verb := by
  have granted : verifyLink grantedSearch sharedSecret ["OP-RAYSSA"] 1000 300 = .allow := by decide +kernel
  have message : grantedSearch.message = forgedWrite.message := LinkRequest.message_eq_iff.mpr ⟨by decide, rfl⟩
  have signed := (verifyLink_allow_iff.mp granted).signed
  rw [hmacSha256Parts_message message] at signed
  have forged : verifyLink forgedWrite sharedSecret ["OP-RAYSSA"] 1000 300 = .allow :=
    verifyLink_allow_iff.mpr ⟨by decide, by decide, by decide, signed⟩
  exact ⟨rfl, granted, forged, fun _ => message, by decide⟩

end Asolaria.LinkAuth
