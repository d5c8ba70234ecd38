import Asolaria.Envelope.Fedenv
import Asolaria.Library.Hex
import Asolaria.Library.Rules

namespace Asolaria.Envelope.Fedenv
open Library

/-- The language of `[0-7](-[0-7]){n}`. -/
def OctalRow (n : Nat) (s : String) : Prop :=
  ∃ (first : UInt8) (rest : List UInt8), rest.length = n ∧ isOctalDigit first = true ∧ (∀ d ∈ rest, isOctalDigit d = true) ∧
    utf8 s = first :: rest.flatMap fun d => [45, d]

/-- The value of a row of decimal digits behind the digits that were read. -/
def decimal (acc : Nat) (digits : List UInt8) : Nat := digits.foldl (fun acc b => acc * 10 + (b.toNat - 48)) acc

/-- The text of a `u32`: decimal digits, with at most one plus sign in front. -/
def ReadsAs (s : String) (value : Nat) : Prop :=
  ∃ digits, digits ≠ [] ∧ (∀ b ∈ digits, isAsciiDigit b = true) ∧ (utf8 s = digits ∨ utf8 s = 43 :: digits) ∧
    decimal 0 digits = value ∧ value < 2 ^ 32

def Hex16 (s : String) : Prop := (utf8 s).length = 16 ∧ ∀ b ∈ utf8 s, 48 ≤ b ∧ b ≤ 57 ∨ 97 ≤ b ∧ b ≤ 102

def windowTokens : List String := [cosignWindow, cosignWindowV3, adminOverride]

/-- The kinds beside the prefixes that lead to them. -/
def routes : List (String × RouteKind) :=
  targetPrefixes.zip [.pidRouted, .cli, .citizen, .antigravity, .daemon, .google, .metaSlot]

/-- A route is the kind of the prefix that the target starts with, if any. -/
def RoutedByPrefix (target : String) (route : Option RouteKind) : Prop :=
  (∀ kind, route = some kind ↔ ∃ start, (start, kind) ∈ routes ∧ utf8 start <+: utf8 target) ∧
    (route = none ↔ ∀ start ∈ targetPrefixes, ¬ utf8 start <+: utf8 target)

namespace FedenvView
variable (env : FedenvView)

/-- The rules in front of the one on the cube. -/
def addressRules : List (Prop × RejectReason) :=
  [(∀ field ∈ env.required, field ≠ "", .malformed),
    (∃ start ∈ targetPrefixes, utf8 start <+: utf8 env.target, .unresolvableTarget),
    ((utf8 env.payload).length ≤ 65536, .payloadTooLarge)]

/-- The rules on the shape of the fields behind the cube. -/
def shapeRules : List (Prop × RejectReason) :=
  [(5 ≤ env.glyph5.length, .malformed),
    (∃ ttl, ReadsAs env.ttlSeconds ttl ∧ 1 ≤ ttl ∧ ttl ≤ 86400, .malformed),
    (Hex16 env.rowHash ∧ Hex16 env.antecedents, .malformed)]

def trustRules : List (Prop × RejectReason) :=
  [(∃ window ∈ windowTokens, utf8 window <:+: utf8 env.cosignToken, .expiredCosign),
    (∀ ts, env.ts = some ts → utf8 env.rowHash = toHex ((Sha256.digest (utf8 "FEDENV|" ++ utf8 env.callerPid ++
      utf8 env.verb ++ utf8 env.payload ++ utf8 ts)).toList.take 8), .rowHashMismatch)]

/-- The contract of an envelope, each rule with the reason of its rejection. -/
def rules : List (Prop × RejectReason) :=
  env.addressRules ++ (OctalRow 5 env.cube47d, .malformed) :: (env.shapeRules ++ env.trustRules)

/-- The checks of `validate`, in their order. -/
def addressChecks : List (Bool × RejectReason) :=
  [(!env.required.any String.isEmpty, .malformed), (targetPrefixes.any (startsWith env.target), .unresolvableTarget),
    (decide ((utf8 env.payload).length ≤ maxPayloadBytes), .payloadTooLarge)]

def shapeChecks : List (Bool × RejectReason) :=
  [(decide (5 ≤ env.glyph5.length), .malformed), (ttlOk env.ttlSeconds, .malformed),
    (isHex16 env.rowHash && isHex16 env.antecedents, .malformed)]

def rowHashOk : Bool :=
  match env.ts with
  | none => true
  | some ts => rowHashMatches ((Sha256.digest (env.hashed ts)).toList.take 8) env.rowHash

def trustChecks : List (Bool × RejectReason) :=
  [(windowTokens.any fun window => contains (utf8 window) (utf8 env.cosignToken), .expiredCosign),
    (env.rowHashOk, .rowHashMismatch)]

def checks : List (Bool × RejectReason) :=
  env.addressChecks ++ (cube47dOk env.cube47d, .malformed) :: (env.shapeChecks ++ env.trustChecks)

end FedenvView

theorem validate_eq_checkAll (env : FedenvView) : validate env = checkAll env.checks := by
  unfold validate
  apply reject_eq_checkAll (by simp)
  apply reject_eq_checkAll (by simp)
  apply reject_eq_checkAll (by simp)
  apply reject_eq_checkAll (by simp)
  apply reject_eq_checkAll (by simp)
  apply reject_eq_checkAll (by simp)
  apply reject_eq_checkAll (by simp [-Bool.and_eq_false_imp, Bool.and_eq_false_iff])
  apply reject_eq_checkAll (by simp [windowTokens, and_assoc])
  unfold FedenvView.rowHashOk
  cases env.ts with
  | none => rfl
  | some ts => exact reject_eq_checkAll (by simp) rfl

theorem not_single {piece : List UInt8} (other : ¬ ∃ d, piece = [d] ∧ isOctalDigit d = true) :
    (piece.length != 1 || !isOctalDigit (piece.headD 0)) = true := by
  by_contra passed
  rw [Bool.not_eq_true, Bool.or_eq_false_iff, bne_eq_false_iff_eq, Bool.not_eq_false'] at passed
  obtain ⟨d, rfl⟩ := List.length_eq_one_iff.mp passed.1
  exact other ⟨d, rfl, passed.2⟩

theorem cubeSegments_iff {segments : UInt32} {pieces : List (List UInt8)} : cubeSegments segments pieces = true ↔
    ∃ digits : List UInt8, pieces = digits.map (fun d => [d]) ∧ (∀ d ∈ digits, isOctalDigit d = true) ∧
      segments + UInt32.ofNat digits.length = 6 := by
  induction pieces generalizing segments with
  | nil => simp [cubeSegments]
  | cons piece pieces ih =>
    have shift (n : Nat) : segments + UInt32.ofNat (n + 1) = segments + 1 + UInt32.ofNat n := by
      rw [UInt32.ofNat_add, UInt32.add_comm (UInt32.ofNat n), ← UInt32.add_assoc]
      rfl
    rw [cubeSegments]
    by_cases digit : ∃ d, piece = [d] ∧ isOctalDigit d = true
    · obtain ⟨d, rfl, octal⟩ := digit
      rw [if_neg (by simp [octal]), ih]
      constructor
      · rintro ⟨digits, rfl, octals, count⟩
        exact ⟨d :: digits, rfl, List.forall_mem_cons.mpr ⟨octal, octals⟩, (shift digits.length).trans count⟩
      · rintro ⟨digits, same, octals, count⟩
        cases digits with
        | nil => cases same
        | cons e digits =>
          rw [List.map_cons, List.cons.injEq] at same
          exact ⟨digits, same.2, (List.forall_mem_cons.mp octals).2, (shift digits.length).symm.trans count⟩
    · rw [if_pos (not_single digit)]
      simp only [Bool.false_eq_true, false_iff]
      rintro ⟨digits, same, octals, -⟩
      cases digits with
      | nil => cases same
      | cons e digits =>
        rw [List.map_cons, List.cons.injEq] at same
        exact digit ⟨e, same.1, octals e (List.mem_cons_self ..)⟩

theorem intercalate_digits (first : UInt8) (rest : List UInt8) :
    [45].intercalate ((first :: rest).map fun d => [d]) = first :: rest.flatMap fun d => [45, d] := by
  induction rest generalizing first with
  | nil => rfl
  | cons next rest ih =>
    have behind := ih next
    rw [List.map_cons] at behind
    rw [List.map_cons, List.map_cons, List.intercalate_cons_cons, behind]
    rfl

theorem not_hyphen {d : UInt8} (octal : isOctalDigit d = true) : (45 : UInt8) ≠ d := by
  rintro rfl
  cases octal

theorem cube47dOk_iff {s : String} : cube47dOk s = true ↔ ∃ n, OctalRow n s ∧ (n + 1) % 2 ^ 32 = 6 := by
  have six (n : Nat) : 0 + UInt32.ofNat n = 6 ↔ n % 2 ^ 32 = 6 := by
    rw [UInt32.zero_add, ← UInt32.toNat_inj, UInt32.toNat_ofNat']
    rfl
  rw [cube47dOk, cubeSegments_iff]
  constructor
  · rintro ⟨digits, split, octals, count⟩
    have joined := congrArg ([45].intercalate ·) split
    rw [List.intercalate_splitOn] at joined
    cases digits with
    | nil => exact absurd split (List.splitOn_ne_nil _ _)
    | cons first rest =>
      rw [intercalate_digits] at joined
      obtain ⟨octal, octals⟩ := List.forall_mem_cons.mp octals
      exact ⟨rest.length, ⟨first, rest, rfl, octal, octals, joined⟩, (six _).mp count⟩
  · rintro ⟨n, ⟨first, rest, length, octal, octals, joined⟩, count⟩
    have all : ∀ d ∈ first :: rest, isOctalDigit d = true := List.forall_mem_cons.mpr ⟨octal, octals⟩
    refine ⟨first :: rest, ?_, all, (six _).mpr (by rw [List.length_cons, length, count])⟩
    rw [joined, ← intercalate_digits]
    apply List.splitOn_intercalate
    · intro piece member hyphen
      obtain ⟨d, digit, rfl⟩ := List.mem_map.mp member
      exact not_hyphen (all d digit) (List.mem_singleton.mp hyphen)
    · simp

theorem OctalRow.length {n : Nat} {s : String} (row : OctalRow n s) : (utf8 s).length = 2 * n + 1 := by
  obtain ⟨first, rest, rfl, -, -, joined⟩ := row
  rw [joined, List.length_cons]
  simp [List.length_flatMap, Nat.mul_comm]

/-- A row of octal digits that is too long by a multiple of 2^32. -/
def LongCube (s : String) : Prop := ∃ n > 5, OctalRow n s ∧ (n + 1) % 2 ^ 32 = 6

theorem cube47dOk_iff_or {s : String} : cube47dOk s = true ↔ OctalRow 5 s ∨ LongCube s := by
  rw [cube47dOk_iff]
  constructor
  · rintro ⟨n, row, count⟩
    by_cases more : n > 5
    · exact .inr ⟨n, more, row, count⟩
    · have five : n = 5 := by omega
      exact .inl (five ▸ row)
  · rintro (row | ⟨n, -, row, count⟩)
    · exact ⟨5, row, rfl⟩
    · exact ⟨n, row, count⟩

theorem LongCube.not_row {s : String} (long : LongCube s) : ¬ OctalRow 5 s := by
  obtain ⟨n, more, row, -⟩ := long
  intro five
  have length := row.length
  have short := five.length
  omega

theorem le_decimal (acc : Nat) (digits : List UInt8) : acc ≤ decimal acc digits := by
  induction digits generalizing acc with
  | nil => exact le_rfl
  | cons b digits ih =>
    have further : acc * 10 + (b.toNat - 48) ≤ decimal acc (b :: digits) := ih _
    omega

theorem parseDigits_iff {acc value : Nat} {digits : List UInt8} (small : acc < 2 ^ 32) :
    parseDigits acc digits = some value ↔
      (∀ b ∈ digits, isAsciiDigit b = true) ∧ decimal acc digits = value ∧ value < 2 ^ 32 := by
  induction digits generalizing acc with
  | nil =>
    rw [parseDigits, Option.some.injEq]
    constructor
    · rintro rfl
      exact ⟨by simp, rfl, small⟩
    · exact fun read => read.2.1
  | cons b digits ih =>
    have further : decimal acc (b :: digits) = decimal (acc * 10 + (b.toNat - 48)) digits := rfl
    rw [parseDigits, List.forall_mem_cons, further]
    by_cases digit : isAsciiDigit b = true
    · rw [if_pos digit]
      by_cases fits : acc * 10 + (b.toNat - 48) < 2 ^ 32
      · rw [if_pos fits, ih fits, and_iff_right digit]
      · rw [if_neg fits]
        have above := le_decimal (acc * 10 + (b.toNat - 48)) digits
        refine iff_of_false (by simp) ?_
        rintro ⟨-, rfl, bound⟩
        omega
    · rw [if_neg digit]
      exact iff_of_false (by simp) fun read => digit read.1.1

theorem not_plus {b : UInt8} (digit : isAsciiDigit b = true) : b ≠ 43 := by
  rintro rfl
  cases digit

theorem parseU32_signed {s : String} {next : UInt8} {rest : List UInt8} (text : utf8 s = 43 :: next :: rest) :
    parseU32 s = parseDigits 0 (next :: rest) := by
  rw [parseU32, text]
  rfl

theorem parseU32_plain {s : String} {first : UInt8} {rest : List UInt8} (text : utf8 s = first :: rest)
    (unsigned : first ≠ 43) : parseU32 s = parseDigits 0 (first :: rest) := by
  simp only [parseU32, text]
  by_cases lone : (rest.isEmpty && (first == 43 || first == 45)) = true
  · obtain ⟨rfl, rfl⟩ : rest = [] ∧ first = 45 := by simpa [unsigned] using lone
    rfl
  · rw [if_neg lone, if_neg (by simpa using unsigned)]

theorem parseU32_iff {s : String} {value : Nat} : parseU32 s = some value ↔ ReadsAs s value := by
  unfold ReadsAs
  cases text : utf8 s with
  | nil => simp [parseU32, text]
  | cons first rest =>
    by_cases plus : first = 43
    · subst plus
      cases rest with
      | nil =>
        refine iff_of_false (by simp [parseU32, text]) ?_
        rintro ⟨digits, proper, all, rfl | signed, -⟩
        · exact not_plus (all 43 (by simp)) rfl
        · exact proper (List.cons.inj signed).2.symm
      | cons next rest =>
        rw [parseU32_signed text, parseDigits_iff (by decide)]
        constructor
        · intro read
          exact ⟨next :: rest, by simp, read.1, .inr rfl, read.2⟩
        · rintro ⟨digits, -, all, rfl | signed, read⟩
          · exact absurd rfl (not_plus (all 43 (by simp)))
          · cases signed
            exact ⟨all, read⟩
    · rw [parseU32_plain text plus, parseDigits_iff (by decide)]
      constructor
      · intro read
        exact ⟨first :: rest, by simp, read.1, .inl rfl, read.2⟩
      · rintro ⟨digits, -, all, rfl | signed, read⟩
        · exact ⟨all, read⟩
        · exact absurd (List.cons.inj signed).1 plus

theorem ttlOk_iff {s : String} : ttlOk s = true ↔ ∃ ttl, ReadsAs s ttl ∧ 1 ≤ ttl ∧ ttl ≤ 86400 := by
  unfold ttlOk
  simp only [← parseU32_iff]
  cases parseU32 s with
  | none => simp
  | some ttl => simp

theorem isHex16_iff {s : String} : isHex16 s = true ↔ Hex16 s := by
  simp [isHex16, Hex16]

theorem hexTable_digits : ∀ n < 16, hexTable.getD n 0 = hexDigit n := by decide

theorem rowHashMatches_iff {first8 : List UInt8} {s : String} (eight : first8.length = 8) :
    rowHashMatches first8 s = true ↔ utf8 s = toHex first8 := by
  rw [eq_toHex_iff hexTable_digits, eight]
  unfold rowHashMatches
  by_cases full : (utf8 s).length = 16
  · rw [if_neg (by omega), and_iff_right full, List.all_eq_true]
    simp only [List.mem_range, Bool.and_eq_true, beq_iff_eq]
  · rw [if_pos (.inl full)]
    exact iff_of_false (by simp) fun matched => full matched.1

theorem startsWith_iff {s start : String} : startsWith s start = true ↔ utf8 start <+: utf8 s :=
  List.isPrefixOf_iff_prefix

theorem resolveTarget_eq (target : String) :
    resolveTarget target = (routes.find? fun route => startsWith target route.1).map Prod.snd := by
  unfold resolveTarget routes
  simp only [targetPrefixes, List.zip_cons_cons, List.zip_nil_right, List.find?_cons, List.find?_nil]
  grind

/-- No prefix starts with another one. -/
theorem route_unique {target : String} {route other : String × RouteKind} (member : route ∈ routes) (also : other ∈ routes)
    (starts : utf8 route.1 <+: utf8 target) (starts' : utf8 other.1 <+: utf8 target) : route = other := by
  have checked : ∀ a ∈ routes, ∀ b ∈ routes, utf8 a.1 <+: utf8 b.1 → a = b := by decide
  rcases List.prefix_or_prefix_of_prefix starts starts' with inner | inner
  · exact checked route member other also inner
  · exact (checked other also route member inner).symm

theorem exists_route {start : String} (known : start ∈ targetPrefixes) : ∃ kind, (start, kind) ∈ routes := by
  have names : routes.map Prod.fst = targetPrefixes := by decide
  rw [← names] at known
  obtain ⟨⟨start, kind⟩, member, rfl⟩ := List.mem_map.mp known
  exact ⟨kind, member⟩

theorem route_known {start : String} {kind : RouteKind} (member : (start, kind) ∈ routes) : start ∈ targetPrefixes :=
  (List.of_mem_zip member).1

theorem resolveTarget_routed (target : String) : RoutedByPrefix target (resolveTarget target) := by
  rw [resolveTarget_eq]
  cases found : routes.find? fun route => startsWith target route.1 with
  | none =>
    have absent := List.find?_eq_none.mp found
    have unknown : ∀ start ∈ targetPrefixes, ¬ utf8 start <+: utf8 target := by
      intro start known starts
      obtain ⟨kind, member⟩ := exists_route known
      exact absent _ member (startsWith_iff.mpr starts)
    refine ⟨fun kind => iff_of_false (by simp) ?_, iff_of_true rfl unknown⟩
    rintro ⟨start, member, starts⟩
    exact unknown start (route_known member) starts
  | some route =>
    have member := List.mem_of_find?_eq_some found
    have passed := List.find?_some found
    have starts := startsWith_iff.mp passed
    refine ⟨fun kind => ?_, iff_of_false (by simp) fun unknown => unknown route.1 (route_known member) starts⟩
    constructor
    · rintro ⟨⟩
      exact ⟨route.1, member, starts⟩
    · rintro ⟨start, also, starts'⟩
      rw [route_unique member also starts starts']
      rfl

section Contract
variable (env : FedenvView)

/-- The rules that `validate` checks: those of the contract, with its own test
of the cube. -/
def FedenvView.checkedRules : List (Prop × RejectReason) :=
  env.addressRules ++ (cube47dOk env.cube47d = true, .malformed) :: (env.shapeRules ++ env.trustRules)

theorem rowHashOk_iff : env.rowHashOk = true ↔ ∀ ts, env.ts = some ts → utf8 env.rowHash =
    toHex ((Sha256.digest (env.hashed ts)).toList.take 8) := by
  unfold FedenvView.rowHashOk
  cases env.ts with
  | none => simp
  | some ts =>
    simp only [Option.some.injEq, forall_eq']
    exact rowHashMatches_iff (by simp)

theorem validate_verdict : Verdict env.checkedRules (validate env) := by
  rw [validate_eq_checkAll]
  apply checkAll_verdict
  apply List.Forall₂.cons ⟨by simp, rfl⟩
  apply List.Forall₂.cons ⟨by simp [startsWith_iff], rfl⟩
  apply List.Forall₂.cons ⟨decide_eq_true_iff, rfl⟩
  apply List.Forall₂.cons ⟨Iff.rfl, rfl⟩
  apply List.Forall₂.cons ⟨decide_eq_true_iff, rfl⟩
  apply List.Forall₂.cons ⟨ttlOk_iff, rfl⟩
  apply List.Forall₂.cons ⟨by simp [isHex16_iff], rfl⟩
  apply List.Forall₂.cons ⟨by simp [contains_iff], rfl⟩
  apply List.Forall₂.cons ⟨rowHashOk_iff env, rfl⟩
  exact List.Forall₂.nil

theorem checkedRules_eq (short : ¬ LongCube env.cube47d) : env.checkedRules = env.rules := by
  have same : (cube47dOk env.cube47d = true) = OctalRow 5 env.cube47d := by
    rw [cube47dOk_iff_or, or_iff_left short]
  rw [FedenvView.checkedRules, same, FedenvView.rules]

theorem shapeRules_reason {rule : Prop × RejectReason} (member : rule ∈ env.shapeRules) : rule.2 = .malformed := by
  simp only [FedenvView.shapeRules, List.mem_cons, List.not_mem_nil, or_false] at member
  rcases member with rfl | rfl | rfl
  · rfl
  · rfl
  · rfl

theorem trustRules_reason {rule : Prop × RejectReason} (member : rule ∈ env.trustRules) : rule.2 ≠ .malformed := by
  simp only [FedenvView.trustRules, List.mem_cons, List.not_mem_nil, or_false] at member
  rcases member with rfl | rfl
  · simp
  · simp

/-- With the cube let through, only a violated shape makes the envelope malformed. -/
theorem malformed_iff {result : Except RejectReason Unit} (verdict : Verdict (env.shapeRules ++ env.trustRules) result) :
    result = .error .malformed ↔ ¬ AllHold env.shapeRules := by
  rcases verdict_append_iff.mp verdict with ⟨kept, later⟩ | ⟨broken, shape⟩
  · refine iff_of_false ?_ (not_not.mpr kept)
    rintro rfl
    obtain ⟨rule, member, -, reason⟩ := later.error_mem
    exact trustRules_reason env member reason
  · refine iff_of_true ?_ broken
    cases result with
    | ok done => exact absurd (shape.ok_iff.mp rfl) broken
    | error reason =>
      obtain ⟨rule, member, -, named⟩ := shape.error_mem
      rw [← named, shapeRules_reason env member]

theorem verdict_iff : Verdict env.rules (validate env) ↔
    ¬ (LongCube env.cube47d ∧ AllHold env.addressRules ∧ AllHold env.shapeRules) := by
  have checked := validate_verdict env
  by_cases long : LongCube env.cube47d
  · have cube : cube47dOk env.cube47d = true := cube47dOk_iff_or.mpr (.inr long)
    rw [and_iff_right long, FedenvView.rules, verdict_append_iff, verdict_cons_iff]
    rw [FedenvView.checkedRules, verdict_append_iff, verdict_cons_iff] at checked
    by_cases address : AllHold env.addressRules
    · have later : Verdict (env.shapeRules ++ env.trustRules) (validate env) := by
        simpa [address, cube] using checked
      have shape := malformed_iff env later
      simpa [address, long.not_row] using shape
    · simpa [address] using checked
  · rw [checkedRules_eq env long] at checked
    exact iff_of_true checked fun broken => long broken.1

theorem accepted_routed (accepted : validate env = .ok ()) : (resolveTarget env.target).isSome = true := by
  have kept := (validate_verdict env).ok_iff.mp accepted
  obtain ⟨start, known, starts⟩ := kept (∃ start ∈ targetPrefixes, utf8 start <+: utf8 env.target, .unresolvableTarget)
    (by simp [FedenvView.checkedRules, FedenvView.addressRules])
  cases resolved : resolveTarget env.target with
  | none => exact absurd starts ((resolveTarget_routed env.target).2.mp resolved start known)
  | some kind => rfl

/-- `validate` gives the verdict of the contract unless the cube is a row of
octal digits that is too long by a multiple of 2^32 and nothing else is wrong
with the envelope up to its shape. -/
theorem validate_contract_iff :
    (Verdict env.rules (validate env) ∧ (validate env = .ok () → (resolveTarget env.target).isSome = true) ∧
      ∀ target, RoutedByPrefix target (resolveTarget target)) ↔
    ¬ (LongCube env.cube47d ∧ AllHold env.addressRules ∧ AllHold env.shapeRules) := by
  rw [verdict_iff]
  exact and_iff_left ⟨accepted_routed env, resolveTarget_routed⟩

end Contract

/-- The digit 1 and, `n` times, a hyphen and another 1. -/
def cubeText : Nat → String
  | 0 => "1"
  | n + 1 => cubeText n ++ "-1"

theorem cubeText_row (n : Nat) : OctalRow n (cubeText n) := by
  refine ⟨49, List.replicate n 49, List.length_replicate, rfl, ?_, ?_⟩
  · intro d member
    rw [List.eq_of_mem_replicate member]
    rfl
  · induction n with
    | zero => rfl
    | succ n ih =>
      rw [cubeText, utf8_append, ih, List.replicate_succ', List.flatMap_append]
      rfl

def longEnvelope (n : Nat) : FedenvView where
  callerPid := "AGT-ACER-HRM-HABCDEF012345"
  target := "cli:engineering:opencode/big-pickle"
  verb := "EVT-DISPATCH"
  payload := "hello world"
  backAddress := "pid:H740C"
  cube47d := cubeText n
  glyph5 := "ABCDE"
  cosignToken := "tok|FOUNDATION-V3-LAW-EXTENDED-4MO"
  ttlSeconds := "300"
  antecedents := "0000000000000000"
  rowHash := "0123456789abcdef"
  ts := none

theorem cubeText_ne_empty (n : Nat) : cubeText n ≠ "" := by
  intro empty
  have length := (cubeText_row n).length
  rw [empty] at length
  simp [utf8] at length

theorem longEnvelope_accepted {n : Nat} (count : (n + 1) % 2 ^ 32 = 6) : validate (longEnvelope n) = .ok () := by
  have cube : cube47dOk (longEnvelope n).cube47d = true := cube47dOk_iff.mpr ⟨n, cubeText_row n, count⟩
  have filled : (longEnvelope n).required.any String.isEmpty = false := by
    simp [FedenvView.required, longEnvelope, cubeText_ne_empty]
  have others : targetPrefixes.any (startsWith "cli:engineering:opencode/big-pickle") = true ∧
      ¬ (utf8 "hello world").length > maxPayloadBytes ∧ ¬ "ABCDE".length < 5 ∧ ttlOk "300" = true ∧
      isHex16 "0123456789abcdef" = true ∧ isHex16 "0000000000000000" = true ∧
      contains (utf8 cosignWindowV3) (utf8 "tok|FOUNDATION-V3-LAW-EXTENDED-4MO") = true := by decide +kernel
  rw [validate, filled, cube]
  simp [longEnvelope, others]

/-- 2^32 + 6 octal digits are counted as six. -/
theorem long_cube_accepted : ¬ (Verdict (longEnvelope (2 ^ 32 + 5)).rules (validate (longEnvelope (2 ^ 32 + 5))) ∧
    (validate (longEnvelope (2 ^ 32 + 5)) = .ok () → (resolveTarget (longEnvelope (2 ^ 32 + 5)).target).isSome = true) ∧
    ∀ target, RoutedByPrefix target (resolveTarget target)) := by
  rintro ⟨verdict, -⟩
  have accepted : validate (longEnvelope (2 ^ 32 + 5)) = .ok () := longEnvelope_accepted (by decide)
  have kept := verdict.ok_iff.mp accepted
  have five : OctalRow 5 (cubeText (2 ^ 32 + 5)) :=
    kept (OctalRow 5 (cubeText (2 ^ 32 + 5)), .malformed) (List.mem_append_right _ (List.mem_cons_self ..))
  have length := (cubeText_row (2 ^ 32 + 5)).length
  rw [five.length] at length
  omega

end Asolaria.Envelope.Fedenv
