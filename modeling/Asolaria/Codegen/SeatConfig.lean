import Asolaria.Boot.HwInventory
import Asolaria.Codegen.AtlasMeaning

namespace Asolaria.Codegen
open Library RustTokens

/-- A byte of a seat label. -/
def seatByte (b : UInt8) : Bool := (97 ≤ b && b ≤ 122) || (48 ≤ b && b ≤ 57) || b == 45

/-- The seat of a build, from `ASOLARIA_SEAT`. An assertion that fails ends
the build. -/
def buildSeat (env : Option String) : Option String :=
  let seat := trim (env.getD "liris")
  if seat.isEmpty then none
  else if (utf8 seat).length > 32 then none
  else if (utf8 seat).all seatByte then some seat
  else none

def rowFront : String := "ASOBTID|format=hbpish|evidence=BUILD_TIME_SEAT_CONTEXT|source=uefi|seat="

def rowRest : String :=
  "|device_identity=runtime-pci-60d|boot_identity=runtime-rtc-tsc|authority=unsealed|e=0|fire=0|json=0"

def seatRow (seat : String) : String := rowFront ++ seat ++ rowRest

/-- The text of `seat_config.rs`. -/
def seatConfig (seat : String) : List Char :=
  ("// @generated by kernel/boot/build.rs from ASOLARIA_SEAT — do not edit by hand.\n" ++
    "/// Build-seat label for this machine-specific kernel artifact (trilateral build).\n" ++
    "const BOOT_SEAT: &[u8] = b\"").toList ++ seat.toList ++
    ("\";\n/// Human/pixel projection of the build-seat boundary (seat baked in at build time).\n" ++
      "const BOOT_SEAT_ROW: &[u8] = b\"").toList ++ (seatRow seat).toList ++ "\";\n".toList

/-- The tokens in front of the bytes of a constant. -/
def bytesHead (name : String) : List Token :=
  [word "const", word name, .mark ':', .mark '&', .mark '[', word "u8", .mark ']', .mark '=', word "b"]

def expectBytes (name : String) (tokens : List Token) : Option (List Char × List Token) := do
  let rest ← expect (bytesHead name) tokens
  let (text, rest) ← expectLiteral rest
  let rest ← expect [.mark ';'] rest
  return (text, rest)

/-- The two constants of the source text as the compiler reads it. -/
def readSeatConfig (text : List Char) : Option (List Char × List Char) := do
  let rest ← tokens text
  let (seat, rest) ← expectBytes "BOOT_SEAT" rest
  let (row, rest) ← expectBytes "BOOT_SEAT_ROW" rest
  if rest.isEmpty then return (seat, row) else none

variable {env : Option String} {seat : String}

theorem buildSeat_some (built : buildSeat env = some seat) :
    seat ≠ "" ∧ (utf8 seat).length ≤ 32 ∧ (utf8 seat).all seatByte = true := by
  unfold buildSeat at built
  dsimp only at built
  split at built
  · cases built
  · next filled =>
    split at built
    · cases built
    · next short =>
      split at built
      · next bytes =>
        obtain rfl := Option.some.inj built
        exact ⟨fun empty => filled (by rw [empty]; rfl), Nat.not_lt.mp short, bytes⟩
      · cases built

/-- The labels of the kernel are those that the build accepts. -/
def seatOf (built : buildSeat env = some seat) : Boot.Seat where
  label := utf8 seat
  nonempty := fun empty => (buildSeat_some built).1 (utf8_inj.mp empty)
  short := (buildSeat_some built).2.1
  plain := by
    intro b member
    have byte := List.all_eq_true.mp (buildSeat_some built).2.2 b member
    simp only [seatByte, Bool.or_eq_true, Bool.and_eq_true, decide_eq_true_eq, beq_iff_eq, or_assoc] at byte
    exact byte

theorem byte_mem_utf8 {c : Char} {b : UInt8} (single : String.utf8EncodeChar c = [b]) (member : c ∈ seat.toList) :
    b ∈ utf8 seat := by
  rw [utf8_eq_flatMap, List.mem_flatMap]
  exact ⟨c, member, by rw [single]; exact List.mem_singleton_self b⟩

theorem plain_of_bytes (bytes : (utf8 seat).all seatByte = true) : Plain seat.toList := by
  have absent : ∀ b, seatByte b = false → b ∉ utf8 seat := by
    intro b other member
    exact Bool.false_ne_true (other.symm.trans (List.all_eq_true.mp bytes b member))
  refine fun c member => ⟨?_, ?_, ?_⟩
  · rintro rfl
    exact absent 34 (by decide) (byte_mem_utf8 (by decide) member)
  · rintro rfl
    exact absent 92 (by decide) (byte_mem_utf8 (by decide) member)
  · rintro rfl
    exact absent 13 (by decide) (byte_mem_utf8 (by decide) member)

/-- Two literals with fixed text around them. -/
theorem scan_literals {front middle close a b quoted quoted' : List Char} {before between behind : List Token}
    (begins : scan .between front = some ⟨.literal [], before⟩) (plain : Plain a) (first : quoted = '"' :: middle)
    (goes : scan .between middle = some ⟨.literal [], between⟩) (plain' : Plain b) (last : quoted' = '"' :: close)
    (ends : scan .between close = some ⟨.between, behind⟩) :
    scan .between (front ++ a ++ quoted ++ b ++ quoted') =
      some ⟨.between, before ++ ([.literal a] ++ (between ++ ([.literal b] ++ behind)))⟩ := by
  subst first last
  have whole : front ++ a ++ ('"' :: middle) ++ b ++ ('"' :: close) =
      front ++ (a ++ ['"'] ++ (middle ++ (b ++ ['"'] ++ close))) := by
    simp only [List.append_assoc, List.cons_append, List.nil_append]
  rw [whole]
  exact scan_append begins
    (scan_append (scan_literal plain []) (scan_append goes (scan_append (scan_literal plain' []) ends)))

theorem plain_append {a b : List Char} (left : Plain a) (right : Plain b) : Plain (a ++ b) :=
  List.forall_mem_append.mpr ⟨left, right⟩

theorem plain_seatRow (plain : Plain seat.toList) : Plain (seatRow seat).toList := by
  have front : Plain rowFront.toList := by decide +kernel
  have rest : Plain rowRest.toList := by decide +kernel
  rw [seatRow, String.toList_append, String.toList_append]
  exact plain_append (plain_append front plain) rest

theorem tokens_seatConfig (plain : Plain seat.toList) : tokens (seatConfig seat) =
    some (bytesHead "BOOT_SEAT" ++ ([.literal seat.toList] ++ ((.mark ';' :: bytesHead "BOOT_SEAT_ROW") ++
      ([.literal (seatRow seat).toList] ++ [.mark ';'])))) := by
  have begins : scan .between
      ("// @generated by kernel/boot/build.rs from ASOLARIA_SEAT — do not edit by hand.\n" ++
        "/// Build-seat label for this machine-specific kernel artifact (trilateral build).\n" ++
        "const BOOT_SEAT: &[u8] = b\"").toList = some ⟨.literal [], bytesHead "BOOT_SEAT"⟩ := by decide +kernel
  have goes : scan .between
      (";\n/// Human/pixel projection of the build-seat boundary (seat baked in at build time).\n" ++
        "const BOOT_SEAT_ROW: &[u8] = b\"").toList =
          some ⟨.literal [], .mark ';' :: bytesHead "BOOT_SEAT_ROW"⟩ := by decide +kernel
  have ends : scan .between ";\n".toList = some ⟨.between, [.mark ';']⟩ := by decide +kernel
  have quote : ("\";\n/// Human/pixel projection of the build-seat boundary (seat baked in at build time).\n" ++
      "const BOOT_SEAT_ROW: &[u8] = b\"").toList =
        '"' :: (";\n/// Human/pixel projection of the build-seat boundary (seat baked in at build time).\n" ++
          "const BOOT_SEAT_ROW: &[u8] = b\"").toList := by decide +kernel
  have last : "\";\n".toList = '"' :: ";\n".toList := by decide +kernel
  exact tokens_eq (scan_literals begins plain quote goes (plain_seatRow plain) last ends)

/-- The kernel is compiled with the seat that the build accepted and with its
row, byte by byte. -/
theorem seatConfig_means (built : buildSeat env = some seat) :
    readSeatConfig (seatConfig seat) = some (seat.toList, (seatRow seat).toList) ∧
      ∃ label : Boot.Seat, label.label = utf8 seat := by
  refine ⟨?_, seatOf built, rfl⟩
  have plain := plain_of_bytes (buildSeat_some built).2.2
  have semicolon : ∀ rest, expect [.mark ';'] (.mark ';' :: rest) = some rest := expect_append [.mark ';']
  rw [readSeatConfig, tokens_seatConfig plain]
  simp only [bind, Option.bind, pure, expectBytes]
  rw [expect_append]
  simp only [expectLiteral, List.cons_append, List.nil_append]
  rw [semicolon]
  simp only []
  rw [expect_append]
  simp only []
  rw [semicolon]
  rfl

theorem seatConfig_means_acer :
    readSeatConfig (seatConfig "acer") = some ("acer".toList, (seatRow "acer").toList) := by
  have built : buildSeat (some " acer\n") = some "acer" := by decide +kernel
  exact (seatConfig_means built).1

end Asolaria.Codegen
