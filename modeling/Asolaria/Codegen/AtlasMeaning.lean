import Asolaria.Codegen.Atlas

namespace Asolaria.Codegen
open Library RustTokens

section Scanning
variable {value : List Char} {cp : UInt16} {field : AtlasRow → List Char} {rows : List AtlasRow}

theorem digit_isWord (n : Nat) : ∀ c ∈ Nat.toDigits 10 n, isWord c = true := by
  intro c member
  have digit : c.isDigit = true := Nat.isDigit_of_mem_toDigits (by decide) (by decide) member
  rw [isWord, Char.isAlphanum, digit, Bool.or_true, Bool.true_or]

theorem scan_number (n : Nat) : scan .between (Nat.toDigits 10 n) = some ⟨.word (Nat.toDigits 10 n), []⟩ :=
  scan_between_word Nat.toDigits_ne_nil (digit_isWord n)

/-- The tokens of an arm. -/
def armTokens (arm : Nat × List Char) : List Token :=
  .word (Nat.toDigits 10 arm.1) :: [.mark '=', .mark '>', word "Some", .mark '('] ++
    .literal arm.2 :: [.mark ')', .mark ',']

/-- The fixed parts of an arm around its number and its value. -/
theorem scan_around {front arrow close digits : List Char} {c : Char} {before between behind : List Token}
    (begins : scan .between front = some ⟨.between, before⟩) (letters : ∀ c ∈ digits, isWord c = true)
    (filled : digits ≠ []) (other : isWord c = false) (opens : scan .between (c :: arrow) = some ⟨.literal [], between⟩)
    (plain : Plain value) (ends : scan .between close = some ⟨.between, behind⟩) :
    scan .between (front ++ digits ++ (c :: arrow) ++ value ++ ('"' :: close)) =
      some ⟨.between, before ++ (.word digits :: between ++ (.literal value :: behind))⟩ := by
  have literal : scan (.literal []) (value ++ ['"']) = some ⟨.between, [.literal value]⟩ := scan_literal plain []
  have number := scan_append (scan_between_word filled letters) (scan_word_end other opens)
  have inner := scan_append number (scan_append literal ends)
  have whole : front ++ digits ++ (c :: arrow) ++ value ++ ('"' :: close) =
      front ++ (digits ++ (c :: arrow) ++ (value ++ ['"'] ++ close)) := by
    simp only [List.append_assoc, List.cons_append, List.nil_append]
  rw [whole, scan_append begins inner]
  rfl

theorem scan_arm (plain : Plain value) :
    scan .between (armText cp value) = some ⟨.between, armTokens (cp.toNat, value)⟩ := by
  have blank : scan .between "        ".toList = some ⟨.between, []⟩ := by decide +kernel
  have arrow : scan .between (' ' :: "=> Some(\"".toList) =
      some ⟨.literal [], [.mark '=', .mark '>', word "Some", .mark '(']⟩ := by decide +kernel
  have close : scan .between "),\n".toList = some ⟨.between, [.mark ')', .mark ',']⟩ := by decide +kernel
  have opens : " => Some(\"".toList = ' ' :: "=> Some(\"".toList := by decide +kernel
  have ends : "\"),\n".toList = '"' :: "),\n".toList := by decide +kernel
  have scanned := scan_around blank (digit_isWord cp.toNat) Nat.toDigits_ne_nil (by decide) arrow plain close
  rw [← opens, ← ends] at scanned
  exact scanned

def arms (field : AtlasRow → List Char) (rows : List AtlasRow) : Arms := rows.map fun row => (row.cp.toNat, field row)

theorem scan_arms (plain : ∀ row ∈ rows, Plain (field row)) :
    scan .between (rows.flatMap fun row => armText row.cp (field row)) =
      some ⟨.between, (arms field rows).flatMap armTokens⟩ := by
  induction rows with
  | nil => rfl
  | cons row rows ih =>
    obtain ⟨here, others⟩ := List.forall_mem_cons.mp plain
    rw [List.flatMap_cons, scan_append (scan_arm here) (ih others)]
    rfl

/-- The tokens behind the arms of a function. -/
def functionFoot : List Token := [word "_", .mark '=', .mark '>', word "None", .mark ','] ++ [.mark '\x7d', .mark '\x7d']

def functionTokens (name : String) (arms : Arms) : List Token := functionHead name ++ (arms.flatMap armTokens ++ functionFoot)

/-- The text in front of the arms is scanned as it should be. -/
def Begins (name : String) : Prop :=
  scan .between ("pub const fn " ++ name ++ "(cp: u16) -> Option<&'static str> \x7b\n    match cp \x7b\n").toList =
    some ⟨.between, functionHead name⟩

theorem scan_function {name : String} (begins : Begins name) (plain : ∀ row ∈ rows, Plain (field row)) :
    scan .between (functionText name field rows) = some ⟨.between, functionTokens name (arms field rows)⟩ := by
  have foot : scan .between "        _ => None,\n    \x7d\n\x7d\n".toList = some ⟨.between, functionFoot⟩ := by decide +kernel
  rw [functionText, List.append_assoc, scan_append begins (scan_append (scan_arms plain) foot)]
  rfl

theorem begins_domain : Begins "domain_for_cp_generated" := by
  unfold Begins
  decide +kernel

theorem begins_supervisor : Begins "supervisor_for_cp_generated" := by
  unfold Begins
  decide +kernel

theorem begins_lane : Begins "lane_for_cp_generated" := by
  unfold Begins
  decide +kernel

/-- Every field can stand between quotes as it is. -/
structure AtlasRow.Quotable (row : AtlasRow) : Prop where
  domain : Plain row.domain
  supervisor : Plain row.supervisor
  lane : Plain row.lane

instance : DecidablePred AtlasRow.Quotable := fun row =>
  decidable_of_iff (Plain row.domain ∧ Plain row.supervisor ∧ Plain row.lane)
    ⟨fun ⟨domain, supervisor, lane⟩ => ⟨domain, supervisor, lane⟩, fun plain => ⟨plain.domain, plain.supervisor, plain.lane⟩⟩

theorem tokens_generated (plain : ∀ row ∈ rows, row.Quotable) : tokens (generated rows) =
    some (countHead ++ (.word (Nat.toDigits 10 rows.length) :: [.mark ';']) ++
      functionTokens "domain_for_cp_generated" (arms AtlasRow.domain rows) ++
      functionTokens "supervisor_for_cp_generated" (arms AtlasRow.supervisor rows) ++
      functionTokens "lane_for_cp_generated" (arms AtlasRow.lane rows)) := by
  have comment : scan .between
      "// AUTO-GENERATED by build.rs from atlas-canonical-1024.hbp; do not edit by hand.\n\n".toList =
        some ⟨.between, []⟩ := by decide +kernel
  have head : scan .between "pub const ATLAS_CP_COUNT_FROM_HBP: u16 = ".toList = some ⟨.between, countHead⟩ := by
    decide +kernel
  have semicolon : scan .between (';' :: ['\n', '\n']) = some ⟨.between, [.mark ';']⟩ := by decide +kernel
  have ends : ";\n\n".toList = ';' :: ['\n', '\n'] := by decide +kernel
  have count : scan (.word (Nat.toDigits 10 rows.length)) ";\n\n".toList =
      some ⟨.between, .word (Nat.toDigits 10 rows.length) :: [.mark ';']⟩ := by
    rw [ends]
    exact scan_word_end (by decide) semicolon
  have line : scan .between "\n".toList = some ⟨.between, []⟩ := by decide +kernel
  have domain := scan_function begins_domain fun row member => (plain row member).domain
  have supervisor := scan_function begins_supervisor fun row member => (plain row member).supervisor
  have lane := scan_function begins_lane fun row member => (plain row member).lane
  have constant := scan_append (scan_append (scan_append comment head) (scan_number rows.length)) count
  have first := scan_append (scan_append constant domain) line
  have second := scan_append (scan_append first supervisor) line
  have whole := tokens_eq (scan_append second lane)
  simp only [List.nil_append, List.append_nil] at whole
  exact whole

end Scanning

section Reading
variable {rest : List Token} {rows : List AtlasRow}

theorem expect_append (front rest : List Token) : expect front (front ++ rest) = some rest := by
  have starts : front.isPrefixOf (front ++ rest) = true := List.isPrefixOf_iff_prefix.mpr (List.prefix_append _ _)
  rw [expect, if_pos starts, List.drop_left]

theorem expectNumber_digits {n : Nat} (small : n < UInt16.size) (rest : List Token) :
    expectNumber (.word (Nat.toDigits 10 n) :: rest) = some (n, rest) := by
  rw [expectNumber, parseUnsigned_decimal, if_pos small, Option.map_some]

theorem expectArm_tokens {arm : Nat × List Char} (small : arm.1 < UInt16.size) (rest : List Token) :
    expectArm (armTokens arm ++ rest) = some (arm, rest) := by
  have whole : armTokens arm ++ rest = .word (Nat.toDigits 10 arm.1) ::
      ([.mark '=', .mark '>', word "Some", .mark '('] ++ (.literal arm.2 :: ([.mark ')', .mark ','] ++ rest))) := rfl
  rw [whole, expectArm, expectNumber_digits small]
  simp only [bind, Option.bind, pure]
  rw [expect_append]
  simp only [expectLiteral]
  rw [expect_append]

theorem expect_last_arm {arm : Nat × List Char} (rest : List Token) :
    expect [word "_", .mark '=', .mark '>', word "None", .mark ','] (armTokens arm ++ rest) = none := by
  have other : word "_" ≠ .word (Nat.toDigits 10 arm.1) := by
    intro same
    have digit : '_' ∈ Nat.toDigits 10 arm.1 := by
      rw [← Token.word.inj same]
      decide +kernel
    have wrong := Nat.isDigit_of_mem_toDigits (b := 10) (by decide) (by decide) digit
    cases wrong
  rw [expect, if_neg]
  rw [List.isPrefixOf_iff_prefix]
  exact fun starts => other (List.cons_prefix_cons.mp starts).1

theorem expectArms_tokens {arms : Arms} (small : ∀ arm ∈ arms, arm.1 < UInt16.size) {fuel : Nat}
    (enough : arms.length < fuel) (rest : List Token) :
    expectArms fuel (arms.flatMap armTokens ++ (functionFoot ++ rest)) = some (arms, [.mark '\x7d', .mark '\x7d'] ++ rest) := by
  induction arms generalizing fuel with
  | nil =>
    obtain ⟨fuel, rfl⟩ := Nat.exists_eq_succ_of_ne_zero (Nat.ne_of_gt enough)
    rw [List.flatMap_nil, List.nil_append, expectArms, functionFoot, List.append_assoc, expect_append]
  | cons arm arms ih =>
    obtain ⟨fuel, rfl⟩ := Nat.exists_eq_succ_of_ne_zero (Nat.ne_of_gt (Nat.lt_trans (Nat.succ_pos _) enough))
    obtain ⟨here, others⟩ := List.forall_mem_cons.mp small
    rw [List.flatMap_cons, List.append_assoc, expectArms, expect_last_arm]
    simp only [bind, Option.bind, pure]
    rw [expectArm_tokens here]
    simp only []
    rw [ih others (Nat.lt_of_succ_lt_succ enough)]

theorem length_le_tokens (arms : Arms) : arms.length ≤ (arms.flatMap armTokens).length := by
  induction arms with
  | nil => exact Nat.le_refl 0
  | cons arm arms ih =>
    have tokens : 0 < (armTokens arm).length := Nat.succ_pos _
    rw [List.flatMap_cons, List.length_append, List.length_cons]
    omega

theorem expectFunction_tokens (name : String) {arms : Arms} (small : ∀ arm ∈ arms, arm.1 < UInt16.size)
    (rest : List Token) : expectFunction name (functionTokens name arms ++ rest) = some (arms, rest) := by
  have enough : arms.length < (arms.flatMap armTokens ++ (functionFoot ++ rest)).length := by
    have foot : 0 < functionFoot.length := by decide
    have bound := length_le_tokens arms
    rw [List.length_append, List.length_append]
    omega
  rw [expectFunction, functionTokens, List.append_assoc, expect_append, List.append_assoc]
  simp only [bind, Option.bind, pure]
  rw [expectArms_tokens small enough]
  simp only []
  rw [expect_append]

theorem arms_small (field : AtlasRow → List Char) : ∀ arm ∈ arms field rows, arm.1 < UInt16.size := by
  intro arm member
  obtain ⟨row, _, rfl⟩ := List.mem_map.mp member
  exact row.cp.toNat_lt

/-- The generated text is a source file that has every row as an arm. -/
theorem readAtlasFile_generated (plain : ∀ row ∈ rows, row.Quotable) (few : rows.length < UInt16.size) :
    readAtlasFile (generated rows) =
      some ⟨rows.length, arms AtlasRow.domain rows, arms AtlasRow.supervisor rows, arms AtlasRow.lane rows⟩ := by
  have last := expectFunction_tokens "lane_for_cp_generated" (@arms_small rows AtlasRow.lane) []
  rw [List.append_nil] at last
  have semicolon : ∀ rest, expect [.mark ';'] (.mark ';' :: rest) = some rest := expect_append [.mark ';']
  rw [readAtlasFile, tokens_generated plain]
  simp only [bind, Option.bind, pure]
  rw [List.append_assoc, List.append_assoc, List.append_assoc, expect_append]
  simp only [List.cons_append, List.nil_append]
  rw [expectNumber_digits few]
  simp only []
  rw [semicolon]
  simp only []
  rw [expectFunction_tokens _ (arms_small _)]
  simp only []
  rw [expectFunction_tokens _ (arms_small _)]
  simp only []
  rw [last]
  rfl

theorem value_arms (field : AtlasRow → List Char) (cp : UInt16) :
    (arms field rows).value cp = (rows.find? (·.cp = cp)).map field := by
  induction rows with
  | nil => rfl
  | cons row rows ih =>
    rw [Arms.value, arms, List.map_cons, List.find?_cons, List.find?_cons]
    by_cases same : row.cp = cp
    · rw [decide_eq_true same, decide_eq_true (congrArg UInt16.toNat same)]
      rfl
    · rw [decide_eq_false same, decide_eq_false fun number => same (UInt16.toNat_inj.mp number)]
      exact ih

end Reading

/-- The generated functions mean the rows of the atlas: each returns the field
of the first row for a codepoint, and nothing where there is none. -/
theorem generated_means_rows {content : List Char} (plain : ∀ row ∈ atlasRows content, row.Quotable)
    (few : (atlasRows content).length < UInt16.size) :
    ∃ file, readAtlasFile (generated (atlasRows content)) = some file ∧ file.count = (atlasRows content).length ∧
      ∀ cp, file.domain.value cp = ((atlasRows content).find? (·.cp = cp)).map AtlasRow.domain ∧
        file.supervisor.value cp = ((atlasRows content).find? (·.cp = cp)).map AtlasRow.supervisor ∧
        file.lane.value cp = ((atlasRows content).find? (·.cp = cp)).map AtlasRow.lane :=
  ⟨_, readAtlasFile_generated plain few, rfl, fun cp => ⟨value_arms _ cp, value_arms _ cp, value_arms _ cp⟩⟩

/-- Two rows for one codepoint, and one whose codepoint cannot be read. -/
def smallAtlas : List Char :=
  ("#atlas\nHATLASCP|cp=300|domain=sovereignty|supervisor=gaia|lane=skeletal\r\n" ++
    "HATLASCP|cp=300|domain=other\nHATLASCP|cp=70000|domain=lost").toList

theorem generated_means_rows_small : ∃ file, readAtlasFile (generated (atlasRows smallAtlas)) = some file ∧
    file.domain.value 300 = some "sovereignty".toList ∧ file.domain.value 0 = some "lost".toList := by
  have plain : ∀ row ∈ atlasRows smallAtlas, row.Quotable := by decide +kernel
  obtain ⟨file, read, _, values⟩ := generated_means_rows plain (by decide +kernel)
  have first : (atlasRows smallAtlas).find? (·.cp = 300) =
      some ⟨300, "sovereignty".toList, "gaia".toList, "skeletal".toList⟩ := by decide +kernel
  have zero : (atlasRows smallAtlas).find? (·.cp = 0) = some ⟨0, "lost".toList, [], []⟩ := by decide +kernel
  exact ⟨file, read, (values 300).1.trans (by rw [first]; rfl), (values 0).1.trans (by rw [zero]; rfl)⟩

end Asolaria.Codegen
