import Asolaria.Atlas.Tables
import Asolaria.Codegen.AtlasMeaning

namespace Asolaria.Codegen
open Library Atlas

/-- How the rows of an atlas file write what the tables of the kernel return. -/
structure AtlasNames where
  domain : AtlasDomain → List Char
  supervisor : AtlasSupervisor → List Char
  lane : AtlasLane → List Char

/-- The generated functions return what those of the kernel do. -/
def AtlasFile.Agrees (file : AtlasFile) (names : AtlasNames) : Prop :=
  ∀ cp, file.domain.value cp = (domainForCp cp).map names.domain ∧
    file.supervisor.value cp = (supervisorForCp cp).map names.supervisor ∧
    file.lane.value cp = (laneForCp cp).map names.lane

/-- A row has the fields that the kernel has for its codepoint. -/
def AtlasRow.Canonical (names : AtlasNames) (row : AtlasRow) : Prop :=
  (domainForCp row.cp).map names.domain = some row.domain ∧
    (supervisorForCp row.cp).map names.supervisor = some row.supervisor ∧
    (laneForCp row.cp).map names.lane = some row.lane

/-- The first row for its codepoint. -/
def AtlasRow.IsFirst (rows : List AtlasRow) (row : AtlasRow) : Prop := rows.find? (·.cp = row.cp) = some row

/-- The file has a row for every codepoint, and where two rows are for the same
one the first of them is right. -/
structure CanonicalRows (names : AtlasNames) (rows : List AtlasRow) : Prop where
  complete : ∀ cp, isValidCp cp → ∃ row ∈ rows, row.cp = cp
  canonical : ∀ row ∈ rows, row.IsFirst rows → row.Canonical names

variable {names : AtlasNames} {rows : List AtlasRow} {cp : UInt16}

/-- The codepoint of a row that is found is the one that was looked for. -/
theorem isFirst_of_find {row : AtlasRow} (found : rows.find? (·.cp = cp) = some row) : row.cp = cp ∧ row.IsFirst rows := by
  have same : row.cp = cp := of_decide_eq_true (List.find?_some (p := fun row : AtlasRow => decide (row.cp = cp)) found)
  exact ⟨same, by rw [AtlasRow.IsFirst, same, found]⟩

theorem tables_absent (invalid : ¬ isValidCp cp) :
    domainForCp cp = none ∧ supervisorForCp cp = none ∧ laneForCp cp = none := by
  have absent : domainForCp cp = none := by
    rw [← Option.not_isSome_iff_eq_none, domainForCp_isSome_iff]
    exact invalid
  rw [supervisorForCp_eq, laneForCp_eq, absent]
  exact ⟨rfl, rfl, rfl⟩

/-- The generated functions do not drift from those of the kernel exactly if
the rows are canonical. -/
theorem generated_agrees_iff (names : AtlasNames) (plain : ∀ row ∈ rows, row.Quotable) (few : rows.length < UInt16.size) :
    ∃ file, readAtlasFile (generated rows) = some file ∧ (file.Agrees names ↔ CanonicalRows names rows) := by
  refine ⟨_, readAtlasFile_generated plain few, ?_⟩
  simp only [AtlasFile.Agrees, value_arms]
  constructor
  · intro agrees
    refine ⟨fun cp valid => ?_, fun row _ first => ?_⟩
    · obtain ⟨domain, known⟩ := Option.isSome_iff_exists.mp (domainForCp_isSome_iff.mpr valid)
      have present := (agrees cp).1
      rw [known, Option.map_some] at present
      obtain ⟨row, found, _⟩ := Option.map_eq_some_iff.mp present
      exact ⟨row, List.mem_of_find?_eq_some found, (isFirst_of_find found).1⟩
    · have here := agrees row.cp
      rw [show rows.find? (·.cp = row.cp) = some row from first] at here
      exact ⟨here.1.symm, here.2.1.symm, here.2.2.symm⟩
  · rintro ⟨complete, canonical⟩ cp
    cases found : rows.find? (·.cp = cp) with
    | none =>
      have invalid : ¬ isValidCp cp := by
        intro valid
        obtain ⟨row, member, same⟩ := complete cp valid
        exact List.find?_eq_none.mp found row member (decide_eq_true same)
      obtain ⟨noDomain, noSupervisor, noLane⟩ := tables_absent invalid
      rw [noDomain, noSupervisor, noLane]
      exact ⟨rfl, rfl, rfl⟩
    | some row =>
      obtain ⟨rfl, first⟩ := isFirst_of_find found
      obtain ⟨domain, supervisor, lane⟩ := canonical row (List.mem_of_find?_eq_some found) first
      rw [domain, supervisor, lane]
      exact ⟨rfl, rfl, rfl⟩

/-- One row for the first codepoint, in a file where all names are blank. -/
def blankNames : AtlasNames := ⟨fun _ => [], fun _ => [], fun _ => []⟩

def loneRow : List AtlasRow := [⟨0, [], [], []⟩]

theorem generated_agrees_iff_lone : ∃ file, readAtlasFile (generated loneRow) = some file ∧ ¬ file.Agrees blankNames := by
  have plain : ∀ row ∈ loneRow, row.Quotable := by decide
  obtain ⟨file, read, agrees⟩ := generated_agrees_iff blankNames plain (by decide)
  refine ⟨file, read, fun same => ?_⟩
  obtain ⟨row, member, one⟩ := (agrees.mp same).complete 1 (by decide)
  rw [List.mem_singleton.mp member] at one
  cases one

end Asolaria.Codegen
