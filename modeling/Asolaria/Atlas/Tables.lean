import Asolaria.Library.Bands

namespace Asolaria.Atlas
open Library

def behcs1024CpCount : UInt16 := 1024

def behcs256CpCount : UInt16 := 256

def isValidCp (cp : UInt16) : Bool := cp < behcs1024CpCount

def subsetEmbeddingCp (cp : UInt16) : Option UInt8 :=
  if cp ≥ behcs1024CpCount then none else some (cp % behcs256CpCount).toUInt8

inductive AtlasDomain
  | legacySubset256
  | sovereignty
  | sequencing
  | languageGlyph
  | hilbertCube
  | buildProof
  | federation
  | emergentResidual
  deriving DecidableEq, Repr

inductive AtlasSupervisor
  | cubeCubedSealer
  | gaia
  | helm
  | vector
  | rook
  | forge
  | falcon
  | liveFree
  deriving DecidableEq, Repr

inductive AtlasLane
  | memory
  | skeletal
  | muscular
  | nervous
  | circulatory
  deriving DecidableEq, Repr

/-- The arms of `domain_for_cp`. -/
def domainBands : List (Band AtlasDomain) :=
  [⟨0, 255, .legacySubset256⟩, ⟨256, 383, .sovereignty⟩, ⟨384, 479, .sequencing⟩, ⟨480, 575, .languageGlyph⟩,
    ⟨576, 703, .hilbertCube⟩, ⟨704, 799, .buildProof⟩, ⟨800, 895, .federation⟩, ⟨896, 1023, .emergentResidual⟩]

/-- The arms of `supervisor_for_cp`. -/
def supervisorBands : List (Band AtlasSupervisor) :=
  [⟨0, 255, .cubeCubedSealer⟩, ⟨256, 383, .gaia⟩, ⟨384, 479, .helm⟩, ⟨480, 575, .vector⟩, ⟨576, 703, .rook⟩,
    ⟨704, 799, .forge⟩, ⟨800, 895, .falcon⟩, ⟨896, 1023, .liveFree⟩]

/-- The arms of `lane_for_cp`. -/
def laneBands : List (Band AtlasLane) :=
  [⟨0, 255, .memory⟩, ⟨256, 383, .skeletal⟩, ⟨384, 479, .muscular⟩, ⟨480, 575, .nervous⟩, ⟨576, 703, .circulatory⟩,
    ⟨704, 799, .muscular⟩, ⟨800, 895, .nervous⟩, ⟨896, 1023, .memory⟩]

def domainForCp (cp : UInt16) : Option AtlasDomain := bandValue domainBands cp.toNat

def supervisorForCp (cp : UInt16) : Option AtlasSupervisor := bandValue supervisorBands cp.toNat

def laneForCp (cp : UInt16) : Option AtlasLane := bandValue laneBands cp.toNat

/-- The supervisor and the lane of a domain. -/
def AtlasDomain.supervisor : AtlasDomain → AtlasSupervisor
  | legacySubset256 => .cubeCubedSealer
  | sovereignty => .gaia
  | sequencing => .helm
  | languageGlyph => .vector
  | hilbertCube => .rook
  | buildProof => .forge
  | federation => .falcon
  | emergentResidual => .liveFree

def AtlasDomain.lane : AtlasDomain → AtlasLane
  | legacySubset256 => .memory
  | sovereignty => .skeletal
  | sequencing => .muscular
  | languageGlyph => .nervous
  | hilbertCube => .circulatory
  | buildProof => .muscular
  | federation => .nervous
  | emergentResidual => .memory

variable {cp : UInt16}

/-- The three tables have their boundaries in the same places. -/
theorem supervisorForCp_eq (cp : UInt16) : supervisorForCp cp = (domainForCp cp).map AtlasDomain.supervisor :=
  bandValue_map AtlasDomain.supervisor domainBands cp.toNat

theorem laneForCp_eq (cp : UInt16) : laneForCp cp = (domainForCp cp).map AtlasDomain.lane :=
  bandValue_map AtlasDomain.lane domainBands cp.toNat

theorem adjoin_domainBands : Adjoin 0 domainBands 1024 := by
  simp [domainBands, Adjoin]

/-- The tables know the valid codepoints and no others. -/
theorem domainForCp_isSome_iff : (domainForCp cp).isSome ↔ isValidCp cp := by
  rw [domainForCp, bandValue_isSome_iff adjoin_domainBands (Nat.zero_le _), isValidCp, decide_eq_true_eq,
    UInt16.lt_iff_toNat_lt]
  rfl

end Asolaria.Atlas
