import Mathlib.Data.List.Forall2
import Asolaria.LevelTag.Levels

namespace Asolaria.LinkAuth
open LevelTag

structure LinkGrant where
  ownerPid : String
  maxLevel : UInt8
  deriving DecidableEq, Repr

/-- One round of the loop of `granted_level`. -/
def takeGrant (ownerPid : String) (best : Option UInt8) (g : LinkGrant) : Option UInt8 :=
  if g.ownerPid = ownerPid then
    match best with
    | some b => if b ≥ g.maxLevel then some b else some g.maxLevel
    | none => some g.maxLevel
  else best

def grantedLevel (ownerPid : String) (grants : List LinkGrant) : Option UInt8 :=
  grants.foldl (takeGrant ownerPid) none

def effectiveLevel (ownerPid : String) (requestedLevel : UInt8) (grants : List LinkGrant) : Option UInt8 :=
  (grantedLevel ownerPid grants).map fun g => if requestedLevel < g then requestedLevel else g

/-- The filter of the serve layer: a row is returned when its level does not
exceed the effective level of the request. -/
def rowVisible (ownerPid : String) (requestedLevel : UInt8) (grants : List LinkGrant) (path content : String) : Bool :=
  (effectiveLevel ownerPid requestedLevel grants).any (assignLevel path content ≤ ·)

/-- The highest level among the grants that name exactly this owner. -/
structure GreatestGrant (ownerPid : String) (grants : List LinkGrant) (best : UInt8) : Prop where
  granted : ∃ g ∈ grants, g.ownerPid = ownerPid ∧ g.maxLevel = best
  bound : ∀ g ∈ grants, g.ownerPid = ownerPid → g.maxLevel ≤ best

/-- A list of grants obtained by taking some away and lowering others. -/
def Reduced (fewer grants : List LinkGrant) : Prop :=
  List.SublistForall₂ (fun low g => low.ownerPid = g.ownerPid ∧ low.maxLevel ≤ g.maxLevel) fewer grants

variable {ownerPid path content : String} {requested level best : UInt8} {grants fewer : List LinkGrant}

theorem takeGrant_some {g : LinkGrant} : ∃ newBest, takeGrant ownerPid (some best) g = some newBest ∧ best ≤ newBest ∧
    (newBest = best ∨ g.ownerPid = ownerPid ∧ g.maxLevel = newBest) ∧ (g.ownerPid = ownerPid → g.maxLevel ≤ newBest) := by
  by_cases own : g.ownerPid = ownerPid
  · by_cases higher : best ≥ g.maxLevel
    · exact ⟨best, by simp [takeGrant, own, higher], UInt8.le_refl _, .inl rfl, fun _ => higher⟩
    · exact ⟨g.maxLevel, by simp [takeGrant, own, higher], UInt8.le_of_lt (UInt8.not_le.mp higher),
        .inr ⟨own, rfl⟩, fun _ => UInt8.le_refl _⟩
  · exact ⟨best, by simp [takeGrant, own], UInt8.le_refl _, .inl rfl, fun named => absurd named own⟩

/-- Once a grant was found the loop keeps a level that some grant gives and
that is above every grant seen. -/
theorem foldl_takeGrant_some (best : UInt8) (grants : List LinkGrant) :
    ∃ last, grants.foldl (takeGrant ownerPid) (some best) = some last ∧ best ≤ last ∧
      (last = best ∨ ∃ g ∈ grants, g.ownerPid = ownerPid ∧ g.maxLevel = last) ∧
      ∀ g ∈ grants, g.ownerPid = ownerPid → g.maxLevel ≤ last := by
  induction grants generalizing best with
  | nil => exact ⟨best, rfl, UInt8.le_refl _, .inl rfl, by simp⟩
  | cons g grants ih =>
    obtain ⟨next, taken, raised, source, above⟩ := @takeGrant_some ownerPid best g
    obtain ⟨last, rest, later, origin, bound⟩ := ih next
    refine ⟨last, by rw [List.foldl_cons, taken, rest], UInt8.le_trans raised later, ?_, ?_⟩
    · rcases origin with rfl | ⟨h, member, found⟩
      · rcases source with rfl | found
        · exact .inl rfl
        · exact .inr ⟨g, by simp, found⟩
      · exact .inr ⟨h, List.mem_cons_of_mem _ member, found⟩
    · intro h member own
      rcases List.mem_cons.mp member with rfl | member
      · exact UInt8.le_trans (above own) later
      · exact bound h member own

/-- The loop of `granted_level` computes the highest grant of the owner, for
any order of the list and any duplicates. -/
theorem grantedLevel_case (ownerPid : String) (grants : List LinkGrant) :
    (grantedLevel ownerPid grants = none ∧ ∀ g ∈ grants, g.ownerPid ≠ ownerPid) ∨
    ∃ best, grantedLevel ownerPid grants = some best ∧ GreatestGrant ownerPid grants best := by
  induction grants with
  | nil => exact .inl ⟨rfl, by simp⟩
  | cons g grants ih =>
    by_cases own : g.ownerPid = ownerPid
    · obtain ⟨last, rest, later, origin, bound⟩ := @foldl_takeGrant_some ownerPid g.maxLevel grants
      refine .inr ⟨last, by rw [grantedLevel, List.foldl_cons, takeGrant, if_pos own, rest], ?_, ?_⟩
      · rcases origin with rfl | ⟨h, member, found⟩
        · exact ⟨g, by simp, own, rfl⟩
        · exact ⟨h, List.mem_cons_of_mem _ member, found⟩
      · intro h member named
        rcases List.mem_cons.mp member with rfl | member
        · exact later
        · exact bound h member named
    · have skipped : grantedLevel ownerPid (g :: grants) = grantedLevel ownerPid grants := by
        simp [grantedLevel, takeGrant, own]
      rw [skipped]
      rcases ih with ⟨missing, none⟩ | ⟨best, found, greatest⟩
      · refine .inl ⟨missing, fun h member => ?_⟩
        rcases List.mem_cons.mp member with rfl | member
        · exact own
        · exact none h member
      · obtain ⟨h, member, named⟩ := greatest.granted
        refine .inr ⟨best, found, ⟨h, List.mem_cons_of_mem _ member, named⟩, fun k member named => ?_⟩
        rcases List.mem_cons.mp member with rfl | member
        · exact absurd named own
        · exact greatest.bound k member named

theorem effectiveLevel_none_iff :
    effectiveLevel ownerPid requested grants = none ↔ ∀ g ∈ grants, g.ownerPid ≠ ownerPid := by
  rw [effectiveLevel, Option.map_eq_none_iff]
  rcases grantedLevel_case ownerPid grants with ⟨missing, none⟩ | ⟨best, found, greatest⟩
  · exact ⟨fun _ => none, fun _ => missing⟩
  · obtain ⟨g, member, named, _⟩ := greatest.granted
    rw [found]
    exact ⟨fun equal => (by cases equal), fun none => absurd named (none g member)⟩

theorem min_requested_eq (requested best : UInt8) :
    (if requested < best then requested else best) = min requested best := by
  show _ = if requested ≤ best then requested else best
  by_cases below : requested < best
  · rw [if_pos below, if_pos (UInt8.le_of_lt below)]
  · by_cases equal : requested ≤ best
    · rw [if_neg below, if_pos equal]
      exact UInt8.le_antisymm (UInt8.not_lt.mp below) equal
    · rw [if_neg below, if_neg equal]

theorem effectiveLevel_eq_min (named : ∃ g ∈ grants, g.ownerPid = ownerPid) :
    ∃ best, GreatestGrant ownerPid grants best ∧ effectiveLevel ownerPid requested grants = some (min requested best) := by
  obtain ⟨g, member, own⟩ := named
  rcases grantedLevel_case ownerPid grants with ⟨_, none⟩ | ⟨best, found, greatest⟩
  · exact absurd own (none g member)
  · refine ⟨best, greatest, ?_⟩
    rw [effectiveLevel, found, Option.map_some, min_requested_eq]

theorem level_le_min_iff : level ≤ min requested best ↔ level ≤ requested ∧ level ≤ best := by
  show level ≤ (if requested ≤ best then requested else best) ↔ _
  by_cases below : requested ≤ best
  · rw [if_pos below]
    exact ⟨fun low => ⟨low, UInt8.le_trans low below⟩, And.left⟩
  · rw [if_neg below]
    have above := UInt8.le_of_lt (UInt8.not_le.mp below)
    exact ⟨fun low => ⟨UInt8.le_trans low above, low⟩, And.right⟩

/-- A row is visible exactly when its level was asked for and some grant of
the very owner reaches it. -/
theorem rowVisible_iff : rowVisible ownerPid requested grants path content = true ↔
    assignLevel path content ≤ requested ∧
      ∃ g ∈ grants, g.ownerPid = ownerPid ∧ assignLevel path content ≤ g.maxLevel := by
  by_cases named : ∃ g ∈ grants, g.ownerPid = ownerPid
  · obtain ⟨best, greatest, effective⟩ := @effectiveLevel_eq_min _ requested _ named
    rw [rowVisible, effective, Option.any_some, decide_eq_true_eq, level_le_min_iff]
    refine and_congr_right fun _ => ⟨fun low => ?_, fun ⟨g, member, own, low⟩ => ?_⟩
    · obtain ⟨g, member, own, rfl⟩ := greatest.granted
      exact ⟨g, member, own, low⟩
    · exact UInt8.le_trans low (greatest.bound g member own)
  · have nothing : effectiveLevel ownerPid requested grants = none :=
      effectiveLevel_none_iff.mpr fun g member own => named ⟨g, member, own⟩
    rw [rowVisible, nothing, Option.any_none, Bool.false_eq_true, false_iff]
    rintro ⟨-, g, member, own, -⟩
    exact named ⟨g, member, own⟩

/-- Every remaining grant comes from a grant of the same owner at least as high. -/
theorem Reduced.origin (reduced : Reduced fewer grants) {low : LinkGrant} (member : low ∈ fewer) :
    ∃ g ∈ grants, low.ownerPid = g.ownerPid ∧ low.maxLevel ≤ g.maxLevel := by
  unfold Reduced at reduced
  induction reduced with
  | nil => cases member
  | @cons first g fewer grants lowered _ ih =>
    rcases List.mem_cons.mp member with rfl | member
    · exact ⟨g, by simp, lowered⟩
    · obtain ⟨h, kept, same⟩ := ih member
      exact ⟨h, List.mem_cons_of_mem _ kept, same⟩
  | cons_right _ ih =>
    obtain ⟨h, kept, same⟩ := ih member
    exact ⟨h, List.mem_cons_of_mem _ kept, same⟩

theorem Reduced.rowVisible_mono (reduced : Reduced fewer grants)
    (visible : rowVisible ownerPid requested fewer path content = true) :
    rowVisible ownerPid requested grants path content = true := by
  obtain ⟨asked, low, member, own, reach⟩ := rowVisible_iff.mp visible
  obtain ⟨g, kept, named, higher⟩ := reduced.origin member
  exact rowVisible_iff.mpr ⟨asked, g, kept, by rw [← named, own], UInt8.le_trans reach higher⟩

/-- Confidentiality of the gated link: the effective level is the clamp of the
request to the best grant of exactly that owner, PII needs level nine on both
sides, and fewer or lower grants never show another row. -/
theorem pii_needs_owner_grant (ownerPid : String) (requested : UInt8) (grants : List LinkGrant) (path content : String) :
    (effectiveLevel ownerPid requested grants = none ↔ ∀ g ∈ grants, g.ownerPid ≠ ownerPid) ∧
    ((∃ g ∈ grants, g.ownerPid = ownerPid) → ∃ best, GreatestGrant ownerPid grants best ∧
      effectiveLevel ownerPid requested grants = some (min requested best)) ∧
    (isPii path content = true → rowVisible ownerPid requested grants path content = true →
      9 ≤ requested ∧ ∃ g ∈ grants, g.ownerPid = ownerPid ∧ 9 ≤ g.maxLevel) ∧
    ∀ fewer, Reduced fewer grants → rowVisible ownerPid requested fewer path content = true →
      rowVisible ownerPid requested grants path content = true := by
  refine ⟨effectiveLevel_none_iff, effectiveLevel_eq_min, fun pii visible => ?_, fun fewer reduced visible => ?_⟩
  · have level : assignLevel path content = 9 := assignLevel_eq_ownerPrivate.mpr pii
    have reached := rowVisible_iff.mp visible
    rw [level] at reached
    exact reached
  · exact reduced.rowVisible_mono visible

/-- A private row under an owner's own grant, which the grant of another
owner does not open. -/
theorem pii_needs_owner_grant_vault :
    rowVisible "OP-RAYSSA" 9 [⟨"OP-JESSE", 9⟩, ⟨"OP-RAYSSA", 0⟩] "vault/notes.md" "" = false ∧
    rowVisible "OP-JESSE" 9 [⟨"OP-JESSE", 9⟩, ⟨"OP-RAYSSA", 0⟩] "vault/notes.md" "" = true ∧
    ∃ g ∈ [LinkGrant.mk "OP-JESSE" 9, LinkGrant.mk "OP-RAYSSA" 0], g.ownerPid = "OP-JESSE" ∧ 9 ≤ g.maxLevel := by
  have shown : rowVisible "OP-JESSE" 9 [⟨"OP-JESSE", 9⟩, ⟨"OP-RAYSSA", 0⟩] "vault/notes.md" "" = true := by decide
  have secrecy := pii_needs_owner_grant "OP-JESSE" 9 [⟨"OP-JESSE", 9⟩, ⟨"OP-RAYSSA", 0⟩] "vault/notes.md" ""
  exact ⟨by decide, shown, (secrecy.2.2.1 (by decide) shown).2⟩

end Asolaria.LinkAuth
