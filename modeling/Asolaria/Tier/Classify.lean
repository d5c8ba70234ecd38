import Asolaria.Library.Lowercase
import Asolaria.Library.Search
import Asolaria.Library.Text
import Asolaria.Syscall.Services

namespace Asolaria.Tier
open Library Syscall

inductive TierClassifierErr
  | pathMalformed
  | unclassifiedDefault
  deriving DecidableEq, Repr

/-- The rules of `classify_path` on the lowered path. The first one that
matches decides. -/
def tierOfLower (lower : List Char) : AccessTier :=
  if contains "_big-pickle-quarantine".toList lower then .hidden
  else if contains "sovlinux".toList lower then .shadow
  else if "vault/secret/".toList.isPrefixOf lower || contains "/vault/secret/".toList lower then .secret
  else if contains "stealth/".toList lower then .stealth
  else if contains "restricted/".toList lower then .restricted
  else .publicTier

def classifyPath (unicode : UnicodeCase) (path : String) : Except TierClassifierErr AccessTier :=
  if path.toList.isEmpty || path.toList.contains '\x00' then .error .pathMalformed
  else .ok (tierOfLower (toLowercase unicode path.toList))

def sysTierQuery (unicode : UnicodeCase) (path : List UInt8) : Except SyscallErr AccessTier :=
  match String.fromUTF8? ⟨path.toArray⟩ with
  | none => .error .invalid
  | some s =>
    match classifyPath unicode s with
    | .ok t => .ok t
    | .error .pathMalformed => .error .invalid
    | .error .unclassifiedDefault => .ok .publicTier

/-- The rank of a tier in `tier_gate`. -/
def tierRank : AccessTier → UInt8
  | .publicTier => 0
  | .restricted => 1
  | .stealth => 2
  | .hidden => 3
  | .shadow => 4
  | .secret => 5
  | .sovereignty => 6

/-- A rule that stands before the tier's own one, and leads to a lower tier,
matches the path. -/
def Overtaken (lower : List Char) (tier : AccessTier) : Prop :=
  (tier = .shadow ∨ tier = .secret) ∧ "_big-pickle-quarantine".toList <:+: lower ∨
    tier = .secret ∧ "sovlinux".toList <:+: lower

/-- No suffix ever takes a path to a less sensitive tier. -/
def NeverDowngrades (unicode : UnicodeCase) : Prop :=
  ∀ p q tier, classifyPath unicode p = .ok tier → '\x00' ∉ q.toList →
    ∃ tier', classifyPath unicode (p ++ q) = .ok tier' ∧ tierRank tier ≤ tierRank tier'

variable {unicode : UnicodeCase} {p q : String} {lower longer : List Char} {tier : AccessTier}

/-- What the rules look for is kept when the path grows. -/
structure Keeps (lower longer : List Char) : Prop where
  quarantine : "_big-pickle-quarantine".toList <:+: lower → "_big-pickle-quarantine".toList <:+: longer
  sovlinux : "sovlinux".toList <:+: lower → "sovlinux".toList <:+: longer
  secret : "vault/secret/".toList <+: lower ∨ "/vault/secret/".toList <:+: lower →
    "vault/secret/".toList <+: longer ∨ "/vault/secret/".toList <:+: longer
  stealth : "stealth/".toList <:+: lower → "stealth/".toList <:+: longer
  restricted : "restricted/".toList <:+: lower → "restricted/".toList <:+: longer

theorem keeps_append (p q : List Char) : Keeps (toLowercase unicode p) (toLowercase unicode (p ++ q)) where
  quarantine := toLowercase_infix_append (forall_mem_of_all (by decide)) q
  sovlinux := toLowercase_infix_append (forall_mem_of_all (by decide)) q
  secret := by
    refine Or.imp ?_ ?_
    · exact toLowercase_prefix_append (forall_mem_of_all (by decide)) q
    · exact toLowercase_infix_append (forall_mem_of_all (by decide)) q
  stealth := toLowercase_infix_append (forall_mem_of_all (by decide)) q
  restricted := toLowercase_infix_append (forall_mem_of_all (by decide)) q

section Rules

theorem tierOfLower_hidden (quarantine : "_big-pickle-quarantine".toList <:+: lower) : tierOfLower lower = .hidden :=
  if_pos (contains_iff.mpr quarantine)

theorem tierOfLower_shadow (noQuarantine : ¬ "_big-pickle-quarantine".toList <:+: lower)
    (sovlinux : "sovlinux".toList <:+: lower) : tierOfLower lower = .shadow := by
  unfold tierOfLower
  rw [if_neg (mt contains_iff.mp noQuarantine), if_pos (contains_iff.mpr sovlinux)]

/-- What is left of the rules once the first two have failed. -/
def lowRules (lower : List Char) : AccessTier :=
  if "vault/secret/".toList.isPrefixOf lower || contains "/vault/secret/".toList lower then .secret
  else if contains "stealth/".toList lower then .stealth
  else if contains "restricted/".toList lower then .restricted
  else .publicTier

theorem tierOfLower_low (noQuarantine : ¬ "_big-pickle-quarantine".toList <:+: lower)
    (noSovlinux : ¬ "sovlinux".toList <:+: lower) : tierOfLower lower = lowRules lower := by
  unfold tierOfLower
  rw [if_neg (mt contains_iff.mp noQuarantine), if_neg (mt contains_iff.mp noSovlinux)]
  rfl

/-- These rules stand in the order of their tiers. -/
theorem lowRules_le (keeps : Keeps lower longer) : tierRank (lowRules lower) ≤ tierRank (lowRules longer) := by
  unfold lowRules
  simp only [Bool.or_eq_true, contains_iff, List.isPrefixOf_iff_prefix]
  split
  · next secret =>
    rw [if_pos (keeps.secret secret)]
    exact UInt8.le_refl _
  · split
    · next stealth =>
      rw [if_pos (keeps.stealth stealth)]
      split
      · decide
      · exact UInt8.le_refl _
    · split
      · next restricted =>
        rw [if_pos (keeps.restricted restricted)]
        split
        · decide
        · split
          · decide
          · exact UInt8.le_refl _
      · exact UInt8.zero_le

end Rules

/-- No rule leads to the tier of the operator alone. -/
theorem tierOfLower_ne_sovereignty (lower : List Char) : tierOfLower lower ≠ .sovereignty := by
  unfold tierOfLower
  repeat' split
  all_goals decide

theorem hidden_lt_iff (agent : tier ≠ .sovereignty) :
    tierRank .hidden < tierRank tier ↔ tier = .shadow ∨ tier = .secret := by
  cases tier with
  | sovereignty => exact absurd rfl agent
  | publicTier | restricted | stealth | hidden | shadow | secret => decide

theorem shadow_lt_iff (agent : tier ≠ .sovereignty) : tierRank .shadow < tierRank tier ↔ tier = .secret := by
  cases tier with
  | sovereignty => exact absurd rfl agent
  | publicTier | restricted | stealth | hidden | shadow | secret => decide

/-- A longer path goes down in rank exactly when an earlier rule overtakes. -/
theorem rank_lt_iff (keeps : Keeps lower longer) :
    tierRank (tierOfLower longer) < tierRank (tierOfLower lower) ↔ Overtaken longer (tierOfLower lower) := by
  have agent := tierOfLower_ne_sovereignty lower
  by_cases quarantine : "_big-pickle-quarantine".toList <:+: longer
  · rw [tierOfLower_hidden quarantine, hidden_lt_iff agent, Overtaken]
    refine ⟨fun order => .inl ⟨order, quarantine⟩, fun overtaken => ?_⟩
    rcases overtaken with ⟨order, _⟩ | ⟨secret, _⟩
    · exact order
    · exact .inr secret
  · have noQuarantine := mt keeps.quarantine quarantine
    by_cases sovlinux : "sovlinux".toList <:+: longer
    · rw [tierOfLower_shadow quarantine sovlinux, shadow_lt_iff agent, Overtaken]
      refine ⟨fun secret => .inr ⟨secret, sovlinux⟩, fun overtaken => ?_⟩
      rcases overtaken with ⟨_, found⟩ | ⟨secret, _⟩
      · exact absurd found quarantine
      · exact secret
    · have noSovlinux := mt keeps.sovlinux sovlinux
      rw [tierOfLower_low quarantine sovlinux, tierOfLower_low noQuarantine noSovlinux, Overtaken]
      have order := lowRules_le keeps
      refine iff_of_false (UInt8.not_lt.mpr order) fun overtaken => ?_
      rcases overtaken with ⟨_, found⟩ | ⟨_, found⟩
      · exact quarantine found
      · exact sovlinux found

/-- Where a rule overtakes, it is the first of the two that gives the tier. -/
theorem Overtaken.tier_eq (overtaken : Overtaken longer tier) :
    tierOfLower longer = if "_big-pickle-quarantine".toList <:+: longer then .hidden else .shadow := by
  by_cases quarantine : "_big-pickle-quarantine".toList <:+: longer
  · rw [if_pos quarantine, tierOfLower_hidden quarantine]
  · rcases overtaken with ⟨_, found⟩ | ⟨_, sovlinux⟩
    · exact absurd found quarantine
    · rw [if_neg quarantine, tierOfLower_shadow quarantine sovlinux]

theorem classifyPath_ok_iff : classifyPath unicode p = .ok tier ↔
    p.toList ≠ [] ∧ '\x00' ∉ p.toList ∧ tierOfLower (toLowercase unicode p.toList) = tier := by
  unfold classifyPath
  by_cases bad : (p.toList.isEmpty || p.toList.contains '\x00') = true
  · rw [if_pos bad]
    rw [Bool.or_eq_true, List.isEmpty_iff, List.contains_iff_mem] at bad
    refine iff_of_false (by simp) fun good => ?_
    rcases bad with empty | nul
    · exact good.1 empty
    · exact good.2.1 nul
  · rw [if_neg bad, Except.ok.injEq]
    rw [Bool.or_eq_true, List.isEmpty_iff, List.contains_iff_mem, not_or] at bad
    exact ⟨fun same => ⟨bad.1, bad.2, same⟩, fun good => good.2.2⟩

theorem sysTierQuery_utf8 (accepted : classifyPath unicode p = .ok tier) :
    sysTierQuery unicode (utf8 p) = .ok tier := by
  have bytes : (⟨(utf8 p).toArray⟩ : ByteArray) = p.toUTF8 := rfl
  have decoded : String.fromUTF8? p.toUTF8 = some p := dif_pos p.isValidUTF8
  rw [sysTierQuery, bytes, decoded]
  simp only [accepted]

/-- A suffix without NUL keeps an accepted path accepted. It lowers the tier
exactly where one of the two rules at the head of the list, whose tiers are
not the highest, comes to match in front of the path's own rule. -/
theorem suffix_lowers_iff (accepted : classifyPath unicode p = .ok tier) (plain : '\x00' ∉ q.toList) :
    ∃ tier', classifyPath unicode (p ++ q) = .ok tier' ∧ sysTierQuery unicode (utf8 p) = .ok tier ∧
      sysTierQuery unicode (utf8 (p ++ q)) = .ok tier' ∧
      (tierRank tier' < tierRank tier ↔ Overtaken (toLowercase unicode (p ++ q).toList) tier) ∧
      (Overtaken (toLowercase unicode (p ++ q).toList) tier →
        tier' =
          if "_big-pickle-quarantine".toList <:+: toLowercase unicode (p ++ q).toList then .hidden else .shadow) := by
  obtain ⟨filled, noNul, rfl⟩ := classifyPath_ok_iff.mp accepted
  have longer : classifyPath unicode (p ++ q) = .ok (tierOfLower (toLowercase unicode (p ++ q).toList)) := by
    refine classifyPath_ok_iff.mpr ⟨?_, ?_, rfl⟩
    · rw [String.toList_append]
      exact List.append_ne_nil_of_left_ne_nil filled _
    · rw [String.toList_append, List.mem_append, not_or]
      exact ⟨noNul, plain⟩
  refine ⟨_, longer, sysTierQuery_utf8 accepted, sysTierQuery_utf8 longer, ?_, Overtaken.tier_eq⟩
  rw [String.toList_append]
  exact rank_lt_iff (keeps_append _ _)

/-- The tables of ASCII alone. -/
def asciiCase : UnicodeCase := ⟨fun c => [c.toLower], Char.isAlpha, fun _ => false, fun _ _ => rfl⟩

theorem suffix_lowers_secret :
    classifyPath asciiCase "vault/secret/k" = .ok .secret ∧ '\x00' ∉ "/sovlinux".toList ∧
      ∃ tier', classifyPath asciiCase ("vault/secret/k" ++ "/sovlinux") = .ok tier' ∧
        (tierRank tier' < tierRank .secret ↔
          Overtaken (toLowercase asciiCase ("vault/secret/k" ++ "/sovlinux").toList) .secret) := by
  have accepted : classifyPath asciiCase "vault/secret/k" = .ok .secret := by decide +kernel
  have plain : '\x00' ∉ "/sovlinux".toList := by decide
  obtain ⟨tier', longer, _, _, lowers, _⟩ := suffix_lowers_iff accepted plain
  exact ⟨accepted, plain, tier', longer, lowers⟩

/-- Quarantining a secret makes it a hidden resource, in every version of
Unicode. -/
theorem quarantined_secret_downgraded : ¬ ∃ unicode : UnicodeCase, NeverDowngrades unicode := by
  intro lawful
  obtain ⟨unicode, law⟩ := lawful
  have path : toLowercase unicode "vault/secret/k".toList = "vault/secret/k".toList :=
    toLowercase_ascii (forall_mem_of_all (by decide))
  have longer : toLowercase unicode ("vault/secret/k" ++ "/_big-pickle-quarantine").toList =
      "vault/secret/k/_big-pickle-quarantine".toList := toLowercase_ascii (forall_mem_of_all (by decide))
  have secret : classifyPath unicode "vault/secret/k" = .ok .secret := by
    rw [classifyPath_ok_iff, path]
    decide +kernel
  have hidden : classifyPath unicode ("vault/secret/k" ++ "/_big-pickle-quarantine") = .ok .hidden := by
    rw [classifyPath_ok_iff, longer]
    decide +kernel
  obtain ⟨tier', found, rank⟩ := law "vault/secret/k" "/_big-pickle-quarantine" .secret secret (by decide)
  rw [hidden] at found
  cases found
  exact absurd rank (by decide)

end Asolaria.Tier
