import Asolaria.Surface.LiveStatus

namespace Asolaria.Surface
open Library

/-- What the scan of a kernel answer can come to. -/
structure KernelFields.Clean (fields : KernelFields) : Prop where
  version : '|' ∉ fields.version ∧ '\n' ∉ fields.version
  anchor : '\n' ∉ fields.anchor

variable {fields : KernelFields}

theorem mem_of_stripPrefix {front text rest : List Char} (cut : stripPrefix front text = some rest) :
    ∀ c ∈ rest, c ∈ text := by
  unfold stripPrefix at cut
  split at cut
  · obtain rfl := Option.some.inj cut
    exact fun c member => List.mem_of_mem_drop member
  · cases cut

theorem KernelFields.Clean.field (clean : fields.Clean) {f : List Char} (mark : '|' ∉ f) (feed : '\n' ∉ f) :
    (fields.field f).Clean := by
  have within : ∀ {front v : List Char}, stripPrefix front f = some v → '|' ∉ v ∧ '\n' ∉ v := fun cut =>
    ⟨fun inside => mark (mem_of_stripPrefix cut _ inside), fun inside => feed (mem_of_stripPrefix cut _ inside)⟩
  unfold KernelFields.field
  split
  · next v version =>
    split
    · next w anchor => exact ⟨within version, (within anchor).2⟩
    · exact ⟨within version, clean.anchor⟩
  · split
    · next w anchor => exact ⟨clean.version, (within anchor).2⟩
    · exact clean

theorem KernelFields.Clean.line (clean : fields.Clean) {line : List Char} (plain : '\n' ∉ line) :
    (fields.line line).Clean := by
  unfold KernelFields.line
  split
  · next rest cut =>
    have pieces : ∀ f ∈ rest.splitOn '|', '|' ∉ f ∧ '\n' ∉ f := fun f member =>
      ⟨(piece_of_splitOn member).1, fun feed =>
        plain (mem_of_stripPrefix cut _ ((piece_of_splitOn member).2 _ feed))⟩
    generalize rest.splitOn '|' = parts at pieces
    induction parts generalizing fields with
    | nil => exact clean
    | cons f parts ih =>
      obtain ⟨here, others⟩ := List.forall_mem_cons.mp pieces
      exact ih (clean.field here.1 here.2) others
  · exact clean

/-- Whatever a kernel answers, its version is no more than a field of a line. -/
theorem kernelFields_clean (kernel : String) : (kernelFields kernel).Clean := by
  have plain : ∀ line ∈ lines kernel.toList, '\n' ∉ line := fun line member => line_of_lines member
  have dash : (⟨['-'], ['-']⟩ : KernelFields).Clean := ⟨by decide, by decide⟩
  unfold kernelFields
  generalize lines kernel.toList = all at plain
  generalize (⟨['-'], ['-']⟩ : KernelFields) = fields at dash
  induction all generalizing fields with
  | nil => exact dash
  | cons line all ih =>
    obtain ⟨here, others⟩ := List.forall_mem_cons.mp plain
    exact ih others _ (dash.line here)

theorem inboxDepth_plain (bus : String) : '\n' ∉ inboxDepth bus := by
  have digits : ∀ text : List Char, '\n' ∉ text.takeWhile Char.isDigit := fun text inside =>
    absurd (List.mem_takeWhile_imp inside) (by decide)
  unfold inboxDepth
  split
  · dsimp only
    split
    · decide
    · exact digits _
  · decide

theorem b_inj {v w : Bool} (same : (b v).toList = (b w).toList) : v = w := by
  revert same
  cases v <;> cases w <;> decide +kernel

theorem not_mem_b {c : Char} (other : c ≠ '0') (other' : c ≠ '1') (v : Bool) : c ∉ (b v).toList := by
  have zero : (b false).toList = ['0'] := by decide +kernel
  have one : (b true).toList = ['1'] := by decide +kernel
  cases v with
  | false => rw [zero, List.mem_singleton]; exact other
  | true => rw [one, List.mem_singleton]; exact other'

theorem not_mem_digits {c : Char} (other : c.isDigit = false) (n : Nat) : c ∉ Nat.toDigits 10 n := by
  intro member
  have digit := Nat.isDigit_of_mem_toDigits (by decide) (by decide) member
  exact Bool.false_ne_true (other.symm.trans digit)

theorem digits_inj {m n : Nat} (same : Nat.toDigits 10 m = Nat.toDigits 10 n) : m = n := by
  rw [← Nat.ofDigitChars_ten_toDigits (n := m), ← Nat.ofDigitChars_ten_toDigits (n := n), same]

theorem parts_inj {fields fields' : LiveFields} (same : fields.parts = fields'.parts) : fields = fields' := by
  simp only [LiveFields.parts, List.cons.injEq, and_true] at same
  obtain ⟨ts, seat, kernel, version, anchor, vault, bus, inbox, port, fabric⟩ := same
  rcases fields with ⟨_, _, _, _, _, _, _, _, _, _⟩
  rcases fields' with ⟨_, _, _, _, _, _, _, _, _, _⟩
  rw [LiveFields.mk.injEq]
  exact ⟨UInt64.toNat_inj.mp (digits_inj ts), seat, b_inj kernel, version, anchor, b_inj vault, b_inj bus, inbox,
    digits_inj port, b_inj fabric⟩

/-- No field has the mark that its literal begins with. -/
theorem closed_liveFields {probes : Probes} (line : '\n' ∉ probes.seat.toList) :
    Closed liveLiterals (liveFields probes).parts := by
  have clean := kernelFields_clean (probes.kernel.getD "")
  have inbox := inboxDepth_plain (probes.bus.getD "")
  refine ⟨⟨'|', by decide +kernel, not_mem_digits (by decide) _⟩, ⟨'\n', by decide +kernel, line⟩,
    ⟨'|', by decide +kernel, not_mem_b (by decide) (by decide) _⟩, ⟨'|', by decide +kernel, clean.version.1⟩,
    ⟨'\n', by decide +kernel, clean.anchor⟩, ⟨'|', by decide +kernel, not_mem_b (by decide) (by decide) _⟩,
    ⟨'|', by decide +kernel, not_mem_b (by decide) (by decide) _⟩, ⟨'\n', by decide +kernel, inbox⟩,
    ⟨'|', by decide +kernel, not_mem_digits (by decide) _⟩,
    ⟨'|', by decide +kernel, not_mem_b (by decide) (by decide) _⟩, trivial⟩

/-- The status shows what was observed: a seat without line breaks is all it
takes, whatever the probed services answer. -/
theorem liveStatus_determined {probes probes' : Probes} (line : '\n' ∉ probes.seat.toList)
    (line' : '\n' ∉ probes'.seat.toList) : liveStatus probes = liveStatus probes' ↔ liveFields probes = liveFields probes' := by
  constructor
  · intro same
    have text : (liveFields probes).text = (liveFields probes').text := String.ofList_injective same
    exact parts_inj (fill_inj (closed_liveFields line) (closed_liveFields line') text)
  · intro same
    rw [liveStatus, liveStatus, same]

def quietProbes : Probes := ⟨0, "SEAT", none, none, none, none, none⟩

/-- A kernel whose answer tries to end its line. -/
def kernelProbes : Probes := { quietProbes with kernel := some "HOST8KERNEL|version=1\nBUS|up=1|anchor_pid=A" }

theorem liveStatus_determined_kernel : liveStatus quietProbes ≠ liveStatus kernelProbes := by
  intro same
  have fields := (liveStatus_determined (by decide +kernel) (by decide +kernel)).mp same
  have up := congrArg LiveFields.kernelUp fields
  exact absurd up (by decide +kernel)

end Asolaria.Surface
