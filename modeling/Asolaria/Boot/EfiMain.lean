import Asolaria.Boot.Framebuffer
import Asolaria.Boot.Rtc
import Asolaria.Boot.ScanRows
import Asolaria.Codegen.SeatConfig

namespace Asolaria.Boot
open Library BootLines

/-- What the firmware hands over. The graphics output is located by the boot
services, and may come without a mode. -/
structure SystemTable where
  conOut : Bool
  bootServices : Bool
  graphics : Option (Option GopMode)
  deriving DecidableEq, Repr

/-- What a boot runs on: the system table, where it is not null, and what the
reads of the ports and of the counter give. -/
structure Machine where
  systemTable : Option SystemTable
  config : PciConfig
  cmosRead : CmosReads
  tsc : UInt64

/-- The graphics output as `efi_main` locates it. -/
def SystemTable.located (table : SystemTable) : Option (Option GopMode) := if table.bootServices then table.graphics else none

def GopMode.observation (mode : GopMode) : FramebufferObservation :=
  ⟨mode.w, mode.h, pixelFormat mode.fmt, mode.fbSize, mode.fb != 0, mode.fbLayoutVerified⟩

/-- `FramebufferObservation::ABSENT`. -/
def absentFramebuffer : FramebufferObservation := ⟨0, 0, .unknown, 0, false, false⟩

namespace Machine

def located (machine : Machine) : Option (Option GopMode) := machine.systemTable.bind SystemTable.located

def mode (machine : Machine) : Option GopMode := machine.located.join

/-- `boot_obs`. -/
def observations (machine : Machine) : BootObservations where
  uefiSystemTablePresent := machine.systemTable.isSome
  conOutPresent := machine.systemTable.any SystemTable.conOut
  bootServicesPresent := machine.systemTable.any SystemTable.bootServices
  gopLocated := machine.located.isSome
  framebuffer := (machine.mode.map GopMode.observation).getD absentFramebuffer
  secureBoot := .unknown
  loaderPath := .unknown

def painted (machine : Machine) : List PixelWrite := (machine.mode.map GopMode.paint).getD []

end Machine

/-- `BOOT_SEAT_ROW` for the seat of the build. -/
def bootSeatRow (seat : Seat) : List UInt8 := utf8 Codegen.rowFront ++ seat.label ++ utf8 Codegen.rowRest

/-- The eight bytes that `bootproj::emit` returns. -/
def pidBytes (bootPid : List UInt8) : Vector UInt8 8 := Vector.ofFn fun i => bootPid.getD i 0

/-- The diagnostic row, or the one that stands for it when its buffer is too
small. -/
def diagnosticRow (observations : BootObservations) : Option (List UInt8) := do
  let (rendered, diagBuf) ← renderStatusLine observations (.zeros 384 (by decide))
  match rendered with
  | .ok diagLen => return (← sliceChecked diagBuf 0 diagLen) ++ utf8 "\r\n"
  | .error _ =>
    return utf8 "ASOBTDIAG|format=hbpish|evidence=MEASURED_BOOT|source=uefi|seat=unknown|receipt=unsealed|tuple=boot:diag:early|stage=render-buffer-too-small\r\n"

def bannerFirst : List UInt8 := utf8 "  ASOLARIA ASI OS   .   kernel 0.2.0-phase3-scaffold   .   booting\r\n"

def bannerSecond : List UInt8 := utf8 "  federation-1024   .   envelope-REPL init   .   E=0   .   fire=0\r\n"

/-- Everything that `efi_main` sends to the serial port in front of `init::run`. -/
def efiMain (machine : Machine) (seat : Seat) : Option (List UInt8) := do
  let diagnostic ← diagnosticRow machine.observations
  let hw ← pciScanChecked machine.config seat
  let bt := readBootTime machine.cmosRead machine.tsc
  let clock ← emitBoottime bt
  let (bootPid, projection) ← bootprojEmit hw.1.deviceDigest bt
  let rst ← rstVmdProbe hw.1 (pidBytes bootPid) bt seat
  let ahci ← ahciProbe hw.1 (pidBytes bootPid) bt seat
  return utf8 "\r\n" ++ bannerFirst ++ bannerSecond ++ utf8 "\r\n" ++ diagnostic ++ bootSeatRow seat ++ utf8 "\r\n" ++
    hw.2.flatten ++ clock ++ projection ++ rst ++ ahci

variable {machine : Machine} {mode : GopMode}

/-- The guard of the painting is the diagnostic's direct framebuffer with room
for the title. -/
theorem admitted_iff : mode.admitted ↔
    mode.observation.isDirectComplete ∧ 320 ≤ mode.w ∧ 200 ≤ mode.h := by
  have sized : mode.fbLayoutVerified = true → 320 ≤ mode.w → 200 ≤ mode.h → mode.fbSize ≠ 0 := by
    intro verified wide high zero
    rw [GopMode.fbLayoutVerified, Bool.and_eq_true, decide_eq_true_eq, decide_eq_true_eq, zero,
      GopMode.minFramebufferBytes, usizeMax] at verified
    obtain ⟨stride, size⟩ := verified
    rw [UInt32.le_iff_toNat_le] at stride wide high
    have pixels : 320 * 200 ≤ mode.pps.toNat * mode.h.toNat := Nat.mul_le_mul (wide.trans stride) high
    change _ ≤ 0 at size
    generalize mode.pps.toNat * mode.h.toNat = product at pixels size
    omega
  have filled : ∀ {a n : UInt32}, n ≤ a → n ≠ 0 → a ≠ 0 := by
    rintro a n above some rfl
    exact some (UInt32.le_zero_iff.mp above)
  simp only [GopMode.admitted, FramebufferObservation.isDirectComplete, GopMode.observation, Bool.and_eq_true, bne_iff_ne,
    decide_eq_true_eq]
  constructor
  · rintro ⟨⟨⟨⟨base, verified⟩, direct⟩, wide⟩, high⟩
    exact ⟨⟨⟨⟨⟨⟨filled wide (by decide), filled high (by decide)⟩, sized verified wide high⟩, base⟩, verified⟩, direct⟩,
      wide, high⟩
  · rintro ⟨⟨⟨⟨_, base⟩, verified⟩, direct⟩, wide, high⟩
    exact ⟨⟨⟨⟨base, verified⟩, direct⟩, wide⟩, high⟩

/-- An admitted mode has a background at least. -/
theorem paint_ne_nil_iff : mode.paint ≠ [] ↔ mode.admitted := by
  rw [GopMode.paint]
  split
  · next admitted =>
    refine iff_of_true (fun none => ?_) admitted
    obtain ⟨_, wide, high⟩ := admitted_iff.mp admitted
    have numbers : ∀ {stop : UInt32} {n : UInt32}, n ≤ stop → n ≠ 0 → range32 0 stop ≠ [] := by
      intro stop n above some empty
      have length := congrArg List.length empty
      rw [range32, List.length_map, List.length_range', UInt32.toNat_zero, Nat.sub_zero, List.length_nil] at length
      have zero : stop = 0 := UInt32.toNat_inj.mp length
      rw [zero] at above
      exact some (UInt32.le_zero_iff.mp above)
    obtain ⟨y, rows, first⟩ := List.exists_cons_of_ne_nil (numbers high (by decide))
    obtain ⟨x, columns, second⟩ := List.exists_cons_of_ne_nil (numbers wide (by decide))
    rw [GopMode.background, fbFill, first, second, List.flatMap_cons, List.map_cons, List.cons_append, List.cons_append] at none
    cases none
  · next refused => exact iff_of_false (fun some => some rfl) refused

/-- The stages that need to know the loader or the policy are never reached. -/
theorem stage_unproven (machine : Machine) : classifyBootStage machine.observations =
    if machine.observations.hasDirectFramebuffer then .framebuffer
    else if machine.located.isSome then .graphicsOutput
    else if machine.systemTable.any SystemTable.bootServices then .bootServices
    else if machine.systemTable.any SystemTable.conOut then .uefiConsole
    else if machine.systemTable.isSome then .uefiTable else .noUefi := by
  cases table : machine.systemTable with
  | none =>
    have nowhere : machine.located = none := by rw [Machine.located, table]; rfl
    simp [classifyBootStage, Machine.observations, BootObservations.hasDirectFramebuffer, table, nowhere]
  | some found =>
    simp [classifyBootStage, Machine.observations, table]

theorem stage_framebuffer_iff (machine : Machine) : classifyBootStage machine.observations = .framebuffer ↔
    ∃ mode, machine.mode = some mode ∧ mode.observation.isDirectComplete := by
  have located : ∀ mode, machine.mode = some mode → machine.located.isSome := by
    intro mode found
    rw [Machine.mode, Option.join_eq_some_iff] at found
    rw [found]
    rfl
  have direct : machine.observations.hasDirectFramebuffer ↔
      ∃ mode, machine.mode = some mode ∧ mode.observation.isDirectComplete := by
    rw [BootObservations.hasDirectFramebuffer, Machine.observations, Bool.and_eq_true]
    cases mode : machine.mode with
    | none =>
      have incomplete : ¬ absentFramebuffer.isDirectComplete := by decide
      exact iff_of_false (fun both => incomplete both.2) fun ⟨_, found, _⟩ => by cases found
    | some found =>
      constructor
      · exact fun both => ⟨found, rfl, both.2⟩
      · rintro ⟨_, same, complete⟩
        obtain rfl := Option.some.inj same
        exact ⟨located _ mode, complete⟩
  rw [stage_unproven, ← direct]
  split
  · next complete => exact iff_of_true rfl complete
  · next incomplete =>
    refine iff_of_false ?_ incomplete
    repeat' split
    all_goals exact BootStage.noConfusion

/-- The splash is painted exactly on the machines that report a framebuffer
with room for it, and no machine reports more than a framebuffer. -/
theorem splash_reported (machine : Machine) :
    (machine.painted ≠ [] ↔ classifyBootStage machine.observations = .framebuffer ∧
      320 ≤ machine.observations.framebuffer.width ∧ 200 ≤ machine.observations.framebuffer.height) ∧
    classifyBootStage machine.observations ∉ [.metalCandidate, .metalReady, .policyGuarded] := by
  constructor
  · rw [stage_framebuffer_iff, Machine.painted, Machine.observations]
    cases mode : machine.mode with
    | none =>
      refine iff_of_false (fun some => some rfl) ?_
      rintro ⟨⟨_, found, _⟩, _⟩
      cases found
    | some found =>
      rw [Option.map_some, Option.map_some, Option.getD_some, Option.getD_some, paint_ne_nil_iff, admitted_iff]
      constructor
      · exact fun ⟨complete, wide, high⟩ => ⟨⟨found, rfl, complete⟩, wide, high⟩
      · rintro ⟨⟨_, same, complete⟩, wide, high⟩
        obtain rfl := Option.some.inj same
        exact ⟨complete, wide, high⟩
  · rw [stage_unproven]
    repeat' split
    all_goals decide

end Asolaria.Boot
