import Asolaria.BootLines.Writer
import Asolaria.Library.Delimited

namespace Asolaria.BootLines
open Library

inductive SecureBootState
  | unknown | enabled | disabled
  deriving DecidableEq, Repr

def SecureBootState.asWire : SecureBootState → String
  | .unknown => "unknown"
  | .enabled => "enabled"
  | .disabled => "disabled"

inductive LoaderPathClass
  | firmwareEfi | windowsBootManager | unknown
  deriving DecidableEq, Repr

def LoaderPathClass.asWire : LoaderPathClass → String
  | .firmwareEfi => "firmware-efi"
  | .windowsBootManager => "windows-bootmgr"
  | .unknown => "unknown"

inductive PixelFormat
  | rgb | bgr | bitmask | bltOnly | unknown
  deriving DecidableEq, Repr

def PixelFormat.asWire : PixelFormat → String
  | .rgb => "rgb"
  | .bgr => "bgr"
  | .bitmask => "bitmask"
  | .bltOnly => "blt-only"
  | .unknown => "unknown"

def PixelFormat.isDirectFramebuffer : PixelFormat → Bool
  | .rgb | .bgr | .bitmask => true
  | .bltOnly | .unknown => false

structure FramebufferObservation where
  width : UInt32
  height : UInt32
  pixelFormat : PixelFormat
  byteLen : UInt64
  basePresent : Bool
  layoutVerified : Bool
  deriving DecidableEq, Repr

def FramebufferObservation.isDirectComplete (fb : FramebufferObservation) : Bool :=
  fb.width != 0 && fb.height != 0 && fb.byteLen != 0 && fb.basePresent && fb.layoutVerified &&
    fb.pixelFormat.isDirectFramebuffer

structure BootObservations where
  uefiSystemTablePresent : Bool
  conOutPresent : Bool
  bootServicesPresent : Bool
  gopLocated : Bool
  framebuffer : FramebufferObservation
  secureBoot : SecureBootState
  loaderPath : LoaderPathClass
  deriving DecidableEq, Repr

def BootObservations.hasDirectFramebuffer (observations : BootObservations) : Bool :=
  observations.gopLocated && observations.framebuffer.isDirectComplete

inductive BootStage
  | noUefi | uefiTable | uefiConsole | bootServices | graphicsOutput | framebuffer | metalCandidate | metalReady
  | policyGuarded
  deriving DecidableEq, Repr

def BootStage.asWire : BootStage → String
  | .noUefi => "no-uefi"
  | .uefiTable => "uefi-table"
  | .uefiConsole => "uefi-console"
  | .bootServices => "boot-services"
  | .graphicsOutput => "graphics-output"
  | .framebuffer => "framebuffer"
  | .metalCandidate => "metal-candidate"
  | .metalReady => "pre-driver-ready"
  | .policyGuarded => "policy-guarded"

def classifyBootStage (observations : BootObservations) : BootStage :=
  if !observations.uefiSystemTablePresent then .noUefi
  else if observations.hasDirectFramebuffer then
    match observations.loaderPath, observations.secureBoot with
    | .firmwareEfi, .disabled => .metalReady
    | .firmwareEfi, .unknown => .metalCandidate
    | .windowsBootManager, _ | _, .enabled => .policyGuarded
    | .unknown, _ => .framebuffer
  else if observations.gopLocated then .graphicsOutput
  else if observations.bootServicesPresent then .bootServices
  else if observations.conOutPresent then .uefiConsole
  else .uefiTable

/-- The pushes of `render_status_line_inner`, in their order. -/
def statusPushes (observations : BootObservations) : List Push := [
  .str "ASOBTDIAG|format=hbpish|evidence=MEASURED_BOOT|source=uefi|seat=unknown|receipt=unsealed|tuple=boot:diag:early|stage=",
  .str (classifyBootStage observations).asWire,
  .str "|uefi=",
  .bool observations.uefiSystemTablePresent,
  .str "|conout=",
  .bool observations.conOutPresent,
  .str "|bs=",
  .bool observations.bootServicesPresent,
  .str "|gop=",
  .bool observations.gopLocated,
  .str "|fb=",
  .u32 observations.framebuffer.width,
  .byte 120,
  .u32 observations.framebuffer.height,
  .byte 47,
  .str observations.framebuffer.pixelFormat.asWire,
  .byte 47,
  .usize observations.framebuffer.byteLen,
  .str "|fbbase=",
  .bool observations.framebuffer.basePresent,
  .str "|fblayout=",
  .bool observations.framebuffer.layoutVerified,
  .str "|sb=",
  .str observations.secureBoot.asWire,
  .str "|loader=",
  .str observations.loaderPath.asWire]

/-- `StatusLineWriter` has room for 39 digits. -/
def renderStatusLineInner (observations : BootObservations) : LineWriter → Option LineWriter :=
  LineWriter.pushAll 39 (statusPushes observations)

def statusLineLen (observations : BootObservations) : Option Nat := lineLen (renderStatusLineInner observations)

def renderStatusLine (observations : BootObservations) (out : Slice) : Option (Except RenderError Nat × List UInt8) :=
  renderLine (renderStatusLineInner observations) out

/-- The full status line. -/
def statusLine (observations : BootObservations) : List UInt8 := (statusPushes observations).flatMap Push.bytes

/-- The line as labels and fields. -/
def statusRows (observations : BootObservations) : List (List UInt8 × List UInt8) := [
  (utf8 "ASOBTDIAG|format=hbpish|evidence=MEASURED_BOOT|source=uefi|seat=unknown|receipt=unsealed|tuple=boot:diag:early|stage=",
    utf8 (classifyBootStage observations).asWire),
  (utf8 "|uefi=", (Push.bool observations.uefiSystemTablePresent).bytes),
  (utf8 "|conout=", (Push.bool observations.conOutPresent).bytes),
  (utf8 "|bs=", (Push.bool observations.bootServicesPresent).bytes),
  (utf8 "|gop=", (Push.bool observations.gopLocated).bytes),
  (utf8 "|fb=", decimalBytes observations.framebuffer.width.toNat),
  ([120], decimalBytes observations.framebuffer.height.toNat),
  ([47], utf8 observations.framebuffer.pixelFormat.asWire),
  ([47], decimalBytes observations.framebuffer.byteLen.toNat),
  (utf8 "|fbbase=", (Push.bool observations.framebuffer.basePresent).bytes),
  (utf8 "|fblayout=", (Push.bool observations.framebuffer.layoutVerified).bytes),
  (utf8 "|sb=", utf8 observations.secureBoot.asWire),
  (utf8 "|loader=", utf8 observations.loaderPath.asWire)]

theorem prints_statusLine (observations : BootObservations) :
    Prints (renderStatusLineInner observations) (statusLine observations) := Prints.pushAll (by decide) _

theorem statusLine_eq (observations : BootObservations) :
    statusLine observations = labelled (statusRows observations) := by
  unfold statusLine statusPushes labelled statusRows
  simp only [List.flatMap_cons, List.flatMap_nil, Push.bytes, Push.u32, UInt32.toNat_toUInt64, List.append_assoc]

section Fields

theorem plain_bool (b : Bool) : 124 ∉ (Push.bool b).bytes := by
  cases b with
  | false => decide
  | true => decide

theorem plain_stage (stage : BootStage) : 124 ∉ utf8 stage.asWire := by
  cases stage <;> decide +kernel

theorem plain_pixelFormat (format : PixelFormat) : 47 ∉ utf8 format.asWire := by
  cases format <;> decide +kernel

theorem plain_secureBoot (state : SecureBootState) : 124 ∉ utf8 state.asWire := by
  cases state <;> decide +kernel

theorem bool_inj {a b : Bool} (same : (Push.bool a).bytes = (Push.bool b).bytes) : a = b := by
  revert same
  revert a b
  decide

theorem PixelFormat.asWire_inj {a b : PixelFormat} (same : utf8 a.asWire = utf8 b.asWire) : a = b := by
  rw [utf8_inj] at same
  cases a <;> cases b <;> first | rfl | exact absurd same (by decide)

theorem SecureBootState.asWire_inj {a b : SecureBootState} (same : utf8 a.asWire = utf8 b.asWire) : a = b := by
  rw [utf8_inj] at same
  cases a <;> cases b <;> first | rfl | exact absurd same (by decide)

theorem LoaderPathClass.asWire_inj {a b : LoaderPathClass} (same : utf8 a.asWire = utf8 b.asWire) : a = b := by
  rw [utf8_inj] at same
  cases a <;> cases b <;> first | rfl | exact absurd same (by decide)

end Fields

/-- Every label of the line starts with a byte that the field in front of it
does not have. -/
theorem statusRows_ends (observations : BootObservations) : (statusRows observations).IsChain EndsAt := by
  have bar {label : String} {field : List UInt8} {next : List UInt8 × List UInt8} {row : List UInt8}
      (label' : next.1 = utf8 label) (mark : (utf8 label).head? = some 124) (plain : 124 ∉ field) :
      EndsAt (row, field) next := by
    obtain ⟨rest, cut⟩ := List.head?_eq_some_iff.mp mark
    exact ⟨124, rest, label'.trans cut, plain⟩
  have digits (n : Nat) : 124 ∉ decimalBytes n := not_mem_decimalBytes (by decide)
  unfold statusRows
  simp only [List.isChain_cons_cons, List.IsChain.singleton, and_true]
  refine ⟨?_, ?_, ?_, ?_, ?_, ?_, ?_, ?_, ?_, ?_, ?_, ?_⟩
  · exact bar rfl (by decide +kernel) (plain_stage _)
  · exact bar rfl (by decide +kernel) (plain_bool _)
  · exact bar rfl (by decide +kernel) (plain_bool _)
  · exact bar rfl (by decide +kernel) (plain_bool _)
  · exact bar rfl (by decide +kernel) (plain_bool _)
  · exact ⟨120, [], rfl, not_mem_decimalBytes (by decide)⟩
  · exact ⟨47, [], rfl, not_mem_decimalBytes (by decide)⟩
  · exact ⟨47, [], rfl, plain_pixelFormat _⟩
  · exact bar rfl (by decide +kernel) (digits _)
  · exact bar rfl (by decide +kernel) (plain_bool _)
  · exact bar rfl (by decide +kernel) (plain_bool _)
  · exact bar rfl (by decide +kernel) (plain_secureBoot _)

/-- The line says everything about the observations. -/
theorem statusLine_inj {a b : BootObservations} (same : statusLine a = statusLine b) : a = b := by
  rw [statusLine_eq, statusLine_eq] at same
  have labels : (statusRows a).map Prod.fst = (statusRows b).map Prod.fst := rfl
  have rows := labelled_unique labels (statusRows_ends a) (statusRows_ends b) same
  have fields := congrArg (List.map Prod.snd) rows
  unfold statusRows at fields
  simp only [List.map_cons, List.map_nil, List.cons.injEq, and_true] at fields
  obtain ⟨-, uefi, conOut, bootServices, gop, width, height, format, byteLen, base, layout, secure, loader⟩ := fields
  have framebuffer : a.framebuffer = b.framebuffer := by
    have width := UInt32.toNat_inj.mp (decimalBytes_inj width)
    have height := UInt32.toNat_inj.mp (decimalBytes_inj height)
    have byteLen := UInt64.toNat_inj.mp (decimalBytes_inj byteLen)
    have format := PixelFormat.asWire_inj format
    have base := bool_inj base
    have layout := bool_inj layout
    cases hA : a.framebuffer
    cases hB : b.framebuffer
    simp only [hA, hB] at width height byteLen format base layout
    rw [width, height, byteLen, format, base, layout]
  cases a
  cases b
  simp only [BootObservations.mk.injEq]
  exact ⟨bool_inj uefi, bool_inj conOut, bool_inj bootServices, bool_inj gop, framebuffer,
    SecureBootState.asWire_inj secure, LoaderPathClass.asWire_inj loader⟩

theorem length_asWire_le (observations : BootObservations) :
    (utf8 (classifyBootStage observations).asWire).length ≤ 16 ∧
      (utf8 observations.framebuffer.pixelFormat.asWire).length ≤ 8 ∧
      (utf8 observations.secureBoot.asWire).length ≤ 8 ∧ (utf8 observations.loaderPath.asWire).length ≤ 15 := by
  refine ⟨?_, ?_, ?_, ?_⟩
  · cases classifyBootStage observations <;> decide +kernel
  · cases observations.framebuffer.pixelFormat <;> decide +kernel
  · cases observations.secureBoot <;> decide +kernel
  · cases observations.loaderPath <;> decide +kernel

/-- The status line fits the buffer of the boot path. -/
theorem length_statusLine_le (observations : BootObservations) : (statusLine observations).length ≤ 384 := by
  obtain ⟨stage, format, secure, loader⟩ := length_asWire_le observations
  have width : (decimalBytes observations.framebuffer.width.toNat).length ≤ 10 :=
    length_decimalBytes_le (by decide) (Nat.lt_trans observations.framebuffer.width.toNat_lt (by decide))
  have height : (decimalBytes observations.framebuffer.height.toNat).length ≤ 10 :=
    length_decimalBytes_le (by decide) (Nat.lt_trans observations.framebuffer.height.toNat_lt (by decide))
  have byteLen : (decimalBytes observations.framebuffer.byteLen.toNat).length ≤ 20 :=
    length_decimalBytes_le (by decide) (Nat.lt_trans observations.framebuffer.byteLen.toNat_lt (by decide))
  have bools (b : Bool) : (Push.bool b).bytes.length = 1 := rfl
  have texts : (utf8 "ASOBTDIAG|format=hbpish|evidence=MEASURED_BOOT|source=uefi|seat=unknown|receipt=unsealed|tuple=boot:diag:early|stage=").length =
      117 ∧ (utf8 "|uefi=").length = 6 ∧ (utf8 "|conout=").length = 8 ∧ (utf8 "|bs=").length = 4 ∧
      (utf8 "|gop=").length = 5 ∧ (utf8 "|fb=").length = 4 ∧ (utf8 "|fbbase=").length = 8 ∧
      (utf8 "|fblayout=").length = 10 ∧ (utf8 "|sb=").length = 4 ∧ (utf8 "|loader=").length = 8 := by decide +kernel
  rw [statusLine_eq]
  unfold statusRows labelled
  simp only [List.flatMap_cons, List.flatMap_nil, List.length_append, List.length_cons, List.length_nil, texts, bools]
  clear texts
  -- omega compares its atoms by unfolding, and these texts unfold far
  revert stage format secure loader
  generalize (utf8 (classifyBootStage observations).asWire).length = stage
  generalize (utf8 observations.framebuffer.pixelFormat.asWire).length = format
  generalize (utf8 observations.secureBoot.asWire).length = secure
  generalize (utf8 observations.loaderPath.asWire).length = loader
  omega

/-- A buffer that is long enough starts with the whole line. -/
theorem renderStatusLine_whole {observations : BootObservations} {out : Slice}
    (fits : (statusLine observations).length ≤ out.bytes.length) :
    renderStatusLine observations out = some (.ok (statusLine observations).length,
      statusLine observations ++ out.bytes.drop (statusLine observations).length) := by
  rw [renderStatusLine, (prints_statusLine observations).renderLine_eq, if_pos fits, List.take_of_length_le fits]

theorem produced_eq {observations : BootObservations} {out : Slice} {n : Nat} {buffer : List UInt8}
    (rendered : renderStatusLine observations out = some (.ok n, buffer)) :
    buffer.take n = statusLine observations := by
  by_cases fits : (statusLine observations).length ≤ out.bytes.length
  · rw [renderStatusLine_whole fits] at rendered
    simp only [Option.some.injEq, Prod.mk.injEq, Except.ok.injEq] at rendered
    rw [← rendered.1, ← rendered.2, List.take_left]
  · rw [renderStatusLine, (prints_statusLine observations).renderLine_eq, if_neg fits] at rendered
    simp at rendered

/-- Two observations with the same rendered line agree in every field. -/
theorem rendered_line_determines {a b : BootObservations} {outA outB : Slice} {lenA lenB : Nat} {bufA bufB : List UInt8}
    (renderedA : renderStatusLine a outA = some (.ok lenA, bufA))
    (renderedB : renderStatusLine b outB = some (.ok lenB, bufB)) (same : bufA.take lenA = bufB.take lenB) : a = b := by
  rw [produced_eq renderedA, produced_eq renderedB] at same
  exact statusLine_inj same

/-- A machine that is ready for the kernel. -/
def observed : BootObservations :=
  ⟨true, true, true, true, ⟨1920, 1080, .bgr, 8294400, true, true⟩, .disabled, .firmwareEfi⟩

theorem length_statusLine_observed : (statusLine observed).length = 237 := by decide +kernel

theorem rendered_line_determines_observed :
    renderStatusLine observed (.zeros 237 (by decide)) = some (.ok 237, statusLine observed) ∧
      observed = ⟨true, true, true, true, ⟨1920, 1080, .bgr, 8294400, true, true⟩, .disabled, .firmwareEfi⟩ := by
  have exactly : renderStatusLine observed (.zeros 237 (by decide)) = some (.ok 237, statusLine observed) := by
    rw [renderStatusLine_whole (by rw [length_statusLine_observed, Slice.zeros, List.length_replicate]),
      length_statusLine_observed, List.drop_of_length_le (by rw [Slice.zeros, List.length_replicate]),
      List.append_nil]
  have wide : renderStatusLine observed (.zeros 384 (by decide)) =
      some (.ok 237, statusLine observed ++ (List.replicate 384 0).drop 237) := by
    rw [renderStatusLine_whole (by rw [length_statusLine_observed, Slice.zeros, List.length_replicate]; decide),
      length_statusLine_observed]
    rfl
  refine ⟨exactly, rendered_line_determines exactly wide ?_⟩
  rw [← length_statusLine_observed, List.take_length, List.take_left]

end Asolaria.BootLines
