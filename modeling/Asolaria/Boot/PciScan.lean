import Asolaria.Boot.DevicePid
import Asolaria.Library.Collect

namespace Asolaria.Boot
open Library

/-- A function of a device, as the enumeration reads it. -/
structure PciFunction where
  bus : UInt8
  dev : UInt8
  func : UInt8
  vendor : UInt16
  device : UInt16
  classCode : UInt8
  subclass : UInt8
  progIf : UInt8
  deriving DecidableEq, Repr

namespace PciFunction

def read (config : PciConfig) (bus dev func : UInt8) : PciFunction :=
  let id := cfgRead32 config bus dev func 0x00
  let classReg := cfgRead32 config bus dev func 0x08
  { bus, dev, func
    vendor := (id &&& 0xFFFF).toUInt16
    device := (id >>> 16).toUInt16
    classCode := ((classReg >>> 24) &&& 0xFF).toUInt8
    subclass := ((classReg >>> 16) &&& 0xFF).toUInt8
    progIf := ((classReg >>> 8) &&& 0xFF).toUInt8 }

/-- Vendor, device, class and subclass, six bytes in big-endian order. -/
def record (f : PciFunction) : List UInt8 :=
  beBytes 2 f.vendor.toNat ++ beBytes 2 f.device.toNat ++ [f.classCode, f.subclass]

end PciFunction

/-- Bit 7 of the header type of function 0. -/
def multiFunction (config : PciConfig) (bus dev : UInt8) : Prop :=
  ((cfgRead32 config bus dev 0 0x0C >>> 16) &&& 0xFF).toUInt8 &&& 0x80 ≠ 0

/-- The slot is populated, the function may exist in it, and it does. -/
def Present (config : PciConfig) (bus dev func : UInt8) : Prop :=
  (PciFunction.read config bus dev 0).vendor ≠ 0xFFFF ∧ (func = 0 ∨ multiFunction config bus dev) ∧
    (PciFunction.read config bus dev func).vendor ≠ 0xFFFF

instance (config : PciConfig) (bus dev : UInt8) : Decidable (multiFunction config bus dev) :=
  inferInstanceAs (Decidable (_ ≠ _))

instance (config : PciConfig) (bus dev func : UInt8) : Decidable (Present config bus dev func) :=
  inferInstanceAs (Decidable (_ ∧ _))

/-- The present functions in the order of bus, device and function. -/
def presentFunctions (config : PciConfig) : List PciFunction :=
  (upTo 256).flatMap fun bus => (upTo 32).flatMap fun dev =>
    ((upTo 8).filter (Present config bus dev ·)).map (PciFunction.read config bus dev)

variable (config : PciConfig)

theorem length_record (f : PciFunction) : f.record.length = 6 := by simp [PciFunction.record]

theorem halves_eq_beBytes (word : UInt16) : [(word >>> 8).toUInt8, (word &&& 0xFF).toUInt8] = beBytes 2 word.toNat := by
  have high : (word >>> 8).toUInt8 = UInt8.ofNat (word.toNat / 256 ^ 1) := by
    apply UInt8.toNat_inj.mp
    simp [Nat.shiftRight_eq_div_pow]
  have low : (word &&& 0xFF).toUInt8 = UInt8.ofNat (word.toNat / 256 ^ 0) := by
    apply UInt8.toNat_inj.mp
    have masked : word.toNat % 256 &&& 255 = word.toNat % 256 % 256 := Nat.and_two_pow_sub_one_eq_mod _ 8
    simp [masked]
  rw [beBytes, beBytes, beBytes, high, low]

/-- The vendor is all ones as a word of 16 bits exactly when it is so before the
cast. -/
theorem vendor_absent_iff (id : UInt32) : (id &&& 0xFFFF).toUInt16 = 0xFFFF ↔ id &&& 0xFFFF = 0xFFFF := by
  rw [← UInt16.toNat_inj, ← UInt32.toNat_inj]
  have masked : (id &&& 0xFFFF).toNat = id.toNat % 65536 := Nat.and_two_pow_sub_one_eq_mod id.toNat 16
  rw [UInt32.toNat_toUInt16, masked]
  simp

/-- What a present function adds to the enumeration. -/
def HwScan.visit (scan : HwScan) (f : PciFunction) : HwScan where
  tuple := scan.tuple.push f.vendor f.device f.classCode f.subclass f.progIf
  serial := scan.serial ++ [pciLine f.bus f.dev f.func f.vendor f.device f.classCode f.subclass f.progIf]

def HwScan.Full (scan : HwScan) : Prop := scan.tuple.count ≥ 64

instance : DecidablePred HwScan.Full := fun scan => inferInstanceAs (Decidable (scan.tuple.count ≥ 64))

abbrev visitUntilFull : HwScan → PciFunction → Except HwScan HwScan := collect HwScan.visit HwScan.Full

theorem scanFunc_eq (bus dev func : UInt8) (scan : HwScan) :
    scanFunc config bus dev scan func = if (PciFunction.read config bus dev func).vendor ≠ 0xFFFF then
      visitUntilFull scan (PciFunction.read config bus dev func) else .ok scan := by
  by_cases absent : (PciFunction.read config bus dev func).vendor = 0xFFFF
  · rw [if_neg (not_not.mpr absent)]
    exact if_pos absent
  · rw [if_pos absent]
    exact if_neg absent

/-- The functions that the inner loop finds in a slot. -/
def slotFunctions (bus dev : UInt8) : List PciFunction :=
  ((upTo 8).filter (Present config bus dev ·)).map (PciFunction.read config bus dev)

theorem foldlM_scanFunc (bus dev : UInt8) (funcs : List UInt8) (scan : HwScan) :
    funcs.foldlM (scanFunc config bus dev) scan =
      ((funcs.filter fun func => (PciFunction.read config bus dev func).vendor ≠ 0xFFFF).map
        (PciFunction.read config bus dev)).foldlM visitUntilFull scan := by
  rw [List.foldlM_map, List.foldlM_filter]
  congr 1
  funext scan func
  rw [scanFunc_eq]
  simp only [decide_eq_true_iff]
  rfl

/-- A slot without the multi-function mark has its function 0 only. -/
theorem filter_single {bus dev : UInt8} (single : ¬ multiFunction config bus dev)
    (populated : (PciFunction.read config bus dev 0).vendor ≠ 0xFFFF) :
    (upTo 8).filter (Present config bus dev ·) = [0] := by
  have rest : ∀ func ∈ [1, 2, 3, 4, 5, 6, 7], ¬ Present config bus dev func := by
    intro func member present
    rcases present.2.1 with rfl | multi
    · exact absurd member (by decide)
    · exact single multi
  have zero : Present config bus dev 0 := ⟨populated, .inl rfl, populated⟩
  have numbers : upTo 8 = 0 :: [1, 2, 3, 4, 5, 6, 7] := by decide
  have none : [1, 2, 3, 4, 5, 6, 7].filter (Present config bus dev ·) = [] :=
    List.filter_eq_nil_iff.mpr fun func member found => rest func member (of_decide_eq_true found)
  rw [numbers, List.filter_cons, if_pos (decide_eq_true zero), none]

theorem scanDev_eq (bus dev : UInt8) (scan : HwScan) :
    scanDev config bus scan dev = (slotFunctions config bus dev).foldlM visitUntilFull scan := by
  unfold slotFunctions
  by_cases empty : (PciFunction.read config bus dev 0).vendor = 0xFFFF
  · have none : (upTo 8).filter (Present config bus dev ·) = [] :=
      List.filter_eq_nil_iff.mpr fun func _ found => (of_decide_eq_true found).1 empty
    rw [none]
    exact if_pos ((vendor_absent_iff _).mp empty)
  · have looped : scanDev config bus scan dev =
        (upTo (if multiFunction config bus dev then 8 else 1)).foldlM (scanFunc config bus dev) scan :=
      if_neg fun absent => empty ((vendor_absent_iff _).mpr absent)
    rw [looped, foldlM_scanFunc]
    by_cases multi : multiFunction config bus dev
    · rw [if_pos multi]
      congr 2
      refine List.filter_congr fun func _ => ?_
      simp [Present, empty, multi]
    · have only : (upTo 1).filter (fun func => (PciFunction.read config bus dev func).vendor ≠ 0xFFFF) = [0] := by
        simp [upTo, empty]
      rw [if_neg multi, filter_single config multi empty, only]

/-- The three loops visit the present functions in order until they are full. -/
theorem foldlM_scanBus (scan : HwScan) :
    (upTo 256).foldlM (scanBus config) scan = (presentFunctions config).foldlM visitUntilFull scan := by
  have slots (bus : UInt8) (scan : HwScan) :
      scanBus config scan bus = ((upTo 32).flatMap (slotFunctions config bus)).foldlM visitUntilFull scan := by
    rw [foldlM_flatMap, scanBus]
    congr 1
    funext scan dev
    exact scanDev_eq config bus dev scan
  have buses : presentFunctions config = (upTo 256).flatMap fun bus => (upTo 32).flatMap (slotFunctions config bus) := rfl
  rw [buses, foldlM_flatMap]
  congr 1
  funext scan bus
  exact slots bus scan

/-- The tuple of a list of functions, with nothing dropped. -/
structure TupleOf (functions : List PciFunction) (tuple : HwTuple) : Prop where
  buf : tuple.buf = functions.flatMap PciFunction.record
  count : tuple.count.toNat = functions.length
  rstVmd : tuple.rstVmd = true ↔ ∃ f ∈ functions, f.vendor = 0x8086 ∧ f.device = 0x282A
  ahci : tuple.ahci = true ↔ ∃ f ∈ functions, f.classCode = 0x01 ∧ f.subclass = 0x06 ∧ f.progIf = 0x01
  storage : tuple.storage = true ↔ ∃ f ∈ functions, f.classCode = 0x01

variable {functions : List PciFunction} {tuple : HwTuple}

theorem TupleOf.new : TupleOf [] HwTuple.new where
  buf := rfl
  count := rfl
  rstVmd := by simp [HwTuple.new]
  ahci := by simp [HwTuple.new]
  storage := by simp [HwTuple.new]

theorem length_flatMap_record (functions : List PciFunction) :
    (functions.flatMap PciFunction.record).length = 6 * functions.length := by
  rw [List.length_flatMap]
  simp [length_record, Nat.mul_comm]

/-- A flag that is set by a function and never cleared. -/
theorem flag_push {flag : Bool} {marks : PciFunction → Prop} [DecidablePred marks]
    (sound : flag = true ↔ ∃ f ∈ functions, marks f) (f : PciFunction) :
    (if marks f then true else flag) = true ↔ ∃ g ∈ functions ++ [f], marks g := by
  by_cases marked : marks f
  · rw [if_pos marked]
    exact iff_of_true rfl ⟨f, List.mem_append_right _ (List.mem_singleton_self f), marked⟩
  · rw [if_neg marked, sound]
    simp [marked]

theorem count_push {vendor device : UInt16} {classCode subclass progIf : UInt8} (small : tuple.count.toNat < 85) :
    (tuple.push vendor device classCode subclass progIf).count.toNat = tuple.count.toNat + 1 := by
  show (tuple.count + 1).toNat = tuple.count.toNat + 1
  rw [UInt32.toNat_add]
  refine Nat.mod_eq_of_lt ?_
  show tuple.count.toNat + 1 < 2 ^ 32
  omega

/-- There is room for the records of 85 functions. -/
theorem TupleOf.push (whole : TupleOf functions tuple) (room : functions.length < 85) (f : PciFunction) :
    TupleOf (functions ++ [f]) (tuple.push f.vendor f.device f.classCode f.subclass f.progIf) where
  buf := by
    have bytes : f.record = [(f.vendor >>> 8).toUInt8, (f.vendor &&& 0xFF).toUInt8, (f.device >>> 8).toUInt8,
        (f.device &&& 0xFF).toUInt8, f.classCode, f.subclass] := by
      rw [PciFunction.record, ← halves_eq_beBytes, ← halves_eq_beBytes]
      rfl
    rw [List.flatMap_append, List.flatMap_singleton, ← whole.buf, bytes]
    refine if_pos ?_
    rw [whole.buf, length_flatMap_record, tupleCap]
    simp only [List.length_cons, List.length_nil]
    omega
  count := by
    have small : tuple.count.toNat < 85 := by rwa [whole.count]
    rw [count_push small, whole.count, List.length_append, List.length_singleton]
  rstVmd := flag_push whole.rstVmd f
  ahci := flag_push whole.ahci f
  storage := flag_push whole.storage f

theorem TupleOf.visited {scan : HwScan} (whole : TupleOf functions scan.tuple) (more : List PciFunction)
    (room : functions.length + more.length ≤ 85) : TupleOf (functions ++ more) (more.foldl HwScan.visit scan).tuple := by
  induction more generalizing functions scan with
  | nil =>
    rw [List.append_nil]
    exact whole
  | cons f rest ih =>
    rw [List.length_cons] at room
    have next : TupleOf (functions ++ [f]) (scan.visit f).tuple := whole.push (by omega) f
    rw [List.foldl_cons, List.append_cons]
    refine ih next ?_
    rw [List.length_append, List.length_singleton]
    omega

theorem tuple_enumerate : (enumerate config).tuple = (outcome ((upTo 256).foldlM (scanBus config) .start)).tuple := by
  unfold enumerate
  cases (upTo 256).foldlM (scanBus config) HwScan.start with
  | error scan => rfl
  | ok scan => rfl

/-- The enumeration ends with the first 64 present functions. -/
theorem tupleOf_enumerate : TupleOf ((presentFunctions config).take 64) (enumerate config).tuple := by
  have grows (scan : HwScan) (f : PciFunction) (room : scan.tuple.count.toNat < 64) :
      (scan.visit f).tuple.count.toNat = scan.tuple.count.toNat + 1 := count_push (by omega)
  have full_iff (scan : HwScan) : scan.Full ↔ 64 ≤ scan.tuple.count.toNat := UInt32.le_iff_toNat_le
  have empty : HwScan.start.tuple.count.toNat < 64 := by decide
  have first := outcome_foldlM_collect grows full_iff (presentFunctions config) empty
  have start : TupleOf [] HwScan.start.tuple := TupleOf.new
  rw [tuple_enumerate, foldlM_scanBus, first]
  refine start.visited _ ?_
  rw [List.length_take, List.length_nil]
  show 0 + min 64 _ ≤ 85
  omega

theorem coordBytes_eq (coord : List UInt16) : coordBytes coord = coord.flatMap fun g => beBytes 2 g.toNat := by
  refine List.flatMap_congr fun g _ => ?_
  exact halves_eq_beBytes g

/-- Records have one length, so a tuple determines the records in it. -/
theorem records_eq_of_flatMap_eq {functions others : List PciFunction}
    (same : functions.flatMap PciFunction.record = others.flatMap PciFunction.record) :
    functions.map PciFunction.record = others.map PciFunction.record := by
  have lengths := congrArg List.length same
  rw [length_flatMap_record, length_flatMap_record] at lengths
  have sixes (functions : List PciFunction) :
      (functions.map PciFunction.record).map List.length = List.replicate functions.length 6 := by
    rw [List.map_map, List.eq_replicate_iff, List.length_map]
    refine ⟨rfl, fun n member => ?_⟩
    obtain ⟨f, _, rfl⟩ := List.mem_map.mp member
    exact length_record f
  refine List.eq_iff_flatten_eq.mpr ⟨same, ?_⟩
  rw [sixes, sixes]
  congr 1
  omega

/-- The records of the first 64 present functions. -/
def firstRecords (config : PciConfig) : List (List UInt8) := ((presentFunctions config).take 64).map PciFunction.record

/-- What `pci_scan` makes of a list of functions. -/
structure MintedFrom (functions : List PciFunction) (tuple : HwTuple) (summary : HwSummary) : Prop where
  bytes : tuple.buf = (functions.map PciFunction.record).flatten
  count : tuple.count.toNat = functions.length
  length : tuple.buf.length = 6 * tuple.count.toNat
  short : tuple.buf.length ≤ 384
  rstVmd : summary.rstVmd = true ↔ ∃ f ∈ functions, f.vendor = 0x8086 ∧ f.device = 0x282A
  ahci : summary.ahci = true ↔ ∃ f ∈ functions, f.classCode = 0x01 ∧ f.subclass = 0x06 ∧ f.progIf = 0x01
  digest : summary.deviceDigest = Sha256.digest ((project60d tuple.buf).flatMap fun g => beBytes 2 g.toNat)

theorem summary_pciScan (seat : Seat) : (pciScan config seat).1 = ⟨(emitDevicePid (enumerate config).tuple seat).1,
    (enumerate config).tuple.rstVmd, (enumerate config).tuple.ahci⟩ := rfl

/-- For every configuration space the identity is minted from exactly the first
64 present functions, and other records there give another tuple. -/
theorem pciScan_mints_first_64 (seat : Seat) :
    MintedFrom ((presentFunctions config).take 64) (enumerate config).tuple (pciScan config seat).1 ∧
    ∀ other, firstRecords other ≠ firstRecords config → (enumerate other).tuple.buf ≠ (enumerate config).tuple.buf := by
  have whole := tupleOf_enumerate config
  have length : (enumerate config).tuple.buf.length = 6 * (enumerate config).tuple.count.toNat := by
    rw [whole.buf, whole.count, length_flatMap_record]
  refine ⟨{ bytes := whole.buf, count := whole.count, length, short := ?_, rstVmd := whole.rstVmd, ahci := whole.ahci,
            digest := ?_ }, ?_⟩
  · rw [length, whole.count, List.length_take]
    omega
  · rw [summary_pciScan, emitDevicePid_eq, coordBytes_eq]
  · intro other differ same
    rw [(tupleOf_enumerate other).buf, whole.buf] at same
    exact differ (records_eq_of_flatMap_eq same)

end Asolaria.Boot
