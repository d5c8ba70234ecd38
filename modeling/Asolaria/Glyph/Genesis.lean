import Asolaria.Library.Hex
import Asolaria.Library.PrefixCode
import Asolaria.Library.Sha256
import Asolaria.Library.Text
import Asolaria.Syscall.Kernel

namespace Asolaria.Glyph
open Library Syscall

/-- An alphabet with an entry for every byte. -/
abbrev Alphabet := Vector String 256

/-- The first eight bytes of a digest as one number, most significant first. -/
def leadingNumber (bytes : List UInt8) : UInt64 := bytes.foldl (fun v byte => (v <<< 8) ||| byte.toUInt64) 0

/-- The digits of a number to the base of 256, the last one first. -/
def glyphLoop (alphabet : Alphabet) : Nat → UInt64 → List Char
  | 0, _ => []
  | n + 1, v => (alphabet.toList.getD (v % 256).toNat "").toList ++ glyphLoop alphabet n (v / 256)

def keyBytes (key : String) : List UInt8 := (Sha256.digest (utf8 key)).toList.take 8

def glyph (key : String) (alphabet : Alphabet) : String :=
  String.ofList (glyphLoop alphabet 8 (leadingNumber (keyBytes key)))

structure SentenceWord where
  dim : String
  tuple : String
  glyph : String
  deriving DecidableEq, Repr

def sentence (fields : List (String × String)) (alphabet : Alphabet) : List SentenceWord :=
  fields.map fun (d, v) =>
    let tuple := d ++ ":" ++ v
    ⟨d, tuple, glyph tuple alphabet⟩

/-- `pid_fingerprint_sha16`, as bytes of text. -/
def pidFingerprintSha16 (pid : String) : List UInt8 := toHex (keyBytes pid)

variable {alphabet : Alphabet} {bytes : List UInt8} {b : UInt8} {v : UInt64}

/-- One more byte at the end of a number that leaves room for it. -/
theorem toNat_shift_or (room : v.toNat < 2 ^ 56) : ((v <<< 8) ||| b.toUInt64).toNat = v.toNat * 256 + b.toNat := by
  have low : b.toNat < 2 ^ 8 := b.toNat_lt
  have shifted : (v.toNat <<< 8) % 2 ^ 64 = v.toNat <<< 8 := by
    rw [Nat.shiftLeft_eq]
    exact Nat.mod_eq_of_lt (by omega)
  have joined : v.toNat <<< 8 ||| b.toNat = v.toNat * 256 + b.toNat := by
    rw [← Nat.shiftLeft_add_eq_or_of_lt low, Nat.shiftLeft_eq]
  rw [UInt64.toNat_or, UInt64.toNat_shiftLeft, UInt8.toNat_toUInt64]
  change (v.toNat <<< 8) % 2 ^ 64 ||| b.toNat = _
  rw [shifted, joined]

theorem leadingNumber_concat (bytes : List UInt8) (b : UInt8) :
    leadingNumber (bytes ++ [b]) = (leadingNumber bytes <<< 8) ||| b.toUInt64 := by
  rw [leadingNumber, List.foldl_append, leadingNumber]
  rfl

theorem leadingNumber_lt (short : bytes.length ≤ 8) : (leadingNumber bytes).toNat < 256 ^ bytes.length := by
  induction bytes using List.reverseRecOn with
  | nil => decide
  | append_singleton bytes b ih =>
    rw [List.length_append, List.length_singleton] at short ⊢
    have before := ih (by omega)
    have room : (leadingNumber bytes).toNat < 2 ^ 56 := by
      have scale : 256 ^ bytes.length ≤ 256 ^ 7 := Nat.pow_le_pow_right (by decide) (by omega)
      omega
    have low : b.toNat < 256 := b.toNat_lt
    rw [leadingNumber_concat, toNat_shift_or room, Nat.pow_succ]
    omega

theorem glyphLoop_bytes (short : bytes.length ≤ 8) : glyphLoop alphabet bytes.length (leadingNumber bytes) =
    bytes.reverse.flatMap fun b => (alphabet.toList.getD b.toNat "").toList := by
  induction bytes using List.reverseRecOn with
  | nil => rfl
  | append_singleton bytes b ih =>
    rw [List.length_append, List.length_singleton] at short ⊢
    have before := leadingNumber_lt (show bytes.length ≤ 8 by omega)
    have room : (leadingNumber bytes).toNat < 2 ^ 56 := by
      have scale : 256 ^ bytes.length ≤ 256 ^ 7 := Nat.pow_le_pow_right (by decide) (by omega)
      omega
    have low : b.toNat < 256 := b.toNat_lt
    have whole := toNat_shift_or (b := b) room
    have digit : (leadingNumber (bytes ++ [b]) % 256).toNat = b.toNat := by
      rw [leadingNumber_concat, UInt64.toNat_mod, whole]
      change (_ * 256 + b.toNat) % 256 = b.toNat
      omega
    have rest : leadingNumber (bytes ++ [b]) / 256 = leadingNumber bytes := by
      rw [← UInt64.toNat_inj, leadingNumber_concat, UInt64.toNat_div, whole]
      change (_ * 256 + b.toNat) / 256 = _
      omega
    rw [glyphLoop, digit, rest, ih (by omega), List.reverse_append, List.reverse_singleton, List.singleton_append,
      List.flatMap_cons]

theorem length_keyBytes (key : String) : (keyBytes key).length = 8 := by
  rw [keyBytes, List.length_take, Vector.length_toList]
  rfl

/-- The entry of the alphabet for a byte. -/
def Alphabet.entry (alphabet : Alphabet) (b : UInt8) : List Char := (alphabet.toList.getD b.toNat "").toList

theorem glyph_eq (key : String) (alphabet : Alphabet) :
    glyph key alphabet = String.ofList ((keyBytes key).reverse.flatMap alphabet.entry) := by
  have loop := @glyphLoop_bytes alphabet (keyBytes key) (Nat.le_of_eq (length_keyBytes key))
  rw [length_keyBytes] at loop
  rw [glyph, loop]
  rfl

/-- A glyph over an alphabet where no entry begins another one says as much as
the fingerprint of a PID. -/
theorem glyph_eq_iff (free : PrefixFree alphabet.entry) (key key' : String) :
    glyph key alphabet = glyph key' alphabet ↔ pidFingerprintSha16 key = pidFingerprintSha16 key' := by
  have bytes : pidFingerprintSha16 key = pidFingerprintSha16 key' ↔ keyBytes key = keyBytes key' :=
    ⟨toHex_inj, congrArg toHex⟩
  rw [bytes, glyph_eq, glyph_eq]
  constructor
  · intro same
    have length : (keyBytes key).reverse.length = (keyBytes key').reverse.length := by
      rw [List.length_reverse, List.length_reverse, length_keyBytes, length_keyBytes]
    exact List.reverse_injective (free.flatMap_inj length (String.ofList_injective same))
  · intro same
    rw [same]

/-- One letter for every byte, from those behind Latin-1. -/
def letters : Alphabet := Vector.ofFn fun i => String.singleton (Char.ofNat (0x100 + i.val))

theorem entry_letters (b : UInt8) : letters.entry b = [Char.ofNat (0x100 + b.toNat)] := by
  have inside : b.toNat < 256 := b.toNat_lt
  have found : letters.toList.getD b.toNat "" = String.singleton (Char.ofNat (0x100 + b.toNat)) := by
    rw [letters, List.getD_eq_getElem?_getD, Vector.toList_ofFn, List.getElem?_ofFn, dif_pos inside, Option.getD_some]
  rw [Alphabet.entry, found, String.toList_singleton]

theorem prefixFree_letters : PrefixFree letters.entry := by
  intro a b starts
  rw [entry_letters, entry_letters] at starts
  have same : Char.ofNat (0x100 + a.toNat) = Char.ofNat (0x100 + b.toNat) := (List.cons_prefix_cons.mp starts).1
  have code : ∀ c : UInt8, (Char.ofNat (0x100 + c.toNat)).toNat = 0x100 + c.toNat := by
    intro c
    have inside : c.toNat < 256 := c.toNat_lt
    have valid : (0x100 + c.toNat).isValidChar := Or.inl (by omega)
    rw [Char.ofNat, dif_pos valid]
    rfl
  have number := congrArg Char.toNat same
  rw [code, code] at number
  exact UInt8.toNat_inj.mp (Nat.add_left_cancel number)

theorem glyph_eq_iff_letters : glyph "D1:liris" letters = glyph "D1:falcon" letters ↔
    pidFingerprintSha16 "D1:liris" = pidFingerprintSha16 "D1:falcon" :=
  glyph_eq_iff prefixFree_letters "D1:liris" "D1:falcon"

end Asolaria.Glyph
