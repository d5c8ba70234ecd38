import Asolaria.Cosign.ChainRun
import Asolaria.Library.Delimited

namespace Asolaria.Cosign
open Library Syscall

/-- The row is accepted by some chain that appends have made. -/
def Acceptable (row : CosignRow) : Prop := ∃ history chain, AppendRun history chain ∧ (chain.append row).1 = .ok ()

/-- The fields that the canonical bytes are made of agree. -/
structure SameText (left right : CosignRow) : Prop where
  row : left.row = right.row
  tsNs : left.tsNs = right.tsNs
  prevSha16 : left.prevSha16 = right.prevSha16
  kind : left.kind = right.kind
  payloadSha16 : left.payloadSha16 = right.payloadSha16

/-- The text between the kind and the payload. -/
def payloadMark : List Char := ['|', 'p', 'a', 'y', 'l', 'o', 'a', 'd', '=']

variable {row row' : CosignRow}

theorem length_sha16Of (bytes : List UInt8) : (sha16Of bytes).toList.length = 16 := by
  simp [sha16Of]

theorem rowFormat_head_length (rows : List CosignRow) : (rowFormat.head rows).toList.length = 16 := by
  rcases List.eq_nil_or_concat rows with rfl | ⟨rest, last, rfl⟩
  · rfl
  · rw [List.concat_eq_append, rowFormat.head_append_singleton]
    exact length_sha16Of _

theorem CosignChain.append_ok_iff {chain : CosignChain} : (chain.append row).1 = .ok () ↔
    row.row = chain.nextRow ∧ row.prevSha16 = chain.headSha16 ∧ row.kind.isEmpty = false := by
  have outcome := chain.append_case row
  generalize chain.append row = result at outcome
  cases outcome with
  | outOfOrder other => simp [other]
  | unlinked _ other => simp [other]
  | untagged _ _ empty => simp [empty]
  | accepted numbered linked tagged => simp [numbered, linked, tagged]

theorem Acceptable.prev_length (accepted : Acceptable row) : row.prevSha16.toList.length = 16 := by
  obtain ⟨history, chain, run, ok⟩ := accepted
  rw [(CosignChain.append_ok_iff.mp ok).2.1, run.inStep.head]
  exact rowFormat_head_length _

theorem Acceptable.kind_ne_nil (accepted : Acceptable row) : row.kind.toList ≠ [] := by
  obtain ⟨history, chain, run, ok⟩ := accepted
  intro empty
  have tagged := (CosignChain.append_ok_iff.mp ok).2.2
  rw [String.toList_eq_nil_iff] at empty
  simp [empty] at tagged

/-- An acceptable row stays so with another filled kind and any payload. -/
theorem Acceptable.retagged (accepted : Acceptable row) {kind : String} (tagged : kind.isEmpty = false)
    (payloadSha16 : String) : Acceptable { row with kind, payloadSha16 } := by
  obtain ⟨history, chain, run, ok⟩ := accepted
  obtain ⟨numbered, linked, _⟩ := CosignChain.append_ok_iff.mp ok
  exact ⟨history, chain, run, CosignChain.append_ok_iff.mpr ⟨numbered, linked, tagged⟩⟩

/-- Behind numbers and a predecessor of fixed width, the canonical bytes of
two rows agree exactly where their kinds and payloads do once joined. -/
theorem canonicalBytesOfRow_eq_iff (width : row.prevSha16.toList.length = row'.prevSha16.toList.length) :
    canonicalBytesOfRow row = canonicalBytesOfRow row' ↔
      row.row = row'.row ∧ row.tsNs = row'.tsNs ∧ row.prevSha16 = row'.prevSha16 ∧
        row.kind.toList ++ payloadMark ++ row.payloadSha16.toList =
          row'.kind.toList ++ payloadMark ++ row'.payloadSha16.toList := by
  have layout : ∀ row : CosignRow, (canonicalBytesOfRow row).toList = "row=".toList ++ ((toString row.row).toList ++ '|' ::
      ("ts=".toList ++ ((toString row.tsNs).toList ++ '|' :: ("prev=".toList ++ (row.prevSha16.toList ++
        ("|kind=".toList ++ (row.kind.toList ++ payloadMark ++ row.payloadSha16.toList))))))) := by
    intro row
    have time : "|ts=".toList = '|' :: "ts=".toList := by decide
    have previous : "|prev=".toList = '|' :: "prev=".toList := by decide
    have payload : "|payload=".toList = payloadMark := by decide
    unfold canonicalBytesOfRow
    simp only [String.toList_append, time, previous, payload, List.append_assoc, List.cons_append]
  constructor
  · intro same
    have texts := congrArg String.toList same
    rw [layout, layout] at texts
    obtain ⟨number, texts⟩ := cut_unique (List.append_cancel_left texts) (not_mem_decimal _ rfl) (not_mem_decimal _ rfl)
    obtain ⟨time, texts⟩ := cut_unique (List.append_cancel_left texts) (not_mem_decimal _ rfl) (not_mem_decimal _ rfl)
    obtain ⟨previous, texts⟩ := List.append_inj (List.append_cancel_left texts) width
    exact ⟨decimal_inj number, decimal_inj time, String.toList_inj.mp previous, List.append_cancel_left texts⟩
  · rintro ⟨number, time, previous, texts⟩
    apply String.toList_inj.mp
    rw [layout, layout, number, time, previous, texts]

/-- Moving the mark between the kind and the payload changes the row and
not its canonical bytes. -/
theorem canonicalBytesOfRow_retagged {kind payload : List Char}
    (texts : row.kind.toList ++ payloadMark ++ row.payloadSha16.toList = kind ++ payloadMark ++ payload) :
    canonicalBytesOfRow row =
      canonicalBytesOfRow { row with kind := .ofList kind, payloadSha16 := .ofList payload } := by
  have width : row.prevSha16.toList.length =
      { row with kind := .ofList kind, payloadSha16 := .ofList payload : CosignRow }.prevSha16.toList.length := rfl
  refine (canonicalBytesOfRow_eq_iff width).mpr ⟨rfl, rfl, rfl, ?_⟩
  rw [texts, String.toList_ofList, String.toList_ofList]

theorem Acceptable.determined_kind (accepted : Acceptable row)
    (determines : ∀ row', Acceptable row' → canonicalBytesOfRow row = canonicalBytesOfRow row' → SameText row row')
    {kind payload : List Char} (filled : kind ≠ [])
    (texts : row.kind.toList ++ payloadMark ++ row.payloadSha16.toList = kind ++ payloadMark ++ payload) :
    row.kind.toList = kind := by
  have tagged : (String.ofList kind).isEmpty = false := by simpa using filled
  have same := determines _ (accepted.retagged tagged (.ofList payload)) (canonicalBytesOfRow_retagged texts)
  rw [same.kind, String.toList_ofList]

/-- The canonical bytes determine an acceptable row exactly where the mark
of the payload occurs neither in its payload nor in its kind beyond the
first character. -/
theorem canonical_bytes_determine_row_iff (accepted : Acceptable row) :
    (∀ row', Acceptable row' → canonicalBytesOfRow row = canonicalBytesOfRow row' → SameText row row') ↔
      ¬ payloadMark <:+: row.kind.toList.tail ∧ ¬ payloadMark <:+: row.payloadSha16.toList := by
  constructor
  · intro determines
    constructor
    · rintro ⟨x, y, cut⟩
      obtain ⟨first, rest, kind⟩ := List.exists_cons_of_ne_nil accepted.kind_ne_nil
      rw [kind, List.tail_cons] at cut
      have same := accepted.determined_kind determines (List.cons_ne_nil first x)
        (show _ = _ ++ _ ++ (y ++ payloadMark ++ row.payloadSha16.toList) by
          rw [kind, ← cut]; simp only [List.append_assoc, List.cons_append])
      have lengths := congrArg List.length same
      rw [kind, ← cut] at lengths
      simp [payloadMark] at lengths
    · rintro ⟨x, y, cut⟩
      have same := accepted.determined_kind determines
        (show row.kind.toList ++ payloadMark ++ x ≠ [] from List.append_ne_nil_of_left_ne_nil (by simp [payloadMark]) _)
        (show _ = _ ++ _ ++ y by rw [← cut]; simp only [List.append_assoc])
      have lengths := congrArg List.length same
      simp [payloadMark] at lengths
  · rintro ⟨kindPlain, payloadPlain⟩ row' accepted' same
    have width : row.prevSha16.toList.length = row'.prevSha16.toList.length := by
      rw [accepted.prev_length, accepted'.prev_length]
    obtain ⟨number, time, previous, texts⟩ := (canonicalBytesOfRow_eq_iff width).mp same
    have plain : '|' ∉ payloadMark.tail := by decide
    cases twoCuts plain texts with
    | same kind payload =>
      exact ⟨number, time, previous, String.toList_inj.mp kind, String.toList_inj.mp payload⟩
    | later m _ payload => exact absurd ⟨m, _, payload.symm⟩ payloadPlain
    | earlier m kind _ =>
      obtain ⟨first, rest, filled⟩ := List.exists_cons_of_ne_nil accepted'.kind_ne_nil
      rw [filled] at kind
      exact absurd ⟨rest, m, by rw [kind]; rfl⟩ kindPlain

theorem acceptable_of_first (first : (CosignChain.new.append row).1 = .ok ()) : Acceptable row :=
  ⟨[], CosignChain.new, .start, first⟩

theorem sampleRow_determined : Acceptable (sampleRow 1 genesisPrevSha16) ∧
    ∀ row', Acceptable row' → canonicalBytesOfRow (sampleRow 1 genesisPrevSha16) = canonicalBytesOfRow row' →
      SameText (sampleRow 1 genesisPrevSha16) row' := by
  have accepted : Acceptable (sampleRow 1 genesisPrevSha16) := acceptable_of_first rfl
  exact ⟨accepted, (canonical_bytes_determine_row_iff accepted).mpr ⟨by decide, by decide⟩⟩

/-- A row whose payload holds the mark, and one whose kind does. -/
def markInPayload : CosignRow := { sampleRow 1 genesisPrevSha16 with kind := "A", payloadSha16 := "B|payload=C" }

def markInKind : CosignRow := { sampleRow 1 genesisPrevSha16 with kind := "A|payload=B", payloadSha16 := "C" }

theorem two_rows_one_canonical_text : Acceptable markInPayload ∧ Acceptable markInKind ∧
    canonicalBytesOfRow markInPayload = canonicalBytesOfRow markInKind ∧ markInPayload.kind ≠ markInKind.kind :=
  ⟨acceptable_of_first rfl, acceptable_of_first rfl, by decide, by decide⟩

end Asolaria.Cosign
