import Mathlib.Data.List.Basic

namespace Library

/-- What holds of every entry of a log at its own position holds after one
more entry, once it holds of that entry. -/
theorem forall_getElem_concat {α : Type*} {log : List α} {entry : α} (Holds : Nat → α → Prop)
    (old : ∀ k (bound : k < log.length), Holds k log[k]) (new : Holds log.length entry) :
    ∀ k (bound : k < (log ++ [entry]).length), Holds k (log ++ [entry])[k] := by
  intro k bound
  rcases Nat.lt_or_ge k log.length with before | last
  · rw [List.getElem_append_left before]
    exact old k before
  · have same : k = log.length := by
      rw [List.length_append, List.length_singleton] at bound
      omega
    subst same
    rw [List.getElem_concat_length rfl]
    exact new

/-- A log whose entries name the digest of the entry before them. The head
of an empty log is the genesis marker. -/
structure ChainFormat (Entry Digest : Type*) where
  genesis : Digest
  previous : Entry → Digest
  digest : Entry → Digest

namespace ChainFormat

variable {Entry Digest : Type*} (format : ChainFormat Entry Digest)

def head (log : List Entry) : Digest :=
  (log.getLast?.map format.digest).getD format.genesis

/-- Linked logs grow only at their end, each new entry naming the head. -/
inductive Linked : List Entry → Prop
  | nil : Linked []
  | snoc {log entry} : Linked log → format.previous entry = format.head log → Linked (log ++ [entry])

@[simp] theorem head_nil : format.head [] = format.genesis := rfl

@[simp] theorem head_append_singleton (log : List Entry) (entry : Entry) :
    format.head (log ++ [entry]) = format.digest entry := by
  simp [head]

theorem head_eq_getElem {log : List Entry} (nonempty : 0 < log.length) :
    format.head log = format.digest (log[log.length - 1]) := by
  rw [head, List.getLast?_eq_getElem?, List.getElem?_eq_getElem (by omega)]
  rfl

theorem exists_mem_of_head_ne {log : List Entry} (moved : format.head log ≠ format.genesis) :
    ∃ entry ∈ log, format.digest entry = format.head log := by
  rcases List.eq_nil_or_concat log with rfl | ⟨rest, last, rfl⟩
  · exact absurd format.head_nil moved
  · refine ⟨last, by simp, ?_⟩
    rw [List.concat_eq_append, format.head_append_singleton]

variable {format}

/-- Every entry of a linked log names the head of the log before it. -/
theorem Linked.previous_eq {log : List Entry} (linked : format.Linked log) :
    ∀ k (bound : k < log.length), format.previous log[k] = format.head (log.take k) := by
  induction linked with
  | nil => simp
  | @snoc log entry linked names ih =>
    refine forall_getElem_concat (fun k named => format.previous named = format.head ((log ++ [entry]).take k)) ?_ ?_
    · intro k before
      rw [List.take_append_of_le_length (Nat.le_of_lt before)]
      exact ih k before
    · rw [List.take_left]
      exact names

end ChainFormat

end Library
