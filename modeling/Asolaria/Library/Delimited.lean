import Mathlib.Data.List.Chain
import Mathlib.Data.List.Infix

namespace Library

variable {α : Type*}

/-- How two cuts of one text at the same mark can lie: they agree, or the
mark occurs a second time beyond the first of them. -/
inductive TwoCuts (mark a x b y : List α) : Prop
  | same : a = b → x = y → TwoCuts mark a x b y
  | later (m) : b = a ++ mark ++ m → x = m ++ mark ++ y → TwoCuts mark a x b y
  | earlier (m) : a = b ++ mark ++ m → y = m ++ mark ++ x → TwoCuts mark a x b y

/-- A cut that lies further right passes over the whole mark of the other
one: the first letter of the mark does not occur in its rest. -/
theorem cut_later {sep : α} {rest x d y : List α} (plain : sep ∉ rest) (moved : d ≠ [])
    (same : sep :: rest ++ x = d ++ (sep :: rest ++ y)) :
    ∃ m, d = sep :: rest ++ m ∧ x = m ++ (sep :: rest) ++ y := by
  rcases List.append_eq_append_iff.mp same with ⟨m, passed, remaining⟩ | ⟨c, inside, remaining⟩
  · exact ⟨m, passed, by rw [List.append_assoc]; exact remaining⟩
  · cases c with
    | nil => exact ⟨[], by simpa using inside.symm, by simpa using remaining.symm⟩
    | cons first c =>
      obtain ⟨head, d, rfl⟩ := List.exists_cons_of_ne_nil moved
      have repeated : sep = first := by simpa using (List.cons_eq_cons.mp remaining).1
      have inRest : rest = d ++ first :: c := by simpa using (List.cons_eq_cons.mp inside).2
      exact absurd (by rw [inRest, repeated]; simp) plain

theorem twoCuts {sep : α} {rest a x b y : List α} (plain : sep ∉ rest)
    (same : a ++ (sep :: rest) ++ x = b ++ (sep :: rest) ++ y) : TwoCuts (sep :: rest) a x b y := by
  rw [List.append_assoc, List.append_assoc] at same
  rcases List.append_eq_append_iff.mp same with ⟨d, right, remaining⟩ | ⟨d, right, remaining⟩
  · by_cases moved : d = []
    · subst moved
      exact .same (by simpa using right.symm) (by simpa using remaining)
    · obtain ⟨m, rfl, tail⟩ := cut_later plain moved remaining
      exact .later m (by rw [right, List.append_assoc]) tail
  · by_cases moved : d = []
    · subst moved
      exact .same (by simpa using right) (by simpa using remaining.symm)
    · obtain ⟨m, rfl, tail⟩ := cut_later plain moved remaining
      exact .earlier m (by rw [right, List.append_assoc]) tail

/-- The same for a mark of one letter. -/
theorem twoCuts_single {sep : α} {a x b y : List α} (same : a ++ sep :: x = b ++ sep :: y) :
    TwoCuts [sep] a x b y := twoCuts (List.not_mem_nil) (by simpa using same)

/-- A field without the separator ends at the first separator. -/
theorem cut_unique {sep : α} {a x b y : List α} (same : a ++ sep :: x = b ++ sep :: y) (plain : sep ∉ a)
    (plain' : sep ∉ b) : a = b ∧ x = y := by
  cases twoCuts_single same with
  | same left right => exact ⟨left, right⟩
  | later m left _ => exact absurd (by rw [left]; simp) plain'
  | earlier m left _ => exact absurd (by rw [left]; simp) plain

theorem mem_tail_of_cut {sep : α} {f x y : List α} (cut : f = x ++ sep :: y) (filled : x ≠ []) : sep ∈ f.tail := by
  obtain ⟨head, x, rfl⟩ := List.exists_cons_of_ne_nil filled
  simp [cut]

theorem mem_dropLast_of_cut {sep : α} {f x y : List α} (cut : f = x ++ sep :: y) (filled : y ≠ []) :
    sep ∈ f.dropLast := by
  rw [cut, List.dropLast_append_of_ne_nil (by simp), List.dropLast_cons_of_ne_nil filled]
  simp

theorem cut_of_mem_tail {sep : α} {f : List α} (member : sep ∈ f.tail) : ∃ x y, f = x ++ sep :: y ∧ x ≠ [] := by
  cases f with
  | nil => simp at member
  | cons head f =>
    obtain ⟨x, y, rfl⟩ := List.append_of_mem member
    exact ⟨head :: x, y, rfl, by simp⟩

theorem cut_of_mem_dropLast {sep : α} {f : List α} (member : sep ∈ f.dropLast) :
    ∃ x y, f = x ++ sep :: y ∧ y ≠ [] := by
  rcases List.eq_nil_or_concat f with rfl | ⟨front, last, rfl⟩
  · simp at member
  · rw [List.concat_eq_append, List.dropLast_concat] at member
    obtain ⟨x, y, rfl⟩ := List.append_of_mem member
    exact ⟨x, y ++ [last], by simp, by simp⟩

theorem getElem?_of_two_cuts {sep : α} {text x t y : List α} (cut : text = x ++ sep :: (t ++ sep :: y)) :
    text[x.length]? = some sep ∧ text[x.length + (t.length + 1)]? = some sep := by
  subst cut
  constructor
  · rw [List.getElem?_append_right (Nat.le_refl _), Nat.sub_self, List.getElem?_cons_zero]
  · rw [List.getElem?_append_right (by omega), Nat.add_sub_cancel_left, List.getElem?_cons_succ,
      List.getElem?_append_right (Nat.le_refl _), Nat.sub_self, List.getElem?_cons_zero]

/-- Two separators at a known distance hold a piece of that length. -/
theorem two_cuts_of_getElem? {sep : α} {text : List α} {cut gap : Nat} (left : text[cut]? = some sep)
    (right : text[cut + (gap + 1)]? = some sep) :
    ∃ x t y, text = x ++ sep :: (t ++ sep :: y) ∧ x.length = cut ∧ t.length = gap := by
  obtain ⟨leftBound, leftValue⟩ := List.getElem?_eq_some_iff.mp left
  obtain ⟨rightBound, rightValue⟩ := List.getElem?_eq_some_iff.mp right
  have behind : (text.drop (cut + 1))[gap]? = some sep := by
    rw [List.getElem?_drop, show cut + 1 + gap = cut + (gap + 1) by omega]
    exact right
  obtain ⟨gapBound, gapValue⟩ := List.getElem?_eq_some_iff.mp behind
  refine ⟨text.take cut, (text.drop (cut + 1)).take gap, (text.drop (cut + 1)).drop (gap + 1), ?_, ?_, ?_⟩
  · rw [← gapValue, ← List.drop_eq_getElem_cons gapBound, List.take_append_drop, gapValue, ← leftValue,
      ← List.drop_eq_getElem_cons leftBound, List.take_append_drop]
  · rw [List.length_take]
    omega
  · rw [List.length_take, List.length_drop]
    omega

/-- Neighbouring fields whose separator cannot be moved: none in the first
one beyond its first letter, none in the second one before its last. -/
def Apart (sep : α) (f g : List α) : Prop := sep ∉ f.tail ∧ sep ∉ g.dropLast

variable {sep : α} {fields others : List (List α)} {first : List α}

theorem intercalate_cons (sep : α) (f g : List α) (rest : List (List α)) :
    [sep].intercalate (f :: g :: rest) = f ++ sep :: [sep].intercalate (g :: rest) := by
  rw [List.intercalate_cons_cons]
  simp

/-- Two fields against at least two others, and the rest of both. -/
theorem two_of_length {f f' : List α} (count : others.length = (f :: f' :: fields).length) :
    ∃ g g' rest, others = g :: g' :: rest ∧ (g' :: rest).length = (f' :: fields).length := by
  obtain ⟨g, behind, rfl⟩ := List.exists_cons_of_length_eq_add_one count
  have shorter : behind.length = fields.length + 1 := Nat.succ.inj count
  obtain ⟨g', rest, rfl⟩ := List.exists_cons_of_length_eq_add_one shorter
  exact ⟨g, g', rest, rfl, shorter⟩

/-- Fields that are apart leave no room for one more separator: the text of
`n` of them is not a text, a separator and `n` further filled fields. -/
theorem Apart.no_more_fields (apart : (first :: fields).IsChain (Apart sep)) (some : fields ≠ [])
    (count : others.length = fields.length) (filled : ∀ g ∈ others, g ≠ []) (m : List α) :
    [sep].intercalate fields ≠ m ++ sep :: [sep].intercalate others := by
  induction fields generalizing first others m with
  | nil => exact absurd rfl some
  | cons f fields ih =>
    intro same
    rw [List.isChain_cons_cons] at apart
    obtain ⟨⟨_, front⟩, chain⟩ := apart
    cases fields with
    | nil =>
      obtain ⟨g, rfl⟩ := List.length_eq_one_iff.mp count
      rw [List.intercalate_singleton, List.intercalate_singleton] at same
      exact front (mem_dropLast_of_cut same (filled g (by simp)))
    | cons f' fields =>
      obtain ⟨g, g', others, rfl, shorter⟩ := two_of_length count
      have rest : ∀ h ∈ g' :: others, h ≠ [] := fun h member => filled h (List.mem_cons_of_mem _ member)
      have step := fun m => ih chain (by simp) shorter rest m
      rw [intercalate_cons, intercalate_cons] at same
      cases twoCuts_single same with
      | same _ right => exact step g right
      | later m' _ right => exact step (m' ++ sep :: g) (by rw [right]; simp)
      | earlier m' left right =>
        have tail : sep ∉ f.tail := (List.isChain_cons_cons.mp chain).1.1
        have empty : m = [] := by
          by_contra filled
          exact tail (mem_tail_of_cut (by simpa using left) filled)
        have empty' : m' = [] := by
          by_contra filled
          exact front (mem_dropLast_of_cut (by simpa using left) filled)
        subst empty empty'
        have moved : [] ++ sep :: [sep].intercalate (f' :: fields) = g ++ sep :: [sep].intercalate (g' :: others) := by
          simpa using right.symm
        cases twoCuts_single moved with
        | same left _ => exact filled g (by simp) left.symm
        | later k _ right => exact step k (by rw [right]; simp)
        | earlier k left _ => simp at left

/-- Filled fields that are apart can be read back from their text. -/
theorem fields_unique (apart : fields.IsChain (Apart sep)) (count : others.length = fields.length)
    (filled : ∀ g ∈ others, g ≠ []) (same : [sep].intercalate fields = [sep].intercalate others) : fields = others := by
  induction fields generalizing others with
  | nil => exact (List.length_eq_zero_iff.mp count).symm
  | cons f fields ih =>
    cases fields with
    | nil =>
      obtain ⟨g, rfl⟩ := List.length_eq_one_iff.mp count
      simpa using same
    | cons f' fields =>
      obtain ⟨g, g', others, rfl, shorter⟩ := two_of_length count
      have rest : ∀ h ∈ g' :: others, h ≠ [] := fun h member => filled h (List.mem_cons_of_mem _ member)
      have next := List.isChain_cons_cons.mp apart
      rw [intercalate_cons, intercalate_cons] at same
      cases twoCuts_single same with
      | same left right => rw [left, ih next.2 shorter rest right]
      | later m _ right => exact absurd (by simpa using right) (Apart.no_more_fields apart (by simp) shorter rest m)
      | earlier m left _ => exact absurd (mem_tail_of_cut (by simpa using left) (filled g (by simp))) next.1.1

theorem intercalate_append_head (sep : α) (x g : List α) (rest : List (List α)) :
    [sep].intercalate ((x ++ g) :: rest) = x ++ [sep].intercalate (g :: rest) := by
  cases rest with
  | nil => rw [List.intercalate_singleton, List.intercalate_singleton]
  | cons h rest => rw [intercalate_cons, intercalate_cons, List.append_assoc]

/-- A separator inside a field can change places with the one between it
and its neighbour. -/
theorem exists_other_pair {f g : List α} (rest : List (List α)) (close : ¬ Apart sep f g) :
    ∃ f' g' : List α, f' ≠ [] ∧ g' ≠ [] ∧ f ≠ f' ∧
      [sep].intercalate (f :: g :: rest) = [sep].intercalate (f' :: g' :: rest) := by
  by_cases inside : sep ∈ f.tail
  · obtain ⟨x, y, cut, some⟩ := cut_of_mem_tail inside
    refine ⟨x, y ++ sep :: g, some, by simp, fun same => by simpa [same] using congrArg List.length cut, ?_⟩
    rw [intercalate_cons, intercalate_cons, cut, List.append_cons y, intercalate_append_head]
    simp
  · have inside : sep ∈ g.dropLast := by
      by_contra outside
      exact close ⟨inside, outside⟩
    obtain ⟨x, y, cut, some⟩ := cut_of_mem_dropLast inside
    refine ⟨f ++ sep :: x, y, by simp, some, by simp, ?_⟩
    rw [intercalate_cons, intercalate_cons, cut, List.append_cons x, intercalate_append_head]
    simp

/-- Fields that are not apart have the text of others, as many and as filled. -/
theorem exists_other_fields (filled : ∀ f ∈ fields, f ≠ []) (close : ¬ fields.IsChain (Apart sep)) :
    ∃ others : List (List α), others.length = fields.length ∧ (∀ g ∈ others, g ≠ []) ∧
      [sep].intercalate fields = [sep].intercalate others ∧ fields ≠ others := by
  induction fields with
  | nil => exact absurd List.IsChain.nil close
  | cons f fields ih =>
    cases fields with
    | nil => exact absurd (List.IsChain.singleton f) close
    | cons g fields =>
      by_cases chain : (g :: fields).IsChain (Apart sep)
      · have near : ¬ Apart sep f g := fun apart => close (List.isChain_cons_cons.mpr ⟨apart, chain⟩)
        obtain ⟨f', g', some, some', different, same⟩ := exists_other_pair fields near
        refine ⟨f' :: g' :: fields, by simp, ?_, same, fun equal => different (List.cons_eq_cons.mp equal).1⟩
        intro h member
        simp only [List.mem_cons] at member
        rcases member with rfl | rfl | member
        · exact some
        · exact some'
        · exact filled h (by simp [member])
      · obtain ⟨others, count, filledOthers, same, different⟩ :=
          ih (fun h member => filled h (List.mem_cons_of_mem _ member)) chain
        obtain ⟨h, others, rfl⟩ : ∃ h rest, others = h :: rest := by
          match others, count with
          | h :: rest, _ => exact ⟨h, rest, rfl⟩
        refine ⟨f :: h :: others, by simpa using count, ?_, ?_, fun equal => different (List.cons_eq_cons.mp equal).2⟩
        · intro k member
          rcases List.mem_cons.mp member with rfl | member
          · exact filled k (by simp)
          · exact filledOthers k member
        · rw [intercalate_cons, intercalate_cons, same]

/-- Labels, each with a field behind it. -/
def labelled (rows : List (List α × List α)) : List α := rows.flatMap fun row => row.1 ++ row.2

/-- The label of the next row marks the end of the field. -/
def EndsAt (row next : List α × List α) : Prop := ∃ sep rest, next.1 = sep :: rest ∧ sep ∉ row.2

theorem labelled_cons (row : List α × List α) (rows : List (List α × List α)) :
    labelled (row :: rows) = row.1 ++ (row.2 ++ labelled rows) := by
  rw [labelled, List.flatMap_cons, List.append_assoc]
  rfl

/-- Fields between labels can be read back. -/
theorem labelled_unique {rows rows' : List (List α × List α)} (labels : rows.map Prod.fst = rows'.map Prod.fst)
    (ends : rows.IsChain EndsAt) (ends' : rows'.IsChain EndsAt) (same : labelled rows = labelled rows') :
    rows = rows' := by
  induction rows generalizing rows' with
  | nil => exact (List.map_eq_nil_iff.mp labels.symm).symm
  | cons row rows ih =>
    obtain ⟨row', rows', rfl⟩ : ∃ row' rest, rows' = row' :: rest := by
      cases rows' with
      | nil => cases labels
      | cons row' rest => exact ⟨row', rest, rfl⟩
    obtain ⟨label, others⟩ := List.cons.inj labels
    rw [labelled_cons, labelled_cons, label] at same
    have fields := List.append_cancel_left same
    cases rows with
    | nil =>
      have none := List.map_eq_nil_iff.mp others.symm
      subst none
      exact congrArg (fun row => [row]) (Prod.ext label (List.append_cancel_right fields))
    | cons next rows =>
      obtain ⟨next', rows', rfl⟩ : ∃ next' rest, rows' = next' :: rest := by
        cases rows' with
        | nil => cases others
        | cons next' rest => exact ⟨next', rest, rfl⟩
      obtain ⟨⟨sep, rest, mark, plain⟩, chain⟩ := List.isChain_cons_cons.mp ends
      obtain ⟨⟨sep', rest', mark', plain'⟩, chain'⟩ := List.isChain_cons_cons.mp ends'
      have marks : next.1 = next'.1 := (List.cons.inj others).1
      rw [mark, mark'] at marks
      obtain ⟨rfl, rfl⟩ := List.cons.inj marks
      rw [labelled_cons, labelled_cons, mark, mark', List.cons_append, List.cons_append] at fields
      obtain ⟨field, behind⟩ := cut_unique fields plain plain'
      have remaining : labelled (next :: rows) = labelled (next' :: rows') := by
        rw [labelled_cons, labelled_cons, mark, mark', List.cons_append, List.cons_append, behind]
      rw [Prod.ext label field, ih others chain chain' remaining]

/-- A part that avoids an entry lies on one side of it. -/
theorem infix_beside {before after part : List α} {b : α} (occurs : part <:+: before ++ b :: after)
    (missing : b ∉ part) : part <:+: before ∨ part <:+: after := by
  obtain ⟨left, right, whole⟩ := occurs
  rw [List.append_assoc, List.append_eq_append_iff] at whole
  obtain ⟨middle, rfl, tail⟩ | ⟨middle, rfl, tail⟩ := whole
  · rw [List.append_eq_append_iff] at tail
    obtain ⟨gap, rfl, -⟩ | ⟨gap, rfl, tail⟩ := tail
    · exact .inl ⟨left, gap, by simp⟩
    · cases gap with
      | nil => exact .inl ⟨left, [], by simp⟩
      | cons head gap =>
        obtain ⟨rfl, -⟩ := List.cons.inj tail
        exact absurd (by simp) missing
  · cases middle with
    | nil =>
      cases part with
      | nil => exact .inl (List.nil_infix)
      | cons head part =>
        obtain ⟨rfl, -⟩ := List.cons.inj tail
        exact absurd (by simp) missing
    | cons head middle =>
      obtain ⟨rfl, rfl⟩ := List.cons.inj tail
      exact .inr ⟨middle, right, by simp⟩

/-- The joined parts are pieces of the whole. -/
theorem infix_intercalate {part : List α} {parts : List (List α)} (sep : List α) (member : part ∈ parts) :
    part <:+: sep.intercalate parts := by
  induction parts with
  | nil => cases member
  | cons first rest ih =>
    cases rest with
    | nil =>
      rw [List.mem_singleton.mp member, List.intercalate_singleton]
    | cons second rest =>
      rw [List.intercalate_cons_cons]
      rcases List.mem_cons.mp member with rfl | later
      · exact ⟨[], _, (List.append_assoc _ _ _).symm⟩
      · exact (ih later).trans ⟨first ++ sep, [], by simp⟩

end Library
