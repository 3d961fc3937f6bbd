import FirmwareBuild.Text
import Mathlib.Data.List.TakeWhile

/-! # Cutting at the ends

What is left of a list when something is cut off its start, its end or both is said
here by what holds of the pieces. Of a cut at both ends it is that all that goes is
of the kind that is cut, and what is left neither starts nor ends with something of
that kind (`isCut_iff`). -/

namespace FirmwareBuild.Text

variable {α : Type} {p : α → Bool} {x : α} {xs ys core : List α}

/-! ## At the start -/

theorem takeWhile_append_stop (hxs : ∀ x ∈ xs, p x = true) (hys : ∀ y ∈ ys.head?, p y = false) :
    (xs ++ ys).takeWhile p = xs := by
  rw [List.takeWhile_append_of_pos hxs]
  cases ys with
  | nil => simp
  | cons y ys => simp [hys y rfl]

theorem dropWhile_append_stop (hxs : ∀ x ∈ xs, p x = true) (hys : ∀ y ∈ ys.head?, p y = false) :
    (xs ++ ys).dropWhile p = ys := by
  rw [List.dropWhile_append_of_pos hxs]
  cases ys with
  | nil => rfl
  | cons y ys => simp [hys y rfl]

theorem splitFirst?_append [DecidableEq α] {sep : α} (h : sep ∉ xs) (ys : List α) :
    splitFirst? sep (xs ++ sep :: ys) = some (xs, ys) := by
  have hall : ∀ x ∈ xs, decide (x ≠ sep) = true := by
    intro x hx
    simp only [decide_eq_true_eq]
    rintro rfl
    exact h hx
  have hsep : ∀ x ∈ (sep :: ys).head?, decide (x ≠ sep) = false := by simp
  rw [splitFirst?, dropWhile_append_stop hall hsep, takeWhile_append_stop hall hsep]

section Start
variable [DecidableEq α] {start part rest : List α}

theorem dropStart?_eq_some : dropStart? start xs = some rest ↔ xs = start ++ rest := by
  induction start generalizing xs with
  | nil => simp [dropStart?, eq_comm]
  | cons y ys ih =>
    cases xs with
    | nil => simp [dropStart?]
    | cons x xs =>
      rw [dropStart?]
      by_cases hx : x = y
      · simp [hx, ih]
      · simp [hx]

theorem dropStart?_isSome : (dropStart? start xs).isSome ↔ start <+: xs := by
  rw [Option.isSome_iff_exists]
  exact exists_congr fun rest => dropStart?_eq_some.trans eq_comm

theorem holds_iff : holds part xs = true ↔ part <:+: xs := by
  induction xs with
  | nil => simp [holds]
  | cons x xs ih => simp [holds, dropStart?_isSome, ih, List.infix_cons_iff]

end Start

/-! ## At the end -/

theorem dropEnd_concat (xs : List α) (x : α) :
    dropEnd p (xs ++ [x]) = if p x then dropEnd p xs else xs ++ [x] := by
  unfold dropEnd
  rw [List.reverse_append, List.reverse_singleton, List.singleton_append, List.dropWhile_cons]
  split
  · rfl
  · simp

theorem dropEnd_append (hne : ys ≠ []) (h : p (ys.getLast hne) = false) (xs : List α) :
    dropEnd p (xs ++ ys) = xs ++ ys := by
  have hlast := List.dropLast_concat_getLast hne
  rw [← hlast, ← List.append_assoc, dropEnd_concat, h, if_neg Bool.false_ne_true]

theorem dropEnd_append_of_all (h : ∀ y ∈ ys, p y = true) (xs : List α) :
    dropEnd p (xs ++ ys) = dropEnd p xs := by
  unfold dropEnd
  rw [List.reverse_append, List.dropWhile_append_of_pos]
  intro y hy
  exact h y (List.mem_reverse.mp hy)

/-- What is cut off the end is all of the kind that is cut. -/
theorem dropEnd_append_tail (p : α → Bool) (xs : List α) :
    ∃ tail, xs = dropEnd p xs ++ tail ∧ ∀ x ∈ tail, p x = true := by
  refine ⟨(xs.reverse.takeWhile p).reverse, ?_, fun x hx => ?_⟩
  · rw [dropEnd, ← List.reverse_append, List.takeWhile_append_dropWhile, List.reverse_reverse]
  · exact List.all_eq_true.mp List.all_takeWhile x (List.mem_reverse.mp hx)

theorem mem_dropEnd (hx : p x = false) : x ∈ dropEnd p xs ↔ x ∈ xs := by
  obtain ⟨tail, hxs, htail⟩ := dropEnd_append_tail p xs
  have hout : x ∉ tail := by
    intro h
    rw [htail x h] at hx
    cases hx
  have hmem : x ∈ xs ↔ x ∈ dropEnd p xs ++ tail := by rw [← hxs]
  rw [hmem, List.mem_append, or_iff_left hout]

theorem getLast?_dropEnd (p : α → Bool) (xs : List α) :
    ∀ x ∈ (dropEnd p xs).getLast?, p x = false := by
  intro x hx
  rw [dropEnd, List.getLast?_reverse] at hx
  have hnot := List.head?_dropWhile_not p xs.reverse
  rw [Option.mem_def.mp hx] at hnot
  exact hnot

theorem dropEnd_eq_self : dropEnd p xs = xs ↔ ∀ x ∈ xs.getLast?, p x = false := by
  constructor
  · intro h
    rw [← h]
    exact getLast?_dropEnd p xs
  · intro h
    cases xs with
    | nil => rfl
    | cons x rest =>
      have hne : x :: rest ≠ [] := List.cons_ne_nil x rest
      exact dropEnd_append hne (h _ (List.getLast?_eq_some_getLast hne)) []

/-! ## At both ends -/

/-- What is left of a list that is cut at both ends. -/
structure IsCut (p : α → Bool) (xs core : List α) : Prop where
  cut : ∃ front back, xs = front ++ core ++ back ∧ (∀ x ∈ front, p x = true) ∧
    ∀ x ∈ back, p x = true
  first : ∀ x ∈ core.head?, p x = false
  last : ∀ x ∈ core.getLast?, p x = false

theorem dropEnds_isCut (p : α → Bool) (xs : List α) : IsCut p xs (dropEnds p xs) := by
  obtain ⟨tail, hrest, htail⟩ := dropEnd_append_tail p (xs.dropWhile p)
  refine ⟨⟨xs.takeWhile p, tail, ?_, fun x hx => ?_, htail⟩, fun x hx => ?_, ?_⟩
  · rw [List.append_assoc, dropEnds, ← hrest, List.takeWhile_append_dropWhile]
  · exact List.all_eq_true.mp List.all_takeWhile x hx
  · -- what is left starts as the list did once its front was cut off
    have hhead : (xs.dropWhile p).head? = some x := by
      rw [hrest, List.head?_append, ← dropEnds, Option.mem_def.mp hx]
      rfl
    have hnot := List.head?_dropWhile_not p xs
    rw [hhead] at hnot
    exact hnot
  · exact getLast?_dropEnd p _

/-- Exactly one list is left. -/
theorem isCut_iff : IsCut p xs core ↔ core = dropEnds p xs := by
  constructor
  · rintro ⟨⟨front, back, rfl, hfront, hback⟩, hfirst, hlast⟩
    rw [dropEnds, List.append_assoc, List.dropWhile_append_of_pos hfront]
    cases core with
    | nil =>
      rw [List.nil_append, List.dropWhile_eq_nil_iff.mpr hback]
      rfl
    | cons x rest =>
      have hstays : ((x :: rest) ++ back).dropWhile p = (x :: rest) ++ back := by
        rw [List.cons_append, List.dropWhile_cons_of_neg]
        simpa using hfirst x rfl
      rw [hstays, dropEnd_append_of_all hback, dropEnd_eq_self.mpr hlast]
  · rintro rfl
    exact dropEnds_isCut p xs

theorem IsCut.append (h : IsCut p xs core) (htail : ∀ y ∈ ys, p y = true) :
    IsCut p (xs ++ ys) core := by
  obtain ⟨⟨front, back, rfl, hfront, hback⟩, hfirst, hlast⟩ := h
  refine ⟨⟨front, back ++ ys, by simp, hfront, fun x hx => ?_⟩, hfirst, hlast⟩
  rcases List.mem_append.mp hx with hx | hx
  · exact hback x hx
  · exact htail x hx

theorem dropEnds_append (hys : ∀ y ∈ ys, p y = true) (xs : List α) :
    dropEnds p (xs ++ ys) = dropEnds p xs :=
  (isCut_iff.mp ((dropEnds_isCut p xs).append hys)).symm

theorem dropEnds_cons (hx : p x = true) (xs : List α) : dropEnds p (x :: xs) = dropEnds p xs := by
  rw [dropEnds, List.dropWhile_cons_of_pos hx, dropEnds]

theorem dropEnds_eq_nil : dropEnds p xs = [] ↔ ∀ x ∈ xs, p x = true := by
  constructor
  · intro h
    obtain ⟨front, back, hxs, hfront, hback⟩ := (dropEnds_isCut p xs).cut
    rw [h, List.append_nil] at hxs
    rw [hxs]
    exact fun x hx => (List.mem_append.mp hx).elim (hfront x) (hback x)
  · intro h
    exact dropEnds_append h []

/-- A line end does not count where white space is cut. -/
theorem trim_newline (t : Text) : trim (t ++ ['\n']) = trim t :=
  dropEnds_append (by simp [isBlank]) t

theorem mem_of_mem_trim {t : Text} {c : Char} (h : c ∈ trim t) : c ∈ t := by
  obtain ⟨front, back, ht, -⟩ := (dropEnds_isCut isBlank t).cut
  rw [ht]
  exact List.mem_append_left _ (List.mem_append_right _ h)

end FirmwareBuild.Text
