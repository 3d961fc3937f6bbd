/-! # Text and bytes

Text is the list of its characters and raw data is the list of its octets.
This file has the cuts and trims that the rest of the library makes on text:
splitting at a separator, lines, and trimming white space. White space is the
Unicode property, not the ASCII one, since compiler output is trimmed by it. -/

namespace FirmwareBuild

/-- Text, character by character. -/
abbrev Text := List Char

/-- Raw octets: file contents, paths and environment values. -/
abbrev Bytes := List UInt8

namespace Text

/-- The characters with the Unicode property `White_Space`. -/
def isBlank (c : Char) : Bool :=
  let n := c.toNat
  (0x09 ≤ n && n ≤ 0x0D) || n == 0x20 || n == 0x85 || n == 0xA0 || n == 0x1680 ||
    (0x2000 ≤ n && n ≤ 0x200A) || n == 0x2028 || n == 0x2029 || n == 0x202F ||
    n == 0x205F || n == 0x3000

/-- Without the longest end whose members all satisfy `p`. -/
def dropEnd {α : Type} (p : α → Bool) (xs : List α) : List α :=
  (xs.reverse.dropWhile p).reverse

def dropEnds {α : Type} (p : α → Bool) (xs : List α) : List α :=
  dropEnd p (xs.dropWhile p)

def trim (t : Text) : Text := dropEnds isBlank t

def startPiece {α : Type} (x : α) : List (List α) → List (List α)
  | [] => [[x]]
  | piece :: pieces => (x :: piece) :: pieces

/-- The pieces between the separators: one more than there are separators. -/
def split {α : Type} [DecidableEq α] (sep : α) (xs : List α) : List (List α) :=
  xs.foldr (fun x pieces => if x = sep then [] :: pieces else startPiece x pieces) [[]]

/-- The pieces put together again, with `sep` between two neighbours. -/
def join {α : Type} (sep : List α) (pieces : List (List α)) : List α :=
  (pieces.intersperse sep).flatten

/-- What stands before the first separator and what stands after it. -/
def splitFirst? {α : Type} [DecidableEq α] (sep : α) (xs : List α) : Option (List α × List α) :=
  match xs.dropWhile (· ≠ sep) with
  | [] => none
  | _ :: after => some (xs.takeWhile (· ≠ sep), after)

/-- What follows `start` in a text that begins with it. -/
def dropStart? {α : Type} [DecidableEq α] : List α → List α → Option (List α)
  | [], xs => some xs
  | _ :: _, [] => none
  | y :: ys, x :: xs => if x = y then dropStart? ys xs else none

/-- Whether `part` occurs somewhere without a gap. -/
def holds {α : Type} [DecidableEq α] (part : List α) : List α → Bool
  | [] => part.isEmpty
  | x :: xs => (dropStart? part (x :: xs)).isSome || holds part xs

/-- Without the one carriage return it may end in. -/
def dropReturn (line : Text) : Text :=
  if line.getLast? = some '\r' then line.dropLast else line

/-- The lines of a text. A line ends in a line feed, perhaps after a carriage
return; neither belongs to it. What follows the last line feed is a line of its
own, unless it is empty. -/
def lines (t : Text) : List Text :=
  let pieces := split '\n' t
  let rest := pieces.getLastD []
  pieces.dropLast.map dropReturn ++ if rest.isEmpty then [] else [rest]

def total (numbers : List Nat) : Nat := numbers.foldl (· + ·) 0

def ofNat (n : Nat) : Text := Nat.toDigits 10 n

/-- Equal up to the case of the ASCII letters. -/
def sameLetters (s t : Text) : Bool := s.map Char.toLower == t.map Char.toLower

def replace (c : Char) (by' : Text) (t : Text) : Text :=
  t.flatMap fun x => if x = c then by' else [x]

/-- The value under a name replaced, or put at the end. -/
def putNamed {κ α : Type} [DecidableEq κ] (name : κ) (value : α) : List (κ × α) → List (κ × α)
  | [] => [(name, value)]
  | (n, old) :: rest =>
    if n = name then (n, value) :: rest else (n, old) :: putNamed name value rest

theorem startPiece_ne_nil {α : Type} (x : α) (pieces : List (List α)) :
    startPiece x pieces ≠ [] := by
  cases pieces <;> simp [startPiece]

theorem split_cons {α : Type} [DecidableEq α] (sep x : α) (xs : List α) :
    split sep (x :: xs) =
      if x = sep then [] :: split sep xs else startPiece x (split sep xs) := rfl

theorem split_ne_nil {α : Type} [DecidableEq α] (sep : α) (xs : List α) :
    split sep xs ≠ [] := by
  cases xs with
  | nil => simp [split]
  | cons x xs =>
    rw [split_cons]
    split
    · simp
    · exact startPiece_ne_nil x _

theorem join_cons_of_ne_nil {α : Type} (sep piece : List α) {pieces : List (List α)}
    (h : pieces ≠ []) : join sep (piece :: pieces) = piece ++ sep ++ join sep pieces := by
  cases pieces with
  | nil => exact absurd rfl h
  | cons q qs => simp [join]

theorem join_startPiece {α : Type} (sep : List α) (x : α) (pieces : List (List α)) :
    join sep (startPiece x pieces) = x :: join sep pieces := by
  match pieces with
  | [] => rfl
  | [piece] => simp [startPiece, join]
  | piece :: q :: qs => simp [startPiece, join]

/-- The pieces hold all but the separators. -/
theorem join_split {α : Type} [DecidableEq α] (sep : α) (xs : List α) :
    join [sep] (split sep xs) = xs := by
  induction xs with
  | nil => rfl
  | cons x xs ih =>
    rw [split_cons]
    split
    · rename_i h
      rw [join_cons_of_ne_nil _ _ (split_ne_nil sep xs), ih, h]
      rfl
    · rw [join_startPiece, ih]

/-- A separator cuts a text in two. -/
theorem split_append_cons {α : Type} [DecidableEq α] (sep : α) (front back : List α) :
    split sep (front ++ sep :: back) = split sep front ++ split sep back := by
  induction front with
  | nil => rw [List.nil_append, split_cons, if_pos rfl]; rfl
  | cons x front ih =>
    rw [List.cons_append, split_cons, split_cons, ih]
    split
    · rfl
    · cases h : split sep front with
      | nil => exact absurd h (split_ne_nil sep front)
      | cons piece pieces => rfl

/-- A text without separators is its only piece. -/
theorem split_of_not_mem {α : Type} [DecidableEq α] {sep : α} {xs : List α} (h : sep ∉ xs) :
    split sep xs = [xs] := by
  induction xs with
  | nil => rfl
  | cons x xs ih =>
    obtain ⟨hx, hxs⟩ : sep ≠ x ∧ sep ∉ xs := by simpa using h
    rw [split_cons, if_neg (Ne.symm hx), ih hxs]
    rfl

/-- No piece holds a separator. -/
theorem not_mem_of_mem_split {α : Type} [DecidableEq α] {sep : α} {xs piece : List α}
    (h : piece ∈ split sep xs) :
    sep ∉ piece := by
  induction xs generalizing piece with
  | nil => simp [split] at h; simp [h]
  | cons x xs ih =>
    rw [split_cons] at h
    split at h
    · rcases List.mem_cons.mp h with rfl | h
      · simp
      · exact ih h
    · rename_i hx
      cases hs : split sep xs with
      | nil => exact absurd hs (split_ne_nil sep xs)
      | cons first pieces =>
        rw [hs, startPiece] at h
        rw [hs] at ih
        rcases List.mem_cons.mp h with rfl | h
        · simpa [Ne.symm hx] using ih List.mem_cons_self
        · exact ih (List.mem_cons_of_mem _ h)

section Lookup
variable {κ α : Type} [BEq κ] [LawfulBEq κ] {pairs : List (κ × α)} {k : κ} {value : α}

theorem lookup_eq_none : pairs.lookup k = none ↔ k ∉ pairs.map Prod.fst := by
  rw [← Option.not_isSome_iff_eq_none, List.lookup_isSome_iff]
  refine not_congr ⟨?_, ?_⟩
  · rintro ⟨pair, hm, he⟩
    exact List.mem_map.mpr ⟨pair, hm, (beq_iff_eq.mp he).symm⟩
  · intro hk
    obtain ⟨pair, hm, rfl⟩ := List.mem_map.mp hk
    exact ⟨pair, hm, beq_self_eq_true _⟩

theorem mem_of_lookup (h : pairs.lookup k = some value) : (k, value) ∈ pairs := by
  obtain ⟨front, back, rfl, -⟩ := List.lookup_eq_some_iff.mp h
  simp

/-- Where names are different, each has the value that stands beside it. -/
theorem lookup_eq_some (h : (pairs.map Prod.fst).Nodup) :
    pairs.lookup k = some value ↔ (k, value) ∈ pairs := by
  induction pairs with
  | nil => simp
  | cons pair rest ih =>
    obtain ⟨name, held⟩ := pair
    obtain ⟨hnew, hrest⟩ := List.nodup_cons.mp h
    rw [List.lookup_cons, List.mem_cons, Prod.mk.injEq]
    by_cases hk : k = name
    · subst hk
      have hother : (k, value) ∉ rest := fun hm =>
        hnew (List.mem_map.mpr ⟨(k, value), hm, rfl⟩)
      simp [hother, eq_comm]
    · rw [beq_false_of_ne hk, ih hrest]
      simp [hk]

end Lookup

/-- Nothing comes of a list if nothing comes of one of its members. -/
theorem mapM_eq_none {α β : Type} {f : α → Option β} {xs : List α} {x : α} (hx : x ∈ xs)
    (h : f x = none) : xs.mapM f = none := by
  induction xs with
  | nil => cases hx
  | cons y xs ih =>
    rw [List.mapM_cons]
    rcases List.mem_cons.mp hx with rfl | hx
    · rw [h]
      rfl
    · cases f y with
      | none => rfl
      | some b => simp [ih hx]

end Text

end FirmwareBuild
