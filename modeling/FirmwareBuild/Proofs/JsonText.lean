import FirmwareBuild.Proofs.Hexadecimal
import FirmwareBuild.Proofs.TextCuts
import FirmwareBuild.Proofs.Utf8

/-! # Texts that write JSON values

The grammar of JSON as a relation between values and texts: which texts write a
string, a number, an array or an object is said without the reader, and a value has
as many texts as there are ways to escape characters and to put white space between
the parts. Whatever text of a value it is given, the reader comes to the value
(`read?_of_isDocument`). -/

namespace FirmwareBuild.Json

open Text

/-! ## The grammar -/

def IsFiller (s : Text) : Prop := ∀ c ∈ s, c ∈ [' ', '\n', '\t', '\r']

def shortEscapes : List (Char × Char) :=
  [('"', '"'), ('\\', '\\'), ('/', '/'), ('b', '\x08'), ('f', '\x0c'), ('n', '\n'), ('r', '\r'),
    ('t', '\t')]

inductive WritesPieces : List Piece → Text → Prop
  | nil : WritesPieces [] []
  | plain {pieces : List Piece} {s : Text} {c : Char} (rest : WritesPieces pieces s)
      (control : 0x20 ≤ c.toNat) (quote : c ≠ '"') (backslash : c ≠ '\\') :
    WritesPieces (.char c :: pieces) (c :: s)
  | short {pieces : List Piece} {s : Text} {letter c : Char} (rest : WritesPieces pieces s)
      (escape : (letter, c) ∈ shortEscapes) :
    WritesPieces (.char c :: pieces) ('\\' :: letter :: s)
  | code {pieces : List Piece} {s : Text} {d₁ d₂ d₃ d₄ c : Char} (rest : WritesPieces pieces s)
      (number : Hexadecimal [d₁, d₂, d₃, d₄] c.toNat) :
    WritesPieces (.char c :: pieces) ('\\' :: 'u' :: d₁ :: d₂ :: d₃ :: d₄ :: s)
  | half {pieces : List Piece} {s : Text} {d₁ d₂ d₃ d₄ : Char} {n : Nat}
      (rest : WritesPieces pieces s) (number : Hexadecimal [d₁, d₂, d₃, d₄] n)
      (surrogate : 0xD800 ≤ n ∧ n ≤ 0xDFFF) :
    WritesPieces (.half n :: pieces) ('\\' :: 'u' :: d₁ :: d₂ :: d₃ :: d₄ :: s)

/-- The text that parts make: characters beyond the first plane can be given by two halves. -/
inductive Makes : List Piece → Text → Prop
  | nil : Makes [] []
  | char {pieces : List Piece} {t : Text} (rest : Makes pieces t) (c : Char) :
    Makes (.char c :: pieces) (c :: t)
  | pair {pieces : List Piece} {t : Text} {c : Char} {high low : Nat} (rest : Makes pieces t)
      (leading : 0xD800 ≤ high ∧ high ≤ 0xDBFF) (trailing : 0xDC00 ≤ low ∧ low ≤ 0xDFFF)
      (code : c.toNat = 0x10000 + (high - 0xD800) * 0x400 + (low - 0xDC00)) :
    Makes (.half high :: .half low :: pieces) (c :: t)

/-- What stands between the quotes of a string. It has no text if a half stands alone in it. -/
def WritesString (text : Option Text) (s : Text) : Prop :=
  ∃ pieces, WritesPieces pieces s ∧ ∀ t, text = some t ↔ Makes pieces t

def IsDigits (s : Text) : Prop := s ≠ [] ∧ ∀ c ∈ s, c.isDigit = true

structure IsNumber (s : Text) : Prop where
  parts : ∃ sign whole fraction exponent, s = sign ++ (whole ++ fraction ++ exponent) ∧
    (sign = [] ∨ sign = ['-']) ∧
    IsDigits whole ∧ (whole.head? = some '0' → whole = ['0']) ∧
    (fraction = [] ∨ ∃ digits, fraction = '.' :: digits ∧ IsDigits digits) ∧
    (exponent = [] ∨ ∃ e esign digits, exponent = e :: (esign ++ digits) ∧ (e = 'e' ∨ e = 'E') ∧
      (esign = [] ∨ esign = ['+'] ∨ esign = ['-']) ∧ IsDigits digits)

/-- A part of a text: a value, the items of an array or the members of an object. -/
inductive Part where
  | value (v : Json)
  | items (vs : List Json)
  | members (ms : List (Option Text × Json))

/-- A text writes a part. Brackets and braces belong to the value. -/
inductive Writes : Part → Text → Prop
  | null : Writes (.value .null) "null".toList
  | yes : Writes (.value (.bool true)) "true".toList
  | no : Writes (.value (.bool false)) "false".toList
  | number {s : Text} (spelling : IsNumber s) : Writes (.value (.number s)) s
  | string {text : Option Text} {s : Text} (body : WritesString text s) :
    Writes (.value (.string text)) ('"' :: (s ++ ['"']))
  | emptyArray {s : Text} (filler : IsFiller s) : Writes (.value (.array [])) ('[' :: (s ++ [']']))
  | array {vs : List Json} {s : Text} (body : Writes (.items vs) s) :
    Writes (.value (.array vs)) ('[' :: (s ++ [']']))
  | emptyObject {s : Text} (filler : IsFiller s) :
    Writes (.value (.object [])) ('{' :: (s ++ ['}']))
  | object {ms : List (Option Text × Json)} {s : Text} (body : Writes (.members ms) s) :
    Writes (.value (.object ms)) ('{' :: (s ++ ['}']))
  | lastItem {v : Json} {s before after : Text} (value : Writes (.value v) s)
      (fillers : IsFiller before ∧ IsFiller after) :
    Writes (.items [v]) (before ++ s ++ after)
  | item {v : Json} {vs : List Json} {s before after rest : Text} (value : Writes (.value v) s)
      (fillers : IsFiller before ∧ IsFiller after) (more : Writes (.items vs) rest) :
    Writes (.items (v :: vs)) (before ++ s ++ after ++ ',' :: rest)
  | lastMember {name : Option Text} {v : Json} {n s before colon between after : Text}
      (key : WritesString name n) (value : Writes (.value v) s)
      (fillers : IsFiller before ∧ IsFiller colon ∧ IsFiller between ∧ IsFiller after) :
    Writes (.members [(name, v)])
      (before ++ '"' :: (n ++ '"' :: (colon ++ ':' :: (between ++ s ++ after))))
  | member {name : Option Text} {v : Json} {ms : List (Option Text × Json)}
      {n s before colon between after rest : Text}
      (key : WritesString name n) (value : Writes (.value v) s)
      (fillers : IsFiller before ∧ IsFiller colon ∧ IsFiller between ∧ IsFiller after)
      (more : Writes (.members ms) rest) :
    Writes (.members ((name, v) :: ms))
      (before ++ '"' :: (n ++ '"' :: (colon ++ ':' :: (between ++ s ++ after ++ ',' :: rest))))

/-- A whole text writes a value, with white space around it. -/
def IsDocument (v : Json) (text : Text) : Prop :=
  ∃ before s after, text = before ++ s ++ after ∧ IsFiller before ∧ IsFiller after ∧
    Writes (.value v) s

/-! ## Strings -/

/-- No character is half of a surrogate pair. -/
theorem not_surrogate (c : Char) : ¬ (0xD800 ≤ c.toNat ∧ c.toNat ≤ 0xDFFF) := by
  have h : c.toNat < 0xD800 ∨ 0xDFFF < c.toNat ∧ c.toNat < 0x110000 := c.valid
  omega

theorem WritesPieces.pieces? {pieces : List Piece} {s : Text} (h : WritesPieces pieces s)
    (rest : Text) : Json.pieces? (s ++ '"' :: rest) = some (pieces, rest) := by
  induction h with
  | nil => simp [Json.pieces?]
  | @plain _ _ c _ control quote backslash ih =>
    have hcontrol : ¬ c.toNat < 0x20 := Nat.not_lt.mpr control
    simp [Json.pieces?, backslash, hcontrol, ih]
  | short _ escape ih =>
    simp only [shortEscapes, List.mem_cons, Prod.mk.injEq, List.not_mem_nil, or_false] at escape
    rcases escape with ⟨rfl, rfl⟩ | ⟨rfl, rfl⟩ | ⟨rfl, rfl⟩ | ⟨rfl, rfl⟩ | ⟨rfl, rfl⟩ | ⟨rfl, rfl⟩ |
      ⟨rfl, rfl⟩ | ⟨rfl, rfl⟩
    all_goals simp [Json.pieces?, shortEscape?, ih]
  | @code pieces s _ _ _ _ c _ number ih =>
    simp [Json.pieces?, number.hexNumber?, ih, pieceOfCode, not_surrogate c]
  | half _ number surrogate ih =>
    simp [Json.pieces?, number.hexNumber?, ih, pieceOfCode, surrogate]

/-- Halves that are written are surrogates. -/
theorem WritesPieces.surrogate {pieces : List Piece} {s : Text} (h : WritesPieces pieces s) :
    ∀ n, .half n ∈ pieces → 0xD800 ≤ n ∧ n ≤ 0xDFFF := by
  induction h with
  | nil => simp
  | plain rest _ _ _ ih => simpa using ih
  | short rest _ ih => simpa using ih
  | code rest _ ih => simpa using ih
  | half rest _ surrogate ih =>
    intro n hn
    rcases List.mem_cons.mp hn with he | hn
    · obtain rfl := Piece.half.inj he
      exact surrogate
    · exact ih n hn

theorem textOfPieces?_of_makes {pieces : List Piece} {t : Text} (h : Makes pieces t) :
    textOfPieces? pieces = some t := by
  induction h with
  | nil => rfl
  | char rest c ih => simp [textOfPieces?, ih]
  | @pair pieces t c high low rest leading trailing code ih =>
    have hpair : high < 0xDC00 ∧ 0xDC00 ≤ low := by omega
    simp [textOfPieces?, hpair, ih, ← code]

theorem WritesString.of_makes {pieces : List Piece} {t s : Text} (hs : WritesPieces pieces s)
    (ht : Makes pieces t) : WritesString (some t) s := by
  refine ⟨pieces, hs, fun u => ⟨fun hu => ?_, fun hu => ?_⟩⟩
  · obtain rfl := Option.some.inj hu
    exact ht
  · rw [← textOfPieces?_of_makes ht, textOfPieces?_of_makes hu]

/-- Most characters can stand for themselves. -/
theorem writesString_plain {t : Text}
    (h : t.all (fun c => 0x20 ≤ c.toNat ∧ c ≠ '"' ∧ c ≠ '\\') = true) :
    WritesString (some t) t := by
  have hboth : WritesPieces (t.map .char) t ∧ Makes (t.map .char) t := by
    induction t with
    | nil => exact ⟨.nil, .nil⟩
    | cons c t ih =>
      obtain ⟨hc, ht⟩ := Bool.and_eq_true_iff.mp h
      obtain ⟨hcontrol, hquote, hbackslash⟩ := of_decide_eq_true hc
      obtain ⟨hs, hmakes⟩ := ih ht
      exact ⟨.plain hs hcontrol hquote hbackslash, .char hmakes c⟩
  exact .of_makes hboth.1 hboth.2

theorem makes_of_textOfPieces? {pieces : List Piece} {t : Text}
    (hs : ∀ n, .half n ∈ pieces → 0xD800 ≤ n ∧ n ≤ 0xDFFF)
    (h : textOfPieces? pieces = some t) : Makes pieces t := by
  -- the reader tests one bound of each half of a pair, and the others are those of all halves
  induction pieces using textOfPieces?.induct generalizing t with
  | case1 =>
    obtain rfl := Option.some.inj h
    exact .nil
  | case2 c rest ih =>
    rw [textOfPieces?] at h
    obtain ⟨u, hu, rfl⟩ := Option.map_eq_some_iff.mp h
    exact .char (ih (fun n hn => hs n (List.mem_cons_of_mem _ hn)) hu) c
  | case3 high low rest hpair ih =>
    rw [textOfPieces?, if_pos hpair] at h
    obtain ⟨u, hu, rfl⟩ := Option.map_eq_some_iff.mp h
    have hhigh := hs high (by simp)
    have hlow := hs low (by simp)
    refine .pair (ih (fun n hn => hs n (by simp [hn])) hu) (by omega) (by omega) ?_
    have hvalid : (0x10000 + (high - 0xD800) * 0x400 + (low - 0xDC00)).isValidChar :=
      .inr (by omega)
    exact Utf8.val_ofNat hvalid
  | case4 high low rest hpair =>
    rw [textOfPieces?, if_neg hpair] at h
    cases h
  | case5 n rest hlone =>
    cases rest with
    | nil => cases h
    | cons piece rest =>
      cases piece with
      | char c => cases h
      | half low => exact absurd rfl (hlone low rest)

theorem WritesString.string? {text : Option Text} {s : Text} (h : WritesString text s)
    (rest : Text) : Json.string? (s ++ '"' :: rest) = some (text, rest) := by
  obtain ⟨pieces, hw, ht⟩ := h
  have htext : textOfPieces? pieces = text := by
    cases text with
    | some t => exact textOfPieces?_of_makes ((ht t).mp rfl)
    | none =>
      refine Option.eq_none_iff_forall_ne_some.mpr fun t hsome => ?_
      cases (ht t).mpr (makes_of_textOfPieces? hw.surrogate hsome)
  simp [Json.string?, hw.pieces?, htext]

/-! ## Numbers -/

/-- A text that no number goes on with. -/
def Stops (s : Text) : Prop :=
  ∀ c ∈ s.head?, c.isDigit = false ∧ c ≠ '.' ∧ c ≠ 'e' ∧ c ≠ 'E'

theorem IsDigits.digits? {digits rest : Text} (h : IsDigits digits)
    (hrest : ∀ c ∈ rest.head?, c.isDigit = false) :
    Json.digits? (digits ++ rest) = some (digits, rest) := by
  rw [Json.digits?, takeWhile_append_stop h.2 hrest, dropWhile_append_stop h.2 hrest]
  simp [h.1]

theorem fraction?_append {fraction rest : Text}
    (h : fraction = [] ∨ ∃ digits, fraction = '.' :: digits ∧ IsDigits digits)
    (hrest : ∀ c ∈ rest.head?, c.isDigit = false ∧ c ≠ '.') :
    Json.fraction? (fraction ++ rest) = some (fraction, rest) := by
  rcases h with rfl | ⟨digits, rfl, hdigits⟩
  · cases rest with
    | nil => rfl
    | cons c rest => simp [Json.fraction?, (hrest c rfl).2]
  · have hread := hdigits.digits? fun c hc => (hrest c hc).1
    simp [Json.fraction?, hread]

theorem exponent?_append {exponent rest : Text}
    (h : exponent = [] ∨ ∃ e esign digits, exponent = e :: (esign ++ digits) ∧
      (e = 'e' ∨ e = 'E') ∧ (esign = [] ∨ esign = ['+'] ∨ esign = ['-']) ∧ IsDigits digits)
    (hrest : Stops rest) : Json.exponent? (exponent ++ rest) = some (exponent, rest) := by
  rcases h with rfl | ⟨e, esign, digits, rfl, he, hsign, hdigits⟩
  · cases rest with
    | nil => rfl
    | cons c rest =>
      obtain ⟨-, -, hlower, hupper⟩ := hrest c rfl
      simp [Json.exponent?, hlower, hupper]
  · have hread := hdigits.digits? fun c hc => (hrest c hc).1
    rcases hsign with rfl | rfl | rfl
    · obtain ⟨d, more, rfl⟩ := List.exists_cons_of_ne_nil hdigits.1
      have hd : ¬ (d = '+' ∨ d = '-') := by
        have hdigit := hdigits.2 d List.mem_cons_self
        rintro (rfl | rfl) <;> cases hdigit
      rw [List.cons_append] at hread
      simp [Json.exponent?, he, hd, hread]
    · simp [Json.exponent?, he, hread]
    · simp [Json.exponent?, he, hread]

theorem IsNumber.number? {s rest : Text} (h : IsNumber s) (hrest : Stops rest) :
    Json.number? (s ++ rest) = some (s, rest) := by
  obtain ⟨sign, whole, fraction, exponent, rfl, hsign, hwhole, hzero, hfraction, hexponent⟩ :=
    h.parts
  have hafterFraction : ∀ c ∈ (exponent ++ rest).head?, c.isDigit = false ∧ c ≠ '.' := by
    intro c hc
    rcases hexponent with rfl | ⟨e, esign, digits, rfl, he, -⟩
    · exact ⟨(hrest c hc).1, (hrest c hc).2.1⟩
    · obtain rfl := Option.some.inj hc
      rcases he with rfl | rfl <;> decide
  have hafterWhole : ∀ c ∈ (fraction ++ (exponent ++ rest)).head?, c.isDigit = false := by
    intro c hc
    rcases hfraction with rfl | ⟨digits, rfl, -⟩
    · exact (hafterFraction c hc).1
    · obtain rfl := Option.some.inj hc
      rfl
  have hmagnitude : magnitude? (whole ++ (fraction ++ (exponent ++ rest))) =
      some (whole ++ fraction ++ exponent, rest) := by
    have hkind : ¬ (whole.head? = some '0' ∧ whole ≠ ['0']) := fun hz => hz.2 (hzero hz.1)
    simp [magnitude?, hwhole.digits? hafterWhole, hkind, fraction?_append hfraction hafterFraction,
      exponent?_append hexponent hrest]
  rcases hsign with rfl | rfl
  · obtain ⟨d, more, rfl⟩ := List.exists_cons_of_ne_nil hwhole.1
    have hd : d ≠ '-' := by
      rintro rfl
      cases hwhole.2 '-' List.mem_cons_self
    have hnumber (t : Text) : Json.number? (d :: t) = magnitude? (d :: t) := by
      simp [Json.number?, hd]
    simp only [List.nil_append, List.append_assoc, List.cons_append] at hmagnitude ⊢
    rw [hnumber, hmagnitude]
  · simp only [List.append_assoc, List.cons_append, List.nil_append] at hmagnitude ⊢
    simp [Json.number?, hmagnitude]

/-! ## White space and first characters -/

theorem IsFiller.isSpace {s : Text} (h : IsFiller s) : ∀ c ∈ s, isSpace c = true := by
  intro c hc
  have hspace := h c hc
  simp only [List.mem_cons, List.not_mem_nil, or_false] at hspace
  rcases hspace with rfl | rfl | rfl | rfl <;> rfl

theorem skipSpace_append {s rest : Text} (h : IsFiller s)
    (hrest : ∀ c ∈ rest.head?, isSpace c = false) : skipSpace (s ++ rest) = rest :=
  dropWhile_append_stop h.isSpace hrest

/-- Behind a value there is white space and then a character that ends it. -/
theorem stops_filler {s rest : Text} (h : IsFiller s) (hrest : Stops rest) : Stops (s ++ rest) := by
  cases s with
  | nil => exact hrest
  | cons c s =>
    intro d hd
    obtain rfl := Option.some.inj hd
    have hspace := h c List.mem_cons_self
    simp only [List.mem_cons, List.not_mem_nil, or_false] at hspace
    rcases hspace with rfl | rfl | rfl | rfl <;> decide

def Starts (c : Char) : Prop := c ∈ ['n', 't', 'f', '"', '[', '{', '-'] ∨ c.isDigit = true

theorem Starts.not_space {c : Char} (h : Starts c) : isSpace c = false ∧ c ≠ ']' := by
  rcases h with h | h
  · simp only [List.mem_cons, List.not_mem_nil, or_false] at h
    rcases h with rfl | rfl | rfl | rfl | rfl | rfl | rfl <;> decide
  · constructor
    · by_contra hspace
      simp only [isSpace, Bool.not_eq_false, Bool.or_eq_true, beq_iff_eq] at hspace
      rcases hspace with ((rfl | rfl) | rfl) | rfl <;> cases h
    · rintro rfl
      cases h

theorem IsNumber.starts {s : Text} (h : IsNumber s) :
    ∃ c rest, s = c :: rest ∧ (c = '-' ∨ c.isDigit = true) := by
  obtain ⟨sign, whole, fraction, exponent, rfl, hsign, hwhole, -⟩ := h.parts
  rcases hsign with rfl | rfl
  · obtain ⟨d, more, rfl⟩ := List.exists_cons_of_ne_nil hwhole.1
    exact ⟨d, _, rfl, .inr (hwhole.2 d List.mem_cons_self)⟩
  · exact ⟨'-', _, rfl, .inl rfl⟩

theorem Writes.starts {v : Json} {s : Text} (h : Writes (.value v) s) :
    ∃ c rest, s = c :: rest ∧ Starts c := by
  cases h with
  | number spelling =>
    obtain ⟨c, rest, rfl, hc⟩ := spelling.starts
    exact ⟨c, rest, rfl, hc.imp (fun h => by simp [h]) id⟩
  | _ => exact ⟨_, _, rfl, .inl (by decide)⟩

theorem Writes.head_not_space {v : Json} {s : Text} (h : Writes (.value v) s) (rest : Text) :
    ∀ c ∈ (s ++ rest).head?, isSpace c = false := by
  obtain ⟨c, more, rfl, hc⟩ := h.starts
  simpa using hc.not_space.1

/-- Items are not mistaken for the end of an empty array. -/
theorem Writes.items_skip {vs : List Json} {s : Text} (h : Writes (.items vs) s) (rest : Text) :
    ∀ more, skipSpace (s ++ rest) ≠ ']' :: more := by
  have hvalue {v : Json} {before s : Text} (value : Writes (.value v) s) (hb : IsFiller before)
      (tail : Text) : ∀ more, skipSpace (before ++ (s ++ tail)) ≠ ']' :: more := by
    intro more
    obtain ⟨c, t, rfl, hc⟩ := value.starts
    rw [skipSpace_append hb (value.head_not_space tail)]
    intro he
    exact hc.not_space.2 (List.cons.inj he).1
  cases h with
  | lastItem value fillers =>
    simpa only [List.append_assoc] using hvalue value fillers.1 _
  | item value fillers more =>
    simpa only [List.append_assoc, List.cons_append] using hvalue value fillers.1 _

theorem Writes.members_skip {ms : List (Option Text × Json)} {s : Text}
    (h : Writes (.members ms) s) (rest : Text) :
    ∀ more, skipSpace (s ++ rest) ≠ '}' :: more := by
  have hname {before : Text} (hb : IsFiller before) (tail : Text) :
      ∀ more, skipSpace (before ++ '"' :: tail) ≠ '}' :: more := by
    intro more
    rw [skipSpace_append hb (by simp [isSpace])]
    simp
  cases h with
  | lastMember key value fillers =>
    simpa only [List.append_assoc, List.cons_append] using hname fillers.1 _
  | member key value fillers more =>
    simpa only [List.append_assoc, List.cons_append] using hname fillers.1 _

/-! ## Values -/

/-- The reader comes from a part to what the part writes. A bound on its depth of twice the length
of the part is enough. -/
def IsRead : Part → Text → Prop
  | .value v, s => ∀ before rest depth, IsFiller before → Stops rest → 2 * s.length ≤ depth →
    value? depth (before ++ (s ++ rest)) = some (v, rest)
  | .items vs, s => ∀ rest depth, 2 * s.length + 1 ≤ depth →
    items? depth (s ++ ']' :: rest) = some (vs, rest)
  | .members ms, s => ∀ rest depth, 2 * s.length + 1 ≤ depth →
    members? depth (s ++ '}' :: rest) = some (ms, rest)

theorem value?_skip {before rest : Text} (hb : IsFiller before)
    (hrest : ∀ c ∈ rest.head?, isSpace c = false) (depth : Nat) :
    value? depth (before ++ rest) = value? depth rest := by
  have hskip : skipSpace rest = rest := skipSpace_append (s := []) (by simp [IsFiller]) hrest
  cases depth with
  | zero => simp [value?]
  | succ depth => rw [value?, value?, skipSpace_append hb hrest, hskip]

/-- A text that starts like a number is read as one. -/
theorem value?_number {c : Char} {rest : Text} (hc : c = '-' ∨ c.isDigit = true) (depth : Nat) :
    value? (depth + 1) (c :: rest) =
      (number? (c :: rest)).map fun (spelling, rest) => (.number spelling, rest) := by
  have hspace : isSpace c = false := by
    refine Starts.not_space (hc.imp (fun h => ?_) id) |>.1
    simp [h]
  have hskip : skipSpace (c :: rest) = c :: rest :=
    skipSpace_append (s := []) (by simp [IsFiller]) (by simpa using hspace)
  have hother : c ∉ ['"', '[', '{', 'n', 't', 'f'] := by
    rcases hc with rfl | hc
    · decide
    · intro hmem
      simp only [List.mem_cons, List.not_mem_nil, or_false] at hmem
      rcases hmem with rfl | rfl | rfl | rfl | rfl | rfl <;> cases hc
  rw [value?, hskip]
  simp only [List.mem_cons, List.not_mem_nil, or_false, not_or] at hother
  split <;> simp_all

theorem value?_array {rest : Text} (h : ∀ more, skipSpace rest ≠ ']' :: more) (depth : Nat) :
    value? (depth + 1) ('[' :: rest) =
      (items? depth rest).map fun (items, rest) => (.array items, rest) := by
  have hskip : skipSpace ('[' :: rest) = '[' :: rest := rfl
  simp only [value?, hskip]

theorem value?_object {rest : Text} (h : ∀ more, skipSpace rest ≠ '}' :: more) (depth : Nat) :
    value? (depth + 1) ('{' :: rest) =
      (members? depth rest).map fun (members, rest) => (.object members, rest) := by
  have hskip : skipSpace ('{' :: rest) = '{' :: rest := rfl
  simp only [value?, hskip]

theorem value?_string {text : Option Text} {s : Text} (h : WritesString text s) (depth : Nat)
    (rest : Text) : value? (depth + 1) ('"' :: (s ++ '"' :: rest)) = some (.string text, rest) := by
  have hskip (t : Text) : skipSpace ('"' :: t) = '"' :: t := rfl
  rw [value?, hskip]
  simp [h.string?]

/-- White space in front of a value changes nothing, and the bound on the depth of a value is never
zero. -/
theorem Writes.isRead_value {v : Json} {s : Text} (h : Writes (.value v) s)
    (hread : ∀ rest depth, Stops rest → 2 * s.length ≤ depth + 1 →
      value? (depth + 1) (s ++ rest) = some (v, rest)) : IsRead (.value v) s := by
  intro before rest depth hbefore hrest hdepth
  have hpos : 0 < s.length := by
    obtain ⟨c, t, rfl, -⟩ := h.starts
    simp
  obtain ⟨depth, rfl⟩ := Nat.exists_eq_add_one.mpr (show 0 < depth by omega)
  rw [value?_skip hbefore (h.head_not_space rest)]
  exact hread rest depth hrest hdepth

/-- Whatever a part is written as, it is read back. -/
theorem Writes.isRead {part : Part} {s : Text} (h : Writes part s) : IsRead part s := by
  -- what is read of a part inside holds before any rest, here before the rest of its brackets
  induction h with
  | null => exact Writes.null.isRead_value fun rest depth _ _ => rfl
  | yes => exact Writes.yes.isRead_value fun rest depth _ _ => rfl
  | no => exact Writes.no.isRead_value fun rest depth _ _ => rfl
  | @number s spelling =>
    refine (Writes.number spelling).isRead_value fun rest depth hrest _ => ?_
    obtain ⟨c, t, rfl, hc⟩ := spelling.starts
    have hread := spelling.number? hrest
    rw [List.cons_append] at hread ⊢
    rw [value?_number hc, hread]
    rfl
  | @string text s body =>
    refine (Writes.string body).isRead_value fun rest depth _ _ => ?_
    simpa using value?_string body depth rest
  | @emptyArray s filler =>
    refine (Writes.emptyArray filler).isRead_value fun rest depth _ _ => ?_
    have hskip (t : Text) : skipSpace ('[' :: t) = '[' :: t := rfl
    have hend : skipSpace (s ++ ']' :: rest) = ']' :: rest :=
      skipSpace_append filler (by simp [isSpace])
    simp [value?, hskip, hend]
  | @array vs s body ih =>
    refine (Writes.array body).isRead_value fun rest depth _ hdepth => ?_
    have hitems := ih rest depth (by grind)
    have hread := value?_array (body.items_skip (']' :: rest)) depth
    simpa [hitems] using hread
  | @emptyObject s filler =>
    refine (Writes.emptyObject filler).isRead_value fun rest depth _ _ => ?_
    have hskip (t : Text) : skipSpace ('{' :: t) = '{' :: t := rfl
    have hend : skipSpace (s ++ '}' :: rest) = '}' :: rest :=
      skipSpace_append filler (by simp [isSpace])
    simp [value?, hskip, hend]
  | @object ms s body ih =>
    refine (Writes.object body).isRead_value fun rest depth _ hdepth => ?_
    have hmembers := ih rest depth (by grind)
    have hread := value?_object (body.members_skip ('}' :: rest)) depth
    simpa [hmembers] using hread
  | @lastItem v s before after value fillers ih =>
    intro rest depth hdepth
    obtain ⟨depth, rfl⟩ := Nat.exists_eq_add_one.mpr (show 0 < depth by omega)
    have hvalue := ih before (after ++ ']' :: rest) depth fillers.1
      (stops_filler fillers.2 (by simp [Stops])) (by grind)
    have hend : skipSpace (after ++ ']' :: rest) = ']' :: rest :=
      skipSpace_append fillers.2 (by simp [isSpace])
    simp [items?, hvalue, hend]
  | @item v vs s before after more value fillers _ ihv ih =>
    intro rest depth hdepth
    obtain ⟨depth, rfl⟩ := Nat.exists_eq_add_one.mpr (show 0 < depth by omega)
    have hvalue := ihv before (after ++ ',' :: (more ++ ']' :: rest)) depth fillers.1
      (stops_filler fillers.2 (by simp [Stops])) (by grind)
    have hend : skipSpace (after ++ ',' :: (more ++ ']' :: rest)) = ',' :: (more ++ ']' :: rest) :=
      skipSpace_append fillers.2 (by simp [isSpace])
    have hitems := ih rest depth (by grind)
    simp [items?, hvalue, hend, hitems]
  | @lastMember name v n s before colon between after key value fillers ih =>
    intro rest depth hdepth
    obtain ⟨depth, rfl⟩ := Nat.exists_eq_add_one.mpr (show 0 < depth by omega)
    obtain ⟨hbefore, hcolon, hbetween, hafter⟩ := fillers
    have hvalue := ih between (after ++ '}' :: rest) depth hbetween
      (stops_filler hafter (by simp [Stops])) (by grind)
    have hend : skipSpace (after ++ '}' :: rest) = '}' :: rest :=
      skipSpace_append hafter (by simp [isSpace])
    have hquote (t : Text) : skipSpace (before ++ '"' :: t) = '"' :: t :=
      skipSpace_append hbefore (by simp [isSpace])
    have hcut (t : Text) : skipSpace (colon ++ ':' :: t) = ':' :: t :=
      skipSpace_append hcolon (by simp [isSpace])
    simp [members?, hquote, key.string?, hcut, hvalue, hend]
  | @member name v ms n s before colon between after more key value fillers _ ihv ih =>
    intro rest depth hdepth
    obtain ⟨depth, rfl⟩ := Nat.exists_eq_add_one.mpr (show 0 < depth by omega)
    obtain ⟨hbefore, hcolon, hbetween, hafter⟩ := fillers
    have hvalue := ihv between (after ++ ',' :: (more ++ '}' :: rest)) depth hbetween
      (stops_filler hafter (by simp [Stops])) (by grind)
    have hend : skipSpace (after ++ ',' :: (more ++ '}' :: rest)) = ',' :: (more ++ '}' :: rest) :=
      skipSpace_append hafter (by simp [isSpace])
    have hquote (t : Text) : skipSpace (before ++ '"' :: t) = '"' :: t :=
      skipSpace_append hbefore (by simp [isSpace])
    have hcut (t : Text) : skipSpace (colon ++ ':' :: t) = ':' :: t :=
      skipSpace_append hcolon (by simp [isSpace])
    have hmembers := ih rest depth (by grind)
    simp [members?, hquote, key.string?, hcut, hvalue, hend, hmembers]

/-- **A text of a value is read as that value.** -/
theorem read?_of_isDocument {v : Json} {text : Text} (h : IsDocument v text) :
    read? text = some v := by
  obtain ⟨before, s, after, rfl, hbefore, hafter, hv⟩ := h
  have hstops : Stops (after ++ []) := stops_filler hafter (by simp [Stops])
  have hend : skipSpace (after ++ []) = [] := skipSpace_append hafter (by simp)
  rw [List.append_nil] at hstops hend
  have hvalue := hv.isRead before after (2 * (before ++ s ++ after).length + 2) hbefore hstops
    (by grind)
  rw [← List.append_assoc] at hvalue
  rw [read?, hvalue]
  simp [hend]

end FirmwareBuild.Json
