import FirmwareBuild.Proofs.Hexadecimal
import FirmwareBuild.Proofs.TextCuts
import FirmwareBuild.Toml.Reader

/-! # Texts of TOML lines

The grammar of keys, basic strings, headers and pairs as relations between what is
written and the texts that write it, with every choice of quotes, escapes, spaces and
comments. The reader takes a line with its end for what it writes, whatever follows
(`statements?_lines`). -/

namespace FirmwareBuild.Toml

open Text

/-! ## The grammar -/

def IsSpaces (s : Text) : Prop := ∀ c ∈ s, c = ' ' ∨ c = '\t'

def IsAllowed (c : Char) : Prop := c = '\t' ∨ (0x20 ≤ c.toNat ∧ c.toNat ≠ 0x7F)

def shortEscapes : List (Char × Char) :=
  [('b', '\x08'), ('t', '\t'), ('n', '\n'), ('f', '\x0c'), ('r', '\r'), ('"', '"'), ('\\', '\\')]

inductive WritesBasic : Text → Text → Prop
  | nil : WritesBasic [] []
  | plain {t s : Text} {c : Char} (rest : WritesBasic t s) (allowed : IsAllowed c)
      (quote : c ≠ '"') (backslash : c ≠ '\\') : WritesBasic (c :: t) (c :: s)
  | short {t s : Text} {letter c : Char} (rest : WritesBasic t s)
      (escape : (letter, c) ∈ shortEscapes) : WritesBasic (c :: t) ('\\' :: letter :: s)
  | four {t s : Text} {d₁ d₂ d₃ d₄ c : Char} (rest : WritesBasic t s)
      (number : Hexadecimal [d₁, d₂, d₃, d₄] c.toNat) :
    WritesBasic (c :: t) ('\\' :: 'u' :: d₁ :: d₂ :: d₃ :: d₄ :: s)
  | eight {t s : Text} {d₁ d₂ d₃ d₄ d₅ d₆ d₇ d₈ c : Char} (rest : WritesBasic t s)
      (number : Hexadecimal [d₁, d₂, d₃, d₄, d₅, d₆, d₇, d₈] c.toNat) :
    WritesBasic (c :: t) ('\\' :: 'U' :: d₁ :: d₂ :: d₃ :: d₄ :: d₅ :: d₆ :: d₇ :: d₈ :: s)

/-- A part of a key, without quotes or with one of the two kinds of them. -/
inductive WritesPart : Text → Text → Prop
  | bare {t : Text} (nonempty : t ≠ []) (bare : ∀ c ∈ t, isBare c = true) : WritesPart t t
  | basic {t s : Text} (body : WritesBasic t s) : WritesPart t ('"' :: (s ++ ['"']))
  | literal {t : Text} (body : ∀ c ∈ t, IsAllowed c ∧ c ≠ '\'') :
    WritesPart t ('\'' :: (t ++ ['\'']))

inductive WritesKey : List Text → Text → Prop
  | last {part s before after : Text} (body : WritesPart part s)
      (spaces : IsSpaces before ∧ IsSpaces after) : WritesKey [part] (before ++ (s ++ after))
  | more {part s before after rest : Text} {parts : List Text} (body : WritesPart part s)
      (spaces : IsSpaces before ∧ IsSpaces after) (others : WritesKey parts rest) :
    WritesKey (part :: parts) (before ++ (s ++ (after ++ '.' :: rest)))

/-- What may stand at the end of a line: space and a comment. -/
def IsTail (s : Text) : Prop :=
  ∃ spaces comment, s = spaces ++ comment ∧ IsSpaces spaces ∧
    (comment = [] ∨ ∃ words, comment = '#' :: words ∧ ∀ c ∈ words, IsAllowed c)

def brackets (isElement : Bool) (c : Char) : Text := if isElement then [c, c] else [c]

/-- A line that says nothing, opens a table or gives a text to a key. -/
inductive Line where
  | blank
  | header (name : Text)
  | pair (name text : Text)
  deriving DecidableEq

inductive IsLine : Line → Text → Prop
  | blank {tail : Text} (end' : IsTail tail) : IsLine .blank tail
  | header {name key before tail : Text} (path : WritesKey [name] key) (spaces : IsSpaces before)
      (end' : IsTail tail) : IsLine (.header name) (before ++ '[' :: (key ++ ']' :: tail))
  | pair {name key text s between tail : Text} (path : WritesKey [name] key)
      (body : WritesBasic text s) (spaces : IsSpaces between) (end' : IsTail tail) :
    IsLine (.pair name text) (key ++ '=' :: (between ++ '"' :: (s ++ '"' :: tail)))

def IsBreak (s : Text) : Prop := s = ['\n'] ∨ s = ['\r', '\n']

theorem IsBreak.ne_nil {s : Text} (h : IsBreak s) : s ≠ [] := by
  rcases h with rfl | rfl <;> simp

inductive WritesLines : List Line → Text → Prop
  | nil : WritesLines [] []
  | cons {line : Line} {lines : List Line} {s end' t : Text} (first : IsLine line s)
      (ended : IsBreak end') (rest : WritesLines lines t) :
    WritesLines (line :: lines) (s ++ (end' ++ t))

/-! ## Strings -/

theorem IsAllowed.isPlain {c : Char} (h : IsAllowed c) : isPlain c = true := by
  rcases h with rfl | ⟨hcontrol, hdelete⟩
  · rfl
  · simp [Toml.isPlain, hcontrol, hdelete]

theorem scalarOf?_eq {digits : Text} {c : Char} (h : Hexadecimal digits c.toNat) :
    scalarOf? digits = some c := by
  obtain ⟨hdigits, hnumber⟩ := h.numberOf
  have hvalid : c.toNat < 0xD800 ∨ 0xE000 ≤ c.toNat ∧ c.toNat < 0x110000 := by
    have h : c.toNat < 0xD800 ∨ 0xDFFF < c.toNat ∧ c.toNat < 0x110000 := c.valid
    omega
  rw [scalarOf?, if_pos hdigits]
  simp [hnumber, hvalid]

theorem WritesBasic.basicString? {t s : Text} (h : WritesBasic t s) (rest : Text) :
    Toml.basicString? (s ++ '"' :: rest) = some (t, rest) := by
  induction h with
  | nil => simp [Toml.basicString?]
  | plain _ allowed quote backslash ih => simp [Toml.basicString?, backslash, allowed.isPlain, ih]
  | short _ escape ih =>
    simp only [shortEscapes, List.mem_cons, Prod.mk.injEq, List.not_mem_nil, or_false] at escape
    rcases escape with ⟨rfl, rfl⟩ | ⟨rfl, rfl⟩ | ⟨rfl, rfl⟩ | ⟨rfl, rfl⟩ | ⟨rfl, rfl⟩ | ⟨rfl, rfl⟩ |
      ⟨rfl, rfl⟩
    all_goals simp [Toml.basicString?, shortEscape?, ih]
  | four _ number ih => simp [Toml.basicString?, scalarOf?_eq number, ih]
  | eight _ number ih => simp [Toml.basicString?, scalarOf?_eq number, ih]

/-- No quote stands between the quotes without a backslash in front. -/
theorem WritesBasic.head?_ne {t s : Text} (h : WritesBasic t s) : s.head? ≠ some '"' := by
  cases h with
  | nil => simp
  | plain _ _ quote _ => simpa using quote
  | _ => simp

theorem WritesBasic.string? {t s rest : Text} (h : WritesBasic t s)
    (hrest : rest.head? ≠ some '"') :
    Toml.string? ('"' :: (s ++ '"' :: rest)) = some (t, rest) := by
  have hread := h.basicString? rest
  -- three quotes would start a string over several lines
  have hthree : ∀ more, s ++ '"' :: rest ≠ '"' :: '"' :: more := by
    intro more heq
    cases s with
    | nil => exact hrest (by simp_all)
    | cons c s =>
      obtain ⟨rfl, -⟩ := List.cons.inj heq
      exact h.head?_ne rfl
  rw [← hread]
  simp only [Toml.string?]

/-! ## Spaces and ends of lines -/

theorem skipSpace_append {s rest : Text} (h : IsSpaces s)
    (hrest : ∀ c ∈ rest.head?, isSpace c = false) : skipSpace (s ++ rest) = rest := by
  have hs : ∀ c ∈ s, isSpace c = true := by
    intro c hc
    rcases h c hc with rfl | rfl <;> rfl
  exact dropWhile_append_stop hs hrest

theorem IsSpaces.head?_ne {s rest : Text} {c : Char} (h : IsSpaces s) (hc : isSpace c = false)
    (hrest : rest.head? ≠ some c) : (s ++ rest).head? ≠ some c := by
  cases s with
  | nil => exact hrest
  | cons d s =>
    intro hhead
    obtain rfl := Option.some.inj hhead
    rcases h d List.mem_cons_self with rfl | rfl <;> cases hc

/-- A text in which a line ends, with the text that follows the line. -/
inductive Ends : Text → Text → Prop
  | last : Ends [] []
  | inside {end' : Text} (ended : IsBreak end') (next : Text) : Ends (end' ++ next) next

variable {rest next tail : Text}

theorem Ends.head (h : Ends rest next) : ∀ c ∈ rest.head?, c = '\n' ∨ c = '\r' := by
  cases h with
  | last => simp
  | inside ended next =>
    rcases ended with rfl | rfl
    · simp
    · simp

theorem Ends.newline? (h : Ends rest next) :
    (if rest.isEmpty then some [] else Toml.newline? rest) = some next := by
  cases h with
  | last => rfl
  | inside ended next => rcases ended with rfl | rfl <;> rfl

/-- Past the spaces stands a comment or the end of the line. -/
theorem IsTail.skipSpace (h : IsTail tail) (hrest : Ends rest next) :
    ∃ comment, Toml.skipSpace (tail ++ rest) = comment ++ rest ∧
      (comment = [] ∨ ∃ words, comment = '#' :: words ∧ ∀ c ∈ words, IsAllowed c) := by
  obtain ⟨spaces, comment, rfl, hspaces, hcomment⟩ := h
  refine ⟨comment, ?_, hcomment⟩
  rw [List.append_assoc]
  refine skipSpace_append hspaces fun c hc => ?_
  rcases hcomment with rfl | ⟨words, rfl, -⟩
  · rcases hrest.head c hc with rfl | rfl <;> rfl
  · obtain rfl := Option.some.inj hc
    rfl

theorem IsTail.endOfLine? (h : IsTail tail) (hrest : Ends rest next) :
    Toml.endOfLine? (tail ++ rest) = some next := by
  obtain ⟨comment, hskip, hcomment⟩ := h.skipSpace hrest
  rw [Toml.endOfLine?, hskip]
  rcases hcomment with rfl | ⟨words, rfl, hwords⟩
  · split
    · rename_i heq
      have hhead := hrest.head
      rw [← List.nil_append rest, heq] at hhead
      rcases hhead '#' rfl with h | h <;> cases h
    · exact hrest.newline?
  · have hdrop : (words ++ rest).dropWhile isPlain = rest := by
      refine dropWhile_append_stop (fun c hc => (hwords c hc).isPlain) fun c hc => ?_
      rcases hrest.head c hc with rfl | rfl <;> rfl
    simp only [List.cons_append, hdrop]
    exact hrest.newline?

/-! ## Keys -/

def StartsKey (c : Char) : Prop := isBare c = true ∨ c = '"' ∨ c = '\''

/-- It is no space, and starts no comment, header or end of a line. -/
theorem StartsKey.notLayout {c : Char} (h : StartsKey c) :
    isSpace c = false ∧ c ∉ ['#', '[', '\n', '\r'] := by
  rcases h with h | rfl | rfl
  · refine ⟨?_, fun hmem => ?_⟩
    · by_contra hspace
      simp only [isSpace, Bool.not_eq_false, Bool.or_eq_true, beq_iff_eq] at hspace
      rcases hspace with rfl | rfl <;> cases h
    · simp only [List.mem_cons, List.not_mem_nil, or_false] at hmem
      rcases hmem with rfl | rfl | rfl | rfl <;> cases h
  · decide
  · decide

theorem WritesPart.starts {part s : Text} (h : WritesPart part s) :
    ∃ c more, s = c :: more ∧ StartsKey c := by
  cases h with
  | bare nonempty bare =>
    obtain ⟨c, more, rfl⟩ := List.exists_cons_of_ne_nil nonempty
    exact ⟨c, more, rfl, .inl (bare c List.mem_cons_self)⟩
  | basic => exact ⟨_, _, rfl, .inr (.inl rfl)⟩
  | literal => exact ⟨_, _, rfl, .inr (.inr rfl)⟩

theorem WritesPart.keyPart? {part s : Text} (h : WritesPart part s)
    (hrest : ∀ c ∈ rest.head?, isBare c = false) :
    Toml.keyPart? (s ++ rest) = some (part, rest) := by
  cases h with
  | bare nonempty bare =>
    obtain ⟨c, more, rfl⟩ := List.exists_cons_of_ne_nil nonempty
    have hc := bare c List.mem_cons_self
    have hquotes : c ≠ '"' ∧ c ≠ '\'' := by
      constructor <;> rintro rfl <;> cases hc
    have htake := takeWhile_append_stop bare hrest
    have hdrop := dropWhile_append_stop bare hrest
    rw [List.cons_append] at htake hdrop ⊢
    simp [Toml.keyPart?, hquotes, htake, hdrop]
  | basic body => simp [Toml.keyPart?, body.basicString?]
  | literal body =>
    have hall : ∀ c ∈ part, (isPlain c && c != '\'') = true := by
      intro c hc
      simp [(body c hc).1.isPlain, (body c hc).2]
    have hquote : ∀ c ∈ ('\'' :: rest).head?, (isPlain c && c != '\'') = false := by simp
    simp [Toml.keyPart?, Toml.literalString?, takeWhile_append_stop hall hquote,
      dropWhile_append_stop hall hquote]

def FollowsKey (rest : Text) : Prop := ∃ c more, rest = c :: more ∧ (c = '=' ∨ c = ']')

theorem WritesKey.length_le {path : List Text} {k : Text} (h : WritesKey path k) :
    path.length ≤ k.length := by
  induction h with
  | last body spaces =>
    obtain ⟨c, more, rfl, -⟩ := body.starts
    simp
    omega
  | more body spaces others ih =>
    simp
    omega

/-- A part of a key is read up to what is not of it. -/
theorem WritesPart.keyPart?_spaced {part s before after : Text} {c : Char}
    (h : WritesPart part s) (hspaces : IsSpaces before ∧ IsSpaces after)
    (hc : isBare c = false ∧ isSpace c = false) (more : Text) :
    Toml.keyPart? (skipSpace (before ++ (s ++ (after ++ c :: more)))) =
      some (part, after ++ c :: more) ∧ skipSpace (after ++ c :: more) = c :: more := by
  constructor
  · obtain ⟨first, others, rfl, hfirst⟩ := h.starts
    rw [skipSpace_append hspaces.1 (by simpa using hfirst.notLayout.1)]
    refine h.keyPart? fun d hd => ?_
    cases after with
    | nil =>
      obtain rfl := Option.some.inj hd
      exact hc.1
    | cons d after =>
      obtain rfl := Option.some.inj hd
      rcases hspaces.2 d List.mem_cons_self with rfl | rfl <;> rfl
  · exact skipSpace_append hspaces.2 (by simpa using hc.2)

theorem WritesKey.keyParts? {path : List Text} {k : Text} (h : WritesKey path k)
    (hrest : FollowsKey rest) {steps : Nat} (hsteps : path.length ≤ steps) :
    Toml.keyParts? steps (k ++ rest) = some (path, rest) := by
  obtain ⟨e, more, rfl, he⟩ := hrest
  induction h generalizing steps with
  | last body spaces =>
    obtain ⟨steps, rfl⟩ := Nat.exists_eq_add_one.mpr hsteps
    have hends : isBare e = false ∧ isSpace e = false ∧ e ≠ '.' := by
      rcases he with rfl | rfl <;> decide
    obtain ⟨hpart, hskip⟩ := body.keyPart?_spaced spaces ⟨hends.1, hends.2.1⟩ more
    simp [Toml.keyParts?, hpart, hskip, hends.2.2]
  | @more part s before after rest parts body spaces others ih =>
    -- a part takes one step, and the text has at least as many characters as the key has parts
    obtain ⟨steps, rfl⟩ := Nat.exists_eq_add_one.mpr (Nat.zero_lt_of_lt hsteps)
    have hdot : isBare '.' = false ∧ isSpace '.' = false := by decide
    obtain ⟨hpart, hskip⟩ := body.keyPart?_spaced spaces hdot (rest ++ e :: more)
    have hothers := ih (Nat.le_of_succ_le_succ hsteps)
    simp [Toml.keyParts?, hpart, hskip, hothers]

theorem WritesKey.key? {path : List Text} {k : Text} (h : WritesKey path k)
    (hrest : FollowsKey rest) : Toml.key? (k ++ rest) =
      if path.length ≤ limit then some (path, rest) else none := by
  have hsteps : path.length ≤ (k ++ rest).length + 1 := by
    have hlength := h.length_le
    rw [List.length_append]
    omega
  rw [Toml.key?, h.keyParts? hrest hsteps]
  rfl

/-- White space in front of a key belongs to it. -/
theorem WritesKey.skipSpace {path : List Text} {k : Text} (h : WritesKey path k) (rest : Text) :
    ∃ k', Toml.skipSpace (k ++ rest) = k' ++ rest ∧ (∃ c ∈ (k' ++ rest).head?, StartsKey c) ∧
      WritesKey path k' := by
  have hnil : IsSpaces [] := by simp [IsSpaces]
  cases h with
  | last body spaces =>
    obtain ⟨c, more, rfl, hc⟩ := body.starts
    refine ⟨_, ?_, ⟨c, rfl, hc⟩, .last body ⟨hnil, spaces.2⟩⟩
    rw [List.append_assoc, skipSpace_append spaces.1 (by simpa using hc.notLayout.1)]
    rfl
  | more body spaces others =>
    obtain ⟨c, more, rfl, hc⟩ := body.starts
    refine ⟨_, ?_, ⟨c, rfl, hc⟩, .more body ⟨hnil, spaces.2⟩ others⟩
    rw [List.append_assoc, skipSpace_append spaces.1 (by simpa using hc.notLayout.1)]
    rfl

/-! ## Lines -/

def Line.statements : Line → List Statement
  | .blank => []
  | .header name => [.header false [name]]
  | .pair name text => [.pair [name] (.string text)]

/-- A line that starts like a key is read as a pair. -/
theorem statements?_pair {s t : Text} (hs : skipSpace s = t) (ht : ∃ c ∈ t.head?, StartsKey c)
    (steps : Nat) : statements? (steps + 1) s = (pair? t).bind fun (statement, rest) =>
      (statements? steps rest).map (statement :: ·) := by
  obtain ⟨c, hhead, hc⟩ := ht
  obtain ⟨more, rfl⟩ := List.head?_eq_some_iff.mp hhead
  obtain ⟨hspace, hother⟩ := hc.notLayout
  simp only [List.mem_cons, List.not_mem_nil, or_false, not_or] at hother
  obtain ⟨hcomment, hbracket, hfeed, hreturn⟩ := hother
  have hskip : skipSpace (c :: more) = c :: more := by simp [skipSpace, hspace]
  have hend : endOfLine? (c :: more) = none := by
    rw [endOfLine?, hskip]
    simp [hcomment, newline?, hfeed, hreturn]
  rw [statements?, hs]
  split
  · rename_i heq
    cases heq
  · rename_i heq
    exact absurd (List.cons.inj heq).1 hbracket
  · rename_i heq
    exact absurd (List.cons.inj heq).1 hbracket
  · rw [hend]
    rfl

theorem statements?_header {s more : Text} (isElement : Bool)
    (hs : skipSpace s = brackets isElement '[' ++ more) (hmore : more.head? ≠ some '[')
    (steps : Nat) :
    statements? (steps + 1) s = (header? isElement more).bind fun (statement, rest) =>
      (statements? steps rest).map (statement :: ·) := by
  rw [statements?, hs]
  cases isElement with
  | true => rfl
  | false =>
    rw [brackets, if_neg Bool.false_ne_true, List.singleton_append]
    split
    · rename_i heq
      cases heq
    · rename_i heq
      obtain ⟨-, rfl⟩ := List.cons.inj heq
      exact absurd rfl hmore
    · rename_i heq
      obtain ⟨-, rfl⟩ := List.cons.inj heq
      rfl
    · rename_i hno
      exact absurd rfl (hno more)

/-- A line that holds nothing is passed over. -/
theorem statements?_blank {tail : Text} (h : IsTail tail) (hrest : Ends rest next) (steps : Nat)
    (hsteps : rest = [] → 0 < steps) :
    statements? (steps + 1) (tail ++ rest) = statements? steps next := by
  obtain ⟨comment, hskip, hcomment⟩ := h.skipSpace hrest
  have htail : IsTail comment := ⟨[], comment, rfl, by simp [IsSpaces], hcomment⟩
  have hend := htail.endOfLine? hrest
  have hbracket : (comment ++ rest).head? ≠ some '[' := by
    intro hhead
    rcases hcomment with rfl | ⟨words, rfl, -⟩
    · rcases hrest.head '[' hhead with h | h <;> cases h
    · cases hhead
  rw [statements?, hskip]
  split
  · rename_i heq
    obtain ⟨-, rfl⟩ := List.append_eq_nil_iff.mp heq
    obtain ⟨steps, rfl⟩ := Nat.exists_eq_add_one.mpr (hsteps rfl)
    obtain rfl := Option.some.inj hrest.newline?
    rfl
  · rename_i heq
    exact absurd (by rw [heq]; rfl) hbracket
  · rename_i heq
    exact absurd (by rw [heq]; rfl) hbracket
  · rw [hend]

theorem WritesPart.head?_ne {part t rest : Text} {c : Char} (h : WritesPart part t)
    (hc : isBare c = false ∧ c ≠ '"' ∧ c ≠ '\'') : (t ++ rest).head? ≠ some c := by
  obtain ⟨d, more, rfl, hd⟩ := h.starts
  intro hhead
  obtain rfl := Option.some.inj hhead
  rcases hd with hd | hd | hd
  · rw [hc.1] at hd
    cases hd
  · exact hc.2.1 hd
  · exact hc.2.2 hd

/-- What a key does not start with. -/
theorem WritesKey.head?_ne {path : List Text} {k : Text} {c : Char} (h : WritesKey path k)
    (hc : isBare c = false ∧ c ≠ '"' ∧ c ≠ '\'') (hspace : isSpace c = false) (rest : Text) :
    (k ++ rest).head? ≠ some c := by
  cases h with
  | last body spaces =>
    rw [List.append_assoc, List.append_assoc]
    exact spaces.1.head?_ne hspace (body.head?_ne hc)
  | more body spaces others =>
    rw [List.append_assoc, List.append_assoc]
    exact spaces.1.head?_ne hspace (body.head?_ne hc)

theorem WritesKey.header? {path : List Text} {k : Text} (h : WritesKey path k) (isElement : Bool)
    (rest : Text) : Toml.header? isElement (k ++ (brackets isElement ']' ++ rest)) =
      if path.length ≤ limit then (endOfLine? rest).map (.header isElement path, ·) else none := by
  have hfollows : FollowsKey (brackets isElement ']' ++ rest) := by
    cases isElement with
    | true => exact ⟨']', ']' :: rest, rfl, .inr rfl⟩
    | false => exact ⟨']', rest, rfl, .inr rfl⟩
  have hbrackets : Text.dropStart? (if isElement then [']', ']'] else [']'])
      (brackets isElement ']' ++ rest) = some rest := by
    cases isElement with
    | true => simp [brackets, Text.dropStart?]
    | false => simp [brackets, Text.dropStart?]
  rw [Toml.header?, h.key? hfollows]
  split
  · simp [hbrackets]
  · rfl

theorem WritesKey.pair? {path : List Text} {k : Text} (h : WritesKey path k) (rest : Text) :
    Toml.pair? (k ++ '=' :: rest) = if path.length ≤ limit then
      (value? (2 * (k ++ '=' :: rest).length + 2) limit (Toml.skipSpace rest)).bind
        fun (value, rest) => (endOfLine? rest).map (.pair path value, ·) else none := by
  rw [Toml.pair?, h.key? ⟨'=', rest, rfl, .inl rfl⟩]
  split
  · rfl
  · rfl

theorem value?_basic {t s rest : Text} (h : WritesBasic t s) (hrest : rest.head? ≠ some '"')
    (steps depth : Nat) :
    value? (steps + 1) depth ('"' :: (s ++ '"' :: rest)) = some (.string t, rest) := by
  rw [value?.eq_def]
  dsimp only
  rw [h.string? hrest]
  rfl

theorem IsTail.head?_ne {c : Char} (h : IsTail tail) (hc : isSpace c = false ∧ c ≠ '#')
    (hrest : rest.head? ≠ some c) : (tail ++ rest).head? ≠ some c := by
  obtain ⟨spaces, comment, rfl, hspaces, hcomment⟩ := h
  rw [List.append_assoc]
  refine hspaces.head?_ne hc.1 ?_
  rcases hcomment with rfl | ⟨words, rfl, -⟩
  · exact hrest
  · simpa using Ne.symm hc.2

theorem Ends.head?_ne {c : Char} (h : Ends rest next) (hc : c ≠ '\n' ∧ c ≠ '\r') :
    rest.head? ≠ some c := by
  intro hhead
  rcases h.head c hhead with rfl | rfl
  · exact hc.1 rfl
  · exact hc.2 rfl

/-- **A line is read as what it says**, and the reader goes on behind it. -/
theorem statements?_line {line : Line} {s : Text} (h : IsLine line s) (hrest : Ends rest next)
    (steps : Nat) (hsteps : rest = [] → 0 < steps) :
    statements? (steps + 1) (s ++ rest) = (statements? steps next).map (line.statements ++ ·) := by
  have hlimit (name : Text) : [name].length ≤ limit := by simp [limit]
  cases h with
  | blank end' =>
    rw [statements?_blank end' hrest steps hsteps]
    simp [Line.statements]
  | @header name key before tail path spaces end' =>
    have hskip : skipSpace (before ++ '[' :: (key ++ ']' :: (tail ++ rest))) =
        brackets false '[' ++ (key ++ (brackets false ']' ++ (tail ++ rest))) :=
      skipSpace_append spaces (by simp [isSpace])
    have hread := statements?_header false hskip (path.head?_ne (by decide) (by decide) _) steps
    rw [path.header?, if_pos (hlimit name), end'.endOfLine? hrest] at hread
    simpa [Line.statements] using hread
  | @pair name key text s between tail path body spaces end' =>
    obtain ⟨key', hskip, hstart, path⟩ :=
      path.skipSpace ('=' :: (between ++ '"' :: (s ++ '"' :: (tail ++ rest))))
    have hvalue : skipSpace (between ++ '"' :: (s ++ '"' :: (tail ++ rest))) =
        '"' :: (s ++ '"' :: (tail ++ rest)) := skipSpace_append spaces (by simp [isSpace])
    have hquote := end'.head?_ne (by decide) (hrest.head?_ne (c := '"') (by decide))
    have hread := statements?_pair hskip hstart steps
    rw [path.pair?, if_pos (hlimit name), hvalue,
      value?_basic body hquote] at hread
    simpa [Line.statements, end'.endOfLine? hrest] using hread

/-- **Whole lines are read one after the other**, whatever follows them. -/
theorem statements?_lines {lines : List Line} {s : Text} (h : WritesLines lines s) (rest : Text)
    (steps : Nat) : statements? (lines.length + steps) (s ++ rest) =
      (statements? steps rest).map (lines.flatMap Line.statements ++ ·) := by
  induction h with
  | nil => simp
  | @cons line lines s end' t first ended _ ih =>
    have hends : Ends (end' ++ (t ++ rest)) (t ++ rest) := .inside ended _
    have hne : end' ++ (t ++ rest) = [] → 0 < lines.length + steps := by
      rcases ended with rfl | rfl <;> simp
    have hline := statements?_line first hends (lines.length + steps) hne
    rw [ih] at hline
    simp only [List.append_assoc, List.length_cons, List.flatMap_cons]
    rw [show lines.length + 1 + steps = lines.length + steps + 1 by omega, hline]
    simp [Function.comp_def]

theorem IsLine.eq_blank {line : Line} {s : Text} (h : IsLine line s) (hs : s = []) :
    line = .blank := by
  cases h with
  | blank => rfl
  | header => simp at hs
  | pair => simp at hs

/-- Nothing has to follow the last line. -/
theorem statements?_last {line : Line} {s : Text} (h : IsLine line s) {steps : Nat}
    (hsteps : s.length < steps) : statements? steps s = some line.statements := by
  obtain ⟨steps, rfl⟩ := Nat.exists_eq_add_one.mpr (Nat.zero_lt_of_lt hsteps)
  cases s with
  | nil =>
    obtain rfl := h.eq_blank rfl
    rfl
  | cons c s =>
    have hsteps : 0 < steps := by
      simp at hsteps
      omega
    have hline := statements?_line h .last steps fun _ => hsteps
    obtain ⟨steps, rfl⟩ := Nat.exists_eq_add_one.mpr hsteps
    have hnil : statements? (steps + 1) [] = some [] := rfl
    rw [List.append_nil, hnil] at hline
    simpa using hline

/-! ## Values without quotes -/

theorem integer?_eq_some {word : Text} {v : Toml} (h : integer? word = some v) :
    ∃ n, v = .integer n := by
  have hend {p : Prop} [Decidable p] {n : Int}
      (h : (if p then some (Toml.integer n) else none) = some v) : ∃ n, v = .integer n :=
    ⟨n, (Option.some.inj (Option.ite_none_right_eq_some.mp h).2).symm⟩
  simp only [integer?] at h
  split at h
  · obtain ⟨digits, -, h⟩ := Option.bind_eq_some_iff.mp h
    exact hend h
  · obtain ⟨digits, -, h⟩ := Option.bind_eq_some_iff.mp h
    exact hend h
  · obtain ⟨digits, -, h⟩ := Option.bind_eq_some_iff.mp h
    exact hend h
  · obtain ⟨digits, -, h⟩ := Option.bind_eq_some_iff.mp h
    split at h
    · exact hend h
    · exact hend h

theorem float?_eq_some {word : Text} {v : Toml} (h : float? word = some v) : v = .float word := by
  have hend {p q : Prop} [Decidable p] [Decidable q]
      (h : (if p then none else if q then none else some (Toml.float word)) = some v) :
      v = .float word :=
    (Option.some.inj (Option.ite_none_left_eq_some.mp (Option.ite_none_left_eq_some.mp h).2).2).symm
  simp only [float?] at h
  split at h
  · exact (Option.some.inj h).symm
  · obtain ⟨whole, -, h⟩ := Option.bind_eq_some_iff.mp h
    -- a fraction or none, and an exponent or none
    split at h
    all_goals
      obtain ⟨fraction, -, h⟩ := Option.bind_eq_some_iff.mp h
      split at h
      all_goals
        obtain ⟨exponent, -, h⟩ := Option.bind_eq_some_iff.mp h
        exact hend h

theorem datetime?_eq_some {word : Text} {v : Toml} (h : datetime? word = some v) :
    v = .datetime word := by
  simp only [datetime?] at h
  split at h
  all_goals exact (Option.some.inj (Option.ite_none_right_eq_some.mp h).2).symm

theorem wordValue?_ne_string (word t : Text) : wordValue? word ≠ some (.string t) := by
  intro h
  rw [wordValue?] at h
  split at h
  · cases h
  · split at h
    · cases h
    · rcases Option.or_eq_some_iff.mp h with h | ⟨-, h⟩
      · obtain ⟨n, hn⟩ := integer?_eq_some h
        cases hn
      · rcases Option.or_eq_some_iff.mp h with h | ⟨-, h⟩
        · cases float?_eq_some h
        · cases datetime?_eq_some h

theorem scalar?_ne_string (s t rest : Text) : scalar? s ≠ some (.string t, rest) := by
  intro h
  have hword (word rest' : Text)
      (h : (wordValue? word).map (·, rest') = some (.string t, rest)) : False := by
    obtain ⟨v, hv, heq⟩ := Option.map_eq_some_iff.mp h
    obtain ⟨rfl, -⟩ := Prod.mk.inj heq
    exact wordValue?_ne_string word t hv
  rw [scalar?] at h
  dsimp only at h
  split at h
  · split at h
    · split at h
      · cases h
      · cases h
    · exact hword _ _ h
  · exact hword _ _ h

/-- Only what starts with a quote is a string. -/
theorem value?_ne_string {s t rest : Text} {steps depth : Nat}
    (h : ∀ c ∈ s.head?, c ≠ '"' ∧ c ≠ '\'') : value? steps depth s ≠ some (.string t, rest) := by
  intro hread
  cases steps with
  | zero => cases hread
  | succ steps =>
    rw [value?.eq_def] at hread
    dsimp only at hread
    split at hread
    · exact (h '"' rfl).1 rfl
    · exact (h '\'' rfl).2 rfl
    · cases hread
    · cases hread
    · obtain ⟨more, -, hread⟩ := Option.bind_eq_some_iff.mp hread
      split at hread
      · cases hread
      · obtain ⟨items, -, heq⟩ := Option.map_eq_some_iff.mp hread
        cases heq
    · split at hread
      · cases hread
      · simp only [Option.bind_eq_bind, Option.bind_eq_some_iff] at hread
        obtain ⟨pairs, -, entries, -, heq⟩ := hread
        cases heq
    · exact scalar?_ne_string _ _ _ hread

/-! ## Lines with anything behind their keys -/

theorem statements?_zero {s : Text} {steps : Nat} {said : List Statement}
    (h : statements? steps s = some said) : 0 < steps := by
  cases steps with
  | zero => cases h
  | succ steps => exact Nat.succ_pos steps

/-- A key with an equals sign starts a pair, whose value is a string only if it starts like one. -/
theorem said_pair {path : List Text} {k rest : Text} {steps : Nat} {said : List Statement}
    (hk : WritesKey path k) (h : statements? steps (k ++ '=' :: rest) = some said) :
    ∃ value more, said = .pair path value :: more ∧
      ((∀ c ∈ (skipSpace rest).head?, c ≠ '"' ∧ c ≠ '\'') → ∀ t, value ≠ .string t) := by
  obtain ⟨steps, rfl⟩ := Nat.exists_eq_add_one.mpr (statements?_zero h)
  obtain ⟨k', hskip, hstart, hk⟩ := hk.skipSpace ('=' :: rest)
  rw [statements?_pair hskip hstart, hk.pair?] at h
  obtain ⟨⟨statement, behind⟩, hpair, h⟩ := Option.bind_eq_some_iff.mp h
  obtain ⟨more, -, rfl⟩ := Option.map_eq_some_iff.mp h
  split at hpair
  · obtain ⟨⟨value, left⟩, hvalue, hend⟩ := Option.bind_eq_some_iff.mp hpair
    obtain ⟨next, -, heq⟩ := Option.map_eq_some_iff.mp hend
    obtain ⟨rfl, -⟩ := Prod.mk.inj heq
    refine ⟨value, more, rfl, fun hrest t ht => ?_⟩
    subst ht
    exact value?_ne_string hrest hvalue
  · cases hpair

theorem said_header {path : List Text} {before k rest : Text} {isElement : Bool} {steps : Nat}
    {said : List Statement} (hbefore : IsSpaces before) (hk : WritesKey path k)
    (h : statements? steps
      (before ++ (brackets isElement '[' ++ (k ++ (brackets isElement ']' ++ rest)))) = some said) :
    ∃ more, said = .header isElement path :: more := by
  obtain ⟨steps, rfl⟩ := Nat.exists_eq_add_one.mpr (statements?_zero h)
  have hskip (t : Text) : skipSpace (before ++ (brackets isElement '[' ++ t)) =
      brackets isElement '[' ++ t :=
    skipSpace_append hbefore (by cases isElement <;> simp [brackets, isSpace])
  have hhead := hk.head?_ne (c := '[') (by decide) (by decide) (brackets isElement ']' ++ rest)
  rw [statements?_header isElement (hskip _) hhead, hk.header?] at h
  obtain ⟨⟨statement, behind⟩, hheader, h⟩ := Option.bind_eq_some_iff.mp h
  obtain ⟨more, -, rfl⟩ := Option.map_eq_some_iff.mp h
  split at hheader
  · obtain ⟨next, -, heq⟩ := Option.map_eq_some_iff.mp hheader
    obtain ⟨rfl, -⟩ := Prod.mk.inj heq
    exact ⟨more, rfl⟩
  · cases hheader

/-! ## Documents -/

/-- A mark of the octet order, or none. -/
def IsMark (s : Text) : Prop := s = [] ∨ s = ['\uFEFF']

/-- The text of a document, line by line. The last line needs no end. -/
inductive IsDocument : List Line → Text → Prop
  | intro {front : List Line} {last : Line} {mark body s : Text} (marked : IsMark mark)
      (lines : WritesLines front body) (ending : IsLine last s) :
    IsDocument (front ++ [last]) (mark ++ (body ++ s))

theorem IsLine.head?_ne {line : Line} {s : Text} (h : IsLine line s) {rest : Text}
    (hrest : rest.head? ≠ some '\uFEFF') : (s ++ rest).head? ≠ some '\uFEFF' := by
  cases h with
  | blank end' => exact end'.head?_ne (by decide) hrest
  | header path spaces end' =>
    rw [List.append_assoc]
    exact spaces.head?_ne (by decide) (by simp)
  | pair path body spaces end' =>
    rw [List.append_assoc]
    exact path.head?_ne (by decide) (by decide) _

theorem WritesLines.head?_ne {lines : List Line} {s : Text} (h : WritesLines lines s) {rest : Text}
    (hrest : rest.head? ≠ some '\uFEFF') : (s ++ rest).head? ≠ some '\uFEFF' := by
  cases h with
  | nil => exact hrest
  | cons first ended _ =>
    rw [List.append_assoc]
    refine first.head?_ne ?_
    rcases ended with rfl | rfl <;> simp

theorem WritesLines.length_le {lines : List Line} {s : Text} (h : WritesLines lines s) :
    lines.length ≤ s.length := by
  induction h with
  | nil => exact Nat.le_refl _
  | cons _ ended _ ih =>
    have hbreak : 0 < List.length _ := List.length_pos_iff.mpr ended.ne_nil
    simp only [List.length_cons, List.length_append]
    omega

/-- A mark at the start is not read. -/
theorem unmarked {mark s : Text} (h : IsMark mark) (hs : s.head? ≠ some '\uFEFF') :
    (Text.dropStart? ['\uFEFF'] (mark ++ s)).getD (mark ++ s) = s := by
  rcases h with rfl | rfl
  · cases s with
    | nil => rfl
    | cons c s =>
      have hc : c ≠ '\uFEFF' := by simpa using hs
      simp [Text.dropStart?, hc]
  · simp [Text.dropStart?]

/-- **Whole lines are read as what they say**, and what follows them is read behind it. -/
theorem read?_lines {lines : List Line} {mark body rest : Text} (hmark : IsMark mark)
    (hlines : WritesLines lines body) (hrest : rest.head? ≠ some '\uFEFF') :
    ∃ steps, rest.length < steps ∧ read? (mark ++ (body ++ rest)) =
      (statements? steps rest).bind fun said =>
        assemble? (group (lines.flatMap Line.statements ++ said)).1
          (group (lines.flatMap Line.statements ++ said)).2 := by
  have hlength := hlines.length_le
  refine ⟨body.length + rest.length + 1 - lines.length, by omega, ?_⟩
  have hsteps : (body ++ rest).length + 1 =
      lines.length + (body.length + rest.length + 1 - lines.length) := by
    rw [List.length_append]
    omega
  rw [read?, unmarked hmark (hlines.head?_ne hrest), hsteps, statements?_lines hlines]
  cases statements? _ rest <;> rfl

/-- **A document is read as what its lines say.** -/
theorem IsDocument.read? {lines : List Line} {text : Text} (h : IsDocument lines text) :
    Toml.read? text = assemble? (group (lines.flatMap Line.statements)).1
      (group (lines.flatMap Line.statements)).2 := by
  cases h with
  | @intro front last mark body s marked lines ending =>
    have hhead : (s ++ []).head? ≠ some '\uFEFF' := ending.head?_ne (by simp)
    rw [List.append_nil] at hhead
    obtain ⟨steps, hsteps, hread⟩ := read?_lines marked lines hhead
    rw [hread, statements?_last ending hsteps]
    simp

end FirmwareBuild.Toml
