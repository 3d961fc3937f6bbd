import FirmwareBuild.FrontEnd.Assignment
import FirmwareBuild.Posix.Shell.Script
import FirmwareBuild.Proofs.TextCuts

/-! # Scripts of assignments, read by a shell

A script that gives variables their values is there to be evaluated. Before a POSIX
shell does anything else with it, it takes it apart by its quoting rules: blanks
part words, a newline outside quotes ends a command, single quotes make all that
stands between them literal, and a backslash the one character behind it. The
reader `Quoting.commands?` goes by these rules and refuses a script where another
character that means something stands outside quotes. For such a reader a script of
assignments is one export for each variable and nothing else, whatever the values
are (`assignments_read_back`). -/

namespace FirmwareBuild

namespace Quoting

inductive Token where
  | word (text : Text)
  | newline
  deriving DecidableEq, Repr

inductive Place where
  | bare
  /-- Behind a backslash outside quotes. -/
  | escaped
  | quoted
  | comment
  deriving DecidableEq, Repr

/-- The characters besides quotes, backslashes and blanks that mean something outside quotes: they
end or join commands, redirect, expand, or match names. -/
def isSpecial (c : Char) : Bool := "|&;<>()$\x60\"*?[]~\x7b\x7d!".toList.contains c

def finish (word? : Option Text) : List Token := (word?.map Token.word).toList

def lengthen (word? : Option Text) (c : Char) : Text := word?.getD [] ++ [c]

/-- The tokens of the rest of a script, in front of which a word may have begun. There are none if
the script ends in quotes, or if a special character stands outside them. -/
def tokens? : Place → Option Text → Text → Option (List Token)
  | .bare, word?, [] | .comment, word?, [] => some (finish word?)
  | .escaped, _, [] | .quoted, _, [] => none
  | .bare, word?, c :: rest =>
    if c = '\n' then (tokens? .bare none rest).map (finish word? ++ .newline :: ·)
    else if c = ' ' ∨ c = '\t' then (tokens? .bare none rest).map (finish word? ++ ·)
    else if c = '\'' then tokens? .quoted (some (word?.getD [])) rest
    else if c = '\\' then tokens? .escaped word? rest
    else if c = '#' ∧ word? = none then tokens? .comment none rest
    else if isSpecial c then none
    else tokens? .bare (some (lengthen word? c)) rest
  | .escaped, word?, c :: rest =>
    -- a line that ends in a backslash goes on with the next one
    if c = '\n' then tokens? .bare word? rest
    else tokens? .bare (some (lengthen word? c)) rest
  | .quoted, word?, c :: rest =>
    if c = '\'' then tokens? .bare word? rest
    else tokens? .quoted (some (lengthen word? c)) rest
  | .comment, word?, c :: rest =>
    if c = '\n' then (tokens? .bare none rest).map (finish word? ++ .newline :: ·)
    else tokens? .comment word? rest

def wordOf? : Token → Option Text
  | .word text => some text
  | .newline => none

/-- The commands that tokens make up: the words of each line that has any. -/
def commandsOf (tokens : List Token) : List (List Text) :=
  ((Text.split .newline tokens).map (·.filterMap wordOf?)).filter (!·.isEmpty)

def commands? (script : Text) : Option (List (List Text)) :=
  (tokens? .bare none script).map commandsOf

def exported? : List Text → Option (Text × Text)
  | [command, word] =>
    if command = "export".toList then
      (Text.splitFirst? '=' word).filter fun assigned => Posix.isName assigned.1
    else none
  | _ => none

def exportWords (assigned : Text × Text) : List Text :=
  ["export".toList, assigned.1 ++ '=' :: assigned.2]

/-- A character that stands for itself outside quotes, wherever it stands in a word. -/
def IsPlain (c : Char) : Prop :=
  c ≠ '\n' ∧ c ≠ ' ' ∧ c ≠ '\t' ∧ c ≠ '\'' ∧ c ≠ '\\' ∧ c ≠ '#' ∧ isSpecial c = false

instance (c : Char) : Decidable (IsPlain c) := inferInstanceAs (Decidable (_ ∧ _))

def ArePlain (text : Text) : Prop := ∀ c ∈ text, IsPlain c

-- named, since a search may find the instance that goes through all characters there are
instance (text : Text) : Decidable (ArePlain text) := List.decidableBAll IsPlain text

/-! ## Words -/

theorem tokens?_plain {c : Char} (h : IsPlain c) (word? : Option Text) (rest : Text) :
    tokens? .bare word? (c :: rest) = tokens? .bare (some (lengthen word? c)) rest := by
  obtain ⟨hline, hspace, htab, hquote, hback, hhash, hspecial⟩ := h
  simp [tokens?, hline, hspace, htab, hquote, hback, hhash, hspecial]

theorem tokens?_plains {text : Text} (h : ArePlain text) (word rest : Text) :
    tokens? .bare (some word) (text ++ rest) = tokens? .bare (some (word ++ text)) rest := by
  induction text generalizing word with
  | nil => rw [List.append_nil, List.nil_append]
  | cons c text ih =>
    have hc : IsPlain c := h c List.mem_cons_self
    have htext : ArePlain text := fun d hd => h d (List.mem_cons_of_mem _ hd)
    rw [List.cons_append, tokens?_plain hc, ih htext, lengthen, Option.getD_some,
      List.append_assoc, List.singleton_append]

theorem tokens?_begun {c : Char} {text : Text} (h : ArePlain (c :: text)) (rest : Text) :
    tokens? .bare none (c :: text ++ rest) = tokens? .bare (some (c :: text)) rest := by
  have hc : IsPlain c := h c List.mem_cons_self
  have htext : ArePlain text := fun d hd => h d (List.mem_cons_of_mem _ hd)
  rw [List.cons_append, tokens?_plain hc, tokens?_plains htext]
  rfl

/-- **Quoting keeps a value.** Up to the quote that closes it, every character is read as it stood;
the quote in a value is read from behind the backslash. -/
theorem tokens?_quote (value word rest : Text) :
    tokens? .bare (some word) (ShellKind.quote value ++ rest) =
      tokens? .bare (some (word ++ value)) rest := by
  have hopen : tokens? .bare (some word) (ShellKind.quote value ++ rest) =
      tokens? .quoted (some word) (Text.replace '\'' "'\\''".toList value ++ '\'' :: rest) := by
    simp [ShellKind.quote, tokens?]
  rw [hopen]
  clear hopen
  -- in quotes the word takes up the value one character at a time
  induction value generalizing word with
  | nil => simp [Text.replace, tokens?]
  | cons c value ih =>
    have hrest : word ++ c :: value = word ++ [c] ++ value := by simp
    rw [hrest, ← ih]
    by_cases hc : c = '\''
    · subst hc
      simp [Text.replace, tokens?, lengthen]
    · simp [Text.replace, tokens?, lengthen, hc]

theorem isPlain_of_inName {c : Char} (h : Posix.inName c = true) : IsPlain c := by
  -- the characters that mean something, and none of them is in a name
  have hnone : "\n \t'\\#|&;<>()$\x60\"*?[]~\x7b\x7d!".toList.all
      (fun d => !Posix.inName d) = true := by decide
  have hne : ∀ d ∈ "\n \t'\\#|&;<>()$\x60\"*?[]~\x7b\x7d!".toList, c ≠ d := by
    rintro d hd rfl
    have hc := List.all_eq_true.mp hnone c hd
    rw [h] at hc
    cases hc
  refine ⟨?_, ?_, ?_, ?_, ?_, ?_, ?_⟩
  case refine_7 =>
    rw [isSpecial, ← Bool.not_eq_true, List.contains_iff_mem]
    intro hmem
    exact hne c (List.mem_append_right "\n \t'\\#".toList hmem) rfl
  all_goals exact hne _ (by decide)

theorem inName_of_isName {name : Text} (h : Posix.isName name = true) :
    ∀ c ∈ name, Posix.inName c = true := by
  cases name with
  | nil => cases h
  | cons c rest =>
    obtain ⟨hstart, hrest⟩ : Posix.startsName c = true ∧ rest.all Posix.inName = true := by
      simpa [Posix.isName] using h
    intro d hd
    rcases List.mem_cons.mp hd with rfl | hd
    · simp only [Posix.startsName, Bool.or_eq_true] at hstart
      simp only [Posix.inName, Char.isAlphanum, Bool.or_eq_true]
      exact hstart.imp_left .inl
    · exact List.all_eq_true.mp hrest d hd

/-! ## Lines -/

def exportTokens (assigned : Text × Text) : List Token :=
  (exportWords assigned).map .word ++ [.newline]

theorem tokens?_assignment {shell : ShellKind} (hshell : shell ≠ .cmd) {name : Text}
    (hname : Posix.isName name = true) (value rest : Text) :
    tokens? .bare none (shell.assignment name value ++ '\n' :: rest) =
      (tokens? .bare none rest).map (exportTokens (name, value) ++ ·) := by
  have hassignment : shell.assignment name value =
      "export".toList ++ ' ' :: (name ++ '=' :: ShellKind.quote value) := by
    cases shell with
    | cmd => exact absurd rfl hshell
    | _ => rfl
  have hplain : ArePlain name := fun c hc => isPlain_of_inName (inName_of_isName hname c hc)
  have hexport (rest : Text) : tokens? .bare none ("export".toList ++ rest) =
      tokens? .bare (some "export".toList) rest :=
    tokens?_begun (by decide) rest
  obtain ⟨c, text, rfl⟩ : ∃ c text, name = c :: text := by
    cases name with
    | nil => cases hname
    | cons c text => exact ⟨c, text, rfl⟩
  have hblank (rest : Text) : tokens? .bare (some "export".toList) (' ' :: rest) =
      (tokens? .bare none rest).map ([.word "export".toList] ++ ·) := by
    simp [tokens?, finish]
  have hequals (rest : Text) : tokens? .bare (some (c :: text)) ('=' :: rest) =
      tokens? .bare (some (c :: text ++ ['='])) rest := by
    rw [tokens?_plain (by decide), lengthen, Option.getD_some]
  have hend (word : Text) : tokens? .bare (some word) ('\n' :: rest) =
      (tokens? .bare none rest).map ([.word word, .newline] ++ ·) := by
    simp [tokens?, finish]
  rw [hassignment]
  simp only [List.append_assoc, List.cons_append]
  rw [hexport, hblank, ← List.cons_append, tokens?_begun hplain, hequals, tokens?_quote, hend,
    Option.map_map]
  simp [exportTokens, exportWords, Function.comp_def]

theorem tokens?_comment {line : Text} (h : '\n' ∉ line) (rest : Text) :
    tokens? .bare none ('#' :: line ++ '\n' :: rest) =
      (tokens? .bare none rest).map (.newline :: ·) := by
  have hstart : tokens? .bare none ('#' :: line ++ '\n' :: rest) =
      tokens? .comment none (line ++ '\n' :: rest) := by
    simp [tokens?]
  rw [hstart]
  clear hstart
  induction line with
  | nil => simp [tokens?, finish]
  | cons c line ih =>
    obtain ⟨hc, hline⟩ : '\n' ≠ c ∧ '\n' ∉ line := by simpa using h
    rw [List.cons_append, tokens?, if_neg (Ne.symm hc), ih hline]

theorem commandsOf_newline (rest : List Token) :
    commandsOf (.newline :: rest) = commandsOf rest := by
  simp [commandsOf, Text.split_cons]

theorem commandsOf_exportTokens (assigned : Text × Text) (rest : List Token) :
    commandsOf (exportTokens assigned ++ rest) = exportWords assigned :: commandsOf rest := by
  have hsplit := Text.split_append_cons Token.newline ((exportWords assigned).map .word) rest
  have hline : Text.split .newline ((exportWords assigned).map Token.word) =
      [(exportWords assigned).map .word] := Text.split_of_not_mem (by simp)
  rw [hline] at hsplit
  have htokens : exportTokens assigned ++ rest =
      (exportWords assigned).map Token.word ++ .newline :: rest := by simp [exportTokens]
  rw [commandsOf, htokens, hsplit]
  simp [commandsOf, exportWords, wordOf?]

theorem exported?_exportWords {assigned : Text × Text} (h : Posix.isName assigned.1 = true) :
    exported? (exportWords assigned) = some assigned := by
  have hequals : '=' ∉ assigned.1 := by
    intro hmem
    have hin := inName_of_isName h _ hmem
    revert hin
    decide
  have hsplit := Text.splitFirst?_append hequals assigned.2
  simp [exported?, exportWords, hsplit, h]

end Quoting

namespace ShellKind

/-! ## Whole scripts -/

/-- A script that gives variables their values, a line for each. -/
def script (shell : ShellKind) (vars : List (Text × Text)) : Text :=
  vars.flatMap fun assigned => shell.assignment assigned.1 assigned.2 ++ ['\n']

theorem tokens?_script {shell : ShellKind} (hshell : shell ≠ .cmd) {vars : List (Text × Text)}
    (h : ∀ assigned ∈ vars, Posix.isName assigned.1 = true) :
    Quoting.tokens? .bare none (shell.script vars) =
      some (vars.flatMap Quoting.exportTokens) := by
  induction vars with
  | nil => rfl
  | cons assigned rest ih =>
    have hname := h assigned List.mem_cons_self
    have hrest := ih fun other ho => h other (List.mem_cons_of_mem _ ho)
    have hline := Quoting.tokens?_assignment hshell hname assigned.2 (shell.script rest)
    rw [hrest] at hline
    simpa [script] using hline

theorem commandsOf_script (vars : List (Text × Text)) :
    Quoting.commandsOf (vars.flatMap Quoting.exportTokens) = vars.map Quoting.exportWords := by
  induction vars with
  | nil => rfl
  | cons assigned rest ih =>
    rw [List.flatMap_cons, Quoting.commandsOf_exportTokens, ih, List.map_cons]

theorem mapM_exported? {vars : List (Text × Text)}
    (h : ∀ assigned ∈ vars, Posix.isName assigned.1 = true) :
    (vars.map Quoting.exportWords).mapM Quoting.exported? = some vars := by
  induction vars with
  | nil => rfl
  | cons assigned rest ih =>
    have hfirst := Quoting.exported?_exportWords (h assigned List.mem_cons_self)
    have hrest := ih fun other ho => h other (List.mem_cons_of_mem _ ho)
    rw [List.map_cons, List.mapM_cons, hfirst, hrest]
    rfl

/-! ## Batch files -/

/-- A line with one percent sign for each two, if none stands alone. -/
def undouble? : Text → Option Text
  | [] => some []
  | [c] => if c = '%' then none else some [c]
  | c :: d :: rest =>
    if c ≠ '%' then (undouble? (d :: rest)).map (c :: ·)
    else if d = '%' then (undouble? rest).map ('%' :: ·)
    else none

theorem undouble?_cons {c : Char} (h : c ≠ '%') (rest : Text) :
    undouble? (c :: rest) = (undouble? rest).map (c :: ·) := by
  cases rest with
  | nil => simp [undouble?, h]
  | cons d rest => rw [undouble?, if_pos h]

theorem undouble?_plain {text : Text} (h : '%' ∉ text) (rest : Text) :
    undouble? (text ++ rest) = (undouble? rest).map (text ++ ·) := by
  induction text with
  | nil => simp
  | cons c text ih =>
    obtain ⟨hc, htext⟩ : '%' ≠ c ∧ '%' ∉ text := by simpa using h
    rw [List.cons_append, undouble?_cons (Ne.symm hc), ih htext, Option.map_map]
    rfl

theorem undouble?_replace (value rest : Text) :
    undouble? (Text.replace '%' "%%".toList value ++ rest) =
      (undouble? rest).map (value ++ ·) := by
  induction value with
  | nil => simp [Text.replace]
  | cons c value ih =>
    by_cases hc : c = '%'
    · subst hc
      have hdoubled : undouble? (Text.replace '%' "%%".toList ('%' :: value) ++ rest) =
          (undouble? (Text.replace '%' "%%".toList value ++ rest)).map ('%' :: ·) := by
        simp [Text.replace, undouble?]
      rw [hdoubled, ih, Option.map_map]
      rfl
    · have hkept : Text.replace '%' "%%".toList (c :: value) =
          c :: Text.replace '%' "%%".toList value := by
        simp [Text.replace, hc]
      rw [hkept, List.cons_append, undouble?_cons hc, ih, Option.map_map]
      rfl

theorem assignment_cmd (name value : Text) : assignment .cmd name value =
    ("set \"".toList ++ name ++ ['=']) ++ (Text.replace '%' "%%".toList value ++ ['"']) := by
  have hline : assignment .cmd name value = "set \"".toList ++ name ++
      ('=' :: Text.replace '%' "%%".toList value) ++ ['"'] := rfl
  rw [hline]
  generalize "set \"".toList = front
  generalize Text.replace '%' _ value = back
  simp

theorem undouble?_assignment {name : Text} (h : Posix.isName name = true) (value : Text) :
    undouble? (assignment .cmd name value) =
      some ("set \"".toList ++ name ++ '=' :: value ++ ['"']) := by
  have hin : '%' ∉ name := by
    intro hn
    have hname := Quoting.inName_of_isName h _ hn
    revert hname
    decide
  have hfront : '%' ∉ "set \"".toList ++ name ++ ['='] := by
    rw [List.mem_append, List.mem_append, not_or, not_or]
    exact ⟨⟨by decide, hin⟩, by decide⟩
  have hquote : undouble? ['"'] = some ['"'] := by decide
  rw [assignment_cmd, undouble?_plain hfront, undouble?_replace, hquote, Option.map_some,
    Option.map_some]
  simp only [List.append_assoc, List.cons_append, List.nil_append]

/-- **A script of assignments is read as these assignments.** A POSIX shell takes it apart into one
export for each variable, in their order, with the value that the variable was to have, and there
is no other word in it; each line of a batch file holds the name and the value with every percent
sign doubled. -/
theorem assignments_read_back {vars : List (Text × Text)}
    (h : ∀ assigned ∈ vars, Posix.isName assigned.1 = true) :
    (∀ shell, shell ≠ .cmd →
      Quoting.commands? (script shell vars) = some (vars.map Quoting.exportWords)) ∧
    (vars.map Quoting.exportWords).mapM Quoting.exported? = some vars ∧
    ∀ assigned ∈ vars, undouble? (assignment .cmd assigned.1 assigned.2) =
      some ("set \"".toList ++ assigned.1 ++ '=' :: assigned.2 ++ ['"']) := by
  refine ⟨fun shell hshell => ?_, mapM_exported? h, fun assigned ha =>
    undouble?_assignment (h assigned ha) assigned.2⟩
  rw [Quoting.commands?, tokens?_script hshell h, Option.map_some, commandsOf_script]

/-- Values that end quotes, end lines, and hold what a shell would expand. -/
def hostileVars : List (Text × Text) :=
  [("QUOTES".toList, "'; rm -rf ~ #'".toList), ("_2".toList, "\n$HOME \x60id\x60 \\\n".toList),
    ("NOTHING".toList, []), ("PERCENT".toList, "100%%x%\"".toList)]

theorem hostileVars_read_back :
    (∀ assigned ∈ hostileVars, Posix.isName assigned.1 = true) ∧
    (∀ shell, shell ≠ .cmd → Quoting.commands? (script shell hostileVars) =
      some (hostileVars.map Quoting.exportWords)) ∧
    (hostileVars.map Quoting.exportWords).mapM Quoting.exported? = some hostileVars ∧
    ∀ assigned ∈ hostileVars, undouble? (assignment .cmd assigned.1 assigned.2) =
      some ("set \"".toList ++ assigned.1 ++ '=' :: assigned.2 ++ ['"']) :=
  have hnames : ∀ assigned ∈ hostileVars, Posix.isName assigned.1 = true := by decide +kernel
  ⟨hnames, assignments_read_back hnames⟩

end ShellKind

end FirmwareBuild
