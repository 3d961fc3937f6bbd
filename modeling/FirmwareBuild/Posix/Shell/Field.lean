import FirmwareBuild.Disk
import FirmwareBuild.Posix.Pattern
import FirmwareBuild.Posix.Shell.Script

/-! # Fields

What a word is expanded to, before it is cut into fields. Characters that came out
of an expansion may separate fields, characters that were quoted mean nothing any
more, and something quoted makes a field even where it is empty. A field that is a
pattern stands for the files whose names match it. -/

namespace FirmwareBuild.Posix

inductive Piece where
  | written (text : Text)
  /-- Characters that were quoted, perhaps none. -/
  | quoted (text : Text)
  /-- Texts that came out of an expansion, to be kept apart. Separators in them count. -/
  | expanded (texts : List Text)
  /-- Texts that came out of a quoted expansion, to be kept apart. -/
  | each (texts : List Text)
  deriving DecidableEq, Repr

namespace Piece

def text : Piece → Text
  | written text | quoted text => text
  | expanded texts | each texts => Text.join [' '] texts

def pattern : Piece → List PatternChar
  | written text => text.map (·, false)
  | quoted text => text.map (·, true)
  | expanded texts => (Text.join [' '] texts).map (·, false)
  | each texts => (Text.join [' '] texts).map (·, true)

end Piece

def textOfPieces (pieces : List Piece) : Text := pieces.flatMap Piece.text

def patternOfPieces (pieces : List Piece) : List PatternChar := pieces.flatMap Piece.pattern

def isFieldBlank (c : Char) : Bool := c == ' ' || c == '\t' || c == '\n'

/-- A field that is being put together, the last character first, and the fields before it, the
last one first. -/
structure Cutting where
  separators : Text
  done : List (List PatternChar) := []
  current : List PatternChar := []
  present : Bool := false
  /-- Blanks have just ended a field, so that one more separator goes with them. -/
  afterBlanks : Bool := false
  afterEach : Bool := false
  /-- The number of fields that may still be ended. The last one takes what is left. -/
  limit : Option Nat := none
  /-- The length of the last field without the separators at its end. -/
  kept : Option Nat := none

namespace Cutting

def push (cutting : Cutting) (c : PatternChar) : Cutting :=
  { cutting with current := c :: cutting.current, present := true }

def close (cutting : Cutting) : Cutting :=
  { cutting with done := cutting.current.reverse :: cutting.done, current := [], present := false }

def separate (cutting : Cutting) (c : Char) : Cutting :=
  match cutting.limit with
  | none => cutting.close
  | some (n + 2) => { cutting.close with limit := some (n + 1) }
  | some _ => { cutting with limit := some 0, kept := some cutting.current.length }.push (c, false)

/-- With one more character in the field that takes what is left. -/
def addRest (cutting : Cutting) (c : Char) (isSeparator isBlank : Bool) : Cutting :=
  if isBlank then
    { cutting with kept := cutting.kept.or (some cutting.current.length) }.push (c, false)
  else
    { cutting with
      kept := if isSeparator && cutting.afterBlanks then cutting.kept else none
      afterBlanks := false }.push (c, false)

/-- With one more character of an expansion, or the border between two of its texts. Behind quoted
texts, blanks separate fields like other separators. -/
def addExpanded (afterEach : Bool) (cutting : Cutting) (c : Option Char) : Cutting :=
  let isSeparator := c.all cutting.separators.contains
  let isBlank := isSeparator && c.all isFieldBlank
  let c := c.getD ' '
  if cutting.limit = some 0 then cutting.addRest c isSeparator isBlank
  else if cutting.afterBlanks then
    if isBlank then cutting
    else if isSeparator then { cutting with afterBlanks := false }
    else { cutting with afterBlanks := false }.push (c, false)
  else if isSeparator then
    let blanks := isBlank && !afterEach
    if blanks && !cutting.present then cutting
    else { cutting with afterBlanks := blanks }.separate c
  else cutting.push (c, false)

def add (cutting : Cutting) : Piece → Cutting
  | .written text => text.foldl (fun cutting c => cutting.push (c, false)) cutting
  | .quoted text =>
    text.foldl (fun cutting c => cutting.push (c, true)) { cutting with present := true }
  | .expanded texts =>
    (Text.join [none] (texts.map fun text => text.map some)).foldl (addExpanded cutting.afterEach)
      { cutting with afterBlanks := false, afterEach := false }
  | .each texts =>
    (Text.join [none] (texts.map fun text => text.map some)).foldl (fun cutting c =>
      match c with
      | some c => cutting.push (c, true)
      | none => cutting.close) { cutting with afterBlanks := false, afterEach := true }

def fields (cutting : Cutting) : List (List PatternChar) :=
  let last := cutting.current.reverse
  let cutting := match cutting.kept with
    | some length =>
      { cutting with current := (last.take length).reverse, present := length != 0 }
    | none => cutting
  (if cutting.present || cutting.afterEach then cutting.close else cutting).done.reverse

end Cutting

def fieldsOf (separators : Text) (pieces : List Piece) : List (List PatternChar) :=
  (pieces.foldl Cutting.add { separators }).fields

def fieldText (field : List PatternChar) : Text := field.map Prod.fst

/-- The fields that a text is read into, at most so many. Each part of the text may have been
protected by a backslash. -/
def textFields (separators : Text) (limit : Nat) (pieces : List Piece) : List Text :=
  ((pieces.foldl Cutting.add { separators, limit := some limit }).fields).map fieldText

def partsOf : List PatternChar → List (List PatternChar)
  | [] => [[]]
  | ('\\', false) :: ('/', _) :: rest => [] :: partsOf rest
  | ('\\', false) :: c :: rest =>
    match partsOf rest with
    | part :: parts => (('\\', false) :: c :: part) :: parts
    | [] => [[('\\', false), c]]
  | ('/', _) :: rest => [] :: partsOf rest
  | c :: rest =>
    match partsOf rest with
    | part :: parts => (c :: part) :: parts
    | [] => [[c]]

def pathsFrom (disk : Disk) (base : Text) : List (List PatternChar) → List Text
  | [] => [base]
  | part :: rest =>
    let slash := if rest.isEmpty then [] else ['/']
    if isPattern part then
      let names := match disk.node? (toOctets (if base.isEmpty then ['.'] else base)) with
        | some (.directory _ entries) =>
          (Pathname.here :: Pathname.up :: entries.map Prod.fst).map ofOctets
        | _ => []
      let showsHidden := (protected? part).any fun (c, _) => c == '.'
      let shown := names.filter fun name =>
        (name.head? != some '.' || showsHidden) && matchPattern part name
      shown.flatMap fun name => pathsFrom disk (base ++ name ++ slash) rest
    else
      let path := base ++ plainText part ++ slash
      let isThere := (disk.lookupLink (toOctets path)).toOption.isSome
      if rest.isEmpty && !isThere then [] else pathsFrom disk path rest

def isPatternSign (c : PatternChar) : Bool := !c.2 && ['*', '?', '['].contains c.1

/-- A field, or the files that it stands for in order if it is a pattern and there are any. -/
def fileNames (disk : Disk) (field : List PatternChar) : List Text :=
  let parts := if field.any isPatternSign then partsOf field else []
  if !parts.any isPattern then [fieldText field]
  else
    let found := pathsFrom disk [] parts
    if found.isEmpty then [fieldText field] else found.mergeSort fun a b => !decide (b < a)

end FirmwareBuild.Posix
