import FirmwareBuild.Posix.Program.Source

/-! # Parts of lines

A program that prints octets or fields of each line, by their numbers. -/

namespace FirmwareBuild.Posix.Program

open Tool

/-- Numbers from one to another, or without an end. -/
structure Range where
  first : Nat
  last : Option Nat
  deriving DecidableEq, Repr

/-- How far a list of ranges is read: the number in front of a hyphen, and the digits since then or
since the latest comma. -/
structure RangeState where
  first : Option (Option Nat) := none
  digits : Text := []

inductive Counted where
  | octets
  | fields
  deriving DecidableEq, Repr

namespace Counted

def fromOne : Counted → Text
  | octets => "byte/character positions are numbered from 1".toList
  | fields => "fields are numbered from 1".toList

def noRange : Counted → Text
  | octets => "invalid byte or character range".toList
  | fields => "invalid field range".toList

def noNumber (text : Text) : Counted → Text
  | octets => "invalid byte/character position ".toList ++ Quoted.escaped text
  | fields => "invalid field value ".toList ++ Quoted.escaped text

def tooLarge (text : Text) : Counted → Text
  | octets => "byte/character offset ".toList ++ Quoted.escaped text ++ " is too large".toList
  | fields => "field number ".toList ++ Quoted.escaped text ++ " is too large".toList

end Counted

/-- The range that ends where a comma or the end of the list stands. -/
def RangeState.finish (state : RangeState) (counted : Counted) : Except Text Range :=
  let value? := Numeral.ofDigits? 10 state.digits
  match state.first, value? with
  | some none, none => .error "invalid range with no endpoint: -".toList
  | some first, none => .ok { first := first.getD 1, last := none }
  | some first, some last =>
    if last < first.getD 1 then .error "invalid decreasing range".toList
    else .ok { first := first.getD 1, last := some last }
  | none, some n => if n = 0 then .error counted.fromOne else .ok { first := n, last := some n }
  | none, none => .error counted.fromOne

/-- Reads a list of ranges such as `1,3-5`. -/
def readRanges (counted : Counted) : Text → RangeState → Except Text (List Range)
  | [], state => (state.finish counted).map fun range => [range]
  | c :: rest, state =>
    if c = '-' then
      if state.first.isSome then .error counted.noRange
      else match Numeral.ofDigits? 10 state.digits with
        | some 0 => .error counted.fromOne
        | first => readRanges counted rest { first := some first }
    else if c = ',' || c = ' ' || c = '\t' then do
      let range ← state.finish counted
      return range :: (← readRanges counted rest {})
    else if c.isDigit then
      let digits := state.digits ++ [c]
      if Numeral.wordSize - 1 ≤ (Numeral.ofDigits? 10 digits).getD 0 then
        .error (counted.tooLarge (digits ++ rest.takeWhile Char.isDigit))
      else readRanges counted rest { state with digits }
    else .error (counted.noNumber (c :: rest))

namespace Range

/-- Ranges in order, where those that overlap are one. -/
def unite (ranges : List Range) : List Range :=
  (ranges.mergeSort fun a b => decide (a.first ≤ b.first)).foldr (fun range others =>
    match others with
    | next :: more =>
      match range.last with
      | none => [range]
      | some last =>
        if next.first ≤ last then
          { range with last := next.last.map (max last) } :: more
        else range :: next :: more
    | [] => [range]) []

/-- The ranges of all numbers from one on that are in none of some ranges in order. -/
def complement : (next : Nat) → List Range → List Range
  | next, [] => [{ first := next, last := none }]
  | next, range :: rest =>
    (if next < range.first then [{ first := next, last := some (range.first - 1) }] else []) ++
      match range.last with
      | some last => complement (last + 1) rest
      | none => []

def select {α : Type} (range : Range) (items : List α) : List α :=
  let rest := items.drop (range.first - 1)
  (range.last.map fun last => rest.take (last + 1 - range.first)).getD rest

end Range

def cut : Program := do
  let table := OptionTable.of "b:c:d:f:nsz" [("bytes=", "b"), ("characters=", "c"),
    ("fields=", "f"), ("delimiter=", "d"), ("only-delimited", "s"), ("output-delimiter=", "output"),
    ("complement", "complement"), ("zero-terminated", "z")]
  let isList (key : Text) : Bool := [['b'], ['c'], ['f']].contains key
  let given ← givenChecked 1 table fun before key value => do
    if isList key && before.any fun entry => isList entry.1 then
      misuse 1 "only one list may be specified".toList
    if key = ['d'] && value.length > 1 then
      misuse 1 "the delimiter must be a single character".toList
  let lists := given.options.filter fun entry => isList entry.1
  let some (key, list) := lists.head?
    | misuse 1 "you must specify a list of bytes, characters, or fields".toList
  let counted : Counted := if key = ['f'] then .fields else .octets
  if counted = .octets && given.has "d" then
    misuse 1 "an input delimiter may be specified only when operating on fields".toList
  if counted = .octets && given.has "s" then
    misuse 1 "suppressing non-delimited lines makes sense\n\tonly when operating on fields".toList
  let ranges ← match readRanges counted list {} with
    | .ok ranges => pure (Range.unite ranges)
    | .error mistake => misuse 1 mistake
  let ranges := if given.has "complement" then Range.complement 1 ranges else ranges
  let output? := (given.value? "output").map fun text => if text.isEmpty then ['\x00'] else text
  let delimiter := match given.value? "d" with
    | none => '\t'
    | some text => text.headD '\x00'
  let change (line : Text) : Option Text :=
    match counted with
    | .octets =>
      let parts := (ranges.map fun range => range.select line).filter (!·.isEmpty)
      some (Text.join (output?.getD []) parts)
    | .fields =>
      let fields := Text.split delimiter line
      if fields.length = 1 then if given.has "s" then none else some line
      else some (Text.join (output?.getD [delimiter])
        (ranges.flatMap fun range => range.select fields))
  for path in sources given.words do
    match ← contentOf path with
    | .ok text => say (ofLines given.ending ((linesOf given.ending text).filterMap change))
    | .error cause => failToRead 1 cause path
  closeInput "-" (sources given.words)

end FirmwareBuild.Posix.Program
