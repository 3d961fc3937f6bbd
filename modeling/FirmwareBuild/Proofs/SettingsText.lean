import FirmwareBuild.Proofs.RunFrame
import FirmwareBuild.Proofs.StraySettings
import FirmwareBuild.Proofs.Utf8

/-! # Settings as they are written

A document that gives texts to some of the settings, each below the header of its
table, is loaded as these texts with the defaults for all else, however its lines
write them (`load_reads_settings`). One key that is none of the settings, or a setting
that is given something else than a text, spoils the document whatever follows. -/

namespace FirmwareBuild.Settings

open Toml

variable {items : List Item}

/-! ## Texts with a stray key -/

/-- A text that starts with a key that is none of the settings, or with a setting that is given
something else than a text. Nothing is known of what follows. -/
inductive StartsStray (place : Option Table) : Text → Prop
  | key {path : List Text} {k : Text} (key : WritesKey path k)
      (unknown : IsUnknown (under place path)) (rest : Text) : StartsStray place (k ++ '=' :: rest)
  | value {path : List Text} {k between rest : Text} {x : Setting} (key : WritesKey path k)
      (known : under place path = [x.table.name, x.name]) (spaces : IsSpaces between)
      (noText : ∀ c ∈ rest.head?, c ∉ [' ', '\t', '"', '\'']) :
    StartsStray place (k ++ '=' :: (between ++ rest))
  | header {path : List Text} {before k : Text} {isElement : Bool} (spaces : IsSpaces before)
      (key : WritesKey path k) (unknown : ∀ t : Table, path ≠ [t.name]) (rest : Text) :
    StartsStray place
      (before ++ (brackets isElement '[' ++ (k ++ (brackets isElement ']' ++ rest))))

theorem StartsStray.head?_ne {place : Option Table} {s : Text} (h : StartsStray place s) :
    s.head? ≠ some '\uFEFF' := by
  cases h with
  | key key unknown rest => exact key.head?_ne (by decide) (by decide) _
  | value key known spaces noText => exact key.head?_ne (by decide) (by decide) _
  | @header path before k isElement spaces key unknown rest =>
    refine spaces.head?_ne (by decide) ?_
    cases isElement <;> simp [brackets]

theorem StartsStray.saysStray {place : Option Table} {s : Text} (h : StartsStray place s)
    {steps : Nat} {said : List Statement} (hsaid : statements? steps s = some said) :
    SaysStray place said := by
  cases h with
  | key key unknown rest =>
    obtain ⟨value, more, rfl, -⟩ := said_pair key hsaid
    exact .pair (.inl unknown) more
  | @value path k between rest x key known spaces noText =>
    obtain ⟨value, more, rfl, hvalue⟩ := said_pair key hsaid
    have hskip : skipSpace (between ++ rest) = rest := by
      refine skipSpace_append spaces fun c hc => ?_
      have hc := noText c hc
      simp only [List.mem_cons, List.not_mem_nil, or_false, not_or] at hc
      simp [isSpace, hc]
    have hnone : textOf? value = none := by
      have hvalue := hvalue fun c hc => by
        rw [hskip] at hc
        have hc := noText c hc
        simp only [List.mem_cons, List.not_mem_nil, or_false, not_or] at hc
        exact hc.2.2
      cases value with
      | string text => exact absurd rfl (hvalue text)
      | _ => rfl
    exact .pair (.inr ⟨x, known, hnone⟩) more
  | header spaces key unknown rest =>
    obtain ⟨more, rfl⟩ := said_header spaces key hsaid
    exact .header unknown _ more

theorem read?_of_stray (h : Arranged items) {mark body rest : Text} (hmark : IsMark mark)
    (hbody : WritesLines (items.map Item.line) body) (hrest : StartsStray (current items) rest) :
    read? (mark ++ (body ++ rest)) = none := by
  obtain ⟨steps, -, hread⟩ := read?_lines hmark hbody hrest.head?_ne
  refine Option.eq_none_iff_forall_ne_some.mpr fun settings hsettings => ?_
  obtain ⟨entries, hentries, hsettings⟩ := Option.bind_eq_some_iff.mp hsettings
  rw [hread] at hentries
  obtain ⟨said, hsaid, hentries⟩ := Option.bind_eq_some_iff.mp hentries
  rw [← statementsOf, h.assemble?] at hentries
  rw [ofEntries?_of_unfit (unfit_of_said h (hrest.saysStray hsaid) hentries)] at hsettings
  cases hsettings

/-! ## Files -/

theorem isSpaces_nil : IsSpaces [] := by simp [IsSpaces]

theorem isTail_nil : IsTail [] := ⟨[], [], rfl, isSpaces_nil, .inl rfl⟩

def filePath (root : Bytes) : Bytes := Pathname.join root (Utf8.encode fileName)

theorem pathExists_of_read {disk : Disk} {path data : Bytes} (h : disk.read path = .ok data) :
    disk.pathExists path = true := by
  rw [Disk.read] at h
  split at h
  · rename_i node hlookup
    simp [Disk.pathExists, Disk.node?, hlookup]
  · cases h

theorem load_of_text {root : Bytes} {s : Session} {text : Text}
    (hfile : s.disk.read (filePath root) = .ok (Utf8.encode text)) :
    load root s = match read? text with
      | some settings => .ok settings s
      | none => .error (.settings (filePath root)) s := by
  have hexists := pathExists_of_read hfile
  have hread := Disk.readText_of_read hfile
  rw [filePath] at hexists hread
  rw [load, Run.get_bind, hexists, if_pos rfl, hread]
  dsimp only
  cases read? text <;> rfl

/-- **A settings file is loaded as the texts that it gives to settings**, with the defaults for all
others, however its lines write them. Without a file, or with an empty one, all settings have their
defaults. A file with one key that is none of the settings, or a setting that is given something
else than a text, is an error, whatever follows. -/
theorem load_reads_settings {root : Bytes} {s : Session} :
    (s.disk.pathExists (filePath root) = false → load root s = .ok {} s) ∧
    (s.disk.read (filePath root) = .ok [] → load root s = .ok {} s) ∧
    (∀ text items a, s.disk.read (filePath root) = .ok (Utf8.encode text) →
      IsDocument (items.map Item.line) text → Arranged items → Gives a items →
      load root s = .ok (given a) s) ∧
    (∀ mark body rest items,
      s.disk.read (filePath root) = .ok (Utf8.encode (mark ++ (body ++ rest))) → IsMark mark →
      WritesLines (items.map Item.line) body → Arranged items → StartsStray (current items) rest →
      load root s = .error (.settings (filePath root)) s) := by
  have hlines : ∀ text items a, s.disk.read (filePath root) = .ok (Utf8.encode text) →
      IsDocument (items.map Item.line) text → Arranged items → Gives a items →
      load root s = .ok (given a) s := by
    intro text items a hfile htext h ha
    rw [load_of_text hfile, read?_of_isDocument h ha htext]
  refine ⟨fun hmissing => ?_, fun hempty => ?_, hlines, ?_⟩
  · rw [filePath] at hmissing
    rw [load, Run.get_bind, hmissing]
    rfl
  · have htext : IsDocument ([Item.blank].map Item.line) [] :=
      .intro (.inl rfl) .nil (.blank isTail_nil)
    exact hlines [] [.blank] (fun _ => none) hempty htext (.blank .nil) (by simp [Gives])
  · intro mark body rest items hfile hmark hbody h hrest
    rw [load_of_text hfile, read?_of_stray h hmark hbody hrest]

/-- A place on Windows, written with escapes below the header of its table, and another table that
is empty. -/
def escapedText : Text := "[tools]\nnasm_prefix = \"D:\\\\\\u00e9\"\r\n[build]".toList

def escapedItems : List Item :=
  [.header .tools, .pair .nasmPrefix "D:\\é".toList, .header .build]

def holding (text : Text) : Session where
  disk :=
    { nodes := #[.directory 0 [(Utf8.encode fileName, 1)], .file (Utf8.encode text) plainMode]
      cwd := 0 }

def escapedTexts : Setting → Option Text
  | .nasmPrefix => some "D:\\é".toList
  | _ => none

/-- A key without quotes. -/
theorem writesKey_bare (name : Text) {after : Text}
    (hname : name ≠ [] ∧ name.all isBare = true) (hafter : IsSpaces after) :
    WritesKey [name] ([] ++ (name ++ after)) :=
  .last (.bare hname.1 (List.all_eq_true.mp hname.2)) ⟨isSpaces_nil, hafter⟩

theorem isLine_tools : IsLine (Item.header .tools).line "[tools]".toList :=
  .header (writesKey_bare "tools".toList (by decide) isSpaces_nil) isSpaces_nil isTail_nil

theorem isDocument_escaped : IsDocument (escapedItems.map Item.line) escapedText := by
  have hspace : IsSpaces [' '] := by simp [IsSpaces]
  have hcode := Text.hexadecimal_of_digits [('0', 0), ('0', 0), ('e', 14), ('9', 9)] (by decide)
  have hplace : WritesBasic "D:\\é".toList ['D', ':', '\\', '\\', '\\', 'u', '0', '0', 'e', '9'] :=
    .plain (.plain (.short (.four .nil hcode) (by decide)) (.inr (by decide)) (by decide)
      (by decide)) (.inr (by decide)) (by decide) (by decide)
  have hbuild := IsLine.header (writesKey_bare "build".toList (by decide) isSpaces_nil)
    isSpaces_nil isTail_nil
  have hpair := IsLine.pair (writesKey_bare "nasm_prefix".toList (by decide) hspace) hplace
    hspace isTail_nil
  exact IsDocument.intro (.inl rfl)
    (.cons isLine_tools (.inl rfl) (.cons hpair (.inr rfl) .nil)) hbuild

def strayText : Text := "foo = 1".toList

theorem startsStray_foo : StartsStray (some .tools) strayText := by
  have hspace : IsSpaces [' '] := by simp [IsSpaces]
  have hunknown : IsUnknown (under (some .tools) ["foo".toList]) := by
    constructor
    · intro t
      simp [under]
    · intro x
      cases x <;> decide
  exact .key (writesKey_bare "foo".toList (by decide) hspace) hunknown " 1".toList

theorem load_reads_windows :
    (holding escapedText).disk.read (filePath [Pathname.slash]) = .ok (Utf8.encode escapedText) ∧
    IsDocument (escapedItems.map Item.line) escapedText ∧ Arranged escapedItems ∧
    Gives escapedTexts escapedItems ∧
    load [Pathname.slash] (holding escapedText) =
      .ok { tools := { nasmPrefix := "D:\\é".toList } } (holding escapedText) ∧
    (holding ("[tools]\n".toList ++ strayText)).disk.read (filePath [Pathname.slash]) =
      .ok (Utf8.encode ("[tools]\n".toList ++ strayText)) ∧
    load [Pathname.slash] (holding ("[tools]\n".toList ++ strayText)) =
      .error (.settings (filePath [Pathname.slash]))
        (holding ("[tools]\n".toList ++ strayText)) := by
  have hread {text : Text} (h : ((holding text).disk.read (filePath [Pathname.slash])).toOption =
      some (Utf8.encode text)) : (holding text).disk.read (filePath [Pathname.slash]) =
        .ok (Utf8.encode text) := by
    cases hdata : (holding text).disk.read (filePath [Pathname.slash]) with
    | error cause =>
      rw [hdata] at h
      cases h
    | ok data =>
      rw [hdata] at h
      rw [Option.some.inj h]
  have hfile := @hread escapedText (by decide +kernel)
  have hstrayFile := @hread ("[tools]\n".toList ++ strayText) (by decide +kernel)
  have htools := Arranged.header (t := .tools) .nil (by decide)
  have hpair := Arranged.pair (x := .nasmPrefix) htools rfl (by simp) "D:\\é".toList
  have harranged : Arranged escapedItems := Arranged.header (t := .build) hpair (by decide)
  have hgives : Gives escapedTexts escapedItems := by
    intro x text
    cases x <;> simp [escapedTexts, escapedItems, eq_comm]
  have hlines : WritesLines ([Item.header .tools].map Item.line) "[tools]\n".toList :=
    .cons isLine_tools (.inl rfl) .nil
  obtain ⟨-, -, hloads, -⟩ := @load_reads_settings [Pathname.slash] (holding escapedText)
  obtain ⟨-, -, -, hrefuses⟩ :=
    @load_reads_settings [Pathname.slash] (holding ("[tools]\n".toList ++ strayText))
  exact ⟨hfile, isDocument_escaped, harranged, hgives,
    hloads _ _ _ hfile isDocument_escaped harranged hgives, hstrayFile,
    hrefuses [] "[tools]\n".toList strayText [.header .tools] hstrayFile (.inl rfl) hlines htools
      startsStray_foo⟩

end FirmwareBuild.Settings
