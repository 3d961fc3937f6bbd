import FirmwareBuild.Proofs.JsonText
import FirmwareBuild.Proofs.RunFrame
import FirmwareBuild.Staging
import Mathlib.Data.List.Forall2

/-! # Manifests as they are written

A manifest is loaded as the files that its entries describe, in order, however the text
writes the array (`load_reads_manifest`). An entry that is malformed spoils the manifest
whatever stands beside it. -/

namespace FirmwareBuild

namespace Manifest

/-! ## Entries -/

def fieldNames : List Text := ["source".toList, "destination".toList]

/-- Among the members one has the name, and it has this text. -/
def HoldsOnce (name text : Text) (members : List (Option Text × Json)) : Prop :=
  ∃ front back, members = front ++ (some name, .string (some text)) :: back ∧
    ∀ member ∈ front ++ back, member.1 ≠ some name

inductive Describes : Json → CopyEntry → Prop
  | listed (source destination : Text) :
    Describes (.array [.string (some source), .string (some destination)]) ⟨source, destination⟩
  | named {members : List (Option Text × Json)} {entry : CopyEntry}
      (names : ∀ member ∈ members, ∃ name, member.1 = some name)
      (source : HoldsOnce "source".toList entry.source members)
      (destination : HoldsOnce "destination".toList entry.destination members) :
    Describes (.object members) entry

/-- An entry that names no files: a field is missing, stands twice or is no text, or a list is not
one of two texts. -/
inductive Malformed : Json → Prop
  | lacks {members : List (Option Text × Json)} {name : Text} (field : name ∈ fieldNames)
      (missing : ∀ member ∈ members, member.1 ≠ some name) : Malformed (.object members)
  | repeats {front between back : List (Option Text × Json)} {name : Text} {v w : Json}
      (field : name ∈ fieldNames) :
    Malformed (.object (front ++ (some name, v) :: (between ++ (some name, w) :: back)))
  | gives {members : List (Option Text × Json)} {name : Text} {v : Json}
      (field : name ∈ fieldNames) (given : (some name, v) ∈ members)
      (noText : ∀ text, v ≠ .string (some text)) : Malformed (.object members)
  | measures {items : List Json} (length : items.length ≠ 2) : Malformed (.array items)
  | lists {items : List Json} {v : Json} (item : v ∈ items)
      (noText : ∀ text, v ≠ .string (some text)) : Malformed (.array items)

variable {name text : Text} {members : List (Option Text × Json)} {v : Json} {entry : CopyEntry}

theorem HoldsOnce.filter_eq (h : HoldsOnce name text members) :
    members.filter (fun member => member.1 = some name) = [(some name, .string (some text))] := by
  obtain ⟨front, back, rfl, hothers⟩ := h
  have hfilter (part : List (Option Text × Json)) (h : ∀ member ∈ part, member.1 ≠ some name) :
      part.filter (fun member => member.1 = some name) = [] := by
    simpa using h
  simp only [List.forall_mem_append] at hothers
  simp [List.filter_append, hfilter _ hothers.1, hfilter _ hothers.2]

theorem field?_eq_some : field? name members = some text ↔ HoldsOnce name text members := by
  constructor
  · intro h
    rw [field?] at h
    split at h
    · rename_i held given hfilter
      subst h
      obtain ⟨front, back, hmembers, hfront, hheld, hback⟩ := List.filter_eq_cons_iff.mp hfilter
      obtain rfl : held = some name := by simpa using hheld
      refine ⟨front, back, hmembers, fun member hmem => ?_⟩
      rcases List.mem_append.mp hmem with hmem | hmem
      · simpa using hfront member hmem
      · simpa using List.filter_eq_nil_iff.mp hback member hmem
    · cases h
  · intro h
    rw [field?, h.filter_eq]

theorem entryOf?_eq_some : entryOf? v = some entry ↔ Describes v entry := by
  constructor
  · intro h
    rw [entryOf?.eq_def] at h
    split at h
    · obtain rfl := Option.some.inj h
      exact .listed _ _
    · split at h
      · rename_i members hnames
        simp only [Option.bind_eq_bind, Option.bind_eq_some_iff, field?_eq_some] at h
        obtain ⟨source, hsource, destination, hdestination, h⟩ := h
        obtain rfl := Option.some.inj h
        refine .named (fun member hmem => ?_) hsource hdestination
        exact Option.isSome_iff_exists.mp (List.all_eq_true.mp hnames member hmem)
      · cases h
    · cases h
  · intro h
    cases h with
    | listed source destination => rfl
    | named names source destination =>
      have hnames := List.all_eq_true.mpr fun member hmem =>
        Option.isSome_iff_exists.mpr (names member hmem)
      rw [entryOf?, if_pos hnames, field?_eq_some.mpr source, field?_eq_some.mpr destination]
      rfl

/-- A field of an entry is there once, as a text. -/
theorem Describes.holdsOnce (h : Describes (.object members) entry) (hfield : name ∈ fieldNames) :
    ∃ text, HoldsOnce name text members := by
  cases h with
  | named _ source destination =>
    simp only [fieldNames, List.mem_cons, List.not_mem_nil, or_false] at hfield
    rcases hfield with rfl | rfl
    · exact ⟨_, source⟩
    · exact ⟨_, destination⟩

theorem Malformed.not_describes (h : Malformed v) (entry : CopyEntry) : ¬ Describes v entry := by
  intro hentry
  cases h with
  | lacks field missing =>
    obtain ⟨text, front, back, rfl, -⟩ := hentry.holdsOnce field
    exact missing (_, _) (List.mem_append_right front List.mem_cons_self) rfl
  | repeats field =>
    obtain ⟨text, hholds⟩ := hentry.holdsOnce field
    have hfilter := congrArg List.length hholds.filter_eq
    simp [List.filter_append] at hfilter
    omega
  | gives field given noText =>
    obtain ⟨text, hholds⟩ := hentry.holdsOnce field
    have hmem := hholds.filter_eq ▸ List.mem_filter.mpr ⟨given, decide_eq_true rfl⟩
    obtain ⟨-, htext⟩ := Prod.mk.inj (List.mem_singleton.mp hmem)
    exact noText text htext
  | measures length =>
    cases hentry
    exact length rfl
  | lists item noText =>
    cases hentry
    simp only [List.mem_cons, List.not_mem_nil, or_false] at item
    rcases item with rfl | rfl
    · exact noText _ rfl
    · exact noText _ rfl

theorem Malformed.entryOf?_eq_none (h : Malformed v) : entryOf? v = none :=
  Option.eq_none_iff_forall_ne_some.mpr fun entry hentry =>
    h.not_describes entry (entryOf?_eq_some.mp hentry)

/-! ## Lists -/

theorem mapM_entryOf?_eq_some {items : List Json} {entries : Manifest} :
    items.mapM entryOf? = some entries ↔ List.Forall₂ Describes items entries := by
  induction items generalizing entries with
  | nil => simp [eq_comm]
  | cons item items ih =>
    simp only [List.mapM_cons, Option.bind_eq_bind, Option.bind_eq_some_iff, Option.pure_def,
      Option.some.injEq, entryOf?_eq_some, ih]
    constructor
    · rintro ⟨entry, hentry, rest, hrest, rfl⟩
      exact .cons hentry hrest
    · intro h
      cases h with
      | cons hentry hrest => exact ⟨_, hentry, _, hrest, rfl⟩

theorem read?_of_isDocument {items : List Json} (h : Json.IsDocument (.array items) text) :
    read? text = items.mapM entryOf? := by
  rw [read?, Json.read?_of_isDocument h]
  rfl

end Manifest

namespace Staging

open Manifest

/-- **A manifest is loaded as the list that it writes.** Whatever text writes the array, with any
escapes, white space and further fields, loading gives the files that its entries describe, in
order, and changes nothing; and one malformed entry is an error whatever the others are. -/
theorem load_reads_manifest {path : Bytes} {s : Session} {text : Text} {items : List Json}
    (hfile : s.disk.read path = .ok (Utf8.encode text))
    (htext : Json.IsDocument (.array items) text) :
    (∀ entries, load path s = .ok entries s ↔ List.Forall₂ Describes items entries) ∧
    ((∃ item ∈ items, Malformed item) → load path s = .error (.manifest path) s) := by
  have hload : load path s = match items.mapM entryOf? with
      | some entries => .ok entries s
      | none => .error (.manifest path) s := by
    rw [← read?_of_isDocument htext, load, Run.get_bind, Disk.readText_of_read hfile]
    dsimp only
    cases Manifest.read? text <;> rfl
  constructor
  · intro entries
    rw [hload, ← mapM_entryOf?_eq_some]
    cases items.mapM entryOf? with
    | none => simp
    | some taken => simp
  · rintro ⟨item, hmem, hitem⟩
    rw [hload, Text.mapM_eq_none hmem hitem.entryOf?_eq_none]

/-- Two entries, of which the first has a field that is skipped and a name that is given by
escapes. -/
def escapedText : Text :=
  "[\x7b\"n\":[null], \"destination\":\"b\",\"source\":\"\\ud83D\\uDE00\"\x7d,[\"a\",\"c\"]]".toList

def escapedItems : List Json :=
  [.object [(some "n".toList, .array [.null]),
      (some "destination".toList, .string (some "b".toList)),
      (some "source".toList, .string (some ['😀']))],
    .array [.string (some "a".toList), .string (some "c".toList)]]

open Json in
theorem isDocument_escaped : IsDocument (.array escapedItems) escapedText := by
  have hplain (t : Text) (h : t.all (fun c => 0x20 ≤ c.toNat ∧ c ≠ '"' ∧ c ≠ '\\') = true) :=
    writesString_plain h
  have hnil : IsFiller [] := by simp [IsFiller]
  have hspace : IsFiller [' '] := by simp [IsFiller]
  have hhigh := Text.hexadecimal_of_digits [('d', 13), ('8', 8), ('3', 3), ('D', 13)] (by decide)
  have hlow := Text.hexadecimal_of_digits [('D', 13), ('E', 14), ('0', 0), ('0', 0)] (by decide)
  have hpair : WritesString (some ['😀'])
      ['\\', 'u', 'd', '8', '3', 'D', '\\', 'u', 'D', 'E', '0', '0'] :=
    .of_makes (.half (.half .nil hlow (by decide)) hhigh (by decide))
      (.pair .nil (by decide) (by decide) (by decide))
  have hskipped := Writes.array (.lastItem .null ⟨hnil, hnil⟩)
  have hsource := Writes.lastMember (hplain "source".toList (by decide)) (.string hpair)
    ⟨hnil, hnil, hnil, hnil⟩
  have hdestination := Writes.member (hplain "destination".toList (by decide))
    (.string (hplain "b".toList (by decide))) ⟨hspace, hnil, hnil, hnil⟩ hsource
  have hobject := Writes.object (.member (hplain "n".toList (by decide)) hskipped
    ⟨hnil, hnil, hnil, hnil⟩ hdestination)
  have hlist := Writes.array (.item (.string (hplain "a".toList (by decide))) ⟨hnil, hnil⟩
    (.lastItem (.string (hplain "c".toList (by decide))) ⟨hnil, hnil⟩))
  have hitems := Writes.array (.item hobject ⟨hnil, hnil⟩ (.lastItem hlist ⟨hnil, hnil⟩))
  exact ⟨[], _, [], by decide, hnil, hnil, hitems⟩

def holding (text : Text) : Session where
  disk :=
    { nodes := #[.directory 0 [(Utf8.encode "m".toList, 1)], .file (Utf8.encode text) plainMode]
      cwd := 0 }

theorem load_reads_halves :
    (holding escapedText).disk.read (Utf8.encode "/m".toList) = .ok (Utf8.encode escapedText) ∧
    Json.IsDocument (.array escapedItems) escapedText ∧
    load (Utf8.encode "/m".toList) (holding escapedText) =
      .ok [⟨['😀'], "b".toList⟩, ⟨"a".toList, "c".toList⟩] (holding escapedText) := by
  have hfile : (holding escapedText).disk.read (Utf8.encode "/m".toList) =
      .ok (Utf8.encode escapedText) := rfl
  obtain ⟨hloads, -⟩ := load_reads_manifest hfile isDocument_escaped
  refine ⟨hfile, isDocument_escaped, (hloads _).mpr (.cons ?_ (.cons ?_ .nil))⟩
  · exact entryOf?_eq_some.mp rfl
  · exact .listed _ _

end Staging

end FirmwareBuild
