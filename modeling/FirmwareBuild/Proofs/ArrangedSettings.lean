import FirmwareBuild.Proofs.TomlTables
import FirmwareBuild.Proofs.TomlText
import FirmwareBuild.Settings.File

/-! # Lines that give settings their texts

A settings file has a header for each table that it needs, and below it a pair for
each setting of the table that it gives a text to. Such lines are taken up one by
one, whatever stands behind them (`Arranged.assemble?`), and what they come to in
the end are the given texts with the defaults for all else (`read?_of_isDocument`). -/

namespace FirmwareBuild.Settings

open Toml

/-! ## Lines of settings -/

inductive Table where
  | build
  | tools
  deriving DecidableEq

inductive Setting where
  | platform
  | arch
  | nasmPrefix
  | opensslPath
  | iaslPrefix
  deriving DecidableEq

def Table.name : Table → Text
  | .build => "build".toList
  | .tools => "tools".toList

def Table.settings : Table → List Setting
  | .build => [.platform, .arch]
  | .tools => [.nasmPrefix, .opensslPath, .iaslPrefix]

namespace Setting

def name : Setting → Text
  | .platform => "platform".toList
  | .arch => "arch".toList
  | .nasmPrefix => "nasm_prefix".toList
  | .opensslPath => "openssl_path".toList
  | .iaslPrefix => "iasl_prefix".toList

def table : Setting → Table
  | .platform | .arch => .build
  | .nasmPrefix | .opensslPath | .iaslPrefix => .tools

end Setting

/-- The settings with given texts, and the defaults for those without. -/
def given (a : Setting → Option Text) : Settings :=
  let default : Settings := {}
  { build :=
      { platform := (a .platform).getD default.build.platform
        arch := (a .arch).getD default.build.arch }
    tools :=
      { nasmPrefix := (a .nasmPrefix).getD default.tools.nasmPrefix
        opensslPath := (a .opensslPath).getD default.tools.opensslPath
        iaslPrefix := (a .iaslPrefix).getD default.tools.iaslPrefix } }

inductive Item where
  | blank
  | header (table : Table)
  | pair (setting : Setting) (text : Text)
  deriving DecidableEq

namespace Item

def line : Item → Line
  | .blank => .blank
  | .header t => .header t.name
  | .pair x text => .pair x.name text

def table? : Item → Option Table
  | .header t => some t
  | _ => none

def entry? (t : Table) : Item → Option (Text × Toml)
  | .pair x text => if x.table = t then some (x.name, .string text) else none
  | _ => none

end Item

def tablesOf (items : List Item) : List Table := items.filterMap Item.table?

def current (items : List Item) : Option Table := (tablesOf items).getLast?

/-- Lines in an order that is allowed: a table has one header, and below it a setting of the table
is given one text. -/
inductive Arranged : List Item → Prop
  | nil : Arranged []
  | blank {items : List Item} (front : Arranged items) : Arranged (items ++ [.blank])
  | header {items : List Item} {t : Table} (front : Arranged items) (new : t ∉ tablesOf items) :
    Arranged (items ++ [.header t])
  | pair {items : List Item} {x : Setting} (front : Arranged items)
      (place : current items = some x.table) (new : ∀ text, .pair x text ∉ items) (text : Text) :
    Arranged (items ++ [.pair x text])

/-! ## What lines add -/

def tableEntries (t : Table) (items : List Item) : Entries := items.filterMap (Item.entry? t)

def entriesOf (tables : List Table) (items : List Item) : Entries :=
  tables.map fun t => (t.name, .table .header (tableEntries t items))

variable {items : List Item} {t : Table} {x : Setting} {text : Text} {k : Text}

theorem Table.name_inj {t u : Table} : t.name = u.name ↔ t = u := by
  cases t <;> cases u <;> decide

theorem Setting.name_inj {x y : Setting} : x.name = y.name ↔ x = y := by
  cases x <;> cases y <;> decide

theorem mem_settings : x ∈ t.settings ↔ x.table = t := by
  cases x <;> cases t <;> decide

theorem mem_tableEntries {value : Toml} : (k, value) ∈ tableEntries t items ↔
    ∃ x text, .pair x text ∈ items ∧ x.table = t ∧ k = x.name ∧ value = .string text := by
  rw [tableEntries, List.mem_filterMap]
  constructor
  · rintro ⟨item, hmem, hentry⟩
    cases item with
    | pair x text =>
      obtain ⟨htable, heq⟩ := Option.ite_none_right_eq_some.mp hentry
      obtain ⟨rfl, rfl⟩ := Prod.mk.inj (Option.some.inj heq)
      exact ⟨x, text, hmem, htable, rfl, rfl⟩
    | blank => cases hentry
    | header _ => cases hentry
  · rintro ⟨x, text, hmem, htable, rfl, rfl⟩
    exact ⟨_, hmem, if_pos htable⟩

@[simp] theorem tablesOf_blank : tablesOf (items ++ [.blank]) = tablesOf items := by
  simp [tablesOf, Item.table?, List.filterMap_cons]

@[simp] theorem tablesOf_header : tablesOf (items ++ [.header t]) = tablesOf items ++ [t] := by
  simp [tablesOf, Item.table?]

@[simp] theorem tablesOf_pair : tablesOf (items ++ [.pair x text]) = tablesOf items := by
  simp [tablesOf, Item.table?, List.filterMap_cons]

@[simp] theorem tableEntries_blank : tableEntries t (items ++ [.blank]) = tableEntries t items := by
  simp [tableEntries, Item.entry?, List.filterMap_cons]

@[simp] theorem tableEntries_header {u : Table} :
    tableEntries t (items ++ [.header u]) = tableEntries t items := by
  simp [tableEntries, Item.entry?, List.filterMap_cons]

theorem tableEntries_pair (h : x.table = t) : tableEntries t (items ++ [.pair x text]) =
    tableEntries t items ++ [(x.name, .string text)] := by
  simp [tableEntries, Item.entry?, h]

theorem tableEntries_pair_of_ne (h : x.table ≠ t) :
    tableEntries t (items ++ [.pair x text]) = tableEntries t items := by
  simp [tableEntries, Item.entry?, h]

theorem Arranged.tables_nodup (h : Arranged items) : (tablesOf items).Nodup := by
  induction h with
  | nil => exact List.nodup_nil
  | blank _ ih => simpa using ih
  | header _ new ih =>
    rw [tablesOf_header, List.nodup_append]
    refine ⟨ih, by simp, fun t ht u hu => ?_⟩
    obtain rfl := List.mem_singleton.mp hu
    rintro rfl
    exact new ht
  | pair _ _ _ _ ih => simpa using ih

/-- A pair stands below the header of its table. -/
theorem Arranged.table_mem (h : Arranged items) (hmem : .pair x text ∈ items) :
    x.table ∈ tablesOf items := by
  induction h with
  | nil => cases hmem
  | blank _ ih =>
    rw [tablesOf_blank]
    exact ih (by simpa using hmem)
  | header _ _ ih =>
    rw [tablesOf_header]
    exact List.mem_append_left _ (ih (by simpa using hmem))
  | pair _ place _ _ ih =>
    rw [tablesOf_pair]
    rcases List.mem_append.mp hmem with hmem | hmem
    · exact ih hmem
    · obtain ⟨rfl, rfl⟩ := Item.pair.inj (List.mem_singleton.mp hmem)
      exact List.mem_of_getLast? place

theorem Arranged.keys_nodup (h : Arranged items) (t : Table) :
    ((tableEntries t items).map Prod.fst).Nodup := by
  induction h with
  | nil => exact List.nodup_nil
  | blank _ ih => simpa using ih
  | header _ _ ih => simpa using ih
  | @pair items x _ place new text ih =>
    by_cases htable : x.table = t
    · rw [tableEntries_pair htable, List.map_append, List.nodup_append]
      refine ⟨ih, by simp, fun k hk other hother => ?_⟩
      obtain rfl : other = x.name := by simpa using hother
      rintro rfl
      obtain ⟨⟨_, value⟩, hentry, rfl⟩ := List.mem_map.mp hk
      obtain ⟨y, written, hmem, -, hname, -⟩ := mem_tableEntries.mp hentry
      obtain rfl := Setting.name_inj.mp hname
      exact new written hmem
    · rw [tableEntries_pair_of_ne htable]
      exact ih

/-- The last header is that of another table than the headers before it. -/
theorem Arranged.ne_last (h : Arranged items) (ht : current items = some t) {u : Table}
    (hu : u ∈ (tablesOf items).dropLast) : u ≠ t := by
  obtain ⟨front, hfront⟩ := List.getLast?_eq_some_iff.mp ht
  have hnodup := h.tables_nodup
  rw [hfront, List.nodup_append] at hnodup
  rw [hfront, List.dropLast_concat] at hu
  exact hnodup.2.2 u hu t List.mem_cons_self

/-! ## Reading arranged lines -/

/-- The tables that are complete. -/
def closed (items : List Item) : Entries := entriesOf (tablesOf items).dropLast items

def pairsOf (t : Table) (items : List Item) : List (List Text × Toml) :=
  (tableEntries t items).map fun entry => ([entry.1], entry.2)

/-- The last section completes the tables. -/
theorem Arranged.addSection? (h : Arranged items) (ht : current items = some t) :
    Toml.addSection? false (pairsOf t items) [t.name] (closed items) =
      some (entriesOf (tablesOf items) items) := by
  obtain ⟨front, hfront⟩ := List.getLast?_eq_some_iff.mp ht
  have hmissing : (closed items).lookup t.name = none := by
    refine Text.lookup_eq_none.mpr fun hmem => ?_
    simp only [closed, entriesOf, List.map_map, List.mem_map, Function.comp_apply,
      Table.name_inj] at hmem
    obtain ⟨u, hu, rfl⟩ := hmem
    exact h.ne_last ht hu rfl
  have hpairs := @addPairs?_of_nodup [] (tableEntries t items) (by simpa using h.keys_nodup t)
  rw [List.nil_append, ← pairsOf] at hpairs
  rw [Toml.addSection?, hpairs]
  · simp [closed, hfront, entriesOf]
  · exact hmissing

def statementsOf (items : List Item) : List Statement :=
  (items.map Item.line).flatMap Line.statements

theorem statementsOf_concat (items : List Item) (item : Item) :
    statementsOf (items ++ [item]) = statementsOf items ++ item.line.statements := by
  simp [statementsOf]

/-- What a document comes to from the end of some of its lines on. -/
def assembleFrom? (items : List Item) (said : List Statement) : Option Entries :=
  match current items with
  | none => Toml.assemble? (group said).1 (group said).2
  | some t => addSections?
      (⟨false, [t.name], pairsOf t items ++ (group said).1⟩ :: (group said).2) (closed items)

theorem tableEntries_eq_nil (h : Arranged items) (ht : t ∉ tablesOf items) :
    tableEntries t items = [] := by
  refine List.eq_nil_iff_forall_not_mem.mpr fun ⟨k, value⟩ hmem => ?_
  obtain ⟨x, text, hpair, rfl, -⟩ := mem_tableEntries.mp hmem
  exact ht (h.table_mem hpair)

theorem entriesOf_congr {tables : List Table} {more : List Item}
    (h : ∀ t ∈ tables, tableEntries t more = tableEntries t items) :
    entriesOf tables more = entriesOf tables items := by
  refine List.map_congr_left fun t ht => ?_
  rw [h t ht]

/-- **The lines of settings are taken up one by one**, whatever is said behind them. -/
theorem Arranged.assemble? (h : Arranged items) (said : List Statement) :
    Toml.assemble? (group (statementsOf items ++ said)).1 (group (statementsOf items ++ said)).2 =
      assembleFrom? items said := by
  -- from the last line on: what it says goes to what is said behind the others
  induction h generalizing said with
  | nil => rfl
  | @blank items front ih =>
    have hcurrent : current (items ++ [.blank]) = current items := by simp [current]
    have hclosed : closed (items ++ [.blank]) = closed items := by
      rw [closed, tablesOf_blank]
      exact entriesOf_congr fun u _ => tableEntries_blank
    rw [statementsOf_concat, List.append_assoc, ih]
    simp [assembleFrom?, hcurrent, hclosed, pairsOf, Item.line, Line.statements]
  | @header items t front new ih =>
    have hcurrent : current (items ++ [.header t]) = some t := by simp [current]
    have hclosed : closed (items ++ [.header t]) = entriesOf (tablesOf items) items := by
      rw [closed, tablesOf_header, List.dropLast_concat]
      exact entriesOf_congr fun u _ => tableEntries_header
    have hpairs : pairsOf t (items ++ [.header t]) = [] := by
      rw [pairsOf, tableEntries_header, tableEntries_eq_nil front new]
      rfl
    rw [statementsOf_concat, List.append_assoc, ih]
    simp only [assembleFrom?, hcurrent, hclosed, hpairs, List.nil_append]
    -- a header closes the table before it, if there is one
    cases hopen : current items with
    | none =>
      have hnone : tablesOf items = [] := List.getLast?_eq_none_iff.mp hopen
      rw [hnone]
      rfl
    | some u =>
      have hsection := front.addSection? hopen
      simp [Item.line, Line.statements, group, addSections?_cons, hsection]
  | @pair items x front place new text ih =>
    have hcurrent : current (items ++ [.pair x text]) = some x.table := by
      simpa [current] using place
    have hpairs : pairsOf x.table (items ++ [.pair x text]) =
        pairsOf x.table items ++ [([x.name], .string text)] := by
      simp [pairsOf, tableEntries_pair]
    have hclosed : closed (items ++ [.pair x text]) = closed items := by
      rw [closed, tablesOf_pair]
      exact entriesOf_congr fun u hu => tableEntries_pair_of_ne (front.ne_last place hu).symm
    rw [statementsOf_concat, List.append_assoc, ih]
    simp [assembleFrom?, place, hcurrent, hclosed, hpairs, Item.line, Line.statements, group]

theorem Arranged.assemble?_end (h : Arranged items) :
    assembleFrom? items [] = some (entriesOf (tablesOf items) items) := by
  rw [assembleFrom?]
  cases hopen : current items with
  | none =>
    have hnone : tablesOf items = [] := List.getLast?_eq_none_iff.mp hopen
    rw [hnone]
    rfl
  | some t =>
    have hsection := h.addSection? hopen
    simp only [group, List.append_nil, addSections?_cons, hsection]
    rfl

/-! ## What the settings are -/

def Gives (a : Setting → Option Text) (items : List Item) : Prop :=
  ∀ x text, a x = some text ↔ .pair x text ∈ items

section Settled
variable {a : Setting → Option Text}

theorem lookup_tableEntries (h : Arranged items) (ha : Gives a items) (hx : x.table = t) :
    (tableEntries t items).lookup x.name = (a x).map .string := by
  have hlookup (value : Toml) : (tableEntries t items).lookup x.name = some value ↔
      (x.name, value) ∈ tableEntries t items := Text.lookup_eq_some (h.keys_nodup t)
  have hentry (value : Toml) : (x.name, value) ∈ tableEntries t items ↔
      ∃ text, a x = some text ∧ value = .string text := by
    rw [mem_tableEntries]
    constructor
    · rintro ⟨y, text, hmem, -, hname, hvalue⟩
      obtain rfl := Setting.name_inj.mp hname
      exact ⟨text, (ha x text).mpr hmem, hvalue⟩
    · rintro ⟨text, htext, hvalue⟩
      exact ⟨x, text, (ha x text).mp htext, hx, rfl, hvalue⟩
  cases hax : a x with
  | some text => exact (hlookup _).mpr ((hentry _).mpr ⟨text, hax, rfl⟩)
  | none =>
    refine Option.eq_none_iff_forall_ne_some.mpr fun value hvalue => ?_
    obtain ⟨text, htext, -⟩ := (hentry value).mp ((hlookup value).mp hvalue)
    rw [hax] at htext
    cases htext

/-- The fields of a table are what its settings are given. -/
theorem fields?_tableEntries (h : Arranged items) (ha : Gives a items) (t : Table)
    (origin : Origin) : fields? (t.settings.map Setting.name)
      (.table origin (tableEntries t items)) = some (t.settings.map a) := by
  have hknown : ((tableEntries t items).all fun entry =>
      (t.settings.map Setting.name).contains entry.1) = true := by
    refine List.all_eq_true.mpr fun ⟨k, value⟩ hmem => ?_
    obtain ⟨x, text, -, hx, rfl, -⟩ := mem_tableEntries.mp hmem
    exact List.elem_eq_true_of_mem (List.mem_map_of_mem (mem_settings.mpr hx))
  have hentry (x : Setting) (hx : x.table = t) :
      entryText? (tableEntries t items) x.name = some (a x) := by
    rw [entryText?, lookup_tableEntries h ha hx]
    cases a x <;> rfl
  have hall (xs : List Setting) (hxs : ∀ x ∈ xs, x.table = t) :
      xs.mapM (entryText? (tableEntries t items) ∘ Setting.name) = some (xs.map a) := by
    induction xs with
    | nil => rfl
    | cons x xs ih =>
      obtain ⟨hx, hxs⟩ := List.forall_mem_cons.mp hxs
      simp [List.mapM_cons, hentry x hx, ih hxs]
  rw [fields?, if_pos hknown, List.mapM_map]
  exact hall _ fun x => mem_settings.mp

theorem lookup_entriesOf (tables : List Table) (items : List Item) (t : Table) :
    (entriesOf tables items).lookup t.name =
      if t ∈ tables then some (.table .header (tableEntries t items)) else none := by
  induction tables with
  | nil => rfl
  | cons u tables ih =>
    rw [entriesOf, List.map_cons, List.lookup_cons, ← entriesOf, ih]
    by_cases htu : t = u
    · subst htu
      simp
    · have hname : (t.name == u.name) = false := by simpa [Table.name_inj] using htu
      simp [hname, htu]

/-- A table without a header is read like an empty one. -/
theorem sectionOf?_entriesOf {α : Type} (read : Toml → Option α) (default : α)
    (h : Arranged items) (hread : read (.table .header []) = some default) (t : Table) :
    sectionOf? read default (entriesOf (tablesOf items) items) t.name =
      read (.table .header (tableEntries t items)) := by
  rw [sectionOf?, lookup_entriesOf]
  by_cases ht : t ∈ tablesOf items
  · rw [if_pos ht]
  · rw [if_neg ht, tableEntries_eq_nil h ht, hread]

theorem ofEntries?_entriesOf (h : Arranged items) (ha : Gives a items) :
    ofEntries? (entriesOf (tablesOf items) items) = some (given a) := by
  have hknown : ((entriesOf (tablesOf items) items).all fun entry =>
      ["build".toList, "tools".toList].contains entry.1) = true := by
    refine List.all_eq_true.mpr fun entry hmem => ?_
    obtain ⟨t, -, rfl⟩ := List.mem_map.mp hmem
    cases t <;> rfl
  have hbuild : buildOf? (.table .header (tableEntries .build items)) = some (given a).build := by
    have hfields := fields?_tableEntries h ha .build .header
    change fields? ["platform".toList, "arch".toList] _ = some [a .platform, a .arch] at hfields
    rw [buildOf?, hfields]
    rfl
  have htools : toolsOf? (.table .header (tableEntries .tools items)) = some (given a).tools := by
    have hfields := fields?_tableEntries h ha .tools .header
    change fields? (["nasm_prefix", "openssl_path", "iasl_prefix"].map String.toList) _ =
      some [a .nasmPrefix, a .opensslPath, a .iaslPrefix] at hfields
    simp only [toolsOf?, hfields]
    rfl
  have hbuildSection := sectionOf?_entriesOf buildOf? {} h rfl .build
  have htoolsSection := sectionOf?_entriesOf toolsOf? {} h rfl .tools
  rw [hbuild] at hbuildSection
  rw [htools] at htoolsSection
  rw [ofEntries?, if_pos hknown]
  change (sectionOf? buildOf? {} _ Table.build.name).bind _ = _
  rw [hbuildSection]
  change (sectionOf? toolsOf? {} _ Table.tools.name).bind _ = _
  rw [htoolsSection]
  rfl

theorem read?_of_isDocument (h : Arranged items) (ha : Gives a items) {text : Text}
    (htext : IsDocument (items.map Item.line) text) : read? text = some (given a) := by
  have hread := htext.read?
  have hassemble := h.assemble? []
  rw [List.append_nil, h.assemble?_end] at hassemble
  rw [read?, hread, ← statementsOf, hassemble]
  exact ofEntries?_entriesOf h ha

end Settled

end FirmwareBuild.Settings
