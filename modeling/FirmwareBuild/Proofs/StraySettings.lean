import FirmwareBuild.Proofs.ArrangedSettings

/-! # Keys that are no settings

Entries are unfit if they have a key that is none of the settings, or a setting that
is no text. Nothing is taken from unfit entries, and since additions never take
anything away, they stay unfit whatever is added (`Unfit.grows`). So one stray key
spoils a document at any place where it can stand (`unfit_of_said`). -/

namespace FirmwareBuild.Settings

open Toml

variable {items : List Item} {t : Table} {k : Text}

/-! ## What is refused -/

/-- A table has a key that is none of its settings, or a setting that is no text. -/
def UnfitTable (t : Table) (entries : Entries) : Prop :=
  ∃ k value, entries.lookup k = some value ∧
    ((∀ x : Setting, x.table = t → k ≠ x.name) ∨ textOf? value = none)

/-- A document has a key that is none of the tables, or a table that is unfit. -/
def Unfit (entries : Entries) : Prop :=
  ∃ k value, entries.lookup k = some value ∧
    ((∀ t : Table, k ≠ t.name) ∨
      ∃ (t : Table) (origin : Origin) (inner : Entries),
        k = t.name ∧ value = .table origin inner ∧ UnfitTable t inner)

section Unfit
variable {entries more new : Entries} {path : List Text} {value : Toml}

theorem textOf?_growsTo {v w : Toml} (h : GrowsTo v w) : textOf? w = textOf? v := by
  cases h with
  | same => rfl
  | table => rfl
  | tables => rfl

theorem textOf?_holdsTables {v : Toml} (h : HoldsTables v) : textOf? v = none := by
  cases h with
  | one => rfl
  | several => rfl

/-- **What is unfit stays so**, whatever is added. -/
theorem UnfitTable.grows (h : UnfitTable t entries) (hgrows : Grows entries more) :
    UnfitTable t more := by
  obtain ⟨k, value, hlookup, hunfit⟩ := h
  obtain ⟨grown, hgrown, hvalue⟩ := hgrows.lookup hlookup
  refine ⟨k, grown, hgrown, hunfit.imp id fun hnone => ?_⟩
  rw [textOf?_growsTo hvalue, hnone]

theorem Unfit.grows (h : Unfit entries) (hgrows : Grows entries more) : Unfit more := by
  obtain ⟨k, value, hlookup, hunfit⟩ := h
  obtain ⟨grown, hgrown, hvalue⟩ := hgrows.lookup hlookup
  refine ⟨k, grown, hgrown, ?_⟩
  rcases hunfit with hunknown | ⟨t, origin, inner, hk, rfl, hinner⟩
  · exact .inl hunknown
  · cases hvalue with
    | same => exact .inr ⟨t, origin, inner, hk, rfl, hinner⟩
    | table hinside _ origin' => exact .inr ⟨t, origin', _, hk, rfl, hinner.grows hinside⟩

theorem fields?_of_unfit (h : UnfitTable t entries) (origin : Origin) :
    fields? (t.settings.map Setting.name) (.table origin entries) = none := by
  obtain ⟨k, value, hlookup, hunfit⟩ := h
  rw [fields?]
  split
  · rename_i hknown
    -- all keys are settings, so that one of them is no text
    have hk := List.all_eq_true.mp hknown _ (Text.mem_of_lookup hlookup)
    obtain ⟨x, hx, rfl⟩ := List.mem_map.mp (List.mem_of_elem_eq_true hk)
    have hnone : textOf? value = none := by
      rcases hunfit with hunknown | hnone
      · exact absurd rfl (hunknown x (mem_settings.mp hx))
      · exact hnone
    refine Text.mapM_eq_none (List.mem_map_of_mem hx) ?_
    rw [entryText?, hlookup]
    simp [hnone]
  · rfl

theorem ofEntries?_of_unfit (h : Unfit entries) : ofEntries? entries = none := by
  obtain ⟨k, value, hlookup, hunfit⟩ := h
  rw [ofEntries?]
  split
  · rename_i hknown
    have hk := List.mem_of_elem_eq_true (List.all_eq_true.mp hknown _ (Text.mem_of_lookup hlookup))
    rcases hunfit with hunknown | ⟨t, origin, inner, rfl, rfl, hinner⟩
    · simp only [List.mem_cons, List.not_mem_nil, or_false] at hk
      rcases hk with hk | hk
      · exact absurd hk (hunknown .build)
      · exact absurd hk (hunknown .tools)
    · have hfields := fields?_of_unfit hinner origin
      cases t with
      | build =>
        change fields? ["platform".toList, "arch".toList] _ = none at hfields
        have hbuild : sectionOf? buildOf? {} entries "build".toList = none := by
          change entries.lookup "build".toList = _ at hlookup
          simp only [sectionOf?, hlookup, buildOf?, hfields]
          rfl
        rw [hbuild]
        rfl
      | tools =>
        change fields? (["nasm_prefix", "openssl_path", "iasl_prefix"].map String.toList) _ = none
          at hfields
        have htools : sectionOf? toolsOf? {} entries "tools".toList = none := by
          change entries.lookup "tools".toList = _ at hlookup
          simp only [sectionOf?, hlookup, toolsOf?, hfields]
          rfl
        rw [htools]
        cases sectionOf? buildOf? {} entries "build".toList <;> rfl
  · rfl

/-! ## Where unfit entries come from -/

def UnfitPair (t : Table) (k : Text) (path : List Text) (value : Toml) : Prop :=
  path = [] → (∀ x : Setting, x.table = t → k ≠ x.name) ∨ textOf? value = none

theorem unfitTable_of_pair (hpair : UnfitPair t k path value)
    (h : Toml.addPair? value (k :: path) entries = some new) : UnfitTable t new := by
  obtain ⟨held, hlookup, hlast, htables⟩ := addPair?_lookup h
  refine ⟨k, held, hlookup, ?_⟩
  by_cases hpath : path = []
  · rw [hlast hpath]
    exact hpair hpath
  · exact .inr (textOf?_holdsTables (htables hpath))

def IsUnknown (path : List Text) : Prop :=
  (∀ t : Table, path ≠ [t.name]) ∧ ∀ x : Setting, path ≠ [x.table.name, x.name]

/-- The path of a pair, from the top of the document on, makes the document unfit. -/
def IsStray (path : List Text) (value : Toml) : Prop :=
  IsUnknown path ∨ ∃ x : Setting, path = [x.table.name, x.name] ∧ textOf? value = none

theorem IsStray.inside (h : IsStray (t.name :: k :: path) value) : UnfitPair t k path value := by
  rintro rfl
  rcases h with ⟨-, hunknown⟩ | ⟨x, hx, hvalue⟩
  · refine .inl fun x hx hk => hunknown x ?_
    rw [hx, hk]
  · exact .inr hvalue

theorem unfit_of_pair (hstray : IsStray path value)
    (h : Toml.addPair? value path [] = some new) : Unfit new := by
  cases path with
  | nil => cases h
  | cons k path =>
    obtain ⟨held, hlookup, -⟩ := addPair?_lookup h
    by_cases hk : ∀ t : Table, k ≠ t.name
    · exact ⟨k, held, hlookup, .inl hk⟩
    · obtain ⟨t, rfl⟩ : ∃ t : Table, k = t.name := by simpa using hk
      cases path with
      | nil =>
        rcases hstray with ⟨hunknown, -⟩ | ⟨x, hx, -⟩
        · exact absurd rfl (hunknown t)
        · simp at hx
      | cons next path =>
        obtain ⟨origin, inner, more, hmore, hadded⟩ := (addPair?_descends h).table (by simp)
        exact ⟨_, _, hmore, .inr ⟨t, origin, more, rfl, rfl,
          unfitTable_of_pair hstray.inside hadded⟩⟩

/-- A header of something else than the two tables makes a document unfit. -/
theorem unfit_of_header {isElement : Bool} {pairs : List (List Text × Toml)}
    (hpath : ∀ t : Table, path ≠ [t.name])
    (htables : ∀ (t : Table) elements, entries.lookup t.name ≠ some (.tables elements))
    (h : Toml.addSection? isElement pairs path entries = some new) : Unfit new := by
  cases path with
  | nil => cases h
  | cons k path =>
    obtain ⟨held, hlookup, -⟩ := addSection?_lookup h
    by_cases hk : ∀ t : Table, k ≠ t.name
    · exact ⟨k, held, hlookup, .inl hk⟩
    · obtain ⟨t, rfl⟩ : ∃ t : Table, k = t.name := by simpa using hk
      cases path with
      | nil => exact absurd rfl (hpath t)
      | cons next path =>
        obtain ⟨origin, inner, more, hmore, hadded⟩ := (addSection?_descends h).table (htables t)
        obtain ⟨below, hbelow, hholds⟩ := addSection?_lookup hadded
        exact ⟨_, _, hmore, .inr ⟨t, origin, more, rfl, rfl, next, below, hbelow,
          .inr (textOf?_holdsTables hholds)⟩⟩

/-- A pair below the header of a table makes the table unfit, whatever stands after it. -/
theorem unfit_of_section {pairs after : List (List Text × Toml)}
    (hstray : IsStray (t.name :: path) value)
    (h : Toml.addSection? false (pairs ++ (path, value) :: after) [t.name] entries = some new) :
    Unfit new := by
  obtain ⟨-, held, hlookup, -, hpairs⟩ := addSection?_last h
  obtain ⟨inner, more, rfl, hmore⟩ := hpairs rfl
  refine ⟨_, _, hlookup, .inr ⟨t, _, more, rfl, rfl, ?_⟩⟩
  rw [addPairs?_append] at hmore
  obtain ⟨front, -, hmore⟩ := Option.bind_eq_some_iff.mp hmore
  rw [addPairs?_cons] at hmore
  obtain ⟨made, hmade, hafter⟩ := Option.bind_eq_some_iff.mp hmore
  cases path with
  | nil => cases hmade
  | cons k path => exact (unfitTable_of_pair hstray.inside hmade).grows (addPairs?_grows hafter)

/-- A path in a document whose last header is that of a table. -/
def under (place : Option Table) (path : List Text) : List Text :=
  (place.map Table.name).toList ++ path

inductive SaysStray (place : Option Table) : List Statement → Prop
  | pair {path : List Text} {value : Toml} (stray : IsStray (under place path) value)
      (more : List Statement) : SaysStray place (.pair path value :: more)
  | header {path : List Text} (unknown : ∀ t : Table, path ≠ [t.name]) (isElement : Bool)
      (more : List Statement) : SaysStray place (.header isElement path :: more)

theorem addSections?_unfit {s : Toml.Section} {sections : List Toml.Section}
    (hunfit : ∀ {made},
      Toml.addSection? s.isElement s.pairs s.path entries = some made → Unfit made)
    (h : addSections? (s :: sections) entries = some new) : Unfit new := by
  rw [addSections?_cons] at h
  obtain ⟨made, hmade, hrest⟩ := Option.bind_eq_some_iff.mp h
  exact (hunfit hmade).grows (addSections?_grows hrest)

/-- **One stray key makes a document unfit**, whatever stands behind it. -/
theorem unfit_of_said {said : List Statement} (h : Arranged items)
    (hsaid : SaysStray (current items) said) (hnew : assembleFrom? items said = some new) :
    Unfit new := by
  rw [assembleFrom?] at hnew
  cases hplace : current items with
  | none =>
    rw [hplace] at hsaid hnew
    cases hsaid with
    | pair stray more =>
      obtain ⟨pairs, hpairs, hrest⟩ := Option.bind_eq_some_iff.mp hnew
      simp only [group, addPairs?_cons] at hpairs
      obtain ⟨made, hmade, hafter⟩ := Option.bind_eq_some_iff.mp hpairs
      exact ((unfit_of_pair stray hmade).grows (addPairs?_grows hafter)).grows
        (addSections?_grows hrest)
    | header unknown isElement more =>
      exact addSections?_unfit (unfit_of_header unknown (by simp)) hnew
  | some t =>
    rw [hplace] at hsaid hnew
    cases hsaid with
    | pair stray more => exact addSections?_unfit (unfit_of_section stray) hnew
    | header unknown isElement more =>
      simp only [group, List.append_nil] at hnew
      rw [addSections?_cons, h.addSection? hplace] at hnew
      refine addSections?_unfit (unfit_of_header unknown fun t elements hlookup => ?_) hnew
      rw [lookup_entriesOf] at hlookup
      split at hlookup
      · cases hlookup
      · cases hlookup

end Unfit

end FirmwareBuild.Settings
