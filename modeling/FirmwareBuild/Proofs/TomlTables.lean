import FirmwareBuild.Toml.Reader

/-! # Additions to tables

What a document adds to its tables makes them grow and takes nothing away: a key that
has a value keeps it, up to what is added inside of a table (`Grows.lookup`). A key with
several parts goes down through the tables under the parts before the last, and so
does a header (`Descends`). -/

namespace FirmwareBuild.Toml

variable {key other : Text} {path : List Text} {value old : Toml} {entries inner new : Entries}

/-! ## Entries under keys -/

theorem lookup_append_of_some (h : entries.lookup key = some value) (more : Entries) :
    (entries ++ more).lookup key = some value := by
  simp [List.lookup_append, h]

theorem lookup_append_new (h : entries.lookup key = none) (value : Toml) :
    (entries ++ [(key, value)]).lookup key = some value := by
  simp [List.lookup_append, h]

theorem lookup_replaceEntry_self (h : entries.lookup key = some old) (value : Toml) :
    (replaceEntry key value entries).lookup key = some value := by
  induction entries with
  | nil => cases h
  | cons entry entries ih =>
    obtain ⟨held, first⟩ := entry
    simp only [replaceEntry, List.map_cons] at ih ⊢
    by_cases hheld : held = key
    · simp [hheld]
    · have hkey : (key == held) = false := by simpa using Ne.symm hheld
      rw [List.lookup_cons, hkey] at h
      rw [if_neg hheld, List.lookup_cons, hkey]
      exact ih h

theorem lookup_replaceEntry_of_ne (h : other ≠ key) (value : Toml) (entries : Entries) :
    (replaceEntry key value entries).lookup other = entries.lookup other := by
  induction entries with
  | nil => rfl
  | cons entry entries ih =>
    obtain ⟨held, first⟩ := entry
    simp only [replaceEntry, List.map_cons] at ih ⊢
    by_cases hheld : held = key
    · have hother : (other == key) = false := by simpa using h
      simp [hheld, List.lookup_cons, hother, ih]
    · rw [if_neg hheld, List.lookup_cons, List.lookup_cons, ih]

/-- Of what stands under keys a replacement changes the value under its key only. -/
theorem lookup_replaceEntry (hold : entries.lookup key = some old)
    (hother : entries.lookup other = some value) (new : Toml) :
    (value = old ∧ (replaceEntry key new entries).lookup other = some new) ∨
      (replaceEntry key new entries).lookup other = some value := by
  by_cases hsame : other = key
  · subst hsame
    rw [hold] at hother
    exact .inl ⟨(Option.some.inj hother).symm, lookup_replaceEntry_self hold new⟩
  · exact .inr ((lookup_replaceEntry_of_ne hsame new entries).trans hother)

/-! ## Growth -/

/-- The entries after additions: new keys stand at the end, and what is inside of tables grows. -/
inductive Grows : Entries → Entries → Prop
  | refl (entries : Entries) : Grows entries entries
  | trans {entries more most : Entries} (first : Grows entries more) (second : Grows more most) :
    Grows entries most
  | append {entries : Entries} {key : Text} (missing : entries.lookup key = none) (value : Toml) :
    Grows entries (entries ++ [(key, value)])
  | inside {entries inner more : Entries} {key : Text} {origin : Origin}
      (old : entries.lookup key = some (.table origin inner)) (grown : Grows inner more)
      (origin' : Origin) : Grows entries (replaceEntry key (.table origin' more) entries)
  | element {entries : Entries} {key : Text} {elements : List Entries}
      (old : entries.lookup key = some (.tables elements)) (elements' : List Entries) :
    Grows entries (replaceEntry key (.tables elements') entries)

inductive GrowsTo : Toml → Toml → Prop
  | same (value : Toml) : GrowsTo value value
  | table {inner more : Entries} (grown : Grows inner more) (origin origin' : Origin) :
    GrowsTo (.table origin inner) (.table origin' more)
  | tables (elements elements' : List Entries) : GrowsTo (.tables elements) (.tables elements')

inductive HoldsTables : Toml → Prop
  | one (origin : Origin) (inner : Entries) : HoldsTables (.table origin inner)
  | several (elements : List Entries) : HoldsTables (.tables elements)

theorem GrowsTo.trans {v w x : Toml} (h : GrowsTo v w) (h' : GrowsTo w x) : GrowsTo v x := by
  cases h with
  | same => exact h'
  | table grown origin origin' =>
    cases h' with
    | same => exact .table grown _ _
    | table grown' _ _ => exact .table (grown.trans grown') _ _
  | tables elements elements' =>
    cases h' with
    | same => exact .tables _ _
    | tables _ _ => exact .tables _ _

/-- **A key that has a value keeps it.** -/
theorem Grows.lookup (h : Grows entries new) (hkey : entries.lookup key = some value) :
    ∃ grown, new.lookup key = some grown ∧ GrowsTo value grown := by
  induction h generalizing value with
  | refl => exact ⟨value, hkey, .same value⟩
  | trans _ _ ih ih' =>
    obtain ⟨v, hv, hvalue⟩ := ih hkey
    obtain ⟨w, hw, hv⟩ := ih' hv
    exact ⟨w, hw, hvalue.trans hv⟩
  | append missing added => exact ⟨value, lookup_append_of_some hkey _, .same value⟩
  | inside old grown origin' =>
    rcases lookup_replaceEntry old hkey _ with ⟨rfl, hnew⟩ | hnew
    · exact ⟨_, hnew, .table grown _ _⟩
    · exact ⟨value, hnew, .same value⟩
  -- elements are kept apart from entries, so that nothing is said of what is in them
  | element old elements' =>
    rcases lookup_replaceEntry old hkey _ with ⟨rfl, hnew⟩ | hnew
    · exact ⟨_, hnew, .tables _ _⟩
    · exact ⟨value, hnew, .same value⟩

/-! ## Steps down -/

/-- An addition is made inside of what is under a key: in a new table, in the table that is there
or in the last of several tables. -/
inductive Descends (add : Entries → Option Entries) (key : Text) (entries new : Entries) : Prop
  | fresh {inner : Entries} {origin : Origin} (missing : entries.lookup key = none)
      (added : add [] = some inner) (made : new = entries ++ [(key, .table origin inner)])
  | inside {inner more : Entries} {origin : Origin}
      (old : entries.lookup key = some (.table origin inner)) (added : add inner = some more)
      (made : new = replaceEntry key (.table origin more) entries)
  | element {elements elements' : List Entries} (old : entries.lookup key = some (.tables elements))
      (made : new = replaceEntry key (.tables elements') entries)

variable {add : Entries → Option Entries}

theorem Descends.grows (h : Descends add key entries new)
    (hadd : ∀ inner more, add inner = some more → Grows inner more) : Grows entries new := by
  cases h with
  | fresh missing added made => exact made ▸ .append missing _
  | inside old added made => exact made ▸ .inside old (hadd _ _ added) _
  | element old made => exact made ▸ .element old _

/-- Under the key is a table then, or several. -/
theorem Descends.lookup (h : Descends add key entries new) :
    ∃ value, new.lookup key = some value ∧ HoldsTables value := by
  cases h with
  | fresh missing added made => exact ⟨_, made ▸ lookup_append_new missing _, .one _ _⟩
  | inside old added made => exact ⟨_, made ▸ lookup_replaceEntry_self old _, .one _ _⟩
  | element old made => exact ⟨_, made ▸ lookup_replaceEntry_self old _, .several _⟩

/-- Where there are not several tables, the addition is made in one. -/
theorem Descends.table (h : Descends add key entries new)
    (hone : ∀ elements, entries.lookup key ≠ some (.tables elements)) :
    ∃ origin inner more, new.lookup key = some (.table origin more) ∧ add inner = some more := by
  cases h with
  | fresh missing added made => exact ⟨_, _, _, made ▸ lookup_append_new missing _, added⟩
  | inside old added made => exact ⟨_, _, _, made ▸ lookup_replaceEntry_self old _, added⟩
  | element old made => exact absurd old (hone _)

theorem addPair?_descends {next : Text}
    (h : addPair? value (key :: next :: path) entries = some new) :
    Descends (addPair? value (next :: path)) key entries new := by
  rw [addPair?] at h
  split at h
  · rename_i hold
    obtain ⟨inner, hinner, rfl⟩ := Option.map_eq_some_iff.mp h
    exact .fresh hold hinner rfl
  · rename_i inner hold
    obtain ⟨more, hmore, rfl⟩ := Option.map_eq_some_iff.mp h
    exact .inside hold hmore rfl
  · rename_i inner hold
    split at h
    · cases h
    · obtain ⟨more, hmore, rfl⟩ := Option.map_eq_some_iff.mp h
      exact .inside hold hmore rfl
  · rename_i elements hold
    split at h
    · obtain ⟨more, hmore, rfl⟩ := Option.map_eq_some_iff.mp h
      exact .element hold rfl
    · cases h
  · cases h

theorem addSection?_descends {isElement : Bool} {pairs : List (List Text × Toml)} {next : Text}
    (h : addSection? isElement pairs (key :: next :: path) entries = some new) :
    Descends (addSection? isElement pairs (next :: path)) key entries new := by
  rw [addSection?] at h
  split at h
  · rename_i hold
    obtain ⟨inner, hinner, rfl⟩ := Option.map_eq_some_iff.mp h
    exact .fresh hold hinner rfl
  · cases h
  · rename_i origin inner _ hold
    obtain ⟨more, hmore, rfl⟩ := Option.map_eq_some_iff.mp h
    exact .inside hold hmore rfl
  · rename_i elements hold
    split at h
    · obtain ⟨more, hmore, rfl⟩ := Option.map_eq_some_iff.mp h
      exact .element hold rfl
    · cases h
  · cases h

/-! ## Additions -/

theorem addPair?_last (h : addPair? value [key] entries = some new) :
    entries.lookup key = none ∧ new = entries ++ [(key, value)] := by
  rw [addPair?] at h
  split at h
  · cases h
  · rename_i hmissing
    exact ⟨Option.not_isSome_iff_eq_none.mp hmissing, (Option.some.inj h).symm⟩

/-- What stands under the first part of a key is the value, or the tables that it is in. -/
theorem addPair?_lookup (h : addPair? value (key :: path) entries = some new) :
    ∃ held, new.lookup key = some held ∧ (path = [] → held = value) ∧
      (path ≠ [] → HoldsTables held) := by
  cases path with
  | nil =>
    obtain ⟨hmissing, rfl⟩ := addPair?_last h
    exact ⟨value, lookup_append_new hmissing value, fun _ => rfl, fun hne => absurd rfl hne⟩
  | cons next path =>
    obtain ⟨held, hlookup, htables⟩ := (addPair?_descends h).lookup
    exact ⟨held, hlookup, by simp, fun _ => htables⟩

theorem addPair?_grows (h : addPair? value path entries = some new) : Grows entries new := by
  induction path generalizing entries new with
  | nil => cases h
  | cons key path ih =>
    cases path with
    | nil =>
      obtain ⟨hmissing, rfl⟩ := addPair?_last h
      exact .append hmissing value
    | cons next path => exact (addPair?_descends h).grows fun _ _ => ih

theorem addPairs?_grows {pairs : List (List Text × Toml)} (h : addPairs? pairs entries = some new) :
    Grows entries new := by
  induction pairs generalizing entries with
  | nil =>
    obtain rfl := Option.some.inj h
    exact .refl _
  | cons pair pairs ih =>
    rw [addPairs?, List.foldlM_cons] at h
    obtain ⟨more, hmore, h⟩ := Option.bind_eq_some_iff.mp h
    exact (addPair?_grows hmore).trans (ih h)

/-- Pairs with different keys of one part are all put at the end. -/
theorem addPairs?_of_nodup {more : Entries} (h : ((entries ++ more).map Prod.fst).Nodup) :
    addPairs? (more.map fun entry => ([entry.1], entry.2)) entries = some (entries ++ more) := by
  induction more generalizing entries with
  | nil => simp [addPairs?]
  | cons entry more ih =>
    obtain ⟨key, value⟩ := entry
    have hmissing : entries.lookup key = none := by
      refine Text.lookup_eq_none.mpr fun hmem => ?_
      rw [List.map_append, List.nodup_append] at h
      exact h.2.2 key hmem key List.mem_cons_self rfl
    have hrest := @ih (entries ++ [(key, value)]) (by simpa using h)
    rw [addPairs?, List.map_cons, List.foldlM_cons]
    simp only [addPair?, hmissing]
    simpa [addPairs?] using hrest

theorem addPairs?_cons {pair : List Text × Toml} {pairs : List (List Text × Toml)} :
    addPairs? (pair :: pairs) entries =
      (addPair? pair.2 pair.1 entries).bind (addPairs? pairs) := by
  rw [addPairs?, List.foldlM_cons]
  rfl

theorem addPairs?_append {pairs more : List (List Text × Toml)} :
    addPairs? (pairs ++ more) entries = (addPairs? pairs entries).bind (addPairs? more) := by
  rw [addPairs?, List.foldlM_append]
  rfl

/-- The table of a header is under the last part of its path. -/
theorem addSection?_last {isElement : Bool} {pairs : List (List Text × Toml)}
    (h : addSection? isElement pairs [key] entries = some new) :
    Grows entries new ∧ ∃ held, new.lookup key = some held ∧ HoldsTables held ∧
      (isElement = false →
        ∃ inner more, held = .table .header more ∧ addPairs? pairs inner = some more) := by
  rw [addSection?.eq_def] at h
  dsimp only at h
  split at h
  · rename_i hold
    obtain ⟨inner, hinner, rfl⟩ := Option.map_eq_some_iff.mp h
    exact ⟨.append hold _, _, lookup_append_new hold _, .several _, by simp⟩
  · rename_i elements hold
    obtain ⟨inner, hinner, rfl⟩ := Option.map_eq_some_iff.mp h
    exact ⟨.element hold _, _, lookup_replaceEntry_self hold _, .several _, by simp⟩
  · rename_i hold
    obtain ⟨inner, hinner, rfl⟩ := Option.map_eq_some_iff.mp h
    exact ⟨.append hold _, _, lookup_append_new hold _, .one _ _, fun _ => ⟨_, _, rfl, hinner⟩⟩
  · rename_i inner hold
    obtain ⟨more, hmore, rfl⟩ := Option.map_eq_some_iff.mp h
    exact ⟨.inside hold (addPairs?_grows hmore) _, _, lookup_replaceEntry_self hold _, .one _ _,
      fun _ => ⟨_, _, rfl, hmore⟩⟩
  · cases h

theorem addSection?_lookup {isElement : Bool} {pairs : List (List Text × Toml)}
    (h : addSection? isElement pairs (key :: path) entries = some new) :
    ∃ held, new.lookup key = some held ∧ HoldsTables held := by
  cases path with
  | nil =>
    obtain ⟨-, held, hlookup, htables, -⟩ := addSection?_last h
    exact ⟨held, hlookup, htables⟩
  | cons next path => exact (addSection?_descends h).lookup

theorem addSection?_grows {isElement : Bool} {pairs : List (List Text × Toml)}
    (h : addSection? isElement pairs path entries = some new) : Grows entries new := by
  induction path generalizing entries new with
  | nil => cases h
  | cons key path ih =>
    cases path with
    | nil => exact (addSection?_last h).1
    | cons next path => exact (addSection?_descends h).grows fun _ _ => ih

def addSections? (sections : List Section) (entries : Entries) : Option Entries :=
  sections.foldlM (fun entries s => addSection? s.isElement s.pairs s.path entries) entries

theorem addSections?_cons (s : Section) (sections : List Section) (entries : Entries) :
    addSections? (s :: sections) entries =
      (addSection? s.isElement s.pairs s.path entries).bind (addSections? sections) := rfl

theorem addSections?_grows {sections : List Section}
    (h : addSections? sections entries = some new) : Grows entries new := by
  induction sections generalizing entries with
  | nil =>
    obtain rfl := Option.some.inj h
    exact .refl _
  | cons s sections ih =>
    rw [addSections?_cons] at h
    obtain ⟨more, hmore, h⟩ := Option.bind_eq_some_iff.mp h
    exact (addSection?_grows hmore).trans (ih h)

end FirmwareBuild.Toml
