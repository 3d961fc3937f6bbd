import FirmwareBuild.Proofs.RunFrame
import FirmwareBuild.Proofs.TextCuts
import FirmwareBuild.Toolchain.Resolution

/-! # The search for Visual Studio

What a search on a Windows host has to come to is said here by what holds of the
overlay, of the files and of the listing, not by the order in which they are looked
at: the place that counts is the last one of which something is true, a release is
known by a part of its place, and an older release by the first variable that is
text. Exactly one end of the search is right, and resolution comes to it
(`resolve_searches`). -/

namespace FirmwareBuild

/-! ## The last element that counts -/

/-- The last value of a partial function on a list: behind it the function has none. -/
theorem getLast?_filterMap_eq_some {α β : Type} {f : α → Option β} {xs : List α} {y : β} :
    (xs.filterMap f).getLast? = some y ↔
      ∃ front x back, xs = front ++ x :: back ∧ f x = some y ∧ ∀ z ∈ back, f z = none := by
  constructor
  · intro h
    induction xs with
    | nil => cases h
    | cons first rest ih =>
      rw [List.filterMap_cons] at h
      by_cases hr : rest.filterMap f = []
      · cases hf : f first with
        | none =>
          rw [hf, hr] at h
          cases h
        | some value =>
          rw [hf, hr] at h
          obtain rfl := Option.some.inj h
          exact ⟨[], first, rest, rfl, hf, List.filterMap_eq_nil_iff.mp hr⟩
      · have hlast : (rest.filterMap f).getLast? = some y := by
          cases hf : f first with
          | none => rwa [hf] at h
          | some value => rwa [hf, List.getLast?_cons_of_ne_nil hr] at h
        obtain ⟨front, x, back, rfl, hx, hback⟩ := ih hlast
        exact ⟨first :: front, x, back, rfl, hx, hback⟩
  · rintro ⟨front, x, back, rfl, hx, hback⟩
    rw [List.filterMap_append, List.filterMap_cons, hx, List.filterMap_eq_nil_iff.mpr hback]
    exact List.getLast?_concat

namespace VisualStudio

/-! ## What a search has to come to -/

section Search
variable (script : Text → Reply) (probe : Probe) (disk : Disk) (env : Overlay)

structure HasLocator (programFiles : Text) : Prop where
  reads : env.get? "ProgramFiles(x86)".toList = some programFiles
  there : probe.pathExists disk
    (programFiles ++ "/Microsoft Visual Studio/Installer/vswhere.exe".toList) = true

def question (programFiles : Text) : Command where
  argv := [programFiles ++ "/Microsoft Visual Studio/Installer/vswhere.exe".toList,
    "-all".toList, "-property".toList, "installationPath".toList]
  capture := true

/-- A line of a listing names a place if, trimmed, it is a directory. -/
def Names (line place : Text) : Prop :=
  Text.trim line = place ∧ place ≠ [] ∧ probe.isDirectory disk place = true

def NamesLast (listing place : Text) : Prop :=
  ∃ front line back, Text.lines listing = front ++ line :: back ∧ Names probe disk line place ∧
    ∀ other ∈ back, ∀ p, ¬ Names probe disk other p

inductive IsYear (place : Text) : Text → Prop where
  | newer (h : "\\Microsoft Visual Studio\\2019\\".toList <:+: place) :
    IsYear place "2019".toList
  | older (hn : ¬ "\\Microsoft Visual Studio\\2019\\".toList <:+: place)
      (h : "\\Microsoft Visual Studio\\2017\\".toList <:+: place) : IsYear place "2017".toList

def toolsVersion (place : Text) : Text :=
  Host.windows.join place ["VC\\Auxiliary\\Build\\Microsoft.VCToolsVersion.default.txt".toList]

/-- A listing leads to a place with the file of its version, where a release of that year is. -/
structure LeadsTo (listing place year : Text) : Prop where
  last : NamesLast probe disk listing place
  there : probe.pathExists disk (toolsVersion place) = true
  year : IsYear place year

def release (identifier year version path : Text) : Toolchain where
  identifier
  version
  installation := some { variableName := "VS".toList ++ year ++ "_PREFIX".toList, path }

/-- The version in the path of an older release is behind the name of the product in the last
component that starts with it. The year stands for it where there is none. -/
inductive IsVersion (path year : Text) : Text → Prop where
  | named {front back : List Text} {version : Text}
      (h : Text.split '\\' path = front ++ ("Microsoft Visual Studio ".toList ++ version) :: back)
      (last : ∀ part ∈ back, ¬ "Microsoft Visual Studio ".toList <+: part) :
    IsVersion path year version
  | unnamed (h : ∀ part ∈ Text.split '\\' path, ¬ "Microsoft Visual Studio ".toList <+: part) :
    IsVersion path year year

def IsOlder (path year : Text) (toolchain : Toolchain) : Prop :=
  ∃ version, IsVersion path year version ∧ toolchain =
    release ("VS".toList ++ year ++ "x86".toList) year version
      (Host.windows.join path ["..".toList, "..".toList] ++ "\\".toList)

inductive NamesOlder : Toolchain → Prop where
  | fourteen {path : Text} {toolchain : Toolchain} (h : env.get? "VS140COMNTOOLS".toList = some path)
      (older : IsOlder path "2015".toList toolchain) : NamesOlder toolchain
  | twelve {path : Text} {toolchain : Toolchain} (hn : env.get? "VS140COMNTOOLS".toList = none)
      (h : env.get? "VS120COMNTOOLS".toList = some path)
      (older : IsOlder path "2013".toList toolchain) : NamesOlder toolchain
  | neither (hn : env.get? "VS140COMNTOOLS".toList = none)
      (hn' : env.get? "VS120COMNTOOLS".toList = none) :
    NamesOlder { identifier := [], version := [], installation := none }

/-- A search launches some commands and comes to an end. -/
inductive Searches : List Command → Except BuildError Toolchain → Prop where
  /-- The locator fails, and so does the search. -/
  | refused {programFiles : Text} {e : BuildError} (locator : HasLocator probe disk env programFiles)
      (fails : Runner.reply script (question programFiles) = .error e) :
    Searches [question programFiles] (.error e)
  /-- The version of the release is what its file holds. -/
  | found {programFiles listing place year text : Text}
      (locator : HasLocator probe disk env programFiles)
      (answers : Runner.reply script (question programFiles) = .ok listing)
      (leads : LeadsTo probe disk listing place year)
      (reads : probe.readText disk (toolsVersion place) = .ok text) :
    Searches [question programFiles] (.ok (release ("VS".toList ++ year) year (Text.trim text)
      (Host.windows.join place ["VC".toList, "Tools".toList, "MSVC".toList, Text.trim text] ++
        "\\".toList)))
  | unreadable {programFiles listing place year : Text} {cause : IoError}
      (locator : HasLocator probe disk env programFiles)
      (answers : Runner.reply script (question programFiles) = .ok listing)
      (leads : LeadsTo probe disk listing place year)
      (reads : probe.readText disk (toolsVersion place) = .error cause) :
    Searches [question programFiles]
      (.error (.io .read (Utf8.encode (toolsVersion place)) cause))
  /-- The listing leads nowhere, and the variables of the older releases count. -/
  | useless {programFiles listing : Text} {toolchain : Toolchain}
      (locator : HasLocator probe disk env programFiles)
      (answers : Runner.reply script (question programFiles) = .ok listing)
      (nowhere : ∀ place year, ¬ LeadsTo probe disk listing place year)
      (older : NamesOlder env toolchain) : Searches [question programFiles] (.ok toolchain)
  /-- There is no locator to ask, and they count too. -/
  | unasked {toolchain : Toolchain} (nothing : ∀ p, ¬ HasLocator probe disk env p)
      (older : NamesOlder env toolchain) : Searches [] (.ok toolchain)

end Search

/-! ## The parts of a search -/

section Parts
variable {script : Text → Reply} {probe : Probe} {disk : Disk} {env : Overlay}

theorem listedPlace?_eq_some {listing place : Text} :
    listedPlace? (probe.isDirectory disk) listing = some place ↔
      NamesLast probe disk listing place := by
  have hnames (line p : Text) : (fun line => Option.guard (fun line => !line.isEmpty &&
      probe.isDirectory disk line) (Text.trim line)) line = some p ↔ Names probe disk line p := by
    simp only [Option.guard_eq_some_iff, Names, Bool.and_eq_true, Bool.not_eq_true',
      List.isEmpty_eq_false_iff]
    constructor
    · rintro ⟨rfl, hne, hd⟩
      exact ⟨rfl, hne, hd⟩
    · rintro ⟨rfl, hne, hd⟩
      exact ⟨rfl, hne, hd⟩
  rw [listedPlace?, ← List.filterMap_eq_filter, List.filterMap_map]
  rw [getLast?_filterMap_eq_some, NamesLast]
  refine exists_congr fun front => exists_congr fun line => exists_congr fun back => ?_
  refine and_congr_right fun _ => and_congr (hnames line place) (forall₂_congr fun other _ => ?_)
  rw [Option.eq_none_iff_forall_ne_some]
  exact forall_congr' fun p => not_congr (hnames other p)

theorem isPlaceOf_iff (place year : Text) : isPlaceOf place year = true ↔
    "\\Microsoft Visual Studio\\".toList ++ year ++ "\\".toList <:+: place := Text.holds_iff

theorem yearOf?_eq_some {place year : Text} : yearOf? place = some year ↔ IsYear place year := by
  have hnewer := isPlaceOf_iff place "2019".toList
  have holder := isPlaceOf_iff place "2017".toList
  rw [yearOf?, locatedYears, List.find?_cons, List.find?_cons, List.find?_nil]
  -- the newer year is asked for first, so the older one counts only without it
  cases h19 : isPlaceOf place "2019".toList with
  | true =>
    rw [h19] at hnewer
    constructor
    · intro h
      obtain rfl := Option.some.inj h
      exact .newer (hnewer.mp rfl)
    · rintro (_ | ⟨hn, -⟩)
      · rfl
      · exact absurd (hnewer.mp rfl) hn
  | false =>
    rw [h19] at hnewer
    have hn : ¬ "\\Microsoft Visual Studio\\2019\\".toList <:+: place :=
      fun h => Bool.false_ne_true (hnewer.mpr h)
    cases h17 : isPlaceOf place "2017".toList with
    | true =>
      rw [h17] at holder
      constructor
      · intro h
        obtain rfl := Option.some.inj h
        exact .older hn (holder.mp rfl)
      · rintro (h | ⟨-, -⟩)
        · exact absurd h hn
        · rfl
    | false =>
      rw [h17] at holder
      constructor
      · intro h
        cases h
      · rintro (h | ⟨-, h⟩)
        · exact absurd h hn
        · exact absurd (holder.mpr h) Bool.false_ne_true

theorem leadsTo_iff {listing place year : Text} : LeadsTo probe disk listing place year ↔
    listedPlace? (probe.isDirectory disk) listing = some place ∧
      probe.pathExists disk (versionFile place) = true ∧ yearOf? place = some year := by
  rw [listedPlace?_eq_some, yearOf?_eq_some]
  exact ⟨fun h => ⟨h.last, h.there, h.year⟩, fun h => ⟨h.1, h.2.1, h.2.2⟩⟩

theorem dropProduct_eq_none {part : Text} :
    Text.dropStart? "Microsoft Visual Studio ".toList part = none ↔
      ¬ "Microsoft Visual Studio ".toList <+: part := by
  rw [← Text.dropStart?_isSome, Option.not_isSome_iff_eq_none]

theorem versionInPath?_eq_some {path version : Text} : versionInPath? path = some version ↔
    ∃ front back, Text.split '\\' path =
        front ++ ("Microsoft Visual Studio ".toList ++ version) :: back ∧
      ∀ part ∈ back, ¬ "Microsoft Visual Studio ".toList <+: part := by
  rw [versionInPath?, getLast?_filterMap_eq_some]
  constructor
  · rintro ⟨front, part, back, hsplit, hpart, hback⟩
    rw [Text.dropStart?_eq_some.mp hpart] at hsplit
    exact ⟨front, back, hsplit, fun other ho => dropProduct_eq_none.mp (hback other ho)⟩
  · rintro ⟨front, back, hsplit, hback⟩
    exact ⟨front, _, back, hsplit, Text.dropStart?_eq_some.mpr rfl,
      fun other ho => dropProduct_eq_none.mpr (hback other ho)⟩

theorem versionInPath?_eq_none {path : Text} : versionInPath? path = none ↔
    ∀ part ∈ Text.split '\\' path, ¬ "Microsoft Visual Studio ".toList <+: part := by
  rw [versionInPath?, List.getLast?_eq_none_iff, List.filterMap_eq_nil_iff]
  exact forall₂_congr fun part _ => dropProduct_eq_none

theorem isVersion_iff {path year version : Text} :
    IsVersion path year version ↔ version = (versionInPath? path).getD year := by
  constructor
  · rintro (⟨hsplit, hlast⟩ | hno)
    · rw [versionInPath?_eq_some.mpr ⟨_, _, hsplit, hlast⟩]
      rfl
    · rw [versionInPath?_eq_none.mpr hno]
      rfl
  · rintro rfl
    cases hv : versionInPath? path with
    | none => exact .unnamed (versionInPath?_eq_none.mp hv)
    | some found =>
      obtain ⟨front, back, hsplit, hlast⟩ := versionInPath?_eq_some.mp hv
      exact .named hsplit hlast

theorem isOlder_iff {path year : Text} {toolchain : Toolchain} :
    IsOlder path year toolchain ↔ toolchain = legacy year path := by
  constructor
  · rintro ⟨version, hv, rfl⟩
    rw [isVersion_iff.mp hv]
    rfl
  · rintro rfl
    exact ⟨_, isVersion_iff.mpr rfl, rfl⟩

/-- The older release that resolution takes, with the variables written out. -/
theorem legacyIn_eq (env : Overlay) : legacyIn env =
    (((env.get? "VS140COMNTOOLS".toList).map (legacy "2015".toList)).or
      ((env.get? "VS120COMNTOOLS".toList).map (legacy "2013".toList))).getD .unresolved := by
  rw [legacyIn, legacyReleases, List.findSome?_cons, List.findSome?_cons, List.findSome?_nil]
  dsimp only
  cases env.get? "VS140COMNTOOLS".toList <;> cases env.get? "VS120COMNTOOLS".toList <;> rfl

theorem namesOlder_iff {toolchain : Toolchain} :
    NamesOlder env toolchain ↔ toolchain = legacyIn env := by
  rw [legacyIn_eq]
  constructor
  · rintro (⟨h, older⟩ | ⟨hn, h, older⟩ | ⟨hn, hn'⟩)
    · rw [h]
      exact isOlder_iff.mp older
    · rw [hn, h]
      exact isOlder_iff.mp older
    · rw [hn, hn']
      rfl
  · rintro rfl
    cases h14 : env.get? "VS140COMNTOOLS".toList with
    | some path => exact .fourteen h14 (isOlder_iff.mpr rfl)
    | none =>
      cases h12 : env.get? "VS120COMNTOOLS".toList with
      | some path => exact .twelve h14 h12 (isOlder_iff.mpr rfl)
      | none => exact .neither h14 h12

end Parts

/-! ## Resolution comes to the right end -/

section Resolution
variable {script : Text → Reply} {bench : Workbench} {s : Session}

def chosen (probe : Probe) (disk : Disk) (listing : Text) : Except BuildError (Option Toolchain) :=
  match listedPlace? (probe.isDirectory disk) listing with
  | none => .ok none
  | some place =>
    if probe.pathExists disk (versionFile place) then
      match yearOf? place with
      | none => .ok none
      | some year =>
        match probe.readText disk (versionFile place) with
        | .ok text => .ok (some (located place year text))
        | .error cause => .error (.io .read (Utf8.encode (versionFile place)) cause)
    else .ok none

theorem find?_unasked (h : ∀ p, ¬ HasLocator bench.probe s.disk s.env p) :
    find? bench s = .ok none s := by
  unfold find?
  rw [Run.get_bind]
  cases hp : s.env.get? programFilesName with
  | none => rfl
  | some programFiles =>
    have hthere : bench.probe.pathExists s.disk (locator programFiles) = false :=
      Bool.eq_false_iff.mpr fun ht => h programFiles ⟨hp, ht⟩
    dsimp only
    rw [if_neg (Bool.eq_false_iff.mp hthere)]
    rfl

theorem find?_asked (hr : bench.runner = .scripted script) {programFiles : Text}
    (h : HasLocator bench.probe s.disk s.env programFiles) :
    find? bench s = Run.ends s [question programFiles]
      (Runner.reply script (question programFiles) >>= chosen bench.probe s.disk) := by
  have hp : s.env.get? programFilesName = some programFiles := h.reads
  have hthere : bench.probe.pathExists s.disk (locator programFiles) = true := h.there
  unfold find?
  rw [Run.get_bind, hp, hr]
  dsimp only
  rw [if_pos hthere]
  cases hreply : Runner.reply script (question programFiles) with
  | error e => exact Run.bind_of_error (Runner.scripted_of_reply_error hreply s) _
  | ok listing =>
    refine (Run.bind_of_ok (Runner.scripted_of_reply_ok hreply s) _).trans ?_
    have hdisk : (Runner.launched s (question programFiles)).disk = s.disk := rfl
    rw [Run.get_bind, hdisk]
    simp only [bind, Except.bind, chosen]
    cases listedPlace? (bench.probe.isDirectory s.disk) listing with
    | none => rfl
    | some place =>
      dsimp only
      by_cases hv : bench.probe.pathExists s.disk (versionFile place) = true
      · rw [if_pos hv, if_pos hv]
        cases yearOf? place with
        | none => rfl
        | some year => cases bench.probe.readText s.disk (versionFile place) <;> rfl
      · rw [if_neg hv, if_neg hv]
        rfl

/-- The older releases count where nothing was found. -/
theorem resolve_of_find? {launched : List Command} {outcome : Except BuildError (Option Toolchain)}
    (h : find? bench s = Run.ends s launched outcome) :
    resolve bench s = Run.ends s launched (outcome.map (·.getD (legacyIn s.env))) := by
  unfold resolve
  cases outcome with
  | error e => exact Run.bind_of_error h _
  | ok found =>
    refine (Run.bind_of_ok h _).trans ?_
    cases found <;> rfl

end Resolution

section Ends
variable {script : Text → Reply} {probe : Probe} {disk : Disk} {env : Overlay}
variable {programFiles listing : Text} {launched : List Command}
variable {outcome : Except BuildError Toolchain}

theorem HasLocator.unique {other : Text} (h : HasLocator probe disk env programFiles)
    (h' : HasLocator probe disk env other) : other = programFiles :=
  Option.some.inj (h'.reads.symm.trans h.reads)

/-- A listing that leads somewhere comes to what the file of the version holds. -/
theorem chosen_leading {place year : Text} (h : LeadsTo probe disk listing place year) :
    chosen probe disk listing =
      match probe.readText disk (toolsVersion place) with
      | .ok text => .ok (some (located place year text))
      | .error cause => .error (.io .read (Utf8.encode (toolsVersion place)) cause) := by
  obtain ⟨hplace, hthere, hyear⟩ := leadsTo_iff.mp h
  rw [chosen, hplace]
  dsimp only
  rw [if_pos hthere, hyear]
  rfl

theorem chosen_nowhere (h : ∀ place year, ¬ LeadsTo probe disk listing place year) :
    chosen probe disk listing = .ok none := by
  rw [chosen]
  cases hplace : listedPlace? (probe.isDirectory disk) listing with
  | none => rfl
  | some place =>
    dsimp only
    by_cases hthere : probe.pathExists disk (versionFile place) = true
    · rw [if_pos hthere]
      cases hyear : yearOf? place with
      | none => rfl
      | some year => exact absurd (leadsTo_iff.mpr ⟨hplace, hthere, hyear⟩) (h place year)
    · rw [if_neg hthere]

theorem searches_unasked (h : ∀ p, ¬ HasLocator probe disk env p) :
    Searches script probe disk env launched outcome ↔
      launched = [] ∧ outcome = .ok (legacyIn env) := by
  constructor
  · rintro (⟨locator, -⟩ | ⟨locator, -, -, -⟩ | ⟨locator, -, -, -⟩ | ⟨locator, -, -, -⟩ | ⟨-, older⟩)
    · exact absurd locator (h _)
    · exact absurd locator (h _)
    · exact absurd locator (h _)
    · exact absurd locator (h _)
    · rw [namesOlder_iff.mp older]
      exact ⟨rfl, rfl⟩
  · rintro ⟨rfl, rfl⟩
    exact .unasked h (namesOlder_iff.mpr rfl)

theorem searches_asked (h : HasLocator probe disk env programFiles) :
    Searches script probe disk env launched outcome ↔ launched = [question programFiles] ∧
      outcome = (Runner.reply script (question programFiles) >>= chosen probe disk).map
        (·.getD (legacyIn env)) := by
  constructor
  · intro search
    -- every locator of the search is the one that there is, and its listing decides
    cases search with
    | refused locator fails =>
      obtain rfl := h.unique locator
      rw [fails]
      exact ⟨rfl, rfl⟩
    | found locator answers leads reads =>
      obtain rfl := h.unique locator
      rw [answers]
      refine ⟨rfl, ?_⟩
      simp only [bind, Except.bind, chosen_leading leads, reads]
      rfl
    | unreadable locator answers leads reads =>
      obtain rfl := h.unique locator
      rw [answers]
      refine ⟨rfl, ?_⟩
      simp only [bind, Except.bind, chosen_leading leads, reads]
      rfl
    | useless locator answers nowhere older =>
      obtain rfl := h.unique locator
      rw [answers]
      refine ⟨rfl, ?_⟩
      simp only [bind, Except.bind, chosen_nowhere nowhere, namesOlder_iff.mp older]
      rfl
    | unasked nothing older => exact absurd h (nothing _)
  · rintro ⟨rfl, rfl⟩
    cases hreply : Runner.reply script (question programFiles) with
    | error e => exact .refused h hreply
    | ok listing =>
      simp only [bind, Except.bind]
      by_cases hleads : ∃ place year, LeadsTo probe disk listing place year
      · obtain ⟨place, year, leads⟩ := hleads
        rw [chosen_leading leads]
        cases hread : probe.readText disk (toolsVersion place) with
        | ok text => exact .found h hreply leads hread
        | error cause => exact .unreadable h hreply leads hread
      · have nowhere : ∀ place year, ¬ LeadsTo probe disk listing place year :=
          fun place year leads => hleads ⟨place, year, leads⟩
        rw [chosen_nowhere nowhere]
        exact .useless h hreply nowhere (namesOlder_iff.mpr rfl)

end Ends

/-- On a Windows host resolution comes to the one end that a search has, and does nothing but
launch the commands of that search. -/
theorem resolve_searches (script : Text → Reply) (probe : Probe) (s : Session) :
    ∃ launched outcome,
      Toolchain.resolve ⟨.windows, .scripted script, probe⟩ s = Run.ends s launched outcome ∧
      ∀ launched' outcome', Searches script probe s.disk s.env launched' outcome' ↔
        launched' = launched ∧ outcome' = outcome := by
  by_cases h : ∃ programFiles, HasLocator probe s.disk s.env programFiles
  · obtain ⟨programFiles, locator⟩ := h
    exact ⟨_, _, resolve_of_find? (find?_asked rfl locator), fun _ _ => searches_asked locator⟩
  · have nothing : ∀ p, ¬ HasLocator probe s.disk s.env p := fun p locator => h ⟨p, locator⟩
    refine ⟨[], .ok (legacyIn s.env), ?_, fun _ _ => searches_unasked nothing⟩
    exact resolve_of_find? ((find?_unasked nothing).trans (Run.ends_nil_ok none s).symm)

end VisualStudio

end FirmwareBuild
