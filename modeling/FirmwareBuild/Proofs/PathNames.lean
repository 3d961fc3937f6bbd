import FirmwareBuild.Proofs.RootedTrees
import FirmwareBuild.Staging

/-! # The names of a path

Joining, cutting and completing paths is done on their octets, but all that counts
of a path is the list of its names. The absolute form of a path has the names of the
working directory in front of its own (`absolute_names`), and the path above another
one has a start of its names (`parent?_names`). -/

namespace FirmwareBuild

/-- Pieces without separators are the pieces of the text that they are joined to. -/
theorem Text.split_join {sep : UInt8} : ∀ {pieces : List Bytes}, pieces ≠ [] →
    (∀ piece ∈ pieces, sep ∉ piece) → split sep (join [sep] pieces) = pieces
  | [], hne, _ => absurd rfl hne
  | [piece], _, hsep => by
    have hjoin : join [sep] [piece] = piece := by simp [join]
    rw [hjoin, split_of_not_mem (hsep piece List.mem_cons_self)]
  | piece :: next :: rest, _, hsep => by
    have hrest := split_join (List.cons_ne_nil next rest) fun other ho =>
      hsep other (List.mem_cons_of_mem _ ho)
    rw [join_cons_of_ne_nil _ _ (List.cons_ne_nil next rest), List.append_assoc,
      List.singleton_append, split_append_cons, split_of_not_mem (hsep piece List.mem_cons_self),
      hrest, List.singleton_append]

namespace Pathname

@[simp] theorem names_nil : names [] = [] := rfl

theorem names_append_slash (front back : Bytes) :
    names (front ++ slash :: back) = names front ++ names back := by
  rw [names, Text.split_append_cons, List.filter_append]
  rfl

theorem mem_names {path name : Bytes} (h : name ∈ names path) : name ≠ [] ∧ slash ∉ name := by
  obtain ⟨hm, hne⟩ := List.mem_filter.mp h
  exact ⟨of_decide_eq_true hne, Text.not_mem_of_mem_split hm⟩

theorem names_of_name {name : Bytes} (hne : name ≠ []) (hslash : slash ∉ name) :
    names name = [name] := by
  rw [names, Text.split_of_not_mem hslash]
  exact List.filter_cons_of_pos (decide_eq_true hne)

theorem isAbsolute_of_not_mem {path : Bytes} (h : slash ∉ path) : isAbsolute path = false := by
  cases path with
  | nil => rfl
  | cons octet rest =>
    have hne : octet ≠ slash := fun he => h (he ▸ List.mem_cons_self)
    simpa [isAbsolute] using hne

theorem isAbsolute_iff {path : Bytes} : isAbsolute path = true ↔ ∃ rest, path = slash :: rest := by
  cases path with
  | nil => simp [isAbsolute]
  | cons octet rest => simp [isAbsolute]

theorem endsInSlash_iff {path : Bytes} :
    endsInSlash path = true ↔ ∃ front, path = front ++ [slash] := by
  rw [endsInSlash, beq_iff_eq]
  exact List.getLast?_eq_some_iff

theorem names_join (base : Bytes) {path : Bytes} (h : isAbsolute path = false) :
    names (join base path) = names base ++ names path := by
  rw [join, h, if_neg Bool.false_ne_true]
  split
  · rename_i hbase
    rcases Bool.or_eq_true_iff.mp hbase with hempty | hslash
    · rw [List.isEmpty_iff.mp hempty]
      rfl
    · obtain ⟨front, rfl⟩ := endsInSlash_iff.mp hslash
      rw [List.append_assoc, List.singleton_append, names_append_slash, names_append_slash,
        names_nil, List.append_nil]
  · exact names_append_slash base path

theorem isAbsolute_join (base : Bytes) {path : Bytes} (h : isAbsolute path = false) :
    isAbsolute (join base path) = isAbsolute base := by
  rw [join, h, if_neg Bool.false_ne_true]
  cases base with
  | nil => exact h
  | cons octet rest => split <;> rfl

theorem names_foldl_join (start : Bytes) {parts : List Bytes}
    (h : ∀ part ∈ parts, part ≠ [] ∧ slash ∉ part) :
    names (parts.foldl join start) = names start ++ parts := by
  induction parts generalizing start with
  | nil => exact (List.append_nil _).symm
  | cons part rest ih =>
    obtain ⟨hne, hslash⟩ := h part List.mem_cons_self
    rw [List.foldl_cons, ih (join start part) fun other ho => h other (List.mem_cons_of_mem _ ho),
      names_join start (isAbsolute_of_not_mem hslash), names_of_name hne hslash, List.append_assoc,
      List.singleton_append]

theorem isAbsolute_foldl_join (start : Bytes) {parts : List Bytes}
    (h : ∀ part ∈ parts, slash ∉ part) :
    isAbsolute (parts.foldl join start) = isAbsolute start := by
  induction parts generalizing start with
  | nil => rfl
  | cons part rest ih =>
    have hpart := isAbsolute_of_not_mem (h part List.mem_cons_self)
    rw [List.foldl_cons, ih (join start part) fun other ho => h other (List.mem_cons_of_mem _ ho),
      isAbsolute_join start hpart]

def absoluteStart (cwd path : Bytes) : Bytes :=
  if path.take 2 = [slash, slash] ∧ path.take 3 ≠ [slash, slash, slash] then [slash, slash]
  else if isAbsolute path then [slash]
  else cwd

theorem absolute?_names {cwd path full : Bytes} (h : absolute? cwd path = some full) :
    names full = names (absoluteStart cwd path) ++ (names path).filter (· ≠ here) ∧
      isAbsolute full = isAbsolute (absoluteStart cwd path) := by
  have hparts : ∀ part ∈ (names path).filter (· ≠ here), part ≠ [] ∧ slash ∉ part :=
    fun part hp => mem_names (List.mem_filter.mp hp).1
  have hbody := names_foldl_join (absoluteStart cwd path) hparts
  have habsolute := isAbsolute_foldl_join (absoluteStart cwd path) fun part hp => (hparts part hp).2
  unfold absolute? at h
  split at h
  · cases h
  · obtain rfl := Option.some.inj h
    change names (if endsInSlash path then join (_ : Bytes) [] else _) = _ ∧
      isAbsolute (if endsInSlash path then join (_ : Bytes) [] else _) = _
    split
    · refine ⟨(names_join _ rfl).trans ?_, (isAbsolute_join _ rfl).trans habsolute⟩
      rw [names_nil, List.append_nil]
      exact hbody
    · exact ⟨hbody, habsolute⟩

/-- The path above another one has a start of its names, without the last. -/
theorem parent?_names {path above : Bytes} (h : parent? path = some above)
    (habsolute : isAbsolute path = true) :
    isAbsolute above = true ∧ names above <+: (names path).dropLast := by
  obtain ⟨rest, rfl⟩ := isAbsolute_iff.mp habsolute
  have hone : slash :: rest ≠ here ∧ [slash] ≠ here := ⟨by simp [here, slash], by decide⟩
  -- the path above is the slash with what is left of the pieces without their last name
  simp only [parent?, habsolute, Bool.true_or, if_true, List.take_succ_cons, List.take_zero,
    List.drop_succ_cons, List.drop_zero] at h
  generalize hp : dropIdle (Text.split slash rest) = pieces at h
  split at h
  · rw [if_neg hone.2] at h
    cases h
  · rename_i hne
    obtain rfl := Option.some.inj h
    refine ⟨rfl, ?_⟩
    have hpieces : pieces ≠ [] := fun he => hne (List.isEmpty_iff.mpr he)
    have hfront : pieces <+: Text.split slash rest := by
      rw [← hp]
      exact dropEnd_le isIdle _
    have hlast : pieces.getLast hpieces ≠ [] := by
      subst hp
      exact getLast_dropIdle_ne_nil hpieces
    have hshort : dropIdle pieces.dropLast <+: pieces.dropLast := dropEnd_le isIdle _
    -- the names above are the pieces that are left, but for empty ones
    have habove : names (slash :: Text.join [slash] (dropIdle pieces.dropLast)) =
        (dropIdle pieces.dropLast).filter (· ≠ []) := by
      have hslash : ∀ piece ∈ dropIdle pieces.dropLast, slash ∉ piece := by
        intro piece hm
        exact Text.not_mem_of_mem_split
          (hfront.subset ((List.dropLast_prefix _).subset (hshort.subset hm)))
      have hsplit := names_append_slash [] (Text.join [slash] (dropIdle pieces.dropLast))
      rw [names_nil, List.nil_append, List.nil_append] at hsplit
      rw [hsplit, names]
      by_cases hnil : dropIdle pieces.dropLast = []
      · rw [hnil]
        rfl
      · rw [Text.split_join hnil hslash]
    have hnames : names (slash :: rest) = (Text.split slash rest).filter (· ≠ []) := by
      have hsplit := names_append_slash [] rest
      rw [names_nil, List.nil_append, List.nil_append] at hsplit
      rw [hsplit, names]
    have hcut : pieces.dropLast.filter (· ≠ []) <+:
        ((Text.split slash rest).filter (· ≠ [])).dropLast := by
      obtain ⟨back, hback⟩ := hfront
      rw [← hback, ← List.dropLast_concat_getLast hpieces, List.dropLast_concat, List.append_assoc,
        List.filter_append, List.singleton_append, List.filter_cons_of_pos (by simpa using hlast),
        List.dropLast_append_of_ne_nil (List.cons_ne_nil _ _)]
      exact List.prefix_append _ _
    change names (slash :: Text.join [slash] (dropIdle pieces.dropLast)) <+: _
    rw [habove, hnames]
    exact (hshort.filter _).trans hcut

end Pathname

namespace Disk

/-- The names of the absolute form of a path, seen from the working directory. -/
def route (disk : Disk) (path : Bytes) : List Bytes :=
  (if Pathname.isAbsolute path then [] else disk.cwdLocation?.getD []) ++
    (Pathname.names path).filter (· ≠ Pathname.here)

/-- The location that a path comes to, by its spelling. -/
def locationOf (disk : Disk) (path : Bytes) : Location := Pathname.follow [] (disk.route path)

theorem names_append_flatMap (front : Bytes) {location : Location}
    (h : ∀ name ∈ location, Pathname.IsName name) :
    Pathname.names (front ++ location.flatMap fun name => Pathname.slash :: name) =
      Pathname.names front ++ location := by
  induction location generalizing front with
  | nil => simp
  | cons name rest ih =>
    have hname := h name List.mem_cons_self
    have hrest := ih (front ++ Pathname.slash :: name) fun other ho =>
      h other (List.mem_cons_of_mem _ ho)
    rw [Pathname.names_append_slash, Pathname.names_of_name hname.notEmpty hname.noSlash] at hrest
    rw [List.flatMap_cons, ← List.append_assoc, hrest, List.append_assoc, List.singleton_append]

theorem names_pathOf {location : Location} (h : ∀ name ∈ location, Pathname.IsName name) :
    Pathname.names (pathOf location) = location ∧ Pathname.isAbsolute (pathOf location) = true := by
  cases location with
  | nil => exact ⟨by decide, rfl⟩
  | cons first rest =>
    have hnames := names_append_flatMap [] h
    rw [List.nil_append, Pathname.names_nil, List.nil_append] at hnames
    exact ⟨hnames, rfl⟩

namespace IsRooted
variable {disk : Disk} (h : disk.IsRooted)
include h

theorem locationFrom_named {steps number : Nat} {location : Location}
    (hl : disk.locationFrom steps number = some location) :
    ∀ name ∈ location, Pathname.IsName name := by
  induction steps generalizing number location with
  | zero => cases hl
  | succ steps ih =>
    rw [locationFrom] at hl
    split at hl
    · obtain rfl := Option.some.inj hl
      exact nofun
    · split at hl
      · rename_i parent entries hn
        obtain ⟨above, ha, hl⟩ := Option.bind_eq_some_iff.mp hl
        obtain ⟨holder, hh, hl⟩ := Option.bind_eq_some_iff.mp hl
        obtain ⟨entry, hf, hl⟩ := Option.bind_eq_some_iff.mp hl
        obtain rfl := Option.some.inj hl
        intro name hm
        rcases List.mem_append.mp hm with hm | hm
        · exact ih ha name hm
        · obtain rfl := List.mem_singleton.mp hm
          exact h.named ⟨parent, entry.1, entry.2⟩
            (mem_namings.mpr ⟨holder, hh, List.mem_of_find?_eq_some hf⟩)
      · cases hl

/-- **The absolute form of a path has the names of its route.** -/
theorem absolute_names {path full : Bytes} (hp : disk.absolute path = .ok full) :
    Pathname.isAbsolute full = true ∧ Pathname.names full = disk.route path := by
  obtain ⟨location, hl⟩ := Option.isSome_iff_exists.mp h.placed
  obtain ⟨hcwdNames, hcwdAbsolute⟩ := names_pathOf (h.locationFrom_named hl)
  unfold absolute at hp
  split at hp
  · cases hp
  · rw [cwdPath?, hl] at hp
    unfold route
    rw [hl]
    cases habsolute : Pathname.isAbsolute path with
    | true =>
      rw [habsolute, if_pos rfl] at hp
      dsimp only at hp
      split at hp
      · rename_i result hresult
        obtain rfl := Except.ok.inj hp
        obtain ⟨hnames, hstart⟩ := Pathname.absolute?_names hresult
        rw [hnames, hstart, Pathname.absoluteStart, habsolute, if_pos rfl]
        split
        · exact ⟨rfl, rfl⟩
        · exact ⟨rfl, rfl⟩
      · cases hp
    | false =>
      rw [habsolute, if_neg Bool.false_ne_true] at hp
      dsimp only [Option.map_some] at hp
      split at hp
      · rename_i result hresult
        obtain rfl := Except.ok.inj hp
        obtain ⟨hnames, hstart⟩ := Pathname.absolute?_names hresult
        have hslashes : ¬ (path.take 2 = [Pathname.slash, Pathname.slash] ∧
            path.take 3 ≠ [Pathname.slash, Pathname.slash, Pathname.slash]) := by
          rintro ⟨htwo, -⟩
          cases path with
          | nil => cases htwo
          | cons octet rest =>
            rw [List.take_succ_cons] at htwo
            rw [(List.cons.inj htwo).1] at habsolute
            cases habsolute
        rw [hnames, hstart, Pathname.absoluteStart, if_neg hslashes, habsolute,
          if_neg Bool.false_ne_true, hcwdNames, hcwdAbsolute]
        exact ⟨rfl, rfl⟩
      · cases hp

theorem absolute_ok {path : Bytes} (hne : path ≠ []) : ∃ full, disk.absolute path = .ok full := by
  obtain ⟨location, hl⟩ := Option.isSome_iff_exists.mp h.placed
  have hempty : path.isEmpty = false := List.isEmpty_eq_false_iff.mpr hne
  have habsolute (cwd : Bytes) : ∃ full, Pathname.absolute? cwd path = some full := by
    rw [Pathname.absolute?, hempty]
    exact ⟨_, rfl⟩
  unfold absolute
  rw [hempty, if_neg Bool.false_ne_true, cwdPath?, hl]
  split
  · rename_i hcwd
    split at hcwd <;> cases hcwd
  · rename_i cwd hcwd
    obtain ⟨full, hfull⟩ := habsolute cwd
    rw [hfull]
    exact ⟨full, rfl⟩

end IsRooted

end Disk

end FirmwareBuild
