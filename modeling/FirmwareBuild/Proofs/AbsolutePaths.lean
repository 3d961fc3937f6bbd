import FirmwareBuild.Proofs.PathNames

/-! # Absolute forms of paths

The absolute form of a path is spelled in one way: one slash or two, names with single
slashes between them, none of them a dot, and perhaps a slash at the end
(`absolute?_isSpelled`). A path that is spelled so is its own absolute form, whatever the working
directory is (`IsSpelled.absolute?_eq`). -/

namespace FirmwareBuild

namespace Pathname

structure IsStep (name : Bytes) : Prop where
  notEmpty : name ≠ []
  noSlash : slash ∉ name
  notHere : name ≠ here

theorem IsName.isStep {name : Bytes} (h : IsName name) : IsStep name :=
  ⟨h.notEmpty, h.noSlash, h.notHere⟩

theorem isStep_of_mem {path name : Bytes} (h : name ∈ (names path).filter (· ≠ here)) :
    IsStep name := by
  obtain ⟨hm, hhere⟩ := List.mem_filter.mp h
  obtain ⟨hne, hslash⟩ := mem_names hm
  exact ⟨hne, hslash, of_decide_eq_true hhere⟩

/-! ## Joined names -/

def below (parts : List Bytes) : Bytes := parts.flatMap (slash :: ·)

theorem endsInSlash_append_name (front : Bytes) {name : Bytes} (h : IsStep name) :
    endsInSlash (front ++ name) = false := by
  have hlast : name.getLast h.notEmpty ≠ slash := fun he =>
    h.noSlash (he ▸ List.getLast_mem h.notEmpty)
  rw [endsInSlash, List.getLast?_append, List.getLast?_eq_some_getLast h.notEmpty, Option.some_or]
  exact beq_eq_false_iff_ne.mpr fun he => hlast (Option.some.inj he)

theorem join_name {base name : Bytes} (hne : base ≠ []) (hbase : endsInSlash base = false)
    (h : IsStep name) : join base name = base ++ slash :: name := by
  rw [join, isAbsolute_of_not_mem h.noSlash, if_neg Bool.false_ne_true, hbase,
    List.isEmpty_eq_false_iff.mpr hne]
  rfl

theorem foldl_join_below {base : Bytes} {parts : List Bytes} (hne : base ≠ [])
    (hbase : endsInSlash base = false) (h : ∀ part ∈ parts, IsStep part) :
    parts.foldl join base = base ++ below parts ∧ endsInSlash (base ++ below parts) = false := by
  induction parts generalizing base with
  | nil => exact ⟨(List.append_nil base).symm, by rwa [below, List.flatMap_nil, List.append_nil]⟩
  | cons part rest ih =>
    have hpart := h part List.mem_cons_self
    have hstep := join_name hne hbase hpart
    have hends : endsInSlash (base ++ slash :: part) = false := by
      rw [List.append_cons]
      exact endsInSlash_append_name _ hpart
    have hrest := ih (by simp) hends fun other ho => h other (List.mem_cons_of_mem _ ho)
    rw [List.append_assoc] at hrest
    rw [List.foldl_cons, hstep]
    exact hrest

/-! ## How an absolute form is spelled -/

/-- A path from what it starts with, its names, and whether it ends in a slash. -/
def spell (start : Bytes) (parts : List Bytes) (isStrict : Bool) : Bytes :=
  if isStrict then join (parts.foldl join start) [] else parts.foldl join start

/-- What an absolute form starts with. Two slashes are not the same as one. -/
def head (isDouble : Bool) : Bytes := if isDouble then [slash, slash] else [slash]

/-- A path is spelled as absolute forms are. -/
def IsSpelled (path : Bytes) : Prop :=
  ∃ isDouble parts isStrict, (∀ part ∈ parts, IsStep part) ∧
    path = spell (head isDouble) parts isStrict

theorem absolute?_eq_spell {cwd path : Bytes} (h : path ≠ []) : absolute? cwd path =
    some (spell (absoluteStart cwd path) ((names path).filter (· ≠ here)) (endsInSlash path)) := by
  rw [absolute?, if_neg (by simpa using h)]
  rfl

theorem endsInSlash_head (isDouble : Bool) : endsInSlash (head isDouble) = true := by
  cases isDouble <;> rfl

theorem join_head (isDouble : Bool) {name : Bytes} (h : slash ∉ name) :
    join (head isDouble) name = head isDouble ++ name := by
  rw [join, isAbsolute_of_not_mem h, if_neg Bool.false_ne_true, endsInSlash_head, Bool.or_true,
    if_pos rfl]

section Spell
variable {isDouble isStrict : Bool} {first : Bytes} {rest parts : List Bytes}

theorem names_spell {start : Bytes} (h : ∀ part ∈ parts, IsStep part) :
    names (spell start parts isStrict) = names start ++ parts := by
  have hbody := names_foldl_join start fun part hp => ⟨(h part hp).notEmpty, (h part hp).noSlash⟩
  cases isStrict with
  | false => exact hbody
  | true =>
    change names (join _ []) = _
    rw [names_join _ rfl, names_nil, List.append_nil, hbody]

theorem spell_nil : spell (head isDouble) [] isStrict = head isDouble := by
  cases isStrict
  · rfl
  · exact (join_head isDouble List.not_mem_nil).trans (List.append_nil _)

theorem foldl_join_head (isDouble : Bool) (h : ∀ part ∈ first :: rest, IsStep part) :
    (first :: rest).foldl join (head isDouble) = head isDouble ++ first ++ below rest ∧
      endsInSlash (head isDouble ++ first ++ below rest) = false := by
  have hfirst := h first List.mem_cons_self
  rw [List.foldl_cons, join_head _ hfirst.noSlash]
  exact foldl_join_below (List.append_ne_nil_of_right_ne_nil _ hfirst.notEmpty)
    (endsInSlash_append_name _ hfirst) fun other ho => h other (List.mem_cons_of_mem _ ho)

theorem spell_cons (isDouble isStrict : Bool) (h : ∀ part ∈ first :: rest, IsStep part) :
    spell (head isDouble) (first :: rest) isStrict =
        head isDouble ++ first ++ below rest ++ (if isStrict then [slash] else []) ∧
      endsInSlash (spell (head isDouble) (first :: rest) isStrict) = isStrict := by
  obtain ⟨hbody, hends⟩ := foldl_join_head isDouble h
  rw [spell, hbody]
  cases isStrict with
  | false => exact ⟨(List.append_nil _).symm, hends⟩
  | true =>
    have hjoin : join (head isDouble ++ first ++ below rest) [] =
        head isDouble ++ first ++ below rest ++ [slash] := by
      have hne : (head isDouble ++ first ++ below rest).isEmpty = false := by
        cases isDouble <;> rfl
      rw [join, hne, hends]
      rfl
    rw [if_pos rfl, hjoin]
    exact ⟨rfl, endsInSlash_iff.mpr ⟨_, rfl⟩⟩

theorem absoluteStart_head (cwd : Bytes) {octet : UInt8} (back : Bytes) (h : octet ≠ slash) :
    absoluteStart cwd (head isDouble ++ octet :: back) = head isDouble := by
  cases isDouble with
  | false =>
    have hone : ¬ [slash, octet] = [slash, slash] := by simpa using h
    exact if_neg fun htwo => hone htwo.1
  | true =>
    have hthree : [slash, slash, octet] ≠ [slash, slash, slash] := by simpa using h
    exact if_pos ⟨rfl, hthree⟩

/-- **An absolute form is its own absolute form, whatever the working directory is.** -/
theorem IsSpelled.absolute?_eq {path : Bytes} (h : IsSpelled path) (cwd : Bytes) :
    absolute? cwd path = some path := by
  obtain ⟨isDouble, parts, isStrict, hparts, rfl⟩ := h
  have hnames : names (spell (head isDouble) parts isStrict) = parts := by
    rw [names_spell hparts]
    cases isDouble <;> rfl
  have hkept : parts.filter (· ≠ here) = parts :=
    List.filter_eq_self.mpr fun part hp => decide_eq_true (hparts part hp).notHere
  cases parts with
  | nil =>
    rw [spell_nil]
    cases isDouble <;> rfl
  | cons first rest =>
    obtain ⟨hspell, hends⟩ := spell_cons isDouble isStrict hparts
    have hstart : spell (head isDouble) (first :: rest) isStrict ≠ [] ∧
        absoluteStart cwd (spell (head isDouble) (first :: rest) isStrict) = head isDouble := by
      have hfirst := hparts first List.mem_cons_self
      obtain ⟨octet, more, rfl⟩ := List.exists_cons_of_ne_nil hfirst.notEmpty
      have hoctet : octet ≠ slash := fun he => hfirst.noSlash (he ▸ List.mem_cons_self)
      rw [hspell, List.append_assoc, List.append_assoc, List.cons_append]
      exact ⟨List.append_ne_nil_of_right_ne_nil _ (List.cons_ne_nil _ _),
        absoluteStart_head cwd _ hoctet⟩
    rw [absolute?_eq_spell hstart.1, hstart.2, hnames, hkept, hends]

end Spell

/-- A location is spelled with one slash at the start and none at the end. -/
theorem foldl_join_pathOf {location : Location} (h : ∀ name ∈ location, IsName name) :
    location.foldl join [slash] = Disk.pathOf location := by
  cases location with
  | nil => rfl
  | cons first rest => exact (foldl_join_head false fun name hn => (h name hn).isStep).1

/-- The absolute form of a path is spelled as all absolute forms are. -/
theorem absolute?_isSpelled {cwd path full : Bytes} (h : absolute? cwd path = some full)
    (hcwd : isAbsolute path = false →
      ∃ location, (∀ name ∈ location, IsName name) ∧ cwd = Disk.pathOf location) :
    IsSpelled full := by
  have hne : path ≠ [] := by
    rintro rfl
    cases h
  have hparts : ∀ part ∈ (names path).filter (· ≠ here), IsStep part := fun _ => isStep_of_mem
  rw [absolute?_eq_spell hne] at h
  obtain rfl := Option.some.inj h
  rw [absoluteStart]
  split
  · exact ⟨true, _, _, hparts, rfl⟩
  · split
    · exact ⟨false, _, _, hparts, rfl⟩
    · rename_i hrelative
      obtain ⟨location, hl, rfl⟩ := hcwd (Bool.eq_false_iff.mpr hrelative)
      refine ⟨false, location ++ (names path).filter (· ≠ here), endsInSlash path, ?_, ?_⟩
      · intro part hp
        rcases List.mem_append.mp hp with hp | hp
        · exact (hl part hp).isStep
        · exact hparts part hp
      · have hdown : location.foldl join (head false) = Disk.pathOf location :=
          foldl_join_pathOf hl
        rw [spell, spell, List.foldl_append, hdown]

end Pathname

namespace Disk
variable {disk : Disk} {path full : Bytes}

/-- The absolute form of an absolute path does not depend on the working directory. -/
theorem absolute_of_isAbsolute (h : Pathname.isAbsolute path = true)
    (hf : Pathname.absolute? [] path = some full) (disk : Disk) :
    disk.absolute path = .ok full := by
  have hne : path.isEmpty = false := by
    cases path with
    | nil => cases h
    | cons octet rest => rfl
  rw [absolute, hne, if_neg Bool.false_ne_true, h, if_pos rfl]
  dsimp only
  rw [hf]

/-- **The absolute form of an absolute form is that form, seen from any working directory.** -/
theorem IsRooted.absolute_absolute (h : disk.IsRooted) (hp : disk.absolute path = .ok full)
    (other : Disk) : other.absolute full = .ok full := by
  refine absolute_of_isAbsolute (h.absolute_names hp).1 ?_ other
  refine Pathname.IsSpelled.absolute?_eq ?_ []
  obtain ⟨location, hl⟩ := Option.isSome_iff_exists.mp h.placed
  have hnamed := h.locationFrom_named hl
  unfold absolute at hp
  split at hp
  · cases hp
  · rw [cwdPath?, hl] at hp
    cases habsolute : Pathname.isAbsolute path with
    | true =>
      rw [habsolute, if_pos rfl] at hp
      dsimp only at hp
      split at hp
      · rename_i result hresult
        obtain rfl := Except.ok.inj hp
        refine Pathname.absolute?_isSpelled hresult fun hrelative => ?_
        rw [habsolute] at hrelative
        cases hrelative
      · cases hp
    | false =>
      rw [habsolute, if_neg Bool.false_ne_true] at hp
      dsimp only [Option.map_some] at hp
      split at hp
      · rename_i result hresult
        obtain rfl := Except.ok.inj hp
        exact Pathname.absolute?_isSpelled hresult fun _ => ⟨location, hnamed, rfl⟩
      · cases hp

end Disk

end FirmwareBuild
