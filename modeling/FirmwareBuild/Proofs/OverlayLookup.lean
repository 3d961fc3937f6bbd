import FirmwareBuild.Overlay
import FirmwareBuild.Proofs.Utf8

/-! # What an overlay holds after a write

A variable is stored under one spelling and asked for under any name that is the
same by the naming rule. That a write goes to the spelling that a later question
finds is what all else rests on: `spelling?_set` says which spelling a name has
after a write, and `getBytes?_set` which value. -/

namespace FirmwareBuild.Overlay

/-! ## Names that are one by a naming rule -/

/-- Whether two names are one name. -/
def sameText (ignoreCase : Bool) (a b : Text) : Bool :=
  if ignoreCase then Text.sameLetters a b else a == b

@[simp] theorem sameText_refl (ignoreCase : Bool) (a : Text) : sameText ignoreCase a a = true := by
  simp [sameText, Text.sameLetters]

theorem sameText_symm {ignoreCase : Bool} {a b : Text} (h : sameText ignoreCase a b = true) :
    sameText ignoreCase b a = true := by
  cases ignoreCase <;> simp_all [sameText, Text.sameLetters]

/-- Names that are one are the same as the same names. -/
theorem sameText_congr {ignoreCase : Bool} {a b : Text} (h : sameText ignoreCase a b = true) :
    sameText ignoreCase a = sameText ignoreCase b := by
  funext c
  cases ignoreCase <;> simp_all [sameText, Text.sameLetters]

@[simp] theorem sameName_encode (ignoreCase : Bool) (a b : Text) :
    sameName ignoreCase (Utf8.encode a) b = sameText ignoreCase a b := by
  rw [Bool.eq_iff_iff]
  cases ignoreCase <;> simp [sameName, sameText]

/-- A stored spelling is found under all names that are one with a name it is found under. -/
theorem sameName_congr {ignoreCase : Bool} {stored : Bytes} {a : Text}
    (h : sameName ignoreCase stored a = true) :
    sameName ignoreCase stored = sameText ignoreCase a := by
  cases ignoreCase with
  | false =>
    obtain rfl : stored = Utf8.encode a := by simpa [sameName] using h
    funext b
    exact sameName_encode false a b
  | true =>
    simp only [sameName, if_true, Option.any_eq_true] at h
    obtain ⟨t, ht, hl⟩ := h
    funext b
    simp only [sameName, ht, if_true, Option.any_some]
    have hl : sameText true t a = true := hl
    exact congrFun (sameText_congr hl) b

/-- Whether two stored spellings are of one name: the same octets or, where case does not count,
two texts with the same letters. -/
def sameStored (ignoreCase : Bool) (a b : Bytes) : Bool :=
  a == b || (ignoreCase && (Utf8.decode? a).any fun s =>
    (Utf8.decode? b).any fun t => Text.sameLetters s t)

theorem sameStored_symm {ignoreCase : Bool} {a b : Bytes} (h : sameStored ignoreCase a b = true) :
    sameStored ignoreCase b a = true := by
  simp only [sameStored, Bool.or_eq_true, beq_iff_eq, Bool.and_eq_true, Option.any_eq_true] at h ⊢
  rcases h with rfl | ⟨hi, s, hs, t, ht, hl⟩
  · exact .inl rfl
  · have hl : sameText true s t = true := hl
    exact .inr ⟨hi, t, ht, s, hs, sameText_symm hl⟩

/-- A spelling that is one with the plain spelling of a name is found under that name. -/
theorem sameName_of_sameStored {ignoreCase : Bool} {a : Bytes} {name : Text}
    (h : sameStored ignoreCase a (Utf8.encode name) = true) :
    sameName ignoreCase a name = true := by
  simp only [sameStored, Utf8.decode?_encode, Option.any_some, Bool.or_eq_true, beq_iff_eq,
    Bool.and_eq_true] at h
  rcases h with rfl | ⟨hi, h⟩
  · simp
  · simpa [sameName, hi] using h

/-! ## Putting a variable among others -/

section Put
variable {name value : Bytes} {vars : List (Bytes × Bytes)}

theorem lookup_put (k : Bytes) :
    (put name value vars).lookup k = if k = name then some value else vars.lookup k := by
  induction vars with
  | nil => simp [put]
  | cons entry rest ih =>
    obtain ⟨n, v⟩ := entry
    simp only [put]
    split
    · simp only [List.lookup_cons]
      by_cases h : k = name
      · simp [h]
      · rw [beq_false_of_ne h, if_neg h]
    · split
      · rename_i h; subst h
        simp only [List.lookup_cons]
        by_cases h : k = name
        · simp [h]
        · rw [beq_false_of_ne h, if_neg h]
      · rename_i hne
        simp only [List.lookup_cons, ih]
        by_cases h : k = n
        · subst h; simp [Ne.symm hne]
        · rw [beq_false_of_ne h]

/-- No spelling goes, and their order stays. -/
theorem names_sublist_put : (vars.map Prod.fst).Sublist ((put name value vars).map Prod.fst) := by
  induction vars with
  | nil => simp
  | cons entry rest ih =>
    obtain ⟨n, v⟩ := entry
    simp only [put]
    split
    · exact List.sublist_cons_self _ _
    · split
      · rename_i h; subst h; exact List.Sublist.refl _
      · exact List.Sublist.cons_cons _ ih

/-- A spelling that is there already is not put there again. -/
theorem names_put_of_mem (hs : (vars.map Prod.fst).Pairwise (· < ·))
    (h : name ∈ vars.map Prod.fst) : (put name value vars).map Prod.fst = vars.map Prod.fst := by
  induction vars with
  | nil => simp at h
  | cons entry rest ih =>
    obtain ⟨n, v⟩ := entry
    simp only [List.map_cons, List.pairwise_cons] at hs
    simp only [List.map_cons, List.mem_cons] at h
    simp only [put]
    split
    · rename_i hlt
      rcases h with rfl | h
      · exact absurd hlt (List.lt_irrefl _)
      · exact absurd (List.lt_trans hlt (hs.1 _ h)) (List.lt_irrefl _)
    · split
      · rename_i he; subst he; rfl
      · rename_i hne
        simp only [List.map_cons]
        rw [ih hs.2 (h.resolve_left hne)]

/-- Which spelling is found first does not hang on one that is not looked for. -/
theorem find?_names_put_of_not {p : Bytes → Bool} (h : p name = false) :
    ((put name value vars).map Prod.fst).find? p = (vars.map Prod.fst).find? p := by
  induction vars with
  | nil => simp [put, h]
  | cons entry rest ih =>
    obtain ⟨n, v⟩ := entry
    simp only [put]
    split
    · simp [h]
    · split
      · rename_i he; subst he; simp [h]
      · simp only [List.map_cons, List.find?_cons, ih]

/-- The only spelling that is looked for is found. -/
theorem find?_names_put_of_none {p : Bytes → Bool} (h : p name = true)
    (hn : (vars.map Prod.fst).find? p = none) :
    ((put name value vars).map Prod.fst).find? p = some name := by
  induction vars with
  | nil => simp [put, h]
  | cons entry rest ih =>
    obtain ⟨n, v⟩ := entry
    simp only [List.map_cons, List.find?_cons] at hn
    have hpn : p n = false := by
      cases hp : p n with
      | false => rfl
      | true => simp [hp] at hn
    simp only [hpn] at hn
    simp only [put]
    split
    · simp [h]
    · split
      · rename_i he; subst he; rw [h] at hpn; cases hpn
      · simp only [List.map_cons, List.find?_cons, hpn]
        exact ih hn

end Put

/-! ## Writing and asking -/

def names (env : Overlay) : List Bytes := env.vars.map Prod.fst

/-- Where a write to the variable called `name` goes. -/
def target (env : Overlay) (name : Text) : Bytes := (env.spelling? name).getD (Utf8.encode name)

section Set
variable (env : Overlay) (name other : Text) (value : Bytes)

theorem spelling?_spec {env : Overlay} {name : Text} {k : Bytes} (h : env.spelling? name = some k) :
    k ∈ env.names ∧ sameName env.ignoreCase k name = true :=
  ⟨List.mem_of_find?_eq_some h,
    by simpa using List.find?_some (p := (sameName env.ignoreCase · name)) h⟩

theorem sameName_target :
    sameName env.ignoreCase (env.target name) = sameText env.ignoreCase name := by
  apply sameName_congr
  unfold target
  cases h : env.spelling? name with
  | none => simp
  | some k => exact (spelling?_spec h).2

theorem names_sublist_set : env.names.Sublist (env.set name value).names := names_sublist_put

theorem mem_names_set {env : Overlay} {name : Text} {value k : Bytes} :
    k ∈ (env.set name value).names ↔ k = env.target name ∨ k ∈ env.names := mem_names_put

/-- A variable that is there gets no second spelling. -/
theorem names_set_of_contains {env : Overlay} {name : Text} (h : env.contains name = true) :
    (env.set name value).names = env.names := by
  obtain ⟨k, hk⟩ := Option.isSome_iff_exists.mp h
  have hm : env.target name ∈ env.names := by
    simpa [target, hk] using (spelling?_spec hk).1
  exact names_put_of_mem env.sorted hm

theorem lookup_set (k : Bytes) :
    (env.set name value).lookup k = if k = env.target name then some value else env.lookup k :=
  lookup_put k

/-- Names that are one have one spelling. -/
theorem spelling?_congr {env : Overlay} {a b : Text} (h : sameText env.ignoreCase a b = true) :
    env.spelling? a = env.spelling? b := by
  have hs : (sameName env.ignoreCase · a) = (sameName env.ignoreCase · b) := by
    funext k
    cases ha : sameName env.ignoreCase k a with
    | true => rw [sameName_congr ha, h]
    | false =>
      cases hb : sameName env.ignoreCase k b with
      | false => rfl
      | true => rw [sameName_congr hb, sameText_symm h] at ha; cases ha
  unfold spelling?
  rw [hs]

/-- **A write goes where a later question looks.** All names that are one with the written one
have the spelling that was written; the spellings of all other names stay. -/
theorem spelling?_set :
    (env.set name value).spelling? other =
      if sameText env.ignoreCase name other then some (env.target name)
      else env.spelling? other := by
  by_cases h : sameText env.ignoreCase name other = true
  · have hone : (env.set name value).spelling? name = (env.set name value).spelling? other :=
      spelling?_congr h
    rw [if_pos h, ← hone]
    change ((env.set name value).names).find? (sameName env.ignoreCase · name) = _
    cases hs : env.spelling? name with
    | some k =>
      rw [names_set_of_contains value (by simp [contains, hs])]
      rw [target, hs]
      exact hs
    | none =>
      have hp : sameName env.ignoreCase (env.target name) name = true := by
        rw [sameName_target]; exact sameText_refl _ _
      exact find?_names_put_of_none hp hs
  · rw [if_neg h]
    apply find?_names_put_of_not
    change sameName env.ignoreCase (env.target name) other = false
    rw [sameName_target]
    exact Bool.not_eq_true _ ▸ h

/-- The value that a name has after a write. -/
theorem getBytes?_set :
    (env.set name value).getBytes? other =
      if sameText env.ignoreCase name other then some value else env.getBytes? other := by
  unfold getBytes?
  rw [spelling?_set]
  by_cases h : sameText env.ignoreCase name other = true
  · rw [if_pos h, if_pos h, Option.bind_some, lookup_set, if_pos rfl]
  · rw [if_neg h, if_neg h]
    cases hs : env.spelling? other with
    | none => rfl
    | some k =>
      have hne : k ≠ env.target name := by
        rintro rfl
        have hk := (spelling?_spec hs).2
        rw [sameName_target] at hk
        exact h hk
      rw [Option.bind_some, Option.bind_some, lookup_set, if_neg hne]

@[simp] theorem getBytes?_set_self : (env.set name value).getBytes? name = some value := by
  rw [getBytes?_set, if_pos (sameText_refl _ _)]

/-- The name of a variable that is there has a value. -/
theorem contains_eq_isSome : env.contains name = (env.getBytes? name).isSome := by
  unfold contains getBytes?
  cases hs : env.spelling? name with
  | none => rfl
  | some k =>
    obtain ⟨entry, hm, hk⟩ := List.mem_map.mp (spelling?_spec hs).1
    have hl : (env.vars.lookup k).isSome = true :=
      List.lookup_isSome_iff.mpr ⟨entry, hm, by simp [hk]⟩
    exact hl.symm

/-- Names that are one have one value. -/
theorem getBytes?_congr {env : Overlay} {a b : Text} (h : sameText env.ignoreCase a b = true) :
    env.getBytes? a = env.getBytes? b := by
  unfold getBytes?
  rw [spelling?_congr h]

end Set

end FirmwareBuild.Overlay
