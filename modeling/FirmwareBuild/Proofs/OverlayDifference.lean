import FirmwareBuild.Proofs.OverlayFrame

/-! # The difference between two overlays

The difference lists what changed by its stored spelling, and a variable is written
under a name. Where calls led from the one overlay to the other, a spelling that
changed is text and the first of its name, so that a write under its own text goes
there (`IsLeading`). The listed changes can therefore be written again, in any
order, and give the overlay that they were taken from (`changesSince_replays`). -/

namespace FirmwareBuild.Overlay

open Text (lookup_eq_none lookup_eq_some)

/-! ## Writing the changes to what was there before -/

def insertAll (env : Overlay) (vars : List (Bytes × Bytes)) : Overlay :=
  vars.foldl (fun env assigned => env.insert assigned.1 assigned.2) env

theorem lookup_insertAll {vars : List (Bytes × Bytes)} (h : (vars.map Prod.fst).Nodup)
    (env : Overlay) (k : Bytes) :
    (env.insertAll vars).lookup k = (vars.lookup k).or (env.lookup k) := by
  induction vars generalizing env with
  | nil => rfl
  | cons assigned rest ih =>
    obtain ⟨name, value⟩ := assigned
    obtain ⟨hnew, hrest⟩ := List.nodup_cons.mp h
    have hinsert : (env.insert name value).lookup k =
        if k = name then some value else env.lookup k := lookup_put k
    change ((env.insert name value).insertAll rest).lookup k = _
    rw [ih hrest, hinsert, List.lookup_cons]
    by_cases hk : k = name
    · subst hk
      rw [lookup_eq_none.mpr hnew, if_pos rfl, beq_self_eq_true]
      rfl
    · rw [if_neg hk, beq_false_of_ne hk]

theorem insertAll_ignoreCase (env : Overlay) (vars : List (Bytes × Bytes)) :
    (env.insertAll vars).ignoreCase = env.ignoreCase := by
  induction vars generalizing env with
  | nil => rfl
  | cons assigned rest ih => exact ih (env.insert assigned.1 assigned.2)

theorem names_nodup (env : Overlay) : env.names.Nodup := by
  refine env.sorted.imp ?_
  rintro a b hlt rfl
  exact List.lt_irrefl a hlt

theorem mem_changesSince {env base : Overlay} {k value : Bytes} :
    (k, value) ∈ env.changesSince base ↔
      env.lookup k = some value ∧ base.lookup k ≠ some value := by
  rw [changesSince, List.mem_filter]
  exact and_congr (lookup_eq_some env.names_nodup).symm bne_iff_ne

theorem changesSince_nodup (env base : Overlay) :
    ((env.changesSince base).map Prod.fst).Nodup :=
  (List.filter_sublist.map Prod.fst).nodup env.names_nodup

/-- **The changes lead from one overlay to the other**, up to what is made of their values on the
way, if no variable was taken away. -/
theorem lookup_changed {env base : Overlay} (hkept : ∀ k ∈ base.names, k ∈ env.names)
    (f : Bytes → Bytes) (k : Bytes) :
    (base.insertAll ((env.changesSince base).map fun change => (change.1, f change.2))).lookup k =
      if env.lookup k = base.lookup k then env.lookup k else (env.lookup k).map f := by
  have hnames : ((env.changesSince base).map fun change => (change.1, f change.2)).map Prod.fst =
      (env.changesSince base).map Prod.fst := by simp
  have hnodup := hnames ▸ changesSince_nodup env base
  rw [lookup_insertAll hnodup]
  have hnone (h : ∀ value, (k, value) ∉ env.changesSince base) :
      ((env.changesSince base).map fun change => (change.1, f change.2)).lookup k = none := by
    rw [lookup_eq_none, hnames]
    intro hk
    obtain ⟨change, hm, rfl⟩ := List.mem_map.mp hk
    exact h change.2 hm
  by_cases heq : env.lookup k = base.lookup k
  · rw [if_pos heq, hnone, Option.none_or, heq]
    intro value hm
    obtain ⟨hnow, hbefore⟩ := mem_changesSince.mp hm
    exact hbefore (heq ▸ hnow)
  · rw [if_neg heq]
    cases hnow : env.lookup k with
    | none =>
      -- a variable that was taken away would come back with its inherited value
      have hbefore : base.lookup k = none :=
        lookup_eq_none.mpr fun hk => lookup_eq_none.mp hnow (hkept k hk)
      exact absurd (hnow.trans hbefore.symm) heq
    | some value =>
      have hchange : (k, value) ∈ env.changesSince base :=
        mem_changesSince.mpr ⟨hnow, fun hbefore => heq (hnow.trans hbefore.symm)⟩
      have hwritten : (k, f value) ∈
          (env.changesSince base).map fun change => (change.1, f change.2) :=
        List.mem_map.mpr ⟨(k, value), hchange, rfl⟩
      rw [(lookup_eq_some hnodup).mpr hwritten]
      rfl

/-- Overlays that hold the same under all spellings are the same. -/
theorem eq_of_lookup {a b : Overlay} (hrule : a.ignoreCase = b.ignoreCase)
    (h : ∀ k, a.lookup k = b.lookup k) : a = b := by
  have hsorted (env : Overlay) : env.vars.Pairwise fun x y => x.1 < y.1 :=
    List.pairwise_map.mp env.sorted
  have hnodup (env : Overlay) : env.vars.Nodup := by
    refine (hsorted env).imp ?_
    rintro x y hlt rfl
    exact List.lt_irrefl _ hlt
  have hmem : ∀ entry, entry ∈ a.vars ↔ entry ∈ b.vars := by
    rintro ⟨k, value⟩
    rw [← lookup_eq_some a.names_nodup, ← lookup_eq_some b.names_nodup]
    change a.lookup k = some value ↔ b.lookup k = some value
    rw [h k]
  have hvars : a.vars = b.vars := by
    refine List.Perm.eq_of_pairwise ?_ (hsorted a) (hsorted b)
      ((List.perm_ext_iff_of_nodup (hnodup a) (hnodup b)).mpr hmem)
    intro x y _ _ hxy hyx
    exact absurd (List.lt_trans hxy hyx) (List.lt_irrefl _)
  cases a
  cases b
  simp_all

/-! ## Spellings that a write under their own text goes to -/

/-- A spelling is a text, and the first that is found under this text. -/
def IsLeading (env : Overlay) (k : Bytes) : Prop :=
  ∃ t, k = Utf8.encode t ∧ env.spelling? t = some k

section Leading
variable {env : Overlay} {k : Bytes} {t : Text}

theorem text_of_sameName {ignoreCase : Bool} (h : sameName ignoreCase k t = true) :
    ∃ s, k = Utf8.encode s := by
  cases ignoreCase with
  | false => exact ⟨t, by simpa [sameName] using h⟩
  | true =>
    simp only [sameName, if_true, Option.any_eq_true] at h
    obtain ⟨s, hs, -⟩ := h
    exact ⟨s, (Utf8.decode?_eq_some.mp hs).symm⟩

theorem isLeading_set (env : Overlay) (name : Text) (value : Bytes) :
    (env.set name value).IsLeading (env.target name) := by
  have hname : sameName env.ignoreCase (env.target name) name = true := by
    simp [sameName_target]
  obtain ⟨t, ht⟩ := text_of_sameName hname
  refine ⟨t, ht, ?_⟩
  rw [ht, sameName_encode] at hname
  rw [spelling?_set, if_pos (sameText_symm hname)]

/-- A spelling that is found stays the one that is found. -/
theorem spelling?_set_of_some (h : env.spelling? t = some k) (name : Text) (value : Bytes) :
    (env.set name value).spelling? t = some k := by
  rw [spelling?_set]
  split
  · rename_i hsame
    rw [target, spelling?_congr hsame, h, Option.getD_some]
  · exact h

theorem spelling?_apply_of_some (h : env.spelling? t = some k) (call : Write) :
    (call.apply env).spelling? t = some k := by
  rw [Write.apply_eq]
  split
  · exact h
  · exact spelling?_set_of_some h _ _

theorem spelling?_applyAll_of_some (h : env.spelling? t = some k) (calls : List Write) :
    (applyAll calls env).spelling? t = some k := by
  induction calls generalizing env with
  | nil => exact h
  | cons call rest ih => exact ih (spelling?_apply_of_some h call)

theorem isLeading_apply {call : Write} (h : (call.apply env).lookup k ≠ env.lookup k) :
    (call.apply env).IsLeading k := by
  rw [Write.apply_eq] at h ⊢
  split at h
  · exact absurd rfl h
  · rw [lookup_set] at h
    split at h
    · rename_i hk
      rw [hk]
      exact isLeading_set _ _ _
    · exact absurd rfl h

/-- **Calls change only what a write under its own text would reach.** -/
theorem isLeading_of_changed {calls : List Write}
    (h : (applyAll calls env).lookup k ≠ env.lookup k) : (applyAll calls env).IsLeading k := by
  induction calls generalizing env with
  | nil => exact absurd rfl h
  | cons call rest ih =>
    by_cases hrest : (applyAll rest (call.apply env)).lookup k = (call.apply env).lookup k
    · -- the first call made the change, and what it wrote to is found from then on
      change (applyAll rest (call.apply env)).lookup k ≠ env.lookup k at h
      rw [hrest] at h
      obtain ⟨t, rfl, ht⟩ := isLeading_apply h
      exact ⟨t, rfl, spelling?_applyAll_of_some ht rest⟩
    · exact ih hrest

end Leading

theorem sameStored_encode (ignoreCase : Bool) (s t : Text) :
    sameStored ignoreCase (Utf8.encode s) (Utf8.encode t) = sameText ignoreCase s t := by
  rw [Bool.eq_iff_iff]
  cases ignoreCase with
  | false => simp [sameStored, sameText]
  | true =>
    simp only [sameStored, sameText, Utf8.decode?_encode, Option.any_some, Bool.true_and,
      Bool.or_eq_true, beq_iff_eq, Utf8.encode_inj, if_true, or_iff_right_iff_imp]
    rintro rfl
    simp [Text.sameLetters]

/-! ## Writing the changes again -/

/-- Sets variables one after the other, each under the name that it is listed with. Only a text can
be set as a name. -/
def replay? (changes : List (Bytes × Bytes)) (base : Overlay) : Option Overlay := do
  let calls ← changes.mapM fun change => (Utf8.decode? change.1).map (Write.set · change.2)
  return applyAll calls base

theorem replay?_cons (name : Text) (value : Bytes) (rest : List (Bytes × Bytes))
    (base : Overlay) :
    replay? ((Utf8.encode name, value) :: rest) base = replay? rest (base.set name value) := by
  unfold replay?
  rw [List.mapM_cons, Utf8.decode?_encode]
  cases h : rest.mapM fun change => (Utf8.decode? change.1).map (Write.set · change.2) with
  | none => rfl
  | some calls => rfl

/-- Where each name goes to its own spelling, and no two are one name, the order of the writes does
not matter to where they go. -/
theorem replay?_eq_insertAll {changes : List (Bytes × Bytes)} {base : Overlay}
    (hown : ∀ change ∈ changes, ∃ t, change.1 = Utf8.encode t ∧ base.target t = change.1)
    (hapart : changes.Pairwise fun a b => sameStored base.ignoreCase a.1 b.1 = false) :
    replay? changes base = some (base.insertAll changes) := by
  induction changes generalizing base with
  | nil => rfl
  | cons change rest ih =>
    obtain ⟨k, value⟩ := change
    obtain ⟨hfirst, hrest⟩ := List.pairwise_cons.mp hapart
    obtain ⟨name, hk, htarget⟩ := hown (k, value) List.mem_cons_self
    obtain rfl : k = Utf8.encode name := hk
    have hset : base.set name value = base.insert (Utf8.encode name) value := by
      change base.insert (base.target name) value = _
      rw [htarget]
    -- the names that are still to come go where they went before the first write
    have hownRest : ∀ other ∈ rest, ∃ t, other.1 = Utf8.encode t ∧
        (base.set name value).target t = other.1 := by
      intro other ho
      obtain ⟨t, ht, hother⟩ := hown other (List.mem_cons_of_mem _ ho)
      refine ⟨t, ht, ?_⟩
      have hdiffers := hfirst other ho
      rw [ht, sameStored_encode] at hdiffers
      rw [target, spelling?_set, if_neg (by simp [hdiffers])]
      exact hother
    rw [replay?_cons, ih hownRest hrest, hset]
    rfl

section Reached
variable (base : Overlay) (calls : List Write)

theorem changes_own : ∀ change ∈ (applyAll calls base).changesSince base,
    ∃ t, change.1 = Utf8.encode t ∧ base.target t = change.1 := by
  rintro ⟨k, value⟩ hchange
  obtain ⟨hnow, hbefore⟩ := mem_changesSince.mp hchange
  obtain ⟨t, rfl, ht⟩ := isLeading_of_changed (hnow ▸ Ne.symm hbefore)
  refine ⟨t, rfl, ?_⟩
  cases hs : base.spelling? t with
  | none => rw [target, hs, Option.getD_none]
  | some j =>
    have hj := spelling?_applyAll_of_some hs calls
    rw [target, hs, Option.getD_some]
    exact Option.some.inj (hj.symm.trans ht)

theorem changes_apart {a b : Bytes × Bytes} (ha : a ∈ (applyAll calls base).changesSince base)
    (hb : b ∈ (applyAll calls base).changesSince base) (hne : a.1 ≠ b.1) :
    sameStored base.ignoreCase a.1 b.1 = false := by
  have hleading {change : Bytes × Bytes}
      (hm : change ∈ (applyAll calls base).changesSince base) :
      (applyAll calls base).IsLeading change.1 := by
    obtain ⟨hnow, hbefore⟩ := mem_changesSince.mp hm
    exact isLeading_of_changed (hnow ▸ Ne.symm hbefore)
  obtain ⟨s, hs, hfoundA⟩ := hleading ha
  obtain ⟨t, ht, hfoundB⟩ := hleading hb
  rw [hs, ht, sameStored_encode, ← applyAll_ignoreCase calls base]
  refine Bool.eq_false_iff.mpr fun hsame => hne ?_
  have hfound := spelling?_congr hsame
  rw [hfoundA, hfoundB] at hfound
  exact Option.some.inj hfound

end Reached

/-- What the difference between two overlays is. -/
structure IsDifference (base env : Overlay) (changes : List (Bytes × Bytes)) : Prop where
  /-- It lists what is stored now and was not before. -/
  mem_iff : ∀ change, change ∈ changes ↔ change ∈ env.vars ∧ change ∉ base.vars
  /-- In the order of the spellings, each once. -/
  ordered : (changes.map Prod.fst).Pairwise (· < ·)
  /-- Written to what there was before, in any order, it gives what there is now. -/
  replays : ∀ order, order.Perm changes → replay? order base = some env
  empty_iff : changes = [] ↔ env = base

/-- **The difference is exact, and can be replayed.** -/
theorem changesSince_replays (base : Overlay) (calls : List Write) :
    IsDifference base (applyAll calls base) ((applyAll calls base).changesSince base) := by
  have hrule := applyAll_ignoreCase calls base
  have hkept : ∀ k ∈ base.names, k ∈ (applyAll calls base).names :=
    fun k hk => (names_sublist_applyAll calls base).subset hk
  have hreplays : ∀ order, order.Perm ((applyAll calls base).changesSince base) →
      replay? order base = some (applyAll calls base) := by
    intro order hperm
    have hnodup : (order.map Prod.fst).Nodup :=
      (hperm.map Prod.fst).nodup_iff.mpr (changesSince_nodup _ _)
    have hapart : order.Pairwise fun a b => sameStored base.ignoreCase a.1 b.1 = false := by
      refine (List.pairwise_map.mp hnodup).imp_of_mem fun ha hb hne => ?_
      exact changes_apart base calls (hperm.mem_iff.mp ha) (hperm.mem_iff.mp hb) hne
    rw [replay?_eq_insertAll (fun change hc => changes_own base calls change (hperm.mem_iff.mp hc))
      hapart]
    refine congrArg some (eq_of_lookup ?_ fun k => ?_)
    · rw [hrule, insertAll_ignoreCase]
    · have hchanged := lookup_changed hkept id k
      have hsame : ∀ entries : List (Bytes × Bytes),
          (entries.map fun change => (change.1, id change.2)) = entries := by simp
      rw [hsame, lookup_insertAll (changesSince_nodup _ _), Option.map_id, id, ite_self] at hchanged
      rw [lookup_insertAll hnodup, ← hchanged]
      congr 1
      refine Option.ext fun value => ?_
      rw [lookup_eq_some hnodup, lookup_eq_some (changesSince_nodup _ _), hperm.mem_iff]
  refine ⟨?_, ?_, hreplays, ?_⟩
  · rintro ⟨k, value⟩
    rw [mem_changesSince, ← lookup_eq_some (names_nodup _), ← lookup_eq_some (names_nodup _)]
    rfl
  · exact (applyAll calls base).sorted.sublist (List.filter_sublist.map _)
  · constructor
    · intro hempty
      have hnothing := hreplays [] (hempty ▸ List.Perm.refl _)
      exact (Option.some.inj hnothing).symm
    · intro hsame
      rw [hsame, changesSince, List.filter_eq_nil_iff]
      rintro ⟨k, value⟩ hm
      simp [(lookup_eq_some base.names_nodup).mpr hm, lookup]

end FirmwareBuild.Overlay
