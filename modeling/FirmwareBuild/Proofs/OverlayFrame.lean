import FirmwareBuild.Proofs.OverlayRefinement

/-! # What calls leave alone

A sequence of calls leaves every variable that none of them is about, down to the
spelling it is stored under: also a second spelling of a written name, which the
first one hides, stays with its value. Where no two calls are about one variable,
each has its effect as if it were the only one. -/

namespace FirmwareBuild.Overlay

variable {env : Overlay} {calls : List Write}

/-- The written value only depends on what the variable of the call held. -/
theorem Write.value?_congr {call : Write} {held held' : Held}
    (h : held call.name = held' call.name) : call.value? held = call.value? held' := by
  cases call <;> simp_all [Write.value?, Write.name]

/-- After a default is set, the variable holds what it held or else the default. -/
theorem Write.value?_setDefault_or (held : Held) (name : Text) (value : Bytes) :
    ((Write.setDefault name value).value? held).or (held name) =
      some ((held name).getD value) := by
  simp only [Write.value?]
  cases held name <;> rfl

/-- A variable that no call is about keeps its value. -/
theorem getBytes?_applyAll_of_untouched {name : Text}
    (h : ∀ call ∈ calls, sameText env.ignoreCase call.name name = false) :
    (applyAll calls env).getBytes? name = env.getBytes? name := by
  induction calls generalizing env with
  | nil => rfl
  | cons call rest ih =>
    have hrest : (applyAll rest (call.apply env)).getBytes? name =
        (call.apply env).getBytes? name := ih fun c hc => by
        rw [call.apply_ignoreCase]
        exact h c (List.mem_cons_of_mem _ hc)
    exact hrest.trans (Write.getBytes?_apply_of_other (h call List.mem_cons_self))

/-- A variable that no call is about keeps its spelling, or has none as before. -/
theorem spelling?_applyAll_of_untouched {name : Text}
    (h : ∀ call ∈ calls, sameText env.ignoreCase call.name name = false) :
    (applyAll calls env).spelling? name = env.spelling? name := by
  induction calls generalizing env with
  | nil => rfl
  | cons call rest ih =>
    have hcall : (call.apply env).spelling? name = env.spelling? name := by
      have hother := h call List.mem_cons_self
      rw [Write.apply_eq]
      split
      · rfl
      · rw [spelling?_set, hother, if_neg Bool.false_ne_true]
    have hrest : (applyAll rest (call.apply env)).spelling? name =
        (call.apply env).spelling? name := ih fun c hc => by
      rw [call.apply_ignoreCase]
      exact h c (List.mem_cons_of_mem _ hc)
    exact hrest.trans hcall

/-- Calls about different variables do not meet: each writes what it would write alone. -/
theorem getBytes?_applyAll_of_distinct
    (hd : (calls.map Write.name).Pairwise fun a b => sameText env.ignoreCase a b = false)
    {call : Write} (hc : call ∈ calls) :
    (applyAll calls env).getBytes? call.name =
      (call.value? env.getBytes?).or (env.getBytes? call.name) := by
  induction calls generalizing env with
  | nil => cases hc
  | cons first rest ih =>
    obtain ⟨hfirst, hrest⟩ := List.pairwise_cons.mp hd
    have huntouched : ∀ c ∈ rest, sameText env.ignoreCase first.name c.name = false :=
      fun c hc => hfirst c.name (List.mem_map_of_mem hc)
    change (applyAll rest (first.apply env)).getBytes? call.name = _
    rcases List.mem_cons.mp hc with rfl | hc
    · rw [getBytes?_applyAll_of_untouched, Write.getBytes?_apply_name]
      intro c hc
      rw [call.apply_ignoreCase]
      cases hs : sameText env.ignoreCase c.name call.name with
      | false => rfl
      | true => rw [← huntouched c hc, sameText_symm hs]
    · have hother := Write.getBytes?_apply_of_other (huntouched call hc)
      rw [ih (by rwa [first.apply_ignoreCase]) hc, hother, Write.value?_congr hother]

/-- A variable that is there stays there. -/
theorem isSome_applyAll {name : Text} (h : (env.getBytes? name).isSome = true) :
    ((applyAll calls env).getBytes? name).isSome = true := by
  rw [getBytes?_applyAll, onMapAll_eq_lastWritten, Option.isSome_or, h, Bool.or_true]

/-- The values under all spellings but those that the calls' names have stay. -/
theorem lookup_applyAll_of_untouched {k : Bytes} (hk : k ∈ env.names)
    (h : ∀ call ∈ calls, env.spelling? call.name ≠ some k) :
    (applyAll calls env).lookup k = env.lookup k := by
  induction calls generalizing env with
  | nil => rfl
  | cons call rest ih =>
    have hne : k ≠ env.target call.name := by
      intro he
      cases hs : env.spelling? call.name with
      | some j => exact h call List.mem_cons_self (by rw [hs, he, target, hs]; rfl)
      | none =>
        have hn := List.find?_eq_none.mp hs k hk
        rw [he, sameName_target] at hn
        exact hn (sameText_refl _ _)
    have hlookup : (call.apply env).lookup k = env.lookup k := by
      rw [Write.apply_eq]
      split
      · rfl
      · rw [lookup_set, if_neg hne]
    have hrest : (applyAll rest (call.apply env)).lookup k = (call.apply env).lookup k := by
      refine ih ((call.names_sublist_apply env).subset hk) fun c hc => ?_
      rw [Write.apply_eq]
      split
      · exact h c (List.mem_cons_of_mem _ hc)
      · rw [spelling?_set]
        split
        · exact fun he => hne (Option.some.inj he).symm
        · exact h c (List.mem_cons_of_mem _ hc)
    exact hrest.trans hlookup

/-- A spelling that calls add is the plain one of a name that was not there. -/
theorem mem_names_applyAll {k : Bytes} (h : k ∈ (applyAll calls env).names) (hk : k ∉ env.names) :
    ∃ call ∈ calls, k = Utf8.encode call.name ∧ env.spelling? call.name = none := by
  induction calls generalizing env with
  | nil => exact absurd h hk
  | cons call rest ih =>
    by_cases hm : k ∈ (call.apply env).names
    · obtain ⟨he, hs⟩ := Write.mem_names_apply hm hk
      exact ⟨call, List.mem_cons_self, he, hs⟩
    · obtain ⟨c, hc, he, hs⟩ := ih h hm
      refine ⟨c, List.mem_cons_of_mem _ hc, he, ?_⟩
      -- fewer spellings were there before the first call than after it
      apply List.find?_eq_none.mpr
      intro j hj
      have hn := List.find?_eq_none.mp hs j ((call.names_sublist_apply env).subset hj)
      rwa [call.apply_ignoreCase] at hn

end FirmwareBuild.Overlay
