import FirmwareBuild.Proofs.OverlayLookup

/-! # The overlay as one map

Three calls write variables: setting one, setting a default and lengthening the
search path. Seen from outside, an overlay is a map from names to values in which
names that are one share their value. Each call acts on that map by a rule that
knows nothing of spellings or of their order (`getBytes?_apply`); by induction so
does every sequence of calls, and a name holds what was written to it last
(`applyAll_refines_map`). -/

namespace FirmwareBuild.Overlay

/-- A call that writes at most one variable. -/
inductive Write where
  | set (name : Text) (value : Bytes)
  | setDefault (name : Text) (value : Bytes)
  | appendPath (host : Host) (directory : Text)
  deriving DecidableEq, Repr

abbrev Held := Text → Option Bytes

namespace Write

def name : Write → Text
  | set name _ | setDefault name _ => name
  | appendPath _ _ => pathName

def apply : Write → Overlay → Overlay
  | set name value, env => env.set name value
  | setDefault name value, env => env.setDefault name value
  | appendPath host directory, env => env.appendPath host directory

/-- The value that a call writes, if it writes at all. -/
def value? (held : Held) : Write → Option Bytes
  | set _ value => some value
  | setDefault name value => if (held name).isSome then none else some value
  | appendPath host directory =>
    let path := (held pathName).getD []
    if directory ∈ Text.split host.listSeparator (Utf8.decodeLossy path) then none
    else some (appendEntry host.listSeparator path directory)

/-- What a call does to a map: the written value is held under all names that are one with the
name it was written under. -/
def onMap (ignoreCase : Bool) (call : Write) (held : Held) : Held :=
  match call.value? held with
  | none => held
  | some value => fun other =>
    if sameText ignoreCase call.name other then some value else held other

/-- A call that writes sets its variable, and one that does not leaves the overlay. -/
theorem apply_eq (call : Write) (env : Overlay) :
    call.apply env = match call.value? env.getBytes? with
      | none => env
      | some value => env.set call.name value := by
  cases call with
  | set name value => rfl
  | setDefault name value =>
    simp only [apply, value?, Overlay.setDefault, contains_eq_isSome]
    split <;> rfl
  | appendPath host directory =>
    simp only [apply, value?, Overlay.appendPath, List.contains_iff_mem]
    split <;> rfl

theorem apply_ignoreCase (call : Write) (env : Overlay) :
    (call.apply env).ignoreCase = env.ignoreCase := by
  rw [apply_eq]
  split <;> rfl

/-- **One call acts on the map.** -/
theorem getBytes?_apply (call : Write) (env : Overlay) :
    (call.apply env).getBytes? = call.onMap env.ignoreCase env.getBytes? := by
  rw [apply_eq, onMap]
  split
  · rfl
  · funext other
    exact getBytes?_set env call.name other _

/-- What the variable of a call holds after it: the written value, or what it held. -/
theorem getBytes?_apply_name (call : Write) (env : Overlay) :
    (call.apply env).getBytes? call.name =
      (call.value? env.getBytes?).or (env.getBytes? call.name) := by
  rw [getBytes?_apply]
  cases hv : call.value? env.getBytes? <;> simp [onMap, hv]

/-- What another variable holds after a call. -/
theorem getBytes?_apply_of_other {call : Write} {env : Overlay} {other : Text}
    (h : sameText env.ignoreCase call.name other = false) :
    (call.apply env).getBytes? other = env.getBytes? other := by
  rw [getBytes?_apply]
  cases hv : call.value? env.getBytes? <;> simp [onMap, hv, h]

theorem names_sublist_apply (call : Write) (env : Overlay) :
    env.names.Sublist (call.apply env).names := by
  rw [apply_eq]
  split
  · exact List.Sublist.refl _
  · exact names_sublist_set env _ _

/-- A spelling that a call adds is that of its own name, which was not there. -/
theorem mem_names_apply {call : Write} {env : Overlay} {k : Bytes}
    (h : k ∈ (call.apply env).names) (hk : k ∉ env.names) :
    k = Utf8.encode call.name ∧ env.spelling? call.name = none := by
  rw [apply_eq] at h
  split at h
  · exact absurd h hk
  · have ht := (mem_names_set.mp h).resolve_right hk
    cases hs : env.spelling? call.name with
    | none => exact ⟨by rw [ht, target, hs]; rfl, rfl⟩
    | some j =>
      rw [target, hs, Option.getD_some] at ht
      exact absurd (ht ▸ (spelling?_spec hs).1) hk

/-- A spelling that a call adds is one with none that was there. -/
theorem added_is_new {call : Write} {env : Overlay} {k : Bytes}
    (h : k ∈ (call.apply env).names) (hk : k ∉ env.names) :
    ∀ j ∈ env.names, sameStored env.ignoreCase j k = false := by
  obtain ⟨rfl, hs⟩ := mem_names_apply h hk
  intro j hj
  cases hjk : sameStored env.ignoreCase j (Utf8.encode call.name) with
  | false => rfl
  | true =>
    have hn := List.find?_eq_none.mp hs j hj
    exact absurd (sameName_of_sameStored hjk) hn

end Write

/-- No two spellings are of one name. -/
def SingleSpellings (env : Overlay) : Prop :=
  ∀ a ∈ env.names, ∀ b ∈ env.names, sameStored env.ignoreCase a b = true → a = b

/-- A call adds no second spelling. -/
theorem SingleSpellings.apply {env : Overlay} (h : env.SingleSpellings) (call : Write) :
    (call.apply env).SingleSpellings := by
  intro a ha b hb hab
  rw [call.apply_ignoreCase] at hab
  by_cases hae : a ∈ env.names
  · by_cases hbe : b ∈ env.names
    · exact h a hae b hbe hab
    · rw [Write.added_is_new hb hbe a hae] at hab
      cases hab
  · by_cases hbe : b ∈ env.names
    · have hba := Write.added_is_new ha hae b hbe
      rw [sameStored_symm hab] at hba
      cases hba
    · rw [(Write.mem_names_apply ha hae).1, (Write.mem_names_apply hb hbe).1]

/-! ## Sequences of calls -/

def applyAll (calls : List Write) (env : Overlay) : Overlay :=
  calls.foldl (fun env call => call.apply env) env

def onMapAll (ignoreCase : Bool) (calls : List Write) (held : Held) : Held :=
  calls.foldl (fun held call => call.onMap ignoreCase held) held

/-- The writes that calls make, in order, each with the name it was made under. A call that finds
a default set or a directory listed makes none. -/
def written (ignoreCase : Bool) : List Write → Held → List (Text × Bytes)
  | [], _ => []
  | call :: rest, held =>
    ((call.value? held).map (call.name, ·)).toList ++
      written ignoreCase rest (call.onMap ignoreCase held)

/-- The last value written under a name that is one with the given name. -/
def lastWritten? (ignoreCase : Bool) (writes : List (Text × Bytes)) (name : Text) : Option Bytes :=
  (writes.reverse.find? fun entry => sameText ignoreCase entry.1 name).map Prod.snd

theorem lastWritten?_append (ignoreCase : Bool) (front back : List (Text × Bytes)) (name : Text) :
    lastWritten? ignoreCase (front ++ back) name =
      (lastWritten? ignoreCase back name).or (lastWritten? ignoreCase front name) := by
  unfold lastWritten?
  rw [List.reverse_append, List.find?_append]
  cases back.reverse.find? fun entry => sameText ignoreCase entry.1 name <;> rfl

theorem applyAll_append (front back : List Write) (env : Overlay) :
    applyAll (front ++ back) env = applyAll back (applyAll front env) := List.foldl_append

theorem applyAll_ignoreCase (calls : List Write) (env : Overlay) :
    (applyAll calls env).ignoreCase = env.ignoreCase := by
  induction calls generalizing env with
  | nil => rfl
  | cons call rest ih => exact (ih (call.apply env)).trans (call.apply_ignoreCase env)

/-- A sequence of calls acts on the map. -/
theorem getBytes?_applyAll (calls : List Write) (env : Overlay) :
    (applyAll calls env).getBytes? = onMapAll env.ignoreCase calls env.getBytes? := by
  induction calls generalizing env with
  | nil => rfl
  | cons call rest ih =>
    have h := ih (call.apply env)
    rw [call.getBytes?_apply, call.apply_ignoreCase] at h
    exact h

/-- In the map, a name holds what was written to it last. -/
theorem onMapAll_eq_lastWritten (ignoreCase : Bool) (calls : List Write) (held : Held)
    (name : Text) : onMapAll ignoreCase calls held name =
      (lastWritten? ignoreCase (written ignoreCase calls held) name).or (held name) := by
  induction calls generalizing held with
  | nil => rfl
  | cons call rest ih =>
    rw [written, lastWritten?_append, Option.or_assoc]
    refine (ih _).trans (congrArg _ ?_)
    cases hv : call.value? held with
    | none => simp only [Write.onMap, hv]; rfl
    | some value =>
      simp only [Write.onMap, hv, Option.map_some, Option.toList_some, lastWritten?,
        List.reverse_singleton, List.find?_singleton]
      split <;> rfl

theorem names_sublist_applyAll (calls : List Write) (env : Overlay) :
    env.names.Sublist (applyAll calls env).names := by
  induction calls generalizing env with
  | nil => exact List.Sublist.refl _
  | cons call rest ih => exact (call.names_sublist_apply env).trans (ih _)

theorem SingleSpellings.applyAll {env : Overlay} (h : env.SingleSpellings) (calls : List Write) :
    (applyAll calls env).SingleSpellings := by
  induction calls generalizing env with
  | nil => exact h
  | cons call rest ih => exact ih (h.apply call)

/-- **An overlay is one map keyed by its naming rule.** After any calls, every name holds the last
value that was written under a name that is one with it, or what it held before; asking whether it
is there agrees with asking for its value. Spellings stay, a call adds one only where no spelling
of that name was stored, and so a name with one spelling never gets a second. -/
theorem applyAll_refines_map (env : Overlay) (calls : List Write) :
    (∀ a b, sameText env.ignoreCase a b = true → env.getBytes? a = env.getBytes? b) ∧
    (applyAll calls env).ignoreCase = env.ignoreCase ∧
    (applyAll calls env).getBytes? = onMapAll env.ignoreCase calls env.getBytes? ∧
    (∀ name, (applyAll calls env).getBytes? name =
      (lastWritten? env.ignoreCase (written env.ignoreCase calls env.getBytes?) name).or
        (env.getBytes? name)) ∧
    (∀ name, (applyAll calls env).contains name = ((applyAll calls env).getBytes? name).isSome) ∧
    env.names.Sublist (applyAll calls env).names ∧
    (∀ earlier call later, calls = earlier ++ call :: later →
      ∀ k ∈ (applyAll (earlier ++ [call]) env).names, k ∉ (applyAll earlier env).names →
        ∀ j ∈ (applyAll earlier env).names, sameStored env.ignoreCase j k = false) ∧
    (env.SingleSpellings → (applyAll calls env).SingleSpellings) := by
  refine ⟨fun _ _ => getBytes?_congr, applyAll_ignoreCase calls env, getBytes?_applyAll calls env,
    fun name => ?_, contains_eq_isSome _, names_sublist_applyAll calls env, ?_,
    fun h => h.applyAll calls⟩
  · rw [getBytes?_applyAll]
    exact onMapAll_eq_lastWritten env.ignoreCase calls env.getBytes? name
  · rintro earlier call later - k hk hnew
    rw [applyAll_append] at hk
    change k ∈ (call.apply (applyAll earlier env)).names at hk
    have h := Write.added_is_new hk hnew
    rwa [applyAll_ignoreCase] at h

end FirmwareBuild.Overlay
