import FirmwareBuild.FrontEnd
import FirmwareBuild.Proofs.Utf8
import Mathlib.Data.List.Induction

/-! # The order of build flags

Flags are read one after the other, and still little of their order counts: which
token is the first that means nothing, which one is the last to choose the variant,
and whether the flag for the emulator is there at all (`read_eq`). What keeps these
three keeps the choice. Where a token means nothing, a build says so and has done
nothing else (`read_flags`). -/

namespace FirmwareBuild.Flags

def release : Text := "/r".toList

def debug : Text := "/d".toList

def qemu : Text := "/qemu".toList

def variants : List Text := [release, debug]

def known : List Text := qemu :: variants

def firstUnknown? (tokens : List Text) : Option Text := tokens.find? (!known.contains ·)

def lastVariant? (tokens : List Text) : Option Text := tokens.reverse.find? variants.contains

/-- What tokens ask for if all of them mean something. -/
def asked (tokens : List Text) : Choice where
  target := if lastVariant? tokens = some release then .release else .debug
  hardware := if tokens.contains qemu then .qemu else .real

variable {front inserted back tokens : List Text} {token : Text}

/-! ## What counts of the order -/

theorem apply_unknown (choice : Choice) (h : token ∉ known) :
    apply choice token = .error (.unknownFlag token) := by
  simp only [known, variants, List.mem_cons, List.not_mem_nil, or_false, not_or] at h
  obtain ⟨hqemu, hrelease, hdebug⟩ := h
  exact (if_neg hrelease).trans ((if_neg hdebug).trans (if_neg hqemu))

theorem apply_known (choice : Choice) (h : token ∈ known) : apply choice token =
    .ok { target := if token ∈ variants then (asked [token]).target else choice.target
          hardware := if token = qemu then .qemu else choice.hardware } := by
  simp only [known, variants, List.mem_cons, List.not_mem_nil, or_false] at h
  rcases h with rfl | rfl | rfl <;> rfl

theorem read_concat (tokens : List Text) (token : Text) :
    read (tokens ++ [token]) = read tokens >>= fun choice => apply choice token := by
  rw [read, List.foldlM_append, ← read]
  refine bind_congr fun choice => ?_
  rw [List.foldlM_cons]
  exact bind_pure _

theorem firstUnknown?_append (front back : List Text) :
    firstUnknown? (front ++ back) = (firstUnknown? front).or (firstUnknown? back) :=
  List.find?_append

theorem lastVariant?_append (front back : List Text) :
    lastVariant? (front ++ back) = (lastVariant? back).or (lastVariant? front) := by
  rw [lastVariant?, List.reverse_append]
  exact List.find?_append

theorem asked_concat (tokens : List Text) (token : Text) : asked (tokens ++ [token]) =
    { target := if token ∈ variants then (asked [token]).target else (asked tokens).target
      hardware := if token = qemu then .qemu else (asked tokens).hardware } := by
  have hone : lastVariant? [token] = if token ∈ variants then some token else none := by
    rw [lastVariant?, List.reverse_singleton, List.find?_singleton]
    simp only [List.contains_iff_mem]
  have hqemu : (tokens ++ [token]).contains qemu = true ↔
      token = qemu ∨ tokens.contains qemu = true := by
    rw [List.contains_iff_mem, List.contains_iff_mem, List.mem_append, List.mem_singleton, or_comm,
      eq_comm]
  unfold asked
  rw [lastVariant?_append, hone]
  simp only [hqemu]
  congr 1
  · split <;> rfl
  · split
    · rename_i h
      rcases h with h | h
      · rw [if_pos h]
      · rw [if_pos h, ite_self]
    · rename_i h
      rw [if_neg fun he => h (.inl he), if_neg fun hm => h (.inr hm)]

/-- **What some tokens ask for.** The first that means nothing is an error. If there is none, the
last one that chooses the variant counts, and the flag for the emulator wherever it stands. -/
theorem read_eq (tokens : List Text) : read tokens =
    match firstUnknown? tokens with
    | some token => .error (.unknownFlag token)
    | none => .ok (asked tokens) := by
  induction tokens using List.reverseRecOn with
  | nil => rfl
  | append_singleton tokens token ih =>
    rw [read_concat, ih, firstUnknown?_append]
    cases firstUnknown? tokens with
    | some earlier => rfl
    | none =>
      rw [Option.none_or]
      by_cases h : token ∈ known
      · have hnone : firstUnknown? [token] = none := List.find?_eq_none.mpr (by simpa using h)
        rw [hnone, asked_concat]
        exact apply_known _ h
      · have hfirst : firstUnknown? [token] = some token :=
          List.find?_cons_of_pos (by simpa using h)
        rw [hfirst]
        exact apply_unknown _ h

/-- Nothing else counts of some tokens. -/
theorem read_congr {others : List Text} (hunknown : firstUnknown? tokens = firstUnknown? others)
    (hvariant : lastVariant? tokens = lastVariant? others)
    (hqemu : qemu ∈ tokens ↔ qemu ∈ others) : read tokens = read others := by
  have hasked : asked tokens = asked others := by
    simp only [asked, hvariant, List.contains_iff_mem, hqemu]
  rw [read_eq, read_eq, hunknown, hasked]

/-! ## Tokens that are put between others -/

theorem firstUnknown?_of_known (h : ∀ t ∈ tokens, t ∈ known) : firstUnknown? tokens = none :=
  List.find?_eq_none.mpr (by simpa using h)

theorem firstUnknown?_insert (h : ∀ t ∈ inserted, t ∈ known) :
    firstUnknown? (front ++ inserted ++ back) = firstUnknown? (front ++ back) := by
  rw [firstUnknown?_append, firstUnknown?_append, firstUnknown?_of_known h, Option.or_none,
    firstUnknown?_append]

theorem lastVariant?_qemu :
    lastVariant? (front ++ [qemu] ++ back) = lastVariant? (front ++ back) := by
  have hnone : lastVariant? [qemu] = none := rfl
  rw [lastVariant?_append, lastVariant?_append, hnone, Option.none_or, lastVariant?_append]

/-- What stands before a token that chooses the variant does not choose it. -/
theorem lastVariant?_behind (h : ∃ t ∈ back, t ∈ variants) :
    lastVariant? (front ++ back) = lastVariant? back := by
  obtain ⟨token, ht, hvariant⟩ := h
  have hsome : (lastVariant? back).isSome :=
    List.find?_isSome.mpr ⟨token, List.mem_reverse.mpr ht, by simpa using hvariant⟩
  obtain ⟨last, hlast⟩ := Option.isSome_iff_exists.mp hsome
  rw [lastVariant?_append, hlast, Option.some_or]

theorem read_qemu_eq {front' back' : List Text} (h : front ++ back = front' ++ back') :
    read (front ++ qemu :: back) = read (front' ++ qemu :: back') := by
  have hknown : ∀ t ∈ [qemu], t ∈ known := by decide
  rw [List.append_cons front, List.append_cons front']
  refine read_congr ?_ ?_ (by simp)
  · rw [firstUnknown?_insert hknown, firstUnknown?_insert hknown, h]
  · rw [lastVariant?_qemu, lastVariant?_qemu, h]

theorem read_qemu_again (h : qemu ∈ front ++ back) :
    read (front ++ qemu :: back) = read (front ++ back) := by
  rw [List.append_cons]
  refine read_congr (firstUnknown?_insert (by decide)) lastVariant?_qemu ?_
  exact ⟨fun _ => h, fun hm => List.mem_append.mpr
    ((List.mem_append.mp hm).imp_left (List.mem_append_left _))⟩

theorem read_variants_before (hinserted : ∀ t ∈ inserted, t ∈ variants)
    (hback : ∃ t ∈ back, t ∈ variants) :
    read (front ++ inserted ++ back) = read (front ++ back) := by
  have hother : qemu ∉ inserted := fun hm => absurd (hinserted qemu hm) (by decide)
  refine read_congr (firstUnknown?_insert fun t ht => List.mem_cons_of_mem _ (hinserted t ht))
    ?_ ?_
  · rw [lastVariant?_behind hback, lastVariant?_behind hback]
  · simp [hother]

/-! ## What a build makes of flags -/

theorem firstUnknown?_eq_some : firstUnknown? tokens = some token ↔ token ∉ known ∧
    ∃ front back, tokens = front ++ token :: back ∧ ∀ t ∈ front, t ∈ known := by
  rw [firstUnknown?, List.find?_eq_some_iff_append]
  simp

theorem lastVariant?_eq_some : lastVariant? tokens = some token ↔ token ∈ variants ∧
    ∃ front back, tokens = front ++ token :: back ∧ ∀ t ∈ back, t ∉ variants := by
  rw [lastVariant?, List.find?_eq_some_iff_append]
  constructor
  · rintro ⟨hvariant, back, front, hsplit, hback⟩
    refine ⟨by simpa using hvariant, front.reverse, back.reverse, ?_, by simpa using hback⟩
    rw [← List.reverse_reverse tokens, hsplit]
    simp
  · rintro ⟨hvariant, front, back, rfl, hback⟩
    exact ⟨by simpa using hvariant, back.reverse, front.reverse, by simp, by simpa using hback⟩

theorem read_error_iff {e : BuildError} : read tokens = .error e ↔
    ∃ front token back, tokens = front ++ token :: back ∧ (∀ t ∈ front, t ∈ known) ∧
      token ∉ known ∧ e = .unknownFlag token := by
  rw [read_eq]
  cases h : firstUnknown? tokens with
  | none =>
    have hknown : ∀ t ∈ tokens, t ∈ known := by
      simpa [firstUnknown?] using h
    refine ⟨nofun, ?_⟩
    rintro ⟨front, token, back, rfl, -, hunknown, -⟩
    exact absurd (hknown token (by simp)) hunknown
  | some first =>
    constructor
    · rintro ⟨⟩
      obtain ⟨hunknown, front, back, hsplit, hfront⟩ := firstUnknown?_eq_some.mp h
      exact ⟨front, first, back, hsplit, hfront, hunknown, rfl⟩
    · rintro ⟨front, token, back, hsplit, hfront, hunknown, rfl⟩
      have hsame := firstUnknown?_eq_some.mpr ⟨hunknown, front, back, hsplit, hfront⟩
      rw [Option.some.inj (h.symm.trans hsame)]

theorem asked_eq_iff {choice : Choice} : asked tokens = choice ↔
    (choice.target = .release ↔ ∃ front back, tokens = front ++ release :: back ∧
      ∀ t ∈ back, t ∉ variants) ∧ (choice.hardware = .qemu ↔ qemu ∈ tokens) := by
  have hlast : lastVariant? tokens = some release ↔ ∃ front back,
      tokens = front ++ release :: back ∧ ∀ t ∈ back, t ∉ variants :=
    lastVariant?_eq_some.trans (and_iff_right (by decide))
  rw [← hlast]
  obtain ⟨target, hardware⟩ := choice
  unfold asked
  cases target <;> cases hardware <;> by_cases hr : lastVariant? tokens = some release <;>
    by_cases hq : qemu ∈ tokens <;> simp [hr, hq]

theorem read_ok_iff {choice : Choice} : read tokens = .ok choice ↔ (∀ t ∈ tokens, t ∈ known) ∧
    (choice.target = .release ↔ ∃ front back, tokens = front ++ release :: back ∧
      ∀ t ∈ back, t ∉ variants) ∧ (choice.hardware = .qemu ↔ qemu ∈ tokens) := by
  rw [← asked_eq_iff, read_eq]
  cases h : firstUnknown? tokens with
  | none =>
    have hknown : ∀ t ∈ tokens, t ∈ known := by
      simpa [firstUnknown?] using h
    exact ⟨fun he => ⟨hknown, Except.ok.inj he⟩, fun ⟨_, he⟩ => congrArg Except.ok he⟩
  | some first =>
    obtain ⟨hunknown, front, back, rfl, -⟩ := firstUnknown?_eq_some.mp h
    exact ⟨nofun, fun ⟨hknown, _⟩ => absurd (hknown first (by simp)) hunknown⟩

/-- Flags that cannot be read end a build before it has done anything. -/
theorem run_unknown (frontEnd : FrontEnd) {invocation : Invocation}
    (hbuild : invocation.subcommand = none)
    (h : read invocation.flags = .error (.unknownFlag token)) (s : Session) :
    frontEnd.run invocation s = .ok (-1) { s with
      output := s.output ++ Utf8.encode ("Unknown target ".toList ++ token ++ " !\n".toList) } := by
  have hend : " !\n".toList = " !".toList ++ ['\n'] := by decide
  have hline : "Unknown target ".toList ++ token ++ " !\n".toList =
      (BuildError.unknownFlag token).message ++ ['\n'] := by
    rw [hend, ← List.append_assoc]
    rfl
  have hbuild' : frontEnd.run invocation =
      frontEnd.build invocation.workspace invocation.flags := by
    rw [FrontEnd.run, hbuild]
  rw [hline, Utf8.encode_append, hbuild', FrontEnd.build, h]
  rfl

/-- **Little of the order of flags counts, and unknown ones come before everything.** Reading
fails exactly where a token means nothing, and names the first such token. Otherwise the variant
is that of the last token that chooses one, and the hardware is the emulator exactly if its flag
is there. So that flag can stand anywhere and any number of times, and what comes before the last
choice of a variant is no choice. A build whose flags cannot be read prints one line, whatever
workspace is asked for, and leaves the disk with its working directory, the environment and the
launches as they were. -/
theorem read_flags (tokens : List Text) :
    (∀ e, read tokens = .error e ↔ ∃ front token back, tokens = front ++ token :: back ∧
      (∀ t ∈ front, t ∈ known) ∧ token ∉ known ∧ e = .unknownFlag token) ∧
    (∀ choice, read tokens = .ok choice ↔ (∀ t ∈ tokens, t ∈ known) ∧
      (choice.target = .release ↔ ∃ front back, tokens = front ++ release :: back ∧
        ∀ t ∈ back, t ∉ variants) ∧ (choice.hardware = .qemu ↔ qemu ∈ tokens)) ∧
    (∀ front back, tokens = front ++ back →
      (∀ front' back', tokens = front' ++ back' →
        read (front ++ qemu :: back) = read (front' ++ qemu :: back')) ∧
      (qemu ∈ tokens → read (front ++ qemu :: back) = read tokens) ∧
      ∀ inserted, (∀ t ∈ inserted, t ∈ variants) → (∃ t ∈ back, t ∈ variants) →
        read (front ++ inserted ++ back) = read tokens) ∧
    ∀ e, read tokens = .error e → ∃ token, e = .unknownFlag token ∧
      ∀ (frontEnd : FrontEnd) (invocation : Invocation) (s : Session),
        invocation.subcommand = none → invocation.flags = tokens →
          frontEnd.run invocation s = .ok (-1) { s with
            output := s.output ++
              Utf8.encode ("Unknown target ".toList ++ token ++ " !\n".toList) } := by
  refine ⟨fun _ => read_error_iff, fun _ => read_ok_iff, ?_, ?_⟩
  · rintro front back rfl
    exact ⟨fun _ _ => read_qemu_eq, read_qemu_again, fun _ => read_variants_before⟩
  · intro e h
    obtain ⟨-, token, -, -, -, -, rfl⟩ := read_error_iff.mp h
    refine ⟨token, rfl, fun frontEnd invocation s hbuild hflags => ?_⟩
    exact run_unknown frontEnd hbuild (hflags ▸ h) s

/-- Contradicting flags on both sides of one that means nothing. -/
def contradicting : List Text := ["/r", "/qemu", "/x", "/d", "-j4"].map String.toList

theorem read_flags_contradicting :
    read contradicting = .error (.unknownFlag "/x".toList) ∧
    (read (contradicting.take 2 ++ [release, debug] ++ [qemu, debug]) =
      read (contradicting.take 2 ++ [qemu, debug])) ∧
    ∀ (frontEnd : FrontEnd) (requested : Option Bytes) (s : Session),
      frontEnd.run { workspace := requested, flags := contradicting } s = .ok (-1) { s with
        output := s.output ++ Utf8.encode "Unknown target /x !\n".toList } := by
  obtain ⟨-, -, -, hrejects⟩ := read_flags contradicting
  have hfails : read contradicting = .error (.unknownFlag "/x".toList) := rfl
  obtain ⟨token, htoken, hruns⟩ := hrejects _ hfails
  obtain rfl := BuildError.unknownFlag.inj htoken
  obtain ⟨-, -, hmoves, -⟩ := read_flags (contradicting.take 2 ++ [qemu, debug])
  exact ⟨hfails, (hmoves _ _ rfl).2.2 [release, debug] (by decide) ⟨debug, by decide⟩,
    fun frontEnd _ s => hruns frontEnd _ s rfl rfl⟩

end FirmwareBuild.Flags
