import FirmwareBuild.Proofs.RunFrame
import FirmwareBuild.Proofs.TextCuts
import FirmwareBuild.Toolchain.Resolution
import Mathlib.Data.Nat.Digits.Defs

/-! # The version of the GNU compiler

On a POSIX host resolution asks the compiler for its version, and what it makes of
the answer depends on the number that stands before the first period. What that part
is, which texts denote a number and which number they denote is said here without the
reading: by what is cut off, by the place values of digits, and by the limit of 32
bits. Every answer then comes to exactly one end (`comesTo_iff`), and resolution comes
to it with no other command (`resolve_asks_gnu`). -/

namespace FirmwareBuild

open Run

namespace Toolchain

/-! ## The part before the first period -/

/-- What stands before the first period, if there is one. -/
structure IsMajor (core major : Text) : Prop where
  start : core = major ∨ ∃ rest, core = major ++ '.' :: rest
  unbroken : '.' ∉ major

theorem isMajor_iff {core major : Text} :
    IsMajor core major ↔ major = core.takeWhile (· != '.') := by
  constructor
  · rintro ⟨hstart, hunbroken⟩
    have hall : ∀ c ∈ major, (c != '.') = true := fun c hc =>
      bne_iff_ne.mpr fun he => hunbroken (he ▸ hc)
    rcases hstart with rfl | ⟨rest, rfl⟩
    · exact (List.takeWhile_eq_self_iff.mpr hall).symm
    · rw [List.takeWhile_append_of_pos hall, List.takeWhile_cons_of_neg (by decide),
        List.append_nil]
  · rintro rfl
    have hsplit := List.takeWhile_append_dropWhile (p := (· != '.')) (l := core)
    refine ⟨?_, fun hmem => ?_⟩
    · cases hrest : core.dropWhile (· != '.') with
      | nil =>
        rw [hrest, List.append_nil] at hsplit
        exact .inl hsplit.symm
      | cons c rest =>
        have hnot := List.head?_dropWhile_not (· != '.') core
        rw [hrest] at hnot hsplit
        obtain rfl : c = '.' := by simpa using hnot
        exact .inr ⟨rest, hsplit.symm⟩
    · have hdot := List.all_eq_true.mp List.all_takeWhile '.' hmem
      cases hdot

/-! ## Numbers -/

def placeValue (digits : Text) : Nat :=
  Nat.ofDigits 10 (digits.reverse.map fun c => c.toNat - '0'.toNat)

/-- A text is a plus sign at most and then digits, and they denote a number of 32 bits. -/
structure Denotes (t : Text) (number : Nat) : Prop where
  digits : ∃ digits, (t = digits ∨ t = '+' :: digits) ∧ digits ≠ [] ∧
    (∀ c ∈ digits, c.isDigit = true) ∧ placeValue digits = number
  fits : number < 2 ^ 32

/-- Reading digit after digit comes to the sum of the place values. -/
theorem foldl_placeValue (digits : Text) :
    digits.foldl (fun n c => n * 10 + (c.toNat - '0'.toNat)) 0 = placeValue digits := by
  rw [placeValue, Nat.ofDigits_eq_foldr, List.foldr_map, List.foldl_eq_foldr_reverse]
  congr 1
  funext c n
  simp only [Nat.cast_id]
  omega

theorem placeValue_zero (digits : Text) : placeValue ('0' :: digits) = placeValue digits := by
  rw [← foldl_placeValue, List.foldl_cons]
  exact foldl_placeValue digits

theorem digits_eq {t digits : Text} (hdigits : ∀ c ∈ digits, c.isDigit = true)
    (h : t = digits ∨ t = '+' :: digits) : (Text.dropStart? ['+'] t).getD t = digits := by
  rcases h with rfl | rfl
  · cases hdrop : Text.dropStart? ['+'] t with
    | none => rfl
    | some rest =>
      -- a plus sign is no digit
      have hplus := hdigits '+' (Text.dropStart?_eq_some.mp hdrop ▸ List.mem_cons_self)
      cases hplus
  · rw [Text.dropStart?_eq_some.mpr (rfl : '+' :: digits = ['+'] ++ digits)]
    rfl

theorem versionNumber?_eq_some {t : Text} {number : Nat} :
    versionNumber? t = some number ↔ Denotes t number := by
  unfold versionNumber?
  dsimp only
  rw [foldl_placeValue]
  constructor
  · intro h
    split at h
    · cases h
    rename_i hsome
    simp only [Bool.or_eq_true, Bool.not_eq_true', not_or, Bool.not_eq_true, Bool.not_eq_false,
      List.isEmpty_eq_false_iff] at hsome
    split at h
    · rename_i hfits
      obtain rfl := Option.some.inj h
      refine ⟨⟨_, ?_, hsome.1, List.all_eq_true.mp hsome.2, rfl⟩, hfits⟩
      cases hdrop : Text.dropStart? ['+'] t with
      | none => exact .inl rfl
      | some rest => exact .inr (Text.dropStart?_eq_some.mp hdrop)
    · cases h
  · rintro ⟨⟨digits, ht, hne, hdigits, rfl⟩, hfits⟩
    rw [digits_eq hdigits ht, List.all_eq_true.mpr hdigits, List.isEmpty_eq_false_iff.mpr hne,
      if_neg (by decide)]
    exact if_pos hfits

/-- Zeros in front of the digits do not count. -/
theorem versionNumber?_zeros {sign digits : Text} (hsign : sign = [] ∨ sign = ['+'])
    (hne : digits ≠ []) (hdigits : ∀ c ∈ digits, c.isDigit = true) (count : Nat) :
    versionNumber? (sign ++ (List.replicate count '0' ++ digits)) =
      versionNumber? (sign ++ digits) := by
  have hvalue : placeValue (List.replicate count '0' ++ digits) = placeValue digits := by
    induction count with
    | zero => rfl
    | succ count ih => exact (placeValue_zero _).trans ih
  have hall : ∀ c ∈ List.replicate count '0' ++ digits, c.isDigit = true := by
    intro c hc
    rcases List.mem_append.mp hc with hc | hc
    · rw [List.eq_of_mem_replicate hc]
      rfl
    · exact hdigits c hc
  have signed (ds : Text) : sign ++ ds = ds ∨ sign ++ ds = '+' :: ds := by
    rcases hsign with rfl | rfl
    · exact .inl rfl
    · exact .inr rfl
  have hempty (ds : Text) (h : ds ≠ []) : ds.isEmpty = false := List.isEmpty_eq_false_iff.mpr h
  unfold versionNumber?
  dsimp only
  rw [foldl_placeValue, foldl_placeValue, digits_eq hall (signed _), digits_eq hdigits (signed _),
    hvalue, List.all_eq_true.mpr hall, List.all_eq_true.mpr hdigits, hempty _ hne,
    hempty _ (List.append_ne_nil_of_right_ne_nil _ hne)]

/-! ## What an answer comes to -/

inductive ComesTo (output : Text) : Except BuildError Toolchain → Prop
  | older {core major : Text} {number : Nat} : Text.IsCut Text.isBlank output core →
      IsMajor core major → Denotes major number → number ≤ 4 →
      ComesTo output (.ok ⟨"GCC49".toList, major, none⟩)
  | newer {core major : Text} {number : Nat} : Text.IsCut Text.isBlank output core →
      IsMajor core major → Denotes major number → 4 < number →
      ComesTo output (.ok ⟨"GCC5".toList, major, none⟩)
  | garbage {core major : Text} : Text.IsCut Text.isBlank output core → IsMajor core major →
      (∀ number, ¬ Denotes major number) → ComesTo output (.error (.compilerVersion core))

theorem gnu_of_some {output : Text} {number : Nat}
    (h : versionNumber? (majorVersion output) = some number) : gnu output =
      .ok ⟨if 4 < number then "GCC5".toList else "GCC49".toList, majorVersion output, none⟩ := by
  rw [gnu, h]
  rfl

theorem gnu_of_none {output : Text} (h : versionNumber? (majorVersion output) = none) :
    gnu output = .error (.compilerVersion (Text.trim output)) := by
  rw [gnu, h]

/-- Every output comes to exactly one end. -/
theorem comesTo_iff {output : Text} {outcome : Except BuildError Toolchain} :
    ComesTo output outcome ↔ outcome = gnu output := by
  have hcut : Text.IsCut Text.isBlank output (Text.trim output) := Text.dropEnds_isCut _ _
  have hmajor : IsMajor (Text.trim output) (majorVersion output) := isMajor_iff.mpr rfl
  have major_eq {core major : Text} (hc : Text.IsCut Text.isBlank output core)
      (hm : IsMajor core major) : core = Text.trim output ∧ major = majorVersion output := by
    obtain rfl : core = Text.trim output := Text.isCut_iff.mp hc
    exact ⟨rfl, isMajor_iff.mp hm⟩
  constructor
  · intro h
    cases h with
    | older hc hm hn hle =>
      obtain ⟨rfl, rfl⟩ := major_eq hc hm
      rw [gnu_of_some (versionNumber?_eq_some.mpr hn), if_neg (Nat.not_lt.mpr hle)]
    | newer hc hm hn hlt =>
      obtain ⟨rfl, rfl⟩ := major_eq hc hm
      rw [gnu_of_some (versionNumber?_eq_some.mpr hn), if_pos hlt]
    | garbage hc hm hnone =>
      obtain ⟨rfl, rfl⟩ := major_eq hc hm
      rw [gnu_of_none]
      exact Option.eq_none_iff_forall_ne_some.mpr fun n hn => hnone n (versionNumber?_eq_some.mp hn)
  · rintro rfl
    cases hn : versionNumber? (majorVersion output) with
    | none =>
      rw [gnu_of_none hn]
      refine .garbage hcut hmajor fun number hnumber => ?_
      rw [versionNumber?_eq_some.mpr hnumber] at hn
      cases hn
    | some number =>
      have hnumber := versionNumber?_eq_some.mp hn
      rw [gnu_of_some hn]
      split
      · rename_i hlt
        exact .newer hcut hmajor hnumber hlt
      · rename_i hlt
        exact .older hcut hmajor hnumber (Nat.le_of_not_lt hlt)

/-! ## Resolution on a POSIX host -/

/-- The one command of a resolution on a POSIX host. -/
def gnuQuestion : Command where
  argv := ["gcc".toList, "-dumpversion".toList]
  capture := true

theorem resolve_gnu (runner : Runner) (probe : Probe) : resolve ⟨.posix, runner, probe⟩ =
    runner gnuQuestion >>= fun output => MonadExcept.ofExcept (gnu output) := by
  refine congrArg (runner gnuQuestion >>= ·) (funext fun output => ?_)
  cases gnu output <;> rfl

/-- What a resolution on a POSIX host does and comes to. -/
structure AsksGnu (runner : Runner) (probe : Probe) (s : Session) : Prop where
  /-- The session is left as the one command leaves it. -/
  asks : (resolve ⟨.posix, runner, probe⟩).after s = (runner gnuQuestion).after s
  /-- Where commands are recorded, it is the one that is. -/
  launches : runner.Notes → ((resolve ⟨.posix, runner, probe⟩).after s).launches =
    s.launches ++ [⟨gnuQuestion, s.env⟩]
  fails : ∀ e left, runner gnuQuestion s = .error e left →
    resolve ⟨.posix, runner, probe⟩ s = .error e left
  /-- What the output comes to, and nothing else, is what resolution comes to. -/
  answers : ∀ output left, runner gnuQuestion s = .ok output left →
    ∃ outcome, resolve ⟨.posix, runner, probe⟩ s = ends left [] outcome ∧
      ∀ other, ComesTo output other ↔ other = outcome

/-- **Resolution on a POSIX host goes by the number that the GNU compiler gives.** With every runner
it launches one command and returns its failure. Of its output it takes the part before the first
period, which decides the toolchain if it denotes a number; zeros in front do not change the number.
Any other output is the error. -/
theorem resolve_asks_gnu (runner : Runner) (probe : Probe) (s : Session) :
    AsksGnu runner probe s ∧
    ∀ sign digits, (sign = [] ∨ sign = ['+']) → digits ≠ [] →
      (∀ c ∈ digits, c.isDigit = true) → ∀ count,
        versionNumber? (sign ++ (List.replicate count '0' ++ digits)) =
          versionNumber? (sign ++ digits) := by
  have hasks : (resolve ⟨.posix, runner, probe⟩).after s = (runner gnuQuestion).after s := by
    rw [resolve_gnu]
    change id _ = id _
    refine Keeps.after_bind (fun output => ?_) _ s
    cases gnu output with
    | ok toolchain => exact Keeps.pure toolchain
    | error e => exact Keeps.throw e
  refine ⟨⟨hasks, fun hnotes => ?_, fun e left hfails => ?_, fun output left hanswers => ?_⟩,
    fun sign digits hsign hne hdigits => versionNumber?_zeros hsign hne hdigits⟩
  · rw [hasks]
    exact hnotes gnuQuestion s (by decide)
  · rw [resolve_gnu]
    exact bind_of_error hfails _
  · refine ⟨gnu output, ?_, fun other => comesTo_iff⟩
    rw [resolve_gnu, bind_of_ok hanswers]
    cases gnu output with
    | ok toolchain => exact (ends_nil_ok toolchain left).symm
    | error e => exact (ends_nil_error e left).symm

/-- A compiler of release 9 whose answer has a sign and zeros in front of the number. -/
def paddedAnswer : Text := " +009.4.0\n".toList

/-- Such an answer is taken for that release, as it stands, and a compiler that is missing is the
error. -/
theorem resolve_asks_padded :
    (['+'] = [] ∨ ['+'] = ['+']) ∧ ['9'] ≠ [] ∧ (∀ c ∈ ['9'], c.isDigit = true) ∧
    versionNumber? (['+'] ++ (List.replicate 2 '0' ++ ['9'])) = versionNumber? (['+'] ++ ['9']) ∧
    Runner.scripted (fun _ => .output paddedAnswer) gnuQuestion default =
      .ok paddedAnswer (Runner.launched default gnuQuestion) ∧
    resolve ⟨.posix, .scripted fun _ => .output paddedAnswer, .ofLists [] []⟩ default =
      ends (Runner.launched default gnuQuestion) [] (.ok ⟨"GCC5".toList, "+009".toList, none⟩) ∧
    Runner.Notes (.scripted fun _ => .output paddedAnswer) ∧
    ((resolve ⟨.posix, .scripted fun _ => .output paddedAnswer, .ofLists [] []⟩).after
      default).launches = [⟨gnuQuestion, .empty⟩] ∧
    Runner.scripted (fun _ => .notFound) gnuQuestion default =
      .error (.launch gnuQuestion.line .notFound) (Runner.launched default gnuQuestion) ∧
    resolve ⟨.posix, .scripted fun _ => .notFound, .ofLists [] []⟩ default =
      .error (.launch gnuQuestion.line .notFound) (Runner.launched default gnuQuestion) := by
  have hdigit : ∀ c ∈ ['9'], c.isDigit = true := by
    intro c hc
    rw [List.mem_singleton.mp hc]
    rfl
  have hanswers : Runner.scripted (fun _ => .output paddedAnswer) gnuQuestion default =
      .ok paddedAnswer (Runner.launched default gnuQuestion) := rfl
  have hnotes : Runner.Notes (.scripted fun _ => .output paddedAnswer) := Runner.scripted_notes _
  have hmissing : Runner.scripted (fun _ => .notFound) gnuQuestion default =
      .error (.launch gnuQuestion.line .notFound) (Runner.launched default gnuQuestion) := rfl
  obtain ⟨hasks, hzeros⟩ := resolve_asks_gnu (.scripted fun _ => .output paddedAnswer)
    (.ofLists [] []) default
  obtain ⟨outcome, hends, honly⟩ := hasks.answers _ _ hanswers
  obtain rfl := (honly (.ok ⟨"GCC5".toList, "+009".toList, none⟩)).mp (comesTo_iff.mpr rfl)
  obtain ⟨hlost, -⟩ := resolve_asks_gnu (.scripted fun _ => .notFound) (.ofLists [] []) default
  exact ⟨.inr rfl, by decide, hdigit, hzeros ['+'] ['9'] (.inr rfl) (by decide) hdigit 2, hanswers,
    hends, hnotes, hasks.launches hnotes, hmissing, hlost.fails _ _ hmissing⟩

end Toolchain

end FirmwareBuild
