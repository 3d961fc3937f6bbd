import FirmwareBuild.Proofs.HandedEnvironment
import FirmwareBuild.Proofs.TextCuts

/-! # The answer of the interpreter

The interpreter prints its path, a comma with a space, and its version. What is taken
from that line is cut at its first comma, which is the one that was printed between
the two only if the path holds none. So a path is read back as it was written exactly
if it has no comma, and otherwise only what stands before its first one is noted
(`ensure_reads_answer`). -/

namespace FirmwareBuild

theorem Overlay.get?_setText (env : Overlay) (name value : Text) :
    (env.setText name value).get? name = some value := by
  simp [get?, setText]

namespace PrebuiltTools

/-! ## What is printed and what is read -/

structure IsInterpreter (path : Text) : Prop where
  nonempty : path ≠ []
  first : ∀ c ∈ path.head?, Text.isBlank c = false
  last : ∀ c ∈ path.getLast?, Text.isBlank c = false
  oneLine : '\n' ∉ path ∧ '\r' ∉ path

structure IsRelease (version : Text) : Prop where
  nonempty : version ≠ []
  solid : ∀ c ∈ version, c ≠ ',' ∧ Text.isBlank c = false

instance (path : Text) : Decidable (IsInterpreter path) :=
  decidable_of_iff (path ≠ [] ∧ (path.head?.all fun c => !Text.isBlank c) = true ∧
      (path.getLast?.all fun c => !Text.isBlank c) = true ∧ '\n' ∉ path ∧ '\r' ∉ path)
    ⟨fun ⟨nonempty, first, last, oneLine⟩ => ⟨nonempty, by simpa [Option.all_eq_true] using first,
      by simpa [Option.all_eq_true] using last, oneLine⟩,
    fun h => ⟨h.nonempty, by simpa [Option.all_eq_true] using h.first,
      by simpa [Option.all_eq_true] using h.last, h.oneLine⟩⟩

instance (version : Text) : Decidable (IsRelease version) :=
  decidable_of_iff (version ≠ [] ∧ (version.all fun c => c != ',' && !Text.isBlank c) = true)
    ⟨fun ⟨nonempty, solid⟩ => ⟨nonempty, by simpa using solid⟩,
    fun h => ⟨h.nonempty, by simpa using h.solid⟩⟩

def printedAnswer (path version : Text) : Text := path ++ ", ".toList ++ version ++ ['\n']

variable {path version front back : Text}

theorem IsInterpreter.trim_eq (h : IsInterpreter path) : Text.trim path = path :=
  (Text.isCut_iff.mp ⟨⟨[], [], by simp⟩, h.first, h.last⟩).symm

theorem IsRelease.trim_eq (h : IsRelease version) : Text.trim (' ' :: version) = version := by
  refine (Text.isCut_iff.mp ⟨⟨[' '], [], by simp, by simp [Text.isBlank], by simp⟩, ?_, ?_⟩).symm
  · intro c hc
    exact (h.solid c (List.mem_of_mem_head? hc)).2
  · intro c hc
    exact (h.solid c (List.mem_of_mem_getLast? hc)).2

theorem readPython?_append (h : ',' ∉ front) (back : Text) : readPython? (front ++ ',' :: back) =
    if (Text.trim front).isEmpty then none else some (Text.trim front, Text.trim back) := by
  rw [readPython?, Text.splitFirst?_append h]
  rfl

/-- A path without commas is cut off where it ends. -/
theorem readPython?_printedAnswer (hpath : IsInterpreter path) (hversion : IsRelease version)
    (h : ',' ∉ path) : readPython? (printedAnswer path version) = some (path, version) := by
  have hline : printedAnswer path version = path ++ ',' :: (' ' :: version ++ ['\n']) := by
    simp [printedAnswer]
  have hne : path.isEmpty = false := List.isEmpty_eq_false_iff.mpr hpath.nonempty
  rw [hline, readPython?_append h, Text.trim_newline, hpath.trim_eq, hversion.trim_eq, hne]
  rfl

/-- A path with commas is cut at the first of them, and the rest of it goes to the version. -/
theorem readPython?_of_comma (h : ',' ∉ front) :
    readPython? (printedAnswer (front ++ ',' :: back) version) =
      if (Text.trim front).isEmpty then none
      else some (Text.trim front, Text.trim (back ++ ", ".toList ++ version)) := by
  have hline : printedAnswer (front ++ ',' :: back) version =
      front ++ ',' :: (back ++ ", ".toList ++ version ++ ['\n']) := by
    simp [printedAnswer]
  rw [hline, readPython?_append h, Text.trim_newline]

/-! ## What is noted -/

/-- The check for the interpreter notes a path and says so, and nothing else comes of it. -/
structure Takes (bench : Workbench) (s asked : Session) (path version : Text) : Prop where
  detects : detectPython bench s = .ok () { asked with
    env := s.env.setText pythonName path
    output := asked.output ++
      Utf8.encode ("Using ".toList ++ path ++ ", Version ".toList ++ version ++ ['\n']) }
  /-- What is left to do is to make the tools that are missing. -/
  goesOn : ensure bench s = makeMissing bench { asked with
    env := s.env.setText pythonName path
    output := asked.output ++
      Utf8.encode ("Using ".toList ++ path ++ ", Version ".toList ++ version ++ ['\n']) }
  names : ((ensure bench).after s).env.get? pythonName = some path
  others : Overlay.ChangedAtMost pythonName s.env ((ensure bench).after s).env
  /-- Where commands print nothing, it is the only line. -/
  prints : (∀ command, Run.Keeps Session.output (bench.runner command)) →
    ((ensure bench).after s).output = s.output ++
      Utf8.encode ("Using ".toList ++ path ++ ", Version ".toList ++ version ++ ['\n'])

section Steps
variable {bench : Workbench} {s asked : Session} {answer : Text}

theorem ensure_of_detectPython (hposix : bench.host.isPosixLike = true) {left : Session}
    (h : detectPython bench s = .ok () left) : ensure bench s = makeMissing bench left := by
  rw [ensure_eq, if_pos hposix, Run.bind_of_ok h]

/-- The overlay that the question leaves is the one that the check leaves. -/
theorem ensure_env (hposix : bench.host.isPosixLike = true) (hkeeps : bench.runner.KeepsOverlay)
    {left : Session} (h : detectPython bench s = .ok () left) :
    ((ensure bench).after s).env = left.env := by
  rw [Run.after, ensure_of_detectPython hposix h, ← Run.after]
  exact makeMissing_keeps hkeeps (fun _ _ => rfl) left

/-- Making tools prints a line on Windows hosts only. -/
theorem makeMissing_keepsOutput (hposix : bench.host.isPosixLike = true)
    (h : ∀ command, Run.Keeps Session.output (bench.runner command)) :
    Run.Keeps Session.output (makeMissing bench) := by
  have hrebuild : Run.Keeps Session.output (rebuild bench) := by
    unfold rebuild
    split
    · rename_i hwindows
      rw [hwindows] at hposix
      cases hposix
    · exact Run.Keeps.bind (Run.Keeps.mapError (h _) _) fun _ => Run.Keeps.pure _
  refine Run.Keeps.bind Run.Keeps.get fun s => ?_
  split
  · exact Run.Keeps.pure _
  · exact Run.Keeps.bind hrebuild fun _ => Run.Keeps.pure _

theorem asked_env (hkeeps : bench.runner.KeepsOverlay)
    (hasked : bench.runner pythonCommand s = .ok answer asked) : asked.env = s.env := by
  have h := hkeeps pythonCommand s
  rwa [Run.after_ok hasked] at h

theorem takes_of_readPython? (hposix : bench.host.isPosixLike = true)
    (hkeeps : bench.runner.KeepsOverlay)
    (hasked : bench.runner pythonCommand s = .ok answer asked)
    (h : readPython? answer = some (path, version)) : Takes bench s asked path version := by
  have henv := asked_env hkeeps hasked
  have hdetects : detectPython bench s = .ok () { asked with
      env := s.env.setText pythonName path
      output := asked.output ++ Utf8.encode
        ("Using ".toList ++ path ++ ", Version ".toList ++ version ++ ['\n']) } := by
    rw [detectPython, Run.bind_of_ok hasked, h, Utf8.encode_append, ← henv]
    rfl
  have hleft := ensure_env hposix hkeeps hdetects
  refine ⟨hdetects, ensure_of_detectPython hposix hdetects, ?_, ?_, fun hsilent => ?_⟩
  · rw [hleft]
    exact Overlay.get?_setText _ _ _
  · rw [hleft]
    exact .set _ _ _
  · have hasking := hsilent pythonCommand s
    rw [Run.after_ok hasked] at hasking
    rw [Run.after, ensure_of_detectPython hposix hdetects, ← Run.after,
      makeMissing_keepsOutput hposix hsilent, hasking]

/-- Where nothing is read, the interpreter that is always there is noted. -/
theorem get?_of_readPython?_eq_none (hposix : bench.host.isPosixLike = true)
    (hkeeps : bench.runner.KeepsOverlay)
    (hasked : bench.runner pythonCommand s = .ok answer asked) (h : readPython? answer = none) :
    ((ensure bench).after s).env.get? pythonName = some pythonFallback := by
  have hdetects : detectPython bench s = .ok () { asked with
      env := asked.env.setText pythonName pythonFallback } := by
    rw [detectPython, Run.bind_of_ok hasked, h]
    rfl
  rw [ensure_env hposix hkeeps hdetects]
  exact Overlay.get?_setText _ _ _

end Steps

/-- **The path of the interpreter is read back unless it holds a comma.** On a POSIX-like host,
with every runner that only reads the overlay: where the interpreter prints its path and its version
as it is asked to, a path without commas is noted exactly, the line about it is printed, and no
other variable changes. Of a path with commas what stands before the first one is noted, without
white space at its ends, so that the noted path is another one. -/
theorem ensure_reads_answer {bench : Workbench} {s asked : Session} {path version : Text}
    (hposix : bench.host.isPosixLike = true) (hkeeps : bench.runner.KeepsOverlay)
    (hpath : IsInterpreter path) (hversion : IsRelease version)
    (hasked : bench.runner pythonCommand s = .ok (printedAnswer path version) asked) :
    (',' ∉ path → Takes bench s asked path version) ∧
    (∀ front back, path = front ++ ',' :: back → ',' ∉ front →
      (Text.trim front ≠ [] → Takes bench s asked (Text.trim front)
        (Text.trim (back ++ ", ".toList ++ version))) ∧
      (Text.trim front = [] →
        ((ensure bench).after s).env.get? pythonName = some pythonFallback)) ∧
    (((ensure bench).after s).env.get? pythonName = some path ↔ ',' ∉ path) := by
  have hplain : ',' ∉ path → Takes bench s asked path version := fun h =>
    takes_of_readPython? hposix hkeeps hasked (readPython?_printedAnswer hpath hversion h)
  have hcut : ∀ front back, path = front ++ ',' :: back → ',' ∉ front →
      (Text.trim front ≠ [] → Takes bench s asked (Text.trim front)
        (Text.trim (back ++ ", ".toList ++ version))) ∧
      (Text.trim front = [] →
        ((ensure bench).after s).env.get? pythonName = some pythonFallback) := by
    intro front back hsplit hfront
    have hread := @readPython?_of_comma version front back hfront
    rw [← hsplit] at hread
    constructor
    · intro hne
      rw [if_neg (by simpa using hne)] at hread
      exact takes_of_readPython? hposix hkeeps hasked hread
    · intro hempty
      rw [hempty] at hread
      exact get?_of_readPython?_eq_none hposix hkeeps hasked hread
  refine ⟨hplain, hcut, fun hnoted hcomma => ?_, fun h => (hplain h).names⟩
  -- what is noted of a path with a comma has none
  obtain ⟨front, back, hsplit, hfront⟩ := List.eq_append_cons_of_mem hcomma
  obtain ⟨htaken, hfallback⟩ := hcut front back hsplit hfront
  by_cases hempty : Text.trim front = []
  · rw [hfallback hempty] at hnoted
    obtain rfl := Option.some.inj hnoted
    revert hcomma
    decide
  · rw [(htaken hempty).names] at hnoted
    rw [← Option.some.inj hnoted] at hcomma
    exact hfront (Text.mem_of_mem_trim hcomma)

def answerScript (answer line : Text) : Reply :=
  .output (if line = pythonCommand.line then answer else [])

def answeringHost (answer : Text) : Workbench where
  host := .posix
  runner := .scripted (answerScript answer)
  probe := .ofLists [] []

def spacedPath : Text := "/opt/my python/bin/python3".toList

theorem ensure_reads_spaced :
    IsInterpreter spacedPath ∧ IsRelease "3.11.4".toList ∧
    (answeringHost (printedAnswer spacedPath "3.11.4".toList)).runner.KeepsOverlay ∧
    (answeringHost (printedAnswer spacedPath "3.11.4".toList)).runner pythonCommand default =
      .ok (printedAnswer spacedPath "3.11.4".toList) (Runner.launched default pythonCommand) ∧
    ',' ∉ spacedPath ∧ Takes (answeringHost (printedAnswer spacedPath "3.11.4".toList)) default
      (Runner.launched default pythonCommand) spacedPath "3.11.4".toList := by
  have hpath : IsInterpreter spacedPath := by decide
  have hversion : IsRelease "3.11.4".toList := by decide
  have hkeeps : (answeringHost (printedAnswer spacedPath "3.11.4".toList)).runner.KeepsOverlay :=
    Runner.scripted_keepsOverlay (answerScript _)
  have hasked : (answeringHost (printedAnswer spacedPath "3.11.4".toList)).runner pythonCommand
      default = .ok (printedAnswer spacedPath "3.11.4".toList)
        (Runner.launched default pythonCommand) := rfl
  obtain ⟨hplain, -, -⟩ := ensure_reads_answer rfl hkeeps hpath hversion hasked
  exact ⟨hpath, hversion, hkeeps, hasked, by decide, hplain (by decide)⟩

def commaPath : Text := "/opt/a,b/python3".toList

/-- A path with a comma is not read back. -/
theorem ensure_cuts_comma :
    IsInterpreter commaPath ∧ IsRelease "3.11.4".toList ∧
    (answeringHost (printedAnswer commaPath "3.11.4".toList)).runner pythonCommand default =
      .ok (printedAnswer commaPath "3.11.4".toList) (Runner.launched default pythonCommand) ∧
    ((ensure (answeringHost (printedAnswer commaPath "3.11.4".toList))).after
      default).env.get? pythonName = some "/opt/a".toList ∧
    "/opt/a".toList ≠ commaPath := by
  refine ⟨by decide, by decide, rfl, ?_, ?_⟩
  · decide
  · decide

end PrebuiltTools

end FirmwareBuild
