import FirmwareBuild.Proofs.CompilerVersion
import FirmwareBuild.Proofs.HandedEnvironment
import FirmwareBuild.Proofs.OverlayDifference
import FirmwareBuild.Proofs.PreparedOverlay
import FirmwareBuild.Proofs.ShellQuoting
import FirmwareBuild.Proofs.VisualStudioSearch

/-! # The environment that a script gives back

The environment of a build is shown as a script, a line for each variable that
differs from the inherited one, and the script is there to be evaluated. A shell
reads its octets; the quoting rules speak of ASCII alone, so that the octets of a
script of assignments are read as the script of the octets of its texts. Evaluated
where it was shown, it gives every variable the octets that its value was printed
as, and these are its own if they are text (`showEnvironment_read_back`). -/

namespace FirmwareBuild

open Posix (ofOctets toOctets)
open Text (lookup_eq_none)

/-! ## Octets of a script -/

namespace Utf8

/-- A text as a shell reads it, which takes every octet for a character. -/
def octetText (t : Text) : Text := ofOctets (encode t)

theorem octetText_append (t u : Text) : octetText (t ++ u) = octetText t ++ octetText u := by
  simp [octetText, encode_append, ofOctets]

theorem octetText_cons (c : Char) (t : Text) :
    octetText (c :: t) = ofOctets (encodeChar c) ++ octetText t := by
  simp [octetText, encode, ofOctets]

def IsAscii (t : Text) : Prop := ∀ c ∈ t, c.toNat < 0x80

instance (t : Text) : Decidable (IsAscii t) :=
  List.decidableBAll (fun c : Char => c.toNat < 0x80) t

theorem octetText_ascii {t : Text} (h : IsAscii t) : octetText t = t := by
  induction t with
  | nil => rfl
  | cons c t ih =>
    have hc := h c List.mem_cons_self
    have hoctet : (UInt8.ofNat c.toNat).toNat = c.toNat := by
      rw [UInt8.toNat_ofNat']
      omega
    rw [octetText_cons, encodeChar_ascii hc, ih fun d hd => h d (List.mem_cons_of_mem _ hd)]
    simp [ofOctets, hoctet]

/-- An ASCII character comes from nothing but itself. -/
theorem mem_ofOctets_encodeChar {c d : Char} (hc : c.toNat < 0x80)
    (h : c ∈ ofOctets (encodeChar d)) : c = d := by
  obtain ⟨b, hb, rfl⟩ := List.mem_map.mp h
  rw [Posix.toNat_ofNat_of_lt b.toNat_lt] at hc
  rw [toNat_of_mem_encodeChar hc hb, Char.ofNat_toNat]

theorem mem_of_mem_octetText {c : Char} (hc : c.toNat < 0x80) {t : Text}
    (h : c ∈ octetText t) : c ∈ t := by
  obtain ⟨b, hb, he⟩ := List.mem_map.mp h
  obtain ⟨d, hd, hbd⟩ := List.mem_flatMap.mp hb
  have hcd : c = d := mem_ofOctets_encodeChar hc (List.mem_map.mpr ⟨b, hbd, he⟩)
  rwa [hcd]

theorem replace_of_not_mem {c : Char} {t : Text} (h : c ∉ t) (by' : Text) :
    Text.replace c by' t = t := by
  induction t with
  | nil => rfl
  | cons d t ih =>
    obtain ⟨hd, ht⟩ : c ≠ d ∧ c ∉ t := by simpa using h
    have hrest : Text.replace c by' (d :: t) = d :: Text.replace c by' t := by
      simp [Text.replace, Ne.symm hd]
    rw [hrest, ih ht]

/-- Replacing an ASCII character by ASCII ones is the same before and after. -/
theorem octetText_replace {c : Char} (hc : c.toNat < 0x80) {by' : Text}
    (hby : IsAscii by') (t : Text) :
    octetText (Text.replace c by' t) = Text.replace c by' (octetText t) := by
  have happend (t u : Text) :
      Text.replace c by' (t ++ u) = Text.replace c by' t ++ Text.replace c by' u := by
    simp [Text.replace]
  induction t with
  | nil => rfl
  | cons d t ih =>
    rw [← List.singleton_append, happend, octetText_append, octetText_append, happend, ih]
    by_cases hd : d = c
    · subst hd
      have hone : Text.replace d by' [d] = by' := by simp [Text.replace]
      have hself : octetText [d] = [d] := octetText_ascii (by simpa [IsAscii] using hc)
      rw [hself, hone, octetText_ascii hby]
    · have hone : Text.replace c by' [d] = [d] := by simp [Text.replace, hd]
      have hnot : c ∉ octetText [d] := by
        intro hmem
        exact hd (List.mem_singleton.mp (mem_of_mem_octetText hc hmem)).symm
      rw [hone, replace_of_not_mem hnot]

end Utf8

open Utf8

namespace ShellKind

/-- The octets of an assignment assign octets. -/
theorem octetText_assignment {shell : ShellKind} (hshell : shell ≠ .cmd) (name value : Text) :
    octetText (shell.assignment name value) =
      shell.assignment (octetText name) (octetText value) := by
  have hquote : octetText (quote value) = quote (octetText value) := by
    have hmark : octetText ['\''] = ['\''] := octetText_ascii (by decide)
    rw [quote, quote, ← octetText_replace (by decide) (by decide) value, ← List.singleton_append,
      octetText_append, octetText_append, hmark]
    rfl
  have hassignment (name value : Text) : shell.assignment name value =
      "export ".toList ++ (name ++ (['='] ++ quote value)) := by
    cases shell with
    | cmd => exact absurd rfl hshell
    | _ => exact List.append_assoc _ _ _
  have hexport : octetText "export ".toList = "export ".toList := octetText_ascii (by decide)
  have hequals : octetText ['='] = ['='] := octetText_ascii (by decide)
  rw [hassignment, hassignment, octetText_append, octetText_append, octetText_append, hquote,
    hexport, hequals]

def octetVars (vars : List (Text × Text)) : List (Text × Text) :=
  vars.map fun assigned => (octetText assigned.1, octetText assigned.2)

theorem octetText_script {shell : ShellKind} (hshell : shell ≠ .cmd) (vars : List (Text × Text)) :
    octetText (shell.script vars) = shell.script (octetVars vars) := by
  induction vars with
  | nil => rfl
  | cons assigned rest ih =>
    have hline : octetText ['\n'] = ['\n'] := octetText_ascii (by decide)
    have hcons (assigned : Text × Text) (rest : List (Text × Text)) :
        shell.script (assigned :: rest) =
          shell.assignment assigned.1 assigned.2 ++ ['\n'] ++ shell.script rest := by
      simp [script]
    rw [hcons, octetText_append, octetText_append, octetText_assignment hshell, hline, ih]
    exact (hcons (octetText assigned.1, octetText assigned.2) (octetVars rest)).symm

end ShellKind

/-! ## Reading the script -/

namespace Quoting

/-- The environment after a script is evaluated in another one, where all that the script does is to
export variables. -/
def evaluated? (script : Bytes) (env : Overlay) : Option Overlay := do
  let assigned ← (← commands? (ofOctets script)).mapM exported?
  return env.insertAll (assigned.map fun (name, value) => (toOctets name, toOctets value))

/-- A script of assignments behind a line of comment gives each variable the octets of its value. -/
theorem evaluated?_script {shell : ShellKind} (hshell : shell ≠ .cmd) {line : Text}
    (hline : '\n' ∉ octetText line) {vars : List (Text × Text)}
    (hnames : ∀ assigned ∈ vars, Posix.isName (octetText assigned.1) = true) (env : Overlay) :
    evaluated? (encode ('#' :: line ++ '\n' :: shell.script vars)) env =
      some (env.insertAll (vars.map fun (name, value) => (encode name, encode value))) := by
  have hmarks : octetText ['#'] = ['#'] ∧ octetText ['\n'] = ['\n'] :=
    ⟨octetText_ascii (by decide), octetText_ascii (by decide)⟩
  have hread : ofOctets (encode ('#' :: line ++ '\n' :: shell.script vars)) =
      '#' :: octetText line ++ '\n' :: shell.script (ShellKind.octetVars vars) := by
    have hparts : '#' :: line ++ '\n' :: shell.script vars =
        ['#'] ++ (line ++ (['\n'] ++ shell.script vars)) := by simp
    change octetText _ = _
    rw [hparts, octetText_append, octetText_append, octetText_append, hmarks.1, hmarks.2,
      ShellKind.octetText_script hshell]
    simp
  have hoctetNames : ∀ assigned ∈ ShellKind.octetVars vars,
      Posix.isName assigned.1 = true := by
    intro assigned ha
    obtain ⟨assigned, hm, rfl⟩ := List.mem_map.mp ha
    exact hnames assigned hm
  have hcommands : commands? ('#' :: octetText line ++ '\n' ::
      shell.script (ShellKind.octetVars vars)) =
        some ((ShellKind.octetVars vars).map exportWords) := by
    rw [commands?, tokens?_comment hline, ShellKind.tokens?_script hshell hoctetNames,
      Option.map_some, Option.map_some, commandsOf_newline, ShellKind.commandsOf_script]
  rw [evaluated?, hread, hcommands]
  change ((ShellKind.octetVars vars).map exportWords).mapM exported? >>= _ = _
  rw [ShellKind.mapM_exported? hoctetNames]
  simp [ShellKind.octetVars, octetText, Posix.toOctets_ofOctets, Function.comp_def]

end Quoting

/-! ## What is printed -/

namespace Run

theorem Keeps.onDisk {α γ : Type} {part : Session → γ}
    (hp : ∀ s disk, part { s with disk } = part s) (action : FileAction) (path : Bytes)
    (change : Disk.Change α) : Keeps part (Run.onDisk action path change) := by
  intro s
  cases h : change s.disk with
  | ok a disk =>
    rw [after_ok (onDisk_ok h action path)]
    exact hp s disk
  | error cause disk =>
    rw [after_error (onDisk_error h action path)]
    exact hp s disk

theorem forM_say (lines : List Text) (s : Session) : lines.forM Run.say s =
    .ok () { s with output := s.output ++ encode (lines.flatMap (· ++ ['\n'])) } := by
  induction lines generalizing s with
  | nil => simp [encode, Run.pure_run]
  | cons line rest ih =>
    change (Run.say line >>= fun _ => rest.forM Run.say) s = _
    rw [say_bind, ih, List.flatMap_cons, encode_append, encode_append, List.append_assoc]

/-- A step has printed nothing where it succeeds. -/
def Silent {α : Type} (step : Run α) : Prop :=
  ∀ s a left, step s = .ok a left → left.output = s.output

section Silent
variable {α β : Type}

theorem Silent.of_keeps {step : Run α} (h : Keeps Session.output step) : Silent step := by
  intro s a left hok
  have hkept := h s
  rwa [after_ok hok] at hkept

theorem Silent.bind {x : Run α} {f : α → Run β} (hx : Silent x) (hf : ∀ a, Silent (f a)) :
    Silent (x >>= f) := by
  intro s b left h
  obtain ⟨a, middle, ha, hb⟩ := bind_eq_ok h
  exact (hf a middle b left hb).trans (hx s a middle ha)

theorem Silent.bind_set {s new left : Session} {f : PUnit → Run α} {a : α} (hf : Silent (f ⟨⟩))
    (h : (set new >>= f : Run α) s = .ok a left) : left.output = new.output := hf new a left h

/-- What fails in any case need not be silent. -/
theorem Silent.of_fails {step : Run α} (h : ∀ s, step.succeeds s = false) : Silent step := by
  intro s a left hok
  have hfails := h s
  rw [succeeds, hok] at hfails
  cases hfails

end Silent

end Run

/-- A command whose output is kept prints nothing, unless it fails. -/
theorem Runner.onMachine_silent (machine : Machine) {command : Command}
    (hecho : command.echo = false) (hcapture : command.capture = true) :
    Run.Silent (onMachine machine command) := by
  have failing (e : BuildError) : Run.Silent (do diagnose command; throw e : Run Text) := by
    refine .of_fails fun s => ?_
    rw [Run.succeeds]
    cases h : diagnose command s with
    | ok a left => rw [Run.bind_of_ok h]; rfl
    | error e left => rw [Run.bind_of_error h]
  unfold onMachine
  simp only [hecho, hcapture, Bool.false_eq_true, if_false, if_true]
  split
  · exact .of_fails fun _ => rfl
  · refine Run.Silent.bind (.of_keeps fun _ => rfl) fun _ => ?_
    -- the session that is put back differs in its disk only
    intro s answer left h
    rw [Run.get_bind] at h
    refine (Run.Silent.bind_set ?_ h).trans rfl
    split
    · exact failing _
    · split
      · exact .of_keeps (Run.Keeps.pure _)
      · exact failing _

def FrontEnd.enterLoaded (front : FrontEnd) (requested : Option Bytes) :
    Run (Bytes × Settings) := do
  let root ← front.enterWorkspace requested
  let settings ← Settings.load root
  return (root, settings)

/-- The disk is all that this can change. -/
theorem FrontEnd.enterLoaded_keeps (front : FrontEnd) (requested : Option Bytes) :
    Run.Keeps (fun s => (s.env, s.output)) (front.enterLoaded requested) := by
  have habsolute (path : Bytes) :
      Run.Keeps (fun s => (s.env, s.output)) (Workspace.absolutePath path) := by
    refine Run.Keeps.bind Run.Keeps.get fun s => ?_
    split
    · exact Run.Keeps.pure _
    · exact Run.Keeps.throw _
  have hload (root : Bytes) : Run.Keeps (fun s => (s.env, s.output)) (Settings.load root) := by
    refine Run.Keeps.bind Run.Keeps.get fun s => ?_
    dsimp only
    split
    · split
      · exact Run.Keeps.throw _
      · split
        · exact Run.Keeps.pure _
        · exact Run.Keeps.throw _
    · exact Run.Keeps.pure _
  refine Run.Keeps.bind ?_ fun root => Run.Keeps.bind (hload root) fun _ => Run.Keeps.pure _
  refine Run.Keeps.bind (habsolute _) fun full => ?_
  exact Run.Keeps.bind (Run.Keeps.onDisk (fun _ _ => rfl) _ _ _) fun _ => Run.Keeps.pure _

namespace Toolchain

theorem versionNumber?_characters {t : Text} {number : Nat} (h : versionNumber? t = some number) :
    ∀ c ∈ t, c = '+' ∨ c.isDigit = true := by
  obtain ⟨⟨digits, rfl | rfl, -, hdigits, -⟩, -⟩ := versionNumber?_eq_some.mp h
  · exact fun c hc => .inr (hdigits c hc)
  · intro c hc
    rcases List.mem_cons.mp hc with hc | hc
    · exact .inl hc
    · exact .inr (hdigits c hc)

/-- What is printed about the GNU toolchain stays on its line. -/
theorem gnu_line {output : Text} {toolchain : Toolchain} (h : gnu output = .ok toolchain) :
    '\n' ∉ ' ' :: toolchain.identifier ++ ' ' :: toolchain.version := by
  unfold gnu at h
  cases hn : versionNumber? (majorVersion output) with
  | none =>
    rw [hn] at h
    cases h
  | some number =>
    rw [hn] at h
    obtain rfl := Except.ok.inj h
    have hversion : '\n' ∉ majorVersion output := by
      intro hmem
      have hline := versionNumber?_characters hn _ hmem
      revert hline
      decide
    have hidentifier : '\n' ∉ gcc5 ∧ '\n' ∉ gcc49 := by decide
    dsimp only
    split <;> simp [hversion, hidentifier.1, hidentifier.2]

end Toolchain

/-! ## What is shown -/

namespace Overlay

section Exact
variable {env : Overlay} {name : Text}

theorem spelling?_exact (h : env.ignoreCase = false) {k : Bytes}
    (hs : env.spelling? name = some k) : k = encode name := by
  have hsame := (spelling?_spec hs).2
  simpa [sameName, h] using hsame

theorem target_exact (h : env.ignoreCase = false) : env.target name = encode name := by
  unfold target
  cases hs : env.spelling? name with
  | none => rfl
  | some k => exact spelling?_exact h hs

theorem getBytes?_exact (h : env.ignoreCase = false) :
    env.getBytes? name = env.lookup (encode name) := by
  unfold getBytes?
  cases hs : env.spelling? name with
  | some k => rw [Option.bind_some, spelling?_exact h hs]
  | none =>
    refine (lookup_eq_none.mpr fun hmem => ?_).symm
    have hn := List.find?_eq_none.mp hs _ hmem
    simp [sameName, h] at hn

end Exact

end Overlay

namespace Preparation
open Overlay

theorem environment_ok {bench : Workbench} {defaults : ToolDefaults} {root : Bytes}
    {s left : Session} {toolchain : Toolchain}
    (h : environment bench defaults root s = .ok toolchain left) :
    ∃ prepared, prepare bench defaults root s = .ok toolchain prepared ∧
      left = { prepared with env := prepared.env.set workspaceName root } := by
  obtain ⟨found, prepared, hprepared, h⟩ := Run.bind_eq_ok h
  cases h
  exact ⟨prepared, hprepared, rfl⟩

/-- The variables that differ in the environment of a build. -/
def shownNames : List Text := pathName :: commonNames

/-- Those whose values come from outside, octet by octet. -/
def IsOutside (name : Bytes) : Prop := name = encode pathName ∨ name = encode workspaceName

section Posix
variable {bench : Workbench} {defaults : ToolDefaults} {root : Bytes} {s left : Session}
  {toolchain : Toolchain}

theorem environment_kept (hr : bench.runner.KeepsOverlay)
    (h : environment bench defaults root s = .ok toolchain left) :
    ∀ k ∈ s.env.names, k ∈ left.env.names := by
  obtain ⟨prepared, hprepared, rfl⟩ := environment_ok h
  intro k hk
  exact (names_sublist_set _ _ _).subset ((prepare_changes_exactly hr hprepared).kept.subset hk)

/-- A variable that differs is one of those that preparation writes, and its value is a text that
preparation has made, unless it comes from outside. -/
theorem environment_changes (hposix : bench.host = .posix) (hr : bench.runner.KeepsOverlay)
    (h : environment bench defaults root s = .ok toolchain left) :
    ∀ change ∈ left.env.changesSince s.env, (∃ name ∈ shownNames, change.1 = encode name) ∧
      (isText change.2 = true ∨ IsOutside change.1) := by
  obtain ⟨prepared, hprepared, rfl⟩ := environment_ok h
  have hchanges := prepare_changes_exactly hr hprepared
  have hrule : prepared.env.ignoreCase = false := by rw [hchanges.rule, hposix]; rfl
  have hbefore : (s.env.setHost bench.host).ignoreCase = false := by rw [hposix]; rfl
  have hwritten : writtenNames bench.host toolchain = shownNames := by
    rw [writtenNames, hposix]
    rfl
  rintro ⟨k, value⟩ hchange
  obtain ⟨hnow, hold⟩ := mem_changesSince.mp hchange
  dsimp only at hnow ⊢
  rw [lookup_set, target_exact hrule] at hnow
  -- the workspace is pinned last, whatever preparation has made of it
  by_cases hk : k = encode workspaceName
  · exact ⟨⟨workspaceName, by decide, hk⟩, .inr (.inr hk)⟩
  rw [if_neg hk] at hnow
  have hname : ∃ name ∈ shownNames, k = encode name := by
    rw [← hwritten]
    by_cases hthere : k ∈ s.env.names
    · by_cases hfound : ∃ name ∈ writtenNames bench.host toolchain,
          (s.env.setHost bench.host).spelling? name = some k
      · obtain ⟨name, hm, hs⟩ := hfound
        exact ⟨name, hm, spelling?_exact hbefore hs⟩
      · -- an inherited variable that no written name finds is as it was, and is not shown
        have hsame := hchanges.values k hthere fun name hm hs => hfound ⟨name, hm, hs⟩
        exact absurd (hsame.symm.trans hnow) hold
    · have hadded : k ∈ prepared.env.names := by
        by_cases hin : k ∈ prepared.env.names
        · exact hin
        · have hnone : prepared.env.lookup k = none := lookup_eq_none.mpr hin
          rw [hnone] at hnow
          cases hnow
      obtain ⟨name, hm, he, -⟩ := hchanges.added k hadded hthere
      exact ⟨name, hm, he⟩
  refine ⟨hname, ?_⟩
  obtain ⟨name, hm, rfl⟩ := hname
  have htext {t : Text} (hvalue : prepared.env.getBytes? name = some (encode t)) :
      isText value = true := by
    rw [getBytes?_exact hrule, hnow] at hvalue
    rw [Option.some.inj hvalue]
    exact isText_encode t
  simp only [shownNames, commonNames, List.mem_cons, List.not_mem_nil, or_false] at hm
  rcases hm with rfl | rfl | rfl | rfl | rfl | rfl
  · exact .inr (.inl rfl)
  · exact .inl (htext hchanges.tools)
  · exact .inl (htext hchanges.sameTools)
  · exact absurd rfl hk
  · exact .inl (htext hchanges.confPath)
  · exact .inl (htext hchanges.identifier)

end Posix

end Preparation

/-! ## The whole way -/

namespace FrontEnd
open Overlay Preparation

/-- The script that shows some changes, behind a line about the toolchain. -/
def shownScript (shell : ShellKind) (toolchain : Toolchain) (changes : List (Bytes × Bytes)) :
    Text :=
  shell.comment ++ ' ' :: toolchain.identifier ++ ' ' :: toolchain.version ++
    '\n' :: shell.script (changes.map fun change => (decodeLossy change.1, decodeLossy change.2))

section Posix
variable {front : FrontEnd} {defaults : ToolDefaults} {root : Bytes} {s left : Session}
  {toolchain : Toolchain}

theorem resolve_posix (hposix : front.host = .posix)
    (h : Toolchain.resolve front.bench s = .ok toolchain left) :
    left.output = s.output ∧ ∃ output, Toolchain.gnu output = .ok toolchain := by
  have hhost : front.bench.host = .posix := hposix
  rw [Toolchain.resolve, hhost] at h
  obtain ⟨output, asked, hasked, h⟩ := Run.bind_eq_ok h
  have hquiet : Run.Silent (Runner.onMachine front.machine (Toolchain.versionCommand "gcc")) :=
    Runner.onMachine_silent front.machine rfl rfl
  have hsilent := hquiet s output asked hasked
  cases hg : Toolchain.gnu output with
  | error e =>
    rw [hg] at h
    cases h
  | ok found =>
    rw [hg] at h
    cases h
    exact ⟨hsilent, output, hg⟩

theorem environment_silent (hposix : front.host = .posix)
    (h : environment front.bench defaults root s = .ok toolchain left) :
    left.output = s.output ∧ ∃ output, Toolchain.gnu output = .ok toolchain := by
  obtain ⟨prepared, hprepared, rfl⟩ := environment_ok h
  obtain ⟨middle, hres, -, -, -, rfl⟩ := prepare_iff.mp hprepared
  obtain ⟨hsilent, hgnu⟩ := resolve_posix hposix hres
  exact ⟨hsilent, hgnu⟩

/-- Showing an environment that could be made prints its script. -/
theorem showEnvironment_ok {requested : Option Bytes} {shell : ShellKind} {code : Int}
    (h : front.showEnvironment requested shell s = .ok code left) :
    ∃ root settings toolchain start shown,
      front.enterLoaded requested s = .ok (root, settings) start ∧
      environment front.bench settings.tools root start = .ok toolchain shown ∧
      left = { shown with
        output := shown.output ++
          encode (shownScript shell toolchain (shown.env.changesSince start.env)) } := by
  rw [showEnvironment_eq] at h
  obtain ⟨root, entered, hroot, h⟩ := Run.bind_eq_ok h
  obtain ⟨settings, start, hsettings, h⟩ := Run.bind_eq_ok h
  rw [Run.get_bind] at h
  obtain ⟨toolchain, shown, hshown, h⟩ := Run.bind_eq_ok h
  refine ⟨root, settings, toolchain, start, shown, ?_, hshown, ?_⟩
  · rw [enterLoaded, Run.bind_of_ok hroot, Run.bind_of_ok hsettings, Run.pure_run]
  · rw [Run.say_bind, Run.get_bind, Run.bind_of_ok (Run.forM_say _ _)] at h
    cases h
    have hlines (changes : List (Bytes × Bytes)) :
        (assignments shell changes).flatMap (· ++ ['\n']) = shell.script
          (changes.map fun change => (decodeLossy change.1, decodeLossy change.2)) := by
      simp [assignments, ShellKind.script, List.flatMap_map]
    have hjoined (line script : Text) (octets : Bytes) :
        octets ++ (encode line ++ encode ['\n']) ++ encode script =
          octets ++ encode (line ++ '\n' :: script) := by
      have hcons : encode ('\n' :: script) = encode ['\n'] ++ encode script :=
        encode_append ['\n'] script
      rw [encode_append, hcons, List.append_assoc, List.append_assoc]
    rw [shownScript, ← hlines, ← hjoined]

/-- What a script of octets gives where it is evaluated in the inherited environment. -/
structure ReadBack (shown inherited read : Overlay) : Prop where
  /-- A variable that differs gets the octets that its value was printed as. -/
  values : ∀ k, read.lookup k = if shown.lookup k = inherited.lookup k then shown.lookup k
    else (shown.lookup k).map fun value => encode (decodeLossy value)
  /-- So the environment is the one that was shown exactly if all that differs is text. -/
  exact_iff : (∀ k, read.lookup k = shown.lookup k) ↔
    ∀ change ∈ shown.changesSince inherited, isText change.2 = true
  /-- All that preparation makes itself is. -/
  outside : ∀ change ∈ shown.changesSince inherited, isText change.2 = true ∨ IsOutside change.1

theorem shownScript_read {shell : ShellKind} (hshell : shell ≠ .cmd) {output : Text}
    (hgnu : Toolchain.gnu output = .ok toolchain) {changes : List (Bytes × Bytes)}
    (hnames : ∀ change ∈ changes, ∃ name ∈ shownNames, change.1 = encode name) (env : Overlay) :
    Quoting.evaluated? (encode (shownScript shell toolchain changes)) env =
      some (env.insertAll
        (changes.map fun change => (change.1, encode (decodeLossy change.2)))) := by
  have hcomment : shell.comment = ['#'] := by
    cases shell with
    | cmd => exact absurd rfl hshell
    | _ => rfl
  have hline : '\n' ∉ octetText (' ' :: toolchain.identifier ++ ' ' :: toolchain.version) :=
    fun hmem => Toolchain.gnu_line hgnu (mem_of_mem_octetText (by decide) hmem)
  have hplain : ∀ name ∈ shownNames, Posix.isName (octetText name) = true := by decide +kernel
  have hassigned : ∀ assigned ∈ changes.map fun change =>
      (decodeLossy change.1, decodeLossy change.2), Posix.isName (octetText assigned.1) = true := by
    intro assigned ha
    obtain ⟨change, hm, rfl⟩ := List.mem_map.mp ha
    obtain ⟨name, hname, he⟩ := hnames change hm
    rw [he, decodeLossy_encode]
    exact hplain name hname
  have hread := Quoting.evaluated?_script hshell hline hassigned env
  have hscript : shownScript shell toolchain changes =
      '#' :: (' ' :: toolchain.identifier ++ ' ' :: toolchain.version) ++ '\n' ::
        shell.script (changes.map fun change => (decodeLossy change.1, decodeLossy change.2)) := by
    rw [shownScript, hcomment]
    rfl
  have hvars : (changes.map fun change => (decodeLossy change.1, decodeLossy change.2)).map
      (fun assigned => (encode assigned.1, encode assigned.2)) =
        changes.map fun change => (change.1, encode (decodeLossy change.2)) := by
    rw [List.map_map]
    refine List.map_congr_left fun change hm => ?_
    obtain ⟨name, -, he⟩ := hnames change hm
    rw [Function.comp_apply, he, decodeLossy_encode]
  rw [hscript, hread]
  exact congrArg (fun vars => some (env.insertAll vars)) hvars

theorem insertAll_readBack {shown inherited : Overlay}
    (hkept : ∀ k ∈ inherited.names, k ∈ shown.names)
    (houtside : ∀ change ∈ shown.changesSince inherited,
      isText change.2 = true ∨ IsOutside change.1) :
    ReadBack shown inherited (inherited.insertAll
      ((shown.changesSince inherited).map fun change =>
        (change.1, encode (decodeLossy change.2)))) := by
  have hvalues := lookup_changed hkept fun value => encode (decodeLossy value)
  refine ⟨hvalues, ⟨fun hsame => ?_, fun htext k => ?_⟩, houtside⟩
  · rintro ⟨k, value⟩ hchange
    obtain ⟨hnow, hbefore⟩ := mem_changesSince.mp hchange
    have hread := hvalues k
    rw [hsame k, hnow, if_neg (Ne.symm hbefore)] at hread
    have hencoded : value = encode (decodeLossy value) := Option.some.inj hread
    dsimp only
    rw [hencoded]
    exact isText_encode _
  · rw [hvalues]
    split
    · rfl
    · rename_i hdiffers
      cases hnow : shown.lookup k with
      | none => rfl
      | some value =>
        rw [hnow] at hdiffers
        have hchange := mem_changesSince.mpr ⟨hnow, Ne.symm hdiffers⟩
        exact congrArg some (encode_of_isText (htext _ hchange))

/-- **The script gives back what it shows, as far as that is text.** -/
theorem showEnvironment_read_back (hposix : front.host = .posix) {shell : ShellKind}
    (hshell : shell ≠ .cmd) {requested : Option Bytes} {code : Int}
    (h : front.showEnvironment requested shell s = .ok code left) :
    ∃ root settings toolchain start shown script read,
      front.enterLoaded requested s = .ok (root, settings) start ∧ start.env = s.env ∧
      environment front.bench settings.tools root start = .ok toolchain shown ∧
      left = { shown with output := s.output ++ script } ∧
      Quoting.evaluated? script s.env = some read ∧ ReadBack shown.env s.env read := by
  obtain ⟨root, settings, toolchain, start, shown, hloaded, hshown, rfl⟩ := showEnvironment_ok h
  have hkeep := front.enterLoaded_keeps requested s
  rw [Run.after_ok hloaded] at hkeep
  have henv : start.env = s.env := congrArg Prod.fst hkeep
  have houtput : start.output = s.output := congrArg Prod.snd hkeep
  have hr : front.bench.runner.KeepsOverlay := Runner.onMachine_keepsOverlay front.machine
  obtain ⟨hsilent, output, hgnu⟩ := environment_silent hposix hshown
  have hkept := environment_kept hr hshown
  have hchanges := environment_changes hposix hr hshown
  rw [henv] at hkept hchanges
  refine ⟨root, settings, toolchain, start, shown, _, _, hloaded, henv, hshown, ?_,
    shownScript_read hshell hgnu (fun change hm => (hchanges change hm).1) s.env,
    insertAll_readBack hkept fun change hm => (hchanges change hm).2⟩
  rw [hsilent, houtput, henv]

end Posix

/-- A host whose compiler has a version and where nothing else is asked. -/
def versioned : FrontEnd where
  host := .posix
  machine := fun _ _ disk => (.exited 0 (encode "9\n".toList), disk)
  defaultWorkspace := encode "/".toList

def searching (path : Bytes) : Session where
  env := .ofList [(encode pathName, path)]
  disk := .empty

theorem versioned_read_back : ∃ code left, versioned.host = .posix ∧ ShellKind.sh ≠ .cmd ∧
    versioned.showEnvironment none .sh (searching (encode "/bin".toList)) = .ok code left ∧
    ∃ (shown : Session) (script : Bytes) (read : Overlay), left = { shown with output := script } ∧
      Quoting.evaluated? script (searching (encode "/bin".toList)).env = some read ∧
      ReadBack shown.env (searching (encode "/bin".toList)).env read := by
  have hsucceeds : (versioned.showEnvironment none .sh).succeeds
      (searching (encode "/bin".toList)) = true := by decide +kernel
  cases h : versioned.showEnvironment none .sh (searching (encode "/bin".toList)) with
  | error e left =>
    rw [Run.succeeds, h] at hsucceeds
    cases hsucceeds
  | ok code left =>
    obtain ⟨-, -, -, -, shown, script, read, -, -, -, hleft, hread, hback⟩ :=
      showEnvironment_read_back rfl (by decide) h
    exact ⟨code, left, rfl, by decide, rfl, shown, script, read, hleft, hread, hback⟩

/-- A search path that is no text is read as another one than it was shown for. -/
theorem broken_path_read_otherwise :
    (versioned.showEnvironment none .sh).succeeds (searching [0xFF]) = true ∧
    ((versioned.showEnvironment none .sh).after (searching [0xFF])).env.lookup (encode pathName) =
      some (0xFF :: encode ":/BaseTools/BinWrappers/PosixLike".toList) ∧
    (Quoting.evaluated?
      ((versioned.showEnvironment none .sh).after (searching [0xFF])).output
      (searching [0xFF]).env).map (·.lookup (encode pathName)) =
      some (some (encode "\uFFFD:/BaseTools/BinWrappers/PosixLike".toList)) := by
  refine ⟨?_, ?_, ?_⟩ <;> decide +kernel

end FrontEnd

end FirmwareBuild
