import FirmwareBuild.Proofs.OverlayFrame
import FirmwareBuild.Proofs.Resolution
import FirmwareBuild.Proofs.SearchPath
import FirmwareBuild.Workspace.Preparation

/-! # The overlay that preparation leaves

Where preparation succeeds it has made one sequence of calls on the inherited
overlay: the tool directories are appended to the search path, and then every call
is about a variable of its own. What each variable holds afterwards and that no
other is touched follow from that alone (`prepare_changes_exactly`). -/

namespace FirmwareBuild

open Overlay

namespace Preparation

/-! ## The calls of preparation -/

def pathWrites (host : Host) (root : Text) : List Write :=
  (toolDirectories host root).map (.appendPath host)

def installationWrites (defaults : ToolDefaults) (root : Text) (installation : Installation) :
    List Write :=
  [.set pythonPathName (Utf8.encode
      (Host.windows.join root [baseTools, "Source".toList, "Python".toList])),
    .set installation.variableName (Utf8.encode installation.path),
    .setDefault nasmName (Utf8.encode defaults.nasmPrefix),
    .setDefault opensslName (Utf8.encode defaults.opensslPath),
    .setDefault iaslName (Utf8.encode defaults.iaslPrefix)]

/-- The calls about the toolchain and the workspace, up to the one that may leave the workspace
as it is. -/
def placeWrites (host : Host) (root : Text) : List Write :=
  [.set toolsName (Utf8.encode (host.join root [baseTools])),
    .set baseToolsName (Utf8.encode (host.join root [baseTools])),
    .setDefault workspaceName (Utf8.encode root)]

def lastWrites (conf identifier : Text) : List Write :=
  [.set confName (Utf8.encode conf), .set toolchainName (Utf8.encode identifier)]

def hostWrites (host : Host) (defaults : ToolDefaults) (root : Text) (toolchain : Toolchain) :
    List Write :=
  if host = .windows then toolchain.installation.toList.flatMap (installationWrites defaults root)
  else []

theorem hostWrites_of_ne {host : Host} (h : host ≠ .windows) (defaults : ToolDefaults)
    (root : Text) (toolchain : Toolchain) : hostWrites host defaults root toolchain = [] :=
  if_neg h

/-- The configuration directory that goes with the workspace an overlay names. -/
def confText (host : Host) (root : Text) (env : Overlay) : Text :=
  host.join ((env.get? workspaceName).getD root) [ConfDirectory.name]

theorem addToolDirectories_eq (host : Host) (root : Text) (env : Overlay) :
    addToolDirectories host root env = applyAll (pathWrites host root) env := by
  unfold addToolDirectories pathWrites applyAll
  rw [List.foldl_map]
  rfl

theorem setInstallation_eq (defaults : ToolDefaults) (root : Text) (installation : Installation)
    (env : Overlay) : setInstallation installation defaults (setPythonPath root env) =
      applyAll (installationWrites defaults root installation) env := rfl

theorem setWorkspace_eq (host : Host) (root : Text) (toolchain : Toolchain) (env : Overlay) :
    setWorkspace host root toolchain env =
      applyAll (lastWrites (confText host root (applyAll (placeWrites host root) env))
        toolchain.identifier) (applyAll (placeWrites host root) env) := rfl

def frontWrites (host : Host) (defaults : ToolDefaults) (root : Text) (toolchain : Toolchain) :
    List Write :=
  pathWrites host root ++ (hostWrites host defaults root toolchain ++ placeWrites host root)

/-- The overlay that preparation makes of one, once the toolchain is found. -/
def equipped (host : Host) (defaults : ToolDefaults) (root : Text) (toolchain : Toolchain)
    (env : Overlay) : Overlay :=
  setWorkspace host root toolchain
    (applyAll (hostWrites host defaults root toolchain) (addToolDirectories host root env))

theorem equipped_eq (host : Host) (defaults : ToolDefaults) (root : Text) (toolchain : Toolchain)
    (env : Overlay) : equipped host defaults root toolchain env =
      applyAll (lastWrites (confText host root
        (applyAll (frontWrites host defaults root toolchain) env)) toolchain.identifier)
        (applyAll (frontWrites host defaults root toolchain) env) := by
  rw [equipped, setWorkspace_eq, addToolDirectories_eq, frontWrites, applyAll_append,
    applyAll_append]

/-- Preparation succeeds where resolution does, under the naming rule of the host, with a toolchain
that the host can use. -/
theorem prepare_iff {bench : Workbench} {defaults : ToolDefaults} {root : Bytes} {s left : Session}
    {toolchain : Toolchain} : prepare bench defaults root s = .ok toolchain left ↔
      ∃ middle, Toolchain.resolve bench { s with env := s.env.setHost bench.host } =
          .ok toolchain middle ∧
        bench.host ≠ .unsupported ∧ (bench.host = .windows → toolchain.installation.isSome) ∧
        toolchain.isResolved ∧
        left = { middle with
          env := equipped bench.host defaults (Utf8.decodeLossy root) toolchain middle.env } := by
  unfold prepare equipped
  rw [Run.edit_bind]
  constructor
  · intro h
    obtain ⟨found, middle, hres, h⟩ := Run.bind_eq_ok h
    cases hh : bench.host <;> rw [hh] at h
    case unsupported => cases h
    case windows =>
      simp only [Run.edit_bind] at h
      cases hi : found.installation with
      | none => rw [hi] at h; cases h
      | some installation =>
        rw [hi] at h
        simp only [Run.edit_bind] at h
        split at h
        · rename_i hresolved
          cases h
          exact ⟨middle, hh ▸ hres, nofun, fun _ => by rw [hi]; rfl, hresolved,
            by simp [hostWrites, hi, ← setInstallation_eq]⟩
        · cases h
    all_goals
      simp only [Run.edit_bind] at h
      split at h
      · rename_i hresolved
        cases h
        exact ⟨middle, hh ▸ hres, nofun, nofun, hresolved, rfl⟩
      · cases h
  · rintro ⟨middle, hres, hsupported, hinstalled, hresolved, rfl⟩
    rw [Run.bind_of_ok hres]
    cases hh : bench.host
    case unsupported => exact absurd hh hsupported
    case windows =>
      obtain ⟨installation, hi⟩ := Option.isSome_iff_exists.mp (hinstalled hh)
      have hwrites : hostWrites .windows defaults (Utf8.decodeLossy root) toolchain =
          installationWrites defaults (Utf8.decodeLossy root) installation := by
        simp [hostWrites, hi]
      rw [hwrites, ← setInstallation_eq]
      simp only [Run.edit_bind, hi]
      rw [if_pos hresolved, Run.edit_bind, Run.pure_run]
    all_goals
      rw [hostWrites_of_ne (by decide)]
      simp only [Run.edit_bind]
      rw [if_pos hresolved, Run.edit_bind, Run.pure_run]
      rfl

/-- **Preparation is a sequence of calls.** Where it succeeds, resolution succeeded under the
naming rule of the host, and what follows are calls on the overlay. -/
theorem prepare_ok {bench : Workbench} {defaults : ToolDefaults} {root : Bytes} {s left : Session}
    {toolchain : Toolchain} (h : prepare bench defaults root s = .ok toolchain left) :
    ∃ middle, Toolchain.resolve bench { s with env := s.env.setHost bench.host } =
        .ok toolchain middle ∧
      bench.host ≠ .unsupported ∧ (bench.host = .windows → toolchain.installation.isSome) ∧
      ∃ ready, ready =
          applyAll (frontWrites bench.host defaults (Utf8.decodeLossy root) toolchain) middle.env ∧
        left.env = applyAll (lastWrites (confText bench.host (Utf8.decodeLossy root) ready)
          toolchain.identifier) ready := by
  obtain ⟨middle, hres, hsupported, hinstalled, -, rfl⟩ := prepare_iff.mp h
  exact ⟨middle, hres, hsupported, hinstalled, _, rfl, equipped_eq _ _ _ _ _⟩

/-! ## The variables of preparation -/

/-- The variables behind the search path that preparation writes on every host with a toolchain. -/
def commonNames : List Text :=
  [toolsName, baseToolsName, workspaceName, confName, toolchainName]

def installationNames (installation : Installation) : List Text :=
  [pythonPathName, installation.variableName, nasmName, opensslName, iaslName]

def writtenNames (host : Host) (toolchain : Toolchain) : List Text :=
  pathName :: ((if host = .windows then toolchain.installation.toList.flatMap installationNames
    else []) ++ commonNames)

/-- No two of them are one variable under the naming rule of the host. -/
theorem writtenNames_distinct {host : Host} {toolchain : Toolchain}
    (h : toolchain.InstallationKnown) :
    (writtenNames host toolchain).Pairwise
      fun a b => sameText (host == .windows) a b = false := by
  have hcommon (ignoreCase : Bool) :
      (pathName :: commonNames).Pairwise fun a b => sameText ignoreCase a b = false := by
    cases ignoreCase <;> decide
  cases host
  case windows =>
    cases hi : toolchain.installation with
    | none => simpa [writtenNames, hi] using hcommon true
    | some installation =>
      obtain ⟨year, hy, hn⟩ := h installation hi
      have hnames : writtenNames .windows toolchain = pathName :: (installationNames
          ⟨VisualStudio.prefixVariable year, installation.path⟩ ++ commonNames) := by
        simp [writtenNames, hi, installationNames, hn]
      rw [hnames]
      simp only [VisualStudio.years, VisualStudio.locatedYears, VisualStudio.legacyReleases,
        List.map_cons, List.map_nil, List.cons_append, List.nil_append, List.mem_cons,
        List.not_mem_nil, or_false] at hy
      simp only [installationNames]
      rcases hy with rfl | rfl | rfl | rfl <;> decide
  all_goals exact hcommon false

def otherWrites (host : Host) (defaults : ToolDefaults) (root : Text) (toolchain : Toolchain)
    (conf : Text) : List Write :=
  hostWrites host defaults root toolchain ++ placeWrites host root ++
    lastWrites conf toolchain.identifier

theorem writtenNames_eq (host : Host) (defaults : ToolDefaults) (root : Text)
    (toolchain : Toolchain) (conf : Text) : writtenNames host toolchain =
      pathName :: (otherWrites host defaults root toolchain conf).map Write.name := by
  unfold writtenNames otherWrites hostWrites
  split
  · cases toolchain.installation <;> rfl
  · rfl

theorem name_of_mem_pathWrites {host : Host} {root : Text} {call : Write}
    (h : call ∈ pathWrites host root) : call.name = pathName := by
  obtain ⟨directory, -, rfl⟩ := List.mem_map.mp h
  rfl

/-- The tool directories name none of each other's pieces, whatever the root is called. -/
theorem toolDirectories_pieces (host : Host) (root : Text) :
    (toolDirectories host root).Pairwise fun a b => b ∉ Text.split host.listSeparator a := by
  cases host
  case windows =>
    refine List.pairwise_pair.mpr ?_
    exact Text.append_not_mem_split (Text.dropEnd (· == '\\') root)
      (a := "\\BaseTools\\Bin\\Win32".toList)
      (b := "\\BaseTools\\BinWrappers\\WindowsLike".toList) (by decide) (by decide)
  all_goals simp [toolDirectories]

theorem toolDirectories_ne_nil {host : Host} {root directory : Text}
    (h : directory ∈ toolDirectories host root) : directory ≠ [] := by
  have hjoin (base part : Text) (parts : List Text) : host.join base (part :: parts) ≠ [] := by
    simp [Host.join]
  cases host <;> simp only [toolDirectories, List.mem_cons, List.not_mem_nil, or_false] at h
  · exact h ▸ hjoin _ _ _
  · exact h ▸ hjoin _ _ _
  · rcases h with rfl | rfl <;> exact hjoin _ _ _

/-! ## What preparation changes -/

/-- What preparation makes of an overlay, where names are one by the rule of the host. -/
structure Prepared (host : Host) (defaults : ToolDefaults) (root : Text) (toolchain : Toolchain)
    (before after : Overlay) : Prop where
  rule : after.ignoreCase = (host == .windows)
  identifier : after.getBytes? toolchainName = some (Utf8.encode toolchain.identifier)
  tools : after.getBytes? toolsName = some (Utf8.encode (host.join root [baseTools]))
  sameTools : after.getBytes? baseToolsName = some (Utf8.encode (host.join root [baseTools]))
  /-- A workspace that has a name keeps it. -/
  workspace : after.getBytes? workspaceName =
    some ((before.getBytes? workspaceName).getD (Utf8.encode root))
  confPath : after.getBytes? confName = some (Utf8.encode
    (host.join ((after.get? workspaceName).getD root) [ConfDirectory.name]))
  /-- What the search path held is still in front, octet by octet; behind it are the directories
  that it did not list. -/
  path : after.getBytes? pathName = some (lengthened host before.searchPath
    ((toolDirectories host root).filter fun directory =>
      directory ∉ entries host before.searchPath))
  installed : host = .windows → ∃ installation, toolchain.installation = some installation ∧
    after.getBytes? installation.variableName = some (Utf8.encode installation.path)
  pythonPath : host = .windows → after.getBytes? pythonPathName = some (Utf8.encode
    (host.join root [baseTools, "Source".toList, "Python".toList]))
  nasm : host = .windows → after.getBytes? nasmName =
    some ((before.getBytes? nasmName).getD (Utf8.encode defaults.nasmPrefix))
  openssl : host = .windows → after.getBytes? opensslName =
    some ((before.getBytes? opensslName).getD (Utf8.encode defaults.opensslPath))
  iasl : host = .windows → after.getBytes? iaslName =
    some ((before.getBytes? iaslName).getD (Utf8.encode defaults.iaslPrefix))
  /-- No other variable changes. -/
  others : ∀ name, (∀ written ∈ writtenNames host toolchain,
    sameText (host == .windows) written name = false) →
      after.getBytes? name = before.getBytes? name
  /-- No spelling goes, and the new ones are those of variables that were not there. -/
  kept : before.names.Sublist after.names
  added : ∀ k ∈ after.names, k ∉ before.names →
    ∃ name ∈ writtenNames host toolchain, k = Utf8.encode name ∧ before.spelling? name = none
  /-- A spelling that none of the written variables is found under keeps its value, also where it
  is a second spelling of one of them. -/
  values : ∀ k ∈ before.names, (∀ name ∈ writtenNames host toolchain,
    before.spelling? name ≠ some k) → after.lookup k = before.lookup k

section Calls
variable {host : Host} {defaults : ToolDefaults} {root : Text} {toolchain : Toolchain}
  {conf : Text} {before : Overlay}

/-- The overlay after all calls, where the configuration directory is `conf`. -/
def wired (host : Host) (defaults : ToolDefaults) (root : Text) (toolchain : Toolchain)
    (conf : Text) (before : Overlay) : Overlay :=
  applyAll (pathWrites host root ++ otherWrites host defaults root toolchain conf) before

theorem mem_writtenNames {call : Write}
    (h : call ∈ otherWrites host defaults root toolchain conf) :
    call.name ∈ writtenNames host toolchain := by
  rw [writtenNames_eq host defaults root toolchain conf]
  exact List.mem_cons_of_mem _ (List.mem_map_of_mem h)

theorem name_mem_writtenNames {call : Write}
    (h : call ∈ pathWrites host root ++ otherWrites host defaults root toolchain conf) :
    call.name ∈ writtenNames host toolchain := by
  rcases List.mem_append.mp h with h | h
  · rw [name_of_mem_pathWrites h]
    exact List.mem_cons_self
  · exact mem_writtenNames h

/-- A variable other than the search path holds what its call makes of what it held. -/
theorem getBytes?_wired (hk : toolchain.InstallationKnown)
    (hrule : before.ignoreCase = (host == .windows)) {call : Write}
    (hc : call ∈ otherWrites host defaults root toolchain conf) :
    (wired host defaults root toolchain conf before).getBytes? call.name =
      (call.value? before.getBytes?).or (before.getBytes? call.name) := by
  have hd : (writtenNames host toolchain).Pairwise _ := writtenNames_distinct hk
  rw [writtenNames_eq host defaults root toolchain conf, ← hrule] at hd
  obtain ⟨hpath, hothers⟩ := List.pairwise_cons.mp hd
  have huntouched : (applyAll (pathWrites host root) before).getBytes? call.name =
      before.getBytes? call.name := by
    apply getBytes?_applyAll_of_untouched
    intro c hp
    rw [name_of_mem_pathWrites hp]
    exact hpath _ (List.mem_map_of_mem hc)
  rw [wired, applyAll_append,
    getBytes?_applyAll_of_distinct (by rwa [applyAll_ignoreCase]) hc,
    Write.value?_congr huntouched, huntouched]

/-- The search path is what appending the tool directories makes of it. -/
theorem getBytes?_pathWrites (hsupported : host ≠ .unsupported) (root : Text) (before : Overlay) :
    (applyAll (pathWrites host root) before).getBytes? pathName =
      some (lengthened host before.searchPath
        ((toolDirectories host root).filter fun directory =>
          directory ∉ entries host before.searchPath)) := by
  have hsome : ((applyAll (pathWrites host root) before).getBytes? pathName).isSome = true := by
    obtain ⟨first, rest, hdirs⟩ : ∃ first rest, toolDirectories host root = first :: rest := by
      cases host
      case unsupported => exact absurd rfl hsupported
      all_goals exact ⟨_, _, rfl⟩
    rw [pathWrites, hdirs]
    change ((applyAll (rest.map (.appendPath host)) (before.appendPath host first)).getBytes?
      pathName).isSome = true
    exact isSome_applyAll
      (isSome_appendPath before host (toolDirectories_ne_nil (hdirs ▸ List.mem_cons_self)))
  obtain ⟨path, hsome⟩ := Option.isSome_iff_exists.mp hsome
  have hlong := searchPath_appendPaths host (fun _ => toolDirectories_ne_nil)
    (toolDirectories_pieces host root) before
  change (applyAll (pathWrites host root) before).searchPath = _ at hlong
  rw [searchPath, hsome, Option.getD_some] at hlong
  rw [hsome, hlong]

/-- The other calls leave the search path as it is. -/
theorem getBytes?_wired_path (hk : toolchain.InstallationKnown)
    (hrule : before.ignoreCase = (host == .windows)) (hsupported : host ≠ .unsupported) :
    (wired host defaults root toolchain conf before).getBytes? pathName =
      some (lengthened host before.searchPath
        ((toolDirectories host root).filter fun directory =>
          directory ∉ entries host before.searchPath)) := by
  have hd : (writtenNames host toolchain).Pairwise _ := writtenNames_distinct hk
  rw [writtenNames_eq host defaults root toolchain conf, ← hrule] at hd
  obtain ⟨hpath, -⟩ := List.pairwise_cons.mp hd
  have huntouched : (wired host defaults root toolchain conf before).getBytes? pathName =
      (applyAll (pathWrites host root) before).getBytes? pathName := by
    rw [wired, applyAll_append]
    apply getBytes?_applyAll_of_untouched
    intro call hc
    rw [applyAll_ignoreCase]
    cases hs : sameText before.ignoreCase call.name pathName with
    | false => rfl
    | true => rw [← hpath _ (List.mem_map_of_mem hc), sameText_symm hs]
  rw [huntouched, getBytes?_pathWrites hsupported]

end Calls

/-- What `wired` says of each variable is what preparation is to do. -/
theorem prepared_wired {host : Host} {defaults : ToolDefaults} {root : Text}
    {toolchain : Toolchain} {conf : Text} {before : Overlay} (hk : toolchain.InstallationKnown)
    (hrule : before.ignoreCase = (host == .windows)) (hsupported : host ≠ .unsupported)
    (hinstalled : host = .windows → toolchain.installation.isSome)
    (hconf : conf = host.join (((wired host defaults root toolchain conf before).get?
      workspaceName).getD root) [ConfDirectory.name]) :
    Prepared host defaults root toolchain before
      (wired host defaults root toolchain conf before) := by
  have value (call : Write) (hc : call ∈ otherWrites host defaults root toolchain conf) :=
    getBytes?_wired hk hrule hc
  have common (call : Write) (hc : call ∈ placeWrites host root ++
      lastWrites conf toolchain.identifier) :=
    value call (by
      rw [otherWrites, List.append_assoc]
      exact List.mem_append_right _ hc)
  have installed (hw : host = .windows) : ∃ installation,
      toolchain.installation = some installation ∧
        ∀ call ∈ installationWrites defaults root installation,
          call ∈ otherWrites host defaults root toolchain conf := by
    obtain ⟨installation, hi⟩ := Option.isSome_iff_exists.mp (hinstalled hw)
    refine ⟨installation, hi, fun call hc => ?_⟩
    rw [otherWrites, List.append_assoc, hostWrites, if_pos hw, hi]
    exact List.mem_append_left _ (by simpa using hc)
  refine
    { rule := ?rule, identifier := ?identifier, tools := ?tools, sameTools := ?sameTools,
      workspace := ?workspace, confPath := ?confPath,
      path := getBytes?_wired_path hk hrule hsupported, installed := ?installed,
      pythonPath := ?pythonPath, nasm := ?nasm, openssl := ?openssl, iasl := ?iasl,
      others := ?others, kept := names_sublist_applyAll _ _, added := ?added, values := ?values }
  case rule => rw [wired, applyAll_ignoreCase, hrule]
  case identifier => exact common (.set toolchainName _) (by simp [lastWrites])
  case tools => exact common (.set toolsName _) (by simp [placeWrites])
  case sameTools => exact common (.set baseToolsName _) (by simp [placeWrites])
  case workspace =>
    exact (common (.setDefault workspaceName _) (by simp [placeWrites])).trans
      (Write.value?_setDefault_or _ _ _)
  case confPath =>
    rw [← hconf]
    exact common (.set confName _) (by simp [lastWrites])
  case installed =>
    intro hw
    obtain ⟨installation, hi, hmem⟩ := installed hw
    exact ⟨installation, hi, value _ (hmem (.set installation.variableName _)
      (by simp [installationWrites]))⟩
  case pythonPath =>
    intro hw
    obtain ⟨installation, -, hmem⟩ := installed hw
    subst hw
    exact value _ (hmem (.set pythonPathName _) List.mem_cons_self)
  case nasm =>
    intro hw
    obtain ⟨installation, -, hmem⟩ := installed hw
    exact (value _ (hmem (.setDefault nasmName _) (by simp [installationWrites]))).trans
      (Write.value?_setDefault_or _ _ _)
  case openssl =>
    intro hw
    obtain ⟨installation, -, hmem⟩ := installed hw
    exact (value _ (hmem (.setDefault opensslName _) (by simp [installationWrites]))).trans
      (Write.value?_setDefault_or _ _ _)
  case iasl =>
    intro hw
    obtain ⟨installation, -, hmem⟩ := installed hw
    exact (value _ (hmem (.setDefault iaslName _) (by simp [installationWrites]))).trans
      (Write.value?_setDefault_or _ _ _)
  case others =>
    intro name hname
    apply getBytes?_applyAll_of_untouched
    intro call hc
    rw [hrule]
    exact hname _ (name_mem_writtenNames hc)
  case added =>
    intro k hnew hold
    obtain ⟨call, hc, he, hs⟩ := mem_names_applyAll hnew hold
    exact ⟨call.name, name_mem_writtenNames hc, he, hs⟩
  case values =>
    intro k hold hname
    exact lookup_applyAll_of_untouched hold fun call hc => hname _ (name_mem_writtenNames hc)

/-- Where preparation succeeds, it has made all its calls on the inherited overlay under the naming
rule of the host, and the configuration directory goes with the workspace that the overlay names. -/
theorem prepare_wired {bench : Workbench} {defaults : ToolDefaults} {root : Bytes}
    {s left : Session} {toolchain : Toolchain} (hr : bench.runner.KeepsOverlay)
    (h : prepare bench defaults root s = .ok toolchain left) :
    left.env = wired bench.host defaults (Utf8.decodeLossy root) toolchain
      (confText bench.host (Utf8.decodeLossy root) left.env) (s.env.setHost bench.host) := by
  obtain ⟨middle, hres, -, -, ready, hready, hleft⟩ := prepare_ok h
  have hkeep : ((Toolchain.resolve bench).after { s with env := s.env.setHost bench.host }).env =
      s.env.setHost bench.host := (Toolchain.resolve_reads hr).keeps _
  rw [Run.after_ok hres] at hkeep
  -- naming the configuration directory and the toolchain does not rename the workspace
  have hworkspace : left.env.getBytes? workspaceName = ready.getBytes? workspaceName := by
    rw [hleft]
    apply getBytes?_applyAll_of_untouched
    simp only [lastWrites, List.mem_cons, List.not_mem_nil, or_false]
    rintro call (rfl | rfl) <;> simp only [Write.name] <;> cases ready.ignoreCase <;> decide
  have hconf : confText bench.host (Utf8.decodeLossy root) left.env =
      confText bench.host (Utf8.decodeLossy root) ready := by
    rw [confText, get?, hworkspace]
    rfl
  rw [hconf, hleft, hready, hkeep, frontWrites, ← applyAll_append, wired, otherWrites]
  simp only [List.append_assoc]

/-- **Preparation changes its own variables and nothing else.** On every host, for every runner that
only reads the overlay: where preparation succeeds, the overlay it leaves is the inherited one,
under the naming rule of the host, with the changes that `Prepared` lists. -/
theorem prepare_changes_exactly {bench : Workbench} {defaults : ToolDefaults} {root : Bytes}
    {s left : Session} {toolchain : Toolchain} (hr : bench.runner.KeepsOverlay)
    (h : prepare bench defaults root s = .ok toolchain left) :
    Prepared bench.host defaults (Utf8.decodeLossy root) toolchain (s.env.setHost bench.host)
      left.env := by
  obtain ⟨middle, hres, hsupported, hinstalled, -⟩ := prepare_ok h
  have hwired := prepare_wired hr h
  have hconf : confText bench.host (Utf8.decodeLossy root) left.env =
      bench.host.join ((left.env.get? workspaceName).getD (Utf8.decodeLossy root))
        [ConfDirectory.name] := rfl
  generalize confText bench.host (Utf8.decodeLossy root) left.env = conf at hwired hconf
  rw [hwired] at hconf ⊢
  exact prepared_wired ((Toolchain.resolve_reads hr).gives _ _ _ hres) rfl hsupported hinstalled
    hconf

/-- A Windows host without the locator, whose commands are all missing. -/
def legacyBench : Workbench :=
  { host := .windows, runner := .scripted fun _ => .notFound, probe := .ofLists [] [] }

def legacyTools : Text := "C:\\Microsoft Visual Studio 14.0\\Common7\\Tools\\".toList

/-- A session with that environment, and with a search path under its usual spelling there. -/
def legacySession : Session where
  env := .ofList [(Utf8.encode "Path".toList, Utf8.encode "C:\\bin".toList),
    (Utf8.encode "VS140COMNTOOLS".toList, Utf8.encode legacyTools)]
  disk := default

theorem prepare_legacy_changes :
    ∃ left, prepare legacyBench {} (Utf8.encode "D:\\ws".toList) legacySession =
        .ok (VisualStudio.legacy "2015".toList legacyTools) left ∧
      Prepared .windows {} (Utf8.decodeLossy (Utf8.encode "D:\\ws".toList))
        (VisualStudio.legacy "2015".toList legacyTools) (legacySession.env.setHost .windows)
        left.env := by
  have hr : legacyBench.runner.KeepsOverlay :=
    Runner.scripted_keepsOverlay fun _ => .notFound
  obtain ⟨left, h⟩ : ∃ left, prepare legacyBench {} (Utf8.encode "D:\\ws".toList) legacySession =
      .ok (VisualStudio.legacy "2015".toList legacyTools) left := ⟨_, rfl⟩
  exact ⟨left, h, prepare_changes_exactly hr h⟩

end Preparation

end FirmwareBuild
