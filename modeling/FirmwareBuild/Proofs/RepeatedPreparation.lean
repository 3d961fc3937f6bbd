import FirmwareBuild.Proofs.AppendedDirectories
import FirmwareBuild.Proofs.PreparedOverlay
import FirmwareBuild.Proofs.VisualStudioSearch

/-! # Preparing once more

A call is settled in an overlay that holds what it would write. After preparation
all of its calls are settled but those about the search path: a directory whose
name holds the separator of the list is cut to pieces when the path is read back,
and so it is never found there. A second preparation comes to the same toolchain,
and changes nothing but a search path with such directories (`prepare_again`). -/

namespace FirmwareBuild

open Overlay

namespace Preparation

variable {host : Host} {root directory : Text}

/-- The separator of the list stands in a tool directory where it stands in the root. -/
theorem listSeparator_mem_toolDirectory (h : directory ∈ toolDirectories host root) :
    host.listSeparator ∈ directory ↔ host.listSeparator ∈ root := by
  have hjoin (parts : List Text) (hparts : host.listSeparator ∉
      parts.flatMap fun part => host.separator :: Text.dropEnds (· == host.separator) part) :
      host.listSeparator ∈ host.join root parts ↔ host.listSeparator ∈ root := by
    have hother : (host.listSeparator == host.separator) = false := by cases host <;> decide
    rw [Host.join, List.mem_append, or_iff_left hparts]
    exact Text.mem_dropEnd hother
  cases host <;> simp only [toolDirectories, List.mem_cons, List.not_mem_nil, or_false] at h
  case windows =>
    rcases h with rfl | rfl
    · exact hjoin _ (by decide)
    · exact hjoin _ (by decide)
  all_goals
    subst h
    exact hjoin _ (by decide)

/-- Preparation appends its tool directories behind a path that lists them once, unless they cannot
be listed at all. -/
theorem unlisted_toolDirectories {before : Bytes} :
    (toolDirectories host root).filter (fun directory => directory ∉ entries host
      (lengthened host before ((toolDirectories host root).filter
        fun directory => directory ∉ entries host before))) =
      if host.listSeparator ∈ root then toolDirectories host root else [] := by
  split
  · rename_i hsep
    rw [List.filter_eq_self]
    intro directory hd
    have hin : host.listSeparator ∈ directory := (listSeparator_mem_toolDirectory hd).mpr hsep
    exact decide_eq_true fun hlisted => Text.not_mem_of_mem_split hlisted hin
  · rename_i hsep
    rw [List.filter_eq_nil_iff]
    intro directory hd
    have hout : host.listSeparator ∉ directory :=
      fun hin => hsep ((listSeparator_mem_toolDirectory hd).mp hin)
    have hne : directory ≠ [] := toolDirectories_ne_nil hd
    intro hunlisted
    have hnot := of_decide_eq_true hunlisted
    by_cases hlisted : directory ∈ entries host before
    · exact hnot (mem_entries_lengthened hlisted hne)
    · have hadded : directory ∈ (toolDirectories host root).filter
          fun directory => directory ∉ entries host before :=
        List.mem_filter.mpr ⟨hd, decide_eq_true hlisted⟩
      exact hnot (mem_entries_lengthened_of_mem hadded hne hout)

end Preparation

/-! ## Resolving once more -/

namespace Toolchain

def readNames : List Text :=
  ["ProgramFiles(x86)".toList, "VS140COMNTOOLS".toList, "VS120COMNTOOLS".toList]

/-- Resolution launches the same commands, at most one, and comes to the same end wherever the files
and the variables that it reads are the same. -/
theorem resolve_congr {bench : Workbench} {script : Text → Reply}
    (hr : bench.runner = .scripted script) {s s' : Session} (hdisk : s'.disk = s.disk)
    (hreads : ∀ name ∈ readNames, s'.env.get? name = s.env.get? name) :
    ∃ launched outcome, launched.length ≤ 1 ∧ resolve bench s = Run.ends s launched outcome ∧
      resolve bench s' = Run.ends s' launched outcome := by
  unfold resolve
  cases bench.host with
  | macos =>
    have hends (s : Session) := Run.ends_bind (f := fun output =>
        (pure { identifier := xcode5, version := Text.trim output } : Run Toolchain))
      (Runner.scripted_ends script (versionCommand "clang") s)
      fun output left => (Run.ends_nil_ok _ left).symm
    rw [hr]
    exact ⟨[versionCommand "clang"], _, Nat.le_refl 1, hends s, hends s'⟩
  | posix =>
    rw [hr]
    refine ⟨[versionCommand "gcc"], Runner.reply script (versionCommand "gcc") >>= gnu,
      Nat.le_refl 1, ?_, ?_⟩
    all_goals
      refine Run.ends_bind (Runner.scripted_ends script _ _) fun output left => ?_
      cases gnu output with
      | ok toolchain => exact (Run.ends_nil_ok toolchain left).symm
      | error e => exact (Run.ends_nil_error e left).symm
  | windows =>
    have hprogram :
        s'.env.get? "ProgramFiles(x86)".toList = s.env.get? "ProgramFiles(x86)".toList :=
      hreads _ (by simp [readNames])
    have holder : VisualStudio.legacyIn s'.env = VisualStudio.legacyIn s.env := by
      have h14 := hreads "VS140COMNTOOLS".toList (by simp [readNames])
      have h12 := hreads "VS120COMNTOOLS".toList (by simp [readNames])
      rw [VisualStudio.legacyIn_eq, VisualStudio.legacyIn_eq, h14, h12]
    have hlocator (p : Text) : VisualStudio.HasLocator bench.probe s'.disk s'.env p ↔
        VisualStudio.HasLocator bench.probe s.disk s.env p := by
      rw [hdisk]
      exact ⟨fun h => ⟨hprogram ▸ h.reads, h.there⟩, fun h => ⟨hprogram ▸ h.reads, h.there⟩⟩
    by_cases h : ∃ p, VisualStudio.HasLocator bench.probe s.disk s.env p
    · obtain ⟨p, hp⟩ := h
      have hs := VisualStudio.resolve_of_find? (VisualStudio.find?_asked hr hp)
      have hs' := VisualStudio.resolve_of_find? (VisualStudio.find?_asked hr ((hlocator p).mpr hp))
      rw [hdisk, holder] at hs'
      exact ⟨[VisualStudio.question p], _, Nat.le_refl 1, hs, hs'⟩
    · have hnone : ∀ p, ¬ VisualStudio.HasLocator bench.probe s.disk s.env p :=
        fun p hp => h ⟨p, hp⟩
      have hnone' : ∀ p, ¬ VisualStudio.HasLocator bench.probe s'.disk s'.env p :=
        fun p hp => h ⟨p, (hlocator p).mp hp⟩
      have hs := VisualStudio.resolve_of_find?
        ((VisualStudio.find?_unasked hnone).trans (Run.ends_nil_ok none s).symm)
      have hs' := VisualStudio.resolve_of_find?
        ((VisualStudio.find?_unasked hnone').trans (Run.ends_nil_ok none s').symm)
      rw [holder] at hs'
      exact ⟨[], _, Nat.zero_le 1, hs, hs'⟩
  | unsupported =>
    exact ⟨[], .ok .unresolved, Nat.zero_le 1, (Run.ends_nil_ok _ s).symm,
      (Run.ends_nil_ok _ s').symm⟩

end Toolchain

/-! ## Preparing once more -/

namespace Preparation

variable {host : Host} {defaults : ToolDefaults} {root conf : Text} {toolchain : Toolchain}
  {before : Overlay}

theorem readNames_unwritten (hk : toolchain.InstallationKnown) :
    ∀ name ∈ Toolchain.readNames, ∀ written ∈ writtenNames host toolchain,
      sameText (host == .windows) written name = false := by
  have hcommon (ignoreCase : Bool) : ∀ name ∈ Toolchain.readNames,
      ∀ written ∈ pathName :: commonNames, sameText ignoreCase written name = false := by
    cases ignoreCase <;> decide
  cases host
  case windows =>
    cases hi : toolchain.installation with
    | none => simpa [writtenNames, hi] using hcommon true
    | some installation =>
      obtain ⟨year, hy, hn⟩ := hk installation hi
      have hnames : writtenNames .windows toolchain = pathName :: ([pythonPathName,
          VisualStudio.prefixVariable year, nasmName, opensslName, iaslName] ++ commonNames) := by
        simp [writtenNames, hi, installationNames, hn]
      rw [hnames]
      have hyears : ∀ year ∈ VisualStudio.years, ∀ name ∈ Toolchain.readNames,
          ∀ written ∈ pathName :: ([pythonPathName, VisualStudio.prefixVariable year, nasmName,
            opensslName, iaslName] ++ commonNames), sameText true written name = false := by
        decide
      exact hyears year hy
  all_goals exact hcommon false

/-- Resolution comes to the toolchain of a preparation wherever the files are still those and the
variables that it reads hold what preparation left in them. -/
theorem resolve_prepared {bench : Workbench} {script : Text → Reply}
    (hr : bench.runner = .scripted script) {root : Bytes} {s prepared left : Session}
    (h : prepare bench defaults root s = .ok toolchain prepared)
    (hdisk : left.disk = prepared.disk)
    (hreads : ∀ name ∈ Toolchain.readNames, left.env.get? name = prepared.env.get? name) :
    ∃ launched, launched.length ≤ 1 ∧
      Toolchain.resolve bench left = Run.ends left launched (.ok toolchain) := by
  have hkeeps : bench.runner.KeepsOverlay := hr ▸ Runner.scripted_keepsOverlay script
  have hkeepsDisk : ∀ command, Run.Keeps Session.disk (bench.runner command) :=
    hr ▸ Runner.scripted_keeps (fun _ _ => rfl) script
  have hwired := prepare_wired hkeeps h
  obtain ⟨middle, hres, -, -, -, hprepared⟩ := prepare_iff.mp h
  have hk : toolchain.InstallationKnown := (Toolchain.resolve_reads hkeeps).gives _ _ _ hres
  have hsame : prepared.disk = s.disk := by
    have hafter := (Toolchain.resolve_reads hkeepsDisk).keeps
      { s with env := s.env.setHost bench.host }
    rw [Run.after_ok hres] at hafter
    rw [hprepared]
    exact hafter
  have hheld : ∀ name ∈ Toolchain.readNames,
      left.env.get? name = (s.env.setHost bench.host).get? name := by
    intro name hname
    have hkept : prepared.env.getBytes? name = (s.env.setHost bench.host).getBytes? name := by
      rw [hwired]
      apply getBytes?_applyAll_of_untouched
      intro call hc
      exact readNames_unwritten hk name hname _ (name_mem_writtenNames hc)
    rw [hreads name hname, get?, get?, hkept]
  obtain ⟨launched, outcome, hone, hfirst, hsecond⟩ :=
    Toolchain.resolve_congr hr (s := { s with env := s.env.setHost bench.host })
      (hdisk.trans hsame) hheld
  rw [hres] at hfirst
  cases outcome with
  | error e => cases hfirst
  | ok found =>
    obtain ⟨rfl, -⟩ := EStateM.Result.ok.inj hfirst
    exact ⟨launched, hone, hsecond⟩

theorem settled_wired (hk : toolchain.InstallationKnown)
    (hrule : before.ignoreCase = (host == .windows)) {call : Write}
    (hc : call ∈ otherWrites host defaults root toolchain conf) :
    call.Settled (wired host defaults root toolchain conf before) ∧
      sameText (host == .windows) pathName call.name = false := by
  have hd : (writtenNames host toolchain).Pairwise _ := writtenNames_distinct hk
  rw [writtenNames_eq host defaults root toolchain conf] at hd
  have hpath := (List.pairwise_cons.mp hd).1 call.name (List.mem_map_of_mem hc)
  have hne : call.name ≠ pathName := by
    intro he
    rw [he, sameText_refl] at hpath
    cases hpath
  exact ⟨Write.settled_of_made hne (getBytes?_wired hk hrule hc), hpath⟩

/-- The overlay that a second preparation leaves, if the first one left `once`. -/
def again (host : Host) (root : Text) (once : Overlay) : Overlay :=
  if host.listSeparator ∈ root then
    once.set pathName (lengthened host once.searchPath (toolDirectories host root))
  else once

theorem pathWrites_again {once : Overlay} (hpath : once.getBytes? pathName =
    some (lengthened host before.searchPath ((toolDirectories host root).filter fun directory =>
      directory ∉ entries host before.searchPath))) :
    applyAll (pathWrites host root) once = again host root once := by
  have honce : once.searchPath = lengthened host before.searchPath
      ((toolDirectories host root).filter fun directory =>
        directory ∉ entries host before.searchPath) := by
    rw [searchPath, hpath, Option.getD_some]
  have hlong := searchPath_appendPaths host (fun _ => toolDirectories_ne_nil)
    (toolDirectories_pieces host root) once
  have hset := appendPaths_eq_set host (toolDirectories host root) (Option.isSome_of_eq_some hpath)
  rw [pathWrites, hset, hlong, honce, unlisted_toolDirectories, again, honce]
  split
  · rfl
  · exact set_of_getBytes? hpath

theorem equipped_again (hk : toolchain.InstallationKnown)
    (hrule : before.ignoreCase = (host == .windows)) (hsupported : host ≠ .unsupported)
    {once : Overlay}
    (honce : once = wired host defaults root toolchain (confText host root once) before) :
    equipped host defaults root toolchain once = again host root once := by
  have hpath : once.getBytes? pathName = some (lengthened host before.searchPath
      ((toolDirectories host root).filter fun directory =>
        directory ∉ entries host before.searchPath)) := by
    rw [honce]
    exact getBytes?_wired_path hk hrule hsupported
  have hignore : once.ignoreCase = (host == .windows) := by
    rw [honce, wired, applyAll_ignoreCase, hrule]
  -- the variables behind the search path hold after a second lengthening what they held before it
  have hkept (name : Text) (hn : sameText (host == .windows) pathName name = false) :
      (again host root once).getBytes? name = once.getBytes? name := by
    rw [again]
    split
    · rw [getBytes?_set, hignore, hn]
      rfl
    · rfl
  have hsettled : ∀ call ∈ otherWrites host defaults root toolchain (confText host root once),
      call.Settled (again host root once) := by
    intro call hc
    have hmade : call.Settled once ∧ sameText (host == .windows) pathName call.name = false := by
      rw [honce]
      exact settled_wired hk hrule hc
    exact hmade.1.congr (hkept call.name hmade.2)
  have hconf : confText host root (again host root once) = confText host root once := by
    have hworkspace : sameText (host == .windows) pathName workspaceName = false := by
      cases host <;> decide
    rw [confText, get?, hkept workspaceName hworkspace]
    rfl
  have hfront : applyAll (frontWrites host defaults root toolchain) once =
      again host root once := by
    rw [frontWrites, applyAll_append, pathWrites_again hpath]
    refine applyAll_settled fun call hc => hsettled call ?_
    rw [otherWrites]
    exact List.mem_append_left _ hc
  rw [equipped_eq, hfront, hconf]
  refine applyAll_settled fun call hc => hsettled call ?_
  rw [otherWrites]
  exact List.mem_append_right _ hc

/-- **Preparing once more changes nothing but a search path that cannot list its directories.**
Where preparation succeeds, doing it once more comes to the same toolchain. It leaves the overlay
exactly as it was, unless the separator of the search path stands in the root: then the tool
directories are appended once more, all of them. -/
theorem prepare_again (host : Host) (script : Text → Reply) (probe : Probe)
    (defaults : ToolDefaults) (root : Bytes) {s once : Session} {toolchain : Toolchain}
    (h : prepare ⟨host, .scripted script, probe⟩ defaults root s = .ok toolchain once) :
    ∃ twice, prepare ⟨host, .scripted script, probe⟩ defaults root once = .ok toolchain twice ∧
      twice.env = again host (Utf8.decodeLossy root) once.env := by
  generalize hbench : (⟨host, .scripted script, probe⟩ : Workbench) = bench at h ⊢
  have hr : bench.runner = .scripted script := by rw [← hbench]
  obtain rfl : bench.host = host := by rw [← hbench]
  have hkeeps : bench.runner.KeepsOverlay := hr ▸ Runner.scripted_keepsOverlay script
  have hwired := prepare_wired hkeeps h
  obtain ⟨middle, hres, hsupported, hinstalled, hresolved, -⟩ := prepare_iff.mp h
  have hk : toolchain.InstallationKnown := (Toolchain.resolve_reads hkeeps).gives _ _ _ hres
  have hrule : once.env.setHost bench.host = once.env := by
    have hignore : once.env.ignoreCase = (bench.host == .windows) := by
      rw [hwired, wired, applyAll_ignoreCase]
      rfl
    rw [setHost, ← hignore]
  obtain ⟨launched, -, hagain⟩ := resolve_prepared hr h rfl fun _ _ => rfl
  have hresolve : Toolchain.resolve bench { once with env := once.env.setHost bench.host } =
      .ok toolchain { once with
        launches := once.launches ++ Run.launchesWith once.env launched } := by
    rw [hrule]
    exact hagain
  exact ⟨_, prepare_iff.mpr ⟨_, hresolve, hsupported, hinstalled, hresolved, rfl⟩,
    equipped_again hk rfl hsupported hwired⟩

def answersNine : Text → Reply := fun _ => .output "9\n".toList

theorem prepare_again_plain :
    ∃ once twice, prepare ⟨.posix, .scripted answersNine, .ofLists [] []⟩ {}
        (Utf8.encode "/ab".toList) { disk := default } =
          .ok { identifier := Toolchain.gcc5, version := "9".toList } once ∧
      prepare ⟨.posix, .scripted answersNine, .ofLists [] []⟩ {} (Utf8.encode "/ab".toList) once =
          .ok { identifier := Toolchain.gcc5, version := "9".toList } twice ∧
      twice.env = again .posix (Utf8.decodeLossy (Utf8.encode "/ab".toList)) once.env := by
  obtain ⟨once, h⟩ : ∃ once, prepare ⟨.posix, .scripted answersNine, .ofLists [] []⟩ {}
      (Utf8.encode "/ab".toList) { disk := default } =
        .ok { identifier := Toolchain.gcc5, version := "9".toList } once := ⟨_, rfl⟩
  obtain ⟨twice, htwice⟩ := prepare_again .posix answersNine (.ofLists [] []) {} _ h
  exact ⟨once, twice, h, htwice⟩

/-- In a root with a separator of the list, preparation is not idempotent. -/
theorem prepare_again_separated :
    ∃ once twice, prepare ⟨.posix, .scripted answersNine, .ofLists [] []⟩ {}
        (Utf8.encode "/a:b".toList) { disk := default } =
          .ok { identifier := Toolchain.gcc5, version := "9".toList } once ∧
      prepare ⟨.posix, .scripted answersNine, .ofLists [] []⟩ {} (Utf8.encode "/a:b".toList) once =
          .ok { identifier := Toolchain.gcc5, version := "9".toList } twice ∧
      twice.env ≠ once.env := by
  refine ⟨_, _, rfl, rfl, ?_⟩
  decide

end Preparation

end FirmwareBuild
