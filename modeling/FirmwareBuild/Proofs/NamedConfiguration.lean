import FirmwareBuild.Proofs.PreparedOverlay

/-! # The configuration directory that the environment names

Preparation leaves a workspace that the environment names already and names the
configuration directory after it. The name is put together as text, so that it goes
with the workspace octet by octet where the workspace is text, and with the root that
was asked for otherwise (`prepare_names_conf`). -/

namespace FirmwareBuild.Preparation

open Overlay

def separatorOctet (host : Host) : UInt8 := UInt8.ofNat host.separator.toNat

/-- The configuration directory in a workspace, whose name may end in separators. -/
def confIn (host : Host) (workspace : Bytes) : Bytes :=
  Text.dropEnd (· == separatorOctet host) workspace ++
    separatorOctet host :: Utf8.encode "Conf".toList

theorem separatorOctet_ascii (host : Host) : (separatorOctet host).toNat < 0x80 := by
  cases host <;> decide

theorem encode_join_conf (host : Host) (workspace : Text) :
    Utf8.encode (host.join workspace [ConfDirectory.name]) =
      confIn host (Utf8.encode workspace) := by
  have hsep : host.separator.toNat < 0x80 := by cases host <;> decide
  have hname : Utf8.encode (host.separator ::
      Text.dropEnds (· == host.separator) ConfDirectory.name) =
      separatorOctet host :: Utf8.encode "Conf".toList := by
    cases host <;> decide
  rw [Host.join, List.flatMap_singleton, Utf8.encode_append, Utf8.encode_dropEnd hsep, hname]
  rfl

theorem isText_confIn (host : Host) (workspace : Bytes) :
    Utf8.isText (confIn host workspace) = Utf8.isText workspace := by
  obtain ⟨tail, hsplit, htail⟩ := Text.dropEnd_append_tail (· == separatorOctet host) workspace
  have hascii : ∀ b ∈ tail, b.toNat < 0x80 := by
    intro b hb
    rw [eq_of_beq (htail b hb)]
    exact separatorOctet_ascii host
  have hstem := Utf8.isText_append_of_ascii
    (Text.dropEnd (· == separatorOctet host) workspace) hascii
  rw [← hsplit] at hstem
  rw [confIn, Utf8.isText_append_ascii _ (separatorOctet_ascii host), Utf8.isText_encode,
    Bool.and_true, hstem]

/-- How the configuration directory is named for a build in `root`, where the overlay before was
`before`. -/
structure NamesConf (host : Host) (root : Bytes) (before after : Overlay) (workspace : Bytes) :
    Prop where
  /-- The workspace is the inherited one, octet by octet, or the root. -/
  inherited : workspace =
    (before.getBytes? workspaceName).getD (Utf8.encode (Utf8.decodeLossy root))
  named : after.getBytes? workspaceName = some workspace
  /-- The configuration directory lies in it, if its name is text, and in the root otherwise. -/
  conf : after.getBytes? confName = some (confIn host
    (if Utf8.isText workspace then workspace else Utf8.encode (Utf8.decodeLossy root)))
  agrees : after.getBytes? confName = some (confIn host workspace) ↔ Utf8.isText workspace = true

/-- **The configuration directory goes with the workspace.** On every host, for every root and every
runner that only reads the overlay: where preparation succeeds, the overlay names a workspace, and
its configuration directory exactly if the name of the workspace is text. -/
theorem prepare_names_conf {bench : Workbench} {defaults : ToolDefaults} {root : Bytes}
    {s left : Session} {toolchain : Toolchain} (hr : bench.runner.KeepsOverlay)
    (h : prepare bench defaults root s = .ok toolchain left) :
    ∃ workspace, NamesConf bench.host root (s.env.setHost bench.host) left.env workspace := by
  have hprepared := prepare_changes_exactly hr h
  have hworkspace := hprepared.workspace
  have hconf := hprepared.confPath
  generalize hw : ((s.env.setHost bench.host).getBytes? workspaceName).getD
    (Utf8.encode (Utf8.decodeLossy root)) = workspace at hworkspace
  have hread : Utf8.encode ((left.env.get? workspaceName).getD (Utf8.decodeLossy root)) =
      if Utf8.isText workspace then workspace else Utf8.encode (Utf8.decodeLossy root) := by
    rw [get?, hworkspace, Option.bind_some, Utf8.decode?]
    split
    · rename_i htext
      exact Utf8.encode_of_isText htext
    · rfl
  rw [encode_join_conf, hread] at hconf
  refine ⟨workspace, hw.symm, hworkspace, hconf, fun hagrees => ?_, fun htext => ?_⟩
  · -- the octets of the directory are those of a text, since they were put together as one
    rw [hconf] at hagrees
    rw [← isText_confIn bench.host workspace, ← Option.some.inj hagrees, isText_confIn]
    split
    · assumption
    · exact Utf8.isText_encode _
  · rw [hconf, if_pos htext]

def newerBench : Workbench :=
  { host := .posix, runner := .scripted fun _ => .output "9".toList, probe := .ofLists [] [] }

def namedSession (workspace : Bytes) : Session where
  env := .ofList [(Utf8.encode workspaceName, workspace)]
  disk := default

/-- A workspace other than the root, whose name ends in separators. -/
theorem prepare_names_external : ∃ left,
    prepare newerBench {} (Utf8.encode "/ws".toList) (namedSession (Utf8.encode "/w//".toList)) =
      .ok ⟨"GCC5".toList, "9".toList, none⟩ left ∧
    NamesConf .posix (Utf8.encode "/ws".toList)
      ((namedSession (Utf8.encode "/w//".toList)).env.setHost .posix) left.env
      (Utf8.encode "/w//".toList) ∧
    left.env.getBytes? confName = some (Utf8.encode "/w/Conf".toList) := by
  have hr : newerBench.runner.KeepsOverlay :=
    Runner.scripted_keepsOverlay fun _ => .output "9".toList
  obtain ⟨left, h⟩ : ∃ left, prepare newerBench {} (Utf8.encode "/ws".toList)
      (namedSession (Utf8.encode "/w//".toList)) = .ok ⟨"GCC5".toList, "9".toList, none⟩ left :=
    ⟨_, rfl⟩
  obtain ⟨workspace, hnames⟩ := prepare_names_conf hr h
  obtain rfl : workspace = Utf8.encode "/w//".toList := hnames.inherited.trans (by decide)
  refine ⟨left, h, hnames, (hnames.agrees.mpr (by decide)).trans ?_⟩
  decide

/-- A workspace whose name is no text is left, and the configuration directory is that of the
root. -/
theorem prepare_parts_unreadable : ∃ left,
    prepare newerBench {} (Utf8.encode "/ws".toList) (namedSession [0x2F, 0x77, 0xE9]) =
      .ok ⟨"GCC5".toList, "9".toList, none⟩ left ∧
    left.env.getBytes? workspaceName = some [0x2F, 0x77, 0xE9] ∧
    left.env.getBytes? confName = some (Utf8.encode "/ws/Conf".toList) ∧
    left.env.getBytes? confName ≠ some (confIn .posix [0x2F, 0x77, 0xE9]) := by
  refine ⟨_, rfl, ?_, ?_, ?_⟩ <;> decide +kernel

end FirmwareBuild.Preparation
