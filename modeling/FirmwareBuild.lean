import FirmwareBuild.Build
import FirmwareBuild.Build.Flags
import FirmwareBuild.Build.Phases
import FirmwareBuild.BuildError
import FirmwareBuild.ConfDirectory
import FirmwareBuild.Disk
import FirmwareBuild.Disk.Canonical
import FirmwareBuild.Disk.IoError
import FirmwareBuild.Disk.Naming
import FirmwareBuild.Disk.Node
import FirmwareBuild.Disk.Pathname
import FirmwareBuild.FrontEnd
import FirmwareBuild.FrontEnd.Assignment
import FirmwareBuild.FrontEnd.CommandLine
import FirmwareBuild.Host
import FirmwareBuild.Json
import FirmwareBuild.Json.Reader
import FirmwareBuild.Main
import FirmwareBuild.Overlay
import FirmwareBuild.Posix
import FirmwareBuild.Posix.Channel
import FirmwareBuild.Posix.CharacterClass
import FirmwareBuild.Posix.Condition
import FirmwareBuild.Posix.Floating
import FirmwareBuild.Posix.Format
import FirmwareBuild.Posix.Installed
import FirmwareBuild.Posix.Loader
import FirmwareBuild.Posix.Numeral
import FirmwareBuild.Posix.Pattern
import FirmwareBuild.Posix.Program
import FirmwareBuild.Posix.Program.Arguments
import FirmwareBuild.Posix.Program.Characters
import FirmwareBuild.Posix.Program.Copying
import FirmwareBuild.Posix.Program.Counting
import FirmwareBuild.Posix.Program.Date
import FirmwareBuild.Posix.Program.Environment
import FirmwareBuild.Posix.Program.Fields
import FirmwareBuild.Posix.Program.Linking
import FirmwareBuild.Posix.Program.Listing
import FirmwareBuild.Posix.Program.Making
import FirmwareBuild.Posix.Program.Mode
import FirmwareBuild.Posix.Program.Order
import FirmwareBuild.Posix.Program.Printing
import FirmwareBuild.Posix.Program.Reading
import FirmwareBuild.Posix.Program.Searching
import FirmwareBuild.Posix.Program.Sequence
import FirmwareBuild.Posix.Program.Sorting
import FirmwareBuild.Posix.Program.Source
import FirmwareBuild.Posix.Program.Target
import FirmwareBuild.Posix.Quoting
import FirmwareBuild.Posix.Regex
import FirmwareBuild.Posix.Shell.Act
import FirmwareBuild.Posix.Shell.Arithmetic
import FirmwareBuild.Posix.Shell.Builtin
import FirmwareBuild.Posix.Shell.Call
import FirmwareBuild.Posix.Shell.CommandName
import FirmwareBuild.Posix.Shell.Complaint
import FirmwareBuild.Posix.Shell.Field
import FirmwareBuild.Posix.Shell.Interpreter
import FirmwareBuild.Posix.Shell.Options
import FirmwareBuild.Posix.Shell.Reader
import FirmwareBuild.Posix.Shell.Script
import FirmwareBuild.Posix.Shell.Setting
import FirmwareBuild.Posix.Shell.Signal
import FirmwareBuild.Posix.Shell.Source
import FirmwareBuild.Posix.Shell.State
import FirmwareBuild.Posix.Shell.Test
import FirmwareBuild.Posix.Shell.Tilde
import FirmwareBuild.Posix.Shell.Token
import FirmwareBuild.Posix.Shell.Trap
import FirmwareBuild.Posix.Shell.Variables
import FirmwareBuild.Posix.Shell.WorkingDirectory
import FirmwareBuild.PrebuiltTools
import FirmwareBuild.Proofs.AbsolutePaths
import FirmwareBuild.Proofs.AppendedDirectories
import FirmwareBuild.Proofs.ArrangedSettings
import FirmwareBuild.Proofs.BuildFlags
import FirmwareBuild.Proofs.CommandOutcomes
import FirmwareBuild.Proofs.CompilerVersion
import FirmwareBuild.Proofs.ConfLocations
import FirmwareBuild.Proofs.DiskChanges
import FirmwareBuild.Proofs.DiskGrowth
import FirmwareBuild.Proofs.DiskPaths
import FirmwareBuild.Proofs.EnteredWorkspaces
import FirmwareBuild.Proofs.FailedBuild
import FirmwareBuild.Proofs.FailedPreparation
import FirmwareBuild.Proofs.FileTrees
import FirmwareBuild.Proofs.FollowedPaths
import FirmwareBuild.Proofs.HandedEnvironment
import FirmwareBuild.Proofs.Hexadecimal
import FirmwareBuild.Proofs.InterpreterAnswer
import FirmwareBuild.Proofs.JoinedPaths
import FirmwareBuild.Proofs.JsonText
import FirmwareBuild.Proofs.KeptTools
import FirmwareBuild.Proofs.MadeDirectories
import FirmwareBuild.Proofs.ManifestText
import FirmwareBuild.Proofs.NamedConfiguration
import FirmwareBuild.Proofs.OneWorkspace
import FirmwareBuild.Proofs.OverlayDifference
import FirmwareBuild.Proofs.OverlayFrame
import FirmwareBuild.Proofs.OverlayLookup
import FirmwareBuild.Proofs.OverlayRefinement
import FirmwareBuild.Proofs.PathNames
import FirmwareBuild.Proofs.PhaseOrder
import FirmwareBuild.Proofs.PreparedOverlay
import FirmwareBuild.Proofs.RepeatedPreparation
import FirmwareBuild.Proofs.RepeatedResolution
import FirmwareBuild.Proofs.Resolution
import FirmwareBuild.Proofs.ResumedSeeding
import FirmwareBuild.Proofs.RootedChanges
import FirmwareBuild.Proofs.RootedSteps
import FirmwareBuild.Proofs.RootedTrees
import FirmwareBuild.Proofs.RunFrame
import FirmwareBuild.Proofs.SearchPath
import FirmwareBuild.Proofs.SeededFiles
import FirmwareBuild.Proofs.SeededTrees
import FirmwareBuild.Proofs.Seeding
import FirmwareBuild.Proofs.SettingsText
import FirmwareBuild.Proofs.ShellQuoting
import FirmwareBuild.Proofs.ShownEnvironment
import FirmwareBuild.Proofs.SparedSources
import FirmwareBuild.Proofs.StagedFiles
import FirmwareBuild.Proofs.StandingPaths
import FirmwareBuild.Proofs.StoppedStaging
import FirmwareBuild.Proofs.StraySettings
import FirmwareBuild.Proofs.TextCuts
import FirmwareBuild.Proofs.TomlTables
import FirmwareBuild.Proofs.TomlText
import FirmwareBuild.Proofs.ToolSteps
import FirmwareBuild.Proofs.TreeCopies
import FirmwareBuild.Proofs.UserFiles
import FirmwareBuild.Proofs.Utf8
import FirmwareBuild.Proofs.VisualStudioSearch
import FirmwareBuild.Session
import FirmwareBuild.Session.Probe
import FirmwareBuild.Session.Runner
import FirmwareBuild.Settings
import FirmwareBuild.Settings.File
import FirmwareBuild.Staging
import FirmwareBuild.Staging.Manifest
import FirmwareBuild.Text
import FirmwareBuild.Text.Utf8
import FirmwareBuild.Toml
import FirmwareBuild.Toml.Reader
import FirmwareBuild.Toml.Scalar
import FirmwareBuild.Toolchain
import FirmwareBuild.Toolchain.Resolution
import FirmwareBuild.Toolchain.VisualStudio
import FirmwareBuild.Workspace
import FirmwareBuild.Workspace.Preparation
