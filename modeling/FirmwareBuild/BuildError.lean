import FirmwareBuild.Disk.IoError
import FirmwareBuild.Host
import FirmwareBuild.Text.Utf8

/-! # Why a run fails

Every failure ends the run. An error names its cause as data; the wording is in
one place, `BuildError.message`, and `BuildError.report` puts an error and the
causes below it on one line. -/

namespace FirmwareBuild

/-- What was being done to a path. -/
inductive FileAction where
  | openWorkspace
  | enterWorkspace
  | read
  | create
  | copy
  deriving DecidableEq, Repr

def FileAction.name (action : FileAction) : Text :=
  String.toList <| match action with
  | openWorkspace => "cannot open workspace"
  | enterWorkspace => "cannot enter workspace"
  | read => "failed to read"
  | create => "failed to create"
  | copy => "failed to copy"

inductive BuildError where
  | unsupportedHost (host : Host)
  | visualStudioNotFound
  | unknownFlag (token : Text)
  /-- Compiler output that holds no version. -/
  | compilerVersion (output : Text)
  | launch (line : Text) (cause : IoError)
  /-- A command that ended with an exit status other than success. -/
  | commandFailed (line : Text) (status : Nat)
  | toolsRebuild (cause : BuildError)
  | payloadBuild (cause : BuildError)
  | io (action : FileAction) (path : Bytes) (cause : IoError)
  | manifest (path : Bytes)
  | settings (path : Bytes)
  deriving DecidableEq, Repr

namespace BuildError

/-- A command line as it stands in messages. -/
def quoted (line : Text) : Text := '\x60' :: line ++ ['\x60']

/-- The wording of an error, without its cause. -/
def message : BuildError → Text
  | unsupportedHost host => "Unsupported operating system (".toList ++ host.name ++ ") !".toList
  | visualStudioNotFound => "Could not find supported Visual Studio version !".toList
  | unknownFlag token => "Unknown target ".toList ++ token ++ " !".toList
  | compilerVersion output => "could not parse compiler version from ".toList ++ quoted output
  | launch line _ => "failed to launch ".toList ++ quoted line
  | commandFailed line status =>
    quoted line ++ " exited with exit status: ".toList ++ Text.ofNat status
  | toolsRebuild _ =>
    "Build BaseTools failed, please check required build environment and utilities !".toList
  | payloadBuild _ => "Failed to do Build SMM Payload!".toList
  | io action path _ => action.name ++ ' ' :: Utf8.decodeLossy path
  | manifest path => "invalid copy manifest ".toList ++ Utf8.decodeLossy path
  | settings path => "invalid configuration file ".toList ++ Utf8.decodeLossy path

/-- An error and the causes below it, the outermost first. -/
def report : BuildError → Text
  | launch line cause => message (launch line cause) ++ ": ".toList ++ cause.message
  | toolsRebuild cause => message (toolsRebuild cause) ++ ": ".toList ++ report cause
  | payloadBuild cause => message (payloadBuild cause) ++ ": ".toList ++ report cause
  | io action path cause => message (io action path cause) ++ ": ".toList ++ cause.message
  | e => message e

end BuildError

end FirmwareBuild
