import FirmwareBuild.Toolchain.VisualStudio

/-! # Finding the toolchain of the host

Resolution reads the overlay, asks at most one command for its output and looks at
files. It changes none of them; what follows from the answer is for preparation. -/

namespace FirmwareBuild.Toolchain

def versionCommand (compiler : String) : Command :=
  .captured [compiler.toList, "-dumpversion".toList]

def resolve (bench : Workbench) : Run Toolchain := do
  match bench.host with
  | .macos =>
    let output ← bench.runner (versionCommand "clang")
    return { identifier := xcode5, version := Text.trim output }
  | .posix =>
    let output ← bench.runner (versionCommand "gcc")
    match gnu output with
    | .ok toolchain => return toolchain
    | .error e => throw e
  | .windows => VisualStudio.resolve bench
  | .unsupported => return .unresolved

end FirmwareBuild.Toolchain
