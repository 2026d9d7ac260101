import InlineAsm.Function.Basic
import InlineAsm.Toolchain.Config

/-!
The toolchain as a bridge. The host that it runs on is described by what it answers: whether a directory for the build
can be made, how the compiler ends, and what loading an artifact gives.
-/

namespace InlineAsm.Toolchain

/-- How the run of a program ends. -/
inductive Ending where
  /-- It could not be started, for a reason. -/
  | notStarted (reason : String)
  /-- It wrote diagnostics and left with a status, if by itself, and with or without an artifact. -/
  | ended (status : Option Int) (diagnostics : String) (artifact : Bool)

structure Host where
  /-- Makes a fresh directory, in the given one if there is one, or fails for a reason. -/
  makeDirectory : Option String → Except String String
  /-- Runs a program with arguments on a source, which lies in its file. -/
  run : String → List String → String → Ending
  load : String → List NativeType → Except Error Entry

namespace Host

/-- Files for a compilation in a directory. -/
def sourcePath (directory : String) : String := directory ++ "/xasm.c"

def artifactPath (directory : String) : String := directory ++ "/xasm.so"

/-- Only a status of zero together with an artifact counts as success. -/
def compile (host : Host) (c : Config) (source : String) : Except Error String := do
  let directory ← (host.makeDirectory c.buildDir).mapError .io
  let artifact := artifactPath directory
  match host.run c.compiler (c.arguments (sourcePath directory) artifact) source with
  | .notStarted reason => throw (.compilation none ("Can not run '" ++ c.compiler ++ "': " ++ reason))
  | .ended status diagnostics made =>
    if status = some 0 ∧ made then return artifact
    else match Text.trim diagnostics.toList with
      | [] => throw (.compilation status ("'" ++ c.compiler ++ "' produced no artifact"))
      | text => throw (.compilation status (String.ofList text))

variable {m : Type → Type} [Monad m]

def bridge (host : Host) (c : Config) : Bridge m where
  compile source := pure (host.compile c source)
  load artifact signature := pure (host.load artifact signature)

/-- The bridge for the settings of an environment, which are read when a compilation runs. -/
def environmentBridge (host : Host) (get? : String → Option String) : Bridge m where
  compile source := pure (do host.compile (← Config.ofEnvironment get?) source)
  load artifact signature := pure (host.load artifact signature)

end Host

end InlineAsm.Toolchain
