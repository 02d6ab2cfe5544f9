import Meshway.Config
set_option autoImplicit false

/-!
# Command line (SPEC §10.2)

Loads the settings from the file named by the first argument, or else by
`MESH_PROXY_CONFIG`, and from the environment, and tells what they come to.
-/

namespace Meshway.CommandLine

/-- The variables of the environment, read once. -/
def readEnvironment : IO Environment := do
  let values ← Variable.all.mapM fun v => return (v.name, ← IO.getEnv v.name)
  return fun k => (values.lookup k).join

/-- The content of a file. -/
def readFile (path : String) : IO (Except FileFault Bytes) := do
  try
    return .ok (← IO.FS.readBinFile path).toList
  catch
    | .noFileOrDirectory .. => return .error .missing
    | e => throw e

/-- Loads the settings and tells what they come to. -/
def run (args : List String) : IO UInt32 := do
  let path := args.head?.or (← IO.getEnv "MESH_PROXY_CONFIG")
  let file ← path.mapM readFile
  match Config.load (path.getD "") file (← readEnvironment) with
  | .error e =>
    IO.eprintln s!"load config: {e.message}"
    return 1
  | .ok c =>
    c.summary.forM fun line => IO.println line
    return 0

end Meshway.CommandLine

def main (args : List String) : IO UInt32 := Meshway.CommandLine.run args
