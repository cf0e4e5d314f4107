import DeepLink.CommandLine
import DeepLink.Url.Domain

/-!
# The program

Reads the file that the arguments name, if they do, and writes what the command line leaves behind.
Domain names in URLs have to be written in ASCII.
-/

namespace DeepLink.CommandLine

/-- The content of a file, or why it cannot be read. -/
def readContent (path : String) : IO (Except String String) := do
  try
    let text ← IO.FS.readFile path
    return .ok text
  catch e =>
    match e with
    | .noFileOrDirectory _ _ _ => return .error "No such file or directory (os error 2)"
    | other => return .error (toString other)

end DeepLink.CommandLine

open DeepLink DeepLink.CommandLine in
def main (arguments : List String) : IO UInt32 := do
  let content ← match fileOf? arguments with
    | some path => readContent path
    | none => pure (.error "")
  let outcome := run Url.Domain.asciiName? (fun _ => content) arguments
  IO.print outcome.stdout
  IO.eprint outcome.stderr
  return outcome.code.toUInt32
