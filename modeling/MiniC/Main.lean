import MiniC.Command

/-! # The program

The outer layer: it reads the one file that a command names and writes what the command says.
-/

namespace MiniC

/-- A fault of the system as a reason that a file cannot be read. -/
def ReadError.ofFault : IO.Error → ReadError
  | .noFileOrDirectory _ _ _ => notFound
  | .permissionDenied _ _ _ => denied
  | .inappropriateType _ code details | .otherError code details =>
    failed (details ++ " (os error " ++ toString code ++ ")")
  | fault => failed (toString fault)

def readFile (path : String) : IO (Except ReadError String) := do
  try
    return decodeText (← IO.FS.readBinFile path)
  catch fault => return .error (.ofFault fault)

end MiniC

def main (args : List String) : IO UInt32 := do
  let path := match MiniC.Command.takeColors .auto args with
    | .ok (_, rest) => (MiniC.Command.ofArgs rest).path?
    | .error _ => none
  let contents ← match path with
    | some path => MiniC.readFile path
    | none => pure (.error .notFound)
  let err ← IO.getStderr
  let outcome := MiniC.Command.runArgs (fun _ => contents) (← err.isTty) args
  IO.print outcome.out
  err.putStr outcome.err
  return outcome.status.toUInt32
