import FixedLayout.CommandLine.Answer

/-! The command itself. It reads the files that a request may depend on, does what the answer says
and ends with its code. -/

namespace FixedLayout.CommandLine

def FileFault.ofFailure (e : IO.Error) : FileFault :=
  match e with
  | .noFileOrDirectory .. | .noSuchThing .. => .notFound
  | .permissionDenied .. => .denied
  | .inappropriateType _ code _ => if code = 20 then .notDirectory else .isDirectory
  | .invalidArgument _ 36 _ => .nameTooLong
  | e => .unknown (toString e)

def readText (path : String) : IO (Except FileFault String) := do
  match ← (IO.FS.withFile path .read (·.readBinToEnd)).toBaseIO with
  | .ok bytes =>
    match String.fromUTF8? bytes with
    | some text => return .ok text
    | none => return .error .notText
  | .error e => return .error (.ofFailure e)

def writeText (path text : String) : IO (Except FileFault Unit) := do
  match ← (IO.FS.writeFile path text).toBaseIO with
  | .ok () => return .ok ()
  | .error e => return .error (.ofFailure e)

def Request.run (request : Request) : IO Report := do
  let texts ← request.inputs.mapM fun path => do return (path, ← readText path)
  match request.answer fun path => (texts.lookup path).getD (.error .notFound) with
  | .done report => return report
  | .write path text next => return next (← writeText path text)

end FixedLayout.CommandLine

open FixedLayout.CommandLine in
def main (args : List String) : IO UInt32 := do
  let report ← (Request.ofArguments args).run
  IO.print report.out
  IO.eprint report.err
  return .ofNat report.code
