import RiscvMachine.CommandLine.Session
/-!
The command line program.
-/

open RiscvMachine CommandLine

def readImage (path : String) : IO (Except String (List Byte)) := do
  try
    let content ← IO.FS.readBinFile path
    return .ok (content.toList.map fun byte => byte.toBitVec)
  catch error =>
    return .error (toString error)

def main (arguments : List String) : IO UInt32 := do
  let content ← match parse .none arguments with
    | .run settings =>
        match settings.image with
        | some path => readImage path
        | none => pure (.error "")
    | .version | .help | .invalid => pure (.error "")
  let report := respond (fun _ => content) arguments
  IO.print report.output
  IO.eprint report.errors
  return UInt32.ofNat report.exitCode
