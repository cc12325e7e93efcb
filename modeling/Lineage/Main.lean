import Lineage.Log
import Lineage.Program

/-!
# The command-line program

The outer layer: arguments, environment and files in, output, messages and exit code out.
-/

namespace Lineage.Main

def faultOf : IO.Error → FileFault
  | .noFileOrDirectory _ _ _ => .missing
  | .inappropriateType _ code details => ofCode code details
  | .resourceExhausted _ code details => ofCode code details
  | .invalidArgument _ code details => ofCode code details
  | e => .other (toString e)
where
  /-- The code may come with its sign changed. -/
  ofCode (code : UInt32) (details : String) : FileFault :=
    let code := if code < 0x80000000 then code else 0 - code
    if code = 20 then .notDirectory
    else if code = 21 then .isDirectory
    else if code = 36 then .nameTooLong
    else .other (details ++ " (os error " ++ toString code ++ ")")

def readBytes (path : String) : IO (Except FileFault ByteArray) := do
  if path.toList.contains '\x00' then return .error .nulInPath
  try
    return .ok (← IO.FS.readBinFile path)
  catch e =>
    return .error (faultOf e)

/-- A file that is there but cannot be read is a file. -/
def isFile (path : String) : IO Bool := do
  match ← readBytes path with
  | .ok _ => return true
  | .error (.other _) => return true
  | .error _ => return false

def read (path : String) : IO (Except FileFault String) := do
  match ← readBytes path with
  | .error fault => return .error fault
  | .ok bytes =>
    match String.fromUTF8? bytes with
    | some text => return .ok text
    | none => return .error .notUtf8

def files : Files IO where
  isFile := isFile
  read := read

def logVariables : IO (String → Option String) := do
  let names := Log.filterVariables ++ [Log.formVariable]
  let values ← names.mapM fun name => return (name, ← IO.getEnv name)
  return fun name => (values.lookup name).join

end Lineage.Main

open Lineage in
def main (words : List String) : IO UInt32 := do
  let log := Log.Setup.ofEnvironment? (← Main.logVariables)
  let stdout ← IO.getStdout
  let stderr ← IO.getStderr
  let terminals := { output := ← stdout.isTty, messages := ← stderr.isTty }
  let workDir := toString (← IO.currentDir)
  let outcome ← Program.runLogged Main.files workDir terminals log words
  for line in (log.map (·.complaints)).getD [] do
    stderr.putStrLn line
  for line in (log.map (·.lines outcome.log.toList)).getD [] do
    stderr.putStrLn line
  for line in outcome.messages do
    stderr.putStrLn line
  stdout.putStr outcome.output
  stdout.flush
  return UInt32.ofNat outcome.exitCode
