import Drumline.CommandLine.Run

/-! The program.  Its result goes to standard output and its log to standard error. -/

open Drumline CommandLine

namespace Drumline.Main

/-- The file error that an error of the system stands for. -/
def fileError : IO.Error → FileError
  | .noFileOrDirectory .. => .notFound
  | .inappropriateType _ code details =>
    if code == 20 || code == 0 - 20 then .notDirectory
    else if code == 21 || code == 0 - 21 then .isDirectory
    else .other details.toList
  | e => .other (toString e).toList

/-- The host of the running program. -/
def host : Host IO where
  readInput := do
    let input ← IO.getStdin
    let mut bytes := ByteArray.empty
    repeat
      let chunk ← input.read 65536
      if chunk.isEmpty then break
      bytes := bytes ++ chunk
    return bytes
  readFile path := do
    try
      return .ok (← IO.FS.readBinFile (String.ofList path))
    catch e =>
      return .error (fileError e)
  writeFile path text := do
    try
      return .ok (← IO.FS.writeBinFile (String.ofList path) (encode text))
    catch e =>
      return .error (fileError e)

/-- What a request for help, or a wrong one, is answered with. -/
def usage : String :=
  "Usage: drumline [-q] [-v] convert [MML] [-f FILE] [--strip-volume] [--strip-tempo]\n" ++
  "           [-c CONFIG] [--format text|json] [-o OUTPUT]\n" ++
  "       drumline [-q] [-v] tokens MML [--format debug|json]\n" ++
  "       drumline [-q] [-v] table"

end Drumline.Main

def main (arguments : List String) : IO UInt32 := do
  match ← run Drumline.Main.host (arguments.map String.toList) with
  | .error refusal =>
    if refusal = .help then IO.println Drumline.Main.usage
    else IO.eprintln Drumline.Main.usage
    return refusal.exitCode
  | .ok printed =>
    for text in printed.errors do
      IO.eprintln (String.ofList text)
    IO.print (String.ofList printed.output)
    return printed.exitCode
