import JsonShape.Command.Run
import JsonShape.Document.Lenient
import JsonShape.Settings.Standard

/-!
# The program

The outer layer of the command line: it reads the settings file, the environment and the input, runs the
command and writes what its report says.
-/

namespace JsonShape.Program

/-- The cause of an error of the file system. -/
def fileError : IO.Error → FileError
  | .noFileOrDirectory _ _ _ => .notFound
  | .inappropriateType _ code _ => if code = 21 then .isADirectory else .notADirectory
  | _ => .notFound

/-- Access to the files of the system. -/
def files : Files IO where
  read p := do
    if p.parts.any (·.toList.contains '\x00') then return .error .nullInName
    try return .ok (← IO.FS.readBinFile p.display).toList
    catch e => return .error (fileError e)
  write p text := do
    if p.parts.any (·.toList.contains '\x00') then return .error .nullInName
    try
      IO.FS.writeFile p.display text
      return .ok ()
    catch e => return .error (fileError e)

/-- A variable and its value, from an entry `name=value`. -/
def assignment? (entry : String) : Option (String × String) :=
  match entry.toList.dropWhile (· ≠ '=') with
  | _ :: value => some (String.ofList (entry.toList.takeWhile (· ≠ '=')), String.ofList value)
  | [] => none

/-- The environment of the process, where the system shows it as a file. -/
def environment : IO Environment := do
  match ← files.read (.ofString "/proc/self/environ") with
  | .ok content =>
    let text := (String.fromUTF8? (ByteArray.mk content.toArray)).getD ""
    return (text.splitOn "\x00").filterMap assignment?
  | .error _ => return []

/-- The directory of a user's settings. -/
def settingsDirectory (env : Environment) : String :=
  (env.lookup "HOME").getD "" ++ "/.config/json-typegen"

/-- Everything on standard input. -/
def standardInput : IO String := do (← IO.getStdin).readToEnd

/-- Writes what a report says, and gives its exit code. -/
def conclude (directory file : String) (r : Command.Report) : IO UInt32 := do
  if let some text := r.saved then
    IO.FS.createDirAll directory
    IO.FS.writeFile file text
  IO.print r.stdout
  IO.eprint r.stderr
  if let some e := r.escaped then IO.eprintln e.message
  match r.served with
  | some .streams => IO.eprintln "serve: standard streams"
  | some (.network transport host port) => IO.eprintln s!"serve: {transport} {host} {port}"
  | none => pure ()
  return r.exitCode.toUInt32

/-- Runs the command line. -/
def start [Json5Decoder] [Validator] (args : List String) : IO UInt32 := do
  let env ← environment
  let directory := settingsDirectory env
  let file := directory ++ "/config.json"
  let text ←
    match ← files.read (.ofString file) with
    | .ok content => pure (Command.fileText content).toOption
    | .error _ => pure none
  match Settings.load file text env with
  | .error e =>
    IO.eprintln ((e.message?).getD "The settings are invalid")
    return 1
  | .ok settings => conclude directory file (← Command.run files standardInput file settings args)

end JsonShape.Program

/-- The program. -/
def main (args : List String) : IO UInt32 :=
  letI := JsonShape.Lenient.decoder
  letI := JsonShape.Standard.validator
  JsonShape.Program.start args
