import SessionShell.Program
import Std.Time.DateTime

/-!
The command line. Files are read once, before the first prompt. On a terminal the session is run
anew for each line on all that was typed so far, with the times of typing, and only what is new of
its output is shown.
-/

namespace SessionShell.Main

open Text.Utf8 (Bytes)

def errorCode : IO.Error → UInt32
  | .alreadyExists _ code _ | .noFileOrDirectory _ code _ | .invalidArgument _ code _
  | .permissionDenied _ code _ | .resourceExhausted _ code _ | .inappropriateType _ code _
  | .noSuchThing _ code _ | .interrupted _ code _ | .otherError code _ | .resourceBusy code _
  | .resourceVanished code _ | .unsupportedOperation code _ | .hardwareFault code _
  | .unsatisfiedConstraints code _ | .illegalOperation code _ | .protocolError code _
  | .timeExpired code _ => code
  | .unexpectedEof | .userError _ => 0

def fileError (e : IO.Error) : FileError :=
  match errorCode e with
  | 2 => .notFound
  | 20 => .notDirectory
  | 21 => .isDirectory
  | 36 => .nameTooLong
  | _ => .other e.toString

def readFile (path : String) : IO (String × Except FileError Bytes) := do
  try
    let content ← IO.FS.readBinFile path
    return (path, .ok content.toList)
  catch e => return (path, .error (fileError e))

/-- Reads the manifests of a directory, by the paths under which its modules are looked for. -/
def readManifests (dir : String) : IO Files := do
  try
    let entries ← (← IO.FS.realPath dir).readDir
    let known ← entries.toList.mapM fun e => readFile (Files.join dir e.fileName)
    return Files.ofList known .notFound
  catch e => return Files.ofList [] (fileError e)

def environment : IO Environment := do
  let names := ["NESTED_SHELL_PROMPT", "NESTED_SHELL_MODULES", "NESTED_SHELL_LOG_LEVEL", "RUST_LOG"]
  let vars ← names.mapM fun name => do return (name, ← IO.getEnv name)
  return ⟨fun name => ((vars.lookup name).getD none).map Text.Utf8.encode⟩

def now : IO Instant := do
  return .ofMillis (← Std.Time.Timestamp.now).toMillisecondsSinceUnixEpoch.toInt

partial def readAll (input : IO.FS.Stream) (read : ByteArray) : IO ByteArray := do
  let chunk ← input.read 65536
  if chunk.isEmpty then return read else readAll input (read ++ chunk)

/-- Reads what is typed next, up to the end of a line. -/
partial def readTyped (input : IO.FS.Stream) (read : ByteArray) : IO ByteArray := do
  let chunk ← input.read 4096
  let read := read ++ chunk
  if chunk.isEmpty || chunk.toList.contains Text.newline then return read else readTyped input read

def finish (errors : List String) (code : Nat) : IO UInt32 := do
  errors.forM IO.eprintln
  return UInt32.ofNat code

/-- Runs a session on a terminal, of whose output `shown` characters are on the screen already. -/
partial def converse (c : Config) (files : Files) (start : Instant) (input output : IO.FS.Stream)
    (typed : List Entry) (shown : Nat) : IO UInt32 := do
  let (outcome, w) := Program.runSession c files (typed ++ [{ outcome := .aborted }]) start
  let text := Program.outputText w
  output.putStr (String.ofList (text.toList.drop shown))
  output.flush
  match outcome with
  | .aborted =>
    let bytes ← readTyped input .empty
    let time := Outside.clock (← now)
    let outcomes := match Text.lines bytes.toList with
      | [] => [ReadOutcome.endOfInput]
      | lines => lines.map ReadOutcome.line
    let entries := outcomes.map fun outcome => { before := [time], outcome }
    converse c files start input output (typed ++ entries) text.length
  | outcome =>
    let (code, errors) := Program.ending outcome
    finish errors code

/-- The reads that standard input yields when it is no terminal. -/
def standardReads (input : IO.FS.Stream) : IO (List Entry) := do
  try
    return Program.script (← readAll input .empty).toList
  catch e => return [{ outcome := .failed (fileError e).message }]

def main (args : List String) : IO UInt32 := do
  let argv := ("nested-shell" :: args).map Text.Utf8.encode
  let env ← environment
  let configPath := (Options.parse argv).toOption.bind Options.config
  let configFile := Files.ofList (← configPath.toList.mapM readFile) .notFound
  let input ← IO.getStdin
  let output ← IO.getStdout
  match Program.plan argv env configFile with
  | .ok (.session c) =>
    let files ← c.modulesDir.elim (pure (Files.ofList [] .notFound)) readManifests
    let start ← now
    if ← input.isTty then converse c files start input output [] 0
    else
      let (outcome, w) := Program.runSession c files (← standardReads input) start
      let (code, errors) := Program.ending outcome
      output.putStr (Program.outputText w)
      output.flush
      finish errors code
  | _ =>
    let result := Program.run argv env configFile [] default
    output.putStr result.output
    output.flush
    finish result.errors result.exitCode

end SessionShell.Main

def main (args : List String) : IO UInt32 := SessionShell.Main.main args
