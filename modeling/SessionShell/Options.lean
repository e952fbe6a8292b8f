import SessionShell.Text.Blank
import SessionShell.Text.Quoted

namespace SessionShell

open Text.Utf8 (Bytes)

namespace Options

inductive Switch
  | help
  | version
  | debug
deriving DecidableEq, Repr

inductive Setting
  | config
  | prompt
  | modules
  | logLevel
deriving DecidableEq, Repr

inductive Key
  | switch (s : Switch)
  | setting (s : Setting)
deriving DecidableEq, Repr

def Key.ofShort? : Char → Option Key
  | 'h' => some (.switch .help)
  | 'V' => some (.switch .version)
  | 'd' => some (.switch .debug)
  | 'c' => some (.setting .config)
  | 'p' => some (.setting .prompt)
  | 'm' => some (.setting .modules)
  | 'l' => some (.setting .logLevel)
  | _ => none

def Key.ofLong? : String → Option Key
  | "help" => some (.switch .help)
  | "version" => some (.switch .version)
  | "debug" => some (.switch .debug)
  | "config" => some (.setting .config)
  | "prompt" => some (.setting .prompt)
  | "modules" => some (.setting .modules)
  | "log-level" => some (.setting .logLevel)
  | _ => none

inductive Occurrence
  | switch (s : Switch)
  | setting (s : Setting) (value : String)
deriving DecidableEq, Repr

end Options

open Options

inductive OptionError
  /-- An option as it is spelled, with its dashes. -/
  | unknown (option : String)
  | missingValue (option : String)
  | unexpectedValue (option : String) (value : Bytes)
  | notText (value : Bytes)
  | blankLogLevel (value : String)
  | unexpectedArgument (argument : String)
deriving DecidableEq, Repr

def OptionError.message : OptionError → String
  | unknown option => "invalid option '" ++ option ++ "'"
  | missingValue option => "missing argument for option '" ++ option ++ "'"
  | unexpectedValue option value =>
    "unexpected argument for option '" ++ option ++ "': " ++ Text.quoteBytes value
  | notText value => "argument is invalid unicode: " ++ Text.quoteBytes value
  | blankLogLevel value => "invalid value for --log-level: '" ++ value ++ "'"
  | unexpectedArgument argument => "unexpected argument: '" ++ argument ++ "'"

namespace Options

def dash : UInt8 := 0x2d

def equals : UInt8 := 0x3d

def lossyText (bytes : Bytes) : String := String.ofList (Text.Utf8.decodeLossy bytes)

/-- What an argument is where an option may stand. -/
inductive Token
  | terminator
  | long (name : String) (value : Option Bytes)
  | cluster (shorts : Bytes)
  | value (bytes : Bytes)

def Token.ofBytes : Bytes → Token
  | 0x2d :: 0x2d :: [] => .terminator
  | 0x2d :: 0x2d :: body =>
    let (name, rest) := body.span (· ≠ equals)
    .long (lossyText name) rest.tail?
  | 0x2d :: s :: shorts => .cluster (s :: shorts)
  | bytes => .value bytes

/-- A setting with its value, which has to be text, and not blank for the log filter. -/
def give (s : Setting) (value : Bytes) : Except OptionError Occurrence :=
  match Text.Utf8.decode? value with
  | none => .error (.notText value)
  | some text =>
    if s = .logLevel && Text.allBlank text then .error (.blankLogLevel text)
    else .ok (.setting s text)

/-- A setting whose value is the next argument. -/
structure Wanting where
  setting : Setting
  option : String

/-- The first character of a cluster; bytes that are none count as U+FFFD. -/
def firstChar (b : UInt8) (shorts : Bytes) : Char :=
  match Text.Utf8.pieces none ((b :: shorts).take 4) with
  | .ok c :: _ => c
  | _ => Text.Utf8.replacement

def shortText (c : Char) : String := String.ofList ['-', c]

/-- Reads a cluster of short options. Its last one may want the next argument as a value. -/
def readCluster (last : Option String) :
    Bytes → Except OptionError (List Occurrence × Option Wanting)
  | [] => .ok ([], none)
  | b :: rest =>
    match if b = equals then last else none with
    | some option => .error (.unexpectedValue option rest)
    | none =>
      let c := firstChar b rest
      let option := shortText c
      match Key.ofShort? c, rest with
      | none, _ => .error (.unknown option)
      | some (.switch s), rest => do
        let (os, wanting) ← readCluster (some option) rest
        return (.switch s :: os, wanting)
      | some (.setting s), [] => .ok ([], some ⟨s, option⟩)
      | some (.setting s), v :: vs => do
        return ([← give s (if v = equals then vs else v :: vs)], none)

/-- What an argument spells where an option may stand: occurrences, and the setting, if there is one,
that wants the next argument. A bare `--` spells nothing. -/
def readArgument (argument : Bytes) :
    Except OptionError (Option (List Occurrence × Option Wanting)) :=
  match Token.ofBytes argument with
  | .terminator => .ok none
  | .value bytes => .error (.unexpectedArgument (lossyText bytes))
  | .long name value =>
    match Key.ofLong? name, value with
    | none, _ => .error (.unknown ("--" ++ name))
    | some (.switch s), none => .ok (some ([.switch s], none))
    | some (.switch _), some value => .error (.unexpectedValue ("--" ++ name) value)
    | some (.setting s), some value => do return some ([← give s value], none)
    | some (.setting s), none => .ok (some ([], some ⟨s, "--" ++ name⟩))
  | .cluster shorts => (readCluster none shorts).map some

def occurrences : List Bytes → Except OptionError (List Occurrence)
  | [] => .ok []
  | argument :: rest =>
    match readArgument argument with
    | .error e => .error e
    | .ok none =>
      match rest with
      | [] => .ok []
      | extra :: _ => .error (.unexpectedArgument (lossyText extra))
    | .ok (some (os, none)) => do return os ++ (← occurrences rest)
    | .ok (some (os, some w)) =>
      match rest with
      | [] => .error (.missingValue w.option)
      | value :: rest => do
        let o ← give w.setting value
        return os ++ o :: (← occurrences rest)

end Options

structure Options where
  config : Option String := none
  prompt : Option String := none
  modules : Option String := none
  logLevel : Option String := none
  debug : Bool := false
  version : Bool := false
  help : Bool := false
deriving DecidableEq, Repr

namespace Options

def apply (o : Options) : Occurrence → Options
  | .switch .help => { o with help := true }
  | .switch .version => { o with version := true }
  | .switch .debug => { o with debug := true }
  | .setting .config value => { o with config := some value }
  | .setting .prompt value => { o with prompt := some value }
  | .setting .modules value => { o with modules := some value }
  | .setting .logLevel value => { o with logLevel := some value }

def parse (argv : List Bytes) : Except OptionError Options :=
  (occurrences argv.tail).map fun os => os.foldl apply {}

end Options
end SessionShell
