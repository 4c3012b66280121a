import Std.Time
import Interchange.Calendar.Date
import Interchange.Command.Run
import Interchange.Json.Text

/-!
The command line: arguments in, a report on standard output or a failure on standard error, and an exit
code.
-/

namespace Interchange.Command

open Files (Access FileFlaw Location)

/-- The flaw that an error of the system stands for; the sign of its number does not matter. -/
def flawOfNumber (code : UInt32) (details : String) : FileFlaw :=
  match min code.toNat (0x100000000 - code.toNat) with
  | 20 => .folderOnTheWay
  | 21 => .folder
  | n => .refused (details.capitalize ++ " (os error " ++ toString n ++ ")")

def flawOf : IO.Error → FileFlaw
  | .noFileOrDirectory _ _ _ => .missing
  | .inappropriateType _ code details => flawOfNumber code details
  | .permissionDenied _ code details => flawOfNumber code details
  | .invalidArgument _ code details => flawOfNumber code details
  | .resourceExhausted _ code details => flawOfNumber code details
  | .otherError code details => flawOfNumber code details
  | e => .refused (toString e)

/-- Access to the files of the system. A file is what can be read. -/
def systemFiles : Access IO where
  read p := do
    match ← (IO.FS.readBinFile p).toBaseIO with
    | .ok content => return .ok content.toList
    | .error e => return .error (flawOf e)
  isFile p := return (← (IO.FS.readBinFile p).toBaseIO).isOk

def today : IO String := do
  let d ← Std.Time.PlainDate.now
  return Calendar.Date.text ⟨d.year.toInt, d.month.toNat, d.day.toNat⟩

/-- The forms that a command may have. -/
def usage : String :=
  "Usage: edi [OPTIONS] <COMMAND>\n\nCommands:\n" ++
    "  process <INPUT> --interface <INTERFACE>\n" ++
    "  schema <SCHEMA> [--client <CLIENT>] [--rules <RULES>]\n" ++
    "  rules <FILE>\n\nOptions:\n" ++
    "  --config <CONFIG>\n  --log-level <LOG_LEVEL>\n"

def version : String := "edi 0.1.0\n"

/-- Answers a request; the result is the exit code. -/
def answer : Request → IO UInt32
  | .help => do
    IO.print usage
    return 0
  | .version => do
    IO.print version
    return 0
  | .misuse => do
    IO.eprint usage
    return 2
  | .run invocation => do
    match ← Command.run systemFiles (← today) invocation with
    | .error f =>
      IO.eprint f.text
      return 1
    | .ok outcome =>
      IO.println outcome.report.toText
      return if outcome.success then 0 else 1

end Interchange.Command

def main (arguments : List String) : IO UInt32 :=
  Interchange.Command.answer (.ofArguments arguments)
