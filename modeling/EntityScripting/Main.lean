import EntityScripting.Runner.Basic

/-! The command line: reads and writes real files, prints the log and the output of a run. -/

open EntityScripting

/-- The files of the machine. -/
def machineFiles : FileAccess IO where
  readText path := do
    let reason (e : IO.Error) : FileError :=
      match e with
      | .noFileOrDirectory .. => .notFound
      | .inappropriateType .. => .isDirectory
      | e => .other (toString e)
    match ← (IO.FS.readBinFile path).toBaseIO with
    | .ok bytes =>
      match Text.decode? bytes.toList with
      | some text => return .ok text
      | none => return .error .notText
    | .error e => return .error (reason e)
  writeText path text := do
    match ← (IO.FS.writeFile path text).toBaseIO with
    | .ok () => return .ok ()
    | .error e => return .error (.other (toString e))

def severityName : Severity → String
  | .debug => "DEBUG"
  | .info | .print => "INFO"
  | .warn => "WARN"

def main (words : List String) : IO UInt32 := do
  let seed ← IO.monoNanosNow
  let report ← Runner.run Script.Limits.generous seed machineFiles words
  for record in report.log do
    if record.severity ≠ .debug then
      IO.eprintln s!"[{severityName record.severity}] {record.text}"
  for line in report.output do
    IO.println line
  if let some error := report.error then IO.eprintln s!"Error: {error}"
  return report.code.toUInt32
