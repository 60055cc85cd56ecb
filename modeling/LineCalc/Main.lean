import LineCalc.Command

set_option autoImplicit false

/- Standard streams and the process environment. -/
namespace LineCalc

/-- Everything that is left on a stream. -/
partial def readRest (stream : IO.FS.Stream) (taken : ByteArray) : IO ByteArray := do
  let chunk ← stream.read 65536
  if chunk.isEmpty then return taken
  readRest stream (taken ++ chunk)

/-- The variables of this process; each entry is a name, an equals sign and a text. -/
def readEnvironment : IO Settings.Environment := do
  let bytes ← IO.FS.readBinFile "/proc/self/environ"
  let text := Text.decodeLossy bytes.toList
  let entries := (String.ofList text).splitOn "\x00"
  return entries.filterMap fun entry =>
    match entry.splitOn "=" with
    | name :: first :: more => some ⟨name, "=".intercalate (first :: more)⟩
    | _ => none

end LineCalc

open LineCalc in
def main : IO UInt32 := do
  match Command.ofEnvironment (← readEnvironment) with
  | .error error =>
    IO.eprintln s!"Failed to load configuration: {error.message}"
    return 101
  | .ok command =>
    let input ← readRest (← IO.getStdin) .empty
    let completion := command input.toList
    let output ← IO.getStdout
    output.write completion.output.toByteArray
    output.flush
    let errors ← IO.getStderr
    errors.write completion.errorBytes.toByteArray
    errors.flush
    return completion.status.toUInt32
