import Turnstile.CommandLine.Run

/-! The program reads what the command line asks for, runs it and writes what comes out. All
that depends on the system is here and outside the theory: files and input are read before the
command runs, and sessions on a terminal are read like any other input. -/
namespace Turnstile

namespace Program

partial def readToEnd (stream : IO.FS.Stream) (read : ByteArray) : IO Text := do
  let bytes ← stream.read 65536
  if bytes.isEmpty then return read.toList else readToEnd stream (read ++ bytes)

def reason (path : String) : IO.Error → String
  | .noFileOrDirectory .. => "open " ++ path ++ ": no such file or directory"
  | .permissionDenied .. => "open " ++ path ++ ": permission denied"
  | .inappropriateType .. => "read " ++ path ++ ": is a directory"
  | e => "open " ++ path ++ ": " ++ e.toString

def readContent (path : String) : IO (Except Text Text) := do
  match ← (IO.FS.readBinFile path).toBaseIO with
  | .ok bytes => return .ok bytes.toList
  | .error e => return .error (reason path e)

/-- The universally unique identifier of version 4 made from 128 random bits. -/
def uuid (bits : Nat) : Text :=
  Text.join "-" [Text.hex 8 (bits >>> 96), Text.hex 4 (bits >>> 80), "4" ++ Text.hex 3 (bits >>> 64),
    Text.hex 1 (8 + (bits >>> 60) % 4) ++ Text.hex 3 (bits >>> 48), Text.hex 12 bits]

def hostFor (words : List Text) : IO Host := do
  let seed ← IO.rand 0 (1 <<< 62)
  let runName (i : Nat) : Text := uuid (randNat (mkStdGen (seed + i)) 0 ((1 <<< 128) - 1)).1
  let unread : Except Text Text := .error "open: no such file or directory"
  match Invocation.ofWords words with
  | .ok (.run command s _) =>
    let input ← if command = .repl then readToEnd (← IO.getStdin) .empty else pure []
    let content ←
      if s.file.isEmpty then pure unread else readContent (String.ofList s.file.charsLossy)
    return { fileContent := fun _ => content, input := input, runName := runName }
  | _ => return { fileContent := fun _ => unread, runName := runName }

def write (stream : IO.FS.Stream) (s : Text) : IO Unit := do
  stream.write ⟨s.toArray⟩
  stream.flush

end Program

end Turnstile

def main (args : List String) : IO UInt32 := do
  let words := args.map Turnstile.Text.ofString
  let outcome := Turnstile.CommandLine.execute (← Turnstile.Program.hostFor words) words
  Turnstile.Program.write (← IO.getStdout) outcome.output
  Turnstile.Program.write (← IO.getStderr) outcome.errors
  return outcome.code.toUInt32
