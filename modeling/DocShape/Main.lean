import DocShape.Command.Run

/-!
# The program

Connects the commands to the file system and the standard streams. No log is kept:
standard error gets the failure that ended a command and nothing else. That what
a command leaves can be written is taken for granted.
-/

set_option autoImplicit false

namespace DocShape.Command

def decodeUtf8 (bytes : ByteArray) : Except FileFault String :=
  match String.fromUTF8? bytes with
  | some text => .ok text
  | none => .error .notUtf8

def fileFault : IO.Error → FileFault
  | .noFileOrDirectory .. => .notFound
  | .inappropriateType _ 21 _ => .isDirectory
  | error => .stated (toString error)

def catchFault (action : IO ByteArray) : IO (Except FileFault String) := do
  match ← action.toBaseIO with
  | .ok bytes => return decodeUtf8 bytes
  | .error error => return .error (fileFault error)

partial def readAll (stream : IO.FS.Stream) (read : ByteArray) : IO ByteArray := do
  let bytes ← stream.read 65536
  if bytes.isEmpty then return read else readAll stream (read ++ bytes)

def systemWorld : World IO :=
  { file := fun path => catchFault (IO.FS.readBinFile path)
    input := catchFault do readAll (← IO.getStdin) .empty }

end DocShape.Command

def main (arguments : List String) : IO UInt32 := do
  let exit ← DocShape.Command.run DocShape.Command.systemWorld arguments
  (← IO.getStdout).putStr exit.output
  (← IO.getStderr).putStr exit.errors
  return UInt32.ofNat exit.code
